import Mathlib.Data.List.Basic
import Mathlib.Logic.Function.Basic
import Sv2P2pool.Framework.Trace

/-! # Programs over Atomic Operations

    A handler of a concurrent service is a program: it performs one atomic
    operation after the other, each with a result that decides how it goes
    on, and finally returns. `Prog S α` is the type of such programs over a
    signature `S` of operations; it fixes the order of the operations and
    nothing else.

    Two semantics are given to the same program, both driven by what the
    single operations do to a shared state:

    * `run`: the program runs to completion with nothing in between (a
      complete call of the handler), leaving a log of `events`;
    * `Step`: any number of programs take turns, one operation at a time,
      with steps of an environment in between.
-/

namespace Interleave

/-! ## Programs -/

/-- A signature: operations and the type of each operation's result. -/
structure Sig where
  Op : Type
  Res : Op → Type

/-- Programs over a signature, returning an `α`. -/
inductive Prog (S : Sig) (α : Type) : Type where
  /-- The program has returned. -/
  | ret (a : α)
  /-- Perform `o` and go on with its result. -/
  | op (o : S.Op) (k : S.Res o → Prog S α)

namespace Prog

variable {S : Sig} {α β γ : Type}

/-- Sequencing. -/
def bind : Prog S α → (α → Prog S β) → Prog S β
  | .ret a, f => f a
  | .op o k, f => .op o fun r => (k r).bind f

instance : Monad (Prog S) where
  pure := .ret
  bind := bind

@[simp] theorem pure_eq (a : α) : (pure a : Prog S α) = .ret a := rfl

@[simp] theorem ret_bind (a : α) (f : α → Prog S β) : (Prog.ret a >>= f) = f a := rfl

@[simp] theorem op_bind (o : S.Op) (k : S.Res o → Prog S α) (f : α → Prog S β) :
    (Prog.op o k >>= f) = .op o fun r => k r >>= f := rfl

end Prog

/-- The result, once the program has returned. -/
def Prog.result? {S : Sig} {α : Type} : Prog S α → Option α
  | .ret a => some a
  | .op _ _ => none

theorem Prog.eq_ret_of_result? {S : Sig} {α : Type} {p : Prog S α} {a : α}
    (h : p.result? = some a) : p = .ret a := by
  cases p with
  | ret b => exact congrArg Prog.ret (Option.some.inj h)
  | op o k => cases h

/-! ## Complete calls -/

section complete

variable {S : Sig} {σ α β : Type}

/-- An operation together with its result. -/
abbrev Event (S : Sig) := (o : S.Op) × S.Res o

/-- What every operation answers in every state, and the state it leaves. -/
abbrev Oracle (S : Sig) (σ : Type) := σ → (o : S.Op) → S.Res o × σ

/-- Run a program to completion, with nothing in between. -/
def run (step : Oracle S σ) : Prog S α → σ → α × σ
  | .ret a, s => (a, s)
  | .op o k, s => run step (k (step s o).1) (step s o).2

@[simp] theorem run_ret (step : Oracle S σ) (a : α) (s : σ) : run step (.ret a) s = (a, s) := rfl

@[simp] theorem run_op (step : Oracle S σ) (o : S.Op) (k : S.Res o → Prog S α) (s : σ) :
    run step (.op o k) s = run step (k (step s o).1) (step s o).2 := rfl

theorem run_bind (step : Oracle S σ) (p : Prog S α) (f : α → Prog S β) :
    ∀ s : σ, run step (p >>= f) s = run step (f (run step p s).1) (run step p s).2 := by
  induction p with
  | ret a => intro s; rfl
  | op o k ih => intro s; exact ih (step s o).1 (step s o).2

/-- The operations a complete run performs, with their results. -/
def events (step : Oracle S σ) : Prog S α → σ → List (Event S)
  | .ret _, _ => []
  | .op o k, s => ⟨o, (step s o).1⟩ :: events step (k (step s o).1) (step s o).2

@[simp] theorem events_ret (step : Oracle S σ) (a : α) (s : σ) :
    events step (.ret a) s = [] := rfl

@[simp] theorem events_op (step : Oracle S σ) (o : S.Op) (k : S.Res o → Prog S α) (s : σ) :
    events step (.op o k) s =
      ⟨o, (step s o).1⟩ :: events step (k (step s o).1) (step s o).2 := rfl

theorem events_bind (step : Oracle S σ) (p : Prog S α) (f : α → Prog S β) :
    ∀ s : σ, events step (p >>= f) s =
      events step p s ++ events step (f (run step p s).1) (run step p s).2 := by
  induction p with
  | ret a => intro s; rfl
  | op o k ih =>
    intro s
    simp only [Prog.op_bind, events_op, run_op, List.cons_append, ih]

/-! ### Frames -/

/-- Every operation the program may perform, on any path, satisfies `Q`. -/
def Prog.Only (Q : S.Op → Prop) : Prog S α → Prop
  | .ret _ => True
  | .op o k => Q o ∧ ∀ r, (k r).Only Q

@[simp] theorem Prog.only_ret (Q : S.Op → Prop) (a : α) : (Prog.ret a : Prog S α).Only Q := trivial

@[simp] theorem Prog.only_op (Q : S.Op → Prop) (o : S.Op) (k : S.Res o → Prog S α) :
    (Prog.op o k).Only Q ↔ Q o ∧ ∀ r, (k r).Only Q := Iff.rfl

theorem Prog.Only.bind {Q : S.Op → Prop} {p : Prog S α} {f : α → Prog S β} (hp : p.Only Q)
    (hf : ∀ a, (f a).Only Q) : (p >>= f).Only Q := by
  induction p with
  | ret a => exact hf a
  | op o k ih => exact ⟨hp.1, fun r => ih r (hp.2 r)⟩

theorem Prog.Only.mono {Q Q' : S.Op → Prop} (hQ : ∀ o, Q o → Q' o) {p : Prog S α}
    (h : p.Only Q) : p.Only Q' := by
  induction p with
  | ret a => trivial
  | op o k ih => exact ⟨hQ o h.1, fun r => ih r (h.2 r)⟩

theorem Prog.only_true (p : Prog S α) : p.Only fun _ => True := by
  induction p with
  | ret a => trivial
  | op o k ih => exact ⟨trivial, ih⟩

/-- The frame rule: what the operations of a program leave alone, the program
    leaves alone. -/
theorem run_frame {step : Oracle S σ} {Q : S.Op → Prop} {f : σ → β}
    (hstep : ∀ s o, Q o → f (step s o).2 = f s) {p : Prog S α} (h : p.Only Q) :
    ∀ s : σ, f (run step p s).2 = f s := by
  induction p with
  | ret a => exact fun s => rfl
  | op o k ih =>
    intro s
    rw [run_op, ih _ (h.2 _), hstep s o h.1]

/-- A run performs only what the program may perform. -/
theorem events_only {step : Oracle S σ} {Q : S.Op → Prop} {p : Prog S α} (h : p.Only Q) :
    ∀ s : σ, ∀ e ∈ events step p s, Q e.1 := by
  induction p with
  | ret a => simp
  | op o k ih =>
    intro s e he
    rcases List.mem_cons.mp he with rfl | he
    · exact h.1
    · exact ih _ (h.2 _) _ e he

end complete

/-! ## Specifications

    The log of a program is the list of operations it has performed so far,
    with their results. A specification speaks about the log: what holds
    before each operation, and what holds when the program returns. -/

section specifications

variable {S : Sig} {α β : Type}

/-- On every path of the program, whatever its operations answer: `P` holds of
    the log before each operation and `Q` of the final log and the result. -/
def Prog.Spec (P : List (Event S) → S.Op → Prop) (Q : List (Event S) → α → Prop) :
    List (Event S) → Prog S α → Prop
  | log, .ret a => Q log a
  | log, .op o k => P log o ∧ ∀ r, (k r).Spec P Q (log ++ [⟨o, r⟩])

variable {P : List (Event S) → S.Op → Prop} {Q : List (Event S) → α → Prop}
  {Q' : List (Event S) → Prop}

@[simp] theorem Prog.spec_ret (log : List (Event S)) (a : α) :
    (Prog.ret a : Prog S α).Spec P Q log ↔ Q log a := Iff.rfl

@[simp] theorem Prog.spec_op (log : List (Event S)) (o : S.Op) (k : S.Res o → Prog S α) :
    (Prog.op o k).Spec P Q log ↔ P log o ∧ ∀ r, (k r).Spec P Q (log ++ [⟨o, r⟩]) := Iff.rfl

/-- The sequence rule. -/
theorem Prog.Spec.bind {Q' : List (Event S) → β → Prop} {p : Prog S α} {f : α → Prog S β}
    (hf : ∀ log a, Q log a → (f a).Spec P Q' log) :
    ∀ {log : List (Event S)}, p.Spec P Q log → (p >>= f).Spec P Q' log := by
  induction p with
  | ret a => exact fun h => hf _ a h
  | op o k ih => exact fun h => ⟨h.1, fun r => ih r (h.2 r)⟩

/-- A program all of whose operations are allowed in every log. -/
theorem Prog.Only.spec {A : S.Op → Prop} (hP : ∀ log o, A o → P log o)
    (hQ : ∀ log o r, Q' log → A o → Q' (log ++ [⟨o, r⟩])) {p : Prog S α} (h : p.Only A) :
    ∀ {log : List (Event S)}, Q' log → p.Spec P (fun log _ => Q' log) log := by
  induction p with
  | ret a => exact fun hlog => hlog
  | op o k ih => exact fun hlog => ⟨hP _ o h.1, fun r => ih r (h.2 r) (hQ _ o r hlog h.1)⟩

/-- The consequence rule. -/
theorem Prog.Spec.imp {Q' : List (Event S) → α → Prop} (hQ : ∀ log a, Q log a → Q' log a)
    {p : Prog S α} : ∀ {log : List (Event S)}, p.Spec P Q log → p.Spec P Q' log := by
  induction p with
  | ret a => exact fun h => hQ _ a h
  | op o k ih => exact fun h => ⟨h.1, fun r => ih r (h.2 r)⟩

theorem Prog.Spec.mono {P' : List (Event S) → S.Op → Prop} (hP : ∀ log o, P log o → P' log o)
    {p : Prog S α} : ∀ {log : List (Event S)}, p.Spec P Q log → p.Spec P' Q log := by
  induction p with
  | ret a => exact fun h => h
  | op o k ih => exact fun h => ⟨hP _ o h.1, fun r => ih r (h.2 r)⟩

/-- Every result the program may return, on any path, satisfies `A`. -/
def Prog.Returns (A : α → Prop) : Prog S α → Prop
  | .ret a => A a
  | .op _ k => ∀ r, (k r).Returns A

theorem Prog.Returns.bind {A : β → Prop} {p : Prog S α} {f : α → Prog S β}
    (hf : ∀ a, (f a).Returns A) : (p >>= f).Returns A := by
  induction p with
  | ret a => exact hf a
  | op o k ih => exact ih

theorem Prog.Returns.run {σ : Type} {A : α → Prop} {p : Prog S α} (h : p.Returns A)
    (step : Oracle S σ) : ∀ s : σ, A (run step p s).1 := by
  induction p with
  | ret a => exact fun _ => h
  | op o k ih => exact fun s => ih _ (h _) _

theorem Prog.Spec.returns {A : α → Prop} {p : Prog S α} (hp : p.Returns A) :
    ∀ {log : List (Event S)}, p.Spec P Q log → p.Spec P (fun log a => Q log a ∧ A a) log := by
  induction p with
  | ret a => exact fun h => ⟨h, hp⟩
  | op o k ih => exact fun h => ⟨h.1, fun r => ih r (hp r) (h.2 r)⟩

/-! ### Length -/

/-- Every path of the program has at most `n` operations. -/
def Prog.Within : Nat → Prog S α → Prop
  | _, .ret _ => True
  | 0, .op _ _ => False
  | n + 1, .op _ k => ∀ r, (k r).Within n

theorem Prog.Within.mono {n m : Nat} (hnm : n ≤ m) {p : Prog S α} (h : p.Within n) :
    p.Within m := by
  induction p generalizing n m with
  | ret a => cases m <;> trivial
  | op o k ih =>
    obtain ⟨n, rfl⟩ : ∃ n', n = n' + 1 := by
      cases n with
      | zero => exact h.elim
      | succ n' => exact ⟨n', rfl⟩
    obtain ⟨m, rfl⟩ : ∃ m', m = m' + 1 := ⟨m - 1, by omega⟩
    exact fun r => ih r (by omega) (h r)

theorem Prog.Within.bind {n m l : Nat} (hl : n + m = l) {p : Prog S α} {f : α → Prog S β}
    (hp : p.Within n) (hf : ∀ a, (f a).Within m) : (p >>= f).Within l := by
  subst hl
  induction p generalizing n with
  | ret a => exact (hf a).mono (by omega)
  | op o k ih =>
    cases n with
    | zero => exact hp.elim
    | succ n =>
      rw [Nat.succ_add]
      exact fun r => ih r (hp r)

end specifications

/-! ## Interleaving -/

section interleaving

variable {S : Sig} {σ α ι : Type} [DecidableEq ι]

/-- An interpretation: what performing an operation in a state may return,
    and the state it leaves. -/
abbrev Interp (S : Sig) (σ : Type) := σ → (o : S.Op) → S.Res o → σ → Prop

/-- A thread: what is left of its program and what it has done so far. -/
structure Thread (S : Sig) (α : Type) where
  prog : Prog S α
  log : List (Event S)

/-- The thread has begun and has not returned. -/
def Thread.MidFlight (thread : Thread S α) : Prop :=
  thread.log ≠ [] ∧ thread.prog.result? = none

/-- Threads indexed by `ι` over a shared state. -/
structure Config (S : Sig) (σ α ι : Type) where
  shared : σ
  threads : ι → Thread S α

/-- What a step of the whole system did. -/
inductive Label (S : Sig) (ι Env : Type) where
  | thread (i : ι) (e : Event S)
  | env (a : Env)

/-- One step of the whole system: thread `i` performs the operation it is at,
    or the environment acts. -/
inductive Step (I : Interp S σ) {Env : Type} (act : Env → σ → σ) :
    Config S σ α ι → Label S ι Env → Config S σ α ι → Prop where
  | thread {c : Config S σ α ι} (i : ι) {o : S.Op} {k : S.Res o → Prog S α} {r : S.Res o} {s' : σ}
      (hprog : (c.threads i).prog = .op o k) (hI : I c.shared o r s') :
      Step I act c (.thread i ⟨o, r⟩)
        ⟨s', Function.update c.threads i ⟨k r, (c.threads i).log ++ [⟨o, r⟩]⟩⟩
  | env {c : Config S σ α ι} (a : Env) :
      Step I act c (.env a) ⟨act a c.shared, c.threads⟩

/-- The logs after a step of one thread. -/
theorem mem_log_update {threads : ι → Thread S α} {i j : ι} {p : Prog S α} {e e' : Event S} :
    e' ∈ (Function.update threads j ⟨p, (threads j).log ++ [e]⟩ i).log ↔
      e' ∈ (threads i).log ∨ i = j ∧ e' = e := by
  by_cases hij : i = j
  · subst hij
    simp
  · simp [hij]

theorem mem_log_of_update {threads : ι → Thread S α} {i j : ι} {p : Prog S α} {e e' : Event S}
    (h : e' ∈ (Function.update threads j ⟨p, (threads j).log ++ [e]⟩ i).log) (hne : e'.1 ≠ e.1) :
    e' ∈ (threads i).log :=
  (mem_log_update.mp h).resolve_right fun hnew => hne (congrArg Sigma.fst hnew.2)

theorem mem_log_update_of_mem {threads : ι → Thread S α} {i j : ι} {p : Prog S α} {e e' : Event S}
    (h : e' ∈ (threads i).log) :
    e' ∈ (Function.update threads j ⟨p, (threads j).log ++ [e]⟩ i).log :=
  mem_log_update.mpr (Or.inl h)

/-- A log only grows. -/
theorem Step.log_subset {I : Interp S σ} {Env : Type} {act : Env → σ → σ}
    {c c' : Config S σ α ι} {l : Label S ι Env} (h : Step I act c l c') (i : ι) :
    (c.threads i).log ⊆ (c'.threads i).log := by
  cases h with
  | thread j hprog hI => exact fun e he => mem_log_update.mpr (Or.inl he)
  | env a => exact fun e he => he

/-- The programs after a step of one thread. -/
theorem prog_of_update {threads : ι → Thread S α} {i j : ι} {p q : Prog S α} {log : List (Event S)}
    (h : (Function.update threads j ⟨p, log⟩ i).prog = q) :
    i = j ∧ p = q ∨ i ≠ j ∧ (threads i).prog = q := by
  by_cases hij : i = j
  · subst hij
    exact Or.inl ⟨rfl, by simpa using h⟩
  · exact Or.inr ⟨hij, by simpa [hij] using h⟩

/-- A thread that is at an operation and has done one before is under way. -/
theorem Thread.midFlight_of_op {thread : Thread S α} {o : S.Op} {k : S.Res o → Prog S α}
    (hprog : thread.prog = .op o k) (hlog : thread.log ≠ []) : thread.MidFlight :=
  ⟨hlog, by rw [hprog]; rfl⟩

/-- A step of one thread leaves the others where they are. -/
theorem midFlight_update {threads : ι → Thread S α} {i j : ι} {thread : Thread S α}
    (hij : i ≠ j) : (Function.update threads j thread i).MidFlight ↔ (threads i).MidFlight := by
  simp [hij]

/-- A specification holds of a thread at every point of an interleaving. -/
theorem Step.spec_at {I : Interp S σ} {Env : Type} {act : Env → σ → σ}
    {P : List (Event S) → S.Op → Prop} {Q : List (Event S) → α → Prop}
    {c c' : Config S σ α ι} {l : Label S ι Env} (h : Step I act c l c') {i : ι}
    (hi : (c.threads i).prog.Spec P Q (c.threads i).log) :
    (c'.threads i).prog.Spec P Q (c'.threads i).log := by
  cases h with
  | thread j hprog hI =>
    by_cases hij : i = j
    · subst hij
      rw [hprog] at hi
      simpa using hi.2 _
    · simpa [hij] using hi
  | env a => exact hi

theorem Step.spec {I : Interp S σ} {Env : Type} {act : Env → σ → σ}
    {P : ι → List (Event S) → S.Op → Prop} {Q : ι → List (Event S) → α → Prop}
    {c c' : Config S σ α ι} {l : Label S ι Env} (h : Step I act c l c')
    (hspec : ∀ i, (c.threads i).prog.Spec (P i) (Q i) (c.threads i).log) (i : ι) :
    (c'.threads i).prog.Spec (P i) (Q i) (c'.threads i).log :=
  h.spec_at (hspec i)

/-- Every operation of the log was allowed when it was performed. -/
def Logged (P : List (Event S) → S.Op → Prop) (log : List (Event S)) : Prop :=
  ∀ before e after, log = before ++ e :: after → P before e.1

omit [DecidableEq ι] in
theorem logged_nil (P : List (Event S) → S.Op → Prop) : Logged P [] := by
  intro before e after h
  simp at h

omit [DecidableEq ι] in
theorem Logged.snoc {P : List (Event S) → S.Op → Prop} {log : List (Event S)} (h : Logged P log)
    {e : Event S} (he : P log e.1) : Logged P (log ++ [e]) := by
  intro before e' after heq
  rcases exists_split_snoc.mp ⟨before, after, heq, rfl⟩ with hold | ⟨rfl, hlog⟩
  · obtain ⟨_, after', hlog, rfl⟩ := hold
    exact h _ e' after' hlog
  · rw [hlog]
    exact he

omit [DecidableEq ι] in
/-- An operation that was performed was allowed after some of the log. -/
theorem Logged.mem {P : List (Event S) → S.Op → Prop} {log : List (Event S)} (h : Logged P log)
    {e : Event S} (he : e ∈ log) : ∃ before, before ⊆ log ∧ P before e.1 := by
  obtain ⟨before, after, rfl⟩ := List.append_of_mem he
  exact ⟨before, List.subset_append_left _ _, h before e after rfl⟩

/-- The specification rule: in every interleaving, each thread goes on meeting
    its specification, and so did everything it has done. -/
theorem spec_of_trace {I : Interp S σ} {Env : Type} {act : Env → σ → σ}
    {P : ι → List (Event S) → S.Op → Prop} {Q : ι → List (Event S) → α → Prop}
    {c c' : Config S σ α ι} {labels : List (Label S ι Env)}
    (hspec : ∀ i, (c.threads i).prog.Spec (P i) (Q i) (c.threads i).log)
    (hlog : ∀ i, Logged (P i) (c.threads i).log) (h : Trace (Step I act) c labels c') (i : ι) :
    (c'.threads i).prog.Spec (P i) (Q i) (c'.threads i).log ∧ Logged (P i) (c'.threads i).log := by
  refine Trace.invariant (P := fun c => ∀ i, (c.threads i).prog.Spec (P i) (Q i)
    (c.threads i).log ∧ Logged (P i) (c.threads i).log) ?_ h (fun i => ⟨hspec i, hlog i⟩) i
  intro c l c' hinv hstep i
  refine ⟨hstep.spec_at (hinv i).1, ?_⟩
  cases hstep with
  | env a => exact (hinv i).2
  | thread j hprog hI =>
    by_cases hij : i = j
    · subst hij
      have hnow := (hinv i).1
      rw [hprog] at hnow
      simpa using (hinv i).2.snoc hnow.1
    · simpa [hij] using (hinv i).2

/-- The logs are what the labels of the run say. -/
theorem mem_labels_iff {I : Interp S σ} {Env : Type} {act : Env → σ → σ}
    {c c' : Config S σ α ι} {labels : List (Label S ι Env)}
    (hempty : ∀ i, (c.threads i).log = []) (h : Trace (Step I act) c labels c') (i : ι)
    (e : Event S) : .thread i e ∈ labels ↔ e ∈ (c'.threads i).log := by
  refine Trace.history (P := fun labels c => ∀ i e, .thread i e ∈ labels ↔
    e ∈ (c.threads i).log) ?_ ?_ labels h i e
  · intro i e
    simp [hempty]
  · intro labels c l c' hinv hstep i e
    cases hstep with
    | env a => simp [hinv]
    | thread j hprog hI =>
      rw [mem_log_update, List.mem_append, hinv]
      simp

/-- What thread `i` does in a run. -/
def performedBy {Env : Type} (i : ι) (labels : List (Label S ι Env)) : List (Event S) :=
  labels.filterMap fun
    | .thread j e => if j = i then some e else none
    | .env _ => none

theorem performedBy_append {Env : Type} (i : ι) (labels labels' : List (Label S ι Env)) :
    performedBy i (labels ++ labels') = performedBy i labels ++ performedBy i labels' :=
  List.filterMap_append

theorem log_eq_performedBy {I : Interp S σ} {Env : Type} {act : Env → σ → σ}
    {c c' : Config S σ α ι} {labels : List (Label S ι Env)} (h : Trace (Step I act) c labels c')
    (i : ι) : (c'.threads i).log = (c.threads i).log ++ performedBy i labels := by
  refine Trace.history (P := fun labels c' => (c'.threads i).log = (c.threads i).log ++
    performedBy i labels) ?_ ?_ labels h
  · simp [performedBy]
  · intro labels c l c' hlog hstep
    cases hstep with
    | env a => simpa [performedBy] using hlog
    | thread j hprog hI =>
      by_cases hji : j = i
      · subst hji
        simp [performedBy, hlog]
      · simp [performedBy, hlog, hji, Ne.symm hji]

/-- An event of a thread is a step of the run. -/
theorem exists_of_performedBy {Env : Type} {i : ι} {labels : List (Label S ι Env)}
    {before after : List (Event S)} {e : Event S}
    (h : performedBy i labels = before ++ e :: after) :
    ∃ labels₁ labels₂, labels = labels₁ ++ .thread i e :: labels₂ ∧
      performedBy i labels₁ = before ∧ performedBy i labels₂ = after := by
  obtain ⟨labels₁, rest, rfl, hbefore, hrest⟩ := List.filterMap_eq_append_iff.mp h
  obtain ⟨skipped, l, labels₂, rfl, hskipped, hl, hafter⟩ := List.filterMap_eq_cons_iff.mp hrest
  have hlabel : l = .thread i e := by
    cases l with
    | env a => cases hl
    | thread j e' =>
      by_cases hji : j = i
      · subst hji
        simpa using hl
      · simp [hji] at hl
  subst hlabel
  refine ⟨labels₁ ++ skipped, labels₂, by simp, ?_, hafter⟩
  rw [performedBy_append, performedBy, hbefore, performedBy, List.filterMap_eq_nil_iff.mpr hskipped,
    List.append_nil]

/-- A thread performs only what its program may perform. -/
theorem Step.only {I : Interp S σ} {Env : Type} {act : Env → σ → σ} {A : S.Op → Prop}
    {c c' : Config S σ α ι} {l : Label S ι Env} (h : Step I act c l c') {i : ι}
    (hi : (c.threads i).prog.Only A) : (c'.threads i).prog.Only A := by
  cases h with
  | thread j hprog hI =>
    by_cases hij : i = j
    · subst hij
      rw [hprog] at hi
      simpa using hi.2 _
    · simpa [hij] using hi
  | env a => exact hi

/-- A thread of a bounded program performs at most that many operations. -/
theorem Step.within {I : Interp S σ} {Env : Type} {act : Env → σ → σ} {c c' : Config S σ α ι}
    {l : Label S ι Env} (h : Step I act c l c') {i : ι} {n : Nat}
    (hi : ∃ m, (c.threads i).prog.Within m ∧ (c.threads i).log.length + m = n) :
    ∃ m, (c'.threads i).prog.Within m ∧ (c'.threads i).log.length + m = n := by
  cases h with
  | env a => exact hi
  | @thread j o k r s' hprog hI =>
    by_cases hij : i = j
    · subst hij
      obtain ⟨m, hm, hn⟩ := hi
      rw [hprog] at hm
      cases m with
      | zero => exact hm.elim
      | succ m =>
        refine ⟨m, ?_, ?_⟩
        · simpa using hm r
        · simp
          omega
    · simpa [hij] using hi

/-! ### Executing a schedule -/

section schedule

variable {Env : Type} (step : Oracle S σ) (act : Env → σ → σ)

/-- Let the threads and the environment act in the given order; a thread that
    has returned is passed over. -/
def Config.play (c : Config S σ α ι) : List (ι ⊕ Env) → Config S σ α ι
  | [] => c
  | .inl i :: rest =>
    match (c.threads i).prog with
    | .ret _ => Config.play c rest
    | .op o k =>
      Config.play ⟨(step c.shared o).2, Function.update c.threads i
        ⟨k (step c.shared o).1, (c.threads i).log ++ [⟨o, (step c.shared o).1⟩]⟩⟩ rest
  | .inr a :: rest => Config.play ⟨act a c.shared, c.threads⟩ rest

/-- The steps of a schedule, each with the shared state it starts from. -/
def Config.steps (c : Config S σ α ι) : List (ι ⊕ Env) → List (σ × Label S ι Env)
  | [] => []
  | .inl i :: rest =>
    match (c.threads i).prog with
    | .ret _ => Config.steps c rest
    | .op o k =>
      (c.shared, .thread i ⟨o, (step c.shared o).1⟩) ::
        Config.steps ⟨(step c.shared o).2, Function.update c.threads i
          ⟨k (step c.shared o).1, (c.threads i).log ++ [⟨o, (step c.shared o).1⟩]⟩⟩ rest
  | .inr a :: rest => (c.shared, .env a) :: Config.steps ⟨act a c.shared, c.threads⟩ rest

/-- The steps of a schedule, each with the configuration it starts from. -/
def Config.moves (c : Config S σ α ι) : List (ι ⊕ Env) → List (Config S σ α ι × Label S ι Env)
  | [] => []
  | .inl i :: rest =>
    match (c.threads i).prog with
    | .ret _ => Config.moves c rest
    | .op o k =>
      (c, .thread i ⟨o, (step c.shared o).1⟩) ::
        Config.moves ⟨(step c.shared o).2, Function.update c.threads i
          ⟨k (step c.shared o).1, (c.threads i).log ++ [⟨o, (step c.shared o).1⟩]⟩⟩ rest
  | .inr a :: rest => (c, .env a) :: Config.moves ⟨act a c.shared, c.threads⟩ rest

theorem Config.steps_eq_moves (schedule : List (ι ⊕ Env)) : ∀ c : Config S σ α ι,
    c.steps step act schedule =
      (c.moves step act schedule).map fun x => (x.1.shared, x.2) := by
  induction schedule with
  | nil => exact fun c => rfl
  | cons x rest ih =>
    intro c
    cases x with
    | inl i =>
      cases hprog : (c.threads i).prog with
      | ret a =>
        simp only [Config.steps, Config.moves, hprog]
        exact ih c
      | op o k =>
        simp only [Config.steps, Config.moves, hprog, List.map_cons]
        rw [ih]
    | inr a =>
      simp only [Config.steps, Config.moves, List.map_cons]
      rw [ih]

/-- Playing a schedule whose moves all satisfy `G` is a run of such steps. -/
theorem Config.moves_trace {I : Interp S σ} (hI : ∀ s o, I s o (step s o).1 (step s o).2)
    {G : Config S σ α ι → Label S ι Env → Prop} (schedule : List (ι ⊕ Env)) :
    ∀ c : Config S σ α ι, (∀ x ∈ c.moves step act schedule, G x.1 x.2) →
    Trace (fun c l c' => Step I act c l c' ∧ G c l) c
      ((c.moves step act schedule).map Prod.snd) (c.play step act schedule) := by
  induction schedule with
  | nil => exact fun c _ => rfl
  | cons x rest ih =>
    intro c hG
    cases x with
    | inl i =>
      cases hprog : (c.threads i).prog with
      -- a returned thread takes no step, so nothing is added to the run
      | ret a =>
        simp only [Config.moves, Config.play, hprog] at hG ⊢
        exact ih c hG
      | op o k =>
        simp only [Config.moves, Config.play, hprog] at hG ⊢
        exact ⟨_, ⟨.thread i hprog (hI c.shared o), hG _ List.mem_cons_self⟩,
          ih _ fun x hx => hG x (List.mem_cons_of_mem _ hx)⟩
    | inr a =>
      exact ⟨_, ⟨.env a, hG _ List.mem_cons_self⟩,
        ih _ fun x hx => hG x (List.mem_cons_of_mem _ hx)⟩

/-- Playing a schedule is a run. -/
theorem Config.play_run {I : Interp S σ} (hI : ∀ s o, I s o (step s o).1 (step s o).2)
    (schedule : List (ι ⊕ Env)) (c : Config S σ α ι) :
    Trace (Step I act) c ((c.moves step act schedule).map Prod.snd) (c.play step act schedule) :=
  (Config.moves_trace (G := fun _ _ => True) step act hI schedule c fun _ _ => trivial).imp
    fun _ _ _ h => h.1

/-- Playing a schedule whose steps all satisfy `G` is a run of such steps. -/
theorem Config.play_trace {I : Interp S σ} (hI : ∀ s o, I s o (step s o).1 (step s o).2)
    {G : σ → Label S ι Env → Prop} (schedule : List (ι ⊕ Env)) (c : Config S σ α ι)
    (hG : ∀ x ∈ c.steps step act schedule, G x.1 x.2) :
    Trace (fun c l c' => Step I act c l c' ∧ G c.shared l) c
      ((c.steps step act schedule).map Prod.snd) (c.play step act schedule) := by
  rw [Config.steps_eq_moves, List.map_map]
  refine Config.moves_trace (G := fun c l => G c.shared l) step act hI schedule c ?_
  intro x hx
  refine hG (x.1.shared, x.2) ?_
  rw [Config.steps_eq_moves]
  exact List.mem_map_of_mem hx

end schedule

end interleaving

end Interleave
