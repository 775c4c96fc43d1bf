import Sv2P2pool.Framework.Linearizable
import Sv2P2pool.Framework.Prog

/-! # Clients of a Linearizable Object

    Concurrent programs perform some of their operations by calling an
    object. When the object is linearizable, they run as they would with an
    object whose operations are single steps: what each of them does and
    returns is the same, and so is the order of all other steps.

    The proof merges a run of the clients with a run of the atomic object. A
    thread whose operation has taken effect is one operation ahead of the
    client, which has not received the answer yet. An effect cannot be taken
    back, so an operation that fails in the end must not have taken effect
    before. The atomic object allows that, and the first step is to see that
    it need not happen when operations only read.
-/

namespace Linearize

variable {ι Op Res V : Type} [DecidableEq ι] {obj : Object Op Res V}

/-! ## Operations that fail at once -/

/-- The atomic object, in which an operation that fails takes no effect. -/
inductive FirmStep (obj : Object Op Res V) : System (Atomic ι Op Res V) (Event ι Op Res V)
  | visible {a a' : Atomic ι Op Res V} (e : Event ι Op Res V)
      (h : AtomicStep obj a (some e) a') : FirmStep obj a (some e) a'
  | effect {a : Atomic ι Op Res V} (i : ι) (op : Op) (h : a.status i = .pending op) :
      FirmStep obj a none ⟨(obj.effect a.value op).2,
        Function.update a.status i (.done (obj.effect a.value op).1)⟩
  | fail {a : Atomic ι Op Res V} (i : ι) (op : Op) (r : Res) (h : a.status i = .pending op)
      (hr : obj.failure r) : FirmStep obj a none ⟨a.value, Function.update a.status i (.done r)⟩

/-- `b` is `a`, except that the operations of the threads in `D` have not taken
    effect yet. -/
structure Behind (D : ι → Prop) (a b : Atomic ι Op Res V) : Prop where
  value : b.value = a.value
  same : ∀ i, ¬ D i → b.status i = a.status i
  pending : ∀ i, D i → ∃ op, b.status i = .pending op

/-- Both states move alike at a thread that is not in `D`. -/
theorem Behind.update {D : ι → Prop} {a b : Atomic ι Op Res V} (h : Behind D a b) {i : ι}
    (hi : ¬ D i) (v : V) (status : Status Op Res) :
    Behind D ⟨v, Function.update a.status i status⟩ ⟨v, Function.update b.status i status⟩ := by
  refine ⟨rfl, fun j hj => ?_, fun j hj => ?_⟩
  · by_cases hji : j = i
    · subst hji
      simp
    · simpa [hji] using h.same j hj
  · have hji : j ≠ i := by
      intro heq
      exact hi (heq ▸ hj)
    simpa [hji] using h.pending j hj

/-- The threads whose operation is going to fail although it has taken effect:
    with these behind, the same history comes from firm steps. -/
def FirmFrom (obj : Object Op Res V) (a : Atomic ι Op Res V)
    (labels : List (Option (Event ι Op Res V))) (a' : Atomic ι Op Res V) (D : ι → Prop) : Prop :=
  (∀ i, D i → ∃ r, a.status i = .done r) ∧ ∀ b, Behind D a b → ∃ labels' b',
    Trace (FirmStep obj) b labels' b' ∧ labels'.reduceOption = labels.reduceOption ∧
      b'.value = a'.value

omit [DecidableEq ι] in
theorem not_done_of_ne {D : ι → Prop} {a : Atomic ι Op Res V}
    (hD : ∀ i, D i → ∃ r, a.status i = .done r) {i : ι} (hi : ∀ r, a.status i ≠ .done r) :
    ¬ D i := by
  intro h
  obtain ⟨r, hr⟩ := hD i h
  exact hi r hr

/-- A visible step, of a thread or of the value, is firm. -/
theorem FirmFrom.visible {a a₁ a' : Atomic ι Op Res V} {labels : List (Option (Event ι Op Res V))}
    {e : Event ι Op Res V} {D : ι → Prop} (h : FirmFrom obj a₁ labels a' D)
    (hdone : ∀ i, D i → ∃ r, a.status i = .done r)
    (hstep : ∀ b, Behind D a b → ∃ b₁, AtomicStep obj b (some e) b₁ ∧ Behind D a₁ b₁) :
    FirmFrom obj a (some e :: labels) a' D := by
  refine ⟨hdone, fun b hb => ?_⟩
  obtain ⟨b₁, hstep, hb₁⟩ := hstep b hb
  obtain ⟨labels', b', htrace, hvisible, hvalue⟩ := h.2 b₁ hb₁
  refine ⟨some e :: labels', b', ⟨b₁, .visible e hstep, htrace⟩, ?_, hvalue⟩
  rw [List.reduceOption_cons_of_some, List.reduceOption_cons_of_some, hvisible]

/-- An effect that the thread's failure is going to undo need not happen. -/
theorem FirmFrom.skip {a a₁ a' : Atomic ι Op Res V} {labels : List (Option (Event ι Op Res V))}
    {D D₁ : ι → Prop} (h : FirmFrom obj a₁ labels a' D₁)
    (hdone : ∀ i, D i → ∃ r, a.status i = .done r)
    (hstep : ∀ b, Behind D a b → Behind D₁ a₁ b) : FirmFrom obj a (none :: labels) a' D :=
  ⟨hdone, fun b hb => h.2 b (hstep b hb)⟩

theorem FirmFrom.internal {a a₁ a' : Atomic ι Op Res V} {labels : List (Option (Event ι Op Res V))}
    {D D₁ : ι → Prop} (h : FirmFrom obj a₁ labels a' D₁)
    (hdone : ∀ i, D i → ∃ r, a.status i = .done r)
    (hstep : ∀ b, Behind D a b → ∃ b₁, FirmStep obj b none b₁ ∧ Behind D₁ a₁ b₁) :
    FirmFrom obj a (none :: labels) a' D := by
  refine ⟨hdone, fun b hb => ?_⟩
  obtain ⟨b₁, hstep, hb₁⟩ := hstep b hb
  obtain ⟨labels', b', htrace, hvisible, hvalue⟩ := h.2 b₁ hb₁
  exact ⟨none :: labels', b', ⟨b₁, hstep, htrace⟩, hvisible, hvalue⟩

/-- A visible step of one thread whose status it is not to leave done. -/
theorem FirmFrom.at_thread {a a' : Atomic ι Op Res V} {labels : List (Option (Event ι Op Res V))}
    {e : Event ι Op Res V} {D : ι → Prop} {i : ι} {status : Status Op Res}
    (h : FirmFrom obj ⟨a.value, Function.update a.status i status⟩ labels a' D)
    (hstatus : ∀ r, status ≠ .done r)
    (hstep : ∀ b : Atomic ι Op Res V, b.status i = a.status i →
      AtomicStep obj b (some e) ⟨b.value, Function.update b.status i status⟩) :
    FirmFrom obj a (some e :: labels) a' D := by
  have hi : ¬ D i := not_done_of_ne h.1 (by simpa using hstatus)
  refine h.visible (fun j hj => ?_) fun b hb => ?_
  · have hji : j ≠ i := fun heq => hi (heq ▸ hj)
    simpa [hji] using h.1 j hj
  · exact ⟨_, hstep b (hb.same i hi), hb.value ▸ hb.update hi b.value status⟩

/-- Every history of an object whose operations only read is one in which the
    operations that fail have taken no effect. -/
theorem exists_firmFrom (hreads : ∀ v op, (obj.effect v op).2 = v)
    {labels : List (Option (Event ι Op Res V))} {a' : Atomic ι Op Res V} :
    ∀ {a : Atomic ι Op Res V}, Trace (AtomicStep obj) a labels a' →
      ∃ D, FirmFrom obj a labels a' D := by
  induction labels with
  | nil =>
    intro a heq
    refine ⟨fun _ => False, fun _ => False.elim, fun b hb => ⟨[], b, rfl, rfl, ?_⟩⟩
    rw [show a' = a from heq, hb.value]
  | cons l labels ih =>
    intro a htrace
    obtain ⟨a₁, hstep, htrace⟩ := htrace
    obtain ⟨D, hD⟩ := ih htrace
    cases hstep with
    | call i op hi =>
      exact ⟨D, hD.at_thread nofun fun b hb => .call i op (hb.trans hi)⟩
    | ret i r hi => exact ⟨D, hD.at_thread nofun fun b hb => .ret i r (hb.trans hi)⟩
    | cancel i hi => exact ⟨D, hD.at_thread nofun fun b hb => .cancel i (hb ▸ hi)⟩
    | moved v =>
      exact ⟨D, hD.visible hD.1 fun b hb => ⟨_, .moved v, rfl, hb.same, hb.pending⟩⟩
    | effect i op hi =>
      by_cases hDi : D i
      · -- the operation fails later, so it waits for that
        refine ⟨fun j => D j ∧ j ≠ i, hD.skip (fun j hj => ?_) fun b hb => ?_⟩
        · simpa [hj.2] using hD.1 j hj.1
        · refine ⟨by rw [hb.value]; exact (hreads a.value op).symm, fun j hj => ?_, fun j hj => ?_⟩
          · have hji : j ≠ i := fun heq => hj (heq ▸ hDi)
            simpa [hji] using hb.same j fun h => hj h.1
          · by_cases hji : j = i
            · subst hji
              exact ⟨op, (hb.same j fun h => h.2 rfl).trans hi⟩
            · exact hb.pending j ⟨hj, hji⟩
      · refine ⟨D, hD.internal (fun j hj => ?_) fun b hb => ?_⟩
        · have hji : j ≠ i := fun heq => hDi (heq ▸ hj)
          simpa [hji] using hD.1 j hj
        · refine ⟨_, .effect i op ((hb.same i hDi).trans hi), ?_⟩
          rw [hb.value]
          exact hb.update hDi _ _
    | fail i r hi hr =>
      by_cases hDi : D i
      · -- it fails once more later
        refine ⟨fun j => D j ∧ (j = i → ∃ r, a.status j = .done r), hD.skip (fun j hj => ?_)
          fun b hb => ⟨hb.value, fun j hj => ?_, fun j hj => ?_⟩⟩
        · by_cases hji : j = i
          · exact hj.2 hji
          · simpa [hji] using hD.1 j hj.1
        · have hji : j ≠ i := fun heq => hj (heq ▸ hDi)
          simpa [hji] using hb.same j fun h => hj h.1
        · by_cases hdone : j = i → ∃ r, a.status j = .done r
          · exact hb.pending j ⟨hj, hdone⟩
          · have hsame := hb.same j fun h => hdone h.2
            rw [hsame]
            cases hj : a.status j with
            | idle => simp_all
            | pending op => exact ⟨op, rfl⟩
            | done r' => exact absurd (fun _ => ⟨r', hj⟩) hdone
      · refine ⟨fun j => D j ∨ j = i ∧ ∃ r, a.status i = .done r, hD.internal (fun j hj => ?_)
          fun b hb => ?_⟩
        · rcases hj with hj | ⟨rfl, hj⟩
          · have hji : j ≠ i := fun heq => hDi (heq ▸ hj)
            simpa [hji] using hD.1 j hj
          · exact hj
        · have hpending : ∃ op, b.status i = .pending op := by
            by_cases hdone : ∃ r, a.status i = .done r
            · exact hb.pending i (Or.inr ⟨rfl, hdone⟩)
            · have hsame := hb.same i fun h => h.elim hDi fun h => hdone h.2
              rw [hsame]
              cases hst : a.status i with
              | idle => exact absurd hst hi
              | pending op => exact ⟨op, rfl⟩
              | done r' => exact absurd ⟨r', hst⟩ hdone
          obtain ⟨op, hop⟩ := hpending
          refine ⟨_, .fail i op r hop hr, hb.value, fun j hj => ?_, fun j hj => ?_⟩
          · by_cases hji : j = i
            · subst hji
              simp
            · simpa [hji] using hb.same j fun h => h.elim hj fun h => hji h.1
          · have hji : j ≠ i := fun heq => hDi (heq ▸ hj)
            simpa [hji] using hb.pending j (Or.inl hj)

end Linearize

namespace Interleave

open Linearize

/-! ## Programs that call an object -/

section clients

variable {S : Sig} {σ α ι Env Op Res V κ : Type} [DecidableEq ι]

/-- Which operations of a signature are calls of an object, and what the
    program makes of the object's answer. -/
structure Binding (S : Sig) (Op Res : Type) where
  call? : S.Op → Option Op
  result : (o : S.Op) → {op : Op} → call? o = some op → Res → S.Res o

/-- The programs, and the threads that wait for the object. -/
structure Clients (S : Sig) (σ α ι : Type) where
  config : Config S σ α ι
  inside : ι → Bool

/-- The thread has the answer `r` of its operation. -/
def Thread.answered {o : S.Op} (thread : Thread S α) (k : S.Res o → Prog S α) (r : S.Res o) :
    Thread S α :=
  ⟨k r, thread.log ++ [⟨o, r⟩]⟩

inductive ClientLabel (S : Sig) (ι Env Op Res V : Type) where
  /-- A step that does not concern the object. -/
  | own (l : Label S ι Env)
  | object (e : Linearize.Event ι Op Res V)

/-- A step of the clients. A thread that has called the object goes on when the
    answer is there. -/
inductive ClientStep (I : Interp S σ) (act : Env → σ → σ) (b : Binding S Op Res)
    (c : Clients S σ α ι) : ClientLabel S ι Env Op Res V → Clients S σ α ι → Prop where
  | thread (i : ι) {o : S.Op} {k : S.Res o → Prog S α} {r : S.Res o} {s' : σ}
      (hout : c.inside i = false) (hprog : (c.config.threads i).prog = .op o k)
      (hown : b.call? o = none) (hI : I c.config.shared o r s') :
      ClientStep I act b c (.own (.thread i ⟨o, r⟩))
        { c with config := ⟨s', Function.update c.config.threads i
                              ((c.config.threads i).answered k r)⟩ }
  | env (a : Env) :
      ClientStep I act b c (.own (.env a))
        { c with config := ⟨act a c.config.shared, c.config.threads⟩ }
  | call (i : ι) {o : S.Op} {k : S.Res o → Prog S α} {op : Op}
      (hout : c.inside i = false) (hprog : (c.config.threads i).prog = .op o k)
      (hop : b.call? o = some op) :
      ClientStep I act b c (.object (.call i op))
        { c with inside := Function.update c.inside i true }
  | ret (i : ι) {o : S.Op} {k : S.Res o → Prog S α} {op : Op} (r : Res)
      (hin : c.inside i = true) (hprog : (c.config.threads i).prog = .op o k)
      (hop : b.call? o = some op) :
      ClientStep I act b c (.object (.ret i r))
        { config := ⟨c.config.shared, Function.update c.config.threads i
            ((c.config.threads i).answered k (b.result o hop r))⟩
          inside := Function.update c.inside i false }
  | moved (v : V) : ClientStep I act b c (.object (.moved v)) c

/-- The clients and an object, which may also take steps of its own. -/
inductive JointStep (I : Interp S σ) (act : Env → σ → σ) (b : Binding S Op Res)
    (step : System κ (Linearize.Event ι Op Res V)) :
    Clients S σ α ι × κ → Option (ClientLabel S ι Env Op Res V) → Clients S σ α ι × κ → Prop where
  | own {c c' : Clients S σ α ι} {s : κ} (l : Label S ι Env)
      (hc : ClientStep I act b c (.own (V := V) l) c') :
      JointStep I act b step (c, s) (some (.own l)) (c', s)
  | object {c c' : Clients S σ α ι} {s s' : κ} (e : Linearize.Event ι Op Res V)
      (hc : ClientStep I act b c (.object e) c') (hs : step s (some e) s') :
      JointStep I act b step (c, s) (some (.object e)) (c', s')
  | internal {c : Clients S σ α ι} {s s' : κ} (hs : step s none s') :
      JointStep I act b step (c, s) none (c, s')

/-- The same operations as single steps, on a state that has the object's
    value beside it. -/
def atomicInterp (I : Interp S σ) (b : Binding S Op Res) (obj : Object Op Res V) :
    Interp S (σ × V) := fun s o r s' =>
  b.call? o = none ∧ I s.1 o r s'.1 ∧ s'.2 = s.2 ∨
  ∃ op, ∃ hop : b.call? o = some op, s'.1 = s.1 ∧
    (r = b.result o hop (obj.effect s.2 op).1 ∧ s'.2 = (obj.effect s.2 op).2 ∨
      ∃ failed, obj.failure failed ∧ r = b.result o hop failed ∧ s'.2 = s.2)

/-- The environment also moves the object's value. -/
def atomicAct (act : Env → σ → σ) : Env ⊕ V → σ × V → σ × V
  | .inl a, s => (act a s.1, s.2)
  | .inr v, s => (s.1, v)

/-- The events of the object in a run of its clients. -/
def objectEvents (labels : List (ClientLabel S ι Env Op Res V)) :
    List (Linearize.Event ι Op Res V) :=
  labels.filterMap fun
    | .own _ => none
    | .object e => some e

/-- A step that is no operation of the object: one of a thread, one of the
    environment, or a move of the object's value. -/
def ClientLabel.own? : ClientLabel S ι Env Op Res V → Option (Label S ι (Env ⊕ V))
  | .own (.thread i e) => some (.thread i e)
  | .own (.env a) => some (.env (.inl a))
  | .object (.moved v) => some (.env (.inr v))
  | .object _ => none

/-- The same of a step of the atomic system. -/
def Label.own? (b : Binding S Op Res) (l : Label S ι (Env ⊕ V)) :
    Option (Label S ι (Env ⊕ V)) :=
  match l with
  | .thread _ e => if (b.call? e.1).isSome then none else some l
  | .env _ => some l

omit [DecidableEq ι] in
theorem eq_of_own {b : Binding S Op Res} {l l' : Label S ι (Env ⊕ V)} (h : l.own? b = some l') :
    l = l' := by
  cases l with
  | env a => exact Option.some.inj h
  | thread i e =>
    simp only [Label.own?] at h
    split_ifs at h
    exact Option.some.inj h

/-- Without the operations of the object a thread does no more than with them. -/
theorem performedBy_own {b : Binding S Op Res} {i : ι} {labels : List (Label S ι (Env ⊕ V))}
    (h : performedBy i labels = []) : performedBy i (labels.filterMap (Label.own? b)) = [] := by
  refine List.filterMap_eq_nil_iff.mpr fun l hl => ?_
  obtain ⟨l', hl', heq⟩ := List.mem_filterMap.mp hl
  exact List.filterMap_eq_nil_iff.mp h l (eq_of_own heq ▸ hl')

variable {I : Interp S σ} {act : Env → σ → σ} {b : Binding S Op Res} {obj : Object Op Res V}
  {c c' : Clients S σ α ι} {a a' : Atomic ι Op Res V} {d : Config S (σ × V) α ι}

/-! ## The merge -/

/-- Where a thread of the atomic system is, beside its client. -/
def Place (b : Binding S Op Res) (client : Thread S α) (inside : Bool) (thread : Thread S α) :
    Status Op Res → Prop
  | .idle => inside = false ∧ thread = client
  | .pending op => inside = true ∧ thread = client ∧
    ∃ (o : S.Op) (k : S.Res o → Prog S α), client.prog = .op o k ∧ b.call? o = some op
  -- one operation ahead
  | .done r => inside = true ∧ ∃ (o : S.Op) (k : S.Res o → Prog S α) (op : Op)
    (hop : b.call? o = some op), client.prog = .op o k ∧
      thread = client.answered k (b.result o hop r)

structure Follows (b : Binding S Op Res) (c : Clients S σ α ι) (a : Atomic ι Op Res V)
    (d : Config S (σ × V) α ι) : Prop where
  shared : d.shared = (c.config.shared, a.value)
  place : ∀ i, Place b (c.config.threads i) (c.inside i) (d.threads i) (a.status i)

/-- One thread moves, in any of the three systems. -/
theorem place_update {client client' thread thread' : ι → Thread S α} {inside inside' : ι → Bool}
    {status status' : ι → Status Op Res} {i : ι}
    (h : ∀ j, Place b (client j) (inside j) (thread j) (status j))
    (hclient : ∀ j, j ≠ i → client' j = client j) (hinside : ∀ j, j ≠ i → inside' j = inside j)
    (hthread : ∀ j, j ≠ i → thread' j = thread j) (hstatus : ∀ j, j ≠ i → status' j = status j)
    (hi : Place b (client' i) (inside' i) (thread' i) (status' i)) (j : ι) :
    Place b (client' j) (inside' j) (thread' j) (status' j) := by
  by_cases hji : j = i
  · subst hji
    exact hi
  · rw [hclient j hji, hinside j hji, hthread j hji, hstatus j hji]
    exact h j

/-- An operation that takes effect, or fails, is a step of its thread. -/
theorem Follows.internal (I : Interp S σ) (act : Env → σ → σ) (h : Follows b c a d)
    (hstep : FirmStep obj a none a') :
    ∃ l d', Step (atomicInterp I b obj) (atomicAct act) d l d' ∧ l.own? b = none ∧
      Follows b c a' d' := by
  have hanswer : ∀ {i op r v}, a.status i = .pending op →
      (r = (obj.effect a.value op).1 ∧ v = (obj.effect a.value op).2 ∨
        obj.failure r ∧ v = a.value) →
      ∃ l d', Step (atomicInterp I b obj) (atomicAct act) d l d' ∧ l.own? b = none ∧
        Follows b c ⟨v, Function.update a.status i (.done r)⟩ d' := by
    intro i op r v hi hr
    have hplace := h.place i
    rw [hi] at hplace
    obtain ⟨hin, hthread, o, k, hprog, hop⟩ := hplace
    have hI : atomicInterp I b obj d.shared o (b.result o hop r) (c.config.shared, v) := by
      refine Or.inr ⟨op, hop, by rw [h.shared], ?_⟩
      rw [h.shared]
      rcases hr with ⟨rfl, rfl⟩ | ⟨hr, rfl⟩
      · exact Or.inl ⟨rfl, rfl⟩
      · exact Or.inr ⟨r, hr, rfl, rfl⟩
    refine ⟨_, _, .thread i (by rw [hthread, hprog]) hI, ?_, rfl, place_update h.place
      (fun _ _ => rfl) (fun _ _ => rfl) (fun j hj => Function.update_of_ne hj _ _)
      (fun j hj => Function.update_of_ne hj _ _) ?_⟩
    · simp [Label.own?, hop]
    · show Place b _ _ (Function.update d.threads i _ i) (Function.update a.status i _ i)
      rw [Function.update_self, Function.update_self, hthread]
      exact ⟨hin, o, k, op, hop, hprog, rfl⟩
  cases hstep with
  | effect i op hi => exact hanswer hi (Or.inl ⟨rfl, rfl⟩)
  | fail i op r hi hr => exact hanswer hi (Or.inr ⟨hr, rfl⟩)

/-- A client's own step is one of the atomic system. -/
theorem Follows.own {l : Label S ι Env} (h : Follows b c a d)
    (hstep : ClientStep I act b c (.own (V := V) l) c') :
    ∃ l' d', Step (atomicInterp I b obj) (atomicAct act) d l' d' ∧
      l'.own? b = (ClientLabel.own l : ClientLabel S ι Env Op Res V).own? ∧
      Follows b c' a d' := by
  cases hstep with
  | env e =>
    refine ⟨.env (Sum.inl e), _, .env (Sum.inl e), rfl, ?_, h.place⟩
    rw [h.shared]
    rfl
  | @thread i o k r s' hout hprog hown hI =>
    have hidle : a.status i = .idle := by
      have hplace := h.place i
      cases hi : a.status i with
      | idle => rfl
      | pending op =>
        rw [hi] at hplace
        simp [Place, hout] at hplace
      | done r =>
        rw [hi] at hplace
        simp [Place, hout] at hplace
    have hplace := h.place i
    rw [hidle] at hplace
    have hI' : atomicInterp I b obj d.shared o r (s', a.value) := by
      refine Or.inl ⟨hown, ?_, ?_⟩
      · rw [h.shared]
        exact hI
      · rw [h.shared]
    refine ⟨_, _, .thread i (by rw [hplace.2, hprog]) hI', ?_, rfl, place_update h.place
      (fun j hj => Function.update_of_ne hj _ _) (fun _ _ => rfl)
      (fun j hj => Function.update_of_ne hj _ _) (fun _ _ => rfl) ?_⟩
    · simp [Label.own?, hown, ClientLabel.own?]
    · show Place b (Function.update c.config.threads i _ i) _ (Function.update d.threads i _ i) _
      rw [hidle, Function.update_self, Function.update_self, hplace.2]
      exact ⟨hout, rfl⟩

/-- A call or a return happens at the clients and the object; a move of the
    object's value is a step of the environment. -/
theorem Follows.object {e : Linearize.Event ι Op Res V} (h : Follows b c a d)
    (hc : ClientStep I act b c (.object e) c') (ha : AtomicStep obj a (some e) a') :
    ∃ labels d', Trace (Step (atomicInterp I b obj) (atomicAct act)) d labels d' ∧
      labels.filterMap (Label.own? b) =
        (ClientLabel.object e : ClientLabel S ι Env Op Res V).own?.toList ∧
      Follows b c' a' d' := by
  cases hc with
  | moved v =>
    cases ha
    refine ⟨[.env (Sum.inr v)], _, trace_one (.env (Sum.inr v)), rfl, ?_, h.place⟩
    rw [h.shared]
    rfl
  | @call i o k op hout hprog hop =>
    cases ha with
    | call i' op' hi =>
      refine ⟨[], d, rfl, rfl, h.shared, place_update h.place (fun _ _ => rfl)
        (fun j hj => Function.update_of_ne hj _ _) (fun _ _ => rfl)
        (fun j hj => Function.update_of_ne hj _ _) ?_⟩
      have hplace := h.place i
      rw [hi] at hplace
      show Place b _ (Function.update c.inside i true i) _ (Function.update a.status i _ i)
      rw [Function.update_self, Function.update_self]
      exact ⟨rfl, hplace.2, o, k, hprog, hop⟩
  | @ret i o k op r hin hprog hop =>
    cases ha with
    | ret i' r' hi =>
      refine ⟨[], d, rfl, rfl, h.shared, place_update h.place
        (fun j hj => Function.update_of_ne hj _ _) (fun j hj => Function.update_of_ne hj _ _)
        (fun _ _ => rfl) (fun j hj => Function.update_of_ne hj _ _) ?_⟩
      have hplace := h.place i
      rw [hi] at hplace
      obtain ⟨-, o', k', op', hop', hprog', hthread⟩ := hplace
      -- it is the operation whose answer the thread already has
      obtain ⟨rfl, hk⟩ := Prog.op.inj (hprog'.symm.trans hprog)
      obtain rfl := eq_of_heq hk
      obtain rfl : _ = op := Option.some.inj (hop'.symm.trans hop)
      show Place b (Function.update c.config.threads i _ i) (Function.update c.inside i false i) _
        (Function.update a.status i _ i)
      rw [Function.update_self, Function.update_self, Function.update_self]
      exact ⟨rfl, hthread⟩

/-- The steps of the atomic object that nobody sees. -/
theorem Follows.internals (I : Interp S σ) (act : Env → σ → σ)
    {labels : List (Option (Linearize.Event ι Op Res V))} (hnone : labels.reduceOption = []) :
    ∀ {a : Atomic ι Op Res V} {d : Config S (σ × V) α ι},
      Follows b c a d → Trace (FirmStep obj) a labels a' →
      ∃ labels' d', Trace (Step (atomicInterp I b obj) (atomicAct act)) d labels' d' ∧
        labels'.filterMap (Label.own? b) = [] ∧ Follows b c a' d' := by
  induction labels with
  | nil =>
    intro a d h heq
    exact ⟨[], d, rfl, rfl, (show a' = a from heq) ▸ h⟩
  | cons l labels ih =>
    intro a d h htrace
    obtain ⟨a₁, hstep, htrace⟩ := htrace
    cases l with
    | some e => simp at hnone
    | none =>
      obtain ⟨l, d₁, hd, hown, h₁⟩ := h.internal I act hstep
      obtain ⟨labels', d', hd', howns, h'⟩ := ih (by simpa using hnone) h₁ htrace
      exact ⟨l :: labels', d', ⟨d₁, hd, hd'⟩, by simp [hown, howns], h'⟩

omit [DecidableEq ι] in
theorem exists_append_of_reduceOption {E : Type} {labels : List (Option E)} {e : E}
    {rest : List E} (h : labels.reduceOption = e :: rest) :
    ∃ before after, labels = before ++ some e :: after ∧ before.reduceOption = [] ∧
      after.reduceOption = rest := by
  obtain ⟨before, x, after, rfl, hbefore, hx, hafter⟩ := List.filterMap_eq_cons_iff.mp h
  obtain rfl : x = some e := hx
  exact ⟨before, after, rfl, List.filterMap_eq_nil_iff.mpr hbefore, hafter⟩

/-- A run of the clients and one of the atomic object with the same events are
    one run of the atomic system. -/
theorem merge {labels : List (ClientLabel S ι Env Op Res V)} :
    ∀ {effects : List (Option (Linearize.Event ι Op Res V))} {c : Clients S σ α ι}
      {a : Atomic ι Op Res V} {d : Config S (σ × V) α ι},
      Trace (ClientStep I act b) c labels c' → Trace (FirmStep obj) a effects a' →
      effects.reduceOption = objectEvents labels → Follows b c a d →
      ∃ labels' d', Trace (Step (atomicInterp I b obj) (atomicAct act)) d labels' d' ∧
        labels'.filterMap (Label.own? b) = labels.filterMap ClientLabel.own? ∧
        Follows b c' a' d' := by
  induction labels with
  | nil =>
    intro effects c a d hc ha hsame h
    obtain rfl : c' = c := hc
    exact Follows.internals I act hsame h ha
  | cons l labels ih =>
    intro effects c a d hc ha hsame h
    obtain ⟨c₁, hstep, hc⟩ := hc
    cases l with
    | own l =>
      obtain ⟨l', d₁, hd₁, hown, h₁⟩ := h.own hstep
      obtain ⟨labels', d', hd', howns, h'⟩ := ih hc ha hsame h₁
      refine ⟨l' :: labels', d', ⟨d₁, hd₁, hd'⟩, ?_, h'⟩
      rw [List.filterMap_cons, List.filterMap_cons, hown, howns]
    | object e =>
      -- the effects of other threads before `e` come first
      obtain ⟨before, after, rfl, hbefore, hafter⟩ := exists_append_of_reduceOption hsame
      obtain ⟨a₁, ha₁, a₂, hvisible, ha⟩ := (Trace.append_iff _ _ _ _).mp ha
      obtain ⟨labels₁, d₁, hd₁, hnone, h₁⟩ := Follows.internals I act hbefore h ha₁
      cases hvisible with
      | visible e he =>
        obtain ⟨labels₂, d₂, hd₂, hown, h₂⟩ := h₁.object hstep he
        obtain ⟨labels', d', hd', howns, h'⟩ := ih hc ha hafter h₂
        refine ⟨labels₁ ++ (labels₂ ++ labels'), d', ?_, ?_, h'⟩
        · exact (Trace.append_iff _ _ _ _).mpr ⟨d₁, hd₁, (Trace.append_iff _ _ _ _).mpr
            ⟨d₂, hd₂, hd'⟩⟩
        · rw [List.filterMap_append, List.filterMap_append, hnone, hown, howns, List.filterMap_cons]
          cases (ClientLabel.object e : ClientLabel S ι Env Op Res V).own? <;> rfl

omit [DecidableEq ι] in
theorem Place.idle {client thread : Thread S α} {inside : Bool} {status : Status Op Res}
    (h : Place b client inside thread status) (hout : inside = false) : thread = client := by
  cases status with
  | idle => exact h.2
  | pending op => exact absurd (h.1.symm.trans hout) (by simp)
  | done r => exact absurd (h.1.symm.trans hout) (by simp)

/-- The clients of an object with a history of the atomic one run as with the
    atomic one. -/
theorem clients_atomic (hreads : ∀ v op, (obj.effect v op).2 = v)
    {config : Config S σ α ι} {v : V} {labels : List (ClientLabel S ι Env Op Res V)}
    (hc : Trace (ClientStep I act b) ⟨config, fun _ => false⟩ labels c')
    {effects : List (Option (Linearize.Event ι Op Res V))}
    (ha : Trace (AtomicStep obj) (Atomic.init v) effects a')
    (hsame : effects.reduceOption = objectEvents labels) :
    ∃ labels' d status, Trace (Step (atomicInterp I b obj) (atomicAct act))
        ⟨(config.shared, v), config.threads⟩ labels' d ∧
      labels'.filterMap (Label.own? b) = labels.filterMap ClientLabel.own? ∧
      Follows b c' ⟨a'.value, status⟩ d := by
  obtain ⟨D, hD, hfirm⟩ := exists_firmFrom hreads ha
  have hbehind : Behind D (Atomic.init v) (Atomic.init v : Atomic ι Op Res V) := by
    refine ⟨rfl, fun _ _ => rfl, fun i hi => ?_⟩
    obtain ⟨r, hr⟩ := hD i hi
    cases hr
  obtain ⟨effects', b', hb', hvisible, hvalue⟩ := hfirm _ hbehind
  have hstart : Follows b (⟨config, fun _ => false⟩ : Clients S σ α ι)
      (Atomic.init v : Atomic ι Op Res V) ⟨(config.shared, v), config.threads⟩ :=
    ⟨rfl, fun _ => ⟨rfl, rfl⟩⟩
  obtain ⟨labels', d, hd, howns, h⟩ := merge hc hb' (hvisible.trans hsame) hstart
  exact ⟨labels', d, b'.status, hd, howns, hvalue ▸ h.shared, h.place⟩

/-! ## The two parts of a joint run -/

/-- What the object does in a joint run. -/
def objectLabels (labels : List (Option (ClientLabel S ι Env Op Res V))) :
    List (Option (Linearize.Event ι Op Res V)) :=
  labels.filterMap fun
    | none => some none
    | some (.own _) => none
    | some (.object e) => some (some e)

omit [DecidableEq ι] in
theorem objectLabels_reduceOption (labels : List (Option (ClientLabel S ι Env Op Res V))) :
    (objectLabels labels).reduceOption = objectEvents labels.reduceOption := by
  induction labels with
  | nil => rfl
  | cons l labels ih =>
    rcases l with _ | l | e
    · exact ih
    · exact ih
    · exact congrArg (e :: ·) ih

theorem joint_parts {step : System κ (Linearize.Event ι Op Res V)} {s' : κ}
    {labels : List (Option (ClientLabel S ι Env Op Res V))} :
    ∀ {c : Clients S σ α ι} {s : κ},
      Trace (JointStep I act b step) (c, s) labels (c', s') →
      Trace (ClientStep I act b) c labels.reduceOption c' ∧
        Trace step s (objectLabels labels) s' := by
  induction labels with
  | nil =>
    intro c s heq
    obtain ⟨rfl, rfl⟩ := Prod.mk.inj (show (c', s') = (c, s) from heq)
    exact ⟨rfl, rfl⟩
  | cons l labels ih =>
    intro c s htrace
    obtain ⟨⟨c₁, s₁⟩, hstep, htrace⟩ := htrace
    obtain ⟨hc, hs⟩ := ih htrace
    cases hstep with
    | own l hown => exact ⟨⟨c₁, hown, hc⟩, hs⟩
    | object e hobject hmove => exact ⟨⟨c₁, hobject, hc⟩, s₁, hmove, hs⟩
    | internal hmove => exact ⟨hc, s₁, hmove, hs⟩

end clients

end Interleave
