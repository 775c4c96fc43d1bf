import Mathlib.Data.List.Induction

/-! # Labelled Runs

    A transition system is a step relation between states, labelled with what
    the step did. `Trace step s log s'` says that the steps labelled `log`,
    in this order, lead from `s` to `s'`.
-/

variable {σ L : Type} {step : σ → L → σ → Prop}

def Trace (step : σ → L → σ → Prop) : σ → List L → σ → Prop
  | s, [], s' => s' = s
  | s, l :: log, s' => ∃ t, step s l t ∧ Trace step t log s'

namespace Trace

@[simp] theorem nil_iff (s s' : σ) : Trace step s [] s' ↔ s' = s := Iff.rfl

theorem cons_iff (s s' : σ) (l : L) (log : List L) :
    Trace step s (l :: log) s' ↔ ∃ t, step s l t ∧ Trace step t log s' := Iff.rfl

theorem append_iff (log log' : List L) : ∀ s s' : σ,
    Trace step s (log ++ log') s' ↔ ∃ t, Trace step s log t ∧ Trace step t log' s' := by
  induction log with
  | nil => simp
  | cons l log ih =>
    intro s s'
    simp only [List.cons_append, cons_iff, ih]
    constructor
    · intro h
      obtain ⟨t, hl, u, h, h'⟩ := h
      exact ⟨u, ⟨t, hl, h⟩, h'⟩
    · intro h
      obtain ⟨u, ⟨t, hl, h⟩, h'⟩ := h
      exact ⟨t, hl, u, h, h'⟩

theorem snoc_iff (s s' : σ) (log : List L) (l : L) :
    Trace step s (log ++ [l]) s' ↔ ∃ t, Trace step s log t ∧ step t l s' := by
  simp [append_iff, cons_iff]

/-- A run of stronger steps is a run. -/
theorem imp {step' : σ → L → σ → Prop} (hstep : ∀ s l t, step s l t → step' s l t)
    {log : List L} : ∀ {s s' : σ}, Trace step s log s' → Trace step' s log s' := by
  induction log with
  | nil => exact fun h => h
  | cons l log ih =>
    intro s s' h
    obtain ⟨t, hl, h⟩ := h
    exact ⟨t, hstep s l t hl, ih h⟩

/-- A run whose labels all satisfy `G` is a run of such steps. -/
theorem guard {G : L → Prop} {log : List L} : ∀ {s s' : σ}, Trace step s log s' →
    (∀ l ∈ log, G l) → Trace (fun s l t => step s l t ∧ G l) s log s' := by
  induction log with
  | nil => exact fun h _ => h
  | cons l log ih =>
    intro s s' h hG
    obtain ⟨t, hl, h⟩ := h
    exact ⟨t, ⟨hl, hG l List.mem_cons_self⟩, ih h fun l' hl' => hG l' (List.mem_cons_of_mem _ hl')⟩

/-- The projection rule: where every step is one step of a component or none, a
    run is a run of the component. -/
theorem project {σ' L' : Type} {step' : σ' → L' → σ' → Prop} {π : σ → σ'} {f : L → Option L'}
    (hstep : ∀ s l t, step s l t → Trace step' (π s) (f l).toList (π t)) {log : List L} :
    ∀ {s s' : σ}, Trace step s log s' → Trace step' (π s) (log.filterMap f) (π s') := by
  induction log with
  | nil =>
    intro s s' h
    obtain rfl : s' = s := h
    rfl
  | cons l log ih =>
    intro s s' h
    obtain ⟨t, hl, h⟩ := h
    have hlabels : (l :: log).filterMap f = (f l).toList ++ log.filterMap f := by
      cases hf : f l <;> simp [hf]
    rw [hlabels]
    exact (append_iff _ _ _ _).mpr ⟨π t, hstep s l t hl, ih h⟩

/-- The invariant rule: what every step preserves, every run preserves. -/
theorem invariant {P : σ → Prop} (hstep : ∀ s l t, P s → step s l t → P t) {log : List L} :
    ∀ {s s' : σ}, Trace step s log s' → P s → P s' := by
  induction log with
  | nil =>
    intro s s' heq h
    subst heq
    exact h
  | cons l log ih =>
    intro s s' h hs
    obtain ⟨t, hl, h⟩ := h
    exact ih h (hstep s l t hs hl)

/-- Induction on a run, from its start: a step may use what is known of the
    run that leads to it. -/
theorem run_induction {P : List L → σ → Prop} {s : σ} (hinit : P [] s)
    (hstep : ∀ log t l u, Trace step s log t → P log t → step t l u → P (log ++ [l]) u)
    (log : List L) : ∀ {s' : σ}, Trace step s log s' → P log s' := by
  induction log using List.reverseRecOn with
  | nil =>
    intro s' heq
    subst heq
    exact hinit
  | append_singleton log l ih =>
    intro s' h
    obtain ⟨t, h, hl⟩ := (snoc_iff s s' log l).mp h
    exact hstep log t l s' h (ih h) hl

/-- The history rule: an invariant may also speak about the steps so far. -/
theorem history {P : List L → σ → Prop} {s : σ} (hinit : P [] s)
    (hstep : ∀ log s l t, P log s → step s l t → P (log ++ [l]) t) (log : List L) {s' : σ}
    (h : Trace step s log s') : P log s' :=
  run_induction hinit (fun log t l u _ hP hl => hstep log t l u hP hl) log h

/-- The latch rule: what exactly the labels in `A` bring about, and nothing
    takes back, holds when one of them is in the log. -/
theorem latch {P : σ → Prop} {A : L → Prop} {s : σ} (hinit : ¬ P s)
    (hstep : ∀ log t l u, Trace step s log t → step t l u → (P u ↔ P t ∨ A l)) (log : List L)
    {s' : σ} (h : Trace step s log s') : P s' ↔ ∃ l ∈ log, A l := by
  refine run_induction (P := fun log s' => P s' ↔ ∃ l ∈ log, A l) (by simpa using hinit) ?_ log h
  intro log t l u hlog hP hl
  rw [hstep log t l u hlog hl, hP]
  simp only [List.mem_append, List.mem_singleton, or_and_right, exists_or, exists_eq_left]

end Trace

/-! ## Positions in a log -/

section positions

variable {α β : Type} {f : α → Option β} {l : List α}

/-- Where a place of a list that grew by one can be. -/
theorem split_snoc_cases {before after : List α} {a x : α} (h : l ++ [x] = before ++ a :: after) :
    (before = l ∧ a = x ∧ after = []) ∨
      ∃ after', after = after' ++ [x] ∧ l = before ++ a :: after' := by
  rcases List.eq_nil_or_concat after with rfl | ⟨after', last, rfl⟩
  · obtain ⟨rfl, hlast⟩ := List.append_inj' h rfl
    exact Or.inl ⟨rfl, (List.singleton_inj.mp hlast).symm, rfl⟩
  · rw [List.concat_eq_append, ← List.cons_append, ← List.append_assoc] at h
    obtain ⟨hl, hlast⟩ := List.append_inj' h rfl
    obtain rfl := List.singleton_inj.mp hlast
    exact Or.inr ⟨after', by simp, hl⟩

/-- A place in a list that grew by one is an old one or the last. -/
theorem exists_split_snoc {P : List α → Prop} {a x : α} :
    (∃ before after, l ++ [x] = before ++ a :: after ∧ P before) ↔
      (∃ before after, l = before ++ a :: after ∧ P before) ∨ x = a ∧ P l := by
  constructor
  · intro h
    obtain ⟨before, after, heq, hP⟩ := h
    rcases split_snoc_cases heq with ⟨rfl, rfl, -⟩ | ⟨after', -, hl⟩
    · exact Or.inr ⟨rfl, hP⟩
    · exact Or.inl ⟨before, after', hl, hP⟩
  · intro h
    rcases h with ⟨before, after, rfl, hP⟩ | ⟨rfl, hP⟩
    · exact ⟨before, after ++ [x], by simp, hP⟩
    · exact ⟨l, [], rfl, hP⟩

/-- Where the last selected element stands. -/
theorem split_at_last {b : β} (h : (l.filterMap f).getLast? = some b) :
    ∃ before a after, l = before ++ a :: after ∧ f a = some b ∧ after.filterMap f = [] := by
  obtain ⟨bs, hbs⟩ := List.getLast?_eq_some_iff.mp h
  obtain ⟨before, rest, rfl, -, hrest⟩ := List.filterMap_eq_append_iff.mp hbs
  obtain ⟨skipped, a, after, rfl, -, ha, hafter⟩ := List.filterMap_eq_cons_iff.mp hrest
  exact ⟨before ++ skipped, a, after, by simp, ha, hafter⟩

/-- Some element of `A` that no `b` follows. -/
def Pending (A : α → Prop) (b : α) (l : List α) : Prop :=
  ∃ before a after, l = before ++ a :: after ∧ A a ∧ b ∉ after

theorem pending_snoc_iff {A : α → Prop} {b x : α} :
    Pending A b (l ++ [x]) ↔ A x ∨ Pending A b l ∧ x ≠ b := by
  constructor
  · intro h
    obtain ⟨before, a, after, heq, ha, hafter⟩ := h
    rcases split_snoc_cases heq with ⟨-, rfl, -⟩ | ⟨after', rfl, hl⟩
    · exact Or.inl ha
    · simp only [List.mem_append, List.mem_singleton, not_or] at hafter
      exact Or.inr ⟨⟨before, a, after', hl, ha, hafter.1⟩, Ne.symm hafter.2⟩
  · intro h
    rcases h with hx | ⟨⟨before, a, after, rfl, ha, hafter⟩, hne⟩
    · exact ⟨l, x, [], rfl, hx, List.not_mem_nil⟩
    · refine ⟨before, a, after ++ [x], by simp, ha, ?_⟩
      simp [hafter, Ne.symm hne]

/-- `rest` is what follows the last `a`. -/
def AfterLast (a : α) (l rest : List α) : Prop := ∃ front, l = front ++ a :: rest ∧ a ∉ rest

theorem exists_afterLast {a : α} (h : a ∈ l) : ∃ rest, AfterLast a l rest := by
  obtain ⟨rest, front, heq, hrest⟩ := List.eq_append_cons_of_mem (List.mem_reverse.mpr h)
  refine ⟨rest.reverse, front.reverse, ?_, by simpa using hrest⟩
  rw [← List.reverse_reverse l, heq]
  simp

theorem AfterLast.mem {a : α} {rest : List α} (h : AfterLast a l rest) : a ∈ l := by
  obtain ⟨front, rfl, -⟩ := h
  simp

/-- The last `a` of a list that grew by one. -/
theorem AfterLast.snoc_cases {a x : α} {rest : List α} (h : AfterLast a (l ++ [x]) rest) :
    x = a ∧ rest = [] ∨ x ≠ a ∧ ∃ rest', rest = rest' ++ [x] ∧ AfterLast a l rest' := by
  obtain ⟨front, heq, hlast⟩ := h
  rcases split_snoc_cases heq with ⟨-, rfl, rfl⟩ | ⟨rest', rfl, hl⟩
  · exact Or.inl ⟨rfl, rfl⟩
  · simp only [List.mem_append, List.mem_singleton, not_or] at hlast
    exact Or.inr ⟨Ne.symm hlast.2, rest', rfl, front, hl, hlast.1⟩

/-- An element whose key does not occur again is the first of its suffix. -/
theorem skipped_eq_nil {a a' : α} {b : β} {after skipped after' : List α}
    (hnodup : ((a :: after).filterMap f).Nodup) (h : a :: after = skipped ++ a' :: after')
    (ha : f a = some b) (ha' : f a' = some b) : skipped = [] := by
  cases skipped with
  | nil => rfl
  | cons x xs =>
    obtain ⟨rfl, rfl⟩ := List.cons.inj h
    simp [ha, ha'] at hnodup

/-- A key that occurs once occurs at one place. -/
theorem split_unique {before after before' after' : List α} {a a' : α} {b : β}
    (hnodup : (l.filterMap f).Nodup) (h : l = before ++ a :: after)
    (h' : l = before' ++ a' :: after') (ha : f a = some b) (ha' : f a' = some b) :
    before = before' ∧ a = a' ∧ after = after' := by
  have hsuffix : ∀ {xs ys : List α}, l = xs ++ ys → (ys.filterMap f).Nodup := by
    intro xs ys heq
    rw [heq, List.filterMap_append] at hnodup
    exact (List.nodup_append.mp hnodup).2.1
  rcases List.append_eq_append_iff.mp (h.symm.trans h') with hcut | hcut
  · obtain ⟨skipped, hbefore, hrest⟩ := hcut
    obtain rfl := skipped_eq_nil (hsuffix h) hrest ha ha'
    obtain ⟨rfl, rfl⟩ := List.cons.inj hrest
    exact ⟨by simpa using hbefore.symm, rfl, rfl⟩
  · obtain ⟨skipped, hbefore, hrest⟩ := hcut
    obtain rfl := skipped_eq_nil (hsuffix h') hrest ha' ha
    obtain ⟨rfl, rfl⟩ := List.cons.inj hrest
    exact ⟨by simpa using hbefore, rfl, rfl⟩

end positions
