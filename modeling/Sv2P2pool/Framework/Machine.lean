import Mathlib.Data.List.Basic

/-! # Deterministic Machines

    A machine answers each input with an output and a next state. Two proof
    rules for the outputs of whole input sequences:

    * **Simulation**: two machines whose states stay related answer alike.
    * **Purging**: inputs that an observer neither sees the answer of nor
      feels the effect of may be left out of the sequence.
-/

/-- In a state, an input gives an output and the next state. -/
abbrev Machine (σ I O : Type) := σ → I → O × σ

namespace Machine

variable {σ τ I O P Q : Type}

/-- The outputs of an input sequence. -/
def outputs (m : Machine σ I O) : σ → List I → List O
  | _, [] => []
  | s, i :: is => (m s i).1 :: outputs m (m s i).2 is

/-- The state after an input sequence. -/
def after (m : Machine σ I O) : σ → List I → σ
  | s, [] => s
  | s, i :: is => after m (m s i).2 is

@[simp] theorem outputs_nil (m : Machine σ I O) (s : σ) : outputs m s [] = [] := rfl

@[simp] theorem outputs_cons (m : Machine σ I O) (s : σ) (i : I) (is : List I) :
    outputs m s (i :: is) = (m s i).1 :: outputs m (m s i).2 is := rfl

@[simp] theorem after_nil (m : Machine σ I O) (s : σ) : after m s [] = s := rfl

@[simp] theorem after_cons (m : Machine σ I O) (s : σ) (i : I) (is : List I) :
    after m s (i :: is) = after m (m s i).2 is := rfl

theorem after_append (m : Machine σ I O) (is js : List I) : ∀ s : σ,
    after m s (is ++ js) = after m (after m s is) js := by
  induction is with
  | nil => exact fun s => rfl
  | cons i is ih => exact fun s => ih _

/-! ## Simulation -/

/-- The machines go on side by side: related states answer legal inputs alike,
    in the eyes of `f` and `g`, and stay related. -/
def Simulates (m : Machine σ I O) (m' : Machine τ I P) (f : O → Option Q) (g : P → Option Q)
    (legal : I → Prop) (R : σ → τ → Prop) : Prop :=
  ∀ s t i, R s t → legal i → f (m s i).1 = g (m' t i).1 ∧ R (m s i).2 (m' t i).2

/-- The simulation rule. -/
theorem Simulates.run {m : Machine σ I O} {m' : Machine τ I P} {f : O → Option Q}
    {g : P → Option Q} {legal : I → Prop} {R : σ → τ → Prop}
    (h : Simulates m m' f g legal R) {is : List I} :
    ∀ {s : σ} {t : τ}, (∀ i ∈ is, legal i) → R s t →
      (outputs m s is).filterMap f = (outputs m' t is).filterMap g ∧
        R (after m s is) (after m' t is) := by
  induction is with
  | nil => exact fun _ hR => ⟨rfl, hR⟩
  | cons i is ih =>
    intro s t hlegal hR
    obtain ⟨hout, hR'⟩ := h s t i hR (hlegal i List.mem_cons_self)
    obtain ⟨houts, hR''⟩ := ih (fun j hj => hlegal j (List.mem_cons_of_mem _ hj)) hR'
    refine ⟨?_, hR''⟩
    rw [outputs_cons, outputs_cons, List.filterMap_cons, List.filterMap_cons, hout, houts]

/-! ## Purging -/

/-- What an observer sees of a state: a visible input shows the same in states
    that look the same, and keeps them so; an invisible one shows nothing and
    changes nothing the observer sees. -/
structure View (m : Machine σ I O) (obs : O → Option Q) (visible : I → Bool)
    (V : σ → σ → Prop) : Prop where
  shown : ∀ s t i, V s t → visible i = true →
    obs (m s i).1 = obs (m t i).1 ∧ V (m s i).2 (m t i).2
  hidden : ∀ s t i, V s t → visible i = false → obs (m s i).1 = none ∧ V (m s i).2 t

/-- The purging rule. -/
theorem View.purge {m : Machine σ I O} {obs : O → Option Q} {visible : I → Bool}
    {V : σ → σ → Prop} (h : View m obs visible V) {is : List I} :
    ∀ {s t : σ}, V s t →
      (outputs m s is).filterMap obs = (outputs m t (is.filter visible)).filterMap obs ∧
        V (after m s is) (after m t (is.filter visible)) := by
  induction is with
  | nil => exact fun hV => ⟨rfl, hV⟩
  | cons i is ih =>
    intro s t hV
    cases hi : visible i with
    | true =>
      obtain ⟨hout, hV'⟩ := h.shown s t i hV hi
      obtain ⟨houts, hV''⟩ := ih hV'
      rw [List.filter_cons_of_pos hi]
      refine ⟨?_, hV''⟩
      rw [outputs_cons, outputs_cons, List.filterMap_cons, List.filterMap_cons, hout, houts]
    | false =>
      obtain ⟨hout, hV'⟩ := h.hidden s t i hV hi
      obtain ⟨houts, hV''⟩ := ih hV'
      rw [List.filter_cons_of_neg (by simp [hi])]
      refine ⟨?_, hV''⟩
      rw [outputs_cons, List.filterMap_cons, hout, houts]

end Machine
