import Mathlib.Data.List.DropRight
import Mathlib.Data.List.TakeWhile

/-! # Normalization and Trimming

    A normalizer replaces every letter of a text by a non-empty list of
    letters and then rearranges and composes the result. Some letters are
    inert: they stand for themselves, nothing is moved across them or composed
    with them, and no composition makes one. Inert letters at the ends of a
    text can be trimmed before or after normalizing it, but the two orders
    differ where a letter at an end is replaced by inert ones. Unicode's
    normalization forms are normalizers, for which ASCII whitespace is inert.
-/

namespace Normalization

variable {α : Type} (inert : α → Bool)

/-! ## Trimming -/

/-- Remove the inert letters at both ends. -/
def trim (l : List α) : List α := (l.dropWhile inert).rdropWhile inert

/-- Neither end is inert. -/
def Bare (l : List α) : Prop := l.head?.any inert = false ∧ l.getLast?.any inert = false

variable {inert} {l : List α}

theorem dropWhile_append_inert {a : List α} (ha : ∀ c ∈ a, inert c = true) (l : List α) :
    (a ++ l).dropWhile inert = l.dropWhile inert := by
  rw [List.dropWhile_append, List.dropWhile_eq_nil_iff.mpr ha]
  rfl

theorem rdropWhile_append_inert {b : List α} (hb : ∀ c ∈ b, inert c = true) (l : List α) :
    (l ++ b).rdropWhile inert = l.rdropWhile inert := by
  unfold List.rdropWhile
  rw [List.reverse_append, dropWhile_append_inert fun c hc => hb c (List.mem_reverse.mp hc)]

/-- Inert letters around a text do not survive. -/
theorem trim_append {a b : List α} (ha : ∀ c ∈ a, inert c = true) (hb : ∀ c ∈ b, inert c = true)
    (l : List α) : trim inert (a ++ l ++ b) = trim inert l := by
  unfold trim
  rw [List.append_assoc, dropWhile_append_inert ha]
  by_cases hl : l.dropWhile inert = []
  · rw [List.dropWhile_append, hl, List.dropWhile_eq_nil_iff.mpr hb]
    rfl
  · rw [List.dropWhile_append, if_neg (by simpa using hl), rdropWhile_append_inert hb]

/-- A text is its trimmed part and the inert letters around it. -/
theorem exists_trim (l : List α) : ∃ a b, l = a ++ trim inert l ++ b ∧
    (∀ c ∈ a, inert c = true) ∧ ∀ c ∈ b, inert c = true := by
  refine ⟨l.takeWhile inert, (l.dropWhile inert).rtakeWhile inert, ?_,
    fun c hc => List.mem_takeWhile_imp hc, fun c hc => List.mem_rtakeWhile_imp hc⟩
  rw [trim, List.append_assoc, List.rdropWhile_append_rtakeWhile,
    List.takeWhile_append_dropWhile]

theorem trim_of_bare (h : Bare inert l) : trim inert l = l := by
  have hdrop : l.dropWhile inert = l := by
    cases l with
    | nil => rfl
    | cons c t => exact List.dropWhile_cons_of_neg (by simpa using h.1)
  rw [trim, hdrop, List.rdropWhile_eq_self_iff]
  intro hne
  have hlast := h.2
  rw [List.getLast?_eq_some_getLast hne] at hlast
  simpa using hlast

/-! ## Normalizers -/

variable (inert)

structure Normalizer where
  decompose : α → List α
  /-- Rearrange and compose. -/
  compose : List α → List α
  decompose_inert : ∀ c, inert c = true → decompose c = [c]
  decompose_ne_nil : ∀ c, decompose c ≠ []
  compose_eq_nil : ∀ l, compose l = [] ↔ l = []
  compose_append : ∀ l c l', inert c = true → compose (l ++ c :: l') = compose l ++ c :: compose l'
  compose_active : ∀ l, (∀ c ∈ l, inert c = false) → ∀ c ∈ compose l, inert c = false

variable {inert}

namespace Normalizer

variable (n : Normalizer inert)

def normalize (l : List α) : List α := n.compose (l.flatMap n.decompose)

@[simp] theorem normalize_nil : n.normalize [] = [] := (n.compose_eq_nil []).mpr rfl

theorem normalize_append {c : α} (hc : inert c = true) (l l' : List α) :
    n.normalize (l ++ c :: l') = n.normalize l ++ c :: n.normalize l' := by
  unfold normalize
  rw [List.flatMap_append, List.flatMap_cons, n.decompose_inert c hc, List.singleton_append,
    n.compose_append _ c _ hc]

theorem normalize_append_left {a : List α} (ha : ∀ c ∈ a, inert c = true) (l : List α) :
    n.normalize (a ++ l) = a ++ n.normalize l := by
  induction a with
  | nil => rfl
  | cons c a ih =>
    have hc := ha c List.mem_cons_self
    have hcons := n.normalize_append hc [] (a ++ l)
    rw [normalize_nil, List.nil_append, List.nil_append] at hcons
    rw [List.cons_append, hcons, ih fun c' hc' => ha c' (List.mem_cons_of_mem c hc'),
      List.cons_append]

theorem normalize_append_right {b : List α} (hb : ∀ c ∈ b, inert c = true) (l : List α) :
    n.normalize (l ++ b) = n.normalize l ++ b := by
  cases b with
  | nil => simp
  | cons c b =>
    have hrest := n.normalize_append_left (fun c' hc' => hb c' (List.mem_cons_of_mem c hc')) []
    rw [normalize_nil, List.append_nil] at hrest
    rw [n.normalize_append (hb c List.mem_cons_self), hrest]

/-- Inert letters around a text stay around what it is normalized to. -/
theorem trim_normalize (l : List α) :
    trim inert (n.normalize l) = trim inert (n.normalize (trim inert l)) := by
  obtain ⟨a, b, hl, ha, hb⟩ := exists_trim l
  calc trim inert (n.normalize l)
      = trim inert (n.normalize (a ++ trim inert l ++ b)) := by rw [← hl]
    _ = trim inert (a ++ n.normalize (trim inert l) ++ b) := by
        rw [n.normalize_append_right hb, n.normalize_append_left ha]
    _ = trim inert (n.normalize (trim inert l)) := trim_append ha hb _

/-! ## The ends of a normalized text -/

/-- Composition keeps an inert first letter and makes none. -/
theorem any_head?_compose (l : List α) :
    (n.compose l).head?.any inert = l.head?.any inert := by
  cases l with
  | nil => rw [(n.compose_eq_nil []).mpr rfl]
  | cons c l =>
    cases hc : inert c with
    | true =>
      have hcompose := n.compose_append [] c l hc
      rw [List.nil_append, (n.compose_eq_nil []).mpr rfl, List.nil_append] at hcompose
      rw [hcompose]
      rfl
    | false =>
      -- the letters before the first inert one are composed among themselves
      have hfront : ∃ rest, n.compose (c :: l) =
          n.compose (c :: l.takeWhile fun c => !inert c) ++ rest := by
        cases hrest : l.dropWhile fun c => !inert c with
        | nil =>
          refine ⟨[], ?_⟩
          have hsplit := List.takeWhile_append_dropWhile (p := fun c => !inert c) (l := l)
          rw [hrest, List.append_nil] at hsplit
          rw [hsplit, List.append_nil]
        | cons i r =>
          have hi : inert i = true := by
            have hhead := List.head?_dropWhile_not (fun c => !inert c) l
            simpa [hrest] using hhead
          refine ⟨i :: n.compose r, ?_⟩
          rw [← n.compose_append _ i r hi, ← hrest, List.cons_append,
            List.takeWhile_append_dropWhile]
      obtain ⟨rest, hrest⟩ := hfront
      have hactive : ∀ c' ∈ n.compose (c :: l.takeWhile fun c => !inert c), inert c' = false := by
        refine n.compose_active _ fun c' hc' => ?_
        rcases List.mem_cons.mp hc' with rfl | hc'
        · exact hc
        · simpa using List.mem_takeWhile_imp hc'
      rw [hrest]
      cases hcomposed : n.compose (c :: l.takeWhile fun c => !inert c) with
      | nil => exact absurd ((n.compose_eq_nil _).mp hcomposed) (List.cons_ne_nil _ _)
      | cons d t =>
        rw [hcomposed] at hactive
        simpa [hc] using hactive d List.mem_cons_self

/-- The normalizer that reads texts from right to left. -/
def mirror : Normalizer inert where
  decompose c := (n.decompose c).reverse
  compose l := (n.compose l.reverse).reverse
  decompose_inert c hc := by rw [n.decompose_inert c hc, List.reverse_singleton]
  decompose_ne_nil c h := n.decompose_ne_nil c (List.reverse_eq_nil_iff.mp h)
  compose_eq_nil l := by
    rw [List.reverse_eq_nil_iff, n.compose_eq_nil, List.reverse_eq_nil_iff]
  compose_append l c l' hc := by
    rw [List.reverse_append, List.reverse_cons, List.append_assoc, List.singleton_append,
      n.compose_append _ c _ hc]
    simp
  compose_active l hl c hc :=
    n.compose_active _ (fun c' hc' => hl c' (List.mem_reverse.mp hc')) c (List.mem_reverse.mp hc)

theorem any_getLast?_compose (l : List α) :
    (n.compose l).getLast?.any inert = l.getLast?.any inert := by
  have hmirror := n.mirror.any_head?_compose l.reverse
  simpa [mirror] using hmirror

/-- A text is normalized to one without inert ends exactly when its first and
    its last letter are replaced by such. -/
theorem bare_normalize_iff (l : List α) :
    Bare inert (n.normalize l) ↔
      (∀ c, l.head? = some c → (n.decompose c).head?.any inert = false) ∧
      (∀ c, l.getLast? = some c → (n.decompose c).getLast?.any inert = false) := by
  unfold Bare normalize
  rw [n.any_head?_compose, n.any_getLast?_compose]
  refine and_congr ?_ ?_
  · cases l with
    | nil => simp
    | cons c l =>
      have hhead : ((c :: l).flatMap n.decompose).head? = (n.decompose c).head? := by
        cases hc : n.decompose c with
        | nil => exact absurd hc (n.decompose_ne_nil c)
        | cons d t => simp [hc]
      rw [hhead]
      simp
  · induction l using List.reverseRecOn with
    | nil => simp
    | append_singleton l c _ =>
      have hlast : ((l ++ [c]).flatMap n.decompose).getLast? = (n.decompose c).getLast? := by
        cases hc : (n.decompose c).getLast? with
        | none => exact absurd (List.getLast?_eq_none_iff.mp hc) (n.decompose_ne_nil c)
        | some d => simp [hc]
      rw [hlast]
      simp

end Normalizer

end Normalization
