import Mathlib.Data.List.Basic
import Mathlib.Data.Nat.Log
import Mathlib.Tactic.Ring

/-! # Pairwise Hash Levels

    One level of a Bitcoin-style hash tree: adjacent nodes are combined in
    pairs, and the last node of an odd level is combined with itself.
    `levelUp` is the structural form; the lemmas relate it to the indexed
    form that loops compute.

    Over the levels stand the root of a tree and the path of its leftmost
    leaf. Both are defined on the leaves right of the leftmost one, so the
    path visibly does not depend on that leaf. `root` is the same root read
    off the recursive definition of the tree's nodes.

    A combining function need not be injective. What can be said of every one
    is that equal paths of lists of one length come from equal lists, or that
    two different pairs combined on the way have one value.
-/

namespace Merkle

variable {α : Type} (H : α → α → α)

/-- Combine adjacent nodes, the last one with itself when it has no partner. -/
def levelUp : List α → List α
  | [] => []
  | [a] => [H a a]
  | a :: b :: l => H a b :: levelUp l

@[simp] theorem levelUp_nil : levelUp H [] = [] := rfl

@[simp] theorem levelUp_singleton (a : α) : levelUp H [a] = [H a a] := rfl

@[simp] theorem levelUp_cons_cons (a b : α) (l : List α) :
    levelUp H (a :: b :: l) = H a b :: levelUp H l := rfl

/-- The pairs of a level, the last node with itself when it has no partner. -/
def levelPairs : List α → List (α × α)
  | [] => []
  | [a] => [(a, a)]
  | a :: b :: l => (a, b) :: levelPairs l

theorem levelUp_eq_map (l : List α) : levelUp H l = (levelPairs l).map fun p => H p.1 p.2 := by
  induction l using levelPairs.induct with
  | case1 => rfl
  | case2 a => rfl
  | case3 a b l ih => rw [levelUp_cons_cons, levelPairs, List.map_cons, ih]

theorem length_levelPairs (l : List α) : (levelPairs l).length = (l.length + 1) / 2 := by
  induction l using levelPairs.induct with
  | case1 => simp [levelPairs]
  | case2 a => simp [levelPairs]
  | case3 a b l ih =>
    simp only [levelPairs, List.length_cons, ih]
    omega

theorem length_levelUp (l : List α) : (levelUp H l).length = (l.length + 1) / 2 := by
  rw [levelUp_eq_map, List.length_map, length_levelPairs]

/-- A level of two or more nodes is one level above the next. -/
theorem clog_length_levelUp (a b x : α) (l : List α) :
    Nat.clog 2 (a :: b :: l).length = Nat.clog 2 (x :: levelUp H l).length + 1 := by
  have hhalf : (l.length + 1 + 1 + 2 - 1) / 2 = (l.length + 1) / 2 + 1 := by omega
  rw [List.length_cons, List.length_cons, Nat.clog_of_two_le (by omega) (by omega), hhalf,
    List.length_cons, length_levelUp]

/-- The indexed form of a level: pair `i` holds nodes `2 * i` and `2 * i + 1`,
    with the index clamped to the last one. -/
theorem getElem?_levelPairs (l : List α) : ∀ i a b,
    l[2 * i]? = some a → l[min (2 * i + 1) (l.length - 1)]? = some b →
      (levelPairs l)[i]? = some (a, b) := by
  induction l using levelPairs.induct with
  | case1 =>
    intro i a b ha
    simp at ha
  | case2 x =>
    intro i a b ha hb
    cases i with
    | zero =>
      -- no partner: the clamped index is the node itself
      simp only [List.getElem?_cons_zero, Option.some.injEq, Nat.mul_zero] at ha
      simp only [List.length_singleton, Nat.sub_self, Nat.min_zero, List.getElem?_cons_zero,
        Option.some.injEq] at hb
      rw [← ha, ← hb]
      rfl
    | succ i => simp [Nat.mul_add] at ha
  | case3 x y l ih =>
    intro i a b ha hb
    cases i with
    | zero =>
      have hmin : min (2 * 0 + 1) ((x :: y :: l).length - 1) = 1 := by
        simp only [List.length_cons]
        omega
      rw [hmin] at hb
      simp only [Nat.mul_zero, List.getElem?_cons_zero, Option.some.injEq] at ha
      simp only [List.getElem?_cons_succ, List.getElem?_cons_zero, Option.some.injEq] at hb
      simp [levelPairs, ha, hb]
    | succ i =>
      -- both indices lie past the first pair; the clamp moves with them
      have hlt : 2 * i < l.length := by
        have := (List.getElem?_eq_some_iff.mp ha).1
        simp only [List.length_cons] at this
        omega
      have hmin : min (2 * (i + 1) + 1) ((x :: y :: l).length - 1) =
          min (2 * i + 1) (l.length - 1) + 2 := by
        simp only [List.length_cons]
        omega
      rw [hmin] at hb
      rw [show 2 * (i + 1) = 2 * i + 2 by omega] at ha
      simp only [List.getElem?_cons_succ] at ha hb
      simp only [levelPairs, List.getElem?_cons_succ]
      exact ih i a b ha hb

theorem getElem?_levelUp (l : List α) (i : Nat) (a b : α) (ha : l[2 * i]? = some a)
    (hb : l[min (2 * i + 1) (l.length - 1)]? = some b) : (levelUp H l)[i]? = some (H a b) := by
  rw [levelUp_eq_map, List.getElem?_map, getElem?_levelPairs l i a b ha hb]
  rfl

/-! ## The leftmost leaf -/

/-- The siblings of the leftmost node at every level, given the nodes right
    of it. -/
def leftPath : List α → List α
  | [] => []
  | b :: l => b :: leftPath (levelUp H l)
termination_by l => l.length
decreasing_by
  rw [length_levelUp, List.length_cons]
  omega

/-- The root of the tree with leftmost leaf `a`. -/
def rootFrom (a : α) : List α → α
  | [] => a
  | b :: l => rootFrom (H a b) (levelUp H l)
termination_by l => l.length
decreasing_by
  rw [length_levelUp, List.length_cons]
  omega

/-- Folding the path into the leftmost leaf gives the root. -/
theorem foldl_leftPath (a : α) (l : List α) : (leftPath H l).foldl H a = rootFrom H a l := by
  induction a, l using rootFrom.induct (H := H) with
  | case1 a => simp [leftPath, rootFrom]
  | case2 a b l ih => rw [leftPath, rootFrom, List.foldl_cons, ih]

/-- The path has one sibling for each level above the leaves. -/
theorem length_leftPath (l : List α) : (leftPath H l).length = Nat.clog 2 (l.length + 1) := by
  induction l using leftPath.induct (H := H) with
  | case1 => simp [leftPath]
  | case2 b l ih =>
    -- the node left of the path's does not change the number of levels
    have hlevels := clog_length_levelUp H b b b l
    rw [leftPath, List.length_cons, ih]
    exact hlevels.symm

/-! ## The pairs that are combined -/

/-- The pairs of a level and its length determine it. -/
theorem levelPairs_injective {l l' : List α} (h : levelPairs l = levelPairs l')
    (hlen : l.length = l'.length) : l = l' := by
  induction l using levelPairs.induct generalizing l' with
  | case1 => exact (List.eq_nil_of_length_eq_zero hlen.symm).symm
  | case2 a =>
    match l', hlen with
    | [b], _ =>
      simp only [levelPairs, List.cons.injEq, Prod.mk.injEq] at h
      rw [h.1.1]
  | case3 a b l ih =>
    match l', hlen with
    | c :: d :: l', hlen =>
      simp only [levelPairs, List.cons.injEq, Prod.mk.injEq] at h
      simp only [List.length_cons, Nat.add_right_cancel_iff] at hlen
      rw [h.1.1, h.1.2, ih h.2 hlen]

/-- Different pairs, one of each list, with one value. -/
def Collides (ps qs : List (α × α)) : Prop :=
  ∃ p ∈ ps, ∃ q ∈ qs, p ≠ q ∧ H p.1 p.2 = H q.1 q.2

variable {H}

theorem Collides.mono {ps ps' qs qs' : List (α × α)} (hps : ps ⊆ ps') (hqs : qs ⊆ qs')
    (h : Collides H ps qs) : Collides H ps' qs' := by
  obtain ⟨p, hp, q, hq, hne, heq⟩ := h
  exact ⟨p, hps hp, q, hqs hq, hne, heq⟩

/-- Two lists of pairs with the same values are equal or collide. -/
theorem eq_or_collides_of_map_eq : ∀ {ps qs : List (α × α)},
    (ps.map fun p => H p.1 p.2) = (qs.map fun p => H p.1 p.2) → ps = qs ∨ Collides H ps qs
  | [], [], _ => Or.inl rfl
  | p :: ps, q :: qs, h => by
    simp only [List.map_cons, List.cons.injEq] at h
    by_cases hpq : p = q
    · rcases eq_or_collides_of_map_eq h.2 with heq | hcol
      · exact Or.inl (by rw [hpq, heq])
      · exact Or.inr (hcol.mono (List.subset_cons_self p ps) (List.subset_cons_self q qs))
    · exact Or.inr ⟨p, List.mem_cons_self, q, List.mem_cons_self, hpq, h.1⟩

theorem eq_or_collides_of_levelUp_eq {l l' : List α} (h : levelUp H l = levelUp H l')
    (hlen : l.length = l'.length) : l = l' ∨ Collides H (levelPairs l) (levelPairs l') := by
  rw [levelUp_eq_map, levelUp_eq_map] at h
  rcases eq_or_collides_of_map_eq h with heq | hcol
  · exact Or.inl (levelPairs_injective heq hlen)
  · exact Or.inr hcol

variable (H)

/-- The pairs combined on all levels of the tree with leftmost leaf `a`. -/
def treePairs (a : α) : List α → List (α × α)
  | [] => []
  | b :: l => levelPairs (a :: b :: l) ++ treePairs (H a b) (levelUp H l)
termination_by l => l.length
decreasing_by
  rw [length_levelUp, List.length_cons]
  omega

/-- The path binds the list: equal paths of two lists of one length come from
    equal lists, or a pair combined for one collides with a pair combined for
    the other. -/
theorem eq_or_collides_of_leftPath_eq (a a' : α) (l : List α) : ∀ l' : List α,
    leftPath H l = leftPath H l' → l.length = l'.length →
      l = l' ∨ Collides H (treePairs H a l) (treePairs H a' l') := by
  induction a, l using treePairs.induct (H := H) generalizing a' with
  | case1 a => exact fun l' _ hlen => Or.inl (List.eq_nil_of_length_eq_zero hlen.symm).symm
  | case2 a b l ih =>
    intro l' h hlen
    match l', hlen with
    | b' :: l', hlen =>
      rw [leftPath, leftPath, List.cons.injEq] at h
      obtain ⟨hb, hpath⟩ := h
      have hlen : l.length = l'.length := Nat.succ.inj hlen
      rw [treePairs, treePairs]
      -- the level above agrees or collides, and then so does this one
      rcases ih (H a' b') (levelUp H l') hpath (by rw [length_levelUp, length_levelUp, hlen]) with
        hlevel | hcol
      · rcases eq_or_collides_of_levelUp_eq hlevel hlen with heq | hcol
        · exact Or.inl (by rw [hb, heq])
        · refine Or.inr (hcol.mono ?_ ?_)
          · exact List.subset_append_of_subset_left _ (List.subset_cons_self _ _)
          · exact List.subset_append_of_subset_left _ (List.subset_cons_self _ _)
      · exact Or.inr (hcol.mono (List.subset_append_right _ _) (List.subset_append_right _ _))

/-! ## The tree of nodes -/

/-- Node `i` of level `h`, if there is one: a leaf on level `0`, above it the
    combination of nodes `2 * i` and `2 * i + 1`, or of node `2 * i` with
    itself when the other one does not exist. -/
def node (l : List α) : Nat → Nat → Option α
  | 0, i => l[i]?
  | h + 1, i => (node l h (2 * i)).map fun left => H left ((node l h (2 * i + 1)).getD left)

/-- The only node of the lowest level with one node. -/
def root (l : List α) : Option α := node H l (Nat.clog 2 l.length) 0

/-- The levels of the tree are the iterated `levelUp`. -/
theorem node_levelUp (l : List α) (h : Nat) :
    ∀ i, node H (levelUp H l) h i = node H l (h + 1) i := by
  induction h with
  | zero =>
    intro i
    show (levelUp H l)[i]? = (l[2 * i]?).map fun left => H left ((l[2 * i + 1]?).getD left)
    by_cases hi : 2 * i < l.length
    · -- the clamped partner is the next node, or the node itself at an odd end
      have hright : l[min (2 * i + 1) (l.length - 1)]? =
          some ((l[2 * i + 1]?).getD (l.get ⟨2 * i, hi⟩)) := by
        by_cases hnext : 2 * i + 1 < l.length
        · rw [show min (2 * i + 1) (l.length - 1) = 2 * i + 1 by omega,
            List.getElem?_eq_getElem hnext]
          rfl
        · rw [show min (2 * i + 1) (l.length - 1) = 2 * i by omega,
            List.getElem?_eq_none (by omega : l.length ≤ 2 * i + 1),
            List.getElem?_eq_getElem hi]
          rfl
      have hleft : l[2 * i]? = some (l.get ⟨2 * i, hi⟩) := List.getElem?_eq_getElem hi
      rw [getElem?_levelUp H l i _ _ hleft hright, hleft]
      rfl
    · rw [List.getElem?_eq_none (by omega : l.length ≤ 2 * i),
        List.getElem?_eq_none (by rw [length_levelUp]; omega)]
      rfl
  | succ h ih =>
    intro i
    simp only [node] at ih ⊢
    rw [ih, ih]

/-- The two roots agree. -/
theorem root_eq_rootFrom (a : α) (l : List α) : root H (a :: l) = some (rootFrom H a l) := by
  induction a, l using rootFrom.induct (H := H) with
  | case1 a => simp [root, rootFrom, node]
  | case2 a b l ih =>
    rw [rootFrom, ← ih, root, root, clog_length_levelUp H a b (H a b), ← node_levelUp,
      levelUp_cons_cons]

end Merkle
