import Mathlib.Data.List.Induction
import Mathlib.Data.List.Perm.Subperm
import Sv2P2pool.Framework.DashMap

/-! # Numbered Insertions

    A shared map forgets which insertion an entry comes from: two insertions
    of equal values look alike. `Tickets` is the map with every insertion
    numbered and with a record of who removed which number. It says what it
    means that a value is taken out at most once.
-/

/-- A longer list keeps its positions. -/
theorem getElem?_of_prefix {α : Type} {l l' : List α} {n : Nat} {a : α} (h : l <+: l')
    (hn : l[n]? = some a) : l'[n]? = some a := by
  obtain ⟨rest, rfl⟩ := h
  rw [List.getElem?_append_left (List.getElem?_eq_some_iff.mp hn).1]
  exact hn

/-- A step of a shared map; `C` are the callers. -/
inductive MapEvent (K V C : Type) where
  | insert (k : K) (v : V)
  | remove (c : C) (k : K)
  | retain (keep : K → V → Bool)

/-- What a step inserts. -/
def MapEvent.inserted? {K V C : Type} : MapEvent K V C → Option (K × V)
  | .insert k v => some (k, v)
  | .remove _ _ => none
  | .retain _ => none

structure Tickets (K V C : Type) where
  /-- The map, each value with the number of its insertion. -/
  entries : DashMap K (Nat × V)
  /-- The insertions so far; an insertion's number is its position. -/
  inserted : List (K × V)
  /-- Who removed which insertion. -/
  taken : List (C × Nat)

namespace Tickets

variable {K V C : Type} [DecidableEq K]

def empty : Tickets K V C := ⟨∅, [], []⟩

def step (t : Tickets K V C) : MapEvent K V C → Tickets K V C
  | .insert k v =>
    { t with entries := t.entries.insert k (t.inserted.length, v)
             inserted := t.inserted ++ [(k, v)] }
  | .remove c k =>
    match t.entries.lookup k with
    | none => t
    | some (n, _) => { t with entries := t.entries.erase k, taken := t.taken ++ [(c, n)] }
  | .retain keep => { t with entries := DashMap.retain (fun k x => keep k x.2) t.entries }

theorem step_remove_none {t : Tickets K V C} {k : K} (h : t.entries.lookup k = none) (c : C) :
    t.step (.remove c k) = t := by
  simp [step, h]

theorem step_remove_some {t : Tickets K V C} {k : K} {n : Nat} {v : V}
    (h : t.entries.lookup k = some (n, v)) (c : C) :
    t.step (.remove c k) =
      { t with entries := t.entries.erase k, taken := t.taken ++ [(c, n)] } := by
  simp [step, h]

/-- The steps of a list of events. -/
def after (events : List (MapEvent K V C)) : Tickets K V C := events.foldl step empty

theorem after_snoc (events : List (MapEvent K V C)) (e : MapEvent K V C) :
    after (events ++ [e]) = (after events).step e := by
  simp [after]

/-- The numbers count the insertions. -/
theorem inserted_step (t : Tickets K V C) (e : MapEvent K V C) :
    (t.step e).inserted = t.inserted ++ e.inserted?.toList := by
  cases e with
  | insert k v => rfl
  | retain keep => simp [step, MapEvent.inserted?]
  | remove c k =>
    cases hk : t.entries.lookup k with
    | none => simp [step_remove_none hk, MapEvent.inserted?]
    | some x => simp [step_remove_some hk, MapEvent.inserted?]

/-- After a step an entry is an old one or the next insertion. -/
theorem lookup_step {t : Tickets K V C} {e : MapEvent K V C} {k : K} {n : Nat} {v : V}
    (h : (t.step e).entries.lookup k = some (n, v)) :
    t.entries.lookup k = some (n, v) ∨ n = t.inserted.length := by
  cases e with
  | insert k' v' =>
    simp only [step, DashMap.lookup_insert_eq] at h
    split_ifs at h
    · exact Or.inr (Prod.mk.inj (Option.some.inj h)).1.symm
    · exact Or.inl h
  | retain keep => exact Or.inl ((DashMap.lookup_retain_eq_some _ _ _ _).mp h).1
  | remove c k' =>
    cases hk : t.entries.lookup k' with
    | none =>
      rw [step_remove_none hk] at h
      exact Or.inl h
    | some x =>
      simp only [step_remove_some hk, DashMap.lookup_erase_eq] at h
      split_ifs at h
      exact Or.inl h

theorem inserted_after (events : List (MapEvent K V C)) :
    (after events).inserted = events.filterMap MapEvent.inserted? := by
  induction events using List.reverseRecOn with
  | nil => rfl
  | append_singleton events e ih =>
    rw [after_snoc, inserted_step, ih]
    cases h : e.inserted? <;> simp [h]

/-- The plain map a numbered one stands for. -/
def Tracks (t : Tickets K V C) (m : DashMap K V) : Prop :=
  ∀ k, m.lookup k = (t.entries.lookup k).map Prod.snd

/-- Numbers in the map are those of their insertions and have not been taken;
    no number was taken twice. -/
structure Valid (t : Tickets K V C) : Prop where
  entry : ∀ k n v, t.entries.lookup k = some (n, v) → t.inserted[n]? = some (k, v)
  untaken : ∀ k n v c, t.entries.lookup k = some (n, v) → (c, n) ∉ t.taken
  issued : ∀ c n, (c, n) ∈ t.taken → n < t.inserted.length
  nodup : (t.taken.map Prod.snd).Nodup

variable {t : Tickets K V C}

theorem valid_empty : (empty : Tickets K V C).Valid where
  entry k n v h := by simp [empty] at h
  untaken k n v c h := by simp [empty] at h
  issued c n h := by simp [empty] at h
  nodup := by simp [empty]

theorem Valid.insert (h : t.Valid) (k : K) (v : V) : (t.step (.insert k v)).Valid where
  entry k' n v' hk' := by
    simp only [step, DashMap.lookup_insert_eq] at hk' ⊢
    split_ifs at hk' with heq
    · obtain ⟨rfl, rfl⟩ := Prod.mk.inj (Option.some.inj hk')
      simp [heq]
    · exact getElem?_of_prefix (List.prefix_append _ _) (h.entry k' n v' hk')
  untaken k' n v' c hk' hmem := by
    simp only [step, DashMap.lookup_insert_eq] at hk'
    split_ifs at hk' with heq
    · -- a fresh number is larger than all that were taken
      obtain ⟨rfl, rfl⟩ := Prod.mk.inj (Option.some.inj hk')
      exact absurd (h.issued c _ hmem) (Nat.lt_irrefl _)
    · exact h.untaken k' n v' c hk' hmem
  issued c n hmem := by
    have hlt := h.issued c n hmem
    simp only [step, List.length_append, List.length_singleton]
    omega
  nodup := h.nodup

theorem Valid.remove (h : t.Valid) (c : C) (k : K) : (t.step (.remove c k)).Valid := by
  cases hk : t.entries.lookup k with
  | none =>
    rw [step_remove_none hk]
    exact h
  | some x =>
    obtain ⟨n, v⟩ := x
    have hn := h.entry k n v hk
    rw [step_remove_some hk]
    refine ⟨fun k' n' v' hk' => ?_, fun k' n' v' c' hk' hmem => ?_, fun c' n' hmem => ?_, ?_⟩
    · simp only [DashMap.lookup_erase_eq] at hk'
      split_ifs at hk'
      exact h.entry k' n' v' hk'
    · simp only [DashMap.lookup_erase_eq] at hk'
      split_ifs at hk' with hne
      rcases List.mem_append.mp hmem with hmem | hmem
      · exact h.untaken k' n' v' c' hk' hmem
      · -- a number belongs to one key
        obtain ⟨rfl, rfl⟩ := Prod.mk.inj (List.mem_singleton.mp hmem)
        have hn' := h.entry k' n' v' hk'
        rw [hn] at hn'
        exact hne (Prod.mk.inj (Option.some.inj hn')).1.symm
    · rcases List.mem_append.mp hmem with hmem | hmem
      · exact h.issued c' n' hmem
      · obtain ⟨rfl, rfl⟩ := Prod.mk.inj (List.mem_singleton.mp hmem)
        exact (List.getElem?_eq_some_iff.mp hn).1
    · rw [List.map_append, List.nodup_append]
      refine ⟨h.nodup, by simp, fun a ha b hb => ?_⟩
      obtain ⟨⟨c', n'⟩, hmem, rfl⟩ := List.mem_map.mp ha
      intro heq
      obtain rfl : n' = n := heq.trans (List.mem_singleton.mp hb)
      exact h.untaken k n' v c' hk hmem

theorem Valid.retain (h : t.Valid) (keep : K → V → Bool) : (t.step (.retain keep)).Valid where
  entry k n v hk := h.entry k n v ((DashMap.lookup_retain_eq_some _ _ _ _).mp hk).1
  untaken k n v c hk := h.untaken k n v c ((DashMap.lookup_retain_eq_some _ _ _ _).mp hk).1
  issued := h.issued
  nodup := h.nodup

theorem valid_after (events : List (MapEvent K V C)) : (after events).Valid := by
  induction events using List.reverseRecOn with
  | nil => exact valid_empty
  | append_singleton events e ih =>
    rw [after_snoc]
    cases e with
    | insert k v => exact ih.insert k v
    | remove c k => exact ih.remove c k
    | retain keep => exact ih.retain keep

/-! ## The plain map -/

theorem Tracks.insert {m : DashMap K V} (h : t.Tracks m) (k : K) (v : V) :
    (t.step (.insert k v)).Tracks (m.insert k v) := by
  intro k'
  simp only [step, DashMap.lookup_insert_eq, h k']
  split_ifs <;> rfl

theorem Tracks.remove {m : DashMap K V} (h : t.Tracks m) (c : C) (k : K) :
    (t.step (.remove c k)).Tracks (m.erase k) := by
  intro k'
  cases hk : t.entries.lookup k with
  | none =>
    rw [step_remove_none hk, DashMap.lookup_erase_eq]
    split_ifs with heq
    · rw [heq, hk]
      rfl
    · exact h k'
  | some x =>
    obtain ⟨n, v⟩ := x
    rw [step_remove_some hk]
    simp only [DashMap.lookup_erase_eq, h k']
    split_ifs <;> rfl

theorem Tracks.retain {m : DashMap K V} (h : t.Tracks m) (keep : K → V → Bool) :
    (t.step (.retain keep)).Tracks (DashMap.retain keep m) := by
  intro k
  apply Option.ext
  intro v
  simp only [step, DashMap.lookup_retain_eq_some, h k, Option.map_eq_some_iff]
  constructor
  · intro hv
    obtain ⟨⟨x, hx, rfl⟩, hkeep⟩ := hv
    exact ⟨x, ⟨hx, hkeep⟩, rfl⟩
  · intro hv
    obtain ⟨x, ⟨hx, hkeep⟩, rfl⟩ := hv
    exact ⟨⟨x, hx, rfl⟩, hkeep⟩

/-- A successful removal takes the number of the entry. -/
theorem Tracks.taken {m : DashMap K V} (h : t.Tracks m) (hv : t.Valid) {k : K} {v : V}
    (hk : m.lookup k = some v) (c : C) :
    ∃ n, (c, n) ∈ (t.step (.remove c k)).taken ∧ t.inserted[n]? = some (k, v) := by
  rw [h k] at hk
  obtain ⟨⟨n, v'⟩, hentry, rfl⟩ := Option.map_eq_some_iff.mp hk
  exact ⟨n, by simp [step_remove_some hentry], hv.entry k n v' hentry⟩

/-! ## Counting -/

/-- What was inserted and taken only grows. -/
theorem mono_step (t : Tickets K V C) (e : MapEvent K V C) :
    t.inserted <+: (t.step e).inserted ∧ t.taken <+: (t.step e).taken := by
  cases e with
  | insert k v => exact ⟨List.prefix_append _ _, List.prefix_rfl⟩
  | retain keep => exact ⟨List.prefix_rfl, List.prefix_rfl⟩
  | remove c k =>
    cases hk : t.entries.lookup k with
    | none =>
      rw [step_remove_none hk]
      exact ⟨List.prefix_rfl, List.prefix_rfl⟩
    | some x =>
      rw [step_remove_some hk]
      exact ⟨List.prefix_rfl, List.prefix_append _ _⟩

theorem Valid.length_taken_le (h : t.Valid) : t.taken.length ≤ t.inserted.length := by
  have hsub : t.taken.map Prod.snd ⊆ List.range t.inserted.length := by
    intro n hn
    obtain ⟨⟨c, n⟩, hmem, rfl⟩ := List.mem_map.mp hn
    exact List.mem_range.mpr (h.issued c n hmem)
  simpa using (List.subperm_of_subset h.nodup hsub).length_le

/-- Callers that each took something are at most as many as the insertions. -/
theorem Valid.length_callers_le (h : t.Valid) {callers : List C} (hnodup : callers.Nodup)
    (htaken : ∀ c ∈ callers, ∃ n, (c, n) ∈ t.taken) :
    callers.length ≤ t.inserted.length := by
  have hsub : callers ⊆ t.taken.map Prod.fst := by
    intro c hc
    obtain ⟨n, hn⟩ := htaken c hc
    exact List.mem_map_of_mem (f := Prod.fst) hn
  have hle := (List.subperm_of_subset hnodup hsub).length_le
  rw [List.length_map] at hle
  exact le_trans hle h.length_taken_le

end Tickets
