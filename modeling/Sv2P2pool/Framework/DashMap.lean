import Mathlib.Data.List.AList

/-! # Shared Maps

    A concurrent hash map, one operation at a time, is an association list
    with unique keys: `get`, `insert` and `remove` are `AList.lookup`,
    `AList.insert` and `AList.erase`. What the map does not promise is an
    iteration order: an iteration may visit the entries in any order, so it
    is modelled by an arbitrary permutation of them.
-/

/-- A shared map from `K` to `V`. -/
abbrev DashMap (K V : Type) := AList fun _ : K => V

namespace DashMap

variable {K V : Type} [DecidableEq K]

/-- An entry of the map. -/
abbrev Entry (K V : Type) := (_ : K) × V

/-- The number of entries. -/
def len (m : DashMap K V) : Nat := m.entries.length

/-- Keep the entries whose key and value satisfy `p`. -/
def retain (p : K → V → Bool) (m : DashMap K V) : DashMap K V where
  entries := m.entries.filter fun e => p e.1 e.2
  nodupKeys := m.nodupKeys.sublist List.filter_sublist

/-- The orders in which an iteration may visit the entries. -/
def IterOrder (m : DashMap K V) (l : List (Entry K V)) : Prop := l.Perm m.entries

theorem mem_entries_iff (m : DashMap K V) (k : K) (v : V) :
    (⟨k, v⟩ : Entry K V) ∈ m.entries ↔ m.lookup k = some v :=
  (AList.mem_lookup_iff (s := m)).symm

theorem lookup_retain_eq_some (p : K → V → Bool) (m : DashMap K V) (k : K) (v : V) :
    (retain p m).lookup k = some v ↔ m.lookup k = some v ∧ p k v = true := by
  rw [← mem_entries_iff, ← mem_entries_iff]
  simp [retain, List.mem_filter]

omit [DecidableEq K] in
theorem retain_false (m : DashMap K V) : retain (fun _ _ => false) m = ∅ := by
  apply AList.ext
  simp [retain]

theorem lookup_insert_eq (m : DashMap K V) (k k' : K) (v : V) :
    (m.insert k v).lookup k' = if k' = k then some v else m.lookup k' := by
  by_cases h : k' = k
  · subst h
    simp
  · simp [h]

theorem lookup_erase_eq (m : DashMap K V) (k k' : K) :
    (m.erase k).lookup k' = if k' = k then none else m.lookup k' := by
  by_cases h : k' = k
  · subst h
    simp
  · simp [h]

theorem mem_keys_iff (m : DashMap K V) (k : K) : k ∈ m.keys ↔ ∃ v, m.lookup k = some v := by
  rw [← AList.mem_keys, ← AList.lookup_isSome, Option.isSome_iff_exists]

/-- A map whose entries are counted in a list, no two as the same element, has
    no more entries than the list has elements. -/
theorem len_le_length {β : Type} {m : DashMap K V} (f : K → V → β) {l : List β}
    (hmem : ∀ k v, m.lookup k = some v → f k v ∈ l)
    (hinj : ∀ k v k' v', m.lookup k = some v → m.lookup k' = some v' → f k v = f k' v' → k = k') :
    m.len ≤ l.length := by
  have hlookup : ∀ e ∈ m.entries, m.lookup e.1 = some e.2 := fun e he =>
    (mem_entries_iff m e.1 e.2).mp he
  have hentries : m.entries.Nodup := List.Nodup.of_map _ m.nodupKeys
  have hnodup : (m.entries.map fun e => f e.1 e.2).Nodup := by
    apply List.Nodup.map_on _ hentries
    intro e he e' he' heq
    have hkey : e.1 = e'.1 := hinj _ _ _ _ (hlookup e he) (hlookup e' he') heq
    have hvalue := hlookup e he
    rw [hkey, hlookup e' he'] at hvalue
    exact Sigma.ext hkey (heq_of_eq (Option.some.inj hvalue).symm)
  have hsub : (m.entries.map fun e => f e.1 e.2) ⊆ l := by
    intro x hx
    obtain ⟨e, he, rfl⟩ := List.mem_map.mp hx
    exact hmem e.1 e.2 (hlookup e he)
  have hle := (List.subperm_of_subset hnodup hsub).length_le
  rwa [List.length_map] at hle

/-- A map whose values are keys of another one, each used once, is no larger. -/
theorem len_le_of_refers {W : Type} [DecidableEq V] {m : DashMap K V} {m' : DashMap V W}
    (href : ∀ k v, m.lookup k = some v → ∃ x, m'.lookup v = some x)
    (hinj : ∀ k k' v, m.lookup k = some v → m.lookup k' = some v → k = k') :
    m.len ≤ m'.len := by
  have hle : m.len ≤ m'.keys.length := by
    refine len_le_length (fun _ v => v) (fun k v hv => ?_) fun k v k' v' hv hv' heq => ?_
    · exact (mem_keys_iff m' v).mpr (href k v hv)
    · subst heq
      exact hinj k k' v hv hv'
  simpa [len, AList.keys, List.keys] using hle

theorem len_erase (m : DashMap K V) (k : K) :
    len (m.erase k) + (if (m.lookup k).isSome then 1 else 0) = m.len := by
  show (m.entries.kerase k).length + _ = m.entries.length
  by_cases hk : k ∈ m
  · obtain ⟨v, l₁, l₂, -, hentries, herase⟩ := List.exists_of_kerase (AList.mem_keys.mp hk)
    rw [herase, hentries, if_pos (AList.lookup_isSome.mpr hk)]
    simp
    omega
  · have hnone : (m.lookup k).isSome = false := by
      rw [AList.lookup_eq_none.mpr hk]
      rfl
    rw [List.kerase_of_notMem_keys hk, hnone]
    rfl

/-- An insertion under a key that is taken replaces an entry. -/
theorem len_insert (m : DashMap K V) (k : K) (v : V) :
    len (m.insert k v) + (if (m.lookup k).isSome then 1 else 0) = m.len + 1 := by
  have herase := len_erase m k
  have hinsert : len (m.insert k v) = len (m.erase k) + 1 := by
    show (m.insert k v).entries.length = (m.entries.kerase k).length + 1
    rw [AList.entries_insert]
    rfl
  omega

omit [DecidableEq K] in
theorem len_retain (p : K → V → Bool) (m : DashMap K V) :
    (retain p m).len + (m.entries.countP fun e => !p e.1 e.2) = m.len := by
  have hsplit := List.length_eq_countP_add_countP (fun e : Entry K V => p e.1 e.2) (l := m.entries)
  have hlen : (retain p m).len = m.entries.countP fun e => p e.1 e.2 := by
    rw [List.countP_eq_length_filter]
    rfl
  have hnot : (m.entries.countP fun e => !p e.1 e.2) =
      m.entries.countP fun e => ¬ p e.1 e.2 := by simp
  rw [hlen, hnot]
  exact hsplit.symm

theorem lookup_singleton (k : K) (v : V) :
    (AList.singleton k v : DashMap K V).lookup k = some v := by
  exact AList.lookup_insert (a := k) (∅ : DashMap K V)

theorem erase_singleton (k : K) (v : V) : (AList.singleton k v : DashMap K V).erase k = ∅ := by
  apply AList.ext
  exact List.kerase_cons_eq rfl

end DashMap
