import Sv2P2pool.Framework.Linearizable

/-! # One Writer, Release and Acquire

    A memory that one thread writes, with release writes, and other threads
    read, with acquire reads. The writes come in one order. A reader need not
    see the newest write, but with a write it sees all that came before it, and
    it never goes back; what it has seen it may hand on to other readers. So
    the number of writes it has seen is all that matters of a reader, and a
    read answers with the value after some writes, no fewer than these.

    A *register* over such a memory takes every update in one write and every
    query in one read. A system that needs several accesses for them implements
    the register when each of its histories of calls, returns and handovers is
    one of the register. The proof rule is a simulation again, in which every
    version of the one memory stands for a version of the other.
-/

namespace ReleaseAcquire

open Linearize

/-! ## The memory -/

/-- The values from the first one on, and the last version that each reader
    has seen. -/
structure Memory (ι V : Type) where
  version : ℕ → V
  last : ℕ
  seen : ι → ℕ
  seen_le : ∀ i, seen i ≤ last

namespace Memory

section

variable {ι V : Type}

def init (v : V) : Memory ι V where
  version _ := v
  last := 0
  seen _ := 0
  seen_le _ := Nat.le_refl 0

variable (m : Memory ι V)

def current : V := m.version m.last

def write (v : V) : Memory ι V where
  version := Function.update m.version (m.last + 1) v
  last := m.last + 1
  seen := m.seen
  seen_le i := Nat.le_succ_of_le (m.seen_le i)

/-- What a thread can hand on: the writer has seen everything. -/
def known : Option ι → ℕ
  | none => m.last
  | some j => m.seen j

theorem known_le (j : Option ι) : m.known j ≤ m.last := by
  cases j with
  | none => exact Nat.le_refl _
  | some j => exact m.seen_le j

section

variable [DecidableEq ι]

/-- The reader has seen version `k`. -/
def advance (i : ι) {k : ℕ} (hk : k ≤ m.last) : Memory ι V where
  version := m.version
  last := m.last
  seen := Function.update m.seen i k
  seen_le j := by
    by_cases hj : j = i
    · subst hj
      rw [Function.update_self]
      exact hk
    · rw [Function.update_of_ne hj]
      exact m.seen_le j

/-- The reader learns what another thread knows. -/
def told (i : ι) (j : Option ι) : Memory ι V :=
  m.advance i (Nat.max_le.mpr ⟨m.seen_le i, m.known_le j⟩)

variable {m}

theorem seen_advance (i j : ι) {k : ℕ} (hk : k ≤ m.last) :
    (m.advance i hk).seen j = if j = i then k else m.seen j :=
  Function.update_apply _ _ _ _

theorem seen_le_told (i : ι) (j : Option ι) (i' : ι) : m.seen i' ≤ (m.told i j).seen i' := by
  rw [told, seen_advance]
  split_ifs with h
  · subst h
    exact Nat.le_max_left _ _
  · exact Nat.le_refl _

end

variable {m}

@[simp] theorem current_write (v : V) : (m.write v).current = v := Function.update_self _ _ _

theorem version_write {k : ℕ} (hk : k ≤ m.last) (v : V) :
    (m.write v).version k = m.version k :=
  Function.update_of_ne (by omega) _ _

theorem version_write_last (v : V) : (m.write v).version (m.last + 1) = v := current_write v

/-! ### What no write takes back -/

/-- When a version satisfies `P`, so do the later ones. -/
def Stable (m : Memory ι V) (P : V → Prop) : Prop :=
  ∀ k l, k ≤ l → l ≤ m.last → P (m.version k) → P (m.version l)

theorem Stable.init (P : V → Prop) (v : V) : (Memory.init v : Memory ι V).Stable P :=
  fun _ _ _ _ h => h

theorem Stable.write {P : V → Prop} (h : m.Stable P) {v : V} (hv : P m.current → P v) :
    (m.write v).Stable P := by
  intro k l hkl hl hk
  rcases Nat.le_add_one_iff.mp hl with hl | rfl
  · rw [version_write (Nat.le_trans hkl hl)] at hk
    rw [version_write hl]
    exact h k l hkl hl hk
  · rw [version_write_last]
    rcases Nat.le_add_one_iff.mp hkl with hold | rfl
    · rw [version_write hold] at hk
      exact hv (h k m.last hold (Nat.le_refl _) hk)
    · rwa [version_write_last] at hk

end

/-! ### Memories that follow one another -/

section follows

variable {ι V W : Type} {R : V → W → Prop} {place : ℕ → ℕ} {m : Memory ι V} {m' : Memory ι W}

/-- Version `k` of the first memory stands for version `place k` of the second,
    and the readers have seen no more of the second than of the first. -/
structure Follows (R : V → W → Prop) (place : ℕ → ℕ) (m : Memory ι V) (m' : Memory ι W) :
    Prop where
  mono : ∀ k l, k ≤ l → l ≤ m.last → place k ≤ place l
  last : place m.last = m'.last
  related : ∀ k, k ≤ m.last → R (m.version k) (m'.version (place k))
  seen : ∀ i, m'.seen i ≤ place (m.seen i)

theorem Follows.init {v : V} {w : W} (h : R v w) :
    Follows R (fun _ => 0) (Memory.init v : Memory ι V) (Memory.init w) where
  mono _ _ _ _ := Nat.le_refl 0
  last := rfl
  related _ _ := h
  seen _ := Nat.le_refl 0

theorem Follows.current (h : Follows R place m m') : R m.current m'.current := by
  have hlast := h.related m.last (Nat.le_refl _)
  rwa [h.last] at hlast

theorem Follows.place_le (h : Follows R place m m') {k : ℕ} (hk : k ≤ m.last) :
    place k ≤ m'.last := by
  rw [← h.last]
  exact h.mono k m.last hk (Nat.le_refl _)

theorem Follows.known_le (h : Follows R place m m') (j : Option ι) :
    m'.known j ≤ place (m.known j) := by
  cases j with
  | none => exact Nat.le_of_eq h.last.symm
  | some j => exact h.seen j

/-- A write to the first memory, while the second keeps its versions. -/
theorem Follows.extend (h : Follows R place m m') {v : V} {m₁ : Memory ι W}
    (hlast : m'.last ≤ m₁.last) (hversion : ∀ k, k ≤ m'.last → m₁.version k = m'.version k)
    (hseen : m₁.seen = m'.seen) (hv : R v m₁.current) :
    Follows R (Function.update place (m.last + 1) m₁.last) (m.write v) m₁ := by
  have hplace : ∀ k, k ≤ m.last → Function.update place (m.last + 1) m₁.last k = place k :=
    fun k hk => Function.update_of_ne (by omega) _ _
  have hnew : Function.update place (m.last + 1) m₁.last (m.last + 1) = m₁.last :=
    Function.update_self _ _ _
  refine ⟨fun k l hkl hl => ?_, hnew, fun k hk => ?_, fun i => ?_⟩
  · rcases Nat.le_add_one_iff.mp hl with hl | rfl
    · rw [hplace k (Nat.le_trans hkl hl), hplace l hl]
      exact h.mono k l hkl hl
    · rw [hnew]
      rcases Nat.le_add_one_iff.mp hkl with hk | rfl
      · rw [hplace k hk]
        exact Nat.le_trans (h.place_le hk) hlast
      · exact Nat.le_of_eq hnew
  · rcases Nat.le_add_one_iff.mp hk with hk | rfl
    · rw [hplace k hk, version_write hk, hversion _ (h.place_le hk)]
      exact h.related k hk
    · rw [hnew, version_write_last]
      exact hv
  · show m₁.seen i ≤ Function.update place (m.last + 1) m₁.last (m.seen i)
    rw [hseen, hplace _ (m.seen_le i)]
    exact h.seen i

/-- A write that changes nothing in the second memory. -/
theorem Follows.stutter (h : Follows R place m m') {v : V} (hv : R v m'.current) :
    Follows R (Function.update place (m.last + 1) m'.last) (m.write v) m' :=
  h.extend (Nat.le_refl _) (fun _ _ => rfl) rfl hv

/-- A write to both memories. -/
theorem Follows.write (h : Follows R place m m') {v : V} {w : W} (hv : R v w) :
    Follows R (Function.update place (m.last + 1) (m'.last + 1)) (m.write v) (m'.write w) :=
  h.extend (Nat.le_succ _) (fun _ hk => version_write hk w) rfl (by rwa [current_write])

variable [DecidableEq ι] {i : ι} {k : ℕ}

/-- The reader of the second memory may stay behind. -/
theorem Follows.advance_left (h : Follows R place m m') (hseen : m.seen i ≤ k)
    (hk : k ≤ m.last) : Follows R place (m.advance i hk) m' := by
  refine ⟨h.mono, h.last, h.related, fun j => ?_⟩
  rw [seen_advance]
  split_ifs with hj
  · subst hj
    exact Nat.le_trans (h.seen j) (h.mono _ _ hseen hk)
  · exact h.seen j

theorem Follows.advance (h : Follows R place m m') {k' : ℕ} (hk : k ≤ m.last)
    (hk' : k' ≤ m'.last) (hplace : k' ≤ place k) :
    Follows R place (m.advance i hk) (m'.advance i hk') := by
  refine ⟨h.mono, h.last, h.related, fun j => ?_⟩
  rw [seen_advance, seen_advance]
  split_ifs with hj
  · exact hplace
  · exact h.seen j

theorem Follows.told (h : Follows R place m m') (i : ι) (j : Option ι) :
    Follows R place (m.told i j) (m'.told i j) := by
  have hmax : max (m.seen i) (m.known j) ≤ m.last :=
    Nat.max_le.mpr ⟨m.seen_le i, m.known_le j⟩
  refine h.advance _ _ (Nat.max_le.mpr ⟨?_, ?_⟩)
  · exact Nat.le_trans (h.seen i) (h.mono _ _ (Nat.le_max_left _ _) hmax)
  · exact Nat.le_trans (h.known_le j) (h.mono _ _ (Nat.le_max_right _ _) hmax)

end follows

end Memory

/-! ## Registers -/

variable {ι V U Q A σ : Type}

structure Register (V U Q A : Type) where
  update : V → U → V
  answer : V → Q → A

/-- What can be seen of an implementation: the calls and returns of the writer
    and of the readers, and what the threads tell each other. -/
inductive Visible (ι U Q A : Type) where
  | update (u : U)
  | updated
  | query (i : ι) (q : Q)
  | answered (i : ι) (a : A)
  | told (i : ι) (j : Option ι)

/-- The memory, and where the writer and each reader are. -/
structure Timeline (ι V U Q A : Type) where
  memory : Memory ι V
  writer : Status U Unit
  reader : ι → Status Q A

def Timeline.init (v : V) : Timeline ι V U Q A := ⟨.init v, .idle, fun _ => .idle⟩

/-- An update is one write, and a query one read. -/
inductive TimelineStep [DecidableEq ι] (reg : Register V U Q A) :
    System (Timeline ι V U Q A) (Visible ι U Q A)
  | update {t : Timeline ι V U Q A} (u : U) (h : t.writer = .idle) :
      TimelineStep reg t (some (.update u)) ⟨t.memory, .pending u, t.reader⟩
  | write {t : Timeline ι V U Q A} (u : U) (h : t.writer = .pending u) :
      TimelineStep reg t none
        ⟨t.memory.write (reg.update t.memory.current u), .done (), t.reader⟩
  | updated {t : Timeline ι V U Q A} (h : t.writer = .done ()) :
      TimelineStep reg t (some .updated) ⟨t.memory, .idle, t.reader⟩
  | query {t : Timeline ι V U Q A} (i : ι) (q : Q) (h : t.reader i = .idle) :
      TimelineStep reg t (some (.query i q))
        ⟨t.memory, t.writer, Function.update t.reader i (.pending q)⟩
  | read {t : Timeline ι V U Q A} (i : ι) (q : Q) (k : ℕ) (h : t.reader i = .pending q)
      (hseen : t.memory.seen i ≤ k) (hk : k ≤ t.memory.last) :
      TimelineStep reg t none ⟨t.memory.advance i hk, t.writer,
        Function.update t.reader i (.done (reg.answer (t.memory.version k) q))⟩
  | answered {t : Timeline ι V U Q A} (i : ι) (a : A) (h : t.reader i = .done a) :
      TimelineStep reg t (some (.answered i a))
        ⟨t.memory, t.writer, Function.update t.reader i .idle⟩
  | told {t : Timeline ι V U Q A} (i : ι) (j : Option ι) :
      TimelineStep reg t (some (.told i j)) ⟨t.memory.told i j, t.writer, t.reader⟩

/-- Every history of the system is a history of the register. -/
def Implements [DecidableEq ι] (step : System σ (Visible ι U Q A)) (s : σ)
    (reg : Register V U Q A) (v : V) : Prop :=
  ∀ labels s', Trace step s labels s' → ∃ labels' t',
    Trace (TimelineStep reg) (Timeline.init v) labels' t' ∧
      labels'.reduceOption = labels.reduceOption

end ReleaseAcquire
