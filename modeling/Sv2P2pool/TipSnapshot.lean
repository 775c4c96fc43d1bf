import Sv2P2pool.Framework.ReleaseAcquire
import Sv2P2pool.TipActor

/-! # The Cells of the Tip Snapshot

    The actor's thread publishes the share-chain tip and its height in
    `AtomicTipSnapshot`, from which the reorg watcher and the tip-height
    publisher read on other threads. Each of the two is a value and a flag
    that says whether it was ever stored, in two memory cells that are written
    and read one after the other. Flags and heights are written with `Release`
    and read with `Acquire`, and the tip is behind a mutex, so a thread that
    loads may be late, but sees the writes in their order. It cannot tell the
    cells from a snapshot that is stored and loaded at once, which is how the
    actor is modelled: a store takes effect when it writes its value under a
    raised flag, or else when it raises the flag.
-/

namespace Sv2P2pool

open Bitcoin Linearize ReleaseAcquire

/-! ## The source -/

/-- The two pairs of cells. -/
inductive SnapshotField where
  | tip
  | height
  deriving DecidableEq

@[reducible] def SnapshotField.Value : SnapshotField → Type
  | .tip => BlockHash
  | .height => UInt32

namespace AtomicTipSnapshot

variable (snapshot : AtomicTipSnapshot)

/-- `tip_set`, `height_set`. -/
def isSet : SnapshotField → Bool
  | .tip => snapshot.tipSet
  | .height => snapshot.heightSet

/-- `tip`, `height`. -/
def value : (f : SnapshotField) → f.Value
  | .tip => snapshot.tip
  | .height => snapshot.height

/-- A write to the value. -/
def putValue : (f : SnapshotField) → f.Value → AtomicTipSnapshot
  | .tip, tip => { snapshot with tip := tip }
  | .height, height => { snapshot with height := height }

/-- A write to the flag. -/
def raise : SnapshotField → AtomicTipSnapshot
  | .tip => { snapshot with tipSet := true }
  | .height => { snapshot with heightSet := true }

/-- `load_tip` and `load_height`, at once. -/
def load : (f : SnapshotField) → Option f.Value
  | .tip => snapshot.loadTip
  | .height => snapshot.loadHeight

/-- `store_tip` and `store_height`, at once. -/
def store : (f : SnapshotField) → f.Value → AtomicTipSnapshot
  | .tip, tip => snapshot.storeTip tip
  | .height, height => snapshot.storeHeight height

variable {snapshot} {f g : SnapshotField}

theorem load_eq (f : SnapshotField) :
    snapshot.load f = if snapshot.isSet f then some (snapshot.value f) else none := by
  cases f <;> rfl

@[simp] theorem load_store_self (v : f.Value) : (snapshot.store f v).load f = some v := by
  cases f <;> rfl

theorem load_store_of_ne (h : g ≠ f) (v : f.Value) :
    (snapshot.store f v).load g = snapshot.load g := by
  cases f <;> cases g <;> first | rfl | exact absurd rfl h

@[simp] theorem isSet_putValue (v : f.Value) (g : SnapshotField) :
    (snapshot.putValue f v).isSet g = snapshot.isSet g := by
  cases f <;> cases g <;> rfl

@[simp] theorem value_putValue_self (v : f.Value) : (snapshot.putValue f v).value f = v := by
  cases f <;> rfl

theorem value_putValue_of_ne (h : g ≠ f) (v : f.Value) :
    (snapshot.putValue f v).value g = snapshot.value g := by
  cases f <;> cases g <;> first | rfl | exact absurd rfl h

theorem load_putValue_of_ne (h : g ≠ f) (v : f.Value) :
    (snapshot.putValue f v).load g = snapshot.load g := by
  rw [load_eq, load_eq, isSet_putValue, value_putValue_of_ne h]

@[simp] theorem isSet_raise (f g : SnapshotField) :
    (snapshot.raise f).isSet g = if g = f then true else snapshot.isSet g := by
  cases f <;> cases g <;> rfl

@[simp] theorem value_raise (f g : SnapshotField) :
    (snapshot.raise f).value g = snapshot.value g := by
  cases f <;> cases g <;> rfl

/-- Raising a flag that is up changes nothing. -/
theorem raise_of_set (h : snapshot.isSet f = true) : snapshot.raise f = snapshot := by
  obtain ⟨tipSet, tip, heightSet, height⟩ := snapshot
  cases f with
  | tip =>
    obtain rfl : tipSet = true := h
    rfl
  | height =>
    obtain rfl : heightSet = true := h
    rfl

end AtomicTipSnapshot

/-- What the storing thread does next. -/
inductive StorePc where
  | idle
  /-- `*self.tip.lock() = bytes`, `self.height.store(height, Release)`. -/
  | writeValue (f : SnapshotField) (v : f.Value)
  /-- `self.tip_set.store(true, Release)`. -/
  | writeFlag (f : SnapshotField)
  | returning

/-- What a loading thread does next. -/
inductive LoadPc where
  | idle
  /-- `if !self.tip_set.load(Acquire)`. -/
  | readFlag (f : SnapshotField)
  /-- `*self.tip.lock()`, `self.height.load(Acquire)`. -/
  | readValue (f : SnapshotField)
  | returning (f : SnapshotField) (v : Option f.Value)

/-- The cells, the actor's thread, which alone stores, and any number of
    threads that load. -/
structure SnapshotThreads (ι : Type) where
  memory : Memory ι AtomicTipSnapshot
  storing : StorePc
  loading : ι → LoadPc

def SnapshotThreads.init (ι : Type) : SnapshotThreads ι :=
  ⟨.init .empty, .idle, fun _ => .idle⟩

/-- Every access to a cell is one step, the critical section of the mutex being
    one copy. A read finds the cell as it was after some of the writes, no
    fewer than its thread has seen. -/
inductive SnapshotStep {ι : Type} [DecidableEq ι] :
    System (SnapshotThreads ι)
      (Visible ι (Σ f : SnapshotField, f.Value) SnapshotField (Σ f : SnapshotField, Option f.Value))
  | store {s : SnapshotThreads ι} (f : SnapshotField) (v : f.Value) (h : s.storing = .idle) :
      SnapshotStep s (some (.update ⟨f, v⟩)) ⟨s.memory, .writeValue f v, s.loading⟩
  | writeValue {s : SnapshotThreads ι} (f : SnapshotField) (v : f.Value)
      (h : s.storing = .writeValue f v) :
      SnapshotStep s none
        ⟨s.memory.write (s.memory.current.putValue f v), .writeFlag f, s.loading⟩
  | writeFlag {s : SnapshotThreads ι} (f : SnapshotField) (h : s.storing = .writeFlag f) :
      SnapshotStep s none ⟨s.memory.write (s.memory.current.raise f), .returning, s.loading⟩
  | stored {s : SnapshotThreads ι} (h : s.storing = .returning) :
      SnapshotStep s (some .updated) ⟨s.memory, .idle, s.loading⟩
  | load {s : SnapshotThreads ι} (i : ι) (f : SnapshotField) (h : s.loading i = .idle) :
      SnapshotStep s (some (.query i f))
        ⟨s.memory, s.storing, Function.update s.loading i (.readFlag f)⟩
  | readFlag {s : SnapshotThreads ι} (i : ι) (f : SnapshotField) (k : ℕ)
      (h : s.loading i = .readFlag f) (hseen : s.memory.seen i ≤ k) (hk : k ≤ s.memory.last) :
      SnapshotStep s none ⟨s.memory.advance i hk, s.storing, Function.update s.loading i
        (if (s.memory.version k).isSet f then .readValue f else .returning f none)⟩
  | readValue {s : SnapshotThreads ι} (i : ι) (f : SnapshotField) (k : ℕ)
      (h : s.loading i = .readValue f) (hseen : s.memory.seen i ≤ k) (hk : k ≤ s.memory.last) :
      SnapshotStep s none ⟨s.memory.advance i hk, s.storing, Function.update s.loading i
        (.returning f (some ((s.memory.version k).value f)))⟩
  | loaded {s : SnapshotThreads ι} (i : ι) (f : SnapshotField) (v : Option f.Value)
      (h : s.loading i = .returning f v) :
      SnapshotStep s (some (.answered i ⟨f, v⟩))
        ⟨s.memory, s.storing, Function.update s.loading i .idle⟩
  | told {s : SnapshotThreads ι} (i : ι) (j : Option ι) :
      SnapshotStep s (some (.told i j)) ⟨s.memory.told i j, s.storing, s.loading⟩

/-- The snapshot that is stored and loaded at once. -/
def snapshotRegister : Register AtomicTipSnapshot (Σ f : SnapshotField, f.Value) SnapshotField
    (Σ f : SnapshotField, Option f.Value) where
  update snapshot store := snapshot.store store.1 store.2
  answer snapshot f := ⟨f, snapshot.load f⟩

/-! ## The simulation -/

/-- How far a store has got: a value written under a raised flag is stored. -/
def StorePc.status (snapshot : AtomicTipSnapshot) :
    StorePc → Status (Σ f : SnapshotField, f.Value) Unit
  | .idle => .idle
  | .writeValue f v => .pending ⟨f, v⟩
  | .writeFlag f => if snapshot.isSet f then .done () else .pending ⟨f, snapshot.value f⟩
  | .returning => .done ()

def LoadPc.status : LoadPc → Status SnapshotField (Σ f : SnapshotField, Option f.Value)
  | .idle => .idle
  | .readFlag f | .readValue f => .pending f
  | .returning f v => .done ⟨f, v⟩

/-- The snapshots cannot be told apart by loads. -/
def SameLoads (cells snapshot : AtomicTipSnapshot) : Prop := ∀ f, snapshot.load f = cells.load f

section

variable {cells snapshot : AtomicTipSnapshot} {f : SnapshotField} {v : f.Value}

/-- A value under a flag that is down cannot be loaded. -/
theorem SameLoads.putValue (h : SameLoads cells snapshot) (hunset : cells.isSet f = false) :
    SameLoads (cells.putValue f v) snapshot := by
  intro g
  by_cases hg : g = f
  · subst hg
    rw [h g, AtomicTipSnapshot.load_eq, AtomicTipSnapshot.load_eq,
      AtomicTipSnapshot.isSet_putValue, hunset]
    rfl
  · rw [h g, AtomicTipSnapshot.load_putValue_of_ne hg]

theorem SameLoads.overwrite (h : SameLoads cells snapshot) (hset : cells.isSet f = true) :
    SameLoads (cells.putValue f v) (snapshot.store f v) := by
  intro g
  by_cases hg : g = f
  · subst hg
    rw [AtomicTipSnapshot.load_store_self, AtomicTipSnapshot.load_eq,
      AtomicTipSnapshot.isSet_putValue, hset, AtomicTipSnapshot.value_putValue_self]
    rfl
  · rw [AtomicTipSnapshot.load_store_of_ne hg, h g, AtomicTipSnapshot.load_putValue_of_ne hg]

theorem SameLoads.raise (h : SameLoads cells snapshot) :
    SameLoads (cells.raise f) (snapshot.store f (cells.value f)) := by
  intro g
  by_cases hg : g = f
  · subst hg
    rw [AtomicTipSnapshot.load_store_self, AtomicTipSnapshot.load_eq]
    simp
  · rw [AtomicTipSnapshot.load_store_of_ne hg, h g, AtomicTipSnapshot.load_eq,
      AtomicTipSnapshot.load_eq]
    simp [hg]

end

section

variable {ι : Type} {s s' : SnapshotThreads ι}
  {t : Timeline ι AtomicTipSnapshot (Σ f : SnapshotField, f.Value) SnapshotField
    (Σ f : SnapshotField, Option f.Value)}

/-- The cells and the snapshot. A flag that is up stays up, so a thread that
    found one up reads a value that was stored. -/
structure Registers (s : SnapshotThreads ι)
    (t : Timeline ι AtomicTipSnapshot (Σ f : SnapshotField, f.Value) SnapshotField
      (Σ f : SnapshotField, Option f.Value)) : Prop where
  follows : ∃ place, Memory.Follows SameLoads place s.memory t.memory
  flags : ∀ f, s.memory.Stable fun cells => cells.isSet f = true
  found : ∀ i f, s.loading i = .readValue f →
    (s.memory.version (s.memory.seen i)).isSet f = true
  storing : t.writer = s.storing.status s.memory.current
  loading : ∀ i, t.reader i = (s.loading i).status

/-- A write to a cell leaves the loading threads where they are. -/
theorem Registers.wrote (h : Registers s t) {cells : AtomicTipSnapshot} {pc : StorePc}
    {t' : Timeline ι AtomicTipSnapshot (Σ f : SnapshotField, f.Value) SnapshotField
      (Σ f : SnapshotField, Option f.Value)}
    (hfollows : ∃ place, Memory.Follows SameLoads place (s.memory.write cells) t'.memory)
    (hflags : ∀ f, s.memory.current.isSet f = true → cells.isSet f = true)
    (hwriter : t'.writer = pc.status cells) (hreader : t'.reader = t.reader) :
    Registers ⟨s.memory.write cells, pc, s.loading⟩ t' where
  follows := hfollows
  flags f := (h.flags f).write (hflags f)
  found i f hpc := by
    show ((s.memory.write cells).version (s.memory.seen i)).isSet f = true
    rw [Memory.version_write (s.memory.seen_le i)]
    exact h.found i f hpc
  storing := by
    rw [Memory.current_write]
    exact hwriter
  loading i := by
    rw [hreader]
    exact h.loading i

variable [DecidableEq ι]

/-- A thread that loads has come to a version and moves on. -/
theorem Registers.loads (h : Registers s t) {i : ι} {k : ℕ} {pc : LoadPc}
    (hseen : s.memory.seen i ≤ k) (hk : k ≤ s.memory.last)
    {t' : Timeline ι AtomicTipSnapshot (Σ f : SnapshotField, f.Value) SnapshotField
      (Σ f : SnapshotField, Option f.Value)}
    (hfollows : ∃ place, Memory.Follows SameLoads place (s.memory.advance i hk) t'.memory)
    (hfound : ∀ f, pc = .readValue f → (s.memory.version k).isSet f = true)
    (hwriter : t'.writer = t.writer)
    (hreader : t'.reader = Function.update t.reader i pc.status) :
    Registers ⟨s.memory.advance i hk, s.storing, Function.update s.loading i pc⟩ t' where
  follows := hfollows
  flags := h.flags
  found j f hpc := by
    show (s.memory.version ((s.memory.advance i hk).seen j)).isSet f = true
    rw [Memory.seen_advance]
    by_cases hj : j = i
    · subst hj
      rw [if_pos rfl]
      exact hfound f (by simpa using hpc)
    · rw [if_neg hj]
      exact h.found j f (by simpa [hj] using hpc)
  storing := hwriter.trans h.storing
  loading j := by
    rw [hreader]
    by_cases hj : j = i
    · subst hj
      simp
    · simpa [hj] using h.loading j

/-- A call or a return of a loading thread. -/
theorem Registers.move (h : Registers s t) {i : ι} {pc : LoadPc}
    (hpc : ∀ f, pc ≠ .readValue f) :
    Registers ⟨s.memory, s.storing, Function.update s.loading i pc⟩
      ⟨t.memory, t.writer, Function.update t.reader i pc.status⟩ where
  follows := h.follows
  flags := h.flags
  found j f hj := by
    by_cases hji : j = i
    · subst hji
      exact absurd (by simpa using hj) (hpc f)
    · exact h.found j f (by simpa [hji] using hj)
  storing := h.storing
  loading j := by
    by_cases hji : j = i
    · subst hji
      simp
    · simpa [hji] using h.loading j

theorem Registers.told (h : Registers s t) (i : ι) (j : Option ι) :
    Registers ⟨s.memory.told i j, s.storing, s.loading⟩
      ⟨t.memory.told i j, t.writer, t.reader⟩ where
  follows := by
    obtain ⟨place, hfollows⟩ := h.follows
    exact ⟨place, hfollows.told i j⟩
  flags := h.flags
  found i' f hpc := h.flags f _ _ (Memory.seen_le_told i j i') ((s.memory.told i j).seen_le i')
    (h.found i' f hpc)
  storing := h.storing
  loading := h.loading

/-- A write to a value or a flag is a store of the snapshot, or none. -/
theorem Registers.store (h : Registers s t) {f : SnapshotField} {v : f.Value}
    {cells : AtomicTipSnapshot} {pc : StorePc} (hst : t.writer = .pending ⟨f, v⟩)
    (hflags : ∀ f, s.memory.current.isSet f = true → cells.isSet f = true)
    (hloads : SameLoads s.memory.current t.memory.current →
      SameLoads cells (t.memory.current.store f v))
    (hpc : pc.status cells = .done ()) :
    ∃ labels t', Trace (TimelineStep snapshotRegister) t labels t' ∧ labels.reduceOption = [] ∧
      Registers ⟨s.memory.write cells, pc, s.loading⟩ t' := by
  obtain ⟨place, hfollows⟩ := h.follows
  exact ⟨[none], _, trace_one (.write _ hst), rfl,
    h.wrote ⟨_, hfollows.write (hloads hfollows.current)⟩ hflags hpc.symm rfl⟩

theorem Registers.stutter (h : Registers s t) {cells : AtomicTipSnapshot} {pc : StorePc}
    (hflags : ∀ f, s.memory.current.isSet f = true → cells.isSet f = true)
    (hloads : SameLoads s.memory.current t.memory.current → SameLoads cells t.memory.current)
    (hpc : pc.status cells = t.writer) :
    ∃ labels t', Trace (TimelineStep snapshotRegister) t labels t' ∧ labels.reduceOption = [] ∧
      Registers ⟨s.memory.write cells, pc, s.loading⟩ t' := by
  obtain ⟨place, hfollows⟩ := h.follows
  exact ⟨[], t, rfl, rfl,
    h.wrote ⟨_, hfollows.stutter (hloads hfollows.current)⟩ hflags hpc.symm rfl⟩

/-- A read that ends a load reads the snapshot. -/
theorem Registers.answers (h : Registers s t) {i : ι} {f : SnapshotField} {k : ℕ}
    {v : Option f.Value} (hst : (s.loading i).status = .pending f)
    (hseen : s.memory.seen i ≤ k) (hk : k ≤ s.memory.last)
    (hload : (s.memory.version k).load f = v) :
    ∃ labels t', Trace (TimelineStep snapshotRegister) t labels t' ∧ labels.reduceOption = [] ∧
      Registers ⟨s.memory.advance i hk, s.storing,
        Function.update s.loading i (.returning f v)⟩ t' := by
  obtain ⟨place, hfollows⟩ := h.follows
  have hread : t.memory.seen i ≤ place k :=
    (hfollows.seen i).trans (hfollows.mono _ _ hseen hk)
  have hplace : place k ≤ t.memory.last := hfollows.place_le hk
  have hanswer : snapshotRegister.answer (t.memory.version (place k)) f = ⟨f, v⟩ := by
    rw [← hload, ← hfollows.related k hk f]
    rfl
  refine ⟨[none], _, trace_one (.read i f (place k) ((h.loading i).trans hst) hread hplace), rfl,
    h.loads hseen hk ⟨place, hfollows.advance hk hplace (Nat.le_refl _)⟩ (by simp) rfl ?_⟩
  rw [hanswer]
  rfl

/-- A step at the cells is matched by steps of the snapshot. -/
theorem Registers.step (h : Registers s t)
    {l : Option (Visible ι (Σ f : SnapshotField, f.Value) SnapshotField
      (Σ f : SnapshotField, Option f.Value))}
    (hstep : SnapshotStep s l s') :
    ∃ labels t', Trace (TimelineStep snapshotRegister) t labels t' ∧
      labels.reduceOption = l.toList ∧ Registers s' t' := by
  cases hstep with
  | store f v hpc =>
    have hst : t.writer = .idle := by rw [h.storing, hpc]; rfl
    exact ⟨_, _, trace_one (.update ⟨f, v⟩ hst), rfl, h.follows, h.flags, h.found, rfl, h.loading⟩
  | stored hpc =>
    have hst : t.writer = .done () := by rw [h.storing, hpc]; rfl
    exact ⟨_, _, trace_one (.updated hst), rfl, h.follows, h.flags, h.found, rfl, h.loading⟩
  | writeValue f v hpc =>
    have hst : t.writer = .pending ⟨f, v⟩ := by rw [h.storing, hpc]; rfl
    cases hset : s.memory.current.isSet f with
    | true =>
      refine h.store hst (by simp) (fun hloads => hloads.overwrite hset) ?_
      simp [StorePc.status, hset]
    | false =>
      refine h.stutter (by simp) (fun hloads => hloads.putValue hset) ?_
      simp [StorePc.status, hset, hst]
  | writeFlag f hpc =>
    have hst := h.storing
    rw [hpc] at hst
    have hflags : ∀ g, s.memory.current.isSet g = true →
        (s.memory.current.raise f).isSet g = true := by
      intro g hg
      simp [hg]
    cases hset : s.memory.current.isSet f with
    | true =>
      -- the value was stored when it was written
      refine h.stutter hflags (fun hloads => ?_) (by simpa [StorePc.status, hset] using hst.symm)
      rwa [AtomicTipSnapshot.raise_of_set hset]
    | false =>
      exact h.store (by simpa [StorePc.status, hset] using hst) hflags
        (fun hloads => hloads.raise) rfl
  | load i f hpc =>
    have hst : t.reader i = .idle := by rw [h.loading i, hpc]; rfl
    exact ⟨_, _, trace_one (.query i f hst), rfl, h.move (by simp)⟩
  | loaded i f v hpc =>
    have hst : t.reader i = .done ⟨f, v⟩ := by rw [h.loading i, hpc]; rfl
    exact ⟨_, _, trace_one (.answered i _ hst), rfl, h.move (by simp)⟩
  | told i j => exact ⟨_, _, trace_one (.told i j), rfl, h.told i j⟩
  | readFlag i f k hpc hseen hk =>
    cases hset : (s.memory.version k).isSet f with
    | true =>
      -- the load goes on
      obtain ⟨place, hfollows⟩ := h.follows
      refine ⟨[], t, rfl, rfl, h.loads hseen hk ⟨place, hfollows.advance_left hseen hk⟩ ?_ rfl ?_⟩
      · intro g hg
        cases hg
        exact hset
      · rw [eq_comm, Function.update_eq_self_iff, h.loading i, hpc]
        rfl
    | false =>
      refine h.answers (by rw [hpc]; rfl) hseen hk ?_
      rw [AtomicTipSnapshot.load_eq, hset]
      rfl
  | readValue i f k hpc hseen hk =>
    refine h.answers (by rw [hpc]; rfl) hseen hk ?_
    have hset := h.flags f _ _ hseen hk (h.found i f hpc)
    rw [AtomicTipSnapshot.load_eq, hset]
    rfl

end

/-- The snapshot is atomic: when the actor's thread stores tips and heights and
    any number of threads load them, every history is one of a snapshot that
    starts empty, that each store changes at once, in the order of the stores,
    and of which each load reads one version, no older than any that its thread
    has read before or was told of. -/
theorem tip_snapshot_atomic (ι : Type) [DecidableEq ι] :
    Implements SnapshotStep (SnapshotThreads.init ι) snapshotRegister .empty := by
  intro labels s' htrace
  have hinit : Registers (SnapshotThreads.init ι) (Timeline.init .empty) :=
    ⟨⟨_, .init fun _ => rfl⟩, fun _ => .init _ _, fun _ _ hpc => (by cases hpc), rfl,
      fun _ => rfl⟩
  obtain ⟨labels', t', htrace', hhistory, -⟩ :=
    simulate (fun _ _ _ _ h hstep => h.step hstep) htrace hinit
  exact ⟨labels', t', htrace', hhistory⟩

end Sv2P2pool
