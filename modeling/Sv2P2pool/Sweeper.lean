import Mathlib.Data.List.Chain
import Sv2P2pool.RecentSolutions

/-! # The Sweeper (`start_recent_solutions_sweeper`)

    A sweep keeps an entry whose age is exactly the `ttl`, so an entry can
    wait for almost a whole interval until the next sweep drops it. The
    invariant is that no entry is older than the `ttl` at the latest sweep;
    the bound on the age and on the size of the buffer follow from the pace
    of the sweeps.
-/

namespace Sv2P2pool

open Bitcoin Interleave

/-- `DEFAULT_RECENT_SOLUTIONS_TTL`, in seconds. -/
def defaultRecentSolutionsTtl : Nat := 30

/-- `DEFAULT_RECENT_SOLUTIONS_SWEEP_INTERVAL`, in seconds. -/
def defaultRecentSolutionsSweepInterval : Nat := 15

/-! ## The pace of the sweeps -/

/-- When the sweeps were made. -/
def sweepTimes (ops : List Stamped) : List Nat :=
  (ops.filter fun op => op.op = .sweep).map Stamped.now

/-- From the start to the horizon, each sweep follows the one before within
    the interval. -/
def Paced (interval start : Nat) (ops : List Stamped) (horizon : Nat) : Prop :=
  (start :: sweepTimes ops ++ [horizon]).IsChain fun s s' => s' ≤ s + interval

instance (interval start : Nat) (ops : List Stamped) (horizon : Nat) :
    Decidable (Paced interval start ops horizon) :=
  inferInstanceAs (Decidable (List.IsChain _ _))

/-- The latest sweep, or the start. -/
def lastSweep (start : Nat) (ops : List Stamped) : Nat := (sweepTimes ops).getLastD start

/-- The moment `t` lies between two successive operations, with the clock
    started at `start` and read no later than `horizon`. -/
structure Moment (start : Nat) (before after : List Stamped) (horizon t : Nat) : Prop where
  start_le : start ≤ t
  le_horizon : t ≤ horizon
  before_le : ∀ op ∈ before, op.now ≤ t
  le_after : ∀ op ∈ after, t ≤ op.now

section

variable {ttl interval start horizon t : Nat} {before after ops : List Stamped} {op : Stamped}

theorem lastSweep_snoc_sweep (h : op.op = .sweep) :
    lastSweep start (ops ++ [op]) = op.now := by
  simp [lastSweep, sweepTimes, h]

theorem lastSweep_snoc (h : op.op ≠ .sweep) :
    lastSweep start (ops ++ [op]) = lastSweep start ops := by
  simp [lastSweep, sweepTimes, h]

theorem mem_sweepTimes {s : Nat} : s ∈ sweepTimes ops → ∃ op ∈ ops, op.now = s := by
  intro h
  obtain ⟨op, hop, rfl⟩ := List.mem_map.mp h
  exact ⟨op, List.mem_of_mem_filter hop, rfl⟩

/-- At every moment the latest sweep is at most an interval ago. -/
theorem Paced.le_lastSweep (h : Paced interval start (before ++ after) horizon)
    (ht : Moment start before after horizon t) : t ≤ lastSweep start before + interval := by
  have hchain : (start :: sweepTimes before ++ (sweepTimes after ++ [horizon])).IsChain
      fun s s' => s' ≤ s + interval := by
    simpa [Paced, sweepTimes] using h
  have hlast : lastSweep start before ∈ (start :: sweepTimes before).getLast? := by
    simp [lastSweep, List.getLast?_cons]
  -- the next sweep, or the horizon, is no earlier than the moment
  cases hnext : sweepTimes after with
  | nil =>
    have hle := (List.isChain_append.mp hchain).2.2 _ hlast horizon (by simp [hnext])
    have := ht.le_horizon
    omega
  | cons s rest =>
    have hle := (List.isChain_append.mp hchain).2.2 _ hlast s (by simp [hnext])
    obtain ⟨op, hop, rfl⟩ := mem_sweepTimes (s := s) (by rw [hnext]; exact List.mem_cons_self)
    have := ht.le_after op hop
    omega

/-! ## No entry is old at a sweep -/

/-- No entry had expired at the latest sweep. -/
def SweptAt (ttl sweptAt : Nat) (rs : RecentSolutions) : Prop :=
  rs.ttl = ttl ∧ ∀ share recordedAt block,
    rs.inner.lookup share = some (recordedAt, block) → sweptAt ≤ recordedAt + ttl

theorem SweptAt.step {rs : RecentSolutions} {sweptAt : Nat} (h : SweptAt ttl sweptAt rs)
    (hle : sweptAt ≤ op.now) :
    SweptAt ttl (if op.op = .sweep then op.now else sweptAt) (rs.perform op).2 := by
  obtain ⟨httl, hentries⟩ := h
  obtain ⟨now, op⟩ := op
  cases op with
  | record share block =>
    refine ⟨httl, fun share' recordedAt block' hlookup => ?_⟩
    simp only [RecentSolutions.perform, RecentSolutions.record,
      DashMap.lookup_insert_eq] at hlookup
    split_ifs at hlookup
    · cases hlookup
      exact Nat.le_trans hle (Nat.le_add_right now ttl)
    · exact hentries share' recordedAt block' hlookup
  | take share =>
    simp only [RecentSolutions.perform, RecentSolutions.take]
    cases rs.inner.lookup share with
    | none => exact ⟨httl, hentries⟩
    | some entry =>
      refine ⟨httl, fun share' recordedAt block' hlookup => ?_⟩
      rw [DashMap.lookup_erase_eq] at hlookup
      split_ifs at hlookup
      exact hentries share' recordedAt block' hlookup
  | sweep =>
    refine ⟨httl, fun share' recordedAt block' hlookup => ?_⟩
    simp only [RecentSolutions.perform, RecentSolutions.sweep, RecentSolutions.elapsed,
      DashMap.lookup_retain_eq_some, httl, decide_eq_true_eq] at hlookup
    show now ≤ recordedAt + ttl
    omega

theorem sweptAt_after (ttl : Nat) (hord : ClockOrdered ops)
    (hstart : ∀ op ∈ ops, start ≤ op.now) :
    SweptAt ttl (lastSweep start ops) ((RecentSolutions.new ttl).after ops) ∧
      ∀ t, start ≤ t → (∀ op ∈ ops, op.now ≤ t) → lastSweep start ops ≤ t := by
  induction ops using List.reverseRecOn with
  | nil =>
    refine ⟨⟨rfl, fun share recordedAt block h => ?_⟩, fun t hle _ => hle⟩
    simp [RecentSolutions.after, RecentSolutions.new] at h
  | append_singleton ops op ih =>
    obtain ⟨hord, -, hle⟩ := List.pairwise_append.mp hord
    obtain ⟨hswept, hbound⟩ := ih hord fun op' hop => hstart op' (List.mem_append_left _ hop)
    have hnow := hbound op.now (hstart op (by simp)) fun op' hop => hle op' hop op (by simp)
    have hstep := hswept.step hnow
    have hafter : (RecentSolutions.new ttl).after (ops ++ [op]) =
        (((RecentSolutions.new ttl).after ops).perform op).2 := by
      simp [RecentSolutions.after]
    rw [hafter]
    by_cases hop : op.op = .sweep
    · rw [if_pos hop] at hstep
      rw [lastSweep_snoc_sweep hop]
      exact ⟨hstep, fun t _ ht => ht op (by simp)⟩
    · rw [if_neg hop] at hstep
      rw [lastSweep_snoc hop]
      exact ⟨hstep, fun t hle ht => hbound t hle fun op' hop => ht op' (List.mem_append_left _ hop)⟩

/-! ## The bounds -/

/-- What the buffer holds under a share is the latest record of the share. -/
theorem latestRecord_of_lookup (hord : ClockOrdered ops) {share block : BlockHash}
    {recordedAt : Nat}
    (h : ((RecentSolutions.new ttl).after ops).inner.lookup share = some (recordedAt, block)) :
    ∃ i, LatestRecord ops share recordedAt block i := by
  obtain ⟨-, now', hrefines, -⟩ := (refines_new ttl).run ops (fun op _ => Nat.zero_le op.now) hord
  rcases hrefines.entries share with heq | ⟨hnone, -⟩
  · exact (ledger_after_eq_some ops share recordedAt block).mp (heq.symm.trans h)
  · rw [h] at hnone
    cases hnone

/-- The operation is a record made within the last `d`. -/
def Stamped.recordsWithin (d t : Nat) (op : Stamped) : Bool :=
  match op.op with
  | .record _ _ => t ≤ op.now + d
  | _ => false

/-- A buffer of recent records holds no more entries than records were made:
    each entry is a record, and no two entries are the same. -/
theorem len_le_countP {rs : RecentSolutions} {d : Nat}
    (h : ∀ share recordedAt block, rs.inner.lookup share = some (recordedAt, block) →
      ⟨recordedAt, .record share block⟩ ∈ ops ∧ t ≤ recordedAt + d) :
    rs.inner.len ≤ ops.countP (Stamped.recordsWithin d t) := by
  rw [List.countP_eq_length_filter]
  refine DashMap.len_le_length (fun share entry => ⟨entry.1, .record share entry.2⟩)
    (fun share entry hlookup => ?_) fun share entry share' entry' _ _ heq => ?_
  · obtain ⟨hmem, hage⟩ := h share entry.1 entry.2 hlookup
    exact List.mem_filter.mpr ⟨hmem, by simpa [Stamped.recordsWithin] using hage⟩
  · simp only [Stamped.mk.injEq, SolutionOp.record.injEq] at heq
    exact heq.2.1

/-- Sweeps at most an interval apart bound the buffer: at every moment each
    entry is the latest record of its share, made within the last
    `ttl + interval`, so there are no more entries than records in that time.
    At the default pace this is one and a half times the rate times the `ttl`. -/
theorem sweeper_bounds_buffer (hord : ClockOrdered ops) (hstart : ∀ op ∈ ops, start ≤ op.now)
    (hpace : Paced interval start ops horizon) (hops : ops = before ++ after)
    (ht : Moment start before after horizon t) :
    (∀ share recordedAt block,
      ((RecentSolutions.new ttl).after before).inner.lookup share = some (recordedAt, block) →
        (∃ i, LatestRecord before share recordedAt block i) ∧
          t ≤ recordedAt + (ttl + interval)) ∧
    ((RecentSolutions.new ttl).after before).inner.len ≤
      before.countP (Stamped.recordsWithin (ttl + interval) t) ∧
    ∀ rate, before.countP (Stamped.recordsWithin (ttl + interval) t) ≤ rate * (ttl + interval) →
      ttl = defaultRecentSolutionsTtl → interval = defaultRecentSolutionsSweepInterval →
      2 * ((RecentSolutions.new ttl).after before).inner.len ≤ 3 * (rate * ttl) := by
  subst hops
  have hord := (List.pairwise_append.mp hord).1
  have hlast := hpace.le_lastSweep ht
  have hswept := (sweptAt_after ttl hord fun op hop => hstart op (List.mem_append_left _ hop)).1
  have hage : ∀ share recordedAt block,
      ((RecentSolutions.new ttl).after before).inner.lookup share = some (recordedAt, block) →
        (∃ i, LatestRecord before share recordedAt block i) ∧
          t ≤ recordedAt + (ttl + interval) := by
    intro share recordedAt block hlookup
    have hfresh := hswept.2 share recordedAt block hlookup
    exact ⟨latestRecord_of_lookup hord hlookup, by omega⟩
  have hlen : ((RecentSolutions.new ttl).after before).inner.len ≤
      before.countP (Stamped.recordsWithin (ttl + interval) t) := by
    refine len_le_countP fun share recordedAt block hlookup => ?_
    obtain ⟨⟨i, hi, -⟩, hle⟩ := hage share recordedAt block hlookup
    exact ⟨List.mem_of_getElem? hi, hle⟩
  refine ⟨hage, hlen, fun rate hrate httl hinterval => ?_⟩
  subst httl hinterval
  simp only [defaultRecentSolutionsTtl, defaultRecentSolutionsSweepInterval] at hlen hrate ⊢
  omega

end

/-- A share recorded right after a sweep, at the default pace: the sweep at 60
    is the first to drop it. -/
def Sample.sweptOps : List Stamped :=
  [⟨15, .sweep⟩, ⟨16, .record (U256.fill 1) (U256.fill 2)⟩, ⟨30, .sweep⟩, ⟨45, .sweep⟩]

/-- At 60, before that sweep, the share is still there, and was recorded within
    the last 45 seconds. -/
theorem sweeper_bounds_buffer_sample :
    let rs := (RecentSolutions.new defaultRecentSolutionsTtl).after Sample.sweptOps
    rs.inner.lookup (U256.fill 1) = some (16, U256.fill 2) ∧ rs.inner.len ≤ 1 ∧
    60 ≤ 16 + (defaultRecentSolutionsTtl + defaultRecentSolutionsSweepInterval) := by
  intro rs
  have hlookup : rs.inner.lookup (U256.fill 1) = some (16, U256.fill 2) := by decide +kernel
  have hmoment : Moment 0 Sample.sweptOps [] 60 60 :=
    ⟨by decide, by decide, by simp [Sample.sweptOps], by simp⟩
  have hpace : Paced defaultRecentSolutionsSweepInterval 0 Sample.sweptOps 60 := by decide
  obtain ⟨hage, hlen, -⟩ := @sweeper_bounds_buffer defaultRecentSolutionsTtl _ _ _ _ _ _ _
    (by simp [ClockOrdered, Sample.sweptOps]) (fun op _ => Nat.zero_le op.now) hpace
    (List.append_nil Sample.sweptOps).symm hmoment
  exact ⟨hlookup, hlen, (hage _ _ _ hlookup).2⟩

end Sv2P2pool
