import Sv2P2pool.Invalidation

/-! # The Two Reorg Paths

    `notify_share_chain_reorg` keeps the jobs declared on the branch of the new
    tip. The production watcher does not call it: for every tip change its
    detector broadcasts, the invalidator flushes the whole cache. Both paths
    drop what is on another branch; on a growing branch, where the selective
    path keeps every job, the watcher keeps none.
-/

namespace Sv2P2pool

open ByteCodec Bitcoin Interleave

section

variable {w : Wiring} {env : Env} {s s₁ s₂ : WatcherState} {newTip : BlockHash}

/-- What is cached after a reorg notification. -/
theorem lookup_run_reorg (hw : w.handles = true) (hok : Unbroken env.shareHeader newTip)
    (engine : Engine) (r : RequestId) (job : DeclaredJob) :
    (run env.oracle (notifyShareChainReorg w newTip) engine).2.declaredJobs.lookup r = some job ↔
      engine.declaredJobs.lookup r = some job ∧ DescendsFrom env.shareHeader job newTip := by
  rw [run_reorg, lookup_invalidated, keeps_eq_true_iff, bumped_declaredJobs]
  exact ⟨fun h => ⟨h.1, h.2.2.2⟩, fun h => ⟨h.1, hw, hok, h.2⟩⟩

/-- A detected tip change, broadcast and received, empties the cache. -/
theorem watcher_path_flushes {task task' : Nat} {tip : Option BlockHash}
    {notice : Except Nat BlockHash}
    (hpoll : s.step w (.poll task tip) = some (.changed newTip, s₁))
    (hrecv : s₁.step w (.recv task') = some (.flushed notice, s₂)) :
    s₂.engine.declaredJobs = ∅ ∧ s₁.engine = s.engine := by
  -- the poll only sends; the flush comes with the receive
  have hengine : s₁.engine = s.engine := by
    cases poll_cases (w := w) hpoll with
    | changed => rfl
  cases recv_cases hrecv with
  | flushed t channel rx rx' notice hf hrx hrx' => exact ⟨flushed_declaredJobs w _, hengine⟩

/-- A child of the captured tip descends from it. -/
theorem descendsFrom_child {job : DeclaredJob} {prev : BlockHash}
    (hprev : env.shareHeader newTip = some (.found (some prev)))
    (htip : job.shareChainTip = some prev) : DescendsFrom env.shareHeader job newTip := by
  refine ⟨prev, 1, htip, by decide, ?_⟩
  simp [ancestor, prevShare, hprev]

/-- For a detected change to `newTip` whose walk meets no missing header: the
    watcher drops every job, the notification those that do not descend from
    their tips to `newTip`. The watcher drops no more than the notification
    exactly when no cached job is on the new branch; the jobs of the tip that
    `newTip` extends are on it. -/
theorem watcher_drops_branch_jobs {task task' : Nat} {tip : Option BlockHash}
    {notice : Except Nat BlockHash}
    (hpoll : s.step w (.poll task tip) = some (.changed newTip, s₁))
    (hrecv : s₁.step w (.recv task') = some (.flushed notice, s₂))
    (hw : w.handles = true) (hok : Unbroken env.shareHeader newTip) :
    let notified := (run env.oracle (notifyShareChainReorg w newTip) s.engine).2
    s₂.engine.declaredJobs = ∅ ∧
    (∀ r job, notified.declaredJobs.lookup r = some job ↔
      s.engine.declaredJobs.lookup r = some job ∧ DescendsFrom env.shareHeader job newTip) ∧
    ((∀ r job, notified.declaredJobs.lookup r = some job →
        s₂.engine.declaredJobs.lookup r = some job) ↔
      ∀ r job, s.engine.declaredJobs.lookup r = some job →
        ¬ DescendsFrom env.shareHeader job newTip) ∧
    ∀ r job prev, s.engine.declaredJobs.lookup r = some job → job.shareChainTip = some prev →
      env.shareHeader newTip = some (.found (some prev)) →
        notified.declaredJobs.lookup r = some job ∧ s₂.engine.declaredJobs.lookup r = none := by
  intro notified
  have hempty := (watcher_path_flushes hpoll hrecv).1
  have hkept := lookup_run_reorg hw hok s.engine
  refine ⟨hempty, hkept, ?_, ?_⟩
  · constructor
    · intro hall r job hjob hdesc
      have hlookup := hall r job ((hkept r job).mpr ⟨hjob, hdesc⟩)
      rw [hempty] at hlookup
      simp at hlookup
    · intro hnone r job hjob
      obtain ⟨hold, hdesc⟩ := (hkept r job).mp hjob
      exact absurd hdesc (hnone r job hold)
  · intro r job prev hjob htip hprev
    refine ⟨(hkept r job).mpr ⟨hjob, descendsFrom_child hprev htip⟩, ?_⟩
    rw [hempty]
    rfl

end

/-! ## A share chain that grows by one -/

/-- The watcher has seen the share `[1; 32]` and a job is declared on it. -/
def Sample.watched : WatcherState :=
  { WatcherState.startReorgWatcher .new with
    engine := { Engine.new with
      declaredJobs := (∅ : DashMap RequestId DeclaredJob).insert 7 (jobOnShare (U256.fill 1)) }
    runtime := (WatcherState.startReorgWatcher .new).runtime.put 1
      (.detector 0 (some (U256.fill 1))) }

/-- The detector sees the share `[2; 32]`, and the invalidator is told. -/
def Sample.extended : Option (WatcherOut × WatcherState) :=
  Sample.watched.step Sample.wiring (.poll 1 (some (U256.fill 2)))

def Sample.extendedFlushed : Option (WatcherOut × WatcherState) :=
  Sample.extended.bind fun p => p.2.step Sample.wiring (.recv 0)

/-- `[2; 32]` extends `[1; 32]`. -/
def Sample.extendedEnv : Env := { Env.offline with shareHeader := threeShares }

/-- The job declared on `[1; 32]` is on the new branch, and the watcher drops
    it. -/
theorem watcher_drops_extended_job :
    ∃ s₁ s₂, Sample.extended = some (.changed (U256.fill 2), s₁) ∧
      Sample.extendedFlushed = some (.flushed (.ok (U256.fill 2)), s₂) ∧
      (run Sample.extendedEnv.oracle (notifyShareChainReorg Sample.wiring (U256.fill 2))
        Sample.watched.engine).2.declaredJobs.lookup 7 = some (jobOnShare (U256.fill 1)) ∧
      s₂.engine.declaredJobs.lookup 7 = none := by
  refine ⟨_, _, rfl, rfl, ?_⟩
  have hok : Unbroken Sample.extendedEnv.shareHeader (U256.fill 2) :=
    (unbroken_iff Sample.extendedEnv _ Engine.new).mpr (by decide +kernel)
  have hdrops := @watcher_drops_branch_jobs Sample.wiring Sample.extendedEnv Sample.watched _ _
    (U256.fill 2) 1 0 (some (U256.fill 2)) (.ok (U256.fill 2)) rfl rfl rfl hok
  exact hdrops.2.2.2 7 (jobOnShare (U256.fill 1)) (U256.fill 1) rfl rfl (by decide +kernel)

/-- A run in which the share chain only grows: the notification keeps the job,
    the watcher does not. -/
theorem watcher_drops_kept_job :
    (∃ log, WatcherRun Sample.wiring .new log Sample.watched) ∧
    Unbroken Sample.extendedEnv.shareHeader (U256.fill 2) ∧
    ∃ s₁ s₂, Sample.extended = some (.changed (U256.fill 2), s₁) ∧
      Sample.extendedFlushed = some (.flushed (.ok (U256.fill 2)), s₂) ∧
      ∃ job, (run Sample.extendedEnv.oracle (notifyShareChainReorg Sample.wiring (U256.fill 2))
        Sample.watched.engine).2.declaredJobs.lookup 7 = some job ∧
        s₂.engine.declaredJobs.lookup 7 = none := by
  refine ⟨?_, (unbroken_iff Sample.extendedEnv _ Engine.new).mpr (by decide +kernel), ?_⟩
  · refine ⟨[(.call .start, .silent), (.poll 1 (some (U256.fill 1)), .silent),
      (.declared 7 (jobOnShare (U256.fill 1)), .silent)], ?_⟩
    exact ⟨_, rfl, _, rfl, _, rfl, rfl⟩
  · exact ⟨_, _, rfl, rfl, jobOnShare (U256.fill 1), by decide +kernel, by decide +kernel⟩

end Sv2P2pool
