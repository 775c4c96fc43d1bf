import Sv2P2pool.Runs

/-! # From Declaration to Block

    The sequence a client goes through is `DeclareMiningJob`,
    `SetCustomMiningJob`, `PushSolution`. The second consumes the cached job
    the third looks for: after it, a solution is delivered only if another
    cached declaration, found first, rebuilds the same block.
-/

namespace Sv2P2pool

open ByteCodec Bitcoin Interleave

section

variable {cr : Crates} {w : Wiring}

/-! ## A consumed job stays gone -/

theorem MapsStep.lookup_none {s s' : Engine} {e : Done} (h : MapsStep cr w s e s')
    {r : RequestId} (hnone : s.declaredJobs.lookup r = none)
    (hno : ∀ d pmts, e = ⟨.declare d pmts, .success⟩ → d.requestId ≠ r) :
    s'.declaredJobs.lookup r = none := by
  -- what is cached under `r` afterwards was cached under `r` before
  have hkept : ∀ job, s'.declaredJobs.lookup r = some job →
      s.declaredJobs.lookup r = some job := by
    intro job hjob
    cases h with
    | stored env d pmts t txs hcheck hjobs htokens =>
      rwa [hjobs, DashMap.lookup_insert_eq, if_neg (hno d pmts rfl).symm] at hjob
    | consumed m t result hjobs htokens =>
      rw [hjobs] at hjob
      exact consume_declaredJobs hjob
    | invalidated newTip hjobs htokens => exact hjobs r job hjob
    | kept _ hdecl hcustom hjobs htokens => rwa [hjobs] at hjob
  match hs' : s'.declaredJobs.lookup r with
  | none => rfl
  | some job => exact absurd (hkept job hs') (by simp [hnone])

/-- Without a new declaration under `r`, a run leaves `r` absent. -/
theorem Run.lookup_none {log : List Done} : ∀ {s s' : Engine}, Run cr w s log s' →
    ∀ {r : RequestId}, s.declaredJobs.lookup r = none →
    (∀ d pmts, ⟨.declare d pmts, .success⟩ ∈ log → d.requestId ≠ r) →
    s'.declaredJobs.lookup r = none := by
  induction log with
  | nil =>
    intro s s' heq r hnone _
    subst heq
    exact hnone
  | cons e log ih =>
    intro s s' h r hnone hno
    obtain ⟨s₁, hstep, hrun⟩ := h
    refine ih hrun (MapsStep.lookup_none (CallStep.maps hstep) hnone ?_) ?_
    · intro d pmts heq
      subst heq
      exact hno d pmts List.mem_cons_self
    · exact fun d pmts hmem => hno d pmts (List.mem_cons_of_mem _ hmem)

/-- Handling a custom job removes the job its token resolves to. -/
theorem CallStep.consumed_lookup_none {s s' : Engine} {m : SetCustomMiningJob} {t : JdToken}
    {result : SetCustomMiningJobResult} (h : CallStep cr w s ⟨.setCustom m t, result⟩ s')
    {r : RequestId} (htoken : s.allocatedTokens.lookup t = some r) :
    s'.declaredJobs.lookup r = none := by
  cases CallStep.maps h with
  | consumed _ _ _ hjobs htokens =>
    rw [hjobs, Engine.consume, htoken]
    simp
  | kept _ hdecl hcustom => exact absurd rfl (hcustom m t result)

/-! ## Delivery -/

/-- Two jobs rebuild the same block from the same bodies exactly when they
    cache the same txids and their coinbases decode to the same transaction
    with the extranonce. -/
theorem reconstructBlock_same_iff {job job' : DeclaredJob} {ps : PushSolution}
    {txBodies : List Transaction} (htxids : job.txidList = some (txBodies.map cr.computeTxid)) :
    (∃ b, reconstructBlock cr job ps txBodies = .ok b ∧
        reconstructBlock cr job' ps txBodies = .ok b) ↔
      job'.txidList = job.txidList ∧
      ∃ cb, reconstructCoinbaseWithExtranonce cr job.coinbaseTxPrefix ps.extranonce
          job.coinbaseTxSuffix = .ok cb ∧
        reconstructCoinbaseWithExtranonce cr job'.coinbaseTxPrefix ps.extranonce
          job'.coinbaseTxSuffix = .ok cb := by
  simp only [reconstructBlock_eq_ok, htxids, true_and]
  constructor
  · intro h
    obtain ⟨b, ⟨cb, hcb, rfl⟩, htxids', cb', hcb', hb⟩ := h
    obtain rfl : cb = cb' := (List.cons.inj (Block.mk.inj hb).2).1
    exact ⟨htxids', cb, hcb, hcb'⟩
  · intro h
    obtain ⟨htxids', cb, hcb, hcb'⟩ := h
    exact ⟨_, ⟨cb, hcb, rfl⟩, htxids', cb, hcb', rfl⟩

/-- Some run leads to `s` in which the declaration `d` of the token `t` was
    accepted and cached `job`, the custom job of `t` was then handled in `s₂`
    and succeeded, and no later declaration was accepted under the request id
    of `d`. -/
def CustomizedRun (cr : Crates) (w : Wiring) (d : DeclareMiningJob) (t : JdToken)
    (job : DeclaredJob) (s₂ s : Engine) : Prop :=
  ∃ s₀ s₁ s₃ pmts m log₁ log₂, Reachable cr w s₀ ∧
    CallStep cr w s₀ ⟨.declare d pmts, .success⟩ s₁ ∧ decodeToken d = some t ∧
    s₁.declaredJobs.lookup d.requestId = some job ∧
    Run cr w s₁ log₁ s₂ ∧
    CallStep cr w s₂ ⟨.setCustom m t, .success⟩ s₃ ∧
    Run cr w s₃ log₂ s ∧
    ∀ d' pmts', ⟨.declare d' pmts', .success⟩ ∈ log₂ → d'.requestId ≠ d.requestId

/-- After the custom job, a declared job its token resolved to is gone, and a
    solution is delivered as the block of the declared job exactly when the
    first cached job that matches it is not the consumed one, has a template,
    caches the same txids and has a coinbase that decodes to the same
    transaction. -/
theorem solution_delivered_iff (htdp : w.tdp = true) (hhandles : w.handles = true)
    {d : DeclareMiningJob} {t : JdToken} {job : DeclaredJob} {s₂ s : Engine}
    (hs : CustomizedRun cr w d t job s₂ s)
    {env : Env} (ps : PushSolution) {txBodies : List Transaction}
    (hbodies : ∀ k, env.txBodies cr k = .ok txBodies)
    (htxids : job.txidList = some (txBodies.map cr.computeTxid)) :
    (s₂.allocatedTokens.lookup t = some d.requestId →
      s.declaredJobs.lookup d.requestId = none) ∧
    ((∃ b, reconstructBlock cr job ps txBodies = .ok b ∧
        .submit b ∈ effects env (handlePushSolution cr w ps) s) ↔
      ∃ e, env.solutionJob s ps = some e ∧
        (s₂.allocatedTokens.lookup t = some d.requestId → e.1 ≠ d.requestId) ∧
        e.2.templateId ≠ none ∧ e.2.txidList = job.txidList ∧
        ∃ cb, reconstructCoinbaseWithExtranonce cr job.coinbaseTxPrefix ps.extranonce
            job.coinbaseTxSuffix = .ok cb ∧
          reconstructCoinbaseWithExtranonce cr e.2.coinbaseTxPrefix ps.extranonce
            e.2.coinbaseTxSuffix = .ok cb) := by
  obtain ⟨s₀, s₁, s₃, pmts, m, log₁, log₂, hs₀, hdecl, -, -, hrun₁, hcustom, hrun₂, hno⟩ := hs
  have hgone : s₂.allocatedTokens.lookup t = some d.requestId →
      s.declaredJobs.lookup d.requestId = none :=
    fun htoken => Run.lookup_none hrun₂ (CallStep.consumed_lookup_none hcustom htoken) hno
  have hq : s.tdp.Quiet := Run.quiet hrun₂ (CallStep.quiet hcustom
    (Run.quiet hrun₁ (CallStep.quiet hdecl hs₀.quiet)))
  refine ⟨hgone, ?_⟩
  -- the handler works on the first match alone: either it rebuilds this block or
  -- nothing does
  rw [effects_push cr w env hq, if_pos htdp]
  match hfound : env.solutionJob s ps with
  | none => simp
  | some e =>
    have hother : s₂.allocatedTokens.lookup t = some d.requestId → e.1 ≠ d.requestId := by
      intro htoken heq
      have hcached := (solutionJob_eq_some env hfound).1
      rw [heq, hgone htoken] at hcached
      cases hcached
    simp only [submit_mem_solveEffects, hhandles, hbodies, Except.ok.injEq, true_and,
      Option.some.injEq]
    constructor
    · intro h
      obtain ⟨b, hb, k, _, hk, rfl, hb'⟩ := h
      obtain ⟨htxids', cb, hcb, hcb'⟩ := (reconstructBlock_same_iff htxids).mp ⟨b, hb, hb'⟩
      exact ⟨e, rfl, hother, by simp [hk], htxids', cb, hcb, hcb'⟩
    · intro h
      obtain ⟨_, rfl, -, hk, htxids', cb, hcb, hcb'⟩ := h
      obtain ⟨k, hk⟩ := Option.ne_none_iff_exists'.mp hk
      obtain ⟨b, hb, hb'⟩ := (reconstructBlock_same_iff htxids).mpr ⟨htxids', cb, hcb, hcb'⟩
      exact ⟨b, hb, k, _, hk, rfl, hb'⟩

end

/-- A client declares, other calls follow, and the client sets its custom
    job. -/
def Sample.customized (others : List (Env × Call)) : List (Env × Call) :=
  Sample.announce (U256.fill 1) ++ (Sample.online, Sample.declare 7 3 [9]) :: others ++
    [(Sample.online, .setCustom (Sample.customJob (U256.fill 1) [9]) 3)]

/-- The state in which the custom job is handled. -/
def Sample.beforeCustom (others : List (Env × Call)) : Engine :=
  Engine.new.after Sample.crates Sample.wiring
    (Sample.announce (U256.fill 1) ++ (Sample.online, Sample.declare 7 3 [9]) :: others)

theorem Sample.customized_run (others : List (Env × Call))
    (hok : (run Sample.online.oracle (handleSetCustomMiningJob Sample.crates Sample.wiring
      (Sample.customJob (U256.fill 1) [9]) 3) (Sample.beforeCustom others)).1 = .success) :
    CustomizedRun Sample.crates Sample.wiring (Sample.declaration 7 3 [9]) 3
      (Sample.job (U256.fill 1) 3 [9]) (Sample.beforeCustom others)
      (Engine.new.after Sample.crates Sample.wiring (Sample.customized others)) := by
  have hdecl : CallStep _ _ _ ⟨Sample.declare 7 3 [9], .success⟩ _ :=
    Sample.declare_step (Sample.announce (U256.fill 1)) (by decide +kernel)
  refine ⟨Engine.new.after Sample.crates Sample.wiring (Sample.announce (U256.fill 1)),
    Engine.new.after Sample.crates Sample.wiring
      (Sample.announce (U256.fill 1) ++ [(Sample.online, Sample.declare 7 3 [9])]), _,
    some ⟨[Sample.body.serialize]⟩, Sample.customJob (U256.fill 1) [9], _, [],
    reachable_after _ _ _, hdecl, by decide +kernel,
    by decide +kernel, run_after _ _ others _, ⟨Sample.online, Prod.ext hok.symm rfl⟩, ?_, by simp⟩
  exact after_append _ _ (Sample.announce (U256.fill 1) ++
    (Sample.online, Sample.declare 7 3 [9]) :: others) _ Engine.new

theorem Sample.online_txBodies (k : UInt64) :
    Sample.online.txBodies Sample.crates k = .ok [Sample.body] := by
  have hdec : Sample.crates.consensusDecode Sample.body.serialize = some Sample.body := by
    decide +kernel
  simp [Env.txBodies, Sample.online, decodeTxData, hdec]

/-- A second declaration of the same coinbase, still cached, delivers the
    block. -/
theorem solution_delivered_by_twin :
    let s := Engine.new.after Sample.crates Sample.wiring
      (Sample.customized [(Sample.online, Sample.declare 8 4 [9])])
    ∃ b, reconstructBlock Sample.crates (Sample.job (U256.fill 1) 3 [9])
        (Sample.solution (U256.fill 1)) [Sample.body] = .ok b ∧
      .submit b ∈ effects Sample.online (handlePushSolution Sample.crates Sample.wiring
        (Sample.solution (U256.fill 1))) s := by
  intro s
  refine (solution_delivered_iff rfl rfl (Sample.customized_run _ (by decide +kernel))
    (Sample.solution (U256.fill 1)) Sample.online_txBodies (by decide +kernel)).2.mpr ?_
  exact ⟨⟨8, Sample.job (U256.fill 1) 4 [9]⟩, by decide +kernel, fun _ => by decide, by decide,
    by decide +kernel, Sample.coinbase [9] [1, 2, 3, 4], by decide +kernel, by decide +kernel⟩

/-- Declare, set the custom job, push the solution: every answer is a success,
    the solution matches the declared job, and it is dropped without a
    matching job. -/
theorem solution_dropped_after_custom_job :
    let s := Engine.new.after Sample.crates Sample.wiring (Sample.customized [])
    let pushed := run Sample.online.oracle (handlePushSolution Sample.crates Sample.wiring
      (Sample.solution (U256.fill 1))) s
    CustomizedRun Sample.crates Sample.wiring (Sample.declaration 7 3 [9]) 3
      (Sample.job (U256.fill 1) 3 [9]) (Sample.beforeCustom []) s ∧
    (Sample.job (U256.fill 1) 3 [9]).Matches (Sample.solution (U256.fill 1)) ∧
    extranonceSize Sample.crates Sample.coinbaseTxPrefix =
      .ok (Sample.solution (U256.fill 1)).extranonce.length ∧
    Sample.online.txBodies Sample.crates 1 = .ok [Sample.body] ∧
    effects Sample.online (handlePushSolution Sample.crates Sample.wiring
      (Sample.solution (U256.fill 1))) s = [] ∧
    pushed.2.counters (.pushSolutionDropped .noMatchingJob) = 1 := by
  intro s pushed
  have hfacts : (run Sample.online.oracle (handleSetCustomMiningJob Sample.crates Sample.wiring
        (Sample.customJob (U256.fill 1) [9]) 3) (Sample.beforeCustom [])).1 = .success ∧
      effects Sample.online (handlePushSolution Sample.crates Sample.wiring
        (Sample.solution (U256.fill 1))) s = [] ∧
      pushed.2.counters (.pushSolutionDropped .noMatchingJob) = 1 := by
    decide +kernel
  obtain ⟨hok, heffects, hcounter⟩ := hfacts
  exact ⟨Sample.customized_run _ hok, by decide +kernel, by decide +kernel,
    Sample.online_txBodies 1, heffects, hcounter⟩

end Sv2P2pool
