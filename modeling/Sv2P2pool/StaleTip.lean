import Sv2P2pool.Runs

/-! # Custom Jobs on an Old Bitcoin Tip

    The stale check of `handle_set_custom_mining_job` compares the message
    with the tip captured at declare time, not with the latest
    `SetNewPrevHash`. A message on another tip than the captured one is
    refused; a message on the captured tip is left to bitcoind, unless the
    transaction bodies cannot be fetched.
-/

namespace Sv2P2pool

open ByteCodec Bitcoin Interleave

section

variable {cr : Crates} {w : Wiring}

/-- A declaration captures the tip of the latest `SetNewPrevHash`. -/
theorem jobFor_tip {s : Engine} {msg : SetNewPrevHash} (htdp : w.tdp = true)
    (hmsg : s.tdp.lastPrevHash = some msg) (env : Env) (d : DeclareMiningJob) (t : JdToken)
    (txs : List Transaction) :
    (jobFor cr w env s d t txs).tip = ⟨msg.prevHash, msg.nBits, msg.headerTimestamp⟩ := by
  simp [jobFor, declaredSnapshot, Engine.snapshot, htdp, TdpHandle.currentTip, hmsg]

/-- A message on another tip than the captured one is refused as stale. -/
theorem crossCheck_stale {job : DeclaredJob} {m : SetCustomMiningJob}
    (hval : job.validated = true) (hcap : job.tip.wasCaptured = true)
    (hne : m.prevHash ≠ job.tip.prevHash) : crossCheck cr job m = .error .staleChainTip := by
  simp [crossCheck, checkTip, ensure, hval, hcap, hne, bind, Except.bind]

/-- The candidate block stands on the message's previous block. -/
theorem buildCandidateBlock_prevBlockhash {job : DeclaredJob} {m : SetCustomMiningJob}
    {txBodies : List Transaction} {b : Block}
    (h : buildCandidateBlock cr job m txBodies = .ok b) : b.header.prevBlockhash = m.prevHash := by
  obtain ⟨-, cb, -, rfl⟩ := buildCandidateBlock_eq_ok.mp h
  rfl

/-- bitcoind took the candidate block. -/
theorem judge_success {env : Env} {b : Block} (h : env.judge b = .success) :
    env.validate b = some .accepted ∨ env.validate b = some .duplicate := by
  unfold Env.judge at h
  split at h
  · next hv => exact Or.inl hv
  · next hv => exact Or.inr hv
  · simp at h
  · simp at h

/-- Why the proposal check lets a custom job pass. -/
theorem proposalVerdict_success {env : Env} {job : DeclaredJob} {m : SetCustomMiningJob}
    (h : proposalVerdict cr w env job m = .success) :
    w.tdp = false ∨ w.handles = false ∨ job.templateId = none ∨
    ∃ k, job.templateId = some k ∧
      ((∃ e, env.txBodies cr k = .error e) ∨
        ∃ txBodies b, env.txBodies cr k = .ok txBodies ∧
          buildCandidateBlock cr job m txBodies = .ok b ∧
          (env.validate b = some .accepted ∨ env.validate b = some .duplicate)) := by
  unfold proposalVerdict at h
  match htdp : w.tdp, hhandles : w.handles, hk : job.templateId with
  | false, _, _ => exact Or.inl rfl
  | true, false, _ => exact Or.inr (Or.inl rfl)
  | true, true, none => exact Or.inr (Or.inr (Or.inl rfl))
  | true, true, some k =>
    simp only [htdp, hhandles, hk] at h
    refine Or.inr (Or.inr (Or.inr ⟨k, rfl, ?_⟩))
    match hbodies : env.txBodies cr k with
    | .error e => exact Or.inl ⟨e, rfl⟩
    | .ok txBodies =>
      simp only [hbodies] at h
      match hb : buildCandidateBlock cr job m txBodies with
      | .error e => simp [hb] at h
      | .ok b =>
        simp only [hb] at h
        exact Or.inr ⟨txBodies, b, rfl, hb, judge_success h⟩

/-- A job declared on the tip of `msg`, whatever the Template Provider sends
    before its custom job is handled: a message on another previous hash is
    refused as stale, and one on the captured hash succeeds only if the
    proposal check was skipped, the bodies could not be fetched, or bitcoind
    accepted the candidate block on that hash. -/
theorem custom_job_on_captured_tip {s₀ s₁ s : Engine} (hs₀ : Reachable cr w s₀)
    (htdp : w.tdp = true) {msg : SetNewPrevHash} (hmsg : s₀.tdp.lastPrevHash = some msg)
    (hcap : msg.prevHash ≠ U256.allZeros ∨ msg.nBits ≠ 0)
    {d : DeclareMiningJob} {pmts : Option ProvideMissingTransactionsSuccess}
    (hdecl : CallStep cr w s₀ ⟨.declare d pmts, .success⟩ s₁)
    {log : List Done} (hrun : Run cr w s₁ log s)
    {job : DeclaredJob} (hjob : s₁.declaredJobs.lookup d.requestId = some job)
    {t : JdToken} (hcons : (s.consume t).1 = some job) (env : Env) (m : SetCustomMiningJob) :
    let result := (run env.oracle (handleSetCustomMiningJob cr w m t) s).1
    (m.prevHash ≠ msg.prevHash → result = .error .staleChainTip) ∧
    (result = .success → m.prevHash = msg.prevHash ∧
      (w.handles = false ∨ job.templateId = none ∨
        ∃ k, job.templateId = some k ∧
          ((∃ e, env.txBodies cr k = .error e) ∨
            ∃ txBodies b, env.txBodies cr k = .ok txBodies ∧
              buildCandidateBlock cr job m txBodies = .ok b ∧
              b.header.prevBlockhash = msg.prevHash ∧
              (env.validate b = some .accepted ∨ env.validate b = some .duplicate)))) := by
  intro result
  have hq : s.tdp.Quiet := Run.quiet hrun (CallStep.quiet hdecl hs₀.quiet)
  obtain ⟨env₀, t₀, txs, -, hjobs, -⟩ := CallStep.stored hdecl
  obtain rfl : jobFor cr w env₀ s₀ d t₀ txs = job := by
    rw [hjobs, DashMap.lookup_insert_eq, if_pos rfl] at hjob
    exact Option.some.inj hjob
  have htip : (jobFor cr w env₀ s₀ d t₀ txs).tip =
      ⟨msg.prevHash, msg.nBits, msg.headerTimestamp⟩ := jobFor_tip htdp hmsg env₀ d t₀ txs
  have hcaptured : (jobFor cr w env₀ s₀ d t₀ txs).tip.wasCaptured = true := by
    rw [htip]
    simpa [TipMetadata.wasCaptured] using hcap
  refine ⟨fun hne => ?_, fun hok => ?_⟩
  · -- the tip check comes right after the `validated` flag, so no other error hides it
    have hstale : crossCheck cr (jobFor cr w env₀ s₀ d t₀ txs) m = .error .staleChainTip :=
      crossCheck_stale rfl hcaptured (by rw [htip]; exact hne)
    simp only [result]
    rw [run_setCustom_result cr w env hq, hcons, customVerdict, hstale]
  · obtain ⟨declared, hcons', hchecked, hverdict⟩ := run_setCustom_success cr w env hq hok
    obtain rfl := Option.some.inj (hcons.symm.trans hcons')
    have hprev : m.prevHash = msg.prevHash := by
      rw [(hchecked.tip hcaptured).1, htip]
    refine ⟨hprev, ?_⟩
    rcases proposalVerdict_success hverdict with h | h | h | ⟨k, hk, h⟩
    -- the tip was captured through the bridge, so it is wired
    · rw [htdp] at h
      cases h
    · exact Or.inl h
    · exact Or.inr (Or.inl h)
    · refine Or.inr (Or.inr ⟨k, hk, ?_⟩)
      rcases h with h | ⟨txBodies, b, hbodies, hb, hv⟩
      · exact Or.inl h
      · exact Or.inr ⟨txBodies, b, hbodies, hb,
          (buildCandidateBlock_prevBlockhash hb).trans hprev, hv⟩

end

/-- The Template Provider no longer knows the template. -/
def Sample.forgetful : Env :=
  { Sample.online with txData := fun _ => some (.error [1]) }

/-- A declaration on `[1; 32]`, then the Template Provider moves to
    `[2; 32]`. -/
def Sample.movedOn : List (Env × Call) :=
  Sample.announce (U256.fill 1) ++ [(Sample.online, Sample.declare 7 3 [9])] ++
    Sample.announce (U256.fill 2)

/-- After the move, a message on the new tip is refused. -/
theorem custom_job_on_new_tip :
    let s₀ := Engine.new.after Sample.crates Sample.wiring (Sample.announce (U256.fill 1))
    let s := Engine.new.after Sample.crates Sample.wiring Sample.movedOn
    s₀.tdp.lastPrevHash = some ⟨1, U256.fill 1, 0, 9⟩ ∧
    (run Sample.online.oracle (handleSetCustomMiningJob Sample.crates Sample.wiring
      (Sample.customJob (U256.fill 2) [9]) 3) s).1 = .error .staleChainTip := by
  intro s₀ s
  have hdecl : CallStep _ _ s₀ ⟨Sample.declare 7 3 [9], .success⟩ _ :=
    Sample.declare_step (Sample.announce (U256.fill 1)) (by decide +kernel)
  have hspec := custom_job_on_captured_tip (reachable_after _ _ _) rfl rfl
    (Or.inr (by decide)) hdecl (run_after _ _ (Sample.announce (U256.fill 2)) _)
    (show _ = some (Sample.job (U256.fill 1) 3 [9]) by decide +kernel)
    (show (s.consume 3).1 = _ by decide +kernel) Sample.online
    (Sample.customJob (U256.fill 2) [9])
  exact ⟨rfl, hspec.1 (by decide +kernel)⟩

/-- After the move, a message on the old tip succeeds when the Template
    Provider refuses the old template. -/
theorem custom_job_on_old_tip_accepted :
    let s := Engine.new.after Sample.crates Sample.wiring Sample.movedOn
    s.tdp.currentTip = some ⟨U256.fill 2, 9, 0⟩ ∧
    (s.consume 3).1 = some (Sample.job (U256.fill 1) 3 [9]) ∧
    U256.fill 1 ≠ U256.fill 2 ∧
    (run Sample.forgetful.oracle (handleSetCustomMiningJob Sample.crates Sample.wiring
      (Sample.customJob (U256.fill 1) [9]) 3) s).1 = .success := by
  decide +kernel

end Sv2P2pool
