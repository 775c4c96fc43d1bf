import Sv2P2pool.Frames

/-! # Complete Calls

    What a complete call of `handle_declare_mining_job`,
    `handle_set_custom_mining_job`, `handle_allocate_mining_job_token`, the
    evictor and `notify_share_chain_reorg` returns and does to the shared
    state, with the answers of one environment.
-/

namespace Sv2P2pool

open ByteCodec Bitcoin Interleave

section

variable (cr : Crates) (w : Wiring) (env : Env)

/-! ## `handle_declare_mining_job` -/

/-- The counter a declaration's result is tallied on. -/
def declareCounter : DeclareMiningJobResult → Counter
  | .success => .declareMiningJobAccepted
  | .error _ => .declareMiningJobRejected
  | .missingTransactions _ => .declareMiningJobMissingTxns

theorem run_declareResult (result : DeclareMiningJobResult) (s : Engine) :
    run env.oracle (declareResult w result) s =
      (result, s.bumped w (declareCounter result) 1) := by
  cases result <;> simp [declareResult, run_bind, declareCounter]

/-- The tip and template `captureTip` reads. -/
def Engine.snapshot (s : Engine) : TipMetadata × Option UInt64 :=
  if w.tdp then (s.tdp.currentTip.getD TipMetadata.default, s.tdp.currentTemplateId)
  else (TipMetadata.default, none)

/-- The share-chain tip `captureShareChainTip` reads. -/
def Env.shareChainTip : Option BlockHash := if w.handles then env.chainTip.join else none

theorem run_captureTip (s : Engine) :
    run env.oracle (captureTip w) s = (s.snapshot w, s) := by
  unfold captureTip Engine.snapshot
  split_ifs <;> simp [Env.oracle, Env.step]

theorem run_captureShareChainTip (s : Engine) :
    run env.oracle (captureShareChainTip w) s = (env.shareChainTip w, s) := by
  unfold captureShareChainTip Env.shareChainTip
  split_ifs <;> simp [Env.oracle, Env.step]

/-- The job an accepted declaration caches. -/
def jobFor (s : Engine) (d : DeclareMiningJob) (t : JdToken) (txs : List Transaction) :
    DeclaredJob :=
  declaredSnapshot cr d t txs (s.snapshot w).1 (s.snapshot w).2 (env.shareChainTip w)

/-- Cache a job and bind its token to it. -/
def Engine.store (s : Engine) (r : RequestId) (t : JdToken) (job : DeclaredJob) : Engine :=
  { s with declaredJobs := s.declaredJobs.insert r job
           allocatedTokens := s.allocatedTokens.insert t r }

theorem run_declare_error {d : DeclareMiningJob} {pmts : Option ProvideMissingTransactionsSuccess}
    {result : DeclareMiningJobResult} (h : checkDeclaration cr d pmts = .error result)
    (s : Engine) :
    run env.oracle (handleDeclareMiningJob cr w d pmts) s =
      (result, s.bumped w (declareCounter result) 1) := by
  simp only [handleDeclareMiningJob, h, run_declareResult]

theorem run_declare_ok {d : DeclareMiningJob} {pmts : Option ProvideMissingTransactionsSuccess}
    {t : JdToken} {txs : List Transaction} (h : checkDeclaration cr d pmts = .ok (t, txs))
    (s : Engine) :
    run env.oracle (handleDeclareMiningJob cr w d pmts) s =
      (.success, (s.store d.requestId t (jobFor cr w env s d t txs)).bumped w
        .declareMiningJobAccepted 1) := by
  simp only [handleDeclareMiningJob, h, run_bind, run_captureTip, run_captureShareChainTip,
    jobsInsert, tokensInsert, run_op, run_ret, run_declareResult]
  rw [run_captureTip, run_captureShareChainTip]
  rfl

/-- A refused declaration is not a success. -/
theorem checkDeclaration_ne_success {d : DeclareMiningJob}
    {pmts : Option ProvideMissingTransactionsSuccess} :
    checkDeclaration cr d pmts ≠ .error .success := by
  unfold checkDeclaration
  split
  · simp
  · split
    · simp
    · split_ifs <;> simp

/-- What an accepted declaration was accepted for. -/
theorem run_declare_success {d : DeclareMiningJob}
    {pmts : Option ProvideMissingTransactionsSuccess} {s : Engine}
    (h : (run env.oracle (handleDeclareMiningJob cr w d pmts) s).1 = .success) :
    ∃ t txs, checkDeclaration cr d pmts = .ok (t, txs) := by
  match hc : checkDeclaration cr d pmts with
  | .ok (t, txs) => exact ⟨t, txs, rfl⟩
  | .error result =>
    rw [run_declare_error cr w env hc] at h
    have h : result = .success := h
    rw [h] at hc
    exact absurd hc (checkDeclaration_ne_success cr)

/-- The counters of `handle_declare_mining_job`. -/
def Counter.OfDeclare : Counter → Prop
  | .declareMiningJobAccepted | .declareMiningJobRejected | .declareMiningJobMissingTxns => True
  | _ => False

/-- What a declaration may do. -/
def Op.ofDeclare : Op → Prop
  | .jobsInsert _ _ | .tokensInsert _ _ => True
  | .bump x _ => x.OfDeclare
  | o => o.isRead

theorem only_declare (d : DeclareMiningJob) (pmts : Option ProvideMissingTransactionsSuccess) :
    (handleDeclareMiningJob cr w d pmts).Only Op.ofDeclare := by
  have hresult : ∀ result, (declareResult w result).Only Op.ofDeclare := by
    intro result
    cases result <;> exact (only_bump w (by trivial)).bind fun _ => trivial
  have hread : ∀ {α : Type} {p : Handler α}, p.Only Op.isRead → p.Only Op.ofDeclare := by
    refine fun hp => Prog.Only.mono (fun o ho => ?_) hp
    cases o <;> first | exact ho.elim | trivial
  unfold handleDeclareMiningJob
  cases checkDeclaration cr d pmts with
  | error result => exact hresult result
  | ok accepted =>
    refine (hread (reads_captureTip w)).bind fun tip => ?_
    refine (hread (reads_captureShareChainTip w)).bind fun shareTip => ?_
    exact ⟨trivial, fun _ => ⟨trivial, fun _ => hresult .success⟩⟩

theorem writesOnly_declare (d : DeclareMiningJob)
    (pmts : Option ProvideMissingTransactionsSuccess) :
    WritesOnly [.declaredJobs, .allocatedTokens, .counters]
      (handleDeclareMiningJob cr w d pmts) := by
  refine Prog.Only.mono (fun o ho => ?_) (only_declare cr w d pmts)
  cases o <;> first | exact ho.elim | simp [Op.writes]

/-! ## `handle_set_custom_mining_job` -/

/-- What a message agrees with the declared job on when it passes the
    cross-checks. -/
structure CrossChecked (declared : DeclaredJob) (m : SetCustomMiningJob) : Prop where
  validated : declared.validated = true
  tip : declared.tip.wasCaptured = true →
    m.prevHash = declared.tip.prevHash ∧ m.nbits = declared.tip.nbits
  version : m.version = declared.version
  coinbase : ∃ tx input0 rest txidList,
    reconstructCoinbase cr declared.coinbaseTxPrefix declared.coinbaseTxSuffix = .ok tx ∧
    tx.version = m.coinbaseTxVersion.toInt32 ∧ tx.input = input0 :: rest ∧
    m.coinbasePrefix.isPrefixOf input0.scriptSig = true ∧
    input0.sequence = m.coinbaseTxInputNSequence ∧
    (vec txOutCodec).encode tx.output = m.coinbaseTxOutputs ∧
    tx.lockTime = m.coinbaseTxLocktime ∧ declared.txidList = some txidList ∧
    merklePath cr (cr.computeTxid tx) txidList = m.merklePath

theorem ensure_eq_ok {cond : Prop} [Decidable cond] {code : SetCustomErrorCode} {u : Unit} :
    ensure cond code = .ok u ↔ cond := by
  unfold ensure
  split_ifs with h <;> simp [h]

theorem except_bind_eq_ok {ε α β : Type} {x : Except ε α} {f : α → Except ε β} {b : β} :
    (x >>= f) = .ok b ↔ ∃ a, x = .ok a ∧ f a = .ok b := by
  cases x with
  | error e => simp [bind, Except.bind]
  | ok a => simp [bind, Except.bind]

theorem checkTip_eq_ok {declared : DeclaredJob} {m : SetCustomMiningJob} {u : Unit} :
    checkTip declared m = .ok u ↔ (declared.tip.wasCaptured = true →
      m.prevHash = declared.tip.prevHash ∧ m.nbits = declared.tip.nbits) := by
  unfold checkTip
  split_ifs with h
  · simp [except_bind_eq_ok, ensure_eq_ok, h]
  · simp [h]

theorem checkCoinbase_eq_ok {declared : DeclaredJob} {m : SetCustomMiningJob}
    {tx : Transaction} (h : checkCoinbase cr declared m = .ok tx) :
    ∃ input0 rest,
      reconstructCoinbase cr declared.coinbaseTxPrefix declared.coinbaseTxSuffix = .ok tx ∧
      tx.version = m.coinbaseTxVersion.toInt32 ∧ tx.input = input0 :: rest ∧
      m.coinbasePrefix.isPrefixOf input0.scriptSig = true ∧
      input0.sequence = m.coinbaseTxInputNSequence ∧
      (vec txOutCodec).encode tx.output = m.coinbaseTxOutputs ∧
      tx.lockTime = m.coinbaseTxLocktime := by
  unfold checkCoinbase at h
  match hcb : reconstructCoinbase cr declared.coinbaseTxPrefix declared.coinbaseTxSuffix with
  | .error e => simp [hcb] at h
  | .ok tx' =>
    simp only [hcb, except_bind_eq_ok, ensure_eq_ok, exists_const] at h
    obtain ⟨hversion, h⟩ := h
    match hin : tx'.input with
    | [] => simp [hin] at h
    | input0 :: rest =>
      simp only [hin, except_bind_eq_ok, checkCoinbaseFields, ensure_eq_ok, Except.ok.injEq] at h
      obtain ⟨-, ⟨-, hprefix, -, hseq, -, hout, hlock⟩, rfl⟩ := h
      exact ⟨input0, rest, rfl, hversion, hin, hprefix, hseq, hout, hlock⟩

theorem crossCheck_ok {declared : DeclaredJob} {m : SetCustomMiningJob}
    (h : crossCheck cr declared m = .ok ()) : CrossChecked cr declared m := by
  simp only [crossCheck, except_bind_eq_ok, ensure_eq_ok, checkTip_eq_ok] at h
  obtain ⟨-, hvalidated, -, htip, -, hversion, tx, hcb, hpath⟩ := h
  obtain ⟨input0, rest, hrec, hv, hin, hprefix, hseq, hout, hlock⟩ := checkCoinbase_eq_ok cr hcb
  match htxids : declared.txidList with
  | none => simp [checkMerklePath, htxids] at hpath
  | some txidList =>
    simp only [checkMerklePath, htxids, ensure_eq_ok] at hpath
    exact ⟨hvalidated, htip, hversion, tx, input0, rest, txidList, hrec, hv, hin, hprefix, hseq,
      hout, hlock, htxids, hpath⟩

/-- What `consumeDeclared` returns and leaves. -/
def Engine.consume (s : Engine) (t : JdToken) : Option DeclaredJob × Engine :=
  match s.allocatedTokens.lookup t with
  | none => (none, s)
  | some r =>
    (s.declaredJobs.lookup r,
      { s with allocatedTokens := s.allocatedTokens.erase t
               declaredJobs := s.declaredJobs.erase r })

theorem run_consumeDeclared (t : JdToken) (s : Engine) :
    run env.oracle (consumeDeclared t) s = s.consume t := by
  unfold Engine.consume
  cases h : s.allocatedTokens.lookup t <;>
    simp [consumeDeclared, Env.oracle, Env.step, h]

/-- What a consumed token resolved to. -/
theorem consume_eq_some {s : Engine} {t : JdToken} {job : DeclaredJob}
    (h : (s.consume t).1 = some job) :
    ∃ r, s.allocatedTokens.lookup t = some r ∧ s.declaredJobs.lookup r = some job := by
  unfold Engine.consume at h
  match ht : s.allocatedTokens.lookup t with
  | none => simp [ht] at h
  | some r =>
    simp only [ht] at h
    exact ⟨r, rfl, h⟩

/-- The answer of `proposeCandidate`. -/
def Env.judge (candidate : Block) : SetCustomMiningJobResult :=
  match env.validate candidate with
  | some .accepted => .success
  | some .duplicate => .success
  | some (.rejected _) => .error .invalidCoinbaseTx
  | none => .error .invalidCoinbaseTx

theorem run_proposeCandidate (candidate : Block) (s : Engine) :
    (run env.oracle (proposeCandidate w candidate) s).1 = env.judge candidate := by
  unfold Env.judge
  match h : env.validate candidate with
  | some .accepted => simp [proposeCandidate, Env.oracle, Env.step, h]
  | some .duplicate => simp [proposeCandidate, Env.oracle, Env.step, h]
  | some (.rejected reason) => simp [proposeCandidate, Env.oracle, Env.step, h, run_bind]
  | none => simp [proposeCandidate, Env.oracle, Env.step, h, run_bind]

theorem writesOnly_proposeCandidate (candidate : Block) :
    WritesOnly [.counters] (proposeCandidate w candidate) := by
  refine ⟨by simp [Op.writes], fun verdict => ?_⟩
  cases verdict with
  | none => exact (writesOnly_bump w _ _).bind fun _ => trivial
  | some outcome =>
    cases outcome with
    | accepted => trivial
    | duplicate => trivial
    | rejected reason => exact (writesOnly_bump w _ _).bind fun _ => trivial

/-- The answer of `proposalCheck` when nothing else is in flight. -/
def proposalVerdict (declared : DeclaredJob) (m : SetCustomMiningJob) :
    SetCustomMiningJobResult :=
  match w.tdp, w.handles, declared.templateId with
  | true, true, some k =>
    match env.txBodies cr k with
    | .error _ => .success
    | .ok txBodies =>
      match buildCandidateBlock cr declared m txBodies with
      | .error _ => .error .invalidCoinbaseTx
      | .ok candidate => env.judge candidate
  | _, _, _ => .success

theorem run_proposalCheck {s : Engine} (hq : s.tdp.Quiet) (declared : DeclaredJob)
    (m : SetCustomMiningJob) :
    (run env.oracle (proposalCheck cr w declared m) s).1 = proposalVerdict cr w env declared m ∧
      (run env.oracle (proposalCheck cr w declared m) s).2.tdp.Quiet := by
  unfold proposalCheck proposalVerdict
  -- without bridge, handles or template the check is skipped and counted
  cases w.tdp with
  | false => simpa [run_bind] using hq
  | true =>
    cases w.handles with
    | false => simpa [run_bind] using hq
    | true =>
      cases declared.templateId with
      | none => simpa [run_bind] using hq
      | some k =>
        simp only [run_bind, run_requestTxBodies cr env hq k]
        cases env.txBodies cr k with
        -- a failed fetch is accepted on the structural checks alone
        | error e => simpa [run_bind] using requested_quiet hq
        | ok txBodies =>
          simp only
          cases buildCandidateBlock cr declared m txBodies with
          | error e => exact ⟨rfl, requested_quiet hq⟩
          | ok candidate =>
            refine ⟨run_proposeCandidate w env candidate _, ?_⟩
            rw [run_tdp env (writesOnly_proposeCandidate w candidate) (by simp)]
            exact requested_quiet hq

/-- The counters of `handle_set_custom_mining_job`. -/
def Counter.OfCustom : Counter → Prop
  | .setCustomMiningJobAccepted | .setCustomMiningJobRejected => True
  | .setCustomMiningJobValidationSkipped | .setCustomMiningJobProposalRejected _ => True
  | _ => False

/-- The operations on a job that was taken from the cache. -/
def Op.ofCustom : Op → Prop
  | .bump x _ => x.OfCustom
  | .validateBlockProposal _ => True
  | o => o.isRequest

theorem ofCustom_requestTxBodies (k : UInt64) : (requestTxBodies cr k).Only Op.ofCustom := by
  refine Prog.Only.mono (fun o ho => ?_) (only_requestTxBodies cr k)
  cases o <;> first | exact ho.elim | trivial

theorem ofCustom_proposeCandidate (candidate : Block) :
    (proposeCandidate w candidate).Only Op.ofCustom := by
  refine ⟨trivial, fun verdict => ?_⟩
  rcases verdict with _ | _ | _ | reason
  · exact (only_bump w (by trivial)).bind fun _ => trivial
  · trivial
  · trivial
  · exact (only_bump w (by trivial)).bind fun _ => trivial

theorem ofCustom_proposalCheck (declared : DeclaredJob) (m : SetCustomMiningJob) :
    (proposalCheck cr w declared m).Only Op.ofCustom := by
  have hskip : (bump w .setCustomMiningJobValidationSkipped 1 >>= fun _ =>
      (pure .success : Handler SetCustomMiningJobResult)).Only Op.ofCustom :=
    (only_bump w (by trivial)).bind fun _ => trivial
  unfold proposalCheck
  match w.tdp, w.handles, declared.templateId with
  | true, true, some k =>
    refine (ofCustom_requestTxBodies cr k).bind fun fetched => ?_
    match fetched with
    | .error e => exact hskip
    | .ok txBodies =>
      simp only
      match buildCandidateBlock cr declared m txBodies with
      | .error e => trivial
      | .ok candidate => exact ofCustom_proposeCandidate w candidate
  | true, true, none => exact hskip
  | true, false, _ => exact hskip
  | false, _, _ => exact hskip

theorem run_setCustomResult (result : SetCustomMiningJobResult) (s : Engine) :
    (run env.oracle (setCustomResult w result) s).1 = result := by
  cases result <;> simp [setCustomResult, run_bind]

theorem writesOnly_setCustomResult (result : SetCustomMiningJobResult) :
    WritesOnly [.counters] (setCustomResult w result) := by
  cases result <;>
    exact (writesOnly_bump w _ _).bind fun _ => trivial

/-- The answer of `validateCustom`. -/
def customVerdict (m : SetCustomMiningJob) : Option DeclaredJob → SetCustomMiningJobResult
  | none => .error .invalidMiningJobToken
  | some declared =>
    match crossCheck cr declared m with
    | .error code => .error code
    | .ok () => proposalVerdict cr w env declared m

theorem run_validateCustom {s : Engine} (hq : s.tdp.Quiet) (m : SetCustomMiningJob)
    (consumed : Option DeclaredJob) :
    (run env.oracle (validateCustom cr w m consumed) s).1 = customVerdict cr w env m consumed ∧
      (run env.oracle (validateCustom cr w m consumed) s).2.tdp.Quiet := by
  have hresult : ∀ result s', s'.tdp.Quiet →
      (run env.oracle (setCustomResult w result) s').2.tdp.Quiet := by
    intro result s' h
    cases result <;> simpa [setCustomResult, run_bind] using h
  unfold validateCustom customVerdict
  cases consumed with
  | none => exact ⟨run_setCustomResult w env _ s, hresult _ _ hq⟩
  | some declared =>
    simp only
    cases crossCheck cr declared m with
    | error code => exact ⟨run_setCustomResult w env _ s, hresult _ _ hq⟩
    | ok checked =>
      obtain ⟨hres, hq'⟩ := run_proposalCheck cr w env hq declared m
      simp only [run_bind, run_setCustomResult, hres, true_and]
      exact hresult _ _ hq'

theorem ofCustom_validateCustom (m : SetCustomMiningJob) (consumed : Option DeclaredJob) :
    (validateCustom cr w m consumed).Only Op.ofCustom := by
  have hresult : ∀ result, (setCustomResult w result).Only Op.ofCustom := by
    intro result
    cases result <;> exact (only_bump w (by trivial)).bind fun _ => trivial
  unfold validateCustom
  match consumed with
  | none => exact hresult _
  | some declared =>
    simp only
    match crossCheck cr declared m with
    | .error code => exact hresult _
    | .ok () => exact (ofCustom_proposalCheck cr w declared m).bind hresult

theorem writesOnly_validateCustom (m : SetCustomMiningJob) (consumed : Option DeclaredJob) :
    WritesOnly [.requests, .counters] (validateCustom cr w m consumed) := by
  refine Prog.Only.mono (fun o ho => ?_) (ofCustom_validateCustom cr w m consumed)
  cases o <;> first | exact ho.elim | simp [Op.writes]

theorem consume_tdp (s : Engine) (t : JdToken) : (s.consume t).2.tdp = s.tdp := by
  unfold Engine.consume
  cases s.allocatedTokens.lookup t <;> rfl

theorem run_setCustom_result {s : Engine} (hq : s.tdp.Quiet) (m : SetCustomMiningJob)
    (t : JdToken) :
    (run env.oracle (handleSetCustomMiningJob cr w m t) s).1 =
      customVerdict cr w env m (s.consume t).1 := by
  rw [handleSetCustomMiningJob, run_bind, run_consumeDeclared]
  exact (run_validateCustom cr w env (by rw [consume_tdp]; exact hq) m _).1

/-- What a successful custom job passed. -/
theorem run_setCustom_success {s : Engine} (hq : s.tdp.Quiet) {m : SetCustomMiningJob}
    {t : JdToken} (h : (run env.oracle (handleSetCustomMiningJob cr w m t) s).1 = .success) :
    ∃ declared, (s.consume t).1 = some declared ∧ CrossChecked cr declared m ∧
      proposalVerdict cr w env declared m = .success := by
  rw [run_setCustom_result cr w env hq] at h
  match hc : (s.consume t).1 with
  | none => simp [hc, customVerdict] at h
  | some declared =>
    simp only [hc, customVerdict] at h
    match hx : crossCheck cr declared m with
    | .error code => simp [hx] at h
    | .ok () =>
      simp only [hx] at h
      exact ⟨declared, rfl, crossCheck_ok cr hx, h⟩

theorem run_setCustom_quiet {s : Engine} (hq : s.tdp.Quiet) (m : SetCustomMiningJob)
    (t : JdToken) : (run env.oracle (handleSetCustomMiningJob cr w m t) s).2.tdp.Quiet := by
  rw [handleSetCustomMiningJob, run_bind, run_consumeDeclared]
  exact (run_validateCustom cr w env (by rw [consume_tdp]; exact hq) m _).2

/-- The token and the job are gone, whatever the answer. -/
theorem run_setCustom_maps (s : Engine) (m : SetCustomMiningJob) (t : JdToken) :
    (run env.oracle (handleSetCustomMiningJob cr w m t) s).2.declaredJobs =
        (s.consume t).2.declaredJobs ∧
      (run env.oracle (handleSetCustomMiningJob cr w m t) s).2.allocatedTokens =
        (s.consume t).2.allocatedTokens := by
  rw [handleSetCustomMiningJob, run_bind, run_consumeDeclared]
  exact ⟨run_declaredJobs env (writesOnly_validateCustom cr w m _) (by simp) _,
    run_allocatedTokens env (writesOnly_validateCustom cr w m _) (by simp) _⟩

/-- What a custom job may do. -/
def Op.ofSetCustom : Op → Prop
  | .tokensGet _ | .tokensRemove _ | .jobsRemove _ => True
  | o => o.ofCustom

/-- The operations of `consumeDeclared`. -/
def Op.isConsume : Op → Prop
  | .tokensGet _ | .tokensRemove _ | .jobsRemove _ => True
  | _ => False

theorem only_consumeDeclared (t : JdToken) : (consumeDeclared t).Only Op.isConsume := by
  refine ⟨trivial, fun resolved => ?_⟩
  cases resolved with
  | none => trivial
  | some r => exact ⟨trivial, fun _ => ⟨trivial, fun _ => trivial⟩⟩

theorem only_setCustom (m : SetCustomMiningJob) (t : JdToken) :
    (handleSetCustomMiningJob cr w m t).Only Op.ofSetCustom := by
  refine Prog.Only.bind (Prog.Only.mono (fun o ho => ?_) (only_consumeDeclared t))
    fun consumed => Prog.Only.mono (fun o ho => ?_) (ofCustom_validateCustom cr w m consumed)
  · cases o <;> first | exact ho.elim | trivial
  · cases o <;> first | exact ho | exact ho.elim

theorem writesOnly_consumeDeclared (t : JdToken) :
    WritesOnly [.declaredJobs, .allocatedTokens] (consumeDeclared t) := by
  refine Prog.Only.mono (fun o ho => ?_) (only_consumeDeclared t)
  cases o <;> first | exact ho.elim | simp [Op.writes]

theorem writesOnly_setCustom (m : SetCustomMiningJob) (t : JdToken) :
    WritesOnly [.declaredJobs, .allocatedTokens, .requests, .counters]
      (handleSetCustomMiningJob cr w m t) := by
  refine Prog.Only.mono (fun o ho => ?_) (only_setCustom cr w m t)
  cases o <;> first | exact ho.elim | simp [Op.writes]

/-! ## `handle_allocate_mining_job_token` and the evictor -/

/-- The user and the script an allocation binds, if it binds any. -/
def Engine.allocation (s : Engine) (resolver : String → Option ScriptBuf) (token : JdToken)
    (userIdentifier : String) (maxSize : Nat) : Option (String × ScriptBuf) :=
  let normalized := normalizeIdentifier cr userIdentifier
  if normalized.isEmpty then none
  else
    match resolver normalized with
    | none => none
    | some script =>
      if (s.userIdentifierIndex.lookup normalized).any (· ≠ token) then none
      else if (txOutCodec.encode ⟨0, script⟩).length > maxSize then none
      else some (normalized, script)

/-- When an allocation binds: for a non-empty identifier with a script, no
    other live token, and within the size budget. -/
theorem allocation_eq_some {s : Engine} {resolver : String → Option ScriptBuf} {token : JdToken}
    {userIdentifier id : String} {maxSize : Nat} {script : ScriptBuf} :
    s.allocation cr resolver token userIdentifier maxSize = some (id, script) ↔
      id = normalizeIdentifier cr userIdentifier ∧ id.isEmpty = false ∧
      resolver id = some script ∧
      (∀ t, s.userIdentifierIndex.lookup id = some t → t = token) ∧
      (txOutCodec.encode ⟨0, script⟩).length ≤ maxSize := by
  have hguard : ∀ id, (s.userIdentifierIndex.lookup id).any (· ≠ token) = false ↔
      ∀ t, s.userIdentifierIndex.lookup id = some t → t = token := by
    intro id
    cases s.userIdentifierIndex.lookup id <;> simp
  unfold Engine.allocation
  simp only
  constructor
  · intro h
    by_cases hempty : (normalizeIdentifier cr userIdentifier).isEmpty = true
    · rw [if_pos hempty] at h
      cases h
    rw [if_neg hempty] at h
    cases hres : resolver (normalizeIdentifier cr userIdentifier) with
    | none => simp [hres] at h
    | some script' =>
      simp only [hres] at h
      by_cases hbound : (s.userIdentifierIndex.lookup
          (normalizeIdentifier cr userIdentifier)).any (· ≠ token) = true
      · rw [if_pos hbound] at h
        cases h
      rw [if_neg hbound] at h
      split_ifs at h with hsize
      cases h
      exact ⟨rfl, Bool.not_eq_true _ ▸ hempty, hres,
        (hguard _).mp (Bool.not_eq_true _ ▸ hbound), Nat.le_of_not_lt hsize⟩
  · intro h
    obtain ⟨rfl, hempty, hres, hbound, hsize⟩ := h
    rw [← hguard] at hbound
    rw [if_neg (by rw [hempty]; exact Bool.false_ne_true), hres]
    simp only
    rw [if_neg (by rw [hbound]; exact Bool.false_ne_true), if_neg (by omega)]

theorem run_allocate (s : Engine) (resolver : String → Option ScriptBuf) (token : JdToken)
    (userIdentifier : String) (maxSize : Nat) :
    run env.oracle (handleAllocateMiningJobToken cr resolver token userIdentifier maxSize) s =
      match s.allocation cr resolver token userIdentifier maxSize with
      | none => (none, s)
      | some (user, script) =>
        (some ⟨0, script⟩,
          { s with tokenPayout := s.tokenPayout.insert token script
                   userIdentifierIndex := s.userIdentifierIndex.insert user token }) := by
  unfold handleAllocateMiningJobToken Engine.allocation
  simp only
  by_cases hempty : (normalizeIdentifier cr userIdentifier).isEmpty = true
  · simp only [hempty, if_true]
    rfl
  · simp only [hempty, if_false, Bool.false_eq_true]
    cases resolver (normalizeIdentifier cr userIdentifier) with
    | none => rfl
    | some script =>
      simp only [indexGet, Prog.op_bind, Prog.ret_bind, run_op, Env.oracle, Env.step]
      -- an identifier may be bound to one token only
      by_cases hbound : (s.userIdentifierIndex.lookup
          (normalizeIdentifier cr userIdentifier)).any (· ≠ token) = true
      · simp only [hbound, if_true]
        rfl
      · simp only [hbound, if_false, Bool.false_eq_true]
        by_cases hsize : (txOutCodec.encode ⟨0, script⟩).length > maxSize
        · simp only [hsize, if_true]
          rfl
        · simp only [hsize, if_false]
          rfl

theorem writesOnly_allocate (resolver : String → Option ScriptBuf) (token : JdToken)
    (userIdentifier : String) (maxSize : Nat) :
    WritesOnly [.payouts]
      (handleAllocateMiningJobToken cr resolver token userIdentifier maxSize) := by
  unfold handleAllocateMiningJobToken
  simp only
  split_ifs
  · trivial
  · match resolver (normalizeIdentifier cr userIdentifier) with
    | none => trivial
    | some script =>
      refine ⟨by simp [Op.writes], fun existing => ?_⟩
      show WritesOnly _ (if _ then _ else _)
      split_ifs
      · trivial
      · trivial
      · exact ⟨by simp [Op.writes], fun _ => ⟨by simp [Op.writes], fun _ => trivial⟩⟩

theorem run_evict_tokenPayout (s : Engine) (t : JdToken) :
    (run env.oracle (dropTokenPayout t) s).2.tokenPayout = s.tokenPayout.erase t := by
  cases h : s.tokenPayout.lookup t <;>
    simp [dropTokenPayout, Env.oracle, Env.step, h]

theorem run_evict_index (s : Engine) (t : JdToken) :
    (run env.oracle (dropTokenPayout t) s).2.userIdentifierIndex =
      if (s.tokenPayout.lookup t).isSome then
        DashMap.retain (fun _ bound => bound ≠ t) s.userIdentifierIndex
      else s.userIdentifierIndex := by
  cases h : s.tokenPayout.lookup t <;>
    simp [dropTokenPayout, Env.oracle, Env.step, h]

theorem writesOnly_evict (t : JdToken) : WritesOnly [.payouts] (dropTokenPayout t) := by
  refine ⟨by simp [Op.writes], fun bound => ?_⟩
  cases bound with
  | none => trivial
  | some script => exact ⟨by simp [Op.writes], fun _ => trivial⟩

end

end Sv2P2pool
