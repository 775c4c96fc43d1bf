import Sv2P2pool.Engine

/-! # The Handlers (`engine_impl.rs`, `tdp.rs`)

    The handlers of `JobValidationEngine` as programs over the engine's
    atomic operations, in the order of the source. What a handler decides
    from its message alone is a pure function beside it.
-/

namespace Sv2P2pool

open ByteCodec Bitcoin Interleave

/-! ## Single operations -/

@[simp] def jobsInsert (r : RequestId) (job : DeclaredJob) : Handler Unit :=
  .op (.jobsInsert r job) .ret
@[simp] def jobsRemove (r : RequestId) : Handler (Option DeclaredJob) := .op (.jobsRemove r) .ret
@[simp] def jobsFindBySolution (prevHash : BlockHash) (nbits version : UInt32) :
    Handler (Option RequestId) := .op (.jobsFindBySolution prevHash nbits version) .ret
@[simp] def jobsGet (r : RequestId) : Handler (Option DeclaredJob) := .op (.jobsGet r) .ret
@[simp] def jobsLen : Handler Nat := .op .jobsLen .ret
@[simp] def jobsClear : Handler Unit := .op .jobsClear .ret
@[simp] def jobsRetain (keep : DeclaredJob → Bool) : Handler Nat := .op (.jobsRetain keep) .ret
@[simp] def tokensGet (t : JdToken) : Handler (Option RequestId) := .op (.tokensGet t) .ret
@[simp] def tokensInsert (t : JdToken) (r : RequestId) : Handler Unit :=
  .op (.tokensInsert t r) .ret
@[simp] def tokensRemove (t : JdToken) : Handler Unit := .op (.tokensRemove t) .ret
@[simp] def payoutGet (t : JdToken) : Handler (Option ScriptBuf) := .op (.payoutGet t) .ret
@[simp] def payoutInsert (t : JdToken) (script : ScriptBuf) : Handler Unit :=
  .op (.payoutInsert t script) .ret
@[simp] def payoutRemove (t : JdToken) : Handler (Option ScriptBuf) := .op (.payoutRemove t) .ret
@[simp] def indexGet (user : String) : Handler (Option JdToken) := .op (.indexGet user) .ret
@[simp] def indexInsert (user : String) (t : JdToken) : Handler Unit :=
  .op (.indexInsert user t) .ret
@[simp] def indexDropToken (t : JdToken) : Handler Unit := .op (.indexDropToken t) .ret
@[simp] def currentTip : Handler (Option TipMetadata) := .op .currentTip .ret
@[simp] def currentTemplateId : Handler (Option UInt64) := .op .currentTemplateId .ret
@[simp] def registerRequest (k : UInt64) : Handler (Option Nat) := .op (.registerRequest k) .ret
@[simp] def sendRequest (k : UInt64) : Handler Bool := .op (.sendRequest k) .ret
@[simp] def awaitResponse (k : UInt64) (w : Nat) : Handler WaitOutcome :=
  .op (.awaitResponse k w) .ret
@[simp] def removePending (k : UInt64) : Handler Unit := .op (.removePending k) .ret
@[simp] def recordSolution (share block : BlockHash) : Handler Unit :=
  .op (.recordSolution share block) .ret
@[simp] def getChainTip : Handler (Option (Option BlockHash)) := .op .getChainTip .ret
@[simp] def getShareHeader (h : BlockHash) : Handler (Option ShareHeaderLookup) :=
  .op (.getShareHeader h) .ret
@[simp] def validateBlockProposal (b : Block) : Handler (Option ProposalOutcome) :=
  .op (.validateBlockProposal b) .ret
@[simp] def spawnSubmitBlock (b : Block) : Handler Unit := .op (.spawnSubmitBlock b) .ret

/-- `if let Some(m) = self.metrics() { .. }`. -/
def bump (w : Wiring) (c : Counter) (n : Nat) : Handler Unit :=
  if w.metrics then .op (.bump c n) .ret else .ret ()

section

variable (cr : Crates) (w : Wiring)

/-! ## `request_tx_bodies` -/

/-- `TdpError`; message texts are only logged. -/
inductive TdpError where
  | duplicateRequest (templateId : UInt64)
  | sendFailed
  | demuxClosed
  | timeout (templateId : UInt64)
  | tpRejected (templateId : UInt64) (errorCode : Bytes)
  | decodeFailed
  deriving DecidableEq

/-- Step 4: decode every body, or fail at the first one that does not decode. -/
def decodeTxData (templateId : UInt64) : TxDataResult → Except TdpError (List Transaction)
  | .error code => .error (.tpRejected templateId code)
  | .success transactionList =>
    match transactionList.mapM cr.consensusDecode with
    | some txs => .ok txs
    | none => .error .decodeFailed

/-- `TdpHandle::request_tx_bodies`. -/
def requestTxBodies (templateId : UInt64) : Handler (Except TdpError (List Transaction)) := do
  match ← registerRequest templateId with
  | none => pure (.error (.duplicateRequest templateId))
  | some waiter =>
    match ← sendRequest templateId with
    | false => do
      removePending templateId
      pure (.error .sendFailed)
    | true =>
      match ← awaitResponse templateId waiter with
      | .senderDropped => do
        removePending templateId
        pure (.error .demuxClosed)
      | .elapsed => do
        removePending templateId
        pure (.error (.timeout templateId))
      | .received result => pure (decodeTxData cr templateId result)

/-! ## `handle_declare_mining_job` -/

/-- `decode_token`: exactly 8 bytes, little-endian. -/
def decodeToken (d : DeclareMiningJob) : Option JdToken :=
  match decodeLE 8 d.miningJobToken with
  | some (n, []) => some (UInt64.ofNat n)
  | _ => none

/-- Steps 1 to 7: the token and the bodies the handler goes on with, or the
    result it returns at once. Bodies that do not decode are skipped. -/
def checkDeclaration (d : DeclareMiningJob) (pmts : Option ProvideMissingTransactionsSuccess) :
    Except DeclareMiningJobResult (JdToken × List Transaction) :=
  match decodeToken d with
  | none => .error (.error .invalidMiningJobToken)
  | some allocatedToken =>
    match reconstructCoinbase cr d.coinbaseTxPrefix d.coinbaseTxSuffix with
    | .error _ => .error (.error .invalidCoinbaseTx)
    | .ok declaredCoinbaseTx =>
      -- the coinbase is decoded but its outputs are not looked at
      if declaredCoinbaseTx.input.length ≠ 1 then .error (.error .invalidCoinbaseTxInput)
      -- a coinbase-only declaration still needs a PMTS message
      else if d.wtxidList.isEmpty && pmts.isNone then .error (.error .invalidCoinbaseTx)
      else if !d.wtxidList.isEmpty && pmts.isNone then
        .error (.missingTransactions d.wtxidList)
      else
        -- no comparison of the bodies with `wtxid_list`
        .ok (allocatedToken,
          match pmts with
          | some p => p.transactionList.filterMap cr.consensusDecode
          | none => [])

/-- Tally the terminal result and return it. -/
def declareResult (result : DeclareMiningJobResult) : Handler DeclareMiningJobResult := do
  match result with
  | .success => bump w .declareMiningJobAccepted 1
  | .error _ => bump w .declareMiningJobRejected 1
  | .missingTransactions _ => bump w .declareMiningJobMissingTxns 1
  pure result

/-- The Bitcoin tip and template of the moment, from the TDP snapshots. -/
def captureTip : Handler (TipMetadata × Option UInt64) :=
  if w.tdp then do
    let tip ← currentTip
    let tid ← currentTemplateId
    pure (tip.getD TipMetadata.default, tid)
  else pure (TipMetadata.default, none)

/-- The share-chain tip of the moment; a failed read counts as no tip. -/
def captureShareChainTip : Handler (Option BlockHash) :=
  if w.handles then do
    let tip ← getChainTip
    pure tip.join
  else pure none

/-- The cached snapshot of an accepted declaration. -/
def declaredSnapshot (d : DeclareMiningJob) (allocatedToken : JdToken)
    (missingTxs : List Transaction) (tip : TipMetadata) (templateId : Option UInt64)
    (shareChainTip : Option BlockHash) : DeclaredJob where
  version := d.version
  coinbaseTxPrefix := d.coinbaseTxPrefix
  coinbaseTxSuffix := d.coinbaseTxSuffix
  wtxidList := d.wtxidList
  txidList := some (missingTxs.map cr.computeTxid)
  tip := tip
  templateId := templateId
  shareChainTip := shareChainTip
  validated := true
  allocatedToken := some allocatedToken

def handleDeclareMiningJob (d : DeclareMiningJob)
    (pmts : Option ProvideMissingTransactionsSuccess) : Handler DeclareMiningJobResult :=
  match checkDeclaration cr d pmts with
  | .error result => declareResult w result
  | .ok (allocatedToken, missingTxs) => do
    let (tip, templateId) ← captureTip w
    let shareChainTip ← captureShareChainTip w
    -- an entry under the same request id is overwritten, whoever declared it
    jobsInsert d.requestId
      (declaredSnapshot cr d allocatedToken missingTxs tip templateId shareChainTip)
    tokensInsert allocatedToken d.requestId
    declareResult w .success

/-! ## `handle_set_custom_mining_job` -/

/-- `tip_was_captured`. -/
def TipMetadata.wasCaptured (tip : TipMetadata) : Bool :=
  tip.prevHash ≠ U256.allZeros || tip.nbits ≠ 0

/-- `if !cond { return Error(code) }`. -/
def ensure (cond : Prop) [Decidable cond] (code : SetCustomErrorCode) :
    Except SetCustomErrorCode Unit := if cond then .ok () else .error code

/-- Steps 4 and 5, skipped for the placeholder tip. -/
def checkTip (declared : DeclaredJob) (m : SetCustomMiningJob) :
    Except SetCustomErrorCode Unit :=
  if declared.tip.wasCaptured then do
    -- against the captured tip, not the current one
    ensure (m.prevHash = declared.tip.prevHash) .staleChainTip
    ensure (m.nbits = declared.tip.nbits) .invalidNbits
  else .ok ()

/-- Step 7, on the declared coinbase and its first input. -/
def checkCoinbaseFields (tx : Transaction) (input0 : TxIn) (m : SetCustomMiningJob) :
    Except SetCustomErrorCode Unit := do
  ensure (m.coinbasePrefix.isPrefixOf input0.scriptSig = true) .invalidCoinbasePrefix
  ensure (input0.sequence = m.coinbaseTxInputNSequence) .invalidCoinbaseTxInputNSequence
  ensure ((vec txOutCodec).encode tx.output = m.coinbaseTxOutputs) .invalidCoinbaseTxOutputs
  ensure (tx.lockTime = m.coinbaseTxLocktime) .invalidCoinbaseTxLocktime

/-- Step 7: the declared coinbase against the message's coinbase fields. -/
def checkCoinbase (declared : DeclaredJob) (m : SetCustomMiningJob) :
    Except SetCustomErrorCode Transaction :=
  match reconstructCoinbase cr declared.coinbaseTxPrefix declared.coinbaseTxSuffix with
  | .error _ => .error .invalidCoinbaseTx
  | .ok tx => do
    ensure (tx.version = m.coinbaseTxVersion.toInt32) .invalidCoinbaseTxVersion
    match tx.input with
    -- `input[0]`: the declare handler admits coinbases with one input only
    | [] => .error .invalidCoinbaseTx
    | input0 :: _ => do
      checkCoinbaseFields tx input0 m
      .ok tx

/-- Step 8: the message's path against the declared transactions. -/
def checkMerklePath (declared : DeclaredJob) (tx : Transaction) (m : SetCustomMiningJob) :
    Except SetCustomErrorCode Unit :=
  match declared.txidList with
  | none => .error .jobNotYetValidated
  | some txidList =>
    ensure (merklePath cr (cr.computeTxid tx) txidList = m.merklePath) .invalidMerklePath

/-- Steps 3 to 8: every field of the message against the declared job. -/
def crossCheck (declared : DeclaredJob) (m : SetCustomMiningJob) :
    Except SetCustomErrorCode Unit := do
  ensure (declared.validated = true) .jobNotYetValidated
  checkTip declared m
  ensure (m.version = declared.version) .invalidVersion
  let tx ← checkCoinbase cr declared m
  checkMerklePath cr declared tx m

/-- bitcoind's verdict on a candidate block; an RPC error rejects. -/
def proposeCandidate (candidate : Block) : Handler SetCustomMiningJobResult := do
  match ← validateBlockProposal candidate with
  | some .accepted => pure .success
  | some .duplicate => pure .success
  | some (.rejected _) => do
    bump w (.setCustomMiningJobProposalRejected .consensusRejected) 1
    pure (.error .invalidCoinbaseTx)
  | none => do
    bump w (.setCustomMiningJobProposalRejected .rpcError) 1
    pure (.error .invalidCoinbaseTx)

/-- Step 9: the proposal validation. Without TDP, handles or a `template_id`,
    or when the bodies cannot be fetched, the structural checks decide
    alone. -/
def proposalCheck (declared : DeclaredJob) (m : SetCustomMiningJob) :
    Handler SetCustomMiningJobResult :=
  match w.tdp, w.handles, declared.templateId with
  | true, true, some templateId => do
    match ← requestTxBodies cr templateId with
    -- every `TdpError`, a duplicate request included, is an acceptance
    | .error _ => do
      bump w .setCustomMiningJobValidationSkipped 1
      pure .success
    | .ok txBodies =>
      match buildCandidateBlock cr declared m txBodies with
      | .error _ => pure (.error .invalidCoinbaseTx)
      | .ok candidate => proposeCandidate w candidate
  | _, _, _ => do
    bump w .setCustomMiningJobValidationSkipped 1
    pure .success

/-- Tally the terminal result and return it. -/
def setCustomResult (result : SetCustomMiningJobResult) : Handler SetCustomMiningJobResult := do
  match result with
  | .success => bump w .setCustomMiningJobAccepted 1
  | .error _ => bump w .setCustomMiningJobRejected 1
  pure result

/-- Steps 1 and 2: resolve the token and take the job out of the cache. The
    token is consumed whatever follows. -/
def consumeDeclared (allocatedToken : JdToken) : Handler (Option DeclaredJob) := do
  match ← tokensGet allocatedToken with
  | none => pure none
  | some requestId => do
    -- one-shot: no later step puts the job back
    tokensRemove allocatedToken
    jobsRemove requestId

/-- Steps 3 to 9, on the job the token resolved to. -/
def validateCustom (m : SetCustomMiningJob) :
    Option DeclaredJob → Handler SetCustomMiningJobResult
  | none => setCustomResult w (.error .invalidMiningJobToken)
  | some declared =>
    match crossCheck cr declared m with
    | .error code => setCustomResult w (.error code)
    | .ok () => do
      let result ← proposalCheck cr w declared m
      setCustomResult w result

def handleSetCustomMiningJob (m : SetCustomMiningJob) (allocatedToken : JdToken) :
    Handler SetCustomMiningJobResult := do
  let declared ← consumeDeclared allocatedToken
  validateCustom cr w m declared

/-! ## `handle_push_solution` -/

/-- The bytes hashed into `synthetic_share_hash`. -/
def syntheticShareBytes (ps : PushSolution) : Bytes :=
  ps.prevHash.bytes ++ u32.encode ps.nonce ++ u32.encode ps.ntime ++ u32.encode ps.version

def syntheticShareHash (ps : PushSolution) : BlockHash := cr.sha256d (syntheticShareBytes ps)

def dropSolution (reason : PushSolutionDropReason) : Handler Unit :=
  bump w (.pushSolutionDropped reason) 1

/-- Steps 4b to 6: the payout lookup, which is only logged, the credit and
    the submission. -/
def deliverBlock (ps : PushSolution) (declared : DeclaredJob) (block : Block) : Handler Unit := do
  match declared.allocatedToken with
  | some token => do
    -- `lookup_payout_script`
    let _ ← payoutGet token
    pure ()
  | none => pure ()
  recordSolution (syntheticShareHash cr ps) (cr.blockHash block.header)
  if w.handles then do
    bump w .blocksSubmitted 1
    spawnSubmitBlock block
  else pure ()

/-- Steps 2 to 6, once the job is found: fetch the bodies, rebuild the block
    and deliver it. -/
def solveWith (ps : PushSolution) (declared : DeclaredJob) : Handler Unit :=
  match declared.templateId with
  | none => do
    -- the synthetic hash stands in for the block hash
    recordSolution (syntheticShareHash cr ps) (syntheticShareHash cr ps)
    dropSolution w .noTemplateId
  | some templateId => do
    match ← requestTxBodies cr templateId with
    | .error _ => dropSolution w .tdpFetchFailed
    | .ok txBodies =>
      match reconstructBlock cr declared ps txBodies with
      | .error _ => dropSolution w .reconstructFailed
      | .ok block => deliverBlock cr w ps declared block

/-- Step 1: the cached job of a solution, or the reason to drop it. -/
def lookupSolution (ps : PushSolution) : Handler (Except PushSolutionDropReason DeclaredJob) := do
  match ← jobsFindBySolution ps.prevHash ps.nbits ps.version with
  | none => pure (.error .noMatchingJob)
  | some requestId =>
    -- a second lookup, so the job can be gone in between
    match ← jobsGet requestId with
    | none => pure (.error .cacheRace)
    | some declared => pure (.ok declared)

def handlePushSolution (ps : PushSolution) : Handler Unit := do
  bump w .pushSolutionReceived 1
  if w.tdp then do
    match ← lookupSolution ps with
    | .error reason => dropSolution w reason
    | .ok declared => solveWith cr w ps declared
  else do
    recordSolution (syntheticShareHash cr ps) (syntheticShareHash cr ps)
    dropSolution w .noHandles

/-! ## `handle_allocate_mining_job_token` and the evictor -/

/-- `char::is_ascii_whitespace`. -/
def isAsciiWhitespace (c : Char) : Bool :=
  c = ' ' || c = '\t' || c = '\n' || c = '\x0c' || c = '\r'

/-- `trim_matches(|c| c.is_ascii_whitespace())`. -/
def trimAscii (s : String) : String :=
  String.ofList ((s.toList.dropWhile isAsciiWhitespace).reverse.dropWhile isAsciiWhitespace).reverse

/-- The key of a user identifier: trimmed, then NFKC-normalized. -/
def normalizeIdentifier (userIdentifier : String) : String := cr.nfkc (trimAscii userIdentifier)

/-- `resolver` is `resolve_payout_script`, the accounting selector. -/
def handleAllocateMiningJobToken (resolver : String → Option ScriptBuf) (token : JdToken)
    (userIdentifier : String) (coinbaseOutputMaxAdditionalSize : Nat) : Handler (Option TxOut) :=
  let normalized := normalizeIdentifier cr userIdentifier
  if normalized.isEmpty then pure none
  else
    match resolver normalized with
    | none => pure none
    | some script => do
      let existing ← indexGet normalized
      -- one live token for each user
      if existing.any (· ≠ token) then pure none
      else
        let candidate : TxOut := ⟨0, script⟩
        if (txOutCodec.encode candidate).length > coinbaseOutputMaxAdditionalSize then pure none
        else do
          -- forward map first, then the inverse index
          payoutInsert token script
          indexInsert normalized token
          pure (some candidate)

/-- `drop_token_payout`, called by both `TokenPayoutEvictor` hooks with the
    allocated token. -/
def dropTokenPayout (token : JdToken) : Handler Unit := do
  match ← payoutRemove token with
  | none => pure ()
  | some _ => indexDropToken token

def onAllocatedEvicted (token : JdToken) : Handler Unit := dropTokenPayout token

/-- The maps are keyed by the allocated token; the active one is not used. -/
def onActiveEvicted (_activeToken allocatedToken : JdToken) : Handler Unit :=
  dropTokenPayout allocatedToken

/-! ## `notify_share_chain_reorg` -/

/-- `REORG_ANCESTRY_DEPTH`. -/
def reorgAncestryDepth : Nat := 100

/-- `DeclaredJobCache::invalidate_all`. -/
def invalidateAll : Handler Nat := do
  let dropped ← jobsLen
  jobsClear
  pure dropped

/-- The ancestor walk: the hashes collected, or `none` when a header is
    missing or cannot be read. -/
def walkAncestors : Nat → BlockHash → List BlockHash → Handler (Option (List BlockHash))
  | 0, _, ancestors => pure (some ancestors)
  | hops + 1, cursor, ancestors => do
    match ← getShareHeader cursor with
    -- `prev` is inserted before it is looked up
    | some (.found (some prev)) => walkAncestors hops prev (prev :: ancestors)
    | some (.found none) => pure (some ancestors)
    | some .genesis => pure (some ancestors)
    | some .notFound => pure none
    | none => pure none

/-- The predicate of the selective invalidation. -/
def survives (ancestors : List BlockHash) (job : DeclaredJob) : Bool :=
  match job.shareChainTip with
  | some tip => ancestors.contains tip
  | none => false

def notifyShareChainReorg (newTip : BlockHash) : Handler Unit := do
  bump w .reorgNotifications 1
  if w.handles then do
    -- the new tip is its own ancestor
    match ← walkAncestors reorgAncestryDepth newTip [newTip] with
    | none => do
      let dropped ← invalidateAll
      bump w .jobsInvalidatedTotal dropped
    | some ancestors => do
      let dropped ← jobsRetain (survives ancestors)
      bump w .jobsInvalidatedTotal dropped
  else do
    let dropped ← invalidateAll
    bump w .jobsInvalidatedTotal dropped

/-- What `reorg_invalidator_loop` does for a tip change, and for a lag. -/
def invalidatorFlush : Handler Unit := do
  let dropped ← invalidateAll
  bump w .reorgNotifications 1
  bump w .jobsInvalidatedTotal dropped

end

end Sv2P2pool
