import Sv2P2pool.Block
import Sv2P2pool.Framework.DashMap
import Sv2P2pool.Framework.Prog

/-! # The Engine: State and Atomic Operations

    `P2poolV2Engine` is shared between all connections. Its handlers touch
    the shared state one map operation, one lock or one backend call at a
    time; `Op` lists these atomic operations and `Env.step` says what each of
    them does. A complete call performs them one after the other with the
    answers of one environment (`Env.oracle`); concurrent calls interleave
    them (`parInterp`).
-/

namespace Sv2P2pool

open ByteCodec Bitcoin Interleave

/-! ## Metrics -/

/-- `PushSolutionDropReason`. -/
inductive PushSolutionDropReason where
  | noMatchingJob
  | cacheRace
  | noTemplateId
  | tdpFetchFailed
  | reconstructFailed
  | noHandles
  deriving DecidableEq

/-- `ScmjProposalRejectReason`. -/
inductive ScmjProposalRejectReason where
  | consensusRejected
  | rpcError
  deriving DecidableEq

/-- The Prometheus counters the handlers increment. -/
inductive Counter where
  | declareMiningJobAccepted
  | declareMiningJobRejected
  | declareMiningJobMissingTxns
  | setCustomMiningJobAccepted
  | setCustomMiningJobRejected
  | setCustomMiningJobValidationSkipped
  | setCustomMiningJobProposalRejected (reason : ScmjProposalRejectReason)
  | pushSolutionReceived
  | pushSolutionDropped (reason : PushSolutionDropReason)
  | blocksSubmitted
  | reorgNotifications
  | jobsInvalidatedTotal
  deriving DecidableEq

/-! ## State -/

/-- The mutable part of `TdpHandleInner`. A one-shot channel is a number; a
    value sent into it waits in `oneshots` until it is received. -/
structure TdpHandle where
  /-- `pending_requests`: the one-shot of the request in flight, by
      `template_id`. -/
  pendingRequests : DashMap UInt64 Nat
  oneshots : DashMap Nat TxDataResult
  nextOneshot : Nat
  lastPrevHash : Option SetNewPrevHash
  lastTemplate : Option NewTemplate

/-- The shared state of `P2poolV2Engine`. -/
structure Engine where
  declaredJobs : DashMap RequestId DeclaredJob
  allocatedTokens : DashMap JdToken RequestId
  tokenPayout : DashMap JdToken ScriptBuf
  userIdentifierIndex : DashMap String JdToken
  /-- `RecentSolutions::inner`: share hash to recording time and block hash. -/
  recentSolutions : DashMap BlockHash (Nat × BlockHash)
  tdp : TdpHandle
  counters : Counter → Nat
  /-- The blocks handed to `submit_block` by spawned tasks, latest first. -/
  submitted : List Block

/-- What the binary wired in at construction: `EngineHandles`, the TDP
    bridge and the metrics registry. -/
structure Wiring where
  handles : Bool
  tdp : Bool
  metrics : Bool

/-- `P2poolV2Engine::new`, before any message. -/
def Engine.new : Engine where
  declaredJobs := ∅
  allocatedTokens := ∅
  tokenPayout := ∅
  userIdentifierIndex := ∅
  recentSolutions := ∅
  tdp := { pendingRequests := ∅, oneshots := ∅, nextOneshot := 0,
           lastPrevHash := none, lastTemplate := none }
  counters := fun _ => 0
  submitted := []

/-! ## TDP bridge (`tdp.rs`) -/

namespace TdpHandle

/-- `current_tip`. -/
def currentTip (tdp : TdpHandle) : Option TipMetadata :=
  tdp.lastPrevHash.map fun m => ⟨m.prevHash, m.nBits, m.headerTimestamp⟩

/-- `current_template_id`. -/
def currentTemplateId (tdp : TdpHandle) : Option UInt64 :=
  tdp.lastTemplate.map NewTemplate.templateId

/-- The registration block of `request_tx_bodies`: refuse a second request
    for the same `template_id`, otherwise store a fresh one-shot. -/
def register (tdp : TdpHandle) (templateId : UInt64) : Option Nat × TdpHandle :=
  -- `contains_key` and `insert` under one lock
  if (tdp.pendingRequests.lookup templateId).isSome then (none, tdp)
  else
    (some tdp.nextOneshot,
      { tdp with pendingRequests := tdp.pendingRequests.insert templateId tdp.nextOneshot
                 nextOneshot := tdp.nextOneshot + 1 })

/-- `deliver_response`: take the waiter out of the table and send to it. -/
def deliverResponse (tdp : TdpHandle) (templateId : UInt64) (result : TxDataResult) : TdpHandle :=
  match tdp.pendingRequests.lookup templateId with
  | none => tdp
  -- the entry goes first, so a second response finds no waiter
  | some waiter =>
    { tdp with pendingRequests := tdp.pendingRequests.erase templateId
               oneshots := tdp.oneshots.insert waiter result }

/-- Remove the table's entry for `templateId` (the error cleanups). -/
def removePending (tdp : TdpHandle) (templateId : UInt64) : TdpHandle :=
  { tdp with pendingRequests := tdp.pendingRequests.erase templateId }

/-- One message through `spawn_tp_to_cm_tee`. -/
def observe (tdp : TdpHandle) : TemplateDistribution → TdpHandle
  | .setNewPrevHash msg => { tdp with lastPrevHash := some msg }
  | .newTemplate msg => { tdp with lastTemplate := some msg }
  | .requestTransactionDataSuccess k transactionList =>
    tdp.deliverResponse k (.success transactionList)
  | .requestTransactionDataError k errorCode => tdp.deliverResponse k (.error errorCode)
  | .other => tdp

end TdpHandle

/-- `find_by_solution` on the entries in iteration order: the first match. -/
def findBySolution (prevHash : BlockHash) (nbits version : UInt32)
    (entries : List (DashMap.Entry RequestId DeclaredJob)) : Option RequestId :=
  (entries.find? fun e =>
    e.2.tip.prevHash = prevHash ∧ e.2.tip.nbits = nbits ∧ e.2.version = version).map Sigma.fst

/-! ## Backends -/

/-- `ShareHeaderLookup`; a header is read for its predecessor only. -/
inductive ShareHeaderLookup where
  | found (prevShareBlockhash : Option BlockHash)
  | notFound
  | genesis
  deriving DecidableEq

/-- `ProposalOutcome` of `validate_block_proposal`. -/
inductive ProposalOutcome where
  | accepted
  | duplicate
  | rejected (reason : String)
  deriving DecidableEq

/-- The three ways a wait on a one-shot ends. -/
inductive WaitOutcome where
  | received (result : TxDataResult)
  | senderDropped
  | elapsed

/-! ## Operations -/

inductive Op where
  | jobsInsert (r : RequestId) (job : DeclaredJob)
  | jobsRemove (r : RequestId)
  | jobsFindBySolution (prevHash : BlockHash) (nbits version : UInt32)
  | jobsGet (r : RequestId)
  | jobsLen
  | jobsClear
  | jobsRetain (keep : DeclaredJob → Bool)
  | tokensGet (t : JdToken)
  | tokensInsert (t : JdToken) (r : RequestId)
  | tokensRemove (t : JdToken)
  | payoutGet (t : JdToken)
  | payoutInsert (t : JdToken) (script : ScriptBuf)
  | payoutRemove (t : JdToken)
  | indexGet (user : String)
  | indexInsert (user : String) (t : JdToken)
  | indexDropToken (t : JdToken)
  | currentTip
  | currentTemplateId
  | registerRequest (templateId : UInt64)
  | sendRequest (templateId : UInt64)
  | awaitResponse (templateId : UInt64) (waiter : Nat)
  | removePending (templateId : UInt64)
  | recordSolution (shareHash blockHash : BlockHash)
  | getChainTip
  | getShareHeader (shareHash : BlockHash)
  | validateBlockProposal (block : Block)
  | spawnSubmitBlock (block : Block)
  | bump (c : Counter) (n : Nat)

/-- The result of an operation. A failing backend call answers `none` (its
    error is only logged). -/
@[reducible] def Op.Res : Op → Type
  | .jobsRemove _ => Option DeclaredJob
  | .jobsFindBySolution _ _ _ => Option RequestId
  | .jobsGet _ => Option DeclaredJob
  | .jobsLen => Nat
  | .jobsRetain _ => Nat
  | .tokensGet _ => Option RequestId
  | .payoutGet _ => Option ScriptBuf
  | .payoutRemove _ => Option ScriptBuf
  | .indexGet _ => Option JdToken
  | .currentTip => Option TipMetadata
  | .currentTemplateId => Option UInt64
  | .registerRequest _ => Option Nat
  | .sendRequest _ => Bool
  | .awaitResponse _ _ => WaitOutcome
  | .getChainTip => Option (Option BlockHash)
  | .getShareHeader _ => Option ShareHeaderLookup
  | .validateBlockProposal _ => Option ProposalOutcome
  | _ => Unit

/-- The engine's signature. -/
abbrev engineSig : Sig := ⟨Op, Op.Res⟩

/-- A handler: a program over the engine's operations. -/
abbrev Handler (α : Type) := Prog engineSig α

/-! ## What the operations do -/

/-- The answers of everything outside the engine during one call. -/
structure Env where
  /-- The order in which an iteration visits the declared jobs. -/
  jobOrder : DashMap RequestId DeclaredJob → List (DashMap.Entry RequestId DeclaredJob)
  jobOrder_iter : ∀ m, DashMap.IterOrder m (jobOrder m)
  /-- `get_chain_tip`; `none` is a transport error. -/
  chainTip : Option (Option BlockHash)
  /-- `get_share_header`; `none` is a transport error. -/
  shareHeader : BlockHash → Option ShareHeaderLookup
  /-- Whether the Pool→TP channel takes a request. -/
  sendRequest : UInt64 → Bool
  /-- What the tee delivers for a `template_id` before the timeout. -/
  txData : UInt64 → Option TxDataResult
  /-- `validate_block_proposal`; `none` is an RPC error. -/
  validate : Block → Option ProposalOutcome
  /-- `Instant::now()`. -/
  now : Nat

/-- The environment in which every backend call fails and the jobs are
    visited in the order of their entries. -/
def Env.offline : Env where
  jobOrder := AList.entries
  jobOrder_iter := fun _ => List.Perm.refl _
  chainTip := none
  shareHeader := fun _ => none
  sendRequest := fun _ => false
  txData := fun _ => none
  validate := fun _ => none
  now := 0

/-- A complete wait of a call that nothing interleaves with: the tee delivers
    the response, if one comes in time, and the waiter receives it. -/
def awaitAlone (tdp : TdpHandle) (templateId : UInt64) (waiter : Nat) :
    Option TxDataResult → WaitOutcome × TdpHandle
  | none => (.elapsed, tdp)
  | some result =>
    -- the response goes to whoever is registered for the template
    let tdp := tdp.deliverResponse templateId result
    match tdp.oneshots.lookup waiter with
    | some x => (.received x, { tdp with oneshots := tdp.oneshots.erase waiter })
    | none => (.elapsed, tdp)

/-- One operation, with the environment's answers fixed. -/
def Env.step (env : Env) (s : Engine) : (o : Op) → o.Res × Engine
  | .jobsInsert r job => ((), { s with declaredJobs := s.declaredJobs.insert r job })
  | .jobsRemove r => (s.declaredJobs.lookup r, { s with declaredJobs := s.declaredJobs.erase r })
  | .jobsFindBySolution prevHash nbits version =>
    (findBySolution prevHash nbits version (env.jobOrder s.declaredJobs), s)
  | .jobsGet r => (s.declaredJobs.lookup r, s)
  | .jobsLen => (s.declaredJobs.len, s)
  | .jobsClear => ((), { s with declaredJobs := ∅ })
  | .jobsRetain keep =>
    -- `retain` returns how many entries it dropped
    (s.declaredJobs.entries.countP fun e => !keep e.2,
      { s with declaredJobs := DashMap.retain (fun _ job => keep job) s.declaredJobs })
  | .tokensGet t => (s.allocatedTokens.lookup t, s)
  | .tokensInsert t r => ((), { s with allocatedTokens := s.allocatedTokens.insert t r })
  | .tokensRemove t => ((), { s with allocatedTokens := s.allocatedTokens.erase t })
  | .payoutGet t => (s.tokenPayout.lookup t, s)
  | .payoutInsert t script => ((), { s with tokenPayout := s.tokenPayout.insert t script })
  | .payoutRemove t => (s.tokenPayout.lookup t, { s with tokenPayout := s.tokenPayout.erase t })
  | .indexGet user => (s.userIdentifierIndex.lookup user, s)
  | .indexInsert user t =>
    ((), { s with userIdentifierIndex := s.userIdentifierIndex.insert user t })
  | .indexDropToken t =>
    ((), { s with
      userIdentifierIndex := DashMap.retain (fun _ bound => bound ≠ t) s.userIdentifierIndex })
  | .currentTip => (s.tdp.currentTip, s)
  | .currentTemplateId => (s.tdp.currentTemplateId, s)
  | .registerRequest k => ((s.tdp.register k).1, { s with tdp := (s.tdp.register k).2 })
  | .sendRequest k => (env.sendRequest k, s)
  | .awaitResponse k w =>
    ((awaitAlone s.tdp k w (env.txData k)).1,
      { s with tdp := (awaitAlone s.tdp k w (env.txData k)).2 })
  | .removePending k => ((), { s with tdp := s.tdp.removePending k })
  | .recordSolution share block =>
    ((), { s with recentSolutions := s.recentSolutions.insert share (env.now, block) })
  | .getChainTip => (env.chainTip, s)
  | .getShareHeader h => (env.shareHeader h, s)
  | .validateBlockProposal b => (env.validate b, s)
  | .spawnSubmitBlock b => ((), { s with submitted := b :: s.submitted })
  | .bump c n => ((), { s with counters := Function.update s.counters c (s.counters c + n) })

/-- The operations as an oracle, for running a handler. -/
def Env.oracle (env : Env) : Oracle engineSig Engine := fun s o => env.step s o

/-- Concurrent calls: a wait ends with a value the tee sent to this waiter,
    with a timeout while none was sent, or with a dropped sender when the
    table no longer holds the waiter. -/
def parInterp : Interp engineSig Engine := fun s o =>
  match o with
  | .awaitResponse _ w => fun r t =>
    match r with
    | .received x =>
      s.tdp.oneshots.lookup w = some x ∧
        t = { s with tdp := { s.tdp with oneshots := s.tdp.oneshots.erase w } }
    -- a value that is there wins over the timer
    | .elapsed => s.tdp.oneshots.lookup w = none ∧ t = s
    | .senderDropped =>
      s.tdp.oneshots.lookup w = none ∧ (∀ k, s.tdp.pendingRequests.lookup k ≠ some w) ∧ t = s
  | o => fun r t => ∃ env : Env, (r, t) = env.step s o

end Sv2P2pool
