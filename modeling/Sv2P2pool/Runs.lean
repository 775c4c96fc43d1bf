import Sv2P2pool.Calls
import Sv2P2pool.Solutions
import Sv2P2pool.Reorg
import Sv2P2pool.Framework.Trace

/-! # Runs of Complete Calls

    A run is any sequence of complete calls by any number of clients, of
    reorg notifications, token evictions and Template Provider messages, each
    with an environment of its own. `MapsStep` says once what a step can do to
    the job maps; every invariant about them is derived from it.
-/

namespace Sv2P2pool

open ByteCodec Bitcoin Interleave

/-! ## Calls -/

inductive Call where
  | allocate (resolver : String → Option ScriptBuf) (token : JdToken) (userIdentifier : String)
      (maxSize : Nat)
  | declare (d : DeclareMiningJob) (pmts : Option ProvideMissingTransactionsSuccess)
  | setCustom (m : SetCustomMiningJob) (t : JdToken)
  | push (ps : PushSolution)
  | reorg (newTip : BlockHash)
  | evict (t : JdToken)
  | tdpMessage (msg : TemplateDistribution)

/-- What a call returns. -/
@[reducible] def Call.Resp : Call → Type
  | .allocate _ _ _ _ => Option TxOut
  | .declare _ _ => DeclareMiningJobResult
  | .setCustom _ _ => SetCustomMiningJobResult
  | _ => Unit

/-- A call together with its answer. -/
abbrev Done := (c : Call) × c.Resp

section

variable (cr : Crates) (w : Wiring)

/-- A complete call. -/
def Call.perform (env : Env) (s : Engine) : (c : Call) → c.Resp × Engine
  | .allocate resolver token userIdentifier maxSize =>
    run env.oracle (handleAllocateMiningJobToken cr resolver token userIdentifier maxSize) s
  | .declare d pmts => run env.oracle (handleDeclareMiningJob cr w d pmts) s
  | .setCustom m t => run env.oracle (handleSetCustomMiningJob cr w m t) s
  | .push ps => run env.oracle (handlePushSolution cr w ps) s
  | .reorg newTip => run env.oracle (notifyShareChainReorg w newTip) s
  | .evict t => run env.oracle (dropTokenPayout t) s
  | .tdpMessage msg => ((), { s with tdp := s.tdp.observe msg })

/-- One complete call, with some environment. -/
def CallStep (s : Engine) (e : Done) (s' : Engine) : Prop :=
  ∃ env : Env, (e.2, s') = e.1.perform cr w env s

/-- A sequence of complete calls. -/
abbrev Run (s : Engine) (log : List Done) (s' : Engine) : Prop :=
  Trace (CallStep cr w) s log s'

/-- Some run of a fresh engine leads here. -/
def Reachable (s : Engine) : Prop := ∃ log, Run cr w Engine.new log s

/-! ## What a step does to the job maps -/

/-- The effect of a complete call on `declared_jobs` and `allocated_tokens`. -/
inductive MapsStep (s : Engine) : Done → Engine → Prop where
  /-- An accepted declaration stores its job and binds its token. -/
  | stored {s' : Engine} (env : Env) (d : DeclareMiningJob)
      (pmts : Option ProvideMissingTransactionsSuccess) (t : JdToken) (txs : List Transaction)
      (hcheck : checkDeclaration cr d pmts = .ok (t, txs))
      (hjobs : s'.declaredJobs =
        s.declaredJobs.insert d.requestId (jobFor cr w env s d t txs))
      (htokens : s'.allocatedTokens = s.allocatedTokens.insert t d.requestId) :
      MapsStep s ⟨.declare d pmts, .success⟩ s'
  /-- A custom job consumes the token and the job it resolves to. -/
  | consumed {s' : Engine} (m : SetCustomMiningJob) (t : JdToken)
      (result : SetCustomMiningJobResult)
      (hjobs : s'.declaredJobs = (s.consume t).2.declaredJobs)
      (htokens : s'.allocatedTokens = (s.consume t).2.allocatedTokens) :
      MapsStep s ⟨.setCustom m t, result⟩ s'
  /-- A reorg drops jobs and leaves the tokens. -/
  | invalidated {s' : Engine} (newTip : BlockHash)
      (hjobs : ∀ r job, s'.declaredJobs.lookup r = some job → s.declaredJobs.lookup r = some job)
      (htokens : s'.allocatedTokens = s.allocatedTokens) :
      MapsStep s ⟨.reorg newTip, ()⟩ s'
  /-- Every other call leaves both maps alone. -/
  | kept {s' : Engine} (e : Done)
      (hdecl : ∀ d pmts, e ≠ ⟨.declare d pmts, .success⟩)
      (hcustom : ∀ m t result, e ≠ ⟨.setCustom m t, result⟩)
      (hjobs : s'.declaredJobs = s.declaredJobs)
      (htokens : s'.allocatedTokens = s.allocatedTokens) :
      MapsStep s e s'

variable {cr w} {s s' : Engine} {e : Done}

/-- A program that writes neither map. -/
theorem kept_of_writesOnly {α : Type} {p : Handler α} {l : List Region} {env : Env}
    (h : WritesOnly l p) (hjobs : .declaredJobs ∉ l) (htokens : .allocatedTokens ∉ l)
    (hdecl : ∀ d pmts, e ≠ ⟨.declare d pmts, .success⟩)
    (hcustom : ∀ m t result, e ≠ ⟨.setCustom m t, result⟩) :
    MapsStep cr w s e (run env.oracle p s).2 :=
  .kept e hdecl hcustom (run_declaredJobs env h hjobs s) (run_allocatedTokens env h htokens s)

theorem CallStep.maps (h : CallStep cr w s e s') : MapsStep cr w s e s' := by
  obtain ⟨env, h⟩ := h
  obtain ⟨c, resp⟩ := e
  cases c with
  | allocate resolver token user maxSize =>
    rw [(Prod.mk.inj h).2]
    exact kept_of_writesOnly (writesOnly_allocate cr resolver token user maxSize) (by simp)
      (by simp) (by simp) (by simp)
  | declare d pmts =>
    match hcheck : checkDeclaration cr d pmts with
    | .ok (t, txs) =>
      have h : (resp, s') = _ := h.trans (run_declare_ok cr w env hcheck s)
      obtain ⟨rfl, rfl⟩ := Prod.mk.inj h
      exact .stored env d pmts t txs hcheck (bumped_declaredJobs _ _ _ _)
        (bumped_allocatedTokens _ _ _ _)
    | .error result =>
      have h : (resp, s') = _ := h.trans (run_declare_error cr w env hcheck s)
      obtain ⟨rfl, rfl⟩ := Prod.mk.inj h
      -- only the counter moved; the answer is an error or a request for bodies
      refine .kept _ ?_ (by simp) (bumped_declaredJobs _ _ _ _) (bumped_allocatedTokens _ _ _ _)
      intro d' pmts' heq
      obtain ⟨heq, hresp⟩ := Sigma.mk.inj heq
      cases heq
      rw [eq_of_heq hresp] at hcheck
      exact checkDeclaration_ne_success cr hcheck
  | setCustom m t =>
    rw [(Prod.mk.inj h).2]
    obtain ⟨hjobs, htokens⟩ := run_setCustom_maps cr w env s m t
    exact .consumed m t resp hjobs htokens
  | push ps =>
    rw [(Prod.mk.inj h).2]
    exact kept_of_writesOnly (writesOnly_push cr w ps) (by simp) (by simp) (by simp) (by simp)
  | reorg newTip =>
    have hs' : s' = _ := (Prod.mk.inj (h.trans (run_reorg w env newTip s))).2
    refine .invalidated newTip (fun r job hjob => ?_) ?_
    · rw [hs', lookup_invalidated, bumped_declaredJobs] at hjob
      exact hjob.1
    · rw [(Prod.mk.inj h).2]
      exact run_allocatedTokens env (writesOnly_reorg w newTip) (by simp) s
  | evict t =>
    rw [(Prod.mk.inj h).2]
    exact kept_of_writesOnly (writesOnly_evict t) (by simp) (by simp) (by simp) (by simp)
  | tdpMessage msg =>
    rw [(Prod.mk.inj h).2]
    exact .kept _ (by simp) (by simp) rfl rfl

/-- The job stored by an accepted declaration, from the step alone. -/
theorem CallStep.stored {d : DeclareMiningJob}
    {pmts : Option ProvideMissingTransactionsSuccess}
    (h : CallStep cr w s ⟨.declare d pmts, .success⟩ s') :
    ∃ env t txs, checkDeclaration cr d pmts = .ok (t, txs) ∧
      s'.declaredJobs = s.declaredJobs.insert d.requestId (jobFor cr w env s d t txs) ∧
      s'.allocatedTokens = s.allocatedTokens.insert t d.requestId := by
  cases CallStep.maps h with
  | stored env _ _ t txs hcheck hjobs htokens => exact ⟨env, t, txs, hcheck, hjobs, htokens⟩
  | kept _ hdecl => exact absurd rfl (hdecl d pmts)

/-! ## Between calls nothing is in flight -/

theorem observe_quiet {tdp : TdpHandle} (h : tdp.Quiet) (msg : TemplateDistribution) :
    (tdp.observe msg).Quiet := by
  have hdeliver : ∀ k result, (tdp.deliverResponse k result).Quiet := by
    -- a response nobody waits for is dropped
    intro k result
    simp only [TdpHandle.deliverResponse, h.1, AList.lookup_empty]
    exact h
  cases msg with
  | setNewPrevHash msg => exact h
  | newTemplate msg => exact h
  | requestTransactionDataSuccess k l => exact hdeliver k _
  | requestTransactionDataError k code => exact hdeliver k _
  | other => exact h

theorem CallStep.quiet (h : CallStep cr w s e s') (hq : s.tdp.Quiet) : s'.tdp.Quiet := by
  obtain ⟨env, h⟩ := h
  obtain ⟨c, resp⟩ := e
  rw [(Prod.mk.inj h).2]
  cases c with
  | allocate resolver token user maxSize =>
    exact (run_tdp env (writesOnly_allocate cr resolver token user maxSize) (by simp) s) ▸ hq
  | declare d pmts => exact (run_tdp env (writesOnly_declare cr w d pmts) (by simp) s) ▸ hq
  | setCustom m t => exact run_setCustom_quiet cr w env hq m t
  | push ps => exact run_push_quiet cr w env hq ps
  | reorg newTip => exact (run_tdp env (writesOnly_reorg w newTip) (by simp) s) ▸ hq
  | evict t => exact (run_tdp env (writesOnly_evict t) (by simp) s) ▸ hq
  | tdpMessage msg => exact observe_quiet hq msg

theorem new_quiet : Engine.new.tdp.Quiet := ⟨rfl, rfl⟩

theorem Run.quiet {log : List Done} (h : Run cr w s log s') (hq : s.tdp.Quiet) : s'.tdp.Quiet :=
  Trace.invariant (P := fun s => s.tdp.Quiet) (fun _ _ _ hq h => CallStep.quiet h hq) h hq

theorem Reachable.quiet (h : Reachable cr w s) : s.tdp.Quiet := by
  obtain ⟨log, h⟩ := h
  exact Run.quiet h new_quiet

/-! ## Every cached job was accepted -/

/-- What the checks of a declaration leave true of the cached job. -/
structure DeclaredJob.Accepted (cr : Crates) (job : DeclaredJob) : Prop where
  validated : job.validated = true
  txids : ∃ txids, job.txidList = some txids
  token : ∃ t, job.allocatedToken = some t
  coinbase : ∃ tx, reconstructCoinbase cr job.coinbaseTxPrefix job.coinbaseTxSuffix = .ok tx ∧
    tx.input.length = 1

/-- What an accepted declaration passed. -/
theorem checkDeclaration_ok {d : DeclareMiningJob}
    {pmts : Option ProvideMissingTransactionsSuccess} {t : JdToken} {txs : List Transaction}
    (h : checkDeclaration cr d pmts = .ok (t, txs)) :
    decodeToken d = some t ∧
      (∃ tx, reconstructCoinbase cr d.coinbaseTxPrefix d.coinbaseTxSuffix = .ok tx ∧
        tx.input.length = 1) ∧
      ∃ p, pmts = some p ∧ txs = p.transactionList.filterMap cr.consensusDecode := by
  unfold checkDeclaration at h
  match htoken : decodeToken d, hcb : reconstructCoinbase cr d.coinbaseTxPrefix
      d.coinbaseTxSuffix, pmts with
  | none, _, _ => simp [htoken] at h
  | some t', .error e, _ => simp [htoken, hcb] at h
  | some t', .ok tx, none =>
    simp only [htoken, hcb] at h
    split_ifs at h with h1 h2 h3
    -- without PMTS the declaration is either coinbase-only or incomplete
    simp at h2 h3
    exact absurd h3 h2
  | some t', .ok tx, some p =>
    simp only [htoken, hcb] at h
    split_ifs at h with h1 h2 h3
    simp only [Except.ok.injEq, Prod.mk.injEq] at h
    obtain ⟨rfl, rfl⟩ := h
    exact ⟨rfl, ⟨tx, rfl, by simpa using h1⟩, p, rfl, rfl⟩

theorem jobFor_accepted {env : Env} {d : DeclareMiningJob}
    {pmts : Option ProvideMissingTransactionsSuccess} {t : JdToken} {txs : List Transaction}
    (h : checkDeclaration cr d pmts = .ok (t, txs)) :
    (jobFor cr w env s d t txs).Accepted cr :=
  ⟨rfl, ⟨_, rfl⟩, ⟨t, rfl⟩, (checkDeclaration_ok h).2.1⟩

/-- Every cached job passed the checks of its declaration. -/
def JobsAccepted (cr : Crates) (s : Engine) : Prop :=
  ∀ r job, s.declaredJobs.lookup r = some job → job.Accepted cr

theorem consume_declaredJobs {t : JdToken} {r : RequestId} {job : DeclaredJob}
    (h : (s.consume t).2.declaredJobs.lookup r = some job) :
    s.declaredJobs.lookup r = some job := by
  unfold Engine.consume at h
  match ht : s.allocatedTokens.lookup t with
  | none => rwa [ht] at h
  | some r' =>
    simp only [ht, DashMap.lookup_erase_eq] at h
    split_ifs at h
    exact h

/-- What the consume leaves was there before. -/
theorem consume_allocatedTokens {t t' : JdToken} {r : RequestId}
    (h : (s.consume t).2.allocatedTokens.lookup t' = some r) :
    s.allocatedTokens.lookup t' = some r := by
  unfold Engine.consume at h
  match ht : s.allocatedTokens.lookup t with
  | none => rwa [ht] at h
  | some r' =>
    simp only [ht, DashMap.lookup_erase_eq] at h
    split_ifs at h
    exact h

theorem MapsStep.jobsAccepted (h : MapsStep cr w s e s') (hs : JobsAccepted cr s) :
    JobsAccepted cr s' := by
  intro r job hjob
  cases h with
  | stored env d pmts t txs hcheck hjobs htokens =>
    rw [hjobs, DashMap.lookup_insert_eq] at hjob
    split_ifs at hjob
    · cases hjob
      exact jobFor_accepted hcheck
    · exact hs r job hjob
  | consumed m t result hjobs htokens =>
    rw [hjobs] at hjob
    exact hs r job (consume_declaredJobs hjob)
  | invalidated newTip hjobs htokens => exact hs r job (hjobs r job hjob)
  | kept _ hdecl hcustom hjobs htokens =>
    rw [hjobs] at hjob
    exact hs r job hjob

theorem Reachable.jobsAccepted (h : Reachable cr w s) : JobsAccepted cr s := by
  obtain ⟨log, h⟩ := h
  refine Trace.invariant (P := JobsAccepted cr)
    (fun _ _ _ hs h => MapsStep.jobsAccepted (CallStep.maps h) hs) h ?_
  intro r job hjob
  simp [Engine.new] at hjob

/-! ## Executing a run -/

variable (cr w)

/-- The state after a list of calls, each with its environment. -/
def Engine.after (s : Engine) : List (Env × Call) → Engine
  | [] => s
  | (env, c) :: calls => Engine.after (c.perform cr w env s).2 calls

/-- The calls with their answers. -/
def Engine.answers (s : Engine) : List (Env × Call) → List Done
  | [] => []
  | (env, c) :: calls =>
    ⟨c, (c.perform cr w env s).1⟩ :: Engine.answers (c.perform cr w env s).2 calls

theorem run_after (calls : List (Env × Call)) : ∀ s : Engine,
    Run cr w s (s.answers cr w calls) (s.after cr w calls) := by
  induction calls with
  | nil => exact fun s => rfl
  | cons call calls ih =>
    intro s
    exact ⟨_, ⟨call.1, rfl⟩, ih _⟩

theorem after_append (calls calls' : List (Env × Call)) : ∀ s : Engine,
    s.after cr w (calls ++ calls') = (s.after cr w calls).after cr w calls' := by
  induction calls with
  | nil => exact fun s => rfl
  | cons call calls ih => exact fun s => ih _

theorem reachable_after (calls : List (Env × Call)) :
    Reachable cr w (Engine.new.after cr w calls) :=
  ⟨_, run_after cr w calls Engine.new⟩

end

/-! ## A small client

    Concrete messages of one client, for the inputs at which the theorems and
    counterexamples of the other modules are instantiated. -/

namespace Sample

/-- The sample identifiers are ASCII. -/
def crates : Crates := .wire id

/-- Everything wired. -/
def wiring : Wiring := ⟨true, true, true⟩

/-- The one transaction of the template. -/
def body : Transaction where
  version := 1
  lockTime := 6
  input := [⟨⟨U256.fill 4, 0⟩, [], 0, []⟩]
  output := [⟨1, []⟩]

/-- Every backend answers. -/
def online : Env :=
  { Env.offline with
    chainTip := some none
    sendRequest := fun _ => true
    txData := fun _ => some (.success [body.serialize])
    validate := fun _ => some .accepted }

/-- A BIP 144 coinbase up to the middle of its 8-byte scriptSig. -/
def coinbaseTxPrefix : Bytes :=
  [2, 0, 0, 0, 0, 1, 1] ++ List.replicate 32 0 ++ List.replicate 4 255 ++ [8, 3, 1, 1, 1]

/-- The rest: sequence, one output with the given script, a one-byte witness
    and the lock time. -/
def coinbaseTxSuffix (script : ScriptBuf) : Bytes :=
  List.replicate 4 255 ++ [1] ++ List.replicate 8 0 ++ [UInt8.ofNat script.length] ++ script ++
    [1, 1, 0, 0, 0, 0, 0]

def coinbase (script : ScriptBuf) (extranonce : Bytes) : Transaction where
  version := 2
  lockTime := 0
  input := [⟨⟨U256.allZeros, 0xffffffff⟩, [3, 1, 1, 1] ++ extranonce, 0xffffffff, [[0]]⟩]
  output := [⟨0, script⟩]

/-- A declaration of the template's transaction; the token is one byte. -/
def declaration (r : RequestId) (token : UInt8) (script : ScriptBuf) : DeclareMiningJob where
  requestId := r
  miningJobToken := token :: List.replicate 7 0
  version := 5
  coinbaseTxPrefix := coinbaseTxPrefix
  coinbaseTxSuffix := coinbaseTxSuffix script
  wtxidList := [crates.computeWtxid body]

def declare (r : RequestId) (token : UInt8) (script : ScriptBuf) : Call :=
  .declare (declaration r token script) (some ⟨[body.serialize]⟩)

/-- The custom job for such a declaration. -/
def customJob (prevHash : BlockHash) (script : ScriptBuf) : SetCustomMiningJob where
  version := 5
  prevHash := prevHash
  minNtime := 0
  nbits := 9
  coinbaseTxVersion := 2
  coinbasePrefix := [3, 1]
  coinbaseTxInputNSequence := 0xffffffff
  coinbaseTxOutputs := (vec txOutCodec).encode [⟨0, script⟩]
  coinbaseTxLocktime := 0
  merklePath := [crates.computeTxid body]

def solution (prevHash : BlockHash) : PushSolution where
  extranonce := [1, 2, 3, 4]
  prevHash := prevHash
  ntime := 0
  nonce := 0
  nbits := 9
  version := 5

/-- The job the declaration caches on a given tip. -/
def job (prevHash : BlockHash) (token : UInt8) (script : ScriptBuf) : DeclaredJob where
  version := 5
  coinbaseTxPrefix := coinbaseTxPrefix
  coinbaseTxSuffix := coinbaseTxSuffix script
  wtxidList := [crates.computeWtxid body]
  txidList := some [crates.computeTxid body]
  tip := ⟨prevHash, 9, 0⟩
  templateId := some 1
  shareChainTip := none
  validated := true
  allocatedToken := some token.toUInt64

/-- The Template Provider announces template 1 on a tip. -/
def announce (prevHash : BlockHash) : List (Env × Call) :=
  [(online, .tdpMessage (.newTemplate ⟨1, false⟩)),
   (online, .tdpMessage (.setNewPrevHash ⟨1, prevHash, 0, 9⟩))]

/-- A client declares a job on the tip `[1; 32]`. -/
def declared : List (Env × Call) :=
  announce (U256.fill 1) ++ [(online, declare 7 3 [9])]

/-- Two clients declare on the same tip, with different coinbases. -/
def twoClients : List (Env × Call) :=
  announce (U256.fill 1) ++ [(online, declare 7 3 [9]), (online, declare 8 4 [8])]

/-- A declaration after a list of calls, from its answer. -/
theorem declare_step (calls : List (Env × Call)) {r : RequestId} {token : UInt8}
    {script : ScriptBuf}
    (hok : (run online.oracle (handleDeclareMiningJob crates wiring (declaration r token script)
      (some ⟨[body.serialize]⟩)) (Engine.new.after crates wiring calls)).1 = .success) :
    CallStep crates wiring (Engine.new.after crates wiring calls) ⟨declare r token script, .success⟩
      (Engine.new.after crates wiring (calls ++ [(online, declare r token script)])) := by
  rw [after_append]
  exact ⟨online, Prod.ext hok.symm rfl⟩

end Sample

end Sv2P2pool
