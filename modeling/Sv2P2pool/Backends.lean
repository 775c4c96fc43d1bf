import Sv2P2pool.Reorg

/-! # The Two Share-Chain Backends

    The engine reads share headers through `ShareChainReader`. `InProcessChain`
    reads the share store itself; `IpcChain` asks the daemon that owns the
    store, over Cap'n Proto. The first maps the genesis sentinel next to the
    store, the second leaves it to the daemon and to the decoder of the reply.
    A walk over either gives the same ancestors.
-/

namespace Sv2P2pool

open ByteCodec Bitcoin Interleave

/-! ## Errors and messages -/

/-- `IpcClientError`, as far as header lookups return it. -/
inductive IpcClientError where
  | capnp (reason : String)
  | blockHashDecode (got : Nat)
  deriving DecidableEq

/-- `StoreError`. -/
inductive StoreError where
  | notFound
  | other (message : String)
  deriving DecidableEq

/-- The shares of a store, by hash, with `prev_share_blockhash`. -/
abbrev ShareStore := BlockHash → Option BlockHash

/-- `ChainStoreHandle::get_share_header`, the field the backends read. -/
def ShareStore.getShareHeader (store : ShareStore) (shareHash : BlockHash) :
    Except StoreError BlockHash :=
  match store shareHash with
  | some prev => .ok prev
  | none => .error .notFound

/-- `share_header_result`: the reply to `getShareHeader` on the wire. -/
inductive ShareHeaderReply where
  | found (prevShareBlockhash : Bytes)
  | notFound
  | genesis
  deriving DecidableEq

/-- The daemon behind the socket: raw hash bytes to a reply, or a failed
    call. -/
abbrev Daemon := Bytes → Except IpcClientError ShareHeaderReply

/-- `iter().all(|b| *b == 0)`. -/
def isAllZeros (h : BlockHash) : Bool := h.bytes.all (· = 0)

/-- The all-zeros predecessor is no predecessor. -/
def prevOpt (prev : BlockHash) : Option BlockHash := if isAllZeros prev then none else some prev

/-! ## `InProcessChain` -/

def InProcessChain.getShareHeader (chain : BlockHash → Except StoreError BlockHash)
    (shareHash : BlockHash) : Except IpcClientError ShareHeaderLookup :=
  if isAllZeros shareHash then .ok .genesis
  else
    match chain shareHash with
    | .ok prev => .ok (.found (prevOpt prev))
    | .error .notFound => .ok .notFound
    | .error (.other e) => .error (.capnp ("get_share_header: " ++ e))

/-! ## `IpcChain` -/

def decodeBlockHash (bytes : Bytes) : Except IpcClientError BlockHash :=
  if h : bytes.length = 32 then .ok ⟨bytes, h⟩ else .error (.blockHashDecode bytes.length)

def Sv2P2poolIpcClient.getShareHeader (daemon : Daemon) (shareHash : BlockHash) :
    Except IpcClientError ShareHeaderLookup := do
  match ← daemon shareHash.bytes with
  | .found prevBytes => do
    let prev ← decodeBlockHash prevBytes
    .ok (.found (prevOpt prev))
  | .notFound => .ok .notFound
  | .genesis => .ok .genesis

/-- Constructor by constructor: the client's type and the engine's are one. -/
def mapLookup : ShareHeaderLookup → ShareHeaderLookup
  | .found prevShareBlockhash => .found prevShareBlockhash
  | .notFound => .notFound
  | .genesis => .genesis

/-- The `GetShareHeader` request of the actor. -/
def IpcChain.getShareHeader (daemon : Daemon) (shareHash : BlockHash) :
    Except IpcClientError ShareHeaderLookup :=
  (Sv2P2poolIpcClient.getShareHeader daemon shareHash).map mapLookup

/-- How the schema documents `getShareHeader` for a given store. -/
structure Daemon.Documented (daemon : Daemon) (store : ShareStore) : Prop where
  genesis : daemon U256.allZeros.bytes = .ok .genesis
  found : ∀ h prev, h ≠ U256.allZeros → store h = some prev →
    daemon h.bytes = .ok (.found prev.bytes)
  notFound : ∀ h, h ≠ U256.allZeros → store h = none → daemon h.bytes = .ok .notFound

section

variable {store : ShareStore} {daemon : Daemon}

theorem isAllZeros_iff (h : BlockHash) : isAllZeros h = true ↔ h = U256.allZeros := by
  obtain ⟨bytes, hlen⟩ := h
  unfold isAllZeros U256.allZeros U256.fill
  simp only [List.all_eq_true, decide_eq_true_eq, U256.mk.injEq]
  constructor
  · intro hall
    exact List.eq_replicate_iff.mpr ⟨hlen, hall⟩
  · intro heq b hb
    rw [heq] at hb
    exact List.eq_of_mem_replicate hb

theorem decodeBlockHash_bytes (h : BlockHash) : decodeBlockHash h.bytes = .ok h := by
  unfold decodeBlockHash
  rw [dif_pos h.length_eq]

/-- A lookup is the same on both paths. -/
theorem getShareHeader_eq (hdoc : daemon.Documented store) (h : BlockHash) :
    IpcChain.getShareHeader daemon h = InProcessChain.getShareHeader store.getShareHeader h := by
  unfold IpcChain.getShareHeader Sv2P2poolIpcClient.getShareHeader InProcessChain.getShareHeader
    ShareStore.getShareHeader
  by_cases hzero : h = U256.allZeros
  · rw [if_pos ((isAllZeros_iff h).mpr hzero), hzero, hdoc.genesis]
    rfl
  · rw [if_neg (by rwa [isAllZeros_iff])]
    cases hstore : store h with
    | none =>
      rw [hdoc.notFound h hzero hstore]
      rfl
    | some prev =>
      -- the reply carries a stored hash, so the decoder accepts its length
      rw [hdoc.found h prev hzero hstore]
      show Except.map mapLookup ((decodeBlockHash prev.bytes).bind fun prev =>
        .ok (.found (prevOpt prev))) = _
      rw [decodeBlockHash_bytes]
      rfl

/-! ## Whole reorgs -/

/-- What a reorg keeps depends on the header lookups only. -/
theorem keeps_congr {env env' : Env} (heq : env.shareHeader = env'.shareHeader) (w : Wiring)
    (newTip : BlockHash) (s : Engine) : env.keeps w newTip s = env'.keeps w newTip s := by
  funext job
  rw [Bool.eq_iff_iff, keeps_eq_true_iff, keeps_eq_true_iff, heq]

/-- Both backends answer every lookup alike, and a reorg notification leaves
    the same engine with either. -/
theorem backends_agree (hdoc : daemon.Documented store) :
    (∀ h, IpcChain.getShareHeader daemon h =
      InProcessChain.getShareHeader store.getShareHeader h) ∧
    (∀ h, h ≠ U256.allZeros → store h = some U256.allZeros →
      IpcChain.getShareHeader daemon h = .ok (.found none) ∧
        InProcessChain.getShareHeader store.getShareHeader h = .ok (.found none)) ∧
    ∀ (w : Wiring) (env env' : Env) (s : Engine) (newTip : BlockHash),
      (∀ h, env.shareHeader h =
        (InProcessChain.getShareHeader store.getShareHeader h).toOption) →
      (∀ h, env'.shareHeader h = (IpcChain.getShareHeader daemon h).toOption) →
      run env.oracle (notifyShareChainReorg w newTip) s =
        run env'.oracle (notifyShareChainReorg w newTip) s := by
  refine ⟨getShareHeader_eq hdoc, ?_, ?_⟩
  · intro h hne hstore
    have hlocal : InProcessChain.getShareHeader store.getShareHeader h = .ok (.found none) := by
      have hzero : isAllZeros U256.allZeros = true := (isAllZeros_iff _).mpr rfl
      unfold InProcessChain.getShareHeader ShareStore.getShareHeader
      rw [if_neg (by rwa [isAllZeros_iff]), hstore]
      simp [prevOpt, hzero]
    exact ⟨(getShareHeader_eq hdoc h).trans hlocal, hlocal⟩
  · intro w env env' s newTip hlocal hipc
    have heq : env.shareHeader = env'.shareHeader := by
      funext h
      rw [hlocal h, hipc h, getShareHeader_eq hdoc h]
    rw [run_reorg, run_reorg, keeps_congr heq]

end

/-! ## A daemon -/

/-- The daemon that serves a store. -/
def ShareStore.serve (store : ShareStore) : Daemon := fun bytes =>
  match decodeBlockHash bytes with
  | .error e => .error e
  | .ok h =>
    if isAllZeros h then .ok .genesis
    else
      match store h with
      | some prev => .ok (.found prev.bytes)
      | none => .ok .notFound

theorem serve_documented (store : ShareStore) : store.serve.Documented store where
  genesis := rfl
  found := by
    intro h prev hne hstore
    have hnonzero : ¬ isAllZeros h = true := by rwa [isAllZeros_iff]
    simp [ShareStore.serve, decodeBlockHash_bytes, hnonzero, hstore]
  notFound := by
    intro h hne hstore
    have hnonzero : ¬ isAllZeros h = true := by rwa [isAllZeros_iff]
    simp [ShareStore.serve, decodeBlockHash_bytes, hnonzero, hstore]

/-- The shares `[1; 32]`, `[2; 32]` and `[3; 32]`, each on the one before. -/
def shareStore : ShareStore := fun h =>
  if h = U256.fill 3 then some (U256.fill 2)
  else if h = U256.fill 2 then some (U256.fill 1)
  else if h = U256.fill 1 then some U256.allZeros
  else none

/-- A reorg over that store, in process and over the socket. -/
theorem backends_agree_on_shares :
    let env := { Env.offline with
      shareHeader := fun h => (InProcessChain.getShareHeader shareStore.getShareHeader h).toOption }
    let env' := { Env.offline with
      shareHeader := fun h => (IpcChain.getShareHeader shareStore.serve h).toOption }
    let s := { Engine.new with
      declaredJobs := ((∅ : DashMap RequestId DeclaredJob).insert 7
        (jobOnShare (U256.fill 9))).insert 8 (jobOnShare (U256.fill 1)) }
    run env.oracle (notifyShareChainReorg ⟨true, true, true⟩ (U256.fill 3)) s =
        run env'.oracle (notifyShareChainReorg ⟨true, true, true⟩ (U256.fill 3)) s ∧
      (run env'.oracle (notifyShareChainReorg ⟨true, true, true⟩ (U256.fill 3)) s).2.counters
        .jobsInvalidatedTotal = 1 := by
  intro env env' s
  refine ⟨?_, by decide +kernel⟩
  exact (backends_agree (serve_documented shareStore)).2.2 _ env env' s _ (fun _ => rfl)
    fun _ => rfl

end Sv2P2pool
