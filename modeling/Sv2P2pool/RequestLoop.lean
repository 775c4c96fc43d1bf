import Sv2P2pool.Framework.Linearizable
import Sv2P2pool.Backends
import Sv2P2pool.TipActor
import Mathlib.Algebra.BigOperators.Group.Finset.Piecewise
import Mathlib.Algebra.Order.BigOperators.Group.Finset

/-! # The Request Loop of the IPC Actor (`share_chain.rs`)

    A read through `IpcChain` is a message to the actor thread with a oneshot
    channel for the answer. The actor's loop spawns a task for each message,
    which calls the daemon and sends the answer. The daemon's store moves
    meanwhile, callers may drop their futures, the connection may fail and the
    thread may die.

    A caller cannot tell all this from `InProcessChain`: each read takes
    effect at one moment between call and return, except that it may also fail
    with a connection that may. And no caller waits for the answer of another.
-/

namespace Sv2P2pool

open ByteCodec Bitcoin Linearize

/-! ## The reads -/

/-- The share chain, as the reads see it. -/
structure ChainStore where
  tip : Option BlockHash
  height : Option UInt32
  shares : ShareStore

/-- A request, without its reply channel. -/
inductive IpcRequest where
  | getChainTip
  | getShareHeader (shareHash : BlockHash)
  | getTipHeight
  deriving DecidableEq

inductive IpcAnswer where
  | chainTip (tip : Option BlockHash)
  | shareHeader (lookup : ShareHeaderLookup)
  | tipHeight (height : Option UInt32)
  deriving DecidableEq

abbrev IpcResult := Except IpcClientError IpcAnswer

/-- `chain_tip_result`: the reply to `getChainTip` on the wire. -/
inductive ChainTipReply where
  | tip (bytes : Bytes)
  | uninitialised

/-- The daemon at one moment: its reply to each call, or a failed call. -/
structure DaemonReads where
  chainTip : Except IpcClientError ChainTipReply
  shareHeader : Daemon
  tipHeight : Except IpcClientError TipHeightResult

def Sv2P2poolIpcClient.getChainTip (daemon : DaemonReads) :
    Except IpcClientError ChainTipResult := do
  match ← daemon.chainTip with
  | .tip bytes => do
    let tip ← decodeBlockHash bytes
    .ok (.tip tip)
  | .uninitialised => .ok .uninitialised

def Sv2P2poolIpcClient.getTipHeight (daemon : DaemonReads) :
    Except IpcClientError TipHeightResult := do
  match ← daemon.tipHeight with
  | .height h => .ok (.height h)
  | .uninitialised => .ok .uninitialised

/-- What the task of a request sends back. -/
def IpcChain.answer (daemon : DaemonReads) : IpcRequest → IpcResult
  | .getChainTip => (Sv2P2poolIpcClient.getChainTip daemon).map fun
    | .tip tip => .chainTip (some tip)
    | .uninitialised => .chainTip none
  | .getShareHeader shareHash =>
    (IpcChain.getShareHeader daemon.shareHeader shareHash).map .shareHeader
  | .getTipHeight => (Sv2P2poolIpcClient.getTipHeight daemon).map fun
    | .height height => .tipHeight (some height)
    | .uninitialised => .tipHeight none

def InProcessChain.getChainTip (chain : Except StoreError BlockHash) :
    Except IpcClientError (Option BlockHash) :=
  match chain with
  | .ok tip => .ok (some tip)
  | .error .notFound => .ok none
  | .error (.other e) => .error (.capnp ("get_chain_tip: " ++ e))

/-- `e` is the error as it is displayed. -/
def InProcessChain.getTipHeight (chain : Except String (Option UInt32)) :
    Except IpcClientError (Option UInt32) :=
  chain.mapError fun e => .capnp ("get_tip_height: " ++ e)

/-- `ChainStoreHandle::get_chain_tip`. -/
def ChainStore.getChainTip (store : ChainStore) : Except StoreError BlockHash :=
  match store.tip with
  | some tip => .ok tip
  | none => .error .notFound

/-- The three reads of `InProcessChain`. -/
def InProcessChain.answer (store : ChainStore) : IpcRequest → IpcResult
  | .getChainTip => (InProcessChain.getChainTip store.getChainTip).map .chainTip
  | .getShareHeader shareHash =>
    (InProcessChain.getShareHeader store.shares.getShareHeader shareHash).map .shareHeader
  | .getTipHeight => (InProcessChain.getTipHeight (.ok store.height)).map .tipHeight

/-- How the schema documents the three calls for a given store. -/
structure DaemonReads.Documented (daemon : DaemonReads) (store : ChainStore) : Prop where
  tip : ∀ tip, store.tip = some tip → daemon.chainTip = .ok (.tip tip.bytes)
  noTip : store.tip = none → daemon.chainTip = .ok .uninitialised
  shareHeader : daemon.shareHeader.Documented store.shares
  height : ∀ height, store.height = some height → daemon.tipHeight = .ok (.height height)
  noHeight : store.height = none → daemon.tipHeight = .ok .uninitialised

/-- Both backends read a store alike. -/
theorem IpcChain.answer_eq {daemon : DaemonReads} {store : ChainStore}
    (hdoc : daemon.Documented store) (request : IpcRequest) :
    IpcChain.answer daemon request = InProcessChain.answer store request := by
  cases request with
  | getChainTip =>
    unfold IpcChain.answer InProcessChain.answer InProcessChain.getChainTip ChainStore.getChainTip
    cases htip : store.tip with
    | none =>
      have hclient : Sv2P2poolIpcClient.getChainTip daemon = .ok .uninitialised := by
        unfold Sv2P2poolIpcClient.getChainTip
        rw [hdoc.noTip htip]
        rfl
      rw [hclient]
      rfl
    | some tip =>
      have hclient : Sv2P2poolIpcClient.getChainTip daemon = .ok (.tip tip) := by
        unfold Sv2P2poolIpcClient.getChainTip
        rw [hdoc.tip tip htip]
        show (decodeBlockHash tip.bytes).bind (fun tip => .ok (ChainTipResult.tip tip)) = _
        rw [decodeBlockHash_bytes]
        rfl
      rw [hclient]
      rfl
  | getShareHeader shareHash =>
    show Except.map _ (IpcChain.getShareHeader daemon.shareHeader shareHash) = _
    rw [getShareHeader_eq hdoc.shareHeader]
    rfl
  | getTipHeight =>
    unfold IpcChain.answer InProcessChain.answer Sv2P2poolIpcClient.getTipHeight
    cases hheight : store.height with
    | none =>
      rw [hdoc.noHeight hheight]
      rfl
    | some height =>
      rw [hdoc.height height hheight]
      rfl

/-! ## The actor and its callers -/

/-- Where a request is; requests are numbered. -/
inductive RequestPlace where
  /-- Not in the request channel yet, or never. -/
  | unsent
  | queued (request : IpcRequest)
  /-- Its task has not been polled yet. -/
  | spawned (request : IpcRequest)
  /-- Its task waits for the daemon. -/
  | calling (request : IpcRequest)
  | replied (result : IpcResult)
  /-- In the oneshot channel. -/
  | delivered (result : IpcResult)
  /-- Dropped by the actor, with the sender of the oneshot channel. -/
  | dropped

/-- What becomes of a request when the actor ends. -/
def RequestPlace.drop : RequestPlace → RequestPlace
  | .unsent => .unsent
  | .delivered result => .delivered result
  | .queued _ | .spawned _ | .calling _ | .replied _ | .dropped => .dropped

inductive Caller where
  | idle
  /-- At `cmd_tx.send(..).await`. -/
  | sending (number : Nat) (request : IpcRequest)
  /-- At `reply_rx.await`. -/
  | awaiting (number : Nat) (request : IpcRequest)
  | returning (result : IpcResult)

/-- The request a caller is after. A caller that is after one holds a clone of
    the actor handle. -/
def Caller.number? : Caller → Option Nat
  | .idle => none
  | .sending number _ => some number
  | .awaiting number _ => some number
  | .returning _ => none

structure RequestLoop (ι : Type) where
  /-- What the daemon serves. -/
  store : ChainStore
  /-- The `IpcChain` has not been dropped. -/
  handle : Bool
  /-- The actor holds `cmd_rx`. -/
  alive : Bool
  /-- The request channel. -/
  queue : List Nat
  requests : Nat → RequestPlace
  /-- The requests so far. -/
  count : Nat
  callers : ι → Caller

def IpcChain.requestChannelCapacity : Nat := 256

def IpcChain.requestChannelClosed : IpcClientError :=
  .capnp "IpcChain actor request channel closed"

def IpcChain.droppedReplyChannel : IpcClientError :=
  .capnp "IpcChain actor dropped reply channel"

namespace RequestLoop

variable {ι : Type} [DecidableEq ι]

def init (ι : Type) (store : ChainStore) : RequestLoop ι :=
  ⟨store, true, true, [], fun _ => .unsent, 0, fun _ => .idle⟩

def setCaller (s : RequestLoop ι) (i : ι) (caller : Caller) : RequestLoop ι :=
  { s with callers := Function.update s.callers i caller }

def place (s : RequestLoop ι) (n : Nat) (p : RequestPlace) : RequestLoop ι :=
  { s with requests := Function.update s.requests n p }

/-- `actor_main` returns or panics: the channel and the tasks are dropped. -/
def shut (s : RequestLoop ι) : RequestLoop ι :=
  { s with alive := false, queue := [], requests := fun n => (s.requests n).drop }

/-- What the process does on its own, once callers have called. -/
inductive Work : RequestLoop ι → RequestLoop ι → Prop
  | send {s : RequestLoop ι} (i : ι) (n : Nat) (request : IpcRequest)
      (h : s.callers i = .sending n request) (halive : s.alive = true)
      (hroom : s.queue.length < IpcChain.requestChannelCapacity) :
      Work s ({ s with queue := s.queue ++ [n] }.place n (.queued request)
        |>.setCaller i (.awaiting n request))
  | sendClosed {s : RequestLoop ι} (i : ι) (n : Nat) (request : IpcRequest)
      (h : s.callers i = .sending n request) (hdead : s.alive = false) :
      Work s (s.setCaller i (.returning (.error IpcChain.requestChannelClosed)))
  /-- `cmd_rx.recv()`, and `spawn_local`. -/
  | recv {s : RequestLoop ι} (n : Nat) (rest : List Nat) (request : IpcRequest)
      (h : s.queue = n :: rest) (hn : s.requests n = .queued request) :
      Work s ({ s with queue := rest }.place n (.spawned request))
  /-- `cmd_rx.recv()` on a closed channel. -/
  | recvClosed {s : RequestLoop ι} (halive : s.alive = true) (h : s.queue = [])
      (hhandle : s.handle = false) (hcallers : ∀ i, (s.callers i).number? = none) :
      Work s s.shut
  | poll {s : RequestLoop ι} (n : Nat) (request : IpcRequest)
      (h : s.requests n = .spawned request) : Work s (s.place n (.calling request))
  /-- `reply.send(result)`. -/
  | reply {s : RequestLoop ι} (n : Nat) (result : IpcResult)
      (h : s.requests n = .replied result) : Work s (s.place n (.delivered result))
  | wake {s : RequestLoop ι} (i : ι) (n : Nat) (request : IpcRequest) (result : IpcResult)
      (h : s.callers i = .awaiting n request) (hn : s.requests n = .delivered result) :
      Work s (s.setCaller i (.returning result))
  | wakeDropped {s : RequestLoop ι} (i : ι) (n : Nat) (request : IpcRequest)
      (h : s.callers i = .awaiting n request) (hn : s.requests n = .dropped) :
      Work s (s.setCaller i (.returning (.error IpcChain.droppedReplyChannel)))

variable (daemon : ChainStore → DaemonReads) (faulty : Bool)

/-- Callers, process and daemon. Calls fail and the thread dies only in a
    `faulty` world. -/
inductive Step : System (RequestLoop ι) (Event ι IpcRequest IpcResult ChainStore)
  | call {s : RequestLoop ι} (i : ι) (request : IpcRequest) (h : s.callers i = .idle)
      (hhandle : s.handle = true) :
      Step s (some (.call i request))
        ({ s with count := s.count + 1 }.setCaller i (.sending s.count request))
  | work {s s' : RequestLoop ι} (h : Work s s') : Step s none s'
  | ret {s : RequestLoop ι} (i : ι) (result : IpcResult) (h : s.callers i = .returning result) :
      Step s (some (.ret i result)) (s.setCaller i .idle)
  /-- The caller drops its future. -/
  | cancel {s : RequestLoop ι} (i : ι) (h : s.callers i ≠ .idle) :
      Step s (some (.cancel i)) (s.setCaller i .idle)
  | dropHandle {s : RequestLoop ι} : Step s none { s with handle := false }
  /-- The daemon answers a call. -/
  | answer {s : RequestLoop ι} (n : Nat) (request : IpcRequest)
      (h : s.requests n = .calling request) :
      Step s none (s.place n (.replied (IpcChain.answer (daemon s.store) request)))
  | moved {s : RequestLoop ι} (store : ChainStore) :
      Step s (some (.moved store)) { s with store := store }
  | callFailed {s : RequestLoop ι} (n : Nat) (request : IpcRequest) (reason : String)
      (hfaulty : faulty = true) (h : s.requests n = .calling request) :
      Step s none (s.place n (.replied (.error (.capnp reason))))
  | crash {s : RequestLoop ι} (hfaulty : faulty = true) (halive : s.alive = true) :
      Step s none s.shut

end RequestLoop

/-- Reads of the store in process, that may fail when `faulty`. -/
def chainReads (faulty : Bool) : Object IpcRequest IpcResult ChainStore where
  effect store request := (InProcessChain.answer store request, store)
  failure result := faulty = true ∧ ∃ reason, result = .error (.capnp reason)

/-! ## The simulation -/

/-- The request has a task. -/
def RequestPlace.isTask : RequestPlace → Bool
  | .spawned _ | .calling _ | .replied _ => true
  | .unsent | .queued _ | .delivered _ | .dropped => false

/-- How far the read of a request has got, for a caller that waits for it: it
    takes effect when the daemon answers. -/
def RequestPlace.Matches (faulty : Bool) (request : IpcRequest) :
    RequestPlace → Status IpcRequest IpcResult → Prop
  | .unsent, _ => False
  | .queued request', st | .spawned request', st | .calling request', st =>
    request' = request ∧ st = .pending request
  | .replied result, st | .delivered result, st => st = .done result
  | .dropped, st => faulty = true ∧ st ≠ .idle

def Caller.Matches (faulty : Bool) (requests : Nat → RequestPlace) :
    Caller → Status IpcRequest IpcResult → Prop
  | .idle, st => st = .idle
  | .sending n request, st => requests n = .unsent ∧ st = .pending request
  | .awaiting n request, st => (requests n).Matches faulty request st
  | .returning result, st => st = .done result

/-- Only a caller that waits for request `n` looks at its place. -/
theorem Caller.Matches.congr {faulty : Bool} {requests requests' : Nat → RequestPlace}
    {c : Caller} {st : Status IpcRequest IpcResult} (h : c.Matches faulty requests st)
    (heq : ∀ n, c.number? = some n → requests' n = requests n) :
    c.Matches faulty requests' st := by
  cases c with
  | idle => exact h
  | returning result => exact h
  | sending n request => exact ⟨(heq n rfl).trans h.1, h.2⟩
  | awaiting n request =>
    show (requests' n).Matches faulty request st
    rw [heq n rfl]
    exact h

namespace RequestLoop

variable {ι : Type} [DecidableEq ι] {s s' : RequestLoop ι}

/-- The numbering of the requests. -/
structure Numbered (s : RequestLoop ι) : Prop where
  fresh : ∀ n, s.count ≤ n → s.requests n = .unsent
  held : ∀ i n, (s.callers i).number? = some n → n < s.count
  owner : ∀ i j n, (s.callers i).number? = some n → (s.callers j).number? = some n → i = j
  nodup : s.queue.Nodup
  capacity : s.queue.length ≤ IpcChain.requestChannelCapacity
  queued : ∀ n ∈ s.queue, ∃ request, s.requests n = .queued request
  mem_queue : ∀ n request, s.requests n = .queued request → n ∈ s.queue
  dead : s.alive = false → ∀ n, (s.requests n).drop = s.requests n

omit [DecidableEq ι] in
theorem Numbered.lt_count (h : s.Numbered) {n : Nat} (hn : s.requests n ≠ .unsent) :
    n < s.count := by
  by_contra hlt
  exact hn (h.fresh n (by omega))

theorem Numbered.setCaller (h : s.Numbered) {i : ι} {c : Caller}
    (hc : ∀ n, c.number? = some n → (s.callers i).number? = some n) :
    (s.setCaller i c).Numbered := by
  have hsome : ∀ j n, ((s.setCaller i c).callers j).number? = some n →
      (s.callers j).number? = some n := by
    intro j n hj
    by_cases hji : j = i
    · subst hji
      exact hc n (by simpa [RequestLoop.setCaller] using hj)
    · simpa [RequestLoop.setCaller, hji] using hj
  exact { h with
    held := fun j n hj => h.held j n (hsome j n hj)
    owner := fun j k n hj hk => h.owner j k n (hsome j n hj) (hsome k n hk) }

omit [DecidableEq ι] in
/-- A task moves on. -/
theorem Numbered.place (h : s.Numbered) {n : Nat} {p : RequestPlace}
    (hold : (s.requests n).isTask = true) (hnew : ∀ request, p ≠ .queued request) :
    (s.place n p).Numbered := by
  have hlt : n < s.count := h.lt_count fun hn => by simp [hn, RequestPlace.isTask] at hold
  refine { h with fresh := fun m hm => ?_, queued := fun m hm => ?_,
                  mem_queue := fun m request hm => ?_, dead := fun hdead => ?_ }
  · have hmn : m ≠ n := by
      intro heq
      rw [heq] at hm
      exact absurd hlt (Nat.not_lt.mpr hm)
    simpa [RequestLoop.place, hmn] using h.fresh m hm
  · obtain ⟨request, hrequest⟩ := h.queued m hm
    have hmn : m ≠ n := by
      intro heq
      rw [heq] at hrequest
      simp [hrequest, RequestPlace.isTask] at hold
    exact ⟨request, by simpa [RequestLoop.place, hmn] using hrequest⟩
  · by_cases hmn : m = n
    · subst hmn
      exact absurd (by simpa [RequestLoop.place] using hm) (hnew request)
    · exact h.mem_queue m request (by simpa [RequestLoop.place, hmn] using hm)
  · have hdrop := h.dead hdead n
    cases hn : s.requests n with
    | spawned request => simp [hn, RequestPlace.drop] at hdrop
    | calling request => simp [hn, RequestPlace.drop] at hdrop
    | replied result => simp [hn, RequestPlace.drop] at hdrop
    | _ => simp [hn, RequestPlace.isTask] at hold

omit [DecidableEq ι] in
theorem Numbered.recv (h : s.Numbered) {n : Nat} {rest : List Nat} {request : IpcRequest}
    (hqueue : s.queue = n :: rest) (hn : s.requests n = .queued request) :
    ({ s with queue := rest }.place n (.spawned request)).Numbered := by
  have hnodup := h.nodup
  have hcapacity := h.capacity
  rw [hqueue] at hnodup hcapacity
  obtain ⟨hrest, hnodup⟩ := List.nodup_cons.mp hnodup
  have hlt : n < s.count := h.lt_count (by simp [hn])
  refine { h with fresh := fun m hm => ?_, nodup := hnodup, capacity := ?_,
                  queued := fun m hm => ?_, mem_queue := fun m request' hm => ?_,
                  dead := fun hdead => ?_ }
  · have hmn : m ≠ n := by
      intro heq
      rw [heq] at hm
      exact absurd hlt (Nat.not_lt.mpr hm)
    simpa [RequestLoop.place, hmn] using h.fresh m hm
  · exact Nat.le_of_succ_le hcapacity
  · have hmn : m ≠ n := by
      intro heq
      rw [heq] at hm
      exact hrest hm
    obtain ⟨request', hrequest⟩ := h.queued m (by rw [hqueue]; exact List.mem_cons_of_mem _ hm)
    exact ⟨request', by simpa [RequestLoop.place, hmn] using hrequest⟩
  · by_cases hmn : m = n
    · subst hmn
      simp [RequestLoop.place] at hm
    · have hmem := h.mem_queue m request' (by simpa [RequestLoop.place, hmn] using hm)
      rw [hqueue] at hmem
      exact (List.mem_cons.mp hmem).resolve_left hmn
  · have hdrop := h.dead hdead n
    simp [hn, RequestPlace.drop] at hdrop

theorem Numbered.send (h : s.Numbered) {i : ι} {n : Nat} {request : IpcRequest}
    (hi : s.callers i = .sending n request) (hn : s.requests n = .unsent)
    (halive : s.alive = true) (hroom : s.queue.length < IpcChain.requestChannelCapacity) :
    ({ s with queue := s.queue ++ [n] }.place n (.queued request)
      |>.setCaller i (.awaiting n request)).Numbered := by
  have hheld : (s.callers i).number? = some n := by simp [hi, Caller.number?]
  have hlt : n < s.count := h.held i n hheld
  have hnot : n ∉ s.queue := by
    intro hmem
    obtain ⟨request', hrequest⟩ := h.queued n hmem
    simp [hn] at hrequest
  refine Numbered.setCaller (s := { s with queue := s.queue ++ [n] }.place n (.queued request))
    ?_ fun m hm => ?_
  · refine { h with fresh := fun m hm => ?_, nodup := ?_, capacity := ?_,
                    queued := fun m hm => ?_, mem_queue := fun m request' hm => ?_,
                    dead := fun hdead => ?_ }
    · have hmn : m ≠ n := by
        intro heq
        rw [heq] at hm
        exact absurd hlt (Nat.not_lt.mpr hm)
      simpa [RequestLoop.place, hmn] using h.fresh m hm
    · refine List.nodup_append.mpr ⟨h.nodup, by simp, fun a ha b hb heq => ?_⟩
      rw [heq, List.mem_singleton.mp hb] at ha
      exact hnot ha
    · show (s.queue ++ [n]).length ≤ _
      rw [List.length_append]
      exact hroom
    · by_cases hmn : m = n
      · subst hmn
        exact ⟨request, by simp [RequestLoop.place]⟩
      · have hmem : m ∈ s.queue := by simpa [RequestLoop.place, hmn] using hm
        obtain ⟨request', hrequest⟩ := h.queued m hmem
        exact ⟨request', by simpa [RequestLoop.place, hmn] using hrequest⟩
    · by_cases hmn : m = n
      · subst hmn
        simp [RequestLoop.place]
      · have hmem := h.mem_queue m request' (by simpa [RequestLoop.place, hmn] using hm)
        exact List.mem_append_left _ hmem
    · have hdead : s.alive = false := hdead
      simp [halive] at hdead
  · rw [← hm]
    exact hheld

omit [DecidableEq ι] in
theorem Numbered.shut (h : s.Numbered) : s.shut.Numbered where
  fresh n hn := by
    show (s.requests n).drop = .unsent
    rw [h.fresh n hn]
    rfl
  held := h.held
  owner := h.owner
  nodup := List.nodup_nil
  capacity := Nat.zero_le _
  queued n hn := by cases hn
  mem_queue n request hn := by
    have hdrop : (s.requests n).drop = .queued request := hn
    cases hplace : s.requests n <;> simp [hplace, RequestPlace.drop] at hdrop
  dead _ n := by
    show (s.requests n).drop.drop = (s.requests n).drop
    cases s.requests n <;> rfl

theorem Numbered.call (h : s.Numbered) (i : ι) (request : IpcRequest) :
    ({ s with count := s.count + 1 }.setCaller i (.sending s.count request)).Numbered := by
  have hsome : ∀ j n, (Function.update s.callers i (.sending s.count request) j).number? = some n →
      j = i ∧ n = s.count ∨ j ≠ i ∧ (s.callers j).number? = some n := by
    intro j n hj
    by_cases hji : j = i
    · subst hji
      exact .inl ⟨rfl, by simpa [Caller.number?, eq_comm] using hj⟩
    · exact .inr ⟨hji, by simpa [hji] using hj⟩
  refine { h with fresh := fun n hn => h.fresh n (Nat.le_of_succ_le hn),
                  held := fun j n hj => ?_, owner := fun j k n hj hk => ?_ }
  · obtain ⟨-, rfl⟩ | ⟨-, hj⟩ := hsome j n hj
    · exact Nat.lt_succ_self _
    · exact Nat.lt_succ_of_lt (h.held j n hj)
  · -- the new number is held by nobody else
    obtain ⟨hji, hjn⟩ | ⟨-, hj'⟩ := hsome j n hj <;>
      obtain ⟨hki, hkn⟩ | ⟨-, hk'⟩ := hsome k n hk
    · exact hji.trans hki.symm
    · rw [hjn] at hk'
      exact absurd (h.held k _ hk') (Nat.lt_irrefl _)
    · rw [hkn] at hj'
      exact absurd (h.held j _ hj') (Nat.lt_irrefl _)
    · exact h.owner j k n hj' hk'

/-- The system, and reads that take effect at once. -/
structure Reads (faulty : Bool) (s : RequestLoop ι) (a : Atomic ι IpcRequest IpcResult ChainStore) :
    Prop where
  numbered : s.Numbered
  value : a.value = s.store
  callers : ∀ i, (s.callers i).Matches faulty s.requests (a.status i)
  /-- The actor ends when nobody needs it, unless it dies. -/
  ended : faulty = false → s.alive = false →
    s.handle = false ∧ ∀ i, (s.callers i).number? = none

variable {faulty : Bool} {a a' : Atomic ι IpcRequest IpcResult ChainStore}

theorem Reads.setCaller (h : Reads faulty s a) {i : ι} {c : Caller}
    {st : Status IpcRequest IpcResult}
    (hc : ∀ n, c.number? = some n → (s.callers i).number? = some n)
    (hst : c.Matches faulty s.requests st) :
    Reads faulty (s.setCaller i c) ⟨a.value, Function.update a.status i st⟩ where
  numbered := h.numbered.setCaller hc
  value := h.value
  callers j := by
    by_cases hji : j = i
    · subst hji
      simpa [RequestLoop.setCaller] using hst
    · simpa [RequestLoop.setCaller, hji] using h.callers j
  ended hfaulty hdead := by
    obtain ⟨hhandle, hnone⟩ := h.ended hfaulty hdead
    refine ⟨hhandle, fun j => ?_⟩
    by_cases hji : j = i
    · subst hji
      refine Option.eq_none_iff_forall_not_mem.mpr fun n hn => ?_
      have hheld := hc n (by simpa [RequestLoop.setCaller] using hn)
      rw [hnone j] at hheld
      cases hheld
    · simpa [RequestLoop.setCaller, hji] using hnone j

omit [DecidableEq ι] in
/-- Whoever is after a request that is sent awaits its reply. -/
theorem Reads.awaiting (h : Reads faulty s a) {n : Nat} (hn : s.requests n ≠ .unsent) {i : ι}
    (hi : (s.callers i).number? = some n) : ∃ request, s.callers i = .awaiting n request := by
  have hmatches := h.callers i
  cases hc : s.callers i with
  | idle => simp [hc, Caller.number?] at hi
  | returning result => simp [hc, Caller.number?] at hi
  | sending m request =>
    obtain rfl : m = n := by simpa [hc, Caller.number?] using hi
    rw [hc] at hmatches
    exact absurd hmatches.1 hn
  | awaiting m request =>
    obtain rfl : m = n := by simpa [hc, Caller.number?] using hi
    exact ⟨request, rfl⟩

omit [DecidableEq ι] in
theorem Reads.place (h : Reads faulty s a) {n : Nat} {p : RequestPlace}
    (hold : (s.requests n).isTask = true) (hnew : ∀ request, p ≠ .queued request)
    (hvalue : a'.value = a.value)
    (hothers : ∀ i, (s.callers i).number? ≠ some n → a'.status i = a.status i)
    (hholder : ∀ i request, s.callers i = .awaiting n request →
      p.Matches faulty request (a'.status i)) :
    Reads faulty (s.place n p) a' where
  numbered := h.numbered.place hold hnew
  value := hvalue.trans h.value
  callers i := by
    show (s.callers i).Matches faulty (Function.update s.requests n p) (a'.status i)
    by_cases hi : (s.callers i).number? = some n
    · have hsent : s.requests n ≠ .unsent := fun hn => by simp [hn, RequestPlace.isTask] at hold
      obtain ⟨request, hrequest⟩ := h.awaiting hsent hi
      rw [hrequest]
      show (Function.update s.requests n p n).Matches faulty request (a'.status i)
      rw [Function.update_self]
      exact hholder i request hrequest
    · rw [hothers i hi]
      refine (h.callers i).congr fun m hm => Function.update_of_ne ?_ _ _
      intro hmn
      exact hi (hmn ▸ hm)
  ended := h.ended

omit [DecidableEq ι] in
/-- A task goes on, and for its caller nothing has changed. -/
theorem Reads.proceed (h : Reads faulty s a) {n : Nat} {p : RequestPlace}
    (hold : (s.requests n).isTask = true) (hnew : ∀ request, p ≠ .queued request)
    (hst : ∀ request st, (s.requests n).Matches faulty request st → p.Matches faulty request st) :
    Reads faulty (s.place n p) a := by
  refine h.place hold hnew rfl (fun _ _ => rfl) fun i request hi => hst request _ ?_
  have hmatches := h.callers i
  rw [hi] at hmatches
  exact hmatches

/-- The result of a task is there: the caller that waits for it, if any, has
    its read take effect or fail. -/
theorem Reads.result (h : Reads faulty s a) {n : Nat} {request : IpcRequest} {result : IpcResult}
    (hn : s.requests n = .calling request)
    (heffect : ∀ i, a.status i = .pending request → AtomicStep (chainReads faulty) a none
      ⟨a.value, Function.update a.status i (.done result)⟩) :
    ∃ labels a', Trace (AtomicStep (chainReads faulty)) a labels a' ∧
      labels.reduceOption = [] ∧ Reads faulty (s.place n (.replied result)) a' := by
  have htask : (s.requests n).isTask = true := by rw [hn]; rfl
  by_cases hi : ∃ i, (s.callers i).number? = some n
  · obtain ⟨i, hi⟩ := hi
    obtain ⟨request', hwait⟩ := h.awaiting (by simp [hn]) hi
    have hmatches := h.callers i
    rw [hwait] at hmatches
    obtain ⟨rfl, hpending⟩ : request = request' ∧ a.status i = .pending request' := by
      simpa [Caller.Matches, hn, RequestPlace.Matches] using hmatches
    refine ⟨[none], _, trace_one (heffect i hpending), rfl,
      h.place htask (by simp) rfl (fun j hj => ?_) fun j request' hj => ?_⟩
    · have hji : j ≠ i := by
        intro heq
        rw [heq] at hj
        exact hj hi
      exact Function.update_of_ne hji _ _
    · obtain rfl : j = i := h.numbered.owner j i n (by simp [hj, Caller.number?]) hi
      exact Function.update_self _ _ _
  · refine ⟨[], a, rfl, rfl, h.place htask (by simp) rfl (fun _ _ => rfl)
      fun i request' hwait => ?_⟩
    exact absurd ⟨i, by simp [hwait, Caller.number?]⟩ hi

omit [DecidableEq ι] in
theorem Reads.shut (h : Reads faulty s a)
    (hended : faulty = true ∨ s.handle = false ∧ ∀ i, (s.callers i).number? = none) :
    Reads faulty s.shut a where
  numbered := h.numbered.shut
  value := h.value
  callers i := by
    show (s.callers i).Matches faulty (fun n => (s.requests n).drop) (a.status i)
    obtain hfaulty | ⟨-, hnone⟩ := hended
    · have hmatches := h.callers i
      cases hc : s.callers i with
      | idle =>
        rw [hc] at hmatches
        exact hmatches
      | returning result =>
        rw [hc] at hmatches
        exact hmatches
      | sending n request =>
        rw [hc] at hmatches
        exact ⟨by simp [hmatches.1, RequestPlace.drop], hmatches.2⟩
      | awaiting n request =>
        rw [hc] at hmatches
        show (s.requests n).drop.Matches faulty request (a.status i)
        replace hmatches : (s.requests n).Matches faulty request (a.status i) := hmatches
        cases hn : s.requests n <;>
          simp_all [RequestPlace.Matches, RequestPlace.drop]
    · refine (h.callers i).congr fun n hn => ?_
      rw [hnone i] at hn
      cases hn
  ended hfaulty _ := by
    refine hended.resolve_left ?_
    simp [hfaulty]

/-- A send waits in the channel, and for the reads nothing has changed. -/
theorem Reads.send (h : Reads faulty s a) {i : ι} {n : Nat} {request : IpcRequest}
    (hi : s.callers i = .sending n request) (halive : s.alive = true)
    (hroom : s.queue.length < IpcChain.requestChannelCapacity) :
    Reads faulty ({ s with queue := s.queue ++ [n] }.place n (.queued request)
      |>.setCaller i (.awaiting n request)) a := by
  have hmatches := h.callers i
  rw [hi] at hmatches
  obtain ⟨hn, hpending⟩ := hmatches
  refine ⟨h.numbered.send hi hn halive hroom, h.value, fun j => ?_, fun _ hdead => ?_⟩
  · show (Function.update s.callers i (.awaiting n request) j).Matches faulty
      (Function.update s.requests n (.queued request)) (a.status j)
    by_cases hji : j = i
    · subst hji
      rw [Function.update_self]
      show (Function.update s.requests n (.queued request) n).Matches faulty request (a.status j)
      rw [Function.update_self]
      exact ⟨rfl, hpending⟩
    · rw [Function.update_of_ne hji]
      refine (h.callers j).congr fun m hm => Function.update_of_ne ?_ _ _
      intro hmn
      rw [hmn] at hm
      exact hji (h.numbered.owner j i n hm (by simp [hi, Caller.number?]))
  · have hdead : s.alive = false := hdead
    simp [halive] at hdead

/-- The process loses no read: what it does is invisible, apart from failures. -/
theorem Reads.work (h : Reads faulty s a) (hwork : Work s s') :
    ∃ labels a', Trace (AtomicStep (chainReads faulty)) a labels a' ∧
      labels.reduceOption = [] ∧ Reads faulty s' a' := by
  cases hwork with
  | send i n request hi halive hroom => exact ⟨[], a, rfl, rfl, h.send hi halive hroom⟩
  | sendClosed i n request hi hdead =>
    have hmatches := h.callers i
    rw [hi] at hmatches
    have hfaulty : faulty = true := by
      by_contra hne
      obtain ⟨-, hnone⟩ := h.ended (by simpa using hne) hdead
      simpa [hi, Caller.number?] using hnone i
    refine ⟨[none], _, trace_one (.fail i _ ?_ ⟨hfaulty, _, rfl⟩), rfl,
      h.setCaller (fun n hn => by cases hn) rfl⟩
    simp [hmatches.2]
  | recv n rest request hqueue hn =>
    refine ⟨[], a, rfl, rfl, h.numbered.recv hqueue hn, h.value, fun i => ?_, h.ended⟩
    have hmatches := h.callers i
    show (s.callers i).Matches faulty (Function.update s.requests n (.spawned request)) (a.status i)
    by_cases hi : (s.callers i).number? = some n
    · obtain ⟨request', hwait⟩ := h.awaiting (by simp [hn]) hi
      rw [hwait] at hmatches ⊢
      show (Function.update s.requests n (.spawned request) n).Matches faulty request' (a.status i)
      rw [Function.update_self]
      replace hmatches : (s.requests n).Matches faulty request' (a.status i) := hmatches
      rw [hn] at hmatches
      exact hmatches
    · refine hmatches.congr fun m hm => Function.update_of_ne ?_ _ _
      intro hmn
      exact hi (hmn ▸ hm)
  | recvClosed halive hqueue hhandle hcallers =>
    exact ⟨[], a, rfl, rfl, h.shut (.inr ⟨hhandle, hcallers⟩)⟩
  | poll n request hn =>
    refine ⟨[], a, rfl, rfl, h.proceed (by rw [hn]; rfl) (by simp) fun request' st hst => ?_⟩
    rw [hn] at hst
    exact hst
  | reply n result hn =>
    refine ⟨[], a, rfl, rfl, h.proceed (by rw [hn]; rfl) (by simp) fun request' st hst => ?_⟩
    rw [hn] at hst
    exact hst
  | wake i n request result hi hn =>
    have hmatches := h.callers i
    rw [hi] at hmatches
    have hdone : a.status i = .done result := by
      simpa [Caller.Matches, hn, RequestPlace.Matches] using hmatches
    refine ⟨[], a, rfl, rfl, ?_⟩
    have hreads := h.setCaller (c := .returning result) (i := i) (fun n hn => by cases hn) hdone
    rwa [Function.update_eq_self] at hreads
  | wakeDropped i n request hi hn =>
    have hmatches := h.callers i
    rw [hi] at hmatches
    obtain ⟨hfaulty, hbusy⟩ : faulty = true ∧ a.status i ≠ .idle := by
      simpa [Caller.Matches, hn, RequestPlace.Matches] using hmatches
    exact ⟨[none], _, trace_one (.fail i _ hbusy ⟨hfaulty, _, rfl⟩), rfl,
      h.setCaller (fun n hn => by cases hn) rfl⟩

variable {daemon : ChainStore → DaemonReads}

theorem Reads.step (hdoc : ∀ store, (daemon store).Documented store) (h : Reads faulty s a)
    {l : Option (Event ι IpcRequest IpcResult ChainStore)} (hstep : Step daemon faulty s l s') :
    ∃ labels a', Trace (AtomicStep (chainReads faulty)) a labels a' ∧
      labels.reduceOption = l.toList ∧ Reads faulty s' a' := by
  cases hstep with
  | work hwork => exact h.work hwork
  | call i request hidle hhandle =>
    have hst : a.status i = .idle := by simpa [hidle, Caller.Matches] using h.callers i
    refine ⟨_, _, trace_one (.call i request hst), rfl, h.numbered.call i request, h.value,
      fun j => ?_, fun hfaulty hdead => ?_⟩
    · show (Function.update s.callers i (.sending s.count request) j).Matches faulty s.requests
        (Function.update a.status i (.pending request) j)
      by_cases hji : j = i
      · subst hji
        rw [Function.update_self, Function.update_self]
        exact ⟨h.numbered.fresh s.count (Nat.le_refl _), rfl⟩
      · rw [Function.update_of_ne hji, Function.update_of_ne hji]
        exact h.callers j
    · obtain ⟨hclosed, -⟩ := h.ended hfaulty hdead
      simp [hhandle] at hclosed
  | ret i result hret =>
    have hst : a.status i = .done result := by simpa [hret, Caller.Matches] using h.callers i
    exact ⟨_, _, trace_one (.ret i result hst), rfl, h.setCaller (fun n hn => by cases hn) rfl⟩
  | cancel i hbusy =>
    have hst : a.status i ≠ .idle := by
      intro hidle
      have hmatches := h.callers i
      rw [hidle] at hmatches
      cases hc : s.callers i with
      | idle => exact hbusy hc
      | sending n request => simp [hc, Caller.Matches] at hmatches
      | returning result => simp [hc, Caller.Matches] at hmatches
      | awaiting n request =>
        rw [hc] at hmatches
        replace hmatches : (s.requests n).Matches faulty request .idle := hmatches
        cases hn : s.requests n <;> simp [hn, RequestPlace.Matches] at hmatches
    exact ⟨_, _, trace_one (.cancel i hst), rfl, h.setCaller (fun n hn => by cases hn) rfl⟩
  | dropHandle =>
    refine ⟨[], a, rfl, rfl, { h.numbered with }, h.value, h.callers, fun hfaulty hdead => ?_⟩
    exact ⟨rfl, (h.ended hfaulty hdead).2⟩
  | answer n request hn =>
    refine h.result hn fun i hpending => ?_
    rw [IpcChain.answer_eq (hdoc s.store), ← h.value]
    exact .effect i request hpending
  | moved store =>
    exact ⟨_, _, trace_one (.moved store), rfl, { h.numbered with }, rfl, h.callers, h.ended⟩
  | callFailed n request reason hfaulty hn =>
    refine h.result hn fun i hpending => ?_
    exact .fail i _ (by simp [hpending]) ⟨hfaulty, reason, rfl⟩
  | crash hfaulty halive => exact ⟨[], a, rfl, rfl, h.shut (.inl hfaulty)⟩

omit [DecidableEq ι] in
theorem reads_init (faulty : Bool) (store : ChainStore) :
    Reads faulty (init ι store) (.init store) where
  numbered :=
    { fresh := fun _ _ => rfl
      held := fun _ _ hn => by cases hn
      owner := fun _ _ _ hn => by cases hn
      nodup := List.nodup_nil
      capacity := Nat.zero_le _
      queued := fun _ hn => by cases hn
      mem_queue := fun _ _ hn => by cases hn
      dead := fun hdead => by cases hdead }
  value := rfl
  callers _ := rfl
  ended _ hdead := by cases hdead

/-- Every run of the system is matched by reads that take effect at once. -/
theorem Reads.run (hdoc : ∀ store, (daemon store).Documented store) {store : ChainStore}
    {labels : List (Option (Event ι IpcRequest IpcResult ChainStore))}
    (htrace : Trace (Step daemon faulty) (init ι store) labels s) :
    ∃ labels' a, Trace (AtomicStep (chainReads faulty)) (.init store) labels' a ∧
      labels'.reduceOption = labels.reduceOption ∧ Reads faulty s a :=
  simulate (fun _ _ _ _ hR hstep => hR.step hdoc hstep) htrace (reads_init faulty store)

end RequestLoop

/-- Any number of callers read the chain through the actor as if each read
    were one of the store in process, at one moment between its call and its
    return, whatever the daemon's store does meanwhile and whoever gives up
    waiting. In a faulty world a read may also fail, with an error of the
    connection or of the actor; otherwise none does. -/
theorem ipc_chain_linearizable (ι : Type) [DecidableEq ι] (daemon : ChainStore → DaemonReads)
    (hdoc : ∀ store, (daemon store).Documented store) (faulty : Bool) (store : ChainStore) :
    Linearizable (RequestLoop.Step daemon faulty) (RequestLoop.init ι store) (chainReads faulty)
      store := by
  intro labels s' htrace
  obtain ⟨labels', a', htrace', hhistory, -⟩ := RequestLoop.Reads.run hdoc htrace
  exact ⟨labels', a', htrace', hhistory⟩

/-- The daemon that serves a store. -/
def ChainStore.serve (store : ChainStore) : DaemonReads where
  chainTip :=
    match store.tip with
    | some tip => .ok (.tip tip.bytes)
    | none => .ok .uninitialised
  shareHeader := store.shares.serve
  tipHeight :=
    match store.height with
    | some height => .ok (.height height)
    | none => .ok .uninitialised

theorem ChainStore.serve_documented (store : ChainStore) : store.serve.Documented store where
  tip tip htip := by simp [ChainStore.serve, htip]
  noTip htip := by simp [ChainStore.serve, htip]
  shareHeader := Sv2P2pool.serve_documented store.shares
  height height hheight := by simp [ChainStore.serve, hheight]
  noHeight hheight := by simp [ChainStore.serve, hheight]

theorem ipc_chain_linearizable_served :
    Linearizable (RequestLoop.Step ChainStore.serve false)
      (RequestLoop.init Nat ⟨some (U256.fill 3), some 3, shareStore⟩) (chainReads false)
      ⟨some (U256.fill 3), some 3, shareStore⟩ :=
  ipc_chain_linearizable Nat ChainStore.serve ChainStore.serve_documented false _

/-! ## Progress -/

/-- The steps a caller still takes, and causes, before the daemon is called. -/
def Caller.work : Caller → Nat
  | .idle => 0
  | .sending _ _ => 4
  | .awaiting _ _ => 1
  | .returning _ => 0

def RequestPlace.work : RequestPlace → Nat
  | .queued _ => 2
  | .spawned _ => 1
  | .replied _ => 1
  | .unsent | .calling _ | .delivered _ | .dropped => 0

/-- A sum in which one summand changes. -/
theorem sum_update_add {α β : Type} [DecidableEq α] (w : β → Nat) (f : α → β) {S : Finset α} {i : α}
    (hi : i ∈ S) (c : β) :
    ∑ j ∈ S, w (Function.update f i c j) + w (f i) = ∑ j ∈ S, w (f j) + w c := by
  have hothers : ∑ j ∈ S.erase i, w (Function.update f i c j) = ∑ j ∈ S.erase i, w (f j) := by
    refine Finset.sum_congr rfl fun j hj => ?_
    rw [Function.update_of_ne (Finset.ne_of_mem_erase hj)]
  have hnew := Finset.add_sum_erase S (fun j => w (Function.update f i c j)) hi
  have hold := Finset.add_sum_erase S (fun j => w (f j)) hi
  simp only [Function.update_self] at hnew
  omega

namespace RequestLoop

variable {ι : Type} [DecidableEq ι] [Fintype ι] {s s' : RequestLoop ι} {faulty : Bool}
  {daemon : ChainStore → DaemonReads}

/-- The steps the process can take before it waits for the daemon. -/
def workLeft (s : RequestLoop ι) : Nat :=
  ∑ i, (s.callers i).work + ∑ n ∈ Finset.range s.count, (s.requests n).work +
    if s.alive then 1 else 0

theorem workLeft_setCaller (s : RequestLoop ι) (i : ι) (c : Caller) :
    (s.setCaller i c).workLeft + (s.callers i).work = s.workLeft + c.work := by
  have hsum := sum_update_add Caller.work s.callers (Finset.mem_univ i) c
  unfold workLeft RequestLoop.setCaller
  simp only
  omega

omit [DecidableEq ι] in
theorem workLeft_place {s : RequestLoop ι} {n : Nat} (hn : n < s.count) (p : RequestPlace) :
    (s.place n p).workLeft + (s.requests n).work = s.workLeft + p.work := by
  have hsum := sum_update_add RequestPlace.work s.requests (Finset.mem_range.mpr hn) p
  unfold workLeft RequestLoop.place
  simp only
  omega

omit [DecidableEq ι] in
theorem workLeft_queue (s : RequestLoop ι) (queue : List Nat) :
    ({ s with queue := queue } : RequestLoop ι).workLeft = s.workLeft := rfl

omit [DecidableEq ι] in
theorem workLeft_shut (halive : s.alive = true) : s.shut.workLeft < s.workLeft := by
  have hsum : ∑ n ∈ Finset.range s.count, (s.requests n).drop.work ≤
      ∑ n ∈ Finset.range s.count, (s.requests n).work := by
    refine Finset.sum_le_sum fun n _ => ?_
    cases s.requests n <;> simp [RequestPlace.drop, RequestPlace.work]
  unfold workLeft RequestLoop.shut
  simp only [halive, if_true, Bool.false_eq_true, if_false]
  omega

/-- Every step of the process is one less to take. -/
theorem Work.workLeft_lt (hwork : Work s s') (h : s.Numbered) : s'.workLeft < s.workLeft := by
  cases hwork with
  | send i n request hi halive hroom =>
    have hlt : n < s.count := h.held i n (by simp [hi, Caller.number?])
    have hplace := workLeft_place (s := { s with queue := s.queue ++ [n] }) hlt (.queued request)
    have hcaller := workLeft_setCaller
      ({ s with queue := s.queue ++ [n] }.place n (.queued request)) i (.awaiting n request)
    have hqueue := workLeft_queue s (s.queue ++ [n])
    have hi' : (({ s with queue := s.queue ++ [n] } : RequestLoop ι).place n
        (.queued request)).callers i = .sending n request := hi
    rw [hi'] at hcaller
    simp only [Caller.work, RequestPlace.work] at hplace hcaller
    omega
  | sendClosed i n request hi hdead =>
    have hcaller := workLeft_setCaller s i (.returning (.error IpcChain.requestChannelClosed))
    simp only [hi, Caller.work] at hcaller
    omega
  | recv n rest request hqueue hn =>
    have hlt : n < s.count := h.lt_count (by simp [hn])
    have hplace := workLeft_place (s := { s with queue := rest }) hlt (.spawned request)
    have hrest := workLeft_queue s rest
    simp only [hn, RequestPlace.work] at hplace
    omega
  | recvClosed halive hqueue hhandle hcallers => exact workLeft_shut halive
  | poll n request hn =>
    have hplace := workLeft_place (h.lt_count (n := n) (by simp [hn])) (.calling request)
    simp only [hn, RequestPlace.work] at hplace
    omega
  | reply n result hn =>
    have hplace := workLeft_place (h.lt_count (n := n) (by simp [hn])) (.delivered result)
    simp only [hn, RequestPlace.work] at hplace
    omega
  | wake i n request result hi hn =>
    have hcaller := workLeft_setCaller s i (.returning result)
    simp only [hi, Caller.work] at hcaller
    omega
  | wakeDropped i n request hi hn =>
    have hcaller := workLeft_setCaller s i (.returning (.error IpcChain.droppedReplyChannel))
    simp only [hi, Caller.work] at hcaller
    omega

/-- So the process comes to rest. -/
theorem Reads.length_le {log : List Unit} : ∀ {s : RequestLoop ι}
    {a : Atomic ι IpcRequest IpcResult ChainStore}, Reads faulty s a →
      Trace (fun s (_ : Unit) s' => Work s s') s log s' → log.length ≤ s.workLeft := by
  induction log with
  | nil => exact fun _ _ => Nat.zero_le _
  | cons l log ih =>
    intro s a h htrace
    obtain ⟨t, hwork, htrace⟩ := htrace
    obtain ⟨-, a', -, -, h'⟩ := h.work hwork
    have hlt := hwork.workLeft_lt h.numbered
    have hle := ih h' htrace
    rw [List.length_cons]
    omega

omit [Fintype ι] in
/-- At rest, the request of a caller that has not got its result is at the
    daemon. -/
theorem Reads.at_rest {a : Atomic ι IpcRequest IpcResult ChainStore} (h : Reads faulty s a)
    (hrest : ∀ s', ¬ Work s s') (i : ι) :
    s.callers i = .idle ∨ (∃ result, s.callers i = .returning result) ∨
      s.alive = true ∧ ∃ n request, s.callers i = .awaiting n request ∧
        s.requests n = .calling request := by
  have hmatches := h.callers i
  -- the loop has taken all requests
  have hqueue : ∀ n request, s.requests n ≠ .queued request := by
    intro n request hn
    cases hq : s.queue with
    | nil =>
      have hmem := h.numbered.mem_queue n request hn
      rw [hq] at hmem
      cases hmem
    | cons m rest =>
      obtain ⟨request', hm⟩ := h.numbered.queued m (by rw [hq]; exact List.mem_cons_self)
      exact hrest _ (.recv m rest request' hq hm)
  cases hc : s.callers i with
  | idle => exact .inl rfl
  | returning result => exact .inr (.inl ⟨result, rfl⟩)
  | sending n request =>
    exfalso
    cases halive : s.alive with
    | false => exact hrest _ (.sendClosed i n request hc halive)
    | true =>
      refine hrest _ (.send i n request hc halive ?_)
      cases hq : s.queue with
      | nil => exact Nat.zero_lt_succ 255
      | cons m rest =>
        obtain ⟨request', hm⟩ := h.numbered.queued m (by rw [hq]; exact List.mem_cons_self)
        exact absurd hm (hqueue m request')
  | awaiting n request =>
    rw [hc] at hmatches
    replace hmatches : (s.requests n).Matches faulty request (a.status i) := hmatches
    cases hn : s.requests n with
    | unsent => simp [hn, RequestPlace.Matches] at hmatches
    | queued request' => exact absurd hn (hqueue n request')
    | spawned request' => exact absurd (.poll n request' hn) (hrest _)
    | replied result => exact absurd (.reply n result hn) (hrest _)
    | delivered result => exact absurd (.wake i n request result hc hn) (hrest _)
    | dropped => exact absurd (.wakeDropped i n request hc hn) (hrest _)
    | calling request' =>
      rw [hn] at hmatches
      obtain ⟨rfl, -⟩ := hmatches
      refine .inr (.inr ⟨?_, n, request', rfl, hn⟩)
      cases halive : s.alive with
      | true => rfl
      | false =>
        have hdrop := h.numbered.dead halive n
        simp [hn, RequestPlace.drop] at hdrop

end RequestLoop

/-- No caller waits for another. The process comes to rest after finitely many
    steps, whatever their order; then every caller has its result, or its own
    request is at the daemon, which may answer it next, and only it. A caller
    is not left behind by an actor that has ended. -/
theorem no_request_waits_for_another (ι : Type) [DecidableEq ι] [Fintype ι]
    (daemon : ChainStore → DaemonReads) (hdoc : ∀ store, (daemon store).Documented store)
    (faulty : Bool) (store : ChainStore)
    (labels : List (Option (Event ι IpcRequest IpcResult ChainStore))) (s : RequestLoop ι)
    (htrace : Trace (RequestLoop.Step daemon faulty) (RequestLoop.init ι store) labels s) :
    (∀ log s', Trace (fun s (_ : Unit) s' => RequestLoop.Work s s') s log s' →
      log.length ≤ s.workLeft) ∧
    ((∀ s', ¬ RequestLoop.Work s s') → ∀ i,
      s.callers i = .idle ∨ (∃ result, s.callers i = .returning result) ∨
        s.alive = true ∧ ∃ n request, s.callers i = .awaiting n request ∧
          ∃ s', Trace (RequestLoop.Step daemon faulty) s [none, none, none] s' ∧
            s'.callers = Function.update s.callers i
              (.returning (InProcessChain.answer s.store request)) ∧
            (∀ m, m ≠ n → s'.requests m = s.requests m) ∧ s'.queue = s.queue ∧
            s'.store = s.store) := by
  obtain ⟨-, a, -, -, hreads⟩ := RequestLoop.Reads.run hdoc htrace
  refine ⟨fun log s' hwork => hreads.length_le hwork, fun hrest i => ?_⟩
  obtain hidle | hreturning | ⟨halive, n, request, hc, hn⟩ := hreads.at_rest hrest i
  · exact .inl hidle
  · exact .inr (.inl hreturning)
  · refine .inr (.inr ⟨halive, n, request, hc, ?_⟩)
    rw [← IpcChain.answer_eq (hdoc s.store)]
    -- the answer, the reply and the wake-up
    refine ⟨_, ⟨_, .answer n request hn, _,
      .work (.reply n (IpcChain.answer (daemon s.store) request) ?_), _,
      .work (.wake i n request (IpcChain.answer (daemon s.store) request) hc ?_), rfl⟩,
      rfl, fun m hm => ?_, rfl, rfl⟩
    · exact Function.update_self _ _ _
    · exact Function.update_self _ _ _
    · show Function.update (Function.update s.requests n _) n _ m = s.requests m
      rw [Function.update_of_ne hm, Function.update_of_ne hm]

namespace RequestLoop.Sample

def shares : ChainStore := ⟨some (U256.fill 3), some 3, shareStore⟩

/-- One caller's request is at the daemon, another caller is idle. -/
def oneAtDaemon : RequestLoop (Fin 2) where
  store := shares
  handle := true
  alive := true
  queue := []
  requests := Function.update (fun _ => .unsent) 0 (.calling .getChainTip)
  count := 1
  callers := Function.update (fun _ => .idle) 0 (.awaiting 0 .getChainTip)

theorem trace_oneAtDaemon :
    Trace (Step ChainStore.serve false) (init (Fin 2) shares)
      [some (.call 0 .getChainTip), none, none, none] oneAtDaemon := by
  refine ⟨_, .call 0 _ rfl rfl, _, .work (.send 0 0 _ rfl rfl (Nat.zero_lt_succ 255)), _,
    .work (.recv 0 [] .getChainTip rfl rfl), _, .work (.poll 0 .getChainTip rfl), ?_⟩
  simp [oneAtDaemon, init, setCaller, place, Function.update_idem]

theorem oneAtDaemon_at_rest (s' : RequestLoop (Fin 2)) : ¬ Work oneAtDaemon s' := by
  have hrequests : ∀ n, oneAtDaemon.requests n = .calling .getChainTip ∨
      oneAtDaemon.requests n = .unsent := by
    intro n
    by_cases hn : n = 0
    · exact .inl (by simp [oneAtDaemon, hn])
    · exact .inr (by simp [oneAtDaemon, hn])
  intro hwork
  cases hwork with
  | send i n request hi =>
    match i, hi with
    | 0, hi => cases hi
    | 1, hi => cases hi
  | sendClosed i n request hi hdead => cases hdead
  | recv n rest request hqueue hn => cases hqueue
  | recvClosed halive hqueue hhandle hcallers => cases hhandle
  | poll n request hn => simpa [hn] using hrequests n
  | reply n result hn => simpa [hn] using hrequests n
  | wake i n request result hi hn => simpa [hn] using hrequests n
  | wakeDropped i n request hi hn => simpa [hn] using hrequests n

end RequestLoop.Sample

/-- The daemon may answer that request, and its caller gets the tip. -/
theorem no_request_waits_for_another_served :
    (∀ log s', Trace (fun s (_ : Unit) s' => RequestLoop.Work s s')
      RequestLoop.Sample.oneAtDaemon log s' → log.length ≤ 2) ∧
    ∃ s', Trace (RequestLoop.Step ChainStore.serve false) RequestLoop.Sample.oneAtDaemon
        [none, none, none] s' ∧
      s'.callers 0 = .returning (.ok (.chainTip (some (U256.fill 3)))) := by
  obtain ⟨hbound, hrest⟩ := no_request_waits_for_another (Fin 2) ChainStore.serve
    ChainStore.serve_documented false _ _ _ RequestLoop.Sample.trace_oneAtDaemon
  refine ⟨hbound, ?_⟩
  obtain hidle | ⟨result, hreturning⟩ | ⟨-, n, request, hc, s', htrace, hcallers, -⟩ :=
    hrest RequestLoop.Sample.oneAtDaemon_at_rest 0
  · cases hidle
  · cases hreturning
  · obtain rfl : IpcRequest.getChainTip = request := by
      cases hc
      rfl
    refine ⟨s', htrace, ?_⟩
    rw [hcallers, Function.update_self]
    rfl

end Sv2P2pool
