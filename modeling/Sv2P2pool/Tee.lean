import Sv2P2pool.Preflight
import Sv2P2pool.Templates

/-! # The Tee

    `spawn_tp_to_cm_tee` takes the Template Provider's messages one by one,
    records each in the TDP bridge and passes it on to the ChannelManager.
    Recording comes first, so the bridge is never behind what was passed on.
    A response resolves the waiter that the table holds for its template, in
    two steps: the waiter is taken out under the lock and its one-shot is sent
    to after that. Handlers register, wait and clean up at any point between,
    and the two steps are one for them, unless a wait ends in the middle.
-/

namespace Sv2P2pool

open ByteCodec Bitcoin Interleave

/-! ## The steps of `deliver_response` -/

/-- The template and the result of a response. -/
def TemplateDistribution.response? : TemplateDistribution → Option (UInt64 × TxDataResult)
  | .requestTransactionDataSuccess k transactionList => some (k, .success transactionList)
  | .requestTransactionDataError k errorCode => some (k, .error errorCode)
  | _ => none

namespace TdpHandle

variable (tdp : TdpHandle)

/-- The waiter registered for the template of a response. -/
def waiterFor (msg : TemplateDistribution) : Option Nat :=
  msg.response?.bind fun p => tdp.pendingRequests.lookup p.1

/-- Record a message; a response takes its waiter out of the table. -/
def record : TemplateDistribution → TdpHandle
  | .setNewPrevHash msg => { tdp with lastPrevHash := some msg }
  | .newTemplate msg => { tdp with lastTemplate := some msg }
  | .requestTransactionDataSuccess k _ => tdp.removePending k
  | .requestTransactionDataError k _ => tdp.removePending k
  | .other => tdp

/-- `tx.send(result)` into the one-shot of a waiter. -/
def resolve (waiter : Nat) (result : TxDataResult) : TdpHandle :=
  { tdp with oneshots := tdp.oneshots.insert waiter result }

end TdpHandle

/-- Recording and resolving are what `deliver_response` does in one call. -/
theorem observe_eq_record (tdp : TdpHandle) (msg : TemplateDistribution) :
    tdp.observe msg =
      match msg.response?, tdp.waiterFor msg with
      | some (_, result), some waiter => (tdp.record msg).resolve waiter result
      | _, _ => tdp.record msg := by
  have hdeliver : ∀ k result, tdp.deliverResponse k result =
      match tdp.pendingRequests.lookup k with
      | some waiter => (tdp.removePending k).resolve waiter result
      | none => tdp.removePending k := by
    intro k result
    unfold TdpHandle.deliverResponse TdpHandle.removePending TdpHandle.resolve
    cases hslot : tdp.pendingRequests.lookup k with
    | some waiter => rfl
    | none =>
      -- removing what is not there changes nothing
      have herase : tdp.pendingRequests.erase k = tdp.pendingRequests := by
        apply AList.ext
        apply List.kerase_of_notMem_keys
        exact AList.lookup_eq_none.mp hslot
      rw [herase]
  cases msg with
  | requestTransactionDataSuccess k l =>
    simp only [TdpHandle.observe, hdeliver, TemplateDistribution.response?, TdpHandle.waiterFor,
      Option.bind_some, TdpHandle.record]
    cases tdp.pendingRequests.lookup k <;> rfl
  | requestTransactionDataError k code =>
    simp only [TdpHandle.observe, hdeliver, TemplateDistribution.response?, TdpHandle.waiterFor,
      Option.bind_some, TdpHandle.record]
    cases tdp.pendingRequests.lookup k <;> rfl
  | setNewPrevHash m => rfl
  | newTemplate n => rfl
  | other => rfl

/-! ## The task -/

/-- Where the task is in its loop. -/
inductive TeeHand where
  /-- At `tp_input.recv()`. -/
  | waiting
  | holding (msg : TemplateDistribution)
  /-- Between the lock and the one-shot of `deliver_response`. -/
  | resolving (msg : TemplateDistribution) (waiter : Nat) (result : TxDataResult)
  /-- At `cm_output.send(msg)`. -/
  | forwarding (msg : TemplateDistribution)
  | exited

/-- After the table was read. -/
def TeeHand.recorded (msg : TemplateDistribution) (waiter : Option Nat) : TeeHand :=
  match msg.response?, waiter with
  | some (_, result), some waiter => .resolving msg waiter result
  | _, _ => .forwarding msg

structure TeeState where
  engine : Engine
  /-- `tp_input`: what the Template Provider sent and the tee has not taken. -/
  queue : List TemplateDistribution
  tpOpen : Bool
  hand : TeeHand
  /-- What was sent into `cm_output`. -/
  delivered : List TemplateDistribution
  cmOpen : Bool

def TeeState.start : TeeState := ⟨Engine.new, [], true, .waiting, [], true⟩

inductive TeeEvent where
  /-- The Template Provider sends. -/
  | arrived (msg : TemplateDistribution)
  | tpClosed
  | cmClosed
  | received (msg : TemplateDistribution)
  /-- The message is recorded; a response finds a waiter or none. -/
  | recorded (msg : TemplateDistribution) (waiter : Option Nat)
  | resolved (waiter : Nat) (result : TxDataResult)
  | forwarded (msg : TemplateDistribution)
  | exited
  /-- A handler performs an operation. -/
  | op (e : Event engineSig)

inductive TeeStep (s : TeeState) : TeeEvent → TeeState → Prop where
  | arrive (msg : TemplateDistribution) (hopen : s.tpOpen = true) :
      TeeStep s (.arrived msg) { s with queue := s.queue ++ [msg] }
  | closeTp : TeeStep s .tpClosed { s with tpOpen := false }
  | closeCm : TeeStep s .cmClosed { s with cmOpen := false }
  | recv (msg : TemplateDistribution) (rest : List TemplateDistribution)
      (hhand : s.hand = .waiting) (hqueue : s.queue = msg :: rest) :
      TeeStep s (.received msg) { s with queue := rest, hand := .holding msg }
  /-- `recv` fails once the channel is closed and drained. -/
  | drained (hhand : s.hand = .waiting) (hqueue : s.queue = []) (hclosed : s.tpOpen = false) :
      TeeStep s .exited { s with hand := .exited }
  | record (msg : TemplateDistribution) (hhand : s.hand = .holding msg) :
      TeeStep s (.recorded msg (s.engine.tdp.waiterFor msg))
        { s with engine := { s.engine with tdp := s.engine.tdp.record msg }
                 hand := .recorded msg (s.engine.tdp.waiterFor msg) }
  | resolve (msg : TemplateDistribution) (waiter : Nat) (result : TxDataResult)
      (hhand : s.hand = .resolving msg waiter result) :
      TeeStep s (.resolved waiter result)
        { s with engine := { s.engine with tdp := s.engine.tdp.resolve waiter result }
                 hand := .forwarding msg }
  | forward (msg : TemplateDistribution) (hhand : s.hand = .forwarding msg)
      (hopen : s.cmOpen = true) :
      TeeStep s (.forwarded msg) { s with delivered := s.delivered ++ [msg], hand := .waiting }
  /-- `cm_output` is closed: the task warns and breaks. -/
  | refused (msg : TemplateDistribution) (hhand : s.hand = .forwarding msg)
      (hclosed : s.cmOpen = false) : TeeStep s .exited { s with hand := .exited }
  /-- An abort takes effect at an await. -/
  | aborted (hawait : s.hand = .waiting ∨ ∃ msg, s.hand = .forwarding msg) :
      TeeStep s .exited { s with hand := .exited }
  | handler (o : Op) (r : o.Res) (engine : Engine) (hop : parInterp s.engine o r engine) :
      TeeStep s (.op ⟨o, r⟩) { s with engine := engine }

/-- A run of the tee among handlers and its two peers. -/
abbrev TeeRun (log : List TeeEvent) (s : TeeState) : Prop := Trace TeeStep .start log s

/-! ## Reading a run -/

def TeeEvent.arrival? : TeeEvent → Option TemplateDistribution
  | .arrived msg => some msg
  | _ => none

/-- The waiter a response took out of the table, with the response. -/
def TeeEvent.take? : TeeEvent → Option (Nat × TxDataResult)
  | .recorded msg (some waiter) => msg.response?.map fun p => (waiter, p.2)
  | _ => none

def TeeEvent.send? : TeeEvent → Option (Nat × TxDataResult)
  | .resolved waiter result => some (waiter, result)
  | _ => none

/-- What a handler receives from its one-shot. -/
def TeeEvent.receipt? : TeeEvent → Option (Nat × TxDataResult)
  | .op ⟨.awaitResponse _ waiter, .received result⟩ => some (waiter, result)
  | _ => none

/-- The input sequence. -/
def arrivals (log : List TeeEvent) : List TemplateDistribution := log.filterMap TeeEvent.arrival?

def takes (log : List TeeEvent) : List (Nat × TxDataResult) := log.filterMap TeeEvent.take?

def sends (log : List TeeEvent) : List (Nat × TxDataResult) := log.filterMap TeeEvent.send?

def receipts (log : List TeeEvent) : List (Nat × TxDataResult) :=
  log.filterMap TeeEvent.receipt?

/-- Taken and not sent to yet. -/
def TeeHand.unsent : TeeHand → List (Nat × TxDataResult)
  | .resolving _ waiter result => [(waiter, result)]
  | _ => []

/-- Where the messages are: `seen` were recorded. -/
def TeeHand.Places (delivered seen queue input : List TemplateDistribution) : TeeHand → Prop
  | .waiting => seen = delivered ∧ input = seen ++ queue
  | .holding msg => seen = delivered ∧ input = seen ++ msg :: queue
  | .resolving msg _ _ => seen = delivered ++ [msg] ∧ input = seen ++ queue
  | .forwarding msg => seen = delivered ++ [msg] ∧ input = seen ++ queue
  | .exited => delivered <+: seen ∧ seen <+: input

/-! ## Invariant -/

/-- The order of the messages and the freshness of the snapshots. -/
def Ordered (log : List TeeEvent) (s : TeeState) : Prop :=
  ∃ seen, s.hand.Places s.delivered seen s.queue (arrivals log) ∧
    s.engine.tdp.snapshots = ((prevHashes seen).getLast?, (templates seen).getLast?)

/-- The fate of the waiters. -/
structure TeeWaiters (log : List TeeEvent) (s : TeeState) : Prop where
  /-- What was taken was sent to, or is about to be. -/
  sent : takes log = sends log ++ s.hand.unsent
  /-- A one-shot holds what was sent to it until that is received. -/
  oneshots : ∀ waiter result, s.engine.tdp.oneshots.lookup waiter = some result ↔
    (waiter, result) ∈ sends log ∧ (waiter, result) ∉ receipts log
  received : ∀ p ∈ receipts log, p ∈ sends log
  receivedOnce : (receipts log).Nodup
  /-- No waiter is taken twice. -/
  once : ((takes log).map Prod.fst).Nodup
  handed : ∀ p ∈ takes log, p.1 < s.engine.tdp.nextOneshot
  /-- A waiter in the table was registered for its template and not taken. -/
  pending : ∀ k waiter, s.engine.tdp.pendingRequests.lookup k = some waiter →
    waiter < s.engine.tdp.nextOneshot ∧ (∀ p ∈ takes log, p.1 ≠ waiter) ∧
      .op ⟨.registerRequest k, some waiter⟩ ∈ log
  distinct : ∀ k k' waiter, s.engine.tdp.pendingRequests.lookup k = some waiter →
    s.engine.tdp.pendingRequests.lookup k' = some waiter → k = k'

section

variable {log : List TeeEvent} {s s' : TeeState} {e : TeeEvent}

theorem arrivals_snoc (log : List TeeEvent) (e : TeeEvent) :
    arrivals (log ++ [e]) = arrivals log ++ e.arrival?.toList := by
  unfold arrivals
  cases he : e.arrival? <;> simp [he]

theorem takes_snoc (log : List TeeEvent) (e : TeeEvent) :
    takes (log ++ [e]) = takes log ++ e.take?.toList := by
  unfold takes
  cases he : e.take? <;> simp [he]

theorem sends_snoc (log : List TeeEvent) (e : TeeEvent) :
    sends (log ++ [e]) = sends log ++ e.send?.toList := by
  unfold sends
  cases he : e.send? <;> simp [he]

theorem receipts_snoc (log : List TeeEvent) (e : TeeEvent) :
    receipts (log ++ [e]) = receipts log ++ e.receipt?.toList := by
  unfold receipts
  cases he : e.receipt? <;> simp [he]

/-! ### Order and snapshots -/

theorem record_snapshots (tdp : TdpHandle) (msg : TemplateDistribution) :
    (tdp.record msg).snapshots = (msg.prevHash?.or tdp.lastPrevHash,
      msg.template?.or tdp.lastTemplate) := by
  cases msg <;> rfl

theorem RequestsStep.snapshots {tdp tdp' : TdpHandle} {e : Event engineSig}
    (h : RequestsStep tdp e tdp') : tdp'.snapshots = tdp.snapshots := by
  cases h <;> rfl

/-- The snapshots after one more message. -/
theorem snapshots_snoc {tdp : TdpHandle} {seen : List TemplateDistribution}
    (h : tdp.snapshots = ((prevHashes seen).getLast?, (templates seen).getLast?))
    (msg : TemplateDistribution) :
    (tdp.record msg).snapshots =
      ((prevHashes (seen ++ [msg])).getLast?, (templates (seen ++ [msg])).getLast?) := by
  obtain ⟨hprev, htemplate⟩ := Prod.mk.inj h
  rw [record_snapshots, hprev, htemplate]
  cases msg <;> simp [prevHashes, templates, TemplateDistribution.prevHash?,
    TemplateDistribution.template?]

theorem TeeStep.ordered (h : TeeStep s e s') (hs : Ordered log s) : Ordered (log ++ [e]) s' := by
  obtain ⟨seen, hplaces, hsnap⟩ := hs
  unfold Ordered
  rw [arrivals_snoc]
  cases h with
  | arrive msg hopen =>
    refine ⟨seen, ?_, hsnap⟩
    show s.hand.Places s.delivered seen (s.queue ++ [msg]) (arrivals log ++ [msg])
    cases hhand : s.hand with
    | exited =>
      rw [hhand] at hplaces
      exact ⟨hplaces.1, hplaces.2.trans (List.prefix_append _ _)⟩
    | _ =>
      rw [hhand] at hplaces
      obtain ⟨hseen, hinput⟩ := hplaces
      refine ⟨hseen, ?_⟩
      rw [hinput]
      simp
  | closeTp => exact ⟨seen, by simpa [TeeEvent.arrival?] using hplaces, hsnap⟩
  | closeCm => exact ⟨seen, by simpa [TeeEvent.arrival?] using hplaces, hsnap⟩
  | recv msg rest hhand hqueue =>
    rw [hhand, hqueue] at hplaces
    exact ⟨seen, by simpa [TeeEvent.arrival?, TeeHand.Places] using hplaces, hsnap⟩
  | drained hhand hqueue hclosed =>
    rw [hhand, hqueue] at hplaces
    obtain ⟨rfl, hinput⟩ := hplaces
    refine ⟨s.delivered, ?_, hsnap⟩
    simp [TeeHand.Places, TeeEvent.arrival?, hinput]
  | record msg hhand =>
    rw [hhand] at hplaces
    obtain ⟨rfl, hinput⟩ := hplaces
    -- the message is in the snapshots from here on, and not passed on yet
    refine ⟨s.delivered ++ [msg], ?_, snapshots_snoc hsnap msg⟩
    have hplaces : s.delivered ++ [msg] = s.delivered ++ [msg] ∧
        arrivals log ++ [] = s.delivered ++ [msg] ++ s.queue := by simp [hinput]
    unfold TeeHand.recorded
    split <;> exact hplaces
  | resolve msg waiter result hhand =>
    rw [hhand] at hplaces
    exact ⟨seen, by simpa [TeeEvent.arrival?, TeeHand.Places] using hplaces, hsnap⟩
  | forward msg hhand hopen =>
    rw [hhand] at hplaces
    exact ⟨seen, by simpa [TeeEvent.arrival?, TeeHand.Places] using hplaces, hsnap⟩
  | refused msg hhand hclosed =>
    rw [hhand] at hplaces
    obtain ⟨rfl, hinput⟩ := hplaces
    refine ⟨s.delivered ++ [msg], ?_, hsnap⟩
    simp [TeeHand.Places, TeeEvent.arrival?, hinput]
  | aborted hawait =>
    -- an abort loses the message in hand: what was passed on stays a prefix
    refine ⟨seen, ?_, hsnap⟩
    rcases hawait with hhand | ⟨msg, hhand⟩
    · rw [hhand] at hplaces
      obtain ⟨rfl, hinput⟩ := hplaces
      simp [TeeHand.Places, TeeEvent.arrival?, hinput]
    · rw [hhand] at hplaces
      obtain ⟨rfl, hinput⟩ := hplaces
      simp [TeeHand.Places, TeeEvent.arrival?, hinput]
  | handler o r engine hop =>
    refine ⟨seen, by simpa [TeeEvent.arrival?] using hplaces, ?_⟩
    exact (parInterp_requests hop).snapshots.trans hsnap

/-! ### Waiters -/

/-- A waiter is sent one result. -/
theorem TeeWaiters.sends_unique (hs : TeeWaiters log s) {waiter : Nat} {r r' : TxDataResult}
    (h : (waiter, r) ∈ sends log) (h' : (waiter, r') ∈ sends log) : r = r' := by
  have hmem : ∀ p ∈ sends log, p ∈ takes log := by
    intro p hp
    rw [hs.sent]
    exact List.mem_append_left _ hp
  have heq := List.inj_on_of_nodup_map hs.once (hmem _ h) (hmem _ h') rfl
  exact (Prod.mk.inj heq).2

/-- An event that takes nobody, reaches no one-shot and only shrinks the
    table. -/
theorem TeeWaiters.mono (hs : TeeWaiters log s) (htake : e.take? = none)
    (hsend : e.send? = none) (hreceipt : e.receipt? = none)
    (hhand : s'.hand.unsent = s.hand.unsent)
    (hones : s'.engine.tdp.oneshots = s.engine.tdp.oneshots)
    (hnext : s.engine.tdp.nextOneshot ≤ s'.engine.tdp.nextOneshot)
    (htable : ∀ k waiter, s'.engine.tdp.pendingRequests.lookup k = some waiter →
      s.engine.tdp.pendingRequests.lookup k = some waiter) : TeeWaiters (log ++ [e]) s' := by
  have htakes : takes (log ++ [e]) = takes log := by
    rw [takes_snoc, htake]
    simp
  have hsends : sends (log ++ [e]) = sends log := by
    rw [sends_snoc, hsend]
    simp
  have hreceipts : receipts (log ++ [e]) = receipts log := by
    rw [receipts_snoc, hreceipt]
    simp
  refine ⟨?_, ?_, ?_, ?_, ?_, ?_, ?_, ?_⟩
  · rw [htakes, hsends, hhand]
    exact hs.sent
  · rw [hsends, hreceipts, hones]
    exact hs.oneshots
  · rw [hsends, hreceipts]
    exact hs.received
  · rw [hreceipts]
    exact hs.receivedOnce
  · rw [htakes]
    exact hs.once
  · rw [htakes]
    exact fun p hp => (hs.handed p hp).trans_le hnext
  · rw [htakes]
    intro k waiter hk
    obtain ⟨hlt, hfree, hreg⟩ := hs.pending k waiter (htable k waiter hk)
    exact ⟨hlt.trans_le hnext, hfree, List.mem_append_left _ hreg⟩
  · exact fun k k' waiter h h' =>
      hs.distinct k k' waiter (htable k waiter h) (htable k' waiter h')

/-- An event that leaves the bridge alone. -/
theorem TeeWaiters.of_eq (hs : TeeWaiters log s) (htdp : s'.engine.tdp = s.engine.tdp)
    (htake : e.take? = none) (hsend : e.send? = none) (hreceipt : e.receipt? = none)
    (hhand : s'.hand.unsent = s.hand.unsent) : TeeWaiters (log ++ [e]) s' := by
  apply hs.mono htake hsend hreceipt hhand
  · rw [htdp]
  · rw [htdp]
  · rw [htdp]
    exact fun _ _ h => h

theorem lookup_removePending {tdp : TdpHandle} {k k' : UInt64} {waiter : Nat}
    (h : (tdp.removePending k).pendingRequests.lookup k' = some waiter) :
    k' ≠ k ∧ tdp.pendingRequests.lookup k' = some waiter := by
  simp only [TdpHandle.removePending, DashMap.lookup_erase_eq] at h
  by_cases hk : k' = k
  · simp [hk] at h
  · exact ⟨hk, by simpa [hk] using h⟩

/-- What recording a message does to the table. -/
theorem record_table (tdp : TdpHandle) (msg : TemplateDistribution) :
    (tdp.record msg).oneshots = tdp.oneshots ∧ (tdp.record msg).nextOneshot = tdp.nextOneshot ∧
    ∀ k waiter, (tdp.record msg).pendingRequests.lookup k = some waiter →
      tdp.pendingRequests.lookup k = some waiter ∧ ∀ p, msg.response? = some p → p.1 ≠ k := by
  cases msg with
  | requestTransactionDataSuccess k l =>
    refine ⟨rfl, rfl, fun k' waiter h => ?_⟩
    obtain ⟨hne, hk⟩ := lookup_removePending h
    refine ⟨hk, fun p hp => ?_⟩
    cases hp
    exact hne.symm
  | requestTransactionDataError k code =>
    refine ⟨rfl, rfl, fun k' waiter h => ?_⟩
    obtain ⟨hne, hk⟩ := lookup_removePending h
    refine ⟨hk, fun p hp => ?_⟩
    cases hp
    exact hne.symm
  | setNewPrevHash m => exact ⟨rfl, rfl, fun _ _ h => ⟨h, fun p hp => by cases hp⟩⟩
  | newTemplate n => exact ⟨rfl, rfl, fun _ _ h => ⟨h, fun p hp => by cases hp⟩⟩
  | other => exact ⟨rfl, rfl, fun _ _ h => ⟨h, fun p hp => by cases hp⟩⟩

/-- A response takes the waiter it finds. -/
theorem TeeWaiters.taken {msg : TemplateDistribution} {found : Nat} (hs : TeeWaiters log s)
    (hhand : s.hand = .holding msg) (hfound : s.engine.tdp.waiterFor msg = some found) :
    TeeWaiters (log ++ [.recorded msg (some found)])
      { s with engine := { s.engine with tdp := s.engine.tdp.record msg }
               hand := .recorded msg (some found) } := by
  obtain ⟨hones, hnext, htable⟩ := record_table s.engine.tdp msg
  obtain ⟨⟨k₀, result⟩, hresponse, hslot⟩ := Option.bind_eq_some_iff.mp hfound
  have htakes : takes (log ++ [.recorded msg (some found)]) = takes log ++ [(found, result)] := by
    simp [takes_snoc, TeeEvent.take?, hresponse]
  have hrecorded : (TeeHand.recorded msg (some found)).unsent = [(found, result)] := by
    simp [TeeHand.recorded, hresponse, TeeHand.unsent]
  have hsends : sends (log ++ [.recorded msg (some found)]) = sends log := by
    simp [sends_snoc, TeeEvent.send?]
  have hsent : takes log = sends log := by
    have h := hs.sent
    rw [hhand] at h
    simpa [TeeHand.unsent] using h
  obtain ⟨hlt₀, hfree₀, -⟩ := hs.pending k₀ found hslot
  have hreceipts : receipts (log ++ [.recorded msg (some found)]) = receipts log := by
    simp [receipts_snoc, TeeEvent.receipt?]
  refine ⟨?_, ?_, ?_, ?_, ?_, ?_, ?_, ?_⟩
  · rw [htakes, hsends, hrecorded, hsent]
  · rw [hsends, hreceipts]
    intro waiter result
    show (s.engine.tdp.record msg).oneshots.lookup waiter = some result ↔ _
    rw [hones]
    exact hs.oneshots waiter result
  · rw [hsends, hreceipts]
    exact hs.received
  · rw [hreceipts]
    exact hs.receivedOnce
  · rw [htakes, List.map_append, List.map_singleton]
    refine List.nodup_append.mpr ⟨hs.once, List.nodup_singleton _, ?_⟩
    intro waiter hwaiter waiter' hwaiter'
    obtain ⟨p, hp, rfl⟩ := List.mem_map.mp hwaiter
    rw [List.mem_singleton.mp hwaiter']
    exact hfree₀ p hp
  · rw [htakes]
    intro p hp
    show p.1 < (s.engine.tdp.record msg).nextOneshot
    rw [hnext]
    rcases List.mem_append.mp hp with hold | hnew
    · exact hs.handed p hold
    · rw [List.mem_singleton.mp hnew]
      exact hlt₀
  · rw [htakes]
    intro k waiter h
    obtain ⟨hk, hne⟩ := htable k waiter h
    obtain ⟨hlt, hfree, hreg⟩ := hs.pending k waiter hk
    refine ⟨hlt.trans_eq hnext.symm, ?_, List.mem_append_left _ hreg⟩
    intro p hp
    rcases List.mem_append.mp hp with hold | hnew
    · exact hfree p hold
    · -- the waiter that was taken is in the table under one template only
      rw [List.mem_singleton.mp hnew]
      intro heq
      have heq : found = waiter := heq
      rw [heq] at hslot
      exact hne _ hresponse (hs.distinct k₀ k waiter hslot hk)
  · intro k k' waiter h h'
    exact hs.distinct k k' waiter (htable k waiter h).1 (htable k' waiter h').1

theorem TeeWaiters.record {msg : TemplateDistribution} (hs : TeeWaiters log s)
    (hhand : s.hand = .holding msg) :
    TeeWaiters (log ++ [.recorded msg (s.engine.tdp.waiterFor msg)])
      { s with engine := { s.engine with tdp := s.engine.tdp.record msg }
               hand := .recorded msg (s.engine.tdp.waiterFor msg) } := by
  obtain ⟨hones, hnext, htable⟩ := record_table s.engine.tdp msg
  cases hfound : s.engine.tdp.waiterFor msg with
  | none =>
    apply hs.mono rfl rfl rfl
    · rw [hhand]
      unfold TeeHand.recorded
      split <;> simp_all [TeeHand.unsent]
    · exact hones
    · exact hnext.ge
    · exact fun k waiter h => (htable k waiter h).1
  | some found => exact hs.taken hhand hfound

/-- Sending puts the response where it belongs. -/
theorem TeeWaiters.resolve {msg : TemplateDistribution} {waiter : Nat} {result : TxDataResult}
    (hs : TeeWaiters log s) (hhand : s.hand = .resolving msg waiter result) :
    TeeWaiters (log ++ [.resolved waiter result])
      { s with engine := { s.engine with tdp := s.engine.tdp.resolve waiter result }
               hand := .forwarding msg } := by
  have htakes : takes (log ++ [.resolved waiter result]) = takes log := by
    simp [takes_snoc, TeeEvent.take?]
  have hsends : sends (log ++ [.resolved waiter result]) = sends log ++ [(waiter, result)] := by
    simp [sends_snoc, TeeEvent.send?]
  have hreceipts : receipts (log ++ [.resolved waiter result]) = receipts log := by
    simp [receipts_snoc, TeeEvent.receipt?]
  have hsent := hs.sent
  rw [hhand] at hsent
  -- the waiter was not sent to before
  have hfresh : ∀ r, (waiter, r) ∉ sends log := by
    intro r hr
    have honce := hs.once
    rw [hsent, List.map_append] at honce
    exact (List.disjoint_of_nodup_append honce) (List.mem_map_of_mem hr)
      (by simp [TeeHand.unsent])
  refine ⟨?_, ?_, ?_, ?_, ?_, ?_, ?_, hs.distinct⟩
  · rw [htakes, hsends, hsent]
    simp [TeeHand.unsent]
  · rw [hsends, hreceipts]
    intro waiter' result'
    show (s.engine.tdp.oneshots.insert waiter result).lookup waiter' = some result' ↔ _
    rw [DashMap.lookup_insert_eq]
    by_cases heq : waiter' = waiter
    · rw [heq, if_pos rfl]
      have hunreceived : (waiter, result') ∉ receipts log := fun hmem =>
        hfresh result' (hs.received _ hmem)
      simp [hfresh result', hunreceived, eq_comm]
    · rw [if_neg heq, hs.oneshots waiter' result']
      simp [heq]
  · rw [hsends, hreceipts]
    exact fun p hp => List.mem_append_left _ (hs.received p hp)
  · rw [hreceipts]
    exact hs.receivedOnce
  · rw [htakes]
    exact hs.once
  · rw [htakes]
    exact hs.handed
  · rw [htakes]
    intro k waiter' h
    obtain ⟨hlt, hfree, hreg⟩ := hs.pending k waiter' h
    exact ⟨hlt, hfree, List.mem_append_left _ hreg⟩

/-- A handler receives what its one-shot holds. -/
theorem TeeWaiters.receive {k : UInt64} {waiter : Nat} {result : TxDataResult} {engine : Engine}
    (hs : TeeWaiters log s) (hheld : s.engine.tdp.oneshots.lookup waiter = some result)
    (htdp : engine.tdp =
      { s.engine.tdp with oneshots := s.engine.tdp.oneshots.erase waiter }) :
    TeeWaiters (log ++ [.op ⟨.awaitResponse k waiter, .received result⟩])
      { s with engine := engine } := by
  have htakes : takes (log ++ [.op ⟨.awaitResponse k waiter, .received result⟩]) =
      takes log := by simp [takes_snoc, TeeEvent.take?]
  have hsends : sends (log ++ [.op ⟨.awaitResponse k waiter, .received result⟩]) =
      sends log := by simp [sends_snoc, TeeEvent.send?]
  have hreceipts : receipts (log ++ [.op ⟨.awaitResponse k waiter, .received result⟩]) =
      receipts log ++ [(waiter, result)] := by simp [receipts_snoc, TeeEvent.receipt?]
  obtain ⟨hsent, hunreceived⟩ := (hs.oneshots waiter result).mp hheld
  refine ⟨?_, ?_, ?_, ?_, ?_, ?_, ?_, ?_⟩
  · rw [htakes, hsends]
    exact hs.sent
  · rw [hsends, hreceipts, htdp]
    intro waiter' result'
    show (s.engine.tdp.oneshots.erase waiter).lookup waiter' = some result' ↔ _
    rw [DashMap.lookup_erase_eq]
    by_cases heq : waiter' = waiter
    · rw [heq, if_pos rfl]
      have hnone : (waiter, result') ∈ sends log → result' = result := fun h =>
        hs.sends_unique h hsent
      constructor
      · intro h
        cases h
      · intro h
        exact absurd (hnone h.1 ▸ List.mem_append_right _ List.mem_cons_self) h.2
    · rw [if_neg heq, hs.oneshots waiter' result']
      simp [heq]
  · rw [hsends, hreceipts]
    intro p hp
    rcases List.mem_append.mp hp with hold | hnew
    · exact hs.received p hold
    · rw [List.mem_singleton.mp hnew]
      exact hsent
  · rw [hreceipts, List.nodup_append]
    refine ⟨hs.receivedOnce, List.nodup_singleton _, fun p hp q hq heq => ?_⟩
    rw [heq, List.mem_singleton.mp hq] at hp
    exact hunreceived hp
  · rw [htakes]
    exact hs.once
  · rw [htakes, htdp]
    exact hs.handed
  · rw [htakes, htdp]
    intro k' waiter' h
    obtain ⟨hlt, hfree, hreg⟩ := hs.pending k' waiter' h
    exact ⟨hlt, hfree, List.mem_append_left _ hreg⟩
  · rw [htdp]
    exact hs.distinct

/-- A new waiter has a number that no other has. -/
theorem TeeWaiters.registered {k : UInt64} {engine : Engine} (hs : TeeWaiters log s)
    (htdp : engine.tdp = { s.engine.tdp with
      pendingRequests := s.engine.tdp.pendingRequests.insert k s.engine.tdp.nextOneshot
      nextOneshot := s.engine.tdp.nextOneshot + 1 }) :
    TeeWaiters (log ++ [.op ⟨.registerRequest k, some s.engine.tdp.nextOneshot⟩])
      { s with engine := engine } := by
  have htakes : takes (log ++ [.op ⟨.registerRequest k, some s.engine.tdp.nextOneshot⟩]) =
      takes log := by simp [takes_snoc, TeeEvent.take?]
  have hsends : sends (log ++ [.op ⟨.registerRequest k, some s.engine.tdp.nextOneshot⟩]) =
      sends log := by simp [sends_snoc, TeeEvent.send?]
  -- what the table holds now: the new waiter, or an older one with its number
  have htable : ∀ k' waiter, engine.tdp.pendingRequests.lookup k' = some waiter →
      k' = k ∧ waiter = s.engine.tdp.nextOneshot ∨
        s.engine.tdp.pendingRequests.lookup k' = some waiter ∧
          waiter < s.engine.tdp.nextOneshot := by
    intro k' waiter h
    rw [htdp] at h
    simp only [DashMap.lookup_insert_eq] at h
    by_cases hk : k' = k
    · rw [if_pos hk] at h
      exact Or.inl ⟨hk, (Option.some.inj h).symm⟩
    · rw [if_neg hk] at h
      exact Or.inr ⟨h, (hs.pending k' waiter h).1⟩
  have hreceipts : receipts (log ++ [.op ⟨.registerRequest k, some s.engine.tdp.nextOneshot⟩]) =
      receipts log := by simp [receipts_snoc, TeeEvent.receipt?]
  refine ⟨?_, ?_, ?_, ?_, ?_, ?_, ?_, ?_⟩
  · rw [htakes, hsends]
    exact hs.sent
  · rw [hsends, hreceipts, htdp]
    exact hs.oneshots
  · rw [hsends, hreceipts]
    exact hs.received
  · rw [hreceipts]
    exact hs.receivedOnce
  · rw [htakes]
    exact hs.once
  · rw [htakes, htdp]
    exact fun p hp => Nat.lt_succ_of_lt (hs.handed p hp)
  · rw [htakes]
    intro k' waiter h
    have hnext : engine.tdp.nextOneshot = s.engine.tdp.nextOneshot + 1 := by rw [htdp]
    rcases htable k' waiter h with ⟨rfl, rfl⟩ | ⟨hold, hlt⟩
    · refine ⟨by simp [hnext], fun p hp => Nat.ne_of_lt (hs.handed p hp), by simp⟩
    · obtain ⟨-, hfree, hreg⟩ := hs.pending k' waiter hold
      exact ⟨by simp only [hnext]; omega, hfree, List.mem_append_left _ hreg⟩
  · intro k₁ k₂ waiter h₁ h₂
    rcases htable k₁ waiter h₁ with ⟨rfl, hw₁⟩ | ⟨hold₁, hlt₁⟩
    · rcases htable k₂ waiter h₂ with ⟨rfl, -⟩ | ⟨-, hlt₂⟩
      · rfl
      · omega
    · rcases htable k₂ waiter h₂ with ⟨rfl, hw₂⟩ | ⟨hold₂, -⟩
      · omega
      · exact hs.distinct k₁ k₂ waiter hold₁ hold₂

theorem receipt?_op {op : Event engineSig} (h : ∀ k waiter, op.1 ≠ .awaitResponse k waiter) :
    (TeeEvent.op op).receipt? = none := by
  obtain ⟨o, r⟩ := op
  cases o with
  | awaitResponse k waiter => exact absurd rfl (h k waiter)
  | _ => rfl

/-- Handlers register fresh waiters, receive and clean up. -/
theorem TeeWaiters.handler {tdp : TdpHandle} {op : Event engineSig} {engine : Engine}
    (hs : TeeWaiters log s) (hstep : RequestsStep s.engine.tdp op tdp)
    (htdp : engine.tdp = tdp) : TeeWaiters (log ++ [.op op]) { s with engine := engine } := by
  have hunchanged : tdp = s.engine.tdp → (TeeEvent.op op).receipt? = none →
      TeeWaiters (log ++ [.op op]) { s with engine := engine } :=
    fun h hreceipt => hs.of_eq (htdp.trans h) rfl rfl hreceipt rfl
  cases hstep with
  | other _ hreg hawait hremove => exact hunchanged rfl (receipt?_op hawait)
  | refused k htaken => exact hunchanged rfl rfl
  | elapsed k waiter hnone => exact hunchanged rfl rfl
  | senderDropped k waiter hnone hgone => exact hunchanged rfl rfl
  | registered k hfree => exact hs.registered htdp
  | received k waiter result hsent => exact hs.receive hsent htdp
  | removed k =>
    refine hs.mono rfl rfl rfl rfl ?_ ?_ ?_
    · rw [htdp]
    · rw [htdp]
    · rw [htdp]
      exact fun k' waiter h => (lookup_removePending h).2

theorem TeeStep.waitersKept (h : TeeStep s e s') (hs : TeeWaiters log s) :
    TeeWaiters (log ++ [e]) s' := by
  cases h with
  | arrive msg hopen => exact hs.of_eq rfl rfl rfl rfl rfl
  | closeTp => exact hs.of_eq rfl rfl rfl rfl rfl
  | closeCm => exact hs.of_eq rfl rfl rfl rfl rfl
  | recv msg rest hhand hqueue => exact hs.of_eq rfl rfl rfl rfl (by simp [hhand, TeeHand.unsent])
  | drained hhand hqueue hclosed => exact hs.of_eq rfl rfl rfl rfl (by simp [hhand, TeeHand.unsent])
  | record msg hhand => exact hs.record hhand
  | resolve msg waiter result hhand => exact hs.resolve hhand
  | forward msg hhand hopen => exact hs.of_eq rfl rfl rfl rfl (by simp [hhand, TeeHand.unsent])
  | refused msg hhand hclosed => exact hs.of_eq rfl rfl rfl rfl (by simp [hhand, TeeHand.unsent])
  | aborted hawait =>
    refine hs.of_eq rfl rfl rfl rfl ?_
    rcases hawait with hhand | ⟨msg, hhand⟩
    · simp [hhand, TeeHand.unsent]
    · simp [hhand, TeeHand.unsent]
  | handler o r engine hop => exact hs.handler (parInterp_requests hop) rfl

theorem start_ordered : Ordered [] .start := ⟨[], ⟨rfl, rfl⟩, rfl⟩

theorem start_waitersKept : TeeWaiters [] .start where
  sent := rfl
  oneshots := by
    intro waiter result
    simp [TeeState.start, Engine.new, sends]
  received := by
    intro p hp
    cases hp
  receivedOnce := List.nodup_nil
  once := List.nodup_nil
  handed := by
    intro p hp
    cases hp
  pending := by
    intro k waiter h
    simp [TeeState.start, Engine.new] at h
  distinct := by
    intro k k' waiter h
    simp [TeeState.start, Engine.new] at h

theorem TeeRun.inv (h : TeeRun log s) : Ordered log s ∧ TeeWaiters log s :=
  Trace.history (P := fun log s => Ordered log s ∧ TeeWaiters log s)
    ⟨start_ordered, start_waitersKept⟩
    (fun _ _ _ _ hs hstep => ⟨hstep.ordered hs.1, hstep.waitersKept hs.2⟩) log h

/-- What was passed on was recorded, and what was recorded arrived. -/
theorem TeeHand.Places.le {hand : TeeHand} {delivered seen queue input : List TemplateDistribution}
    (h : hand.Places delivered seen queue input) : delivered <+: seen ∧ seen <+: input := by
  cases hand with
  | waiting => exact ⟨h.1 ▸ List.prefix_rfl, h.2 ▸ List.prefix_append _ _⟩
  | holding msg => exact ⟨h.1 ▸ List.prefix_rfl, h.2 ▸ List.prefix_append _ _⟩
  | resolving msg waiter result =>
    exact ⟨h.1 ▸ List.prefix_append _ _, h.2 ▸ List.prefix_append _ _⟩
  | forwarding msg => exact ⟨h.1 ▸ List.prefix_append _ _, h.2 ▸ List.prefix_append _ _⟩
  | exited => exact h

/-- A recorded message found the waiter that the table held for it. -/
theorem TeeRun.recorded {before after : List TeeEvent} {msg : TemplateDistribution}
    {found : Option Nat} (h : TeeRun (before ++ .recorded msg found :: after) s) :
    ∃ t, TeeRun before t ∧ found = t.engine.tdp.waiterFor msg := by
  obtain ⟨t, hbefore, hrest⟩ := (Trace.append_iff _ _ _ _).mp h
  obtain ⟨u, hstep, -⟩ := hrest
  cases hstep with
  | record msg hhand => exact ⟨t, hbefore, rfl⟩

/-- At every point of every run: what was passed on is a prefix of what
    arrived; the snapshots are those of a prefix at least as long; a response
    takes the waiter registered for its template at that moment, if any, and
    that waiter alone is sent the response, once; its one-shot holds the
    response from then on, until the handler receives it. -/
theorem tee_transparent (h : TeeRun log s) :
    s.delivered <+: arrivals log ∧
    (∃ seen, s.delivered <+: seen ∧ seen <+: arrivals log ∧
      s.engine.tdp.lastPrevHash = (prevHashes seen).getLast? ∧
      s.engine.tdp.lastTemplate = (templates seen).getLast?) ∧
    (∀ before msg found after, log = before ++ .recorded msg found :: after →
      ∃ t, TeeRun before t ∧ found = t.engine.tdp.waiterFor msg ∧
        ∀ waiter, found = some waiter → ∃ k result, msg.response? = some (k, result) ∧
          .op ⟨.registerRequest k, some waiter⟩ ∈ before) ∧
    takes log = sends log ++ s.hand.unsent ∧ ((takes log).map Prod.fst).Nodup ∧
    (∀ waiter result, s.engine.tdp.oneshots.lookup waiter = some result ↔
      (waiter, result) ∈ sends log ∧ (waiter, result) ∉ receipts log) ∧
    (∀ p ∈ receipts log, p ∈ sends log) ∧ (receipts log).Nodup := by
  obtain ⟨⟨seen, hplaces, hsnap⟩, hwaiters⟩ := TeeRun.inv h
  obtain ⟨hdelivered, hseen⟩ := hplaces.le
  obtain ⟨hprev, htemplate⟩ := Prod.mk.inj hsnap
  refine ⟨hdelivered.trans hseen, ⟨seen, hdelivered, hseen, hprev, htemplate⟩, ?_, hwaiters.sent,
    hwaiters.once, hwaiters.oneshots, hwaiters.received, hwaiters.receivedOnce⟩
  intro before msg found after heq
  rw [heq] at h
  obtain ⟨t, hbefore, hfound⟩ := TeeRun.recorded h
  refine ⟨t, hbefore, hfound, ?_⟩
  intro waiter hwaiter
  rw [hwaiter] at hfound
  obtain ⟨⟨k, result⟩, hresponse, hslot⟩ := Option.bind_eq_some_iff.mp hfound.symm
  exact ⟨k, result, hresponse, ((TeeRun.inv hbefore).2.pending k waiter hslot).2.2⟩

end

/-! ## The tee among the calls -/

/-- Send to the one-shot of a waiter. -/
def Engine.resolved (s : Engine) (waiter : Nat) (result : TxDataResult) : Engine :=
  { s with tdp := s.tdp.resolve waiter result }

/-- What the tee is about to send is sent. -/
def TeeHand.finish : TeeHand → Engine → Engine
  | .resolving _ waiter result, s => s.resolved waiter result
  | _, s => s

/-- The operation waits for a response that the tee holds. -/
def TeeHand.Holds (hand : TeeHand) (o : Op) : Prop :=
  ∃ msg waiter result k, hand = .resolving msg waiter result ∧ o = .awaitResponse k waiter

section

variable {α ι : Type} [DecidableEq ι]

/-- The tee and concurrent calls. -/
inductive TeeCallStep : TeeState × (ι → Thread engineSig α) → Option ι × TeeEvent →
    TeeState × (ι → Thread engineSig α) → Prop
  | tee {s s' : TeeState} {e : TeeEvent} {threads : ι → Thread engineSig α}
      (he : ∀ op, e ≠ .op op) (h : TeeStep s e s') :
      TeeCallStep (s, threads) (none, e) (s', threads)
  /-- The operations of a call, but no wait that the tee is about to end. -/
  | call {s s' : TeeState} {threads : ι → Thread engineSig α} (i : ι) {o : Op}
      {k : o.Res → Handler α} {r : o.Res} (hprog : (threads i).prog = .op o k)
      (hfree : ¬ s.hand.Holds o) (h : TeeStep s (.op ⟨o, r⟩) s') :
      TeeCallStep (s, threads) (some i, .op ⟨o, r⟩)
        (s', Function.update threads i ⟨k r, (threads i).log ++ [⟨o, r⟩]⟩)

/-- The calls, with the tee's message observed. -/
def atOnce (s : TeeState × (ι → Thread engineSig α)) : Config engineSig Engine α ι :=
  ⟨s.1.hand.finish s.1.engine, s.2⟩

/-- A message is observed when it is recorded. -/
def atOnce? : Option ι × TeeEvent → Option (Label engineSig ι TemplateDistribution)
  | (some i, .op e) => some (.thread i e)
  | (_, .recorded msg _) => some (.env msg)
  | _ => none

end

/-- An operation that waits for nothing does not see the one-shots. -/
theorem step_resolved (env : Env) (s : Engine) (waiter : Nat) (result : TxDataResult) {o : Op}
    (ho : ∀ k w, o ≠ .awaitResponse k w) :
    env.step (s.resolved waiter result) o =
      ((env.step s o).1, (env.step s o).2.resolved waiter result) := by
  cases o with
  | awaitResponse k w => exact absurd rfl (ho k w)
  | registerRequest k =>
    have hslot : (s.tdp.resolve waiter result).register k =
        ((s.tdp.register k).1, (s.tdp.register k).2.resolve waiter result) := by
      unfold TdpHandle.register TdpHandle.resolve
      simp only
      split_ifs <;> rfl
    show (((s.tdp.resolve waiter result).register k).1, _) = _
    rw [hslot]
    show _ = _
    simp only [Env.step, Engine.resolved, hslot]
  | _ => rfl

theorem erase_insert_of_ne {m : DashMap Nat TxDataResult} {w w' : Nat} (h : w' ≠ w)
    (result : TxDataResult) : (m.insert w result).erase w' = (m.erase w').insert w result := by
  apply AList.ext
  show ((m.insert w result).entries).kerase w' = ((m.erase w').insert w result).entries
  rw [AList.entries_insert, AList.entries_insert, List.kerase_cons_ne h]
  exact congrArg _ (List.kerase_comm _ _ _)

/-- The tee's send and an operation of a call can change places, unless the
    operation waits for it. -/
theorem parInterp_resolved {s s' : Engine} {o : Op} {r : o.Res} {waiter : Nat}
    {result : TxDataResult} (h : parInterp s o r s') (ho : ∀ k, o ≠ .awaitResponse k waiter) :
    parInterp (s.resolved waiter result) o r (s'.resolved waiter result) := by
  by_cases hwait : ∃ k w, o = .awaitResponse k w
  · obtain ⟨k, w, rfl⟩ := hwait
    have hne : w ≠ waiter := fun heq => ho k (heq ▸ rfl)
    have hlookup : (s.tdp.oneshots.insert waiter result).lookup w = s.tdp.oneshots.lookup w := by
      rw [DashMap.lookup_insert_eq, if_neg hne]
    cases r with
    | received x =>
      obtain ⟨hsent, rfl⟩ := h
      refine ⟨hlookup.trans hsent, ?_⟩
      show _ = { s.resolved waiter result with tdp :=
        { (s.resolved waiter result).tdp with
          oneshots := (s.tdp.oneshots.insert waiter result).erase w } }
      rw [erase_insert_of_ne hne]
      rfl
    | elapsed =>
      obtain ⟨hnone, rfl⟩ := h
      exact ⟨hlookup.trans hnone, rfl⟩
    | senderDropped =>
      obtain ⟨hnone, hgone, rfl⟩ := h
      exact ⟨hlookup.trans hnone, hgone, rfl⟩
  · have hne : ∀ k w, o ≠ .awaitResponse k w := fun k w heq => hwait ⟨k, w, heq⟩
    rw [parInterp_iff hne] at h ⊢
    obtain ⟨env, heq⟩ := h
    refine ⟨env, ?_⟩
    rw [step_resolved env s waiter result hne, ← heq]

/-- The state in which a message was recorded, with its response sent, is the
    one in which it was observed. -/
theorem finish_recorded (s : Engine) (msg : TemplateDistribution) :
    (TeeHand.recorded msg (s.tdp.waiterFor msg)).finish { s with tdp := s.tdp.record msg } =
      teeAct msg s := by
  have hobserve := observe_eq_record s.tdp msg
  unfold teeAct TeeHand.recorded
  rw [hobserve]
  cases msg.response? with
  | none => rfl
  | some p => cases s.tdp.waiterFor msg <;> rfl

section

variable {α ι : Type} [DecidableEq ι] {s s' : TeeState × (ι → Thread engineSig α)}

/-- One step, with what the tee is about to send sent. -/
theorem TeeCallStep.atOnce {l : Option ι × TeeEvent} (h : TeeCallStep s l s') :
    Trace (Step parInterp teeAct) (atOnce s) (atOnce? l).toList (atOnce s') := by
  cases h with
  | @call s s' threads i o k r hprog hfree h =>
    cases h with
    | handler _ _ engine hop =>
      refine ⟨_, .thread i hprog ?_, rfl⟩
      show parInterp (s.hand.finish s.engine) o r (s.hand.finish engine)
      cases hhand : s.hand with
      | resolving msg waiter result =>
        exact parInterp_resolved hop fun k heq => hfree ⟨msg, waiter, result, k, hhand, heq⟩
      | _ => exact hop
  | @tee s s' e threads he h =>
    have hstay : s'.hand.finish s'.engine = s.hand.finish s.engine →
        (⟨s'.hand.finish s'.engine, threads⟩ : Config engineSig Engine α ι) =
          ⟨s.hand.finish s.engine, threads⟩ := fun heq => congrArg (Config.mk · threads) heq
    cases h with
    | handler o r engine hop => exact absurd rfl (he _)
    | record msg hhand =>
      refine ⟨_, .env msg, ?_⟩
      show _ = (⟨teeAct msg (s.hand.finish s.engine), threads⟩ : Config engineSig Engine α ι)
      rw [hhand]
      exact congrArg (Config.mk · threads) (finish_recorded s.engine msg)
    | resolve msg waiter result hhand => exact hstay (by rw [hhand]; rfl)
    | aborted hawait =>
      refine hstay ?_
      rcases hawait with hhand | ⟨msg, hhand⟩ <;> rw [hhand] <;> rfl
    | recv msg rest hhand hqueue => exact hstay (by rw [hhand]; rfl)
    | drained hhand hqueue hclosed => exact hstay (by rw [hhand]; rfl)
    | forward msg hhand hopen => exact hstay (by rw [hhand]; rfl)
    | refused msg hhand hclosed => exact hstay (by rw [hhand]; rfl)
    | _ => rfl

/-- Calls among the steps of the tee are calls among messages that are observed
    at once, in every run in which no wait ends while the tee holds its
    response. -/
theorem tee_observes {log : List (Option ι × TeeEvent)} (h : Trace TeeCallStep s log s') :
    Trace (Step parInterp teeAct) (atOnce s) (log.filterMap atOnce?) (atOnce s') :=
  Trace.project (fun _ _ _ hstep => hstep.atOnce) h

end

/-- A template and the response to a request for its bodies. -/
def Sample.responded : List TeeEvent :=
  [.arrived (.newTemplate ⟨1, false⟩), .arrived (.requestTransactionDataSuccess 1 []),
   .received (.newTemplate ⟨1, false⟩), .op ⟨.registerRequest 1, some 0⟩,
   .recorded (.newTemplate ⟨1, false⟩) none, .forwarded (.newTemplate ⟨1, false⟩),
   .received (.requestTransactionDataSuccess 1 []),
   .recorded (.requestTransactionDataSuccess 1 []) (some 0), .resolved 0 (.success [])]

/-- The response is with its waiter before it is passed on. -/
theorem response_resolved_before_forwarding :
    ∃ s, TeeRun Sample.responded s ∧ s.delivered = [.newTemplate ⟨1, false⟩] ∧
      s.delivered <+: arrivals Sample.responded ∧ sends Sample.responded = [(0, .success [])] ∧
      takes Sample.responded = sends Sample.responded ++ s.hand.unsent ∧
      s.engine.tdp.oneshots.lookup 0 = some (.success []) := by
  have hrun : ∃ s, TeeRun Sample.responded s ∧ s.delivered = [.newTemplate ⟨1, false⟩] := by
    refine ⟨_, ⟨_, .arrive _ rfl, _, .arrive _ rfl, _, .recv _ _ rfl rfl,
      _, .handler (.registerRequest 1) (some 0) _ ⟨Env.offline, rfl⟩, _, .record _ rfl,
      _, .forward _ rfl rfl, _, .recv _ _ rfl rfl, _, .record _ rfl, _, .resolve _ _ _ rfl, rfl⟩,
      rfl⟩
  obtain ⟨s, hrun, hdelivered⟩ := hrun
  obtain ⟨hsub, -, -, hsent, -, honeshots, -⟩ := tee_transparent hrun
  refine ⟨s, hrun, hdelivered, hsub, rfl, hsent, (honeshots 0 _).mpr ⟨?_, ?_⟩⟩
  · exact List.mem_cons_self
  · exact List.not_mem_nil

end Sv2P2pool
