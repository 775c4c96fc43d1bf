import Sv2P2pool.Bitcoin.Transaction
import Sv2P2pool.Framework.Trace

/-! # The Tip Snapshot of the IPC Actor (`share_chain.rs`)

    `actor_main` primes `AtomicTipSnapshot` with one read of the daemon's tip
    and of its height, then subscribes to tip changes. Each pushed tip is
    stored by a callback, which also triggers a task that fetches the height.
    All of this runs on one thread, so a callback is one step; the daemon's
    tip moves between any two steps.
-/

namespace Sv2P2pool

open ByteCodec Bitcoin

/-! ## The snapshot -/

structure AtomicTipSnapshot where
  tipSet : Bool
  tip : BlockHash
  heightSet : Bool
  height : UInt32

namespace AtomicTipSnapshot

variable (snapshot : AtomicTipSnapshot)

def empty : AtomicTipSnapshot := ⟨false, U256.allZeros, false, 0⟩

def loadTip : Option BlockHash := if snapshot.tipSet then some snapshot.tip else none

def loadHeight : Option UInt32 := if snapshot.heightSet then some snapshot.height else none

def storeTip (tip : BlockHash) : AtomicTipSnapshot := { snapshot with tip := tip, tipSet := true }

def storeHeight (height : UInt32) : AtomicTipSnapshot :=
  { snapshot with height := height, heightSet := true }

@[simp] theorem loadTip_empty : empty.loadTip = none := rfl

@[simp] theorem loadTip_storeTip (tip : BlockHash) :
    (snapshot.storeTip tip).loadTip = some tip := rfl

@[simp] theorem loadTip_storeHeight (height : UInt32) :
    (snapshot.storeHeight height).loadTip = snapshot.loadTip := rfl

@[simp] theorem loadHeight_storeTip (tip : BlockHash) :
    (snapshot.storeTip tip).loadHeight = snapshot.loadHeight := rfl

@[simp] theorem loadHeight_storeHeight (height : UInt32) :
    (snapshot.storeHeight height).loadHeight = some height := rfl

end AtomicTipSnapshot

inductive ChainTipResult where
  | tip (tip : BlockHash)
  | uninitialised
  deriving DecidableEq

inductive TipHeightResult where
  | height (height : UInt32)
  | uninitialised
  deriving DecidableEq

/-- What a reply to `get_chain_tip` leaves; `none` is a failed call. -/
def AtomicTipSnapshot.tipReplied (snapshot : AtomicTipSnapshot) :
    Option ChainTipResult → AtomicTipSnapshot
  | some (.tip tip) => snapshot.storeTip tip
  | some .uninitialised => snapshot
  | none => snapshot

/-- What a reply to `get_tip_height` leaves. -/
def AtomicTipSnapshot.heightReplied (snapshot : AtomicTipSnapshot) :
    Option TipHeightResult → AtomicTipSnapshot
  | some (.height height) => snapshot.storeHeight height
  | some .uninitialised => snapshot
  | none => snapshot

/-! ## The actor -/

/-- The awaits of `actor_main`, after the connection. A reply is on its way
    between the daemon and the actor. -/
inductive ActorPhase where
  | readingTip
  | tipReply (reply : Option ChainTipResult)
  | readingHeight
  | heightReply (reply : Option TipHeightResult)
  | subscribing
  /-- The daemon has accepted the subscription. -/
  | acceptReply
  /-- The request loop, with a subscription or without. -/
  | serving (subscribed : Bool)
  deriving DecidableEq

/-- The height-fetcher task. -/
inductive Fetcher where
  /-- At `height_trigger_rx.recv()`. -/
  | idle
  | draining
  /-- Past the drain, before the call. -/
  | issuing
  | awaiting
  | replied (reply : Option TipHeightResult)
  | exited
  deriving DecidableEq

structure ActorState where
  /-- The daemon's tip. -/
  daemonTip : Option BlockHash
  phase : ActorPhase
  snapshot : AtomicTipSnapshot
  /-- The daemon holds the callback. -/
  accepted : Bool
  /-- Pushed to the callback and not delivered yet. -/
  pushes : List BlockHash
  /-- The callback has not been dropped with the connection. -/
  connected : Bool
  /-- The triggers in the channel. -/
  trigger : Nat
  fetcher : Fetcher

def triggerCapacity : Nat := 8

namespace ActorState

/-- After `connect` and `get_network`. -/
def start (daemonTip : Option BlockHash) : ActorState where
  daemonTip := daemonTip
  phase := .readingTip
  snapshot := .empty
  accepted := false
  pushes := []
  connected := true
  trigger := 0
  fetcher := .idle

/-- The callback of `subscribe_chain_tip`. -/
def onNewTip (s : ActorState) (bytes : Bytes) : ActorState :=
  if h : bytes.length = 32 then
    { s with
      snapshot := s.snapshot.storeTip ⟨bytes, h⟩
      -- `try_send`: a trigger that does not fit is dropped
      trigger := if s.trigger < triggerCapacity then s.trigger + 1 else s.trigger }
  else s

/-- What the daemon answers `get_chain_tip`. -/
def chainTip (s : ActorState) : ChainTipResult :=
  match s.daemonTip with
  | some tip => .tip tip
  | none => .uninitialised

end ActorState

inductive ActorEvent where
  | changed (tip : BlockHash)
  | tipAnswered (reply : Option ChainTipResult)
  | tipHandled
  | heightAnswered (reply : Option TipHeightResult)
  | heightHandled
  | accepted
  | subscribed (ok : Bool)
  | callback (tip : BlockHash)
  | disconnected
  | triggered
  | drained
  | emptied
  | issued
  | answered (reply : Option TipHeightResult)
  | stored
  | exited
  deriving DecidableEq

inductive ActorStep (s : ActorState) : ActorEvent → ActorState → Prop where
  /-- The daemon pushes what happens after it accepted the subscription. -/
  | change (tip : BlockHash) (hne : s.daemonTip ≠ some tip) :
      ActorStep s (.changed tip) { s with
        daemonTip := some tip, pushes := if s.accepted then s.pushes ++ [tip] else s.pushes }
  | answerTip (hphase : s.phase = .readingTip) :
      ActorStep s (.tipAnswered (some s.chainTip)) { s with phase := .tipReply (some s.chainTip) }
  | failTip (hphase : s.phase = .readingTip) :
      ActorStep s (.tipAnswered none) { s with phase := .tipReply none }
  | handleTip (reply : Option ChainTipResult) (hphase : s.phase = .tipReply reply) :
      ActorStep s .tipHandled
        { s with snapshot := s.snapshot.tipReplied reply, phase := .readingHeight }
  | answerHeight (reply : Option TipHeightResult) (hphase : s.phase = .readingHeight) :
      ActorStep s (.heightAnswered reply) { s with phase := .heightReply reply }
  | handleHeight (reply : Option TipHeightResult) (hphase : s.phase = .heightReply reply) :
      ActorStep s .heightHandled
        { s with snapshot := s.snapshot.heightReplied reply, phase := .subscribing }
  | accept (hphase : s.phase = .subscribing) :
      ActorStep s .accepted { s with accepted := true, phase := .acceptReply }
  | subscribeOk (hphase : s.phase = .acceptReply) :
      ActorStep s (.subscribed true) { s with phase := .serving true }
  /-- The call failed, before the daemon accepted or after. -/
  | subscribeErr (hphase : s.phase = .subscribing ∨ s.phase = .acceptReply) :
      ActorStep s (.subscribed false) { s with phase := .serving false }
  | deliver (tip : BlockHash) (rest : List BlockHash) (hpushes : s.pushes = tip :: rest)
      (hconnected : s.connected = true) :
      ActorStep s (.callback tip) { s.onNewTip tip.bytes with pushes := rest }
  | disconnect : ActorStep s .disconnected { s with connected := false }
  | recv (n : Nat) (hfetcher : s.fetcher = .idle) (htrigger : s.trigger = n + 1) :
      ActorStep s .triggered { s with trigger := n, fetcher := .draining }
  | drain (n : Nat) (hfetcher : s.fetcher = .draining) (htrigger : s.trigger = n + 1) :
      ActorStep s .drained { s with trigger := n }
  | drainEnd (hfetcher : s.fetcher = .draining) (htrigger : s.trigger = 0) :
      ActorStep s .emptied { s with fetcher := .issuing }
  | issue (hfetcher : s.fetcher = .issuing) :
      ActorStep s .issued { s with fetcher := .awaiting }
  | answer (reply : Option TipHeightResult) (hfetcher : s.fetcher = .awaiting) :
      ActorStep s (.answered reply) { s with fetcher := .replied reply }
  | store (reply : Option TipHeightResult) (hfetcher : s.fetcher = .replied reply) :
      ActorStep s .stored
        { s with snapshot := s.snapshot.heightReplied reply, fetcher := .idle }
  /-- The sender went with the callback and the channel is drained. -/
  | exit (hfetcher : s.fetcher = .idle) (htrigger : s.trigger = 0)
      (hclosed : s.connected = false) : ActorStep s .exited { s with fetcher := .exited }

/-- A run of the actor against a daemon that starts with tip `d`. -/
abbrev ActorRun (d : Option BlockHash) (log : List ActorEvent) (s : ActorState) : Prop :=
  Trace ActorStep (.start d) log s

/-! ## Reading a run -/

def ActorEvent.change? : ActorEvent → Option BlockHash
  | .changed tip => some tip
  | _ => none

def ActorEvent.read? : ActorEvent → Option BlockHash
  | .tipAnswered (some (.tip tip)) => some tip
  | _ => none

def ActorEvent.reply? : ActorEvent → Option (Option TipHeightResult)
  | .answered reply => some reply
  | _ => none

/-- The daemon's tip changes. -/
def changes (log : List ActorEvent) : List BlockHash := log.filterMap ActorEvent.change?

/-- The daemon's tip after a run from `d`. -/
def tipAfter (d : Option BlockHash) (log : List ActorEvent) : Option BlockHash :=
  (changes log).getLast?.or d

/-- The tip with which the initial `get_chain_tip` was answered, if any. -/
def initialTip (log : List ActorEvent) : Option BlockHash :=
  (log.filterMap ActorEvent.read?).getLast?

/-- The replies to the fetcher. -/
def heightReplies (log : List ActorEvent) : List (Option TipHeightResult) :=
  log.filterMap ActorEvent.reply?

section

variable {d : Option BlockHash} {log : List ActorEvent} {s s' : ActorState} {e : ActorEvent}

theorem onNewTip_bytes (s : ActorState) (tip : BlockHash) :
    s.onNewTip tip.bytes = { s with
      snapshot := s.snapshot.storeTip tip
      trigger := if s.trigger < triggerCapacity then s.trigger + 1 else s.trigger } := by
  unfold ActorState.onNewTip
  rw [dif_pos tip.length_eq]

theorem changes_snoc (log : List ActorEvent) (e : ActorEvent) :
    changes (log ++ [e]) = changes log ++ e.change?.toList := by
  unfold changes
  cases he : e.change? <;> simp [he]

theorem tipAfter_snoc (d : Option BlockHash) (log : List ActorEvent) (e : ActorEvent) :
    tipAfter d (log ++ [e]) = e.change?.or (tipAfter d log) := by
  unfold tipAfter
  rw [changes_snoc]
  cases e.change? <;> simp

theorem initialTip_snoc (log : List ActorEvent) (e : ActorEvent) :
    initialTip (log ++ [e]) = e.read?.or (initialTip log) := by
  unfold initialTip
  cases he : e.read? <;> simp [he]

@[simp] theorem heightReplied_loadTip (snapshot : AtomicTipSnapshot)
    (reply : Option TipHeightResult) :
    (snapshot.heightReplied reply).loadTip = snapshot.loadTip := by
  rcases reply with _ | ⟨height⟩ | _ <;> rfl

/-! ## The tip -/

/-- The tip in a reply to `get_chain_tip`. -/
def repliedTip : Option ChainTipResult → Option BlockHash
  | some (.tip tip) => some tip
  | some .uninitialised => none
  | none => none

/-- Before the daemon has the callback. -/
def ActorPhase.early : ActorPhase → Bool
  | .acceptReply => false
  | .serving _ => false
  | _ => true

/-- Before the reply to the initial `get_chain_tip` is handled. -/
def ActorPhase.unprimed : ActorPhase → Bool
  | .readingTip => true
  | .tipReply _ => true
  | _ => false

def ActorPhase.inFlight : ActorPhase → Option BlockHash
  | .tipReply reply => repliedTip reply
  | _ => none

/-- Until the daemon accepts the subscription, what the initial read brought
    is in the snapshot or on its way to it. -/
structure Priming (log : List ActorEvent) (s : ActorState) : Prop where
  quiet : s.phase.early = true → s.accepted = false ∧ s.pushes = []
  unset : s.phase.unprimed = true → s.snapshot.loadTip = none
  primed : s.phase.early = true → s.snapshot.loadTip.or s.phase.inFlight = initialTip log

theorem read?_tipAnswered (reply : Option ChainTipResult) :
    (ActorEvent.tipAnswered reply).read? = repliedTip reply := by
  rcases reply with _ | ⟨tip⟩ | _ <;> rfl

theorem loadTip_tipReplied (snapshot : AtomicTipSnapshot) (reply : Option ChainTipResult) :
    (snapshot.tipReplied reply).loadTip = (repliedTip reply).or snapshot.loadTip := by
  rcases reply with _ | ⟨tip⟩ | _ <;> rfl

/-- A step away from the initial read. -/
theorem Priming.frame (h : Priming log s) (he : e.read? = none) (hphase : s'.phase = s.phase)
    (htip : s.phase.early = true → s'.snapshot.loadTip = s.snapshot.loadTip)
    (hquiet : s.phase.early = true → s'.accepted = false ∧ s'.pushes = []) :
    Priming (log ++ [e]) s' where
  quiet hearly := hquiet (hphase ▸ hearly)
  unset hunprimed := by
    rw [hphase] at hunprimed
    have hearly : s.phase.early = true := by
      revert hunprimed
      cases s.phase <;> simp [ActorPhase.early, ActorPhase.unprimed]
    rw [htip hearly]
    exact h.unset hunprimed
  primed hearly := by
    rw [hphase] at hearly ⊢
    rw [initialTip_snoc, he, htip hearly]
    exact h.primed hearly

/-- The reply to the initial read leaves the daemon. -/
theorem Priming.answered (h : Priming log s) (hphase : s.phase = .readingTip)
    (reply : Option ChainTipResult) :
    Priming (log ++ [.tipAnswered reply]) { s with phase := .tipReply reply } where
  quiet _ := h.quiet (by rw [hphase]; rfl)
  unset _ := h.unset (by rw [hphase]; rfl)
  primed _ := by
    have hunset : s.snapshot.loadTip = none := h.unset (by rw [hphase]; rfl)
    have hprimed := h.primed (by rw [hphase]; rfl)
    rw [hphase, hunset] at hprimed
    rw [initialTip_snoc, read?_tipAnswered, ← hprimed, hunset]
    show (none : Option BlockHash).or (repliedTip reply) = (repliedTip reply).or (none.or none)
    simp

/-- A later await of the connection sequence. -/
theorem Priming.advance (h : Priming log s) (he : e.read? = none)
    (hphase : s.phase.early = true) (hprimed : s'.phase.unprimed = false)
    (hquiet : s'.accepted = s.accepted ∧ s'.pushes = s.pushes)
    (htip : s'.snapshot.loadTip = s.snapshot.loadTip.or s.phase.inFlight)
    (hflight : s'.phase.inFlight = none) : Priming (log ++ [e]) s' where
  quiet _ := by
    rw [hquiet.1, hquiet.2]
    exact h.quiet hphase
  unset hunprimed := by simp [hprimed] at hunprimed
  primed _ := by
    rw [initialTip_snoc, he, hflight, htip, h.primed hphase]
    simp

/-- Past the acceptance nothing is claimed. -/
theorem Priming.of_late (hlate : s.phase.early = false) : Priming log s where
  quiet hearly := by simp [hlate] at hearly
  unset hunprimed := by
    revert hlate hunprimed
    cases s.phase <;> simp [ActorPhase.early, ActorPhase.unprimed]
  primed hearly := by simp [hlate] at hearly

theorem Priming.step (h : Priming log s) (hstep : ActorStep s e s') :
    Priming (log ++ [e]) s' := by
  cases hstep with
  | change tip hne =>
    refine h.frame rfl rfl (fun _ => rfl) ?_
    intro hearly
    have hquiet := h.quiet hearly
    simp [hquiet.1, hquiet.2]
  | answerTip hphase => exact h.answered hphase _
  | failTip hphase => exact h.answered hphase _
  | handleTip reply hphase =>
    refine h.advance rfl (by rw [hphase]; rfl) rfl ⟨rfl, rfl⟩ ?_ rfl
    have hunset : s.snapshot.loadTip = none := h.unset (by rw [hphase]; rfl)
    rw [hphase, loadTip_tipReplied, hunset]
    show (repliedTip reply).or none = none.or (repliedTip reply)
    simp
  | answerHeight reply hphase =>
    refine h.advance rfl (by rw [hphase]; rfl) rfl ⟨rfl, rfl⟩ ?_ rfl
    simp [hphase, ActorPhase.inFlight]
  | handleHeight reply hphase =>
    refine h.advance rfl (by rw [hphase]; rfl) rfl ⟨rfl, rfl⟩ ?_ rfl
    simp [hphase, ActorPhase.inFlight]
  | accept hphase => exact .of_late rfl
  | subscribeOk hphase => exact .of_late rfl
  | subscribeErr hphase => exact .of_late rfl
  | deliver tip rest hpushes hconnected =>
    have hlate : s.phase.early = false := by
      by_contra hearly
      simp [(h.quiet (by simpa using hearly)).2] at hpushes
    refine .of_late ?_
    rw [onNewTip_bytes]
    exact hlate
  | store reply hfetcher =>
    exact h.frame rfl rfl (fun _ => heightReplied_loadTip s.snapshot reply) h.quiet
  -- the connection and the fetcher move neither the phase nor the tip
  | _ => exact h.frame rfl rfl (fun _ => rfl) h.quiet

theorem ActorRun.priming (hrun : ActorRun d log s) : Priming log s := by
  refine Trace.history ⟨fun _ => ⟨rfl, rfl⟩, fun _ => rfl, fun _ => rfl⟩ ?_ log hrun
  intro log s e s' h hstep
  exact h.step hstep

theorem ActorStep.daemonTip_eq (hstep : ActorStep s e s') :
    s'.daemonTip = e.change?.or s.daemonTip := by
  cases hstep with
  | deliver tip rest hpushes hconnected =>
    rw [onNewTip_bytes]
    rfl
  | _ => rfl

theorem ActorRun.daemonTip_eq (hrun : ActorRun d log s) : s.daemonTip = tipAfter d log := by
  refine Trace.history (P := fun log s => s.daemonTip = tipAfter d log) rfl ?_ log hrun
  intro log s e s' h hstep
  rw [hstep.daemonTip_eq, h, tipAfter_snoc]

/-- Since the daemon accepted the subscription, in a state whose snapshot was
    `primed` there: it has pushed the changes, and the callbacks stored the
    delivered ones. -/
structure Following (primed : Option BlockHash) (log : List ActorEvent) (s : ActorState) :
    Prop where
  late : s.phase.early = false
  accepted : s.accepted = true
  stored : ∃ delivered, changes log = delivered ++ s.pushes ∧
    s.snapshot.loadTip = delivered.getLast?.or primed

variable {primed : Option BlockHash}

theorem Following.frame (h : Following primed log s) (he : e.change? = none)
    (hphase : s'.phase.early = false) (haccepted : s'.accepted = s.accepted)
    (hpushes : s'.pushes = s.pushes) (htip : s'.snapshot.loadTip = s.snapshot.loadTip) :
    Following primed (log ++ [e]) s' where
  late := hphase
  accepted := haccepted.trans h.accepted
  stored := by
    obtain ⟨delivered, hchanges, hstored⟩ := h.stored
    refine ⟨delivered, ?_, htip.trans hstored⟩
    rw [changes_snoc, he, hpushes, hchanges]
    simp

theorem Following.step (h : Following primed log s) (hstep : ActorStep s e s') :
    Following primed (log ++ [e]) s' := by
  have hearly : ∀ {phase : ActorPhase}, s.phase = phase → phase.early = false :=
    fun hphase => hphase ▸ h.late
  cases hstep with
  | change tip hne =>
    obtain ⟨delivered, hchanges, hstored⟩ := h.stored
    refine ⟨h.late, h.accepted, delivered, ?_, hstored⟩
    rw [changes_snoc, hchanges]
    simp [h.accepted, ActorEvent.change?]
  | answerTip hphase => cases hearly hphase
  | failTip hphase => cases hearly hphase
  | handleTip reply hphase => cases hearly hphase
  | answerHeight reply hphase => cases hearly hphase
  | handleHeight reply hphase => cases hearly hphase
  | accept hphase => cases hearly hphase
  | subscribeOk hphase => exact h.frame rfl rfl rfl rfl rfl
  | subscribeErr hphase => exact h.frame rfl rfl rfl rfl rfl
  | deliver tip rest hpushes hconnected =>
    obtain ⟨delivered, hchanges, hstored⟩ := h.stored
    rw [onNewTip_bytes]
    refine ⟨h.late, h.accepted, delivered ++ [tip], ?_, ?_⟩
    · rw [changes_snoc, hchanges, hpushes]
      simp [ActorEvent.change?]
    · simp
  | store reply hfetcher =>
    exact h.frame rfl h.late rfl rfl (heightReplied_loadTip s.snapshot reply)
  -- the connection and the fetcher move neither the phase nor the tip
  | _ => exact h.frame rfl h.late rfl rfl rfl

/-- A subscription that succeeded was accepted at some point of the run. -/
theorem ActorRun.accepted_at (hrun : ActorRun d log s)
    (hphase : s.phase = .acceptReply ∨ s.phase = .serving true) : ActorEvent.accepted ∈ log := by
  revert hphase
  refine Trace.history (P := fun log s => s.phase = .acceptReply ∨ s.phase = .serving true →
    ActorEvent.accepted ∈ log) (by simp [ActorState.start]) ?_ log hrun
  intro log s e s' h hstep hlate
  have hkept : (s'.phase = s.phase ∨ s.phase = .acceptReply) ∨ e = .accepted := by
    cases hstep with
    | accept hphase => exact Or.inr rfl
    | subscribeOk hphase => exact Or.inl (Or.inr hphase)
    | deliver tip rest hpushes hconnected =>
      rw [onNewTip_bytes]
      exact Or.inl (Or.inl rfl)
    | _ => simp_all
  rcases hkept with (heq | hreply) | rfl
  · exact List.mem_append_left _ (h (heq ▸ hlate))
  · exact List.mem_append_left _ (h (Or.inl hreply))
  · simp

/-- The daemon's tip moves past the snapshot exactly in the window between the
    answer to the initial read and the acceptance of the subscription, and
    stays past it until the next change. -/
theorem tip_current_iff (hrun : ActorRun d log s) (hsubscribed : s.phase = .serving true)
    (hdelivered : s.pushes = []) :
    ∃ before after, log = before ++ .accepted :: after ∧
      (s.snapshot.loadTip = s.daemonTip ↔
        changes after ≠ [] ∨ initialTip before = tipAfter d before) := by
  obtain ⟨before, after, rfl⟩ := List.append_of_mem (hrun.accepted_at (Or.inr hsubscribed))
  refine ⟨before, after, rfl, ?_⟩
  have htip : s.daemonTip = (changes after).getLast?.or (tipAfter d before) := by
    rw [hrun.daemonTip_eq]
    unfold tipAfter changes
    simp [List.filterMap_cons, ActorEvent.change?, List.getLast?_append, Option.or_assoc]
  -- up to the acceptance the snapshot follows the read, from there the pushes
  obtain ⟨t, hbefore, u, hstep, hafter⟩ :=
    (Trace.append_iff before (.accepted :: after) _ _).mp hrun
  have hprimed : t.snapshot.loadTip = initialTip before := by
    cases hstep with
    | accept hphase =>
      have h := (ActorRun.priming hbefore).primed (by rw [hphase]; rfl)
      simpa [hphase, ActorPhase.inFlight] using h
  have hfollowing : Following (initialTip before) after s := by
    refine Trace.history ?_ (fun _ _ _ _ h hstep => h.step hstep) after hafter
    cases hstep with
    | accept hphase =>
      have hquiet := (ActorRun.priming hbefore).quiet (by rw [hphase]; rfl)
      exact ⟨rfl, rfl, [], by simp [changes, hquiet.2], by simpa using hprimed⟩
  obtain ⟨delivered, hchanges, hstored⟩ := hfollowing.stored
  rw [hdelivered, List.append_nil] at hchanges
  rw [hstored, htip, hchanges]
  -- the last push is the daemon's tip; without one, what was read has to be
  rcases List.eq_nil_or_concat delivered with rfl | ⟨init, last, rfl⟩
  · simp
  · simp

end

namespace Sample

/-- The daemon's tip moves while the initial height is on its way. -/
def missedLog : List ActorEvent :=
  [.tipAnswered (some (.tip (.fill 1))), .tipHandled, .changed (.fill 2),
    .heightAnswered (some (.height 5)), .heightHandled, .accepted, .subscribed true]

def missed : ActorState where
  daemonTip := some (.fill 2)
  phase := .serving true
  snapshot := ⟨true, .fill 1, true, 5⟩
  accepted := true
  pushes := []
  connected := true
  trigger := 0
  fetcher := .idle

end Sample

theorem missed_run : ActorRun (some (.fill 1)) Sample.missedLog Sample.missed :=
  ⟨_, .answerTip rfl, _, .handleTip _ rfl, _, .change (.fill 2) (by decide),
    _, .answerHeight (some (.height 5)) rfl, _, .handleHeight _ rfl, _, .accept rfl,
    _, .subscribeOk rfl, rfl⟩

theorem tip_missed_while_connecting :
    ¬ ∀ (d : Option BlockHash) (log : List ActorEvent) (s : ActorState), ActorRun d log s →
      s.phase = .serving true → s.pushes = [] → s.snapshot.loadTip = s.daemonTip := by
  intro h
  have hcurrent := h _ _ _ missed_run rfl rfl
  exact absurd hcurrent (by decide)

namespace Sample

/-- The tip moves once the subscription stands. -/
def followedLog : List ActorEvent :=
  [.tipAnswered (some (.tip (.fill 1))), .tipHandled, .heightAnswered (some (.height 5)),
    .heightHandled, .accepted, .changed (.fill 2), .subscribed true, .callback (.fill 2)]

def followed : ActorState :=
  { missed with snapshot := ⟨true, .fill 2, true, 5⟩, trigger := 1 }

end Sample

theorem followed_run : ActorRun (some (.fill 1)) Sample.followedLog Sample.followed :=
  ⟨_, .answerTip rfl, _, .handleTip _ rfl, _, .answerHeight (some (.height 5)) rfl,
    _, .handleHeight _ rfl, _, .accept rfl, _, .change (.fill 2) (by decide), _, .subscribeOk rfl,
    _, .deliver (.fill 2) [] rfl rfl, rfl⟩

theorem followed_tip_current :
    ∃ before after, Sample.followedLog = before ++ .accepted :: after ∧
      (Sample.followed.snapshot.loadTip = Sample.followed.daemonTip ↔
        changes after ≠ [] ∨ initialTip before = tipAfter (some (.fill 1)) before) :=
  tip_current_iff followed_run rfl rfl

/-! ## The height -/

section

variable {d : Option BlockHash} {log rest : List ActorEvent} {s s' : ActorState} {e : ActorEvent}

def ActorEvent.IsCallback (e : ActorEvent) : Prop := ∃ tip, e = .callback tip

/-- At `recv` on an empty channel, or past the last one. -/
def ActorState.Resting (s : ActorState) : Prop :=
  (s.fetcher = .idle ∨ s.fetcher = .exited) ∧ s.trigger = 0

/-- A dropped trigger finds the channel full and a swallowed one the fetcher
    before its call, so a call is still to come. -/
theorem ActorStep.fetch_to_come
    (h : Pending ActorEvent.IsCallback .issued log →
      0 < s.trigger ∨ s.fetcher = .draining ∨ s.fetcher = .issuing)
    (hstep : ActorStep s e s') (hpending : Pending ActorEvent.IsCallback .issued (log ++ [e])) :
    0 < s'.trigger ∨ s'.fetcher = .draining ∨ s'.fetcher = .issuing := by
  rcases pending_snoc_iff.mp hpending with ⟨tip, rfl⟩ | ⟨hlog, hne⟩
  · cases hstep with
    | deliver tip rest hpushes hconnected =>
      -- a dropped trigger leaves a full channel
      rw [onNewTip_bytes]
      refine Or.inl ?_
      show 0 < if s.trigger < triggerCapacity then s.trigger + 1 else s.trigger
      unfold triggerCapacity
      split <;> omega
  · replace hpending := h hlog
    cases hstep with
    | deliver tip rest hpushes hconnected =>
      rw [onNewTip_bytes]
      rcases hpending with htrigger | hfetcher
      · refine Or.inl ?_
        show 0 < if s.trigger < triggerCapacity then s.trigger + 1 else s.trigger
        split <;> omega
      · exact Or.inr hfetcher
    -- a trigger is only swallowed on the way to a call
    | recv n hfetcher htrigger => exact Or.inr (Or.inl rfl)
    | drain n hfetcher htrigger => exact Or.inr (Or.inl hfetcher)
    | drainEnd hfetcher htrigger => exact Or.inr (Or.inr rfl)
    | issue hfetcher => exact absurd rfl hne
    | answer reply hfetcher => simpa [hfetcher] using hpending
    | store reply hfetcher => simpa [hfetcher] using hpending
    | exit hfetcher htrigger hclosed => simp [hfetcher, htrigger] at hpending
    | _ => exact hpending

theorem ActorRun.fetch_to_come (hrun : ActorRun d log s)
    (hpending : Pending ActorEvent.IsCallback .issued log) :
    0 < s.trigger ∨ s.fetcher = .draining ∨ s.fetcher = .issuing := by
  revert hpending
  refine Trace.history (P := fun log s => Pending ActorEvent.IsCallback .issued log →
    0 < s.trigger ∨ s.fetcher = .draining ∨ s.fetcher = .issuing) ?_ ?_ log hrun
  · intro h
    obtain ⟨before, e, after, heq, -⟩ := h
    simp at heq
  · intro log s e s' h hstep hpending
    exact hstep.fetch_to_come h hpending

/-- What became of the last call, by where the fetcher is. -/
def CallAnswered (s : ActorState) (rest : List ActorEvent) : Prop :=
  match s.fetcher with
  | .awaiting => heightReplies rest = []
  | .replied reply => heightReplies rest = [reply]
  | _ => ∃ reply, heightReplies rest = [reply] ∧
      ∀ height, reply = some (.height height) → s.snapshot.loadHeight = some height

/-- The fetcher sleeps until the subscription is accepted, and what it stored
    then stays. -/
structure Fetching (log : List ActorEvent) (s : ActorState) : Prop where
  asleep : s.phase.early = true → s.Resting ∧ ActorEvent.issued ∉ log
  answered : ∀ rest, AfterLast .issued log rest → CallAnswered s rest

theorem heightReplies_snoc (log : List ActorEvent) (e : ActorEvent) :
    heightReplies (log ++ [e]) = heightReplies log ++ e.reply?.toList := by
  unfold heightReplies
  cases he : e.reply? <;> simp [he]

/-- With no call under way. -/
def Fetcher.between : Fetcher → Bool
  | .awaiting => false
  | .replied _ => false
  | _ => true

theorem answered_between_iff (hbetween : s.fetcher.between = true) :
    CallAnswered s rest ↔ ∃ reply, heightReplies rest = [reply] ∧
      ∀ height, reply = some (.height height) → s.snapshot.loadHeight = some height := by
  unfold CallAnswered
  revert hbetween
  cases s.fetcher <;> simp [Fetcher.between]

/-- A step away from the fetcher. -/
theorem CallAnswered.frame (h : CallAnswered s rest) (he : e.reply? = none)
    (hfetcher : s'.fetcher = s.fetcher) (hheight : s'.snapshot.loadHeight = s.snapshot.loadHeight) :
    CallAnswered s' (rest ++ [e]) := by
  unfold CallAnswered at h ⊢
  rw [hfetcher, heightReplies_snoc, he, hheight]
  simpa using h

/-- The fetcher moves between two calls. -/
theorem CallAnswered.between (h : CallAnswered s rest) (he : e.reply? = none)
    (hfrom : s.fetcher.between = true) (hto : s'.fetcher.between = true)
    (hheight : s'.snapshot.loadHeight = s.snapshot.loadHeight) : CallAnswered s' (rest ++ [e]) := by
  rw [answered_between_iff hfrom] at h
  rw [answered_between_iff hto, heightReplies_snoc, he, hheight]
  simpa using h

theorem loadHeight_tipReplied (snapshot : AtomicTipSnapshot) (reply : Option ChainTipResult) :
    (snapshot.tipReplied reply).loadHeight = snapshot.loadHeight := by
  rcases reply with _ | ⟨tip⟩ | _ <;> rfl

theorem Fetching.of_answered (h : Fetching log s) (hissued : e ≠ .issued)
    (hasleep : s'.phase.early = true → s.phase.early = true ∧ (s.Resting → s'.Resting))
    (hanswered : ∀ rest, AfterLast .issued log rest → CallAnswered s' (rest ++ [e])) :
    Fetching (log ++ [e]) s' where
  asleep hearly := by
    obtain ⟨hearly, hresting⟩ := hasleep hearly
    obtain ⟨hrest, hlog⟩ := h.asleep hearly
    refine ⟨hresting hrest, ?_⟩
    simp [hlog, Ne.symm hissued]
  answered rest hrest := by
    rcases hrest.snoc_cases with ⟨he, -⟩ | ⟨-, rest', rfl, hlast⟩
    · exact absurd he hissued
    · exact hanswered rest' hlast

/-- Neither the fetcher nor the height is touched. -/
theorem Fetching.frame (h : Fetching log s) (hissued : e ≠ .issued) (he : e.reply? = none)
    (hphase : s'.phase.early = true → s.phase.early = true ∧ s'.trigger = s.trigger)
    (hfetcher : s'.fetcher = s.fetcher)
    (hheight : s'.snapshot.loadHeight = s.snapshot.loadHeight) : Fetching (log ++ [e]) s' := by
  refine h.of_answered hissued ?_ ?_
  · intro hearly
    obtain ⟨hearly, htrigger⟩ := hphase hearly
    refine ⟨hearly, ?_⟩
    unfold ActorState.Resting
    rw [hfetcher, htrigger]
    exact fun hresting => hresting
  · intro rest hrest
    exact (h.answered rest hrest).frame he hfetcher hheight

/-- A step of the fetcher other than its call finds the subscription accepted. -/
theorem Fetching.late (h : Fetching log s) (hbusy : ¬ s.Resting) : s.phase.early = false := by
  by_contra hearly
  exact hbusy (h.asleep (by simpa using hearly)).1

theorem Fetching.step (h : Fetching log s) (hquiet : s.phase.early = true → s.pushes = [])
    (hstep : ActorStep s e s') : Fetching (log ++ [e]) s' := by
  cases hstep with
  | change tip hne => exact h.frame (by simp) rfl (fun hearly => ⟨hearly, rfl⟩) rfl rfl
  | answerTip hphase =>
    exact h.frame (by simp) rfl (fun _ => ⟨by rw [hphase]; rfl, rfl⟩) rfl rfl
  | failTip hphase =>
    exact h.frame (by simp) rfl (fun _ => ⟨by rw [hphase]; rfl, rfl⟩) rfl rfl
  | handleTip reply hphase =>
    exact h.frame (by simp) rfl (fun _ => ⟨by rw [hphase]; rfl, rfl⟩) rfl
      (loadHeight_tipReplied s.snapshot reply)
  | answerHeight reply hphase =>
    exact h.frame (by simp) rfl (fun _ => ⟨by rw [hphase]; rfl, rfl⟩) rfl rfl
  | handleHeight reply hphase =>
    -- the initial height is stored before the fetcher has made a call
    have hearly : s.phase.early = true := by rw [hphase]; rfl
    refine h.of_answered (by simp) (fun _ => ⟨hearly, fun hresting => hresting⟩) ?_
    intro rest hrest
    exact absurd hrest.mem (h.asleep hearly).2
  | accept hphase => exact h.frame (by simp) rfl (fun hearly => by cases hearly) rfl rfl
  | subscribeOk hphase => exact h.frame (by simp) rfl (fun hearly => by cases hearly) rfl rfl
  | subscribeErr hphase => exact h.frame (by simp) rfl (fun hearly => by cases hearly) rfl rfl
  | deliver tip rest hpushes hconnected =>
    rw [onNewTip_bytes]
    refine h.frame (by simp) rfl ?_ rfl rfl
    intro hearly
    simp [hquiet hearly] at hpushes
  | disconnect => exact h.frame (by simp) rfl (fun hearly => ⟨hearly, rfl⟩) rfl rfl
  | recv n hfetcher htrigger =>
    have hlate := h.late (by simp [ActorState.Resting, htrigger])
    refine h.of_answered (by simp) (fun hearly => by simp [hlate] at hearly) ?_
    intro rest hrest
    exact (h.answered rest hrest).between rfl (by rw [hfetcher]; rfl) rfl rfl
  | drain n hfetcher htrigger =>
    have hlate := h.late (by simp [ActorState.Resting, htrigger])
    exact h.frame (by simp) rfl (fun hearly => by simp [hlate] at hearly) rfl rfl
  | drainEnd hfetcher htrigger =>
    have hlate := h.late (by simp [ActorState.Resting, hfetcher])
    refine h.of_answered (by simp) (fun hearly => by simp [hlate] at hearly) ?_
    intro rest hrest
    exact (h.answered rest hrest).between rfl (by rw [hfetcher]; rfl) rfl rfl
  | issue hfetcher =>
    have hlate := h.late (by simp [ActorState.Resting, hfetcher])
    refine ⟨fun hearly => by simp [hlate] at hearly, ?_⟩
    intro rest hrest
    rcases hrest.snoc_cases with ⟨-, rfl⟩ | ⟨hne, -⟩
    · rfl
    · exact absurd rfl hne
  | answer reply hfetcher =>
    have hlate := h.late (by simp [ActorState.Resting, hfetcher])
    refine h.of_answered (by simp) (fun hearly => by simp [hlate] at hearly) ?_
    intro rest hrest
    have hanswered := h.answered rest hrest
    simp only [CallAnswered, hfetcher] at hanswered
    simp [CallAnswered, heightReplies_snoc, ActorEvent.reply?, hanswered]
  | store reply hfetcher =>
    have hlate := h.late (by simp [ActorState.Resting, hfetcher])
    refine h.of_answered (by simp) (fun hearly => by simp [hlate] at hearly) ?_
    intro rest hrest
    have hanswered := h.answered rest hrest
    simp only [CallAnswered, hfetcher] at hanswered
    refine ⟨reply, by simp [heightReplies_snoc, ActorEvent.reply?, hanswered], ?_⟩
    intro height hreply
    subst hreply
    rfl
  | exit hfetcher htrigger hclosed =>
    refine h.of_answered (by simp) (fun hearly => ⟨hearly, fun _ => ⟨Or.inr rfl, htrigger⟩⟩) ?_
    intro rest hrest
    exact (h.answered rest hrest).between rfl (by rw [hfetcher]; rfl) rfl rfl

theorem ActorRun.fetching (hrun : ActorRun d log s) : Fetching log s := by
  refine Trace.run_induction ?_ ?_ log hrun
  · refine ⟨fun _ => ⟨⟨Or.inl rfl, rfl⟩, by simp⟩, ?_⟩
    intro rest hrest
    exact absurd hrest.mem (by simp)
  · intro log s e s' hlog h hstep
    exact h.step (fun hearly => ((ActorRun.priming hlog).quiet hearly).2) hstep

/-- The callback goes with the connection, the fetcher after it. -/
theorem ActorRun.exited_closed (hrun : ActorRun d log s) (hexited : s.fetcher = .exited) :
    s.connected = false ∧ s.trigger = 0 := by
  revert hexited
  refine Trace.invariant (P := fun s => s.fetcher = .exited → s.connected = false ∧ s.trigger = 0)
    ?_ hrun (by simp [ActorState.start])
  intro s e s' h hstep
  cases hstep with
  | deliver tip rest hpushes hconnected =>
    rw [onNewTip_bytes]
    intro hexited
    simp [hconnected] at h
    exact absurd hexited h
  | disconnect => exact fun hexited => ⟨rfl, (h hexited).2⟩
  | recv n hfetcher htrigger => simp
  | drain n hfetcher htrigger => simp [hfetcher]
  | drainEnd hfetcher htrigger => simp
  | issue hfetcher => simp
  | answer reply hfetcher => simp
  | store reply hfetcher => simp
  | exit hfetcher htrigger hclosed => exact fun _ => ⟨hclosed, htrigger⟩
  | _ => exact h

/-- The steps of the fetcher and the daemon's answer to it. -/
def ActorEvent.ofFetcher : ActorEvent → Bool
  | .triggered => true
  | .drained => true
  | .emptied => true
  | .issued => true
  | .answered _ => true
  | .stored => true
  | _ => false

def Fetcher.rank : Fetcher → Nat
  | .idle => 0
  | .exited => 0
  | .replied _ => 1
  | .awaiting => 2
  | .issuing => 3
  | .draining => 4

/-- The steps of the fetcher that are left. -/
def ActorState.work (s : ActorState) : Nat := 5 * s.trigger + s.fetcher.rank

theorem ActorState.resting_or_step (hexited : s.fetcher = .exited → s.trigger = 0) :
    s.Resting ∨ ∃ e s', ActorStep s e s' ∧ e.ofFetcher = true ∧ s'.fetcher ≠ .exited ∧
      s'.work < s.work := by
  unfold ActorState.Resting ActorState.work
  cases hfetcher : s.fetcher with
  | idle =>
    cases htrigger : s.trigger with
    | zero => exact Or.inl ⟨Or.inl rfl, rfl⟩
    | succ n =>
      refine Or.inr ⟨_, _, .recv n hfetcher htrigger, rfl, by simp, ?_⟩
      simp only [Fetcher.rank]
      omega
  | draining =>
    cases htrigger : s.trigger with
    | zero =>
      refine Or.inr ⟨_, _, .drainEnd hfetcher htrigger, rfl, by simp, ?_⟩
      simp [Fetcher.rank, htrigger]
    | succ n =>
      refine Or.inr ⟨_, _, .drain n hfetcher htrigger, rfl, by simp [hfetcher], ?_⟩
      simp only [hfetcher]
      omega
  | issuing => exact Or.inr ⟨_, _, .issue hfetcher, rfl, by simp, by simp [Fetcher.rank]⟩
  | awaiting => exact Or.inr ⟨_, _, .answer none hfetcher, rfl, by simp, by simp [Fetcher.rank]⟩
  | replied reply =>
    exact Or.inr ⟨_, _, .store reply hfetcher, rfl, by simp, by simp [Fetcher.rank]⟩
  | exited => exact Or.inl ⟨Or.inr rfl, hexited hfetcher⟩

/-- Left alone, the fetcher comes to rest. -/
theorem ActorState.comes_to_rest (n : Nat) : ∀ s : ActorState, s.work ≤ n →
    (s.fetcher = .exited → s.trigger = 0) →
    ∃ log s', Trace ActorStep s log s' ∧ (∀ e ∈ log, e.ofFetcher = true) ∧ s'.Resting := by
  -- on the steps that are left
  induction n with
  | zero =>
    intro s hwork hexited
    rcases ActorState.resting_or_step hexited with hresting | ⟨e, s', -, -, -, hless⟩
    · exact ⟨[], s, rfl, by simp, hresting⟩
    · omega
  | succ n ih =>
    intro s hwork hexited
    rcases ActorState.resting_or_step hexited with hresting | ⟨e, s', hstep, he, hne, hless⟩
    · exact ⟨[], s, rfl, by simp, hresting⟩
    · obtain ⟨log, t, hlog, hfetcher, hresting⟩ :=
        ih s' (by omega) (fun hexited => absurd hexited hne)
      refine ⟨e :: log, t, ⟨s', hstep, hlog⟩, ?_, hresting⟩
      simpa [he] using hfetcher

/-- When the fetcher rests, its last call came after the last tip callback and
    what it answered is in the snapshot; and it can always come to rest. -/
theorem height_refreshed (hrun : ActorRun d log s) :
    (s.Resting → ∀ before tip after, log = before ++ .callback tip :: after →
      ∃ front rest reply, after = front ++ .issued :: rest ∧ ActorEvent.issued ∉ rest ∧
        heightReplies rest = [reply] ∧
        ∀ height, reply = some (.height height) → s.snapshot.loadHeight = some height) ∧
    ∃ log' s', Trace ActorStep s log' s' ∧ (∀ e ∈ log', e.ofFetcher = true) ∧ s'.Resting := by
  refine ⟨?_, ActorState.comes_to_rest _ s le_rfl fun hexited => (hrun.exited_closed hexited).2⟩
  intro hresting before tip after heq
  have hissued : ActorEvent.issued ∈ after := by
    by_contra hnot
    have hpending := hrun.fetch_to_come ⟨before, _, after, heq, ⟨tip, rfl⟩, hnot⟩
    rcases hresting with ⟨hfetcher | hfetcher, htrigger⟩ <;> simp [hfetcher, htrigger] at hpending
  obtain ⟨rest, front, rfl, hrest⟩ := exists_afterLast hissued
  -- that call is the last of the whole run
  have hlast : AfterLast .issued log rest :=
    ⟨before ++ .callback tip :: front, by simp [heq], hrest⟩
  have hbetween : s.fetcher.between = true := by
    rcases hresting.1 with hfetcher | hfetcher <;> rw [hfetcher] <;> rfl
  obtain ⟨reply, hreply, hstored⟩ :=
    (answered_between_iff hbetween).mp (hrun.fetching.answered rest hlast)
  exact ⟨front, rest, reply, rfl, hrest, hreply, hstored⟩

end

namespace Sample

def refreshedLog : List ActorEvent :=
  followedLog ++ [.triggered, .emptied, .issued, .answered (some (.height 6)), .stored]

def refreshed : ActorState :=
  { followed with snapshot := ⟨true, .fill 2, true, 6⟩, trigger := 0 }

end Sample

theorem refreshed_run : ActorRun (some (.fill 1)) Sample.refreshedLog Sample.refreshed :=
  (Trace.append_iff _ _ _ _).mpr ⟨_, followed_run, _, .recv 0 rfl rfl, _, .drainEnd rfl rfl,
    _, .issue rfl, _, .answer (some (.height 6)) rfl, _, .store _ rfl, rfl⟩

theorem refreshed_height : Sample.refreshed.Resting ∧
    ∃ front rest reply,
      [.triggered, .emptied, .issued, .answered (some (.height 6)), .stored] =
        front ++ ActorEvent.issued :: rest ∧
      ActorEvent.issued ∉ rest ∧ heightReplies rest = [reply] ∧
      ∀ height, reply = some (.height height) →
        Sample.refreshed.snapshot.loadHeight = some height :=
  ⟨⟨Or.inl rfl, rfl⟩, (height_refreshed refreshed_run).1 ⟨Or.inl rfl, rfl⟩
    (Sample.followedLog.take 7) (.fill 2) _ rfl⟩

end Sv2P2pool
