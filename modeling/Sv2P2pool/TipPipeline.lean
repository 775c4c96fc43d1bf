import Sv2P2pool.Detector
import Sv2P2pool.Invalidation
import Sv2P2pool.TipActor
import Mathlib.Data.List.Chain

/-! # From the Daemon's Tip to the Cache

    With an `IpcChain`, a change of the daemon's tip comes to the cache in
    stages: the daemon pushes it, a callback stores it in the snapshot, a poll
    of the detector sees and broadcasts it, the invalidator receives it and
    flushes. Each stage runs on its own and may skip tips: some changes come
    before the subscription, a poll sees only the last of several, a full
    channel overwrites. Handlers cache jobs all the while.

    What comes out at the end is nevertheless the daemon's history with tips
    left out. And when all stages are at rest, every job in the cache was put
    there after the daemon had come to its tip, unless nothing was broadcast.
    While the connection stands, a new tip can always come through.
-/

namespace Sv2P2pool

open ByteCodec Bitcoin Interleave

/-! ## The stages -/

structure TipPipeline where
  actor : ActorState
  /-- `last_tip`, in the detector's loop. -/
  lastTip : Option BlockHash
  /-- The channel, the invalidator and the engine. -/
  channel : LagState

namespace TipPipeline

def start (d : Option BlockHash) : TipPipeline := ⟨.start d, none, .new⟩

end TipPipeline

inductive PipelineEvent where
  | actor (e : ActorEvent)
  /-- `poll_once` on a tip of the snapshot, and what it broadcasts. -/
  | polled (tip sent : Option BlockHash)
  | engine (l : LagLabel)

/-- One step of a stage. -/
inductive PipelineStep (w : Wiring) (capacity : Nat) :
    TipPipeline → PipelineEvent → TipPipeline → Prop where
  | actor {s : TipPipeline} {e : ActorEvent} {actor : ActorState}
      (h : ActorStep s.actor e actor) :
      PipelineStep w capacity s (.actor e) { s with actor := actor }
  | silent {s : TipPipeline} {lastTip : Option BlockHash}
      (h : pollOnce s.actor.snapshot.loadTip s.lastTip = (lastTip, none)) :
      PipelineStep w capacity s (.polled s.actor.snapshot.loadTip none)
        { s with lastTip := lastTip }
  | sent {s : TipPipeline} {lastTip : Option BlockHash} {tip : BlockHash} {channel : LagState}
      (h : pollOnce s.actor.snapshot.loadTip s.lastTip = (lastTip, some tip))
      (hsend : LagStep w capacity s.channel (.env (.sent tip)) channel) :
      PipelineStep w capacity s (.polled s.actor.snapshot.loadTip (some tip))
        { s with lastTip := lastTip, channel := channel }
  /-- A step of the invalidator or of a handler. -/
  | engine {s : TipPipeline} {l : LagLabel} {channel : LagState}
      (hl : ∀ tip, l ≠ .env (.sent tip)) (h : LagStep w capacity s.channel l channel) :
      PipelineStep w capacity s (.engine l) { s with channel := channel }

/-! ## Reading a run -/

def PipelineEvent.actor? : PipelineEvent → Option ActorEvent
  | .actor e => some e
  | _ => none

/-- The step at the channel and the engine. -/
def PipelineEvent.channel? : PipelineEvent → Option LagLabel
  | .actor _ => none
  | .polled _ sent => sent.map fun tip => .env (.sent tip)
  | .engine l => some l

/-- The tip a poll reads, which may be missing. -/
def PipelineEvent.polled? : PipelineEvent → Option (Option BlockHash)
  | .polled tip _ => some tip
  | _ => none

def PipelineEvent.broadcast? : PipelineEvent → Option BlockHash
  | .polled _ sent => sent
  | _ => none

/-- The invalidator is notified of a tip. -/
def PipelineEvent.notified? : PipelineEvent → Option BlockHash
  | .engine (.env (.received (.ok tip))) => some tip
  | _ => none

/-- The tips the daemon has had. -/
def tipHistory (d : Option BlockHash) (log : List PipelineEvent) : List BlockHash :=
  d.toList ++ changes (log.filterMap PipelineEvent.actor?)

def polls (log : List PipelineEvent) : List (Option BlockHash) :=
  log.filterMap PipelineEvent.polled?

/-- What the detector observes: the tips its polls read, one for each run. -/
def observations (log : List PipelineEvent) : List BlockHash :=
  (polls log).reduceOption.destutter (· ≠ ·)

def broadcasts (log : List PipelineEvent) : List BlockHash :=
  log.filterMap PipelineEvent.broadcast?

def notifications (log : List PipelineEvent) : List BlockHash :=
  log.filterMap PipelineEvent.notified?

section

variable {w : Wiring} {capacity : Nat} {d : Option BlockHash} {log log' : List PipelineEvent}
  {s s' : TipPipeline} {e : PipelineEvent}

theorem tipHistory_snoc (d : Option BlockHash) (log : List PipelineEvent) (e : PipelineEvent) :
    tipHistory d (log ++ [e]) = tipHistory d log ++ (e.actor?.bind ActorEvent.change?).toList := by
  unfold tipHistory
  rw [List.filterMap_append]
  cases he : e.actor? with
  | none => simp [he]
  | some e' => simp [he, changes_snoc]

theorem polls_snoc (log : List PipelineEvent) (e : PipelineEvent) :
    polls (log ++ [e]) = polls log ++ e.polled?.toList := by
  unfold polls
  cases he : e.polled? <;> simp [he]

/-- Other steps observe nothing, and neither does a poll that reads no tip. -/
theorem observations_snoc_of_none (log : List PipelineEvent) {e : PipelineEvent}
    (he : e.polled?.join = none) : observations (log ++ [e]) = observations log := by
  unfold observations
  rw [polls_snoc, List.reduceOption_append]
  cases hpolled : e.polled? with
  | none => simp
  | some tip =>
    rw [hpolled] at he
    obtain rfl : tip = none := he
    simp

theorem observations_snoc_of_some (log : List PipelineEvent) {e : PipelineEvent} {tip : BlockHash}
    (he : e.polled? = some (some tip)) : observations (log ++ [e]) =
      if (observations log).getLast? = some tip then observations log
      else observations log ++ [tip] := by
  unfold observations
  rw [polls_snoc, he, List.reduceOption_append, getLast?_destutter]
  exact destutter_snoc _ _

theorem broadcasts_snoc (log : List PipelineEvent) (e : PipelineEvent) :
    broadcasts (log ++ [e]) = broadcasts log ++ e.broadcast?.toList := by
  unfold broadcasts
  cases he : e.broadcast? <;> simp [he]

theorem notifications_snoc (log : List PipelineEvent) (e : PipelineEvent) :
    notifications (log ++ [e]) = notifications log ++ e.notified?.toList := by
  unfold notifications
  cases he : e.notified? <;> simp [he]

/-- The stages run as they would alone. -/
theorem PipelineStep.channel_trace (h : PipelineStep w capacity s e s') :
    Trace (LagStep w capacity) s.channel e.channel?.toList s'.channel := by
  cases h with
  | actor h => rfl
  | silent h => rfl
  | sent h hsend => exact ⟨_, hsend, rfl⟩
  | engine hl h => exact ⟨_, h, rfl⟩

theorem channel_run (h : Trace (PipelineStep w capacity) s log s') :
    Trace (LagStep w capacity) s.channel (log.filterMap PipelineEvent.channel?) s'.channel :=
  Trace.project (fun _ _ _ hstep => hstep.channel_trace) h

theorem PipelineStep.actor_trace (h : PipelineStep w capacity s e s') :
    Trace ActorStep s.actor e.actor?.toList s'.actor := by
  cases h with
  | actor h => exact ⟨_, h, rfl⟩
  | silent h => rfl
  | sent h hsend => rfl
  | engine hl h => rfl

theorem actor_run (h : Trace (PipelineStep w capacity) s log s') :
    Trace ActorStep s.actor (log.filterMap PipelineEvent.actor?) s'.actor :=
  Trace.project (fun _ _ _ hstep => hstep.actor_trace) h

/-- The daemon's tip is the last of its history. -/
theorem daemonTip_eq_getLast? (h : Trace (PipelineStep w capacity) (.start d) log s) :
    s.actor.daemonTip = (tipHistory d log).getLast? := by
  have hrun : ActorRun d (log.filterMap PipelineEvent.actor?) s.actor := actor_run h
  rw [hrun.daemonTip_eq]
  unfold tipAfter tipHistory
  rw [List.getLast?_append]
  cases d <;> rfl

/-! ## Where the stages are in the history -/

theorem pollOnce_of_ne {tip prev : BlockHash} (h : tip ≠ prev) :
    pollOnce (some tip) (some prev) = (some tip, some tip) := if_neg h

/-- A scan that has not taken the last element yet can take it. -/
theorem sublist_snoc {α : Type} {taken seen : List α} {a : α} (h : taken.Sublist seen)
    (hseen : seen.getLast? = some a) (htaken : taken.getLast? ≠ some a) :
    (taken ++ [a]).Sublist seen := by
  obtain ⟨init, rfl⟩ := List.getLast?_eq_some_iff.mp hseen
  obtain ⟨front, back, rfl, hfront, hback⟩ := List.sublist_append_iff.mp h
  rcases List.sublist_singleton.mp hback with rfl | rfl
  · rw [List.append_nil]
    exact hfront.append (List.Sublist.refl _)
  · simp at htaken

/-- The detector is what `poll_once` makes of the tips that were read. -/
theorem polls_run (h : Trace (PipelineStep w capacity) (.start d) log s) :
    pollAll none (polls log) = (s.lastTip, broadcasts log) := by
  refine Trace.history (P := fun log s => pollAll none (polls log) = (s.lastTip, broadcasts log))
    rfl ?_ log h
  intro log t e u hpolled hstep
  rw [polls_snoc, broadcasts_snoc, pollAll_append, hpolled]
  cases hstep with
  | actor h => simp [PipelineEvent.polled?, PipelineEvent.broadcast?, pollAll]
  | silent h => simp [PipelineEvent.polled?, PipelineEvent.broadcast?, pollAll, h]
  | sent h hsend => simp [PipelineEvent.polled?, PipelineEvent.broadcast?, pollAll, h]
  | engine hl h => simp [PipelineEvent.polled?, PipelineEvent.broadcast?, pollAll]

/-- The first observation is not broadcast. -/
theorem observations_tail (h : Trace (PipelineStep w capacity) (.start d) log s) :
    (observations log).tail = broadcasts log := by
  have hrun := polls_run h
  rw [pollAll_eq] at hrun
  exact (Prod.mk.inj hrun).2

theorem observations_getLast? (h : Trace (PipelineStep w capacity) (.start d) log s) :
    (observations log).getLast? = s.lastTip := by
  have hrun := polls_run h
  rw [pollAll_eq] at hrun
  exact (getLast?_destutter _).trans (Prod.mk.inj hrun).1

/-- The snapshot holds the last tip of `seen` or none yet, the pushes under way
    are among `rest`, and the detector has observed some of `seen`. -/
structure Staged (d : Option BlockHash) (log : List PipelineEvent) (actor : ActorState)
    (seen rest : List BlockHash) : Prop where
  history : tipHistory d log = seen ++ rest
  pushes : actor.pushes.Sublist rest
  stored : ∀ tip, actor.snapshot.loadTip.or actor.phase.inFlight = some tip →
    seen.getLast? = some tip
  scanned : (observations log).Sublist seen

variable {seen rest : List BlockHash} {actor actor' : ActorState}

/-- A step that moves no tip. -/
theorem Staged.frame (h : Staged d log actor seen rest) {e : PipelineEvent}
    (he : e.actor?.bind ActorEvent.change? = none) (hpolled : e.polled?.join = none)
    (hpushes : actor'.pushes = actor.pushes)
    (hstored : actor'.snapshot.loadTip.or actor'.phase.inFlight =
      actor.snapshot.loadTip.or actor.phase.inFlight) :
    Staged d (log ++ [e]) actor' seen rest where
  history := by
    rw [tipHistory_snoc, h.history, he]
    simp
  pushes := hpushes ▸ h.pushes
  stored tip htip := h.stored tip (hstored ▸ htip)
  scanned := by
    rw [observations_snoc_of_none log hpolled]
    exact h.scanned

/-- The daemon's tip changes; a subscriber is pushed the change. -/
theorem Staged.changed (h : Staged d log actor seen rest) (tip : BlockHash) :
    Staged d (log ++ [.actor (.changed tip)]) { actor with
      daemonTip := some tip
      pushes := if actor.accepted then actor.pushes ++ [tip] else actor.pushes }
      seen (rest ++ [tip]) where
  history := by
    rw [tipHistory_snoc, h.history]
    simp [PipelineEvent.actor?, ActorEvent.change?]
  pushes := by
    show (if actor.accepted then _ else _ : List BlockHash).Sublist _
    split_ifs
    · exact h.pushes.append (List.Sublist.refl _)
    · exact List.sublist_append_of_sublist_left h.pushes
  stored := h.stored
  scanned := by
    rw [observations_snoc_of_none log rfl]
    exact h.scanned

/-- The initial read of the tip is answered before anything was observed. -/
theorem Staged.answered (h : Staged d log actor seen rest)
    (htip : actor.daemonTip = (tipHistory d log).getLast?)
    (hunset : actor.snapshot.loadTip = none) (hquiet : actor.pushes = []) :
    Staged d (log ++ [.actor (.tipAnswered (some actor.chainTip))])
      { actor with phase := .tipReply (some actor.chainTip) } (tipHistory d log) [] where
  history := by
    rw [tipHistory_snoc]
    simp [PipelineEvent.actor?, ActorEvent.change?]
  pushes := by
    show actor.pushes.Sublist []
    rw [hquiet]
  stored tip hreply := by
    rw [← htip]
    change actor.snapshot.loadTip.or (repliedTip (some actor.chainTip)) = some tip at hreply
    rw [hunset] at hreply
    revert hreply
    unfold ActorState.chainTip
    cases actor.daemonTip <;> simp [repliedTip]
  scanned := by
    rw [observations_snoc_of_none log rfl, h.history]
    exact List.sublist_append_of_sublist_left h.scanned

/-- A push is stored: what was skipped before it stays skipped. -/
theorem Staged.delivered (h : Staged d log actor seen rest) {tip : BlockHash}
    {pushes : List BlockHash} (hpushes : actor.pushes = tip :: pushes) {trigger : Nat} :
    ∃ seen rest, Staged d (log ++ [.actor (.callback tip)]) { actor with
      snapshot := actor.snapshot.storeTip tip, trigger := trigger, pushes := pushes }
      seen rest := by
  have hrest := h.pushes
  rw [hpushes] at hrest
  obtain ⟨front, back, rfl, hmem, hback⟩ := List.cons_sublist_iff.mp hrest
  obtain ⟨skipped, later, rfl⟩ := List.append_of_mem hmem
  refine ⟨seen ++ skipped ++ [tip], later ++ back, ?_, ?_, ?_, ?_⟩
  · rw [tipHistory_snoc, h.history]
    simp [PipelineEvent.actor?, ActorEvent.change?]
  · exact List.sublist_append_of_sublist_right hback
  · intro tip' htip
    simpa using htip
  · rw [observations_snoc_of_none log rfl, List.append_assoc]
    exact List.sublist_append_of_sublist_left h.scanned

theorem Staged.acted (h : Staged d log actor seen rest) {prior : List ActorEvent}
    (hpriming : Priming prior actor) (htip : actor.daemonTip = (tipHistory d log).getLast?)
    {e : ActorEvent} (hstep : ActorStep actor e actor') :
    ∃ seen rest, Staged d (log ++ [.actor e]) actor' seen rest := by
  cases hstep with
  | change tip hne => exact ⟨_, _, h.changed tip⟩
  | answerTip hphase =>
    have hunset := hpriming.unset (by rw [hphase]; rfl)
    exact ⟨_, _, h.answered htip hunset (hpriming.quiet (by rw [hphase]; rfl)).2⟩
  | failTip hphase => exact ⟨_, _, h.frame rfl rfl rfl (by rw [hphase]; rfl)⟩
  | handleTip reply hphase =>
    -- the reply in flight is stored
    have hunset := hpriming.unset (by rw [hphase]; rfl)
    refine ⟨_, _, h.frame rfl rfl rfl ?_⟩
    rw [loadTip_tipReplied, hunset, hphase]
    show ((repliedTip reply).or none).or none = none.or (repliedTip reply)
    simp
  | answerHeight reply hphase => exact ⟨_, _, h.frame rfl rfl rfl (by rw [hphase]; rfl)⟩
  | handleHeight reply hphase =>
    refine ⟨_, _, h.frame rfl rfl rfl ?_⟩
    rw [heightReplied_loadTip, hphase]
    rfl
  | accept hphase => exact ⟨_, _, h.frame rfl rfl rfl (by rw [hphase]; rfl)⟩
  | subscribeOk hphase => exact ⟨_, _, h.frame rfl rfl rfl (by rw [hphase]; rfl)⟩
  | subscribeErr hphase =>
    refine ⟨_, _, h.frame rfl rfl rfl ?_⟩
    rcases hphase with hphase | hphase <;> rw [hphase] <;> rfl
  | deliver tip pushes hpushes hconnected =>
    rw [onNewTip_bytes]
    exact h.delivered hpushes
  | store reply hfetcher =>
    refine ⟨_, _, h.frame rfl rfl rfl ?_⟩
    rw [heightReplied_loadTip]
  -- the connection and the fetcher move neither the phase nor the tip
  | _ => exact ⟨_, _, h.frame rfl rfl rfl rfl⟩

/-- A poll observes the snapshot's tip, unless it is the last one it observed. -/
theorem Staged.polled (h : Staged d log actor seen rest) (sent : Option BlockHash) :
    Staged d (log ++ [.polled actor.snapshot.loadTip sent]) actor seen rest := by
  cases htip : actor.snapshot.loadTip with
  | none => exact h.frame rfl rfl rfl rfl
  | some tip =>
    refine ⟨?_, h.pushes, h.stored, ?_⟩
    · rw [tipHistory_snoc, h.history]
      simp [PipelineEvent.actor?]
    · rw [observations_snoc_of_some log rfl]
      split_ifs with hlast
      · exact h.scanned
      · exact sublist_snoc h.scanned (h.stored tip (by rw [htip]; rfl)) hlast

theorem staged_run (h : Trace (PipelineStep w capacity) (.start d) log s) :
    ∃ seen rest, Staged d log s.actor seen rest := by
  refine Trace.run_induction (P := fun log s => ∃ seen rest, Staged d log s.actor seen rest)
    ?_ ?_ log h
  · refine ⟨[], d.toList, ?_, by simp [TipPipeline.start, ActorState.start], ?_, ?_⟩
    · simp [tipHistory, changes]
    · intro tip htip
      cases htip
    · exact List.Sublist.refl _
  · intro log t e u hrun hstaged hstep
    obtain ⟨seen, rest, hstaged⟩ := hstaged
    cases hstep with
    | actor hactor =>
      have hactors : ActorRun d (log.filterMap PipelineEvent.actor?) t.actor := actor_run hrun
      exact hstaged.acted hactors.priming (daemonTip_eq_getLast? hrun) hactor
    | silent hpoll => exact ⟨seen, rest, hstaged.polled _⟩
    | sent hpoll hsend => exact ⟨seen, rest, hstaged.polled _⟩
    | engine hl hstep => exact ⟨seen, rest, hstaged.frame rfl rfl rfl rfl⟩

/-- The detector skips tips and makes none up. -/
theorem observations_sublist (h : Trace (PipelineStep w capacity) (.start d) log s) :
    (observations log).Sublist (tipHistory d log) := by
  obtain ⟨seen, rest, hstaged⟩ := staged_run h
  rw [hstaged.history]
  exact List.sublist_append_of_sublist_left hstaged.scanned

/-! ## The channel -/

theorem push_sublist (rx : BroadcastReceiver BlockHash) (capacity : Nat) (tip : BlockHash) :
    (rx.push capacity tip).pending.Sublist (rx.pending ++ [tip]) := by
  unfold BroadcastReceiver.push
  split_ifs
  · exact List.Sublist.refl _
  · exact (List.tail_sublist _).append (List.Sublist.refl _)

/-- The channel reorders nothing and makes nothing up. -/
theorem notified_run (h : Trace (PipelineStep w capacity) (.start d) log s) :
    (notifications log ++ s.channel.rx.pending).Sublist (broadcasts log) := by
  refine Trace.history (P := fun log s =>
    (notifications log ++ s.channel.rx.pending).Sublist (broadcasts log)) (by rfl) ?_ log h
  intro log t e u hnotified hstep
  rw [notifications_snoc, broadcasts_snoc]
  cases hstep with
  | actor h => simpa [PipelineEvent.notified?, PipelineEvent.broadcast?] using hnotified
  | silent h => simpa [PipelineEvent.notified?, PipelineEvent.broadcast?] using hnotified
  | @sent _ tip _ hpoll hsend =>
    cases hsend
    show (notifications log ++ [] ++ (t.channel.rx.push capacity tip).pending).Sublist
      (broadcasts log ++ [tip])
    rw [List.append_nil]
    refine ((List.Sublist.refl _).append (push_sublist t.channel.rx capacity tip)).trans ?_
    rw [← List.append_assoc]
    exact hnotified.append (List.Sublist.refl _)
  | engine hl h =>
    cases h with
    | sent tip => exact absurd rfl (hl tip)
    | received hidle hrecv =>
      rcases BroadcastReceiver.recv_cases hrecv with ⟨tip, rfl, -, -, hpending⟩ | ⟨rfl, -, hpending⟩
      · rw [hpending] at hnotified
        simpa [PipelineEvent.notified?, PipelineEvent.broadcast?] using hnotified
      · simpa [PipelineEvent.notified?, PipelineEvent.broadcast?, hpending] using hnotified
    | flushing hprog hI => simpa [PipelineEvent.notified?, PipelineEvent.broadcast?] using hnotified
    | handling hI => simpa [PipelineEvent.notified?, PipelineEvent.broadcast?] using hnotified

/-- In every interleaving, the detector observes the daemon's history with tips
    left out, never one tip twice in a row, and broadcasts all but its first
    observation; of the broadcasts, the invalidator is notified in their order. -/
theorem notices_follow_daemon (h : Trace (PipelineStep w capacity) (.start d) log s) :
    (observations log).Sublist (tipHistory d log) ∧ (observations log).IsChain (· ≠ ·) ∧
      (observations log).getLast? = s.lastTip ∧ (observations log).tail = broadcasts log ∧
      (notifications log ++ s.channel.rx.pending).Sublist (broadcasts log) :=
  ⟨observations_sublist h, List.isChain_destutter _ _, observations_getLast? h,
    observations_tail h, notified_run h⟩

end

namespace Sample

/-- The actor subscribes at tip 1, and the detector observes it. -/
def subscribing : List PipelineEvent :=
  [.actor (.tipAnswered (some (.tip (U256.fill 1)))), .actor .tipHandled,
    .actor (.heightAnswered none), .actor .heightHandled, .actor .accepted,
    .actor (.subscribed true), .polled (some (U256.fill 1)) none]

def subscribed : TipPipeline where
  actor := { ActorState.start (some (U256.fill 1)) with
    phase := .serving true
    snapshot := AtomicTipSnapshot.empty.storeTip (U256.fill 1)
    accepted := true }
  lastTip := some (U256.fill 1)
  channel := .new

/-- Between two jobs, tip 2 comes through. -/
def piped : List PipelineEvent :=
  subscribing ++ ([.engine (cached 7), .actor (.changed (U256.fill 2)),
    .actor (.callback (U256.fill 2)),
    .polled (some (U256.fill 2)) (some (U256.fill 2))] ++
    (noticed (.ok (U256.fill 2)) 1 ++ [cached 9]).map .engine)

end Sample

theorem subscribing_run : Trace (PipelineStep Sample.wiring 1) (.start (some (U256.fill 1)))
    Sample.subscribing Sample.subscribed :=
  ⟨_, .actor (.answerTip rfl), _, .actor (.handleTip _ rfl), _, .actor (.answerHeight none rfl),
    _, .actor (.handleHeight _ rfl), _, .actor (.accept rfl), _, .actor (.subscribeOk rfl),
    _, .silent rfl, rfl⟩

theorem piped_run :
    ∃ s, Trace (PipelineStep Sample.wiring 1) (.start (some (U256.fill 1))) Sample.piped s ∧
      s.lastTip = s.actor.daemonTip ∧ s.channel.rx.recv = none ∧
      s.channel.flush.prog = .ret () ∧ s.channel.engine.declaredJobs.lookup 7 = none ∧
      ∃ job, s.channel.engine.declaredJobs.lookup 9 = some job :=
  ⟨_, (Trace.append_iff _ _ _ _).mpr ⟨_, subscribing_run,
    _, .engine (by intro tip h; cases h) (.handling ⟨.offline, rfl⟩),
    _, .actor (.change _ (by decide)), _, .actor (.deliver _ [] rfl rfl),
    _, .sent (pollOnce_of_ne (show U256.fill 2 ≠ U256.fill 1 by decide)) (.sent _),
    _, .engine (by intro tip h; cases h) (.received rfl rfl),
    _, .engine (by intro tip h; cases h) (.flushing rfl ⟨.offline, rfl⟩),
    _, .engine (by intro tip h; cases h) (.flushing rfl ⟨.offline, rfl⟩),
    _, .engine (by intro tip h; cases h) (.flushing rfl ⟨.offline, rfl⟩),
    _, .engine (by intro tip h; cases h) (.flushing rfl ⟨.offline, rfl⟩),
    _, .engine (by intro tip h; cases h) (.handling ⟨.offline, rfl⟩), rfl⟩,
    rfl, rfl, rfl, rfl, _, rfl⟩

theorem piped_notices_follow :
    ∃ s, Trace (PipelineStep Sample.wiring 1) (.start (some (U256.fill 1))) Sample.piped s ∧
      observations Sample.piped = [U256.fill 1, U256.fill 2] ∧
      (observations Sample.piped).Sublist (tipHistory (some (U256.fill 1)) Sample.piped) ∧
      (observations Sample.piped).IsChain (· ≠ ·) ∧
      (observations Sample.piped).getLast? = s.lastTip ∧
      (observations Sample.piped).tail = broadcasts Sample.piped ∧
      (notifications Sample.piped ++ s.channel.rx.pending).Sublist (broadcasts Sample.piped) := by
  obtain ⟨s, hrun, -⟩ := piped_run
  exact ⟨s, hrun, by decide, notices_follow_daemon hrun⟩

/-! ## All stages at rest -/

section

variable {w : Wiring} {capacity : Nat} {d : Option BlockHash} {log log' : List PipelineEvent}
  {s : TipPipeline}

theorem tipHistory_append (d : Option BlockHash) (log log' : List PipelineEvent) :
    tipHistory d (log ++ log') =
      tipHistory d log ++ changes (log'.filterMap PipelineEvent.actor?) := by
  simp [tipHistory, changes]

theorem jobInserted_eq_some {ι E : Type} {l : Label engineSig ι E} {r : RequestId}
    {job : DeclaredJob} (h : jobInserted l = some (r, job)) :
    ∃ i, l = .thread i ⟨.jobsInsert r job, ()⟩ := by
  rcases l with ⟨i, o, u⟩ | a
  · cases o with
    | jobsInsert r' job' =>
      obtain ⟨rfl, rfl⟩ := Prod.mk.inj (Option.some.inj h)
      exact ⟨i, rfl⟩
    | _ => cases h
  · cases h

/-- What is in a fresh cache was inserted after the send. -/
theorem Fresh.inserted_after {labels before after : List LagLabel} {tip : BlockHash}
    (h : Fresh labels) (hsent : labels = before ++ .env (.sent tip) :: after) {r : RequestId}
    {n : Nat} {job : DeclaredJob} (hentry : (ledger labels).entries.lookup r = some (n, job)) :
    (r, job) ∈ after.filterMap jobInserted := by
  have hle := h before tip after hsent r n job hentry
  have hvalid := ledger_valid.entry r n job hentry
  rw [inserted_ledger, hsent, List.filterMap_append, List.getElem?_append_right hle] at hvalid
  exact List.mem_of_getElem? hvalid

/-- What was broadcast was the daemon's tip before. -/
theorem mem_history_of_broadcast {read : Option BlockHash} {tip : BlockHash}
    {after : List PipelineEvent}
    (h : Trace (PipelineStep w capacity) (.start d) (log ++ .polled read (some tip) :: after) s) :
    tip ∈ tipHistory d log := by
  have hlog : log ++ .polled read (some tip) :: after =
      log ++ [.polled read (some tip)] ++ after := by simp
  rw [hlog] at h
  obtain ⟨t, hrun, -⟩ := (Trace.append_iff _ _ _ _).mp h
  have hmem : tip ∈ (observations (log ++ [.polled read (some tip)])).tail := by
    rw [observations_tail hrun, broadcasts_snoc]
    simp [PipelineEvent.broadcast?]
  have hhistory := (observations_sublist hrun).subset (List.mem_of_mem_tail hmem)
  rw [tipHistory_snoc] at hhistory
  simpa [PipelineEvent.actor?] using hhistory

/-- The last broadcast is the detector's last tip. -/
theorem lastTip_eq_broadcast (h : Trace (PipelineStep w capacity) (.start d) log s)
    {tip : BlockHash} (hlast : (broadcasts log).getLast? = some tip) : s.lastTip = some tip := by
  rw [← observations_getLast? h]
  rw [← observations_tail h] at hlast
  cases hobserved : observations log with
  | nil =>
    rw [hobserved] at hlast
    cases hlast
  | cons first later =>
    rw [hobserved] at hlast
    have hlast : later.getLast? = some tip := hlast
    rw [List.getLast?_cons, hlast]
    rfl

/-- When something was broadcast, the detector has observed the daemon's tip,
    and the invalidator has drained its receiver and finished its flush, every
    cached job was inserted after the daemon had come to this tip; and under
    it, if the daemon never had one tip twice. -/
theorem cached_job_current (h : Trace (PipelineStep w capacity) (.start d) log s)
    (hsent : broadcasts log ≠ []) (hobserved : s.lastTip = s.actor.daemonTip)
    (hdrained : s.channel.rx.recv = none) (hdone : s.channel.flush.prog = .ret ())
    {r : RequestId} {job : DeclaredJob}
    (hjob : s.channel.engine.declaredJobs.lookup r = some job) :
    ∃ before i after t tip, log = before ++ .engine (.thread i ⟨.jobsInsert r job, ()⟩) :: after ∧
      Trace (PipelineStep w capacity) (.start d) before t ∧ s.actor.daemonTip = some tip ∧
      tip ∈ tipHistory d before ∧
      ((tipHistory d log).Nodup → t.actor.daemonTip = some tip) := by
  obtain ⟨tip, hlast⟩ : ∃ tip, (broadcasts log).getLast? = some tip :=
    ⟨_, List.getLast?_eq_some_getLast hsent⟩
  have htip : s.actor.daemonTip = some tip := hobserved ▸ lastTip_eq_broadcast h hlast
  obtain ⟨front, e, back, rfl, he, -⟩ := split_at_last hlast
  obtain ⟨read, rfl⟩ : ∃ read, e = .polled read (some tip) := by
    cases e with
    | polled read sent => exact ⟨read, congrArg _ he⟩
    | _ => cases he
  -- the job comes from an insertion behind the last send
  have hinv := lagInv (channel_run h)
  have hfresh : Fresh
      ((front ++ .polled read (some tip) :: back).filterMap PipelineEvent.channel?) := by
    rcases hinv.covered with hrecv | hflush | hfresh
    · exact absurd hdrained hrecv
    · have hnone := hflush.1
      rw [hdone] at hnone
      cases hnone
    · exact hfresh
  rw [hinv.tracks r] at hjob
  obtain ⟨⟨n, job'⟩, hentry, rfl⟩ := Option.map_eq_some_iff.mp hjob
  have hmem := hfresh.inserted_after (by simp [PipelineEvent.channel?]; rfl) hentry
  obtain ⟨l, hl, hinserted⟩ := List.mem_filterMap.mp hmem
  obtain ⟨e, he, hel⟩ := List.mem_filterMap.mp hl
  obtain ⟨i, rfl⟩ := jobInserted_eq_some hinserted
  obtain rfl : e = .engine (.thread i ⟨.jobsInsert r job', ()⟩) := by
    cases e with
    | actor e => cases hel
    | polled read sent => cases sent <;> cases hel
    | engine l => exact congrArg _ (Option.some.inj hel)
  obtain ⟨mid, after, rfl⟩ := List.append_of_mem he
  have hlog : front ++ .polled read (some tip) :: (mid ++
      .engine (.thread i ⟨.jobsInsert r job', ()⟩) :: after) =
      (front ++ .polled read (some tip) :: mid) ++
        .engine (.thread i ⟨.jobsInsert r job', ()⟩) :: after := by simp
  have hbefore : tip ∈ tipHistory d (front ++ .polled read (some tip) :: mid) := by
    rw [tipHistory_append]
    exact List.mem_append_left _ (mem_history_of_broadcast h)
  rw [hlog] at h ⊢
  obtain ⟨t, hrun, -⟩ := (Trace.append_iff _ _ _ _).mp h
  refine ⟨_, i, after, t, tip, rfl, hrun, htip, hbefore, fun hnodup => ?_⟩
  have hend := daemonTip_eq_getLast? h
  rw [htip, tipHistory_append] at hend
  rw [tipHistory_append] at hnodup
  rw [daemonTip_eq_getLast? hrun]
  -- a later change would end with this tip a second time
  rcases List.eq_nil_or_concat (changes (List.filterMap PipelineEvent.actor?
    (.engine (.thread i ⟨.jobsInsert r job', ()⟩) :: after))) with hnil | ⟨init, last, hconcat⟩
  · rw [hnil, List.append_nil] at hend
    exact hend.symm
  · rw [hconcat] at hend hnodup
    have heq : tip = last := by simpa using hend
    have hdisjoint := List.disjoint_of_nodup_append hnodup
    exact absurd (by simp [heq]) (hdisjoint hbefore)

end

theorem piped_job_current :
    ∃ s, Trace (PipelineStep Sample.wiring 1) (.start (some (U256.fill 1))) Sample.piped s ∧
      s.channel.engine.declaredJobs.lookup 7 = none ∧
      ∃ job, s.channel.engine.declaredJobs.lookup 9 = some job ∧
        ∃ before i after t tip,
          Sample.piped = before ++ .engine (.thread i ⟨.jobsInsert 9 job, ()⟩) :: after ∧
          Trace (PipelineStep Sample.wiring 1) (.start (some (U256.fill 1))) before t ∧
          s.actor.daemonTip = some tip ∧ tip ∈ tipHistory (some (U256.fill 1)) before ∧
          ((tipHistory (some (U256.fill 1)) Sample.piped).Nodup →
            t.actor.daemonTip = some tip) := by
  obtain ⟨s, hrun, hobserved, hdrained, hdone, hgone, job, hjob⟩ := piped_run
  exact ⟨s, hrun, hgone, job, hjob,
    cached_job_current hrun (by decide) hobserved hdrained hdone hjob⟩

/-! ## A change comes through -/

/-- A step of the invalidator. -/
def OfInvalidator : LagLabel → Prop
  | .env (.received _) => True
  | .thread .invalidator _ => True
  | _ => False

/-- A step that neither the daemon nor a handler takes part in. -/
def PipelineEvent.Unattended : PipelineEvent → Prop
  | .actor e => e.change? = none
  | .polled _ _ => True
  | .engine l => OfInvalidator l

/-- The operation does not wait for a template. -/
def Op.Immediate (o : Op) : Prop := ∀ k waiter, o ≠ .awaitResponse k waiter

section

variable {w : Wiring} {capacity : Nat} {d : Option BlockHash} {log : List PipelineEvent}
  {s : TipPipeline} {engine engine' : Engine} {rx rx' : BroadcastReceiver BlockHash}

theorem parInterp_step (env : Env) (engine : Engine) {o : Op} (ho : o.Immediate) :
    parInterp engine o (env.step engine o).1 (env.step engine o).2 :=
  (parInterp_iff ho).mpr ⟨env, rfl⟩

/-- The invalidator can finish its flush, alone. -/
theorem flush_finishes (w : Wiring) (capacity : Nat) (rx : BroadcastReceiver BlockHash)
    {p : Handler Unit} (hp : p.Only Op.Immediate) : ∀ engine log, ∃ labels log',
    Trace (LagStep w capacity) ⟨engine, rx, ⟨p, log⟩⟩ labels
      ⟨(run Env.offline.oracle p engine).2, rx, ⟨.ret (), log'⟩⟩ ∧
    ∀ l ∈ labels, OfInvalidator l := by
  induction p with
  | ret u => exact fun engine log => ⟨[], log, rfl, by simp⟩
  | op o k ih =>
    intro engine log
    obtain ⟨labels, log', hrun, hlabels⟩ := ih (Env.offline.step engine o).1 (hp.2 _)
      (Env.offline.step engine o).2 (log ++ [⟨o, (Env.offline.step engine o).1⟩])
    refine ⟨.thread .invalidator ⟨o, (Env.offline.step engine o).1⟩ :: labels, log',
      ⟨_, .flushing rfl (parInterp_step .offline engine hp.1), hrun⟩, ?_⟩
    intro l hl
    rcases List.mem_cons.mp hl with rfl | hl
    · trivial
    · exact hlabels l hl

theorem invalidatorFlush_immediate (w : Wiring) : (invalidatorFlush w).Only Op.Immediate := by
  unfold invalidatorFlush invalidateAll bump Op.Immediate
  split_ifs <;> simp [jobsLen, jobsClear]

/-- The receiver is drained at the end, and a flush has emptied the cache unless
    there was nothing to receive. -/
theorem Drains.drained (h : Drains w engine rx engine' rx') :
    rx'.recv = none ∧ (rx.recv = none ∨ engine'.declaredJobs = ∅) := by
  induction h with
  | done hrecv => exact ⟨hrecv, Or.inl hrecv⟩
  | notice hrecv hrest ih =>
    refine ⟨ih.1, Or.inr ?_⟩
    rcases ih.2 with hnone | hempty
    · cases hrest with
      | done _ => exact flushed_declaredJobs _ _
      | notice hrecv' _ => rw [hnone] at hrecv'; cases hrecv'
    · exact hempty

theorem exists_drains (w : Wiring) (pending : List BlockHash) : ∀ engine, ∃ engine' rx',
    Drains w engine ⟨pending, 0⟩ engine' rx' := by
  induction pending with
  | nil => exact fun engine => ⟨engine, _, .done rfl⟩
  | cons tip pending ih =>
    intro engine
    obtain ⟨engine', rx', h⟩ := ih (engine.flushed w)
    exact ⟨engine', rx', .notice rfl h⟩

theorem Drains.trace (capacity : Nat) (h : Drains w engine rx engine' rx') : ∀ log,
    ∃ labels log', Trace (LagStep w capacity) ⟨engine, rx, ⟨.ret (), log⟩⟩ labels
      ⟨engine', rx', ⟨.ret (), log'⟩⟩ ∧ ∀ l ∈ labels, OfInvalidator l := by
  induction h with
  | done hrecv => exact fun log => ⟨[], log, rfl, by simp⟩
  | @notice engine engine' rx next rx' notice hrecv hrest ih =>
    intro log
    obtain ⟨flushing, log₁, hflush, hflushing⟩ :=
      flush_finishes w capacity next (invalidatorFlush_immediate w) engine []
    rw [run_invalidatorFlush] at hflush
    obtain ⟨labels, log₂, hrun, hlabels⟩ := ih log₁
    refine ⟨.env (.received notice) :: (flushing ++ labels), log₂, ⟨_, .received rfl hrecv,
      (Trace.append_iff _ _ _ _).mpr ⟨_, hflush, hrun⟩⟩, ?_⟩
    intro l hl
    rcases List.mem_cons.mp hl with rfl | hl
    · trivial
    · exact (List.mem_append.mp hl).elim (hflushing l) (hlabels l)

/-- Left alone, the invalidator comes to rest. -/
theorem invalidator_rests (w : Wiring) (capacity : Nat) (c : LagState)
    (hflush : c.flush.prog.Only Op.Immediate) :
    ∃ labels c', Trace (LagStep w capacity) c labels c' ∧ (∀ l ∈ labels, OfInvalidator l) ∧
      c'.rx.recv = none ∧ c'.flush.prog = .ret () ∧
      (c.rx.recv = none ∨ c'.engine.declaredJobs = ∅) := by
  obtain ⟨engine, rx, flush⟩ := c
  obtain ⟨labels, log, hfinish, hlabels⟩ := flush_finishes w capacity rx hflush engine flush.log
  obtain ⟨engine', rx', hdrains⟩ :
      ∃ engine' rx', Drains w (run Env.offline.oracle flush.prog engine).2 rx engine' rx' := by
    obtain ⟨pending, missed⟩ := rx
    by_cases hmissed : missed = 0
    · rw [hmissed]
      exact exists_drains w pending _
    · -- the lag is reported first
      obtain ⟨engine', rx', h⟩ := exists_drains w pending
        ((run Env.offline.oracle flush.prog engine).2.flushed w)
      exact ⟨engine', rx', .notice (if_neg hmissed) h⟩
  obtain ⟨labels', log', hrun, hlabels'⟩ := hdrains.trace capacity log
  refine ⟨labels ++ labels', _, (Trace.append_iff _ _ _ _).mpr ⟨_, hfinish, hrun⟩, ?_,
    hdrains.drained.1, rfl, hdrains.drained.2⟩
  intro l hl
  exact (List.mem_append.mp hl).elim (hlabels l) (hlabels' l)

theorem flush_immediate (h : Trace (PipelineStep w capacity) (.start d) log s) :
    s.channel.flush.prog.Only Op.Immediate := by
  refine Trace.invariant (P := fun c : LagState => c.flush.prog.Only Op.Immediate) ?_
    (channel_run h) trivial
  intro c l c' hc hstep
  cases hstep with
  | received hidle hrecv => exact invalidatorFlush_immediate w
  | flushing hprog hI =>
    rw [hprog] at hc
    exact hc.2 _
  | _ => exact hc

/-- The invalidator's steps, in the pipeline. -/
theorem invalidator_steps (actor : ActorState) (lastTip : Option BlockHash)
    {labels : List LagLabel} : ∀ {c c' : LagState}, Trace (LagStep w capacity) c labels c' →
    (∀ l ∈ labels, OfInvalidator l) → Trace (PipelineStep w capacity) ⟨actor, lastTip, c⟩
      (labels.map .engine) ⟨actor, lastTip, c'⟩ := by
  induction labels with
  | nil =>
    intro c c' h _
    obtain rfl : c' = c := h
    rfl
  | cons l labels ih =>
    intro c c' h hlabels
    obtain ⟨c₁, hstep, h⟩ := h
    refine ⟨⟨actor, lastTip, c₁⟩, .engine ?_ hstep, ih h fun l' hl' => hlabels l' (by simp [hl'])⟩
    intro tip heq
    have hl := hlabels l (by simp)
    rw [heq] at hl
    exact hl

/-- The callbacks store what was pushed. -/
theorem callbacks_store (w : Wiring) (capacity : Nat) (lastTip : Option BlockHash)
    (channel : LagState) (pushes : List BlockHash) : ∀ actor : ActorState,
    actor.pushes = pushes → actor.connected = true → ∃ log actor',
      Trace (PipelineStep w capacity) ⟨actor, lastTip, channel⟩ log ⟨actor', lastTip, channel⟩ ∧
      (∀ e ∈ log, e.Unattended) ∧ actor'.daemonTip = actor.daemonTip ∧
      actor'.snapshot.loadTip = pushes.getLast?.or actor.snapshot.loadTip := by
  induction pushes with
  | nil => exact fun actor _ _ => ⟨[], actor, rfl, by simp, rfl, rfl⟩
  | cons tip pushes ih =>
    intro actor hpushes hconnected
    have hstep := ActorStep.deliver tip pushes hpushes hconnected
    rw [onNewTip_bytes] at hstep
    obtain ⟨log, actor', hrun, hlog, hdaemon, htip⟩ := ih { actor with
      snapshot := actor.snapshot.storeTip tip
      trigger := if actor.trigger < triggerCapacity then actor.trigger + 1 else actor.trigger
      pushes := pushes } rfl hconnected
    refine ⟨.actor (.callback tip) :: log, actor', ⟨_, .actor hstep, hrun⟩, ?_, hdaemon, ?_⟩
    · intro e he
      rcases List.mem_cons.mp he with rfl | he
      · rfl
      · exact hlog e he
    · rw [htip, List.getLast?_cons]
      cases pushes.getLast? <;> rfl

/-- The next poll observes the snapshot. -/
theorem poll_observes (w : Wiring) (capacity : Nat) {tip : BlockHash}
    (htip : s.actor.snapshot.loadTip = some tip) :
    ∃ read sent channel,
      PipelineStep w capacity s (.polled read sent) ⟨s.actor, some tip, channel⟩ ∧
      channel.flush = s.channel.flush ∧
      (s.lastTip = none ∨ s.lastTip = some tip ∨ channel.rx.recv ≠ none) := by
  cases hlast : s.lastTip with
  | none =>
    refine ⟨_, none, s.channel, .silent ?_, rfl, Or.inl rfl⟩
    rw [htip, hlast]
    rfl
  | some prev =>
    by_cases heq : tip = prev
    · refine ⟨_, none, s.channel, .silent ?_, rfl, Or.inr (Or.inl (by rw [heq]))⟩
      rw [htip, hlast, heq, pollOnce_again]
    · refine ⟨_, some tip, _, .sent ?_ (.sent tip), rfl,
        Or.inr (Or.inr (s.channel.rx.recv_push_ne_none capacity tip))⟩
      rw [htip, hlast, pollOnce_of_ne heq]

/-- Once the daemon holds the callback, and while the connection stands, a new
    tip can come through with no help from the daemon and none from a handler:
    all stages come to rest at it, and no job is left in the cache, unless the
    detector has not observed a tip before or has observed this one last. -/
theorem change_comes_through (h : Trace (PipelineStep w capacity) (.start d) log s)
    (haccepted : s.actor.accepted = true) (hconnected : s.actor.connected = true)
    {tip : BlockHash} (hne : s.actor.daemonTip ≠ some tip) :
    ∃ log' s', Trace (PipelineStep w capacity) s (.actor (.changed tip) :: log') s' ∧
      (∀ e ∈ log', e.Unattended) ∧ s'.actor.daemonTip = some tip ∧ s'.lastTip = some tip ∧
      s'.channel.rx.recv = none ∧ s'.channel.flush.prog = .ret () ∧
      (s.lastTip = none ∨ s.lastTip = some tip ∨ s'.channel.engine.declaredJobs = ∅) := by
  have himmediate := flush_immediate h
  have hchange : PipelineStep w capacity s (.actor (.changed tip)) _ := .actor (.change tip hne)
  rw [if_pos haccepted] at hchange
  obtain ⟨delivering, actor, hdeliver, hdelivering, hdaemon, hsnapshot⟩ :=
    callbacks_store w capacity s.lastTip s.channel (s.actor.pushes ++ [tip])
      { s.actor with daemonTip := some tip, pushes := s.actor.pushes ++ [tip] } rfl hconnected
  have htip : actor.snapshot.loadTip = some tip := by
    rw [hsnapshot]
    simp
  obtain ⟨read, sent, channel, hpoll, hflush, hsent⟩ :=
    poll_observes (s := { s with actor := actor }) w capacity htip
  obtain ⟨labels, channel', hrest, hlabels, hdrained, hdone, hempty⟩ :=
    invalidator_rests w capacity channel (hflush.symm ▸ himmediate)
  have hsteps := invalidator_steps actor (some tip) hrest hlabels
  refine ⟨delivering ++ .polled read sent :: labels.map .engine, ⟨actor, some tip, channel'⟩,
    ⟨_, hchange, (Trace.append_iff _ _ _ _).mpr ⟨_, hdeliver, _, hpoll, hsteps⟩⟩, ?_, hdaemon, rfl,
    hdrained, hdone, ?_⟩
  · intro e he
    rcases List.mem_append.mp he with he | he
    · exact hdelivering e he
    · rcases List.mem_cons.mp he with rfl | he
      · trivial
      · obtain ⟨l, hl, rfl⟩ := List.mem_map.mp he
        exact hlabels l hl
  · rcases hsent with hnone | hsame | hrecv
    · exact Or.inl hnone
    · exact Or.inr (Or.inl hsame)
    · exact Or.inr (Or.inr (hempty.resolve_left hrecv))

end

/-- A job is cached while the detector's last tip is 1. -/
theorem change_comes_through_subscribed :
    ∃ s, Trace (PipelineStep Sample.wiring 1) (.start (some (U256.fill 1)))
        (Sample.subscribing ++ [.engine (Sample.cached 7)]) s ∧
      (∃ job, s.channel.engine.declaredJobs.lookup 7 = some job) ∧
      ∃ log' s', Trace (PipelineStep Sample.wiring 1) s (.actor (.changed (U256.fill 2)) :: log')
          s' ∧
        (∀ e ∈ log', e.Unattended) ∧ s'.lastTip = some (U256.fill 2) ∧
        s'.channel.engine.declaredJobs = ∅ := by
  have hrun : ∃ s, Trace (PipelineStep Sample.wiring 1) (.start (some (U256.fill 1)))
      (Sample.subscribing ++ [.engine (Sample.cached 7)]) s ∧
      (∃ job, s.channel.engine.declaredJobs.lookup 7 = some job) ∧ s.actor.accepted = true ∧
      s.actor.connected = true ∧ s.actor.daemonTip = some (U256.fill 1) ∧
      s.lastTip = some (U256.fill 1) :=
    ⟨_, (Trace.append_iff _ _ _ _).mpr ⟨_, subscribing_run,
      _, .engine (by intro tip h; cases h) (.handling ⟨.offline, rfl⟩), rfl⟩,
      ⟨_, rfl⟩, rfl, rfl, rfl, rfl⟩
  obtain ⟨s, hrun, hjob, haccepted, hconnected, hdaemon, hlast⟩ := hrun
  have hne : s.actor.daemonTip ≠ some (U256.fill 2) := by
    rw [hdaemon]
    decide
  obtain ⟨log', s', hrest, hlog', -, hlast', -, -, hempty⟩ :=
    change_comes_through hrun haccepted hconnected hne
  refine ⟨s, hrun, hjob, log', s', hrest, hlog', hlast', ?_⟩
  rw [hlast] at hempty
  rcases hempty with hnone | hsame | hempty
  · cases hnone
  · exact absurd hsame (by decide)
  · exact hempty

end Sv2P2pool
