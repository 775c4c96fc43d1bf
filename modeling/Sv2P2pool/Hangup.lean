import Sv2P2pool.Bitcoin.Transaction
import Sv2P2pool.Framework.Trace

/-! # What Becomes of a Dead Daemon (`share_chain.rs`, `pool.rs`)

    Behind `IpcChain` stands a thread with the `RpcSystem` driver task and the
    request loop. A watchdog thread joins it and sends on a watch channel,
    which a task of the pool turns into a cancellation. The runs here start
    where `IpcChain::connect` has returned.
-/

namespace Sv2P2pool

open Bitcoin

/-! ## The parties -/

/-- The actor thread, from the request loop on. -/
inductive ActorThread where
  | serving
  | exited
  | panicked
  deriving DecidableEq

/-- Where `Pool::start` is. -/
inductive PoolPhase where
  /-- In `bootstrap_share_chain`, before `shutdown_signal`. -/
  | bootstrapping
  /-- It holds a receiver of the signal. -/
  | bootstrapped
  /-- Past the spawn of the watcher. -/
  | running
  | stopping
  /-- `engine_handles` is dropped. -/
  | released
  /-- `ipc_shutdown_signal` is dropped. -/
  | ended
  deriving DecidableEq

/-- The task spawned in `Pool::start`. -/
inductive ShutdownWatcher where
  | unspawned
  /-- Before `borrow`. -/
  | checking
  /-- At `changed`. -/
  | waiting
  | cancelled
  | closed
  | aborted
  deriving DecidableEq

structure IpcState where
  /-- The daemon has closed the socket. -/
  hungUp : Bool
  /-- The `RpcSystem` driver runs. -/
  driver : Bool
  subscription : Bool
  snapshot : Option BlockHash
  /-- The requests in the channel. -/
  queue : Nat
  /-- The calls that were spawned and not answered. -/
  calls : Nat
  /-- A clone of the `IpcChain` is left. -/
  handle : Bool
  thread : ActorThread
  /-- The watchdog has sent. -/
  joined : Bool
  /-- The value in the watch channel. -/
  signal : Bool
  pool : PoolPhase
  watcher : ShutdownWatcher
  /-- The pool's cancellation token. -/
  cancelled : Bool

def requestChannelCapacity : Nat := 256

namespace IpcState

/-- After `connect`, with or without a subscription. -/
def start (subscription : Bool) (snapshot : Option BlockHash) : IpcState where
  hungUp := false
  driver := true
  subscription := subscription
  snapshot := snapshot
  queue := 0
  calls := 0
  handle := true
  thread := .serving
  joined := false
  signal := false
  pool := .bootstrapping
  watcher := .unspawned
  cancelled := false

/-- The receiver in `ShareChainHandles` is there. -/
def holdsReceiver (s : IpcState) : Bool :=
  match s.pool with
  | .bootstrapping => false
  | .ended => false
  | _ => true

/-- The receiver of the watcher is there. -/
def watches (s : IpcState) : Bool :=
  match s.watcher with
  | .checking => true
  | .waiting => true
  | _ => false

/-- The thread is gone, and its runtime with the driver and all calls. -/
def die (s : IpcState) (thread : ActorThread) : IpcState :=
  { s with thread := thread, driver := false, queue := 0, calls := 0 }

/-- The watchdog's `send`: without a receiver it fails and the value stays. -/
def send (s : IpcState) : IpcState :=
  { s with joined := true, signal := s.signal || s.holdsReceiver || s.watches }

end IpcState

inductive IpcEvent where
  | hungUp
  | driverExited
  | pushed (tip : BlockHash)
  | requested
  | served
  | answered
  | callFailed
  | panicked
  | runtimeStopped
  | handleDropped
  | loopExited
  | watchdogSent
  | subscribed
  | watcherSpawned
  | watcherWaits
  | watcherWoken
  | watcherClosed
  | watcherCancelled
  | tokenCancelled
  | startFailed
  | watcherAborted
  | handlesReleased
  | signalDropped
  deriving DecidableEq

/-- Steps of the parties themselves. The others come from the daemon, from
    callers, from the operator, or are a fault. -/
def IpcEvent.internal : IpcEvent → Bool
  | .hungUp => false
  | .pushed _ => false
  | .requested => false
  | .answered => false
  | .panicked => false
  | .runtimeStopped => false
  | .handleDropped => false
  | .tokenCancelled => false
  | .startFailed => false
  | _ => true

inductive IpcStep (s : IpcState) : IpcEvent → IpcState → Prop where
  | hangUp : IpcStep s .hungUp { s with hungUp := true }
  -- nothing but the driver task notices that the daemon is gone
  | exitDriver (hdriver : s.driver = true) (hungUp : s.hungUp = true) :
      IpcStep s .driverExited { s with driver := false }
  | push (tip : BlockHash) (hdriver : s.driver = true) (hconnected : s.hungUp = false)
      (hsubscription : s.subscription = true) :
      IpcStep s (.pushed tip) { s with snapshot := some tip }
  | request (hthread : s.thread = .serving) (hhandle : s.handle = true)
      (hroom : s.queue < requestChannelCapacity) :
      IpcStep s .requested { s with queue := s.queue + 1 }
  | serve (n : Nat) (hthread : s.thread = .serving) (hqueue : s.queue = n + 1) :
      IpcStep s .served { s with queue := n, calls := s.calls + 1 }
  | answer (n : Nat) (hdriver : s.driver = true) (hconnected : s.hungUp = false)
      (hcalls : s.calls = n + 1) : IpcStep s .answered { s with calls := n }
  /-- Without a driver a call ends in an error. -/
  | failCall (n : Nat) (hdriver : s.driver = false) (hcalls : s.calls = n + 1) :
      IpcStep s .callFailed { s with calls := n }
  | panic (hthread : s.thread = .serving) : IpcStep s .panicked (s.die .panicked)
  | stopRuntime (hthread : s.thread = .serving) : IpcStep s .runtimeStopped (s.die .exited)
  /-- `ShareChainHandles` holds a clone as long as the pool runs. -/
  | dropHandle (hhandle : s.handle = true) (hpool : s.pool = .released ∨ s.pool = .ended) :
      IpcStep s .handleDropped { s with handle := false }
  /-- `recv` gives `None` once all senders are gone and the queue is empty. -/
  | exitLoop (hthread : s.thread = .serving) (hhandle : s.handle = false) (hqueue : s.queue = 0) :
      IpcStep s .loopExited (s.die .exited)
  -- `join` returns when the thread is gone, however it went
  | sendSignal (hthread : s.thread ≠ .serving) (hjoined : s.joined = false) :
      IpcStep s .watchdogSent s.send
  | subscribe (hpool : s.pool = .bootstrapping) :
      IpcStep s .subscribed { s with pool := .bootstrapped }
  | spawnWatcher (hpool : s.pool = .bootstrapped) :
      IpcStep s .watcherSpawned { s with pool := .running, watcher := .checking }
  | checkFalse (hwatcher : s.watcher = .checking) (hsignal : s.signal = false) :
      IpcStep s .watcherWaits { s with watcher := .waiting }
  | checkTrue (hwatcher : s.watcher = .checking) (hsignal : s.signal = true) :
      IpcStep s .watcherCancelled { s with watcher := .cancelled, cancelled := true }
  /-- The value was sent after the receiver was taken, so `changed` sees it. -/
  | wake (hwatcher : s.watcher = .waiting) (hsignal : s.signal = true) :
      IpcStep s .watcherWoken { s with watcher := .checking }
  /-- Both senders are gone: the one in the `IpcChain` and the watchdog's. -/
  | close (hwatcher : s.watcher = .waiting) (hsignal : s.signal = false)
      (hhandle : s.handle = false) (hjoined : s.joined = true) :
      IpcStep s .watcherClosed { s with watcher := .closed }
  /-- Ctrl-C, `Pool::shutdown`, or another task of the pool. -/
  | cancel : IpcStep s .tokenCancelled { s with cancelled := true }
  /-- `?` in `Pool::start`: the locals are dropped, the watcher runs on. -/
  | failStart (hpool : s.pool = .running) : IpcStep s .startFailed { s with pool := .stopping }
  | abortWatcher (hpool : s.pool = .running) (hcancelled : s.cancelled = true) :
      IpcStep s .watcherAborted { s with pool := .stopping, watcher := .aborted }
  | releaseHandles (hpool : s.pool = .stopping) :
      IpcStep s .handlesReleased { s with pool := .released }
  | dropSignal (hpool : s.pool = .released) :
      IpcStep s .signalDropped { s with pool := .ended }

abbrev IpcRun (subscription : Bool) (snapshot : Option BlockHash) (log : List IpcEvent)
    (s : IpcState) : Prop :=
  Trace IpcStep (.start subscription snapshot) log s

/-- No party has a step to make. -/
def IpcState.Quiescent (s : IpcState) : Prop :=
  ∀ e s', IpcStep s e s' → e.internal = false

/-! ## What a run leaves in the parties -/

/-- What ends the actor thread. A hang-up of the daemon is not among them. -/
def IpcEvent.endsActor : IpcEvent → Bool
  | .panicked => true
  | .runtimeStopped => true
  | .handleDropped => true
  | _ => false

/-- The pool has a receiver of the signal: it has taken one, and has not both
    aborted its watcher and dropped its own. -/
def Listening (log : List IpcEvent) : Prop :=
  IpcEvent.subscribed ∈ log ∧ ¬ (IpcEvent.watcherAborted ∈ log ∧ IpcEvent.signalDropped ∈ log)

section

variable {subscription : Bool} {snapshot : Option BlockHash} {log : List IpcEvent}
  {s s' : IpcState} {e : IpcEvent}

/-- The watcher, the token and the signal fit together. -/
structure Wired (s : IpcState) : Prop where
  unspawned : s.watcher = .unspawned ↔ s.pool = .bootstrapping ∨ s.pool = .bootstrapped
  cancelled : s.watcher = .cancelled → s.cancelled = true ∧ s.joined = true
  aborted : s.watcher = .aborted → s.cancelled = true
  closed : s.watcher = .closed → s.signal = false ∧ s.joined = true
  unsent : s.joined = false → s.signal = false
  heard : s.signal = true → s.pool ≠ .bootstrapping

/-- A step of the actor thread or of the daemon. -/
theorem Wired.frame (h : Wired s) (hpool : s'.pool = s.pool) (hwatcher : s'.watcher = s.watcher)
    (hcancelled : s'.cancelled = s.cancelled) (hjoined : s'.joined = s.joined)
    (hsignal : s'.signal = s.signal) : Wired s' := by
  constructor <;> simp only [hpool, hwatcher, hcancelled, hjoined, hsignal]
  · exact h.unspawned
  · exact h.cancelled
  · exact h.aborted
  · exact h.closed
  · exact h.unsent
  · exact h.heard

theorem Wired.step (h : Wired s) (hstep : IpcStep s e s') : Wired s' := by
  cases hstep with
  | sendSignal hthread hjoined =>
    refine ⟨h.unspawned, fun hw => ⟨(h.cancelled hw).1, rfl⟩, h.aborted, ?_, nofun, ?_⟩
    · intro hw
      exact absurd (h.closed hw).2 (by simp [hjoined])
    · -- an unspawned watcher holds no receiver
      intro hsignal hpool
      have hpool : s.pool = .bootstrapping := hpool
      have hw := h.unspawned.mpr (Or.inl hpool)
      simp [IpcState.send, h.unsent hjoined, IpcState.holdsReceiver, IpcState.watches, hpool, hw]
        at hsignal
  | subscribe hpool =>
    have hw := h.unspawned.mpr (Or.inl hpool)
    exact ⟨by simp [hw], h.cancelled, h.aborted, h.closed, h.unsent, nofun⟩
  | spawnWatcher hpool => exact ⟨by simp, nofun, nofun, nofun, h.unsent, nofun⟩
  | checkFalse hwatcher hsignal =>
    have hpool := h.unspawned.not.mp (by simp [hwatcher])
    exact ⟨by simpa using hpool, nofun, nofun, nofun, h.unsent, h.heard⟩
  | checkTrue hwatcher hsignal =>
    have hpool := h.unspawned.not.mp (by simp [hwatcher])
    have hjoined : s.joined = true := by
      by_contra hjoined
      simp [h.unsent (by simpa using hjoined)] at hsignal
    exact ⟨by simpa using hpool, fun _ => ⟨rfl, hjoined⟩, nofun, nofun, h.unsent, h.heard⟩
  | wake hwatcher hsignal =>
    have hpool := h.unspawned.not.mp (by simp [hwatcher])
    exact ⟨by simpa using hpool, nofun, nofun, nofun, h.unsent, h.heard⟩
  | close hwatcher hsignal hhandle hjoined =>
    have hpool := h.unspawned.not.mp (by simp [hwatcher])
    exact ⟨by simpa using hpool, nofun, nofun, fun _ => ⟨hsignal, hjoined⟩, h.unsent, h.heard⟩
  | cancel =>
    exact ⟨h.unspawned, fun hw => ⟨rfl, (h.cancelled hw).2⟩, fun _ => rfl, h.closed, h.unsent,
      h.heard⟩
  | failStart hpool =>
    have hw := h.unspawned.not.mpr (by simp [hpool])
    exact ⟨by simpa using hw, h.cancelled, h.aborted, h.closed, h.unsent, nofun⟩
  | abortWatcher hpool hcancelled =>
    exact ⟨by simp, nofun, fun _ => hcancelled, nofun, h.unsent, nofun⟩
  | releaseHandles hpool =>
    have hw := h.unspawned.not.mpr (by simp [hpool])
    exact ⟨by simpa using hw, h.cancelled, h.aborted, h.closed, h.unsent, nofun⟩
  | dropSignal hpool =>
    have hw := h.unspawned.not.mpr (by simp [hpool])
    exact ⟨by simpa using hw, h.cancelled, h.aborted, h.closed, h.unsent, nofun⟩
  -- the actor thread, its driver and its callers
  | _ => exact h.frame rfl rfl rfl rfl rfl

theorem IpcRun.wired (hrun : IpcRun subscription snapshot log s) : Wired s := by
  refine Trace.invariant (fun _ _ _ h hstep => h.step hstep) hrun ?_
  exact ⟨by simp [IpcState.start], nofun, nofun, nofun, fun _ => rfl, nofun⟩

/-! ### The log -/

theorem IpcRun.actor_ended_iff (hrun : IpcRun subscription snapshot log s) :
    s.thread ≠ .serving ∨ s.handle = false ↔ ∃ e ∈ log, e.endsActor = true := by
  refine Trace.latch (P := fun s => s.thread ≠ .serving ∨ s.handle = false)
    (by simp [IpcState.start]) ?_ log hrun
  intro log t e u _ hstep
  cases hstep with
  | panic hthread => simp [IpcState.die, IpcEvent.endsActor]
  | stopRuntime hthread => simp [IpcState.die, IpcEvent.endsActor]
  | dropHandle hhandle hpool => simp [IpcEvent.endsActor]
  | exitLoop hthread hhandle hqueue => simp [IpcState.die, IpcEvent.endsActor, hhandle]
  | sendSignal hthread hjoined => simp [IpcState.send, IpcEvent.endsActor]
  | _ => simp [IpcEvent.endsActor]

/-- A latch set by one event. -/
theorem IpcRun.latch_iff {P : IpcState → Prop} {a : IpcEvent}
    (hinit : ¬ P (.start subscription snapshot))
    (hstep : ∀ s e s', Wired s → IpcStep s e s' → (P s' ↔ P s ∨ e = a))
    (hrun : IpcRun subscription snapshot log s) : P s ↔ a ∈ log := by
  have h := Trace.latch (A := fun e => e = a) hinit
    (fun _ t e u hlog hstep' => hstep t e u (IpcRun.wired hlog) hstep') log hrun
  simpa using h

theorem IpcRun.subscribed_iff (hrun : IpcRun subscription snapshot log s) :
    s.pool ≠ .bootstrapping ↔ IpcEvent.subscribed ∈ log := by
  refine IpcRun.latch_iff (P := fun s => s.pool ≠ .bootstrapping) (by simp [IpcState.start]) ?_ hrun
  intro s e s' _ hstep
  cases hstep <;> simp_all [IpcState.die, IpcState.send]

theorem IpcRun.signalDropped_iff (hrun : IpcRun subscription snapshot log s) :
    s.pool = .ended ↔ IpcEvent.signalDropped ∈ log := by
  refine IpcRun.latch_iff (P := fun s => s.pool = .ended) (by simp [IpcState.start]) ?_ hrun
  intro s e s' _ hstep
  cases hstep <;> simp_all [IpcState.die, IpcState.send]

theorem IpcRun.watcherAborted_iff (hrun : IpcRun subscription snapshot log s) :
    s.watcher = .aborted ↔ IpcEvent.watcherAborted ∈ log := by
  refine IpcRun.latch_iff (P := fun s => s.watcher = .aborted) (by simp [IpcState.start]) ?_ hrun
  intro s e s' hwired hstep
  cases hstep with
  | spawnWatcher hpool => simp [hwired.unspawned.mpr (Or.inr hpool)]
  | _ => simp_all [IpcState.die, IpcState.send]

theorem IpcRun.joined_ended (hrun : IpcRun subscription snapshot log s)
    (hjoined : s.joined = true) : s.thread ≠ .serving := by
  revert hjoined
  refine Trace.invariant (P := fun s => s.joined = true → s.thread ≠ .serving) ?_ hrun
    (by simp [IpcState.start])
  intro s e s' h hstep
  cases hstep with
  | panic hthread => simp [IpcState.die]
  | stopRuntime hthread => simp [IpcState.die]
  | exitLoop hthread hhandle hqueue => simp [IpcState.die]
  | sendSignal hthread hjoined => exact fun _ => hthread
  | _ => exact h

/-- Until the watchdog sends, the receivers are where the log left them. -/
theorem IpcRun.listening_iff (hrun : IpcRun subscription snapshot log s)
    (hjoined : s.joined = false) :
    s.holdsReceiver = true ∨ s.watches = true ↔ Listening log := by
  have hwired := hrun.wired
  have hcancelled : s.watcher ≠ .cancelled := by
    intro hw
    simp [(hwired.cancelled hw).2] at hjoined
  have hclosed : s.watcher ≠ .closed := by
    intro hw
    simp [(hwired.closed hw).2] at hjoined
  unfold Listening IpcState.holdsReceiver IpcState.watches
  rw [← hrun.subscribed_iff, ← hrun.signalDropped_iff, ← hrun.watcherAborted_iff]
  cases hpool : s.pool with
  | bootstrapping => simp [hwired.unspawned.mpr (Or.inl hpool)]
  | ended =>
    -- only a watcher that was left running still listens
    have hunspawned : s.watcher ≠ .unspawned := by simp [hwired.unspawned, hpool]
    cases hw : s.watcher <;> simp_all
  | _ => simp

/-- The signal is lost exactly when the watchdog sends to nobody. -/
theorem IpcRun.lost_iff (hrun : IpcRun subscription snapshot log s) :
    s.joined = true ∧ s.signal = false ↔
      ∃ before after, log = before ++ .watchdogSent :: after ∧ ¬ Listening before := by
  refine Trace.run_induction (P := fun log s => s.joined = true ∧ s.signal = false ↔
    ∃ before after, log = before ++ IpcEvent.watchdogSent :: after ∧ ¬ Listening before)
    (by simp [IpcState.start]) ?_ log hrun
  intro log t e u hlog h hstep
  rw [exists_split_snoc, ← h]
  cases hstep with
  | sendSignal hthread hjoined =>
    -- the watchdog sends once, so the receivers of this moment decide
    have hlistening := IpcRun.listening_iff hlog hjoined
    have hsignal := (IpcRun.wired hlog).unsent hjoined
    simp [IpcState.send, hjoined, hsignal, ← hlistening]
  | _ => simp [IpcState.die]

/-! ## When nothing moves any more -/

theorem IpcState.Quiescent.actor_ended (hquiet : s.Quiescent)
    (h : s.thread ≠ .serving ∨ s.handle = false) : s.thread ≠ .serving := by
  rcases h with hthread | hhandle
  · exact hthread
  · -- without a sender the loop serves what is queued and leaves
    intro hthread
    cases hqueue : s.queue with
    | zero => cases hquiet _ _ (.exitLoop hthread hhandle hqueue)
    | succ n => cases hquiet _ _ (.serve n hthread hqueue)

theorem IpcState.Quiescent.joined (hquiet : s.Quiescent) (hthread : s.thread ≠ .serving) :
    s.joined = true := by
  by_contra hjoined
  cases hquiet _ _ (.sendSignal hthread (by simpa using hjoined))

/-- A signal that was sent reaches the token. -/
theorem IpcState.Quiescent.cancelled (hquiet : s.Quiescent) (hwired : Wired s)
    (hsignal : s.signal = true) : s.cancelled = true := by
  cases hw : s.watcher with
  | unspawned =>
    rcases hwired.unspawned.mp hw with hpool | hpool
    · exact absurd hpool (hwired.heard hsignal)
    · cases hquiet _ _ (.spawnWatcher hpool)
  | checking => cases hquiet _ _ (.checkTrue hw hsignal)
  | waiting => cases hquiet _ _ (.wake hw hsignal)
  | cancelled => exact (hwired.cancelled hw).1
  | closed => simp [(hwired.closed hw).1] at hsignal
  | aborted => exact hwired.aborted hw

/-- Whatever else happened in the run, a hang-up included: the death of the
    connection has surfaced exactly when the actor thread itself ended and the
    watchdog found the pool listening. -/
theorem death_surfaced_iff (hrun : IpcRun subscription snapshot log s) (hquiet : s.Quiescent) :
    s.signal = true ∧ s.cancelled = true ↔
      (∃ e ∈ log, e.endsActor = true) ∧
      ∀ before after, log = before ++ .watchdogSent :: after → Listening before := by
  constructor
  · intro h
    have hjoined : s.joined = true := by
      by_contra hjoined
      simp [hrun.wired.unsent (by simpa using hjoined)] at h
    refine ⟨hrun.actor_ended_iff.mp (Or.inl (hrun.joined_ended hjoined)), ?_⟩
    intro before after heq
    by_contra hdeaf
    simp [(hrun.lost_iff.mpr ⟨before, after, heq, hdeaf⟩).2] at h
  · -- thread, watchdog, watcher: each has made its step, or one would be left
    intro h
    have hthread := hquiet.actor_ended (hrun.actor_ended_iff.mpr h.1)
    have hsignal : s.signal = true := by
      by_contra hlost
      obtain ⟨before, after, heq, hdeaf⟩ :=
        hrun.lost_iff.mp ⟨hquiet.joined hthread, by simpa using hlost⟩
      exact hdeaf (h.2 before after heq)
    exact ⟨hsignal, hquiet.cancelled hrun.wired hsignal⟩

end

namespace Sample

/-- The daemon hangs up on a pool that runs. -/
def strandedLog : List IpcEvent :=
  [.subscribed, .watcherSpawned, .watcherWaits, .hungUp, .driverExited]

def stranded : IpcState :=
  { IpcState.start true (some (.fill 1)) with
    hungUp := true, driver := false, pool := .running, watcher := .waiting }

end Sample

theorem stranded_run : IpcRun true (some (.fill 1)) Sample.strandedLog Sample.stranded :=
  ⟨_, .subscribe rfl, _, .spawnWatcher rfl, _, .checkFalse rfl rfl, _, .hangUp,
    _, .exitDriver rfl rfl, rfl⟩

theorem stranded_quiescent : Sample.stranded.Quiescent := by
  intro e s' hstep
  cases hstep <;> first | rfl | simp_all [Sample.stranded, IpcState.start]

theorem hang_up_stays_silent :
    ¬ ∀ (subscription : Bool) (snapshot : Option BlockHash) (log : List IpcEvent) (s : IpcState),
      IpcRun subscription snapshot log s →
      (IpcEvent.hungUp ∈ log ∨ IpcEvent.panicked ∈ log ∨ IpcEvent.runtimeStopped ∈ log) →
      s.Quiescent → s.signal = true ∧ s.cancelled = true := by
  intro h
  have hsurfaced := h _ _ _ _ stranded_run (Or.inl (by decide)) stranded_quiescent
  exact absurd hsurfaced.1 (by decide)

namespace Sample

/-- The actor panics instead, and the pool shuts down. -/
def relayedLog : List IpcEvent :=
  [.subscribed, .watcherSpawned, .watcherWaits, .panicked, .watchdogSent, .watcherWoken,
    .watcherCancelled, .watcherAborted, .handlesReleased, .signalDropped]

def relayed : IpcState :=
  { IpcState.start true (some (.fill 1)) with
    driver := false, thread := .panicked, joined := true, signal := true, pool := .ended,
    watcher := .aborted, cancelled := true }

end Sample

theorem relayed_run : IpcRun true (some (.fill 1)) Sample.relayedLog Sample.relayed :=
  ⟨_, .subscribe rfl, _, .spawnWatcher rfl, _, .checkFalse rfl rfl, _, .panic rfl,
    _, .sendSignal (by decide) rfl, _, .wake rfl rfl, _, .checkTrue rfl rfl,
    _, .abortWatcher rfl rfl, _, .releaseHandles rfl, _, .dropSignal rfl, rfl⟩

theorem relayed_quiescent : Sample.relayed.Quiescent := by
  intro e s' hstep
  cases hstep <;> first | rfl | simp_all [Sample.relayed, IpcState.start]

theorem relayed_death_surfaced :
    Sample.relayed.Quiescent ∧
    (Sample.relayed.signal = true ∧ Sample.relayed.cancelled = true ↔
      (∃ e ∈ Sample.relayedLog, e.endsActor = true) ∧
      ∀ before after, Sample.relayedLog = before ++ .watchdogSent :: after → Listening before) :=
  ⟨relayed_quiescent, death_surfaced_iff relayed_run relayed_quiescent⟩

end Sv2P2pool
