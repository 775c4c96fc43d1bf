import Sv2P2pool.Shutdown
import Sv2P2pool.Watcher

/-! # The End of `Pool::start` (`pool.rs`, step 8)

    After its `select!`, `start` stops what it has spawned, drops its
    share-chain handles, waits for the `StoreWriter` and only then notifies
    the calls of `shutdown`. The writer runs until the last `ChainStoreHandle`
    is gone. The handles of `start`, the engine and the tip-height publisher
    all give theirs up; the detector of the reorg watcher does not.
-/

namespace Sv2P2pool

/-! ## `start` and the tasks it leaves behind -/

/-- The share chain of `bootstrap_share_chain`: with `ipc` in its config the
    store belongs to a daemon. -/
inductive ChainBackend where
  | inProcess
  | ipc
  deriving DecidableEq

structure NodeConfig where
  start : StartConfig
  backend : ChainBackend

/-- The store is opened in this process. -/
def NodeConfig.opensStore (config : NodeConfig) : Prop :=
  config.start.p2pool = true ∧ config.backend = .inProcess

instance (config : NodeConfig) : Decidable config.opensStore := inferInstanceAs (Decidable (_ ∧ _))

/-- What `start` does next of its graceful shutdown. -/
inductive TeardownPoint where
  | shutDownJds
  | joinBitcoinCore
  | abortDemux
  | abortMetricsEndpoint
  | abortTipHeightPublisher
  | abortIpcShutdownWatcher
  | joinTasks
  | dropShareChainHandles
  | awaitStoreWriter
  | finished
  deriving DecidableEq

namespace TeardownPoint

def next : TeardownPoint → TeardownPoint
  | shutDownJds => joinBitcoinCore
  | joinBitcoinCore => abortDemux
  | abortDemux => abortMetricsEndpoint
  | abortMetricsEndpoint => abortTipHeightPublisher
  | abortTipHeightPublisher => abortIpcShutdownWatcher
  | abortIpcShutdownWatcher => joinTasks
  | joinTasks => dropShareChainHandles
  | dropShareChainHandles => awaitStoreWriter
  | awaitStoreWriter => finished
  | finished => finished

/-- The number of points that are left. -/
def left : TeardownPoint → Nat
  | shutDownJds => 9
  | joinBitcoinCore => 8
  | abortDemux => 7
  | abortMetricsEndpoint => 6
  | abortTipHeightPublisher => 5
  | abortIpcShutdownWatcher => 4
  | joinTasks => 3
  | dropShareChainHandles => 2
  | awaitStoreWriter => 1
  | finished => 0

theorem left_eq_zero {point : TeardownPoint} : point.left = 0 ↔ point = finished := by
  cases point <;> simp [left]

theorem left_next {point : TeardownPoint} (h : point ≠ finished) :
    point.next.left + 1 = point.left := by
  cases point <;> simp_all [left, next]

end TeardownPoint

structure NodeState where
  pool : PoolState
  watcher : WatcherState
  teardown : TeardownPoint
  /-- `share_chain_handles` of `start`. -/
  handles : Bool
  /-- The tip-height publisher runs, with its clone of the chain store. -/
  publisher : Bool
  /-- `store_writer_join`. -/
  storeWriter : Bool

namespace NodeState

def init : NodeState := ⟨.init, .new, .shutDownJds, false, false, false⟩

/-- `bootstrap_share_chain`, and what `start` builds on its handles. -/
def bootstrapped (w : Wiring) (config : NodeConfig) (s : NodeState) : NodeState :=
  { s with handles := true
           storeWriter := decide (config.backend = .inProcess)
           watcher := s.watcher.call .start
           publisher := w.metrics }

/-- What is done at a point. -/
def tear (s : NodeState) : NodeState :=
  match s.teardown with
  | .abortTipHeightPublisher => { s with publisher := false, teardown := s.teardown.next }
  | .dropShareChainHandles => { s with handles := false, teardown := s.teardown.next }
  | _ => { s with teardown := s.teardown.next }

/-- Some `ChainStoreHandle` is left: the one of `start`, the one in the chain
    reader of the engine, the publisher's or that of a `tip_source`. -/
def StoreHeld (s : NodeState) : Prop :=
  s.handles = true ∨ s.watcher.alive = true ∨ s.publisher = true ∨
    ∃ channel, s.watcher.runs (.detector channel) = true

@[simp] theorem tear_pool (s : NodeState) : s.tear.pool = s.pool := by
  unfold tear
  split <;> rfl

@[simp] theorem tear_watcher (s : NodeState) : s.tear.watcher = s.watcher := by
  unfold tear
  split <;> rfl

@[simp] theorem tear_storeWriter (s : NodeState) : s.tear.storeWriter = s.storeWriter := by
  unfold tear
  split <;> rfl

@[simp] theorem tear_teardown (s : NodeState) : s.tear.teardown = s.teardown.next := by
  unfold tear
  split <;> rfl

end NodeState

inductive NodeEvent where
  | pool (e : PoolEvent)
  | torn
  | watcher (a : WatcherAct) (out : WatcherOut)

inductive NodeStep (config : NodeConfig) (w : Wiring) (s : NodeState) :
    NodeEvent → NodeState → Prop where
  | bootstrap (pool : PoolState)
      (hpool : PoolStep config.start s.pool (.passed .bootstrapShareChain) pool) :
      NodeStep config w s (.pool (.passed .bootstrapShareChain))
        { s.bootstrapped w config with pool := pool }
  -- an early return drops the locals of `start` and detaches its tasks
  | fail (point : StartPoint) (pool : PoolState)
      (hpool : PoolStep config.start s.pool (.failed point) pool) :
      NodeStep config w s (.pool (.failed point)) { s with pool := pool, handles := false }
  | notify (pool : PoolState) (hpool : PoolStep config.start s.pool .notified pool)
      (hfinished : s.teardown = .finished) :
      NodeStep config w s (.pool .notified) { s with pool := pool }
  | pool (e : PoolEvent) (pool : PoolState) (hpool : PoolStep config.start s.pool e pool)
      (hbootstrap : e ≠ .passed .bootstrapShareChain) (hfail : ∀ point, e ≠ .failed point)
      (hnotify : e ≠ .notified) :
      NodeStep config w s (.pool e) { s with pool := pool }
  -- every await of the teardown ends, that of the writer once its channel is closed
  | tear (hstart : s.pool.start = .stopping)
      (hwriter : s.teardown = .awaitStoreWriter → s.storeWriter = true → ¬ s.StoreHeld) :
      NodeStep config w s .torn s.tear
  -- the engine may be dropped at any time; nobody else calls the watcher
  | watcher (a : WatcherAct) (out : WatcherOut) (watcher : WatcherState)
      (hwatcher : s.watcher.step w a = some (out, watcher))
      (hcall : ∀ c, a = .call c → c = .drop) :
      NodeStep config w s (.watcher a out) { s with watcher := watcher }

abbrev NodeRun (config : NodeConfig) (w : Wiring) (log : List NodeEvent) (s : NodeState) : Prop :=
  Trace (NodeStep config w) .init log s

def NodeEvent.pool? : NodeEvent → Option PoolEvent
  | .pool e => some e
  | _ => none

/-! ## What a step does -/

section

variable {config : NodeConfig} {w : Wiring} {log log' : List NodeEvent} {s s' : NodeState}
  {e : NodeEvent}

/-- The pool's part of a step is a step of the pool. -/
theorem NodeStep.pool_trace (hstep : NodeStep config w s e s') :
    Trace (PoolStep config.start) s.pool e.pool?.toList s'.pool := by
  cases hstep with
  | bootstrap pool hpool => exact ⟨pool, hpool, rfl⟩
  | fail point pool hpool => exact ⟨pool, hpool, rfl⟩
  | notify pool hpool hfinished => exact ⟨pool, hpool, rfl⟩
  | pool e pool hpool hbootstrap hfail hnotify => exact ⟨pool, hpool, rfl⟩
  | tear hstart hwriter => exact NodeState.tear_pool s
  | watcher a out watcher hwatcher hcall => rfl

theorem NodeRun.pool (h : NodeRun config w log s) :
    PoolRun config.start (log.filterMap NodeEvent.pool?) s.pool :=
  Trace.project (fun _ _ _ hstep => hstep.pool_trace) h

/-- A point of `start` before the share chain is there. -/
def StartPhase.early (phase : StartPhase) : Prop :=
  phase = .calling .buildJdsConfig ∨ phase = .calling .bootstrapShareChain ∨
    phase = .returned false

/-- With a share chain in this process, `start` leaves a watcher behind that
    holds the store, and so it never gets past the writer. -/
structure Held (s : NodeState) : Prop where
  watched : s.pool.start.early ∨ s.watcher.channels ≠ []
  writer : s.pool.start.early ∨ s.storeWriter = true
  running : s.teardown ≠ .finished
  unsent : s.pool.shutdownNotify.calls = 0
  unnotified : s.pool.start ≠ .notified ∧ s.pool.start ≠ .returned true
  unreturned : ∀ i, s.pool.shutdowns i ≠ .returned

/-- A step of the pool that neither bootstraps nor notifies. -/
theorem PoolStep.held {start : StartConfig} {p p' : PoolState} {e : PoolEvent}
    (h : PoolStep start p e p') (hp2pool : start.p2pool = true)
    (hbootstrap : e ≠ .passed .bootstrapShareChain) (hnotify : e ≠ .notified)
    (hunsent : p.shutdownNotify.calls = 0)
    (hunnotified : p.start ≠ .notified ∧ p.start ≠ .returned true)
    (hunreturned : ∀ i, p.shutdowns i ≠ .returned) :
    (p.start.early → p'.start.early) ∧ p'.shutdownNotify.calls = 0 ∧
      (p'.start ≠ .notified ∧ p'.start ≠ .returned true) ∧ ∀ i, p'.shutdowns i ≠ .returned := by
  have hcalls : p'.shutdownNotify = p.shutdownNotify := by
    rcases h.notify_cases with ⟨heq, -⟩ | ⟨-, he, -⟩
    · exact heq
    · exact absurd he hnotify
  refine ⟨?_, hcalls ▸ hunsent, ?_, fun i => ?_⟩
  · intro hearly
    cases h with
    | pass point hstart =>
      rw [hstart] at hearly
      simp only [StartPhase.early, StartPhase.calling.injEq, reduceCtorEq, or_false] at hearly
      rcases hearly with rfl | rfl
      · simp [StartPhase.early, StartPoint.next, hp2pool]
      · exact absurd rfl hbootstrap
    | fail point hstart => exact Or.inr (Or.inr rfl)
    | ctrlC hstart => simp [StartPhase.early, hstart] at hearly
    | seeCancel hstart hcancelled => simp [StartPhase.early, hstart] at hearly
    | notify hstart => exact absurd rfl hnotify
    | store hstart => exact absurd hstart hunnotified.1
    | _ => exact hearly
  · cases h with
    | pass point hstart => cases hnext : point.next start <;> simp
    | notify hstart => exact absurd rfl hnotify
    | store hstart => exact absurd hstart hunnotified.1
    | _ => simp_all
  · intro hreturned
    cases h.call_move i with
    | stay heq hcreate hawait => exact hunreturned i (heq ▸ hreturned)
    | check hcall hcall' hcreate hawait => rcases hcall' with hcall' | hcall' <;> simp_all
    | create hcall hcall' he => simp_all
    | cancel notified hcall hcall' he => simp_all
    | await notified hcall hcall' he => simp_all
    | wake notified hcall hcall' he hcomplete =>
      -- nothing was sent that could complete a future
      unfold Notify.completes at hcomplete
      omega

/-- The share chain is bootstrapped only for a p2poolv2 config. -/
theorem PoolStep.bootstraps {start : StartConfig} {p p' : PoolState} {e : PoolEvent}
    (h : PoolStep start p e p')
    (hp : p.start = .calling .bootstrapShareChain → start.p2pool = true)
    (hp' : p'.start = .calling .bootstrapShareChain) : start.p2pool = true := by
  cases h with
  | pass point hstart =>
    cases point with
    | buildJdsConfig =>
      by_cases hp2pool : start.p2pool = true
      · exact hp2pool
      · simp [StartPoint.next, hp2pool] at hp'
    | newChannelManager => cases htp : start.templateProvider <;> simp [StartPoint.next, htp] at hp'
    | _ => simp [StartPoint.next] at hp'
  | fail point hstart => cases hp'
  | ctrlC hstart => cases hp'
  | seeCancel hstart hcancelled => cases hp'
  | notify hstart => cases hp'
  | store hstart => cases hp'
  | _ => exact hp hp'

/-- What every run keeps. -/
structure NodeInv (config : NodeConfig) (s : NodeState) : Prop where
  bootstraps : s.pool.start = .calling .bootstrapShareChain → config.start.p2pool = true
  watcher : WatcherInv s.watcher
  writer : s.storeWriter = true → config.opensStore
  held : config.opensStore → Held s

/-- The engine's drop and the tasks of a watcher leave its channels. -/
theorem channels_length_of_step {a : WatcherAct} {out : WatcherOut} {t t' : WatcherState}
    (h : WatcherStep w t a out t') (hcall : ∀ c, a = .call c → c = .drop) :
    t'.channels.length = t.channels.length := by
  cases a with
  | call c =>
    obtain rfl := hcall c rfl
    cases h with
    | called => exact congrArg List.length (stopReorgWatcher_shared t).1
  | _ => exact (h.work rfl).1

/-- The detector of a started watcher holds the store. -/
theorem NodeInv.storeHeld (h : NodeInv config s) (hchannels : s.watcher.channels ≠ []) :
    s.StoreHeld := by
  have hpos : 0 < s.watcher.channels.length := List.length_pos_iff.mpr hchannels
  exact Or.inr (Or.inr (Or.inr ⟨0, runs_iff.mpr ⟨_, h.watcher.detector hpos⟩⟩))

theorem NodeInv.pool (h : NodeInv config s) {e : PoolEvent} {pool : PoolState}
    (hpool : PoolStep config.start s.pool e pool) (hbootstrap : e ≠ .passed .bootstrapShareChain)
    (hnotify : e ≠ .notified) (handles : Bool) :
    NodeInv config { s with pool := pool, handles := handles } := by
  refine ⟨hpool.bootstraps h.bootstraps, h.watcher, h.writer, fun hopens => ?_⟩
  have hheld := h.held hopens
  obtain ⟨hearly, hunsent, hunnotified, hunreturned⟩ := hpool.held hopens.1 hbootstrap hnotify
    hheld.unsent hheld.unnotified hheld.unreturned
  exact ⟨hheld.watched.imp_left hearly, hheld.writer.imp_left hearly, hheld.running, hunsent,
    hunnotified, hunreturned⟩

theorem NodeInv.bootstrap (h : NodeInv config s) {pool : PoolState}
    (hpool : PoolStep config.start s.pool (.passed .bootstrapShareChain) pool) :
    NodeInv config { s.bootstrapped w config with pool := pool } := by
  cases hpool with
  | pass point hstart =>
    refine ⟨by simp [StartPoint.next], h.watcher.start,
      fun hwriter => ⟨h.bootstraps hstart, of_decide_eq_true hwriter⟩, fun hopens => ?_⟩
    have hheld := h.held hopens
    refine ⟨Or.inr ?_, Or.inr (decide_eq_true hopens.2), hheld.running, hheld.unsent, ?_,
      hheld.unreturned⟩
    · simp [NodeState.bootstrapped, WatcherState.call, WatcherState.startReorgWatcher]
    · simp [StartPoint.next]

theorem NodeInv.tear (h : NodeInv config s) (hstart : s.pool.start = .stopping)
    (hwriter : s.teardown = .awaitStoreWriter → s.storeWriter = true → ¬ s.StoreHeld) :
    NodeInv config s.tear := by
  refine ⟨by simp [hstart], by simpa using h.watcher, by simpa using h.writer, fun hopens => ?_⟩
  have hheld := h.held hopens
  have hlate : ¬ s.pool.start.early := by simp [StartPhase.early, hstart]
  have hchannels := hheld.watched.resolve_left hlate
  refine ⟨Or.inr (by simpa using hchannels), Or.inr ?_, ?_, by simpa using hheld.unsent,
    by simpa using hheld.unnotified, by simpa using hheld.unreturned⟩
  · rw [NodeState.tear_storeWriter]
    exact hheld.writer.resolve_left hlate
  · -- the one way out of the teardown is the writer's end
    rw [NodeState.tear_teardown]
    intro hfinished
    have hawait : s.teardown = .awaitStoreWriter := by
      have hrunning := hheld.running
      revert hfinished hrunning
      cases s.teardown <;> simp [TeardownPoint.next]
    exact hwriter hawait (hheld.writer.resolve_left hlate) (h.storeHeld hchannels)

theorem NodeStep.inv (hstep : NodeStep config w s e s') (h : NodeInv config s) :
    NodeInv config s' := by
  cases hstep with
  | bootstrap pool hpool => exact h.bootstrap hpool
  | fail point pool hpool => exact h.pool hpool nofun nofun false
  | notify pool hpool hfinished =>
    refine ⟨hpool.bootstraps h.bootstraps, h.watcher, h.writer, fun hopens => ?_⟩
    exact absurd hfinished (h.held hopens).running
  | pool e pool hpool hbootstrap hfail hnotify => exact h.pool hpool hbootstrap hnotify s.handles
  | tear hstart hwriter => exact h.tear hstart hwriter
  | watcher a out watcher hwatcher hcall =>
    have hwatch := watcherStep_cases hwatcher
    have hlength := channels_length_of_step hwatch hcall
    refine ⟨h.bootstraps, hwatch.inv h.watcher, h.writer, fun hopens => ?_⟩
    have hheld := h.held hopens
    refine ⟨hheld.watched.imp_right fun hchannels => ?_, hheld.writer, hheld.running, hheld.unsent,
      hheld.unnotified, hheld.unreturned⟩
    rw [← List.length_pos_iff] at hchannels ⊢
    show 0 < watcher.channels.length
    omega

theorem NodeRun.inv (h : NodeRun config w log s) : NodeInv config s := by
  refine Trace.invariant (fun s e s' hs hstep => hstep.inv hs) h ?_
  have hnew : WatcherRun w .new [] .new := rfl
  refine ⟨by simp [NodeState.init, PoolState.init], (watched hnew).inv,
    fun hwriter => (by cases hwriter), fun _ => ?_⟩
  exact ⟨Or.inl (Or.inl rfl), Or.inl (Or.inl rfl), fun hfinished => (by cases hfinished), rfl,
    by simp [NodeState.init, PoolState.init], fun _ hreturned => (by cases hreturned)⟩

/-! ## The teardown ends -/

/-- Nothing keeps `start` from coming to its wait for the writer. -/
theorem reaches_writer (hstart : s.pool.start = .stopping) (hrunning : s.teardown ≠ .finished) :
    ∃ log s', Trace (NodeStep config w) s log s' ∧ s'.teardown = .awaitStoreWriter ∧
      s'.pool = s.pool ∧ s'.storeWriter = s.storeWriter := by
  generalize hleft : s.teardown.left = n
  induction n generalizing s with
  | zero => exact absurd (TeardownPoint.left_eq_zero.mp hleft) hrunning
  | succ n ih =>
    by_cases hawait : s.teardown = .awaitStoreWriter
    · exact ⟨[], s, rfl, hawait, rfl, rfl⟩
    · have hnext := TeardownPoint.left_next hrunning
      have hrunning' : s.tear.teardown ≠ .finished := by
        rw [NodeState.tear_teardown]
        revert hrunning hawait
        cases s.teardown <;> simp [TeardownPoint.next]
      obtain ⟨log, s', hrun, hawait', hpool, hwriter⟩ := ih (s := s.tear) (by simpa using hstart)
        hrunning' (by rw [NodeState.tear_teardown]; omega)
      exact ⟨.torn :: log, s', ⟨s.tear, .tear hstart fun h => absurd h hawait, hrun⟩, hawait',
        by simpa using hpool, by simpa using hwriter⟩

/-- Without a writer it comes to the end of the teardown. -/
theorem teardown_ends (hstart : s.pool.start = .stopping) (hwriter : s.storeWriter = false) :
    ∃ log s', Trace (NodeStep config w) s log s' ∧ s'.teardown = .finished ∧ s'.pool = s.pool := by
  by_cases hfinished : s.teardown = .finished
  · exact ⟨[], s, rfl, hfinished, rfl⟩
  · obtain ⟨log, s', hrun, hawait, hpool, hwriter'⟩ :
        ∃ log s', Trace (NodeStep config w) s log s' ∧ s'.teardown = .awaitStoreWriter ∧
          s'.pool = s.pool ∧ s'.storeWriter = s.storeWriter := reaches_writer hstart hfinished
    have htear : NodeStep config w s' .torn s'.tear := by
      apply NodeStep.tear
      · rw [hpool, hstart]
      · intro _ hjoin
        rw [hwriter', hwriter] at hjoin
        cases hjoin
    refine ⟨log ++ [.torn], s'.tear, (Trace.snoc_iff _ _ _ _).mpr ⟨s', hrun, htear⟩, ?_, ?_⟩
    · rw [NodeState.tear_teardown, hawait]
      rfl
    · rw [NodeState.tear_pool, hpool]

/-- Then `start` notifies and returns. -/
theorem returns_of_finished (hstart : s.pool.start = .stopping)
    (hfinished : s.teardown = .finished) :
    ∃ log s', Trace (NodeStep config w) s log s' ∧ s'.pool.start = .returned true ∧
      s'.pool.shutdownNotify = s.pool.shutdownNotify.notifyWaiters ∧
      s'.pool.shutdowns = s.pool.shutdowns := by
  refine ⟨[.pool .notified, .pool .stored], _, ⟨_, .notify _ (.notify hstart) hfinished, _,
    .pool .stored _ (.store rfl) nofun nofun nofun, rfl⟩, rfl, rfl, rfl⟩

/-- A run in which `start` returns after its teardown. -/
theorem NodeRun.start_returns (h : NodeRun config w log s) (hstart : s.pool.start = .stopping)
    (hopens : ¬ config.opensStore) :
    ∃ log s', Trace (NodeStep config w) s log s' ∧ s'.pool.start = .returned true ∧
      s'.pool.shutdownNotify = s.pool.shutdownNotify.notifyWaiters ∧
      s'.pool.shutdowns = s.pool.shutdowns := by
  have hwriter : s.storeWriter = false := by
    by_contra hjoin
    exact hopens (h.inv.writer (by simpa using hjoin))
  obtain ⟨log₁, s₁, h₁, hfinished, hpool⟩ := teardown_ends hstart hwriter
  obtain ⟨log₂, s₂, h₂, hreturned, hnotify, hcalls⟩ :=
    returns_of_finished (s := s₁) (by rw [hpool, hstart]) hfinished
  exact ⟨log₁ ++ log₂, s₂, (Trace.append_iff _ _ _ _).mpr ⟨s₁, h₁, h₂⟩, hreturned,
    by rw [hnotify, hpool], by rw [hcalls, hpool]⟩

/-- The notification wakes a call that was at its await before. -/
theorem NodeRun.shutdown_returns (h : NodeRun config w log s)
    (hstart : s.pool.start = .stopping) (hopens : ¬ config.opensStore) {i : Nat}
    {notified : Notified} (hcall : s.pool.shutdowns i = .awaiting notified) :
    ∃ log s', Trace (NodeStep config w) s log s' ∧ s'.pool.shutdowns i = .returned := by
  obtain ⟨log', s', hrun, -, hnotify, hcalls⟩ := h.start_returns hstart hopens
  have hle := h.pool.missed_le (i := i) (by rw [hcall]; rfl)
  have hcomplete : s'.pool.shutdownNotify.completes notified := by
    rw [hnotify]
    show notified.missed < s.pool.shutdownNotify.calls + 1
    omega
  refine ⟨log' ++ [.pool (.woken i)], _, (Trace.snoc_iff _ _ _ _).mpr ⟨s', hrun, .pool (.woken i) _
    (.wake i notified (hcalls ▸ hcall) hcomplete) nofun nofun nofun⟩, ?_⟩
  simp

/-- At the writer of an opened store the teardown stands still. -/
theorem NodeStep.awaits (hstep : NodeStep config w s e s') (h : NodeInv config s)
    (hopens : config.opensStore) (hawait : s.teardown = .awaitStoreWriter) :
    s'.teardown = .awaitStoreWriter := by
  cases hstep with
  | tear hstart hwriter =>
    have hheld := h.held hopens
    have hlate : ¬ s.pool.start.early := by simp [StartPhase.early, hstart]
    exact absurd (h.storeHeld (hheld.watched.resolve_left hlate))
      (hwriter hawait (hheld.writer.resolve_left hlate))
  | _ => exact hawait

theorem NodeInv.awaits_forever (h : NodeInv config s) (hopens : config.opensStore)
    (hawait : s.teardown = .awaitStoreWriter) (hrun : Trace (NodeStep config w) s log s') :
    s'.teardown = .awaitStoreWriter := by
  have hboth := Trace.invariant (P := fun s => NodeInv config s ∧ s.teardown = .awaitStoreWriter)
    (fun s e s' hs hstep => ⟨hstep.inv hs.1, hstep.awaits hs.1 hopens hs.2⟩) hrun ⟨h, hawait⟩
  exact hboth.2

/-- Once `start` is past its `select!`, it can return, and so can a call of
    `shutdown` that awaits it, exactly when it opened no store. Otherwise it
    comes to its wait for the `StoreWriter`, whose channel the detached
    detector keeps open, and stays there. -/
theorem shutdown_completes_iff (h : NodeRun config w log s) (hstart : s.pool.start = .stopping) :
    ((∃ log' s', Trace (NodeStep config w) s log' s' ∧ s'.pool.start = .returned true) ↔
      ¬ config.opensStore) ∧
    (∀ i notified, s.pool.shutdowns i = .awaiting notified →
      ((∃ log' s', Trace (NodeStep config w) s log' s' ∧ s'.pool.shutdowns i = .returned) ↔
        ¬ config.opensStore)) ∧
    (config.opensStore → ∃ log₁ s₁, Trace (NodeStep config w) s log₁ s₁ ∧
      ∀ log₂ s₂, Trace (NodeStep config w) s₁ log₂ s₂ → s₂.teardown = .awaitStoreWriter) := by
  have hinv : ∀ {log' s'}, Trace (NodeStep config w) s log' s' → NodeInv config s' := by
    intro log' s' hrun
    exact NodeRun.inv ((Trace.append_iff log log' _ _).mpr ⟨s, h, hrun⟩)
  refine ⟨⟨?_, ?_⟩, fun i notified hcall => ⟨?_, ?_⟩, fun hopens => ?_⟩
  · intro hreturns hopens
    obtain ⟨log', s', hrun, hreturned⟩ := hreturns
    exact ((hinv hrun).held hopens).unnotified.2 hreturned
  · intro hopens
    obtain ⟨log', s', hrun, hreturned, -⟩ := h.start_returns hstart hopens
    exact ⟨log', s', hrun, hreturned⟩
  · intro hreturns hopens
    obtain ⟨log', s', hrun, hreturned⟩ := hreturns
    exact ((hinv hrun).held hopens).unreturned i hreturned
  · intro hopens
    exact h.shutdown_returns hstart hopens hcall
  · obtain ⟨log₁, s₁, hrun, hawait, -, -⟩ :=
      reaches_writer (w := w) hstart (h.inv.held hopens).running
    exact ⟨log₁, s₁, hrun, fun log₂ s₂ hrun' => (hinv hrun).awaits_forever hopens hawait hrun'⟩

end

namespace Sample

def soloConfig (backend : ChainBackend) : NodeConfig := ⟨⟨true, .bitcoinCoreIpc⟩, backend⟩

/-- `shutdown` is called while `start` waits. -/
def soloLog : List NodeEvent :=
  [.passed .buildJdsConfig, .passed .bootstrapShareChain, .passed .newJobDeclarator,
    .passed .startJobDeclarator, .passed .startJdsServer, .passed .newChannelManager,
    .passed .resolveIpcSocketPath, .passed .startChannelManager, .passed .startDownstreamServer,
    .checked 0, .created 0, .cancels 0, .awaits 0, .cancelSeen].map NodeEvent.pool

end Sample

theorem solo_run (backend : ChainBackend) :
    ∃ s, NodeRun (Sample.soloConfig backend) Sample.wiring Sample.soloLog s ∧
      s.pool.start = .stopping ∧ ∃ notified, s.pool.shutdowns 0 = .awaiting notified :=
  ⟨_, ⟨_, .pool _ _ (.pass _ rfl) nofun nofun nofun, _, .bootstrap _ (.pass _ rfl),
    _, .pool _ _ (.pass _ rfl) nofun nofun nofun, _, .pool _ _ (.pass _ rfl) nofun nofun nofun,
    _, .pool _ _ (.pass _ rfl) nofun nofun nofun, _, .pool _ _ (.pass _ rfl) nofun nofun nofun,
    _, .pool _ _ (.pass _ rfl) nofun nofun nofun, _, .pool _ _ (.pass _ rfl) nofun nofun nofun,
    _, .pool _ _ (.pass _ rfl) nofun nofun nofun, _, .pool _ _ (.check 0 rfl rfl) nofun nofun nofun,
    _, .pool _ _ (.create 0 rfl) nofun nofun nofun,
    _, .pool _ _ (.cancelToken 0 _ rfl) nofun nofun nofun,
    _, .pool _ _ (.await 0 _ rfl) nofun nofun nofun,
    _, .pool _ _ (.seeCancel rfl rfl) nofun nofun nofun, rfl⟩, rfl, _, rfl⟩

/-- The same run with a store in the process hangs, and with a daemon it ends. -/
theorem shutdown_completes_with_daemon_only :
    (∃ s, NodeRun (Sample.soloConfig .inProcess) Sample.wiring Sample.soloLog s ∧
      ¬ ∃ log' s', Trace (NodeStep (Sample.soloConfig .inProcess) Sample.wiring) s log' s' ∧
        s'.pool.shutdowns 0 = .returned) ∧
    ∃ s, NodeRun (Sample.soloConfig .ipc) Sample.wiring Sample.soloLog s ∧
      ∃ log' s', Trace (NodeStep (Sample.soloConfig .ipc) Sample.wiring) s log' s' ∧
        s'.pool.shutdowns 0 = .returned := by
  constructor
  · obtain ⟨s, hrun, hstart, notified, hcall⟩ := solo_run .inProcess
    refine ⟨s, hrun, fun hreturns => ?_⟩
    exact ((shutdown_completes_iff hrun hstart).2.1 0 notified hcall).mp hreturns (by decide)
  · obtain ⟨s, hrun, hstart, notified, hcall⟩ := solo_run .ipc
    exact ⟨s, hrun, ((shutdown_completes_iff hrun hstart).2.1 0 notified hcall).mpr (by decide)⟩

end Sv2P2pool
