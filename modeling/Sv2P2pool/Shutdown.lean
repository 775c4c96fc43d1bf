import Mathlib.Logic.Function.Basic
import Sv2P2pool.Framework.Trace

/-! # Shutting the Pool Down (`pool.rs`)

    `Pool::start` runs once, to its end or to one of its `?`. Any number of
    `Pool::shutdown` calls run beside it. They meet in the `is_alive` flag,
    in the cancellation token and in a `Notify`.
-/

namespace Sv2P2pool

/-! ## `Notify` -/

/-- Only the number of `notify_waiters` calls matters: no permit is stored. -/
structure Notify where
  calls : Nat

/-- A future remembers how many calls it has missed. -/
structure Notified where
  missed : Nat
  deriving DecidableEq

namespace Notify

def new : Notify := ⟨0⟩

def notified (notify : Notify) : Notified := ⟨notify.calls⟩

def notifyWaiters (notify : Notify) : Notify := ⟨notify.calls + 1⟩

/-- The future is complete: it was created before some call. -/
def completes (notify : Notify) (notified : Notified) : Prop := notified.missed < notify.calls

end Notify

/-! ## `Pool::start` -/

inductive TemplateProviderType where
  | sv2Tp
  | bitcoinCoreIpc
  deriving DecidableEq

structure StartConfig where
  /-- A p2poolv2 config is attached. -/
  p2pool : Bool
  templateProvider : TemplateProviderType

/-- The places where `start` may return `Err`. -/
inductive StartPoint where
  | buildJdsConfig
  | bootstrapShareChain
  | newJobDeclarator
  | startJobDeclarator
  | startJdsServer
  | newChannelManager
  | newSv2Tp
  | startSv2Tp
  | resolveIpcSocketPath
  | startChannelManager
  | startDownstreamServer
  deriving DecidableEq

/-- The next such place; `none` is the wait for a shutdown. -/
def StartPoint.next (config : StartConfig) : StartPoint → Option StartPoint
  | .buildJdsConfig => some (if config.p2pool then .bootstrapShareChain else .newJobDeclarator)
  | .bootstrapShareChain => some .newJobDeclarator
  | .newJobDeclarator => some .startJobDeclarator
  | .startJobDeclarator => some .startJdsServer
  | .startJdsServer => some .newChannelManager
  | .newChannelManager =>
    match config.templateProvider with
    | .sv2Tp => some .newSv2Tp
    | .bitcoinCoreIpc => some .resolveIpcSocketPath
  | .newSv2Tp => some .startSv2Tp
  | .startSv2Tp => some .startChannelManager
  | .resolveIpcSocketPath => some .startChannelManager
  | .startChannelManager => some .startDownstreamServer
  | .startDownstreamServer => none

inductive StartPhase where
  | calling (point : StartPoint)
  /-- At the `select!`. -/
  | waiting
  | stopping
  /-- Past `notify_waiters`, before the store to `is_alive`. -/
  | notified
  | returned (ok : Bool)
  deriving DecidableEq

/-! ## `Pool::shutdown` -/

inductive ShutdownCall where
  | uncalled
  /-- `is_alive` was `true`. -/
  | checked
  | holding (notified : Notified)
  | cancelled (notified : Notified)
  | awaiting (notified : Notified)
  | returned
  /-- `is_alive` was `false`. -/
  | skipped
  deriving DecidableEq

structure PoolState where
  isAlive : Bool
  /-- The cancellation token. -/
  cancelled : Bool
  shutdownNotify : Notify
  start : StartPhase
  /-- The calls of `shutdown`, by number. -/
  shutdowns : Nat → ShutdownCall

namespace PoolState

def init : PoolState where
  isAlive := true
  cancelled := false
  shutdownNotify := .new
  start := .calling .buildJdsConfig
  shutdowns := fun _ => .uncalled

def setShutdown (s : PoolState) (i : Nat) (call : ShutdownCall) : PoolState :=
  { s with shutdowns := Function.update s.shutdowns i call }

@[simp] theorem setShutdown_start (s : PoolState) (i : Nat) (call : ShutdownCall) :
    (s.setShutdown i call).start = s.start := rfl

@[simp] theorem setShutdown_shutdownNotify (s : PoolState) (i : Nat) (call : ShutdownCall) :
    (s.setShutdown i call).shutdownNotify = s.shutdownNotify := rfl

@[simp] theorem setShutdown_self (s : PoolState) (i : Nat) (call : ShutdownCall) :
    (s.setShutdown i call).shutdowns i = call := by
  simp [setShutdown]

theorem setShutdown_ne (s : PoolState) {i j : Nat} (call : ShutdownCall) (hne : j ≠ i) :
    (s.setShutdown i call).shutdowns j = s.shutdowns j := by
  simp [setShutdown, hne]

end PoolState

inductive PoolEvent where
  | passed (point : StartPoint)
  | failed (point : StartPoint)
  | ctrlC
  | cancelSeen
  | notified
  | stored
  /-- Another task of the pool cancels the token. -/
  | cancelled
  | checked (i : Nat)
  | skipped (i : Nat)
  | created (i : Nat)
  | cancels (i : Nat)
  | awaits (i : Nat)
  | woken (i : Nat)
  deriving DecidableEq

inductive PoolStep (config : StartConfig) (s : PoolState) : PoolEvent → PoolState → Prop where
  | pass (point : StartPoint) (hstart : s.start = .calling point) :
      PoolStep config s (.passed point)
        { s with start := ((point.next config).map StartPhase.calling).getD .waiting }
  | fail (point : StartPoint) (hstart : s.start = .calling point) :
      PoolStep config s (.failed point) { s with start := .returned false }
  | ctrlC (hstart : s.start = .waiting) :
      PoolStep config s .ctrlC { s with cancelled := true, start := .stopping }
  | seeCancel (hstart : s.start = .waiting) (hcancelled : s.cancelled = true) :
      PoolStep config s .cancelSeen { s with start := .stopping }
  -- the notification comes before the store, and an early return makes neither
  | notify (hstart : s.start = .stopping) :
      PoolStep config s .notified
        { s with shutdownNotify := s.shutdownNotify.notifyWaiters, start := .notified }
  | store (hstart : s.start = .notified) :
      PoolStep config s .stored { s with isAlive := false, start := .returned true }
  | cancel : PoolStep config s .cancelled { s with cancelled := true }
  -- `shutdown` reads the flag and takes its future in two steps
  | check (i : Nat) (hcall : s.shutdowns i = .uncalled) (halive : s.isAlive = true) :
      PoolStep config s (.checked i) (s.setShutdown i .checked)
  | skip (i : Nat) (hcall : s.shutdowns i = .uncalled) (hdead : s.isAlive = false) :
      PoolStep config s (.skipped i) (s.setShutdown i .skipped)
  | create (i : Nat) (hcall : s.shutdowns i = .checked) :
      PoolStep config s (.created i) (s.setShutdown i (.holding s.shutdownNotify.notified))
  | cancelToken (i : Nat) (notified : Notified) (hcall : s.shutdowns i = .holding notified) :
      PoolStep config s (.cancels i)
        { s.setShutdown i (.cancelled notified) with cancelled := true }
  | await (i : Nat) (notified : Notified) (hcall : s.shutdowns i = .cancelled notified) :
      PoolStep config s (.awaits i) (s.setShutdown i (.awaiting notified))
  | wake (i : Nat) (notified : Notified) (hcall : s.shutdowns i = .awaiting notified)
      (hcomplete : s.shutdownNotify.completes notified) :
      PoolStep config s (.woken i) (s.setShutdown i .returned)

abbrev PoolRun (config : StartConfig) (log : List PoolEvent) (s : PoolState) : Prop :=
  Trace (PoolStep config) .init log s

/-- `shutdown` call `i` is at its await, and stays there in every run on. -/
def Stranded (config : StartConfig) (s : PoolState) (i : Nat) : Prop :=
  ∃ notified, s.shutdowns i = .awaiting notified ∧
    ∀ log s', Trace (PoolStep config) s log s' → s'.shutdowns i = .awaiting notified

/-! ## One call of `shutdown` -/

section

variable {config : StartConfig} {log : List PoolEvent} {s s' : PoolState} {e : PoolEvent} {i : Nat}

/-- The future of a call that has not returned. -/
def ShutdownCall.future : ShutdownCall → Option Notified
  | .holding notified => some notified
  | .cancelled notified => some notified
  | .awaiting notified => some notified
  | _ => none

/-- The call has come to its await. -/
def ShutdownCall.awaited : ShutdownCall → Bool
  | .awaiting _ => true
  | .returned => true
  | _ => false

/-- What a step does to one call. -/
inductive CallMove (notify : Notify) (i : Nat) (e : PoolEvent) (call call' : ShutdownCall) :
    Prop where
  | stay (heq : call' = call) (hcreate : e ≠ .created i) (hawait : e ≠ .awaits i)
  | check (hcall : call = .uncalled) (hcall' : call' = .checked ∨ call' = .skipped)
      (hcreate : e ≠ .created i) (hawait : e ≠ .awaits i)
  | create (hcall : call = .checked) (hcall' : call' = .holding notify.notified)
      (he : e = .created i)
  | cancel (notified : Notified) (hcall : call = .holding notified)
      (hcall' : call' = .cancelled notified) (he : e = .cancels i)
  | await (notified : Notified) (hcall : call = .cancelled notified)
      (hcall' : call' = .awaiting notified) (he : e = .awaits i)
  | wake (notified : Notified) (hcall : call = .awaiting notified) (hcall' : call' = .returned)
      (he : e = .woken i) (hcomplete : notify.completes notified)

theorem PoolStep.call_move (hstep : PoolStep config s e s') (i : Nat) :
    CallMove s.shutdownNotify i e (s.shutdowns i) (s'.shutdowns i) := by
  cases hstep with
  | check j hcall halive =>
    by_cases hij : i = j
    · subst hij
      exact .check hcall (by simp) nofun nofun
    · exact .stay (s.setShutdown_ne _ hij) nofun nofun
  | skip j hcall hdead =>
    by_cases hij : i = j
    · subst hij
      exact .check hcall (by simp) nofun nofun
    · exact .stay (s.setShutdown_ne _ hij) nofun nofun
  | create j hcall =>
    by_cases hij : i = j
    · subst hij
      exact .create hcall (by simp) rfl
    · exact .stay (s.setShutdown_ne _ hij) (by simpa using Ne.symm hij) nofun
  | cancelToken j notified hcall =>
    by_cases hij : i = j
    · subst hij
      exact .cancel notified hcall (by simp [PoolState.setShutdown]) rfl
    · exact .stay (s.setShutdown_ne _ hij) nofun nofun
  | await j notified hcall =>
    by_cases hij : i = j
    · subst hij
      exact .await notified hcall (by simp) rfl
    · exact .stay (s.setShutdown_ne _ hij) nofun (by simpa using Ne.symm hij)
  | wake j notified hcall hcomplete =>
    by_cases hij : i = j
    · subst hij
      exact .wake notified hcall (by simp) rfl hcomplete
    · exact .stay (s.setShutdown_ne _ hij) nofun nofun
  | _ => exact .stay rfl nofun nofun

/-- What a step does to the notifications: one step sends one. -/
theorem PoolStep.notify_cases (hstep : PoolStep config s e s') :
    s'.shutdownNotify = s.shutdownNotify ∧ e ≠ .notified ∨
      s'.shutdownNotify = s.shutdownNotify.notifyWaiters ∧ e = .notified ∧
        s'.shutdowns = s.shutdowns := by
  cases hstep with
  | notify hstart => exact Or.inr ⟨rfl, rfl, rfl⟩
  | _ => exact Or.inl ⟨rfl, nofun⟩

theorem PoolRun.awaited_iff (hrun : PoolRun config log s) :
    (s.shutdowns i).awaited = true ↔ PoolEvent.awaits i ∈ log := by
  have h := Trace.latch (P := fun s => (s.shutdowns i).awaited = true) (A := fun e => e = .awaits i)
    (by simp [PoolState.init, ShutdownCall.awaited]) ?_ log hrun
  · simpa using h
  · intro log t e u _ hstep
    cases hstep.call_move i with
    | stay heq hcreate hawait => simp [heq, hawait]
    | check hcall hcall' hcreate hawait =>
      rcases hcall' with hcall' | hcall' <;> simp [hcall, hcall', ShutdownCall.awaited, hawait]
    | create hcall hcall' he => simp [hcall, hcall', ShutdownCall.awaited, he]
    | cancel notified hcall hcall' he => simp [hcall, hcall', ShutdownCall.awaited, he]
    | await notified hcall hcall' he => simp [hcall', ShutdownCall.awaited, he]
    | wake notified hcall hcall' he hcomplete => simp [hcall, hcall', ShutdownCall.awaited]

theorem PoolStep.missed_le (hstep : PoolStep config s e s')
    (h : ∀ notified, (s.shutdowns i).future = some notified →
      notified.missed ≤ s.shutdownNotify.calls) {notified : Notified}
    (hfuture : (s'.shutdowns i).future = some notified) :
    notified.missed ≤ s'.shutdownNotify.calls := by
  rcases hstep.notify_cases with ⟨hnotify, -⟩ | ⟨hnotify, -, hcalls⟩
  · rw [hnotify]
    cases hstep.call_move i with
    | stay heq hcreate hawait => exact h notified (heq ▸ hfuture)
    | check hcall hcall' hcreate hawait =>
      rcases hcall' with hcall' | hcall' <;> simp [hcall', ShutdownCall.future] at hfuture
    | create hcall hcall' he =>
      rw [hcall'] at hfuture
      obtain rfl := Option.some.inj hfuture
      exact Nat.le_refl _
    | cancel notified' hcall hcall' he => exact h notified (by rw [hcall, ← hfuture, hcall']; rfl)
    | await notified' hcall hcall' he => exact h notified (by rw [hcall, ← hfuture, hcall']; rfl)
    | wake notified' hcall hcall' he hcomplete => simp [hcall', ShutdownCall.future] at hfuture
  · rw [hcalls] at hfuture
    rw [hnotify]
    exact Nat.le_succ_of_le (h notified hfuture)

/-- The future of a call has missed at most what was sent. -/
theorem PoolRun.missed_le (hrun : PoolRun config log s) {notified : Notified}
    (hfuture : (s.shutdowns i).future = some notified) :
    notified.missed ≤ s.shutdownNotify.calls := by
  revert notified
  refine Trace.invariant (P := fun s => ∀ {notified}, (s.shutdowns i).future = some notified →
    notified.missed ≤ s.shutdownNotify.calls) ?_ hrun
    (by simp [PoolState.init, ShutdownCall.future])
  intro s e s' h hstep notified hfuture
  exact hstep.missed_le (fun _ => h) hfuture

/-- Nothing was sent since a call took its future. -/
theorem PoolRun.pending_iff (hrun : PoolRun config log s) :
    (s.shutdowns i).future = some s.shutdownNotify.notified ↔
      Pending (fun e => e = .created i) .notified log := by
  refine Trace.run_induction (P := fun log s =>
    (s.shutdowns i).future = some s.shutdownNotify.notified ↔
      Pending (fun e => e = .created i) .notified log) ?_ ?_ log hrun
  · simp [PoolState.init, ShutdownCall.future, Pending]
  intro log s e s' hlog h hstep
  rw [pending_snoc_iff, ← h]
  rcases hstep.notify_cases with ⟨hnotify, hne⟩ | ⟨hnotify, rfl, hcalls⟩
  · rw [hnotify]
    cases hstep.call_move i with
    | stay heq hcreate hawait => simp [heq, hcreate, hne]
    | check hcall hcall' hcreate hawait =>
      rcases hcall' with hcall' | hcall' <;> simp [hcall, hcall', ShutdownCall.future, hcreate]
    | create hcall hcall' he => simp [hcall', ShutdownCall.future, he]
    | cancel notified hcall hcall' he => simp [hcall, hcall', ShutdownCall.future, he]
    | await notified hcall hcall' he => simp [hcall, hcall', ShutdownCall.future, he]
    | wake notified hcall hcall' he hcomplete =>
      -- a future that completes has been sent something
      have hold : notified ≠ s.shutdownNotify.notified := by
        intro heq
        rw [heq] at hcomplete
        exact Nat.lt_irrefl _ hcomplete
      simp [hcall, hcall', ShutdownCall.future, he, hold]
  · -- every future so far has missed less than the notification just sent
    rw [hcalls, hnotify]
    simp only [ne_eq, not_true_eq_false, and_false, or_false, reduceCtorEq, iff_false]
    intro hfuture
    have hle := PoolRun.missed_le hlog hfuture
    simp only [Notify.notified, Notify.notifyWaiters] at hle
    omega

/-! ## The return of `start` -/

def StartPhase.isReturned : StartPhase → Bool
  | .returned _ => true
  | _ => false

/-- Past `notify_waiters`, or returned early. -/
def StartPhase.silent : StartPhase → Bool
  | .notified => true
  | .returned _ => true
  | _ => false

theorem PoolStep.silent (hstep : PoolStep config s e s') (hsilent : s.start.silent = true) :
    s'.start.silent = true ∧ e ≠ .notified := by
  cases hstep <;> simp_all [StartPhase.silent]

/-- No notification comes after one, and none after the return. -/
theorem silent_forever (hrun : Trace (PoolStep config) s log s') (hsilent : s.start.silent = true) :
    PoolEvent.notified ∉ log := by
  have h := Trace.history (P := fun log s => s.start.silent = true ∧ PoolEvent.notified ∉ log)
    ⟨hsilent, List.not_mem_nil⟩ ?_ log hrun
  · exact h.2
  · intro log s e s' h hstep
    have hstep' := hstep.silent h.1
    refine ⟨hstep'.1, ?_⟩
    simp [h.2, Ne.symm hstep'.2]

theorem PoolRun.failed_iff (hrun : PoolRun config log s) :
    s.start = .returned false ↔ ∃ point, PoolEvent.failed point ∈ log := by
  have h := Trace.latch (P := fun s => s.start = .returned false)
    (A := fun e => ∃ point, e = .failed point) (by simp [PoolState.init]) ?_ log hrun
  · rw [h]
    constructor
    · intro h
      obtain ⟨e, he, point, rfl⟩ := h
      exact ⟨point, he⟩
    · intro h
      obtain ⟨point, he⟩ := h
      exact ⟨_, he, point, rfl⟩
  · intro log t e u _ hstep
    cases hstep with
    | pass point hstart =>
      cases hnext : point.next config <;> simp [hstart]
    | _ => simp_all

theorem PoolRun.notified_iff (hrun : PoolRun config log s) :
    s.start = .notified ∨ s.start = .returned true ↔ PoolEvent.notified ∈ log := by
  have h := Trace.latch (P := fun s => s.start = .notified ∨ s.start = .returned true)
    (A := fun e => e = .notified) (by simp [PoolState.init]) ?_ log hrun
  · simpa using h
  · intro log t e u _ hstep
    cases hstep with
    | pass point hstart =>
      cases hnext : point.next config <;> simp [hstart]
    | _ => simp_all

theorem PoolRun.created_of_awaits (hrun : PoolRun config log s)
    (hawaits : PoolEvent.awaits i ∈ log) : PoolEvent.created i ∈ log := by
  have hreached : (s.shutdowns i).awaited = true ∨ (s.shutdowns i).future ≠ none →
      PoolEvent.created i ∈ log := by
    refine Trace.history (P := fun log s => (s.shutdowns i).awaited = true ∨
      (s.shutdowns i).future ≠ none → PoolEvent.created i ∈ log)
      (by simp [PoolState.init, ShutdownCall.awaited, ShutdownCall.future]) ?_ log hrun
    intro log s e s' h hstep hreached
    rw [List.mem_append]
    cases hstep.call_move i with
    | stay heq hcreate hawait => exact Or.inl (h (heq ▸ hreached))
    | check hcall hcall' hcreate hawait =>
      rcases hcall' with hcall' | hcall' <;>
        simp [hcall', ShutdownCall.awaited, ShutdownCall.future] at hreached
    | create hcall hcall' he => exact Or.inr (by simp [he])
    | cancel notified hcall hcall' he =>
      exact Or.inl (h (Or.inr (by simp [hcall, ShutdownCall.future])))
    | await notified hcall hcall' he =>
      exact Or.inl (h (Or.inr (by simp [hcall, ShutdownCall.future])))
    | wake notified hcall hcall' he hcomplete =>
      exact Or.inl (h (Or.inl (by simp [hcall, ShutdownCall.awaited])))
  exact hreached (Or.inl (hrun.awaited_iff.mpr hawaits))

/-- A step of a pool whose `start` is over does not wake an unnotified call. -/
theorem PoolStep.awaiting_stays (hstep : PoolStep config s e s') (hsilent : s.start.silent = true)
    (hcall : s.shutdowns i = .awaiting s.shutdownNotify.notified) :
    s'.shutdowns i = .awaiting s'.shutdownNotify.notified ∧
      s'.shutdownNotify = s.shutdownNotify := by
  have hnotify : s'.shutdownNotify = s.shutdownNotify := by
    rcases hstep.notify_cases with ⟨hnotify, -⟩ | ⟨-, he, -⟩
    · exact hnotify
    · exact absurd he (hstep.silent hsilent).2
  refine ⟨?_, hnotify⟩
  rw [hnotify]
  cases hstep.call_move i with
  | stay heq hcreate hawait => exact heq.trans hcall
  | check hcall' hmoved hcreate hawait => simp [hcall] at hcall'
  | create hcall' hmoved he => simp [hcall] at hcall'
  | cancel notified hcall' hmoved he => simp [hcall] at hcall'
  | await notified hcall' hmoved he => simp [hcall] at hcall'
  | wake notified hcall' hmoved he hcomplete =>
    rw [hcall] at hcall'
    obtain rfl := ShutdownCall.awaiting.inj hcall'
    exact absurd hcomplete (Nat.lt_irrefl _)

theorem stranded_of_unnotified (hsilent : s.start.silent = true)
    (hcall : s.shutdowns i = .awaiting s.shutdownNotify.notified) : Stranded config s i := by
  refine ⟨_, hcall, ?_⟩
  intro log s' hrun
  have h := Trace.invariant (P := fun t => t.start.silent = true ∧
    t.shutdowns i = .awaiting t.shutdownNotify.notified ∧ t.shutdownNotify = s.shutdownNotify)
    ?_ hrun ⟨hsilent, hcall, rfl⟩
  · rw [h.2.1, h.2.2]
  · intro t e u h hstep
    have hstays := hstep.awaiting_stays h.1 h.2.1
    exact ⟨(hstep.silent h.1).1, hstays.1, hstays.2.trans h.2.2⟩

theorem PoolRun.stranded_iff (hrun : PoolRun config log s) (hsilent : s.start.silent = true) :
    Stranded config s i ↔
      PoolEvent.awaits i ∈ log ∧ Pending (fun e => e = .created i) .notified log := by
  rw [← hrun.awaited_iff, ← hrun.pending_iff]
  constructor
  · intro h
    obtain ⟨notified, hcall, hstays⟩ := h
    refine ⟨by rw [hcall]; rfl, ?_⟩
    -- a completed future would let the call wake
    have hle := hrun.missed_le (i := i) (by rw [hcall]; rfl)
    have hincomplete : ¬ s.shutdownNotify.completes notified := by
      intro hcomplete
      have hwoken := hstays [.woken i] _ ⟨_, .wake i notified hcall hcomplete, rfl⟩
      simp at hwoken
    have hmissed : notified.missed = s.shutdownNotify.calls := by
      unfold Notify.completes at hincomplete
      omega
    rw [hcall]
    show some notified = some (Notified.mk s.shutdownNotify.calls)
    rw [← hmissed]
  · intro h
    refine stranded_of_unnotified hsilent ?_
    obtain ⟨hawaited, hfuture⟩ := h
    revert hawaited hfuture
    cases s.shutdowns i <;> simp [ShutdownCall.awaited, ShutdownCall.future]

/-- An early return notifies nobody. -/
theorem PoolRun.pending_of_failed {point : StartPoint} (hrun : PoolRun config log s)
    (hfailed : PoolEvent.failed point ∈ log) (hcreated : PoolEvent.created i ∈ log) :
    Pending (fun e => e = .created i) .notified log := by
  have hstart := hrun.failed_iff.mpr ⟨point, hfailed⟩
  have hunsent : PoolEvent.notified ∉ log := by
    rw [← hrun.notified_iff, hstart]
    simp
  obtain ⟨before, after, rfl⟩ := List.append_of_mem hcreated
  refine ⟨before, _, after, rfl, rfl, ?_⟩
  intro hafter
  exact hunsent (by simp [hafter])

/-- A future taken after `notify_waiters` is notified by nobody. -/
theorem PoolRun.pending_of_late {before after : List PoolEvent}
    (hrun : PoolRun config (before ++ .notified :: after) s)
    (hcreated : PoolEvent.created i ∈ after) :
    Pending (fun e => e = .created i) .notified (before ++ .notified :: after) := by
  obtain ⟨t, -, u, hstep, hafter⟩ := (Trace.append_iff _ _ _ _).mp hrun
  have hu : u.start.silent = true := by
    cases hstep with
    | notify hstart => rfl
  have hsent := silent_forever hafter hu
  obtain ⟨skipped, rest, rfl⟩ := List.append_of_mem hcreated
  refine ⟨before ++ .notified :: skipped, _, rest, by simp, rfl, ?_⟩
  intro hrest
  exact hsent (by simp [hrest])

/-- In a completed run an unnotified future was taken after `notify_waiters`. -/
theorem PoolRun.late_of_pending (hrun : PoolRun config log s) (hstart : s.start = .returned true)
    (hpending : Pending (fun e => e = .created i) .notified log) :
    ∃ before after, log = before ++ .notified :: after ∧ PoolEvent.created i ∈ after := by
  have hsent := hrun.notified_iff.mp (Or.inr hstart)
  obtain ⟨before, e, after, rfl, rfl, hafter⟩ := hpending
  have hbefore : PoolEvent.notified ∈ before := by simpa [hafter] using hsent
  obtain ⟨front, rest, rfl⟩ := List.append_of_mem hbefore
  exact ⟨front, rest ++ .created i :: after, by simp, by simp⟩

/-- Once `start` has returned, no `shutdown` hangs exactly when `start` did not
    leave by an early return and every call that came to its await had taken
    its future before `notify_waiters`. -/
theorem no_shutdown_stranded_iff (hrun : PoolRun config log s)
    (hreturned : s.start.isReturned = true) :
    (∀ i, ¬ Stranded config s i) ↔
      ∀ i, PoolEvent.awaits i ∈ log →
        (∀ point, PoolEvent.failed point ∉ log) ∧
        ∀ before after, log = before ++ .notified :: after → PoolEvent.created i ∉ after := by
  have hsilent : s.start.silent = true := by
    revert hreturned
    cases s.start <;> simp [StartPhase.isReturned, StartPhase.silent]
  constructor
  · intro h i hawaits
    have hnotified : ¬ Pending (fun e => e = .created i) .notified log := by
      intro hpending
      exact h i ((hrun.stranded_iff hsilent).mpr ⟨hawaits, hpending⟩)
    constructor
    · intro point hfailed
      exact hnotified (hrun.pending_of_failed hfailed (hrun.created_of_awaits hawaits))
    · intro before after heq hcreated
      subst heq
      exact hnotified (hrun.pending_of_late hcreated)
  · intro h i hstranded
    obtain ⟨hawaits, hpending⟩ := (hrun.stranded_iff hsilent).mp hstranded
    obtain ⟨hok, horder⟩ := h i hawaits
    -- `start` ran to its end, so it has notified, and the future came too late
    have hstart : s.start = .returned true := by
      have hnofail : s.start ≠ .returned false := by
        intro hfail
        obtain ⟨point, hfailed⟩ := hrun.failed_iff.mp hfail
        exact hok point hfailed
      revert hreturned hnofail
      rcases s.start with point | _ | _ | _ | ok <;> simp [StartPhase.isReturned]
    obtain ⟨before, after, heq, hcreated⟩ := hrun.late_of_pending hstart hpending
    exact horder before after heq hcreated

end

namespace Sample

def bareConfig : StartConfig := ⟨false, .bitcoinCoreIpc⟩

/-- `start` fails at once, then `shutdown` is called. -/
def failedLog : List PoolEvent :=
  [.failed .buildJdsConfig, .checked 0, .created 0, .cancels 0, .awaits 0]

end Sample

theorem failed_run : ∃ s, PoolRun Sample.bareConfig Sample.failedLog s ∧
    s.start = .returned false ∧ s.shutdowns 0 = .awaiting s.shutdownNotify.notified :=
  ⟨_, ⟨_, .fail _ rfl, _, .check 0 rfl rfl, _, .create 0 rfl, _, .cancelToken 0 _ rfl,
    _, .await 0 _ rfl, rfl⟩, rfl, rfl⟩

theorem early_return_strands_shutdown :
    ¬ ∀ (config : StartConfig) (log : List PoolEvent) (s : PoolState), PoolRun config log s →
      s.start.isReturned = true → ∀ i, ¬ Stranded config s i := by
  intro h
  obtain ⟨s, hrun, hstart, hcall⟩ := failed_run
  refine h _ _ s hrun (by rw [hstart]; rfl) 0 (stranded_of_unnotified ?_ hcall)
  rw [hstart]
  rfl

namespace Sample

/-- `shutdown` is called while `start` waits. -/
def orderlyLog : List PoolEvent :=
  [.passed .buildJdsConfig, .passed .newJobDeclarator, .passed .startJobDeclarator,
    .passed .startJdsServer, .passed .newChannelManager, .passed .resolveIpcSocketPath,
    .passed .startChannelManager, .passed .startDownstreamServer, .checked 0, .created 0,
    .cancels 0, .awaits 0, .cancelSeen, .notified, .stored, .woken 0]

end Sample

theorem orderly_shutdown_run : ∃ s, PoolRun Sample.bareConfig Sample.orderlyLog s ∧
    s.start.isReturned = true :=
  ⟨_, ⟨_, .pass _ rfl, _, .pass _ rfl, _, .pass _ rfl, _, .pass _ rfl, _, .pass _ rfl,
    _, .pass _ rfl, _, .pass _ rfl, _, .pass _ rfl, _, .check 0 rfl rfl, _, .create 0 rfl,
    _, .cancelToken 0 _ rfl, _, .await 0 _ rfl, _, .seeCancel rfl rfl, _, .notify rfl,
    _, .store rfl, _, .wake 0 _ rfl (Nat.lt_succ_self _), rfl⟩, rfl⟩

theorem orderly_shutdown_returns :
    ∃ s, PoolRun Sample.bareConfig Sample.orderlyLog s ∧ s.start.isReturned = true ∧
      ((∀ i, ¬ Stranded Sample.bareConfig s i) ↔
        ∀ i, PoolEvent.awaits i ∈ Sample.orderlyLog →
          (∀ point, PoolEvent.failed point ∉ Sample.orderlyLog) ∧
          ∀ before after, Sample.orderlyLog = before ++ .notified :: after →
            PoolEvent.created i ∉ after) := by
  obtain ⟨s, hrun, hreturned⟩ := orderly_shutdown_run
  exact ⟨s, hrun, hreturned, no_shutdown_stranded_iff hrun hreturned⟩

end Sv2P2pool
