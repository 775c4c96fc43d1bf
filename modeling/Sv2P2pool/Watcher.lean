import Sv2P2pool.Runs
import Sv2P2pool.Framework.Tasks

/-! # The Reorg Watcher

    `start_reorg_watcher` spawns three tasks: the detector polls the tip and
    broadcasts its changes, the invalidator flushes the cache for each of
    them, and a supervisor waits for either to end. The engine keeps only the
    supervisor's handle. Aborting the supervisor drops the handles of the
    other two, which detaches them: they run on after `stop_reorg_watcher`,
    after a restart and after the engine is dropped.
-/

namespace Sv2P2pool

open ByteCodec Bitcoin Interleave

/-! ## The tasks -/

/-- The three spawned futures. A channel is the broadcast channel of one
    detector. -/
inductive WatcherFuture where
  /-- `reorg_invalidator_loop` on its receiver. -/
  | invalidator (channel : Nat)
  /-- `ReorgDetector::run` with its `last_tip`; it owns the sender. -/
  | detector (channel : Nat) (lastTip : Option BlockHash)
  /-- The `select!` over both join handles, which it owns. -/
  | supervisor (detectorHandle invalidatorHandle : Nat)

/-- The join handles a future owns. -/
def WatcherFuture.handles : WatcherFuture → List Nat
  | .supervisor detectorHandle invalidatorHandle => [detectorHandle, invalidatorHandle]
  | _ => []

structure WatcherState where
  /-- The maps and counters the tasks share with the engine. -/
  engine : Engine
  /-- The engine has not been dropped. -/
  alive : Bool
  /-- `reorg_watcher`: the handle of the supervisor. -/
  reorgWatcher : Option Nat
  runtime : Runtime WatcherFuture
  /-- The invalidators' receivers, by channel. -/
  channels : List (BroadcastReceiver BlockHash)

def broadcastCapacity : Nat := 256

/-- `ReorgDetector::poll_once`: the new `last_tip` and the tip it broadcasts. -/
def pollOnce (currentTip lastTip : Option BlockHash) : Option BlockHash × Option BlockHash :=
  match currentTip, lastTip with
  | none, lastTip => (lastTip, none)
  -- the first observation is recorded but not broadcast
  | some tip, none => (some tip, none)
  | some tip, some prev => if tip = prev then (some prev, none) else (some tip, some tip)

/-- What the invalidator does for a tip change and for a lag: flush the cache
    and count it. -/
def Engine.flushed (w : Wiring) (s : Engine) : Engine :=
  ({ s with declaredJobs := ∅ }.bumped w .reorgNotifications 1).bumped w .jobsInvalidatedTotal
    s.declaredJobs.len

theorem run_invalidatorFlush (w : Wiring) (env : Env) (s : Engine) :
    run env.oracle (invalidatorFlush w) s = ((), s.flushed w) := by
  unfold invalidatorFlush invalidateAll Engine.flushed
  simp [run_bind, Env.oracle, Env.step]

/-! ## Calls and task steps -/

inductive WatcherCall where
  | start
  | stop
  | drop
  deriving DecidableEq

inductive WatcherAct where
  | call (c : WatcherCall)
  /-- A detector polls; `tip_source` returns `tip`. -/
  | poll (task : Nat) (tip : Option BlockHash)
  /-- An invalidator receives. -/
  | recv (task : Nat)
  /-- A supervisor looks at its handles. -/
  | supervise (task : Nat)
  /-- A handler caches a job. -/
  | declared (r : RequestId) (job : DeclaredJob)

inductive WatcherOut where
  | silent
  /-- A detector broadcast a tip change. -/
  | changed (tip : BlockHash)
  /-- An invalidator flushed the cache, for a tip or for a number of missed
      tips. -/
  | flushed (notice : Except Nat BlockHash)

/-- The workers of a channel. -/
inductive Worker where
  | detector (channel : Nat)
  | invalidator (channel : Nat)
  deriving DecidableEq

def WatcherFuture.worker? : WatcherFuture → Option Worker
  | .invalidator channel => some (.invalidator channel)
  | .detector channel _ => some (.detector channel)
  | .supervisor _ _ => none

namespace WatcherState

variable (w : Wiring) (s : WatcherState)

/-- A fresh engine. -/
def new : WatcherState := ⟨Engine.new, true, none, .empty, []⟩

/-- `stop_reorg_watcher`: take the handle and abort the supervisor. -/
def stopReorgWatcher : WatcherState :=
  match s.reorgWatcher with
  | none => s
  | some handle =>
    { s with reorgWatcher := none, runtime := s.runtime.abort WatcherFuture.handles handle }

/-- The three tasks of a watcher; returns the supervisor's handle. -/
def spawnWatcher (runtime : Runtime WatcherFuture) (channel : Nat) :
    Nat × Runtime WatcherFuture :=
  let (invalidatorHandle, runtime) := runtime.spawn (.invalidator channel)
  let (detectorHandle, runtime) := runtime.spawn (.detector channel none)
  runtime.spawn (.supervisor detectorHandle invalidatorHandle)

/-- `start_reorg_watcher`: abort the previous watcher and spawn another. -/
def startReorgWatcher : WatcherState :=
  -- the same two lines as `stop_reorg_watcher`
  let s := s.stopReorgWatcher
  let (supervisor, runtime) := spawnWatcher s.runtime s.channels.length
  { s with channels := s.channels ++ [.fresh], runtime := runtime
           reorgWatcher := some supervisor }

def call : WatcherCall → WatcherState
  | .start => s.startReorgWatcher
  | .stop => s.stopReorgWatcher
  | .drop => { s.stopReorgWatcher with alive := false }

/-- The worker runs. -/
def runs (x : Worker) : Bool := s.runtime.running fun f => f.worker? = some x

/-- One iteration of `ReorgDetector::run`. -/
def poll (task : Nat) (tip : Option BlockHash) : Option (WatcherOut × WatcherState) :=
  match s.runtime.future? task with
  | some (.detector channel lastTip) =>
    let (lastTip, change) := pollOnce tip lastTip
    let s := { s with runtime := s.runtime.put task (.detector channel lastTip) }
    match change with
    | none => some (.silent, s)
    | some tip =>
      some (.changed tip,
        { s with channels := s.channels.modify channel (·.push broadcastCapacity tip) })
  | _ => none

/-- One iteration of `reorg_invalidator_loop`. -/
def recv (task : Nat) : Option (WatcherOut × WatcherState) :=
  match s.runtime.future? task with
  | some (.invalidator channel) =>
    match (s.channels[channel]?).bind BroadcastReceiver.recv with
    | some (notice, rx) =>
      some (.flushed notice,
        { s with engine := s.engine.flushed w, channels := s.channels.set channel rx })
    | none =>
      -- `Closed` once the sender is gone with its detector
      if s.runs (.detector channel) then none
      else some (.silent, { s with runtime := s.runtime.finish task })
  | _ => none

/-- The `select!` of the supervisor ends with either of its children. -/
def supervise (task : Nat) : Option (WatcherOut × WatcherState) :=
  match s.runtime.future? task with
  | some (.supervisor detectorHandle invalidatorHandle) =>
    if (s.runtime.future? detectorHandle).isSome && (s.runtime.future? invalidatorHandle).isSome
    then none
    else some (.silent, { s with runtime := s.runtime.finish task })
  | _ => none

def step : WatcherAct → Option (WatcherOut × WatcherState)
  | .call c => if s.alive then some (.silent, s.call c) else none
  | .poll task tip => s.poll task tip
  | .recv task => s.recv w task
  | .supervise task => s.supervise task
  | .declared r job =>
    some (.silent, { s with
      engine := { s.engine with declaredJobs := s.engine.declaredJobs.insert r job } })

/-- The channels whose detector and invalidator both run. -/
def pairs : List Nat :=
  (List.range s.channels.length).filter fun c => s.runs (.detector c) && s.runs (.invalidator c)

end WatcherState

/-- A run of calls and task steps, in any order. -/
abbrev WatcherRun (w : Wiring) (s : WatcherState) (log : List (WatcherAct × WatcherOut))
    (s' : WatcherState) : Prop :=
  Trace (fun s e s' => s.step w e.1 = some (e.2, s')) s log s'

/-! ## What a step does -/

section

variable {w : Wiring} {s s' : WatcherState} {a : WatcherAct} {out : WatcherOut}

/-- The effect of a step. -/
inductive WatcherStep (w : Wiring) (s : WatcherState) :
    WatcherAct → WatcherOut → WatcherState → Prop where
  | called (c : WatcherCall) : WatcherStep w s (.call c) .silent (s.call c)
  /-- The tip is the old one, or the first one. -/
  | unchanged (t channel : Nat) (tip lastTip newTip : Option BlockHash)
      (hf : s.runtime.future? t = some (.detector channel lastTip)) :
      WatcherStep w s (.poll t tip) .silent
        { s with runtime := s.runtime.put t (.detector channel newTip) }
  | changed (t channel : Nat) (tip : Option BlockHash) (newTip : BlockHash)
      (lastTip : Option BlockHash)
      (hf : s.runtime.future? t = some (.detector channel lastTip)) :
      WatcherStep w s (.poll t tip) (.changed newTip)
        { s with runtime := s.runtime.put t (.detector channel (some newTip))
                 channels := s.channels.modify channel (·.push broadcastCapacity newTip) }
  | flushed (t channel : Nat) (rx rx' : BroadcastReceiver BlockHash)
      (notice : Except Nat BlockHash)
      (hf : s.runtime.future? t = some (.invalidator channel))
      (hrx : s.channels[channel]? = some rx) (hrecv : rx.recv = some (notice, rx')) :
      WatcherStep w s (.recv t) (.flushed notice)
        { s with engine := s.engine.flushed w, channels := s.channels.set channel rx' }
  /-- The detector is gone. -/
  | closed (t channel : Nat) (hf : s.runtime.future? t = some (.invalidator channel))
      (hgone : s.runs (.detector channel) = false) :
      WatcherStep w s (.recv t) .silent { s with runtime := s.runtime.finish t }
  /-- One of the two workers is over. -/
  | supervised (t detectorHandle invalidatorHandle : Nat)
      (hf : s.runtime.future? t = some (.supervisor detectorHandle invalidatorHandle))
      (hended : s.runtime.future? detectorHandle = none ∨
        s.runtime.future? invalidatorHandle = none) :
      WatcherStep w s (.supervise t) .silent { s with runtime := s.runtime.finish t }
  | declared (r : RequestId) (job : DeclaredJob) :
      WatcherStep w s (.declared r job) .silent { s with
        engine := { s.engine with declaredJobs := s.engine.declaredJobs.insert r job } }

/-- A change is broadcast as the new `last_tip`. -/
theorem pollOnce_changed {tip lastTip : Option BlockHash} {newTip : BlockHash}
    (h : (pollOnce tip lastTip).2 = some newTip) : (pollOnce tip lastTip).1 = some newTip := by
  unfold pollOnce at *
  split at h
  · cases h
  · cases h
  · split_ifs at h ⊢
    exact h

theorem poll_cases {t : Nat} {tip : Option BlockHash} (h : s.poll t tip = some (out, s')) :
    WatcherStep w s (.poll t tip) out s' := by
  unfold WatcherState.poll at h
  cases hf : s.runtime.future? t with
  | none => simp [hf] at h
  | some f =>
    cases f with
    | invalidator channel => simp [hf] at h
    | supervisor d i => simp [hf] at h
    | detector channel lastTip =>
      simp only [hf] at h
      cases hchange : (pollOnce tip lastTip).2 with
      | none =>
        simp only [hchange, Option.some.injEq, Prod.mk.injEq] at h
        obtain ⟨rfl, rfl⟩ := h
        exact .unchanged t channel tip lastTip _ hf
      | some newTip =>
        simp only [hchange, pollOnce_changed hchange, Option.some.injEq, Prod.mk.injEq] at h
        obtain ⟨rfl, rfl⟩ := h
        exact .changed t channel tip newTip lastTip hf

theorem recv_cases {t : Nat} (h : s.recv w t = some (out, s')) :
    WatcherStep w s (.recv t) out s' := by
  unfold WatcherState.recv at h
  cases hf : s.runtime.future? t with
  | none => simp [hf] at h
  | some f =>
    cases f with
    | detector channel lastTip => simp [hf] at h
    | supervisor d i => simp [hf] at h
    | invalidator channel =>
      simp only [hf] at h
      cases hrecv : (s.channels[channel]?).bind BroadcastReceiver.recv with
      | some r =>
        simp only [hrecv, Option.some.injEq, Prod.mk.injEq] at h
        obtain ⟨rfl, rfl⟩ := h
        obtain ⟨rx, hrx, hrecv⟩ := Option.bind_eq_some_iff.mp hrecv
        exact .flushed t channel rx r.2 r.1 hf hrx hrecv
      | none =>
        simp only [hrecv] at h
        split_ifs at h with hruns
        obtain ⟨rfl, rfl⟩ := Prod.mk.inj (Option.some.inj h)
        exact .closed t channel hf (by simpa using hruns)

theorem supervise_cases {t : Nat} (h : s.supervise t = some (out, s')) :
    WatcherStep w s (.supervise t) out s' := by
  unfold WatcherState.supervise at h
  cases hf : s.runtime.future? t with
  | none => simp [hf] at h
  | some f =>
    cases f with
    | detector channel lastTip => simp [hf] at h
    | invalidator channel => simp [hf] at h
    | supervisor d i =>
      simp only [hf] at h
      split_ifs at h with hboth
      obtain ⟨rfl, rfl⟩ := Prod.mk.inj (Option.some.inj h)
      refine .supervised t d i hf ?_
      simp only [Bool.and_eq_true, Option.isSome_iff_ne_none] at hboth
      exact Decidable.not_and_iff_not_or_not.mp hboth |>.imp not_not.mp not_not.mp

theorem watcherStep_cases (h : s.step w a = some (out, s')) : WatcherStep w s a out s' := by
  cases a with
  | call c =>
    simp only [WatcherState.step] at h
    split_ifs at h
    obtain ⟨rfl, rfl⟩ := Prod.mk.inj (Option.some.inj h)
    exact .called c
  | poll t tip => exact poll_cases h
  | recv t => exact recv_cases h
  | supervise t => exact supervise_cases h
  | declared r job =>
    obtain ⟨rfl, rfl⟩ := Prod.mk.inj (Option.some.inj h)
    exact .declared r job

/-! ## No call stops a worker -/

variable {rt : Runtime WatcherFuture}

/-- The task is a running worker. -/
def Works (rt : Runtime WatcherFuture) (t : Nat) (x : Worker) : Prop :=
  (rt.future? t).bind WatcherFuture.worker? = some x

theorem runs_iff {x : Worker} : s.runs x = true ↔ ∃ t, Works s.runtime t x := by
  simp [WatcherState.runs, Runtime.running_iff, Works, Option.bind_eq_some_iff]

theorem works_invalidator {t c : Nat} (hf : rt.future? t = some (.invalidator c)) :
    Works rt t (.invalidator c) := by
  rw [Works, hf]
  rfl

theorem works_detector {t c : Nat} {lastTip : Option BlockHash}
    (hf : rt.future? t = some (.detector c lastTip)) : Works rt t (.detector c) := by
  rw [Works, hf]
  rfl

/-- The workers of the `c`-th start. -/
def WorkerOf (c t : Nat) (x : Worker) : Prop :=
  t = 3 * c ∧ x = .invalidator c ∨ t = 3 * c + 1 ∧ x = .detector c

/-- Every start leaves its three tasks in the runtime; both workers of every
    start run, and the engine holds at most the supervisor of the last. -/
structure WatcherInv (s : WatcherState) : Prop where
  tasks : s.runtime.tasks.length = 3 * s.channels.length
  works : ∀ t x, Works s.runtime t x ↔ ∃ c < s.channels.length, WorkerOf c t x
  supervisors : ∀ t d i, s.runtime.future? t = some (.supervisor d i) →
    ∃ c < s.channels.length, t = 3 * c + 2 ∧ d = 3 * c + 1 ∧ i = 3 * c
  handle : ∀ h, s.reorgWatcher = some h → h + 1 = 3 * s.channels.length ∧
    ∃ d i, s.runtime.future? h = some (.supervisor d i)

/-- Running a detector changes no role. -/
theorem WatcherInv.put (h : WatcherInv s) {t channel : Nat} {lastTip newTip : Option BlockHash}
    (hf : s.runtime.future? t = some (.detector channel lastTip))
    (hrt : s'.runtime = s.runtime.put t (.detector channel newTip))
    (hchannels : s'.channels.length = s.channels.length)
    (hhandle : s'.reorgWatcher = s.reorgWatcher) : WatcherInv s' := by
  have hfuture : ∀ t', s'.runtime.future? t' =
      if t' = t then some (.detector channel newTip) else s.runtime.future? t' := by
    intro t'
    rw [hrt, Runtime.future?_put hf]
  refine ⟨?_, fun t' x => ?_, fun t' d i hf' => ?_, fun handle heq => ?_⟩
  · rw [hrt, hchannels, ← h.tasks]
    simp [Runtime.put]
  · rw [hchannels, ← h.works]
    simp only [Works, hfuture]
    by_cases ht : t' = t
    · subst ht
      simp [hf, WatcherFuture.worker?]
    · simp [ht]
  · rw [hfuture] at hf'
    split_ifs at hf' with ht
    · cases hf'
    · rw [hchannels]
      exact h.supervisors t' d i hf'
  · obtain ⟨hlast, d, i, hsup⟩ := h.handle handle (hhandle ▸ heq)
    refine ⟨hchannels ▸ hlast, d, i, ?_⟩
    rw [hfuture, if_neg, hsup]
    intro ht
    subst ht
    simp [hf] at hsup

/-- Aborting the supervisor of the last start ends no worker. -/
theorem WatcherInv.stop (h : WatcherInv s) : WatcherInv s.stopReorgWatcher := by
  unfold WatcherState.stopReorgWatcher
  cases hhandle : s.reorgWatcher with
  | none => exact h
  | some handle =>
    obtain ⟨-, d, i, hsup⟩ := h.handle handle hhandle
    refine ⟨?_, fun t x => ?_, fun t d' i' hf => ?_, fun _ heq => ?_⟩
    · simp [Runtime.abort, hsup, Runtime.foldl_dropHandle, Runtime.finish, h.tasks]
    · rw [← h.works]
      by_cases ht : t = handle
      · subst ht
        simp [Works, Runtime.future?_abort, hsup, WatcherFuture.worker?]
      · simp [Works, Runtime.future?_abort, ht]
    · rw [Runtime.future?_abort] at hf
      split_ifs at hf
      exact h.supervisors t d' i' hf
    · cases heq

theorem length_spawnWatcher (rt : Runtime WatcherFuture) (c : Nat) :
    (WatcherState.spawnWatcher rt c).2.tasks.length = rt.tasks.length + 3 := by
  simp [WatcherState.spawnWatcher]

/-- The tasks of a new watcher. -/
theorem future?_spawnWatcher (rt : Runtime WatcherFuture) (c t : Nat) :
    (WatcherState.spawnWatcher rt c).2.future? t =
      if t = rt.tasks.length + 2 then
        some (.supervisor (rt.tasks.length + 1) rt.tasks.length)
      else if t = rt.tasks.length + 1 then some (.detector c none)
      else if t = rt.tasks.length then some (.invalidator c)
      else rt.future? t := by
  simp [WatcherState.spawnWatcher, Runtime.future?_spawn]

/-- The workers after a start: the earlier ones and the new ones. -/
theorem works_spawnWatcher {n : Nat} (hn : rt.tasks.length = 3 * n) (t : Nat) (x : Worker) :
    Works (WatcherState.spawnWatcher rt n).2 t x ↔ Works rt t x ∨ WorkerOf n t x := by
  have hnone : 3 * n ≤ t → rt.future? t = none := fun h => Runtime.future?_eq_none (hn ▸ h)
  simp only [Works, WorkerOf, future?_spawnWatcher, hn]
  split_ifs with h2 h1 h0
  · have h0 : t ≠ 3 * n := by omega
    have h1 : t ≠ 3 * n + 1 := by omega
    rw [hnone (by omega)]
    simp [WatcherFuture.worker?, h0, h1]
  · rw [hnone (by omega)]
    simp [WatcherFuture.worker?, h1, eq_comm]
  · rw [hnone (by omega)]
    simp [WatcherFuture.worker?, h0, eq_comm]
  · simp [h1, h0]

/-- A start adds a watcher to those that run. -/
theorem WatcherInv.start (h : WatcherInv s) : WatcherInv s.startReorgWatcher := by
  have hs := h.stop
  unfold WatcherState.startReorgWatcher
  generalize s.stopReorgWatcher = s₁ at hs ⊢
  have hfuture := future?_spawnWatcher s₁.runtime s₁.channels.length
  have hlength := length_spawnWatcher s₁.runtime s₁.channels.length
  rw [hs.tasks] at hfuture hlength
  refine ⟨?_, fun t x => ?_, fun t d i hf => ?_, fun handle heq => ?_⟩
  · simp [hlength]
    omega
  · rw [show Works _ t x ↔ _ from works_spawnWatcher hs.tasks t x, hs.works]
    simp only [List.length_append, List.length_singleton, Nat.lt_succ_iff_lt_or_eq, or_and_right,
      exists_or, exists_eq_left]
  · rw [show _ = _ from hfuture t] at hf
    simp only [List.length_append, List.length_singleton]
    split_ifs at hf with h2 h1 h0
    · obtain ⟨rfl, rfl⟩ := WatcherFuture.supervisor.inj (Option.some.inj hf)
      exact ⟨s₁.channels.length, by omega, h2, rfl, rfl⟩
    · cases hf
    · cases hf
    · obtain ⟨c, hc, hrest⟩ := hs.supervisors t d i hf
      exact ⟨c, by omega, hrest⟩
  · obtain rfl : 3 * s₁.channels.length + 2 = handle := by
      simpa [WatcherState.spawnWatcher, hs.tasks] using heq
    refine ⟨by simp; omega, 3 * s₁.channels.length + 1, 3 * s₁.channels.length, ?_⟩
    rw [show _ = _ from hfuture _, if_pos rfl]

theorem WatcherInv.invalidator (h : WatcherInv s) {c : Nat} (hc : c < s.channels.length) :
    Works s.runtime (3 * c) (.invalidator c) := (h.works _ _).mpr ⟨c, hc, Or.inl ⟨rfl, rfl⟩⟩

theorem WatcherInv.detector (h : WatcherInv s) {c : Nat} (hc : c < s.channels.length) :
    Works s.runtime (3 * c + 1) (.detector c) := (h.works _ _).mpr ⟨c, hc, Or.inr ⟨rfl, rfl⟩⟩

/-- The channel of a running worker exists. -/
theorem WatcherInv.channel_lt (h : WatcherInv s) {t c : Nat}
    (hx : Works s.runtime t (.invalidator c) ∨ Works s.runtime t (.detector c)) :
    c < s.channels.length := by
  rcases hx with hx | hx
  all_goals
    obtain ⟨c', hc', hof⟩ := (h.works t _).mp hx
    simp [WorkerOf] at hof
    omega

/-- A step keeps all workers. -/
theorem WatcherStep.inv (h : WatcherStep w s a out s') (hs : WatcherInv s) : WatcherInv s' := by
  cases h with
  | called c =>
    cases c with
    | start => exact hs.start
    | stop => exact hs.stop
    | drop => exact ⟨hs.stop.tasks, hs.stop.works, hs.stop.supervisors, hs.stop.handle⟩
  | unchanged t channel tip lastTip newTip hf => exact hs.put hf rfl rfl rfl
  | changed t channel tip newTip lastTip hf => exact hs.put hf rfl (by simp) rfl
  | flushed t channel rx rx' notice hf hrx hrecv =>
    exact ⟨by simpa using hs.tasks, by simpa using hs.works, by simpa using hs.supervisors,
      by simpa using hs.handle⟩
  | closed t channel hf hgone =>
    -- every channel still has its detector
    have hdet := hs.detector (hs.channel_lt (Or.inl (works_invalidator hf)))
    rw [runs_iff.mpr ⟨_, hdet⟩] at hgone
    cases hgone
  | supervised t d i hf hended =>
    obtain ⟨c, hc, -, rfl, rfl⟩ := hs.supervisors t d i hf
    have hdet := hs.detector hc
    have hinv := hs.invalidator hc
    rcases hended with hended | hended
    · simp [Works, hended] at hdet
    · simp [Works, hended] at hinv
  | declared r job => exact ⟨hs.tasks, hs.works, hs.supervisors, hs.handle⟩

/-- Every channel counts as a running pair. -/
theorem WatcherInv.pairs_eq (h : WatcherInv s) : s.pairs = List.range s.channels.length := by
  refine List.filter_eq_self.mpr fun c hc => ?_
  have hc : c < s.channels.length := List.mem_range.mp hc
  rw [runs_iff.mpr ⟨_, h.detector hc⟩, runs_iff.mpr ⟨_, h.invalidator hc⟩]
  rfl

/-! ## What a run counts -/

def WatcherAct.call? : WatcherAct → Option WatcherCall
  | .call c => some c
  | _ => none

/-- The calls of a run, in order. -/
def calls (log : List (WatcherAct × WatcherOut)) : List WatcherCall :=
  log.filterMap fun e => e.1.call?

/-- The tip changes the detectors broadcast. -/
def detected (log : List (WatcherAct × WatcherOut)) : List BlockHash :=
  log.filterMap fun e => match e.2 with
    | .changed tip => some tip
    | _ => none

/-- The flushes of the invalidators. -/
def notices (log : List (WatcherAct × WatcherOut)) : List (Except Nat BlockHash) :=
  log.filterMap fun e => match e.2 with
    | .flushed notice => some notice
    | _ => none

/-- The tip changes a flush stands for: its tip, or the ones missed. -/
def Covers (batch : List BlockHash) : Except Nat BlockHash → Prop
  | .ok tip => batch = [tip]
  | .error n => batch.length = n

/-- Every tip change detected is in exactly one flush or still to come, and
    every flush is counted once. -/
structure Counted (w : Wiring) (log : List (WatcherAct × WatcherOut)) (s : WatcherState) :
    Prop where
  notified : s.engine.counters .reorgNotifications = if w.metrics then (notices log).length else 0
  covered : ∃ batches missed, List.Forall₂ Covers batches (notices log) ∧
    missed.length = (s.channels.map BroadcastReceiver.missed).sum ∧
    batches.flatten ++ missed ++ s.channels.flatMap BroadcastReceiver.pending = detected log

variable {log : List (WatcherAct × WatcherOut)}

/-- A step that neither detects nor flushes. -/
theorem Counted.silent (h : Counted w log s) (hengine : s'.engine.counters = s.engine.counters)
    (hmissed : (s'.channels.map BroadcastReceiver.missed).sum =
      (s.channels.map BroadcastReceiver.missed).sum)
    (hpending : s'.channels.flatMap BroadcastReceiver.pending =
      s.channels.flatMap BroadcastReceiver.pending) :
    Counted w (log ++ [(a, .silent)]) s' := by
  have hnotices : notices (log ++ [(a, .silent)]) = notices log := by simp [notices]
  have hdetected : detected (log ++ [(a, .silent)]) = detected log := by simp [detected]
  obtain ⟨hnotified, batches, missed, hcovers, hcount, hall⟩ := h
  refine ⟨by rw [hengine, hnotices, hnotified], batches, missed, ?_, ?_, ?_⟩
  · rwa [hnotices]
  · rw [hcount, hmissed]
  · rw [hpending, hall, hdetected]

theorem flushed_counters (w : Wiring) (s : Engine) :
    (s.flushed w).counters .reorgNotifications =
      s.counters .reorgNotifications + if w.metrics then 1 else 0 := by
  unfold Engine.flushed Engine.bumped
  split_ifs <;> simp

theorem stopReorgWatcher_shared (s : WatcherState) :
    s.stopReorgWatcher.channels = s.channels ∧ s.stopReorgWatcher.engine = s.engine := by
  unfold WatcherState.stopReorgWatcher
  split <;> exact ⟨rfl, rfl⟩

/-- The only channel there is. -/
theorem WatcherInv.channels_eq (h : WatcherInv s) (hone : s.channels.length ≤ 1) {t c : Nat}
    (hx : Works s.runtime t (.invalidator c) ∨ Works s.runtime t (.detector c)) :
    c = 0 ∧ ∃ rx, s.channels = [rx] := by
  have hlt := h.channel_lt hx
  exact ⟨by omega, List.length_eq_one_iff.mp (by omega)⟩

/-- A tip change is one more to be counted. -/
theorem Counted.changed {rx : BroadcastReceiver BlockHash} {tip : BlockHash}
    (h : Counted w log s) (hrx : s.channels = [rx]) (hengine : s'.engine = s.engine)
    (hchannels : s'.channels = [rx.push broadcastCapacity tip]) :
    Counted w (log ++ [(a, .changed tip)]) s' := by
  have hnotices : notices (log ++ [(a, .changed tip)]) = notices log := by simp [notices]
  have hdetected : detected (log ++ [(a, .changed tip)]) = detected log ++ [tip] := by
    simp [detected]
  obtain ⟨hnotified, batches, missed, hcovers, hcount, hall⟩ := h
  obtain ⟨overwritten, hmissed, hpending⟩ :=
    rx.push_eq (show 0 < broadcastCapacity by decide) tip
  refine ⟨by rw [hengine, hnotices, hnotified], batches, missed ++ overwritten, ?_, ?_, ?_⟩
  · rwa [hnotices]
  · rw [hrx] at hcount
    simp [hchannels, hmissed, hcount]
  · rw [hrx] at hall
    rw [hdetected, ← hall]
    simp [hchannels, ← hpending]

/-- A flush counts the tip it received, or all the tips missed. -/
theorem Counted.flushed {rx rx' : BroadcastReceiver BlockHash} {notice : Except Nat BlockHash}
    (h : Counted w log s) (hrx : s.channels = [rx]) (hrecv : rx.recv = some (notice, rx'))
    (hengine : s'.engine = s.engine.flushed w) (hchannels : s'.channels = [rx']) :
    Counted w (log ++ [(a, .flushed notice)]) s' := by
  have hnotices : notices (log ++ [(a, .flushed notice)]) = notices log ++ [notice] := by
    simp [notices]
  have hdetected : detected (log ++ [(a, .flushed notice)]) = detected log := by simp [detected]
  obtain ⟨hnotified, batches, missed, hcovers, hcount, hall⟩ := h
  simp only [hrx, List.map_cons, List.map_nil, List.sum_cons, List.sum_nil, Nat.add_zero,
    List.flatMap_cons, List.flatMap_nil, List.append_nil] at hcount hall
  refine ⟨?_, ?_⟩
  · rw [hengine, flushed_counters, hnotified, hnotices]
    split_ifs <;> simp
  · rw [hnotices, hdetected, ← hall]
    rcases BroadcastReceiver.recv_cases hrecv with hok | hlag
    · obtain ⟨tip, rfl, hmissed, hmissed', hpending⟩ := hok
      obtain rfl : missed = [] := List.eq_nil_of_length_eq_zero (hcount.trans hmissed)
      refine ⟨batches ++ [[tip]], [], List.rel_append hcovers (by simp [Covers]), ?_, ?_⟩
      · simp [hchannels, hmissed']
      · simp [hchannels, hpending]
    · obtain ⟨rfl, hmissed', hpending⟩ := hlag
      refine ⟨batches ++ [missed], [], List.rel_append hcovers (by simp [Covers, hcount]), ?_, ?_⟩
      · simp [hchannels, hmissed']
      · simp [hchannels, hpending]

theorem WatcherStep.counted (h : WatcherStep w s a out s') (hs : WatcherInv s)
    (hone : s.channels.length ≤ 1) (hc : Counted w log s) : Counted w (log ++ [(a, out)]) s' := by
  cases h with
  | called c =>
    obtain ⟨hchannels, hengine⟩ := stopReorgWatcher_shared s
    have hcounters : (s.call c).engine.counters = s.engine.counters := by
      cases c <;> exact congrArg Engine.counters hengine
    -- a new receiver has nothing pending
    cases c with
    | start =>
      apply hc.silent hcounters
      · simp [WatcherState.call, WatcherState.startReorgWatcher, hchannels, BroadcastReceiver.fresh]
      · simp [WatcherState.call, WatcherState.startReorgWatcher, hchannels, BroadcastReceiver.fresh]
    | stop =>
      apply hc.silent hcounters
      · simp [WatcherState.call, hchannels]
      · simp [WatcherState.call, hchannels]
    | drop =>
      apply hc.silent hcounters
      · simp [WatcherState.call, hchannels]
      · simp [WatcherState.call, hchannels]
  | unchanged t channel tip lastTip newTip hf => exact hc.silent rfl rfl rfl
  | changed t channel tip newTip lastTip hf =>
    obtain ⟨rfl, rx, hrx⟩ := hs.channels_eq hone (Or.inr (works_detector hf))
    exact hc.changed hrx rfl (by simp [hrx])
  | flushed t channel rx rx' notice hf hrx hrecv =>
    obtain ⟨rfl, rx₀, hrx₀⟩ := hs.channels_eq hone (Or.inl (works_invalidator hf))
    obtain rfl : rx₀ = rx := by simpa [hrx₀] using hrx
    exact hc.flushed hrx₀ hrecv rfl (by simp [hrx₀])
  | closed t channel hf hgone => exact hc.silent rfl rfl rfl
  | supervised t d i hf hended => exact hc.silent rfl rfl rfl
  | declared r job => exact hc.silent rfl rfl rfl

/-! ## Stop means stop -/

/-- What the watcher promises: at most one pair of workers runs, none after
    `stop_reorg_watcher` or a drop; every worker that runs, and so every flush,
    is of the current watcher; and every tip change is counted once. -/
structure StopMeansStop (w : Wiring) (log : List (WatcherAct × WatcherOut)) (s : WatcherState) :
    Prop where
  one : s.pairs.length ≤ 1
  stopped : (calls log).getLast? = some .stop ∨ (calls log).getLast? = some .drop → s.pairs = []
  current : ∀ t x, Works s.runtime t x → ∃ h d i, s.reorgWatcher = some h ∧
    s.runtime.future? h = some (.supervisor d i) ∧ (t = d ∨ t = i)
  counted : Counted w log s

/-- What every run keeps. -/
structure Watched (w : Wiring) (log : List (WatcherAct × WatcherOut)) (s : WatcherState) :
    Prop where
  inv : WatcherInv s
  starts : s.channels.length = (calls log).count .start
  held : (calls log).getLast? = some .start → s.reorgWatcher.isSome = true
  counted : .start ∉ (calls log).dropLast → Counted w log s

theorem count_start_le {l : List WatcherCall} (h : .start ∉ l.dropLast) : l.count .start ≤ 1 := by
  rcases List.eq_nil_or_concat l with rfl | ⟨init, c, rfl⟩
  · simp
  · have hinit : init.count .start = 0 := List.count_eq_zero.mpr (by simpa using h)
    have hlast : [c].count .start ≤ 1 := List.count_le_length
    rw [List.concat_eq_append, List.count_append]
    omega

/-- A step that is no call keeps the channels and the engine's handle. -/
theorem WatcherStep.work (h : WatcherStep w s a out s') (ha : a.call? = none) :
    s'.channels.length = s.channels.length ∧ s'.reorgWatcher = s.reorgWatcher := by
  cases h with
  | called c => cases ha
  | changed t channel tip newTip lastTip hf => exact ⟨by simp, rfl⟩
  | flushed t channel rx rx' notice hf hrx hrecv => exact ⟨by simp, rfl⟩
  | _ => exact ⟨rfl, rfl⟩

theorem Watched.work (h : Watched w log s) (hstep : WatcherStep w s a out s')
    (ha : a.call? = none) : Watched w (log ++ [(a, out)]) s' := by
  obtain ⟨hchannels, hhandle⟩ := hstep.work ha
  have hcalls : calls (log ++ [(a, out)]) = calls log := by simp [calls, ha]
  refine ⟨hstep.inv h.inv, ?_, fun hlast => ?_, fun hcond => ?_⟩
  · rw [hcalls, hchannels, h.starts]
  · rw [hhandle]
    exact h.held (hcalls ▸ hlast)
  · rw [hcalls] at hcond
    have hone := count_start_le hcond
    exact hstep.counted h.inv (h.starts ▸ hone) (h.counted hcond)

theorem Watched.call (h : Watched w log s) {c : WatcherCall}
    (hstep : WatcherStep w s (.call c) out s') : Watched w (log ++ [(.call c, out)]) s' := by
  have hcalls : calls (log ++ [(.call c, out)]) = calls log ++ [c] := by
    simp [calls, WatcherAct.call?]
  refine ⟨hstep.inv h.inv, ?_, fun hlast => ?_, fun hcond => ?_⟩
  · rw [hcalls, List.count_append, ← h.starts]
    cases hstep with
    | called =>
      obtain ⟨hchannels, -⟩ := stopReorgWatcher_shared s
      cases c with
      | start => simp [WatcherState.call, WatcherState.startReorgWatcher, hchannels]
      | stop => simp [WatcherState.call, hchannels]
      | drop => simp [WatcherState.call, hchannels]
  · obtain rfl : c = .start := by simpa [hcalls] using hlast
    cases hstep with
    | called => rfl
  · rw [hcalls, List.dropLast_concat] at hcond
    have hnone : s.channels.length = 0 := h.starts.trans (List.count_eq_zero.mpr hcond)
    exact hstep.counted h.inv (by omega)
      (h.counted fun hmem => hcond (List.dropLast_subset _ hmem))

theorem watched (h : WatcherRun w .new log s) : Watched w log s := by
  refine Trace.history (P := Watched w) ⟨⟨rfl, ?_, ?_, ?_⟩, rfl, ?_, ?_⟩ ?_ log h
  · intro t x
    simp [Works, WatcherState.new, Runtime.future?, Runtime.empty]
  · intro t d i hf
    simp [WatcherState.new, Runtime.future?, Runtime.empty] at hf
  · intro handle heq
    cases heq
  · intro hlast
    cases hlast
  · intro _
    refine ⟨?_, [], [], List.Forall₂.nil, rfl, rfl⟩
    simp [WatcherState.new, Engine.new, notices]
  · intro log s e s' hs hstep
    obtain ⟨a, out⟩ := e
    have hstep := watcherStep_cases hstep
    cases a with
    | call c => exact hs.call hstep
    | _ => exact hs.work hstep rfl

theorem Watched.stopMeansStop (h : Watched w log s) (hcond : .start ∉ (calls log).dropLast) :
    StopMeansStop w log s := by
  have hone : s.channels.length ≤ 1 := h.starts ▸ count_start_le hcond
  have hsplit : ∀ {c}, (calls log).getLast? = some c → calls log = (calls log).dropLast ++ [c] := by
    intro c hlast
    exact (List.dropLast_append_getLast? c hlast).symm
  refine ⟨?_, fun hstop => ?_, fun t x hx => ?_, h.counted hcond⟩
  · rw [h.inv.pairs_eq, List.length_range]
    exact hone
  · have hnone : (calls log).count .start = 0 := by
      rcases hstop with hlast | hlast
      all_goals
        rw [hsplit hlast, List.count_append, List.count_eq_zero.mpr hcond]
        rfl
    rw [h.inv.pairs_eq, h.starts, hnone]
    rfl
  · obtain ⟨c, hc, hof⟩ := (h.inv.works t x).mp hx
    -- a worker runs, so `start` is the last call
    have hlast : (calls log).getLast? = some .start := by
      have hmem : WatcherCall.start ∈ calls log := List.count_pos_iff.mp (h.starts ▸ by omega)
      cases hget : (calls log).getLast? with
      | none => simp [List.getLast?_eq_none_iff.mp hget] at hmem
      | some c =>
        rw [hsplit hget, List.mem_append] at hmem
        rcases hmem with hmem | hmem
        · exact absurd hmem hcond
        · rw [List.mem_singleton.mp hmem]
    obtain ⟨handle, hhandle⟩ := Option.isSome_iff_exists.mp (h.held hlast)
    obtain ⟨hid, d, i, hsup⟩ := h.inv.handle handle hhandle
    obtain ⟨c', hc', -, hd, hi⟩ := h.inv.supervisors handle d i hsup
    refine ⟨handle, d, i, hhandle, hsup, ?_⟩
    rcases hof with hof | hof <;> omega

/-- The watcher keeps its promise in every state of a run exactly when
    `start_reorg_watcher` is at most the last of the calls. -/
theorem stop_means_stop_iff (h : WatcherRun w .new log s) :
    (∀ log₁ log₂ s₁, log = log₁ ++ log₂ → WatcherRun w .new log₁ s₁ → WatcherRun w s₁ log₂ s →
      StopMeansStop w log₁ s₁) ↔ .start ∉ (calls log).dropLast := by
  constructor
  · intro hall hmem
    -- look at the state right after the last call
    obtain ⟨c, hlast⟩ : ∃ c, (calls log).getLast? = some c := by
      cases hget : (calls log).getLast? with
      | none => simp [List.getLast?_eq_none_iff.mp hget] at hmem
      | some c => exact ⟨c, rfl⟩
    obtain ⟨before, e, after, rfl, he, hafter⟩ := split_at_last hlast
    obtain ⟨s₁, h₁, h₂⟩ := (Trace.append_iff (before ++ [e]) after _ _).mp (by simpa using h)
    have hs₁ := hall (before ++ [e]) after s₁ (by simp) h₁ h₂
    have hcalls : calls (before ++ [e]) = calls before ++ [c] := by simp [calls, he]
    have hbefore : WatcherCall.start ∈ calls before := by
      have hfull : calls (before ++ e :: after) = calls before ++ [c] := by
        simpa [calls, he] using hafter
      simpa [hfull] using hmem
    have hpos : 0 < (calls before).count .start := List.count_pos_iff.mpr hbefore
    have hlength := (watched h₁).starts
    rw [hcalls, List.count_append] at hlength
    have hpairs : s₁.pairs.length = s₁.channels.length := by
      rw [(watched h₁).inv.pairs_eq, List.length_range]
    cases c with
    | start =>
      have hone := hs₁.one
      simp at hlength
      omega
    | stop =>
      have hnone := hs₁.stopped (Or.inl (by simp [hcalls]))
      simp [hnone] at hpairs
      omega
    | drop =>
      have hnone := hs₁.stopped (Or.inr (by simp [hcalls]))
      simp [hnone] at hpairs
      omega
  · intro hcond log₁ log₂ s₁ hlog h₁ _
    refine (watched h₁).stopMeansStop fun hmem => hcond ?_
    have hcalls : calls log = calls log₁ ++ calls log₂ := by rw [hlog]; exact List.filterMap_append
    rw [hcalls]
    cases hrest : calls log₂ with
    | nil => simpa using hmem
    | cons c rest =>
      rw [List.dropLast_append_cons]
      exact List.mem_append_left _ (List.dropLast_subset _ hmem)

end

/-- The detector of the only start sees two tips, and its invalidator flushes
    the cache. -/
def Sample.watch (before between : List WatcherAct) : List (WatcherAct × WatcherOut) :=
  before.map (fun a => (a, .silent)) ++
    [(.call .start, .silent), (.poll 1 (some (U256.fill 1)), .silent)] ++
    between.map (fun a => (a, .silent)) ++
    [(.poll 1 (some (U256.fill 2)), .changed (U256.fill 2)),
     (.recv 0, .flushed (.ok (U256.fill 2)))]

/-- A watcher that is not stopped after its start. -/
theorem stop_means_stop_once_started :
    let log := Sample.watch [.call .stop] []
    ∃ s, s.engine.counters .reorgNotifications = 1 ∧ StopMeansStop Sample.wiring log s := by
  intro log
  have hrun : ∃ s, WatcherRun Sample.wiring .new log s ∧
      s.engine.counters .reorgNotifications = 1 :=
    ⟨_, ⟨_, rfl, _, rfl, _, rfl, _, rfl, _, rfl, rfl⟩, by decide +kernel⟩
  obtain ⟨s, hrun, hcount⟩ := hrun
  have hall := (stop_means_stop_iff hrun).mpr (by decide +kernel)
  exact ⟨s, hcount, hall log [] s (by simp) hrun rfl⟩

/-- A watcher is stopped, then a job is cached and the tip changes: the
    stopped watcher flushes the job and counts the change. -/
theorem stopped_watcher_flushes :
    let log := Sample.watch [] [.call .stop, .declared 7 (Sample.job (U256.fill 1) 3 [9])]
    ∃ s, WatcherRun Sample.wiring .new log s ∧ (calls log).getLast? = some .stop ∧
      s.pairs.length = 1 ∧ s.engine.declaredJobs.lookup 7 = none ∧
      s.engine.counters .reorgNotifications = 1 ∧ ¬ StopMeansStop Sample.wiring log s := by
  intro log
  refine ⟨_, ⟨_, rfl, _, rfl, _, rfl, _, rfl, _, rfl, _, rfl, rfl⟩, by decide +kernel,
    by decide +kernel, rfl, by decide +kernel, fun hstop => ?_⟩
  have hnone := congrArg List.length (hstop.stopped (Or.inl (by decide +kernel)))
  revert hnone
  decide +kernel

end Sv2P2pool
