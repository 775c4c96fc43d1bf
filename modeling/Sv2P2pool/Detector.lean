import Sv2P2pool.Watcher
import Mathlib.Data.List.Destutter
import Mathlib.Data.List.ReduceOption

/-! # The Tip Changes of a Detector (`reorg_detector.rs`)

    The detector polls a tip that may be missing, keeps the last tip it read
    and broadcasts what differs from it. Over a whole sequence of polls this
    is a function of lists: the tips that were read, with runs of one tip
    collapsed, less the first one.
-/

namespace Sv2P2pool

open Bitcoin

/-! ## Polling a sequence of tips -/

/-- `poll_once` on every tip of a sequence: the final `last_tip` and the tips
    broadcast. -/
def pollAll (lastTip : Option BlockHash) :
    List (Option BlockHash) → Option BlockHash × List BlockHash
  | [] => (lastTip, [])
  | tip :: tips =>
    ((pollAll (pollOnce tip lastTip).1 tips).1,
      (pollOnce tip lastTip).2.toList ++ (pollAll (pollOnce tip lastTip).1 tips).2)

theorem pollAll_append (tips tips' : List (Option BlockHash)) : ∀ lastTip,
    pollAll lastTip (tips ++ tips') = ((pollAll (pollAll lastTip tips).1 tips').1,
      (pollAll lastTip tips).2 ++ (pollAll (pollAll lastTip tips).1 tips').2) := by
  induction tips with
  | nil => exact fun _ => rfl
  | cons tip tips ih =>
    intro lastTip
    simp only [List.cons_append, pollAll, ih, List.append_assoc]

/-! ## As a function of lists -/

/-- Collapsing the runs of a list that starts with `a` leaves `a` in front. -/
theorem destutter'_eq_cons_tail (a : BlockHash) (l : List BlockHash) :
    l.destutter' (· ≠ ·) a = a :: (l.destutter' (· ≠ ·) a).tail := by
  induction l with
  | nil => rfl
  | cons b l ih =>
    by_cases h : a ≠ b
    · rw [List.destutter'_cons_pos _ h]
      rfl
    · rw [List.destutter'_cons_neg _ h]
      exact ih

/-- A new last element is kept unless it was the last one already. -/
theorem destutter'_snoc (l : List BlockHash) (a : BlockHash) : ∀ b : BlockHash,
    (l ++ [a]).destutter' (· ≠ ·) b =
      if l.getLastD b = a then l.destutter' (· ≠ ·) b else l.destutter' (· ≠ ·) b ++ [a] := by
  induction l with
  | nil =>
    intro b
    by_cases h : b = a <;> simp [h]
  | cons c l ih =>
    intro b
    rw [List.cons_append, List.getLastD_cons]
    by_cases h : b = c
    · subst h
      rw [List.destutter'_cons_neg _ (by simp), List.destutter'_cons_neg _ (by simp), ih]
    · rw [List.destutter'_cons_pos _ h, List.destutter'_cons_pos _ h, ih]
      split_ifs <;> rfl

theorem destutter_snoc (l : List BlockHash) (a : BlockHash) :
    (l ++ [a]).destutter (· ≠ ·) =
      if l.getLast? = some a then l.destutter (· ≠ ·) else l.destutter (· ≠ ·) ++ [a] := by
  cases l with
  | nil => rfl
  | cons b l =>
    rw [List.cons_append, List.destutter_cons', List.destutter_cons', destutter'_snoc,
      List.getLast?_cons, List.getLastD_eq_getLast?]
    simp only [Option.some.injEq]

theorem getLast?_destutter (l : List BlockHash) :
    (l.destutter (· ≠ ·)).getLast? = l.getLast? := by
  induction l using List.reverseRecOn with
  | nil => rfl
  | append_singleton l a ih =>
    rw [destutter_snoc, List.getLast?_concat]
    split_ifs with h
    · rw [ih, h]
    · rw [List.getLast?_concat]

/-- Once a tip was read, the broadcasts are the collapsed tips behind it. -/
theorem pollAll_some (tips : List (Option BlockHash)) : ∀ prev : BlockHash,
    pollAll (some prev) tips = (some (tips.reduceOption.getLastD prev),
      (tips.reduceOption.destutter' (· ≠ ·) prev).tail) := by
  induction tips with
  | nil => exact fun _ => rfl
  | cons tip tips ih =>
    intro prev
    cases tip with
    -- a missing tip keeps the last one and broadcasts nothing
    | none => exact ih prev
    | some tip =>
      by_cases heq : tip = prev
      · subst heq
        have hpoll : pollOnce (some tip) (some tip) = (some tip, none) := if_pos rfl
        rw [pollAll, hpoll, List.reduceOption_cons_of_some, List.getLastD_cons,
          List.destutter'_cons_neg _ (by simp), ih]
        rfl
      · have hpoll : pollOnce (some tip) (some prev) = (some tip, some tip) := if_neg heq
        rw [pollAll, hpoll, List.reduceOption_cons_of_some, List.getLastD_cons,
          List.destutter'_cons_pos _ (Ne.symm heq), List.tail_cons, destutter'_eq_cons_tail, ih]
        rfl

/-- The broadcasts of a detector, over any sequence of polls: the tips that
    were read, one for each run, less the first; the last tip is the last one
    read. -/
theorem pollAll_eq (tips : List (Option BlockHash)) :
    pollAll none tips = (tips.reduceOption.getLast?,
      (tips.reduceOption.destutter (· ≠ ·)).tail) := by
  induction tips with
  | nil => rfl
  | cons tip tips ih =>
    cases tip with
    | none => exact ih
    | some tip =>
      -- the first tip is recorded and not broadcast
      have hpoll : pollOnce (some tip) none = (some tip, none) := rfl
      rw [pollAll, hpoll, pollAll_some, List.reduceOption_cons_of_some, List.destutter_cons',
        List.getLast?_cons, List.getLastD_eq_getLast?]
      rfl

/-- The detector fires exactly on transitions: its broadcasts are the tips
    that were read, one for each run, less the first. A missing tip changes
    nothing anywhere, and a tip that goes and comes back is two events. -/
theorem detector_fires_on_transitions :
    (∀ tips, pollAll none tips = (tips.reduceOption.getLast?,
      (tips.reduceOption.destutter (· ≠ ·)).tail)) ∧
    (∀ before after, pollAll none (before ++ none :: after) = pollAll none (before ++ after)) ∧
    ∀ tips a b m n, a ≠ b →
      (pollAll none (tips ++ [some a] ++ (List.replicate m none ++ [some b] ++
        List.replicate n none ++ [some a]))).2 =
        (pollAll none (tips ++ [some a])).2 ++ [b, a] := by
  refine ⟨pollAll_eq, fun before after => ?_, fun tips a b m n hne => ?_⟩
  · rw [pollAll_eq, pollAll_eq, List.reduceOption_append, List.reduceOption_append,
      List.reduceOption_cons_of_none]
  · have hlast : (pollAll none (tips ++ [some a])).1 = some a := by
      simp [pollAll_eq, List.reduceOption_append]
    have hread : (List.replicate m none ++ [some b] ++ List.replicate n none ++
        [some a]).reduceOption = [b, a] := by
      simp [List.reduceOption_append]
    rw [pollAll_append, hlast, pollAll_some, hread]
    simp [hne, hne.symm]

/-- The tip goes from 1 to 2 and back, with missing reads in between. -/
theorem detector_fires_there_and_back :
    (pollAll none [none, some (U256.fill 1), none, some (U256.fill 1), some (U256.fill 2), none,
      some (U256.fill 1)]).2 = [U256.fill 2, U256.fill 1] := by
  have hback := detector_fires_on_transitions.2.2 [none, some (U256.fill 1), none] (U256.fill 1)
    (U256.fill 2) 0 1 (by decide)
  exact hback

/-! ## The detector of a watcher -/

/-- The tip a step of the watcher polls on a task. -/
def polledBy (t : Nat) : WatcherAct × WatcherOut → Option (Option BlockHash)
  | (.poll task tip, _) => if task = t then some tip else none
  | _ => none

/-- The tip a step of the watcher broadcasts from a task. -/
def changedBy (t : Nat) : WatcherAct × WatcherOut → Option BlockHash
  | (.poll task _, .changed tip) => if task = t then some tip else none
  | _ => none

section

variable {w : Wiring} {s s' : WatcherState} {a : WatcherAct} {out : WatcherOut} {t c : Nat}
  {lastTip : Option BlockHash}

theorem filterMap_singleton_toList {α β : Type} (f : α → Option β) (x : α) :
    [x].filterMap f = (f x).toList := by
  cases h : f x <;> simp [h]

/-- Ending another task leaves the detector as it is. -/
theorem future?_finish_of_ne {t' : Nat} {f : WatcherFuture} (hf' : s.runtime.future? t' = some f)
    (hne : f.worker? ≠ some (.detector c)) (hf : s.runtime.future? t = some (.detector c lastTip)) :
    (s.runtime.finish t').future? t = some (.detector c lastTip) := by
  rw [Runtime.future?_finish, if_neg, hf]
  intro heq
  rw [heq, hf'] at hf
  obtain rfl := Option.some.inj hf
  exact hne rfl

theorem future?_stop (hs : WatcherInv s) (hf : s.runtime.future? t = some (.detector c lastTip)) :
    s.stopReorgWatcher.runtime.future? t = some (.detector c lastTip) := by
  unfold WatcherState.stopReorgWatcher
  cases hhandle : s.reorgWatcher with
  | none => exact hf
  | some handle =>
    -- the handle is a supervisor's
    obtain ⟨-, d, i, hsup⟩ := hs.handle handle hhandle
    simp only [Runtime.future?_abort]
    rw [if_neg, hf]
    intro heq
    rw [heq, hsup] at hf
    cases hf

theorem future?_call (hs : WatcherInv s) (hf : s.runtime.future? t = some (.detector c lastTip))
    (call : WatcherCall) : (s.call call).runtime.future? t = some (.detector c lastTip) := by
  have hstop := future?_stop hs hf
  cases call with
  | stop => exact hstop
  | drop => exact hstop
  | start =>
    have hlt := Runtime.lt_of_future? hstop
    have hspawned := future?_spawnWatcher s.stopReorgWatcher.runtime
      s.stopReorgWatcher.channels.length t
    rw [if_neg (by omega), if_neg (by omega), if_neg (by omega), hstop] at hspawned
    exact hspawned

/-- One iteration of the loop is one `poll_once`; no other step touches the
    detector's `last_tip`. -/
theorem detector_step (hs : WatcherInv s)
    (hf : s.runtime.future? t = some (.detector c lastTip)) (h : s.step w a = some (out, s')) :
    s'.runtime.future? t =
        some (.detector c (pollAll lastTip (polledBy t (a, out)).toList).1) ∧
      (changedBy t (a, out)).toList = (pollAll lastTip (polledBy t (a, out)).toList).2 := by
  by_cases hpoll : ∃ tip, a = .poll t tip
  · obtain ⟨tip, rfl⟩ := hpoll
    have h : s.poll t tip = some (out, s') := h
    unfold WatcherState.poll at h
    simp only [hf] at h
    cases hchange : (pollOnce tip lastTip).2 with
    | none =>
      simp only [hchange, Option.some.injEq, Prod.mk.injEq] at h
      obtain ⟨rfl, rfl⟩ := h
      simp [polledBy, changedBy, pollAll, hchange, Runtime.future?_put hf]
    | some newTip =>
      simp only [hchange, Option.some.injEq, Prod.mk.injEq] at h
      obtain ⟨rfl, rfl⟩ := h
      simp [polledBy, changedBy, pollAll, hchange, Runtime.future?_put hf]
  · have hquiet : polledBy t (a, out) = none ∧ changedBy t (a, out) = none := by
      cases a with
      | poll task tip =>
        have hne : task ≠ t := fun heq => hpoll ⟨tip, by rw [heq]⟩
        cases out <;> simp [polledBy, changedBy, hne]
      | _ => exact ⟨rfl, rfl⟩
    rw [hquiet.1, hquiet.2]
    refine ⟨?_, rfl⟩
    show s'.runtime.future? t = some (.detector c lastTip)
    cases watcherStep_cases h with
    | called call => exact future?_call hs hf call
    | unchanged task channel tip lastTip' newTip hf' =>
      have hne : t ≠ task := fun heq => hpoll ⟨tip, by rw [heq]⟩
      rw [Runtime.future?_put hf', if_neg hne, hf]
    | changed task channel tip newTip lastTip' hf' =>
      have hne : t ≠ task := fun heq => hpoll ⟨tip, by rw [heq]⟩
      rw [Runtime.future?_put hf', if_neg hne, hf]
    | flushed => exact hf
    | closed task channel hf' hgone =>
      exact future?_finish_of_ne hf' (by simp [WatcherFuture.worker?]) hf
    | supervised task d i hf' hended =>
      exact future?_finish_of_ne hf' (by simp [WatcherFuture.worker?]) hf
    | declared => exact hf

/-- Over any run of the watcher, a detector that starts without a tip
    broadcasts the tips it polled, one for each run, less the first. -/
theorem detector_run {log : List (WatcherAct × WatcherOut)} (hs : WatcherInv s)
    (hf : s.runtime.future? t = some (.detector c none)) (h : WatcherRun w s log s') :
    s'.runtime.future? t =
        some (.detector c (log.filterMap (polledBy t)).reduceOption.getLast?) ∧
      log.filterMap (changedBy t) =
        ((log.filterMap (polledBy t)).reduceOption.destutter (· ≠ ·)).tail := by
  have hrun : WatcherInv s' ∧
      s'.runtime.future? t = some (.detector c (pollAll none (log.filterMap (polledBy t))).1) ∧
      log.filterMap (changedBy t) = (pollAll none (log.filterMap (polledBy t))).2 := by
    refine Trace.history (P := fun log s => WatcherInv s ∧
      s.runtime.future? t = some (.detector c (pollAll none (log.filterMap (polledBy t))).1) ∧
      log.filterMap (changedBy t) = (pollAll none (log.filterMap (polledBy t))).2)
      ⟨hs, hf, rfl⟩ ?_ log h
    intro log s e s' hinv hstep
    obtain ⟨hs, hf, hchanges⟩ := hinv
    obtain ⟨hf', hchange⟩ := detector_step hs hf hstep
    refine ⟨(watcherStep_cases hstep).inv hs, ?_, ?_⟩
    · rw [hf', List.filterMap_append, pollAll_append, filterMap_singleton_toList]
    · rw [List.filterMap_append, List.filterMap_append, pollAll_append, hchanges,
        filterMap_singleton_toList, filterMap_singleton_toList, hchange]
  rw [pollAll_eq] at hrun
  exact hrun.2

end

end Sv2P2pool
