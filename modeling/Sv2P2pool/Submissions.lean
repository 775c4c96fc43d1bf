import Sv2P2pool.Accounting
import Sv2P2pool.CacheRaces
import Sv2P2pool.JobLedger
import Sv2P2pool.Framework.Tasks

/-! # The Fate of a Solution

    A solution is dropped for a reason, or its block is handed to a spawned
    task, which asks bitcoind to take it and counts the blocks that it did
    not take. The task outlives the call that spawned it.
-/

namespace Sv2P2pool

open ByteCodec Bitcoin Interleave

/-! ## The spawned tasks -/

/-- The future that `handle_push_solution` spawns for a block. -/
inductive SubmitTask where
  /-- Before its call of `submit_block`. -/
  | spawned (block : Block)
  /-- bitcoind has been asked. -/
  | asked (block : Block)

def SubmitTask.waiting? : SubmitTask → Option Block
  | .spawned block => some block
  | .asked _ => none

def SubmitTask.asked? : SubmitTask → Option Block
  | .spawned _ => none
  | .asked block => some block

/-- The answer of `submit_block`; an RPC error is only logged. -/
abbrev SubmitReply := Except Unit String

/-- bitcoind took the block: it answered the JSON `null`. -/
def SubmitReply.accepted : SubmitReply → Bool
  | .ok reply => reply == "null"
  | .error _ => false

/-- The engine's calls and the tasks they have spawned. -/
structure Submitting (ι : Type) where
  calls : Config engineSig Engine JobAnswer ι
  tasks : Runtime SubmitTask
  /-- `blocks_submit_failed`, which only the tasks count. -/
  blocksSubmitFailed : Nat

inductive SubmitLabel (ι : Type) where
  | call (l : Label engineSig ι TemplateDistribution)
  | ask (task : Nat) (block : Block)
  | reply (task : Nat) (block : Block) (reply : SubmitReply)

/-- The block handed over in an event. -/
def handedBy : Event engineSig → Option Block
  | ⟨.spawnSubmitBlock block, _⟩ => some block
  | _ => none

/-- The blocks handed over in a log, in order. -/
def handed (log : List (Event engineSig)) : List Block := log.filterMap handedBy

/-- Start a task for each block. -/
def spawnAll (tasks : Runtime SubmitTask) (blocks : List Block) : Runtime SubmitTask :=
  blocks.foldl (fun tasks block => (tasks.spawn (.spawned block)).2) tasks

section

variable {ι : Type} [DecidableEq ι]

inductive SubmitStep (w : Wiring) (s : Submitting ι) : SubmitLabel ι → Submitting ι → Prop where
  | call (l : Label engineSig ι TemplateDistribution)
      (calls : Config engineSig Engine JobAnswer ι) (hstep : JobStep s.calls l calls) :
      SubmitStep w s (.call l)
        { s with calls := calls, tasks := spawnAll s.tasks (handed (eventsOf [l])) }
  | ask (task : Nat) (block : Block) (hf : s.tasks.future? task = some (.spawned block)) :
      SubmitStep w s (.ask task block) { s with tasks := s.tasks.put task (.asked block) }
  | reply (task : Nat) (block : Block) (reply : SubmitReply)
      (hf : s.tasks.future? task = some (.asked block)) :
      SubmitStep w s (.reply task block reply)
        { s with
          tasks := s.tasks.finish task
          blocksSubmitFailed := s.blocksSubmitFailed +
            if w.metrics = true ∧ reply.accepted = false then 1 else 0 }

end

/-- The engine's part of a run. -/
def callsOf {ι : Type} (log : List (SubmitLabel ι)) :
    List (Label engineSig ι TemplateDistribution) :=
  log.filterMap fun
    | .call l => some l
    | _ => none

/-- The blocks that bitcoind was asked to take, in order. -/
def asksOf {ι : Type} (log : List (SubmitLabel ι)) : List Block :=
  log.filterMap fun
    | .ask _ block => some block
    | _ => none

/-- bitcoind's answers, in order. -/
def repliesOf {ι : Type} (log : List (SubmitLabel ι)) : List (Block × SubmitReply) :=
  log.filterMap fun
    | .reply _ block reply => some (block, reply)
    | _ => none

/-! ## The tasks of a run -/

section tasks

variable {ι : Type} [DecidableEq ι] {w : Wiring} {log : List (SubmitLabel ι)}
  {s s' : Submitting ι}

@[simp] theorem handed_append (log log' : List (Event engineSig)) :
    handed (log ++ log') = handed log ++ handed log' := List.filterMap_append

omit [DecidableEq ι] in
theorem eventsOf_append {E : Type} (labels labels' : List (Label engineSig ι E)) :
    eventsOf (labels ++ labels') = eventsOf labels ++ eventsOf labels' := List.filterMap_append

/-- New tasks wait. -/
theorem collect_spawnAll (tasks : Runtime SubmitTask) (blocks : List Block) :
    (spawnAll tasks blocks).collect SubmitTask.waiting? =
        tasks.collect SubmitTask.waiting? ++ blocks ∧
      (spawnAll tasks blocks).collect SubmitTask.asked? = tasks.collect SubmitTask.asked? := by
  induction blocks generalizing tasks with
  | nil => simp [spawnAll]
  | cons block blocks ih =>
    obtain ⟨hwaiting, hasked⟩ := ih (tasks.spawn (.spawned block)).2
    rw [Runtime.collect_spawn] at hwaiting hasked
    constructor
    · show (spawnAll (tasks.spawn (.spawned block)).2 blocks).collect _ = _
      rw [hwaiting]
      simp [SubmitTask.waiting?]
    · show (spawnAll (tasks.spawn (.spawned block)).2 blocks).collect _ = _
      rw [hasked]
      simp [SubmitTask.asked?]

/-- What every run keeps: a block that was handed over waits or was asked of
    bitcoind, once; one that was asked is unanswered or was answered, once; and
    `blocks_submit_failed` counts the answers that were no acceptance. -/
structure SubmitLedger (w : Wiring) (before : Nat) (log : List (SubmitLabel ι)) (s : Submitting ι) :
    Prop where
  handed : (s.tasks.collect SubmitTask.waiting? ++ asksOf log).Perm
    (handed (eventsOf (callsOf log)))
  asked : (s.tasks.collect SubmitTask.asked? ++ (repliesOf log).map Prod.fst).Perm (asksOf log)
  failed : w.metrics = true → s.blocksSubmitFailed =
    before + (repliesOf log).countP fun r => !SubmitReply.accepted r.2

theorem SubmitLedger.step {before : Nat} {l : SubmitLabel ι} (h : SubmitLedger w before log s)
    (hstep : SubmitStep w s l s') : SubmitLedger w before (log ++ [l]) s' := by
  obtain ⟨hhanded, hasked, hfailed⟩ := h
  cases hstep with
  | call l calls hcall =>
    obtain ⟨hwaiting, hflight⟩ := collect_spawnAll s.tasks (Sv2P2pool.handed (eventsOf [l]))
    refine ⟨?_, ?_, ?_⟩
    · have hcalls : callsOf (log ++ [.call l]) = callsOf log ++ [l] := by simp [callsOf]
      have hasks : asksOf (log ++ [.call l]) = asksOf log := by simp [asksOf]
      rw [hcalls, hasks, eventsOf_append, handed_append]
      show ((spawnAll s.tasks (Sv2P2pool.handed (eventsOf [l]))).collect _ ++ _).Perm _
      rw [hwaiting]
      refine List.Perm.trans ?_ (hhanded.append_right _)
      rw [List.append_assoc, List.append_assoc]
      exact List.perm_append_comm.append_left _
    · show ((spawnAll s.tasks (Sv2P2pool.handed (eventsOf [l]))).collect _ ++ _).Perm _
      rw [hflight]
      simpa [asksOf, repliesOf] using hasked
    · simpa [repliesOf] using hfailed
  | ask task block hf =>
    have hwaiting := Runtime.collect_set_perm SubmitTask.waiting? hf (some (.asked block))
    have hflight := Runtime.collect_set_perm SubmitTask.asked? hf (some (.asked block))
    refine ⟨?_, ?_, ?_⟩
    · have hasks : asksOf (log ++ [.ask task block]) = asksOf log ++ [block] := by simp [asksOf]
      have hcalls : callsOf (log ++ [.ask task block]) = callsOf log := by simp [callsOf]
      rw [hasks, hcalls]
      refine List.Perm.trans ?_ hhanded
      rw [← List.append_assoc]
      refine List.perm_append_comm.trans ?_
      rw [← List.append_assoc]
      exact List.Perm.append_right _ hwaiting
    · have hasks : asksOf (log ++ [.ask task block]) = asksOf log ++ [block] := by simp [asksOf]
      have hreplies : repliesOf (log ++ [.ask task block]) = repliesOf log := by simp [repliesOf]
      rw [hasks, hreplies]
      refine List.Perm.trans (List.Perm.append_right _ hflight) ?_
      exact (hasked.cons block).trans (List.perm_append_singleton block _).symm
    · simpa [repliesOf] using hfailed
  | reply task block reply hf =>
    have hwaiting := Runtime.collect_set_perm SubmitTask.waiting? hf none
    have hflight := Runtime.collect_set_perm SubmitTask.asked? hf none
    have hreplies : repliesOf (log ++ [.reply task block reply]) =
        repliesOf log ++ [(block, reply)] := by simp [repliesOf]
    have hasks : asksOf (log ++ [.reply task block reply]) = asksOf log := by simp [asksOf]
    refine ⟨?_, ?_, fun hm => ?_⟩
    · have hcalls : callsOf (log ++ [.reply task block reply]) = callsOf log := by simp [callsOf]
      rw [hasks, hcalls]
      exact List.Perm.trans (List.Perm.append_right _ hwaiting) hhanded
    · rw [hasks, hreplies, List.map_append, ← List.append_assoc]
      refine List.Perm.trans ?_ hasked
      refine List.perm_append_comm.trans ?_
      rw [← List.append_assoc]
      exact List.Perm.append_right _ hflight
    · rw [hreplies, List.countP_append, ← Nat.add_assoc, ← hfailed hm]
      show s.blocksSubmitFailed + (if w.metrics = true ∧ reply.accepted = false then 1 else 0) = _
      cases hreply : reply.accepted <;> simp [hm, hreply]

theorem submitted_of_trace {calls : Config engineSig Engine JobAnswer ι} {before : Nat}
    (h : Trace (SubmitStep w) ⟨calls, .empty, before⟩ log s) :
    SubmitLedger w before log s ∧ Trace JobStep calls (callsOf log) s.calls := by
  refine Trace.history (P := fun log s => SubmitLedger w before log s ∧
    Trace JobStep calls (callsOf log) s.calls) ?_ ?_ log h
  · refine ⟨⟨List.Perm.refl _, List.Perm.refl _, fun _ => rfl⟩, rfl⟩
  · intro log s l s' hs hstep
    refine ⟨hs.1.step hstep, ?_⟩
    cases hstep with
    | call l calls hcall =>
      have hcalls : callsOf (log ++ [.call l]) = callsOf log ++ [l] := by simp [callsOf]
      rw [hcalls]
      exact (Trace.snoc_iff _ _ _ _).mpr ⟨_, hs.2, hcall⟩
    | ask task block hf => simpa [callsOf] using hs.2
    | reply task block reply hf => simpa [callsOf] using hs.2

end tasks

/-! ## The entries of one call -/

/-- `push_solution_dropped_total` in a log, over all reasons. -/
def droppedIn (log : List (Event engineSig)) : Nat :=
  (PushSolutionDropReason.all.map fun reason => bumps log (.pushSolutionDropped reason)).sum

/-- No solution was handled to its end; `received` were counted. -/
structure Unfated (received : Nat) (log : List (Event engineSig)) : Prop where
  received : bumps log .pushSolutionReceived = received
  submitted : bumps log .blocksSubmitted = 0
  dropped : ∀ reason, bumps log (.pushSolutionDropped reason) = 0
  unhanded : handed log = []

/-- An operation that has no part in what becomes of a solution. -/
def Op.OffSolutions : Op → Prop
  | .bump x _ => ¬ x.OfSolutions
  | .spawnSubmitBlock _ => False
  | _ => True

/-- A block is handed over after it was counted. -/
def CountedFirst (w : Wiring) (log : List (Event engineSig)) (o : Op) : Prop :=
  ∀ block, o = .spawnSubmitBlock block → w.metrics = true →
    bumps log .blocksSubmitted = (handed log).length + 1

def JobCall.isPush : JobCall → Bool
  | .push _ => true
  | _ => false

/-- What a call that has returned has entered: a solution was received, and
    unless nobody wired bitcoind, it was submitted or dropped. -/
structure Fated (w : Wiring) (call : JobCall) (log : List (Event engineSig)) : Prop where
  received : bumps log .pushSolutionReceived = if call.isPush then 1 else 0
  submitted : bumps log .blocksSubmitted = (handed log).length
  settled : w.handles = true ∨ w.tdp = false →
    bumps log .pushSolutionReceived = bumps log .blocksSubmitted + droppedIn log

section

variable {cr : Crates} {w : Wiring} {log : List (Event engineSig)} {n : Nat}

theorem unfated_nil : Unfated 0 [] := ⟨rfl, rfl, fun _ => rfl, rfl⟩

theorem Unfated.droppedIn (h : Unfated n log) : droppedIn log = 0 := by
  simp [Sv2P2pool.droppedIn, h.dropped]

theorem Unfated.snoc (h : Unfated n log) {o : Op} (ho : o.OffSolutions) (r : o.Res) :
    Unfated n (log ++ [⟨o, r⟩]) := by
  have hevent : (∀ x : Counter, x.OfSolutions → bumpedBy x ⟨o, r⟩ = 0) ∧
      handedBy ⟨o, r⟩ = none := by
    cases o with
    | bump x' m =>
      refine ⟨fun x hx => if_neg ?_, rfl⟩
      intro heq
      subst heq
      exact ho hx
    | spawnSubmitBlock block => exact ho.elim
    | _ => exact ⟨fun _ _ => rfl, rfl⟩
  obtain ⟨hbumps, hhanded⟩ := hevent
  refine ⟨?_, ?_, fun reason => ?_, ?_⟩
  · simp [h.received, hbumps .pushSolutionReceived trivial]
  · simp [h.submitted, hbumps .blocksSubmitted trivial]
  · simp [h.dropped reason, hbumps (.pushSolutionDropped reason) trivial]
  · rw [handed_append, h.unhanded]
    simp [handed, hhanded]

/-- A program of such operations leaves a solution where it is. -/
theorem unfated_spec {α : Type} {p : Handler α} (hp : p.Only Op.OffSolutions)
    (h : Unfated n log) : p.Spec (CountedFirst w) (fun log _ => Unfated n log) log := by
  refine Prog.Only.spec (A := Op.OffSolutions) (fun log o ho block heq => ?_)
    (fun _ _ r hlog ho => hlog.snoc ho r) hp h
  subst heq
  exact ho.elim

theorem offSolutions_of_writes {α : Type} {l : List Region} {p : Handler α} (h : WritesOnly l p)
    (hsubmitted : .submitted ∉ l) (hcounters : .counters ∉ l) : p.Only Op.OffSolutions := by
  refine Prog.Only.mono (fun o ho => ?_) h
  cases o with
  | spawnSubmitBlock block => exact absurd (ho _ rfl) hsubmitted
  | bump x n => exact absurd (ho _ rfl) hcounters
  | _ => trivial

/-- A call other than `handle_push_solution` has no entry to make. -/
theorem Unfated.fated (h : Unfated 0 log) {call : JobCall} (hcall : call.isPush = false) :
    Fated w call log := by
  refine ⟨?_, ?_, fun _ => ?_⟩
  · rw [h.received, hcall]
    rfl
  · rw [h.submitted, h.unhanded]
    rfl
  · rw [h.received, h.submitted, h.droppedIn]

/-! ### The other calls -/

theorem JobCall.performs_offSolutions {call : JobCall} (hcall : call.isPush = false) {o : Op}
    (ho : call.performs o) : o.OffSolutions := by
  cases o with
  | bump x n =>
    cases call with
    | declare d pmts => cases x <;> first | exact ho.elim | exact id
    | setCustom m t => cases x <;> first | exact ho.elim | exact id
    | push ps => cases hcall
    | reorg newTip => rcases ho with rfl | rfl <;> exact id
    | flush => rcases ho with rfl | rfl <;> exact id
  | spawnSubmitBlock block => cases call <;> first | exact ho.elim | cases hcall
  | _ => trivial

/-! ### A solution -/

/-- A solution that is dropped is counted under its reason. -/
theorem dropSolution_fated (hm : w.metrics = true) (reason : PushSolutionDropReason)
    (ps : PushSolution) (h : Unfated 1 log) :
    (dropSolution w reason).Spec (CountedFirst w) (fun log _ => Fated w (.push ps) log) log := by
  unfold dropSolution bump
  rw [if_pos hm]
  refine ⟨nofun, fun _ => ⟨?_, ?_, fun _ => ?_⟩⟩
  · simp [bumpedBy, h.received, JobCall.isPush]
  · rw [handed_append, h.unhanded]
    simp [bumpedBy, h.submitted]
    rfl
  · have hone : droppedIn (log ++ [⟨.bump (.pushSolutionDropped reason) 1, ()⟩]) = 1 := by
      cases reason <;>
        simp [droppedIn, PushSolutionDropReason.all, bumpedBy, h.dropped]
    rw [hone]
    simp [bumpedBy, h.received, h.submitted]

/-- A block is counted and then handed over, when bitcoind is wired. -/
theorem deliverBlock_fated (hm : w.metrics = true) (ps : PushSolution) (declared : DeclaredJob)
    (block : Block) (htdp : w.tdp = true) (h : Unfated 1 log) :
    (deliverBlock cr w ps declared block).Spec (CountedFirst w)
      (fun log _ => Fated w (.push ps) log) log := by
  have htail : ∀ log, Unfated 1 log →
      (recordSolution (syntheticShareHash cr ps) (cr.blockHash block.header) >>= fun _ =>
        if w.handles then bump w .blocksSubmitted 1 >>= fun _ => spawnSubmitBlock block
        else pure ()).Spec (CountedFirst w) (fun log _ => Fated w (.push ps) log) log := by
    intro log h
    have hrecorded := h.snoc (o := .recordSolution (syntheticShareHash cr ps)
      (cr.blockHash block.header)) trivial ()
    refine ⟨fun _ heq => (by cases heq), fun _ => ?_⟩
    show (if w.handles then _ else _ : Handler Unit).Spec _ _ _
    split_ifs with hw
    · unfold bump
      rw [if_pos hm]
      refine ⟨fun _ heq => (by cases heq), fun _ => ⟨fun _ _ _ => ?_, fun _ =>
        ⟨?_, ?_, fun _ => ?_⟩⟩⟩
      · rw [handed_append, hrecorded.unhanded]
        simp [bumpedBy, h.submitted, handed, handedBy]
      · simp [bumpedBy, h.received, JobCall.isPush]
      · rw [handed_append, handed_append, hrecorded.unhanded]
        simp [bumpedBy, h.submitted, handed, handedBy]
      · simp [bumpedBy, h.received, h.submitted, h.dropped, droppedIn]
    · -- nobody to hand it to
      refine ⟨by simp [bumpedBy, h.received, JobCall.isPush], ?_, fun hwired => ?_⟩
      · rw [hrecorded.unhanded]
        exact hrecorded.submitted
      · simp [hw, htdp] at hwired
  unfold deliverBlock
  cases declared.allocatedToken with
  | none => exact htail log h
  | some token =>
    exact ⟨fun _ heq => (by cases heq),
      fun script => htail _ (h.snoc (o := .payoutGet token) trivial script)⟩

theorem solveWith_fated (hm : w.metrics = true) (ps : PushSolution) (declared : DeclaredJob)
    (htdp : w.tdp = true) (h : Unfated 1 log) :
    (solveWith cr w ps declared).Spec (CountedFirst w) (fun log _ => Fated w (.push ps) log)
      log := by
  unfold solveWith
  cases declared.templateId with
  | none =>
    exact Prog.Spec.bind (fun log _ hlog => dropSolution_fated hm _ ps hlog)
      (unfated_spec (p := recordSolution _ _) ⟨trivial, fun _ => trivial⟩ h)
  | some k =>
    refine Prog.Spec.bind (fun log bodies hlog => ?_) (unfated_spec
      (offSolutions_of_writes (writesOnly_requestTxBodies cr k) (by simp) (by simp)) h)
    cases bodies with
    | error e => exact dropSolution_fated hm _ ps hlog
    | ok txBodies =>
      simp only
      cases reconstructBlock cr declared ps txBodies with
      | error e => exact dropSolution_fated hm _ ps hlog
      | ok block => exact deliverBlock_fated hm ps declared block htdp hlog

theorem push_fated (hm : w.metrics = true) (ps : PushSolution) :
    (handlePushSolution cr w ps).Spec (CountedFirst w) (fun log _ => Fated w (.push ps) log)
      [] := by
  have hreceived : bump w .pushSolutionReceived 1 = .op (.bump .pushSolutionReceived 1) .ret :=
    if_pos hm
  unfold handlePushSolution
  rw [hreceived]
  refine ⟨nofun, fun u => ?_⟩
  have hone : Unfated 1 ([] ++ [⟨.bump .pushSolutionReceived 1, u⟩]) :=
    ⟨by simp [bumpedBy], by simp [bumpedBy], fun reason => by simp [bumpedBy], rfl⟩
  show (if w.tdp then _ else _ : Handler Unit).Spec _ _ _
  split_ifs with htdp
  · refine Prog.Spec.bind (fun log found hlog => ?_) (unfated_spec
      (offSolutions_of_writes (writesOnly_lookupSolution ps) (by simp) (by simp)) hone)
    cases found with
    | error reason => exact dropSolution_fated hm reason ps hlog
    | ok declared => exact solveWith_fated hm ps declared htdp hlog
  · refine Prog.Spec.bind (fun log _ hlog => dropSolution_fated hm _ ps hlog)
      (unfated_spec (p := recordSolution _ _) ⟨trivial, fun _ => trivial⟩ hone)

theorem jobCall_fated (hm : w.metrics = true) (call : JobCall) :
    (call.prog cr w).Spec (CountedFirst w) (fun log _ => Fated w call log) [] := by
  cases hcall : call.isPush with
  | true =>
    cases call with
    | push ps => exact Prog.Spec.bind (fun _ _ h => h) (push_fated hm ps)
    | _ => cases hcall
  | false =>
    exact Prog.Spec.imp (fun _ _ h => h.fated hcall) (unfated_spec
      (Prog.Only.mono (fun _ ho => JobCall.performs_offSolutions hcall ho) (call.only_prog cr w))
      unfated_nil)

/-- At every point of a call it has counted each block it has handed over. -/
theorem handed_le (hm : w.metrics = true) (h : Logged (CountedFirst w) log) :
    (handed log).length ≤ bumps log .blocksSubmitted := by
  induction log using List.reverseRecOn with
  | nil => exact Nat.le_refl 0
  | append_singleton log e ih =>
    have hle := ih fun before e' after heq => h before e' (after ++ [e]) (by simp [heq])
    have hlast := h log e [] rfl
    rw [handed_append, bumps_append, List.length_append]
    obtain ⟨o, r⟩ := e
    by_cases hspawn : ∃ block, o = .spawnSubmitBlock block
    · obtain ⟨block, rfl⟩ := hspawn
      have hcounted := hlast block rfl hm
      show _ + 1 ≤ _
      omega
    · have hnone : handedBy ⟨o, r⟩ = none := by
        cases o with
        | spawnSubmitBlock block => exact absurd ⟨block, rfl⟩ hspawn
        | _ => rfl
      have hempty : handed [⟨o, r⟩] = [] := by simp [handed, hnone]
      rw [hempty]
      show _ + 0 ≤ _
      omega

end

/-! ## Runs -/

section runs

variable {ι : Type} [DecidableEq ι] {cr : Crates} {w : Wiring} {engine : Engine}
  {call : ι → JobCall} {failed : Nat} {log : List (SubmitLabel ι)} {s : Submitting ι}

/-- The blocks handed over in a run, call by call. -/
theorem handed_events {labels : List (Label engineSig ι TemplateDistribution)}
    {c : Config engineSig Engine JobAnswer ι}
    (h : Trace JobStep (jobCalls cr w engine call) labels c) {T : Finset ι}
    (hidle : ∀ i ∉ T, (c.threads i).log = []) :
    (handed (eventsOf labels)).length = ∑ i ∈ T, (handed (c.threads i).log).length := by
  have hlength : ∀ log : List (Event engineSig), (handed log).length =
      tallied (fun e => (handedBy e).toList.length) log := by
    intro log
    induction log with
    | nil => rfl
    | cons e log ih =>
      rw [tallied_cons, ← ih]
      cases he : handedBy e <;> simp [handed, he, Nat.add_comm]
  rw [hlength, tally_events _ h hidle]
  exact Finset.sum_congr rfl fun i _ => (hlength _).symm

/-- What has become of the solutions. -/
structure SolutionBooks (before : Nat) (gained : Counter → Nat)
    (log : List (SubmitLabel ι)) (s : Submitting ι) : Prop where
  /-- A block is asked of bitcoind at most once. -/
  asked_once : (s.tasks.collect SubmitTask.waiting? ++ asksOf log).Perm
    (handed (eventsOf (callsOf log)))
  answered_once : (s.tasks.collect SubmitTask.asked? ++ (repliesOf log).map Prod.fst).Perm
    (asksOf log)
  failed : s.blocksSubmitFailed =
    before + (repliesOf log).countP fun r => !SubmitReply.accepted r.2
  /-- No more blocks fail than were counted as submitted. -/
  failed_le : s.blocksSubmitFailed ≤ before + gained .blocksSubmitted

/-- In every run, and at every point of it, each block that a solution led to
    is asked of bitcoind at most once and counted as failed at most once, after
    it was counted as submitted. When the calls that have started have
    returned, each solution was dropped for a reason, or its block waits, is
    with bitcoind, was taken or has failed. -/
theorem solution_fates (hm : w.metrics = true)
    (h : Trace (SubmitStep w) ⟨jobCalls cr w engine call, .empty, failed⟩ log s) {T : Finset ι}
    (hidle : ∀ i ∉ T, (s.calls.threads i).log = []) :
    ∃ gained : Counter → Nat, (∀ x, s.calls.shared.counters x = engine.counters x + gained x) ∧
      SolutionBooks failed gained log s ∧
      ((∀ i ∈ T, (s.calls.threads i).prog.result?.isSome = true) →
        w.handles = true ∨ w.tdp = false →
        gained .pushSolutionReceived = (T.filter fun i => (call i).isPush).card ∧
        gained .pushSolutionReceived =
          (PushSolutionDropReason.all.map fun reason => gained (.pushSolutionDropped reason)).sum +
            (s.tasks.collect SubmitTask.waiting?).length +
            (s.tasks.collect SubmitTask.asked?).length +
            ((repliesOf log).countP fun r => SubmitReply.accepted r.2) +
            ((repliesOf log).countP fun r => !SubmitReply.accepted r.2)) := by
  obtain ⟨hsubmitted, hcalls⟩ := submitted_of_trace h
  have hspec := fun i => spec_of_trace (P := fun _ => CountedFirst w)
    (Q := fun i log _ => Fated w (call i) log) (fun i => jobCall_fated hm (call i))
    (fun _ => logged_nil _) hcalls i
  have hhanded := handed_events hcalls hidle
  -- each block that was handed over is at one place
  have hplaces : (handed (eventsOf (callsOf log))).length =
      (s.tasks.collect SubmitTask.waiting?).length + (s.tasks.collect SubmitTask.asked?).length +
        (repliesOf log).length := by
    have hwaiting := hsubmitted.handed.length_eq
    have hasked := hsubmitted.asked.length_eq
    simp only [List.length_append, List.length_map] at hwaiting hasked
    omega
  have hreplies : (repliesOf log).length =
      ((repliesOf log).countP fun r => SubmitReply.accepted r.2) +
        ((repliesOf log).countP fun r => !SubmitReply.accepted r.2) := by
    simpa using List.length_eq_countP_add_countP
      (fun r : Block × SubmitReply => SubmitReply.accepted r.2) (l := repliesOf log)
  have hfailed := hsubmitted.failed hm
  refine ⟨_, fun x => counters_eq_sum hcalls x hidle, ⟨hsubmitted.handed, hsubmitted.asked,
    hfailed, ?_⟩, fun hdone hwired => ?_⟩
  · have hle : ∑ i ∈ T, (handed (s.calls.threads i).log).length ≤
        ∑ i ∈ T, bumps (s.calls.threads i).log .blocksSubmitted :=
      Finset.sum_le_sum fun i _ => handed_le hm (hspec i).2
    omega
  · have hfated : ∀ i ∈ T, Fated w (call i) (s.calls.threads i).log := by
      intro i hi
      have hi' := (hspec i).1
      obtain ⟨answer, hanswer⟩ := Option.isSome_iff_exists.mp (hdone i hi)
      rw [Prog.eq_ret_of_result? hanswer] at hi'
      exact hi'
    have hsubmits : ∑ i ∈ T, bumps (s.calls.threads i).log .blocksSubmitted =
        (handed (eventsOf (callsOf log))).length := by
      rw [hhanded]
      exact Finset.sum_congr rfl fun i hi => (hfated i hi).submitted
    have hdrops : ∑ i ∈ T, droppedIn (s.calls.threads i).log =
        (PushSolutionDropReason.all.map fun reason =>
          ∑ i ∈ T, bumps (s.calls.threads i).log (.pushSolutionDropped reason)).sum := by
      simp [droppedIn, PushSolutionDropReason.all, Finset.sum_add_distrib]
    have hsettled : ∑ i ∈ T, bumps (s.calls.threads i).log .pushSolutionReceived =
        ∑ i ∈ T, bumps (s.calls.threads i).log .blocksSubmitted +
          ∑ i ∈ T, droppedIn (s.calls.threads i).log := by
      rw [← Finset.sum_add_distrib]
      exact Finset.sum_congr rfl fun i hi => (hfated i hi).settled hwired
    constructor
    · rw [Finset.card_filter]
      exact Finset.sum_congr rfl fun i hi => (hfated i hi).received
    · rw [hsettled, hsubmits, hdrops, hplaces]
      omega

end runs

/-- A run of the calls alone. -/
theorem submitting_of_calls {ι : Type} [DecidableEq ι] {w : Wiring}
    {labels : List (Label engineSig ι TemplateDistribution)}
    {c c' : Config engineSig Engine JobAnswer ι} (h : Trace JobStep c labels c') (failed : Nat) :
    Trace (SubmitStep w) ⟨c, .empty, failed⟩ (labels.map SubmitLabel.call)
      ⟨c', spawnAll .empty (handed (eventsOf labels)), failed⟩ := by
  refine Trace.run_induction (P := fun labels c' => Trace (SubmitStep w) ⟨c, .empty, failed⟩
    (labels.map SubmitLabel.call) ⟨c', spawnAll .empty (handed (eventsOf labels)), failed⟩)
    rfl ?_ labels h
  intro labels t l u _ ih hstep
  rw [List.map_append, eventsOf_append, handed_append]
  have hspawn : spawnAll .empty (handed (eventsOf labels) ++ handed (eventsOf [l])) =
      spawnAll (spawnAll .empty (handed (eventsOf labels))) (handed (eventsOf [l])) :=
    List.foldl_append
  rw [hspawn]
  exact (Trace.snoc_iff _ _ _ _).mpr ⟨_, ih, .call l u hstep⟩

namespace Sample

/-- A job is declared and solved, and bitcoind finds the block's hash too high. -/
def rejectedBlock (block : Block) : List (SubmitLabel (Fin 3)) :=
  (played replacingCalls unreplaced).map SubmitLabel.call ++
    [.ask 0 block, .reply 0 block (.ok "\"high-hash\"")]

end Sample

/-- The calls of that run. -/
theorem unreplaced_calls : ∃ c block,
    Trace JobStep Sample.replacingCalls (Sample.played Sample.replacingCalls Sample.unreplaced) c ∧
    handed (eventsOf (Sample.played Sample.replacingCalls Sample.unreplaced)) = [block] ∧
    (∀ i ∈ ({0, 2} : Finset (Fin 3)), (c.threads i).prog.result?.isSome = true) ∧
    ∀ i ∉ ({0, 2} : Finset (Fin 3)), (c.threads i).log = [] := by
  have hone : (handed (eventsOf
      (Sample.played Sample.replacingCalls Sample.unreplaced))).length = 1 := by decide +kernel
  obtain ⟨block, hblock⟩ := List.length_eq_one_iff.mp hone
  refine ⟨_, block, Sample.played_run Sample.replacingCalls Sample.unreplaced, hblock,
    by decide +kernel, fun i hi => ?_⟩
  have hlength : ((Sample.replacingCalls.play Sample.online.parStep teeAct
      Sample.unreplaced).threads 1).log.length = 0 := by decide +kernel
  have hthree : ∀ i : Fin 3, i ∉ ({0, 2} : Finset (Fin 3)) → i = 1 := by decide
  rw [hthree i hi]
  exact List.eq_nil_of_length_eq_zero hlength

/-- The solution is the one that was received, and its block has failed. -/
theorem solution_fates_rejected :
    ∃ block s, Trace (SubmitStep Sample.wiring) ⟨Sample.replacingCalls, .empty, 0⟩
      (Sample.rejectedBlock block) s ∧ ∃ gained : Counter → Nat,
        SolutionBooks 0 gained (Sample.rejectedBlock block) s ∧
        gained .pushSolutionReceived = 1 ∧ s.blocksSubmitFailed = 1 := by
  obtain ⟨c, block, hcalls, hblock, hdone, hidle⟩ := unreplaced_calls
  have hcalls := submitting_of_calls (w := Sample.wiring) hcalls 0
  rw [hblock] at hcalls
  have hrun : Trace (SubmitStep Sample.wiring) ⟨Sample.replacingCalls, .empty, 0⟩
      (Sample.rejectedBlock block) ⟨c, (spawnAll .empty [block]).put 0 (.asked block) |>.finish 0,
        1⟩ := (Trace.append_iff _ _ _ _).mpr
    ⟨_, hcalls, _, .ask 0 block rfl, _, .reply 0 block _ rfl, rfl⟩
  obtain ⟨gained, -, hbooks, hfates⟩ := solution_fates (T := {0, 2}) rfl hrun hidle
  refine ⟨block, _, hrun, gained, hbooks, ?_, rfl⟩
  rw [(hfates hdone (Or.inl rfl)).1]
  decide

end Sv2P2pool
