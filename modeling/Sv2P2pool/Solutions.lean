import Sv2P2pool.Frames

/-! # Solutions

    A complete call of `handle_push_solution`: which cached job it picks, the
    block it submits and the credit it records. These are read off the
    operations the call performs (`effects`).
-/

namespace Sv2P2pool

open ByteCodec Bitcoin Interleave

section

variable (cr : Crates) (w : Wiring) (env : Env)

/-! ## Effects -/

/-- What a `PushSolution` leads to: a block handed to `submit_block`, or a
    block hash recorded as the credit of a share. -/
inductive SolutionEffect where
  | submit (block : Block)
  | credit (shareHash blockHash : BlockHash)
  deriving DecidableEq

def solutionEffect : Event engineSig → Option SolutionEffect
  | ⟨.spawnSubmitBlock b, _⟩ => some (.submit b)
  | ⟨.recordSolution share block, _⟩ => some (.credit share block)
  | _ => none

/-- The solution effects of a complete call, in order. -/
def effects {α : Type} (p : Handler α) (s : Engine) : List SolutionEffect :=
  (events env.oracle p s).filterMap solutionEffect

theorem effects_bind {α β : Type} (p : Handler α) (f : α → Handler β) (s : Engine) :
    effects env (p >>= f) s =
      effects env p s ++ effects env (f (run env.oracle p s).1) (run env.oracle p s).2 := by
  simp only [effects, events_bind, List.filterMap_append]

theorem effects_eq_nil {α : Type} {l : List Region} {p : Handler α} (h : WritesOnly l p)
    (hsol : .solutions ∉ l) (hsub : .submitted ∉ l) (s : Engine) : effects env p s = [] := by
  rw [effects, List.filterMap_eq_nil_iff]
  intro e he
  obtain ⟨o, r⟩ := e
  have ho := events_only h s ⟨o, r⟩ he
  cases o <;> first | rfl | exact absurd (ho _ rfl) hsol | exact absurd (ho _ rfl) hsub

/-- The effects of a solution once its job is found. -/
def solveEffects (ps : PushSolution) (declared : DeclaredJob) : List SolutionEffect :=
  match declared.templateId with
  | none => [.credit (syntheticShareHash cr ps) (syntheticShareHash cr ps)]
  | some k =>
    match env.txBodies cr k with
    | .error _ => []
    | .ok txBodies =>
      match reconstructBlock cr declared ps txBodies with
      | .error _ => []
      | .ok block =>
        .credit (syntheticShareHash cr ps) (cr.blockHash block.header) ::
          if w.handles then [.submit block] else []

theorem submit_mem_solveEffects {ps : PushSolution} {declared : DeclaredJob} {block : Block} :
    .submit block ∈ solveEffects cr w env ps declared ↔
      w.handles = true ∧ ∃ k txBodies, declared.templateId = some k ∧
        env.txBodies cr k = .ok txBodies ∧ reconstructBlock cr declared ps txBodies = .ok block := by
  unfold solveEffects
  match declared.templateId with
  | none => simp
  | some k =>
    match hbodies : env.txBodies cr k with
    | .error e => simp [hbodies]
    | .ok txBodies =>
      match hb : reconstructBlock cr declared ps txBodies with
      | .error e => simp [hbodies, hb]
      | .ok b => cases w.handles <;> simp [hbodies, hb, eq_comm]

theorem effects_dropSolution (reason : PushSolutionDropReason) (s : Engine) :
    effects env (dropSolution w reason) s = [] :=
  effects_eq_nil env (writesOnly_bump w _ _) (by simp) (by simp) s

theorem effects_deliverBlock (ps : PushSolution) (declared : DeclaredJob) (block : Block)
    (s : Engine) :
    effects env (deliverBlock cr w ps declared block) s =
      .credit (syntheticShareHash cr ps) (cr.blockHash block.header) ::
        if w.handles then [.submit block] else [] := by
  have hbump : ∀ s, effects env (bump w .blocksSubmitted 1) s = [] :=
    effects_eq_nil env (writesOnly_bump w _ _) (by simp) (by simp)
  have htail : ∀ s, effects env
      (recordSolution (syntheticShareHash cr ps) (cr.blockHash block.header) >>= fun _ =>
        if w.handles then bump w .blocksSubmitted 1 >>= fun _ => spawnSubmitBlock block
        else pure ()) s =
      .credit (syntheticShareHash cr ps) (cr.blockHash block.header) ::
        if w.handles then [.submit block] else [] := by
    intro s
    rw [effects_bind]
    split_ifs
    · rw [effects_bind, hbump]
      rfl
    · rfl
  unfold deliverBlock
  -- the payout lookup is only logged; both branches go on with the same tail
  cases declared.allocatedToken with
  | none => exact htail s
  | some token => exact htail s

theorem effects_solveWith {s : Engine} (hq : s.tdp.Quiet) (ps : PushSolution)
    (declared : DeclaredJob) :
    effects env (solveWith cr w ps declared) s = solveEffects cr w env ps declared := by
  unfold solveWith solveEffects
  cases declared.templateId with
  | none =>
    simp only [effects_bind, effects_dropSolution, List.append_nil]
    rfl
  | some k =>
    -- with nothing in flight the fetch cannot collide with another waiter
    simp only [effects_bind, run_requestTxBodies cr env hq k]
    rw [effects_eq_nil env (writesOnly_requestTxBodies cr k) (by simp) (by simp),
      List.nil_append]
    cases env.txBodies cr k with
    | error e => exact effects_dropSolution w env _ _
    | ok txBodies =>
      simp only
      cases reconstructBlock cr declared ps txBodies with
      | error e => exact effects_dropSolution w env _ _
      | ok block => exact effects_deliverBlock cr w env ps declared block _

/-- The triple of the solution is the job's. -/
def DeclaredJob.Matches (job : DeclaredJob) (ps : PushSolution) : Prop :=
  job.tip.prevHash = ps.prevHash ∧ job.tip.nbits = ps.nbits ∧ job.version = ps.version

instance (job : DeclaredJob) (ps : PushSolution) : Decidable (job.Matches ps) :=
  inferInstanceAs (Decidable (_ ∧ _ ∧ _))

/-- The first cached job, in iteration order, with the solution's triple. -/
def Env.solutionJob (s : Engine) (ps : PushSolution) :
    Option (DashMap.Entry RequestId DeclaredJob) :=
  (env.jobOrder s.declaredJobs).find? fun e => e.2.Matches ps

theorem solutionJob_eq_some {s : Engine} {ps : PushSolution}
    {e : DashMap.Entry RequestId DeclaredJob} (h : env.solutionJob s ps = some e) :
    s.declaredJobs.lookup e.1 = some e.2 ∧ e.2.Matches ps := by
  refine ⟨?_, by simpa using List.find?_some h⟩
  rw [← DashMap.mem_entries_iff]
  exact (env.jobOrder_iter _).mem_iff.mp (List.mem_of_find?_eq_some h)

theorem solutionJob_eq_none {s : Engine} {ps : PushSolution} :
    env.solutionJob s ps = none ↔
      ∀ r job, s.declaredJobs.lookup r = some job → ¬ job.Matches ps := by
  simp only [Env.solutionJob, List.find?_eq_none, (env.jobOrder_iter _).mem_iff,
    decide_eq_true_eq]
  constructor
  · intro h r job hjob
    exact h ⟨r, job⟩ ((DashMap.mem_entries_iff _ _ _).mpr hjob)
  · intro h e he
    obtain ⟨r, job⟩ := e
    exact h r job ((DashMap.mem_entries_iff _ _ _).mp he)

theorem run_lookupSolution (s : Engine) (ps : PushSolution) :
    run env.oracle (lookupSolution ps) s =
      (match env.solutionJob s ps with
        | none => .error .noMatchingJob
        | some e => .ok e.2, s) := by
  have hfind : findBySolution ps.prevHash ps.nbits ps.version (env.jobOrder s.declaredJobs) =
      (env.solutionJob s ps).map Sigma.fst := rfl
  cases hjob : env.solutionJob s ps with
  | none => simp [lookupSolution, Env.oracle, Env.step, hfind, hjob]
  | some e =>
    -- the second lookup, by request id, finds the job of the first
    have hget := (solutionJob_eq_some env hjob).1
    simp [lookupSolution, Env.oracle, Env.step, hfind, hjob, hget]

/-- The operations of `lookupSolution`. -/
def Op.isLookup : Op → Prop
  | .jobsFindBySolution _ _ _ | .jobsGet _ => True
  | _ => False

theorem only_lookupSolution (ps : PushSolution) : (lookupSolution ps).Only Op.isLookup := by
  refine ⟨trivial, fun found => ?_⟩
  cases found with
  | none => trivial
  | some r =>
    refine ⟨trivial, fun job => ?_⟩
    cases job <;> trivial

theorem writesOnly_lookupSolution (ps : PushSolution) : WritesOnly [] (lookupSolution ps) := by
  refine Prog.Only.mono (fun o ho => ?_) (only_lookupSolution ps)
  cases o <;> first | exact ho.elim | simp [Op.writes]

theorem effects_push {s : Engine} (hq : s.tdp.Quiet) (ps : PushSolution) :
    effects env (handlePushSolution cr w ps) s =
      if w.tdp then
        match env.solutionJob s ps with
        | none => []
        | some e => solveEffects cr w env ps e.2
      else [.credit (syntheticShareHash cr ps) (syntheticShareHash cr ps)] := by
  have hq' : (s.bumped w .pushSolutionReceived 1).tdp.Quiet := by
    rw [bumped_tdp]
    exact hq
  have hjob : env.solutionJob (s.bumped w .pushSolutionReceived 1) ps = env.solutionJob s ps := by
    simp only [Env.solutionJob, bumped_declaredJobs]
  rw [handlePushSolution, effects_bind, effects_eq_nil env (writesOnly_bump w _ _) (by simp)
    (by simp), List.nil_append, run_bump]
  split_ifs
  · rw [effects_bind, run_lookupSolution, hjob,
      effects_eq_nil env (writesOnly_lookupSolution ps) (List.not_mem_nil) (List.not_mem_nil),
      List.nil_append]
    match env.solutionJob s ps with
    | none => exact effects_dropSolution w env _ _
    | some e => exact effects_solveWith cr w env hq' ps e.2
  · rw [effects_bind, effects_dropSolution]
    rfl

/-! ## What a solution leaves alone -/

/-- The counters that only `handle_push_solution` moves. -/
def Counter.OfSolutions : Counter → Prop
  | .pushSolutionReceived | .pushSolutionDropped _ | .blocksSubmitted => True
  | _ => False

/-- The operations of `deliverBlock`. -/
def Op.isDelivery : Op → Prop
  | .payoutGet _ | .recordSolution _ _ | .spawnSubmitBlock _ => True
  | .bump x _ => x.OfSolutions
  | _ => False

theorem only_deliverBlock (ps : PushSolution) (declared : DeclaredJob) (block : Block) :
    (deliverBlock cr w ps declared block).Only Op.isDelivery := by
  have htail : (recordSolution (syntheticShareHash cr ps) (cr.blockHash block.header) >>= fun _ =>
      if w.handles then bump w .blocksSubmitted 1 >>= fun _ => spawnSubmitBlock block
      else pure ()).Only Op.isDelivery := by
    refine ⟨trivial, fun _ => ?_⟩
    show (if w.handles then _ else _ : Handler Unit).Only _
    split_ifs
    · exact (only_bump w (by trivial)).bind fun _ => ⟨trivial, fun _ => trivial⟩
    · trivial
  unfold deliverBlock
  cases declared.allocatedToken with
  | none => exact htail
  | some token => exact ⟨trivial, fun _ => htail⟩

theorem writesOnly_deliverBlock (ps : PushSolution) (declared : DeclaredJob) (block : Block) :
    WritesOnly [.solutions, .submitted, .counters] (deliverBlock cr w ps declared block) := by
  refine Prog.Only.mono (fun o ho => ?_) (only_deliverBlock cr w ps declared block)
  cases o <;> first | exact ho.elim | simp [Op.writes]

/-- What a solution may do. -/
def Op.ofPush : Op → Prop
  | .jobsFindBySolution _ _ _ | .jobsGet _ => True
  | .payoutGet _ | .recordSolution _ _ | .spawnSubmitBlock _ => True
  | .bump x _ => x.OfSolutions
  | o => o.isRequest

theorem ofPush_dropSolution (reason : PushSolutionDropReason) :
    (dropSolution w reason).Only Op.ofPush := only_bump w (by trivial)

theorem ofPush_solveWith (ps : PushSolution) (declared : DeclaredJob) :
    (solveWith cr w ps declared).Only Op.ofPush := by
  unfold solveWith
  cases declared.templateId with
  | none => exact ⟨trivial, fun _ => ofPush_dropSolution w _⟩
  | some k =>
    refine Prog.Only.bind (Prog.Only.mono (fun o ho => ?_) (only_requestTxBodies cr k))
      fun fetched => ?_
    · cases o <;> first | exact ho.elim | trivial
    cases fetched with
    | error e => exact ofPush_dropSolution w _
    | ok txBodies =>
      simp only
      cases reconstructBlock cr declared ps txBodies with
      | error e => exact ofPush_dropSolution w _
      | ok block =>
        refine Prog.Only.mono (fun o ho => ?_) (only_deliverBlock cr w ps declared block)
        cases o <;> first | exact ho | exact ho.elim

theorem only_push (ps : PushSolution) : (handlePushSolution cr w ps).Only Op.ofPush := by
  refine Prog.Only.bind (only_bump w (by trivial)) fun _ => ?_
  split_ifs
  · refine Prog.Only.bind (Prog.Only.mono (fun o ho => ?_) (only_lookupSolution ps))
      fun found => ?_
    · cases o <;> first | exact ho.elim | trivial
    match found with
    | .error reason => exact ofPush_dropSolution w reason
    | .ok declared => exact ofPush_solveWith cr w ps declared
  · exact ⟨trivial, fun _ => ofPush_dropSolution w _⟩

theorem writesOnly_push (ps : PushSolution) :
    WritesOnly [.requests, .solutions, .submitted, .counters] (handlePushSolution cr w ps) := by
  refine Prog.Only.mono (fun o ho => ?_) (only_push cr w ps)
  cases o <;> first | exact ho.elim | simp [Op.writes]

theorem run_solveWith_quiet {s : Engine} (hq : s.tdp.Quiet) (ps : PushSolution)
    (declared : DeclaredJob) : (run env.oracle (solveWith cr w ps declared) s).2.tdp.Quiet := by
  have hdrop : ∀ reason s', s'.tdp.Quiet →
      (run env.oracle (dropSolution w reason) s').2.tdp.Quiet := by
    intro reason s' h
    simpa [dropSolution] using h
  unfold solveWith
  match declared.templateId with
  | none => exact hdrop _ _ hq
  | some k =>
    simp only [run_bind, run_requestTxBodies cr env hq k]
    match env.txBodies cr k with
    | .error e => exact hdrop _ _ (requested_quiet hq)
    | .ok txBodies =>
      simp only
      match reconstructBlock cr declared ps txBodies with
      | .error e => exact hdrop _ _ (requested_quiet hq)
      | .ok block =>
        rw [run_tdp env (writesOnly_deliverBlock cr w ps declared block) (by simp)]
        exact requested_quiet hq

theorem run_push_quiet {s : Engine} (hq : s.tdp.Quiet) (ps : PushSolution) :
    (run env.oracle (handlePushSolution cr w ps) s).2.tdp.Quiet := by
  have hq' : (s.bumped w .pushSolutionReceived 1).tdp.Quiet := by
    rw [bumped_tdp]
    exact hq
  rw [handlePushSolution, run_bind, run_bump]
  split_ifs
  · rw [run_bind, run_lookupSolution]
    match env.solutionJob (s.bumped w .pushSolutionReceived 1) ps with
    | none =>
      show (run env.oracle (dropSolution w _) _).2.tdp.Quiet
      simpa [dropSolution] using hq
    | some e => exact run_solveWith_quiet cr w env hq' ps e.2
  · simpa [dropSolution, Env.oracle, Env.step] using hq

end

end Sv2P2pool
