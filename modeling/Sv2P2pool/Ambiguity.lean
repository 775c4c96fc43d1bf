import Sv2P2pool.Runs

/-! # Solutions that Match Several Jobs

    `find_by_solution` returns the first cached job, in iteration order, with
    the solution's `(prev_hash, nbits, version)`, and all jobs declared on
    one tip with one version share that triple. The outcome of
    `handle_push_solution` is independent of the iteration order exactly when
    all matching jobs lead to the same outcome.
-/

namespace Sv2P2pool

open ByteCodec Bitcoin Interleave

/-! ## Iteration orders -/

/-- `env'` gives the answers of `env`, in another iteration order. -/
def Env.Reordered (env env' : Env) : Prop :=
  ∃ order iter, env' = { env with jobOrder := order, jobOrder_iter := iter }

/-- Visit the entry `e` first, when it is cached. -/
def Env.visitFirst (env : Env) (e : DashMap.Entry RequestId DeclaredJob) : Env :=
  { env with
    jobOrder := fun m => if e ∈ m.entries then e :: m.entries.erase e else m.entries
    jobOrder_iter := fun m => by
      unfold DashMap.IterOrder
      split_ifs with h
      · exact (List.perm_cons_erase h).symm
      · exact List.Perm.refl _ }

theorem reordered_visitFirst (env : Env) (e : DashMap.Entry RequestId DeclaredJob) :
    env.Reordered (env.visitFirst e) := ⟨_, _, rfl⟩

theorem solutionJob_visitFirst {env : Env} {s : Engine} {ps : PushSolution} {r : RequestId}
    {job : DeclaredJob} (hjob : s.declaredJobs.lookup r = some job) (hm : job.Matches ps) :
    (env.visitFirst ⟨r, job⟩).solutionJob s ps = some ⟨r, job⟩ := by
  have hmem := (DashMap.mem_entries_iff s.declaredJobs r job).mpr hjob
  simp [Env.solutionJob, Env.visitFirst, hmem, hm]

section

variable {cr : Crates} {w : Wiring}

/-! ## The outcome of one job -/

/-- The block rebuilt from a job for a solution, with the bodies the Template
    Provider answers for the job's template. -/
def rebuiltBlock (cr : Crates) (env : Env) (ps : PushSolution) (job : DeclaredJob) :
    Option Block :=
  match job.templateId with
  | none => none
  | some k =>
    match env.txBodies cr k with
    | .error _ => none
    | .ok txBodies => (reconstructBlock cr job ps txBodies).toOption

/-- The block hash credited for a job: the rebuilt block's, or the synthetic
    one for a job without a template. -/
def creditedHash (cr : Crates) (env : Env) (ps : PushSolution) (job : DeclaredJob) :
    Option BlockHash :=
  if job.templateId = none then some (syntheticShareHash cr ps)
  else (rebuiltBlock cr env ps job).map fun b => cr.blockHash b.header

/-- Two jobs lead to the same credit and, with a bitcoind to submit to, to
    the same block. -/
def SolvesAlike (cr : Crates) (w : Wiring) (env : Env) (ps : PushSolution)
    (job job' : DeclaredJob) : Prop :=
  creditedHash cr env ps job = creditedHash cr env ps job' ∧
    (w.handles = true → rebuiltBlock cr env ps job = rebuiltBlock cr env ps job')

/-- The effects of a solution, from the credit and the block. -/
theorem solveEffects_eq (env : Env) (ps : PushSolution) (job : DeclaredJob) :
    solveEffects cr w env ps job =
      (creditedHash cr env ps job).toList.map (.credit (syntheticShareHash cr ps)) ++
        if w.handles then (rebuiltBlock cr env ps job).toList.map .submit else [] := by
  unfold solveEffects creditedHash rebuiltBlock
  cases job.templateId with
  | none => simp
  | some k =>
    simp only [reduceCtorEq, if_false]
    cases env.txBodies cr k with
    | error e => simp
    | ok txBodies =>
      simp only
      cases reconstructBlock cr job ps txBodies with
      | error e => simp [Except.toOption]
      | ok b => simp [Except.toOption]

theorem solvesAlike_iff (env : Env) (ps : PushSolution) (job job' : DeclaredJob) :
    SolvesAlike cr w env ps job job' ↔
      solveEffects cr w env ps job = solveEffects cr w env ps job' := by
  rw [solveEffects_eq, solveEffects_eq, SolvesAlike]
  generalize creditedHash cr env ps job = c
  generalize creditedHash cr env ps job' = c'
  generalize rebuiltBlock cr env ps job = b
  generalize rebuiltBlock cr env ps job' = b'
  cases w.handles with
  | false => cases c <;> cases c' <;> simp
  | true => cases c <;> cases c' <;> cases b <;> cases b' <;> simp

/-! ## Order independence -/

/-- The outcome of a solution is independent of the iteration order, and is
    that of every cached job the solution matches. -/
def OrderIndependent (cr : Crates) (w : Wiring) (env : Env) (s : Engine) (ps : PushSolution) :
    Prop :=
  (∀ env₁ env₂, env.Reordered env₁ → env.Reordered env₂ →
    effects env₁ (handlePushSolution cr w ps) s = effects env₂ (handlePushSolution cr w ps) s) ∧
  (w.tdp = true → ∀ r job, s.declaredJobs.lookup r = some job → job.Matches ps →
    ∀ env₁, env.Reordered env₁ →
      effects env₁ (handlePushSolution cr w ps) s = effects env₁ (solveWith cr w ps job) s)

theorem solveEffects_reordered {env env' : Env} (h : env.Reordered env') (ps : PushSolution)
    (job : DeclaredJob) : solveEffects cr w env' ps job = solveEffects cr w env ps job := by
  obtain ⟨order, iter, rfl⟩ := h
  rfl

/-- The outcome when the matching entry `⟨r, job⟩` is visited first. -/
theorem effects_push_visitFirst {env : Env} {s : Engine} (hq : s.tdp.Quiet)
    (htdp : w.tdp = true) {ps : PushSolution} {r : RequestId} {job : DeclaredJob}
    (hjob : s.declaredJobs.lookup r = some job) (hm : job.Matches ps) :
    effects (env.visitFirst ⟨r, job⟩) (handlePushSolution cr w ps) s =
      solveEffects cr w env ps job := by
  rw [effects_push cr w _ hq, if_pos htdp, solutionJob_visitFirst hjob hm]
  exact solveEffects_reordered (reordered_visitFirst env _) ps job

/-- `handle_push_solution` is order independent exactly when, with a Template
    Provider wired, any two cached jobs that match the solution lead to the
    same outcome. -/
theorem push_order_independent_iff {s : Engine} (hs : Reachable cr w s) (env : Env)
    (ps : PushSolution) :
    OrderIndependent cr w env s ps ↔
      (w.tdp = true → ∀ r job r' job',
        s.declaredJobs.lookup r = some job → s.declaredJobs.lookup r' = some job' →
        job.Matches ps → job'.Matches ps → SolvesAlike cr w env ps job job') := by
  have hq := hs.quiet
  constructor
  · intro h htdp r job r' job' hjob hjob' hm hm'
    obtain ⟨hsame, -⟩ := h
    rw [solvesAlike_iff, ← effects_push_visitFirst hq htdp hjob hm,
      ← effects_push_visitFirst hq htdp hjob' hm']
    exact hsame _ _ (reordered_visitFirst env _) (reordered_visitFirst env _)
  · intro halike
    -- every order picks some matching job, and all of them agree
    have hpick : w.tdp = true → ∀ env₁, env.Reordered env₁ → ∀ r job,
        s.declaredJobs.lookup r = some job → job.Matches ps →
        effects env₁ (handlePushSolution cr w ps) s = solveEffects cr w env ps job := by
      intro htdp env₁ hre r job hjob hm
      rw [effects_push cr w env₁ hq, if_pos htdp]
      match hfound : env₁.solutionJob s ps with
      | none => exact absurd hm ((solutionJob_eq_none env₁).mp hfound r job hjob)
      | some e =>
        obtain ⟨he, hme⟩ := solutionJob_eq_some env₁ hfound
        exact (solveEffects_reordered hre ps e.2).trans
          ((solvesAlike_iff env ps e.2 job).mp (halike htdp _ _ _ _ he hjob hme hm))
    refine ⟨fun env₁ env₂ hre₁ hre₂ => ?_, fun htdp r job hjob hm env₁ hre => ?_⟩
    · by_cases htdp : w.tdp = true
      · match hfound : env₁.solutionJob s ps with
        | none =>
          have hnone : env₂.solutionJob s ps = none :=
            (solutionJob_eq_none env₂).mpr ((solutionJob_eq_none env₁).mp hfound)
          rw [effects_push cr w env₁ hq, effects_push cr w env₂ hq, hfound, hnone]
        | some e =>
          obtain ⟨he, hme⟩ := solutionJob_eq_some env₁ hfound
          rw [hpick htdp env₁ hre₁ _ _ he hme, hpick htdp env₂ hre₂ _ _ he hme]
      · rw [effects_push cr w env₁ hq, effects_push cr w env₂ hq, if_neg htdp, if_neg htdp]
    · rw [hpick htdp env₁ hre r job hjob hm, effects_solveWith cr w env₁ hq,
        solveEffects_reordered hre]

end

/-- With one of two jobs consumed, the other's solution is order
    independent. -/
theorem push_order_independent_single :
    OrderIndependent Sample.crates Sample.wiring Sample.online
      (Engine.new.after Sample.crates Sample.wiring
        (Sample.twoClients ++ [(Sample.online, .setCustom (Sample.customJob (U256.fill 1) [8]) 4)]))
      (Sample.solution (U256.fill 1)) := by
  refine (push_order_independent_iff (reachable_after _ _ _) _ _).mpr ?_
  intro _ r job r' job' hjob hjob' _ _
  have hentries : (Engine.new.after Sample.crates Sample.wiring (Sample.twoClients ++
      [(Sample.online, .setCustom (Sample.customJob (U256.fill 1) [8]) 4)])).declaredJobs.entries =
      [⟨7, Sample.job (U256.fill 1) 3 [9]⟩] := by decide +kernel
  rw [← DashMap.mem_entries_iff, hentries, List.mem_singleton] at hjob hjob'
  cases hjob
  cases hjob'
  exact ⟨rfl, fun _ => rfl⟩

/-- With both jobs cached, the block that is submitted depends on which of
    them is visited first. -/
theorem push_submits_either_block :
    let s := Engine.new.after Sample.crates Sample.wiring Sample.twoClients
    let ps := Sample.solution (U256.fill 1)
    let env₁ := Sample.online.visitFirst ⟨7, Sample.job (U256.fill 1) 3 [9]⟩
    let env₂ := Sample.online.visitFirst ⟨8, Sample.job (U256.fill 1) 4 [8]⟩
    effects env₁ (handlePushSolution Sample.crates Sample.wiring ps) s ≠
        effects env₂ (handlePushSolution Sample.crates Sample.wiring ps) s ∧
      ¬ OrderIndependent Sample.crates Sample.wiring Sample.online s ps := by
  intro s ps env₁ env₂
  have hne : effects env₁ (handlePushSolution Sample.crates Sample.wiring ps) s ≠
      effects env₂ (handlePushSolution Sample.crates Sample.wiring ps) s := by decide +kernel
  exact ⟨hne, fun h => hne (h.1 env₁ env₂ (reordered_visitFirst _ _) (reordered_visitFirst _ _))⟩

end Sv2P2pool
