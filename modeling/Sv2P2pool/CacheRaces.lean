import Sv2P2pool.Overlap

/-! # The Job Cache under Overlapping Calls

    Jobs enter the cache through declarations only, so every job that any
    call takes out of it has passed their checks. What is not kept is that a
    job found for a solution is still the job read for it: a declaration may
    replace it in between.
-/

namespace Sv2P2pool

open ByteCodec Bitcoin Interleave

section

variable {ι : Type} [DecidableEq ι] {cr : Crates} {w : Wiring} {call : ι → JobCall}
  {labels : List (Label engineSig ι TemplateDistribution)}
  {c : Config engineSig Engine JobAnswer ι} {job : DeclaredJob}

/-! ## Cached jobs are well formed -/

/-- Steps 3 to 8 of a custom job neither index past the inputs of the declared
    coinbase nor stop at a check that the declaration has made already. -/
structure DeclaredJob.Checkable (cr : Crates) (job : DeclaredJob) (m : SetCustomMiningJob) :
    Prop where
  /-- `validated` is set and `txid_list` is there. -/
  validated : crossCheck cr job m ≠ .error .jobNotYetValidated
  /-- The coinbase decodes. -/
  decodes : crossCheck cr job m ≠ .error .invalidCoinbaseTx
  /-- `input[0]` is in bounds. -/
  input0 : ∀ tx, reconstructCoinbase cr job.coinbaseTxPrefix job.coinbaseTxSuffix = .ok tx →
    0 < tx.input.length

/-- The codes of steps 3 to 8 that say that a field of the message differs. -/
def Mismatch (code : SetCustomErrorCode) : Prop :=
  code ≠ .jobNotYetValidated ∧ code ≠ .invalidCoinbaseTx

/-- The check fails with a mismatch only. -/
def FailsByMismatch {α : Type} (x : Except SetCustomErrorCode α) : Prop :=
  ∀ code, x = .error code → Mismatch code

theorem FailsByMismatch.bind {α β : Type} {x : Except SetCustomErrorCode α}
    {f : α → Except SetCustomErrorCode β} (hx : FailsByMismatch x)
    (hf : ∀ a, x = .ok a → FailsByMismatch (f a)) : FailsByMismatch (x >>= f) := by
  intro code h
  cases x with
  | error e =>
    obtain rfl := Except.error.inj h
    exact hx e rfl
  | ok a => exact hf a rfl code h

theorem failsByMismatch_ensure {cond : Prop} [Decidable cond] {code : SetCustomErrorCode}
    (hcode : Mismatch code) : FailsByMismatch (ensure cond code) := by
  intro code' h
  unfold ensure at h
  split_ifs at h
  exact Except.error.inj h ▸ hcode

theorem failsByMismatch_checkTip (m : SetCustomMiningJob) : FailsByMismatch (checkTip job m) := by
  unfold checkTip
  split_ifs
  · refine FailsByMismatch.bind (failsByMismatch_ensure ?_) fun _ _ => failsByMismatch_ensure ?_
    · simp [Mismatch]
    · simp [Mismatch]
  · intro code h
    cases h

theorem failsByMismatch_checkCoinbase (h : job.Accepted cr) (m : SetCustomMiningJob) :
    FailsByMismatch (checkCoinbase cr job m) := by
  obtain ⟨tx, hcb, hone⟩ := h.coinbase
  obtain ⟨input0, hinput⟩ := List.length_eq_one_iff.mp hone
  unfold checkCoinbase
  rw [hcb]
  refine FailsByMismatch.bind (failsByMismatch_ensure (by simp [Mismatch])) fun _ _ => ?_
  rw [hinput]
  have hfields : FailsByMismatch (checkCoinbaseFields tx input0 m) := by
    unfold checkCoinbaseFields
    refine FailsByMismatch.bind (failsByMismatch_ensure (by simp [Mismatch])) fun _ _ => ?_
    refine FailsByMismatch.bind (failsByMismatch_ensure (by simp [Mismatch])) fun _ _ => ?_
    refine FailsByMismatch.bind (failsByMismatch_ensure (by simp [Mismatch])) fun _ _ => ?_
    exact failsByMismatch_ensure (by simp [Mismatch])
  refine hfields.bind fun _ _ code hcode => ?_
  cases hcode

/-- The cross-check of an accepted job finds mismatches only. -/
theorem failsByMismatch_crossCheck (h : job.Accepted cr) (m : SetCustomMiningJob) :
    FailsByMismatch (crossCheck cr job m) := by
  obtain ⟨txids, htxids⟩ := h.txids
  have hvalidated : FailsByMismatch (ensure (job.validated = true) .jobNotYetValidated) := by
    intro code hcode
    simp [ensure, h.validated] at hcode
  refine hvalidated.bind fun _ _ => (failsByMismatch_checkTip m).bind fun _ _ => ?_
  refine FailsByMismatch.bind (failsByMismatch_ensure (by simp [Mismatch])) fun _ _ => ?_
  refine (failsByMismatch_checkCoinbase h m).bind fun tx _ => ?_
  unfold checkMerklePath
  rw [htxids]
  exact failsByMismatch_ensure (by simp [Mismatch])

theorem DeclaredJob.Accepted.checkable (h : job.Accepted cr) (m : SetCustomMiningJob) :
    job.Checkable cr m where
  validated hcode := (failsByMismatch_crossCheck h m _ hcode).1 rfl
  decodes hcode := (failsByMismatch_crossCheck h m _ hcode).2 rfl
  input0 tx htx := by
    obtain ⟨tx', hcb, hone⟩ := h.coinbase
    rw [hcb] at htx
    cases htx
    omega

theorem Snapshot.accepted {d : DeclareMiningJob}
    {pmts : Option ProvideMissingTransactionsSuccess} {t : JdToken}
    (h : Snapshot cr d pmts t job) : job.Accepted cr := by
  obtain ⟨txs, tip, templateId, shareChainTip, hcheck, rfl⟩ := h
  exact ⟨rfl, ⟨_, rfl⟩, ⟨t, rfl⟩, (checkDeclaration_ok hcheck).2.1⟩

/-- A cached job was cached before or is inserted by this step. -/
theorem CacheStep.lookup_some {m m' : DashMap RequestId DeclaredJob} {e : Event engineSig}
    (h : CacheStep m e m') {r : RequestId} (hr : m'.lookup r = some job) :
    m.lookup r = some job ∨ e = ⟨.jobsInsert r job, ()⟩ := by
  cases h with
  | inserted r' job' =>
    rw [DashMap.lookup_insert_eq] at hr
    split_ifs at hr with heq
    · cases hr
      exact Or.inr (by rw [heq])
    · exact Or.inl hr
  | removed r' =>
    rw [DashMap.lookup_erase_eq] at hr
    split_ifs at hr
    exact Or.inl hr
  | cleared => cases hr
  | retained keep dropped => exact Or.inl ((DashMap.lookup_retain_eq_some _ _ _ _).mp hr).1
  | kept e he => exact Or.inl hr

/-- Every job in the cache and every job a call has taken out was accepted. -/
structure AllAccepted (cr : Crates) (c : Config engineSig Engine JobAnswer ι) : Prop where
  cached : JobsAccepted cr c.shared
  consumed : ∀ i r job, ⟨.jobsRemove r, some job⟩ ∈ (c.threads i).log → job.Accepted cr

theorem allAccepted (h : Trace JobStep (jobCalls cr w Engine.new call) labels c) :
    AllAccepted cr c := by
  refine Trace.run_induction (P := fun _ => AllAccepted cr) ?_ ?_ labels h
  · refine ⟨fun r job hjob => ?_, fun i r job hmem => ?_⟩
    · simp [jobCalls, Engine.new] at hjob
    · cases hmem
  · intro labels c l c' hrun hinv hstep
    cases hstep with
    | env msg => exact ⟨hinv.cached, hinv.consumed⟩
    | @thread j o k res s' hprog hI =>
      refine ⟨fun r job hjob => ?_, fun i r job hmem => ?_⟩
      · rcases (parInterp_cache hI).lookup_some hjob with hold | heq
        · exact hinv.cached r job hold
        · cases heq
          obtain ⟨d, pmts, t, -, -, hsnap, -⟩ := conforms_of_step hrun hprog
          exact hsnap.accepted
      · rcases mem_log_update.mp hmem with hmem | ⟨rfl, heq⟩
        · exact hinv.consumed i r job hmem
        · cases heq
          obtain ⟨env, henv⟩ := hI
          exact hinv.cached r job (Prod.mk.inj henv).1.symm

/-- A complete custom job never answers that its job is not yet validated. -/
theorem customVerdict_ne {env : Env} {m : SetCustomMiningJob} {consumed : Option DeclaredJob}
    (h : ∀ job, consumed = some job → job.Checkable cr m) :
    customVerdict cr w env m consumed ≠ .error .jobNotYetValidated := by
  intro hres
  cases consumed with
  | none => cases hres
  | some job =>
    cases hcross : crossCheck cr job m with
    | error code =>
      simp only [customVerdict, hcross] at hres
      cases hres
      exact (h job rfl).validated hcross
    | ok checked =>
      simp only [customVerdict, hcross] at hres
      have hreturns : (proposalCheck cr w job m).Returns fun result =>
          ∀ code, result = .error code → code = .invalidCoinbaseTx := returns_proposalCheck job m
      have hcode := hreturns.run env.oracle Engine.new .jobNotYetValidated
      rw [(run_proposalCheck cr w env new_quiet job m).1] at hcode
      cases hcode hres

/-- In every state the handlers can reach, one call after the other or in any
    interleaving, every cached job passed the checks of its declaration, and
    no custom job stops at one of them: for the job it has consumed the
    cross-check only finds mismatches, and its answer is never
    `job-not-yet-validated`. -/
theorem cached_jobs_checkable :
    (∀ s, Reachable cr w s → JobsAccepted cr s ∧ ∀ (env : Env) m t,
      (∀ job, (s.consume t).1 = some job → job.Checkable cr m) ∧
      (run env.oracle (handleSetCustomMiningJob cr w m t) s).1 ≠ .error .jobNotYetValidated) ∧
    (∀ (ι : Type) [DecidableEq ι] (call : ι → JobCall)
      (labels : List (Label engineSig ι TemplateDistribution))
      (c : Config engineSig Engine JobAnswer ι),
      Trace JobStep (jobCalls cr w Engine.new call) labels c → JobsAccepted cr c.shared ∧
      ∀ i m t, call i = .setCustom m t →
        (∀ r job, ⟨.jobsRemove r, some job⟩ ∈ (c.threads i).log → job.Checkable cr m) ∧
        (c.threads i).prog ≠ .ret (.custom (.error .jobNotYetValidated))) := by
  refine ⟨fun s hs => ⟨hs.jobsAccepted, fun env m t => ?_⟩,
    fun ι _ call labels c h => ⟨(allAccepted h).cached, fun i m t hcall => ⟨?_, fun hret => ?_⟩⟩⟩
  · have hcheck : ∀ job, (s.consume t).1 = some job → job.Checkable cr m := by
      intro job hjob
      obtain ⟨r, -, hr⟩ := consume_eq_some hjob
      exact (hs.jobsAccepted r job hr).checkable m
    rw [run_setCustom_result cr w env hs.quiet]
    exact ⟨hcheck, customVerdict_ne hcheck⟩
  · intro r job hmem
    exact ((allAccepted h).consumed i r job hmem).checkable m
  · obtain ⟨m', t', consumed, hcall', hconsumed, hanswer⟩ := concluded_of_trace h hret
    cases hconsumed with
    | unknown _ => cases hanswer
    | resolved r consumed _ _ hjob =>
      cases consumed with
      | none => cases hanswer
      | some job =>
        rcases hanswer with hcross | ⟨-, hcode⟩
        · exact (((allAccepted h).consumed i r job hjob).checkable m').validated hcross
        · cases hcode

end

/-- The custom job for the sample declaration is checked to the end. -/
theorem sample_job_checkable :
    let s := Engine.new.after Sample.crates Sample.wiring Sample.declared
    ∃ job, (s.consume 3).1 = some job ∧
      job.Checkable Sample.crates (Sample.customJob (U256.fill 1) [9]) := by
  intro s
  have hcached : ((s.consume 3).1).isSome = true := by decide +kernel
  obtain ⟨job, hjob⟩ := Option.isSome_iff_exists.mp hcached
  have hs : Reachable Sample.crates Sample.wiring s := reachable_after _ _ _
  exact ⟨job, hjob, ((cached_jobs_checkable.1 s hs).2 Sample.online _ 3).1 job hjob⟩

/-! ## The job of a solution -/

section

variable {ι : Type} [DecidableEq ι] {cr : Crates} {w : Wiring} {call : ι → JobCall}
  {labels : List (Label engineSig ι TemplateDistribution)}
  {c : Config engineSig Engine JobAnswer ι}

/-- The call has found the entry `r` for its solution and has not read it. -/
def Found (ps : PushSolution) (r : RequestId) (log : List (Event engineSig)) : Prop :=
  log.getLast? = some ⟨.jobsFindBySolution ps.prevHash ps.nbits ps.version, some r⟩

/-- The step does not replace an entry that a solution has found by a job that
    the solution does not match. -/
def Unreplaced (call : ι → JobCall) (c : Config engineSig Engine JobAnswer ι) :
    Label engineSig ι TemplateDistribution → Prop
  | .thread _ ⟨.jobsInsert r job, _⟩ =>
    ∀ i ps, call i = .push ps → Found ps r (c.threads i).log → job.Matches ps
  | _ => True

/-- A job that a solution has found or read matches it. -/
structure SolutionInv (call : ι → JobCall) (c : Config engineSig Engine JobAnswer ι) : Prop where
  found : ∀ i ps, call i = .push ps → ∀ r job, Found ps r (c.threads i).log →
    c.shared.declaredJobs.lookup r = some job → job.Matches ps
  read : ∀ i ps, call i = .push ps → ∀ r job, ⟨.jobsGet r, some job⟩ ∈ (c.threads i).log →
    job.Matches ps

/-- The last event of a log after a step of one thread. -/
theorem found_update {threads : ι → Thread engineSig JobAnswer} {i j : ι}
    {p : Handler JobAnswer} {e : Event engineSig} {ps : PushSolution} {r : RequestId}
    (h : Found ps r (Function.update threads j ⟨p, (threads j).log ++ [e]⟩ i).log) :
    i = j ∧ e = ⟨.jobsFindBySolution ps.prevHash ps.nbits ps.version, some r⟩ ∨
      Found ps r (threads i).log := by
  by_cases hij : i = j
  · subst hij
    exact Or.inl ⟨rfl, by simpa [Found] using h⟩
  · exact Or.inr (by simpa [hij] using h)

theorem solutionInv (h : Trace (fun c l c' => JobStep c l c' ∧ Unreplaced call c l)
    (jobCalls cr w Engine.new call) labels c) : SolutionInv call c := by
  refine Trace.run_induction (P := fun _ => SolutionInv call) ?_ ?_ labels h
  · refine ⟨fun i ps _ r job hfound => ?_, fun i ps _ r job hmem => ?_⟩
    · cases hfound
    · cases hmem
  · intro labels c l c' hrun hinv hstep
    replace hrun : Trace JobStep _ labels c := hrun.imp fun _ _ _ h => h.1
    obtain ⟨hstep, hkept⟩ := hstep
    cases hstep with
    | env msg => exact ⟨hinv.found, hinv.read⟩
    -- the entry found is kept, removed, or replaced by one that matches too
    | @thread j o k res s' hprog hI =>
      refine ⟨fun i ps hcall r job hfound hjob => ?_, fun i ps hcall r job hmem => ?_⟩
      · rcases found_update hfound with ⟨rfl, heq⟩ | hbefore
        · -- found in this step, in the same map
          cases heq
          obtain ⟨job', hjob', hmatch⟩ := parInterp_jobsFind hI
          rcases (parInterp_cache hI).lookup_some hjob with hold | heq
          · obtain rfl := Option.some.inj (hold.symm.trans hjob')
            exact hmatch
          · cases heq
        · rcases (parInterp_cache hI).lookup_some hjob with hold | heq
          · exact hinv.found i ps hcall r job hbefore hold
          · cases heq
            exact hkept i ps hcall hbefore
      · rcases mem_log_update.mp hmem with hmem | ⟨rfl, heq⟩
        · exact hinv.read i ps hcall r job hmem
        · cases heq
          obtain ⟨ps', hcall', hfound⟩ := conforms_of_step hrun hprog
          rw [hcall] at hcall'
          cases hcall'
          exact hinv.found i ps hcall r job hfound (parInterp_jobsGet hI).symm

/-- In a run in which no declaration replaces the entry a solution has found by
    a job the solution does not match, the job read for a solution matches it,
    and so does the job every block is rebuilt from. -/
theorem solution_job_matches (h : Trace (fun c l c' => JobStep c l c' ∧ Unreplaced call c l)
    (jobCalls cr w Engine.new call) labels c) {i : ι} {ps : PushSolution}
    (hcall : call i = .push ps) :
    (∀ r job, ⟨.jobsGet r, some job⟩ ∈ (c.threads i).log → job.Matches ps) ∧
    (∀ block, ⟨.spawnSubmitBlock block, ()⟩ ∈ (c.threads i).log → ∃ job txBodies,
      job.Matches ps ∧ reconstructBlock cr job ps txBodies = .ok block) := by
  have hinv := solutionInv h
  refine ⟨fun r job hmem => hinv.read i ps hcall r job hmem, fun block hmem => ?_⟩
  have hlogged := (conforms_of_trace (h.imp fun _ _ _ h => h.1) i).2
  obtain ⟨before, hsub, ps', r, job, txBodies, hcall', hget, hblock⟩ := hlogged.mem hmem
  rw [hcall] at hcall'
  cases hcall'
  exact ⟨job, txBodies, hinv.read i ps hcall r job (hsub hget), hblock⟩

end

namespace Sample

/-- A declaration, a second one under its request id, and a solution of the
    first. -/
def replacing : Fin 3 → JobCall
  | 0 => declaring 7 3
  | 1 => declaring 7 3
  | 2 => .push (solution (U256.fill 1))

def replacingCalls : Config engineSig Engine JobAnswer (Fin 3) :=
  jobCalls crates wiring Engine.new replacing

def newTip (prevHash : BlockHash) : Fin 3 ⊕ TemplateDistribution :=
  .inr (.setNewPrevHash ⟨1, prevHash, 0, 9⟩)

/-- The first declaration is made on the tip `[1; 32]`. -/
def declaredFirst : List (Fin 3 ⊕ TemplateDistribution) :=
  [.inr (.newTemplate ⟨1, false⟩), newTip (U256.fill 1)] ++ List.replicate 6 (.inl 0)

/-- The rest of the solution, from the read of its job. -/
def solved : List (Fin 3 ⊕ TemplateDistribution) :=
  [.inl 2, .inl 2, .inl 2, .inr (.requestTransactionDataSuccess 1 [body.serialize])] ++
    List.replicate 5 (.inl 2)

/-- The solution is handled with nothing in between. -/
def unreplaced : List (Fin 3 ⊕ TemplateDistribution) := declaredFirst ++ [.inl 2, .inl 2] ++ solved

/-- The second declaration is made on the tip `[2; 32]` and inserts its job
    between the two lookups of the solution. -/
def replaced : List (Fin 3 ⊕ TemplateDistribution) :=
  declaredFirst ++ [newTip (U256.fill 2), .inl 1, .inl 1, .inl 1, .inl 2, .inl 2, .inl 1] ++ solved

/-- The job a lookup has read. -/
def jobRead : Event engineSig → Option (RequestId × DeclaredJob)
  | ⟨.jobsGet r, some job⟩ => some (r, job)
  | _ => none

theorem jobRead_eq_some {e : Event engineSig} {r : RequestId} {job : DeclaredJob}
    (h : jobRead e = some (r, job)) : e = ⟨.jobsGet r, some job⟩ := by
  obtain ⟨o, res⟩ := e
  cases o with
  | jobsGet r' =>
    cases res with
    | none => cases h
    | some job' =>
      cases h
      rfl
  | _ => cases h

/-- Insertions before the solution starts replace nothing. -/
theorem unreplaced_of_idle {c : Config engineSig Engine JobAnswer (Fin 3)}
    {l : Label engineSig (Fin 3) TemplateDistribution}
    (h : ((jobInserted l).isNone || (c.threads 2).log.isEmpty) = true) :
    Unreplaced replacing c l := by
  rcases l with ⟨j, o, res⟩ | msg
  · cases o with
    | jobsInsert r job =>
      intro i ps hcall hfound
      have hcases : ∀ i : Fin 3, i = 0 ∨ i = 1 ∨ i = 2 := by decide
      rcases hcases i with rfl | rfl | rfl
      · cases hcall
      · cases hcall
      · have hlog : (c.threads 2).log = [] := by simpa [jobInserted] using h
        rw [Found, hlog] at hfound
        cases hfound
    | _ => trivial
  · trivial

end Sample

/-- The block of the sample solution is rebuilt from a job it matches. -/
theorem sample_solution_job_matches :
    let c := Sample.replacingCalls.play Sample.online.parStep teeAct Sample.unreplaced
    c.shared.submitted.length = 1 ∧
    ∀ r job, ⟨.jobsGet r, some job⟩ ∈ (c.threads 2).log →
      job.Matches (Sample.solution (U256.fill 1)) := by
  intro c
  have hidle : ((Sample.replacingCalls.moves Sample.online.parStep teeAct Sample.unreplaced).all
      fun x => (jobInserted x.2).isNone || (x.1.threads 2).log.isEmpty) = true := by decide +kernel
  have htrace : Trace (fun c l c' => JobStep c l c' ∧ Unreplaced Sample.replacing c l)
      Sample.replacingCalls _ c :=
    Config.moves_trace _ teeAct (parStep_interp Sample.online) _ _ fun x hx =>
      Sample.unreplaced_of_idle (List.all_eq_true.mp hidle x hx)
  exact ⟨by decide +kernel, (solution_job_matches htrace rfl).1⟩

/-- A block is rebuilt and submitted from a job on the tip `[2; 32]` for a
    solution on the tip `[1; 32]`. -/
theorem solution_rebuilt_from_replaced_job :
    let c := Sample.replacingCalls.play Sample.online.parStep teeAct Sample.replaced
    Trace JobStep Sample.replacingCalls (Sample.played Sample.replacingCalls Sample.replaced) c ∧
    Sample.replacing 2 = .push (Sample.solution (U256.fill 1)) ∧
    c.shared.submitted.length = 1 ∧
    ∃ r job, ⟨.jobsGet r, some job⟩ ∈ (c.threads 2).log ∧
      ¬ job.Matches (Sample.solution (U256.fill 1)) := by
  intro c
  have hread : (((c.threads 2).log.filterMap Sample.jobRead).any fun x =>
      decide (¬ x.2.Matches (Sample.solution (U256.fill 1)))) = true := by decide +kernel
  obtain ⟨⟨r, job⟩, hmem, hjob⟩ := List.any_eq_true.mp hread
  obtain ⟨e, he, heq⟩ := List.mem_filterMap.mp hmem
  rw [Sample.jobRead_eq_some heq] at he
  exact ⟨Sample.played_run Sample.replacingCalls Sample.replaced, rfl, by decide +kernel, r, job,
    he, of_decide_eq_true hjob⟩

end Sv2P2pool
