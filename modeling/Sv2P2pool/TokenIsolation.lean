import Sv2P2pool.Runs

/-! # Token Isolation

    `allocated_tokens` maps a token to a request id and `declared_jobs` a
    request id to a job, and request ids are chosen by the clients. A token
    resolves to the job it last declared as long as no declaration is accepted
    under a request id that is in use by another token.
-/

namespace Sv2P2pool

open ByteCodec Bitcoin Interleave

section

variable {cr : Crates} {w : Wiring}

/-! ## Isolated runs -/

/-- The request id of the declaration is not in use by another token: no
    other token resolves to it, and a job cached under it was declared with
    the same token. -/
def RequestIdFree (s : Engine) (d : DeclareMiningJob) : Prop :=
  ∀ t, decodeToken d = some t →
    (∀ t', t' ≠ t → s.allocatedTokens.lookup t' ≠ some d.requestId) ∧
    ∀ job, s.declaredJobs.lookup d.requestId = some job → job.allocatedToken = some t

/-- A complete call that, when it is an accepted declaration, uses a free
    request id. -/
def IsolatedStep (cr : Crates) (w : Wiring) (s : Engine) (e : Done) (s' : Engine) : Prop :=
  CallStep cr w s e s' ∧ ∀ d pmts, e = ⟨.declare d pmts, .success⟩ → RequestIdFree s d

/-- The job was stored by the latest accepted declaration of the token in the
    run. -/
def StoredByLatest (cr : Crates) (w : Wiring) (log : List Done) (s : Engine) (t : JdToken)
    (job : DeclaredJob) : Prop :=
  ∃ log₁ log₂ d pmts s₁ s₂, log = log₁ ++ ⟨.declare d pmts, .success⟩ :: log₂ ∧
    Run cr w Engine.new log₁ s₁ ∧ CallStep cr w s₁ ⟨.declare d pmts, .success⟩ s₂ ∧
    Run cr w s₂ log₂ s ∧ decodeToken d = some t ∧
    s₂.declaredJobs.lookup d.requestId = some job ∧ job.allocatedToken = some t ∧
    ∀ d' pmts', ⟨.declare d' pmts', .success⟩ ∈ log₂ → decodeToken d' ≠ some t

/-- Every token that resolves to a cached job resolves to its own latest. -/
def Isolation (cr : Crates) (w : Wiring) (log : List Done) (s : Engine) : Prop :=
  ∀ t r job, s.allocatedTokens.lookup t = some r → s.declaredJobs.lookup r = some job →
    StoredByLatest cr w log s t job

/-! ## One step -/

/-- A later step that is no accepted declaration of the token. -/
theorem StoredByLatest.snoc {log : List Done} {s s' : Engine} {e : Done} {t : JdToken}
    {job : DeclaredJob} (h : StoredByLatest cr w log s t job) (hstep : CallStep cr w s e s')
    (hno : ∀ d pmts, e = ⟨.declare d pmts, .success⟩ → decodeToken d ≠ some t) :
    StoredByLatest cr w (log ++ [e]) s' t job := by
  obtain ⟨log₁, log₂, d, pmts, s₁, s₂, rfl, hrun₁, hdecl, hrun₂, htoken, hjob, hown, hlater⟩ := h
  refine ⟨log₁, log₂ ++ [e], d, pmts, s₁, s₂, by simp, hrun₁, hdecl,
    (Trace.snoc_iff _ _ _ _).mpr ⟨s, hrun₂, hstep⟩, htoken, hjob, hown, ?_⟩
  intro d' pmts' hmem
  rcases List.mem_append.mp hmem with hmem | hmem
  · exact hlater d' pmts' hmem
  · exact hno d' pmts' (List.mem_singleton.mp hmem).symm

/-- The declaration that is itself the latest. -/
theorem StoredByLatest.last {log : List Done} {s s' : Engine} {d : DeclareMiningJob}
    {pmts : Option ProvideMissingTransactionsSuccess} {t : JdToken} {job : DeclaredJob}
    (hrun : Run cr w Engine.new log s) (hstep : CallStep cr w s ⟨.declare d pmts, .success⟩ s')
    (htoken : decodeToken d = some t) (hjob : s'.declaredJobs.lookup d.requestId = some job)
    (hown : job.allocatedToken = some t) :
    StoredByLatest cr w (log ++ [⟨.declare d pmts, .success⟩]) s' t job :=
  ⟨log, [], d, pmts, s, s', rfl, hrun, hstep, rfl, htoken, hjob, hown, by simp⟩

theorem isolation_step {log : List Done} {s s' : Engine} {e : Done}
    (hrun : Run cr w Engine.new log s) (hinv : Isolation cr w log s)
    (hstep : IsolatedStep cr w s e s') : Isolation cr w (log ++ [e]) s' := by
  obtain ⟨hcall, hfree⟩ := hstep
  intro t r job htok hjob
  cases CallStep.maps hcall with
  | stored env d pmts t₀ txs hcheck hjobs htokens =>
    have htoken := (checkDeclaration_ok hcheck).1
    rw [htokens, DashMap.lookup_insert_eq] at htok
    split_ifs at htok with ht
    · subst ht
      cases htok
      have hself := hjob
      rw [hjobs, DashMap.lookup_insert_eq, if_pos rfl] at hself
      cases hself
      exact .last hrun hcall htoken hjob rfl
    · -- another token: its request id is not the declared one
      have hr : r ≠ d.requestId := by
        intro heq
        subst heq
        exact (hfree d pmts rfl t₀ htoken).1 t ht htok
      rw [hjobs, DashMap.lookup_insert_eq, if_neg hr] at hjob
      refine (hinv t r job htok hjob).snoc hcall ?_
      intro d' pmts' heq htoken'
      cases heq
      exact ht (Option.some.inj (htoken'.symm.trans htoken))
  -- nothing else binds a token, and entries only go
  | consumed m t₀ result hjobs htokens =>
    rw [htokens] at htok
    rw [hjobs] at hjob
    exact (hinv t r job (consume_allocatedTokens htok) (consume_declaredJobs hjob)).snoc hcall
      (by simp)
  | invalidated newTip hjobs htokens =>
    rw [htokens] at htok
    exact (hinv t r job htok (hjobs r job hjob)).snoc hcall (by simp)
  | kept _ hdecl hcustom hjobs htokens =>
    rw [htokens] at htok
    rw [hjobs] at hjob
    exact (hinv t r job htok hjob).snoc hcall fun d pmts heq => absurd heq (hdecl d pmts)

/-! ## Whole runs -/

theorem isolated_run {log : List Done} {s : Engine}
    (h : Trace (IsolatedStep cr w) Engine.new log s) :
    Run cr w Engine.new log s ∧ Isolation cr w log s := by
  refine Trace.history (P := fun log s => Run cr w Engine.new log s ∧ Isolation cr w log s)
    ⟨rfl, ?_⟩ ?_ log h
  · intro t r job htok
    simp [Engine.new] at htok
  · intro log s e s' h hstep
    obtain ⟨hrun, hinv⟩ := h
    exact ⟨(Trace.snoc_iff _ _ _ _).mpr ⟨s, hrun, hstep.1⟩, isolation_step hrun hinv hstep⟩

/-- In a run whose accepted declarations use free request ids: the job a
    custom job consumes is the one its token declared last, and a cached job
    only disappears in a reorg, by a new declaration of its own token or by
    the custom job of its own token. -/
theorem token_isolation {log : List Done} {s : Engine}
    (h : Trace (IsolatedStep cr w) Engine.new log s) :
    (∀ t job, (s.consume t).1 = some job → StoredByLatest cr w log s t job) ∧
    ∀ e s', IsolatedStep cr w s e s' → ∀ r job, s.declaredJobs.lookup r = some job →
      s'.declaredJobs.lookup r = some job ∨ (∃ newTip, e = ⟨.reorg newTip, ()⟩) ∨
      (∃ d pmts, e = ⟨.declare d pmts, .success⟩ ∧ decodeToken d = job.allocatedToken) ∨
      ∃ m t result, e = ⟨.setCustom m t, result⟩ ∧ job.allocatedToken = some t := by
  obtain ⟨-, hinv⟩ := isolated_run h
  refine ⟨?_, ?_⟩
  · intro t job hcons
    obtain ⟨r, htok, hjob⟩ := consume_eq_some hcons
    exact hinv t r job htok hjob
  · intro e s' hstep r job hjob
    cases CallStep.maps hstep.1 with
    | stored env d pmts t txs hcheck hjobs htokens =>
      by_cases hr : r = d.requestId
      · subst hr
        -- an overwritten job was declared with the same token
        have htoken := (checkDeclaration_ok hcheck).1
        have hown := (hstep.2 d pmts rfl t htoken).2 job hjob
        exact Or.inr (Or.inr (Or.inl ⟨d, pmts, rfl, htoken.trans hown.symm⟩))
      · rw [hjobs, DashMap.lookup_insert_eq, if_neg hr]
        exact Or.inl hjob
    | consumed m t result hjobs htokens =>
      match htok : s.allocatedTokens.lookup t with
      | none =>
        rw [hjobs, Engine.consume, htok]
        exact Or.inl hjob
      | some r' =>
        by_cases hr : r = r'
        · subst hr
          -- the invariant says whose job the token resolves to
          obtain ⟨_, _, _, _, _, _, -, -, -, -, -, -, hown, -⟩ := hinv t r job htok hjob
          exact Or.inr (Or.inr (Or.inr ⟨m, t, result, rfl, hown⟩))
        · rw [hjobs, Engine.consume, htok]
          simp only [DashMap.lookup_erase_eq, if_neg hr]
          exact Or.inl hjob
    | invalidated newTip hjobs htokens => exact Or.inr (Or.inl ⟨newTip, rfl⟩)
    | kept _ hdecl hcustom hjobs htokens =>
      rw [hjobs]
      exact Or.inl hjob

/-- A request id that neither map knows is free. -/
theorem requestIdFree_of_unused {s : Engine} {d : DeclareMiningJob}
    (htokens : (s.allocatedTokens.entries.all fun e => e.2 ≠ d.requestId) = true)
    (hjobs : s.declaredJobs.lookup d.requestId = none) : RequestIdFree s d := by
  intro t _
  refine ⟨fun t' _ htok => ?_, fun job hjob => ?_⟩
  · have hne := List.all_eq_true.mp htokens _ (AList.mem_lookup_iff.mp htok)
    exact of_decide_eq_true hne rfl
  · rw [hjobs] at hjob
    cases hjob

end

/-- The second client reuses the request id of the first. -/
def Sample.colliding : List (Env × Call) :=
  Sample.announce (U256.fill 1) ++
    [(Sample.online, Sample.declare 7 3 [9]), (Sample.online, Sample.declare 7 4 [8])]

theorem Sample.declare_isolated {s : Engine} (r : RequestId) (token : UInt8) (script : ScriptBuf)
    (htokens : (s.allocatedTokens.entries.all fun e => e.2 ≠ r) = true)
    (hjobs : s.declaredJobs.lookup r = none) :
    let answer := (Sample.declare r token script).perform Sample.crates Sample.wiring Sample.online s
    IsolatedStep Sample.crates Sample.wiring s ⟨Sample.declare r token script, answer.1⟩
      answer.2 := by
  refine ⟨⟨Sample.online, rfl⟩, ?_⟩
  intro d pmts heq
  obtain ⟨rfl, -⟩ : Sample.declaration r token script = d ∧ _ := by
    simpa [Sample.declare] using congrArg Sigma.fst heq
  exact requestIdFree_of_unused htokens hjobs

/-- With request ids of their own, the first client's token still resolves to
    its own job. -/
theorem token_isolation_two_clients :
    let s := Engine.new.after Sample.crates Sample.wiring Sample.twoClients
    let log := Engine.new.answers Sample.crates Sample.wiring Sample.twoClients
    (s.consume 3).1 = some (Sample.job (U256.fill 1) 3 [9]) ∧
    StoredByLatest Sample.crates Sample.wiring log s 3 (Sample.job (U256.fill 1) 3 [9]) := by
  intro s log
  have hcons : (s.consume 3).1 = some (Sample.job (U256.fill 1) 3 [9]) := by decide +kernel
  refine ⟨hcons, (token_isolation ?_).1 3 _ hcons⟩
  refine ⟨_, ⟨⟨Sample.online, rfl⟩, by simp⟩, _, ⟨⟨Sample.online, rfl⟩, by simp⟩, _,
    Sample.declare_isolated 7 3 [9] (by decide +kernel) (by decide +kernel), _,
    Sample.declare_isolated 8 4 [8] (by decide +kernel) (by decide +kernel), rfl⟩

/-- After a declaration under the request id of another token, the custom job
    of that token is checked against, and consumes, the other's job. -/
theorem token_resolves_to_other_job :
    let s := Engine.new.after Sample.crates Sample.wiring Sample.colliding
    Reachable Sample.crates Sample.wiring s ∧
    (s.consume 3).1 = some (Sample.job (U256.fill 1) 4 [8]) ∧
    (Sample.job (U256.fill 1) 4 [8]).allocatedToken ≠ some 3 ∧
    (run Sample.online.oracle (handleSetCustomMiningJob Sample.crates Sample.wiring
      (Sample.customJob (U256.fill 1) [8]) 3) s).1 = .success := by
  intro s
  exact ⟨reachable_after _ _ _, by decide +kernel, by decide, by decide +kernel⟩

end Sv2P2pool
