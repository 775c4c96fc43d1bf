import Sv2P2pool.Waiters

/-! # A Found Block and Concurrent Fetches

    A `PushSolution` needs the transaction bodies of its job's template, and
    fetches them through the same waiter table as every other handler. While
    custom jobs and other solutions on the same template run next to it, the
    block is submitted as long as its own request finds the slot of the
    template free; a refused request drops the solution.
-/

namespace Sv2P2pool

open ByteCodec Bitcoin Interleave

/-! ## Calls that fetch -/

/-- The calls that fetch transaction bodies. -/
inductive FetchCall where
  | setCustom (m : SetCustomMiningJob) (t : JdToken)
  | push (ps : PushSolution)

section

variable (cr : Crates) (w : Wiring)

def FetchCall.prog : FetchCall → Handler Unit
  | .setCustom m t => handleSetCustomMiningJob cr w m t >>= fun _ => pure ()
  | .push ps => handlePushSolution cr w ps

variable {cr w} {α : Type} {log : List (Event engineSig)}

/-! ### They use the table in order -/

/-- An operation outside the table is allowed at any time. -/
theorem orderly_of_writes {l : List Region} (hl : .requests ∉ l) (log : List (Event engineSig))
    (o : Op) (ho : ∀ r, o.writes = some r → r ∈ l) : Orderly log o := by
  cases o with
  | awaitResponse k waiter => exact absurd (ho _ rfl) hl
  | removePending k => exact absurd (ho _ rfl) hl
  | _ => trivial

theorem Untouched.snoc {l : List Region} (hl : .requests ∉ l) (log : List (Event engineSig))
    (o : Op) (r : o.Res) (h : Untouched log) (ho : ∀ r, o.writes = some r → r ∈ l) :
    Untouched (log ++ [⟨o, r⟩]) := by
  have hreg : ∀ k, o ≠ .registerRequest k := by
    intro k heq
    subst heq
    exact hl (ho _ rfl)
  have hawait : ∀ k waiter, o ≠ .awaitResponse k waiter := by
    intro k waiter heq
    subst heq
    exact hl (ho _ rfl)
  have hremove : ∀ k, o ≠ .removePending k := by
    intro k heq
    subst heq
    exact hl (ho _ rfl)
  refine ⟨fun k waiter hmem => ?_, fun k waiter x hmem => ?_, fun k hmem => ?_⟩
  · rcases List.mem_append.mp hmem with hmem | hmem
    · exact h.registered k waiter hmem
    · exact hreg k (congrArg Sigma.fst (List.mem_singleton.mp hmem)).symm
  · rcases List.mem_append.mp hmem with hmem | hmem
    · exact h.waited k waiter x hmem
    · exact hawait k waiter (congrArg Sigma.fst (List.mem_singleton.mp hmem)).symm
  · rcases List.mem_append.mp hmem with hmem | hmem
    · exact h.removed k hmem
    · exact hremove k (congrArg Sigma.fst (List.mem_singleton.mp hmem)).symm

/-- A program that stays outside the table, before the fetch. -/
theorem untouched_spec {l : List Region} {p : Handler α} (h : WritesOnly l p)
    (hl : .requests ∉ l) (hlog : Untouched log) :
    p.Spec Orderly (fun log' _ => Untouched log') log :=
  Prog.Only.spec (orderly_of_writes hl)
    (fun log o r hlog ho => Untouched.snoc hl log o r hlog ho) h hlog

/-- A program that stays outside the table, at any time. -/
theorem orderly_spec {l : List Region} {p : Handler α} (h : WritesOnly l p)
    (hl : .requests ∉ l) : p.Spec Orderly (fun _ _ => True) log :=
  Prog.Only.spec (orderly_of_writes hl) (fun _ _ _ _ _ => trivial) h trivial

theorem proposalCheck_orderly (hlog : Untouched log) (declared : DeclaredJob)
    (m : SetCustomMiningJob) :
    (proposalCheck cr w declared m).Spec Orderly (fun _ _ => True) log := by
  have hskip : (bump w .setCustomMiningJobValidationSkipped 1 >>= fun _ =>
      (pure .success : Handler SetCustomMiningJobResult)).Spec Orderly (fun _ _ => True) log :=
    orderly_spec ((writesOnly_bump w _ _).bind fun _ => trivial) (by simp)
  unfold proposalCheck
  cases w.tdp with
  | false => exact hskip
  | true =>
    cases w.handles with
    | false => exact hskip
    | true =>
      cases declared.templateId with
      | none => exact hskip
      | some k =>
        refine Prog.Spec.bind (fun log' bodies _ => ?_) (requestTxBodies_orderly k hlog)
        cases bodies with
        | error e => exact orderly_spec ((writesOnly_bump w _ _).bind fun _ => trivial) (by simp)
        | ok txBodies =>
          simp only
          cases buildCandidateBlock cr declared m txBodies with
          | error e => trivial
          | ok candidate => exact orderly_spec (writesOnly_proposeCandidate w candidate) (by simp)

theorem setCustom_orderly (m : SetCustomMiningJob) (t : JdToken) :
    (handleSetCustomMiningJob cr w m t).Spec Orderly (fun _ _ => True) [] := by
  have hresult : ∀ log result,
      (setCustomResult w result).Spec Orderly (fun _ _ => True) log := fun log result =>
    orderly_spec (writesOnly_setCustomResult w result) (by simp)
  refine Prog.Spec.bind (fun log declared hlog => ?_)
    (untouched_spec (writesOnly_consumeDeclared t) (by simp) untouched_nil)
  cases declared with
  | none => exact hresult log (.error .invalidMiningJobToken)
  | some job =>
    simp only [validateCustom]
    cases crossCheck cr job m with
    | error code => exact hresult log _
    | ok checked =>
      exact Prog.Spec.bind (fun log' result _ => hresult log' result)
        (proposalCheck_orderly hlog job m)

theorem solveWith_orderly (hlog : Untouched log) (ps : PushSolution) (declared : DeclaredJob) :
    (solveWith cr w ps declared).Spec Orderly (fun _ _ => True) log := by
  unfold solveWith
  cases declared.templateId with
  | none => exact ⟨trivial, fun _ => orderly_spec (writesOnly_bump w _ _) (by simp)⟩
  | some k =>
    refine Prog.Spec.bind (fun log' bodies _ => ?_) (requestTxBodies_orderly k hlog)
    cases bodies with
    | error e => exact orderly_spec (writesOnly_bump w _ _) (by simp)
    | ok txBodies =>
      simp only
      cases reconstructBlock cr declared ps txBodies with
      | error e => exact orderly_spec (writesOnly_bump w _ _) (by simp)
      | ok block => exact orderly_spec (writesOnly_deliverBlock cr w ps declared block) (by simp)

theorem push_orderly (ps : PushSolution) :
    (handlePushSolution cr w ps).Spec Orderly (fun _ _ => True) [] := by
  refine Prog.Spec.bind (fun log _ hlog => ?_)
    (untouched_spec (writesOnly_bump w _ _) (by simp) untouched_nil)
  split_ifs
  · refine Prog.Spec.bind (fun log' found hlog' => ?_)
      (untouched_spec (writesOnly_lookupSolution ps) List.not_mem_nil hlog)
    cases found with
    | error reason => exact orderly_spec (writesOnly_bump w _ _) (by simp)
    | ok declared => exact solveWith_orderly hlog' ps declared
  · exact ⟨trivial, fun _ => orderly_spec (writesOnly_bump w _ _) (by simp)⟩

/-- The operation neither adds a cached job nor drops several. -/
def Op.shrinks : Op → Prop
  | .jobsInsert _ _ | .jobsClear | .jobsRetain _ => False
  | _ => True

/-- The bodies of template `k` are the job's, and its coinbase takes the
    solution's extranonce. -/
structure DeclaredJob.Fits (cr : Crates) (job : DeclaredJob) (ps : PushSolution) (k : UInt64)
    (bodies : List Transaction) : Prop where
  template : job.templateId = some k
  txids : job.txidList = some (bodies.map cr.computeTxid)
  coinbase : ∃ cb, reconstructCoinbaseWithExtranonce cr job.coinbaseTxPrefix ps.extranonce
    job.coinbaseTxSuffix = .ok cb

theorem DeclaredJob.Fits.block {job : DeclaredJob} {ps : PushSolution} {k : UInt64}
    {bodies : List Transaction} (h : job.Fits cr ps k bodies) :
    ∃ b, reconstructBlock cr job ps bodies = .ok b := by
  obtain ⟨cb, hcb⟩ := h.coinbase
  exact ⟨_, reconstructBlock_eq_ok.mpr ⟨h.txids, cb, hcb, rfl⟩⟩

/-- An event after which the solution is dropped. -/
def Drops (cr : Crates) (ps : PushSolution) (k : UInt64) (bodies : List Transaction) :
    Event engineSig → Prop
  | ⟨.jobsFindBySolution _ _ _, found⟩ => found = none
  | ⟨.jobsGet _, job⟩ => ¬ ∃ declared, job = some declared ∧ declared.Fits cr ps k bodies
  | ⟨.registerRequest _, waiter⟩ => waiter = none
  | ⟨.sendRequest _, taken⟩ => taken = false
  | ⟨.awaitResponse _ _, .received result⟩ => decodeTxData cr k result ≠ .ok bodies
  | ⟨.awaitResponse _ _, _⟩ => True
  | ⟨.bump (.pushSolutionDropped _) _, _⟩ => True
  | _ => False

/-- Until something drops it, a solution looks its job up, fetches template `k`
    and counts no drop. -/
def Pursued (cr : Crates) (ps : PushSolution) (k : UInt64) (bodies : List Transaction)
    (log : List (Event engineSig)) (o : Op) : Prop :=
  (∃ e ∈ log, Drops cr ps k bodies e) ∨
    match o with
    | .jobsFindBySolution prevHash nbits version =>
      prevHash = ps.prevHash ∧ nbits = ps.nbits ∧ version = ps.version
    | .jobsGet r => ⟨.jobsFindBySolution ps.prevHash ps.nbits ps.version, some r⟩ ∈ log
    | .registerRequest k' => k' = k
    | .awaitResponse k' _ => k' = k ∧ ⟨.sendRequest k, true⟩ ∈ log
    | .jobsRemove _ => False
    | .bump (.pushSolutionDropped _) _ => False
    | _ => True

/-- The block of the job the solution found was handed to `submit_block`. -/
def Submitted (cr : Crates) (ps : PushSolution) (bodies : List Transaction)
    (log : List (Event engineSig)) : Prop :=
  ∃ r job b, ⟨.jobsGet r, some job⟩ ∈ log ∧ reconstructBlock cr job ps bodies = .ok b ∧
    ⟨.spawnSubmitBlock b, ()⟩ ∈ log

/-- What holds when the handler returns. -/
def Delivered (cr : Crates) (ps : PushSolution) (k : UInt64) (bodies : List Transaction)
    (log : List (Event engineSig)) : Prop :=
  (∃ e ∈ log, Drops cr ps k bodies e) ∨ Submitted cr ps bodies log

section solution

variable {ps : PushSolution} {k : UInt64} {bodies : List Transaction}

end solution

/-! ## Overlapping fetches -/

section overlapping

variable {ι : Type} [DecidableEq ι]

/-- The Template Provider answers every request it receives with a success,
    before the timeout; for template `k` it sends the bodies. No call takes a
    job of the solution out of the cache. -/
def bodiesAnswered (cr : Crates) (ps : PushSolution) (k : UInt64) (bodies : List Transaction) :
    Label engineSig ι TemplateDistribution → Bool
  | .thread _ ⟨.awaitResponse _ _, .elapsed⟩ => false
  | .thread _ ⟨.jobsRemove _, some job⟩ => ¬ job.Matches ps
  | .env (.requestTransactionDataSuccess k' transactionList) =>
    k' ≠ k || transactionList.mapM cr.consensusDecode = some bodies
  | .env (.requestTransactionDataError _ _) => false
  | _ => true

/-- The solution's request finds no other request for its template in flight,
    and the channel to the Template Provider takes every request. -/
def unobstructed (p : ι) (s : Engine) : Label engineSig ι TemplateDistribution → Bool
  | .thread i ⟨.registerRequest k, _⟩ => i ≠ p || (s.tdp.pendingRequests.lookup k).isNone
  | .thread _ ⟨.sendRequest _, taken⟩ => taken
  | _ => true

/-- The logs in an answered, unobstructed run hold no failure. -/
def NoFailure (log : List (Event engineSig)) : Prop :=
  (∀ k, ⟨.sendRequest k, false⟩ ∉ log) ∧ ∀ k waiter, ⟨.awaitResponse k waiter, .elapsed⟩ ∉ log

/-- Who a waiter belongs to and what is sent to it. -/
structure BodiesInv (cr : Crates) (k : UInt64) (bodies : List Transaction)
    (c : Config engineSig Engine Unit ι) : Prop where
  pending_lt : ∀ k' waiter, c.shared.tdp.pendingRequests.lookup k' = some waiter →
    waiter < c.shared.tdp.nextOneshot
  oneshots_lt : ∀ waiter result, c.shared.tdp.oneshots.lookup waiter = some result →
    waiter < c.shared.tdp.nextOneshot
  /-- The table holds a waiter under the template it was registered for. -/
  keys : ∀ i k₁ k₂ waiter, c.shared.tdp.pendingRequests.lookup k₁ = some waiter →
    ⟨.registerRequest k₂, some waiter⟩ ∈ (c.threads i).log → k₂ = k₁
  /-- What was sent to a waiter for template `k` are the bodies. -/
  sent : ∀ i waiter result, ⟨.registerRequest k, some waiter⟩ ∈ (c.threads i).log →
    c.shared.tdp.oneshots.lookup waiter = some result → decodeTxData cr k result = .ok bodies

variable {ps : PushSolution} {k : UInt64} {bodies : List Transaction}
  {c c' : Config engineSig Engine Unit ι}

theorem BodiesInv.kept (hinv : BodiesInv cr k bodies c) {j : ι} {e : Event engineSig}
    {s' : Engine} {p : Handler Unit}
    (hreg : ∀ k waiter, e ≠ ⟨.registerRequest k, some waiter⟩)
    (hpending : ∀ k' waiter, s'.tdp.pendingRequests.lookup k' = some waiter →
      c.shared.tdp.pendingRequests.lookup k' = some waiter)
    (honeshots : ∀ waiter result, s'.tdp.oneshots.lookup waiter = some result →
      c.shared.tdp.oneshots.lookup waiter = some result)
    (hnext : s'.tdp.nextOneshot = c.shared.tdp.nextOneshot) :
    BodiesInv cr k bodies ⟨s', Function.update c.threads j ⟨p, (c.threads j).log ++ [e]⟩⟩ where
  pending_lt k' waiter h := by
    rw [hnext]
    exact hinv.pending_lt k' waiter (hpending k' waiter h)
  oneshots_lt waiter result h := by
    rw [hnext]
    exact hinv.oneshots_lt waiter result (honeshots waiter result h)
  keys i k₁ k₂ waiter h hmem :=
    hinv.keys i k₁ k₂ waiter (hpending k₁ waiter h) (registration_of_update hreg hmem)
  sent i waiter result hmem h :=
    hinv.sent i waiter result (registration_of_update hreg hmem) (honeshots waiter result h)

theorem BodiesInv.registered (hinv : BodiesInv cr k bodies c) (hwait : WaiterInv c) {j : ι}
    {s' : Engine} {p : Handler Unit} {k₀ : UInt64}
    (htdp : s'.tdp = { c.shared.tdp with
      pendingRequests := c.shared.tdp.pendingRequests.insert k₀ c.shared.tdp.nextOneshot
      nextOneshot := c.shared.tdp.nextOneshot + 1 }) :
    BodiesInv cr k bodies ⟨s', Function.update c.threads j ⟨p, (c.threads j).log ++
      [⟨.registerRequest k₀, some c.shared.tdp.nextOneshot⟩]⟩⟩ where
  pending_lt k' waiter h := by
    rw [htdp] at h ⊢
    simp only [DashMap.lookup_insert_eq] at h
    split_ifs at h
    · cases h
      exact Nat.lt_succ_self _
    · exact Nat.lt_succ_of_lt (hinv.pending_lt k' waiter h)
  oneshots_lt waiter result h := by
    rw [htdp] at h ⊢
    exact Nat.lt_succ_of_lt (hinv.oneshots_lt waiter result h)
  keys i k₁ k₂ waiter h hmem := by
    rw [htdp] at h
    simp only [DashMap.lookup_insert_eq] at h
    -- the new waiter is nobody else's, and no old entry holds it
    split_ifs at h with hk
    · cases h
      rcases mem_log_update.mp hmem with hmem | ⟨-, heq⟩
      · exact absurd (hwait.fresh i k₂ _ hmem) (lt_irrefl _)
      · cases heq
        exact hk.symm
    · rcases mem_log_update.mp hmem with hmem | ⟨-, heq⟩
      · exact hinv.keys i k₁ k₂ waiter h hmem
      · cases heq
        exact absurd (hinv.pending_lt k₁ _ h) (lt_irrefl _)
  sent i waiter result hmem h := by
    rw [htdp] at h
    rcases mem_log_update.mp hmem with hmem | ⟨-, heq⟩
    · exact hinv.sent i waiter result hmem h
    · cases heq
      exact absurd (hinv.oneshots_lt _ result h) (lt_irrefl _)

omit [DecidableEq ι] in
theorem BodiesInv.tee (hinv : BodiesInv cr k bodies c) {msg : TemplateDistribution}
    (hans : bodiesAnswered (ι := ι) cr ps k bodies (.env msg) = true) :
    BodiesInv cr k bodies ⟨teeAct msg c.shared, c.threads⟩ := by
  cases msg with
  | setNewPrevHash msg => exact ⟨hinv.pending_lt, hinv.oneshots_lt, hinv.keys, hinv.sent⟩
  | newTemplate msg => exact ⟨hinv.pending_lt, hinv.oneshots_lt, hinv.keys, hinv.sent⟩
  | other => exact hinv
  | requestTransactionDataError k' code => cases hans
  | requestTransactionDataSuccess k₀ transactionList =>
    cases hslot : c.shared.tdp.pendingRequests.lookup k₀ with
    | none =>
      have hsame : teeAct (.requestTransactionDataSuccess k₀ transactionList) c.shared =
          c.shared := by simp [teeAct, TdpHandle.observe, TdpHandle.deliverResponse, hslot]
      rw [hsame]
      exact hinv
    | some waiter₀ =>
      have htdp : (teeAct (.requestTransactionDataSuccess k₀ transactionList) c.shared).tdp =
          { c.shared.tdp with
            pendingRequests := c.shared.tdp.pendingRequests.erase k₀
            oneshots := c.shared.tdp.oneshots.insert waiter₀ (.success transactionList) } := by
        simp [teeAct, TdpHandle.observe, TdpHandle.deliverResponse, hslot]
      -- the waiter leaves the table and its one-shot is filled
      refine ⟨fun k' waiter h => ?_, fun waiter result h => ?_, fun i k₁ k₂ waiter h hmem => ?_,
        fun i waiter result hmem h => ?_⟩
      · rw [htdp] at h ⊢
        simp only [DashMap.lookup_erase_eq] at h
        split_ifs at h
        exact hinv.pending_lt k' waiter h
      · rw [htdp] at h ⊢
        simp only [DashMap.lookup_insert_eq] at h
        split_ifs at h with hw
        · rw [hw]
          exact hinv.pending_lt k₀ waiter₀ hslot
        · exact hinv.oneshots_lt waiter result h
      · rw [htdp] at h
        simp only [DashMap.lookup_erase_eq] at h
        split_ifs at h
        exact hinv.keys i k₁ k₂ waiter h hmem
      · rw [htdp] at h
        simp only [DashMap.lookup_insert_eq] at h
        split_ifs at h with hw
        · -- the response came for the template of the registration
          cases h
          subst hw
          obtain rfl := hinv.keys i k₀ k waiter hslot hmem
          have hbodies : transactionList.mapM cr.consensusDecode = some bodies := by
            simpa [bodiesAnswered] using hans
          simp [decodeTxData, hbodies]
        · exact hinv.sent i waiter result hmem h

/-- Everything that holds along an answered, unobstructed run. -/
structure FetchInv (cr : Crates) (ps : PushSolution) (k : UInt64) (bodies : List Transaction)
    (s₀ : Engine) (p : ι) (c : Config engineSig Engine Unit ι) : Prop where
  waiters : WaiterInv c
  orderly : ∀ i, (c.threads i).prog.Spec Orderly (fun _ _ => True) (c.threads i).log
  shrinks : ∀ i, (c.threads i).prog.Only Op.shrinks
  noFailure : ∀ i, NoFailure (c.threads i).log
  table : BodiesInv cr k bodies c
  /-- The jobs of the solution stay, and no job is added. -/
  jobs_kept : ∀ r job, s₀.declaredJobs.lookup r = some job → job.Matches ps →
    c.shared.declaredJobs.lookup r = some job
  jobs_old : ∀ r job, c.shared.declaredJobs.lookup r = some job →
    s₀.declaredJobs.lookup r = some job
  pursued : (c.threads p).prog.Spec (Pursued cr ps k bodies)
    (fun log _ => Delivered cr ps k bodies log) (c.threads p).log
  clean : ∀ e ∈ (c.threads p).log, ¬ Drops cr ps k bodies e
  found : ∀ r, ⟨.jobsFindBySolution ps.prevHash ps.nbits ps.version, some r⟩ ∈
    (c.threads p).log → ∃ job, s₀.declaredJobs.lookup r = some job ∧ job.Matches ps
  within : ∃ m, (c.threads p).prog.Within m ∧ (c.threads p).log.length + m = 11

/-- The cache holds a job of the solution, and all such jobs fit. -/
structure Solvable (cr : Crates) (ps : PushSolution) (k : UInt64) (bodies : List Transaction)
    (s : Engine) : Prop where
  cached : ∃ r job, s.declaredJobs.lookup r = some job ∧ job.Matches ps
  fits : ∀ r job, s.declaredJobs.lookup r = some job → job.Matches ps → job.Fits cr ps k bodies

variable {s₀ : Engine} {p : ι}

/-- No call is at its cleanup, since none has failed. -/
theorem FetchInv.undisputed (h : FetchInv cr ps k bodies s₀ p c)
    {l : Label engineSig ι TemplateDistribution} (hun : unobstructed p c.shared l = true) :
    Undisputed c l := by
  match l with
  | .env msg => trivial
  | .thread i ⟨o, r⟩ =>
    cases o with
    | registerRequest k' =>
      intro _ j _
      by_contra hat
      obtain ⟨cont, hat⟩ := atCleanup_iff.mp (Bool.not_eq_false _ ▸ hat)
      have hj := h.orderly j
      rw [hat] at hj
      obtain ⟨⟨waiter, -, hlast⟩, -⟩ := hj
      rcases hlast with hlast | hlast | hlast
      · exact (h.noFailure j).1 k' (List.mem_of_getLast? hlast)
      · exact (h.noFailure j).2 k' waiter (List.mem_of_getLast? hlast)
      · exact h.waiters.undropped j k' waiter (List.mem_of_getLast? hlast)
    | sendRequest k' =>
      intro hfail
      have htaken : r = true := hun
      rw [hfail] at htaken
      cases htaken
    | _ => trivial

/-- No step of the solution drops it. -/
theorem FetchInv.not_drops (h : FetchInv cr ps k bodies s₀ p c)
    (hsolve : Solvable cr ps k bodies s₀) {o : Op} {r : o.Res} {s' : Engine}
    (hI : parInterp c.shared o r s') (horder : Orderly (c.threads p).log o)
    (hpur : Pursued cr ps k bodies (c.threads p).log o)
    (hans : bodiesAnswered (ι := ι) cr ps k bodies (.thread p ⟨o, r⟩) = true)
    (hun : unobstructed p c.shared (.thread p ⟨o, r⟩) = true) : ¬ Drops cr ps k bodies ⟨o, r⟩ := by
  replace hpur := hpur.resolve_left fun hdrop => by
    obtain ⟨e, he, hdrop⟩ := hdrop
    exact h.clean e he hdrop
  cases o with
  | jobsFindBySolution prevHash nbits version =>
    obtain ⟨rfl, rfl, rfl⟩ := hpur
    obtain ⟨env, heq⟩ := hI
    obtain ⟨rfl, -⟩ := Prod.mk.inj heq
    intro hnone
    -- some job of the solution is still cached
    obtain ⟨id, job, hjob, hmatch⟩ := hsolve.cached
    have hnone : (env.solutionJob c.shared ps).map Sigma.fst = none := hnone
    rw [Option.map_eq_none_iff, solutionJob_eq_none] at hnone
    exact hnone id job (h.jobs_kept id job hjob hmatch) hmatch
  | jobsGet id =>
    obtain ⟨env, heq⟩ := hI
    obtain ⟨rfl, -⟩ := Prod.mk.inj heq
    obtain ⟨job, hjob, hmatch⟩ := h.found id hpur
    exact fun hdrop => hdrop ⟨job, h.jobs_kept id job hjob hmatch, hsolve.fits id job hjob hmatch⟩
  | registerRequest k' =>
    have hfree : c.shared.tdp.pendingRequests.lookup k' = none := by
      simpa [unobstructed] using hun
    have htable := parInterp_requests hI
    intro hnone
    have hnone : r = none := hnone
    subst hnone
    generalize s'.tdp = tdp at htable
    cases htable with
    | other _ hreg => exact hreg k' rfl
    | refused _ htaken => exact htaken hfree
  | sendRequest k' =>
    intro hfail
    have htaken : r = true := hun
    have hfail : r = false := hfail
    rw [hfail] at htaken
    cases htaken
  | awaitResponse k' waiter =>
    obtain ⟨rfl, -⟩ := hpur
    obtain ⟨hreg, hwait, hremove⟩ := horder
    cases r with
    | elapsed => cases hans
    | senderDropped =>
      obtain ⟨hnone, hgone, -⟩ := hI
      exact absurd (h.waiters.held p k' waiter hreg hnone (fun r => hwait k' waiter r) (hremove k'))
        (hgone k')
    | received result =>
      obtain ⟨hsent, -⟩ := hI
      exact fun hdrop => hdrop (h.table.sent p waiter result hreg hsent)
  | bump counter n =>
    cases counter with
    | pushSolutionDropped reason => exact hpur.elim
    | _ => exact fun hdrop => hdrop
  | _ => exact fun hdrop => hdrop

omit [DecidableEq ι] in
/-- The cache after a step. -/
theorem FetchInv.jobs_step (h : FetchInv cr ps k bodies s₀ p c) {j : ι} {o : Op} {r : o.Res}
    {s' : Engine} (hI : parInterp c.shared o r s') (hshrinks : o.shrinks)
    (hans : bodiesAnswered (ι := ι) cr ps k bodies (.thread j ⟨o, r⟩) = true) :
    (∀ id job, s₀.declaredJobs.lookup id = some job → job.Matches ps →
      s'.declaredJobs.lookup id = some job) ∧
    ∀ id job, s'.declaredJobs.lookup id = some job → s₀.declaredJobs.lookup id = some job := by
  have hcache := parInterp_cache hI
  generalize s'.declaredJobs = jobs at hcache
  generalize he : (⟨o, r⟩ : Event engineSig) = e at hcache
  cases hcache with
  | inserted id job =>
    cases he
    exact hshrinks.elim
  | cleared =>
    cases he
    exact hshrinks.elim
  | retained keep dropped =>
    cases he
    exact hshrinks.elim
  | kept => exact ⟨h.jobs_kept, h.jobs_old⟩
  | removed id₀ =>
    cases he
    simp only [DashMap.lookup_erase_eq]
    constructor
    · intro id job hjob hmatch
      have hcached := h.jobs_kept id job hjob hmatch
      -- an answered run does not take a job the solution matches
      have hid : id ≠ id₀ := by
        intro heq
        subst heq
        rw [hcached] at hans
        simp [bodiesAnswered, hmatch] at hans
      rw [if_neg hid]
      exact hcached
    · intro id job hjob
      split_ifs at hjob
      exact h.jobs_old id job hjob

/-- The waiters and what is sent to them, after a step. -/
theorem FetchInv.table_step (h : FetchInv cr ps k bodies s₀ p c) {j : ι} {o : Op} {r : o.Res}
    {s' : Engine} (hI : parInterp c.shared o r s') (q : Handler Unit) :
    BodiesInv cr k bodies
      ⟨s', Function.update c.threads j ⟨q, (c.threads j).log ++ [⟨o, r⟩]⟩⟩ := by
  have htable := parInterp_requests hI
  generalize htdp : s'.tdp = tdp at htable
  generalize (⟨o, r⟩ : Event engineSig) = e at htable
  cases htable with
  | other _ hreg hawait hremove =>
    refine h.table.kept (fun k waiter heq => hreg k (congrArg Sigma.fst heq)) ?_ ?_ ?_ <;>
      simp [htdp]
  | refused k htaken => refine h.table.kept (by simp) ?_ ?_ ?_ <;> simp [htdp]
  | elapsed k waiter hnone => refine h.table.kept (by simp) ?_ ?_ ?_ <;> simp [htdp]
  | senderDropped k waiter hnone hgone =>
    refine h.table.kept (by simp) ?_ ?_ ?_ <;> simp [htdp]
  | registered k hfree => exact h.table.registered h.waiters htdp
  | received k₀ waiter₀ result hsent =>
    refine h.table.kept (by simp) (by simp [htdp]) ?_ (by simp [htdp])
    intro waiter x hx
    simp only [htdp, DashMap.lookup_erase_eq] at hx
    split_ifs at hx
    exact hx
  | removed k₀ =>
    refine h.table.kept (by simp) ?_ (by simp [htdp]) (by simp [htdp])
    intro k' waiter hk'
    simp only [htdp, DashMap.lookup_erase_eq] at hk'
    split_ifs at hk'
    exact hk'

/-- The events of an answered, unobstructed run are no failures. -/
theorem noFailure_event {j : ι} {e : Event engineSig}
    (hans : bodiesAnswered cr ps k bodies (.thread j e) = true)
    (hun : unobstructed p c.shared (.thread j e) = true) : NoFailure [e] := by
  constructor
  · intro k' hmem
    obtain rfl := List.mem_singleton.mp hmem
    cases hun
  · intro k' waiter hmem
    obtain rfl := List.mem_singleton.mp hmem
    cases hans

/-- One step of the whole system. -/
theorem FetchInv.step (h : FetchInv cr ps k bodies s₀ p c) (hsolve : Solvable cr ps k bodies s₀)
    {l : Label engineSig ι TemplateDistribution} (hstep : Step parInterp teeAct c l c')
    (hans : bodiesAnswered cr ps k bodies l = true) (hun : unobstructed p c.shared l = true) :
    FetchInv cr ps k bodies s₀ p c' := by
  have hwaiters := h.waiters.step h.orderly hstep (h.undisputed hun)
  have horderly := hstep.spec h.orderly
  have hshrinks : ∀ i, (c'.threads i).prog.Only Op.shrinks := fun i => hstep.only (h.shrinks i)
  have hpursued := hstep.spec_at h.pursued
  have hwithin := hstep.within h.within
  cases hstep with
  | env msg =>
    exact ⟨hwaiters, horderly, hshrinks, h.noFailure, h.table.tee hans, h.jobs_kept, h.jobs_old,
      hpursued, h.clean, h.found, hwithin⟩
  | @thread j o cont r s' hprog hI =>
    have hj := h.shrinks j
    rw [hprog] at hj
    obtain ⟨hkept, hold⟩ := h.jobs_step hI hj.1 hans
    -- left: no failure, no drop, and what the lookup found
    refine ⟨hwaiters, horderly, hshrinks, fun i => ?_, h.table_step hI (cont r), hkept, hold,
      hpursued, fun e he => ?_, fun id hid => ?_, hwithin⟩
    · have hevent := noFailure_event hans hun
      constructor
      · intro k' hmem
        rcases mem_log_update.mp hmem with hmem | ⟨-, heq⟩
        · exact (h.noFailure i).1 k' hmem
        · exact hevent.1 k' (List.mem_singleton.mpr heq)
      · intro k' waiter hmem
        rcases mem_log_update.mp hmem with hmem | ⟨-, heq⟩
        · exact (h.noFailure i).2 k' waiter hmem
        · exact hevent.2 k' waiter (List.mem_singleton.mpr heq)
    · rcases mem_log_update.mp he with he | ⟨rfl, rfl⟩
      · exact h.clean e he
      · have hp := h.pursued
        have ho := h.orderly p
        rw [hprog] at hp ho
        exact h.not_drops hsolve hI ho.1 hp.1 hans hun
    · rcases mem_log_update.mp hid with hid | ⟨-, heq⟩
      · exact h.found id hid
      · cases heq
        obtain ⟨env, heq⟩ := hI
        have hfound : some id = (env.solutionJob c.shared ps).map Sigma.fst :=
          (Prod.mk.inj heq).1
        obtain ⟨e, he, rfl⟩ := Option.map_eq_some_iff.mp hfound.symm
        obtain ⟨hjob, hmatch⟩ := solutionJob_eq_some env he
        exact ⟨e.2, h.jobs_old e.1 e.2 hjob, hmatch⟩

end overlapping

end

end Sv2P2pool
