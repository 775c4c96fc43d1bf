import Sv2P2pool.Runs

/-! # Concurrent Custom Jobs and the Pre-Flight

    Any number of `handle_set_custom_mining_job` calls run at the same time,
    one atomic operation after the other, while the tee delivers Template
    Provider messages. A call that returns success has either seen bitcoind
    accept its candidate block or could not fetch the transaction bodies; the
    waiter table refuses a second request for a template in flight, so
    overlapping calls on one template are of the second kind.
-/

namespace Sv2P2pool

open ByteCodec Bitcoin Interleave

section

variable (cr : Crates) (w : Wiring)

/-! ## What one call does -/

/-- An event after which the handler accepts without asking bitcoind. -/
def Skips : Event engineSig → Prop
  | ⟨.jobsRemove _, some job⟩ => job.templateId = none
  | ⟨.registerRequest _, none⟩ => True
  | ⟨.sendRequest _, taken⟩ => taken = false
  | ⟨.awaitResponse k _, .received x⟩ => ∃ e, decodeTxData cr k x = .error e
  | ⟨.awaitResponse _ _, _⟩ => True
  | _ => False

/-- Some event of the log skips the pre-flight. -/
def Skipped (log : List (Event engineSig)) : Prop := ∃ e ∈ log, Skips cr e

/-- Before anything is skipped, a call waits once, on the waiter it registered,
    and leaves the waiter table alone otherwise. -/
def Disciplined (log : List (Event engineSig)) (o : Op) : Prop :=
  Skipped cr log ∨
    match o with
    | .awaitResponse k waiter => ⟨.registerRequest k, some waiter⟩ ∈ log ∧
      ∀ k' waiter' r, ⟨.awaitResponse k' waiter', r⟩ ∉ log
    | .tokensGet _ | .tokensRemove _ | .jobsRemove _ | .registerRequest _ | .sendRequest _ => True
    | .validateBlockProposal _ | .bump _ _ => True
    | _ => False

/-- bitcoind accepted the candidate block built from the job the call consumed,
    the message and the bodies it fetched for the job's template. -/
def Validated (m : SetCustomMiningJob) (log : List (Event engineSig)) : Prop :=
  ∃ r job k waiter transactionList txBodies b,
    ⟨.jobsRemove r, some job⟩ ∈ log ∧ job.templateId = some k ∧
    ⟨.awaitResponse k waiter, .received (.success transactionList)⟩ ∈ log ∧
    transactionList.mapM cr.consensusDecode = some txBodies ∧
    buildCandidateBlock cr job m txBodies = .ok b ∧
    (⟨.validateBlockProposal b, some .accepted⟩ ∈ log ∨
      ⟨.validateBlockProposal b, some .duplicate⟩ ∈ log)

/-- What holds when the handler returns. -/
def Judged (m : SetCustomMiningJob) (log : List (Event engineSig))
    (result : SetCustomMiningJobResult) : Prop :=
  result = .success → Skipped cr log ∨ Validated cr m log

variable {cr w} {m : SetCustomMiningJob} {log log' : List (Event engineSig)}

theorem Skipped.mono (hsub : log ⊆ log') (h : Skipped cr log) : Skipped cr log' := by
  obtain ⟨e, he, hskip⟩ := h
  exact ⟨e, hsub he, hskip⟩

theorem Validated.mono (hsub : log ⊆ log') (h : Validated cr m log) : Validated cr m log' := by
  obtain ⟨r, job, k, waiter, l, txBodies, b, hjob, hk, hrecv, hdec, hb, hv⟩ := h
  exact ⟨r, job, k, waiter, l, txBodies, b, hsub hjob, hk, hsub hrecv, hdec, hb,
    hv.imp (fun h => hsub h) fun h => hsub h⟩

theorem Judged.mono (hsub : log ⊆ log') {result : SetCustomMiningJobResult}
    (h : Judged cr m log result) : Judged cr m log' result :=
  fun hok => (h hok).imp (Skipped.mono hsub) (Validated.mono hsub)

/-- Bodies come from a success response. -/
theorem decodeTxData_ok {k : UInt64} {result : TxDataResult} {txBodies : List Transaction}
    (h : decodeTxData cr k result = .ok txBodies) :
    ∃ transactionList, result = .success transactionList ∧
      transactionList.mapM cr.consensusDecode = some txBodies := by
  match result with
  | .error code => simp [decodeTxData] at h
  | .success transactionList =>
    match hmap : transactionList.mapM cr.consensusDecode with
    | none => simp [decodeTxData, hmap] at h
    | some txs =>
      simp only [decodeTxData, hmap, Except.ok.injEq] at h
      exact ⟨transactionList, rfl, by rw [← h, hmap]⟩

/-- Once something was skipped, nothing is left to show. -/
theorem spec_of_skipped {α : Type} {Q : List (Event engineSig) → α → Prop}
    (hQ : ∀ log a, Skipped cr log → Q log a) (p : Handler α) :
    ∀ {log : List (Event engineSig)}, Skipped cr log → p.Spec (Disciplined cr) Q log := by
  induction p with
  | ret a => exact fun hskip => hQ _ a hskip
  | op o k ih => exact fun hskip => ⟨Or.inl hskip, fun r => ih r (hskip.mono (by simp))⟩

theorem judged_of_skipped (log : List (Event engineSig)) (result : SetCustomMiningJobResult)
    (h : Skipped cr log) : Judged cr m log result := fun _ => Or.inl h

theorem judged_error (log : List (Event engineSig)) (code : SetCustomErrorCode) :
    Judged cr m log (.error code) := fun hok => by cases hok

/-- Counting does not change the verdict. -/
theorem spec_bump_pure (c : Counter) (n : Nat) {result : SetCustomMiningJobResult}
    (h : Judged cr m log result) :
    (bump w c n >>= fun _ => pure result).Spec (Disciplined cr) (Judged cr m) log := by
  unfold bump
  split_ifs
  · exact ⟨Or.inr trivial, fun _ => h.mono (by simp)⟩
  · exact h

/-- A log in which nothing has been waited for. -/
def NotWaited (log : List (Event engineSig)) : Prop :=
  ∀ k waiter r, ⟨.awaitResponse k waiter, r⟩ ∉ log

/-- `request_tx_bodies` fails after a skipping event, or returns what the tee
    delivered to its own waiter. -/
theorem requestTxBodies_spec (k : UInt64) (hwait : NotWaited log) :
    (requestTxBodies cr k).Spec (Disciplined cr) (fun log' bodies => Skipped cr log' ∨
      log ⊆ log' ∧ ∃ waiter transactionList txBodies, bodies = .ok txBodies ∧
        ⟨.awaitResponse k waiter, .received (.success transactionList)⟩ ∈ log' ∧
        transactionList.mapM cr.consensusDecode = some txBodies) log := by
  refine ⟨Or.inr trivial, fun registered => ?_⟩
  cases registered with
  | none => exact Or.inl ⟨⟨.registerRequest k, none⟩, by simp, trivial⟩
  | some waiter =>
    refine ⟨Or.inr trivial, fun sent => ?_⟩
    cases sent with
    | false =>
      exact spec_of_skipped (fun _ _ => Or.inl) _ ⟨⟨.sendRequest k, false⟩, by simp, rfl⟩
    | true =>
      refine ⟨Or.inr ⟨by simp, fun k' waiter' r => ?_⟩, fun outcome => ?_⟩
      · simpa using hwait k' waiter' r
      cases outcome with
      | senderDropped =>
        exact spec_of_skipped (fun _ _ => Or.inl) _
          ⟨⟨.awaitResponse k waiter, .senderDropped⟩, by simp, trivial⟩
      | elapsed =>
        exact spec_of_skipped (fun _ _ => Or.inl) _
          ⟨⟨.awaitResponse k waiter, .elapsed⟩, by simp, trivial⟩
      | received result =>
        match hdec : decodeTxData cr k result with
        | .error e =>
          exact Or.inl ⟨⟨.awaitResponse k waiter, .received result⟩, by simp, e, hdec⟩
        | .ok txBodies =>
          obtain ⟨transactionList, rfl, hmap⟩ := decodeTxData_ok hdec
          exact Or.inr ⟨by simp, waiter, transactionList, txBodies, hdec, by simp, hmap⟩

/-- bitcoind's verdict on the candidate of the consumed job. -/
theorem proposeCandidate_spec {r : RequestId} {job : DeclaredJob} {k : UInt64} {waiter : Nat}
    {transactionList : List Bytes} {txBodies : List Transaction} {b : Block}
    (hjob : ⟨.jobsRemove r, some job⟩ ∈ log) (hk : job.templateId = some k)
    (hrecv : ⟨.awaitResponse k waiter, .received (.success transactionList)⟩ ∈ log)
    (hdec : transactionList.mapM cr.consensusDecode = some txBodies)
    (hb : buildCandidateBlock cr job m txBodies = .ok b) :
    (proposeCandidate w b).Spec (Disciplined cr) (Judged cr m) log := by
  refine ⟨Or.inr trivial, fun outcome => ?_⟩
  match outcome with
  | some .accepted =>
    exact fun _ => Or.inr ⟨r, job, k, waiter, transactionList, txBodies, b, by simp [hjob], hk,
      by simp [hrecv], hdec, hb, Or.inl (by simp)⟩
  | some .duplicate =>
    exact fun _ => Or.inr ⟨r, job, k, waiter, transactionList, txBodies, b, by simp [hjob], hk,
      by simp [hrecv], hdec, hb, Or.inr (by simp)⟩
  | some (.rejected reason) => exact spec_bump_pure _ 1 (judged_error _ _)
  | none => exact spec_bump_pure _ 1 (judged_error _ _)

theorem proposalCheck_spec (htdp : w.tdp = true) (hhandles : w.handles = true) {r : RequestId}
    {job : DeclaredJob} (hjob : ⟨.jobsRemove r, some job⟩ ∈ log) (hwait : NotWaited log) :
    (proposalCheck cr w job m).Spec (Disciplined cr) (Judged cr m) log := by
  unfold proposalCheck
  rw [htdp, hhandles]
  match hk : job.templateId with
  | none => exact spec_of_skipped judged_of_skipped _ ⟨⟨.jobsRemove r, some job⟩, hjob, hk⟩
  | some k =>
    refine Prog.Spec.bind (fun log' bodies hlog => ?_) (requestTxBodies_spec k hwait)
    rcases hlog with hskip | ⟨hsub, waiter, transactionList, txBodies, rfl, hrecv, hdec⟩
    · exact spec_of_skipped judged_of_skipped _ hskip
    · match hb : buildCandidateBlock cr job m txBodies with
      | .error e =>
        simp only [hb]
        exact judged_error _ _
      | .ok b =>
        simp only [hb]
        exact proposeCandidate_spec (hsub hjob) hk hrecv hdec hb

theorem setCustomResult_spec {result : SetCustomMiningJobResult} (h : Judged cr m log result) :
    (setCustomResult w result).Spec (Disciplined cr) (Judged cr m) log := by
  cases result with
  | success => exact spec_bump_pure _ 1 h
  | error code => exact spec_bump_pure _ 1 h

theorem consumeDeclared_spec (t : JdToken) :
    (consumeDeclared t).Spec (Disciplined cr) (fun log declared => NotWaited log ∧
      ∀ job, declared = some job → ∃ r, ⟨.jobsRemove r, some job⟩ ∈ log) [] := by
  refine ⟨Or.inr trivial, fun found => ?_⟩
  cases found with
  | none => exact ⟨by simp [NotWaited], by simp⟩
  | some r =>
    refine ⟨Or.inr trivial, fun _ => ⟨Or.inr trivial, fun removed => ⟨by simp [NotWaited], ?_⟩⟩⟩
    intro job heq
    subst heq
    exact ⟨r, by simp⟩

/-- The handler, whatever its operations answer. -/
theorem setCustom_spec (htdp : w.tdp = true) (hhandles : w.handles = true)
    (m : SetCustomMiningJob) (t : JdToken) :
    (handleSetCustomMiningJob cr w m t).Spec (Disciplined cr) (Judged cr m) [] := by
  refine Prog.Spec.bind (fun log declared hlog => ?_) (consumeDeclared_spec t)
  obtain ⟨hwait, hjob⟩ := hlog
  match declared with
  | none => exact setCustomResult_spec (judged_error _ _)
  | some job =>
    obtain ⟨r, hjob⟩ := hjob job rfl
    match hcross : crossCheck cr job m with
    | .error code =>
      simp only [validateCustom, hcross]
      exact setCustomResult_spec (judged_error _ _)
    | .ok () =>
      simp only [validateCustom, hcross]
      exact Prog.Spec.bind (fun _ _ h => setCustomResult_spec h)
        (proposalCheck_spec htdp hhandles hjob hwait)

/-! ## Overlapping calls -/

/-- A Template Provider message through the tee. -/
def teeAct (msg : TemplateDistribution) (s : Engine) : Engine :=
  { s with tdp := s.tdp.observe msg }

section overlapping

variable {ι : Type} [DecidableEq ι]

/-- The calls, none of which has started. -/
def customCalls (cr : Crates) (w : Wiring) (s : Engine) (m : ι → SetCustomMiningJob)
    (t : ι → JdToken) : Config engineSig Engine SetCustomMiningJobResult ι :=
  ⟨s, fun i => ⟨handleSetCustomMiningJob cr w (m i) (t i), []⟩⟩

/-- The jobs have a `template_id`, and the Template Provider answers every
    request with a success, before the timeout. -/
def answered : Label engineSig ι TemplateDistribution → Bool
  | .thread _ ⟨.jobsRemove _, some job⟩ => job.templateId.isSome
  | .thread _ ⟨.awaitResponse _ _, .elapsed⟩ => false
  | .env (.requestTransactionDataError _ _) => false
  | _ => true

/-- A request is only made while none is in flight for its `template_id`, the
    channel takes it, and the delivered bodies decode. -/
def undisturbed (cr : Crates) (s : Engine) : Label engineSig ι TemplateDistribution → Bool
  | .thread _ ⟨.registerRequest k, _⟩ => (s.tdp.pendingRequests.lookup k).isNone
  | .thread _ ⟨.sendRequest _, taken⟩ => taken
  | .env (.requestTransactionDataSuccess _ transactionList) =>
    (transactionList.mapM cr.consensusDecode).isSome
  | _ => true

/-- One step of the overlapping calls or of the tee, with an answering
    Template Provider. -/
def AnsweredStep (c : Config engineSig Engine SetCustomMiningJobResult ι)
    (l : Label engineSig ι TemplateDistribution)
    (c' : Config engineSig Engine SetCustomMiningJobResult ι) : Prop :=
  Step parInterp teeAct c l c' ∧ answered l = true

/-- Such a step without a disturbance. -/
def UndisturbedStep (cr : Crates) (c : Config engineSig Engine SetCustomMiningJobResult ι)
    (l : Label engineSig ι TemplateDistribution)
    (c' : Config engineSig Engine SetCustomMiningJobResult ι) : Prop :=
  Step parInterp teeAct c l c' ∧ answered l = true ∧ undisturbed cr c.shared l = true

/-- What a step of a disciplined call does to the request table. -/
inductive TableStep (tdp : TdpHandle) : Event engineSig → TdpHandle → Prop where
  | plain (e : Event engineSig) (hreg : ∀ k waiter, e ≠ ⟨.registerRequest k, some waiter⟩) :
      TableStep tdp e tdp
  | registered (k : UInt64) (hfree : tdp.pendingRequests.lookup k = none) :
      TableStep tdp ⟨.registerRequest k, some tdp.nextOneshot⟩
        { tdp with pendingRequests := tdp.pendingRequests.insert k tdp.nextOneshot
                   nextOneshot := tdp.nextOneshot + 1 }
  | received (k : UInt64) (waiter : Nat) (result : TxDataResult)
      (hsent : tdp.oneshots.lookup waiter = some result) :
      TableStep tdp ⟨.awaitResponse k waiter, .received result⟩
        { tdp with oneshots := tdp.oneshots.erase waiter }

/-- The request table and the logs of the calls. -/
structure TableInv (cr : Crates) (c : Config engineSig Engine SetCustomMiningJobResult ι) :
    Prop where
  /-- No call has skipped its pre-flight. -/
  clean : ∀ i, ¬ Skipped cr (c.threads i).log
  /-- A registered waiter has been waited for, is in the table, or has been
      sent its response. -/
  waiting : ∀ i k waiter, ⟨.registerRequest k, some waiter⟩ ∈ (c.threads i).log →
    (∃ k' r, ⟨.awaitResponse k' waiter, r⟩ ∈ (c.threads i).log) ∨
    c.shared.tdp.pendingRequests.lookup k = some waiter ∨
    ∃ result, c.shared.tdp.oneshots.lookup waiter = some result
  /-- Waiters are handed out in order. -/
  fresh : ∀ i k waiter, ⟨.registerRequest k, some waiter⟩ ∈ (c.threads i).log →
    waiter < c.shared.tdp.nextOneshot
  /-- No two calls share a waiter. -/
  owner : ∀ i j k k' waiter, ⟨.registerRequest k, some waiter⟩ ∈ (c.threads i).log →
    ⟨.registerRequest k', some waiter⟩ ∈ (c.threads j).log → i = j
  /-- What was sent to a waiter decodes. -/
  decodes : ∀ waiter result, c.shared.tdp.oneshots.lookup waiter = some result →
    ∀ k, ∃ txBodies, decodeTxData cr k result = .ok txBodies

omit [DecidableEq ι] in
/-- In an answered, undisturbed run only the request table can make a call skip
    its pre-flight. -/
theorem not_skips {s : Engine} {i : ι} {o : Op} {r : o.Res}
    (hans : answered (.thread i ⟨o, r⟩) = true)
    (hund : undisturbed cr s (.thread i ⟨o, r⟩) = true)
    (hreg : ∀ k, o ≠ .registerRequest k) (hawait : ∀ k waiter, o ≠ .awaitResponse k waiter) :
    ¬ Skips cr ⟨o, r⟩ := by
  intro hskip
  cases o with
  | registerRequest k => exact hreg k rfl
  | awaitResponse k waiter => exact hawait k waiter rfl
  | sendRequest k =>
    have hfalse : r = false := hskip
    have htrue : r = true := hund
    rw [hfalse] at htrue
    cases htrue
  | jobsRemove id =>
    cases r with
    | none => exact hskip
    | some job =>
      have hnone : job.templateId = none := hskip
      have hsome : job.templateId.isSome = true := hans
      simp [hnone] at hsome
  | _ => exact hskip

omit [DecidableEq ι] in
/-- The step of a disciplined call in an answered, undisturbed run. -/
theorem table_step {s s' : Engine} {i : ι} {o : Op} {r : o.Res} (hI : parInterp s o r s')
    (hclean : ¬ Skipped cr log) (hdisc : Disciplined cr log o)
    (hans : answered (.thread i ⟨o, r⟩) = true)
    (hund : undisturbed cr s (.thread i ⟨o, r⟩) = true)
    (hwaiter : ∀ k waiter, o = .awaitResponse k waiter →
      s.tdp.pendingRequests.lookup k = some waiter ∨
      ∃ result, s.tdp.oneshots.lookup waiter = some result)
    (hdecodes : ∀ waiter result, s.tdp.oneshots.lookup waiter = some result →
      ∀ k, ∃ txBodies, decodeTxData cr k result = .ok txBodies) :
    TableStep s.tdp ⟨o, r⟩ s'.tdp ∧ ¬ Skips cr ⟨o, r⟩ := by
  have hstep := parInterp_requests hI
  generalize s'.tdp = tdp' at hstep
  cases hstep with
  | other _ hreg hawait hremove =>
    have hplain : ∀ k waiter, (⟨o, r⟩ : Event engineSig) ≠ ⟨.registerRequest k, some waiter⟩ :=
      fun k waiter heq => hreg k (congrArg Sigma.fst heq)
    exact ⟨.plain _ hplain, not_skips hans hund hreg hawait⟩
  | refused k htaken => exact absurd (Option.isNone_iff_eq_none.mp hund) htaken
  | registered k hfree => exact ⟨.registered k hfree, fun h => h⟩
  | received k waiter result hsent =>
    refine ⟨.received k waiter result hsent, fun hskip => ?_⟩
    obtain ⟨e, he⟩ := hskip
    obtain ⟨txBodies, hok⟩ := hdecodes waiter result hsent k
    rw [hok] at he
    cases he
  | elapsed k waiter hnone => cases hans
  | senderDropped k waiter hnone hgone =>
    rcases hwaiter k waiter rfl with hpending | ⟨result, hsent⟩
    · exact absurd hpending (hgone k)
    · rw [hnone] at hsent
      cases hsent
  | removed k => exact (hdisc.resolve_left hclean).elim

/-- An event that registers nothing adds no registration. -/
theorem registration_of_update {α : Type} {threads : ι → Thread engineSig α} {i j : ι}
    {p : Handler α} {e : Event engineSig}
    (hreg : ∀ k waiter, e ≠ ⟨.registerRequest k, some waiter⟩) {k : UInt64} {waiter : Nat}
    (h : ⟨.registerRequest k, some waiter⟩ ∈
      (Function.update threads j ⟨p, (threads j).log ++ [e]⟩ i).log) :
    ⟨.registerRequest k, some waiter⟩ ∈ (threads i).log := by
  rcases mem_log_update.mp h with h | ⟨-, heq⟩
  · exact h
  · exact absurd heq.symm (hreg k waiter)

variable {c c' : Config engineSig Engine SetCustomMiningJobResult ι}

theorem clean_update (h : ∀ i, ¬ Skipped cr (c.threads i).log) {j : ι}
    {p : Handler SetCustomMiningJobResult} {e : Event engineSig} (he : ¬ Skips cr e) (i : ι) :
    ¬ Skipped cr (Function.update c.threads j ⟨p, (c.threads j).log ++ [e]⟩ i).log := by
  intro h
  obtain ⟨e', hmem, hskip⟩ := h
  rcases mem_log_update.mp hmem with hmem | ⟨-, rfl⟩
  · exact h i ⟨e', hmem, hskip⟩
  · exact he hskip

/-- A step of a call that leaves the table alone. -/
theorem TableInv.plain (hinv : TableInv cr c) {j : ι} {e : Event engineSig} {s' : Engine}
    {p : Handler SetCustomMiningJobResult} (hskip : ¬ Skips cr e)
    (hreg : ∀ k waiter, e ≠ ⟨.registerRequest k, some waiter⟩) (htdp : s'.tdp = c.shared.tdp) :
    TableInv cr ⟨s', Function.update c.threads j ⟨p, (c.threads j).log ++ [e]⟩⟩ where
  clean i := clean_update hinv.clean hskip i
  waiting i k waiter hmem := by
    rw [htdp]
    refine (hinv.waiting i k waiter (registration_of_update hreg hmem)).imp ?_ id
    intro h
    obtain ⟨k', r, hr⟩ := h
    exact ⟨k', r, mem_log_update.mpr (Or.inl hr)⟩
  fresh i k waiter hmem := by
    rw [htdp]
    exact hinv.fresh i k waiter (registration_of_update hreg hmem)
  owner i i' k k' waiter hmem hmem' :=
    hinv.owner i i' k k' waiter (registration_of_update hreg hmem)
      (registration_of_update hreg hmem')
  decodes := by
    rw [htdp]
    exact hinv.decodes

/-- A registration: the new waiter is larger than all before it, and the table
    had no entry for its `template_id`. -/
theorem TableInv.registered (hinv : TableInv cr c) {j : ι} {s' : Engine}
    {p : Handler SetCustomMiningJobResult} {k₀ : UInt64}
    (hfree : c.shared.tdp.pendingRequests.lookup k₀ = none)
    (hpending : s'.tdp.pendingRequests =
      c.shared.tdp.pendingRequests.insert k₀ c.shared.tdp.nextOneshot)
    (hnext : s'.tdp.nextOneshot = c.shared.tdp.nextOneshot + 1)
    (honeshots : s'.tdp.oneshots = c.shared.tdp.oneshots) :
    TableInv cr ⟨s', Function.update c.threads j ⟨p, (c.threads j).log ++
      [⟨.registerRequest k₀, some c.shared.tdp.nextOneshot⟩]⟩⟩ where
  clean i := clean_update hinv.clean
    (e := ⟨.registerRequest k₀, some c.shared.tdp.nextOneshot⟩) (fun h => h) i
  waiting i k waiter hmem := by
    rw [hpending, honeshots, DashMap.lookup_insert_eq]
    rcases mem_log_update.mp hmem with hmem | ⟨-, heq⟩
    · rcases hinv.waiting i k waiter hmem with ⟨k', r, hr⟩ | hwait | hsent
      · exact Or.inl ⟨k', r, mem_log_update.mpr (Or.inl hr)⟩
      -- the insertion would overwrite a waiter of the same template
      · have hk : k ≠ k₀ := by
          intro heq
          subst heq
          rw [hfree] at hwait
          cases hwait
        exact Or.inr (Or.inl (by rw [if_neg hk, hwait]))
      · exact Or.inr (Or.inr hsent)
    · cases heq
      exact Or.inr (Or.inl (if_pos rfl))
  fresh i k waiter hmem := by
    rw [hnext]
    rcases mem_log_update.mp hmem with hmem | ⟨-, heq⟩
    · exact Nat.lt_succ_of_lt (hinv.fresh i k waiter hmem)
    · cases heq
      exact Nat.lt_succ_self _
  owner i i' k k' waiter hmem hmem' := by
    rcases mem_log_update.mp hmem with hmem | ⟨hi, heq⟩ <;>
      rcases mem_log_update.mp hmem' with hmem' | ⟨hi', heq'⟩
    · exact hinv.owner i i' k k' waiter hmem hmem'
    · cases heq'
      exact absurd (hinv.fresh i k _ hmem) (lt_irrefl _)
    · cases heq
      exact absurd (hinv.fresh i' k' _ hmem') (lt_irrefl _)
    · exact hi.trans hi'.symm
  decodes := by
    rw [honeshots]
    exact hinv.decodes

/-- A response is received by the call that registered for it. -/
theorem TableInv.received (hinv : TableInv cr c) {j : ι} {s' : Engine}
    {p : Handler SetCustomMiningJobResult} {k₀ : UInt64} {waiter₀ : Nat} {result : TxDataResult}
    (hskip : ¬ Skips cr ⟨.awaitResponse k₀ waiter₀, .received result⟩)
    (hown : ⟨.registerRequest k₀, some waiter₀⟩ ∈ (c.threads j).log)
    (htdp : s'.tdp =
      { c.shared.tdp with oneshots := c.shared.tdp.oneshots.erase waiter₀ }) :
    TableInv cr ⟨s', Function.update c.threads j ⟨p, (c.threads j).log ++
      [⟨.awaitResponse k₀ waiter₀, .received result⟩]⟩⟩ where
  clean i := clean_update hinv.clean hskip i
  waiting i k waiter hmem := by
    rw [htdp]
    replace hmem := registration_of_update (by simp) hmem
    -- the response is gone, but its one owner has received it
    by_cases hw : waiter = waiter₀
    · subst hw
      obtain rfl := hinv.owner i j k k₀ waiter hmem hown
      exact Or.inl ⟨k₀, .received result, mem_log_update.mpr (Or.inr ⟨rfl, rfl⟩)⟩
    · rcases hinv.waiting i k waiter hmem with ⟨k', r, hr⟩ | hwait | ⟨x, hsent⟩
      · exact Or.inl ⟨k', r, mem_log_update.mpr (Or.inl hr)⟩
      · exact Or.inr (Or.inl hwait)
      · exact Or.inr (Or.inr ⟨x, by rw [DashMap.lookup_erase_eq, if_neg hw, hsent]⟩)
  fresh i k waiter hmem := by
    rw [htdp]
    exact hinv.fresh i k waiter (registration_of_update (by simp) hmem)
  owner i i' k k' waiter hmem hmem' :=
    hinv.owner i i' k k' waiter (registration_of_update (by simp) hmem)
      (registration_of_update (by simp) hmem')
  decodes waiter x hsent := by
    rw [htdp, DashMap.lookup_erase_eq] at hsent
    split_ifs at hsent
    exact hinv.decodes waiter x hsent

omit [DecidableEq ι] in
/-- A message through the tee moves a waiter from the table to its response. -/
theorem TableInv.tee (hinv : TableInv cr c) {msg : TemplateDistribution}
    (hans : @answered ι (.env msg) = true) (hund : @undisturbed ι cr c.shared (.env msg) = true) :
    TableInv cr ⟨teeAct msg c.shared, c.threads⟩ := by
  cases msg with
  | setNewPrevHash msg => exact ⟨hinv.clean, hinv.waiting, hinv.fresh, hinv.owner, hinv.decodes⟩
  | newTemplate msg => exact ⟨hinv.clean, hinv.waiting, hinv.fresh, hinv.owner, hinv.decodes⟩
  | other => exact hinv
  | requestTransactionDataError k code => cases hans
  | requestTransactionDataSuccess k₀ transactionList =>
    match hwaiter : c.shared.tdp.pendingRequests.lookup k₀ with
    | none =>
      have hsame : teeAct (.requestTransactionDataSuccess k₀ transactionList) c.shared =
          c.shared := by simp [teeAct, TdpHandle.observe, TdpHandle.deliverResponse, hwaiter]
      rw [hsame]
      exact hinv
    | some waiter₀ =>
      have htdp : (teeAct (.requestTransactionDataSuccess k₀ transactionList) c.shared).tdp =
          { c.shared.tdp with
            pendingRequests := c.shared.tdp.pendingRequests.erase k₀
            oneshots := c.shared.tdp.oneshots.insert waiter₀ (.success transactionList) } := by
        simp [teeAct, TdpHandle.observe, TdpHandle.deliverResponse, hwaiter]
      refine ⟨hinv.clean, fun i k waiter hmem => ?_, fun i k waiter hmem => ?_, hinv.owner,
        fun waiter x hsent k => ?_⟩
      · rw [htdp]
        simp only [DashMap.lookup_erase_eq, DashMap.lookup_insert_eq]
        rcases hinv.waiting i k waiter hmem with hr | hwait | ⟨x, hsent⟩
        · exact Or.inl hr
        · by_cases hk : k = k₀
          · subst hk
            rw [hwaiter] at hwait
            exact Or.inr (Or.inr ⟨_, if_pos (Option.some.inj hwait).symm⟩)
          · exact Or.inr (Or.inl (by rw [if_neg hk, hwait]))
        · by_cases hw : waiter = waiter₀
          · exact Or.inr (Or.inr ⟨_, if_pos hw⟩)
          · exact Or.inr (Or.inr ⟨x, by rw [if_neg hw, hsent]⟩)
      · rw [htdp]
        exact hinv.fresh i k waiter hmem
      · rw [htdp] at hsent
        simp only [DashMap.lookup_insert_eq] at hsent
        split_ifs at hsent
        · cases hsent
          obtain ⟨txBodies, hmap⟩ := Option.isSome_iff_exists.mp hund
          exact ⟨txBodies, by simp [decodeTxData, hmap]⟩
        · exact hinv.decodes waiter x hsent k

/-- One step of the whole system. -/
theorem TableInv.step (hinv : TableInv cr c) {m : ι → SetCustomMiningJob}
    (hspec : ∀ i, (c.threads i).prog.Spec (Disciplined cr) (Judged cr (m i)) (c.threads i).log)
    {l : Label engineSig ι TemplateDistribution} (h : UndisturbedStep cr c l c') :
    TableInv cr c' := by
  obtain ⟨hstep, hans, hund⟩ := h
  cases hstep with
  | env msg => exact hinv.tee hans hund
  | @thread j o k r s' hprog hI =>
    have hdisc : Disciplined cr (c.threads j).log o := by
      have hj := hspec j
      rw [hprog] at hj
      exact hj.1
    -- a call at its wait has registered the waiter and not waited before
    have hawait : ∀ k waiter, o = .awaitResponse k waiter →
        ⟨.registerRequest k, some waiter⟩ ∈ (c.threads j).log ∧
        ∀ k' waiter' r, ⟨.awaitResponse k' waiter', r⟩ ∉ (c.threads j).log := by
      intro k waiter heq
      subst heq
      exact hdisc.resolve_left (hinv.clean j)
    have hwaiter : ∀ k waiter, o = .awaitResponse k waiter →
        c.shared.tdp.pendingRequests.lookup k = some waiter ∨
        ∃ result, c.shared.tdp.oneshots.lookup waiter = some result := by
      intro k waiter ho
      obtain ⟨hreg, hnot⟩ := hawait k waiter ho
      refine (hinv.waiting j k waiter hreg).resolve_left ?_
      intro h
      obtain ⟨k', r, hr⟩ := h
      exact hnot k' waiter r hr
    obtain ⟨htable, hskip⟩ := table_step hI (hinv.clean j) hdisc hans hund hwaiter hinv.decodes
    generalize htdp : s'.tdp = tdp at htable
    generalize he : (⟨o, r⟩ : Event engineSig) = e at htable hskip
    cases htable with
    | plain _ hreg => exact hinv.plain hskip hreg htdp
    | registered k₀ hfree =>
      exact hinv.registered hfree (by rw [htdp]) (by rw [htdp]) (by rw [htdp])
    | received k₀ waiter₀ result hsent =>
      exact hinv.received hskip (hawait k₀ waiter₀ (congrArg Sigma.fst he)).1 htdp

/-- Every run of overlapping calls on a reachable engine. -/
theorem undisturbed_run (htdp : w.tdp = true) (hhandles : w.handles = true) {s : Engine}
    (hs : Reachable cr w s) {m : ι → SetCustomMiningJob} {t : ι → JdToken}
    {log : List (Label engineSig ι TemplateDistribution)}
    (h : Trace (UndisturbedStep cr) (customCalls cr w s m t) log c) :
    TableInv cr c ∧
      ∀ i, (c.threads i).prog.Spec (Disciplined cr) (Judged cr (m i)) (c.threads i).log := by
  refine Trace.invariant (P := fun c => TableInv cr c ∧
    ∀ i, (c.threads i).prog.Spec (Disciplined cr) (Judged cr (m i)) (c.threads i).log) ?_ h ⟨?_, ?_⟩
  · intro c l c' h hstep
    obtain ⟨hinv, hspec⟩ := h
    exact ⟨hinv.step hspec hstep, hstep.1.spec hspec⟩
  -- before the first step nothing is in flight and every log is empty
  · have honeshots : s.tdp.oneshots = ∅ := hs.quiet.2
    refine ⟨?_, ?_, ?_, ?_, ?_⟩ <;> simp [customCalls, Skipped, honeshots]
  · exact fun i => setCustom_spec htdp hhandles (m i) (t i)

/-- In every undisturbed run, each call that has returned success has seen
    bitcoind accept the candidate block of its own job and message. -/
theorem preflight_not_bypassed (htdp : w.tdp = true) (hhandles : w.handles = true) {s : Engine}
    (hs : Reachable cr w s) {m : ι → SetCustomMiningJob} {t : ι → JdToken}
    {log : List (Label engineSig ι TemplateDistribution)}
    (h : Trace (UndisturbedStep cr) (customCalls cr w s m t) log c) {i : ι}
    (hret : (c.threads i).prog = .ret .success) : Validated cr (m i) (c.threads i).log := by
  obtain ⟨hinv, hspec⟩ := undisturbed_run htdp hhandles hs h
  have hi := hspec i
  rw [hret] at hi
  exact (hi rfl).resolve_left (hinv.clean i)

end overlapping

end

/-- The operations of concurrent calls, with the environment's answers fixed. -/
def Env.parStep (env : Env) (s : Engine) : (o : Op) → o.Res × Engine
  | .awaitResponse _ waiter =>
    match s.tdp.oneshots.lookup waiter with
    | some result =>
      (.received result, { s with tdp := { s.tdp with oneshots := s.tdp.oneshots.erase waiter } })
    | none => (.elapsed, s)
  | o => env.step s o

theorem parStep_interp (env : Env) (s : Engine) (o : Op) :
    parInterp s o (env.parStep s o).1 (env.parStep s o).2 := by
  cases o with
  | awaitResponse k waiter =>
    match hsent : s.tdp.oneshots.lookup waiter with
    | some result =>
      simp only [Env.parStep, hsent]
      exact ⟨hsent, rfl⟩
    | none =>
      simp only [Env.parStep, hsent]
      exact ⟨hsent, rfl⟩
  | _ => exact ⟨env, rfl⟩

/-- Two clients have declared on the same template. -/
def Sample.twoDeclared : Engine :=
  Engine.new.after Sample.crates Sample.wiring (Sample.announce (U256.fill 1) ++
    [(Sample.online, Sample.declare 7 3 [9]), (Sample.online, Sample.declare 8 4 [9])])

/-- Both set their custom jobs. -/
def Sample.twoCalls : Config engineSig Engine SetCustomMiningJobResult Bool :=
  customCalls Sample.crates Sample.wiring Sample.twoDeclared
    (fun _ => Sample.customJob (U256.fill 1) [9]) fun b => if b then 4 else 3

/-- The Template Provider sends the bodies of the template. -/
def Sample.answer : Bool ⊕ TemplateDistribution :=
  .inr (.requestTransactionDataSuccess 1 [Sample.body.serialize])

/-- A call up to its request, the answer, and the rest of the call. -/
def Sample.alone (b : Bool) : List (Bool ⊕ TemplateDistribution) :=
  List.replicate 5 (.inl b) ++ [Sample.answer] ++ List.replicate 3 (.inl b)

/-- The second call runs while the request of the first is in flight. -/
def Sample.overlapping : List (Bool ⊕ TemplateDistribution) :=
  List.replicate 5 (.inl false) ++ List.replicate 6 (.inl true) ++ [Sample.answer] ++
    List.replicate 4 (.inl false)

/-- bitcoind rejects every block. -/
def Sample.rejecting : Env :=
  { Sample.online with validate := fun _ => some (.rejected "bad-cb-amount") }

/-- One call after the other: the second is validated too. -/
theorem preflight_not_bypassed_in_turn :
    let c := Sample.twoCalls.play Sample.online.parStep teeAct
      (Sample.alone false ++ Sample.alone true)
    (c.threads true).prog = .ret .success ∧
    Validated Sample.crates (Sample.customJob (U256.fill 1) [9]) (c.threads true).log := by
  intro c
  have htrace : Trace (UndisturbedStep Sample.crates) Sample.twoCalls _ c :=
    Config.play_trace (G := fun s l => answered l = true ∧ undisturbed Sample.crates s l = true)
      _ teeAct (parStep_interp Sample.online) _ Sample.twoCalls (by decide +kernel)
  have hret : (c.threads true).prog = .ret .success := Prog.eq_ret_of_result? (by decide +kernel)
  exact ⟨hret, preflight_not_bypassed rfl rfl (reachable_after _ _ _) htrace hret⟩

/-- The second call succeeds without a question to bitcoind, which rejects
    the block of the first. -/
theorem preflight_bypassed_by_overlap :
    let c := Sample.twoCalls.play Sample.rejecting.parStep teeAct Sample.overlapping
    Reachable Sample.crates Sample.wiring Sample.twoDeclared ∧
    Trace AnsweredStep Sample.twoCalls
      ((Sample.twoCalls.steps Sample.rejecting.parStep teeAct Sample.overlapping).map Prod.snd) c ∧
    (c.threads true).prog = .ret .success ∧
    (c.threads false).prog = .ret (.error .invalidCoinbaseTx) ∧
    ¬ Validated Sample.crates (Sample.customJob (U256.fill 1) [9]) (c.threads true).log := by
  intro c
  have hplayed : (c.threads true).prog.result? = some .success ∧
      (c.threads false).prog.result? = some (.error .invalidCoinbaseTx) ∧
      ((c.threads true).log.any fun e => match e with
        | ⟨.validateBlockProposal _, _⟩ => true
        | _ => false) = false := by decide +kernel
  obtain ⟨hsuccess, herror, hlog⟩ := hplayed
  refine ⟨reachable_after _ _ _, Config.play_trace (G := fun _ l => answered l = true) _ teeAct
    (parStep_interp Sample.rejecting) Sample.overlapping Sample.twoCalls (by decide +kernel),
    Prog.eq_ret_of_result? hsuccess, Prog.eq_ret_of_result? herror, ?_⟩
  intro h
  obtain ⟨r, job, k, waiter, l, txBodies, b, -, -, -, -, -, hb | hb⟩ := h
  · exact List.any_eq_false.mp hlog _ hb rfl
  · exact List.any_eq_false.mp hlog _ hb rfl

end Sv2P2pool
