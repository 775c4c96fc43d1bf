import Sv2P2pool.Preflight

/-! # Overlapping Job Calls

    Declarations, custom jobs, solutions, reorg notifications and the flushes
    of the reorg watcher run at the same time, one atomic operation after the
    other, while the tee delivers Template Provider messages. `Conforms` says
    once in which order a call touches the two job maps and with which
    values; the invariants of the following modules are derived from it.
-/

namespace Sv2P2pool

open ByteCodec Bitcoin Interleave

/-! ## The system -/

inductive JobCall where
  | declare (d : DeclareMiningJob) (pmts : Option ProvideMissingTransactionsSuccess)
  | setCustom (m : SetCustomMiningJob) (t : JdToken)
  | push (ps : PushSolution)
  | reorg (newTip : BlockHash)
  /-- `reorg_invalidator_loop`, once. -/
  | flush

inductive JobAnswer where
  | declared (result : DeclareMiningJobResult)
  | custom (result : SetCustomMiningJobResult)
  | done
  deriving DecidableEq

section

variable (cr : Crates) (w : Wiring)

def JobCall.prog : JobCall → Handler JobAnswer
  | .declare d pmts => handleDeclareMiningJob cr w d pmts >>= fun result => pure (.declared result)
  | .setCustom m t => handleSetCustomMiningJob cr w m t >>= fun result => pure (.custom result)
  | .push ps => handlePushSolution cr w ps >>= fun _ => pure .done
  | .reorg newTip => notifyShareChainReorg w newTip >>= fun _ => pure .done
  | .flush => invalidatorFlush w >>= fun _ => pure .done

/-- What a call may do. -/
def JobCall.performs : JobCall → Op → Prop
  | .declare _ _ => Op.ofDeclare
  | .setCustom _ _ => Op.ofSetCustom
  | .push _ => Op.ofPush
  | .reorg _ | .flush => Op.ofReorg

theorem JobCall.only_prog (call : JobCall) : (call.prog cr w).Only call.performs := by
  cases call with
  | declare d pmts => exact Prog.Only.bind (only_declare cr w d pmts) fun _ => trivial
  | setCustom m t => exact Prog.Only.bind (only_setCustom cr w m t) fun _ => trivial
  | push ps => exact Prog.Only.bind (only_push cr w ps) fun _ => trivial
  | reorg newTip => exact Prog.Only.bind (only_reorg w newTip) fun _ => trivial
  | flush => exact Prog.Only.bind (only_invalidatorFlush w) fun _ => trivial

/-- The calls, none of which has started. -/
def jobCalls {ι : Type} (s : Engine) (call : ι → JobCall) :
    Config engineSig Engine JobAnswer ι :=
  ⟨s, fun i => ⟨(call i).prog cr w, []⟩⟩

/-- The step inserts a job. -/
def jobInserted {ι E : Type} : Label engineSig ι E → Option (RequestId × DeclaredJob)
  | .thread _ ⟨.jobsInsert r job, _⟩ => some (r, job)
  | _ => none

/-! ## What a call does to the job maps -/

/-- The operation has nothing to do with declared jobs and their tokens. -/
def Op.aside : Op → Prop
  | .jobsInsert _ _ | .jobsRemove _ | .jobsFindBySolution _ _ _ | .jobsGet _ => False
  | .jobsClear | .jobsRetain _ => False
  | .tokensGet _ | .tokensInsert _ _ | .tokensRemove _ => False
  | .spawnSubmitBlock _ => False
  | _ => True

/-- The job that a declaration caches. -/
def Snapshot (d : DeclareMiningJob) (pmts : Option ProvideMissingTransactionsSuccess)
    (t : JdToken) (job : DeclaredJob) : Prop :=
  ∃ txs tip templateId shareChainTip, checkDeclaration cr d pmts = .ok (t, txs) ∧
    job = declaredSnapshot cr d t txs tip templateId shareChainTip

/-- When a call may perform an operation: a declaration inserts its job and
    then its token; a custom job reads its token, removes it and then removes
    the job it read; a solution finds a job and then reads it, and submits a
    block rebuilt from that job. -/
def Conforms (call : JobCall) (log : List (Event engineSig)) : Op → Prop
  | .jobsInsert r job => ∃ d pmts t, call = .declare d pmts ∧ r = d.requestId ∧
    Snapshot cr d pmts t job ∧ ∀ r' job', ⟨.jobsInsert r' job', ()⟩ ∉ log
  | .tokensInsert t r => ∃ d pmts job, call = .declare d pmts ∧ r = d.requestId ∧
    Snapshot cr d pmts t job ∧ ⟨.jobsInsert r job, ()⟩ ∈ log ∧
    ∀ t' r', ⟨.tokensInsert t' r', ()⟩ ∉ log
  | .tokensGet t => ∃ m, call = .setCustom m t ∧ log = []
  | .tokensRemove t => ∃ m r, call = .setCustom m t ∧ log = [⟨.tokensGet t, some r⟩]
  | .jobsRemove r => ∃ m t, call = .setCustom m t ∧
    log = [⟨.tokensGet t, some r⟩, ⟨.tokensRemove t, ()⟩]
  | .jobsFindBySolution prevHash nbits version => ∃ ps, call = .push ps ∧
    prevHash = ps.prevHash ∧ nbits = ps.nbits ∧ version = ps.version
  | .jobsGet r => ∃ ps, call = .push ps ∧
    log.getLast? = some ⟨.jobsFindBySolution ps.prevHash ps.nbits ps.version, some r⟩
  | .jobsClear | .jobsRetain _ => (∃ newTip, call = .reorg newTip) ∨ call = .flush
  | .spawnSubmitBlock block => ∃ ps r job txBodies, call = .push ps ∧
    ⟨.jobsGet r, some job⟩ ∈ log ∧ reconstructBlock cr job ps txBodies = .ok block
  | _ => True

/-- How a custom job has used its token, and the job it has consumed. -/
inductive Consumed (t : JdToken) (log : List (Event engineSig)) : Option DeclaredJob → Prop where
  | unknown (h : ⟨.tokensGet t, none⟩ ∈ log) : Consumed t log none
  | resolved (r : RequestId) (job : Option DeclaredJob) (h : ⟨.tokensGet t, some r⟩ ∈ log)
      (hremove : ⟨.tokensRemove t, ()⟩ ∈ log) (hjob : ⟨.jobsRemove r, job⟩ ∈ log) :
      Consumed t log job

/-- The answers to a custom job, from the job it has consumed. -/
def Answered (m : SetCustomMiningJob) : Option DeclaredJob → SetCustomMiningJobResult → Prop
  | none, result => result = .error .invalidMiningJobToken
  | some job, .success => crossCheck cr job m = .ok ()
  | some job, .error code => crossCheck cr job m = .error code ∨
    crossCheck cr job m = .ok () ∧ code = .invalidCoinbaseTx

/-- What a call has done when it answers. -/
def Concluded (call : JobCall) (log : List (Event engineSig)) : JobAnswer → Prop
  | .declared .success => ∃ d pmts t job, call = .declare d pmts ∧ Snapshot cr d pmts t job ∧
    ⟨.jobsInsert d.requestId job, ()⟩ ∈ log ∧ ⟨.tokensInsert t d.requestId, ()⟩ ∈ log
  | .custom result => ∃ m t job, call = .setCustom m t ∧ Consumed t log job ∧
    Answered cr m job result
  | _ => True

variable {cr w} {α : Type} {log : List (Event engineSig)} {call : JobCall}

/-! ### Programs that stay aside -/

theorem aside_bump (c : Counter) (n : Nat) : (bump w c n).Only Op.aside :=
  only_bump w (by trivial)

theorem aside_requestTxBodies (k : UInt64) : (requestTxBodies cr k).Only Op.aside := by
  refine Prog.Only.mono (fun o ho => ?_) (only_requestTxBodies cr k)
  cases o <;> first | exact ho.elim | trivial

theorem aside_of_reads {p : Handler α} (h : p.Only Op.isRead) : p.Only Op.aside := by
  refine Prog.Only.mono (fun o ho => ?_) h
  cases o <;> first | exact ho.elim | trivial

theorem aside_proposalCheck (declared : DeclaredJob) (m : SetCustomMiningJob) :
    (proposalCheck cr w declared m).Only Op.aside := by
  refine Prog.Only.mono (fun o ho => ?_) (ofCustom_proposalCheck cr w declared m)
  cases o <;> first | exact ho.elim | trivial

/-- The pre-flight rejects with one code. -/
theorem returns_proposalCheck (declared : DeclaredJob) (m : SetCustomMiningJob) :
    (proposalCheck cr w declared m).Returns fun result =>
      ∀ code, result = .error code → code = .invalidCoinbaseTx := by
  have hskip : (bump w .setCustomMiningJobValidationSkipped 1 >>= fun _ =>
      (pure .success : Handler SetCustomMiningJobResult)).Returns fun result =>
        ∀ code, result = .error code → code = .invalidCoinbaseTx :=
    Prog.Returns.bind fun _ code h => by cases h
  have hreject : ∀ c, (bump w c 1 >>= fun _ =>
      (pure (.error .invalidCoinbaseTx) : Handler SetCustomMiningJobResult)).Returns fun result =>
        ∀ code, result = .error code → code = .invalidCoinbaseTx := by
    intro c
    refine Prog.Returns.bind fun _ code h => ?_
    cases h
    rfl
  unfold proposalCheck
  cases w.tdp with
  | false => exact hskip
  | true =>
    cases w.handles with
    | false => exact hskip
    | true =>
      cases declared.templateId with
      | none => exact hskip
      | some k =>
        refine Prog.Returns.bind fun fetched => ?_
        cases fetched with
        | error e => exact hskip
        | ok txBodies =>
          simp only
          cases buildCandidateBlock cr declared m txBodies with
          | error e =>
            intro code h
            cases h
            rfl
          | ok candidate =>
            intro verdict
            rcases verdict with _ | _ | _ | reason
            · exact hreject _
            · intro code h
              cases h
            · intro code h
              cases h
            · exact hreject _

/-- A program that stays aside conforms, and keeps what a longer log keeps. -/
theorem aside_spec {p : Handler α} (h : p.Only Op.aside) {R : List (Event engineSig) → Prop}
    (hR : ∀ log e, Op.aside e.1 → R log → R (log ++ [e])) (hlog : R log) :
    p.Spec (Conforms cr call) (fun log _ => R log) log := by
  refine Prog.Only.spec (fun log o ho => ?_) (fun log o r hr ho => hR log ⟨o, r⟩ ho hr) h hlog
  cases o <;> trivial

/-- Counting before a result. -/
theorem bump_conforms (c : Counter) (n : Nat) (a : α) :
    (bump w c n >>= fun _ => pure a).Spec (Conforms cr call)
      (fun log' a' => a' = a ∧ log ⊆ log') log := by
  unfold bump
  split_ifs
  · exact ⟨trivial, fun _ => ⟨rfl, List.subset_append_left _ _⟩⟩
  · exact ⟨rfl, List.Subset.refl _⟩

theorem declareResult_conforms (result : DeclareMiningJobResult) :
    (declareResult w result).Spec (Conforms cr call)
      (fun log' a => a = result ∧ log ⊆ log') log := by
  cases result <;> exact bump_conforms _ _ _

theorem setCustomResult_conforms (result : SetCustomMiningJobResult) :
    (setCustomResult w result).Spec (Conforms cr call)
      (fun log' a => a = result ∧ log ⊆ log') log := by
  cases result <;> exact bump_conforms _ _ _

/-- From a handler's result to the call's answer. -/
theorem answer_conforms {p : Handler α} {f : α → JobAnswer}
    (h : p.Spec (Conforms cr call) (fun log a => Concluded cr call log (f a)) log) :
    (p >>= fun a => pure (f a)).Spec (Conforms cr call) (Concluded cr call) log :=
  Prog.Spec.bind (f := fun a => .ret (f a)) (fun _ _ h => h) h

/-! ### The handlers conform -/

/-- Nothing has been declared. -/
def NoInsert (log : List (Event engineSig)) : Prop :=
  (∀ r job, ⟨.jobsInsert r job, ()⟩ ∉ log) ∧ ∀ t r, ⟨.tokensInsert t r, ()⟩ ∉ log

theorem NoInsert.snoc (log : List (Event engineSig)) (e : Event engineSig) (he : Op.aside e.1)
    (h : NoInsert log) : NoInsert (log ++ [e]) := by
  refine ⟨fun r job hmem => ?_, fun t r hmem => ?_⟩
  · rcases List.mem_append.mp hmem with hmem | hmem
    · exact h.1 r job hmem
    · rw [← List.mem_singleton.mp hmem] at he
      exact he
  · rcases List.mem_append.mp hmem with hmem | hmem
    · exact h.2 t r hmem
    · rw [← List.mem_singleton.mp hmem] at he
      exact he

theorem declare_conforms (d : DeclareMiningJob)
    (pmts : Option ProvideMissingTransactionsSuccess) :
    ((JobCall.declare d pmts).prog cr w).Spec (Conforms cr (.declare d pmts))
      (Concluded cr (.declare d pmts)) [] := by
  apply answer_conforms
  unfold handleDeclareMiningJob
  cases hcheck : checkDeclaration cr d pmts with
  | error result =>
    refine (declareResult_conforms result).imp fun log a ha => ?_
    obtain ⟨rfl, -⟩ := ha
    cases a with
    | success => exact absurd hcheck (checkDeclaration_ne_success cr)
    | _ => trivial
  | ok accepted =>
    obtain ⟨t, txs⟩ := accepted
    have hnone : NoInsert [] := by simp [NoInsert]
    refine Prog.Spec.bind (fun log tip hlog => ?_)
      (aside_spec (aside_of_reads (reads_captureTip w)) NoInsert.snoc hnone)
    refine Prog.Spec.bind (fun log' share hlog' => ?_)
      (aside_spec (aside_of_reads (reads_captureShareChainTip w)) NoInsert.snoc hlog)
    have hsnapshot : Snapshot cr d pmts t (declaredSnapshot cr d t txs tip.1 tip.2 share) :=
      ⟨txs, tip.1, tip.2, share, hcheck, rfl⟩
    refine ⟨⟨d, pmts, t, rfl, rfl, hsnapshot, hlog'.1⟩, fun _ => ⟨?_, fun _ => ?_⟩⟩
    · refine ⟨d, pmts, _, rfl, rfl, hsnapshot, by simp, fun t' r' hmem => ?_⟩
      exact hlog'.2 t' r' (by simpa using hmem)
    · refine (declareResult_conforms .success).imp fun log'' a ha => ?_
      obtain ⟨rfl, hsub⟩ := ha
      exact ⟨d, pmts, t, _, rfl, hsnapshot, hsub (by simp), hsub (by simp)⟩

theorem Consumed.mono {t : JdToken} {log' : List (Event engineSig)} (hsub : log ⊆ log')
    {job : Option DeclaredJob} (h : Consumed t log job) : Consumed t log' job := by
  cases h with
  | unknown h => exact .unknown (hsub h)
  | resolved r job h hremove hjob => exact .resolved r job (hsub h) (hsub hremove) (hsub hjob)

/-- From the verdict on the consumed job to the answer. -/
theorem answered_conforms {m : SetCustomMiningJob} {t : JdToken} {job : Option DeclaredJob}
    (hlog : Consumed t log job) {result : SetCustomMiningJobResult}
    (h : Answered cr m job result) :
    (setCustomResult w result).Spec (Conforms cr (.setCustom m t))
      (fun log result => Concluded cr (.setCustom m t) log (.custom result)) log := by
  refine (setCustomResult_conforms result).imp fun log' a ha => ?_
  obtain ⟨rfl, hsub⟩ := ha
  exact ⟨m, t, job, rfl, hlog.mono hsub, h⟩

theorem setCustom_conforms (m : SetCustomMiningJob) (t : JdToken) :
    ((JobCall.setCustom m t).prog cr w).Spec (Conforms cr (.setCustom m t))
      (Concluded cr (.setCustom m t)) [] := by
  apply answer_conforms
  unfold handleSetCustomMiningJob consumeDeclared
  refine ⟨⟨m, rfl, rfl⟩, fun found => ?_⟩
  cases found with
  | none => exact answered_conforms (.unknown (by simp)) rfl
  | some r =>
    refine ⟨⟨m, r, rfl, rfl⟩, fun _ => ⟨⟨m, t, rfl, rfl⟩, fun consumed => ?_⟩⟩
    have hconsumed : Consumed t [⟨.tokensGet t, some r⟩, ⟨.tokensRemove t, ()⟩,
        ⟨.jobsRemove r, consumed⟩] consumed :=
      .resolved r consumed (by simp) (by simp) (by simp)
    cases consumed with
    | none => exact answered_conforms hconsumed rfl
    | some job =>
      show (validateCustom cr w m (some job)).Spec _ _ _
      cases hcross : crossCheck cr job m with
      | error code =>
        simp only [validateCustom, hcross]
        exact answered_conforms hconsumed (Or.inl hcross)
      | ok checked =>
        simp only [validateCustom, hcross]
        refine Prog.Spec.bind (fun log result hlog => ?_) (Prog.Spec.returns
          (returns_proposalCheck job m) (aside_spec (R := fun log => Consumed t log (some job))
            (aside_proposalCheck job m) (fun _ _ _ h => h.mono (List.subset_append_left _ _))
            hconsumed))
        refine answered_conforms hlog.1 ?_
        cases result with
        | success => exact hcross
        | error code => exact Or.inr ⟨hcross, hlog.2 code rfl⟩

theorem deliverBlock_conforms {ps : PushSolution} {r : RequestId} {job : DeclaredJob}
    {txBodies : List Transaction} {block : Block} (hget : ⟨.jobsGet r, some job⟩ ∈ log)
    (hblock : reconstructBlock cr job ps txBodies = .ok block) :
    (deliverBlock cr w ps job block).Spec (Conforms cr (.push ps)) (fun _ _ => True) log := by
  have htail : ∀ log', log ⊆ log' →
      (recordSolution (syntheticShareHash cr ps) (cr.blockHash block.header) >>= fun _ =>
        if w.handles then bump w .blocksSubmitted 1 >>= fun _ => spawnSubmitBlock block
        else pure ()).Spec (Conforms cr (.push ps)) (fun _ _ => True) log' := by
    intro log' hsub
    refine ⟨trivial, fun _ => ?_⟩
    show (if w.handles then _ else _ : Handler Unit).Spec _ _ _
    split_ifs
    · refine Prog.Spec.bind (fun log'' _ hget' => ?_) (aside_spec
        (R := fun log => ⟨.jobsGet r, some job⟩ ∈ log) (aside_bump _ _)
        (fun _ _ _ h => List.mem_append_left _ h) (List.mem_append_left _ (hsub hget)))
      exact ⟨⟨ps, r, job, txBodies, rfl, hget', hblock⟩, fun _ => trivial⟩
    · trivial
  unfold deliverBlock
  cases job.allocatedToken with
  | none => exact htail log (List.Subset.refl _)
  | some token => exact ⟨trivial, fun _ => htail _ (List.subset_append_left _ _)⟩

theorem solveWith_conforms {ps : PushSolution} {r : RequestId} {job : DeclaredJob}
    (hget : ⟨.jobsGet r, some job⟩ ∈ log) :
    (solveWith cr w ps job).Spec (Conforms cr (.push ps)) (fun _ _ => True) log := by
  have hdrop : ∀ log reason, (dropSolution w reason).Spec (Conforms cr (.push ps))
      (fun _ _ => True) log := fun log reason =>
    aside_spec (aside_bump _ _) (R := fun _ => True) (fun _ _ _ _ => trivial) trivial
  unfold solveWith
  cases job.templateId with
  | none => exact ⟨trivial, fun _ => hdrop _ _⟩
  | some k =>
    refine Prog.Spec.bind (fun log' bodies hget' => ?_) (aside_spec
      (R := fun log => ⟨.jobsGet r, some job⟩ ∈ log) (aside_requestTxBodies k)
      (fun _ _ _ h => List.mem_append_left _ h) hget)
    cases bodies with
    | error e => exact hdrop _ _
    | ok txBodies =>
      simp only
      cases hblock : reconstructBlock cr job ps txBodies with
      | error e => exact hdrop _ _
      | ok block => exact deliverBlock_conforms hget' hblock

theorem push_conforms (ps : PushSolution) :
    ((JobCall.push ps).prog cr w).Spec (Conforms cr (.push ps)) (Concluded cr (.push ps)) [] := by
  apply answer_conforms
  refine Prog.Spec.imp (Q := fun _ _ => True) (fun _ _ _ => trivial) ?_
  have hdrop : ∀ log reason, (dropSolution w reason).Spec (Conforms cr (.push ps))
      (fun _ _ => True) log := fun log reason =>
    aside_spec (aside_bump _ _) (R := fun _ => True) (fun _ _ _ _ => trivial) trivial
  unfold handlePushSolution
  refine Prog.Spec.bind (fun log _ _ => ?_)
    (aside_spec (aside_bump _ _) (R := fun _ => True) (fun _ _ _ _ => trivial) trivial)
  split_ifs
  · refine ⟨⟨ps, rfl, rfl, rfl, rfl⟩, fun found => ?_⟩
    cases found with
    | none => exact hdrop _ _
    | some r =>
      refine ⟨⟨ps, rfl, by simp⟩, fun answer => ?_⟩
      cases answer with
      | none => exact hdrop _ _
      | some job => exact solveWith_conforms (r := r) (by simp)
  · exact ⟨trivial, fun _ => hdrop _ _⟩

/-- Counting what was dropped. -/
theorem counted_conforms (n : Nat) (c : Counter) :
    (bump w c n).Spec (Conforms cr call) (fun _ _ => True) log :=
  aside_spec (aside_bump c n) (R := fun _ => True) (fun _ _ _ _ => trivial) trivial

theorem reorg_conforms (newTip : BlockHash) :
    ((JobCall.reorg newTip).prog cr w).Spec (Conforms cr (.reorg newTip))
      (Concluded cr (.reorg newTip)) [] := by
  apply answer_conforms
  refine Prog.Spec.imp (Q := fun _ _ => True) (fun _ _ _ => trivial) ?_
  have hall : ∀ log, (invalidateAll >>= bump w .jobsInvalidatedTotal).Spec
      (Conforms cr (.reorg newTip)) (fun _ _ => True) log := fun log =>
    ⟨trivial, fun n => ⟨Or.inl ⟨newTip, rfl⟩, fun _ => counted_conforms n _⟩⟩
  unfold notifyShareChainReorg
  refine Prog.Spec.bind (fun log _ _ => ?_) (counted_conforms 1 _)
  split_ifs
  · refine Prog.Spec.bind (fun log' walked _ => ?_)
      (aside_spec (aside_of_reads (reads_walkAncestors _ _ _)) (R := fun _ => True)
        (fun _ _ _ _ => trivial) trivial)
    cases walked with
    | none => exact hall log'
    | some ancestors => exact ⟨Or.inl ⟨newTip, rfl⟩, fun n => counted_conforms n _⟩
  · exact hall log

theorem flush_conforms :
    (JobCall.flush.prog cr w).Spec (Conforms cr .flush) (Concluded cr .flush) [] := by
  apply answer_conforms
  refine Prog.Spec.imp (Q := fun _ _ => True) (fun _ _ _ => trivial) ?_
  refine ⟨trivial, fun n => ⟨Or.inr rfl, fun _ => ?_⟩⟩
  exact Prog.Spec.bind (fun log _ _ => counted_conforms n _) (counted_conforms 1 _)

theorem jobCall_conforms (call : JobCall) :
    (call.prog cr w).Spec (Conforms cr call) (Concluded cr call) [] := by
  cases call with
  | declare d pmts => exact declare_conforms d pmts
  | setCustom m t => exact setCustom_conforms m t
  | push ps => exact push_conforms ps
  | reorg newTip => exact reorg_conforms newTip
  | flush => exact flush_conforms

/-! ## Runs -/

section runs

variable {ι : Type} [DecidableEq ι] {call : ι → JobCall} {s : Engine}
  {labels : List (Label engineSig ι TemplateDistribution)}
  {c : Config engineSig Engine JobAnswer ι}

/-- One operation of a call or one Template Provider message. -/
abbrev JobStep : Config engineSig Engine JobAnswer ι → Label engineSig ι TemplateDistribution →
    Config engineSig Engine JobAnswer ι → Prop :=
  Step parInterp teeAct

/-- In every interleaving all calls conform, and so did all they have done. -/
theorem conforms_of_trace (h : Trace JobStep (jobCalls cr w s call) labels c) (i : ι) :
    (c.threads i).prog.Spec (Conforms cr (call i)) (Concluded cr (call i)) (c.threads i).log ∧
      Logged (Conforms cr (call i)) (c.threads i).log :=
  spec_of_trace (P := fun i => Conforms cr (call i)) (Q := fun i => Concluded cr (call i))
    (fun i => jobCall_conforms (call i)) (fun _ => logged_nil _) h i

/-- A step of a call conforms. -/
theorem conforms_of_step (h : Trace JobStep (jobCalls cr w s call) labels c) {i : ι} {o : Op}
    {k : o.Res → Handler JobAnswer} (hprog : (c.threads i).prog = .op o k) :
    Conforms cr (call i) (c.threads i).log o := by
  have hspec := (conforms_of_trace h i).1
  rw [hprog] at hspec
  exact hspec.1

/-- What a call that answered has done. -/
theorem concluded_of_trace (h : Trace JobStep (jobCalls cr w s call) labels c) {i : ι}
    {answer : JobAnswer} (hret : (c.threads i).prog = .ret answer) :
    Concluded cr (call i) (c.threads i).log answer := by
  have hspec := (conforms_of_trace h i).1
  rw [hret] at hspec
  exact hspec

/-- A custom job that succeeded has consumed a job. -/
theorem consumed_of_success (h : Trace JobStep (jobCalls cr w s call) labels c) {i : ι}
    (hret : (c.threads i).prog = .ret (.custom .success)) :
    ∃ r job, ⟨.jobsRemove r, some job⟩ ∈ (c.threads i).log := by
  obtain ⟨m, t, job, -, hconsumed, hanswer⟩ := concluded_of_trace h hret
  cases hconsumed with
  | unknown _ => cases hanswer
  | resolved r job _ _ hjob =>
    cases job with
    | none => cases hanswer
    | some job => exact ⟨r, job, hjob⟩

end runs

end

/-! ## Sample calls -/

namespace Sample

def declaring (r : RequestId) (token : UInt8) : JobCall :=
  .declare (declaration r token [9]) (some ⟨[body.serialize]⟩)

def setting (token : JdToken) : JobCall := .setCustom (customJob (U256.fill 1) [9]) token

/-- The steps of a schedule. -/
def played {ι : Type} [DecidableEq ι] (c : Config engineSig Engine JobAnswer ι)
    (schedule : List (ι ⊕ TemplateDistribution)) :
    List (Label engineSig ι TemplateDistribution) :=
  (c.moves online.parStep teeAct schedule).map Prod.snd

theorem played_run {ι : Type} [DecidableEq ι] (c : Config engineSig Engine JobAnswer ι)
    (schedule : List (ι ⊕ TemplateDistribution)) :
    Trace JobStep c (played c schedule) (c.play online.parStep teeAct schedule) :=
  Config.play_run _ teeAct (parStep_interp online) schedule c

end Sample

end Sv2P2pool
