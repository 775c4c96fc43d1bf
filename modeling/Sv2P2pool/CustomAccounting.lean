import Mathlib.Algebra.BigOperators.Group.Finset.Piecewise
import Mathlib.Algebra.Order.BigOperators.Group.Finset
import Sv2P2pool.Overlap

/-! # The Accounting of Custom Jobs

    Every exit of `handle_set_custom_mining_job` counts its answer as accepted
    or rejected. An acceptance is confirmed by bitcoind or counted as skipped,
    and a rejection that comes from bitcoind is counted under its reason. The
    ledger of one call is read off its log, whatever its operations answered;
    the counters of overlapping calls are the sum of their logs.
-/

namespace Sv2P2pool

open ByteCodec Bitcoin Interleave

/-! ## Counting in a log -/

/-- What an operation adds to a counter. -/
def bumpedBy (x : Counter) : Event engineSig → Nat
  | ⟨.bump x' n, _⟩ => if x' = x then n else 0
  | _ => 0

/-- What the operations of a log add to a counter. -/
def bumps (log : List (Event engineSig)) (x : Counter) : Nat := (log.map (bumpedBy x)).sum

/-- What `validate_block_proposal` returned; `none` is an RPC error. -/
abbrev Verdict := Option ProposalOutcome

def verdict? : Event engineSig → Option Verdict
  | ⟨.validateBlockProposal _, verdict⟩ => some verdict
  | _ => none

/-- What bitcoind answered in a log. -/
def verdicts (log : List (Event engineSig)) : List Verdict := log.filterMap verdict?

/-- `Ok(Accepted)` or `Ok(Duplicate)`. -/
def Verdict.confirms : Verdict → Bool
  | some .accepted | some .duplicate => true
  | _ => false

/-- `Ok(Rejected(_))`. -/
def Verdict.rejects : Verdict → Bool
  | some (.rejected _) => true
  | _ => false

/-- `Err(_)`. -/
def Verdict.fails : Verdict → Bool
  | none => true
  | some _ => false

@[simp] theorem bumps_nil (x : Counter) : bumps [] x = 0 := rfl

@[simp] theorem bumps_cons (e : Event engineSig) (log : List (Event engineSig)) (x : Counter) :
    bumps (e :: log) x = bumpedBy x e + bumps log x := by
  simp [bumps]

@[simp] theorem bumps_append (log log' : List (Event engineSig)) (x : Counter) :
    bumps (log ++ log') x = bumps log x + bumps log' x := by
  simp [bumps]

@[simp] theorem verdicts_nil : verdicts [] = [] := rfl

@[simp] theorem verdicts_cons (e : Event engineSig) (log : List (Event engineSig)) :
    verdicts (e :: log) = (verdict? e).toList ++ verdicts log := by
  cases h : verdict? e <;> simp [verdicts, h]

@[simp] theorem verdicts_append (log log' : List (Event engineSig)) :
    verdicts (log ++ log') = verdicts log ++ verdicts log' := by
  simp [verdicts]

/-! ## The ledger -/

/-- What the counters gain by a number of calls, of which some were confirmed
    by bitcoind and some rejected, and for some of which the RPC failed. -/
structure CustomLedger (gained : Counter → Nat) (calls confirmed rejected failed : Nat) :
    Prop where
  calls_eq : gained .setCustomMiningJobAccepted + gained .setCustomMiningJobRejected = calls
  accepted_eq : gained .setCustomMiningJobAccepted =
    gained .setCustomMiningJobValidationSkipped + confirmed
  consensus_eq : gained (.setCustomMiningJobProposalRejected .consensusRejected) = rejected
  rpc_eq : gained (.setCustomMiningJobProposalRejected .rpcError) = failed
  rejected_ge : gained (.setCustomMiningJobProposalRejected .consensusRejected) +
    gained (.setCustomMiningJobProposalRejected .rpcError) ≤ gained .setCustomMiningJobRejected

/-- Ledgers add up. -/
theorem CustomLedger.sum {ι : Type} [DecidableEq ι] {gained : ι → Counter → Nat}
    {calls confirmed rejected failed : ι → Nat} (T : Finset ι)
    (h : ∀ i ∈ T, CustomLedger (gained i) (calls i) (confirmed i) (rejected i) (failed i)) :
    CustomLedger (fun x => ∑ i ∈ T, gained i x) (∑ i ∈ T, calls i) (∑ i ∈ T, confirmed i)
      (∑ i ∈ T, rejected i) (∑ i ∈ T, failed i) where
  calls_eq := by
    rw [← Finset.sum_add_distrib]
    exact Finset.sum_congr rfl fun i hi => (h i hi).calls_eq
  accepted_eq := by
    rw [← Finset.sum_add_distrib]
    exact Finset.sum_congr rfl fun i hi => (h i hi).accepted_eq
  consensus_eq := Finset.sum_congr rfl fun i hi => (h i hi).consensus_eq
  rpc_eq := Finset.sum_congr rfl fun i hi => (h i hi).rpc_eq
  rejected_ge := by
    rw [← Finset.sum_add_distrib]
    exact Finset.sum_le_sum fun i hi => (h i hi).rejected_ge

/-! ## One call -/

/-- No custom job counted and nothing proposed. -/
def Unmarked (log : List (Event engineSig)) : Prop :=
  (∀ x : Counter, x.OfCustom → bumps log x = 0) ∧ verdicts log = []

theorem unmarked_nil : Unmarked [] := ⟨fun _ _ => rfl, rfl⟩

/-- The log of a call that is about to count its result: the exits of the
    proposal check mark it, all others leave it unmarked. -/
structure Proposed (log : List (Event engineSig)) (result : SetCustomMiningJobResult) : Prop where
  accepted : bumps log .setCustomMiningJobAccepted = 0
  rejected : bumps log .setCustomMiningJobRejected = 0
  asked_once : (verdicts log).length ≤ 1
  confirmed : bumps log .setCustomMiningJobValidationSkipped +
    (verdicts log).countP Verdict.confirms = if result = .success then 1 else 0
  consensus : bumps log (.setCustomMiningJobProposalRejected .consensusRejected) =
    (verdicts log).countP Verdict.rejects
  rpc : bumps log (.setCustomMiningJobProposalRejected .rpcError) =
    (verdicts log).countP Verdict.fails
  refused : bumps log (.setCustomMiningJobProposalRejected .consensusRejected) +
    bumps log (.setCustomMiningJobProposalRejected .rpcError) ≤ if result = .success then 0 else 1

/-- The ledger of a log. -/
def Ledgered (calls : Nat) (log : List (Event engineSig)) : Prop :=
  (verdicts log).length ≤ 1 ∧ CustomLedger (bumps log) calls
    ((verdicts log).countP Verdict.confirms) ((verdicts log).countP Verdict.rejects)
    ((verdicts log).countP Verdict.fails)

/-- The counters of an unmarked log. -/
theorem Unmarked.counters {log : List (Event engineSig)} (h : Unmarked log) :
    bumps log .setCustomMiningJobAccepted = 0 ∧ bumps log .setCustomMiningJobRejected = 0 ∧
      bumps log .setCustomMiningJobValidationSkipped = 0 ∧
      ∀ reason, bumps log (.setCustomMiningJobProposalRejected reason) = 0 :=
  ⟨h.1 _ trivial, h.1 _ trivial, h.1 _ trivial, fun _ => h.1 _ trivial⟩

theorem Unmarked.ledgered {log : List (Event engineSig)} (h : Unmarked log) : Ledgered 0 log := by
  obtain ⟨haccepted, hrejected, hskipped, hproposal⟩ := h.counters
  rw [Ledgered, h.2]
  refine ⟨Nat.zero_le 1, ?_⟩
  constructor <;> simp [haccepted, hrejected, hskipped, hproposal]

section

variable {cr : Crates} {w : Wiring} {log : List (Event engineSig)}

/-- An operation that neither counts a custom job nor asks bitcoind. -/
def Op.Silent : Op → Prop
  | .bump x _ => ¬ x.OfCustom
  | .validateBlockProposal _ => False
  | _ => True

theorem Unmarked.snoc (h : Unmarked log) {o : Op} (ho : o.Silent) (r : o.Res) :
    Unmarked (log ++ [⟨o, r⟩]) := by
  have hevent : (∀ x : Counter, x.OfCustom → bumpedBy x ⟨o, r⟩ = 0) ∧ verdict? ⟨o, r⟩ = none := by
    cases o with
    | bump x' n =>
      refine ⟨fun x hx => if_neg ?_, rfl⟩
      intro heq
      subst heq
      exact ho hx
    | validateBlockProposal b => exact ho.elim
    | _ => exact ⟨fun _ _ => rfl, rfl⟩
  refine ⟨fun x hx => ?_, ?_⟩
  · simp [h.1 x hx, hevent.1 x hx]
  · simp [h.2, hevent.2]

/-- A program of such operations leaves the log unmarked. -/
theorem unmarked_spec {α : Type} {p : Handler α} (hp : p.Only Op.Silent) (h : Unmarked log) :
    p.Spec (fun _ _ => True) (fun log _ => Unmarked log) log :=
  Prog.Only.spec (fun _ _ _ => trivial) (fun _ _ r hlog ho => hlog.snoc ho r) hp h

theorem silent_consumeDeclared (t : JdToken) : (consumeDeclared t).Only Op.Silent := by
  refine Prog.Only.mono (fun o ho => ?_) (only_consumeDeclared t)
  cases o <;> first | exact ho.elim | trivial

theorem silent_requestTxBodies (k : UInt64) : (requestTxBodies cr k).Only Op.Silent := by
  refine Prog.Only.mono (fun o ho => ?_) (only_requestTxBodies cr k)
  cases o <;> first | exact ho.elim | trivial

/-- An exit before the proposal check. -/
theorem Unmarked.proposed (h : Unmarked log) (code : SetCustomErrorCode) :
    Proposed log (.error code) := by
  obtain ⟨haccepted, hrejected, hskipped, hproposal⟩ := h.counters
  constructor <;> simp [haccepted, hrejected, hskipped, hproposal, h.2]

/-- An acceptance without bitcoind is counted as skipped. -/
theorem skipped_spec (hm : w.metrics = true) (h : Unmarked log) :
    (bump w .setCustomMiningJobValidationSkipped 1 >>= fun _ =>
      (pure .success : Handler SetCustomMiningJobResult)).Spec (fun _ _ => True) Proposed log := by
  obtain ⟨haccepted, hrejected, hskipped, hproposal⟩ := h.counters
  unfold bump
  rw [if_pos hm]
  refine ⟨trivial, fun _ => ?_⟩
  constructor <;> simp [haccepted, hrejected, hskipped, hproposal, h.2, bumpedBy, verdict?]

theorem proposeCandidate_ledger (hm : w.metrics = true) (h : Unmarked log) (candidate : Block) :
    (proposeCandidate w candidate).Spec (fun _ _ => True) Proposed log := by
  obtain ⟨haccepted, hrejected, hskipped, hproposal⟩ := h.counters
  unfold proposeCandidate bump
  rw [if_pos hm, if_pos hm]
  refine ⟨trivial, fun verdict => ?_⟩
  match verdict with
  | some .accepted =>
    constructor <;> simp [haccepted, hrejected, hskipped, hproposal, h.2, bumpedBy, verdict?,
      Verdict.confirms, Verdict.rejects, Verdict.fails]
  | some .duplicate =>
    constructor <;> simp [haccepted, hrejected, hskipped, hproposal, h.2, bumpedBy, verdict?,
      Verdict.confirms, Verdict.rejects, Verdict.fails]
  | some (.rejected reason) =>
    refine ⟨trivial, fun _ => ?_⟩
    constructor <;> simp [haccepted, hrejected, hskipped, hproposal, h.2, bumpedBy, verdict?,
      Verdict.confirms, Verdict.rejects, Verdict.fails]
  | none =>
    refine ⟨trivial, fun _ => ?_⟩
    constructor <;> simp [haccepted, hrejected, hskipped, hproposal, h.2, bumpedBy, verdict?,
      Verdict.confirms, Verdict.rejects, Verdict.fails]

theorem proposalCheck_ledger (hm : w.metrics = true) (h : Unmarked log) (declared : DeclaredJob)
    (m : SetCustomMiningJob) :
    (proposalCheck cr w declared m).Spec (fun _ _ => True) Proposed log := by
  unfold proposalCheck
  match w.tdp, w.handles, declared.templateId with
  | true, true, some k =>
    refine Prog.Spec.bind (fun log' fetched hlog => ?_)
      (unmarked_spec (silent_requestTxBodies k) h)
    match fetched with
    -- the exit from inside the validation branch
    | .error e => exact skipped_spec hm hlog
    | .ok txBodies =>
      simp only
      match buildCandidateBlock cr declared m txBodies with
      | .error e => exact hlog.proposed _
      | .ok candidate => exact proposeCandidate_ledger hm hlog candidate
  | true, true, none => exact skipped_spec hm h
  | true, false, _ => exact skipped_spec hm h
  | false, _, _ => exact skipped_spec hm h

/-- The last step counts the result, once. -/
theorem setCustomResult_ledger (hm : w.metrics = true) {result : SetCustomMiningJobResult}
    (h : Proposed log result) :
    (setCustomResult w result).Spec (fun _ _ => True) (fun log _ => Ledgered 1 log) log := by
  obtain ⟨haccepted, hrejected, honce, hconfirmed, hconsensus, hrpc, hrefused⟩ := h
  have hverdicts : ∀ x u, verdicts (log ++ [⟨.bump x 1, u⟩]) = verdicts log := by
    intro x u
    simp [verdict?]
  have hbumps : ∀ x u y, bumps (log ++ [⟨.bump x 1, u⟩]) y =
      bumps log y + if x = y then 1 else 0 := by
    intro x u y
    simp [bumpedBy]
  unfold setCustomResult bump
  rw [if_pos hm, if_pos hm]
  cases result with
  | success =>
    rw [if_pos rfl] at hconfirmed hrefused
    refine ⟨trivial, fun _ => ?_⟩
    show Ledgered 1 (log ++ [_])
    rw [Ledgered, hverdicts]
    refine ⟨honce, ?_⟩
    constructor <;> simp only [hbumps, reduceCtorEq, if_true, if_false] <;> omega
  | error code =>
    rw [if_neg (by simp)] at hconfirmed hrefused
    refine ⟨trivial, fun _ => ?_⟩
    show Ledgered 1 (log ++ [_])
    rw [Ledgered, hverdicts]
    refine ⟨honce, ?_⟩
    constructor <;> simp only [hbumps, reduceCtorEq, if_true, if_false] <;> omega

/-- Every exit of the handler leaves a balanced ledger. -/
theorem setCustom_ledger (hm : w.metrics = true) (m : SetCustomMiningJob) (t : JdToken) :
    (handleSetCustomMiningJob cr w m t).Spec (fun _ _ => True) (fun log _ => Ledgered 1 log)
      [] := by
  refine Prog.Spec.bind (fun log consumed hlog => ?_)
    (unmarked_spec (silent_consumeDeclared t) unmarked_nil)
  unfold validateCustom
  match consumed with
  | none => exact setCustomResult_ledger hm (hlog.proposed _)
  | some declared =>
    simp only
    match crossCheck cr declared m with
    | .error code => exact setCustomResult_ledger hm (hlog.proposed _)
    | .ok () =>
      exact Prog.Spec.bind (fun _ _ hlog' => setCustomResult_ledger hm hlog')
        (proposalCheck_ledger hm hlog declared m)

/-! ## The other calls -/

/-- The call is a custom job. -/
def JobCall.isCustom : JobCall → Bool
  | .setCustom _ _ => true
  | _ => false

/-- No other call counts custom jobs. -/
theorem JobCall.performs_silent {call : JobCall} (hcall : call.isCustom = false) {o : Op}
    (ho : call.performs o) : o.Silent := by
  cases o with
  | bump x n =>
    cases call with
    | declare d pmts => cases x <;> first | exact ho.elim | exact id
    | setCustom m t => cases hcall
    | push ps => cases x <;> first | exact ho.elim | exact id
    | reorg newTip => rcases ho with rfl | rfl <;> exact id
    | flush => rcases ho with rfl | rfl <;> exact id
  | validateBlockProposal block => cases call <;> first | exact ho.elim | cases hcall
  | _ => trivial

/-- A call that has returned leaves a balanced ledger. -/
theorem jobCall_ledger (hm : w.metrics = true) (call : JobCall) :
    (call.prog cr w).Spec (fun _ _ => True)
      (fun log _ => Ledgered (if call.isCustom then 1 else 0) log) [] := by
  cases hcall : call.isCustom with
  | true =>
    cases call with
    | setCustom m t => exact Prog.Spec.bind (fun _ _ h => h) (setCustom_ledger hm m t)
    | _ => cases hcall
  | false =>
    exact Prog.Spec.imp (fun _ _ h => h.ledgered) (unmarked_spec
      (Prog.Only.mono (fun _ ho => call.performs_silent hcall ho) (call.only_prog cr w))
      unmarked_nil)

end

/-! ## Runs -/

/-- An operation moves a counter by what its event adds to it. -/
theorem parInterp_counters {s s' : Engine} {o : Op} {r : o.Res} (h : parInterp s o r s')
    (x : Counter) : s'.counters x = s.counters x + bumpedBy x ⟨o, r⟩ := by
  cases o with
  | awaitResponse k waiter =>
    cases r with
    | received result =>
      rw [h.2]
      rfl
    | elapsed =>
      rw [h.2]
      rfl
    | senderDropped =>
      rw [h.2.2]
      rfl
  | bump x' n =>
    obtain ⟨env, h⟩ := h
    rw [(Prod.mk.inj h).2]
    by_cases hx : x' = x
    · subst hx
      simp [bumpedBy]
    · simp [bumpedBy, hx, Ne.symm hx]
  | _ =>
    obtain ⟨env, h⟩ := h
    rw [(Prod.mk.inj h).2]
    rfl

section runs

variable {ι : Type} [DecidableEq ι] {cr : Crates} {w : Wiring} {s : Engine} {call : ι → JobCall}
  {labels : List (Label engineSig ι TemplateDistribution)}
  {c : Config engineSig Engine JobAnswer ι}

/-- The counters of overlapping calls are the sum of their logs. -/
theorem counters_eq_sum (h : Trace JobStep (jobCalls cr w s call) labels c) (x : Counter)
    {T : Finset ι} (hidle : ∀ i ∉ T, (c.threads i).log = []) :
    c.shared.counters x = s.counters x + ∑ i ∈ T, bumps (c.threads i).log x := by
  refine Trace.history (P := fun _ c => ∀ T : Finset ι, (∀ i ∉ T, (c.threads i).log = []) →
    c.shared.counters x = s.counters x + ∑ i ∈ T, bumps (c.threads i).log x) ?_ ?_ labels h T hidle
  · intro T _
    simp [jobCalls]
  · intro labels c l c' hinv hstep T hidle
    have hbefore : ∀ i ∉ T, (c.threads i).log = [] := by
      intro i hi
      have hsub := hstep.log_subset i
      rw [hidle i hi] at hsub
      exact List.subset_nil.mp hsub
    cases hstep with
    | env msg => exact hinv T hbefore
    | @thread j o k r s' hprog hI =>
      have hj : j ∈ T := by
        by_contra hj
        simpa using hidle j hj
      have hlog : ∀ i,
          bumps (Function.update c.threads j ⟨k r, (c.threads j).log ++ [⟨o, r⟩]⟩ i).log x =
            bumps (c.threads i).log x + if j = i then bumpedBy x ⟨o, r⟩ else 0 := by
        intro i
        by_cases hij : j = i
        · subst hij
          simp
        · simp [hij, Ne.symm hij]
      show s'.counters x = _
      rw [parInterp_counters hI, hinv T hbefore, Finset.sum_congr rfl fun i _ => hlog i,
        Finset.sum_add_distrib, Finset.sum_ite_eq, if_pos hj, Nat.add_assoc]

/-- A call asks bitcoind once, so counting its confirmations is asking whether
    it was confirmed. -/
theorem countP_confirms {vs : List Verdict} (h : vs.length ≤ 1) :
    vs.countP Verdict.confirms = if vs.any Verdict.confirms then 1 else 0 := by
  match vs with
  | [] => rfl
  | [v] => cases hv : v.confirms <;> simp [hv]
  | _ :: _ :: _ => simp at h

/-- When the calls that have started have all returned, the counters of
    custom jobs have gained exactly what the calls did: every call was answered
    once, and an acceptance that bitcoind did not confirm was counted as
    skipped. -/
theorem custom_accounting (hm : w.metrics = true)
    (h : Trace JobStep (jobCalls cr w s call) labels c) {T : Finset ι}
    (hdone : ∀ i ∈ T, (c.threads i).prog.result?.isSome = true)
    (hidle : ∀ i ∉ T, (c.threads i).log = []) :
    ∃ gained : Counter → Nat, (∀ x, c.shared.counters x = s.counters x + gained x) ∧
      CustomLedger gained (T.filter fun i => (call i).isCustom).card
        (T.filter fun i => (verdicts (c.threads i).log).any Verdict.confirms).card
        (∑ i ∈ T, (verdicts (c.threads i).log).countP Verdict.rejects)
        (∑ i ∈ T, (verdicts (c.threads i).log).countP Verdict.fails) := by
  have hledger : ∀ i ∈ T, Ledgered (if (call i).isCustom then 1 else 0) (c.threads i).log := by
    intro i hi
    have hspec := (spec_of_trace (P := fun _ _ _ => True)
      (Q := fun i log _ => Ledgered (if (call i).isCustom then 1 else 0) log)
      (fun i => jobCall_ledger hm (call i)) (fun _ => logged_nil _) h i).1
    obtain ⟨answer, hanswer⟩ := Option.isSome_iff_exists.mp (hdone i hi)
    rw [Prog.eq_ret_of_result? hanswer] at hspec
    exact hspec
  have hsum := CustomLedger.sum T fun i hi => (hledger i hi).2
  have hconfirmed : ∑ i ∈ T, (verdicts (c.threads i).log).countP Verdict.confirms =
      (T.filter fun i => (verdicts (c.threads i).log).any Verdict.confirms).card := by
    rw [Finset.card_filter]
    exact Finset.sum_congr rfl fun i hi => countP_confirms (hledger i hi).1
  rw [hconfirmed, ← Finset.card_filter] at hsum
  exact ⟨_, fun x => counters_eq_sum h x hidle, hsum⟩

end runs

/-- The two overlapping custom jobs of two clients. -/
def Sample.customJobs (b : Bool) : JobCall := setting (if b then 4 else 3)

/-- bitcoind rejects the block of the first call; the second one finds its
    request in flight and is accepted without a question. -/
theorem custom_accounting_of_two :
    let c := (jobCalls Sample.crates Sample.wiring Sample.twoDeclared Sample.customJobs).play
      Sample.rejecting.parStep teeAct Sample.overlapping
    ∃ gained : Counter → Nat,
      (∀ x, c.shared.counters x = Sample.twoDeclared.counters x + gained x) ∧
      CustomLedger gained 2 0 1 0 := by
  intro c
  have hdone : ∀ b, (c.threads b).prog.result?.isSome = true := by decide +kernel
  have hcalls : (Finset.univ.filter fun b => (Sample.customJobs b).isCustom).card = 2 := by decide
  have hlogs : (∀ b, (verdicts (c.threads b).log).any Verdict.confirms = false) ∧
      (∀ b, (verdicts (c.threads b).log).countP Verdict.rejects = if b then 0 else 1) ∧
      (∀ b, (verdicts (c.threads b).log).countP Verdict.fails = 0) := by decide +kernel
  have hidle : ∀ b ∉ (Finset.univ : Finset Bool), (c.threads b).log = [] :=
    fun b hb => absurd (Finset.mem_univ b) hb
  have hrun : Trace JobStep
      (jobCalls Sample.crates Sample.wiring Sample.twoDeclared Sample.customJobs) _ c :=
    Config.play_run _ teeAct (parStep_interp Sample.rejecting) Sample.overlapping _
  have hledger := custom_accounting rfl hrun (fun b _ => hdone b) hidle
  simp only [hlogs.1, hlogs.2.1, hlogs.2.2, hcalls] at hledger
  simpa using hledger

end Sv2P2pool
