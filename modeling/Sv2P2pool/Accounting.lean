import Sv2P2pool.CreditKeys

/-! # The Accounting of Solutions

    Every `PushSolution` is counted when it arrives. One that is dropped is
    counted again under its reason, one whose block goes to `submit_block`
    under the submitted blocks. Three counters tell an operator what became
    of the solutions, as long as every exit of the handler counts: the exit
    for a rebuilt block without `EngineHandles` only logs.
-/

namespace Sv2P2pool

open ByteCodec Bitcoin Interleave

/-! ## The counters of solutions -/

def PushSolutionDropReason.all : List PushSolutionDropReason :=
  [.noMatchingJob, .cacheRace, .noTemplateId, .tdpFetchFailed, .reconstructFailed, .noHandles]

/-- The sum of `push_solution_dropped_total` over its reasons. -/
def Engine.droppedTotal (s : Engine) : Nat :=
  (PushSolutionDropReason.all.map fun reason => s.counters (.pushSolutionDropped reason)).sum

/-- Every received solution was submitted or dropped for a reason. -/
def Engine.Balanced (s : Engine) : Prop :=
  s.counters .pushSolutionReceived = s.counters .blocksSubmitted + s.droppedTotal

/-- One more. -/
def tally (counters : Counter → Nat) (c : Counter) : Counter → Nat :=
  Function.update counters c (counters c + 1)

/-- What becomes of a solution. -/
inductive PushOutcome where
  | dropped (reason : PushSolutionDropReason)
  | submitted (block : Block)
  /-- The block is rebuilt and goes nowhere. -/
  | unreported (block : Block)

def PushOutcome.tallied (counters : Counter → Nat) : PushOutcome → Counter → Nat
  | .dropped reason => tally counters (.pushSolutionDropped reason)
  | .submitted _ => tally counters .blocksSubmitted
  | .unreported _ => counters

def PushOutcome.blocks : PushOutcome → List Block
  | .submitted block => [block]
  | _ => []

section

variable (cr : Crates) (w : Wiring) (env : Env)

/-- The outcome once the job is found. -/
def Env.solveOutcome (ps : PushSolution) (declared : DeclaredJob) : PushOutcome :=
  match declared.templateId with
  | none => .dropped .noTemplateId
  | some k =>
    match env.txBodies cr k with
    | .error _ => .dropped .tdpFetchFailed
    | .ok txBodies =>
      match reconstructBlock cr declared ps txBodies with
      | .error _ => .dropped .reconstructFailed
      | .ok block => if w.handles then .submitted block else .unreported block

def Env.pushOutcome (s : Engine) (ps : PushSolution) : PushOutcome :=
  if w.tdp then
    match env.solutionJob s ps with
    | none => .dropped .noMatchingJob
    | some e => env.solveOutcome cr w ps e.2
  else .dropped .noHandles

/-- The one exit that counts nothing: TDP is wired and the handles are not,
    and the solution's block can be rebuilt. -/
def Env.Unreported (s : Engine) (ps : PushSolution) : Prop :=
  w.tdp = true ∧ w.handles = false ∧ ∃ e k txBodies block,
    env.solutionJob s ps = some e ∧ e.2.templateId = some k ∧
      env.txBodies cr k = .ok txBodies ∧ reconstructBlock cr e.2 ps txBodies = .ok block

/-- A solution that led to no `submit_block` was counted under one reason. -/
def Env.Accounted (s : Engine) (ps : PushSolution) : Prop :=
  let s' := (run env.oracle (handlePushSolution cr w ps) s).2
  s'.submitted = s.submitted → ∃ reason,
    s'.counters (.pushSolutionDropped reason) = s.counters (.pushSolutionDropped reason) + 1 ∧
      ∀ other, other ≠ reason →
        s'.counters (.pushSolutionDropped other) = s.counters (.pushSolutionDropped other)

variable {cr w env} {s : Engine} {ps : PushSolution}

theorem solveOutcome_unreported {declared : DeclaredJob} {block : Block} :
    env.solveOutcome cr w ps declared = .unreported block ↔ w.handles = false ∧ ∃ k txBodies,
      declared.templateId = some k ∧ env.txBodies cr k = .ok txBodies ∧
        reconstructBlock cr declared ps txBodies = .ok block := by
  unfold Env.solveOutcome
  match declared.templateId with
  | none => simp
  | some k =>
    match hbodies : env.txBodies cr k with
    | .error e => simp [hbodies]
    | .ok txBodies =>
      match hb : reconstructBlock cr declared ps txBodies with
      | .error e => simp [hbodies, hb]
      | .ok b => cases w.handles <;> simp [hbodies, hb]

theorem unreported_iff :
    env.Unreported cr w s ps ↔ ∃ block, env.pushOutcome cr w s ps = .unreported block := by
  unfold Env.Unreported Env.pushOutcome
  by_cases htdp : w.tdp = true
  · rw [if_pos htdp]
    match env.solutionJob s ps with
    | none => simp
    | some e =>
      simp only [solveOutcome_unreported]
      constructor
      · intro h
        obtain ⟨-, hw, e', k, txBodies, block, heq, hk, hbodies, hblock⟩ := h
        obtain rfl := Option.some.inj heq
        exact ⟨block, hw, k, txBodies, hk, hbodies, hblock⟩
      · intro h
        obtain ⟨block, hw, k, txBodies, hk, hbodies, hblock⟩ := h
        exact ⟨htdp, hw, e, k, txBodies, block, rfl, hk, hbodies, hblock⟩
  · simp [htdp]

/-! ## One call -/

theorem bumped_counters (hm : w.metrics = true) (s : Engine) (c : Counter) :
    (s.bumped w c 1).counters = tally s.counters c := by
  simp [Engine.bumped, hm, tally]

theorem bumped_submitted (s : Engine) (c : Counter) (n : Nat) :
    (s.bumped w c n).submitted = s.submitted := by
  unfold Engine.bumped
  split_ifs <;> rfl

theorem run_dropSolution_tally (hm : w.metrics = true) (reason : PushSolutionDropReason)
    (s : Engine) :
    (run env.oracle (dropSolution w reason) s).2.counters =
        (PushOutcome.dropped reason).tallied s.counters ∧
      (run env.oracle (dropSolution w reason) s).2.submitted = s.submitted := by
  rw [dropSolution, run_bump]
  exact ⟨bumped_counters hm s _, bumped_submitted s _ _⟩

theorem run_deliverBlock_tally (hm : w.metrics = true) (declared : DeclaredJob) (block : Block)
    (s : Engine) :
    let outcome := if w.handles then PushOutcome.submitted block else .unreported block
    (run env.oracle (deliverBlock cr w ps declared block) s).2.counters =
        outcome.tallied s.counters ∧
      (run env.oracle (deliverBlock cr w ps declared block) s).2.submitted =
        outcome.blocks ++ s.submitted := by
  unfold deliverBlock
  by_cases hw : w.handles = true
  · cases declared.allocatedToken <;>
      simp [hw, run_bind, Env.oracle, Env.step, recordSolution, payoutGet, spawnSubmitBlock,
        bumped_counters hm, bumped_submitted, PushOutcome.tallied, PushOutcome.blocks]
  · cases declared.allocatedToken <;>
      simp [hw, Env.oracle, Env.step, recordSolution, payoutGet, PushOutcome.tallied,
        PushOutcome.blocks]

theorem run_solveWith_tally (hm : w.metrics = true) (hq : s.tdp.Quiet) (declared : DeclaredJob) :
    (run env.oracle (solveWith cr w ps declared) s).2.counters =
        (env.solveOutcome cr w ps declared).tallied s.counters ∧
      (run env.oracle (solveWith cr w ps declared) s).2.submitted =
        (env.solveOutcome cr w ps declared).blocks ++ s.submitted := by
  unfold solveWith Env.solveOutcome
  cases declared.templateId with
  | none => exact run_dropSolution_tally hm _ _
  | some k =>
    simp only [run_bind, run_requestTxBodies cr env hq k]
    cases env.txBodies cr k with
    | error e => exact run_dropSolution_tally hm _ _
    | ok txBodies =>
      simp only
      cases reconstructBlock cr declared ps txBodies with
      | error e => exact run_dropSolution_tally hm _ _
      | ok block => exact run_deliverBlock_tally hm declared block _

/-- A call counts its arrival and its outcome. -/
theorem run_push_tally (hm : w.metrics = true) (hq : s.tdp.Quiet) (ps : PushSolution) :
    (run env.oracle (handlePushSolution cr w ps) s).2.counters =
        (env.pushOutcome cr w s ps).tallied (tally s.counters .pushSolutionReceived) ∧
      (run env.oracle (handlePushSolution cr w ps) s).2.submitted =
        (env.pushOutcome cr w s ps).blocks ++ s.submitted := by
  have hq' : (s.bumped w .pushSolutionReceived 1).tdp.Quiet := by
    rw [bumped_tdp]
    exact hq
  have hjob : env.solutionJob (s.bumped w .pushSolutionReceived 1) ps = env.solutionJob s ps := by
    simp only [Env.solutionJob, bumped_declaredJobs]
  rw [handlePushSolution, run_bind, run_bump, Env.pushOutcome,
    ← bumped_counters hm s .pushSolutionReceived,
    ← bumped_submitted (w := w) s .pushSolutionReceived 1]
  by_cases htdp : w.tdp = true
  · rw [if_pos htdp, if_pos htdp, run_bind, run_lookupSolution, hjob]
    cases env.solutionJob s ps with
    | none => exact run_dropSolution_tally hm _ _
    | some e => exact run_solveWith_tally hm hq' e.2
  · rw [if_neg htdp, if_neg htdp]
    exact run_dropSolution_tally hm _ _

/-! ## The other calls -/

/-- The program moves no counter of solutions. -/
def CountsNoSolution {α : Type} (p : Handler α) : Prop :=
  p.Only fun o : Op => ∀ c n, o = .bump c n → ¬ c.OfSolutions

theorem run_counters_ofSolutions {α : Type} {p : Handler α} (h : CountsNoSolution p) (s : Engine)
    {c : Counter} (hc : c.OfSolutions) :
    (run env.oracle p s).2.counters c = s.counters c := by
  refine run_frame (f := fun s : Engine => s.counters c) (fun s o ho => ?_) h s
  cases o with
  | bump c' n =>
    have hne : c ≠ c' := by
      intro heq
      exact ho c' n rfl (heq ▸ hc)
    simp [Env.oracle, Env.step, hne]
  | _ => rfl

theorem countsNoSolution_of_writesOnly {α : Type} {l : List Region} {p : Handler α}
    (h : WritesOnly l p) (hl : .counters ∉ l) : CountsNoSolution p := by
  refine Prog.Only.mono (fun o ho c n heq => ?_) h
  subst heq
  exact absurd (ho _ rfl) hl

theorem countsNoSolution_setCustom (m : SetCustomMiningJob) (t : JdToken) :
    CountsNoSolution (handleSetCustomMiningJob cr w m t) := by
  refine Prog.Only.mono (fun o ho c n heq hc => ?_) (only_setCustom cr w m t)
  subst heq
  cases c <;> first | exact ho.elim | exact hc.elim

theorem bumped_counters_ofSolutions {c c' : Counter} (hc : c.OfSolutions)
    (hc' : ¬ c'.OfSolutions) (s : Engine) (n : Nat) :
    (s.bumped w c' n).counters c = s.counters c := by
  have hne : c ≠ c' := by
    intro heq
    exact hc' (heq ▸ hc)
  unfold Engine.bumped
  split_ifs
  · simp [hne]
  · rfl

/-- Only `handle_push_solution` moves the counters of solutions. -/
theorem Call.perform_counters (env : Env) (s : Engine) {call : Call}
    (hcall : ∀ ps, call ≠ .push ps) {c : Counter} (hc : c.OfSolutions) :
    (call.perform cr w env s).2.counters c = s.counters c := by
  cases call with
  | allocate resolver token user maxSize =>
    exact run_counters_ofSolutions (countsNoSolution_of_writesOnly
      (writesOnly_allocate cr resolver token user maxSize) (by simp)) s hc
  | declare d pmts =>
    match hcheck : checkDeclaration cr d pmts with
    | .ok (t, txs) =>
      have haccepted : ¬ Counter.declareMiningJobAccepted.OfSolutions := id
      simp only [Call.perform, run_declare_ok cr w env hcheck,
        bumped_counters_ofSolutions hc haccepted]
      rfl
    | .error result =>
      have hdeclare : ¬ (declareCounter result).OfSolutions := by
        cases result <;> exact id
      simp only [Call.perform, run_declare_error cr w env hcheck,
        bumped_counters_ofSolutions hc hdeclare]
  | setCustom m t => exact run_counters_ofSolutions (countsNoSolution_setCustom m t) s hc
  | push ps => exact absurd rfl (hcall ps)
  | reorg newTip =>
    have hinvalidated : ¬ Counter.jobsInvalidatedTotal.OfSolutions := id
    simp only [Call.perform, run_reorg, Engine.invalidated,
      bumped_counters_ofSolutions hc hinvalidated]
    exact bumped_counters_ofSolutions hc id s 1
  | evict t =>
    exact run_counters_ofSolutions (countsNoSolution_of_writesOnly (writesOnly_evict t) (by simp))
      s hc
  | tdpMessage msg => rfl

/-! ## Runs -/

/-- The books balance after a call when its outcome is a drop or a
    submission. -/
theorem balanced_tallied {s' : Engine} {outcome : PushOutcome} (hs : s.Balanced)
    (hcounters : s'.counters = outcome.tallied (tally s.counters .pushSolutionReceived))
    (houtcome : ∀ block, outcome ≠ .unreported block) : s'.Balanced := by
  unfold Engine.Balanced Engine.droppedTotal at hs ⊢
  rw [hcounters]
  cases outcome with
  | dropped reason =>
    cases reason <;>
      simp only [PushOutcome.tallied, tally, PushSolutionDropReason.all, List.map_cons,
        List.map_nil, List.sum_cons, List.sum_nil, Function.update_apply] at hs ⊢ <;>
      simp <;> omega
  | submitted block =>
    simp only [PushOutcome.tallied, tally, PushSolutionDropReason.all, List.map_cons,
      List.map_nil, List.sum_cons, List.sum_nil, Function.update_apply] at hs ⊢
    simp
    omega
  | unreported block => exact absurd rfl (houtcome block)

theorem balanced_of_counters {s' : Engine}
    (h : ∀ c : Counter, c.OfSolutions → s'.counters c = s.counters c) :
    s'.Balanced ↔ s.Balanced := by
  have hdropped : s'.droppedTotal = s.droppedTotal := by
    unfold Engine.droppedTotal
    congr 1
    exact List.map_congr_left fun reason _ => h _ trivial
  unfold Engine.Balanced
  rw [h .pushSolutionReceived trivial, h .blocksSubmitted trivial, hdropped]

theorem accounted_iff (hm : w.metrics = true) (hq : s.tdp.Quiet) :
    env.Accounted cr w s ps ↔ ¬ env.Unreported cr w s ps := by
  have hcounters : (run env.oracle (handlePushSolution cr w ps) s).2.counters = _ :=
    (run_push_tally hm hq ps).1
  have hblocks : (run env.oracle (handlePushSolution cr w ps) s).2.submitted = _ :=
    (run_push_tally hm hq ps).2
  rw [unreported_iff]
  unfold Env.Accounted
  simp only [hcounters, hblocks]
  cases env.pushOutcome cr w s ps with
  | dropped reason =>
    refine ⟨fun _ => by simp, fun _ _ => ⟨reason, ?_, ?_⟩⟩
    · simp [PushOutcome.tallied, tally]
    · intro other hne
      simp [PushOutcome.tallied, tally, hne]
  | submitted block => simp [PushOutcome.blocks]
  | unreported block =>
    simp [PushOutcome.blocks, PushOutcome.tallied, tally]

/-- With metrics attached, in any wiring, the accounting holds all along a run
    of complete calls exactly when no solution of it meets the unreported
    exit. -/
theorem push_accounting_iff (hm : w.metrics = true) (calls : List (Env × Call)) :
    ((∀ before after, calls = before ++ after → (Engine.new.after cr w before).Balanced) ∧
      ∀ before env ps after, calls = before ++ (env, .push ps) :: after →
        env.Accounted cr w (Engine.new.after cr w before) ps) ↔
    ∀ before env ps after, calls = before ++ (env, .push ps) :: after →
      ¬ env.Unreported cr w (Engine.new.after cr w before) ps := by
  have hquiet : ∀ before, (Engine.new.after cr w before).tdp.Quiet := fun before =>
    (reachable_after cr w before).quiet
  constructor
  · intro h before env ps after heq
    exact (accounted_iff hm (hquiet before)).mp (h.2 before env ps after heq)
  · intro h
    refine ⟨?_, fun before env ps after heq =>
      (accounted_iff hm (hquiet before)).mpr (h before env ps after heq)⟩
    -- induction on the calls so far; each keeps the balance
    intro before
    induction before using List.reverseRecOn with
    | nil => exact fun _ _ => rfl
    | append_singleton before call ih =>
      intro after heq
      obtain ⟨env, c⟩ := call
      have hbefore := ih ((env, c) :: after) (by rw [heq, List.append_assoc]; rfl)
      rw [after_append]
      show (c.perform cr w env (Engine.new.after cr w before)).2.Balanced
      by_cases hpush : ∃ ps, c = .push ps
      · obtain ⟨ps, rfl⟩ := hpush
        have hreported := h before env ps after (by rw [heq, List.append_assoc]; rfl)
        rw [unreported_iff] at hreported
        exact balanced_tallied hbefore (run_push_tally hm (hquiet before) ps).1
          fun block hout => hreported ⟨block, hout⟩
      · apply (balanced_of_counters _).mpr hbefore
        intro counter hcounter
        exact Call.perform_counters env _ (fun ps heq => hpush ⟨ps, heq⟩) hcounter

end

/-- A client declares a job and finds its block. -/
def Sample.solvedRun : List (Env × Call) :=
  Sample.declared ++ [(Sample.online, .push (Sample.solution (U256.fill 1)))]

/-- With everything wired the block is submitted and counted. -/
theorem solved_run_balanced :
    (Engine.new.after Sample.crates Sample.wiring Sample.solvedRun).counters
        .pushSolutionReceived = 1 ∧
      (Engine.new.after Sample.crates Sample.wiring Sample.solvedRun).Balanced := by
  refine ⟨by decide +kernel, ?_⟩
  apply ((push_accounting_iff rfl Sample.solvedRun).mpr _).1 Sample.solvedRun [] (by simp)
  intro before env ps after heq hlost
  exact absurd hlost.2.1 (by decide)

/-- TDP and metrics, and no `EngineHandles`. -/
def Sample.withoutHandles : Wiring := ⟨false, true, true⟩

/-- There the solution is received, and neither submitted nor dropped. -/
theorem solution_without_handles_uncounted :
    let s := Engine.new.after Sample.crates Sample.withoutHandles Sample.solvedRun
    Sample.withoutHandles.metrics = true ∧ s.counters .pushSolutionReceived = 1 ∧
      s.counters .blocksSubmitted = 0 ∧ s.droppedTotal = 0 ∧ ¬ s.Balanced := by
  intro s
  have hcounts : s.counters .pushSolutionReceived = 1 ∧ s.counters .blocksSubmitted = 0 ∧
      s.droppedTotal = 0 := by decide +kernel
  obtain ⟨hreceived, hsubmitted, hdropped⟩ := hcounts
  refine ⟨rfl, hreceived, hsubmitted, hdropped, ?_⟩
  unfold Engine.Balanced
  omega

end Sv2P2pool
