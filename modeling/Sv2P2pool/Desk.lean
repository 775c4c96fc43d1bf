import Sv2P2pool.Framework.Machine
import Sv2P2pool.Templates
import Sv2P2pool.TokenBooks

/-! # The Job Desk

    What the two job maps are for: a desk with one place for each token. An
    accepted declaration puts its job on the token's place, a custom job takes
    it off and is answered by what it finds there, a reorg clears the places
    of the jobs it does not spare. The engine keeps the desk in two maps, one
    from tokens to request ids and one from request ids to jobs. As long as
    no two tokens declare under one request id, nobody can tell the engine
    from the desk.
-/

namespace Sv2P2pool

open ByteCodec Bitcoin Interleave

/-! ## The desk -/

structure JobDesk where
  /-- The job a token's custom job will be checked against. -/
  board : JdToken → Option DeclaredJob
  /-- The last messages of the Template Provider. -/
  snapshots : Option SetNewPrevHash × Option NewTemplate

def JobDesk.empty : JobDesk := ⟨fun _ => none, none, none⟩

/-- The call is about jobs: its answer is seen by a JDC. -/
def Done.job? : Done → Option Done
  | ⟨.declare d pmts, result⟩ => some ⟨.declare d pmts, result⟩
  | ⟨.setCustom m t, result⟩ => some ⟨.setCustom m t, result⟩
  | _ => none

section

variable (cr : Crates) (w : Wiring)

/-- The tip and the template a declaration captures from the last messages. -/
def capturedFrom (snapshots : Option SetNewPrevHash × Option NewTemplate) :
    TipMetadata × Option UInt64 :=
  if w.tdp then
    ((snapshots.1.map fun m => ⟨m.prevHash, m.nBits, m.headerTimestamp⟩).getD TipMetadata.default,
      snapshots.2.map NewTemplate.templateId)
  else (TipMetadata.default, none)

/-- The job an accepted declaration puts on the desk. -/
def JobDesk.job (desk : JobDesk) (env : Env) (d : DeclareMiningJob) (t : JdToken)
    (txs : List Transaction) : DeclaredJob :=
  declaredSnapshot cr d t txs (capturedFrom w desk.snapshots).1 (capturedFrom w desk.snapshots).2
    (env.shareChainTip w)

def JobDesk.record (desk : JobDesk) (msg : TemplateDistribution) : JobDesk :=
  { desk with snapshots := (msg.prevHash?.or desk.snapshots.1, msg.template?.or desk.snapshots.2) }

def JobDesk.put (desk : JobDesk) (t : JdToken) (job : Option DeclaredJob) : JobDesk :=
  { desk with board := Function.update desk.board t job }

open Classical in
/-- Keep the jobs that satisfy `p`. -/
noncomputable def JobDesk.prune (desk : JobDesk) (p : DeclaredJob → Prop) : JobDesk :=
  { desk with board := fun t => (desk.board t).filter fun job => p job }

theorem JobDesk.put_board (desk : JobDesk) (t t' : JdToken) (job : Option DeclaredJob) :
    (desk.put t job).board t' = if t' = t then job else desk.board t' :=
  Function.update_apply desk.board t job t'

theorem JobDesk.prune_board {desk : JobDesk} {p : DeclaredJob → Prop} {t : JdToken}
    {job : DeclaredJob} :
    (desk.prune p).board t = some job ↔ desk.board t = some job ∧ p job := by
  simp [JobDesk.prune, Option.filter_eq_some_iff]

/-- The reorg leaves the job where it is: the walk from the new tip meets no
    gap and comes by the job's share-chain tip. -/
def Env.Spares (env : Env) (newTip : BlockHash) (job : DeclaredJob) : Prop :=
  w.handles = true ∧ Unbroken env.shareHeader newTip ∧ DescendsFrom env.shareHeader job newTip

noncomputable def JobDesk.act : Machine JobDesk BookAct (Option Done)
  | desk, .call env (.declare d pmts) =>
    match checkDeclaration cr d pmts with
    | .error result => (some ⟨.declare d pmts, result⟩, desk)
    | .ok (t, txs) =>
      (some ⟨.declare d pmts, .success⟩, desk.put t (some (desk.job cr w env d t txs)))
  | desk, .call env (.setCustom m t) =>
    (some ⟨.setCustom m t, customVerdict cr w env m (desk.board t)⟩, desk.put t none)
  | desk, .call env (.reorg newTip) => (none, desk.prune (env.Spares w newTip))
  | desk, .call _ (.tdpMessage msg) => (none, desk.record msg)
  | desk, .call _ _ => (none, desk)
  | desk, .flush _ => (none, desk.prune fun _ => False)

/-- The engine as a machine. -/
def Engine.act : Machine Engine BookAct (Option Done)
  | s, .call env c => (some ⟨c, (c.perform cr w env s).1⟩, (c.perform cr w env s).2)
  | s, .flush env => (none, (run env.oracle (invalidatorFlush w) s).2)

/-! ## The desk in two maps -/

/-- `owner` says which token may declare under a request id. -/
def BookAct.OwnId (owner : RequestId → JdToken) (act : BookAct) : Prop :=
  ∀ t r, act.binds cr = some (t, r) → owner r = t

/-- The job a token resolves to. -/
def Engine.resolve (s : Engine) (t : JdToken) : Option DeclaredJob :=
  (s.allocatedTokens.lookup t).bind s.declaredJobs.lookup

/-- The engine keeps the desk. -/
structure Keeps (owner : RequestId → JdToken) (s : Engine) (desk : JobDesk) : Prop where
  board : ∀ t, desk.board t = s.resolve t
  owned : ∀ t r, s.allocatedTokens.lookup t = some r → owner r = t
  snapshots : desk.snapshots = s.tdp.snapshots
  quiet : s.tdp.Quiet

variable {cr w} {owner : RequestId → JdToken} {s s' : Engine} {desk : JobDesk}

theorem snapshot_eq (s : Engine) : s.snapshot w = capturedFrom w s.tdp.snapshots := rfl

theorem keeps_new : Keeps owner Engine.new JobDesk.empty where
  board _ := rfl
  owned t r h := by simp [Engine.new] at h
  snapshots := rfl
  quiet := new_quiet

theorem resolve_consume (s : Engine) (t : JdToken) : (s.consume t).1 = s.resolve t := by
  unfold Engine.consume Engine.resolve
  cases s.allocatedTokens.lookup t <;> rfl

/-- A call that leaves both maps and the messages alone. -/
theorem Keeps.of_eq (h : Keeps owner s desk) (hjobs : s'.declaredJobs = s.declaredJobs)
    (htokens : s'.allocatedTokens = s.allocatedTokens)
    (hsnap : s'.tdp.snapshots = s.tdp.snapshots) (hq : s'.tdp.Quiet) : Keeps owner s' desk where
  board t := by rw [h.board, Engine.resolve, Engine.resolve, hjobs, htokens]
  owned t r := by
    rw [htokens]
    exact h.owned t r
  snapshots := by rw [h.snapshots, hsnap]
  quiet := hq

/-- A job under a request id of its own token. -/
theorem Keeps.put (h : Keeps owner s desk) {t : JdToken} {r : RequestId} {job : DeclaredJob}
    (hown : owner r = t) (hjobs : s'.declaredJobs = s.declaredJobs.insert r job)
    (htokens : s'.allocatedTokens = s.allocatedTokens.insert t r)
    (hsnap : s'.tdp.snapshots = s.tdp.snapshots) (hq : s'.tdp.Quiet) :
    Keeps owner s' (desk.put t (some job)) where
  board t' := by
    rw [JobDesk.put_board, Engine.resolve, hjobs, htokens, DashMap.lookup_insert_eq]
    by_cases ht : t' = t
    · simp [ht, DashMap.lookup_insert_eq]
    · rw [if_neg ht, if_neg ht, h.board, Engine.resolve]
      cases htok : s.allocatedTokens.lookup t' with
      | none => rfl
      | some r' =>
        -- the other token has a request id of its own
        have hr : r' ≠ r := by
          intro heq
          subst heq
          exact ht ((h.owned t' r' htok).symm.trans hown)
        simp [DashMap.lookup_insert_eq, hr]
  owned t' r' htok := by
    rw [htokens, DashMap.lookup_insert_eq] at htok
    split_ifs at htok with ht
    · cases htok
      exact hown.trans ht.symm
    · exact h.owned t' r' htok
  snapshots := by rw [JobDesk.put, h.snapshots, hsnap]
  quiet := hq

/-- A custom job clears the place of its token and of no other. -/
theorem Keeps.take (h : Keeps owner s desk) {t : JdToken}
    (hjobs : s'.declaredJobs = (s.consume t).2.declaredJobs)
    (htokens : s'.allocatedTokens = (s.consume t).2.allocatedTokens)
    (hsnap : s'.tdp.snapshots = s.tdp.snapshots) (hq : s'.tdp.Quiet) :
    Keeps owner s' (desk.put t none) where
  board t' := by
    rw [JobDesk.put_board, Engine.resolve, hjobs, htokens, Engine.consume, h.board, Engine.resolve]
    cases htok : s.allocatedTokens.lookup t with
    | none =>
      by_cases ht : t' = t
      · subst ht
        simp [htok]
      · rw [if_neg ht]
    | some r =>
      simp only [DashMap.lookup_erase_eq]
      by_cases ht : t' = t
      · simp [ht]
      · rw [if_neg ht, if_neg ht]
        cases htok' : s.allocatedTokens.lookup t' with
        | none => rfl
        | some r' =>
          have hr : r' ≠ r := by
            intro heq
            subst heq
            exact ht ((h.owned t' r' htok').symm.trans (h.owned t r' htok))
          simp [hr]
  owned t' r' htok := by
    rw [htokens] at htok
    exact h.owned t' r' (consume_allocatedTokens htok)
  snapshots := by rw [JobDesk.put, h.snapshots, hsnap]
  quiet := hq

/-- An invalidation leaves the jobs that satisfy `p`. -/
theorem Keeps.prune (h : Keeps owner s desk) {p : DeclaredJob → Prop}
    (hjobs : ∀ r job, s'.declaredJobs.lookup r = some job ↔
      s.declaredJobs.lookup r = some job ∧ p job)
    (htokens : s'.allocatedTokens = s.allocatedTokens)
    (hsnap : s'.tdp.snapshots = s.tdp.snapshots) (hq : s'.tdp.Quiet) :
    Keeps owner s' (desk.prune p) where
  board t := by
    apply Option.ext
    intro job
    rw [JobDesk.prune_board, h.board, Engine.resolve, Engine.resolve, htokens]
    cases s.allocatedTokens.lookup t with
    | none => simp
    | some r => exact (hjobs r job).symm
  owned t r htok := by
    rw [htokens] at htok
    exact h.owned t r htok
  snapshots := h.snapshots.trans hsnap.symm
  quiet := hq

/-! ## One act -/

/-- A program that writes none of what the desk shows. -/
theorem Keeps.aside {α : Type} {p : Handler α} {l : List Region} (h : Keeps owner s desk)
    (env : Env) (hp : WritesOnly l p) (hjobs : .declaredJobs ∉ l) (htokens : .allocatedTokens ∉ l)
    (hq : (run env.oracle p s).2.tdp.Quiet) : Keeps owner (run env.oracle p s).2 desk :=
  h.of_eq (run_declaredJobs env hp hjobs s) (run_allocatedTokens env hp htokens s)
    (run_snapshots env p s) hq

/-- An act on the engine is the act on the desk. -/
theorem act_keeps : Machine.Simulates (Engine.act cr w) (JobDesk.act cr w)
    (fun answer => answer.bind Done.job?) id (BookAct.OwnId cr owner) (Keeps owner) := by
  intro s desk act h hown
  cases act with
  | flush env =>
    refine ⟨rfl, ?_⟩
    show Keeps owner (run env.oracle (invalidatorFlush w) s).2 _
    rw [run_invalidatorFlush]
    exact h.prune (by simp [Engine.flushed]) (by simp [Engine.flushed]) (by simp [Engine.flushed])
      (by simpa [Engine.flushed] using h.quiet)
  | call env c =>
    have hstep : CallStep cr w s ⟨c, (c.perform cr w env s).1⟩ (c.perform cr w env s).2 :=
      ⟨env, rfl⟩
    have hquiet : (c.perform cr w env s).2.tdp.Quiet := hstep.quiet h.quiet
    cases c with
    | allocate resolver token user maxSize =>
      exact ⟨rfl, h.aside env (writesOnly_allocate cr resolver token user maxSize) (by simp)
        (by simp) hquiet⟩
    | declare d pmts =>
      cases hcheck : checkDeclaration cr d pmts with
      | error result =>
        have hrun := run_declare_error cr w env hcheck s
        simp only [Engine.act, JobDesk.act, Call.perform, hcheck, hrun]
        exact ⟨rfl, h.of_eq (bumped_declaredJobs _ _ _ _) (bumped_allocatedTokens _ _ _ _)
          (by simp) (by simpa using h.quiet)⟩
      | ok accepted =>
        obtain ⟨t, txs⟩ := accepted
        have hrun := run_declare_ok cr w env hcheck s
        have hid : owner d.requestId = t := hown t d.requestId (by simp [BookAct.binds, hcheck])
        have hjob : desk.job cr w env d t txs = jobFor cr w env s d t txs := by
          rw [JobDesk.job, h.snapshots, jobFor, snapshot_eq]
        simp only [Engine.act, JobDesk.act, Call.perform, hcheck, hrun, hjob]
        exact ⟨rfl, h.put hid (bumped_declaredJobs _ _ _ _) (bumped_allocatedTokens _ _ _ _)
          (by simp [Engine.store]) (by simpa [Engine.store] using h.quiet)⟩
    | setCustom m t =>
      have hresult := run_setCustom_result cr w env h.quiet m t
      obtain ⟨hjobs, htokens⟩ := run_setCustom_maps cr w env s m t
      rw [resolve_consume, ← h.board] at hresult
      simp only [Engine.act, JobDesk.act, Call.perform, hresult]
      exact ⟨rfl, h.take hjobs htokens (run_snapshots env _ s) hquiet⟩
    | push ps =>
      exact ⟨rfl, h.aside env (writesOnly_push cr w ps) (by simp) (by simp) hquiet⟩
    | reorg newTip =>
      refine ⟨rfl, h.prune (fun r job => ?_) (run_allocatedTokens env (writesOnly_reorg w newTip)
        (by simp) s) (run_snapshots env _ s) hquiet⟩
      show (run env.oracle (notifyShareChainReorg w newTip) s).2.declaredJobs.lookup r = some job
        ↔ _
      rw [run_reorg, lookup_invalidated, bumped_declaredJobs, keeps_eq_true_iff]
      rfl
    | evict t => exact ⟨rfl, h.aside env (writesOnly_evict t) (by simp) (by simp) hquiet⟩
    | tdpMessage msg =>
      refine ⟨rfl, ?_⟩
      have hsnap : (desk.record msg).snapshots = (s.tdp.observe msg).snapshots := by
        rw [JobDesk.record, h.snapshots, observe_snapshots]
        rfl
      exact ⟨h.board, h.owned, hsnap, hquiet⟩

/-! ## Whole runs -/

section answers

variable (cr : Crates) (w : Wiring) (acts : List BookAct)

/-- What the JDCs are answered. -/
def Engine.jdcAnswers : List Done :=
  (Machine.outputs (Engine.act cr w) Engine.new acts).filterMap fun answer => answer.bind Done.job?

noncomputable def JobDesk.jdcAnswers : List Done :=
  (Machine.outputs (JobDesk.act cr w) JobDesk.empty acts).filterMap id

end answers

variable {acts : List BookAct}

/-- When request ids are owned by tokens, every JDC is answered as by the
    desk, and in the end each token resolves to what lies on its place. -/
theorem engine_refines_desk (hown : ∀ act ∈ acts, act.OwnId cr owner) :
    Engine.jdcAnswers cr w acts = JobDesk.jdcAnswers cr w acts ∧
    ∀ t, (Machine.after (Engine.act cr w) Engine.new acts).resolve t =
      (Machine.after (JobDesk.act cr w) JobDesk.empty acts).board t := by
  obtain ⟨hanswers, hkeeps⟩ := act_keeps.run hown keeps_new
  exact ⟨hanswers, fun t => (hkeeps.board t).symm⟩

/-! ## What one client sees -/

/-- The answer to a call about `t`. -/
def Done.to (t : JdToken) : Done → Option Done
  | ⟨.declare d pmts, result⟩ =>
    if decodeToken d = some t then some ⟨.declare d pmts, result⟩ else none
  | ⟨.setCustom m t', result⟩ => if t' = t then some ⟨.setCustom m t', result⟩ else none
  | _ => none

/-- The act is about `t`, or about all jobs. -/
def BookAct.concerns (t : JdToken) : BookAct → Bool
  | .call _ (.declare d _) => decodeToken d = some t
  | .call _ (.setCustom _ t') => t' = t
  | .call _ (.reorg _) | .call _ (.tdpMessage _) | .flush _ => true
  | .call _ _ => false

/-- The desks look the same to the holder of `t`. -/
def LooksSame (t : JdToken) (desk desk' : JobDesk) : Prop :=
  desk.board t = desk'.board t ∧ desk.snapshots = desk'.snapshots

theorem put_looksSame {t t' : JdToken} {desk desk' : JobDesk} {job : Option DeclaredJob}
    (h : LooksSame t desk desk') (ht : t ≠ t') : LooksSame t (desk.put t' job) desk' := by
  refine ⟨?_, h.2⟩
  rw [JobDesk.put_board, if_neg ht]
  exact h.1

theorem looksSame_view (t : JdToken) : Machine.View (JobDesk.act cr w)
    (fun answer => answer.bind (Done.to t)) (BookAct.concerns t) (LooksSame t) where
  shown desk desk' act h hact := by
    obtain ⟨hboard, hsnap⟩ := h
    have hprune : ∀ p, LooksSame t (desk.prune p) (desk'.prune p) := by
      intro p
      refine ⟨Option.ext fun job => ?_, hsnap⟩
      rw [JobDesk.prune_board, JobDesk.prune_board, hboard]
    have hput : ∀ job, LooksSame t (desk.put t job) (desk'.put t job) := by
      intro job
      refine ⟨?_, hsnap⟩
      rw [JobDesk.put_board, JobDesk.put_board, if_pos rfl, if_pos rfl]
    cases act with
    | flush env => exact ⟨rfl, hprune _⟩
    | call env c =>
      cases c with
      | declare d pmts =>
        have htoken : decodeToken d = some t := of_decide_eq_true hact
        cases hcheck : checkDeclaration cr d pmts with
        | error result =>
          simp only [JobDesk.act, hcheck]
          exact ⟨trivial, hboard, hsnap⟩
        | ok accepted =>
          obtain ⟨t', txs⟩ := accepted
          obtain rfl : t' = t := Option.some.inj ((checkDeclaration_ok hcheck).1.symm.trans htoken)
          have hjob : desk.job cr w env d t' txs = desk'.job cr w env d t' txs := by
            rw [JobDesk.job, JobDesk.job, hsnap]
          simp only [JobDesk.act, hcheck, hjob]
          exact ⟨trivial, hput _⟩
      | setCustom m t' =>
        obtain rfl : t' = t := of_decide_eq_true hact
        simp only [JobDesk.act, hboard]
        exact ⟨trivial, hput none⟩
      | reorg newTip => exact ⟨rfl, hprune _⟩
      | tdpMessage msg =>
        refine ⟨rfl, hboard, ?_⟩
        show (desk.record msg).snapshots = (desk'.record msg).snapshots
        rw [JobDesk.record, JobDesk.record, hsnap]
      | _ => cases hact
  hidden desk desk' act h hact := by
    cases act with
    | flush env => cases hact
    | call env c =>
      cases c with
      | declare d pmts =>
        have htoken : decodeToken d ≠ some t := of_decide_eq_false hact
        cases hcheck : checkDeclaration cr d pmts with
        | error result =>
          simp only [JobDesk.act, hcheck]
          exact ⟨if_neg htoken, h⟩
        | ok accepted =>
          obtain ⟨t', txs⟩ := accepted
          have ht : t ≠ t' := by
            intro heq
            subst heq
            exact htoken (checkDeclaration_ok hcheck).1
          simp only [JobDesk.act, hcheck]
          exact ⟨if_neg htoken, put_looksSame h ht⟩
      | setCustom m t' =>
        have ht : t' ≠ t := of_decide_eq_false hact
        exact ⟨if_neg ht, put_looksSame h (Ne.symm ht)⟩
      | allocate resolver token user maxSize => exact ⟨rfl, h⟩
      | push ps => exact ⟨rfl, h⟩
      | evict t' => exact ⟨rfl, h⟩
      | reorg newTip => cases hact
      | tdpMessage msg => cases hact

theorem answersTo_eq (t : JdToken) : (JobDesk.jdcAnswers cr w acts).filterMap (Done.to t) =
    (Machine.outputs (JobDesk.act cr w) JobDesk.empty acts).filterMap fun answer =>
      answer.bind (Done.to t) := by
  rw [JobDesk.jdcAnswers, List.filterMap_filterMap]
  rfl

/-- When request ids are owned by tokens, the holder of a token is answered as
    if the declarations and custom jobs of all other tokens, and all
    allocations, solutions and evictions, had never been made. -/
theorem clients_do_not_interfere (hown : ∀ act ∈ acts, act.OwnId cr owner) (t : JdToken) :
    let alone := acts.filter (BookAct.concerns t)
    (Engine.jdcAnswers cr w acts).filterMap (Done.to t) =
        (Engine.jdcAnswers cr w alone).filterMap (Done.to t) ∧
      (Machine.after (Engine.act cr w) Engine.new acts).resolve t =
        (Machine.after (Engine.act cr w) Engine.new alone).resolve t := by
  intro alone
  have halone : ∀ act ∈ alone, act.OwnId cr owner := fun act hact =>
    hown act (List.mem_of_mem_filter hact)
  have hsim : Machine.Simulates (Engine.act cr w) (JobDesk.act cr w) _ _ _ (Keeps owner) :=
    act_keeps
  have hview : Machine.View (JobDesk.act cr w) _ _ (LooksSame t) := looksSame_view t
  obtain ⟨hanswers, hkeeps⟩ := hsim.run hown keeps_new
  obtain ⟨hanswers', hkeeps'⟩ := hsim.run halone keeps_new
  obtain ⟨hpurged, hsame, -⟩ := hview.purge ⟨rfl, rfl⟩
  constructor
  · calc (Engine.jdcAnswers cr w acts).filterMap (Done.to t)
        = (JobDesk.jdcAnswers cr w acts).filterMap (Done.to t) :=
          congrArg (List.filterMap (Done.to t)) hanswers
      _ = (JobDesk.jdcAnswers cr w alone).filterMap (Done.to t) := by
          rw [answersTo_eq, answersTo_eq, hpurged]
      _ = (Engine.jdcAnswers cr w alone).filterMap (Done.to t) :=
          (congrArg (List.filterMap (Done.to t)) hanswers').symm
  · rw [← hkeeps.board, ← hkeeps'.board, hsame]

/-- The owner from what the act binds. -/
theorem ownId_of_binds {act : BookAct} {t : JdToken} {r : RequestId}
    (h : act.binds cr = some (t, r)) (hown : owner r = t) : act.OwnId cr owner := by
  intro t' r' h'
  rw [h] at h'
  cases h'
  exact hown

theorem ownId_of_binds_none {act : BookAct} (h : act.binds cr = none) : act.OwnId cr owner := by
  intro t r h'
  rw [h] at h'
  cases h'

end

/-! ## Two clients at the desk -/

/-- The call succeeded. -/
def Done.succeeded : Done → Bool
  | ⟨.declare _ _, result⟩ => result = .success
  | ⟨.setCustom _ _, result⟩ => result = .success
  | _ => true

namespace Sample

/-- Two clients declare; the second one sets its custom job, then the first
    one does. -/
def desk : List BookAct :=
  twoClients.map (fun x => .call x.1 x.2) ++
    [.call online (.setCustom (customJob (U256.fill 1) [8]) 4),
     .call online (.setCustom (customJob (U256.fill 1) [9]) 3)]

def owner (r : RequestId) : JdToken := if r = 7 then 3 else 4

theorem desk_ownId : ∀ act ∈ desk, act.OwnId crates owner := by
  have hfirst : (BookAct.call online (declare 7 3 [9])).binds crates = some (3, 7) := by
    decide +kernel
  have hsecond : (BookAct.call online (declare 8 4 [8])).binds crates = some (4, 8) := by
    decide +kernel
  intro act hact
  simp only [desk, twoClients, announce, List.map_cons, List.map_nil,
    List.cons_append, List.nil_append, List.mem_cons, List.not_mem_nil, or_false] at hact
  rcases hact with rfl | rfl | rfl | rfl | rfl | rfl
  · exact ownId_of_binds_none rfl
  · exact ownId_of_binds_none rfl
  · exact ownId_of_binds hfirst rfl
  · exact ownId_of_binds hsecond rfl
  · exact ownId_of_binds_none rfl
  · exact ownId_of_binds_none rfl

end Sample

theorem engine_refines_desk_two_clients :
    (JobDesk.jdcAnswers Sample.crates Sample.wiring Sample.desk).map Done.succeeded =
      [true, true, true, true] := by
  rw [← (engine_refines_desk Sample.desk_ownId).1]
  decide +kernel

/-- The first client's answers are those of a run without the second one. -/
theorem clients_do_not_interfere_two_clients :
    let alone := Sample.desk.filter (BookAct.concerns 3)
    alone.length = 4 ∧
    ((Engine.jdcAnswers Sample.crates Sample.wiring Sample.desk).filterMap (Done.to 3)).map
        Done.succeeded = [true, true] ∧
    (Engine.jdcAnswers Sample.crates Sample.wiring Sample.desk).filterMap (Done.to 3) =
      (Engine.jdcAnswers Sample.crates Sample.wiring alone).filterMap (Done.to 3) :=
  ⟨by decide +kernel, by decide +kernel,
    (clients_do_not_interfere Sample.desk_ownId 3).1⟩

end Sv2P2pool
