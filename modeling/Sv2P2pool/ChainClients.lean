import Sv2P2pool.Framework.Clients
import Sv2P2pool.Overlap
import Sv2P2pool.RequestLoop

/-! # The Engine Behind the IPC Actor

    The engine holds an `Arc<dyn ShareChainReader>`. With an `IpcChain` in it,
    a handler that reads the share chain leaves the engine: its request goes
    through the actor to the daemon, and the handler goes on when the answer
    is back, while other handlers run and the daemon's store moves.

    Every run of the handlers over the actor is one in which each of these
    reads is a single step on the daemon's store. So what was shown of the
    handlers one operation at a time also holds when their reads take long;
    as an example, every tip captured in a cached job is one that the daemon
    had.
-/

namespace Sv2P2pool

open ByteCodec Bitcoin Interleave Linearize

/-! ## The reads of the engine -/

/-- The operations that go through the `ShareChainReader`. -/
def Op.chainRequest? : Op → Option IpcRequest
  | .getChainTip => some .getChainTip
  | .getShareHeader shareHash => some (.getShareHeader shareHash)
  | _ => none

/-- What the handlers make of a result: every error is only logged. -/
def Op.chainResult : (o : Op) → {request : IpcRequest} → o.chainRequest? = some request →
    IpcResult → o.Res
  | .getChainTip, _, _, .ok (.chainTip tip) => some tip
  | .getChainTip, _, _, _ => none
  | .getShareHeader _, _, _, .ok (.shareHeader lookup) => some lookup
  | .getShareHeader _, _, _, _ => none

def chainBinding : Binding engineSig IpcRequest IpcResult := ⟨Op.chainRequest?, Op.chainResult⟩

/-! ## Reads over the actor -/

section

variable {ι : Type} [DecidableEq ι] {Act α : Type} {I : Interp engineSig Engine}
  {act : Act → Engine → Engine} {daemon : ChainStore → DaemonReads} {faulty : Bool}

/-- Handlers and their actor, before any of them has read. -/
def overIpc (config : Config engineSig Engine α ι) (store : ChainStore) :
    Clients engineSig Engine α ι × RequestLoop ι :=
  (⟨config, fun _ => false⟩, RequestLoop.init ι store)

/-- Any handlers that read the share chain through the actor run as if each
    read were a single step on the daemon's store. -/
theorem atomic_of_overIpc (hdoc : ∀ store, (daemon store).Documented store)
    {config : Config engineSig Engine α ι} {store : ChainStore}
    {labels : List (Option (ClientLabel engineSig ι Act IpcRequest IpcResult ChainStore))}
    {c : Clients engineSig Engine α ι} {s : RequestLoop ι}
    (h : Trace (JointStep I act chainBinding (RequestLoop.Step daemon faulty))
      (overIpc config store) labels (c, s)) :
    ∃ labels' d status, Trace (Step (atomicInterp I chainBinding (chainReads faulty))
        (atomicAct act)) ⟨(config.shared, store), config.threads⟩ labels' d ∧
      labels'.filterMap (Label.own? chainBinding) =
        labels.reduceOption.filterMap ClientLabel.own? ∧
      Follows chainBinding c ⟨s.store, status⟩ d := by
  obtain ⟨hc, hs⟩ := joint_parts h
  obtain ⟨effects, a, ha, hhistory, hreads⟩ := RequestLoop.Reads.run hdoc hs
  have hsame := hhistory.trans (objectLabels_reduceOption labels)
  rw [← hreads.value]
  exact clients_atomic (fun _ _ => rfl) hc ha hsame

/-- Whatever handlers run over the actor and whatever the other operations do:
    there is a run on the same shared state in which every read of the share
    chain is one step, answered from the daemon's store of that moment or, in
    a faulty world, failed. It has the same other steps with the same results
    in the same order, and every handler that is not inside a read has done
    and been answered the same. -/
theorem engine_over_ipc (hdoc : ∀ store, (daemon store).Documented store)
    {config : Config engineSig Engine α ι} {store : ChainStore}
    {labels : List (Option (ClientLabel engineSig ι Act IpcRequest IpcResult ChainStore))}
    {c : Clients engineSig Engine α ι} {s : RequestLoop ι}
    (h : Trace (JointStep I act chainBinding (RequestLoop.Step daemon faulty))
      (overIpc config store) labels (c, s)) :
    ∃ labels' d, Trace (Step (atomicInterp I chainBinding (chainReads faulty)) (atomicAct act))
        ⟨(config.shared, store), config.threads⟩ labels' d ∧
      d.shared = (c.config.shared, s.store) ∧
      labels'.filterMap (Label.own? chainBinding) =
        labels.reduceOption.filterMap ClientLabel.own? ∧
      ∀ i, c.inside i = false → d.threads i = c.config.threads i := by
  obtain ⟨labels', d, status, hd, howns, hfollows⟩ := atomic_of_overIpc hdoc h
  exact ⟨labels', d, hd, hfollows.shared, howns, fun i hi => (hfollows.place i).idle hi⟩

/-- One handler reads the tip; the daemon's store moves while the request is
    under way. -/
theorem engine_over_ipc_moved :
    let moved : ChainStore := ⟨some (U256.fill 2), some 3, shareStore⟩
    let config : Config engineSig Engine (Option BlockHash) Unit :=
      ⟨Engine.new, fun _ => ⟨captureShareChainTip ⟨true, true, true⟩, []⟩⟩
    ∃ labels' d, Trace (Step (atomicInterp parInterp chainBinding (chainReads false))
        (atomicAct teeAct)) ⟨(Engine.new, RequestLoop.Sample.shares), config.threads⟩ labels' d ∧
      d.shared = (Engine.new, moved) ∧
      labels'.filterMap (Label.own? chainBinding) = [.env (Sum.inr moved)] ∧
      (d.threads ()).prog = .ret (some (U256.fill 2)) := by
  intro moved config
  have hrun : ∃ c s, Trace (JointStep parInterp teeAct chainBinding
        (RequestLoop.Step ChainStore.serve false)) (overIpc config RequestLoop.Sample.shares)
      [some (.object (.call () .getChainTip)), none, none, none, some (.object (.moved moved)),
        none, none, none, some (.object (.ret () (.ok (.chainTip (some (U256.fill 2))))))] (c, s) ∧
      c.config.shared = Engine.new ∧ s.store = moved ∧ c.inside () = false ∧
      (c.config.threads ()).prog = .ret (some (U256.fill 2)) := by
    refine ⟨_, _, ⟨_, .object _ (.call () rfl rfl rfl) (.call () _ rfl rfl),
      _, .internal (.work (.send () 0 _ rfl rfl (Nat.zero_lt_succ 255))),
      _, .internal (.work (.recv 0 [] .getChainTip rfl rfl)),
      _, .internal (.work (.poll 0 .getChainTip rfl)), _, .object _ (.moved moved) (.moved moved),
      _, .internal (.answer 0 .getChainTip rfl), _, .internal (.work (.reply 0 _ rfl)),
      _, .internal (.work (.wake () 0 .getChainTip _ rfl rfl)),
      _, .object _ (.ret () _ rfl rfl rfl) (.ret () _ rfl), rfl⟩, rfl, rfl, rfl, rfl⟩
  obtain ⟨c, s, hrun, hshared, hstore, hout, hprog⟩ := hrun
  obtain ⟨labels', d, hd, hd', howns, hthreads⟩ :=
    engine_over_ipc ChainStore.serve_documented hrun
  rw [hshared, hstore] at hd'
  refine ⟨labels', d, hd, hd', howns, ?_⟩
  rw [hthreads () hout, hprog]

/-! ## The daemon's store in an atomic run -/

/-- The store after steps that may move it. -/
def storeAfter (store : ChainStore) (labels : List (Label engineSig ι (Act ⊕ ChainStore))) :
    ChainStore :=
  labels.foldl (fun store l =>
    match l with
    | .env (.inr moved) => moved
    | _ => store) store

omit [DecidableEq ι] in
theorem storeAfter_own (labels : List (Label engineSig ι (Act ⊕ ChainStore))) :
    ∀ store, storeAfter store (labels.filterMap (Label.own? chainBinding)) =
      storeAfter store labels := by
  induction labels with
  | nil => exact fun store => rfl
  | cons l labels ih =>
    intro store
    cases l with
    | env a => exact ih _
    | thread i e =>
      by_cases he : (chainBinding.call? e.1).isSome
      · simp only [List.filterMap_cons, Label.own?, if_pos he]
        exact ih _
      · simp only [List.filterMap_cons, Label.own?, if_neg he]
        exact ih _

/-- Only the daemon moves the store. -/
theorem store_of_trace {d d' : Config engineSig (Engine × ChainStore) α ι}
    {labels : List (Label engineSig ι (Act ⊕ ChainStore))}
    (h : Trace (Step (atomicInterp I chainBinding (chainReads faulty)) (atomicAct act)) d
      labels d') : d'.shared.2 = storeAfter d.shared.2 labels := by
  refine Trace.history (P := fun labels d' => d'.shared.2 = storeAfter d.shared.2 labels) rfl ?_
    labels h
  intro labels d' l d'' hstore hstep
  unfold storeAfter at hstore ⊢
  rw [List.foldl_append, ← hstore]
  cases hstep with
  | env a => cases a <;> rfl
  | thread i hprog hI =>
    obtain ⟨-, -, hsame⟩ | ⟨op, hop, -, ⟨-, hsame⟩ | ⟨_, -, -, hsame⟩⟩ := hI
    · exact hsame
    · exact hsame
    · exact hsame

omit [DecidableEq ι] in
/-- A tip read answers with the tip of the store, or fails. -/
theorem atomic_getChainTip {s s' : Engine × ChainStore} {answer : Option (Option BlockHash)}
    (h : atomicInterp I chainBinding (chainReads faulty) s .getChainTip answer s') :
    answer = some s.2.tip ∨ faulty = true ∧ answer = none := by
  obtain ⟨hnone, -⟩ | ⟨op, hop, -, ⟨hanswer, -⟩ | ⟨failed, hfailed, hanswer, -⟩⟩ := h
  · cases hnone
  · obtain rfl : IpcRequest.getChainTip = op := Option.some.inj hop
    refine Or.inl (hanswer.trans ?_)
    cases htip : s.2.tip with
    | none => simp [chainBinding, chainReads, InProcessChain.answer, InProcessChain.getChainTip,
        ChainStore.getChainTip, htip, Op.chainResult, Except.map]
    | some tip => simp [chainBinding, chainReads, InProcessChain.answer,
        InProcessChain.getChainTip, ChainStore.getChainTip, htip, Op.chainResult, Except.map]
  · obtain ⟨hfaulty, reason, rfl⟩ := hfailed
    exact Or.inr ⟨hfaulty, hanswer⟩

/-- The same at any point of a run. -/
theorem getChainTip_of_trace {d d' : Config engineSig (Engine × ChainStore) α ι} {i : ι}
    {before after : List (Label engineSig ι (Act ⊕ ChainStore))}
    {answer : Option (Option BlockHash)}
    (h : Trace (Step (atomicInterp I chainBinding (chainReads faulty)) (atomicAct act)) d
      (before ++ .thread i ⟨Op.getChainTip, answer⟩ :: after) d') :
    answer = some (storeAfter d.shared.2 before).tip ∨ faulty = true ∧ answer = none := by
  obtain ⟨u, hbefore, v, hstep, -⟩ := (Trace.append_iff _ _ _ _).mp h
  rw [← store_of_trace hbefore]
  cases hstep with
  | thread _ hprog hI => exact atomic_getChainTip hI

end

/-! ## The tip in a cached job -/

/-- A declaration takes its three snapshots and inserts its job with the
    share-chain tip it read. -/
def Captures (log : List (Event engineSig)) : Op → Prop
  | .jobsInsert _ job => ∃ tip templateId answer,
    log = [⟨.currentTip, tip⟩, ⟨.currentTemplateId, templateId⟩, ⟨.getChainTip, answer⟩] ∧
      job.shareChainTip = answer.join
  | _ => True

section

variable {cr : Crates} {w : Wiring}

/-- What follows the insertion. -/
theorem declareResult_captures (result : DeclareMiningJobResult)
    (log : List (Event engineSig)) :
    (declareResult w result).Spec Captures (fun _ _ => True) log := by
  unfold declareResult bump
  cases result <;> split_ifs <;> simp [Captures]

theorem declare_captures (htdp : w.tdp = true) (hw : w.handles = true) (d : DeclareMiningJob)
    (pmts : Option ProvideMissingTransactionsSuccess) :
    ((JobCall.declare d pmts).prog cr w).Spec Captures (fun _ _ => True) [] := by
  have hlast : ∀ log result, True → (Prog.ret (JobAnswer.declared result) : Handler JobAnswer).Spec
      Captures (fun _ _ => True) log := fun _ _ _ => trivial
  refine Prog.Spec.bind (Q := fun _ _ => True) hlast ?_
  unfold handleDeclareMiningJob
  cases checkDeclaration cr d pmts with
  | error result => exact declareResult_captures result []
  | ok accepted =>
    unfold captureTip captureShareChainTip
    rw [if_pos htdp, if_pos hw]
    refine ⟨trivial, fun tip => ⟨trivial, fun templateId => ⟨trivial, fun answer => ?_⟩⟩⟩
    exact ⟨⟨tip, templateId, answer, rfl, rfl⟩, fun _ => ⟨trivial, fun _ =>
      declareResult_captures .success _⟩⟩

theorem jobCall_captures (htdp : w.tdp = true) (hw : w.handles = true) (call : JobCall) :
    (call.prog cr w).Spec Captures (fun _ _ => True) [] := by
  cases call with
  | declare d pmts => exact declare_captures htdp hw d pmts
  | _ =>
    -- no other call inserts a job
    refine ((jobCall_conforms _).mono fun log o ho => ?_).imp fun _ _ _ => trivial
    cases o with
    | jobsInsert r job =>
      obtain ⟨d, pmts, t, heq, -⟩ := ho
      cases heq
    | _ => trivial

variable {ι : Type} [DecidableEq ι] {daemon : ChainStore → DaemonReads} {faulty : Bool}

/-- The tip in an inserted job was the daemon's at a moment between the
    declaration's read of the current template and the insertion, however long
    the request was under way and whatever ran meanwhile; without faults it is
    never missing. -/
theorem captured_tip_fresh (htdp : w.tdp = true) (hw : w.handles = true)
    (hdoc : ∀ store, (daemon store).Documented store) {engine : Engine} {call : ι → JobCall}
    {store : ChainStore}
    {labels : List (Option (ClientLabel engineSig ι TemplateDistribution IpcRequest IpcResult
      ChainStore))}
    {c : Clients engineSig Engine JobAnswer ι} {s : RequestLoop ι}
    (h : Trace (JointStep parInterp teeAct chainBinding (RequestLoop.Step daemon faulty))
      (overIpc (jobCalls cr w engine call) store) labels (c, s))
    {i : ι} {r : RequestId} {job : DeclaredJob}
    (hinsert : some (.own (.thread i ⟨.jobsInsert r job, ()⟩)) ∈ labels) :
    ∃ (templateId : Option UInt64) (before during during' after :
        List (Label engineSig ι (TemplateDistribution ⊕ ChainStore))),
      labels.reduceOption.filterMap ClientLabel.own? =
        before ++ .thread i ⟨Op.currentTemplateId, templateId⟩ :: (during ++ during') ++
          .thread i ⟨Op.jobsInsert r job, ()⟩ :: after ∧
      performedBy i (during ++ during') = [] ∧
      (job.shareChainTip = (storeAfter store (before ++ during)).tip ∨
        faulty = true ∧ job.shareChainTip = none) := by
  obtain ⟨labels', d, -, hd, howns, -⟩ := atomic_of_overIpc hdoc h
  -- the insertion is a step of the atomic run
  have hmem : .thread i ⟨.jobsInsert r job, ()⟩ ∈ labels' := by
    have hown : .thread i ⟨.jobsInsert r job, ()⟩ ∈
        labels.reduceOption.filterMap ClientLabel.own? :=
      List.mem_filterMap.mpr ⟨_, List.reduceOption_mem_iff.mpr hinsert, rfl⟩
    rw [← howns] at hown
    obtain ⟨l, hl, heq⟩ := List.mem_filterMap.mp hown
    exact eq_of_own heq ▸ hl
  have hlogged := (spec_of_trace (P := fun _ => Captures) (Q := fun _ _ _ => True)
    (fun i => jobCall_captures htdp hw (call i)) (fun _ => logged_nil _) hd i).2
  have hlog : (d.threads i).log = performedBy i labels' := log_eq_performedBy hd i
  obtain ⟨log₁, log₂, hsplit⟩ := List.append_of_mem
    ((mem_labels_iff (fun _ => rfl) hd i ⟨.jobsInsert r job, ()⟩).mp hmem)
  obtain ⟨tip, templateId, answer, rfl, hanswer⟩ := hlogged _ _ _ hsplit
  -- so the three snapshots are steps before it
  rw [hlog] at hsplit
  obtain ⟨upto, after, rfl, hupto, -⟩ := exists_of_performedBy hsplit
  obtain ⟨before, reading, rfl, -, hreading⟩ := exists_of_performedBy
    (show performedBy i upto = [⟨Op.currentTip, tip⟩] ++ ⟨Op.currentTemplateId, templateId⟩ ::
      [⟨Op.getChainTip, answer⟩] from hupto)
  obtain ⟨during, during', rfl, hduring, hduring'⟩ := exists_of_performedBy
    (show performedBy i reading = [] ++ ⟨Op.getChainTip, answer⟩ :: [] from hreading)
  refine ⟨templateId, before.filterMap (Label.own? chainBinding),
    during.filterMap (Label.own? chainBinding), during'.filterMap (Label.own? chainBinding),
    after.filterMap (Label.own? chainBinding), ?_, ?_, ?_⟩
  · rw [← howns]
    simp [Label.own?, chainBinding, Op.chainRequest?]
  · rw [← List.filterMap_append]
    exact performedBy_own (by rw [performedBy_append, hduring, hduring']; rfl)
  · have hstore : storeAfter store (before.filterMap (Label.own? chainBinding) ++
        during.filterMap (Label.own? chainBinding)) =
        storeAfter store (before ++ .thread i ⟨Op.currentTemplateId, templateId⟩ :: during) := by
      rw [← List.filterMap_append, storeAfter_own]
      simp [storeAfter]
    rw [hstore, hanswer]
    rw [show before ++ .thread i ⟨Op.currentTemplateId, templateId⟩ ::
        (during ++ .thread i ⟨Op.getChainTip, answer⟩ :: during') ++
        .thread i ⟨Op.jobsInsert r job, ()⟩ :: after =
      (before ++ .thread i ⟨Op.currentTemplateId, templateId⟩ :: during) ++
        .thread i ⟨Op.getChainTip, answer⟩ ::
          (during' ++ .thread i ⟨Op.jobsInsert r job, ()⟩ :: after) by simp] at hd
    rcases getChainTip_of_trace hd with rfl | ⟨hfaulty, rfl⟩
    · exact Or.inl rfl
    · exact Or.inr ⟨hfaulty, rfl⟩

end

namespace Sample

def movedShares : ChainStore := ⟨some (U256.fill 2), some 3, shareStore⟩

/-- One declaration over the actor. -/
def declaringOverIpc : Clients engineSig Engine JobAnswer Unit × RequestLoop Unit :=
  overIpc (jobCalls crates wiring Engine.new fun _ => declaring 7 3) RequestLoop.Sample.shares

/-- The daemon's store moves while the declaration's request is under way. -/
theorem declaringOverIpc_run : ∃ job labels c s,
    Trace (JointStep parInterp teeAct chainBinding (RequestLoop.Step ChainStore.serve false))
      declaringOverIpc (labels ++ [some (.own (.thread () ⟨.jobsInsert 7 job, ()⟩))]) (c, s) ∧
      job.shareChainTip = some (U256.fill 2) := by
  obtain ⟨t, txs, hcheck⟩ : ∃ t txs, checkDeclaration crates (declaration 7 3 [9])
      (some ⟨[body.serialize]⟩) = .ok (t, txs) :=
    run_declare_success crates wiring online (s := Engine.new) (by decide +kernel)
  have hprog : (declaring 7 3).prog crates wiring = .op .currentTip fun tip =>
      .op .currentTemplateId fun templateId => .op .getChainTip fun answer =>
      .op (.jobsInsert 7 (declaredSnapshot crates (declaration 7 3 [9]) t txs
        (tip.getD TipMetadata.default) templateId answer.join)) fun _ =>
      .op (.tokensInsert t 7) fun _ =>
      declareResult wiring .success >>= fun result => .ret (.declared result) := by
    show (handleDeclareMiningJob crates wiring (declaration 7 3 [9]) (some ⟨[body.serialize]⟩) >>=
      fun result => pure (JobAnswer.declared result)) = _
    unfold handleDeclareMiningJob
    rw [hcheck]
    rfl
  have hconfig : declaringOverIpc = overIpc
      ⟨Engine.new, fun _ => ⟨(declaring 7 3).prog crates wiring, []⟩⟩ RequestLoop.Sample.shares :=
    rfl
  rw [hconfig, hprog]
  have hown := parStep_interp online
  refine ⟨_, [some (.own (.thread () ⟨Op.currentTip, none⟩)),
    some (.own (.thread () ⟨Op.currentTemplateId, none⟩)),
    some (.object (.call () .getChainTip)), none, none, none, some (.object (.moved movedShares)),
    none, none, none, some (.object (.ret () (.ok (.chainTip (some (U256.fill 2))))))], _, _,
    ⟨_, .own _ (.thread () rfl rfl rfl (hown Engine.new .currentTip)),
      _, .own _ (.thread () rfl rfl rfl (hown Engine.new .currentTemplateId)),
      _, .object _ (.call () rfl rfl rfl) (.call () _ rfl rfl),
      _, .internal (.work (.send () 0 _ rfl rfl (Nat.zero_lt_succ 255))),
      _, .internal (.work (.recv 0 [] .getChainTip rfl rfl)),
      _, .internal (.work (.poll 0 .getChainTip rfl)),
      _, .object _ (.moved movedShares) (.moved movedShares),
      _, .internal (.answer 0 .getChainTip rfl), _, .internal (.work (.reply 0 _ rfl)),
      _, .internal (.work (.wake () 0 .getChainTip _ rfl rfl)),
      _, .object _ (.ret () _ rfl rfl rfl) (.ret () _ rfl),
      _, .own _ (.thread () rfl rfl rfl (hown Engine.new (.jobsInsert 7 _))), rfl⟩, rfl⟩

end Sample

/-- The new tip is the one captured. -/
theorem captured_tip_fresh_moved : ∃ job labels,
    some (.own (.thread () ⟨Op.jobsInsert 7 job, ()⟩)) ∈ labels ∧
    (∃ c, Trace (JointStep parInterp teeAct chainBinding
      (RequestLoop.Step ChainStore.serve false)) Sample.declaringOverIpc labels c) ∧
    job.shareChainTip = some (U256.fill 2) ∧
    ∃ (templateId : Option UInt64) (before during during' after :
        List (Label engineSig Unit (TemplateDistribution ⊕ ChainStore))),
      labels.reduceOption.filterMap ClientLabel.own? =
        before ++ .thread () ⟨Op.currentTemplateId, templateId⟩ :: (during ++ during') ++
          .thread () ⟨Op.jobsInsert 7 job, ()⟩ :: after ∧
      performedBy () (during ++ during') = [] ∧
      (job.shareChainTip = (storeAfter RequestLoop.Sample.shares (before ++ during)).tip ∨
        false = true ∧ job.shareChainTip = none) := by
  obtain ⟨job, labels, c, s, hrun, hjob⟩ := Sample.declaringOverIpc_run
  have hmem : some (.own (.thread () ⟨Op.jobsInsert 7 job, ()⟩)) ∈
      labels ++ [some (.own (.thread () ⟨Op.jobsInsert 7 job, ()⟩))] := by simp
  exact ⟨job, _, hmem, ⟨_, hrun⟩, hjob,
    captured_tip_fresh rfl rfl ChainStore.serve_documented hrun hmem⟩

end Sv2P2pool
