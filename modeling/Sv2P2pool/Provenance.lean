import Sv2P2pool.Fetch
import Sv2P2pool.CacheRaces

/-! # Where Submitted Blocks Come From

    A block that reaches bitcoind has three sources: a job that some client
    declared, a solution that some client pushed, and the transaction bodies
    the Template Provider sent for the job's template. In no interleaving of
    declarations, custom jobs, solutions, reorgs and flushes does the engine
    submit anything else, submit twice for one solution, or keep a credit that
    no solution gave.
-/

namespace Sv2P2pool

open ByteCodec Bitcoin Interleave

section

variable (cr : Crates) (w : Wiring)

/-! ## What a solution may deliver -/

/-- The block was rebuilt for the solution, from a job that was read and the
    bodies that were received for the template of that job. -/
def Rebuilt (ps : PushSolution) (log : List (Event engineSig)) (block : Block) : Prop :=
  ∃ r job k waiter result txBodies, ⟨.jobsGet r, some job⟩ ∈ log ∧ job.templateId = some k ∧
    ⟨.awaitResponse k waiter, .received result⟩ ∈ log ∧
    decodeTxData cr k result = .ok txBodies ∧ reconstructBlock cr job ps txBodies = .ok block

/-- When a call may record a credit and submit a block: a solution does either
    once, the credit first, under its own key and for the block it rebuilt. A
    credit without a block is recorded for the key itself. -/
def Delivers (call : JobCall) (log : List (Event engineSig)) : Op → Prop
  | .recordSolution share hash => ∃ ps, call = .push ps ∧ share = syntheticShareHash cr ps ∧
    (hash = share ∨ ∃ block, Rebuilt cr ps log block ∧ hash = cr.blockHash block.header)
  | .spawnSubmitBlock block => ∃ ps, call = .push ps ∧ Rebuilt cr ps log block ∧
    ⟨.recordSolution (syntheticShareHash cr ps) (cr.blockHash block.header), ()⟩ ∈ log ∧
    ∀ block', ⟨.spawnSubmitBlock block', ()⟩ ∉ log
  | _ => True

/-- The operation delivers nothing. -/
def Op.quiet : Op → Prop
  | .recordSolution _ _ | .spawnSubmitBlock _ => False
  | _ => True

variable {cr w} {α ι : Type} {ps : PushSolution} {call : JobCall} {log log' : List (Event engineSig)}
  {block : Block}

theorem Rebuilt.mono (hsub : log ⊆ log') (h : Rebuilt cr ps log block) :
    Rebuilt cr ps log' block := by
  obtain ⟨r, job, k, waiter, result, txBodies, hget, hk, hwait, hdec, hblock⟩ := h
  exact ⟨r, job, k, waiter, result, txBodies, hsub hget, hk, hsub hwait, hdec, hblock⟩

theorem quiet_of_writes {l : List Region} (hsolutions : .solutions ∉ l)
    (hsubmitted : .submitted ∉ l) {p : Handler α} (h : WritesOnly l p) : p.Only Op.quiet := by
  refine Prog.Only.mono (fun o ho => ?_) h
  cases o with
  | recordSolution share hash => exact absurd (ho _ rfl) hsolutions
  | spawnSubmitBlock block => exact absurd (ho _ rfl) hsubmitted
  | _ => trivial

/-- Nothing has been submitted. -/
def Unsent (log : List (Event engineSig)) : Prop := ∀ block, ⟨.spawnSubmitBlock block, ()⟩ ∉ log

theorem Unsent.snoc {o : Op} {r : o.Res} (h : Unsent log) (ho : Op.quiet o) :
    Unsent (log ++ [⟨o, r⟩]) := by
  intro block hmem
  rcases List.mem_append.mp hmem with hmem | hmem
  · exact h block hmem
  · obtain heq := congrArg Sigma.fst (List.mem_singleton.mp hmem)
    cases heq
    exact ho

/-- A program that delivers nothing: the log grows, and nothing is sent. -/
theorem quiet_spec {p : Handler α} (h : p.Only Op.quiet) (hlog : Unsent log) :
    p.Spec (Delivers cr call) (fun log' _ => log ⊆ log' ∧ Unsent log') log := by
  refine Prog.Only.spec (A := Op.quiet) (fun log o ho => ?_) (fun log'' o r hlog ho => ?_) h
    ⟨List.Subset.refl _, hlog⟩
  · cases o with
    | recordSolution share hash => exact ho.elim
    | spawnSubmitBlock block => exact ho.elim
    | _ => trivial
  · exact ⟨fun e he => List.mem_append_left _ (hlog.1 he), hlog.2.snoc ho⟩

theorem quiet_done {p : Handler α} (h : p.Only Op.quiet) (hlog : Unsent log) :
    p.Spec (Delivers cr call) (fun _ _ => True) log :=
  Prog.Spec.imp (fun _ _ _ => trivial) (quiet_spec h hlog)

theorem quiet_drop (reason : PushSolutionDropReason) : (dropSolution w reason).Only Op.quiet :=
  quiet_of_writes (by simp) (by simp) (writesOnly_bump w _ _)

theorem requestTxBodies_received (k : UInt64) (hlog : Unsent log) :
    (requestTxBodies cr k).Spec (Delivers cr call) (fun log' fetched => log ⊆ log' ∧ Unsent log' ∧
      ∀ txBodies, fetched = .ok txBodies → ∃ waiter result,
        ⟨.awaitResponse k waiter, .received result⟩ ∈ log' ∧
        decodeTxData cr k result = .ok txBodies) log := by
  refine ⟨trivial, fun registered => ?_⟩
  have hlog₁ := hlog.snoc (o := .registerRequest k) (r := registered) trivial
  cases registered with
  | none => exact ⟨by simp, hlog₁, fun _ h => by cases h⟩
  | some waiter =>
    refine ⟨trivial, fun sent => ?_⟩
    have hlog₂ := hlog₁.snoc (o := .sendRequest k) (r := sent) trivial
    cases sent with
    | false =>
      refine ⟨trivial, fun _ => ⟨by simp, ?_, fun _ h => by cases h⟩⟩
      exact hlog₂.snoc (o := .removePending k) (r := ()) trivial
    | true =>
      refine ⟨trivial, fun outcome => ?_⟩
      have hlog₃ := hlog₂.snoc (o := .awaitResponse k waiter) (r := outcome) trivial
      cases outcome with
      | received result => exact ⟨by simp, hlog₃, fun _ h => ⟨waiter, result, by simp, h⟩⟩
      | elapsed =>
        refine ⟨trivial, fun _ => ⟨by simp, ?_, fun _ h => by cases h⟩⟩
        exact hlog₃.snoc (o := .removePending k) (r := ()) trivial
      | senderDropped =>
        refine ⟨trivial, fun _ => ⟨by simp, ?_, fun _ h => by cases h⟩⟩
        exact hlog₃.snoc (o := .removePending k) (r := ()) trivial

theorem deliverBlock_delivers {declared : DeclaredJob} (hlog : Unsent log)
    (hblock : Rebuilt cr ps log block) :
    (deliverBlock cr w ps declared block).Spec (Delivers cr (.push ps)) (fun _ _ => True) log := by
  have htail : ∀ log', log ⊆ log' → Unsent log' →
      (recordSolution (syntheticShareHash cr ps) (cr.blockHash block.header) >>= fun _ =>
        if w.handles then bump w .blocksSubmitted 1 >>= fun _ => spawnSubmitBlock block
        else pure ()).Spec (Delivers cr (.push ps)) (fun _ _ => True) log' := by
    intro log' hsub hunsent
    refine ⟨⟨ps, rfl, rfl, Or.inr ⟨block, hblock.mono hsub, rfl⟩⟩, fun _ => ?_⟩
    have hunsent' : Unsent (log' ++ [⟨.recordSolution (syntheticShareHash cr ps)
        (cr.blockHash block.header), ()⟩]) := by
      intro block' hmem
      exact hunsent block' (by simpa using hmem)
    show (if w.handles then _ else _ : Handler Unit).Spec _ _ _
    split_ifs
    · have hquiet : (bump w .blocksSubmitted 1).Only Op.quiet :=
        quiet_of_writes (by simp) (by simp) (writesOnly_bump w _ _)
      refine Prog.Spec.bind (fun log'' _ hlog'' => ?_) (quiet_spec hquiet hunsent')
      have hrecorded : ⟨.recordSolution (syntheticShareHash cr ps)
          (cr.blockHash block.header), ()⟩ ∈ log'' := hlog''.1 (by simp)
      have hrebuilt : Rebuilt cr ps log'' block :=
        hblock.mono fun e he => hlog''.1 (List.mem_append_left _ (hsub he))
      exact ⟨⟨ps, rfl, hrebuilt, hrecorded, hlog''.2⟩, fun _ => trivial⟩
    · trivial
  unfold deliverBlock
  cases declared.allocatedToken with
  | none => exact htail log (List.Subset.refl _) hlog
  | some token =>
    refine ⟨trivial, fun script => htail _ (List.subset_append_left _ _) ?_⟩
    exact hlog.snoc (o := .payoutGet token) (r := script) trivial

theorem solveWith_delivers {r : RequestId} {job : DeclaredJob} (hlog : Unsent log)
    (hget : ⟨.jobsGet r, some job⟩ ∈ log) :
    (solveWith cr w ps job).Spec (Delivers cr (.push ps)) (fun _ _ => True) log := by
  unfold solveWith
  cases hk : job.templateId with
  | none =>
    refine ⟨⟨ps, rfl, rfl, Or.inl rfl⟩, fun _ => quiet_done (quiet_drop _) fun block hmem => ?_⟩
    exact hlog block (by simpa using hmem)
  | some k =>
    refine Prog.Spec.bind (fun log' fetched hlog' => ?_) (requestTxBodies_received k hlog)
    obtain ⟨hsub, hunsent, hreceived⟩ := hlog'
    cases fetched with
    | error e => exact quiet_done (quiet_drop _) hunsent
    | ok txBodies =>
      obtain ⟨waiter, result, hwait, hdec⟩ := hreceived txBodies rfl
      simp only
      cases hblock : reconstructBlock cr job ps txBodies with
      | error e => exact quiet_done (quiet_drop _) hunsent
      | ok block =>
        exact deliverBlock_delivers hunsent
          ⟨r, job, k, waiter, result, txBodies, hsub hget, hk, hwait, hdec, hblock⟩

theorem lookupSolution_delivers (hlog : Unsent log) :
    (lookupSolution ps).Spec (Delivers cr (.push ps)) (fun log' found => Unsent log' ∧
      ∀ job, found = .ok job → ∃ r, ⟨.jobsGet r, some job⟩ ∈ log') log := by
  refine ⟨trivial, fun found => ?_⟩
  have hlog₁ := hlog.snoc (o := .jobsFindBySolution ps.prevHash ps.nbits ps.version) (r := found)
    trivial
  cases found with
  | none => exact ⟨hlog₁, fun _ h => by cases h⟩
  | some r =>
    refine ⟨trivial, fun answer => ?_⟩
    have hlog₂ := hlog₁.snoc (o := .jobsGet r) (r := answer) trivial
    cases answer with
    | none => exact ⟨hlog₂, fun _ h => by cases h⟩
    | some job =>
      refine ⟨hlog₂, fun job' h => ?_⟩
      cases h
      exact ⟨r, by simp⟩

theorem push_delivers (ps : PushSolution) :
    (handlePushSolution cr w ps).Spec (Delivers cr (.push ps)) (fun _ _ => True) [] := by
  have hnone : Unsent [] := by
    intro block hmem
    cases hmem
  unfold handlePushSolution
  refine Prog.Spec.bind (fun log _ hlog => ?_)
    (quiet_spec (quiet_of_writes (by simp) (by simp) (writesOnly_bump w _ _)) hnone)
  split_ifs
  · refine Prog.Spec.bind (fun log' found hlog' => ?_) (lookupSolution_delivers hlog.2)
    cases found with
    | error reason => exact quiet_done (quiet_drop _) hlog'.1
    | ok job =>
      obtain ⟨r, hget⟩ := hlog'.2 job rfl
      exact solveWith_delivers hlog'.1 hget
  · refine ⟨⟨ps, rfl, rfl, Or.inl rfl⟩, fun _ => quiet_done (quiet_drop _) fun block hmem => ?_⟩
    exact hlog.2 block (by simpa using hmem)

theorem writesOnly_invalidatorFlush :
    WritesOnly [.declaredJobs, .counters] (invalidatorFlush w) :=
  writesOnly_of_ofReorg (only_invalidatorFlush w)

/-- From a handler to the call. -/
theorem call_spec {P : List (Event engineSig) → Op → Prop} {p : Handler α} {f : α → JobAnswer}
    (h : p.Spec P (fun _ _ => True) log) :
    (p >>= fun a => pure (f a)).Spec P (fun _ _ => True) log := by
  refine Prog.Spec.bind (f := fun a => .ret (f a)) (fun _ _ _ => ?_) h
  trivial

theorem jobCall_delivers (call : JobCall) :
    (call.prog cr w).Spec (Delivers cr call) (fun _ _ => True) [] := by
  have hnone : Unsent [] := by
    intro block hmem
    cases hmem
  cases call with
  | declare d pmts =>
    exact call_spec
      (quiet_done (quiet_of_writes (by simp) (by simp) (writesOnly_declare cr w d pmts)) hnone)
  | setCustom m t =>
    exact call_spec
      (quiet_done (quiet_of_writes (by simp) (by simp) (writesOnly_setCustom cr w m t)) hnone)
  | push ps => exact call_spec (push_delivers ps)
  | reorg newTip =>
    exact call_spec (quiet_done (quiet_of_writes (by simp) (by simp) (writesOnly_reorg w newTip))
      hnone)
  | flush =>
    exact call_spec (quiet_done (quiet_of_writes (by simp) (by simp) writesOnly_invalidatorFlush)
      hnone)

/-- All calls use the request table in order. -/
theorem jobCall_orderly (call : JobCall) :
    (call.prog cr w).Spec Orderly (fun _ _ => True) [] := by
  cases call with
  | declare d pmts => exact call_spec (orderly_spec (writesOnly_declare cr w d pmts) (by simp))
  | setCustom m t => exact call_spec (setCustom_orderly m t)
  | push ps => exact call_spec (push_orderly ps)
  | reorg newTip => exact call_spec (orderly_spec (writesOnly_reorg w newTip) (by simp))
  | flush => exact call_spec (orderly_spec writesOnly_invalidatorFlush (by simp))

/-! ## Where responses and jobs come from -/

section runs

variable [DecidableEq ι] {call : ι → JobCall}
  {labels : List (Label engineSig ι TemplateDistribution)}
  {c c' : Config engineSig Engine JobAnswer ι}

/-- The Template Provider has answered this for the template. -/
def Sent (labels : List (Label engineSig ι TemplateDistribution)) (k : UInt64) :
    TxDataResult → Prop
  | .success txList => .env (.requestTransactionDataSuccess k txList) ∈ labels
  | .error code => .env (.requestTransactionDataError k code) ∈ labels

/-- Some call has registered the waiter for the template. -/
def Registered (c : Config engineSig Engine JobAnswer ι) (k : UInt64) (waiter : Nat) : Prop :=
  ∃ i, ⟨.registerRequest k, some waiter⟩ ∈ (c.threads i).log

/-- Responses reach only calls that asked for their template. -/
structure Routed (labels : List (Label engineSig ι TemplateDistribution))
    (c : Config engineSig Engine JobAnswer ι) : Prop where
  pending : ∀ k waiter, c.shared.tdp.pendingRequests.lookup k = some waiter →
    Registered c k waiter
  waiting : ∀ waiter result, c.shared.tdp.oneshots.lookup waiter = some result →
    ∃ k, Registered c k waiter ∧ Sent labels k result
  fresh : ∀ k waiter, Registered c k waiter → waiter < c.shared.tdp.nextOneshot
  unique : ∀ k k' waiter, Registered c k waiter → Registered c k' waiter → k = k'
  received : ∀ i k waiter result,
    ⟨.awaitResponse k waiter, .received result⟩ ∈ (c.threads i).log → Sent labels k result

omit [DecidableEq ι] in
theorem Sent.snoc {k : UInt64} {result : TxDataResult} (h : Sent labels k result)
    (l : Label engineSig ι TemplateDistribution) : Sent (labels ++ [l]) k result := by
  cases result <;> exact List.mem_append_left _ h

theorem Registered.update {s' : Engine} {i : ι} {p : Handler JobAnswer} {e : Event engineSig}
    {k : UInt64} {waiter : Nat} (h : Registered c k waiter) :
    Registered ⟨s', Function.update c.threads i ⟨p, (c.threads i).log ++ [e]⟩⟩ k waiter := by
  obtain ⟨j, hmem⟩ := h
  exact ⟨j, mem_log_update.mpr (Or.inl hmem)⟩

/-- What an event that registers nothing leaves registered. -/
theorem registered_of_update {s' : Engine} {i : ι} {p : Handler JobAnswer} {e : Event engineSig}
    {k : UInt64} {waiter : Nat} (he : e ≠ ⟨.registerRequest k, some waiter⟩)
    (h : Registered ⟨s', Function.update c.threads i ⟨p, (c.threads i).log ++ [e]⟩⟩ k waiter) :
    Registered c k waiter := by
  obtain ⟨j, hmem⟩ := h
  rcases mem_log_update.mp hmem with hmem | ⟨-, heq⟩
  · exact ⟨j, hmem⟩
  · exact absurd heq.symm he

/-- An operation that neither registers nor receives, and adds nothing to the
    table. -/
theorem Routed.kept (h : Routed labels c) {s' : Engine} {i : ι} {p : Handler JobAnswer}
    {e : Event engineSig} (hreg : ∀ k waiter, e ≠ ⟨.registerRequest k, some waiter⟩)
    (hrec : ∀ k waiter result, e ≠ ⟨.awaitResponse k waiter, .received result⟩)
    (hpending : ∀ k waiter, s'.tdp.pendingRequests.lookup k = some waiter →
      c.shared.tdp.pendingRequests.lookup k = some waiter)
    (honeshots : s'.tdp.oneshots = c.shared.tdp.oneshots)
    (hnext : s'.tdp.nextOneshot = c.shared.tdp.nextOneshot) :
    Routed (labels ++ [.thread i e])
      ⟨s', Function.update c.threads i ⟨p, (c.threads i).log ++ [e]⟩⟩ where
  pending k waiter hk := (h.pending k waiter (hpending k waiter hk)).update
  waiting waiter result hw := by
    rw [honeshots] at hw
    obtain ⟨k, hk, hsent⟩ := h.waiting waiter result hw
    exact ⟨k, hk.update, hsent.snoc _⟩
  fresh k waiter hk := by
    rw [hnext]
    exact h.fresh k waiter (registered_of_update (hreg k waiter) hk)
  unique k k' waiter hk hk' := h.unique k k' waiter (registered_of_update (hreg k waiter) hk)
    (registered_of_update (hreg k' waiter) hk')
  received j k waiter result hmem := by
    rcases mem_log_update.mp hmem with hmem | ⟨-, heq⟩
    · exact (h.received j k waiter result hmem).snoc _
    · exact absurd heq.symm (hrec k waiter result)

/-- A new waiter is registered. -/
theorem Routed.registered (h : Routed labels c) {s' : Engine} {i : ι} {p : Handler JobAnswer}
    {k : UInt64} (htdp : s'.tdp = { c.shared.tdp with
      pendingRequests := c.shared.tdp.pendingRequests.insert k c.shared.tdp.nextOneshot
      nextOneshot := c.shared.tdp.nextOneshot + 1 }) :
    Routed (labels ++ [.thread i ⟨.registerRequest k, some c.shared.tdp.nextOneshot⟩])
      ⟨s', Function.update c.threads i
        ⟨p, (c.threads i).log ++ [⟨.registerRequest k, some c.shared.tdp.nextOneshot⟩]⟩⟩ := by
  -- the number is new, so no other template has it
  have hcases : ∀ k' waiter, Registered ⟨s', Function.update c.threads i ⟨p, (c.threads i).log ++
      [⟨.registerRequest k, some c.shared.tdp.nextOneshot⟩]⟩⟩ k' waiter →
        Registered c k' waiter ∨ k' = k ∧ waiter = c.shared.tdp.nextOneshot := by
    rintro k' waiter ⟨j, hmem⟩
    rcases mem_log_update.mp hmem with hmem | ⟨-, heq⟩
    · exact Or.inl ⟨j, hmem⟩
    · cases heq
      exact Or.inr ⟨rfl, rfl⟩
  have hself : Registered ⟨s', Function.update c.threads i ⟨p, (c.threads i).log ++
      [⟨.registerRequest k, some c.shared.tdp.nextOneshot⟩]⟩⟩ k c.shared.tdp.nextOneshot :=
    ⟨i, mem_log_update.mpr (Or.inr ⟨rfl, rfl⟩)⟩
  refine ⟨fun k' waiter hk' => ?_, fun waiter result hw => ?_, fun k' waiter hk' => ?_,
    fun k₁ k₂ waiter hk₁ hk₂ => ?_, fun j k' waiter result hmem => ?_⟩
  · rw [htdp, DashMap.lookup_insert_eq] at hk'
    split_ifs at hk' with heq
    · cases hk'
      subst heq
      exact hself
    · exact (h.pending k' waiter hk').update
  · rw [htdp] at hw
    obtain ⟨k', hk', hsent⟩ := h.waiting waiter result hw
    exact ⟨k', hk'.update, hsent.snoc _⟩
  · have hnext : s'.tdp.nextOneshot = c.shared.tdp.nextOneshot + 1 := by rw [htdp]
    rcases hcases k' waiter hk' with hold | ⟨-, rfl⟩
    · have := h.fresh k' waiter hold
      show waiter < s'.tdp.nextOneshot
      omega
    · show c.shared.tdp.nextOneshot < s'.tdp.nextOneshot
      omega
  · rcases hcases k₁ waiter hk₁ with hold₁ | ⟨rfl, rfl⟩
    · rcases hcases k₂ waiter hk₂ with hold₂ | ⟨rfl, rfl⟩
      · exact h.unique k₁ k₂ waiter hold₁ hold₂
      · exact absurd (h.fresh k₁ _ hold₁) (Nat.lt_irrefl _)
    · rcases hcases k₂ _ hk₂ with hold₂ | ⟨rfl, -⟩
      · exact absurd (h.fresh k₂ _ hold₂) (Nat.lt_irrefl _)
      · rfl
  · rcases mem_log_update.mp hmem with hmem | ⟨-, heq⟩
    · exact (h.received j k' waiter result hmem).snoc _
    · cases heq

/-- A call receives the response for the template it registered. -/
theorem Routed.taken (h : Routed labels c) {s' : Engine} {i : ι} {p : Handler JobAnswer}
    {k : UInt64} {waiter : Nat} {result : TxDataResult}
    (hown : ⟨.registerRequest k, some waiter⟩ ∈ (c.threads i).log)
    (hwaiting : c.shared.tdp.oneshots.lookup waiter = some result)
    (htdp : s'.tdp = { c.shared.tdp with oneshots := c.shared.tdp.oneshots.erase waiter }) :
    Routed (labels ++ [.thread i ⟨.awaitResponse k waiter, .received result⟩])
      ⟨s', Function.update c.threads i
        ⟨p, (c.threads i).log ++ [⟨.awaitResponse k waiter, .received result⟩]⟩⟩ := by
  refine ⟨fun k' waiter' hk' => ?_, fun waiter' result' hw => ?_, fun k' waiter' hk' => ?_,
    fun k₁ k₂ waiter' hk₁ hk₂ => ?_, fun j k' waiter' result' hmem => ?_⟩
  · rw [htdp] at hk'
    exact (h.pending k' waiter' hk').update
  · rw [htdp, DashMap.lookup_erase_eq] at hw
    split_ifs at hw
    obtain ⟨k', hk', hsent⟩ := h.waiting waiter' result' hw
    exact ⟨k', hk'.update, hsent.snoc _⟩
  · rw [htdp]
    exact h.fresh k' waiter' (registered_of_update (by simp) hk')
  · exact h.unique k₁ k₂ waiter' (registered_of_update (by simp) hk₁)
      (registered_of_update (by simp) hk₂)
  · rcases mem_log_update.mp hmem with hmem | ⟨-, heq⟩
    · exact (h.received j k' waiter' result' hmem).snoc _
    · cases heq
      obtain ⟨k'', hk'', hsent⟩ := h.waiting waiter result hwaiting
      rw [h.unique k k'' waiter ⟨i, hown⟩ hk'']
      exact hsent.snoc _

omit [DecidableEq ι] in
/-- A response goes to the waiter that is registered for its template. -/
theorem Routed.delivered (h : Routed labels c) (k : UInt64) (result : TxDataResult)
    {l : Label engineSig ι TemplateDistribution} (hsent : Sent (labels ++ [l]) k result) :
    Routed (labels ++ [l])
      ⟨{ c.shared with tdp := c.shared.tdp.deliverResponse k result }, c.threads⟩ := by
  unfold TdpHandle.deliverResponse
  cases hslot : c.shared.tdp.pendingRequests.lookup k with
  | none =>
    refine ⟨h.pending, fun waiter result' hw => ?_, h.fresh, h.unique, fun j k' waiter r hmem => ?_⟩
    · obtain ⟨k', hk', hsent'⟩ := h.waiting waiter result' hw
      exact ⟨k', hk', hsent'.snoc _⟩
    · exact (h.received j k' waiter r hmem).snoc _
  | some waiter =>
    refine ⟨fun k' waiter' hk' => ?_, fun waiter' result' hw => ?_, h.fresh, h.unique,
      fun j k' waiter' r hmem => ?_⟩
    · simp only [DashMap.lookup_erase_eq] at hk'
      split_ifs at hk'
      exact h.pending k' waiter' hk'
    · simp only [DashMap.lookup_insert_eq] at hw
      split_ifs at hw with heq
      · cases hw
        subst heq
        exact ⟨k, h.pending k _ hslot, hsent⟩
      · obtain ⟨k', hk', hsent'⟩ := h.waiting waiter' result' hw
        exact ⟨k', hk', hsent'.snoc _⟩
    · exact (h.received j k' waiter' r hmem).snoc _

omit [DecidableEq ι] in
theorem Routed.tee (h : Routed labels c) (msg : TemplateDistribution) :
    Routed (labels ++ [.env msg]) ⟨teeAct msg c.shared, c.threads⟩ := by
  have hsame : ∀ s' : Engine, s'.tdp.pendingRequests = c.shared.tdp.pendingRequests →
      s'.tdp.oneshots = c.shared.tdp.oneshots → s'.tdp.nextOneshot = c.shared.tdp.nextOneshot →
      Routed (labels ++ [.env msg]) ⟨s', c.threads⟩ := by
    intro s' hpending honeshots hnext
    refine ⟨fun k waiter hk => h.pending k waiter (hpending ▸ hk), fun waiter result hw => ?_,
      fun k waiter hk => hnext ▸ h.fresh k waiter hk, h.unique, fun j k waiter r hmem => ?_⟩
    · obtain ⟨k, hk, hsent⟩ := h.waiting waiter result (honeshots ▸ hw)
      exact ⟨k, hk, hsent.snoc _⟩
    · exact (h.received j k waiter r hmem).snoc _
  cases msg with
  | setNewPrevHash m => exact hsame _ rfl rfl rfl
  | newTemplate n => exact hsame _ rfl rfl rfl
  | other => exact hsame _ rfl rfl rfl
  | requestTransactionDataSuccess k txList =>
    exact h.delivered k (.success txList) (List.mem_append_right _ List.mem_cons_self)
  | requestTransactionDataError k code =>
    exact h.delivered k (.error code) (List.mem_append_right _ List.mem_cons_self)

theorem routed_of_trace {w : Wiring}
    (h : Trace JobStep (jobCalls cr w Engine.new call) labels c) : Routed labels c := by
  refine Trace.run_induction (P := Routed) ?_ ?_ labels h
  · refine ⟨fun k waiter hk => ?_, fun waiter result hw => ?_, fun k waiter hk => ?_,
      fun k k' waiter hk => ?_, fun i k waiter result hmem => by cases hmem⟩
    · simp [jobCalls, Engine.new] at hk
    · simp [jobCalls, Engine.new] at hw
    · obtain ⟨i, hmem⟩ := hk
      cases hmem
    · obtain ⟨i, hmem⟩ := hk
      cases hmem
  · intro labels c l c' hrun hinv hstep
    cases hstep with
    | env msg => exact hinv.tee msg
    | @thread i o k r s' hprog hI =>
      have horderly : Orderly (c.threads i).log o := by
        have hspec := (spec_of_trace (P := fun _ => Orderly) (Q := fun _ _ _ => True)
          (fun i => jobCall_orderly (call i)) (fun _ => logged_nil _) hrun i).1
        rw [hprog] at hspec
        exact hspec.1
      have hrequests := parInterp_requests hI
      generalize htdp : s'.tdp = tdp' at hrequests
      cases hrequests with
      | other _ hreg hawait hremove =>
        exact hinv.kept (fun k waiter heq => hreg k (congrArg Sigma.fst heq))
          (fun k waiter result heq => hawait k waiter (congrArg Sigma.fst heq))
          (fun k waiter hk => by rwa [htdp] at hk) (by rw [htdp]) (by rw [htdp])
      | refused k htaken =>
        exact hinv.kept (by simp) (by simp) (fun k waiter hk => by rwa [htdp] at hk)
          (by rw [htdp]) (by rw [htdp])
      | registered k hfree => exact hinv.registered htdp
      | received k waiter result hsent => exact hinv.taken horderly.1 hsent htdp
      | elapsed k waiter hnone =>
        exact hinv.kept (by simp) (by simp) (fun k waiter hk => by rwa [htdp] at hk)
          (by rw [htdp]) (by rw [htdp])
      | senderDropped k waiter hnone hgone =>
        exact hinv.kept (by simp) (by simp) (fun k waiter hk => by rwa [htdp] at hk)
          (by rw [htdp]) (by rw [htdp])
      | removed k =>
        refine hinv.kept (by simp) (by simp) (fun k' waiter hk' => ?_) (by rw [htdp])
          (by rw [htdp])
        rw [htdp, DashMap.lookup_erase_eq] at hk'
        split_ifs at hk'
        exact hk'

/-- Jobs are cached and read only after some call has inserted them. -/
structure Inserted (c : Config engineSig Engine JobAnswer ι) : Prop where
  cached : ∀ r job, c.shared.declaredJobs.lookup r = some job →
    ∃ j, ⟨.jobsInsert r job, ()⟩ ∈ (c.threads j).log
  read : ∀ i r job, ⟨.jobsGet r, some job⟩ ∈ (c.threads i).log →
    ∃ j, ⟨.jobsInsert r job, ()⟩ ∈ (c.threads j).log

theorem inserted_of_trace {w : Wiring}
    (h : Trace JobStep (jobCalls cr w Engine.new call) labels c) : Inserted c := by
  refine Trace.run_induction (P := fun _ => Inserted) ?_ ?_ labels h
  · refine ⟨fun r job hjob => ?_, fun i r job hmem => by cases hmem⟩
    simp [jobCalls, Engine.new] at hjob
  · intro labels c l c' _ hinv hstep
    cases hstep with
    | env msg => exact ⟨hinv.cached, hinv.read⟩
    | @thread i o k res s' hprog hI =>
      have hmono : ∀ {r job}, (∃ j, ⟨.jobsInsert r job, ()⟩ ∈ (c.threads j).log) →
          ∃ j, ⟨.jobsInsert r job, ()⟩ ∈ (Function.update c.threads i
            ⟨k res, (c.threads i).log ++ [⟨o, res⟩]⟩ j).log := by
        rintro r job ⟨j, hmem⟩
        exact ⟨j, mem_log_update.mpr (Or.inl hmem)⟩
      refine ⟨fun r job hjob => ?_, fun j r job hmem => ?_⟩
      · rcases (parInterp_cache hI).lookup_some hjob with hold | heq
        · exact hmono (hinv.cached r job hold)
        · exact ⟨i, mem_log_update.mpr (Or.inr ⟨rfl, heq.symm⟩)⟩
      · rcases mem_log_update.mp hmem with hmem | ⟨-, heq⟩
        · exact hmono (hinv.read j r job hmem)
        · cases heq
          exact hmono (hinv.cached r job (parInterp_jobsGet hI).symm)

/-! ## Submitted blocks and credits -/

/-- The block a step hands to bitcoind, and whose step it is. -/
def blockSent : Label engineSig ι TemplateDistribution → Option (ι × Block)
  | .thread i ⟨.spawnSubmitBlock block, _⟩ => some (i, block)
  | _ => none

/-- The blocks handed to bitcoind in a run, latest first. -/
def blocksSent (labels : List (Label engineSig ι TemplateDistribution)) : List (ι × Block) :=
  (labels.filterMap blockSent).reverse

/-- The sources of a block: a declaration that was accepted and cached, a
    response of the Template Provider for its template, and the solution. -/
def Origin (cr : Crates) (call : ι → JobCall)
    (labels : List (Label engineSig ι TemplateDistribution)) (ps : PushSolution) (block : Block) :
    Prop :=
  ∃ j d pmts t job k txList txBodies, call j = .declare d pmts ∧ Snapshot cr d pmts t job ∧
    .thread j ⟨.jobsInsert d.requestId job, ()⟩ ∈ labels ∧ job.templateId = some k ∧
    .env (.requestTransactionDataSuccess k txList) ∈ labels ∧
    txList.mapM cr.consensusDecode = some txBodies ∧
    reconstructBlock cr job ps txBodies = .ok block

/-- The block an operation hands over. -/
def Op.block? : Op → Option Block
  | .spawnSubmitBlock block => some block
  | _ => none

theorem parInterp_submitted {s s' : Engine} {o : Op} {r : o.Res} (h : parInterp s o r s') :
    s'.submitted = o.block?.toList ++ s.submitted := by
  cases o with
  | awaitResponse k waiter =>
    cases r with
    | received result =>
      rw [h.2]
      rfl
    | elapsed =>
      rw [h.2]
      rfl
    | senderDropped =>
      rw [h.2.2]
      rfl
  | _ =>
    obtain ⟨env, heq⟩ := h
    rw [(Prod.mk.inj heq).2]
    rfl

/-- A credit was there before or is recorded by this operation. -/
theorem parInterp_credit {s s' : Engine} {o : Op} {r : o.Res} (h : parInterp s o r s')
    {share hash : BlockHash} {now : Nat} (hcredit : s'.recentSolutions.lookup share =
      some (now, hash)) :
    s.recentSolutions.lookup share = some (now, hash) ∨ o = .recordSolution share hash := by
  cases o with
  | recordSolution share' hash' =>
    obtain ⟨env, heq⟩ := h
    rw [(Prod.mk.inj heq).2] at hcredit
    simp only [DashMap.lookup_insert_eq] at hcredit
    split_ifs at hcredit with hshare
    · cases hcredit
      exact Or.inr (by rw [hshare])
    · exact Or.inl hcredit
  | awaitResponse k waiter =>
    cases r with
    | received result =>
      rw [h.2] at hcredit
      exact Or.inl hcredit
    | elapsed =>
      rw [h.2] at hcredit
      exact Or.inl hcredit
    | senderDropped =>
      rw [h.2.2] at hcredit
      exact Or.inl hcredit
  | _ =>
    obtain ⟨env, heq⟩ := h
    rw [(Prod.mk.inj heq).2] at hcredit
    exact Or.inl hcredit

/-- What has left the engine, by the labels of the run. -/
structure Outgoing (labels : List (Label engineSig ι TemplateDistribution))
    (c : Config engineSig Engine JobAnswer ι) : Prop where
  submitted : c.shared.submitted = (blocksSent labels).map Prod.snd
  once : ((blocksSent labels).map Prod.fst).Nodup
  credits : ∀ share now hash, c.shared.recentSolutions.lookup share = some (now, hash) →
    ∃ i, .thread i ⟨.recordSolution share hash, ()⟩ ∈ labels

omit [DecidableEq ι] in
theorem mem_blocksSent {i : ι} {block : Block} :
    (i, block) ∈ blocksSent labels ↔ .thread i ⟨.spawnSubmitBlock block, ()⟩ ∈ labels := by
  rw [blocksSent, List.mem_reverse, List.mem_filterMap]
  constructor
  · rintro ⟨l, hmem, hl⟩
    rcases l with ⟨j, o, r⟩ | msg
    · cases o with
      | spawnSubmitBlock block' =>
        cases hl
        exact hmem
      | _ => cases hl
    · cases hl
  · exact fun hmem => ⟨_, hmem, rfl⟩

theorem delivers_of_trace {w : Wiring}
    (h : Trace JobStep (jobCalls cr w Engine.new call) labels c) (i : ι) :
    (c.threads i).prog.Spec (Delivers cr (call i)) (fun _ _ => True) (c.threads i).log ∧
      Logged (Delivers cr (call i)) (c.threads i).log :=
  spec_of_trace (P := fun i => Delivers cr (call i)) (Q := fun _ _ _ => True)
    (fun i => jobCall_delivers (call i)) (fun _ => logged_nil _) h i

theorem outgoing_of_trace {w : Wiring}
    (h : Trace JobStep (jobCalls cr w Engine.new call) labels c) : Outgoing labels c := by
  refine Trace.run_induction (P := Outgoing) ?_ ?_ labels h
  · exact ⟨rfl, List.nodup_nil, fun share now hash hcredit => by cases hcredit⟩
  · intro labels c l c' hrun hinv hstep
    have hsent : blocksSent (labels ++ [l]) = (blockSent l).toList ++ blocksSent labels := by
      simp only [blocksSent, List.filterMap_append, List.reverse_append]
      cases hl : blockSent l <;> simp [hl]
    cases hstep with
    | env msg =>
      refine ⟨?_, ?_, fun share now hash hcredit => ?_⟩
      · rw [hsent]
        exact hinv.submitted
      · rw [hsent]
        exact hinv.once
      · obtain ⟨i, hmem⟩ := hinv.credits share now hash hcredit
        exact ⟨i, List.mem_append_left _ hmem⟩
    | @thread i o k r s' hprog hI =>
      have hcredits : ∀ share now hash, s'.recentSolutions.lookup share = some (now, hash) →
          ∃ j, .thread j ⟨.recordSolution share hash, ()⟩ ∈ labels ++ [.thread i ⟨o, r⟩] := by
        intro share now hash hcredit
        rcases parInterp_credit hI hcredit with hold | rfl
        · obtain ⟨j, hmem⟩ := hinv.credits share now hash hold
          exact ⟨j, List.mem_append_left _ hmem⟩
        · exact ⟨i, List.mem_append_right _ List.mem_cons_self⟩
      refine ⟨?_, ?_, hcredits⟩
      · show s'.submitted = _
        rw [parInterp_submitted hI, hinv.submitted, hsent]
        cases o <;> rfl
      · rw [hsent]
        cases o with
        | spawnSubmitBlock block =>
          -- the call has sent nothing before
          have hspec := (delivers_of_trace hrun i).1
          rw [hprog] at hspec
          obtain ⟨ps, -, -, -, hunsent⟩ := hspec.1
          show (((i, block) :: blocksSent labels).map Prod.fst).Nodup
          rw [List.map_cons, List.nodup_cons]
          refine ⟨fun hmem => ?_, hinv.once⟩
          obtain ⟨⟨j, block'⟩, hsent', rfl⟩ := List.mem_map.mp hmem
          exact hunsent block' ((mem_labels_iff (fun _ => rfl) hrun _ _).mp
            (mem_blocksSent.mp hsent'))
        | _ => exact hinv.once

/-- A rebuilt block has its three sources. -/
theorem origin_of_rebuilt {w : Wiring}
    (h : Trace JobStep (jobCalls cr w Engine.new call) labels c) {i : ι}
    (hrebuilt : Rebuilt cr ps (c.threads i).log block) : Origin cr call labels ps block := by
  obtain ⟨r, job, k, waiter, result, txBodies, hget, hk, hwait, hdec, hblock⟩ := hrebuilt
  obtain ⟨j, hinsert⟩ := (inserted_of_trace h).read i r job hget
  obtain ⟨before, -, d, pmts, t, hcall, rfl, hsnapshot, -⟩ :=
    (conforms_of_trace h j).2.mem hinsert
  have hsent := (routed_of_trace h).received i k waiter result hwait
  obtain ⟨txList, rfl, hdecoded⟩ := decodeTxData_ok hdec
  exact ⟨j, d, pmts, t, job, k, txList, txBodies, hcall, hsnapshot,
    (mem_labels_iff (fun _ => rfl) h _ _).mpr hinsert, hk, hsent, hdecoded, hblock⟩

/-- In every interleaving of declarations, custom jobs, solutions, reorgs and
    flushes with each other and with the Template Provider, the submitted
    blocks are those of distinct solutions, each with its three sources and a
    credit of its own, and every credit was given by a solution under its key:
    for a block of the same sources, or for the key itself. -/
theorem submitted_blocks_have_origins
    (h : Trace JobStep (jobCalls cr w Engine.new call) labels c) :
    (c.shared.submitted = (blocksSent labels).map Prod.snd ∧
      ((blocksSent labels).map Prod.fst).Nodup ∧
      ∀ i block, (i, block) ∈ blocksSent labels → ∃ ps, call i = .push ps ∧
        Origin cr call labels ps block ∧
        .thread i ⟨.recordSolution (syntheticShareHash cr ps) (cr.blockHash block.header), ()⟩ ∈
          labels) ∧
    ∀ share now hash, c.shared.recentSolutions.lookup share = some (now, hash) →
      ∃ i ps, call i = .push ps ∧ share = syntheticShareHash cr ps ∧
        (hash = share ∨ ∃ block, Origin cr call labels ps block ∧
          hash = cr.blockHash block.header) := by
  have hout := outgoing_of_trace h
  have hlabels := mem_labels_iff (fun _ => rfl) h
  have hmono : ∀ {i ps block before}, before ⊆ (c.threads i).log →
      Rebuilt cr ps before block → Origin cr call labels ps block := fun hsub hrebuilt =>
    origin_of_rebuilt h (hrebuilt.mono hsub)
  refine ⟨⟨hout.submitted, hout.once, fun i block hmem => ?_⟩, fun share now hash hcredit => ?_⟩
  · have hlog := (hlabels i _).mp (mem_blocksSent.mp hmem)
    obtain ⟨before, hsub, ps, hcall, hrebuilt, hrecorded, -⟩ := (delivers_of_trace h i).2.mem hlog
    exact ⟨ps, hcall, hmono hsub hrebuilt, (hlabels i _).mpr (hsub hrecorded)⟩
  · obtain ⟨i, hmem⟩ := hout.credits share now hash hcredit
    obtain ⟨before, hsub, ps, hcall, rfl, hhash⟩ :=
      (delivers_of_trace h i).2.mem ((hlabels i _).mp hmem)
    refine ⟨i, ps, hcall, rfl, hhash.imp id fun ⟨block, hrebuilt, hblock⟩ => ?_⟩
    exact ⟨block, hmono hsub hrebuilt, hblock⟩

end runs

end

/-- The block of the sample solution, and where it comes from. -/
theorem submitted_blocks_have_origins_sample :
    let labels := Sample.played Sample.replacingCalls Sample.unreplaced
    ((blocksSent labels).map Prod.fst) = [2] ∧
    ∃ block, (2, block) ∈ blocksSent labels ∧
      Origin Sample.crates Sample.replacing labels (Sample.solution (U256.fill 1)) block := by
  intro labels
  have hrun : Trace JobStep Sample.replacingCalls labels
      (Sample.replacingCalls.play Sample.online.parStep teeAct Sample.unreplaced) :=
    Sample.played_run Sample.replacingCalls Sample.unreplaced
  have hsent : ((blocksSent labels).map Prod.fst) = [2] := by decide +kernel
  obtain ⟨⟨-, -, horigin⟩, -⟩ := submitted_blocks_have_origins hrun
  have hmem : (2 : Fin 3) ∈ (blocksSent labels).map Prod.fst := by simp [hsent]
  obtain ⟨⟨i, block⟩, hblock, rfl⟩ := List.mem_map.mp hmem
  obtain ⟨ps, hcall, horigin, -⟩ := horigin _ block hblock
  cases hcall
  exact ⟨hsent, block, hblock, horigin⟩

end Sv2P2pool
