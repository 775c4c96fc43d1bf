import Sv2P2pool.StaleTip

/-! # Tips and Templates

    A declaration captures the previous hash of the latest `SetNewPrevHash`
    and the id of the latest `NewTemplate`, two snapshots that the tee keeps
    independently of each other. The template was made for the captured
    previous hash only if the two messages belong together: a future template
    comes before the `SetNewPrevHash` that names it, any other template after
    the `SetNewPrevHash` it builds on.
-/

namespace Sv2P2pool

open ByteCodec Bitcoin Interleave

/-! ## What the stream says about templates -/

/-- The previous hash announcement in a message. -/
def TemplateDistribution.prevHash? : TemplateDistribution → Option SetNewPrevHash
  | .setNewPrevHash m => some m
  | _ => none

/-- The template in a message. -/
def TemplateDistribution.template? : TemplateDistribution → Option NewTemplate
  | .newTemplate n => some n
  | _ => none

section

variable (msgs : List TemplateDistribution)

/-- The `SetNewPrevHash` messages of a stream, in order. -/
def prevHashes : List SetNewPrevHash := msgs.filterMap TemplateDistribution.prevHash?

/-- The `NewTemplate` messages of a stream, in order. -/
def templates : List NewTemplate := msgs.filterMap TemplateDistribution.template?

/-- Template `k` was made for the previous hash `h`: a future template for
    the one of a later `SetNewPrevHash` that names it, any other template for
    the one current when it was sent. -/
def TemplateApplies (k : UInt64) (h : BlockHash) : Prop :=
  ∃ before n after, msgs = before ++ .newTemplate n :: after ∧ n.templateId = k ∧
    if n.futureTemplate then ∃ m ∈ prevHashes after, m.templateId = k ∧ m.prevHash = h
    else (prevHashes before).getLast?.map SetNewPrevHash.prevHash = some h

/-- The last template and the last previous hash belong together: a future
    template has been activated since, by the last `SetNewPrevHash`, and none
    came after any other template. -/
def LastPaired : Prop :=
  ∃ before n after, msgs = before ++ .newTemplate n :: after ∧ templates after = [] ∧
    if n.futureTemplate then ∃ m, (prevHashes after).getLast? = some m ∧
      m.templateId = n.templateId
    else prevHashes after = []

/-- The Template Provider gives every template an id of its own and sends one
    `SetNewPrevHash` for each new best block. -/
structure ObeysProtocol : Prop where
  ids : (msgs.filterMap fun m => m.template?.map NewTemplate.templateId).Nodup
  hashes : (msgs.filterMap fun m => m.prevHash?.map SetNewPrevHash.prevHash).Nodup

end

section

variable {msgs later : List TemplateDistribution} {m : SetNewPrevHash} {n : NewTemplate}

theorem prevHash?_eq_some {msg : TemplateDistribution} :
    msg.prevHash? = some m ↔ msg = .setNewPrevHash m := by
  cases msg <;> simp [TemplateDistribution.prevHash?]

theorem template?_eq_some {msg : TemplateDistribution} :
    msg.template? = some n ↔ msg = .newTemplate n := by
  cases msg <;> simp [TemplateDistribution.template?]

/-- Where the last `SetNewPrevHash` stands. -/
theorem split_at_prevHash (h : (prevHashes msgs).getLast? = some m) :
    ∃ before after, msgs = before ++ .setNewPrevHash m :: after ∧ prevHashes after = [] := by
  obtain ⟨before, msg, after, rfl, hmsg, hafter⟩ := split_at_last h
  obtain rfl := prevHash?_eq_some.mp hmsg
  exact ⟨before, after, rfl, hafter⟩

/-- Where the last `NewTemplate` stands. -/
theorem split_at_template (h : (templates msgs).getLast? = some n) :
    ∃ before after, msgs = before ++ .newTemplate n :: after ∧ templates after = [] := by
  obtain ⟨before, msg, after, rfl, hmsg, hafter⟩ := split_at_last h
  obtain rfl := template?_eq_some.mp hmsg
  exact ⟨before, after, rfl, hafter⟩

/-- A `SetNewPrevHash` that came is at some place of the stream. -/
theorem split_of_mem_prevHashes (h : m ∈ prevHashes msgs) :
    ∃ before after, msgs = before ++ .setNewPrevHash m :: after := by
  obtain ⟨msg, hmem, hmsg⟩ := List.mem_filterMap.mp h
  obtain rfl := prevHash?_eq_some.mp hmsg
  exact List.append_of_mem hmem

@[simp] theorem prevHashes_append (msgs msgs' : List TemplateDistribution) :
    prevHashes (msgs ++ msgs') = prevHashes msgs ++ prevHashes msgs' := List.filterMap_append

@[simp] theorem prevHashes_template (n : NewTemplate) (msgs : List TemplateDistribution) :
    prevHashes (.newTemplate n :: msgs) = prevHashes msgs := rfl

@[simp] theorem prevHashes_prevHash (m : SetNewPrevHash) (msgs : List TemplateDistribution) :
    prevHashes (.setNewPrevHash m :: msgs) = m :: prevHashes msgs := rfl

@[simp] theorem templates_append (msgs msgs' : List TemplateDistribution) :
    templates (msgs ++ msgs') = templates msgs ++ templates msgs' := List.filterMap_append

@[simp] theorem templates_template (n : NewTemplate) (msgs : List TemplateDistribution) :
    templates (.newTemplate n :: msgs) = n :: templates msgs := rfl

/-- Two places that announce the same previous hash are the same place. -/
theorem ObeysProtocol.same_prevHash (h : ObeysProtocol msgs) {m' : SetNewPrevHash}
    {before after before' after' : List TemplateDistribution}
    (hsplit : msgs = before ++ .setNewPrevHash m :: after)
    (hsplit' : msgs = before' ++ .setNewPrevHash m' :: after')
    (heq : m'.prevHash = m.prevHash) : before = before' ∧ m = m' ∧ after = after' := by
  obtain ⟨hbefore, hm, hafter⟩ := split_unique h.hashes hsplit hsplit' (b := m.prevHash) rfl
    (by simp [TemplateDistribution.prevHash?, heq])
  exact ⟨hbefore, TemplateDistribution.setNewPrevHash.inj hm, hafter⟩

/-- Two places that send the same template id are the same place. -/
theorem ObeysProtocol.same_template (h : ObeysProtocol msgs) {n' : NewTemplate}
    {before after before' after' : List TemplateDistribution}
    (hsplit : msgs = before ++ .newTemplate n :: after)
    (hsplit' : msgs = before' ++ .newTemplate n' :: after')
    (heq : n'.templateId = n.templateId) : before = before' ∧ n = n' ∧ after = after' := by
  obtain ⟨hbefore, hn, hafter⟩ := split_unique h.ids hsplit hsplit' (b := n.templateId) rfl
    (by simp [TemplateDistribution.template?, heq])
  exact ⟨hbefore, TemplateDistribution.newTemplate.inj hn, hafter⟩

/-- The last template applies to the last previous hash when they belong
    together. -/
theorem LastPaired.applies (h : LastPaired msgs) (hm : (prevHashes msgs).getLast? = some m)
    (hn : (templates msgs).getLast? = some n) :
    TemplateApplies (msgs ++ later) n.templateId m.prevHash := by
  obtain ⟨before, n', after, rfl, hafter, hpaired⟩ := h
  obtain rfl : n' = n := by simpa [hafter] using hn
  refine ⟨before, n', after ++ later, by simp, rfl, ?_⟩
  by_cases hfuture : n'.futureTemplate = true
  · rw [if_pos hfuture] at hpaired ⊢
    obtain ⟨m', hm', hnamed⟩ := hpaired
    obtain rfl : m' = m := by simpa [List.getLast?_append, hm'] using hm
    exact ⟨m', by simp [List.mem_of_getLast? hm'], hnamed, rfl⟩
  · rw [if_neg hfuture] at hpaired ⊢
    simp only [prevHashes_append, prevHashes_template, hpaired, List.append_nil] at hm
    rw [hm]
    rfl

/-- In a stream of the protocol it applies only then. -/
theorem TemplateApplies.lastPaired (hobeys : ObeysProtocol (msgs ++ later))
    (h : TemplateApplies (msgs ++ later) n.templateId m.prevHash)
    (hm : (prevHashes msgs).getLast? = some m) (hn : (templates msgs).getLast? = some n) :
    LastPaired msgs := by
  obtain ⟨before, after, hsplit, hafter⟩ := split_at_template hn
  obtain ⟨before', n', after', hsplit', hid, happlies⟩ := h
  obtain ⟨rfl, rfl, rfl⟩ := hobeys.same_template
    (show msgs ++ later = before ++ .newTemplate n :: (after ++ later) by simp [hsplit]) hsplit' hid
  obtain ⟨front, rest, hfront, hrest⟩ := split_at_prevHash hm
  have hlast : msgs ++ later = front ++ .setNewPrevHash m :: (rest ++ later) := by simp [hfront]
  refine ⟨before, n, after, hsplit, hafter, ?_⟩
  by_cases hfuture : n.futureTemplate = true
  · rw [if_pos hfuture] at happlies ⊢
    -- the `SetNewPrevHash` that names the template is the last one
    obtain ⟨m', hmem, hnamed, hhash⟩ := happlies
    obtain ⟨skipped, rest', hnaming⟩ := split_of_mem_prevHashes hmem
    obtain ⟨rfl, rfl, rfl⟩ := hobeys.same_prevHash hlast
      (show msgs ++ later = (before ++ .newTemplate n :: skipped) ++ .setNewPrevHash m' :: rest'
        by rw [hsplit']; simp [hnaming]) hhash
    have hafter : after = skipped ++ .setNewPrevHash m :: rest := by
      simpa using hsplit.symm.trans hfront
    exact ⟨m, by simp [hafter, hrest], hnamed⟩
  · rw [if_neg hfuture] at happlies ⊢
    -- the last `SetNewPrevHash` came before the template
    obtain ⟨m', hm', hhash⟩ := Option.map_eq_some_iff.mp happlies
    obtain ⟨front', rest', hfront', -⟩ := split_at_prevHash hm'
    obtain ⟨rfl, rfl, hcut⟩ := hobeys.same_prevHash hlast
      (show msgs ++ later = front' ++ .setNewPrevHash m' ::
        (rest' ++ .newTemplate n :: (after ++ later)) by rw [hsplit', hfront']; simp) hhash
    have hcut : rest = rest' ++ .newTemplate n :: after :=
      List.append_cancel_right (hcut.trans (by simp))
    simp only [hcut, prevHashes_append, prevHashes_template, List.append_eq_nil_iff] at hrest
    exact hrest.2

end

/-! ## The snapshots of the tee -/

/-- The message that the tee passes on. -/
def Call.message? : Call → Option TemplateDistribution
  | .tdpMessage msg => some msg
  | _ => none

/-- The Template Provider's messages of a run, in order. -/
def tdpMessages (log : List Done) : List TemplateDistribution :=
  log.filterMap fun e => e.1.message?

/-- The two snapshots that a declaration reads. -/
def TdpHandle.snapshots (tdp : TdpHandle) : Option SetNewPrevHash × Option NewTemplate :=
  (tdp.lastPrevHash, tdp.lastTemplate)

@[simp] theorem register_snapshots (tdp : TdpHandle) (k : UInt64) :
    (tdp.register k).2.snapshots = tdp.snapshots := by
  unfold TdpHandle.register
  split_ifs <;> rfl

@[simp] theorem deliverResponse_snapshots (tdp : TdpHandle) (k : UInt64) (result : TxDataResult) :
    (tdp.deliverResponse k result).snapshots = tdp.snapshots := by
  unfold TdpHandle.deliverResponse
  split <;> rfl

@[simp] theorem awaitAlone_snapshots (tdp : TdpHandle) (k : UInt64) (waiter : Nat)
    (response : Option TxDataResult) :
    (awaitAlone tdp k waiter response).2.snapshots = tdp.snapshots := by
  cases response with
  | none => rfl
  | some result =>
    unfold awaitAlone
    dsimp only
    split
    · exact deliverResponse_snapshots tdp k result
    · exact deliverResponse_snapshots tdp k result

/-- No handler writes the snapshots. -/
theorem run_snapshots {α : Type} (env : Env) (p : Handler α) (s : Engine) :
    (run env.oracle p s).2.tdp.snapshots = s.tdp.snapshots := by
  refine run_frame (f := fun s : Engine => s.tdp.snapshots) (Q := fun _ => True)
    (fun s o _ => ?_) (Prog.only_true p) s
  cases o with
  | registerRequest k => exact register_snapshots s.tdp k
  | awaitResponse k waiter => exact awaitAlone_snapshots s.tdp k waiter _
  | _ => rfl

theorem observe_snapshots (tdp : TdpHandle) (msg : TemplateDistribution) :
    (tdp.observe msg).snapshots = (msg.prevHash?.or tdp.lastPrevHash,
      msg.template?.or tdp.lastTemplate) := by
  cases msg with
  | requestTransactionDataSuccess k l => exact deliverResponse_snapshots tdp k _
  | requestTransactionDataError k code => exact deliverResponse_snapshots tdp k _
  | _ => rfl

section

variable {cr : Crates} {w : Wiring} {s s' : Engine} {e : Done}

/-- What a complete call does to the snapshots. -/
theorem CallStep.snapshots (h : CallStep cr w s e s') :
    s'.tdp.snapshots = ((e.1.message?.bind TemplateDistribution.prevHash?).or s.tdp.lastPrevHash,
      (e.1.message?.bind TemplateDistribution.template?).or s.tdp.lastTemplate) := by
  obtain ⟨env, h⟩ := h
  obtain ⟨c, resp⟩ := e
  rw [(Prod.mk.inj h).2]
  cases c with
  | tdpMessage msg => exact observe_snapshots s.tdp msg
  | _ => exact run_snapshots env _ s

/-- The snapshots are the last messages of their kind. -/
theorem run_lastMessages {log : List Done} (h : Run cr w Engine.new log s) :
    s.tdp.lastPrevHash = (prevHashes (tdpMessages log)).getLast? ∧
      s.tdp.lastTemplate = (templates (tdpMessages log)).getLast? := by
  refine Trace.history (P := fun log s =>
    s.tdp.lastPrevHash = (prevHashes (tdpMessages log)).getLast? ∧
      s.tdp.lastTemplate = (templates (tdpMessages log)).getLast?) ⟨rfl, rfl⟩ ?_ log h
  intro log s e s' ih hstep
  obtain ⟨hprev, htemplate⟩ := Prod.mk.inj (CallStep.snapshots hstep)
  rw [hprev, htemplate, ih.1, ih.2]
  cases hmsg : e.1.message? with
  | none => simp [tdpMessages, hmsg]
  | some msg =>
    have hlog : tdpMessages (log ++ [e]) = tdpMessages log ++ [msg] := by
      simp [tdpMessages, hmsg]
    rw [hlog, prevHashes_append, templates_append, List.getLast?_append, List.getLast?_append]
    cases msg <;> exact ⟨rfl, rfl⟩

/-- A job with a captured tip and a template carries the last messages of
    their kind. -/
theorem captured_lastMessages {log : List Done} (h : Run cr w Engine.new log s)
    {env : Env} {d : DeclareMiningJob} {t : JdToken} {txs : List Transaction} {k : UInt64}
    (hcap : (jobFor cr w env s d t txs).tip.wasCaptured = true)
    (hk : (jobFor cr w env s d t txs).templateId = some k) :
    ∃ m n, (prevHashes (tdpMessages log)).getLast? = some m ∧
      (templates (tdpMessages log)).getLast? = some n ∧
      (jobFor cr w env s d t txs).tip.prevHash = m.prevHash ∧ n.templateId = k := by
  obtain ⟨hprev, htemplate⟩ := run_lastMessages h
  cases htdp : w.tdp with
  | false => simp [jobFor, declaredSnapshot, Engine.snapshot, htdp] at hk
  | true =>
    have hid : s.tdp.lastTemplate.map NewTemplate.templateId = some k := by
      simpa [jobFor, declaredSnapshot, Engine.snapshot, htdp, TdpHandle.currentTemplateId] using hk
    obtain ⟨n, hn, hid⟩ := Option.map_eq_some_iff.mp hid
    cases hm : s.tdp.lastPrevHash with
    | none =>
      -- the default tip does not count as captured
      simp [jobFor, declaredSnapshot, Engine.snapshot, htdp, TdpHandle.currentTip, hm,
        TipMetadata.default, TipMetadata.wasCaptured] at hcap
    | some m =>
      exact ⟨m, n, hprev ▸ hm, htemplate ▸ hn, by rw [jobFor_tip htdp hm], hid⟩

/-- A declaration after any run, and any messages after it: the captured
    template applies to the captured previous hash if the last template and
    the last `SetNewPrevHash` before the declaration belong together, and in a
    stream of the protocol only then. -/
theorem captured_template_applies_iff {log : List Done} (h : Run cr w Engine.new log s)
    {d : DeclareMiningJob} {pmts : Option ProvideMissingTransactionsSuccess}
    (hdecl : CallStep cr w s ⟨.declare d pmts, .success⟩ s') {job : DeclaredJob}
    (hjob : s'.declaredJobs.lookup d.requestId = some job)
    (hcap : job.tip.wasCaptured = true) {k : UInt64} (hk : job.templateId = some k)
    (later : List TemplateDistribution) :
    (LastPaired (tdpMessages log) →
      TemplateApplies (tdpMessages log ++ later) k job.tip.prevHash) ∧
    (ObeysProtocol (tdpMessages log ++ later) →
      TemplateApplies (tdpMessages log ++ later) k job.tip.prevHash →
      LastPaired (tdpMessages log)) := by
  obtain ⟨env, t, txs, -, hjobs, -⟩ := CallStep.stored hdecl
  obtain rfl : jobFor cr w env s d t txs = job := by
    rw [hjobs, DashMap.lookup_insert_eq, if_pos rfl] at hjob
    exact Option.some.inj hjob
  obtain ⟨m, n, hm, hn, htip, rfl⟩ := captured_lastMessages h hcap hk
  rw [htip]
  exact ⟨fun hpaired => hpaired.applies hm hn, fun hobeys happlies =>
    happlies.lastPaired hobeys hm hn⟩

end

/-- Template 1 becomes current with the tip `[1; 32]`, then a future template
    for the next tip arrives. -/
def Sample.futureTemplate : List (Env × Call) :=
  [(Sample.online, .tdpMessage (.newTemplate ⟨1, true⟩)),
   (Sample.online, .tdpMessage (.setNewPrevHash ⟨1, U256.fill 1, 0, 9⟩)),
   (Sample.online, .tdpMessage (.newTemplate ⟨2, true⟩))]

/-- A declaration before the future template arrives. -/
theorem captured_template_applies_before_future :
    let log := Engine.new.answers Sample.crates Sample.wiring (Sample.futureTemplate.take 2)
    let s' := Engine.new.after Sample.crates Sample.wiring
      (Sample.futureTemplate.take 2 ++ [(Sample.online, Sample.declare 7 3 [9])])
    s'.declaredJobs.lookup 7 = some (Sample.job (U256.fill 1) 3 [9]) ∧
    TemplateApplies (tdpMessages log ++ [.newTemplate ⟨2, true⟩]) 1 (U256.fill 1) := by
  intro log s'
  have hrun := run_after Sample.crates Sample.wiring (Sample.futureTemplate.take 2) Engine.new
  have hjob : s'.declaredJobs.lookup 7 = some (Sample.job (U256.fill 1) 3 [9]) := by
    decide +kernel
  have hpaired : LastPaired (tdpMessages log) :=
    ⟨[], ⟨1, true⟩, [.setNewPrevHash ⟨1, U256.fill 1, 0, 9⟩], rfl, rfl, _, rfl, rfl⟩
  have hdecl : CallStep _ _ _ ⟨Sample.declare 7 3 [9], .success⟩ s' :=
    Sample.declare_step (Sample.futureTemplate.take 2) (by decide +kernel)
  exact ⟨hjob, (captured_template_applies_iff hrun hdecl hjob (by decide +kernel) rfl _).1 hpaired⟩

/-- A declaration after it captures template 2 with the tip `[1; 32]`, but
    template 2 is for the tip `[2; 32]` that the Template Provider sends next. -/
theorem captured_template_for_next_tip :
    let log := Engine.new.answers Sample.crates Sample.wiring Sample.futureTemplate
    let stream := tdpMessages log ++ [.setNewPrevHash ⟨2, U256.fill 2, 0, 9⟩]
    let s' := Engine.new.after Sample.crates Sample.wiring
      (Sample.futureTemplate ++ [(Sample.online, Sample.declare 7 3 [9])])
    Run Sample.crates Sample.wiring Engine.new
      (log ++ [⟨Sample.declare 7 3 [9], .success⟩]) s' ∧ ObeysProtocol stream ∧
    ∃ job, s'.declaredJobs.lookup 7 = some job ∧ job.tip.wasCaptured = true ∧
      job.templateId = some 2 ∧ ¬ TemplateApplies stream 2 job.tip.prevHash := by
  intro log stream s'
  have hobeys : ObeysProtocol stream := ⟨by decide +kernel, by decide +kernel⟩
  have hdecl : CallStep _ _ _ ⟨Sample.declare 7 3 [9], .success⟩ s' :=
    Sample.declare_step Sample.futureTemplate (by decide +kernel)
  refine ⟨(Trace.snoc_iff _ _ _ _).mpr ⟨_, run_after _ _ Sample.futureTemplate _, hdecl⟩, hobeys,
    { Sample.job (U256.fill 1) 3 [9] with templateId := some 2 }, by decide +kernel,
    by decide +kernel, rfl, ?_⟩
  intro happlies
  obtain ⟨before, n, after, hsplit, hid, happlies⟩ := happlies
  have hstream : stream = (tdpMessages log).take 2 ++ .newTemplate ⟨2, true⟩ ::
    [.setNewPrevHash ⟨2, U256.fill 2, 0, 9⟩] := rfl
  obtain ⟨rfl, rfl, rfl⟩ := hobeys.same_template hstream hsplit hid
  obtain ⟨m, hmem, -, hhash⟩ := happlies
  obtain rfl : m = ⟨2, U256.fill 2, 0, 9⟩ := List.mem_singleton.mp hmem
  exact absurd hhash (by decide +kernel)

end Sv2P2pool
