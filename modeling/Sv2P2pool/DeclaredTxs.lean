import Sv2P2pool.Runs
import Mathlib.Data.List.Forall2

/-! # The Transaction Set of a Declared Job

    `handle_declare_mining_job` stores the declared wtxids beside the txids
    of the bodies it was sent. The bodies pass through a `filter_map` that
    drops what does not decode, and no check compares them with the wtxids:
    the cached set is the declared one exactly when the client sends the
    bodies it declared. For the same reason the rejection of coinbase-only
    jobs, which looks at the presence of the second message and not at the
    resolved set, is up to the clients over whole runs.
-/

namespace Sv2P2pool

open ByteCodec Bitcoin Interleave

section

variable {cr : Crates} {w : Wiring}

/-- The cached transaction set is the declared one: every body decodes, the
    wtxids of the bodies are the declared ones in order, and the cached txids
    are those of the bodies in order. -/
def CachesDeclared (cr : Crates) (s : Engine) (d : DeclareMiningJob)
    (p : ProvideMissingTransactionsSuccess) : Prop :=
  ∃ (job : DeclaredJob) (txs : List Transaction),
    s.declaredJobs.lookup d.requestId = some job ∧
    p.transactionList.map cr.consensusDecode = txs.map some ∧
    txs.map cr.computeWtxid = d.wtxidList ∧ job.wtxidList = d.wtxidList ∧
    job.txidList = some (txs.map cr.computeTxid)

/-- The bytes are, up to a tail the decoder ignores, the serialization of a
    transaction with the given wtxid. -/
def BodyOf (cr : Crates) (body : Bytes) (wtxid : Wtxid) : Prop :=
  ∃ tx rest, body = tx.serialize ++ rest ∧ tx.serialize.length ≤ maxVecSize ∧
    cr.computeWtxid tx = wtxid

theorem bodyOf_iff {body : Bytes} {wtxid : Wtxid} :
    BodyOf cr body wtxid ↔ ∃ tx, cr.consensusDecode body = some tx ∧ cr.computeWtxid tx = wtxid := by
  constructor
  · intro h
    obtain ⟨tx, rest, hbody, hlen, hid⟩ := h
    exact ⟨tx, (cr.consensusDecode_iff _ _).mpr ⟨hlen, rest, hbody⟩, hid⟩
  · intro h
    obtain ⟨tx, hdec, hid⟩ := h
    obtain ⟨hlen, rest, hbody⟩ := (cr.consensusDecode_iff _ _).mp hdec
    exact ⟨tx, rest, hbody, hlen, hid⟩

/-- Bodies that match the wtxids one by one, against the list of their
    transactions. -/
theorem forall₂_bodyOf_iff {bodies : List Bytes} {wtxids : List Wtxid} :
    List.Forall₂ (BodyOf cr) bodies wtxids ↔
      ∃ txs : List Transaction,
        bodies.map cr.consensusDecode = txs.map some ∧ txs.map cr.computeWtxid = wtxids := by
  -- along the bodies; the declared list is read off the transactions
  induction bodies generalizing wtxids with
  | nil =>
    constructor
    · intro h
      exact ⟨[], rfl, (List.forall₂_nil_left_iff.mp h).symm⟩
    · intro h
      obtain ⟨txs, hdec, rfl⟩ := h
      rw [List.map_nil] at hdec
      rw [List.map_eq_nil_iff.mp hdec.symm]
      exact .nil
  | cons body bodies ih =>
    constructor
    · intro h
      obtain ⟨wtxid, wtxids', hbody, hrest, rfl⟩ := List.forall₂_cons_left_iff.mp h
      obtain ⟨tx, hdec, hid⟩ := bodyOf_iff.mp hbody
      obtain ⟨txs, hdecs, hids⟩ := ih.mp hrest
      exact ⟨tx :: txs, by simp [hdec, hdecs], by simp [hid, hids]⟩
    · intro h
      obtain ⟨txs, hdec, rfl⟩ := h
      match txs with
      | [] => simp at hdec
      | tx :: txs =>
        simp only [List.map_cons, List.cons.injEq] at hdec ⊢
        exact .cons (bodyOf_iff.mpr ⟨tx, hdec.1, rfl⟩) (ih.mpr ⟨txs, hdec.2, rfl⟩)

/-- When every body decodes, the `filter_map` drops none. -/
theorem filterMap_of_map_eq {bodies : List Bytes} {txs : List Transaction}
    (h : bodies.map cr.consensusDecode = txs.map some) :
    bodies.filterMap cr.consensusDecode = txs := by
  have hmap : bodies.filterMap cr.consensusDecode =
      (bodies.map cr.consensusDecode).filterMap id := by
    rw [List.filterMap_map]
    rfl
  rw [hmap, h, List.filterMap_map]
  simp

/-- An accepted declaration caches the declared transaction set exactly when
    the bodies are, one by one, those of the declared wtxids. -/
theorem declare_caches_declared_iff {s : Engine} {env : Env} {d : DeclareMiningJob}
    {p : ProvideMissingTransactionsSuccess}
    (hok : (run env.oracle (handleDeclareMiningJob cr w d (some p)) s).1 = .success) :
    CachesDeclared cr (run env.oracle (handleDeclareMiningJob cr w d (some p)) s).2 d p ↔
      List.Forall₂ (BodyOf cr) p.transactionList d.wtxidList := by
  obtain ⟨t, txs, hcheck⟩ := run_declare_success cr w env hok
  obtain ⟨-, -, p', hp, htxs⟩ := checkDeclaration_ok hcheck
  cases hp
  have hcached : (run env.oracle (handleDeclareMiningJob cr w d (some p)) s).2.declaredJobs.lookup
      d.requestId = some (jobFor cr w env s d t txs) := by
    rw [run_declare_ok cr w env hcheck, bumped_declaredJobs]
    simp [Engine.store]
  rw [forall₂_bodyOf_iff]
  -- the cached txids follow from the decoded bodies, so only these two lists matter
  constructor
  · intro h
    obtain ⟨job, bodies, -, hdec, hids, -, -⟩ := h
    exact ⟨bodies, hdec, hids⟩
  · intro h
    obtain ⟨bodies, hdec, hids⟩ := h
    refine ⟨_, bodies, hcached, hdec, hids, rfl, ?_⟩
    rw [filterMap_of_map_eq hdec] at htxs
    rw [← htxs]
    rfl

/-! ## Coinbase-only jobs -/

/-- The declared and the resolved transaction set are not empty. -/
def DeclaredJob.HasTransactions (job : DeclaredJob) : Prop :=
  job.wtxidList ≠ [] ∧ ∃ txidList, job.txidList = some txidList ∧ txidList ≠ []

/-- No cached job is coinbase-only. -/
def NoCoinbaseOnly (s : Engine) : Prop :=
  ∀ r job, s.declaredJobs.lookup r = some job → job.HasTransactions

/-- The client declares a transaction and sends a body that decodes. -/
def SendsTransactions (cr : Crates) (d : DeclareMiningJob)
    (p : ProvideMissingTransactionsSuccess) : Prop :=
  d.wtxidList ≠ [] ∧ ∃ body ∈ p.transactionList, ∃ tx, cr.consensusDecode body = some tx

/-- The job of an accepted declaration has transactions exactly when the
    client sent some. -/
theorem jobFor_hasTransactions_iff {env : Env} {s : Engine} {d : DeclareMiningJob}
    {p : ProvideMissingTransactionsSuccess} {t : JdToken} {txs : List Transaction}
    (hcheck : checkDeclaration cr d (some p) = .ok (t, txs)) :
    (jobFor cr w env s d t txs).HasTransactions ↔ SendsTransactions cr d p := by
  obtain ⟨-, -, p', hp, rfl⟩ := checkDeclaration_ok hcheck
  cases hp
  refine and_congr Iff.rfl ?_
  constructor
  · intro h
    obtain ⟨txidList, heq, hne⟩ := h
    obtain rfl := Option.some.inj heq
    have hsome : p.transactionList.filterMap cr.consensusDecode ≠ [] := by
      intro hnil
      rw [hnil] at hne
      exact hne rfl
    obtain ⟨tx, htx⟩ := List.exists_mem_of_ne_nil _ hsome
    obtain ⟨body, hbody, hdec⟩ := List.mem_filterMap.mp htx
    exact ⟨body, hbody, tx, hdec⟩
  · intro h
    obtain ⟨body, hbody, tx, hdec⟩ := h
    refine ⟨_, rfl, fun hnil => ?_⟩
    have hmem : tx ∈ p.transactionList.filterMap cr.consensusDecode :=
      List.mem_filterMap.mpr ⟨body, hbody, hdec⟩
    rw [List.map_eq_nil_iff.mp hnil] at hmem
    cases hmem

/-- One step: only an accepted declaration adds a job. -/
theorem MapsStep.noCoinbaseOnly {s s' : Engine} {e : Done} (h : MapsStep cr w s e s')
    (hs : NoCoinbaseOnly s)
    (hsends : ∀ d p, e = ⟨.declare d (some p), .success⟩ → SendsTransactions cr d p) :
    NoCoinbaseOnly s' := by
  intro r job hjob
  cases h with
  | stored env d pmts t txs hcheck hjobs htokens =>
    obtain ⟨-, -, p, rfl, -⟩ := checkDeclaration_ok hcheck
    rw [hjobs, DashMap.lookup_insert_eq] at hjob
    split_ifs at hjob
    · cases hjob
      exact (jobFor_hasTransactions_iff hcheck).mpr (hsends d p rfl)
    · exact hs r job hjob
  | consumed m t result hjobs htokens =>
    rw [hjobs] at hjob
    exact hs r job (consume_declaredJobs hjob)
  | invalidated newTip hjobs htokens => exact hs r job (hjobs r job hjob)
  | kept _ hdecl hcustom hjobs htokens =>
    rw [hjobs] at hjob
    exact hs r job hjob

/-- No state of a run caches a coinbase-only job exactly when every accepted
    declaration of the run came with a wtxid and with a body that decodes. -/
theorem no_coinbase_only_iff {log : List Done} {s : Engine} (h : Run cr w Engine.new log s) :
    (∀ log₁ log₂ s₁, log = log₁ ++ log₂ → Run cr w Engine.new log₁ s₁ → Run cr w s₁ log₂ s →
      NoCoinbaseOnly s₁) ↔
    ∀ d p, ⟨.declare d (some p), .success⟩ ∈ log → SendsTransactions cr d p := by
  constructor
  · intro hall d p hmem
    -- look at the state right after the declaration
    obtain ⟨log₁, log₂, rfl⟩ := List.append_of_mem hmem
    obtain ⟨s₁, hrun₁, s₂, hdecl, hrun₂⟩ := (Trace.append_iff _ _ _ _).mp h
    obtain ⟨env, t, txs, hcheck, hjobs, -⟩ := CallStep.stored hdecl
    have hs₂ : NoCoinbaseOnly s₂ := hall (log₁ ++ [_]) log₂ s₂ (by simp)
      ((Trace.snoc_iff _ _ _ _).mpr ⟨s₁, hrun₁, hdecl⟩) hrun₂
    have hcached : s₂.declaredJobs.lookup d.requestId = some (jobFor cr w env s₁ d t txs) := by
      rw [hjobs, DashMap.lookup_insert_eq, if_pos rfl]
    exact (jobFor_hasTransactions_iff hcheck).mp (hs₂ d.requestId _ hcached)
  · intro hsends log₁ log₂ s₁ hlog hrun₁ _
    subst hlog
    refine Trace.history (P := fun log s =>
      (∀ d p, ⟨.declare d (some p), .success⟩ ∈ log → SendsTransactions cr d p) →
        NoCoinbaseOnly s) ?_ ?_ log₁ hrun₁ ?_
    · intro _ r job hjob
      simp [Engine.new] at hjob
    · intro log s e s' hs hstep hlog
      refine (CallStep.maps hstep).noCoinbaseOnly (hs ?_) ?_
      · exact fun d p hmem => hlog d p (List.mem_append_left _ hmem)
      · exact fun d p heq => hlog d p (by simp [heq])
    · exact fun d p hmem => hsends d p (List.mem_append_left _ hmem)

end

/-- The sample declaration with its own body. -/
theorem declare_caches_declared_one_body :
    CachesDeclared Sample.crates
      (run Sample.online.oracle (handleDeclareMiningJob Sample.crates Sample.wiring
        (Sample.declaration 7 3 [9]) (some ⟨[Sample.body.serialize]⟩)) Engine.new).2
      (Sample.declaration 7 3 [9]) ⟨[Sample.body.serialize]⟩ :=
  (declare_caches_declared_iff (by decide +kernel)).mpr
    (.cons ⟨Sample.body, [], (List.append_nil _).symm, by decide +kernel, by decide +kernel⟩ .nil)

/-- A body that does not decode is dropped: the declaration with one wtxid is
    accepted and cached with no transaction. -/
theorem declare_drops_undecodable_body :
    let s' := (run Sample.online.oracle (handleDeclareMiningJob Sample.crates Sample.wiring
      (Sample.declaration 7 3 [9]) (some ⟨[[]]⟩)) Engine.new)
    s'.1 = .success ∧
    (s'.2.declaredJobs.lookup 7).map DeclaredJob.txidList = some (some []) ∧
    ¬ CachesDeclared Sample.crates s'.2 (Sample.declaration 7 3 [9]) ⟨[[]]⟩ := by
  intro s'
  refine ⟨by decide +kernel, by decide +kernel, ?_⟩
  intro h
  obtain ⟨job, txs, -, hdec, hids, -, -⟩ := h
  match txs with
  | [] => simp at hdec
  | tx :: txs =>
    have hnone : Sample.crates.consensusDecode [] = none := by decide +kernel
    simp [hnone] at hdec

/-- The client that declares its transaction and sends it. -/
theorem no_coinbase_only_one_body :
    let s := Engine.new.after Sample.crates Sample.wiring
      [(Sample.online, Sample.declare 7 3 [9])]
    (s.declaredJobs.lookup 7).isSome = true ∧ NoCoinbaseOnly s := by
  intro s
  have hrun : Run Sample.crates Sample.wiring Engine.new _ s :=
    run_after Sample.crates Sample.wiring [(Sample.online, Sample.declare 7 3 [9])] Engine.new
  refine ⟨by decide +kernel, (no_coinbase_only_iff hrun).mpr ?_ _ [] s (List.append_nil _).symm
    hrun rfl⟩
  intro d p hmem
  have heq := congrArg Sigma.fst (List.mem_singleton.mp hmem)
  simp only [Sample.declare, Call.declare.injEq, Option.some.injEq] at heq
  obtain ⟨rfl, rfl⟩ := heq
  exact ⟨by simp [Sample.declaration], Sample.body.serialize, by simp, Sample.body,
    by decide +kernel⟩

/-- No wtxid, and a second message without a body: accepted and cached. -/
theorem coinbase_only_cached :
    let d := { Sample.declaration 7 3 [9] with wtxidList := [] }
    let s := Engine.new.after Sample.crates Sample.wiring
      [(Sample.online, .declare d (some ⟨[]⟩))]
    Reachable Sample.crates Sample.wiring s ∧
    (s.declaredJobs.lookup 7).map DeclaredJob.wtxidList = some [] ∧
    (s.declaredJobs.lookup 7).map DeclaredJob.txidList = some (some []) ∧
    ¬ NoCoinbaseOnly s := by
  intro d s
  have hcached : (s.declaredJobs.lookup 7).map DeclaredJob.wtxidList = some [] := by
    decide +kernel
  refine ⟨reachable_after _ _ _, hcached, by decide +kernel, ?_⟩
  intro h
  obtain ⟨job, hjob, hwtxids⟩ := Option.map_eq_some_iff.mp hcached
  exact (h 7 job hjob).1 hwtxids

end Sv2P2pool
