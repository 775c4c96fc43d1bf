import Sv2P2pool.Handlers

/-! # Frames

    Which parts of the shared state a program writes, and what the two
    building blocks all handlers share do in a complete call: counting and
    `request_tx_bodies`. A complete call runs from a state in which no other
    call waits for the Template Provider (`TdpHandle.Quiet`).
-/

namespace Sv2P2pool

open ByteCodec Bitcoin Interleave

/-! ## Frames -/

/-- The parts of the shared state that operations write. -/
inductive Region where
  | declaredJobs
  | allocatedTokens
  | payouts
  | requests
  | solutions
  | submitted
  | counters
  deriving DecidableEq

/-- What an operation writes. -/
def Op.writes : Op → Option Region
  | .jobsInsert _ _ | .jobsRemove _ | .jobsClear | .jobsRetain _ => some .declaredJobs
  | .tokensInsert _ _ | .tokensRemove _ => some .allocatedTokens
  | .payoutInsert _ _ | .payoutRemove _ | .indexInsert _ _ | .indexDropToken _ => some .payouts
  | .registerRequest _ | .awaitResponse _ _ | .removePending _ => some .requests
  | .recordSolution _ _ => some .solutions
  | .spawnSubmitBlock _ => some .submitted
  | .bump _ _ => some .counters
  | _ => none

/-- The program writes at most the listed parts. -/
def WritesOnly {α : Type} (l : List Region) (p : Handler α) : Prop :=
  p.Only fun o : Op => ∀ r, o.writes = some r → r ∈ l

theorem WritesOnly.bind {α β : Type} {l : List Region} {p : Handler α} {f : α → Handler β}
    (hp : WritesOnly l p) (hf : ∀ a, WritesOnly l (f a)) : WritesOnly l (p >>= f) :=
  Prog.Only.bind hp hf

section frames

variable (env : Env) {α : Type} {l : List Region} {p : Handler α}

theorem run_declaredJobs (h : WritesOnly l p) (hl : .declaredJobs ∉ l) (s : Engine) :
    (run env.oracle p s).2.declaredJobs = s.declaredJobs := by
  refine run_frame (f := Engine.declaredJobs) (fun s o ho => ?_) h s
  cases o <;> first | rfl | exact absurd (ho _ rfl) hl

theorem run_allocatedTokens (h : WritesOnly l p) (hl : .allocatedTokens ∉ l) (s : Engine) :
    (run env.oracle p s).2.allocatedTokens = s.allocatedTokens := by
  refine run_frame (f := Engine.allocatedTokens) (fun s o ho => ?_) h s
  cases o <;> first | rfl | exact absurd (ho _ rfl) hl

theorem run_payouts (h : WritesOnly l p) (hl : .payouts ∉ l) (s : Engine) :
    (run env.oracle p s).2.tokenPayout = s.tokenPayout ∧
      (run env.oracle p s).2.userIdentifierIndex = s.userIdentifierIndex := by
  refine ⟨run_frame (f := Engine.tokenPayout) (fun s o ho => ?_) h s,
    run_frame (f := Engine.userIdentifierIndex) (fun s o ho => ?_) h s⟩
  all_goals cases o <;> first | rfl | exact absurd (ho _ rfl) hl

theorem run_tdp (h : WritesOnly l p) (hl : .requests ∉ l) (s : Engine) :
    (run env.oracle p s).2.tdp = s.tdp := by
  refine run_frame (f := Engine.tdp) (fun s o ho => ?_) h s
  cases o <;> first | rfl | exact absurd (ho _ rfl) hl

theorem run_recentSolutions (h : WritesOnly l p) (hl : .solutions ∉ l) (s : Engine) :
    (run env.oracle p s).2.recentSolutions = s.recentSolutions := by
  refine run_frame (f := Engine.recentSolutions) (fun s o ho => ?_) h s
  cases o <;> first | rfl | exact absurd (ho _ rfl) hl

theorem run_submitted (h : WritesOnly l p) (hl : .submitted ∉ l) (s : Engine) :
    (run env.oracle p s).2.submitted = s.submitted := by
  refine run_frame (f := Engine.submitted) (fun s o ho => ?_) h s
  cases o <;> first | rfl | exact absurd (ho _ rfl) hl

end frames

/-! ## The cache under concurrent calls -/

/-- The effect of one operation of a concurrent call on the declared jobs. -/
inductive CacheStep (jobs : DashMap RequestId DeclaredJob) :
    Event engineSig → DashMap RequestId DeclaredJob → Prop where
  | inserted (r : RequestId) (job : DeclaredJob) :
      CacheStep jobs ⟨.jobsInsert r job, ()⟩ (jobs.insert r job)
  | removed (r : RequestId) : CacheStep jobs ⟨.jobsRemove r, jobs.lookup r⟩ (jobs.erase r)
  | cleared : CacheStep jobs ⟨.jobsClear, ()⟩ ∅
  | retained (keep : DeclaredJob → Bool) (dropped : Nat) :
      CacheStep jobs ⟨.jobsRetain keep, dropped⟩ (DashMap.retain (fun _ job => keep job) jobs)
  | kept (e : Event engineSig) (h : e.1.writes ≠ some .declaredJobs) : CacheStep jobs e jobs

theorem parInterp_cache {s s' : Engine} {o : Op} {r : o.Res} (h : parInterp s o r s') :
    CacheStep s.declaredJobs ⟨o, r⟩ s'.declaredJobs := by
  cases o with
  | jobsInsert id job =>
    obtain ⟨env, heq⟩ := h
    obtain ⟨rfl, rfl⟩ := Prod.mk.inj heq
    exact .inserted id job
  | jobsRemove id =>
    obtain ⟨env, heq⟩ := h
    obtain ⟨rfl, rfl⟩ := Prod.mk.inj heq
    exact .removed id
  | jobsClear =>
    obtain ⟨env, heq⟩ := h
    obtain ⟨rfl, rfl⟩ := Prod.mk.inj heq
    exact .cleared
  | jobsRetain keep =>
    obtain ⟨env, heq⟩ := h
    obtain ⟨rfl, rfl⟩ := Prod.mk.inj heq
    exact .retained keep _
  | awaitResponse k waiter =>
    -- a wait only moves its one-shot
    have hjobs : s'.declaredJobs = s.declaredJobs := by
      cases r with
      | received result => rw [h.2]
      | elapsed => rw [h.2]
      | senderDropped => rw [h.2.2]
    rw [hjobs]
    exact .kept _ (by simp [Op.writes])
  | _ =>
    obtain ⟨env, heq⟩ := h
    obtain ⟨-, rfl⟩ := Prod.mk.inj heq
    exact .kept _ (by simp [Op.writes])

theorem CacheStep.eq_of_writes {m m' : DashMap RequestId DeclaredJob} {e : Event engineSig}
    (h : CacheStep m e m') (hw : e.1.writes ≠ some .declaredJobs) : m' = m := by
  cases h with
  | kept e he => rfl
  | _ => exact absurd rfl hw

/-- What a concurrent lookup of a cached job answers. -/
theorem parInterp_jobsGet {s s' : Engine} {r : RequestId} {answer : Option DeclaredJob}
    (h : parInterp s (.jobsGet r) answer s') : answer = s.declaredJobs.lookup r := by
  obtain ⟨env, heq⟩ := h
  exact (Prod.mk.inj heq).1

/-- A concurrent `find_by_solution` answers the key of a cached match. -/
theorem parInterp_jobsFind {s s' : Engine} {prevHash : BlockHash} {nbits version : UInt32}
    {r : RequestId} (h : parInterp s (.jobsFindBySolution prevHash nbits version) (some r) s') :
    ∃ job, s.declaredJobs.lookup r = some job ∧ job.tip.prevHash = prevHash ∧
      job.tip.nbits = nbits ∧ job.version = version := by
  obtain ⟨env, heq⟩ := h
  have hfound : some r = findBySolution prevHash nbits version (env.jobOrder s.declaredJobs) :=
    (Prod.mk.inj heq).1
  obtain ⟨entry, hentry, rfl⟩ := Option.map_eq_some_iff.mp hfound.symm
  have hmem := (env.jobOrder_iter _).mem_iff.mp (List.mem_of_find?_eq_some hentry)
  exact ⟨entry.2, (DashMap.mem_entries_iff _ _ _).mp hmem, by simpa using List.find?_some hentry⟩

/-! ## The tokens under concurrent calls -/

/-- The effect of one operation of a concurrent call on the tokens. -/
inductive TokensStep (tokens : DashMap JdToken RequestId) :
    Event engineSig → DashMap JdToken RequestId → Prop where
  | inserted (t : JdToken) (r : RequestId) :
      TokensStep tokens ⟨.tokensInsert t r, ()⟩ (tokens.insert t r)
  | removed (t : JdToken) : TokensStep tokens ⟨.tokensRemove t, ()⟩ (tokens.erase t)
  | read (t : JdToken) : TokensStep tokens ⟨.tokensGet t, tokens.lookup t⟩ tokens
  | kept (e : Event engineSig) (h : e.1.writes ≠ some .allocatedTokens)
      (hread : ∀ t, e.1 ≠ .tokensGet t) : TokensStep tokens e tokens

theorem parInterp_tokens {s s' : Engine} {o : Op} {r : o.Res} (h : parInterp s o r s') :
    TokensStep s.allocatedTokens ⟨o, r⟩ s'.allocatedTokens := by
  cases o with
  | tokensInsert t id =>
    obtain ⟨env, heq⟩ := h
    obtain ⟨rfl, rfl⟩ := Prod.mk.inj heq
    exact .inserted t id
  | tokensRemove t =>
    obtain ⟨env, heq⟩ := h
    obtain ⟨rfl, rfl⟩ := Prod.mk.inj heq
    exact .removed t
  | tokensGet t =>
    obtain ⟨env, heq⟩ := h
    obtain ⟨rfl, rfl⟩ := Prod.mk.inj heq
    exact .read t
  | awaitResponse k waiter =>
    have htokens : s'.allocatedTokens = s.allocatedTokens := by
      cases r with
      | received result => rw [h.2]
      | elapsed => rw [h.2]
      | senderDropped => rw [h.2.2]
    rw [htokens]
    exact .kept _ (by simp [Op.writes]) (by simp)
  | _ =>
    obtain ⟨env, heq⟩ := h
    obtain ⟨-, rfl⟩ := Prod.mk.inj heq
    exact .kept _ (by simp [Op.writes]) (by simp)

theorem TokensStep.eq_of_writes {m m' : DashMap JdToken RequestId} {e : Event engineSig}
    (h : TokensStep m e m') (hw : e.1.writes ≠ some .allocatedTokens) : m' = m := by
  cases h with
  | kept e he hread => rfl
  | read t => rfl
  | _ => exact absurd rfl hw

/-! ## The request table under concurrent calls -/

/-- Only a wait can end otherwise than in a complete call. -/
theorem parInterp_iff {s s' : Engine} {o : Op} {r : o.Res} (ho : ∀ k w, o ≠ .awaitResponse k w) :
    parInterp s o r s' ↔ ∃ env : Env, (r, s') = env.step s o := by
  cases o with
  | awaitResponse k w => exact absurd rfl (ho k w)
  | _ => exact Iff.rfl

/-- The effect of one operation of a concurrent call on the TDP bridge. -/
inductive RequestsStep (tdp : TdpHandle) : Event engineSig → TdpHandle → Prop where
  | other (e : Event engineSig) (hreg : ∀ k, e.1 ≠ .registerRequest k)
      (hawait : ∀ k waiter, e.1 ≠ .awaitResponse k waiter) (hremove : ∀ k, e.1 ≠ .removePending k) :
      RequestsStep tdp e tdp
  | refused (k : UInt64) (htaken : tdp.pendingRequests.lookup k ≠ none) :
      RequestsStep tdp ⟨.registerRequest k, none⟩ tdp
  | registered (k : UInt64) (hfree : tdp.pendingRequests.lookup k = none) :
      RequestsStep tdp ⟨.registerRequest k, some tdp.nextOneshot⟩
        { tdp with pendingRequests := tdp.pendingRequests.insert k tdp.nextOneshot
                   nextOneshot := tdp.nextOneshot + 1 }
  | received (k : UInt64) (waiter : Nat) (result : TxDataResult)
      (hsent : tdp.oneshots.lookup waiter = some result) :
      RequestsStep tdp ⟨.awaitResponse k waiter, .received result⟩
        { tdp with oneshots := tdp.oneshots.erase waiter }
  | elapsed (k : UInt64) (waiter : Nat) (hnone : tdp.oneshots.lookup waiter = none) :
      RequestsStep tdp ⟨.awaitResponse k waiter, .elapsed⟩ tdp
  | senderDropped (k : UInt64) (waiter : Nat) (hnone : tdp.oneshots.lookup waiter = none)
      (hgone : ∀ k', tdp.pendingRequests.lookup k' ≠ some waiter) :
      RequestsStep tdp ⟨.awaitResponse k waiter, .senderDropped⟩ tdp
  | removed (k : UInt64) :
      RequestsStep tdp ⟨.removePending k, ()⟩
        { tdp with pendingRequests := tdp.pendingRequests.erase k }

theorem parInterp_requests {s s' : Engine} {o : Op} {r : o.Res} (h : parInterp s o r s') :
    RequestsStep s.tdp ⟨o, r⟩ s'.tdp := by
  cases o with
  | awaitResponse k waiter =>
    cases r with
    | received result =>
      obtain ⟨hsent, rfl⟩ := h
      exact .received k waiter result hsent
    | elapsed =>
      obtain ⟨hnone, rfl⟩ := h
      exact .elapsed k waiter hnone
    | senderDropped =>
      obtain ⟨hnone, hgone, rfl⟩ := h
      exact .senderDropped k waiter hnone hgone
  | registerRequest k =>
    obtain ⟨env, heq⟩ := h
    cases hslot : s.tdp.pendingRequests.lookup k with
    | none =>
      simp only [Env.step, TdpHandle.register, hslot, Option.isSome_none, Bool.false_eq_true,
        if_false, Prod.mk.injEq] at heq
      obtain ⟨rfl, rfl⟩ := heq
      exact .registered k hslot
    | some waiter =>
      simp only [Env.step, TdpHandle.register, hslot, Option.isSome_some, if_true,
        Prod.mk.injEq] at heq
      obtain ⟨rfl, rfl⟩ := heq
      exact .refused k (by simp [hslot])
  | removePending k =>
    obtain ⟨env, heq⟩ := h
    obtain ⟨-, rfl⟩ := Prod.mk.inj heq
    exact .removed k
  | _ =>
    obtain ⟨env, heq⟩ := h
    obtain ⟨-, rfl⟩ := Prod.mk.inj heq
    exact .other _ (by simp) (by simp) (by simp)

/-! ## Counters -/

/-- The state after `bump`. -/
def Engine.bumped (s : Engine) (w : Wiring) (c : Counter) (n : Nat) : Engine :=
  if w.metrics then { s with counters := Function.update s.counters c (s.counters c + n) } else s

@[simp] theorem run_bump (env : Env) (w : Wiring) (c : Counter) (n : Nat) (s : Engine) :
    run env.oracle (bump w c n) s = ((), s.bumped w c n) := by
  unfold bump Engine.bumped
  split_ifs <;> rfl

@[simp] theorem bumped_tdp (s : Engine) (w : Wiring) (c : Counter) (n : Nat) :
    (s.bumped w c n).tdp = s.tdp := by
  unfold Engine.bumped
  split_ifs <;> rfl

@[simp] theorem bumped_declaredJobs (s : Engine) (w : Wiring) (c : Counter) (n : Nat) :
    (s.bumped w c n).declaredJobs = s.declaredJobs := by
  unfold Engine.bumped
  split_ifs <;> rfl

@[simp] theorem bumped_allocatedTokens (s : Engine) (w : Wiring) (c : Counter) (n : Nat) :
    (s.bumped w c n).allocatedTokens = s.allocatedTokens := by
  unfold Engine.bumped
  split_ifs <;> rfl

/-- Counting is one operation, or none. -/
theorem only_bump (w : Wiring) {Q : Op → Prop} {c : Counter} {n : Nat} (h : Q (.bump c n)) :
    (bump w c n).Only Q := by
  unfold bump
  split_ifs
  · exact ⟨h, fun _ => trivial⟩
  · trivial

theorem writesOnly_bump (w : Wiring) (c : Counter) (n : Nat) :
    WritesOnly [.counters] (bump w c n) := only_bump w (by simp [Op.writes])

section

variable (cr : Crates) (w : Wiring) (env : Env)

/-! ## `request_tx_bodies` -/

/-- No request for transaction bodies is in flight. -/
def TdpHandle.Quiet (tdp : TdpHandle) : Prop := tdp.pendingRequests = ∅ ∧ tdp.oneshots = ∅

/-- What `request_tx_bodies` returns when nothing else is in flight. -/
def Env.txBodies (k : UInt64) : Except TdpError (List Transaction) :=
  if env.sendRequest k then
    match env.txData k with
    | some result => decodeTxData cr k result
    | none => .error (.timeout k)
  else .error .sendFailed

/-- The state `request_tx_bodies` leaves: one more one-shot was used up. -/
def Engine.requested (s : Engine) : Engine :=
  { s with tdp := { s.tdp with nextOneshot := s.tdp.nextOneshot + 1 } }

theorem register_quiet {tdp : TdpHandle} (h : tdp.pendingRequests = ∅) (k : UInt64) :
    tdp.register k = (some tdp.nextOneshot,
      { tdp with pendingRequests := (∅ : DashMap UInt64 Nat).insert k tdp.nextOneshot
                 nextOneshot := tdp.nextOneshot + 1 }) := by
  simp [TdpHandle.register, h]

theorem run_requestTxBodies {s : Engine} (hq : s.tdp.Quiet) (k : UInt64) :
    run env.oracle (requestTxBodies cr k) s = (env.txBodies cr k, s.requested) := by
  obtain ⟨hp, ho⟩ := hq
  cases hsend : env.sendRequest k with
  | false =>
    simp [requestTxBodies, Env.oracle, Env.step, register_quiet hp, hsend, Env.txBodies,
      TdpHandle.removePending, Engine.requested, DashMap.erase_singleton, hp]
  | true =>
    cases hdata : env.txData k with
    | none =>
      simp [requestTxBodies, Env.oracle, Env.step, register_quiet hp, hsend, hdata, Env.txBodies,
        TdpHandle.removePending, awaitAlone, Engine.requested, DashMap.erase_singleton, hp]
    | some result =>
      simp [requestTxBodies, Env.oracle, Env.step, register_quiet hp, hsend, hdata, Env.txBodies,
        awaitAlone, TdpHandle.deliverResponse, Engine.requested, DashMap.lookup_singleton,
        DashMap.erase_singleton, hp, ho]

theorem requested_quiet {s : Engine} (h : s.tdp.Quiet) : s.requested.tdp.Quiet := h

/-- The operations of `request_tx_bodies`. -/
def Op.isRequest : Op → Prop
  | .registerRequest _ | .sendRequest _ | .awaitResponse _ _ | .removePending _ => True
  | _ => False

theorem only_requestTxBodies (k : UInt64) : (requestTxBodies cr k).Only Op.isRequest := by
  refine ⟨trivial, fun registered => ?_⟩
  cases registered with
  | none => trivial
  | some waiter =>
    refine ⟨trivial, fun sent => ?_⟩
    cases sent with
    | false => exact ⟨trivial, fun _ => trivial⟩
    | true =>
      refine ⟨trivial, fun outcome => ?_⟩
      cases outcome with
      | senderDropped => exact ⟨trivial, fun _ => trivial⟩
      | elapsed => exact ⟨trivial, fun _ => trivial⟩
      | received result => trivial

theorem writesOnly_requestTxBodies (k : UInt64) :
    WritesOnly [.requests] (requestTxBodies cr k) := by
  refine Prog.Only.mono (fun o ho => ?_) (only_requestTxBodies cr k)
  cases o <;> first | exact ho.elim | simp [Op.writes]

/-! ## Reading the tips -/

/-- The operation reads a snapshot of the Template Provider or asks the share
    chain. -/
def Op.isRead : Op → Prop
  | .currentTip | .currentTemplateId | .getChainTip | .getShareHeader _ => True
  | _ => False

theorem reads_captureTip : (captureTip w).Only Op.isRead := by
  unfold captureTip
  split_ifs
  · exact ⟨trivial, fun _ => ⟨trivial, fun _ => trivial⟩⟩
  · trivial

theorem reads_captureShareChainTip : (captureShareChainTip w).Only Op.isRead := by
  unfold captureShareChainTip
  split_ifs
  · exact ⟨trivial, fun _ => trivial⟩
  · trivial

end

end Sv2P2pool
