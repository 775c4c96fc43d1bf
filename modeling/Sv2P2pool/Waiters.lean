import Sv2P2pool.Preflight

/-! # The Waiter Table

    `request_tx_bodies` registers a one-shot under its `template_id`, sends the
    request, waits, and after a failure removes whatever the table holds for
    the `template_id`. Registration, sending, delivery, expiry and cleanup are
    separate steps, so the entry a cleanup removes need not be the one its call
    registered. The invariant below holds for every program that uses the table
    in the order of `request_tx_bodies`, as long as no registration falls
    between another call's failure and its cleanup.
-/

namespace Sv2P2pool

open ByteCodec Bitcoin Interleave

section

variable {cr : Crates} {α ι : Type}

/-! ## Orderly programs -/

/-- A call waits at most once, on the waiter it registered, and cleans up
    directly after a failed send or wait of its own. -/
def Orderly (log : List (Event engineSig)) : Op → Prop
  | .awaitResponse k waiter => ⟨.registerRequest k, some waiter⟩ ∈ log ∧
      (∀ k' waiter' r, ⟨.awaitResponse k' waiter', r⟩ ∉ log) ∧ ∀ k', ⟨.removePending k', ()⟩ ∉ log
  | .removePending k => ∃ waiter, ⟨.registerRequest k, some waiter⟩ ∈ log ∧
      (log.getLast? = some ⟨.sendRequest k, false⟩ ∨
        log.getLast? = some ⟨.awaitResponse k waiter, .elapsed⟩ ∨
        log.getLast? = some ⟨.awaitResponse k waiter, .senderDropped⟩)
  | _ => True

/-- The next operation of the call is its error cleanup for `k`. -/
def atCleanup (k : UInt64) : Handler α → Bool
  | .op (.removePending k') _ => k' = k
  | _ => false

theorem atCleanup_iff {k : UInt64} {p : Handler α} :
    atCleanup k p = true ↔ ∃ cont, p = .op (.removePending k) cont := by
  cases p with
  | ret a => simp [atCleanup]
  | op o cont => cases o <;> simp [atCleanup, eq_comm]

/-- How a call of `request_tx_bodies` ends, by what it has seen: it was refused
    without a registration, got its response, timed out, or the channel is
    closed. -/
inductive Ends (cr : Crates) (k : UInt64) (log : List (Event engineSig)) :
    Except TdpError (List Transaction) → Prop where
  | duplicate (hlog : ∀ waiter, ⟨.registerRequest k, some waiter⟩ ∉ log) :
      Ends cr k log (.error (.duplicateRequest k))
  | response (waiter : Nat) (result : TxDataResult)
      (hreg : ⟨.registerRequest k, some waiter⟩ ∈ log)
      (hlog : ⟨.awaitResponse k waiter, .received result⟩ ∈ log) :
      Ends cr k log (decodeTxData cr k result)
  | timeout (waiter : Nat) (hreg : ⟨.registerRequest k, some waiter⟩ ∈ log)
      (hlog : ⟨.awaitResponse k waiter, .elapsed⟩ ∈ log) : Ends cr k log (.error (.timeout k))
  | closed (hlog : ⟨.sendRequest k, false⟩ ∈ log) : Ends cr k log (.error .sendFailed)

theorem Ends.ne_demuxClosed {k : UInt64} {log : List (Event engineSig)}
    {result : Except TdpError (List Transaction)} (h : Ends cr k log result) :
    result ≠ .error .demuxClosed := by
  cases h with
  | duplicate hlog => simp
  | response waiter result hreg hlog =>
    unfold decodeTxData
    split
    · simp
    · split <;> simp
  | timeout waiter hreg hlog => simp
  | closed hlog => simp

/-- A log before `request_tx_bodies`: nothing registered, waited for or cleaned
    up. -/
structure Untouched (log : List (Event engineSig)) : Prop where
  registered : ∀ k waiter, ⟨.registerRequest k, some waiter⟩ ∉ log
  waited : ∀ k waiter r, ⟨.awaitResponse k waiter, r⟩ ∉ log
  removed : ∀ k, ⟨.removePending k, ()⟩ ∉ log

theorem untouched_nil : Untouched [] := ⟨by simp, by simp, by simp⟩

theorem requestTxBodies_orderly (k : UInt64) {log : List (Event engineSig)} (h : Untouched log) :
    (requestTxBodies cr k).Spec Orderly (fun log' result => log ⊆ log' ∧
      (Ends cr k log' result ∨
        ∃ waiter, ⟨.awaitResponse k waiter, .senderDropped⟩ ∈ log')) log := by
  refine ⟨trivial, fun registered => ?_⟩
  cases registered with
  | none =>
    refine ⟨by simp, Or.inl (.duplicate fun waiter => ?_)⟩
    simpa using h.registered k waiter
  | some waiter =>
    refine ⟨trivial, fun sent => ?_⟩
    cases sent with
    | false =>
      exact ⟨⟨waiter, by simp, Or.inl (by simp)⟩,
        fun _ => ⟨by simp, Or.inl (.closed (by simp))⟩⟩
    | true =>
      refine ⟨⟨by simp, fun k' waiter' r => ?_, fun k' => ?_⟩, fun outcome => ?_⟩
      · simpa using h.waited k' waiter' r
      · simpa using h.removed k'
      cases outcome with
      | received result =>
        exact ⟨by simp, Or.inl (.response waiter result (by simp) (by simp))⟩
      | elapsed =>
        exact ⟨⟨waiter, by simp, Or.inr (Or.inl (by simp))⟩,
          fun _ => ⟨by simp, Or.inl (.timeout waiter (by simp) (by simp))⟩⟩
      | senderDropped =>
        exact ⟨⟨waiter, by simp, Or.inr (Or.inr (by simp))⟩,
          fun _ => ⟨by simp, Or.inr ⟨waiter, by simp⟩⟩⟩

/-- Only a failed send or wait is followed by a cleanup. -/
theorem not_cleanup {Q : List (Event engineSig) → α → Prop} {log : List (Event engineSig)}
    {e : Event engineSig} {p : Handler α} (hnext : p.Spec Orderly Q (log ++ [e]))
    (hsend : ∀ k, e ≠ ⟨.sendRequest k, false⟩)
    (helapsed : ∀ k waiter, e ≠ ⟨.awaitResponse k waiter, .elapsed⟩)
    (hdropped : ∀ k waiter, e ≠ ⟨.awaitResponse k waiter, .senderDropped⟩) (k : UInt64)
    (cont : Unit → Handler α) : p ≠ .op (.removePending k) cont := by
  intro hp
  rw [hp] at hnext
  obtain ⟨⟨waiter, -, hlast⟩, -⟩ := hnext
  simp only [List.getLast?_append, List.getLast?_singleton, Option.some_or,
    Option.some.injEq] at hlast
  rcases hlast with hlast | hlast | hlast
  · exact hsend k hlast
  · exact helapsed k waiter hlast
  · exact hdropped k waiter hlast

/-! ## The invariant -/

section invariant

variable [DecidableEq ι] {c c' : Config engineSig Engine α ι}

/-- No registration falls between another call's failure and its cleanup, and
    the channel refuses a request only while no other call holds the slot. -/
def Undisputed (c : Config engineSig Engine α ι) : Label engineSig ι TemplateDistribution → Prop
  | .thread i ⟨.registerRequest k, _⟩ => c.shared.tdp.pendingRequests.lookup k = none →
      ∀ j, j ≠ i → atCleanup k (c.threads j).prog = false
  | .thread i ⟨.sendRequest k, taken⟩ => taken = false →
      ∀ waiter, c.shared.tdp.pendingRequests.lookup k = some waiter →
        ⟨.registerRequest k, some waiter⟩ ∈ (c.threads i).log
  | _ => True

/-- The waiter table and the logs of the calls. -/
structure WaiterInv (c : Config engineSig Engine α ι) : Prop where
  /-- A registered waiter stays in the table until a response is sent to it, or
      its own call has waited for it or cleaned up. -/
  held : ∀ i k waiter, ⟨.registerRequest k, some waiter⟩ ∈ (c.threads i).log →
    c.shared.tdp.oneshots.lookup waiter = none →
    (∀ r, ⟨.awaitResponse k waiter, r⟩ ∉ (c.threads i).log) →
    ⟨.removePending k, ()⟩ ∉ (c.threads i).log →
    c.shared.tdp.pendingRequests.lookup k = some waiter
  /-- A cleanup finds its own entry or none. -/
  own : ∀ i k cont, (c.threads i).prog = .op (.removePending k) cont →
    ∀ waiter, c.shared.tdp.pendingRequests.lookup k = some waiter →
      ⟨.registerRequest k, some waiter⟩ ∈ (c.threads i).log
  /-- Waiters are handed out in order. -/
  fresh : ∀ i k waiter, ⟨.registerRequest k, some waiter⟩ ∈ (c.threads i).log →
    waiter < c.shared.tdp.nextOneshot
  /-- No two registrations share a waiter. -/
  unique : ∀ i j k k' waiter, ⟨.registerRequest k, some waiter⟩ ∈ (c.threads i).log →
    ⟨.registerRequest k', some waiter⟩ ∈ (c.threads j).log → i = j ∧ k = k'
  /-- No wait has ended with a dropped sender. -/
  undropped : ∀ i k waiter, ⟨.awaitResponse k waiter, .senderDropped⟩ ∉ (c.threads i).log

omit [DecidableEq ι] in
/-- Nothing is in flight before the first step. -/
theorem waiterInv_start (s : Engine) (p : ι → Handler α)
    (hstart : ∀ i, ∀ k cont, p i ≠ .op (.removePending k) cont) :
    WaiterInv (⟨s, fun i => ⟨p i, []⟩⟩ : Config engineSig Engine α ι) where
  held i k waiter hmem := by simp at hmem
  own i k cont hprog := absurd hprog (hstart i k cont)
  fresh i k waiter hmem := by simp at hmem
  unique i j k k' waiter hmem := by simp at hmem
  undropped i k waiter hmem := by simp at hmem

omit [DecidableEq ι] in
/-- A message through the tee takes at most one entry out of the table, and
    sends to the waiter it takes out. -/
theorem WaiterInv.tee (hinv : WaiterInv c) (msg : TemplateDistribution) :
    WaiterInv ⟨teeAct msg c.shared, c.threads⟩ := by
  have hdeliver : ∀ k₀ result, WaiterInv (⟨{ c.shared with
      tdp := c.shared.tdp.deliverResponse k₀ result }, c.threads⟩ :
        Config engineSig Engine α ι) := by
    intro k₀ result
    cases hslot : c.shared.tdp.pendingRequests.lookup k₀ with
    | none =>
      simp only [TdpHandle.deliverResponse, hslot]
      exact hinv
    | some waiter₀ =>
      simp only [TdpHandle.deliverResponse, hslot]
      refine ⟨fun i k waiter hmem hnone hwait hclean => ?_, fun i k cont hprog waiter hk => ?_,
        hinv.fresh, hinv.unique, hinv.undropped⟩
      · simp only [DashMap.lookup_insert_eq] at hnone
        split_ifs at hnone with hw
        have hheld := hinv.held i k waiter hmem hnone hwait hclean
        have hk : k ≠ k₀ := by
          intro heq
          rw [heq, hslot] at hheld
          exact hw (Option.some.inj hheld).symm
        simp only [DashMap.lookup_erase_eq, if_neg hk, hheld]
      · simp only [DashMap.lookup_erase_eq] at hk
        split_ifs at hk
        exact hinv.own i k cont hprog waiter hk
  cases msg with
  | setNewPrevHash msg => exact ⟨hinv.held, hinv.own, hinv.fresh, hinv.unique, hinv.undropped⟩
  | newTemplate msg => exact ⟨hinv.held, hinv.own, hinv.fresh, hinv.unique, hinv.undropped⟩
  | requestTransactionDataSuccess k l => exact hdeliver k (.success l)
  | requestTransactionDataError k code => exact hdeliver k (.error code)
  | other => exact hinv

omit [DecidableEq ι] in
/-- The call that has just moved, if it is now at its cleanup: it failed in this
    step, and until then its waiter was in the table. -/
theorem WaiterInv.own_next (hinv : WaiterInv c) {j : ι} {o : Op} {r : o.Res} {p : Handler α}
    {Q : List (Event engineSig) → α → Prop} {tdp' : TdpHandle}
    (horderly : Orderly (c.threads j).log o)
    (hnext : p.Spec Orderly Q ((c.threads j).log ++ [⟨o, r⟩]))
    (hstep : RequestsStep c.shared.tdp ⟨o, r⟩ tdp')
    (hund : Undisputed c (.thread j ⟨o, r⟩)) (k : UInt64) (cont : Unit → Handler α)
    (hprog : p = .op (.removePending k) cont) (waiter : Nat)
    (hslot : tdp'.pendingRequests.lookup k = some waiter) :
    ⟨.registerRequest k, some waiter⟩ ∈ (c.threads j).log := by
  rw [hprog] at hnext
  obtain ⟨⟨waiter₀, -, hlast⟩, -⟩ := hnext
  simp only [List.getLast?_append, List.getLast?_singleton, Option.some_or,
    Option.some.injEq] at hlast
  rcases hlast with hlast | hlast | hlast
  · cases hlast
    cases hstep
    exact hund rfl waiter hslot
  · cases hlast
    obtain ⟨hreg, hwait, hclean⟩ := horderly
    cases hstep with
    | other _ _ hawait => exact absurd rfl (hawait k waiter₀)
    | elapsed _ _ hnone =>
      have hheld := hinv.held j k waiter₀ hreg hnone (fun r => hwait k waiter₀ r) (hclean k)
      obtain rfl : waiter₀ = waiter := Option.some.inj (hheld.symm.trans hslot)
      exact hreg
  · cases hlast
    obtain ⟨hreg, hwait, hclean⟩ := horderly
    cases hstep with
    | other _ _ hawait => exact absurd rfl (hawait k waiter₀)
    | senderDropped _ _ hnone hgone =>
      exact absurd (hinv.held j k waiter₀ hreg hnone (fun r => hwait k waiter₀ r) (hclean k))
        (hgone k)

/-- A step after which every call at its cleanup still owns its entry: one that
    registers nothing, sends nothing and cleans up nothing. -/
theorem WaiterInv.kept (hinv : WaiterInv c) {j : ι} {e : Event engineSig} {s' : Engine}
    {p : Handler α} (hreg : ∀ k waiter, e ≠ ⟨.registerRequest k, some waiter⟩)
    (hdrop : ∀ k waiter, e ≠ ⟨.awaitResponse k waiter, .senderDropped⟩)
    (htdp : s'.tdp = c.shared.tdp)
    (hown : ∀ k cont, p = .op (.removePending k) cont →
      ∀ waiter, c.shared.tdp.pendingRequests.lookup k = some waiter →
        ⟨.registerRequest k, some waiter⟩ ∈ (c.threads j).log) :
    WaiterInv ⟨s', Function.update c.threads j ⟨p, (c.threads j).log ++ [e]⟩⟩ where
  held i k waiter hmem hnone hwait hclean := by
    rw [htdp] at hnone ⊢
    refine hinv.held i k waiter (registration_of_update hreg hmem) hnone ?_ ?_
    · exact fun r hr => hwait r (mem_log_update.mpr (Or.inl hr))
    · exact fun hr => hclean (mem_log_update.mpr (Or.inl hr))
  own i k cont hprog waiter hslot := by
    rw [htdp] at hslot
    refine mem_log_update.mpr (Or.inl ?_)
    rcases prog_of_update hprog with ⟨rfl, hp⟩ | ⟨-, hi⟩
    · exact hown k cont hp waiter hslot
    · exact hinv.own i k cont hi waiter hslot
  fresh i k waiter hmem := by
    rw [htdp]
    exact hinv.fresh i k waiter (registration_of_update hreg hmem)
  unique i i' k k' waiter hmem hmem' :=
    hinv.unique i i' k k' waiter (registration_of_update hreg hmem)
      (registration_of_update hreg hmem')
  undropped i k waiter hmem := by
    rcases mem_log_update.mp hmem with hmem | ⟨-, heq⟩
    · exact hinv.undropped i k waiter hmem
    · exact hdrop k waiter heq.symm

/-- A registration finds the slot free and no other call at its cleanup. -/
theorem WaiterInv.registered (hinv : WaiterInv c) {j : ι} {s' : Engine} {p : Handler α}
    {k₀ : UInt64} (hfree : c.shared.tdp.pendingRequests.lookup k₀ = none)
    (htdp : s'.tdp = { c.shared.tdp with
      pendingRequests := c.shared.tdp.pendingRequests.insert k₀ c.shared.tdp.nextOneshot
      nextOneshot := c.shared.tdp.nextOneshot + 1 })
    (halone : ∀ i, i ≠ j → atCleanup k₀ (c.threads i).prog = false)
    (hprog : ∀ k cont, p ≠ .op (.removePending k) cont) :
    WaiterInv ⟨s', Function.update c.threads j ⟨p, (c.threads j).log ++
      [⟨.registerRequest k₀, some c.shared.tdp.nextOneshot⟩]⟩⟩ where
  held i k waiter hmem hnone hwait hclean := by
    rw [htdp] at hnone ⊢
    simp only [DashMap.lookup_insert_eq]
    rcases mem_log_update.mp hmem with hmem | ⟨-, heq⟩
    · have hheld := hinv.held i k waiter hmem hnone
        (fun r hr => hwait r (mem_log_update.mpr (Or.inl hr)))
        (fun hr => hclean (mem_log_update.mpr (Or.inl hr)))
      have hk : k ≠ k₀ := by
        intro heq
        rw [heq, hfree] at hheld
        cases hheld
      rw [if_neg hk, hheld]
    · cases heq
      rw [if_pos rfl]
  own i k cont hi waiter hslot := by
    rw [htdp] at hslot
    simp only [DashMap.lookup_insert_eq] at hslot
    rcases prog_of_update hi with ⟨rfl, hp⟩ | ⟨hij, hi⟩
    · exact absurd hp (hprog k cont)
    · have hk : k ≠ k₀ := by
        intro heq
        have hnot := halone i hij
        rw [hi, heq] at hnot
        simp [atCleanup] at hnot
      rw [if_neg hk] at hslot
      exact mem_log_update.mpr (Or.inl (hinv.own i k cont hi waiter hslot))
  fresh i k waiter hmem := by
    rw [htdp]
    rcases mem_log_update.mp hmem with hmem | ⟨-, heq⟩
    · exact Nat.lt_succ_of_lt (hinv.fresh i k waiter hmem)
    · cases heq
      exact Nat.lt_succ_self _
  unique i i' k k' waiter hmem hmem' := by
    -- the new waiter is larger than all before it
    rcases mem_log_update.mp hmem with hmem | ⟨hi, heq⟩ <;>
      rcases mem_log_update.mp hmem' with hmem' | ⟨hi', heq'⟩
    · exact hinv.unique i i' k k' waiter hmem hmem'
    · cases heq'
      exact absurd (hinv.fresh i k _ hmem) (lt_irrefl _)
    · cases heq
      exact absurd (hinv.fresh i' k' _ hmem') (lt_irrefl _)
    · cases heq
      cases heq'
      exact ⟨hi.trans hi'.symm, rfl⟩
  undropped i k waiter hmem := by
    rcases mem_log_update.mp hmem with hmem | ⟨-, heq⟩
    · exact hinv.undropped i k waiter hmem
    · cases heq

/-- A response is received by the call that registered for it. -/
theorem WaiterInv.received (hinv : WaiterInv c) {j : ι} {s' : Engine} {p : Handler α}
    {k₀ : UInt64} {waiter₀ : Nat} {result : TxDataResult}
    (hreg : ⟨.registerRequest k₀, some waiter₀⟩ ∈ (c.threads j).log)
    (htdp : s'.tdp = { c.shared.tdp with oneshots := c.shared.tdp.oneshots.erase waiter₀ })
    (hprog : ∀ k cont, p ≠ .op (.removePending k) cont) :
    WaiterInv ⟨s', Function.update c.threads j ⟨p, (c.threads j).log ++
      [⟨.awaitResponse k₀ waiter₀, .received result⟩]⟩⟩ where
  held i k waiter hmem hnone hwait hclean := by
    rw [htdp] at hnone ⊢
    replace hmem := registration_of_update (by simp) hmem
    -- the one owner of the received waiter has now waited for it
    have hw : waiter ≠ waiter₀ := by
      intro heq
      subst heq
      obtain ⟨rfl, rfl⟩ := hinv.unique i j k k₀ waiter hmem hreg
      exact hwait (.received result) (mem_log_update.mpr (Or.inr ⟨rfl, rfl⟩))
    simp only [DashMap.lookup_erase_eq, if_neg hw] at hnone
    exact hinv.held i k waiter hmem hnone
      (fun r hr => hwait r (mem_log_update.mpr (Or.inl hr)))
      (fun hr => hclean (mem_log_update.mpr (Or.inl hr)))
  own i k cont hi waiter hslot := by
    rw [htdp] at hslot
    rcases prog_of_update hi with ⟨rfl, hp⟩ | ⟨-, hi⟩
    · exact absurd hp (hprog k cont)
    · exact mem_log_update.mpr (Or.inl (hinv.own i k cont hi waiter hslot))
  fresh i k waiter hmem := by
    rw [htdp]
    exact hinv.fresh i k waiter (registration_of_update (by simp) hmem)
  unique i i' k k' waiter hmem hmem' :=
    hinv.unique i i' k k' waiter (registration_of_update (by simp) hmem)
      (registration_of_update (by simp) hmem')
  undropped i k waiter hmem := by
    rcases mem_log_update.mp hmem with hmem | ⟨-, heq⟩
    · exact hinv.undropped i k waiter hmem
    · cases heq

/-- A cleanup removes the entry of its own call or none. -/
theorem WaiterInv.removed (hinv : WaiterInv c) {j : ι} {s' : Engine} {p : Handler α}
    {k₀ : UInt64} {cont₀ : Unit → Handler α}
    (hat : (c.threads j).prog = .op (.removePending k₀) cont₀)
    (htdp : s'.tdp = { c.shared.tdp with
      pendingRequests := c.shared.tdp.pendingRequests.erase k₀ })
    (hprog : ∀ k cont, p ≠ .op (.removePending k) cont) :
    WaiterInv ⟨s', Function.update c.threads j ⟨p, (c.threads j).log ++
      [⟨.removePending k₀, ()⟩]⟩⟩ where
  held i k waiter hmem hnone hwait hclean := by
    rw [htdp] at hnone ⊢
    replace hmem := registration_of_update (by simp) hmem
    have hheld := hinv.held i k waiter hmem hnone
      (fun r hr => hwait r (mem_log_update.mpr (Or.inl hr)))
      (fun hr => hclean (mem_log_update.mpr (Or.inl hr)))
    have hk : k ≠ k₀ := by
      intro heq
      subst heq
      -- the entry is this call's own, so it is the one that has cleaned up
      have hown := hinv.own j k cont₀ hat waiter hheld
      obtain ⟨rfl, -⟩ := hinv.unique i j k k waiter hmem hown
      exact hclean (mem_log_update.mpr (Or.inr ⟨rfl, rfl⟩))
    simp only [DashMap.lookup_erase_eq, if_neg hk, hheld]
  own i k cont hi waiter hslot := by
    rw [htdp] at hslot
    simp only [DashMap.lookup_erase_eq] at hslot
    split_ifs at hslot
    rcases prog_of_update hi with ⟨rfl, hp⟩ | ⟨-, hi⟩
    · exact absurd hp (hprog k cont)
    · exact mem_log_update.mpr (Or.inl (hinv.own i k cont hi waiter hslot))
  fresh i k waiter hmem := by
    rw [htdp]
    exact hinv.fresh i k waiter (registration_of_update (by simp) hmem)
  unique i i' k k' waiter hmem hmem' :=
    hinv.unique i i' k k' waiter (registration_of_update (by simp) hmem)
      (registration_of_update (by simp) hmem')
  undropped i k waiter hmem := by
    rcases mem_log_update.mp hmem with hmem | ⟨-, heq⟩
    · exact hinv.undropped i k waiter hmem
    · cases heq

/-- One step of the whole system. -/
theorem WaiterInv.step (hinv : WaiterInv c) {Q : ι → List (Event engineSig) → α → Prop}
    (hspec : ∀ i, (c.threads i).prog.Spec Orderly (Q i) (c.threads i).log)
    {l : Label engineSig ι TemplateDistribution} (hstep : Step parInterp teeAct c l c')
    (hund : Undisputed c l) : WaiterInv c' := by
  cases hstep with
  | env msg => exact hinv.tee msg
  | @thread j o cont r s' hprog hI =>
    have hj := hspec j
    rw [hprog] at hj
    obtain ⟨horderly, hnext⟩ := hj
    replace hnext := hnext r
    have htable := parInterp_requests hI
    have hown := hinv.own_next horderly hnext htable hund
    generalize hp : cont r = p at hnext hown
    generalize htdp : s'.tdp = tdp at htable hown
    generalize he : (⟨o, r⟩ : Event engineSig) = e at htable hnext hund
    cases htable with
    | other _ hreg hawait hremove =>
      refine hinv.kept (fun k waiter heq => ?_) (fun k waiter heq => ?_) htdp hown
      · exact hreg k (congrArg Sigma.fst heq)
      · exact hawait k waiter (congrArg Sigma.fst heq)
    | refused k htaken => exact hinv.kept (by simp) (by simp) htdp hown
    | elapsed k waiter hnone => exact hinv.kept (by simp) (by simp) htdp hown
    | registered k hfree =>
      have hnot := not_cleanup hnext (by simp) (by simp) (by simp)
      exact hinv.registered hfree htdp (hund hfree) hnot
    | received k waiter result hsent =>
      cases he
      exact hinv.received horderly.1 htdp (not_cleanup hnext (by simp) (by simp) (by simp))
    | senderDropped k waiter hnone hgone =>
      cases he
      obtain ⟨hreg, hwait, hclean⟩ := horderly
      have hheld := hinv.held j k waiter hreg hnone (fun r => hwait k waiter r) (hclean k)
      exact absurd hheld (hgone k)
    | removed k =>
      cases he
      exact hinv.removed hprog htdp (not_cleanup hnext (by simp) (by simp) (by simp))

end invariant

/-! ## Concurrent requests -/

/-- A running call of `request_tx_bodies` has neither received nor cleaned up,
    and cleans up right after a failed send. -/
def Running (log : List (Event engineSig)) (o : Op) : Prop :=
  (∀ k waiter result, ⟨.awaitResponse k waiter, .received result⟩ ∉ log) ∧
  (∀ k, ⟨.removePending k, ()⟩ ∉ log) ∧
  ∀ k, log.getLast? = some ⟨.sendRequest k, false⟩ → o = .removePending k

theorem requestTxBodies_running (k : UInt64) :
    (requestTxBodies cr k).Spec Running
      (fun log _ => ∀ k, log.getLast? ≠ some ⟨.sendRequest k, false⟩) [] := by
  refine ⟨by simp [Running], fun registered => ?_⟩
  cases registered with
  | none => exact fun k' => by simp
  | some waiter =>
    refine ⟨by simp [Running], fun sent => ?_⟩
    cases sent with
    | false => exact ⟨by simp [Running], fun _ k' => by simp⟩
    | true =>
      refine ⟨by simp [Running], fun outcome => ?_⟩
      cases outcome with
      | received result => exact fun k' => by simp
      | elapsed => exact ⟨by simp [Running], fun _ k' => by simp⟩
      | senderDropped => exact ⟨by simp [Running], fun _ k' => by simp⟩

section concurrent

variable [DecidableEq ι]

/-- Calls of `request_tx_bodies`, none of which has started. -/
def requestCalls (cr : Crates) (s : Engine) (k : ι → UInt64) :
    Config engineSig Engine (Except TdpError (List Transaction)) ι :=
  ⟨s, fun i => ⟨requestTxBodies cr (k i), []⟩⟩

/-- No waiter has been stolen. -/
structure WaitersKept (cr : Crates) (k : ι → UInt64)
    (c : Config engineSig Engine (Except TdpError (List Transaction)) ι) : Prop where
  /-- A call that has registered, to whose waiter nothing has been sent and whose
      timeout has not expired has its one-shot in the table. -/
  held : ∀ i waiter, (c.threads i).prog.result? = none →
    ⟨.registerRequest (k i), some waiter⟩ ∈ (c.threads i).log →
    c.shared.tdp.oneshots.lookup waiter = none →
    ⟨.awaitResponse (k i) waiter, .elapsed⟩ ∉ (c.threads i).log →
    c.shared.tdp.pendingRequests.lookup (k i) = some waiter
  /-- A cleanup removes only the entry its own call registered. -/
  own : ∀ i k' cont, (c.threads i).prog = .op (.removePending k') cont →
    ∀ waiter, c.shared.tdp.pendingRequests.lookup k' = some waiter →
      ⟨.registerRequest k', some waiter⟩ ∈ (c.threads i).log
  /-- A call ends by a refusal, its response, its timeout or a closed channel. -/
  ends : ∀ i result, (c.threads i).prog = .ret result →
    Ends cr (k i) (c.threads i).log result ∧ result ≠ .error .demuxClosed

/-- What every call of the system satisfies on its way. -/
def RequestsSpec (cr : Crates) (k : ι → UInt64)
    (c : Config engineSig Engine (Except TdpError (List Transaction)) ι) : Prop :=
  (∀ i, (c.threads i).prog.Spec Orderly (fun log result => Ends cr (k i) log result ∨
    ∃ waiter, ⟨.awaitResponse (k i) waiter, .senderDropped⟩ ∈ log) (c.threads i).log) ∧
  ∀ i, (c.threads i).prog.Spec Running
    (fun log _ => ∀ k, log.getLast? ≠ some ⟨.sendRequest k, false⟩) (c.threads i).log

variable {k : ι → UInt64}
  {c c' : Config engineSig Engine (Except TdpError (List Transaction)) ι}

omit [DecidableEq ι] in
theorem WaiterInv.waitersKept (hinv : WaiterInv c) (hspec : RequestsSpec cr k c) :
    WaitersKept cr k c where
  held i waiter hrun hreg hnone helapsed := by
    have hi := hspec.2 i
    cases hprog : (c.threads i).prog with
    | ret result =>
      rw [hprog] at hrun
      cases hrun
    | op o cont =>
      rw [hprog] at hi
      obtain ⟨⟨hreceived, hremoved, -⟩, -⟩ := hi
      refine hinv.held i (k i) waiter hreg hnone (fun r => ?_) (hremoved (k i))
      cases r with
      | received result => exact hreceived (k i) waiter result
      | elapsed => exact helapsed
      | senderDropped => exact hinv.undropped i (k i) waiter
  own := hinv.own
  ends i result hprog := by
    have hi := hspec.1 i
    rw [hprog] at hi
    have hends : Ends cr (k i) (c.threads i).log result := by
      rcases hi with hends | ⟨waiter, hdropped⟩
      · exact hends
      · exact absurd hdropped (hinv.undropped i (k i) waiter)
    exact ⟨hends, hends.ne_demuxClosed⟩

/-- A step that breaks the condition breaks the property at once: some call is
    left at a cleanup that removes another call's entry. -/
theorem undisputed_of_waitersKept (hinv : WaiterInv c) (hspec : RequestsSpec cr k c)
    {l : Label engineSig ι TemplateDistribution} (hstep : Step parInterp teeAct c l c')
    (hkept : WaitersKept cr k c') : Undisputed c l := by
  cases hstep with
  | env msg => trivial
  | @thread i o cont r s' hprog hI =>
    have htable := parInterp_requests hI
    cases o with
    | registerRequest k₀ =>
      intro hfree j hj
      by_contra hat
      obtain ⟨cont', hat⟩ := atCleanup_iff.mp (Bool.not_eq_false _ ▸ hat)
      generalize htdp : s'.tdp = tdp at htable
      cases htable with
      | other _ hreg => exact hreg k₀ rfl
      | refused _ htaken => exact htaken hfree
      | registered _ _ =>
        -- the other call would have registered the new waiter
        have hmem := hkept.own j k₀ cont' (by simpa [hj] using hat) c.shared.tdp.nextOneshot
          (by simp [htdp])
        have hold := hinv.fresh j k₀ c.shared.tdp.nextOneshot (by simpa [hj] using hmem)
        exact lt_irrefl _ hold
    | sendRequest k₀ =>
      intro hfail waiter hslot
      subst hfail
      have hi := hspec.2 i
      rw [hprog] at hi
      replace hi := hi.2 false
      generalize hnext : cont false = p at hi
      -- after a failed send the call is at its cleanup
      cases p with
      | ret result => exact absurd (by simp) (hi k₀)
      | op o' cont' =>
        obtain rfl : o' = .removePending k₀ := hi.1.2.2 k₀ (by simp)
        generalize htdp : s'.tdp = tdp at htable
        cases htable with
        | other =>
          have hmem := hkept.own i k₀ cont' (by simp [hnext]) waiter (by rw [← hslot, ← htdp])
          simpa using hmem
    | _ => trivial

/-- In every run in which no registration falls between another call's failure
    and its cleanup, and no send fails while another call holds the slot, no
    waiter is stolen; and a step keeps it so exactly under this condition. -/
theorem waiters_not_stolen {s : Engine} {k : ι → UInt64}
    {log : List (Label engineSig ι TemplateDistribution)}
    (h : Trace (fun c l c' => Step parInterp teeAct c l c' ∧ Undisputed c l)
      (requestCalls cr s k) log c) :
    WaitersKept cr k c ∧ ∀ l c', Step parInterp teeAct c l c' →
      (WaitersKept cr k c' ↔ Undisputed c l) := by
  have hrun : WaiterInv c ∧ RequestsSpec cr k c := by
    refine Trace.invariant (P := fun c => WaiterInv c ∧ RequestsSpec cr k c) ?_ h ⟨?_, ?_, ?_⟩
    · intro c l c' hc hstep
      obtain ⟨hinv, hspec⟩ := hc
      exact ⟨hinv.step hspec.1 hstep.1 hstep.2, hstep.1.spec hspec.1, hstep.1.spec hspec.2⟩
    · exact waiterInv_start s _ fun i k' cont heq => by cases heq
    · exact fun i => (requestTxBodies_orderly (k i) untouched_nil).imp fun _ _ h => h.2
    · exact fun i => requestTxBodies_running (k i)
  obtain ⟨hinv, hspec⟩ := hrun
  refine ⟨hinv.waitersKept hspec, fun l c' hstep => ⟨?_, ?_⟩⟩
  · exact undisputed_of_waitersKept hinv hspec hstep
  · intro hund
    exact (hinv.step hspec.1 hstep hund).waitersKept ⟨hstep.spec hspec.1, hstep.spec hspec.2⟩

end concurrent

end

/-- The operations of concurrent calls where a wait ends as soon as its sender
    is dropped. -/
def Env.wakeStep (env : Env) (s : Engine) : (o : Op) → o.Res × Engine
  | .awaitResponse k waiter =>
    if (s.tdp.oneshots.lookup waiter).isNone &&
        s.tdp.pendingRequests.entries.all (fun e => e.2 ≠ waiter) then (.senderDropped, s)
    else env.parStep s (.awaitResponse k waiter)
  | o => env.parStep s o

theorem wakeStep_interp (env : Env) (s : Engine) (o : Op) :
    parInterp s o (env.wakeStep s o).1 (env.wakeStep s o).2 := by
  cases o with
  | awaitResponse k waiter =>
    simp only [Env.wakeStep]
    split_ifs with hgone
    · rw [Bool.and_eq_true, Option.isNone_iff_eq_none, List.all_eq_true] at hgone
      refine ⟨hgone.1, fun k' hk' => ?_, rfl⟩
      have hne := hgone.2 ⟨k', waiter⟩ ((DashMap.mem_entries_iff _ _ _).mpr hk')
      simp at hne
    · exact parStep_interp env s (.awaitResponse k waiter)
  | _ => exact parStep_interp env s _

/-- Two calls request the bodies of template 1. -/
def Sample.twoRequests : Config engineSig Engine (Except TdpError (List Transaction)) Bool :=
  requestCalls Sample.crates Engine.new fun _ => 1

/-- The first call times out and cleans up before the second one starts. -/
def Sample.inTurn : List (Bool ⊕ TemplateDistribution) :=
  List.replicate 4 (.inl false) ++ List.replicate 2 (.inl true) ++ [Sample.answer, .inl true]

/-- The first call times out, its late response is delivered, and the second
    call registers before the first one cleans up. -/
def Sample.lateCleanup : List (Bool ⊕ TemplateDistribution) :=
  List.replicate 3 (.inl false) ++ [Sample.answer] ++ List.replicate 2 (.inl true) ++
    [.inl false] ++ List.replicate 2 (.inl true)

/-- The condition for two calls whose sends all succeed. -/
theorem undisputed_of_taken {α : Type} {c : Config engineSig Engine α Bool}
    {l : Label engineSig Bool TemplateDistribution}
    (h : (match l with
      | .thread i ⟨.registerRequest k, _⟩ => !atCleanup k (c.threads (!i)).prog
      | .thread _ ⟨.sendRequest _, taken⟩ => taken
      | _ => true) = true) : Undisputed c l := by
  match l with
  | .env msg => trivial
  | .thread i ⟨o, r⟩ =>
    cases o with
    | registerRequest k =>
      intro _ j hj
      obtain rfl : j = !i := by
        cases i <;> cases j <;> simp_all
      simpa using h
    | sendRequest k =>
      intro hfail
      have htaken : r = true := h
      rw [hfail] at htaken
      cases htaken
    | _ => trivial

/-- The second call has its waiter in the table and gets its response. -/
theorem waiters_not_stolen_in_turn :
    let c := Sample.twoRequests.play Sample.online.wakeStep teeAct Sample.inTurn
    (c.threads false).prog = .ret (.error (.timeout 1)) ∧
    (c.threads true).prog = .ret (.ok [Sample.body]) ∧
    WaitersKept Sample.crates (fun _ => 1) c := by
  intro c
  have htrace : Trace (fun c l c' => Step parInterp teeAct c l c' ∧ Undisputed c l)
      Sample.twoRequests _ c :=
    Config.moves_trace (G := Undisputed) _ teeAct (wakeStep_interp Sample.online) Sample.inTurn
      Sample.twoRequests fun x hx => undisputed_of_taken (List.all_eq_true.mp
        (by decide +kernel : ((Sample.twoRequests.moves Sample.online.wakeStep teeAct
          Sample.inTurn).all fun x => match x.2 with
            | .thread i ⟨.registerRequest k, _⟩ => !atCleanup k (x.1.threads (!i)).prog
            | .thread _ ⟨.sendRequest _, taken⟩ => taken
            | _ => true) = true) x hx)
  exact ⟨Prog.eq_ret_of_result? (by decide +kernel), Prog.eq_ret_of_result? (by decide +kernel),
    (waiters_not_stolen htrace).1⟩

/-- The cleanup of the first call removes the waiter of the second one, which
    ends with a closed demux. -/
theorem waiter_stolen_by_late_cleanup :
    let c := Sample.twoRequests.play Sample.online.wakeStep teeAct Sample.lateCleanup
    Reachable Sample.crates Sample.wiring Engine.new ∧
    Trace (Step parInterp teeAct) Sample.twoRequests
      ((Sample.twoRequests.moves Sample.online.wakeStep teeAct Sample.lateCleanup).map Prod.snd) c ∧
    (c.threads true).prog = .ret (.error .demuxClosed) ∧
    ¬ WaitersKept Sample.crates (fun _ => 1) c := by
  intro c
  have hret : (c.threads true).prog = .ret (.error .demuxClosed) :=
    Prog.eq_ret_of_result? (by decide +kernel)
  refine ⟨⟨[], rfl⟩, Config.play_run _ teeAct (wakeStep_interp Sample.online) _ _, hret,
    fun hkept => ?_⟩
  exact (hkept.ends true _ hret).2 rfl

end Sv2P2pool
