import Sv2P2pool.Preflight

/-! # Payout Bindings under Overlapping Calls

    An allocation looks the user up in the index, writes the token into
    `token_payout` and then into the index; an eviction removes the token
    from `token_payout` and then its entries from the index. Two allocations
    for one user can both pass the guard before either has written, and an
    eviction can repair the index before the allocation has written it.
-/

namespace Sv2P2pool

open ByteCodec Bitcoin Interleave

/-! ## The system -/

inductive PayoutCall where
  | allocate (resolver : String → Option ScriptBuf) (token : JdToken) (userIdentifier : String)
      (coinbaseOutputMaxAdditionalSize : Nat)
  | evict (token : JdToken)

section

variable (cr : Crates)

def PayoutCall.prog : PayoutCall → Handler (Option TxOut)
  | .allocate resolver token userIdentifier maxSize =>
    handleAllocateMiningJobToken cr resolver token userIdentifier maxSize
  | .evict token => dropTokenPayout token >>= fun _ => pure none

/-- The call allocates token `t` for a user. -/
def PayoutCall.Allocates (t : JdToken) (user : String) (call : PayoutCall) : Prop :=
  ∃ resolver userIdentifier maxSize, call = .allocate resolver t userIdentifier maxSize ∧
    normalizeIdentifier cr userIdentifier = user

/-- The calls on a fresh engine, none of which has started. -/
def payoutCalls {ι : Type} (call : ι → PayoutCall) : Config engineSig Engine (Option TxOut) ι :=
  ⟨Engine.new, fun i => ⟨(call i).prog cr, []⟩⟩

/-- When a call may perform an operation. -/
def PayoutConforms (call : PayoutCall) (log : List (Event engineSig)) : Op → Prop
  | .indexGet user => (∃ t, call.Allocates cr t user) ∧ log = []
  | .payoutInsert t _ => ∃ user x, call.Allocates cr t user ∧ log = [⟨.indexGet user, x⟩] ∧
    ∀ t', x = some t' → t' = t
  | .indexInsert user t => ∃ x script, call.Allocates cr t user ∧
    log = [⟨.indexGet user, x⟩, ⟨.payoutInsert t script, ()⟩]
  | .payoutRemove t => call = .evict t ∧ log = []
  | .indexDropToken t => ∃ script, call = .evict t ∧ log = [⟨.payoutRemove t, some script⟩]
  | _ => False

/-- A call that has returned has not left the maps half written. -/
def PayoutConcluded (log : List (Event engineSig)) (_ : Option TxOut) : Prop :=
  (∀ t script, ⟨.payoutInsert t script, ()⟩ ∈ log → ∃ user, ⟨.indexInsert user t, ()⟩ ∈ log) ∧
  (∀ t script, ⟨.payoutRemove t, some script⟩ ∈ log → ⟨.indexDropToken t, ()⟩ ∈ log)

variable {cr}

theorem allocate_conforms (resolver : String → Option ScriptBuf) (t : JdToken)
    (userIdentifier : String) (maxSize : Nat) :
    (handleAllocateMiningJobToken cr resolver t userIdentifier maxSize).Spec
      (PayoutConforms cr (.allocate resolver t userIdentifier maxSize)) PayoutConcluded [] := by
  have halloc : (PayoutCall.allocate resolver t userIdentifier maxSize).Allocates cr t
      (normalizeIdentifier cr userIdentifier) := ⟨resolver, userIdentifier, maxSize, rfl, rfl⟩
  unfold handleAllocateMiningJobToken
  simp only
  split_ifs
  · exact ⟨by simp, by simp⟩
  · cases resolver (normalizeIdentifier cr userIdentifier) with
    | none => exact ⟨by simp, by simp⟩
    | some script =>
      refine ⟨⟨⟨t, halloc⟩, rfl⟩, fun x => ?_⟩
      show (if _ then _ else _ : Handler (Option TxOut)).Spec _ _ _
      split_ifs with hother hsize
      · exact ⟨by simp, by simp⟩
      · exact ⟨by simp, by simp⟩
      · refine ⟨⟨_, x, halloc, rfl, fun t' hx => ?_⟩, fun _ => ⟨⟨x, script, halloc, rfl⟩,
          fun _ => ⟨fun t' script' hmem => ?_, by simp⟩⟩⟩
        · subst hx
          simpa using hother
        · have heq : t' = t ∧ script' = script := by simpa using hmem
          exact ⟨normalizeIdentifier cr userIdentifier, by simp [heq.1]⟩

theorem evict_conforms (t : JdToken) :
    ((PayoutCall.evict t).prog cr).Spec (PayoutConforms cr (.evict t)) PayoutConcluded [] := by
  refine ⟨⟨rfl, rfl⟩, fun removed => ?_⟩
  cases removed with
  | none => exact ⟨by simp, by simp⟩
  | some script =>
    refine ⟨⟨script, rfl, rfl⟩, fun _ => ⟨by simp, fun t' script' hmem => ?_⟩⟩
    rcases List.mem_append.mp hmem with hmem | hmem
    · cases List.mem_singleton.mp hmem
      simp
    · cases List.mem_singleton.mp hmem

theorem payoutCall_conforms (call : PayoutCall) :
    (call.prog cr).Spec (PayoutConforms cr call) PayoutConcluded [] := by
  cases call with
  | allocate resolver t userIdentifier maxSize =>
    exact allocate_conforms resolver t userIdentifier maxSize
  | evict t => exact evict_conforms t

/-! ## The steps -/

/-- What a step of a call does to the two maps, and where the call stands. -/
inductive BindStep (cr : Crates) (call : PayoutCall) (log : List (Event engineSig))
    (s s' : Engine) : Event engineSig → Prop where
  | looked (t : JdToken) (user : String) (halloc : call.Allocates cr t user) (hlog : log = [])
      (hpayout : s'.tokenPayout = s.tokenPayout)
      (hindex : s'.userIdentifierIndex = s.userIdentifierIndex) :
      BindStep cr call log s s' ⟨.indexGet user, s.userIdentifierIndex.lookup user⟩
  | bound (t : JdToken) (user : String) (x : Option JdToken) (script : ScriptBuf)
      (halloc : call.Allocates cr t user) (hlog : log = [⟨.indexGet user, x⟩])
      (hpayout : s'.tokenPayout = s.tokenPayout.insert t script)
      (hindex : s'.userIdentifierIndex = s.userIdentifierIndex) :
      BindStep cr call log s s' ⟨.payoutInsert t script, ()⟩
  | indexed (t : JdToken) (user : String) (x : Option JdToken) (script : ScriptBuf)
      (halloc : call.Allocates cr t user)
      (hlog : log = [⟨.indexGet user, x⟩, ⟨.payoutInsert t script, ()⟩])
      (hpayout : s'.tokenPayout = s.tokenPayout)
      (hindex : s'.userIdentifierIndex = s.userIdentifierIndex.insert user t) :
      BindStep cr call log s s' ⟨.indexInsert user t, ()⟩
  | removed (t : JdToken) (hcall : call = .evict t) (hlog : log = [])
      (hpayout : s'.tokenPayout = s.tokenPayout.erase t)
      (hindex : s'.userIdentifierIndex = s.userIdentifierIndex) :
      BindStep cr call log s s' ⟨.payoutRemove t, s.tokenPayout.lookup t⟩
  | dropped (t : JdToken) (script : ScriptBuf) (hcall : call = .evict t)
      (hlog : log = [⟨.payoutRemove t, some script⟩])
      (hpayout : s'.tokenPayout = s.tokenPayout)
      (hindex : s'.userIdentifierIndex =
        DashMap.retain (fun _ bound => bound ≠ t) s.userIdentifierIndex) :
      BindStep cr call log s s' ⟨.indexDropToken t, ()⟩

theorem bindStep {call : PayoutCall} {log : List (Event engineSig)} {s s' : Engine} {o : Op}
    {res : o.Res} (hconf : PayoutConforms cr call log o) (hI : parInterp s o res s') :
    BindStep cr call log s s' ⟨o, res⟩ := by
  cases o with
  | indexGet user =>
    obtain ⟨⟨t, halloc⟩, hlog⟩ := hconf
    obtain ⟨env, heq⟩ := hI
    obtain ⟨rfl, rfl⟩ := Prod.mk.inj heq
    exact .looked t user halloc hlog rfl rfl
  | payoutInsert t script =>
    obtain ⟨user, x, halloc, hlog, -⟩ := hconf
    obtain ⟨env, heq⟩ := hI
    obtain ⟨rfl, rfl⟩ := Prod.mk.inj heq
    exact .bound t user x script halloc hlog rfl rfl
  | indexInsert user t =>
    obtain ⟨x, script, halloc, hlog⟩ := hconf
    obtain ⟨env, heq⟩ := hI
    obtain ⟨rfl, rfl⟩ := Prod.mk.inj heq
    exact .indexed t user x script halloc hlog rfl rfl
  | payoutRemove t =>
    obtain ⟨hcall, hlog⟩ := hconf
    obtain ⟨env, heq⟩ := hI
    obtain ⟨rfl, rfl⟩ := Prod.mk.inj heq
    exact .removed t hcall hlog rfl rfl
  | indexDropToken t =>
    obtain ⟨script, hcall, hlog⟩ := hconf
    obtain ⟨env, heq⟩ := hI
    obtain ⟨rfl, rfl⟩ := Prod.mk.inj heq
    exact .dropped t script hcall hlog rfl rfl
  | _ => exact hconf.elim

section runs

variable {ι : Type} [DecidableEq ι] {call : ι → PayoutCall}
  {labels : List (Label engineSig ι TemplateDistribution)}
  {c c' : Config engineSig Engine (Option TxOut) ι}

/-- One operation of a call or one Template Provider message. -/
abbrev PayoutStep : Config engineSig Engine (Option TxOut) ι →
    Label engineSig ι TemplateDistribution → Config engineSig Engine (Option TxOut) ι → Prop :=
  Step parInterp teeAct

theorem payoutConforms_of_trace (h : Trace PayoutStep (payoutCalls cr call) labels c) (i : ι) :
    (c.threads i).prog.Spec (PayoutConforms cr (call i)) PayoutConcluded (c.threads i).log ∧
      Logged (PayoutConforms cr (call i)) (c.threads i).log :=
  spec_of_trace (P := fun i => PayoutConforms cr (call i)) (Q := fun _ => PayoutConcluded)
    (fun i => payoutCall_conforms (call i)) (fun _ => logged_nil _) h i

/-- When an allocation writes its index entry, no other allocation for the user
    has passed the guard and is still under way; when an eviction repairs the
    index, the allocation of its token is not under way. -/
def Separated (cr : Crates) (call : ι → PayoutCall) (c : Config engineSig Engine (Option TxOut) ι) :
    Label engineSig ι TemplateDistribution → Prop
  | .thread i ⟨.indexInsert user _, _⟩ =>
    ∀ j t, j ≠ i → (call j).Allocates cr t user → ¬ (c.threads j).MidFlight
  | .thread i ⟨.indexDropToken t, _⟩ =>
    ∀ j user, j ≠ i → (call j).Allocates cr t user → ¬ (c.threads j).MidFlight
  | _ => True

/-! ## The invariant -/

/-- Where the payouts come from and where they go. -/
structure PayoutLog (c : Config engineSig Engine (Option TxOut) ι) : Prop where
  /-- A token with a payout was bound by a call. -/
  source : ∀ t script, c.shared.tokenPayout.lookup t = some script →
    ∃ i script', ⟨.payoutInsert t script', ()⟩ ∈ (c.threads i).log
  /-- A bound token has its payout until an eviction has removed it. -/
  committed : ∀ i t script, ⟨.payoutInsert t script, ()⟩ ∈ (c.threads i).log →
    (c.shared.tokenPayout.lookup t).isSome = true ∨
      ∃ e script', ⟨.payoutRemove t, some script'⟩ ∈ (c.threads e).log
  /-- A removed token was bound before and is not bound again. -/
  evicted : ∀ e t script, ⟨.payoutRemove t, some script⟩ ∈ (c.threads e).log →
    c.shared.tokenPayout.lookup t = none ∧
      ∃ i script', ⟨.payoutInsert t script', ()⟩ ∈ (c.threads i).log

/-- How the index and the logs of the calls fit together. -/
structure BindInv (cr : Crates) (call : ι → PayoutCall)
    (c : Config engineSig Engine (Option TxOut) ι) : Prop where
  payouts : PayoutLog c
  /-- The index is repaired only after the allocation has written it. -/
  repaired : ∀ e t i user, ⟨.indexDropToken t, ()⟩ ∈ (c.threads e).log →
    (call i).Allocates cr t user → (c.threads i).log ≠ [] ∧ ¬ (c.threads i).MidFlight
  /-- The index names tokens with a payout or ones being evicted. -/
  entry : ∀ user t, c.shared.userIdentifierIndex.lookup user = some t →
    (c.shared.tokenPayout.lookup t).isSome = true ∨
      ∃ e script, ⟨.payoutRemove t, some script⟩ ∈ (c.threads e).log ∧
        ⟨.indexDropToken t, ()⟩ ∉ (c.threads e).log
  /-- A finished allocation whose token has its payout is the user's entry. -/
  indexed : ∀ i t user, (call i).Allocates cr t user →
    ⟨.indexInsert user t, ()⟩ ∈ (c.threads i).log →
    (c.shared.tokenPayout.lookup t).isSome = true →
    c.shared.userIdentifierIndex.lookup user = some t
  /-- While it has, no other allocation of the user is past the guard. -/
  exclusive : ∀ i j t t' user, (call i).Allocates cr t user → (call j).Allocates cr t' user →
    i ≠ j → ⟨.indexInsert user t, ()⟩ ∈ (c.threads i).log →
    (c.shared.tokenPayout.lookup t).isSome = true → ¬ (c.threads j).MidFlight

omit [DecidableEq ι] in
theorem bindInv_start : BindInv cr call (payoutCalls cr call) where
  payouts :=
    { source := fun t script h => by cases h
      committed := fun i t script h => by cases h
      evicted := fun e t script h => by cases h }
  repaired e t i user h := by cases h
  entry user t h := by cases h
  indexed i t user _ h := by cases h
  exclusive i j t t' user _ _ _ h := by cases h

/-- No two allocations are for one token. -/
def DistinctTokens (cr : Crates) (call : ι → PayoutCall) : Prop :=
  ∀ i j t user user', (call i).Allocates cr t user → (call j).Allocates cr t user' → i = j

omit [DecidableEq ι] in
theorem not_allocates_of_evict {i : ι} {t t' : JdToken} {user : String}
    (hcall : call i = .evict t) : ¬ (call i).Allocates cr t' user := by
  intro halloc
  obtain ⟨resolver, userIdentifier, maxSize, heq, -⟩ := halloc
  rw [hcall] at heq
  cases heq

omit [DecidableEq ι] in
theorem ne_of_allocates {i j : ι} {t t' : JdToken} {user : String} (hcall : call i = .evict t)
    (halloc : (call j).Allocates cr t' user) : j ≠ i := by
  intro heq
  subst heq
  exact not_allocates_of_evict hcall halloc

/-- The allocation that has bound a token. -/
theorem allocates_of_bound (h : Trace PayoutStep (payoutCalls cr call) labels c) {i : ι}
    {t : JdToken} {script : ScriptBuf}
    (hmem : ⟨.payoutInsert t script, ()⟩ ∈ (c.threads i).log) :
    ∃ user, (call i).Allocates cr t user := by
  obtain ⟨before, -, user, x, halloc, -⟩ := (payoutConforms_of_trace h i).2.mem hmem
  exact ⟨user, halloc⟩

section steps

variable {i : ι} {o : Op} {k : o.Res → Handler (Option TxOut)} {p : Handler (Option TxOut)}
  {s' : Engine} {t : JdToken} {user : String} {x : Option JdToken} {script : ScriptBuf}

/-- A step on the index leaves the payouts alone. -/
theorem PayoutLog.index (hinv : PayoutLog c) {e : Event engineSig}
    (hbind : ∀ t script, e.1 ≠ .payoutInsert t script) (hremove : ∀ t, e.1 ≠ .payoutRemove t)
    (hpayout : s'.tokenPayout = c.shared.tokenPayout) :
    PayoutLog ⟨s', Function.update c.threads i ⟨p, (c.threads i).log ++ [e]⟩⟩ where
  source t' script' h := by
    rw [hpayout] at h
    obtain ⟨j, script'', hmem⟩ := hinv.source t' script' h
    exact ⟨j, script'', mem_log_update_of_mem hmem⟩
  committed j t' script' h := by
    rw [hpayout]
    replace h := mem_log_of_update h (hbind t' script').symm
    refine (hinv.committed j t' script' h).imp_right fun h => ?_
    obtain ⟨e, script'', hmem⟩ := h
    exact ⟨e, script'', mem_log_update_of_mem hmem⟩
  evicted e t' script' h := by
    rw [hpayout]
    replace h := mem_log_of_update h (hremove t').symm
    obtain ⟨hnone, j, script'', hmem⟩ := hinv.evicted e t' script' h
    exact ⟨hnone, j, script'', mem_log_update_of_mem hmem⟩

/-- An eviction under way stays so until it repairs the index. -/
theorem evicting_update {e₀ : Event engineSig} (hrepair : ∀ t, e₀.1 ≠ .indexDropToken t)
    (h : ∃ e script, ⟨.payoutRemove t, some script⟩ ∈ (c.threads e).log ∧
      ⟨.indexDropToken t, ()⟩ ∉ (c.threads e).log) :
    ∃ e script, ⟨.payoutRemove t, some script⟩ ∈
        (Function.update c.threads i ⟨p, (c.threads i).log ++ [e₀]⟩ e).log ∧
      ⟨.indexDropToken t, ()⟩ ∉
        (Function.update c.threads i ⟨p, (c.threads i).log ++ [e₀]⟩ e).log := by
  obtain ⟨e, script, hmem, hno⟩ := h
  exact ⟨e, script, mem_log_update_of_mem hmem,
    fun hdrop => hno (mem_log_of_update hdrop (hrepair t).symm)⟩

/-- A step of a call that is no finished allocation leaves those that are. -/
theorem BindInv.repaired_update (hinv : BindInv cr call c) {e₀ : Event engineSig}
    (hrepair : ∀ t, e₀.1 ≠ .indexDropToken t)
    (hi : ∀ t user, (call i).Allocates cr t user →
      (c.threads i).log = [] ∨ (c.threads i).MidFlight) {e j : ι}
    (h : ⟨.indexDropToken t, ()⟩ ∈
      (Function.update c.threads i ⟨p, (c.threads i).log ++ [e₀]⟩ e).log)
    (halloc : (call j).Allocates cr t user) :
    (Function.update c.threads i ⟨p, (c.threads i).log ++ [e₀]⟩ j).log ≠ [] ∧
      ¬ (Function.update c.threads i ⟨p, (c.threads i).log ++ [e₀]⟩ j).MidFlight := by
  obtain ⟨hne, hnot⟩ := hinv.repaired e t j user (mem_log_of_update h (hrepair t).symm) halloc
  have hij : j ≠ i := by
    intro heq
    subst heq
    rcases hi t user halloc with hlog | hmid
    · exact hne hlog
    · exact hnot hmid
  exact ⟨by simpa [hij] using hne, by rwa [midFlight_update hij]⟩

/-- A call that goes on after its lookup has found no token but its own. -/
theorem guard_passed {call : PayoutCall}
    (hspec : p.Spec (PayoutConforms cr call) PayoutConcluded [⟨.indexGet user, x⟩])
    (hp : p.result? = none) :
    ∃ t, call.Allocates cr t user ∧ ∀ t', x = some t' → t' = t := by
  cases p with
  | ret a => cases hp
  | op o k =>
    have hconf := hspec.1
    cases o with
    | indexGet user' => exact absurd hconf.2 (by simp)
    | payoutInsert t script =>
      obtain ⟨user', x', halloc, heq, hx⟩ := hconf
      cases heq
      exact ⟨t, halloc, hx⟩
    | indexInsert user' t =>
      obtain ⟨x', script, -, heq⟩ := hconf
      simp at heq
    | payoutRemove t => exact absurd hconf.2 (by simp)
    | indexDropToken t =>
      obtain ⟨script, -, heq⟩ := hconf
      simp at heq
    | _ => exact hconf.elim

/-- The lookup: a call past the guard has the user to itself. -/
theorem BindInv.looked (hinv : BindInv cr call c) (hdistinct : DistinctTokens cr call)
    (halloc : (call i).Allocates cr t user) (hlog : (c.threads i).log = [])
    (hpayout : s'.tokenPayout = c.shared.tokenPayout)
    (hindex : s'.userIdentifierIndex = c.shared.userIdentifierIndex)
    (hspec : p.Spec (PayoutConforms cr (call i)) PayoutConcluded
      ((c.threads i).log ++ [⟨.indexGet user, c.shared.userIdentifierIndex.lookup user⟩])) :
    BindInv cr call ⟨s', Function.update c.threads i ⟨p, (c.threads i).log ++
      [⟨.indexGet user, c.shared.userIdentifierIndex.lookup user⟩]⟩⟩ where
  payouts := hinv.payouts.index (by simp) (by simp) hpayout
  repaired e t' j user' h halloc' :=
    hinv.repaired_update (by simp) (fun _ _ _ => Or.inl hlog) h halloc'
  entry user' t' h := by
    rw [hindex] at h
    rw [hpayout]
    exact (hinv.entry user' t' h).imp_right (evicting_update (by simp))
  indexed j t' user' halloc' h hlive := by
    rw [hpayout] at hlive
    rw [hindex]
    exact hinv.indexed j t' user' halloc' (mem_log_of_update h (by simp)) hlive
  exclusive a j t' t'' user' ha hj haj h hlive hmid := by
    rw [hpayout] at hlive
    replace h := mem_log_of_update h (by simp)
    by_cases hij : j = i
    · -- the index has the token of `a`, so a call past the guard is `a`
      subst hij
      rw [hlog] at hspec
      obtain ⟨t₀, halloc₀, hx⟩ := guard_passed hspec (by simpa [Thread.MidFlight] using hmid)
      obtain ⟨_, _, _, hcall, rfl⟩ := halloc
      obtain ⟨_, _, _, hcall', rfl⟩ := hj
      rw [hcall] at hcall'
      cases hcall'
      have heq := hx t' (hinv.indexed a t' _ ha h hlive)
      subst heq
      exact haj (hdistinct a j t' _ _ ha halloc₀)
    · rw [midFlight_update hij] at hmid
      exact hinv.exclusive a j t' t'' user' ha hj haj h hlive hmid

/-- The payout is written by a call that is past the guard. -/
theorem BindInv.bound (hrun : Trace PayoutStep (payoutCalls cr call) labels c)
    (hinv : BindInv cr call c) (hdistinct : DistinctTokens cr call)
    (halloc : (call i).Allocates cr t user) (hlog : (c.threads i).log = [⟨.indexGet user, x⟩])
    (hmid : (c.threads i).MidFlight)
    (hpayout : s'.tokenPayout = c.shared.tokenPayout.insert t script)
    (hindex : s'.userIdentifierIndex = c.shared.userIdentifierIndex) :
    BindInv cr call ⟨s', Function.update c.threads i ⟨p, (c.threads i).log ++
      [⟨.payoutInsert t script, ()⟩]⟩⟩ := by
  -- tokens are distinct, so nothing was written under this one yet
  have hfresh : ∀ j script', ⟨.payoutInsert t script', ()⟩ ∉ (c.threads j).log := by
    intro j script' hmem
    obtain ⟨user', halloc'⟩ := allocates_of_bound hrun hmem
    obtain rfl := hdistinct j i t user' user halloc' halloc
    simp [hlog] at hmem
  have hother : ∀ j t' user', (call j).Allocates cr t' user' →
      ⟨.indexInsert user' t', ()⟩ ∈ (c.threads j).log → t' ≠ t := by
    intro j t' user' halloc' hmem heq
    subst heq
    obtain rfl := hdistinct j i t' user' user halloc' halloc
    simp [hlog] at hmem
  have hkeep : ∀ t', (c.shared.tokenPayout.lookup t').isSome = true →
      (s'.tokenPayout.lookup t').isSome = true := by
    intro t' h
    rw [hpayout, DashMap.lookup_insert_eq]
    split_ifs
    · rfl
    · exact h
  have hback : ∀ t', t' ≠ t → s'.tokenPayout.lookup t' = c.shared.tokenPayout.lookup t' := by
    intro t' hne
    rw [hpayout, DashMap.lookup_insert_eq, if_neg hne]
  refine ⟨⟨fun t' script' h => ?_, fun j t' script' h => ?_, fun e t' script' h => ?_⟩,
    fun e t' j user' h halloc' => ?_, fun user' t' h => ?_, fun j t' user' halloc' h hlive => ?_,
    fun a j t' t'' user' ha hj haj h hlive => ?_⟩
  · by_cases heq : t' = t
    · subst heq
      exact ⟨i, script, mem_log_update.mpr (Or.inr ⟨rfl, rfl⟩)⟩
    · rw [hback t' heq] at h
      obtain ⟨j, script'', hmem⟩ := hinv.payouts.source t' script' h
      exact ⟨j, script'', mem_log_update_of_mem hmem⟩
  · rcases mem_log_update.mp h with h | ⟨rfl, heq⟩
    · refine (hinv.payouts.committed j t' script' h).imp (hkeep t') fun h => ?_
      obtain ⟨e, script'', hmem⟩ := h
      exact ⟨e, script'', mem_log_update_of_mem hmem⟩
    · cases heq
      exact Or.inl (by rw [hpayout, AList.lookup_insert]; rfl)
  · replace h := mem_log_of_update h (by simp)
    obtain ⟨hnone, j, script'', hmem⟩ := hinv.payouts.evicted e t' script' h
    have hne : t' ≠ t := by
      intro heq
      subst heq
      exact hfresh j script'' hmem
    exact ⟨by rw [hback t' hne, hnone], j, script'', mem_log_update_of_mem hmem⟩
  · exact hinv.repaired_update (by simp) (fun _ _ _ => Or.inr hmid) h halloc'
  · rw [hindex] at h
    exact (hinv.entry user' t' h).imp (hkeep t') (evicting_update (by simp))
  · replace h := mem_log_of_update h (by simp)
    rw [hback t' (hother j t' user' halloc' h)] at hlive
    rw [hindex]
    exact hinv.indexed j t' user' halloc' h hlive
  · replace h := mem_log_of_update h (by simp)
    rw [hback t' (hother a t' user' ha h)] at hlive
    have hnot := hinv.exclusive a j t' t'' user' ha hj haj h hlive
    have hij : j ≠ i := by
      intro heq
      subst heq
      exact hnot hmid
    rwa [midFlight_update hij]

/-- The index entry is written while no other allocation of the user is past
    the guard. -/
theorem BindInv.write (hinv : BindInv cr call c) (halloc : (call i).Allocates cr t user)
    (hlog : (c.threads i).log = [⟨.indexGet user, x⟩, ⟨.payoutInsert t script, ()⟩])
    (hmid : (c.threads i).MidFlight)
    (hsep : ∀ j t, j ≠ i → (call j).Allocates cr t user → ¬ (c.threads j).MidFlight)
    (hpayout : s'.tokenPayout = c.shared.tokenPayout)
    (hindex : s'.userIdentifierIndex = c.shared.userIdentifierIndex.insert user t) :
    BindInv cr call ⟨s', Function.update c.threads i ⟨p, (c.threads i).log ++
      [⟨.indexInsert user t, ()⟩]⟩⟩ where
  payouts := hinv.payouts.index (by simp) (by simp) hpayout
  repaired e t' j user' h halloc' :=
    hinv.repaired_update (by simp) (fun _ _ _ => Or.inr hmid) h halloc'
  entry user' t' h := by
    rw [hindex, DashMap.lookup_insert_eq] at h
    rw [hpayout]
    split_ifs at h with heq
    · -- an eviction that has removed the payout has not yet repaired the index
      cases h
      refine (hinv.payouts.committed i t script (by simp [hlog])).imp_right fun h => ?_
      obtain ⟨e, script', hmem⟩ := h
      refine evicting_update (by simp) ⟨e, script', hmem, fun hdrop => ?_⟩
      exact (hinv.repaired e t i user hdrop halloc).2 hmid
    · exact (hinv.entry user' t' h).imp_right (evicting_update (by simp))
  indexed j t' user' halloc' h hlive := by
    rw [hpayout] at hlive
    rw [hindex, DashMap.lookup_insert_eq]
    rcases mem_log_update.mp h with hold | ⟨rfl, heq⟩
    · split_ifs with huser
      · subst huser
        have hij : j ≠ i := by
          intro heq
          subst heq
          simp [hlog] at hold
        exact absurd hmid (hinv.exclusive j i t' t user' halloc' halloc hij hold hlive)
      · exact hinv.indexed j t' user' halloc' hold hlive
    · cases heq
      simp
  exclusive a j t' t'' user' ha hj haj h hlive := by
    rw [hpayout] at hlive
    rcases mem_log_update.mp h with h | ⟨rfl, heq⟩
    · have hnot := hinv.exclusive a j t' t'' user' ha hj haj h hlive
      have hij : j ≠ i := by
        intro heq
        subst heq
        exact hnot hmid
      rwa [midFlight_update hij]
    · cases heq
      rw [midFlight_update haj.symm]
      exact hsep j t'' haj.symm hj

/-- An eviction removes a payout. -/
theorem BindInv.remove (hinv : BindInv cr call c) (hcall : call i = .evict t)
    (hlog : (c.threads i).log = [])
    (hpayout : s'.tokenPayout = c.shared.tokenPayout.erase t)
    (hindex : s'.userIdentifierIndex = c.shared.userIdentifierIndex) :
    BindInv cr call ⟨s', Function.update c.threads i ⟨p, (c.threads i).log ++
      [⟨.payoutRemove t, c.shared.tokenPayout.lookup t⟩]⟩⟩ := by
  have hback : ∀ t' script', s'.tokenPayout.lookup t' = some script' →
      c.shared.tokenPayout.lookup t' = some script' := by
    intro t' script' h
    rw [hpayout, DashMap.lookup_erase_eq] at h
    split_ifs at h
    exact h
  have hlives : ∀ t', (s'.tokenPayout.lookup t').isSome = true →
      (c.shared.tokenPayout.lookup t').isSome = true := by
    intro t' h
    obtain ⟨script', h⟩ := Option.isSome_iff_exists.mp h
    exact Option.isSome_iff_exists.mpr ⟨script', hback t' script' h⟩
  -- what had a payout keeps it, or this step has removed it
  have hkeep : ∀ t', (c.shared.tokenPayout.lookup t').isSome = true →
      (s'.tokenPayout.lookup t').isSome = true ∨ t' = t ∧ ∃ script',
        (⟨.payoutRemove t', some script'⟩ : Event engineSig) =
          ⟨.payoutRemove t, c.shared.tokenPayout.lookup t⟩ := by
    intro t' h
    by_cases heq : t' = t
    · subst heq
      obtain ⟨script', h⟩ := Option.isSome_iff_exists.mp h
      exact Or.inr ⟨rfl, script', by rw [h]⟩
    · exact Or.inl (by rw [hpayout, DashMap.lookup_erase_eq, if_neg heq]; exact h)
  refine ⟨⟨fun t' script' h => ?_, fun j t' script' h => ?_, fun e t' script' h => ?_⟩,
    fun e t' j user' h halloc' => ?_, fun user' t' h => ?_, fun j t' user' halloc' h hlive => ?_,
    fun a j t' t'' user' ha hj haj h hlive => ?_⟩
  · obtain ⟨j, script'', hmem⟩ := hinv.payouts.source t' script' (hback t' script' h)
    exact ⟨j, script'', mem_log_update_of_mem hmem⟩
  · rcases hinv.payouts.committed j t' script' (mem_log_of_update h (by simp)) with
      hsome | ⟨e, script'', hmem⟩
    · refine (hkeep t' hsome).imp_right fun hnew => ?_
      obtain ⟨rfl, script'', heq⟩ := hnew
      exact ⟨i, script'', mem_log_update.mpr (Or.inr ⟨rfl, heq⟩)⟩
    · exact Or.inr ⟨e, script'', mem_log_update_of_mem hmem⟩
  · rcases mem_log_update.mp h with h | ⟨rfl, heq⟩
    · obtain ⟨hnone, j, script'', hmem⟩ := hinv.payouts.evicted e t' script' h
      refine ⟨?_, j, script'', mem_log_update_of_mem hmem⟩
      rw [hpayout, DashMap.lookup_erase_eq, hnone, ite_self]
    · obtain ⟨hop, hscript⟩ := Sigma.mk.inj heq
      cases hop
      obtain ⟨j, script'', hmem⟩ := hinv.payouts.source _ script' (eq_of_heq hscript).symm
      exact ⟨by rw [hpayout, AList.lookup_erase], j, script'', mem_log_update_of_mem hmem⟩
  · exact hinv.repaired_update (by simp)
      (fun _ _ hi => absurd hi (not_allocates_of_evict hcall)) h halloc'
  · rw [hindex] at h
    rcases hinv.entry user' t' h with hsome | hevicting
    · refine (hkeep t' hsome).imp_right fun hnew => ?_
      obtain ⟨rfl, script', heq⟩ := hnew
      exact ⟨i, script', mem_log_update.mpr (Or.inr ⟨rfl, heq⟩), by simp [hlog]⟩
    · exact Or.inr (evicting_update (by simp) hevicting)
  · rw [hindex]
    exact hinv.indexed j t' user' halloc' (mem_log_of_update h (by simp)) (hlives t' hlive)
  · have hij := ne_of_allocates hcall hj
    rw [midFlight_update hij]
    exact hinv.exclusive a j t' t'' user' ha hj haj (mem_log_of_update h (by simp))
      (hlives t' hlive)

/-- The index is repaired while the allocation of the token is not under way. -/
theorem BindInv.repair (hrun : Trace PayoutStep (payoutCalls cr call) labels c)
    (hinv : BindInv cr call c) (hdistinct : DistinctTokens cr call) (hcall : call i = .evict t)
    (hlog : (c.threads i).log = [⟨.payoutRemove t, some script⟩])
    (hsep : ∀ j user, j ≠ i → (call j).Allocates cr t user → ¬ (c.threads j).MidFlight)
    (hpayout : s'.tokenPayout = c.shared.tokenPayout)
    (hindex : s'.userIdentifierIndex =
      DashMap.retain (fun _ bound => bound ≠ t) c.shared.userIdentifierIndex) :
    BindInv cr call ⟨s', Function.update c.threads i ⟨p, (c.threads i).log ++
      [⟨.indexDropToken t, ()⟩]⟩⟩ := by
  obtain ⟨hnone, b, script', hbound⟩ := hinv.payouts.evicted i t script (by simp [hlog])
  refine ⟨hinv.payouts.index (by simp) (by simp) hpayout, fun e t' j user' h halloc' => ?_,
    fun user' t' h => ?_, fun j t' user' halloc' h hlive => ?_,
    fun a j t' t'' user' ha hj haj h hlive => ?_⟩
  · have hij := ne_of_allocates hcall halloc'
    rw [midFlight_update hij]
    rcases mem_log_update.mp h with h | ⟨rfl, heq⟩
    · obtain ⟨hne, hnot⟩ := hinv.repaired e t' j user' h halloc'
      exact ⟨by simpa [hij] using hne, hnot⟩
    · cases heq
      -- the payout was bound by this allocation
      obtain ⟨user'', halloc''⟩ := allocates_of_bound hrun hbound
      obtain rfl := hdistinct b j t user'' user' halloc'' halloc'
      exact ⟨by simpa [hij] using List.ne_nil_of_mem hbound, hsep b user' hij halloc'⟩
  · rw [hindex, DashMap.lookup_retain_eq_some] at h
    obtain ⟨h, hne⟩ := h
    rw [hpayout]
    refine (hinv.entry user' t' h).imp_right fun h => ?_
    obtain ⟨e, script'', hmem, hno⟩ := h
    refine ⟨e, script'', mem_log_update_of_mem hmem, fun hdrop => hno ?_⟩
    refine mem_log_of_update hdrop fun heq => ?_
    cases heq
    simp at hne
  · rw [hpayout] at hlive
    rw [hindex, DashMap.lookup_retain_eq_some]
    refine ⟨hinv.indexed j t' user' halloc' (mem_log_of_update h (by simp)) hlive, ?_⟩
    have hne : t' ≠ t := by
      intro heq
      subst heq
      rw [hnone] at hlive
      cases hlive
    simpa using hne
  · rw [hpayout] at hlive
    have hij := ne_of_allocates hcall hj
    rw [midFlight_update hij]
    exact hinv.exclusive a j t' t'' user' ha hj haj (mem_log_of_update h (by simp)) hlive

end steps

theorem bindInv (hdistinct : DistinctTokens cr call)
    (h : Trace (fun c l c' => PayoutStep c l c' ∧ Separated cr call c l) (payoutCalls cr call)
      labels c) : BindInv cr call c := by
  refine Trace.run_induction (P := fun _ => BindInv cr call) bindInv_start ?_ labels h
  intro labels c l c' hrun hinv hstep
  replace hrun : Trace PayoutStep _ labels c := hrun.imp fun _ _ _ h => h.1
  obtain ⟨hstep, hsep⟩ := hstep
  cases hstep with
  | env msg =>
    exact ⟨⟨hinv.payouts.source, hinv.payouts.committed, hinv.payouts.evicted⟩, hinv.repaired,
      hinv.entry, hinv.indexed, hinv.exclusive⟩
  | @thread i o k res s' hprog hI =>
    have hspec := (payoutConforms_of_trace hrun i).1
    rw [hprog] at hspec
    have hmid : (c.threads i).log ≠ [] → (c.threads i).MidFlight := Thread.midFlight_of_op hprog
    cases bindStep hspec.1 hI with
    | looked t user halloc hlog hpayout hindex =>
      exact hinv.looked hdistinct halloc hlog hpayout hindex (hspec.2 _)
    | bound t user x script halloc hlog hpayout hindex =>
      exact hinv.bound hrun hdistinct halloc hlog (hmid (by simp [hlog])) hpayout hindex
    | indexed t user x script halloc hlog hpayout hindex =>
      exact hinv.write halloc hlog (hmid (by simp [hlog])) hsep hpayout hindex
    | removed t hcall hlog hpayout hindex => exact hinv.remove hcall hlog hpayout hindex
    | dropped t script hcall hlog hpayout hindex =>
      exact hinv.repair hrun hdistinct hcall hlog hsep hpayout hindex

/-! ## The bindings when no call is under way -/

/-- Token `t` was allocated for the user and has its payout. -/
def BoundTo (cr : Crates) (call : ι → PayoutCall) (c : Config engineSig Engine (Option TxOut) ι)
    (user : String) (t : JdToken) : Prop :=
  (∃ i, (call i).Allocates cr t user) ∧ (c.shared.tokenPayout.lookup t).isSome = true

omit [DecidableEq ι] in
theorem allocates_inj {i : ι} {t t' : JdToken} {user user' : String}
    (h : (call i).Allocates cr t user) (h' : (call i).Allocates cr t' user') : user = user' := by
  obtain ⟨_, _, _, hcall, rfl⟩ := h
  obtain ⟨_, _, _, hcall', rfl⟩ := h'
  rw [hcall] at hcall'
  cases hcall'
  rfl

/-- A call that has begun and is not under way has returned. -/
theorem concluded_of_quiet (hrun : Trace PayoutStep (payoutCalls cr call) labels c) {i : ι}
    (hquiet : ¬ (c.threads i).MidFlight) (hlog : (c.threads i).log ≠ []) :
    ∃ a, PayoutConcluded (c.threads i).log a := by
  have hspec := (payoutConforms_of_trace hrun i).1
  cases hprog : (c.threads i).prog with
  | ret a =>
    rw [hprog] at hspec
    exact ⟨a, hspec⟩
  | op o k => exact absurd (Thread.midFlight_of_op hprog hlog) hquiet

/-- The allocation of a token with a payout has written its index entry. -/
theorem indexed_of_quiet (hdistinct : DistinctTokens cr call)
    (hrun : Trace PayoutStep (payoutCalls cr call) labels c) (hinv : BindInv cr call c)
    (hquiet : ∀ i, ¬ (c.threads i).MidFlight) {i : ι} {t : JdToken} {user : String}
    (halloc : (call i).Allocates cr t user)
    (hlive : (c.shared.tokenPayout.lookup t).isSome = true) :
    ⟨.indexInsert user t, ()⟩ ∈ (c.threads i).log := by
  obtain ⟨script, hscript⟩ := Option.isSome_iff_exists.mp hlive
  obtain ⟨j, script', hmem⟩ := hinv.payouts.source t script hscript
  obtain ⟨user', halloc'⟩ := allocates_of_bound hrun hmem
  obtain rfl := hdistinct j i t user' user halloc' halloc
  obtain ⟨_, hwritten, -⟩ := concluded_of_quiet hrun (hquiet j) (List.ne_nil_of_mem hmem)
  obtain ⟨user'', hindex⟩ := hwritten t script' hmem
  obtain ⟨before, -, x, script'', halloc'', -⟩ := (payoutConforms_of_trace hrun j).2.mem hindex
  rw [allocates_inj halloc halloc'']
  exact hindex

/-- In a run in which no allocation writes its index entry while another one
    of the user is past the guard, and no eviction repairs the index while the
    allocation of its token is under way: whenever no call is under way, a
    user has one bound token, and the index names tokens with a payout. -/
theorem payout_bindings_unique (hdistinct : DistinctTokens cr call)
    (h : Trace (fun c l c' => PayoutStep c l c' ∧ Separated cr call c l) (payoutCalls cr call)
      labels c) (hquiet : ∀ i, ¬ (c.threads i).MidFlight) :
    (∀ user t t', BoundTo cr call c user t → BoundTo cr call c user t' → t = t') ∧
    (∀ user t, c.shared.userIdentifierIndex.lookup user = some t →
      (c.shared.tokenPayout.lookup t).isSome = true) := by
  have hinv := bindInv hdistinct h
  have hrun : Trace PayoutStep _ labels c := h.imp fun _ _ _ h => h.1
  refine ⟨fun user t t' hbound hbound' => ?_, fun user t hentry => ?_⟩
  · obtain ⟨⟨i, halloc⟩, hlive⟩ := hbound
    obtain ⟨⟨j, halloc'⟩, hlive'⟩ := hbound'
    have hi := hinv.indexed i t user halloc
      (indexed_of_quiet hdistinct hrun hinv hquiet halloc hlive) hlive
    have hj := hinv.indexed j t' user halloc'
      (indexed_of_quiet hdistinct hrun hinv hquiet halloc' hlive') hlive'
    exact Option.some.inj (hi.symm.trans hj)
  · rcases hinv.entry user t hentry with hlive | ⟨e, script, hmem, hno⟩
    · exact hlive
    · obtain ⟨_, -, hdropped⟩ := concluded_of_quiet hrun (hquiet e) (List.ne_nil_of_mem hmem)
      exact absurd (hdropped t script hmem) hno

end runs

end

instance {S : Sig} {α : Type} (thread : Thread S α) : Decidable thread.MidFlight :=
  decidable_of_iff (thread.log.isEmpty = false ∧ thread.prog.result?.isNone = true) (by
    simp [Thread.MidFlight])

namespace Sample

def allocating (t : JdToken) : PayoutCall := .allocate (fun _ => some [5]) t "miner" 100

/-- A user is allocated a token, loses it and is allocated another one. -/
def inSuccession : Fin 3 → PayoutCall
  | 0 => allocating 1
  | 1 => .evict 1
  | 2 => allocating 2

/-- Three turns for each call, one call after the other. -/
def succession : List (Fin 3 ⊕ TemplateDistribution) :=
  (List.finRange 3).flatMap fun i => List.replicate 3 (.inl i)

/-- Two allocations for one user. -/
def twoAllocations : Bool → PayoutCall
  | false => allocating 1
  | true => allocating 2

/-- Both pass the guard before one of them writes. -/
def bothPass : List (Bool ⊕ TemplateDistribution) :=
  [.inl false, .inl true, .inl false, .inl false, .inl true, .inl true]

/-- An allocation and the eviction of its token. -/
def allocateAndEvict : Bool → PayoutCall
  | false => allocating 1
  | true => .evict 1

/-- The eviction runs between the two writes of the allocation. -/
def evictedBetween : List (Bool ⊕ TemplateDistribution) :=
  [.inl false, .inl false, .inl true, .inl true, .inl false]

theorem allocating_inj {t t' : JdToken} {user : String}
    (h : (allocating t).Allocates crates t' user) : t' = t ∧ user = "miner" := by
  obtain ⟨_, _, _, hcall, rfl⟩ := h
  cases hcall
  exact ⟨rfl, by decide +kernel⟩

theorem allocating_miner (t : JdToken) : (allocating t).Allocates crates t "miner" :=
  ⟨_, _, _, rfl, by decide +kernel⟩

/-- A step while no other call is under way. -/
theorem separated_of_alone {ι : Type} {call : ι → PayoutCall}
    {c : Config engineSig Engine (Option TxOut) ι} {l : Label engineSig ι TemplateDistribution}
    (h : ∀ i e, l = .thread i e → ∀ j, j ≠ i → ¬ (c.threads j).MidFlight) :
    Separated crates call c l := by
  rcases l with ⟨i, o, res⟩ | msg
  · cases o with
    | indexInsert user t => exact fun j _ hji _ => h i _ rfl j hji
    | indexDropToken t => exact fun j _ hji _ => h i _ rfl j hji
    | _ => trivial
  · trivial

/-- No call but the one that moves is under way. -/
def soleMover (c : Config engineSig Engine (Option TxOut) (Fin 3)) :
    Label engineSig (Fin 3) TemplateDistribution → Bool
  | .thread i _ => decide (∀ j, j ≠ i → ¬ (c.threads j).MidFlight)
  | .env _ => true

theorem inSuccession_token {i : Fin 3} {t : JdToken} {user : String}
    (h : (inSuccession i).Allocates crates t user) : i = 0 ∧ t = 1 ∨ i = 2 ∧ t = 2 := by
  have hcases : ∀ i : Fin 3, i = 0 ∨ i = 1 ∨ i = 2 := by decide
  rcases hcases i with rfl | rfl | rfl
  · exact Or.inl ⟨rfl, (allocating_inj h).1⟩
  · exact absurd h (not_allocates_of_evict rfl)
  · exact Or.inr ⟨rfl, (allocating_inj h).1⟩

end Sample

/-- One call after the other: the user is bound to the second token. -/
theorem payout_bindings_in_succession :
    let c := (payoutCalls Sample.crates Sample.inSuccession).play Sample.online.parStep teeAct
      Sample.succession
    BoundTo Sample.crates Sample.inSuccession c "miner" 2 ∧
    (∀ t, BoundTo Sample.crates Sample.inSuccession c "miner" t → t = 2) ∧
    (∀ user t, c.shared.userIdentifierIndex.lookup user = some t →
      (c.shared.tokenPayout.lookup t).isSome = true) := by
  intro c
  have hdistinct : DistinctTokens Sample.crates Sample.inSuccession := by
    intro i j t user user' hi hj
    rcases Sample.inSuccession_token hi with ⟨rfl, rfl⟩ | ⟨rfl, rfl⟩
    · rcases Sample.inSuccession_token hj with ⟨rfl, -⟩ | ⟨-, ht⟩
      · rfl
      · exact absurd ht (by decide)
    · rcases Sample.inSuccession_token hj with ⟨-, ht⟩ | ⟨rfl, -⟩
      · exact absurd ht (by decide)
      · rfl
  have halone : (((payoutCalls Sample.crates Sample.inSuccession).moves Sample.online.parStep teeAct
      Sample.succession).all fun x => Sample.soleMover x.1 x.2) = true := by decide +kernel
  have htrace : Trace (fun c l c' => PayoutStep c l c' ∧
      Separated Sample.crates Sample.inSuccession c l) (payoutCalls Sample.crates
        Sample.inSuccession) _ c :=
    Config.moves_trace _ teeAct (parStep_interp Sample.online) _ _ fun x hx =>
      Sample.separated_of_alone fun i e heq => by
        have hx := List.all_eq_true.mp halone x hx
        rw [heq] at hx
        exact of_decide_eq_true hx
  have hquiet : ∀ i, ¬ (c.threads i).MidFlight := by decide +kernel
  have hbound : BoundTo Sample.crates Sample.inSuccession c "miner" 2 :=
    ⟨⟨2, Sample.allocating_miner 2⟩, by decide +kernel⟩
  obtain ⟨hunique, hentry⟩ := payout_bindings_unique hdistinct htrace hquiet
  exact ⟨hbound, fun t ht => hunique "miner" t 2 ht hbound, hentry⟩

/-- Two allocations for one user both install a binding; and an eviction
    between the two writes of an allocation leaves an index entry without a
    payout. -/
theorem payout_bindings_raced :
    let c := (payoutCalls Sample.crates Sample.twoAllocations).play Sample.online.parStep teeAct
      Sample.bothPass
    let c' := (payoutCalls Sample.crates Sample.allocateAndEvict).play Sample.online.parStep teeAct
      Sample.evictedBetween
    (DistinctTokens Sample.crates Sample.twoAllocations ∧
      (∃ labels, Trace PayoutStep (payoutCalls Sample.crates Sample.twoAllocations) labels c) ∧
      (∀ i, ¬ (c.threads i).MidFlight) ∧
      BoundTo Sample.crates Sample.twoAllocations c "miner" 1 ∧
      BoundTo Sample.crates Sample.twoAllocations c "miner" 2) ∧
    (DistinctTokens Sample.crates Sample.allocateAndEvict ∧
      (∃ labels, Trace PayoutStep (payoutCalls Sample.crates Sample.allocateAndEvict) labels c') ∧
      (∀ i, ¬ (c'.threads i).MidFlight) ∧
      c'.shared.userIdentifierIndex.lookup "miner" = some 1 ∧
      c'.shared.tokenPayout.lookup 1 = none) := by
  intro c c'
  refine ⟨⟨?_, ⟨_, Config.play_run _ teeAct (parStep_interp Sample.online) _ _⟩, ?_,
    ⟨⟨false, Sample.allocating_miner 1⟩, by decide +kernel⟩,
    ⟨⟨true, Sample.allocating_miner 2⟩, by decide +kernel⟩⟩,
    ⟨?_, ⟨_, Config.play_run _ teeAct (parStep_interp Sample.online) _ _⟩, ?_, by decide +kernel,
      by decide +kernel⟩⟩
  · intro i j t user user' hi hj
    cases i <;> cases j
    · rfl
    · exact absurd ((Sample.allocating_inj hi).1.symm.trans (Sample.allocating_inj hj).1)
        (by decide)
    · exact absurd ((Sample.allocating_inj hi).1.symm.trans (Sample.allocating_inj hj).1)
        (by decide)
    · rfl
  · decide +kernel
  · intro i j t user user' hi hj
    cases i with
    | true => exact absurd hi (not_allocates_of_evict rfl)
    | false =>
      cases j with
      | true => exact absurd hj (not_allocates_of_evict rfl)
      | false => rfl
  · decide +kernel

end Sv2P2pool
