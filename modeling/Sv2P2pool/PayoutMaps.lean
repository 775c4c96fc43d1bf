import Sv2P2pool.Payout

/-! # The Two Payout Maps

    `token_payout` maps a token to the script it was bound to and
    `user_identifier_index` a user to the bound token. They are written by
    different operations: an allocation inserts into both, an eviction repairs
    the index only if the forward entry existed. As long as no token is
    offered to two users, the two maps are inverse to each other in every run.
-/

namespace Sv2P2pool

open ByteCodec Bitcoin Interleave

section

variable {cr : Crates} {w : Wiring}

/-! ## The bound user -/

/-- The user a token is bound for after one more call. -/
def boundAfter (cr : Crates) (t : JdToken) (user : Option String) : Done → Option String
  | ⟨.allocate _ token userIdentifier _, some _⟩ =>
    if t = token then some (normalizeIdentifier cr userIdentifier) else user
  | ⟨.evict token, _⟩ => if t = token then none else user
  | _ => user

/-- The user of the latest allocation that answered the token with an output,
    unless the token was evicted since. -/
def boundUser (cr : Crates) (log : List Done) (t : JdToken) : Option String :=
  log.foldl (boundAfter cr t) none

theorem boundUser_snoc (log : List Done) (e : Done) (t : JdToken) :
    boundUser cr (log ++ [e]) t = boundAfter cr t (boundUser cr log t) e := by
  simp [boundUser]

/-- All allocations of the run consult one resolver, and no token is offered
    to two users. -/
structure OneUserEach (cr : Crates) (resolver : String → Option ScriptBuf) (log : List Done) :
    Prop where
  resolver_eq : ∀ res t user maxSize answer,
    ⟨.allocate res t user maxSize, answer⟩ ∈ log → res = resolver
  user_eq : ∀ res t user maxSize answer res' user' maxSize' answer',
    ⟨.allocate res t user maxSize, answer⟩ ∈ log →
    ⟨.allocate res' t user' maxSize', answer'⟩ ∈ log →
      normalizeIdentifier cr user = normalizeIdentifier cr user'

theorem OneUserEach.of_append {resolver : String → Option ScriptBuf} {log log' : List Done}
    (h : OneUserEach cr resolver (log ++ log')) : OneUserEach cr resolver log where
  resolver_eq res t user maxSize answer hmem :=
    h.resolver_eq res t user maxSize answer (List.mem_append_left _ hmem)
  user_eq res t user maxSize answer res' user' maxSize' answer' hmem hmem' :=
    h.user_eq res t user maxSize answer res' user' maxSize' answer' (List.mem_append_left _ hmem)
      (List.mem_append_left _ hmem')

/-! ## The invariant -/

/-- The index is the inverse of the binding, and the forward map holds the
    resolver's script of the bound user. -/
structure PayoutInv (cr : Crates) (resolver : String → Option ScriptBuf) (log : List Done)
    (s : Engine) : Prop where
  index : ∀ u t, s.userIdentifierIndex.lookup u = some t ↔ boundUser cr log t = some u
  payout : ∀ t, s.tokenPayout.lookup t = (boundUser cr log t).bind resolver
  /-- A bound user has an identifier and a script. -/
  live : ∀ t u, boundUser cr log t = some u → u.isEmpty = false ∧ ∃ script, resolver u = some script
  /-- A bound token was offered to its user. -/
  offered : ∀ t u, boundUser cr log t = some u → ∃ res user maxSize answer,
    ⟨.allocate res t user maxSize, answer⟩ ∈ log ∧ normalizeIdentifier cr user = u

variable {resolver : String → Option ScriptBuf} {log : List Done} {s s' : Engine}

theorem payoutInv_nil : PayoutInv cr resolver [] Engine.new where
  index u t := by simp [Engine.new, boundUser]
  payout t := by simp [Engine.new, boundUser]
  live t u h := by simp [boundUser] at h
  offered t u h := by simp [boundUser] at h

/-- A call that binds and drops nothing. -/
theorem PayoutInv.kept (h : PayoutInv cr resolver log s) {e : Done}
    (hbound : ∀ t, boundUser cr (log ++ [e]) t = boundUser cr log t)
    (hpayout : s'.tokenPayout = s.tokenPayout)
    (hindex : s'.userIdentifierIndex = s.userIdentifierIndex) :
    PayoutInv cr resolver (log ++ [e]) s' where
  index u t := by
    rw [hindex, hbound]
    exact h.index u t
  payout t := by
    rw [hpayout, hbound]
    exact h.payout t
  live t u hu := by
    rw [hbound] at hu
    exact h.live t u hu
  offered t u hu := by
    rw [hbound] at hu
    obtain ⟨res, user, maxSize, answer, hmem, hid⟩ := h.offered t u hu
    exact ⟨res, user, maxSize, answer, List.mem_append_left _ hmem, hid⟩

/-- An allocation that binds `token` to `user`. -/
theorem PayoutInv.bound (h : PayoutInv cr resolver log s) {res : String → Option ScriptBuf}
    {token : JdToken} {user : String} {maxSize : Nat} {script : ScriptBuf}
    (hone : OneUserEach cr resolver (log ++ [⟨.allocate res token user maxSize, some ⟨0, script⟩⟩]))
    (halloc : s.allocation cr res token user maxSize = some (normalizeIdentifier cr user, script))
    (hpayout : s'.tokenPayout = s.tokenPayout.insert token script)
    (hindex : s'.userIdentifierIndex =
      s.userIdentifierIndex.insert (normalizeIdentifier cr user) token) :
    PayoutInv cr resolver (log ++ [⟨.allocate res token user maxSize, some ⟨0, script⟩⟩]) s' := by
  obtain ⟨-, hempty, hres, hguard, -⟩ := (allocation_eq_some cr).mp halloc
  have hlast : (⟨.allocate res token user maxSize, some ⟨0, script⟩⟩ : Done) ∈
      log ++ [⟨.allocate res token user maxSize, some ⟨0, script⟩⟩] := by simp
  obtain rfl : res = resolver := hone.resolver_eq res token user maxSize _ hlast
  have hbound : ∀ t,
      boundUser cr (log ++ [⟨.allocate res token user maxSize, some ⟨0, script⟩⟩]) t =
        if t = token then some (normalizeIdentifier cr user) else boundUser cr log t := fun t =>
    boundUser_snoc log _ t
  -- an earlier binding of the token was for the same user
  have hsame : ∀ u, boundUser cr log token = some u → u = normalizeIdentifier cr user := by
    intro u hu
    obtain ⟨res', user', maxSize', answer, hmem, rfl⟩ := h.offered token u hu
    exact hone.user_eq res' token user' maxSize' answer res user maxSize _
      (List.mem_append_left _ hmem) hlast
  refine ⟨fun u t => ?_, fun t => ?_, fun t u hu => ?_, fun t u hu => ?_⟩
  · rw [hindex, DashMap.lookup_insert_eq, hbound]
    by_cases hu : u = normalizeIdentifier cr user
    · rw [if_pos hu, hu]
      by_cases ht : t = token
      · simp [ht]
      · -- the guard leaves no other token of this user
        rw [if_neg ht, ← h.index]
        constructor
        · intro heq
          exact absurd (Option.some.inj heq).symm ht
        · intro heq
          exact absurd (hguard t heq) ht
    · rw [if_neg hu, h.index]
      by_cases ht : t = token
      · subst ht
        rw [if_pos rfl]
        constructor
        · intro heq
          exact absurd (hsame u heq) hu
        · intro heq
          exact absurd (Option.some.inj heq).symm hu
      · rw [if_neg ht]
  · rw [hpayout, DashMap.lookup_insert_eq, hbound]
    split_ifs
    · exact hres.symm
    · exact h.payout t
  · rw [hbound] at hu
    split_ifs at hu
    · cases hu
      exact ⟨hempty, script, hres⟩
    · exact h.live t u hu
  · rw [hbound] at hu
    split_ifs at hu with ht
    · cases hu
      rw [ht]
      exact ⟨res, user, maxSize, _, hlast, rfl⟩
    · obtain ⟨res', user', maxSize', answer, hmem, hid⟩ := h.offered t u hu
      exact ⟨res', user', maxSize', answer, List.mem_append_left _ hmem, hid⟩

/-- The forward entry exists exactly for bound tokens. -/
theorem PayoutInv.isSome_iff (h : PayoutInv cr resolver log s) (t : JdToken) :
    (s.tokenPayout.lookup t).isSome = true ↔ ∃ u, boundUser cr log t = some u := by
  rw [h.payout]
  cases hb : boundUser cr log t with
  | none => simp
  | some u =>
    obtain ⟨-, script, hscript⟩ := h.live t u hb
    simp [hscript]

/-- What an eviction leaves in the index: everything but the token. -/
theorem PayoutInv.dropped_index (h : PayoutInv cr resolver log s) {token : JdToken}
    (hindex : s'.userIdentifierIndex =
      if (s.tokenPayout.lookup token).isSome then
        DashMap.retain (fun _ bound => bound ≠ token) s.userIdentifierIndex
      else s.userIdentifierIndex) (u : String) (t : JdToken) :
    s'.userIdentifierIndex.lookup u = some t ↔
      s.userIdentifierIndex.lookup u = some t ∧ t ≠ token := by
  rw [hindex]
  split_ifs with hsome
  · rw [DashMap.lookup_retain_eq_some]
    simp
  · -- an unbound token is not in the index, so nothing has to be repaired
    refine ⟨fun hu => ⟨hu, ?_⟩, fun hu => hu.1⟩
    intro heq
    subst heq
    exact hsome ((h.isSome_iff t).mpr ⟨u, (h.index u t).mp hu⟩)

theorem PayoutInv.dropped (h : PayoutInv cr resolver log s) {token : JdToken}
    (hpayout : s'.tokenPayout = s.tokenPayout.erase token)
    (hindex : s'.userIdentifierIndex =
      if (s.tokenPayout.lookup token).isSome then
        DashMap.retain (fun _ bound => bound ≠ token) s.userIdentifierIndex
      else s.userIdentifierIndex) :
    PayoutInv cr resolver (log ++ [⟨.evict token, ()⟩]) s' := by
  have hbound : ∀ t, boundUser cr (log ++ [⟨.evict token, ()⟩]) t =
      if t = token then none else boundUser cr log t := fun t => boundUser_snoc log _ t
  refine ⟨fun u t => ?_, fun t => ?_, fun t u hu => ?_, fun t u hu => ?_⟩
  · rw [h.dropped_index hindex, hbound, h.index]
    by_cases ht : t = token <;> simp [ht]
  · rw [hpayout, DashMap.lookup_erase_eq, hbound]
    split_ifs
    · rfl
    · exact h.payout t
  · rw [hbound] at hu
    split_ifs at hu
    exact h.live t u hu
  · rw [hbound] at hu
    split_ifs at hu
    obtain ⟨res, user, maxSize, answer, hmem, hid⟩ := h.offered t u hu
    exact ⟨res, user, maxSize, answer, List.mem_append_left _ hmem, hid⟩

/-- One step of the invariant. -/
theorem PayoutInv.step (h : PayoutInv cr resolver log s) {e : Done}
    (hone : OneUserEach cr resolver (log ++ [e])) (hstep : CallStep cr w s e s') :
    PayoutInv cr resolver (log ++ [e]) s' := by
  cases CallStep.payouts hstep with
  | bound res token user maxSize script halloc hpayout hindex =>
    exact h.bound hone halloc hpayout hindex
  | dropped token hpayout hindex => exact h.dropped hpayout hindex
  | kept _ hbind hdrop hpayout hindex =>
    refine h.kept (fun t => ?_) hpayout hindex
    rw [boundUser_snoc]
    obtain ⟨c, resp⟩ := e
    cases c with
    | allocate res token user maxSize =>
      cases resp with
      | none => rfl
      | some answer => exact absurd rfl (hbind res token user maxSize answer)
    | evict token => exact absurd rfl (hdrop token)
    | _ => rfl

theorem Run.payoutInv (h : Run cr w Engine.new log s) (hone : OneUserEach cr resolver log) :
    PayoutInv cr resolver log s := by
  refine Trace.history (P := fun log s => OneUserEach cr resolver log →
    PayoutInv cr resolver log s) (fun _ => payoutInv_nil) ?_ log h hone
  intro log s e s' hinv hstep hone
  exact (hinv hone.of_append).step hone hstep

/-! ## The two maps -/

/-- `token_payout` and `user_identifier_index` are inverse to each other and
    hold the bindings of the run. -/
structure MapsInverse (cr : Crates) (resolver : String → Option ScriptBuf) (log : List Done)
    (s : Engine) : Prop where
  index_iff : ∀ u t, s.userIdentifierIndex.lookup u = some t ↔
    (s.tokenPayout.lookup t).isSome = true ∧ boundUser cr log t = some u
  one_token : ∀ u t t', boundUser cr log t = some u → boundUser cr log t' = some u → t = t'
  one_user : ∀ t, (s.tokenPayout.lookup t).isSome = true →
    ∃! u, s.userIdentifierIndex.lookup u = some t
  script : ∀ u t, s.userIdentifierIndex.lookup u = some t →
    ∃ script, resolver u = some script ∧ s.tokenPayout.lookup t = some script

theorem PayoutInv.inverse (h : PayoutInv cr resolver log s) : MapsInverse cr resolver log s where
  index_iff u t := by
    rw [h.index, h.isSome_iff]
    constructor
    · intro hu
      exact ⟨⟨u, hu⟩, hu⟩
    · intro hu
      exact hu.2
  one_token u t t' ht ht' := by
    rw [← h.index] at ht ht'
    exact Option.some.inj (ht.symm.trans ht')
  one_user t ht := by
    obtain ⟨u, hu⟩ := (h.isSome_iff t).mp ht
    refine ⟨u, (h.index u t).mpr hu, fun u' hu' => ?_⟩
    have hbound' : boundUser cr log t = some u' := (h.index u' t).mp hu'
    exact Option.some.inj (hbound'.symm.trans hu)
  script u t hu := by
    have hbound := (h.index u t).mp hu
    obtain ⟨-, script, hscript⟩ := h.live t u hbound
    refine ⟨script, hscript, ?_⟩
    rw [h.payout, hbound]
    exact hscript

/-- Every mention of `t` is gone, and nothing else. -/
structure TokenGone (t : JdToken) (s s' : Engine) : Prop where
  payout : ∀ t', s'.tokenPayout.lookup t' = if t' = t then none else s.tokenPayout.lookup t'
  index : ∀ u, s'.userIdentifierIndex.lookup u =
    if s.userIdentifierIndex.lookup u = some t then none else s.userIdentifierIndex.lookup u

theorem PayoutInv.evicted (h : PayoutInv cr resolver log s) (env : Env) (t : JdToken) :
    TokenGone t s (run env.oracle (dropTokenPayout t) s).2 where
  payout t' := by rw [run_evict_tokenPayout, DashMap.lookup_erase_eq]
  index u := by
    apply Option.ext
    intro t'
    rw [h.dropped_index (run_evict_index env s t)]
    split_ifs with hu
    · rw [hu]
      simp [eq_comm]
    · constructor
      · intro ht'
        exact ht'.1
      · intro ht'
        refine ⟨ht', fun heq => hu ?_⟩
        rw [ht', heq]

/-- A user with a script and no live token is served. -/
theorem allocate_served (env : Env) {t : JdToken} {user : String} {maxSize : Nat}
    {script : ScriptBuf} (hempty : (normalizeIdentifier cr user).isEmpty = false)
    (hscript : resolver (normalizeIdentifier cr user) = some script)
    (hfree : s.userIdentifierIndex.lookup (normalizeIdentifier cr user) = none)
    (hsize : (txOutCodec.encode ⟨0, script⟩).length ≤ maxSize) :
    (run env.oracle (handleAllocateMiningJobToken cr resolver t user maxSize) s).1 =
      some ⟨0, script⟩ := by
  have halloc : s.allocation cr resolver t user maxSize =
      some (normalizeIdentifier cr user, script) := by
    refine (allocation_eq_some cr).mpr ⟨rfl, hempty, hscript, fun t' ht' => ?_, hsize⟩
    rw [hfree] at ht'
    cases ht'
  rw [run_allocate, halloc]

/-- What an allocation's answer says about the maps. -/
theorem allocate_answer (env : Env) (resolver : String → Option ScriptBuf) (s : Engine)
    (t : JdToken) (user : String) (maxSize : Nat) :
    let done := run env.oracle (handleAllocateMiningJobToken cr resolver t user maxSize) s
    (done.1 = none → done.2.tokenPayout = s.tokenPayout ∧
      done.2.userIdentifierIndex = s.userIdentifierIndex) ∧
    ∀ out, done.1 = some out → done.2.tokenPayout.lookup t = some out.scriptPubkey ∧
      (txOutCodec.encode out).length ≤ maxSize := by
  intro done
  have hdone : done = _ := run_allocate cr env s resolver t user maxSize
  cases halloc : s.allocation cr resolver t user maxSize with
  | none =>
    rw [halloc] at hdone
    rw [hdone]
    constructor
    · intro _
      exact ⟨rfl, rfl⟩
    · intro out hout
      cases hout
  | some answer =>
    obtain ⟨id, script⟩ := answer
    rw [halloc] at hdone
    rw [hdone]
    constructor
    · intro hnone
      cases hnone
    · intro out hout
      cases hout
      refine ⟨?_, ((allocation_eq_some cr).mp halloc).2.2.2.2⟩
      rw [DashMap.lookup_insert_eq, if_pos rfl]

/-- The payout maps after any run of calls that offers no token to two users,
    and what the next allocation or eviction does to them. -/
theorem payout_maps_consistent (resolver : String → Option ScriptBuf) (log : List Done)
    (s : Engine) (hrun : Run cr w Engine.new log s) (hone : OneUserEach cr resolver log) :
    MapsInverse cr resolver log s ∧
    (∀ (env : Env) (t : JdToken) (user : String) (maxSize : Nat),
      let done := run env.oracle (handleAllocateMiningJobToken cr resolver t user maxSize) s
      (done.1 = none → done.2.tokenPayout = s.tokenPayout ∧
        done.2.userIdentifierIndex = s.userIdentifierIndex) ∧
      ∀ out, done.1 = some out → done.2.tokenPayout.lookup t = some out.scriptPubkey ∧
        (txOutCodec.encode out).length ≤ maxSize) ∧
    ∀ (env : Env) (t active : JdToken), ∀ hook ∈ [onAllocatedEvicted t, onActiveEvicted active t],
      let s' := (run env.oracle hook s).2
      TokenGone t s s' ∧
      -- the user of the evicted token passes the duplicate guard again
      ∀ u, s.userIdentifierIndex.lookup u = some t → ∃ script, resolver u = some script ∧
        ∀ (env' : Env) (t' : JdToken) (user : String) (maxSize : Nat),
          normalizeIdentifier cr user = u →
          (txOutCodec.encode ⟨0, script⟩).length ≤ maxSize →
          (run env'.oracle (handleAllocateMiningJobToken cr resolver t' user maxSize) s').1 =
            some ⟨0, script⟩ := by
  have hinv := Run.payoutInv hrun hone
  refine ⟨hinv.inverse, fun env t user maxSize => allocate_answer env resolver s t user maxSize, ?_⟩
  intro env t active hook hhook
  -- both hooks drop the allocated token
  obtain rfl : hook = dropTokenPayout t := by
    simpa [onAllocatedEvicted, onActiveEvicted] using hhook
  have hgone := hinv.evicted env t
  refine ⟨hgone, fun u hu => ?_⟩
  obtain ⟨hempty, script, hscript⟩ := hinv.live t u ((hinv.index u t).mp hu)
  refine ⟨script, hscript, fun env' t' user maxSize huser hsize => ?_⟩
  subst huser
  refine allocate_served env' hempty hscript ?_ hsize
  rw [hgone.index, if_pos hu]

end

/-- One user is allocated a token, loses it and is allocated another one. -/
def Sample.reallocated : List (Env × Call) :=
  [(Sample.online, .allocate (fun _ => some [5]) 3 "miner" 100),
   (Sample.online, .evict 3),
   (Sample.online, .allocate (fun _ => some [5]) 4 " miner" 100)]

theorem payout_maps_reallocated :
    let log := Engine.new.answers Sample.crates Sample.wiring Sample.reallocated
    let s := Engine.new.after Sample.crates Sample.wiring Sample.reallocated
    OneUserEach Sample.crates (fun _ => some [5]) log ∧
    s.userIdentifierIndex.lookup "miner" = some 4 ∧
    MapsInverse Sample.crates (fun _ => some [5]) log s := by
  intro log s
  -- both allocations are for the same user
  have halloc : ∀ res t user maxSize answer, ⟨.allocate res t user maxSize, answer⟩ ∈ log →
      (res = fun _ => some [5]) ∧ normalizeIdentifier Sample.crates user = "miner" := by
    intro res t user maxSize answer hmem
    simp [log, Sample.reallocated, Engine.answers] at hmem
    rcases hmem with ⟨⟨hres, -, rfl, -⟩, -⟩ | ⟨⟨hres, -, rfl, -⟩, -⟩
    · exact ⟨hres, by decide +kernel⟩
    · exact ⟨hres, by decide +kernel⟩
  have hone : OneUserEach Sample.crates (fun _ => some [5]) log := by
    constructor
    · intro res t user maxSize answer hmem
      exact (halloc res t user maxSize answer hmem).1
    · intro res t user maxSize answer res' user' maxSize' answer' hmem hmem'
      rw [(halloc res t user maxSize answer hmem).2,
        (halloc res' t user' maxSize' answer' hmem').2]
  exact ⟨hone, by decide +kernel,
    (payout_maps_consistent _ log s (run_after _ _ _ _) hone).1⟩

end Sv2P2pool
