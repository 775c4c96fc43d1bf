import Sv2P2pool.Frames

/-! # Selective Invalidation on a Share-Chain Reorg

    `notify_share_chain_reorg` walks back from the new tip and keeps the
    declared jobs whose captured share-chain tip it meets on the way. The
    abstract notion is `ancestor hdr k h`, the share reached from `h` by `k`
    predecessor steps; the walk collects exactly the ancestors within its
    hop bound, unless a lookup fails.
-/

namespace Sv2P2pool

open ByteCodec Bitcoin Interleave

/-! ## Ancestry -/

section ancestry

variable (hdr : BlockHash → Option ShareHeaderLookup)

/-- The predecessor of a share. The walk stops where there is none. -/
def prevShare (h : BlockHash) : Option BlockHash :=
  match hdr h with
  | some (.found prev) => prev
  | _ => none

/-- The share `k` predecessor steps behind `h`. -/
def ancestor : Nat → BlockHash → Option BlockHash
  | 0, h => some h
  | k + 1, h => (prevShare hdr h).bind (ancestor k)

/-- The job was declared on `newTip` or on an ancestor within the hop bound. -/
def DescendsFrom (job : DeclaredJob) (newTip : BlockHash) : Prop :=
  ∃ h k, job.shareChainTip = some h ∧ k ≤ reorgAncestryDepth ∧ ancestor hdr k newTip = some h

/-- A lookup that makes the walk give up. -/
def Failed : Option ShareHeaderLookup → Prop
  | none => True
  | some .notFound => True
  | some _ => False

instance : DecidablePred Failed
  | none => isTrue trivial
  | some .notFound => isTrue trivial
  | some (.found _) => isFalse id
  | some .genesis => isFalse id

/-- No header within the hop bound of `newTip` is missing. -/
def Unbroken (newTip : BlockHash) : Prop :=
  ∀ k < reorgAncestryDepth, ∀ h, ancestor hdr k newTip = some h → ¬ Failed (hdr h)

end ancestry

section

variable (w : Wiring) (env : Env)

/-! ## The walk -/

/-- The header lookups of a complete call, with their answers, in order. -/
def shareLookup : Event engineSig → Option (BlockHash × Option ShareHeaderLookup)
  | ⟨.getShareHeader h, answer⟩ => some (h, answer)
  | _ => none

def lookups {α : Type} (p : Handler α) (s : Engine) :
    List (BlockHash × Option ShareHeaderLookup) :=
  (events env.oracle p s).filterMap shareLookup

theorem lookups_bind {α β : Type} (p : Handler α) (f : α → Handler β) (s : Engine) :
    lookups env (p >>= f) s =
      lookups env p s ++ lookups env (f (run env.oracle p s).1) (run env.oracle p s).2 := by
  simp only [lookups, events_bind, List.filterMap_append]

/-- What the walk does with one header. -/
def walkNext (hops : Nat) (ancestors : List BlockHash) :
    Option ShareHeaderLookup → Handler (Option (List BlockHash))
  | some (.found (some prev)) => walkAncestors hops prev (prev :: ancestors)
  | some (.found none) => pure (some ancestors)
  | some .genesis => pure (some ancestors)
  | some .notFound => pure none
  | none => pure none

theorem walkAncestors_succ (hops : Nat) (cursor : BlockHash) (ancestors : List BlockHash) :
    walkAncestors (hops + 1) cursor ancestors =
      .op (.getShareHeader cursor) (walkNext hops ancestors) := by
  rw [walkAncestors]
  simp only [getShareHeader, Prog.op_bind, Prog.ret_bind]
  rfl

theorem run_walkAncestors_succ (hops : Nat) (cursor : BlockHash) (ancestors : List BlockHash)
    (s : Engine) :
    run env.oracle (walkAncestors (hops + 1) cursor ancestors) s =
      run env.oracle (walkNext hops ancestors (env.shareHeader cursor)) s := by
  rw [walkAncestors_succ]
  rfl

theorem lookups_walkAncestors_succ (hops : Nat) (cursor : BlockHash) (ancestors : List BlockHash)
    (s : Engine) :
    lookups env (walkAncestors (hops + 1) cursor ancestors) s =
      (cursor, env.shareHeader cursor) ::
        lookups env (walkNext hops ancestors (env.shareHeader cursor)) s := by
  rw [walkAncestors_succ]
  rfl

theorem reads_walkAncestors (hops : Nat) : ∀ cursor ancestors,
    (walkAncestors hops cursor ancestors).Only Op.isRead := by
  induction hops with
  | zero => exact fun _ _ => trivial
  | succ hops ih =>
    intro cursor ancestors
    rw [walkAncestors_succ]
    refine ⟨trivial, fun answer => ?_⟩
    rcases answer with _ | ⟨_ | prev⟩ | _ | _
    · trivial
    · trivial
    · exact ih prev _
    · trivial
    · trivial

/-- The walk only reads. -/
theorem run_walkAncestors_state (hops : Nat) : ∀ cursor ancestors s,
    (run env.oracle (walkAncestors hops cursor ancestors) s).2 = s := by
  induction hops with
  | zero => exact fun _ _ _ => rfl
  | succ hops ih =>
    intro cursor ancestors s
    rw [run_walkAncestors_succ]
    match env.shareHeader cursor with
    | some (.found (some prev)) => exact ih prev _ s
    | some (.found none) => rfl
    | some .genesis => rfl
    | some .notFound => rfl
    | none => rfl

/-- The hop bound bounds the lookups, whatever the answers are. -/
theorem length_lookups_walkAncestors (hops : Nat) : ∀ cursor ancestors s,
    (lookups env (walkAncestors hops cursor ancestors) s).length ≤ hops := by
  induction hops with
  | zero => exact fun _ _ _ => Nat.le_refl 0
  | succ hops ih =>
    intro cursor ancestors s
    rw [lookups_walkAncestors_succ, List.length_cons, Nat.add_le_add_iff_right]
    match env.shareHeader cursor with
    | some (.found (some prev)) => exact ih prev _ s
    | some (.found none) => exact Nat.zero_le _
    | some .genesis => exact Nat.zero_le _
    | some .notFound => exact Nat.zero_le _
    | none => exact Nat.zero_le _

/-- The walk gives up exactly when one of its lookups fails. -/
theorem run_walkAncestors_eq_none (hops : Nat) : ∀ cursor ancestors s,
    (run env.oracle (walkAncestors hops cursor ancestors) s).1 = none ↔
      ∃ l ∈ lookups env (walkAncestors hops cursor ancestors) s, Failed l.2 := by
  induction hops with
  | zero =>
    intro cursor ancestors s
    simp [walkAncestors, lookups]
  | succ hops ih =>
    intro cursor ancestors s
    rw [run_walkAncestors_succ, lookups_walkAncestors_succ]
    simp only [List.mem_cons, exists_eq_or_imp]
    match env.shareHeader cursor with
    | some (.found (some prev)) =>
      simp only [walkNext, ih, Failed, false_or]
    | some (.found none) => simp [walkNext, lookups, Failed]
    | some .genesis => simp [walkNext, lookups, Failed]
    | some .notFound => simp [walkNext, Failed]
    | none => simp [walkNext, Failed]

/-- A failing ancestor is the cursor itself or an ancestor of its predecessor. -/
theorem failed_ancestor_succ (hdr : BlockHash → Option ShareHeaderLookup) (hops : Nat)
    (cursor : BlockHash) :
    (∃ k < hops + 1, ∃ h, ancestor hdr k cursor = some h ∧ Failed (hdr h)) ↔
      Failed (hdr cursor) ∨ ∃ prev, prevShare hdr cursor = some prev ∧
        ∃ k < hops, ∃ h, ancestor hdr k prev = some h ∧ Failed (hdr h) := by
  constructor
  · intro h
    obtain ⟨k, hk, h, hanc, hf⟩ := h
    cases k with
    | zero =>
      obtain rfl : cursor = h := Option.some.inj hanc
      exact Or.inl hf
    | succ k =>
      obtain ⟨prev, hprev, hanc⟩ := Option.bind_eq_some_iff.mp hanc
      exact Or.inr ⟨prev, hprev, k, by omega, h, hanc, hf⟩
  · intro h
    rcases h with hf | ⟨prev, hprev, k, hk, h, hanc, hf⟩
    · exact ⟨0, by omega, cursor, rfl, hf⟩
    · exact ⟨k + 1, by omega, h, Option.bind_eq_some_iff.mpr ⟨prev, hprev, hanc⟩, hf⟩

/-- The walk looks up the ancestors within its hop bound, until one fails. -/
theorem lookups_failed_iff (hops : Nat) : ∀ cursor ancestors s,
    (∃ l ∈ lookups env (walkAncestors hops cursor ancestors) s, Failed l.2) ↔
      ∃ k < hops, ∃ h, ancestor env.shareHeader k cursor = some h ∧ Failed (env.shareHeader h) := by
  induction hops with
  | zero =>
    intro cursor ancestors s
    simp [walkAncestors, lookups]
  | succ hops ih =>
    intro cursor ancestors s
    rw [lookups_walkAncestors_succ, failed_ancestor_succ]
    simp only [List.mem_cons, exists_eq_or_imp]
    -- only a predecessor takes the walk further
    match hhdr : env.shareHeader cursor with
    | some (.found (some prev)) => simp [walkNext, ih, prevShare, hhdr]
    | some (.found none) => simp [walkNext, lookups, prevShare, hhdr]
    | some .genesis => simp [walkNext, lookups, prevShare, hhdr]
    | some .notFound => simp [walkNext, prevShare, hhdr, Failed]
    | none => simp [walkNext, prevShare, hhdr, Failed]

theorem unbroken_iff (newTip : BlockHash) (s : Engine) :
    Unbroken env.shareHeader newTip ↔
      ∀ l ∈ lookups env (walkAncestors reorgAncestryDepth newTip [newTip]) s, ¬ Failed l.2 := by
  have hfailed := lookups_failed_iff env reorgAncestryDepth newTip [newTip] s
  unfold Unbroken
  constructor
  · intro hok l hl hf
    obtain ⟨k, hk, h, hanc, hf⟩ := hfailed.mp ⟨l, hl, hf⟩
    exact hok k hk h hanc hf
  · intro hok k hk h hanc hf
    obtain ⟨l, hl, hf⟩ := hfailed.mpr ⟨k, hk, h, hanc, hf⟩
    exact hok l hl hf

/-- A finished walk has added the ancestors within its hop bound. -/
theorem mem_walkAncestors (hops : Nat) : ∀ cursor ancestors s l,
    (run env.oracle (walkAncestors hops cursor ancestors) s).1 = some l → ∀ h,
      (h ∈ l ↔ h ∈ ancestors ∨ ∃ k < hops, ancestor env.shareHeader (k + 1) cursor = some h) := by
  induction hops with
  | zero =>
    intro cursor ancestors s l hl h
    simp only [walkAncestors, Prog.pure_eq, run_ret, Option.some.injEq] at hl
    simp [hl]
  | succ hops ih =>
    intro cursor ancestors s l hl h
    rw [run_walkAncestors_succ] at hl
    match hhdr : env.shareHeader cursor with
    | some (.found (some prev)) =>
      rw [hhdr] at hl
      have hprev : ∀ k, ancestor env.shareHeader (k + 1) cursor =
          ancestor env.shareHeader k prev := by
        intro k
        simp [ancestor, prevShare, hhdr]
      -- `prev` was inserted before its own lookup: it is step 1 from the cursor,
      -- and what the rest of the walk adds is one step further
      simp only [hprev]
      rw [ih prev _ s l hl h, List.mem_cons]
      constructor
      · intro h
        rcases h with (rfl | hmem) | ⟨k, hk, hanc⟩
        · exact Or.inr ⟨0, by omega, rfl⟩
        · exact Or.inl hmem
        · exact Or.inr ⟨k + 1, by omega, hanc⟩
      · intro h
        rcases h with hmem | ⟨k, hk, hanc⟩
        · exact Or.inl (Or.inr hmem)
        · cases k with
          | zero => exact Or.inl (Or.inl (Option.some.inj hanc).symm)
          | succ k => exact Or.inr ⟨k, by omega, hanc⟩
    | some (.found none) =>
      rw [hhdr] at hl
      simp only [walkNext, Prog.pure_eq, run_ret, Option.some.injEq] at hl
      simp [hl, ancestor, prevShare, hhdr]
    | some .genesis =>
      rw [hhdr] at hl
      simp only [walkNext, Prog.pure_eq, run_ret, Option.some.injEq] at hl
      simp [hl, ancestor, prevShare, hhdr]
    | some .notFound =>
      rw [hhdr] at hl
      simp [walkNext] at hl
    | none =>
      rw [hhdr] at hl
      simp [walkNext] at hl

/-! ## The handler -/

/-- Drop the jobs `keep` refuses and count them. -/
def Engine.invalidated (s : Engine) (keep : DeclaredJob → Bool) : Engine :=
  Engine.bumped { s with declaredJobs := DashMap.retain (fun _ job => keep job) s.declaredJobs } w
    .jobsInvalidatedTotal (s.declaredJobs.entries.countP fun e => !keep e.2)

theorem run_invalidateAll (s : Engine) :
    run env.oracle (invalidateAll >>= bump w .jobsInvalidatedTotal) s =
      ((), s.invalidated w fun _ => false) := by
  simp only [run_bind, run_bump, Engine.invalidated, DashMap.retain_false, Bool.not_false,
    List.countP_true]
  rfl

theorem run_jobsRetain (keep : DeclaredJob → Bool) (s : Engine) :
    run env.oracle (jobsRetain keep >>= bump w .jobsInvalidatedTotal) s =
      ((), s.invalidated w keep) := by
  rw [run_bind, run_bump]
  rfl

/-- The jobs a reorg to `newTip` keeps. -/
def Env.keeps (newTip : BlockHash) (s : Engine) : DeclaredJob → Bool :=
  if w.handles then
    match (run env.oracle (walkAncestors reorgAncestryDepth newTip [newTip]) s).1 with
    | none => fun _ => false
    | some ancestors => survives ancestors
  else fun _ => false

theorem run_reorg (newTip : BlockHash) (s : Engine) :
    run env.oracle (notifyShareChainReorg w newTip) s =
      ((), (s.bumped w .reorgNotifications 1).invalidated w
        (env.keeps w newTip (s.bumped w .reorgNotifications 1))) := by
  rw [notifyShareChainReorg, run_bind, run_bump, Env.keeps]
  split_ifs
  · rw [run_bind, run_walkAncestors_state]
    match (run env.oracle (walkAncestors reorgAncestryDepth newTip [newTip])
        (s.bumped w .reorgNotifications 1)).1 with
    | none => exact run_invalidateAll w env _
    | some ancestors => exact run_jobsRetain w env _ _
  · exact run_invalidateAll w env _

theorem lookup_invalidated (s : Engine) (keep : DeclaredJob → Bool) (r : RequestId)
    (job : DeclaredJob) :
    (s.invalidated w keep).declaredJobs.lookup r = some job ↔
      s.declaredJobs.lookup r = some job ∧ keep job = true := by
  simp only [Engine.invalidated, bumped_declaredJobs, DashMap.lookup_retain_eq_some]

/-- Every job is either kept or counted. -/
theorem invalidated_count (hw : w.metrics = true) (s : Engine) (keep : DeclaredJob → Bool) :
    (s.invalidated w keep).counters .jobsInvalidatedTotal +
        (s.invalidated w keep).declaredJobs.len =
      s.counters .jobsInvalidatedTotal + s.declaredJobs.len := by
  have hsplit := List.length_eq_countP_add_countP (l := s.declaredJobs.entries) fun e => keep e.2
  simp only [Engine.invalidated, DashMap.len, DashMap.retain, ← List.countP_eq_length_filter,
    Engine.bumped, hw, if_true, Function.update_self]
  simp only [Bool.not_eq_true, Bool.decide_eq_false] at hsplit
  omega

/-- What an invalidation may do. -/
def Op.ofReorg : Op → Prop
  | .jobsLen | .jobsClear | .jobsRetain _ => True
  | .bump x _ => x = .reorgNotifications ∨ x = .jobsInvalidatedTotal
  | o => o.isRead

theorem only_reorg (newTip : BlockHash) : (notifyShareChainReorg w newTip).Only Op.ofReorg := by
  have hall : (invalidateAll >>= bump w .jobsInvalidatedTotal).Only Op.ofReorg :=
    ⟨trivial, fun n => ⟨trivial, fun _ => only_bump w (Or.inr rfl)⟩⟩
  refine Prog.Only.bind (only_bump w (Or.inl rfl)) fun _ => ?_
  split_ifs
  · refine Prog.Only.bind (Prog.Only.mono (fun o ho => ?_) (reads_walkAncestors _ _ _))
      fun walked => ?_
    · cases o <;> first | exact ho.elim | trivial
    cases walked with
    | none => exact hall
    | some ancestors => exact ⟨trivial, fun n => only_bump w (Or.inr rfl)⟩
  · exact hall

theorem only_invalidatorFlush : (invalidatorFlush w).Only Op.ofReorg := by
  have hnotice : (bump w .reorgNotifications 1).Only Op.ofReorg := only_bump w (Or.inl rfl)
  refine ⟨trivial, fun n => ⟨trivial, fun _ => ?_⟩⟩
  exact hnotice.bind fun _ => only_bump w (Or.inr rfl)

theorem writesOnly_of_ofReorg {α : Type} {p : Handler α} (h : p.Only Op.ofReorg) :
    WritesOnly [.declaredJobs, .counters] p := by
  refine Prog.Only.mono (fun o ho => ?_) h
  cases o <;> first | exact ho.elim | simp [Op.writes]

theorem writesOnly_reorg (newTip : BlockHash) :
    WritesOnly [.declaredJobs, .counters] (notifyShareChainReorg w newTip) :=
  writesOnly_of_ofReorg (only_reorg w newTip)

theorem lookups_eq_nil {α : Type} {p : Handler α}
    (h : p.Only fun o : Op => ∀ hash, o ≠ .getShareHeader hash) (s : Engine) :
    lookups env p s = [] := by
  rw [lookups, List.filterMap_eq_nil_iff]
  intro e he
  obtain ⟨o, r⟩ := e
  have ho := events_only h s ⟨o, r⟩ he
  cases o <;> first | rfl | exact absurd rfl (ho _)

theorem lookups_bump (c : Counter) (n : Nat) (s : Engine) : lookups env (bump w c n) s = [] :=
  lookups_eq_nil env (only_bump w (by simp)) s

/-- The handler looks up what its walk looks up. -/
theorem lookups_reorg (hw : w.handles = true) (newTip : BlockHash) (s : Engine) :
    lookups env (notifyShareChainReorg w newTip) s =
      lookups env (walkAncestors reorgAncestryDepth newTip [newTip])
        (s.bumped w .reorgNotifications 1) := by
  have hflush : ∀ s, lookups env (invalidateAll >>= bump w .jobsInvalidatedTotal) s = [] := by
    intro s
    rw [lookups_bind, lookups_bump]
    rfl
  have hretain : ∀ l s, lookups env
      (jobsRetain (survives l) >>= bump w .jobsInvalidatedTotal) s = [] := by
    intro l s
    rw [lookups_bind, lookups_bump]
    rfl
  rw [notifyShareChainReorg, lookups_bind, lookups_bump, run_bump, List.nil_append, if_pos hw,
    lookups_bind]
  match (run env.oracle (walkAncestors reorgAncestryDepth newTip [newTip])
      (s.bumped w .reorgNotifications 1)).1 with
  | none => exact (congrArg _ (hflush _)).trans (List.append_nil _)
  | some l => exact (congrArg _ (hretain l _)).trans (List.append_nil _)

theorem survives_iff (l : List BlockHash) (job : DeclaredJob) :
    survives l job = true ↔ ∃ h, job.shareChainTip = some h ∧ h ∈ l := by
  unfold survives
  cases job.shareChainTip <;> simp

/-- Without a failed lookup, the kept jobs are those whose tip is an ancestor
    of the new one within the hop bound. -/
theorem keeps_iff (hw : w.handles = true) (newTip : BlockHash) (s : Engine)
    (hok : ∀ l ∈ lookups env (walkAncestors reorgAncestryDepth newTip [newTip]) s, ¬ Failed l.2)
    (job : DeclaredJob) :
    env.keeps w newTip s job = true ↔
      ∃ h k, job.shareChainTip = some h ∧ k ≤ reorgAncestryDepth ∧
        ancestor env.shareHeader k newTip = some h := by
  have hnone := run_walkAncestors_eq_none env reorgAncestryDepth newTip [newTip] s
  rw [Env.keeps, if_pos hw]
  match hwalk : (run env.oracle (walkAncestors reorgAncestryDepth newTip [newTip]) s).1 with
  | none =>
    obtain ⟨l, hl, hf⟩ := hnone.mp hwalk
    exact absurd hf (hok l hl)
  | some l =>
    -- the walk starts with the new tip itself (step 0) and adds steps 1 to 100
    simp only [survives_iff, mem_walkAncestors env _ _ _ _ _ hwalk, List.mem_singleton]
    constructor
    · intro h
      obtain ⟨h, htip, rfl | ⟨k, hk, hanc⟩⟩ := h
      · exact ⟨h, 0, htip, Nat.zero_le _, rfl⟩
      · exact ⟨h, k + 1, htip, hk, hanc⟩
    · intro h
      obtain ⟨h, k, htip, hk, hanc⟩ := h
      refine ⟨h, htip, ?_⟩
      cases k with
      | zero => exact Or.inl (Option.some.inj hanc).symm
      | succ k => exact Or.inr ⟨k, hk, hanc⟩

/-- A failed lookup keeps nothing. -/
theorem keeps_failed (newTip : BlockHash) (s : Engine)
    (hf : ∃ l ∈ lookups env (walkAncestors reorgAncestryDepth newTip [newTip]) s, Failed l.2) :
    env.keeps w newTip s = fun _ => false := by
  have hwalk := (run_walkAncestors_eq_none env reorgAncestryDepth newTip [newTip] s).mpr hf
  simp only [Env.keeps, hwalk, ite_self]

/-- Which jobs a reorg keeps, from the header map alone. -/
theorem keeps_eq_true_iff (newTip : BlockHash) (s : Engine) (job : DeclaredJob) :
    env.keeps w newTip s job = true ↔
      w.handles = true ∧ Unbroken env.shareHeader newTip ∧
        DescendsFrom env.shareHeader job newTip := by
  by_cases hw : w.handles = true
  · by_cases hok : Unbroken env.shareHeader newTip
    · rw [keeps_iff w env hw newTip s ((unbroken_iff env newTip s).mp hok) job]
      exact ⟨fun hdesc => ⟨hw, hok, hdesc⟩, fun h => h.2.2⟩
    · have hfailed := hok
      rw [unbroken_iff env newTip s] at hfailed
      push Not at hfailed
      rw [keeps_failed w env newTip s hfailed]
      simp [hok]
  · simp [Env.keeps, hw]

/-- A reorg notification makes at most 100 lookups. It keeps exactly the jobs
    declared on an ancestor of the new tip within 100 predecessor steps, or
    nothing when a lookup fails; it counts what it drops and touches no other
    map. -/
theorem reorg_keeps_ancestors (hw : w.handles = true) (newTip : BlockHash) (s : Engine) :
    let s' := (run env.oracle (notifyShareChainReorg w newTip) s).2
    let made := lookups env (notifyShareChainReorg w newTip) s
    made.length ≤ 100 ∧
    ((∀ l ∈ made, ¬ Failed l.2) → ∀ r job, s'.declaredJobs.lookup r = some job ↔
      s.declaredJobs.lookup r = some job ∧
        ∃ h k, job.shareChainTip = some h ∧ k ≤ 100 ∧
          ancestor env.shareHeader k newTip = some h) ∧
    ((∃ l ∈ made, Failed l.2) → s'.declaredJobs = ∅) ∧
    (w.metrics = true →
      s'.counters .jobsInvalidatedTotal + s'.declaredJobs.len =
        s.counters .jobsInvalidatedTotal + s.declaredJobs.len) ∧
    s'.allocatedTokens = s.allocatedTokens ∧ s'.tokenPayout = s.tokenPayout ∧
    s'.userIdentifierIndex = s.userIdentifierIndex ∧
    s'.recentSolutions = s.recentSolutions ∧ s'.tdp = s.tdp ∧ s'.submitted = s.submitted := by
  intro s' made
  have hs' : s' = (s.bumped w .reorgNotifications 1).invalidated w
      (env.keeps w newTip (s.bumped w .reorgNotifications 1)) := by
    simp only [s', run_reorg]
  have hmade : made = lookups env (walkAncestors reorgAncestryDepth newTip [newTip])
      (s.bumped w .reorgNotifications 1) := lookups_reorg w env hw newTip s
  -- everything but the jobs and the counters is outside what the handler writes
  have hframe := writesOnly_reorg w newTip
  refine ⟨?_, ?_, ?_, ?_, run_allocatedTokens env hframe (by simp) s,
    (run_payouts env hframe (by simp) s).1, (run_payouts env hframe (by simp) s).2,
    run_recentSolutions env hframe (by simp) s, run_tdp env hframe (by simp) s,
    run_submitted env hframe (by simp) s⟩
  · rw [hmade]
    exact length_lookups_walkAncestors env reorgAncestryDepth newTip [newTip] _
  · intro hok r job
    rw [hmade] at hok
    rw [hs', lookup_invalidated, keeps_iff w env hw newTip _ hok, bumped_declaredJobs]
    rfl
  · intro hf
    rw [hmade] at hf
    rw [hs', keeps_failed w env newTip _ hf, Engine.invalidated, bumped_declaredJobs]
    exact DashMap.retain_false _
  · intro hm
    rw [hs', invalidated_count w hm, bumped_declaredJobs]
    simp [Engine.bumped, hm]

end

/-- A share chain of two blocks below the tip `[3; 32]`. -/
def threeShares (h : BlockHash) : Option ShareHeaderLookup :=
  if h = U256.fill 3 then some (.found (some (U256.fill 2)))
  else if h = U256.fill 2 then some (.found (some (U256.fill 1)))
  else if h = U256.fill 1 then some (.found none)
  else some .notFound

/-- A job declared on a given share-chain tip. -/
def jobOnShare (tip : BlockHash) : DeclaredJob where
  version := 0
  coinbaseTxPrefix := []
  coinbaseTxSuffix := []
  wtxidList := []
  txidList := some []
  tip := TipMetadata.default
  templateId := none
  shareChainTip := some tip
  validated := true
  allocatedToken := none

/-- A job declared two shares back survives a reorg, one declared on an
    abandoned branch does not. -/
theorem reorg_keeps_grandparent :
    let env := { Env.offline with shareHeader := threeShares }
    let s := { Engine.new with
      declaredJobs := ((∅ : DashMap RequestId DeclaredJob).insert 7
        (jobOnShare (U256.fill 9))).insert 8 (jobOnShare (U256.fill 1)) }
    let s' := (run env.oracle (notifyShareChainReorg ⟨true, true, true⟩ (U256.fill 3)) s).2
    s'.declaredJobs.lookup 8 = some (jobOnShare (U256.fill 1)) ∧
      s'.declaredJobs.lookup 7 = none := by
  intro env s s'
  have hkept := (reorg_keeps_ancestors ⟨true, true, true⟩ env rfl (U256.fill 3) s).2.1
    (by decide +kernel) 8 (jobOnShare (U256.fill 1))
  exact ⟨hkept.mpr ⟨by decide +kernel, U256.fill 1, 2, rfl, by decide, by decide +kernel⟩,
    by decide +kernel⟩

end Sv2P2pool
