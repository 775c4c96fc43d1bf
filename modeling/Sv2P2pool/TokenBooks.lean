import Sv2P2pool.Watcher

/-! # The Books of the Tokens

    An accepted declaration writes both maps: the job under its request id and
    the request id under its token. A custom job takes both entries out again.
    A reorg and a flush of the watcher drop jobs and leave their tokens, an
    eviction drops the payout binding of a token and leaves the token. The
    books stay balanced exactly in the runs where none of these meets a token
    that is still allocated.
-/

namespace Sv2P2pool

open ByteCodec Bitcoin Interleave

/-- A complete call, or one flush by `reorg_invalidator_loop`. -/
inductive BookAct where
  | call (env : Env) (c : Call)
  | flush (env : Env)

section

variable (cr : Crates) (w : Wiring)

def BookAct.perform (s : Engine) : BookAct → Engine
  | .call env c => (c.perform cr w env s).2
  | .flush env => (run env.oracle (invalidatorFlush w) s).2

/-- The state after a sequence of them. -/
def Engine.booked (s : Engine) (acts : List BookAct) : Engine :=
  acts.foldl (BookAct.perform cr w) s

/-- The token and the request id that an accepted declaration binds. -/
def BookAct.binds : BookAct → Option (JdToken × RequestId)
  | .call _ (.declare d pmts) =>
    match checkDeclaration cr d pmts with
    | .ok (t, _) => some (t, d.requestId)
    | .error _ => none
  | _ => none

/-- The request ids of the accepted declarations. -/
def acceptedIds (acts : List BookAct) : List RequestId :=
  acts.filterMap fun act => (act.binds cr).map Prod.snd

/-- The tokens evicted since they were last declared. -/
def BookAct.evicts (evicted : List JdToken) (act : BookAct) : List JdToken :=
  match act with
  | .call _ (.evict t) => t :: evicted
  | _ =>
    match act.binds cr with
    | some (t, _) => evicted.filter (· ≠ t)
    | none => evicted

def evictedTokens (acts : List BookAct) : List JdToken := acts.foldl (BookAct.evicts cr) []

/-- Every token belongs to the cached job it refers to, and to no evicted one. -/
structure Books (acts : List BookAct) (s : Engine) : Prop where
  refers : ∀ t r, s.allocatedTokens.lookup t = some r →
    ∃ job, s.declaredJobs.lookup r = some job ∧ job.allocatedToken = some t
  evicted : ∀ t ∈ evictedTokens cr acts, s.allocatedTokens.lookup t = none
  count : s.allocatedTokens.len ≤ s.declaredJobs.len

/-- The act leaves every allocated token alone: a reorg spares the jobs the
    tokens refer to, a flush and an eviction meet no token. -/
def BookAct.Orderly (s : Engine) : BookAct → Prop
  | .call env (.reorg newTip) =>
    ∀ t r job, s.allocatedTokens.lookup t = some r → s.declaredJobs.lookup r = some job →
      w.handles = true ∧ Unbroken env.shareHeader newTip ∧
        DescendsFrom env.shareHeader job newTip
  | .call _ (.evict t) => s.allocatedTokens.lookup t = none
  | .call _ _ => True
  | .flush _ => ∀ t, s.allocatedTokens.lookup t = none

/-- Every act of a run is orderly in the state it starts from. -/
def OrderlyRun (s : Engine) : List BookAct → Prop
  | [] => True
  | act :: acts => act.Orderly w s ∧ OrderlyRun (act.perform cr w s) acts

/-! ## What an act does to the two maps -/

inductive BookStep (s : Engine) : BookAct → Engine → Prop where
  | bound {s' : Engine} (act : BookAct) (t : JdToken) (r : RequestId) (job : DeclaredJob)
      (hbinds : act.binds cr = some (t, r)) (hjob : job.allocatedToken = some t)
      (hjobs : s'.declaredJobs = s.declaredJobs.insert r job)
      (htokens : s'.allocatedTokens = s.allocatedTokens.insert t r)
      (horderly : act.Orderly w s)
      (hevicts : ∀ evicted, act.evicts cr evicted = evicted.filter (· ≠ t)) : BookStep s act s'
  | consumed {s' : Engine} (env : Env) (m : SetCustomMiningJob) (t : JdToken)
      (hjobs : s'.declaredJobs = (s.consume t).2.declaredJobs)
      (htokens : s'.allocatedTokens = (s.consume t).2.allocatedTokens) :
      BookStep s (.call env (.setCustom m t)) s'
  | reorged {s' : Engine} (env : Env) (newTip : BlockHash)
      (hjobs : ∀ r job, s'.declaredJobs.lookup r = some job ↔
        s.declaredJobs.lookup r = some job ∧ w.handles = true ∧
          Unbroken env.shareHeader newTip ∧ DescendsFrom env.shareHeader job newTip)
      (htokens : s'.allocatedTokens = s.allocatedTokens) :
      BookStep s (.call env (.reorg newTip)) s'
  | flushed {s' : Engine} (env : Env) (hjobs : s'.declaredJobs = ∅)
      (htokens : s'.allocatedTokens = s.allocatedTokens) : BookStep s (.flush env) s'
  | evicted {s' : Engine} (env : Env) (t : JdToken) (hjobs : s'.declaredJobs = s.declaredJobs)
      (htokens : s'.allocatedTokens = s.allocatedTokens) :
      BookStep s (.call env (.evict t)) s'
  | kept {s' : Engine} (act : BookAct) (hjobs : s'.declaredJobs = s.declaredJobs)
      (htokens : s'.allocatedTokens = s.allocatedTokens) (hbinds : act.binds cr = none)
      (horderly : act.Orderly w s) (hevicts : ∀ evicted, act.evicts cr evicted = evicted) :
      BookStep s act s'

variable {cr w} {s : Engine} {acts : List BookAct}

theorem BookAct.perform_step (s : Engine) (act : BookAct) :
    BookStep cr w s act (act.perform cr w s) := by
  cases act with
  | flush env =>
    show BookStep cr w s (.flush env) (run env.oracle (invalidatorFlush w) s).2
    rw [run_invalidatorFlush]
    exact .flushed env (by simp [Engine.flushed]) (by simp [Engine.flushed])
  | call env c =>
    cases c with
    | allocate resolver token user maxSize =>
      have hw := writesOnly_allocate cr resolver token user maxSize
      exact .kept _ (run_declaredJobs env hw (by simp) s) (run_allocatedTokens env hw (by simp) s)
        rfl trivial fun _ => rfl
    | declare d pmts =>
      match hcheck : checkDeclaration cr d pmts with
      | .ok (t, txs) =>
        have hbinds : (BookAct.call env (.declare d pmts)).binds cr = some (t, d.requestId) := by
          simp [BookAct.binds, hcheck]
        refine .bound _ t d.requestId (jobFor cr w env s d t txs) hbinds rfl ?_ ?_ trivial ?_
        · simp only [BookAct.perform, Call.perform, run_declare_ok cr w env hcheck,
            bumped_declaredJobs]
          rfl
        · simp only [BookAct.perform, Call.perform, run_declare_ok cr w env hcheck,
            bumped_allocatedTokens]
          rfl
        · intro evicted
          simp [BookAct.evicts, hbinds]
      | .error result =>
        have hbinds : (BookAct.call env (.declare d pmts)).binds cr = none := by
          simp [BookAct.binds, hcheck]
        refine .kept _ ?_ ?_ hbinds trivial ?_
        · simp only [BookAct.perform, Call.perform, run_declare_error cr w env hcheck,
            bumped_declaredJobs]
        · simp only [BookAct.perform, Call.perform, run_declare_error cr w env hcheck,
            bumped_allocatedTokens]
        · intro evicted
          simp [BookAct.evicts, hbinds]
    | setCustom m t =>
      obtain ⟨hjobs, htokens⟩ := run_setCustom_maps cr w env s m t
      exact .consumed env m t hjobs htokens
    | push ps =>
      have hw := writesOnly_push cr w ps
      exact .kept _ (run_declaredJobs env hw (by simp) s) (run_allocatedTokens env hw (by simp) s)
        rfl trivial fun _ => rfl
    | reorg newTip =>
      -- the job map is filtered, the token map is not written
      refine .reorged env newTip ?_ ?_
      · intro r job
        simp only [BookAct.perform, Call.perform, run_reorg, lookup_invalidated,
          bumped_declaredJobs, keeps_eq_true_iff]
      · exact run_allocatedTokens env (writesOnly_reorg w newTip) (by simp) s
    | evict t =>
      have hw := writesOnly_evict t
      exact .evicted env t (run_declaredJobs env hw (by simp) s)
        (run_allocatedTokens env hw (by simp) s)
    | tdpMessage msg => exact .kept _ rfl rfl rfl trivial fun _ => rfl

/-! ## Runs -/

theorem booked_snoc (acts : List BookAct) (act : BookAct) :
    s.booked cr w (acts ++ [act]) = act.perform cr w (s.booked cr w acts) := by
  simp [Engine.booked]

theorem evictedTokens_snoc (acts : List BookAct) (act : BookAct) :
    evictedTokens cr (acts ++ [act]) = act.evicts cr (evictedTokens cr acts) := by
  simp [evictedTokens]

theorem acceptedIds_snoc (acts : List BookAct) (act : BookAct) :
    acceptedIds cr (acts ++ [act]) =
      acceptedIds cr acts ++ ((act.binds cr).map Prod.snd).toList := by
  unfold acceptedIds
  cases hbinds : act.binds cr <;> simp [hbinds]

theorem orderlyRun_snoc (acts : List BookAct) (act : BookAct) : ∀ s : Engine,
    OrderlyRun cr w s (acts ++ [act]) ↔
      OrderlyRun cr w s acts ∧ act.Orderly w (s.booked cr w acts) := by
  induction acts with
  | nil =>
    intro s
    simp [OrderlyRun, Engine.booked]
  | cons a acts ih =>
    intro s
    have hbooked : s.booked cr w (a :: acts) = (a.perform cr w s).booked cr w acts := rfl
    simp only [List.cons_append, OrderlyRun, ih, hbooked, and_assoc]

/-- Jobs are cached under the ids of accepted declarations. -/
theorem mem_acceptedIds (acts : List BookAct) : ∀ r job,
    (Engine.new.booked cr w acts).declaredJobs.lookup r = some job → r ∈ acceptedIds cr acts := by
  induction acts using List.reverseRecOn with
  | nil =>
    intro r job hjob
    simp [Engine.booked, Engine.new] at hjob
  | append_singleton acts act ih =>
    intro r job hjob
    rw [acceptedIds_snoc, List.mem_append]
    rw [booked_snoc] at hjob
    have hstep : BookStep cr w _ act (act.perform cr w (Engine.new.booked cr w acts)) :=
      BookAct.perform_step (Engine.new.booked cr w acts) act
    generalize act.perform cr w (Engine.new.booked cr w acts) = s' at hstep hjob
    cases hstep with
    | bound _ t r' job' hbinds hjob' hjobs =>
      rw [hjobs, DashMap.lookup_insert_eq] at hjob
      by_cases hr : r = r'
      · exact Or.inr (by simp [hbinds, hr])
      · rw [if_neg hr] at hjob
        exact Or.inl (ih r job hjob)
    | consumed env m t hjobs =>
      rw [hjobs] at hjob
      exact Or.inl (ih r job (consume_declaredJobs hjob))
    | reorged env newTip hjobs => exact Or.inl (ih r job ((hjobs r job).mp hjob).1)
    | flushed env hjobs =>
      rw [hjobs] at hjob
      simp at hjob
    | evicted env t hjobs =>
      rw [hjobs] at hjob
      exact Or.inl (ih r job hjob)
    | kept _ hjobs =>
      rw [hjobs] at hjob
      exact Or.inl (ih r job hjob)

/-! ## One act -/

/-- Two tokens never refer to the same job, so there are no more tokens than
    jobs. -/
theorem count_of_refers
    (href : ∀ t r, s.allocatedTokens.lookup t = some r →
      ∃ job, s.declaredJobs.lookup r = some job ∧ job.allocatedToken = some t) :
    s.allocatedTokens.len ≤ s.declaredJobs.len := by
  apply DashMap.len_le_of_refers
  · intro t r ht
    obtain ⟨job, hjob, -⟩ := href t r ht
    exact ⟨job, hjob⟩
  · intro t t' r ht ht'
    obtain ⟨job, hjob, htoken⟩ := href t r ht
    obtain ⟨job', hjob', htoken'⟩ := href t' r ht'
    rw [hjob] at hjob'
    rw [Option.some.inj hjob', htoken'] at htoken
    exact (Option.some.inj htoken).symm

/-- A new binding refers to its own job, and the older ones to theirs. -/
theorem Books.refers_insert {r : RequestId} {t : JdToken} {job : DeclaredJob}
    (hs : Books cr acts s) (hfresh : s.declaredJobs.lookup r = none)
    (hjob : job.allocatedToken = some t) (t' : JdToken) (r' : RequestId)
    (ht' : (s.allocatedTokens.insert t r).lookup t' = some r') :
    ∃ job', (s.declaredJobs.insert r job).lookup r' = some job' ∧
      job'.allocatedToken = some t' := by
  rw [DashMap.lookup_insert_eq] at ht'
  by_cases htt : t' = t
  · rw [if_pos htt] at ht'
    obtain rfl := Option.some.inj ht'
    exact ⟨job, by rw [DashMap.lookup_insert_eq, if_pos rfl], htt ▸ hjob⟩
  · rw [if_neg htt] at ht'
    obtain ⟨job', hjob', htoken'⟩ := hs.refers t' r' ht'
    -- the request id is new, so the older job is still there
    have hr : r' ≠ r := by
      intro heq
      rw [heq, hfresh] at hjob'
      cases hjob'
    exact ⟨job', by rw [DashMap.lookup_insert_eq, if_neg hr, hjob'], htoken'⟩

/-- A custom job takes out the job of its own token only. -/
theorem Books.refers_consume (hs : Books cr acts s) (t t' : JdToken) (r' : RequestId)
    (ht' : (s.consume t).2.allocatedTokens.lookup t' = some r') :
    ∃ job, (s.consume t).2.declaredJobs.lookup r' = some job ∧ job.allocatedToken = some t' := by
  unfold Engine.consume at ht' ⊢
  cases ht : s.allocatedTokens.lookup t with
  | none =>
    simp only [ht] at ht'
    exact hs.refers t' r' ht'
  | some r =>
    simp only [ht, DashMap.lookup_erase_eq] at ht' ⊢
    by_cases htt : t' = t
    · simp [htt] at ht'
    · rw [if_neg htt] at ht'
      obtain ⟨job', hjob', htoken'⟩ := hs.refers t' r' ht'
      obtain ⟨job, hjob, htoken⟩ := hs.refers t r ht
      -- a job carries one token, so the two jobs are different ones
      have hr : r' ≠ r := by
        intro heq
        rw [heq, hjob] at hjob'
        rw [← Option.some.inj hjob', htoken] at htoken'
        exact htt (Option.some.inj htoken').symm
      exact ⟨job', by rw [if_neg hr, hjob'], htoken'⟩

/-- An orderly act keeps the books. -/
theorem Books.perform {act : BookAct} {s' : Engine} (hs : Books cr acts s)
    (hfresh : ∀ t r, act.binds cr = some (t, r) → s.declaredJobs.lookup r = none)
    (hstep : BookStep cr w s act s') (horderly : act.Orderly w s) :
    Books cr (acts ++ [act]) s' := by
  -- the count follows from the references
  suffices h : (∀ t r, s'.allocatedTokens.lookup t = some r →
      ∃ job, s'.declaredJobs.lookup r = some job ∧ job.allocatedToken = some t) ∧
      ∀ t ∈ act.evicts cr (evictedTokens cr acts), s'.allocatedTokens.lookup t = none by
    rw [← evictedTokens_snoc] at h
    exact ⟨h.1, h.2, count_of_refers h.1⟩
  cases hstep with
  | bound _ t r job hbinds hjob hjobs htokens _ hevicts =>
    rw [hevicts, hjobs, htokens]
    refine ⟨hs.refers_insert (hfresh t r hbinds) hjob, ?_⟩
    intro t' ht'
    obtain ⟨hmem, hne⟩ := List.mem_filter.mp ht'
    rw [DashMap.lookup_insert_eq, if_neg (by simpa using hne)]
    exact hs.evicted t' hmem
  | consumed env m t hjobs htokens =>
    rw [hjobs, htokens]
    refine ⟨hs.refers_consume t, ?_⟩
    intro t' ht'
    rw [Option.eq_none_iff_forall_ne_some]
    intro r' hr'
    have hgone := hs.evicted t' ht'
    rw [consume_allocatedTokens hr'] at hgone
    cases hgone
  | reorged env newTip hjobs htokens =>
    rw [htokens]
    refine ⟨?_, hs.evicted⟩
    intro t r ht
    obtain ⟨job, hjob, htoken⟩ := hs.refers t r ht
    exact ⟨job, (hjobs r job).mpr ⟨hjob, horderly t r job ht hjob⟩, htoken⟩
  | flushed env hjobs htokens =>
    rw [htokens]
    refine ⟨?_, hs.evicted⟩
    intro t r ht
    rw [horderly t] at ht
    cases ht
  | evicted env t hjobs htokens =>
    rw [hjobs, htokens]
    refine ⟨hs.refers, ?_⟩
    intro t' ht'
    rcases List.mem_cons.mp ht' with rfl | hold
    · exact horderly
    · exact hs.evicted t' hold
  | kept _ hjobs htokens _ _ hevicts =>
    rw [hevicts, hjobs, htokens]
    exact ⟨hs.refers, hs.evicted⟩

/-- An act that keeps the books was orderly. -/
theorem Books.orderly {act : BookAct} {s' : Engine} (hs' : Books cr (acts ++ [act]) s')
    (hstep : BookStep cr w s act s') : act.Orderly w s := by
  cases hstep with
  | bound _ t r job hbinds hjob hjobs htokens horderly hevicts => exact horderly
  | consumed env m t hjobs htokens => trivial
  | reorged env newTip hjobs htokens =>
    intro t r job ht hjob
    obtain ⟨job', hjob', -⟩ := hs'.refers t r (by rw [htokens, ht])
    obtain ⟨hold, hkept⟩ := (hjobs r job').mp hjob'
    rw [hjob] at hold
    rw [Option.some.inj hold]
    exact hkept
  | flushed env hjobs htokens =>
    intro t
    match ht : s.allocatedTokens.lookup t with
    | none => rfl
    | some r =>
      obtain ⟨job, hjob, -⟩ := hs'.refers t r (by rw [htokens, ht])
      rw [hjobs] at hjob
      simp at hjob
  | evicted env t hjobs htokens =>
    have hgone := hs'.evicted t (by rw [evictedTokens_snoc]; exact List.mem_cons_self)
    rwa [htokens] at hgone
  | kept _ hjobs htokens hbinds horderly hevicts => exact horderly

theorem new_books : Books cr [] Engine.new where
  refers := by
    intro t r ht
    simp [Engine.new] at ht
  evicted := by
    intro t ht
    cases ht
  count := Nat.le_refl 0

/-- With distinct request ids, the books are balanced all along a run exactly
    when no reorg drops the job of an allocated token, no flush meets one and
    no eviction evicts one. -/
theorem token_books_balanced_iff (acts : List BookAct) (hids : (acceptedIds cr acts).Nodup) :
    (∀ before after, acts = before ++ after →
      Books cr before (Engine.new.booked cr w before)) ↔
    OrderlyRun cr w Engine.new acts := by
  -- on the run, from its end: the last act decides, what came before by `ih`
  induction acts using List.reverseRecOn with
  | nil =>
    constructor
    · intro _
      trivial
    · intro _ before after heq
      obtain ⟨rfl, -⟩ := List.append_eq_nil_iff.mp heq.symm
      exact new_books
  | append_singleton acts act ih =>
    rw [acceptedIds_snoc] at hids
    obtain ⟨hold, -, hdisj⟩ := List.nodup_append.mp hids
    have hstep : BookStep cr w _ act (act.perform cr w (Engine.new.booked cr w acts)) :=
      BookAct.perform_step (Engine.new.booked cr w acts) act
    have hfresh : ∀ t r, act.binds cr = some (t, r) →
        (Engine.new.booked cr w acts).declaredJobs.lookup r = none := by
      intro t r hbinds
      match hjob : (Engine.new.booked cr w acts).declaredJobs.lookup r with
      | none => rfl
      | some job =>
        have hused := mem_acceptedIds acts r job hjob
        exact absurd rfl (hdisj r hused r (by simp [hbinds]))
    rw [orderlyRun_snoc, ← ih hold]
    constructor
    · intro hall
      have hbefore : ∀ before after, acts = before ++ after →
          Books cr before (Engine.new.booked cr w before) := by
        intro before after heq
        exact hall before (after ++ [act]) (by rw [heq, List.append_assoc])
      have hlast := hall (acts ++ [act]) [] (by simp)
      rw [booked_snoc] at hlast
      exact ⟨hbefore, hlast.orderly hstep⟩
    · intro h
      obtain ⟨hbefore, horderly⟩ := h
      intro before after heq
      rcases List.eq_nil_or_concat after with rfl | ⟨after', last, rfl⟩
      · obtain rfl : acts ++ [act] = before := by simpa using heq
        rw [booked_snoc]
        exact (hbefore acts [] (by simp)).perform hfresh hstep horderly
      · rw [List.concat_eq_append, ← List.append_assoc] at heq
        exact hbefore before after' (List.append_inj' heq rfl).1

end

/-! ## A token and its job -/

namespace Sample

/-- A share chain whose tip is `[1; 32]`. -/
def onShares : Env :=
  { online with chainTip := some (some (U256.fill 1)), shareHeader := threeShares }

/-- A client declares a job on a share. -/
def declaredOnShare : List BookAct :=
  (announce (U256.fill 1)).map (fun c => .call c.1 c.2) ++ [.call onShares (declare 7 3 [9])]

/-- Two shares later the job is still there; then it is used up. -/
def usedUp : List BookAct :=
  declaredOnShare ++ [.call onShares (.evict 9)] ++ [.call onShares (.reorg (U256.fill 3))] ++
    [.call onShares (.setCustom (customJob (U256.fill 1) [9]) 3)]

end Sample

/-- The books of that run are balanced, also after a flush. -/
theorem orderly_run_balanced :
    (acceptedIds Sample.crates (Sample.usedUp ++ [.flush Sample.onShares])).Nodup ∧
      Books Sample.crates (Sample.usedUp ++ [.flush Sample.onShares])
        (Engine.new.booked Sample.crates Sample.wiring
          (Sample.usedUp ++ [.flush Sample.onShares])) := by
  have hids : (acceptedIds Sample.crates (Sample.usedUp ++ [.flush Sample.onShares])).Nodup := by
    decide +kernel
  have hdeclared : OrderlyRun Sample.crates Sample.wiring Engine.new Sample.declaredOnShare :=
    ⟨trivial, trivial, trivial, trivial⟩
  have hevict : (Engine.new.booked Sample.crates Sample.wiring
      Sample.declaredOnShare).allocatedTokens.lookup 9 = none := by decide +kernel
  have htips : ((Engine.new.booked Sample.crates Sample.wiring (Sample.declaredOnShare ++
      [.call Sample.onShares (.evict 9)])).declaredJobs.entries.map fun e =>
        e.2.shareChainTip) = [some (U256.fill 1)] := by decide +kernel
  have hempty : (Engine.new.booked Sample.crates Sample.wiring
      Sample.usedUp).allocatedTokens.entries = [] := by decide +kernel
  have hreorg : (BookAct.call Sample.onShares (.reorg (U256.fill 3))).Orderly Sample.wiring
      (Engine.new.booked Sample.crates Sample.wiring (Sample.declaredOnShare ++
        [.call Sample.onShares (.evict 9)])) := by
    intro t r job ht hjob
    have hmem := List.mem_map_of_mem (f := fun e => e.2.shareChainTip)
      ((DashMap.mem_entries_iff _ _ _).mpr hjob)
    have htip : job.shareChainTip = some (U256.fill 1) := List.mem_singleton.mp (htips ▸ hmem)
    refine ⟨rfl, (unbroken_iff Sample.onShares _ Engine.new).mpr (by decide +kernel), ?_⟩
    exact ⟨U256.fill 1, 2, htip, by decide, by decide +kernel⟩
  have hflush : (BookAct.flush Sample.onShares).Orderly Sample.wiring
      (Engine.new.booked Sample.crates Sample.wiring Sample.usedUp) := by
    intro t
    unfold AList.lookup
    rw [hempty]
    rfl
  refine ⟨hids, (token_books_balanced_iff _ hids).mpr ?_ _ [] (by simp)⟩
  rw [orderlyRun_snoc]
  refine ⟨?_, hflush⟩
  unfold Sample.usedUp
  rw [orderlyRun_snoc, orderlyRun_snoc, orderlyRun_snoc]
  exact ⟨⟨⟨hdeclared, hevict⟩, hreorg⟩, trivial⟩

/-- A reorg drops the job of a token and an eviction a token's payout, and the
    token stays. -/
theorem reorg_and_eviction_leave_tokens :
    let afterReorg := Sample.declaredOnShare ++ [.call Sample.onShares (.reorg (U256.fill 9))]
    let afterEvict := Sample.declaredOnShare ++ [.call Sample.onShares (.evict 3)]
    (acceptedIds Sample.crates afterReorg).Nodup ∧ (acceptedIds Sample.crates afterEvict).Nodup ∧
      ¬ Books Sample.crates afterReorg
        (Engine.new.booked Sample.crates Sample.wiring afterReorg) ∧
      ¬ Books Sample.crates afterEvict
        (Engine.new.booked Sample.crates Sample.wiring afterEvict) := by
  intro afterReorg afterEvict
  refine ⟨by decide +kernel, by decide +kernel, ?_, ?_⟩
  · intro h
    have hcount := h.count
    revert hcount
    decide +kernel
  · intro h
    have hgone := h.evicted 3 (by decide +kernel)
    revert hgone
    decide +kernel

end Sv2P2pool
