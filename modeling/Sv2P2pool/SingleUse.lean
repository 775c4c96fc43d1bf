import Sv2P2pool.Framework.Tickets
import Sv2P2pool.Overlap

/-! # One Declaration, One Custom Job

    A custom job reads its token and removes it in two steps, so two calls
    can resolve the same token. Single use rests on the removal from the
    other map, which is atomic. To tell apart two insertions of equal jobs
    the insertions are numbered (`Tickets`).
-/

namespace Sv2P2pool

open ByteCodec Bitcoin Interleave

/-! ## The ledger -/

section ledger

variable {ι E : Type}

/-- What a step does to the cache of declared jobs. -/
def cacheEvent : Label engineSig ι E → Option (MapEvent RequestId DeclaredJob ι)
  | .thread _ ⟨.jobsInsert r job, _⟩ => some (.insert r job)
  | .thread i ⟨.jobsRemove r, _⟩ => some (.remove i r)
  | .thread _ ⟨.jobsClear, _⟩ => some (.retain fun _ _ => false)
  | .thread _ ⟨.jobsRetain keep, _⟩ => some (.retain fun _ job => keep job)
  | _ => none

/-- The cache with its insertions numbered, and which call consumed which. -/
def ledger (labels : List (Label engineSig ι E)) : Tickets RequestId DeclaredJob ι :=
  Tickets.after (labels.filterMap cacheEvent)

variable {labels : List (Label engineSig ι E)} {l : Label engineSig ι E}

theorem ledger_snoc_some {e : MapEvent RequestId DeclaredJob ι} (h : cacheEvent l = some e) :
    ledger (labels ++ [l]) = (ledger labels).step e := by
  unfold ledger
  simp [h, Tickets.after_snoc]

theorem ledger_snoc_none (h : cacheEvent l = none) : ledger (labels ++ [l]) = ledger labels := by
  unfold ledger
  simp [h]

theorem ledger_valid : (ledger labels).Valid := Tickets.valid_after _

theorem inserted_ledger : (ledger labels).inserted = labels.filterMap jobInserted := by
  unfold ledger
  rw [Tickets.inserted_after, List.filterMap_filterMap]
  congr 1
  funext l
  rcases l with ⟨i, o, r⟩ | a
  · cases o <;> rfl
  · rfl

/-- What was inserted and consumed only grows. -/
theorem ledger_mono (labels : List (Label engineSig ι E)) (l : Label engineSig ι E) :
    (ledger labels).inserted <+: (ledger (labels ++ [l])).inserted ∧
      (ledger labels).taken <+: (ledger (labels ++ [l])).taken := by
  cases h : cacheEvent l with
  | none =>
    rw [ledger_snoc_none h]
    exact ⟨List.prefix_rfl, List.prefix_rfl⟩
  | some e =>
    rw [ledger_snoc_some h]
    exact Tickets.mono_step _ e

/-- The ledger follows the cache. -/
theorem tracks_snoc {m m' : DashMap RequestId DeclaredJob} {i : ι} {e : Event engineSig}
    (h : (ledger labels).Tracks m) (hstep : CacheStep m e m') :
    (ledger (labels ++ [.thread i e])).Tracks m' := by
  cases hstep with
  | inserted r job =>
    rw [ledger_snoc_some (e := .insert r job) rfl]
    exact h.insert r job
  | removed r =>
    rw [ledger_snoc_some (e := .remove i r) rfl]
    exact h.remove i r
  | cleared =>
    rw [ledger_snoc_some (e := .retain fun _ _ => false) rfl, ← DashMap.retain_false m]
    exact h.retain _
  | retained keep dropped =>
    rw [ledger_snoc_some (e := .retain fun _ job => keep job) rfl]
    exact h.retain _
  | kept e he =>
    rw [ledger_snoc_none]
    · exact h
    · obtain ⟨o, r⟩ := e
      cases o <;> first | rfl | exact absurd rfl he

end ledger

section

variable {ι : Type} {labels : List (Label engineSig ι TemplateDistribution)}
  {l : Label engineSig ι TemplateDistribution}

/-- The step binds the token to a declaration. -/
def binds (t : JdToken) : Label engineSig ι TemplateDistribution → Bool
  | .thread _ ⟨.tokensInsert t' _, _⟩ => t' = t
  | _ => false

/-! ## Every consumption is of one insertion -/

variable [DecidableEq ι] {cr : Crates} {w : Wiring} {call : ι → JobCall}
  {c c' : Config engineSig Engine JobAnswer ι}

/-- The ledger is the cache, and names an insertion for every job that a call
    has consumed. -/
structure LedgerInv (labels : List (Label engineSig ι TemplateDistribution))
    (c : Config engineSig Engine JobAnswer ι) : Prop where
  tracks : (ledger labels).Tracks c.shared.declaredJobs
  consumed : ∀ i r job, ⟨.jobsRemove r, some job⟩ ∈ (c.threads i).log →
    ∃ n, (i, n) ∈ (ledger labels).taken ∧ (ledger labels).inserted[n]? = some (r, job)

omit [DecidableEq ι] in
theorem ledgerInv_nil : LedgerInv [] (jobCalls cr w Engine.new call) where
  tracks r := rfl
  consumed i r job h := by cases h

theorem LedgerInv.step (h : LedgerInv labels c) (hstep : JobStep c l c') :
    LedgerInv (labels ++ [l]) c' := by
  obtain ⟨hins, htaken⟩ := ledger_mono labels l
  have hold : ∀ i r job, ⟨.jobsRemove r, some job⟩ ∈ (c.threads i).log →
      ∃ n, (i, n) ∈ (ledger (labels ++ [l])).taken ∧
        (ledger (labels ++ [l])).inserted[n]? = some (r, job) := by
    intro i r job hmem
    obtain ⟨n, hn, hjob⟩ := h.consumed i r job hmem
    exact ⟨n, htaken.subset hn, getElem?_of_prefix hins hjob⟩
  cases hstep with
  | env msg => exact ⟨by rw [ledger_snoc_none rfl]; exact h.tracks, hold⟩
  | @thread j o k r s' hprog hI =>
    refine ⟨tracks_snoc h.tracks (parInterp_cache hI), fun i r' job hmem => ?_⟩
    rcases mem_log_update.mp hmem with hmem | ⟨rfl, heq⟩
    · exact hold i r' job hmem
    · -- the removal of this step takes the number of the entry it finds
      cases heq
      have hlookup : c.shared.declaredJobs.lookup r' = some job := by
        obtain ⟨env, henv⟩ := hI
        exact (Prod.mk.inj henv).1.symm
      rw [ledger_snoc_some (e := .remove i r') rfl]
      obtain ⟨n, hn, hjob⟩ := h.tracks.taken ledger_valid hlookup i
      exact ⟨n, hn, getElem?_of_prefix (Tickets.mono_step _ _).1 hjob⟩

theorem ledgerInv (h : Trace JobStep (jobCalls cr w Engine.new call) labels c) :
    LedgerInv labels c :=
  Trace.history ledgerInv_nil (fun _ _ _ _ hinv hstep => hinv.step hstep) labels h

/-! ## Two calls with one token -/

/-- The calls `i` and `j` with token `t` start with the token bound to
    `found`, and no declaration comes in between. -/
structure OneTaker (i j : ι) (t : JdToken) (found : Option RequestId)
    (c : Config engineSig Engine JobAnswer ι) : Prop where
  token : ∀ r, c.shared.allocatedTokens.lookup t = some r → found = some r
  read : ∀ k, k = i ∨ k = j → ∀ r, ⟨.tokensGet t, some r⟩ ∈ (c.threads k).log → found = some r
  gone : ∀ k, k = i ∨ k = j → ∀ r job, ⟨.jobsRemove r, some job⟩ ∈ (c.threads k).log →
    c.shared.declaredJobs.lookup r = none
  one : ∀ r job job', ⟨.jobsRemove r, some job⟩ ∈ (c.threads i).log →
    ⟨.jobsRemove r, some job'⟩ ∉ (c.threads j).log

/-- Without an insertion a job that is gone stays gone. -/
theorem CacheStep.lookup_none {m m' : DashMap RequestId DeclaredJob} {e : Event engineSig}
    (h : CacheStep m e m') (hno : ∀ r job, e ≠ ⟨.jobsInsert r job, ()⟩) {r : RequestId}
    (hr : m.lookup r = none) : m'.lookup r = none := by
  cases h with
  | inserted r' job => exact absurd rfl (hno r' job)
  | removed r' => rw [DashMap.lookup_erase_eq, hr, ite_self]
  | cleared => rfl
  | retained keep dropped =>
    apply Option.eq_none_iff_forall_ne_some.mpr
    intro job hjob
    rw [((DashMap.lookup_retain_eq_some _ _ _ _).mp hjob).1] at hr
    cases hr
  | kept e he => exact hr

/-- Without a binding a token resolves as before or not at all. -/
theorem TokensStep.lookup_some {m m' : DashMap JdToken RequestId} {e : Event engineSig}
    (h : TokensStep m e m') {t : JdToken} (hno : ∀ r, e ≠ ⟨.tokensInsert t r, ()⟩)
    {r : RequestId} (hr : m'.lookup t = some r) : m.lookup t = some r := by
  cases h with
  | inserted t' r' =>
    rw [DashMap.lookup_insert_eq] at hr
    split_ifs at hr with heq
    · subst heq
      exact absurd rfl (hno r')
    · exact hr
  | removed t' =>
    rw [DashMap.lookup_erase_eq] at hr
    split_ifs at hr
    exact hr
  | read t' => exact hr
  | kept e he hread => exact hr

theorem OneTaker.step {i j : ι} {t : JdToken} {found : Option RequestId} (hij : i ≠ j)
    (h : OneTaker i j t found c) (hstep : JobStep c l c') (hins : jobInserted l = none)
    (hbind : binds t l = false) : OneTaker i j t found c' := by
  cases hstep with
  | env msg => exact ⟨h.token, h.read, h.gone, h.one⟩
  | @thread k o next res s' hprog hI =>
    have hnoJob : ∀ r job, (⟨o, res⟩ : Event engineSig) ≠ ⟨.jobsInsert r job, ()⟩ := by
      intro r job heq
      cases heq
      cases hins
    have hnoToken : ∀ r, (⟨o, res⟩ : Event engineSig) ≠ ⟨.tokensInsert t r, ()⟩ := by
      intro r heq
      cases heq
      simp [binds] at hbind
    have hgone := parInterp_cache hI
    have htoken := parInterp_tokens hI
    -- without inserts the two maps only shrink
    refine ⟨fun r hr => h.token r (htoken.lookup_some hnoToken hr), fun k' hk' r hmem => ?_,
      fun k' hk' r job hmem => ?_, fun r job job' hi hj => ?_⟩
    · rcases mem_log_update.mp hmem with hmem | ⟨rfl, heq⟩
      · exact h.read k' hk' r hmem
      · cases heq
        obtain ⟨env, henv⟩ := hI
        exact h.token r (Prod.mk.inj henv).1.symm
    · rcases mem_log_update.mp hmem with hmem | ⟨rfl, heq⟩
      · exact hgone.lookup_none hnoJob (h.gone k' hk' r job hmem)
      · cases heq
        obtain ⟨env, henv⟩ := hI
        obtain ⟨-, rfl⟩ := Prod.mk.inj henv
        simp
    · -- the second removal would have to find what the first one took
      have hfound : ∀ {job}, (⟨.jobsRemove r, some job⟩ : Event engineSig) = ⟨o, res⟩ →
          c.shared.declaredJobs.lookup r ≠ none := by
        intro job heq
        cases heq
        obtain ⟨env, henv⟩ := hI
        rw [← (Prod.mk.inj henv).1]
        simp
      rcases mem_log_update.mp hi with hi' | ⟨hk, heq⟩
      · rcases mem_log_update.mp hj with hj' | ⟨-, heq⟩
        · exact h.one r job job' hi' hj'
        · exact hfound heq (h.gone i (Or.inl rfl) r job hi')
      · rcases mem_log_update.mp hj with hj' | ⟨hk', -⟩
        · exact hfound heq (h.gone j (Or.inr rfl) r job' hj')
        · exact hij (hk.trans hk'.symm)

/-- A custom job that removed a job had read its key under the token. -/
theorem tokensGet_of_jobsRemove (h : Trace JobStep (jobCalls cr w Engine.new call) labels c)
    {i : ι} {m : SetCustomMiningJob} {t : JdToken} (hcall : call i = .setCustom m t)
    {r : RequestId} {job : Option DeclaredJob}
    (hmem : ⟨.jobsRemove r, job⟩ ∈ (c.threads i).log) :
    ⟨.tokensGet t, some r⟩ ∈ (c.threads i).log := by
  obtain ⟨before, hsub, m', t', hcall', rfl⟩ := (conforms_of_trace h i).2.mem hmem
  rw [hcall] at hcall'
  cases hcall'
  exact hsub List.mem_cons_self

/-- Two calls with one token between whose start and end no declaration
    inserts a job or binds the token. -/
theorem not_both_success {before after : List (Label engineSig ι TemplateDistribution)}
    {start c : Config engineSig Engine JobAnswer ι} {i j : ι} {m m' : SetCustomMiningJob}
    {t : JdToken} (hbefore : Trace JobStep (jobCalls cr w Engine.new call) before start)
    (hafter : Trace JobStep start after c) (hij : i ≠ j) (hi : call i = .setCustom m t)
    (hj : call j = .setCustom m' t) (hi₀ : (start.threads i).log = [])
    (hj₀ : (start.threads j).log = [])
    (hno : ∀ l ∈ after, jobInserted l = none ∧ binds t l = false) :
    ¬ ((c.threads i).prog = .ret (.custom .success) ∧
      (c.threads j).prog = .ret (.custom .success)) := by
  intro hboth
  have hrun := (Trace.append_iff before after _ _).mpr ⟨start, hbefore, hafter⟩
  have hstart : OneTaker i j t (start.shared.allocatedTokens.lookup t) start := by
    have hnil : ∀ k, k = i ∨ k = j → (start.threads k).log = [] := by
      intro k hk
      rcases hk with rfl | rfl
      · exact hi₀
      · exact hj₀
    refine ⟨fun r hr => hr, fun k hk r hmem => ?_, fun k hk r job hmem => ?_,
      fun r job job' hmem => ?_⟩
    · rw [hnil k hk] at hmem
      cases hmem
    · rw [hnil k hk] at hmem
      cases hmem
    · rw [hi₀] at hmem
      cases hmem
  have hend := Trace.invariant (P := OneTaker i j t _)
    (fun _ _ _ hinv hstep => hinv.step hij hstep.1 hstep.2.1 hstep.2.2) (hafter.guard hno) hstart
  obtain ⟨r, job, hr⟩ := consumed_of_success hrun hboth.1
  obtain ⟨r', job', hr'⟩ := consumed_of_success hrun hboth.2
  -- both resolved the token to the same declaration
  have hread := hend.read i (Or.inl rfl) r (tokensGet_of_jobsRemove hrun hi hr)
  have hread' := hend.read j (Or.inr rfl) r' (tokensGet_of_jobsRemove hrun hj hr')
  obtain rfl := Option.some.inj (hread.symm.trans hread')
  exact hend.one r job job' hr hr'

/-- In every interleaving of declarations, custom jobs, solutions and
    invalidations: every job a custom job consumes is an insertion of its own,
    the calls that succeeded are at most as many as the insertions, and two
    calls with one token succeed both only when a declaration inserted a job
    or bound the token after the first of them started. -/
theorem one_declaration_one_custom_job
    (h : Trace JobStep (jobCalls cr w Engine.new call) labels c) :
    (ledger labels).Tracks c.shared.declaredJobs ∧
    (ledger labels).inserted = labels.filterMap jobInserted ∧
    (∀ i r job, ⟨.jobsRemove r, some job⟩ ∈ (c.threads i).log →
      ∃ n, (i, n) ∈ (ledger labels).taken ∧ (ledger labels).inserted[n]? = some (r, job)) ∧
    ((ledger labels).taken.map Prod.snd).Nodup ∧
    (∀ calls : List ι, calls.Nodup →
      (∀ i ∈ calls, (c.threads i).prog = .ret (.custom .success)) →
      calls.length ≤ (labels.filterMap jobInserted).length) ∧
    (∀ before after start i j m m' t, labels = before ++ after →
      Trace JobStep (jobCalls cr w Engine.new call) before start → Trace JobStep start after c →
      i ≠ j → call i = .setCustom m t → call j = .setCustom m' t →
      (start.threads i).log = [] → (start.threads j).log = [] →
      (∀ l ∈ after, jobInserted l = none ∧ binds t l = false) →
      ¬ ((c.threads i).prog = .ret (.custom .success) ∧
        (c.threads j).prog = .ret (.custom .success))) := by
  have hinv := ledgerInv h
  refine ⟨hinv.tracks, inserted_ledger, hinv.consumed, ledger_valid.nodup, ?_, ?_⟩
  · intro calls hnodup hsuccess
    rw [← inserted_ledger]
    refine ledger_valid.length_callers_le hnodup fun i hi => ?_
    obtain ⟨r, job, hr⟩ := consumed_of_success h (hsuccess i hi)
    obtain ⟨n, hn, -⟩ := hinv.consumed i r job hr
    exact ⟨n, hn⟩
  · intro before after start i j m m' t _ hbefore hafter hij hi hj hi₀ hj₀ hno
    exact not_both_success hbefore hafter hij hi hj hi₀ hj₀ hno

end

/-! ## Two declarations of one token -/

namespace Sample

/-- Two declarations with token 3 and two custom jobs for it. -/
def sharedToken : Fin 4 → JobCall
  | 0 => declaring 7 3
  | 1 => declaring 8 3
  | 2 => setting 3
  | 3 => setting 3

def sharedTokenCalls : Config engineSig Engine JobAnswer (Fin 4) :=
  jobCalls crates wiring Engine.new sharedToken

/-- The first declaration runs. -/
def declaredOnce : List (Fin 4 ⊕ TemplateDistribution) := List.replicate 6 (.inl 0)

/-- Both custom jobs resolve the token before one of them removes it. -/
def bothResolve : List (Fin 4 ⊕ TemplateDistribution) :=
  [.inl 2, .inl 3] ++ List.replicate 4 (.inl 2) ++ List.replicate 4 (.inl 3)

/-- The first declaration runs, the second has inserted its job. -/
def bothInserted : List (Fin 4 ⊕ TemplateDistribution) :=
  declaredOnce ++ List.replicate 4 (.inl 1)

/-- The second declaration binds the token after the first custom job has
    consumed its job. -/
def boundBetween : List (Fin 4 ⊕ TemplateDistribution) :=
  List.replicate 3 (.inl 2) ++ [.inl 1] ++ List.replicate 5 (.inl 3) ++ List.replicate 2 (.inl 2)

end Sample

/-- Both calls resolve the token, and one of them succeeds. -/
theorem one_custom_job_of_two :
    let start := Sample.sharedTokenCalls.play Sample.online.parStep teeAct Sample.declaredOnce
    let c := start.play Sample.online.parStep teeAct Sample.bothResolve
    (c.threads 2).prog = .ret (.custom .success) ∧
    (c.threads 3).prog ≠ .ret (.custom .success) := by
  intro start c
  have hbefore := Sample.played_run Sample.sharedTokenCalls Sample.declaredOnce
  have hafter : Trace JobStep start (Sample.played start Sample.bothResolve) c :=
    Sample.played_run start Sample.bothResolve
  have hrun := (Trace.append_iff _ _ _ _).mpr ⟨start, hbefore, hafter⟩
  have hplayed : (start.threads 2).log.length = 0 ∧ (start.threads 3).log.length = 0 ∧
      ((Sample.played start Sample.bothResolve).all fun l =>
        (jobInserted l).isNone && !binds 3 l) = true ∧
      (c.threads 2).prog.result? = some (.custom .success) := by decide +kernel
  obtain ⟨hlog, hlog', hno, hresult⟩ := hplayed
  have hsuccess : (c.threads 2).prog = .ret (.custom .success) := Prog.eq_ret_of_result? hresult
  have hnot := (one_declaration_one_custom_job hrun).2.2.2.2.2 _ _ start 2 3 _ _ 3 rfl hbefore
    hafter (by decide) rfl rfl (List.eq_nil_of_length_eq_zero hlog)
    (List.eq_nil_of_length_eq_zero hlog')
    (fun l hl => by simpa using List.all_eq_true.mp hno l hl)
  exact ⟨hsuccess, fun hother => hnot ⟨hsuccess, hother⟩⟩

/-- Two custom jobs with one token both succeed although no declaration
    inserts a job after the first of them has started: one inserted its job
    before and binds the token late. -/
theorem both_succeed_after_late_binding :
    let start := Sample.sharedTokenCalls.play Sample.online.parStep teeAct Sample.bothInserted
    let c := start.play Sample.online.parStep teeAct Sample.boundBetween
    Trace JobStep Sample.sharedTokenCalls
      (Sample.played Sample.sharedTokenCalls Sample.bothInserted) start ∧
    Trace JobStep start (Sample.played start Sample.boundBetween) c ∧
    Sample.sharedToken 2 = Sample.setting 3 ∧ Sample.sharedToken 3 = Sample.setting 3 ∧
    (start.threads 2).log = [] ∧ (start.threads 3).log = [] ∧
    (Sample.played start Sample.boundBetween).filterMap jobInserted = [] ∧
    (c.threads 2).prog = .ret (.custom .success) ∧
    (c.threads 3).prog = .ret (.custom .success) := by
  intro start c
  have hplayed : (start.threads 2).log.length = 0 ∧ (start.threads 3).log.length = 0 ∧
      ((Sample.played start Sample.boundBetween).filterMap jobInserted).length = 0 ∧
      (c.threads 2).prog.result? = some (.custom .success) ∧
      (c.threads 3).prog.result? = some (.custom .success) := by decide +kernel
  obtain ⟨hlog, hlog', hnone, hresult, hresult'⟩ := hplayed
  exact ⟨Sample.played_run Sample.sharedTokenCalls Sample.bothInserted,
    Sample.played_run start Sample.boundBetween, rfl, rfl,
    List.eq_nil_of_length_eq_zero hlog, List.eq_nil_of_length_eq_zero hlog',
    List.eq_nil_of_length_eq_zero hnone, Prog.eq_ret_of_result? hresult,
    Prog.eq_ret_of_result? hresult'⟩

end Sv2P2pool
