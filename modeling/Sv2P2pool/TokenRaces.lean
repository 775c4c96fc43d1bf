import Sv2P2pool.Overlap

/-! # A Token Declared Again

    A custom job reads the declaration of its token and then removes the
    token by its key, whatever it is bound to by then. A declaration that
    binds the token to another request id in between succeeds, and the
    removal takes its binding away: its job stays cached and no token leads
    to it.
-/

namespace Sv2P2pool

open ByteCodec Bitcoin Interleave

/-- The two calls. -/
inductive Racer where
  | custom
  | declare
  deriving DecidableEq

/-- A custom job and a declaration. -/
def racing (m : SetCustomMiningJob) (t : JdToken) (d : DeclareMiningJob)
    (pmts : Option ProvideMissingTransactionsSuccess) : Racer → JobCall
  | .custom => .setCustom m t
  | .declare => .declare d pmts

/-- When the declaration bound the token, the custom job had read it and had
    not yet removed it. -/
def BoundInWindow (t : JdToken) (r : RequestId)
    (labels : List (Label engineSig Racer TemplateDistribution)) : Prop :=
  ∃ before after, labels = before ++ .thread .declare ⟨.tokensInsert t r, ()⟩ :: after ∧
    (∃ x, .thread .custom ⟨.tokensGet t, x⟩ ∈ before) ∧
    .thread .custom ⟨.tokensRemove t, ()⟩ ∉ before

section

variable {cr : Crates} {w : Wiring} {s : Engine} {m : SetCustomMiningJob} {t : JdToken}
  {d : DeclareMiningJob} {pmts : Option ProvideMissingTransactionsSuccess} {r₁ r₂ : RequestId}
  {labels : List (Label engineSig Racer TemplateDistribution)}
  {l : Label engineSig Racer TemplateDistribution}
  {c c' : Config engineSig Engine JobAnswer Racer}

/-! ## The steps of the race -/

/-- Events that touch the token or one of the two jobs. -/
def Touches : Event engineSig → Prop
  | ⟨.tokensGet _, _⟩ | ⟨.tokensRemove _, _⟩ | ⟨.tokensInsert _ _, _⟩ => True
  | ⟨.jobsRemove _, _⟩ | ⟨.jobsInsert _ _, _⟩ => True
  | _ => False

/-- What a step of the two calls does to token `t`, to the job `r₂` of the
    declaration and to the logs. -/
inductive RaceStep (t : JdToken) (r₂ : RequestId) (c c' : Config engineSig Engine JobAnswer Racer) :
    Label engineSig Racer TemplateDistribution → Prop where
  | other (l : Label engineSig Racer TemplateDistribution)
      (hl : l ≠ .thread .declare ⟨.tokensInsert t r₂, ()⟩)
      (hlogs : ∀ i e, Touches e → (e ∈ (c'.threads i).log ↔ e ∈ (c.threads i).log))
      (htoken : c'.shared.allocatedTokens.lookup t = c.shared.allocatedTokens.lookup t)
      (hjob : c'.shared.declaredJobs.lookup r₂ = c.shared.declaredJobs.lookup r₂) :
      RaceStep t r₂ c c' l
  | read (hlog : (c.threads .custom).log = [])
      (hlog' : (c'.threads .custom).log =
        [⟨.tokensGet t, c.shared.allocatedTokens.lookup t⟩])
      (hdeclare : (c'.threads .declare).log = (c.threads .declare).log)
      (htoken : c'.shared.allocatedTokens.lookup t = c.shared.allocatedTokens.lookup t)
      (hjob : c'.shared.declaredJobs.lookup r₂ = c.shared.declaredJobs.lookup r₂) :
      RaceStep t r₂ c c' (.thread .custom ⟨.tokensGet t, c.shared.allocatedTokens.lookup t⟩)
  | removed (r : RequestId) (hlog : (c.threads .custom).log = [⟨.tokensGet t, some r⟩])
      (hlog' : (c'.threads .custom).log =
        [⟨.tokensGet t, some r⟩, ⟨.tokensRemove t, ()⟩])
      (hdeclare : (c'.threads .declare).log = (c.threads .declare).log)
      (htoken : c'.shared.allocatedTokens.lookup t = none)
      (hjob : c'.shared.declaredJobs.lookup r₂ = c.shared.declaredJobs.lookup r₂) :
      RaceStep t r₂ c c' (.thread .custom ⟨.tokensRemove t, ()⟩)
  | consumed (r : RequestId)
      (hlog : (c.threads .custom).log = [⟨.tokensGet t, some r⟩, ⟨.tokensRemove t, ()⟩])
      (hlog' : (c'.threads .custom).log = [⟨.tokensGet t, some r⟩, ⟨.tokensRemove t, ()⟩,
        ⟨.jobsRemove r, c.shared.declaredJobs.lookup r⟩])
      (hdeclare : (c'.threads .declare).log = (c.threads .declare).log)
      (htoken : c'.shared.allocatedTokens.lookup t = c.shared.allocatedTokens.lookup t)
      (hjob : r ≠ r₂ → c'.shared.declaredJobs.lookup r₂ = c.shared.declaredJobs.lookup r₂) :
      RaceStep t r₂ c c' (.thread .custom ⟨.jobsRemove r, c.shared.declaredJobs.lookup r⟩)
  | inserted (job : DeclaredJob)
      (hno : ∀ r job, ⟨.jobsInsert r job, ()⟩ ∉ (c.threads .declare).log)
      (hcustom : (c'.threads .custom).log = (c.threads .custom).log)
      (hlog' : (c'.threads .declare).log = (c.threads .declare).log ++ [⟨.jobsInsert r₂ job, ()⟩])
      (htoken : c'.shared.allocatedTokens.lookup t = c.shared.allocatedTokens.lookup t)
      (hjob : c'.shared.declaredJobs.lookup r₂ = some job) :
      RaceStep t r₂ c c' (.thread .declare ⟨.jobsInsert r₂ job, ()⟩)
  | bound (job : DeclaredJob) (hins : ⟨.jobsInsert r₂ job, ()⟩ ∈ (c.threads .declare).log)
      (hno : ∀ t' r', ⟨.tokensInsert t' r', ()⟩ ∉ (c.threads .declare).log)
      (hcustom : (c'.threads .custom).log = (c.threads .custom).log)
      (hlog' : (c'.threads .declare).log = (c.threads .declare).log ++ [⟨.tokensInsert t r₂, ()⟩])
      (htoken : c'.shared.allocatedTokens.lookup t = some r₂)
      (hjob : c'.shared.declaredJobs.lookup r₂ = c.shared.declaredJobs.lookup r₂) :
      RaceStep t r₂ c c' (.thread .declare ⟨.tokensInsert t r₂, ()⟩)

/-- An operation on neither map is none of the steps of the race. -/
theorem raceStep_other {i : Racer} {o : Op} {res : o.Res} {s' : Engine} {p : Handler JobAnswer}
    (hI : parInterp c.shared o res s') (hjobs : o.writes ≠ some .declaredJobs)
    (htokens : o.writes ≠ some .allocatedTokens) (htouch : ¬ Touches ⟨o, res⟩) :
    RaceStep t r₂ c
      ⟨s', Function.update c.threads i ⟨p, (c.threads i).log ++ [⟨o, res⟩]⟩⟩
      (.thread i ⟨o, res⟩) := by
  refine .other _ (fun heq => ?_) (fun j e he => ?_) ?_ ?_
  · cases heq
    exact htouch trivial
  · rw [mem_log_update]
    refine ⟨fun h => h.resolve_right fun hnew => ?_, Or.inl⟩
    exact htouch (hnew.2 ▸ he)
  · rw [(parInterp_tokens hI).eq_of_writes htokens]
  · rw [(parInterp_cache hI).eq_of_writes hjobs]

theorem raceStep (hrun : Trace JobStep (jobCalls cr w s (racing m t d pmts)) labels c)
    (htoken : decodeToken d = some t) (hstep : JobStep c l c') :
    RaceStep t d.requestId c c' l := by
  cases hstep with
  | env msg => exact .other _ (by simp) (fun _ _ _ => Iff.rfl) rfl rfl
  | @thread i o k res s' hprog hI =>
    have hconf := conforms_of_step hrun hprog
    -- each of the five operations on the two maps belongs to one racer
    cases o with
    | tokensGet t' =>
      obtain ⟨m', hcall, hlog⟩ := hconf
      cases i with
      | declare => cases hcall
      | custom =>
        cases hcall
        obtain ⟨env, heq⟩ := hI
        obtain ⟨rfl, rfl⟩ := Prod.mk.inj heq
        exact .read hlog (by simp [hlog]) (by simp) rfl rfl
    | tokensRemove t' =>
      obtain ⟨m', r, hcall, hlog⟩ := hconf
      cases i with
      | declare => cases hcall
      | custom =>
        cases hcall
        obtain ⟨env, heq⟩ := hI
        obtain ⟨rfl, rfl⟩ := Prod.mk.inj heq
        exact .removed r hlog (by simp [hlog]) (by simp) (by simp) rfl
    | jobsRemove r =>
      obtain ⟨m', t', hcall, hlog⟩ := hconf
      cases i with
      | declare => cases hcall
      | custom =>
        cases hcall
        obtain ⟨env, heq⟩ := hI
        obtain ⟨rfl, rfl⟩ := Prod.mk.inj heq
        refine .consumed r hlog (by simp [hlog]) (by simp) rfl fun hne => ?_
        simp [hne.symm]
    | jobsInsert r job =>
      obtain ⟨d', pmts', t', hcall, rfl, -, hno⟩ := hconf
      cases i with
      | custom => cases hcall
      | declare =>
        cases hcall
        obtain ⟨env, heq⟩ := hI
        obtain ⟨rfl, rfl⟩ := Prod.mk.inj heq
        exact .inserted job hno (by simp) (by simp) rfl (by simp)
    | tokensInsert t' r =>
      obtain ⟨d', pmts', job, hcall, rfl, hsnap, hins, hno⟩ := hconf
      cases i with
      | custom => cases hcall
      | declare =>
        cases hcall
        obtain ⟨txs, tip, templateId, shareChainTip, hcheck, -⟩ := hsnap
        obtain rfl : t' = t := by
          rw [(checkDeclaration_ok hcheck).1] at htoken
          exact Option.some.inj htoken
        obtain ⟨env, heq⟩ := hI
        obtain ⟨rfl, rfl⟩ := Prod.mk.inj heq
        exact .bound job hins hno (by simp) (by simp) (by simp) rfl
    | jobsClear => rcases hconf with ⟨newTip, hcall⟩ | hcall <;> cases i <;> cases hcall
    | jobsRetain keep => rcases hconf with ⟨newTip, hcall⟩ | hcall <;> cases i <;> cases hcall
    | _ => exact raceStep_other hI (by simp [Op.writes]) (by simp [Op.writes]) (fun h => h)

/-! ## The phases of the race -/

/-- The custom job has resolved its token to nothing but `r`. -/
def Resolves (t : JdToken) (r : RequestId) (c : Config engineSig Engine JobAnswer Racer) : Prop :=
  ∀ x, ⟨.tokensGet t, x⟩ ∈ (c.threads .custom).log → x = some r

/-- The declaration has not bound its token. -/
structure Unbound (t : JdToken) (r₁ r₂ : RequestId) (c : Config engineSig Engine JobAnswer Racer) :
    Prop where
  notBound : ∀ t' r', ⟨.tokensInsert t' r', ()⟩ ∉ (c.threads .declare).log
  resolves : Resolves t r₁ c
  token : ⟨.tokensRemove t, ()⟩ ∉ (c.threads .custom).log →
    c.shared.allocatedTokens.lookup t = some r₁
  cached : ∀ job, ⟨.jobsInsert r₂ job, ()⟩ ∈ (c.threads .declare).log →
    c.shared.declaredJobs.lookup r₂ = some job

/-- It has bound the token between the read and the removal. -/
structure Lost (t : JdToken) (r₁ : RequestId) (c : Config engineSig Engine JobAnswer Racer) :
    Prop where
  resolves : Resolves t r₁ c
  started : ∃ x, ⟨.tokensGet t, x⟩ ∈ (c.threads .custom).log
  token : ⟨.tokensRemove t, ()⟩ ∈ (c.threads .custom).log →
    c.shared.allocatedTokens.lookup t = none

/-- It has bound the token after the removal. -/
structure Rebound (t : JdToken) (r₁ r₂ : RequestId) (job : DeclaredJob)
    (c : Config engineSig Engine JobAnswer Racer) : Prop where
  resolves : Resolves t r₁ c
  removed : ⟨.tokensRemove t, ()⟩ ∈ (c.threads .custom).log
  token : c.shared.allocatedTokens.lookup t = some r₂
  cached : c.shared.declaredJobs.lookup r₂ = some job

/-- It has bound the token before the read. -/
structure Redirected (t : JdToken) (r₂ : RequestId) (job : DeclaredJob)
    (c : Config engineSig Engine JobAnswer Racer) : Prop where
  resolves : Resolves t r₂ c
  token : (∀ x, ⟨.tokensGet t, x⟩ ∉ (c.threads .custom).log) →
    c.shared.allocatedTokens.lookup t = some r₂
  cached : (∀ x, ⟨.jobsRemove r₂, x⟩ ∉ (c.threads .custom).log) →
    c.shared.declaredJobs.lookup r₂ = some job
  consumed : ∀ x, ⟨.jobsRemove r₂, x⟩ ∈ (c.threads .custom).log → x = some job

/-- The phase of the race, and what the labels say about it. -/
inductive RaceInv (t : JdToken) (r₁ r₂ : RequestId)
    (labels : List (Label engineSig Racer TemplateDistribution))
    (c : Config engineSig Engine JobAnswer Racer) : Prop where
  | unbound (hwin : ¬ BoundInWindow t r₂ labels) (h : Unbound t r₁ r₂ c)
  | lost (hwin : BoundInWindow t r₂ labels) (h : Lost t r₁ c)
      (hbound : ⟨.tokensInsert t r₂, ()⟩ ∈ (c.threads .declare).log)
      (hins : ∃ job, ⟨.jobsInsert r₂ job, ()⟩ ∈ (c.threads .declare).log)
  | rebound (job : DeclaredJob) (hwin : ¬ BoundInWindow t r₂ labels) (h : Rebound t r₁ r₂ job c)
      (hbound : ⟨.tokensInsert t r₂, ()⟩ ∈ (c.threads .declare).log)
      (hins : ⟨.jobsInsert r₂ job, ()⟩ ∈ (c.threads .declare).log)
  | redirected (job : DeclaredJob) (hwin : ¬ BoundInWindow t r₂ labels)
      (h : Redirected t r₂ job c)
      (hbound : ⟨.tokensInsert t r₂, ()⟩ ∈ (c.threads .declare).log)
      (hins : ⟨.jobsInsert r₂ job, ()⟩ ∈ (c.threads .declare).log)

theorem boundInWindow_snoc (hl : l ≠ .thread .declare ⟨.tokensInsert t r₂, ()⟩) :
    BoundInWindow t r₂ (labels ++ [l]) ↔ BoundInWindow t r₂ labels := by
  unfold BoundInWindow
  rw [exists_split_snoc]
  exact or_iff_left fun h => hl h.1

/-- The window, at the moment the declaration binds the token. -/
theorem boundInWindow_bind
    (hrun : Trace JobStep (jobCalls cr w s (racing m t d pmts)) labels c) :
    BoundInWindow t r₂ (labels ++ [.thread .declare ⟨.tokensInsert t r₂, ()⟩]) ↔
      BoundInWindow t r₂ labels ∨ (∃ x, ⟨.tokensGet t, x⟩ ∈ (c.threads .custom).log) ∧
        ⟨.tokensRemove t, ()⟩ ∉ (c.threads .custom).log := by
  have hmem : ∀ e, .thread .custom e ∈ labels ↔ e ∈ (c.threads .custom).log :=
    mem_labels_iff (fun _ => rfl) hrun .custom
  unfold BoundInWindow
  rw [exists_split_snoc]
  simp [hmem]

/-- A custom job removes the job that it has read under its token. -/
theorem resolved_of_removed
    (hrun : Trace JobStep (jobCalls cr w s (racing m t d pmts)) labels c) {r : RequestId}
    {job : Option DeclaredJob} (hmem : ⟨.jobsRemove r, job⟩ ∈ (c.threads .custom).log) :
    ⟨.tokensGet t, some r⟩ ∈ (c.threads .custom).log := by
  obtain ⟨before, hsub, m', t', hcall, rfl⟩ := (conforms_of_trace hrun .custom).2.mem hmem
  cases hcall
  exact hsub List.mem_cons_self

theorem raceInv_start (h : s.allocatedTokens.lookup t = some r₁) :
    RaceInv t r₁ r₂ [] (jobCalls cr w s (racing m t d pmts)) := by
  refine .unbound ?_ ⟨by simp [jobCalls], fun x hx => ?_, fun _ => h, fun job hjob => ?_⟩
  · intro hwin
    obtain ⟨before, after, heq, -⟩ := hwin
    simp at heq
  · cases hx
  · cases hjob

/-- Steps that do not bind the token keep the phase. -/
theorem RaceInv.other (hinv : RaceInv t r₁ r₂ labels c)
    (hl : l ≠ .thread .declare ⟨.tokensInsert t r₂, ()⟩)
    (hlogs : ∀ i e, Touches e → (e ∈ (c'.threads i).log ↔ e ∈ (c.threads i).log))
    (htoken : c'.shared.allocatedTokens.lookup t = c.shared.allocatedTokens.lookup t)
    (hjob : c'.shared.declaredJobs.lookup r₂ = c.shared.declaredJobs.lookup r₂) :
    RaceInv t r₁ r₂ (labels ++ [l]) c' := by
  have hget : ∀ x, ⟨.tokensGet t, x⟩ ∈ (c'.threads .custom).log ↔
      ⟨.tokensGet t, x⟩ ∈ (c.threads .custom).log := fun x => hlogs .custom _ trivial
  have hremove := hlogs .custom ⟨.tokensRemove t, ()⟩ trivial
  have htake : ∀ x, ⟨.jobsRemove r₂, x⟩ ∈ (c'.threads .custom).log ↔
      ⟨.jobsRemove r₂, x⟩ ∈ (c.threads .custom).log := fun x => hlogs .custom _ trivial
  have hins : ∀ job, ⟨.jobsInsert r₂ job, ()⟩ ∈ (c'.threads .declare).log ↔
      ⟨.jobsInsert r₂ job, ()⟩ ∈ (c.threads .declare).log := fun job => hlogs .declare _ trivial
  have hbind : ∀ t' r', ⟨.tokensInsert t' r', ()⟩ ∈ (c'.threads .declare).log ↔
      ⟨.tokensInsert t' r', ()⟩ ∈ (c.threads .declare).log := fun t' r' => hlogs .declare _ trivial
  cases hinv with
  | unbound hwin h =>
    refine .unbound (by rwa [boundInWindow_snoc hl]) ⟨fun t' r' => ?_, fun x hx => ?_,
      fun hx => ?_, fun job hx => ?_⟩
    · rw [hbind]
      exact h.notBound t' r'
    · exact h.resolves x ((hget x).mp hx)
    · rw [htoken]
      exact h.token (by rwa [hremove] at hx)
    · rw [hjob]
      exact h.cached job ((hins job).mp hx)
  | lost hwin h hbound hjobs =>
    obtain ⟨job, hjobs⟩ := hjobs
    obtain ⟨x, hx⟩ := h.started
    refine .lost (by rwa [boundInWindow_snoc hl]) ⟨fun x hx => ?_, ⟨x, (hget x).mpr hx⟩,
      fun hx => ?_⟩ ((hbind t r₂).mpr hbound) ⟨job, (hins job).mpr hjobs⟩
    · exact h.resolves x ((hget x).mp hx)
    · rw [htoken]
      exact h.token (hremove.mp hx)
  | rebound job hwin h hbound hjobs =>
    refine .rebound job (by rwa [boundInWindow_snoc hl]) ⟨fun x hx => ?_, hremove.mpr h.removed,
      htoken.trans h.token, hjob.trans h.cached⟩ ((hbind t r₂).mpr hbound) ((hins job).mpr hjobs)
    exact h.resolves x ((hget x).mp hx)
  | redirected job hwin h hbound hjobs =>
    refine .redirected job (by rwa [boundInWindow_snoc hl]) ⟨fun x hx => ?_, fun hx => ?_,
      fun hx => ?_, fun x hx => ?_⟩ ((hbind t r₂).mpr hbound) ((hins job).mpr hjobs)
    · exact h.resolves x ((hget x).mp hx)
    · rw [htoken]
      exact h.token fun x hmem => hx x ((hget x).mpr hmem)
    · rw [hjob]
      exact h.cached fun x hmem => hx x ((htake x).mpr hmem)
    · exact h.consumed x ((htake x).mp hx)

/-- The read sees the earlier declaration or the new one. -/
theorem RaceInv.read (hinv : RaceInv t r₁ r₂ labels c)
    (hl : l ≠ .thread .declare ⟨.tokensInsert t r₂, ()⟩)
    (hlog : (c.threads .custom).log = [])
    (hlog' : (c'.threads .custom).log = [⟨.tokensGet t, c.shared.allocatedTokens.lookup t⟩])
    (hdeclare : (c'.threads .declare).log = (c.threads .declare).log)
    (htoken : c'.shared.allocatedTokens.lookup t = c.shared.allocatedTokens.lookup t)
    (hjob : c'.shared.declaredJobs.lookup r₂ = c.shared.declaredJobs.lookup r₂) :
    RaceInv t r₁ r₂ (labels ++ [l]) c' := by
  have hresolves : ∀ r, c.shared.allocatedTokens.lookup t = some r → Resolves t r c' := by
    intro r hr x hx
    rw [hlog', hr] at hx
    simpa using hx
  cases hinv with
  | unbound hwin h =>
    have hr := h.token (by simp [hlog])
    refine .unbound (by rwa [boundInWindow_snoc hl]) ⟨?_, hresolves r₁ hr,
      fun _ => htoken.trans hr, ?_⟩
    · rw [hdeclare]
      exact h.notBound
    · rw [hdeclare, hjob]
      exact h.cached
  | lost hwin h hbound hins =>
    obtain ⟨x, hx⟩ := h.started
    rw [hlog] at hx
    cases hx
  | rebound job hwin h hbound hins =>
    have hremoved := h.removed
    rw [hlog] at hremoved
    cases hremoved
  | redirected job hwin h hbound hins =>
    have hr := h.token (by simp [hlog])
    refine .redirected job (by rwa [boundInWindow_snoc hl]) ⟨hresolves r₂ hr,
      fun _ => htoken.trans hr, fun _ => hjob.trans (h.cached (by simp [hlog])), ?_⟩
      (hdeclare ▸ hbound) (hdeclare ▸ hins)
    simp [hlog']

/-- The removal takes away whatever the token is bound to. -/
theorem RaceInv.removed (hinv : RaceInv t r₁ r₂ labels c)
    (hl : l ≠ .thread .declare ⟨.tokensInsert t r₂, ()⟩) {r : RequestId}
    (hlog : (c.threads .custom).log = [⟨.tokensGet t, some r⟩])
    (hlog' : (c'.threads .custom).log = [⟨.tokensGet t, some r⟩, ⟨.tokensRemove t, ()⟩])
    (hdeclare : (c'.threads .declare).log = (c.threads .declare).log)
    (htoken : c'.shared.allocatedTokens.lookup t = none)
    (hjob : c'.shared.declaredJobs.lookup r₂ = c.shared.declaredJobs.lookup r₂) :
    RaceInv t r₁ r₂ (labels ++ [l]) c' := by
  have hresolves : ∀ r', Resolves t r' c → Resolves t r' c' := by
    intro r' h x hx
    rw [hlog'] at hx
    exact h x (by simpa [hlog] using hx)
  cases hinv with
  | unbound hwin h =>
    refine .unbound (by rwa [boundInWindow_snoc hl]) ⟨?_, hresolves r₁ h.resolves, ?_, ?_⟩
    · rw [hdeclare]
      exact h.notBound
    · simp [hlog']
    · rw [hdeclare, hjob]
      exact h.cached
  | lost hwin h hbound hins =>
    exact .lost (by rwa [boundInWindow_snoc hl]) ⟨hresolves r₁ h.resolves,
      ⟨some r, by simp [hlog']⟩, fun _ => htoken⟩ (hdeclare ▸ hbound) (hdeclare ▸ hins)
  | rebound job hwin h hbound hins =>
    have hremoved := h.removed
    rw [hlog] at hremoved
    simp at hremoved
  | redirected job hwin h hbound hins =>
    refine .redirected job (by rwa [boundInWindow_snoc hl]) ⟨hresolves r₂ h.resolves,
      fun hno => absurd (by simp [hlog']) (hno (some r)),
      fun _ => hjob.trans (h.cached (by simp [hlog])), ?_⟩ (hdeclare ▸ hbound) (hdeclare ▸ hins)
    simp [hlog']

/-- The job removed is the one that was read. -/
theorem RaceInv.consumed (hinv : RaceInv t r₁ r₂ labels c) (hne : r₁ ≠ r₂)
    (hl : l ≠ .thread .declare ⟨.tokensInsert t r₂, ()⟩) {r : RequestId}
    (hlog : (c.threads .custom).log = [⟨.tokensGet t, some r⟩, ⟨.tokensRemove t, ()⟩])
    (hlog' : (c'.threads .custom).log = [⟨.tokensGet t, some r⟩, ⟨.tokensRemove t, ()⟩,
      ⟨.jobsRemove r, c.shared.declaredJobs.lookup r⟩])
    (hdeclare : (c'.threads .declare).log = (c.threads .declare).log)
    (htoken : c'.shared.allocatedTokens.lookup t = c.shared.allocatedTokens.lookup t)
    (hjob : r ≠ r₂ → c'.shared.declaredJobs.lookup r₂ = c.shared.declaredJobs.lookup r₂) :
    RaceInv t r₁ r₂ (labels ++ [l]) c' := by
  have hresolves : ∀ r', Resolves t r' c → Resolves t r' c' := by
    intro r' h x hx
    rw [hlog'] at hx
    exact h x (by simpa [hlog] using hx)
  have hread : ∀ r', Resolves t r' c → r = r' := by
    intro r' h
    exact Option.some.inj (h (some r) (by simp [hlog]))
  cases hinv with
  | unbound hwin h =>
    obtain rfl := hread r₁ h.resolves
    refine .unbound (by rwa [boundInWindow_snoc hl]) ⟨?_, hresolves r h.resolves, ?_, ?_⟩
    · rw [hdeclare]
      exact h.notBound
    · simp [hlog']
    · rw [hdeclare, hjob hne]
      exact h.cached
  | lost hwin h hbound hins =>
    exact .lost (by rwa [boundInWindow_snoc hl]) ⟨hresolves r₁ h.resolves,
      ⟨some r, by simp [hlog']⟩, fun _ => htoken.trans (h.token (by simp [hlog]))⟩
      (hdeclare ▸ hbound) (hdeclare ▸ hins)
  | rebound job hwin h hbound hins =>
    obtain rfl := hread r₁ h.resolves
    exact .rebound job (by rwa [boundInWindow_snoc hl]) ⟨hresolves r h.resolves, by simp [hlog'],
      htoken.trans h.token, (hjob hne).trans h.cached⟩ (hdeclare ▸ hbound) (hdeclare ▸ hins)
  | redirected job hwin h hbound hins =>
    obtain rfl := hread r₂ h.resolves
    have hcached := h.cached (by simp [hlog])
    refine .redirected job (by rwa [boundInWindow_snoc hl]) ⟨hresolves r h.resolves,
      fun hno => absurd (by simp [hlog']) (hno (some r)),
      fun hno => absurd (by simp [hlog']) (hno (c.shared.declaredJobs.lookup r)), fun x hx => ?_⟩
      (hdeclare ▸ hbound) (hdeclare ▸ hins)
    -- what it removes is the new declaration's job
    rw [hlog', hcached] at hx
    simpa using hx

/-- The declaration inserts its job before it binds the token. -/
theorem RaceInv.inserted (hinv : RaceInv t r₁ r₂ labels c)
    (hl : l ≠ .thread .declare ⟨.tokensInsert t r₂, ()⟩) {job : DeclaredJob}
    (hno : ∀ r job, ⟨.jobsInsert r job, ()⟩ ∉ (c.threads .declare).log)
    (hcustom : (c'.threads .custom).log = (c.threads .custom).log)
    (hlog' : (c'.threads .declare).log = (c.threads .declare).log ++ [⟨.jobsInsert r₂ job, ()⟩])
    (htoken : c'.shared.allocatedTokens.lookup t = c.shared.allocatedTokens.lookup t)
    (hjob : c'.shared.declaredJobs.lookup r₂ = some job) :
    RaceInv t r₁ r₂ (labels ++ [l]) c' := by
  cases hinv with
  | unbound hwin h =>
    refine .unbound (by rwa [boundInWindow_snoc hl]) ⟨fun t' r' hmem => ?_, ?_, ?_,
      fun job' hmem => ?_⟩
    · rw [hlog'] at hmem
      exact h.notBound t' r' (by simpa using hmem)
    · unfold Resolves
      rw [hcustom]
      exact h.resolves
    · rw [hcustom, htoken]
      exact h.token
    · rw [hlog'] at hmem
      rcases List.mem_append.mp hmem with hmem | hmem
      · exact absurd hmem (hno r₂ job')
      · cases List.mem_singleton.mp hmem
        exact hjob
  | lost hwin h hbound hins =>
    obtain ⟨job', hins⟩ := hins
    exact absurd hins (hno r₂ job')
  | rebound job' hwin h hbound hins => exact absurd hins (hno r₂ job')
  | redirected job' hwin h hbound hins => exact absurd hins (hno r₂ job')

/-- The binding decides the race. -/
theorem RaceInv.bound
    (hrun : Trace JobStep (jobCalls cr w s (racing m t d pmts)) labels c)
    (hinv : RaceInv t r₁ r₂ labels c) {job : DeclaredJob}
    (hins : ⟨.jobsInsert r₂ job, ()⟩ ∈ (c.threads .declare).log)
    (hno : ∀ t' r', ⟨.tokensInsert t' r', ()⟩ ∉ (c.threads .declare).log)
    (hcustom : (c'.threads .custom).log = (c.threads .custom).log)
    (hlog' : (c'.threads .declare).log = (c.threads .declare).log ++ [⟨.tokensInsert t r₂, ()⟩])
    (htoken : c'.shared.allocatedTokens.lookup t = some r₂)
    (hjob : c'.shared.declaredJobs.lookup r₂ = c.shared.declaredJobs.lookup r₂) :
    RaceInv t r₁ r₂ (labels ++ [.thread .declare ⟨.tokensInsert t r₂, ()⟩]) c' := by
  have hbound : ⟨.tokensInsert t r₂, ()⟩ ∈ (c'.threads .declare).log := by simp [hlog']
  have hins' : ⟨.jobsInsert r₂ job, ()⟩ ∈ (c'.threads .declare).log := by simp [hlog', hins]
  cases hinv with
  | lost hwin h hbound hins => exact absurd hbound (hno t r₂)
  | rebound job' hwin h hbound hins => exact absurd hbound (hno t r₂)
  | redirected job' hwin h hbound hins => exact absurd hbound (hno t r₂)
  | unbound hwin h =>
    have hresolves : Resolves t r₁ c' := by
      unfold Resolves
      rw [hcustom]
      exact h.resolves
    -- the custom job is past its removal, in the window, or before its read
    by_cases hremoved : ⟨.tokensRemove t, ()⟩ ∈ (c.threads .custom).log
    · refine .rebound job ?_ ⟨hresolves, hcustom ▸ hremoved, htoken,
        hjob.trans (h.cached job hins)⟩ hbound hins'
      rw [boundInWindow_bind hrun]
      exact not_or.mpr ⟨hwin, fun hopen => hopen.2 hremoved⟩
    · by_cases hread : ∃ x, ⟨.tokensGet t, x⟩ ∈ (c.threads .custom).log
      · refine .lost ?_ ⟨hresolves, hcustom ▸ hread, fun hmem => ?_⟩ hbound ⟨job, hins'⟩
        · rw [boundInWindow_bind hrun]
          exact Or.inr ⟨hread, hremoved⟩
        · exact absurd (hcustom ▸ hmem) hremoved
      · push Not at hread
        have htake : ∀ x, ⟨.jobsRemove r₂, x⟩ ∉ (c'.threads .custom).log := by
          intro x hx
          rw [hcustom] at hx
          exact hread _ (resolved_of_removed hrun hx)
        refine .redirected job ?_ ⟨fun x hx => ?_, fun _ => htoken,
          fun _ => hjob.trans (h.cached job hins), fun x hx => absurd hx (htake x)⟩ hbound hins'
        · rw [boundInWindow_bind hrun]
          refine not_or.mpr ⟨hwin, fun hopen => ?_⟩
          obtain ⟨⟨x, hx⟩, -⟩ := hopen
          exact hread x hx
        · rw [hcustom] at hx
          exact absurd hx (hread x)

theorem raceInv (hbound : s.allocatedTokens.lookup t = some r₁) (hne : r₁ ≠ d.requestId)
    (htoken : decodeToken d = some t)
    (hrun : Trace JobStep (jobCalls cr w s (racing m t d pmts)) labels c) :
    RaceInv t r₁ d.requestId labels c := by
  refine Trace.run_induction (P := RaceInv t r₁ d.requestId) (raceInv_start hbound) ?_ labels hrun
  intro labels c l c' hrun hinv hstep
  cases raceStep hrun htoken hstep with
  | other l hl hlogs htoken hjob => exact hinv.other hl hlogs htoken hjob
  | read hlog hlog' hdeclare htoken hjob =>
    exact hinv.read (by simp) hlog hlog' hdeclare htoken hjob
  | removed r hlog hlog' hdeclare htoken hjob =>
    exact hinv.removed (by simp) hlog hlog' hdeclare htoken hjob
  | consumed r hlog hlog' hdeclare htoken hjob =>
    exact hinv.consumed hne (by simp) hlog hlog' hdeclare htoken hjob
  | inserted job hno hcustom hlog' htoken hjob =>
    exact hinv.inserted (by simp) hno hcustom hlog' htoken hjob
  | bound job hins hno hcustom hlog' htoken hjob =>
    exact hinv.bound hrun hins hno hcustom hlog' htoken hjob

/-! ## The outcome -/

/-- The token leads to the job of the declaration, or the custom job has
    consumed it. -/
def DeclarationKept (t : JdToken) (r₂ : RequestId) (c : Config engineSig Engine JobAnswer Racer) :
    Prop :=
  ∃ job, ⟨.jobsInsert r₂ job, ()⟩ ∈ (c.threads .declare).log ∧
    (c.shared.allocatedTokens.lookup t = some r₂ ∧ c.shared.declaredJobs.lookup r₂ = some job ∨
      ⟨.jobsRemove r₂, some job⟩ ∈ (c.threads .custom).log)

/-- What the custom job has done with a token that resolved to `r`. -/
theorem consumed_of_resolves {r : RequestId}
    (hrun : Trace JobStep (jobCalls cr w s (racing m t d pmts)) labels c)
    {result : SetCustomMiningJobResult} (hret : (c.threads .custom).prog = .ret (.custom result))
    (h : Resolves t r c) :
    ⟨.tokensRemove t, ()⟩ ∈ (c.threads .custom).log ∧
      ∃ x, ⟨.jobsRemove r, x⟩ ∈ (c.threads .custom).log := by
  obtain ⟨m', t', job, hcall, hconsumed, -⟩ := concluded_of_trace hrun hret
  cases hcall
  cases hconsumed with
  | unknown hget => cases h none hget
  | resolved r' job hget hremove hjob =>
    obtain rfl := Option.some.inj (h (some r') hget)
    exact ⟨hremove, job, hjob⟩

/-- A custom job whose token is bound to an earlier declaration, and a
    declaration of the same token under another request id: when both have
    returned and the declaration has succeeded, it is kept exactly when it did
    not bind the token between the read and the removal of the custom job. -/
theorem redeclaration_kept_iff (hbound : s.allocatedTokens.lookup t = some r₁)
    (hne : r₁ ≠ d.requestId) (htoken : decodeToken d = some t)
    (hrun : Trace JobStep (jobCalls cr w s (racing m t d pmts)) labels c)
    {result : SetCustomMiningJobResult} (hcustom : (c.threads .custom).prog = .ret (.custom result))
    (hdeclare : (c.threads .declare).prog = .ret (.declared .success)) :
    DeclarationKept t d.requestId c ↔ ¬ BoundInWindow t d.requestId labels := by
  cases raceInv hbound hne htoken hrun with
  | unbound hwin h =>
    obtain ⟨d', pmts', t', job, hcall, -, -, hins⟩ := concluded_of_trace hrun hdeclare
    exact absurd hins (h.notBound _ _)
  | lost hwin h _ _ =>
    refine iff_of_false (fun hkept => ?_) (not_not.mpr hwin)
    obtain ⟨hremoved, -⟩ := consumed_of_resolves hrun hcustom h.resolves
    obtain ⟨job, -, ⟨htok, -⟩ | hjob⟩ := hkept
    · rw [h.token hremoved] at htok
      cases htok
    · exact hne (Option.some.inj (h.resolves _ (resolved_of_removed hrun hjob))).symm
  | rebound job hwin h _ hins =>
    exact iff_of_true ⟨job, hins, Or.inl ⟨h.token, h.cached⟩⟩ hwin
  | redirected job hwin h _ hins =>
    obtain ⟨-, x, hx⟩ := consumed_of_resolves hrun hcustom h.resolves
    obtain rfl := h.consumed x hx
    exact iff_of_true ⟨job, hins, Or.inr hx⟩ hwin

end

namespace Sample

/-- Request id 7 is declared for token 3. -/
def firstDeclared : Engine := Engine.new.after crates wiring [(online, declare 7 3 [9])]

/-- The custom job for token 3 and a declaration of it under request id 8. -/
def redeclaring : Config engineSig Engine JobAnswer Racer :=
  jobCalls crates wiring firstDeclared (racing (customJob (U256.fill 1) [9]) 3
    (declaration 8 3 [9]) (some ⟨[body.serialize]⟩))

/-- One call after the other. -/
def redeclaredAfter : List (Racer ⊕ TemplateDistribution) :=
  List.replicate 5 (.inl .custom) ++ List.replicate 6 (.inl .declare)

/-- The declaration runs between the read and the removal. -/
def redeclaredBetween : List (Racer ⊕ TemplateDistribution) :=
  [.inl .custom] ++ List.replicate 6 (.inl .declare) ++ List.replicate 4 (.inl .custom)

/-- The job that a call has inserted. -/
def jobMade (e : Event engineSig) : Option (RequestId × DeclaredJob) :=
  jobInserted (.thread () e : Label engineSig Unit TemplateDistribution)

theorem jobMade_eq_some {e : Event engineSig} {r : RequestId} {job : DeclaredJob}
    (h : jobMade e = some (r, job)) : e = ⟨.jobsInsert r job, ()⟩ := by
  obtain ⟨o, res⟩ := e
  cases o with
  | jobsInsert r' job' =>
    cases h
    rfl
  | _ => cases h

/-- The key of a job that a call has removed. -/
def jobTaken : Event engineSig → Option RequestId
  | ⟨.jobsRemove r, some _⟩ => some r
  | _ => none

end Sample

/-- Declared after the custom job, the token is not bound in the window. -/
theorem redeclaration_kept_after :
    let c := Sample.redeclaring.play Sample.online.parStep teeAct Sample.redeclaredAfter
    DeclarationKept 3 8 c ∧
      ¬ BoundInWindow 3 8 (Sample.played Sample.redeclaring Sample.redeclaredAfter) := by
  intro c
  have hrun : Trace JobStep Sample.redeclaring
      (Sample.played Sample.redeclaring Sample.redeclaredAfter) c := Sample.played_run _ _
  have hbound : Sample.firstDeclared.allocatedTokens.lookup 3 = some 7 := by decide +kernel
  have hrest : c.shared.allocatedTokens.lookup 3 = some 8 ∧
      (c.threads .custom).prog.result? = some (.custom .success) ∧
      (c.threads .declare).prog.result? = some (.declared .success) ∧
      (c.shared.declaredJobs.lookup 8).isSome = true ∧
      (c.shared.declaredJobs.lookup 8).map (Prod.mk 8) =
        ((c.threads .declare).log.filterMap Sample.jobMade).head? := by decide +kernel
  obtain ⟨htoken, hcustom, hdeclare, hcached, hmade⟩ := hrest
  obtain ⟨job, hlookup⟩ := Option.isSome_iff_exists.mp hcached
  have hkept : DeclarationKept 3 8 c := by
    rw [hlookup] at hmade
    obtain ⟨e, he, heq⟩ := List.mem_filterMap.mp (List.mem_of_head? hmade.symm)
    exact ⟨job, Sample.jobMade_eq_some heq ▸ he, Or.inl ⟨htoken, hlookup⟩⟩
  replace hcustom := Prog.eq_ret_of_result? hcustom
  replace hdeclare := Prog.eq_ret_of_result? hdeclare
  exact ⟨hkept, (redeclaration_kept_iff hbound (by decide) (by decide +kernel) hrun hcustom
    hdeclare).mp hkept⟩

/-- Both calls succeed, the token is gone, and the job of the declaration is
    cached under a request id that no token leads to. -/
theorem redeclaration_lost :
    let c := Sample.redeclaring.play Sample.online.parStep teeAct Sample.redeclaredBetween
    Sample.firstDeclared.allocatedTokens.lookup 3 = some 7 ∧
    Trace JobStep Sample.redeclaring
      (Sample.played Sample.redeclaring Sample.redeclaredBetween) c ∧
    (c.threads .custom).prog = .ret (.custom .success) ∧
    (c.threads .declare).prog = .ret (.declared .success) ∧
    c.shared.allocatedTokens.lookup 3 = none ∧
    (c.shared.declaredJobs.lookup 8).isSome = true ∧ ¬ DeclarationKept 3 8 c := by
  intro c
  have hrest : (c.threads .custom).prog.result? = some (.custom .success) ∧
      (c.threads .declare).prog.result? = some (.declared .success) ∧
      c.shared.allocatedTokens.lookup 3 = none ∧
      (c.shared.declaredJobs.lookup 8).isSome = true ∧
      8 ∉ (c.threads .custom).log.filterMap Sample.jobTaken := by decide +kernel
  obtain ⟨hcustom, hdeclare, htoken, hcached, htaken⟩ := hrest
  refine ⟨by decide +kernel, Sample.played_run Sample.redeclaring Sample.redeclaredBetween,
    Prog.eq_ret_of_result? hcustom, Prog.eq_ret_of_result? hdeclare, htoken, hcached,
    fun hkept => ?_⟩
  obtain ⟨job, -, ⟨htok, -⟩ | hjob⟩ := hkept
  · rw [htoken] at htok
    cases htok
  · exact htaken (List.mem_filterMap.mpr ⟨_, hjob, rfl⟩)

end Sv2P2pool
