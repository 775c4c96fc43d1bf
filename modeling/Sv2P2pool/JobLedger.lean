import Sv2P2pool.CustomAccounting

/-! # The Ledger of the Declared Jobs

    An accepted declaration adds a job to the cache. From then on the job is
    cached, or a custom job has consumed it, or a declaration under the same
    request id has replaced it, or an invalidation has dropped it. The
    counters of the calls follow this with one gap: `invalidate_all` counts
    the cached jobs first and drops them afterwards, so what other calls do to
    the cache in between is missing from `jobs_invalidated_total`.
-/

namespace Sv2P2pool

open ByteCodec Bitcoin Interleave

/-! ## Events and logs -/

/-- The sum over a log. -/
def tallied (f : Event engineSig → Nat) (log : List (Event engineSig)) : Nat := (log.map f).sum

/-- Jobs inserted into the cache. -/
def insertedBy : Event engineSig → Nat
  | ⟨.jobsInsert _ _, _⟩ => 1
  | _ => 0

/-- Jobs taken out of the cache for a custom job. -/
def consumedBy : Event engineSig → Nat
  | ⟨.jobsRemove _, some _⟩ => 1
  | _ => 0

/-- Jobs dropped by `retain`, which counts them as it goes. -/
def retainDropped : Event engineSig → Nat
  | ⟨.jobsRetain _, dropped⟩ => dropped
  | _ => 0

/-- Jobs counted by `invalidate_all`. -/
def countedBy : Event engineSig → Nat
  | ⟨.jobsLen, n⟩ => n
  | _ => 0

/-- What an event makes of the cache. -/
def cacheAfter (jobs : DashMap RequestId DeclaredJob) :
    Event engineSig → DashMap RequestId DeclaredJob
  | ⟨.jobsInsert r job, _⟩ => jobs.insert r job
  | ⟨.jobsRemove r, _⟩ => jobs.erase r
  | ⟨.jobsClear, _⟩ => ∅
  | ⟨.jobsRetain keep, _⟩ => DashMap.retain (fun _ job => keep job) jobs
  | _ => jobs

/-- Jobs replaced by an insertion under their request id. -/
def replacedBy (jobs : DashMap RequestId DeclaredJob) : Event engineSig → Nat
  | ⟨.jobsInsert r _, _⟩ => if (jobs.lookup r).isSome then 1 else 0
  | _ => 0

/-- Jobs dropped by `invalidate_all`. -/
def clearedBy (jobs : DashMap RequestId DeclaredJob) : Event engineSig → Nat
  | ⟨.jobsClear, _⟩ => jobs.len
  | _ => 0

/-- The cache after a sequence of events. -/
def cacheAfterAll (jobs : DashMap RequestId DeclaredJob) (events : List (Event engineSig)) :
    DashMap RequestId DeclaredJob := events.foldl cacheAfter jobs

/-- The sum over a sequence of events, each at the cache that it meets. -/
def tallyAt (f : DashMap RequestId DeclaredJob → Event engineSig → Nat) :
    DashMap RequestId DeclaredJob → List (Event engineSig) → Nat
  | _, [] => 0
  | jobs, e :: events => f jobs e + tallyAt f (cacheAfter jobs e) events

@[simp] theorem tallied_nil (f : Event engineSig → Nat) : tallied f [] = 0 := rfl

@[simp] theorem tallied_append (f : Event engineSig → Nat) (log log' : List (Event engineSig)) :
    tallied f (log ++ log') = tallied f log + tallied f log' := by
  simp [tallied]

@[simp] theorem tallied_cons (f : Event engineSig → Nat) (e : Event engineSig)
    (log : List (Event engineSig)) : tallied f (e :: log) = f e + tallied f log := rfl

theorem cacheAfterAll_snoc (jobs : DashMap RequestId DeclaredJob) (events : List (Event engineSig))
    (e : Event engineSig) :
    cacheAfterAll jobs (events ++ [e]) = cacheAfter (cacheAfterAll jobs events) e := by
  simp [cacheAfterAll]

theorem tallyAt_snoc (f : DashMap RequestId DeclaredJob → Event engineSig → Nat)
    (events : List (Event engineSig)) (e : Event engineSig) : ∀ jobs,
    tallyAt f jobs (events ++ [e]) = tallyAt f jobs events + f (cacheAfterAll jobs events) e := by
  induction events with
  | nil => exact fun jobs => by simp [tallyAt, cacheAfterAll]
  | cons e' events ih =>
    intro jobs
    show f jobs e' + tallyAt f (cacheAfter jobs e') (events ++ [e]) = _
    rw [ih, ← Nat.add_assoc]
    rfl

/-- One operation moves jobs, and loses none. -/
theorem parInterp_jobs {s s' : Engine} {o : Op} {r : o.Res} (h : parInterp s o r s') :
    s'.declaredJobs = cacheAfter s.declaredJobs ⟨o, r⟩ ∧
      s.declaredJobs.len + insertedBy ⟨o, r⟩ = s'.declaredJobs.len + consumedBy ⟨o, r⟩ +
        retainDropped ⟨o, r⟩ + replacedBy s.declaredJobs ⟨o, r⟩ +
          clearedBy s.declaredJobs ⟨o, r⟩ := by
  cases o with
  | jobsInsert id job =>
    obtain ⟨env, heq⟩ := h
    obtain ⟨rfl, rfl⟩ := Prod.mk.inj heq
    have hlen := DashMap.len_insert s.declaredJobs id job
    refine ⟨rfl, ?_⟩
    simp only [insertedBy, consumedBy, retainDropped, replacedBy, clearedBy]
    omega
  | jobsRemove id =>
    obtain ⟨env, heq⟩ := h
    obtain ⟨rfl, rfl⟩ := Prod.mk.inj heq
    have hlen := DashMap.len_erase s.declaredJobs id
    refine ⟨rfl, ?_⟩
    cases hid : s.declaredJobs.lookup id <;>
      simp [hid, insertedBy, consumedBy, retainDropped, replacedBy, clearedBy] at hlen ⊢ <;> omega
  | jobsClear =>
    obtain ⟨env, heq⟩ := h
    obtain ⟨rfl, rfl⟩ := Prod.mk.inj heq
    refine ⟨rfl, ?_⟩
    have hlen : DashMap.len (∅ : DashMap RequestId DeclaredJob) = 0 := rfl
    simp only [insertedBy, consumedBy, retainDropped, replacedBy, clearedBy, hlen]
    omega
  | jobsRetain keep =>
    obtain ⟨env, heq⟩ := h
    obtain ⟨rfl, rfl⟩ := Prod.mk.inj heq
    have hlen := DashMap.len_retain (fun _ job => keep job) s.declaredJobs
    refine ⟨rfl, ?_⟩
    simp only [insertedBy, consumedBy, retainDropped, replacedBy, clearedBy]
    omega
  | awaitResponse k waiter =>
    have hjobs : s'.declaredJobs = s.declaredJobs := by
      cases r with
      | received result => rw [h.2]
      | elapsed => rw [h.2]
      | senderDropped => rw [h.2.2]
    exact ⟨hjobs, by simp [hjobs, insertedBy, consumedBy, retainDropped, replacedBy, clearedBy]⟩
  | _ =>
    obtain ⟨env, heq⟩ := h
    obtain ⟨-, rfl⟩ := Prod.mk.inj heq
    exact ⟨rfl, rfl⟩

/-! ## One call -/

/-- The counters of declarations and invalidations. -/
def Counter.OfJobs : Counter → Prop
  | .declareMiningJobAccepted | .declareMiningJobRejected | .declareMiningJobMissingTxns => True
  | .reorgNotifications | .jobsInvalidatedTotal => True
  | _ => False

/-- The operation neither moves these counters nor adds, counts or drops jobs. -/
def Op.OffBooks : Op → Prop
  | .bump x _ => ¬ x.OfJobs
  | .jobsInsert _ _ | .jobsLen | .jobsRetain _ => False
  | _ => True

/-- A log without an entry for the books but some reorg notifications. -/
structure Blank (notices : Nat) (log : List (Event engineSig)) : Prop where
  bumped : ∀ x : Counter, x.OfJobs → bumps log x = if x = .reorgNotifications then notices else 0
  inserted : tallied insertedBy log = 0
  dropped : tallied retainDropped log = 0
  counted : tallied countedBy log = 0

def JobCall.isDeclare : JobCall → Bool
  | .declare _ _ => true
  | _ => false

/-- The call is a reorg notification or a flush. -/
def JobCall.isNotice : JobCall → Bool
  | .reorg _ | .flush => true
  | _ => false

/-- What a call that has returned has entered in the books. -/
structure Entered (call : JobCall) (log : List (Event engineSig)) : Prop where
  answered : bumps log .declareMiningJobAccepted + bumps log .declareMiningJobRejected +
    bumps log .declareMiningJobMissingTxns = if call.isDeclare then 1 else 0
  accepted : bumps log .declareMiningJobAccepted = tallied insertedBy log
  noticed : bumps log .reorgNotifications = if call.isNotice then 1 else 0
  invalidated : bumps log .jobsInvalidatedTotal = tallied retainDropped log + tallied countedBy log

section

variable {cr : Crates} {w : Wiring} {log : List (Event engineSig)} {notices : Nat}

theorem blank_nil : Blank 0 [] := ⟨fun _ _ => by simp, rfl, rfl, rfl⟩

theorem Blank.snoc (h : Blank notices log) {o : Op} (ho : o.OffBooks) (r : o.Res) :
    Blank notices (log ++ [⟨o, r⟩]) := by
  have hevent : (∀ x : Counter, x.OfJobs → bumpedBy x ⟨o, r⟩ = 0) ∧ insertedBy ⟨o, r⟩ = 0 ∧
      retainDropped ⟨o, r⟩ = 0 ∧ countedBy ⟨o, r⟩ = 0 := by
    cases o with
    | bump x' n =>
      refine ⟨fun x hx => if_neg ?_, rfl, rfl, rfl⟩
      intro heq
      subst heq
      exact ho hx
    | jobsInsert id job => exact ho.elim
    | jobsLen => exact ho.elim
    | jobsRetain keep => exact ho.elim
    | _ => exact ⟨fun _ _ => rfl, rfl, rfl, rfl⟩
  obtain ⟨hbumps, hinserted, hdropped, hcounted⟩ := hevent
  exact ⟨fun x hx => by simp [h.bumped x hx, hbumps x hx], by simp [h.inserted, hinserted],
    by simp [h.dropped, hdropped], by simp [h.counted, hcounted]⟩

theorem blank_spec {α : Type} {p : Handler α} (hp : p.Only Op.OffBooks) (h : Blank notices log) :
    p.Spec (fun _ _ => True) (fun log _ => Blank notices log) log :=
  Prog.Only.spec (fun _ _ _ => trivial) (fun _ _ r hlog ho => hlog.snoc ho r) hp h

theorem offBooks_of_reads {α : Type} {p : Handler α} (h : p.Only Op.isRead) :
    p.Only Op.OffBooks := by
  refine Prog.Only.mono (fun o ho => ?_) h
  cases o <;> first | exact ho.elim | trivial

/-- The counters of a blank log. -/
theorem Blank.counters (h : Blank notices log) :
    bumps log .declareMiningJobAccepted = 0 ∧ bumps log .declareMiningJobRejected = 0 ∧
      bumps log .declareMiningJobMissingTxns = 0 ∧ bumps log .reorgNotifications = notices ∧
        bumps log .jobsInvalidatedTotal = 0 :=
  ⟨h.bumped _ trivial, h.bumped _ trivial, h.bumped _ trivial, h.bumped _ trivial,
    h.bumped _ trivial⟩

/-- A call with a blank log has no entry to make. -/
theorem Blank.entered (h : Blank 0 log) {call : JobCall} (hdeclare : call.isDeclare = false)
    (hnotice : call.isNotice = false) : Entered call log := by
  obtain ⟨haccepted, hrejected, hmissing, hnotices, hinvalidated⟩ := h.counters
  constructor <;> simp [haccepted, hrejected, hmissing, hnotices, hinvalidated, h.inserted,
    h.dropped, h.counted, hdeclare, hnotice]

/-! ### Declarations -/

/-- The result is counted under its own name. -/
theorem declareResult_entered (hm : w.metrics = true) {d : DeclareMiningJob}
    {pmts : Option ProvideMissingTransactionsSuccess} {result : DeclareMiningJobResult}
    (hbumps : ∀ x : Counter, x.OfJobs → bumps log x = 0)
    (hinserted : tallied insertedBy log = if result = .success then 1 else 0)
    (hdropped : tallied retainDropped log = 0) (hcounted : tallied countedBy log = 0) :
    (declareResult w result).Spec (fun _ _ => True)
      (fun log _ => Entered (.declare d pmts) log) log := by
  have haccepted := hbumps .declareMiningJobAccepted trivial
  have hrejected := hbumps .declareMiningJobRejected trivial
  have hmissing := hbumps .declareMiningJobMissingTxns trivial
  have hnotices := hbumps .reorgNotifications trivial
  have hinvalidated := hbumps .jobsInvalidatedTotal trivial
  unfold declareResult bump
  rw [if_pos hm, if_pos hm, if_pos hm]
  cases result <;>
    refine ⟨trivial, fun _ => ⟨?_, ?_, ?_, ?_⟩⟩ <;>
    simp [bumpedBy, insertedBy, retainDropped, countedBy, haccepted, hrejected, hmissing, hnotices,
      hinvalidated, hinserted, hdropped, hcounted, JobCall.isDeclare, JobCall.isNotice]

theorem declare_entered (hm : w.metrics = true) (d : DeclareMiningJob)
    (pmts : Option ProvideMissingTransactionsSuccess) :
    (handleDeclareMiningJob cr w d pmts).Spec (fun _ _ => True)
      (fun log _ => Entered (.declare d pmts) log) [] := by
  unfold handleDeclareMiningJob
  cases hcheck : checkDeclaration cr d pmts with
  | error result =>
    refine declareResult_entered hm (fun _ _ => rfl) ?_ rfl rfl
    rw [if_neg]
    · rfl
    · rintro rfl
      exact checkDeclaration_ne_success cr hcheck
  | ok accepted =>
    refine Prog.Spec.bind (fun log tip hlog => ?_)
      (blank_spec (offBooks_of_reads (reads_captureTip w)) blank_nil)
    refine Prog.Spec.bind (fun log shareTip hlog => ?_)
      (blank_spec (offBooks_of_reads (reads_captureShareChainTip w)) hlog)
    refine ⟨trivial, fun _ => ⟨trivial, fun _ => ?_⟩⟩
    show (declareResult w .success).Spec _ _ _
    refine declareResult_entered hm (fun x hx => ?_) ?_ ?_ ?_
    · simp [hlog.bumped x hx, bumpedBy]
    · simp [hlog.inserted, insertedBy]
    · simp [hlog.dropped, retainDropped]
    · simp [hlog.counted, countedBy]

/-! ### Invalidations -/

/-- An invalidation enters the jobs that it has counted, after its notice or
    before it. -/
theorem invalidateAll_entered (hm : w.metrics = true) {call : JobCall}
    (hdeclare : call.isDeclare = false) (hnotice : call.isNotice = true) (h : Blank 1 log) :
    (invalidateAll >>= bump w .jobsInvalidatedTotal).Spec (fun _ _ => True)
      (fun log _ => Entered call log) log := by
  obtain ⟨haccepted, hrejected, hmissing, hnotices, hinvalidated⟩ := h.counters
  refine ⟨trivial, fun n => ⟨trivial, fun _ => ?_⟩⟩
  show (bump w .jobsInvalidatedTotal n).Spec _ _ _
  unfold bump
  rw [if_pos hm]
  refine ⟨trivial, fun _ => ⟨?_, ?_, ?_, ?_⟩⟩ <;>
    simp [bumpedBy, insertedBy, retainDropped, countedBy, haccepted, hrejected, hmissing, hnotices,
      hinvalidated, h.inserted, h.dropped, h.counted, hdeclare, hnotice]

theorem reorg_entered (hm : w.metrics = true) (newTip : BlockHash) :
    (notifyShareChainReorg w newTip).Spec (fun _ _ => True)
      (fun log _ => Entered (.reorg newTip) log) [] := by
  have hnoticed : ∀ u, Blank 1 ([] ++ [⟨.bump .reorgNotifications 1, u⟩]) := by
    intro u
    refine ⟨fun x hx => ?_, rfl, rfl, rfl⟩
    simp [bumpedBy, eq_comm]
  unfold notifyShareChainReorg
  have hbump : bump w .reorgNotifications 1 = .op (.bump .reorgNotifications 1) .ret := if_pos hm
  rw [hbump]
  refine ⟨trivial, fun u => ?_⟩
  split_ifs with hw
  · show ((walkAncestors reorgAncestryDepth newTip [newTip]) >>= _).Spec _ _ _
    refine Prog.Spec.bind (fun log walked hlog => ?_)
      (blank_spec (offBooks_of_reads (reads_walkAncestors _ _ _)) (hnoticed u))
    cases walked with
    | none => exact invalidateAll_entered hm rfl rfl hlog
    | some ancestors =>
      obtain ⟨haccepted, hrejected, hmissing, hnotices, hinvalidated⟩ := hlog.counters
      refine ⟨trivial, fun n => ?_⟩
      show (bump w .jobsInvalidatedTotal n).Spec _ _ _
      unfold bump
      rw [if_pos hm]
      refine ⟨trivial, fun _ => ⟨?_, ?_, ?_, ?_⟩⟩ <;>
        simp [bumpedBy, insertedBy, retainDropped, countedBy, haccepted, hrejected, hmissing,
          hnotices, hinvalidated, hlog.inserted, hlog.dropped, hlog.counted, JobCall.isDeclare,
          JobCall.isNotice]
  · exact invalidateAll_entered hm rfl rfl (hnoticed u)

theorem flush_entered (hm : w.metrics = true) :
    (invalidatorFlush w).Spec (fun _ _ => True) (fun log _ => Entered .flush log) [] := by
  have hbump : ∀ x n, bump w x n = .op (.bump x n) .ret := fun _ _ => if_pos hm
  unfold invalidatorFlush
  refine ⟨trivial, fun n => ⟨trivial, fun _ => ?_⟩⟩
  show ((bump w .reorgNotifications 1) >>= fun _ => bump w .jobsInvalidatedTotal n).Spec _ _ _
  rw [hbump, hbump]
  refine ⟨trivial, fun _ => ⟨trivial, fun _ => ⟨?_, ?_, ?_, ?_⟩⟩⟩ <;>
    simp [bumpedBy, insertedBy, retainDropped, countedBy, JobCall.isDeclare, JobCall.isNotice]

/-! ### The other calls -/

/-- Custom jobs and solutions have nothing to enter. -/
theorem JobCall.performs_offBooks {call : JobCall} (hdeclare : call.isDeclare = false)
    (hnotice : call.isNotice = false) {o : Op} (ho : call.performs o) : o.OffBooks := by
  cases call with
  | declare d pmts => cases hdeclare
  | setCustom m t =>
    cases o with
    | bump x n => cases x <;> first | exact ho.elim | exact id
    | _ => first | exact ho.elim | trivial
  | push ps =>
    cases o with
    | bump x n => cases x <;> first | exact ho.elim | exact id
    | _ => first | exact ho.elim | trivial
  | reorg newTip => cases hnotice
  | flush => cases hnotice

theorem aside_entered {call : JobCall} (hdeclare : call.isDeclare = false)
    (hnotice : call.isNotice = false) :
    (call.prog cr w).Spec (fun _ _ => True) (fun log _ => Entered call log) [] :=
  Prog.Spec.imp (fun _ _ h => h.entered hdeclare hnotice) (blank_spec
    (Prog.Only.mono (fun _ ho => JobCall.performs_offBooks hdeclare hnotice ho)
      (call.only_prog cr w)) blank_nil)

/-- Every call that returns has made its entries. -/
theorem jobCall_entered (hm : w.metrics = true) (call : JobCall) :
    (call.prog cr w).Spec (fun _ _ => True) (fun log _ => Entered call log) [] := by
  cases call with
  | declare d pmts => exact Prog.Spec.bind (fun _ _ h => h) (declare_entered hm d pmts)
  | setCustom m t => exact aside_entered rfl rfl
  | push ps => exact aside_entered rfl rfl
  | reorg newTip => exact Prog.Spec.bind (fun _ _ h => h) (reorg_entered hm newTip)
  | flush => exact Prog.Spec.bind (fun _ _ h => h) (flush_entered hm)

end

/-! ## Runs -/

/-- The events of a run, whoever performed them. -/
def eventsOf {ι E : Type} (labels : List (Label engineSig ι E)) : List (Event engineSig) :=
  labels.filterMap fun
    | .thread _ e => some e
    | .env _ => none

section runs

variable {ι : Type} [DecidableEq ι] {cr : Crates} {w : Wiring} {s : Engine} {call : ι → JobCall}
  {labels : List (Label engineSig ι TemplateDistribution)}
  {c : Config engineSig Engine JobAnswer ι}

/-- The events of a run are in the logs of its calls. -/
theorem tally_events (f : Event engineSig → Nat)
    (h : Trace JobStep (jobCalls cr w s call) labels c) {T : Finset ι}
    (hidle : ∀ i ∉ T, (c.threads i).log = []) :
    tallied f (eventsOf labels) = ∑ i ∈ T, tallied f (c.threads i).log := by
  refine Trace.history (P := fun labels c => ∀ T : Finset ι, (∀ i ∉ T, (c.threads i).log = []) →
    tallied f (eventsOf labels) = ∑ i ∈ T, tallied f (c.threads i).log) ?_ ?_ labels h T hidle
  · intro T _
    simp [jobCalls, eventsOf]
  · intro labels c l c' hinv hstep T hidle
    have hbefore : ∀ i ∉ T, (c.threads i).log = [] := by
      intro i hi
      have hsub := hstep.log_subset i
      rw [hidle i hi] at hsub
      exact List.subset_nil.mp hsub
    cases hstep with
    | env msg => simpa [eventsOf] using hinv T hbefore
    | @thread j o k r s' hprog hI =>
      have hj : j ∈ T := by
        by_contra hj
        simpa using hidle j hj
      have hlog : ∀ i,
          tallied f (Function.update c.threads j ⟨k r, (c.threads j).log ++ [⟨o, r⟩]⟩ i).log =
            tallied f (c.threads i).log + if j = i then f ⟨o, r⟩ else 0 := by
        intro i
        by_cases hij : j = i
        · subst hij
          simp
        · simp [hij, Ne.symm hij]
      rw [Finset.sum_congr rfl fun i _ => hlog i, Finset.sum_add_distrib, Finset.sum_ite_eq,
        if_pos hj, ← hinv T hbefore]
      simp [eventsOf]

/-- No job is lost: in every run, each job that was cached at first or inserted
    is still cached, was consumed, or was replaced or dropped by the run. -/
theorem jobs_of_events (h : Trace JobStep (jobCalls cr w s call) labels c) :
    c.shared.declaredJobs = cacheAfterAll s.declaredJobs (eventsOf labels) ∧
      s.declaredJobs.len + tallied insertedBy (eventsOf labels) =
        c.shared.declaredJobs.len + tallied consumedBy (eventsOf labels) +
          tallied retainDropped (eventsOf labels) +
            tallyAt replacedBy s.declaredJobs (eventsOf labels) +
              tallyAt clearedBy s.declaredJobs (eventsOf labels) := by
  refine Trace.history (P := fun labels c =>
    c.shared.declaredJobs = cacheAfterAll s.declaredJobs (eventsOf labels) ∧
      s.declaredJobs.len + tallied insertedBy (eventsOf labels) =
        c.shared.declaredJobs.len + tallied consumedBy (eventsOf labels) +
          tallied retainDropped (eventsOf labels) +
            tallyAt replacedBy s.declaredJobs (eventsOf labels) +
              tallyAt clearedBy s.declaredJobs (eventsOf labels)) ?_ ?_ labels h
  · exact ⟨rfl, rfl⟩
  · intro labels c l c' hinv hstep
    obtain ⟨hcache, hlen⟩ := hinv
    cases hstep with
    | env msg =>
      have hjobs : (teeAct msg c.shared).declaredJobs = c.shared.declaredJobs := rfl
      simpa [eventsOf, hjobs] using And.intro hcache hlen
    | @thread j o k r s' hprog hI =>
      obtain ⟨hcache', hlen'⟩ := parInterp_jobs hI
      have hevents : eventsOf (labels ++ [.thread j ⟨o, r⟩]) = eventsOf labels ++ [⟨o, r⟩] := by
        simp [eventsOf]
      rw [hevents, cacheAfterAll_snoc, tallyAt_snoc, tallyAt_snoc, ← hcache]
      refine ⟨hcache', ?_⟩
      show _ = s'.declaredJobs.len + _ + _ + _ + _
      simp only [tallied_append, tallied_cons, tallied_nil]
      omega

/-- The books of a run: how many declarations and notices there were, and how
    many jobs were consumed, replaced, counted by `invalidate_all` and dropped
    by it. -/
structure JobBooks (before after : Nat) (gained : Counter → Nat)
    (declarations notices consumed replaced counted cleared : Nat) : Prop where
  answered : gained .declareMiningJobAccepted + gained .declareMiningJobRejected +
    gained .declareMiningJobMissingTxns = declarations
  noticed : gained .reorgNotifications = notices
  balanced : before + gained .declareMiningJobAccepted + counted =
    after + consumed + replaced + gained .jobsInvalidatedTotal + cleared

/-- When the calls that have started have all returned, the counters and the
    cache balance, whatever the order of their steps. Between what was
    invalidated and what was counted as invalidated lies only what happened
    between counting and clearing. -/
theorem job_books (hm : w.metrics = true) (h : Trace JobStep (jobCalls cr w s call) labels c)
    {T : Finset ι} (hdone : ∀ i ∈ T, (c.threads i).prog.result?.isSome = true)
    (hidle : ∀ i ∉ T, (c.threads i).log = []) :
    ∃ gained : Counter → Nat, (∀ x, c.shared.counters x = s.counters x + gained x) ∧
      JobBooks s.declaredJobs.len c.shared.declaredJobs.len gained
        (T.filter fun i => (call i).isDeclare).card (T.filter fun i => (call i).isNotice).card
        (tallied consumedBy (eventsOf labels)) (tallyAt replacedBy s.declaredJobs (eventsOf labels))
        (tallied countedBy (eventsOf labels))
        (tallyAt clearedBy s.declaredJobs (eventsOf labels)) := by
  have hentered : ∀ i ∈ T, Entered (call i) (c.threads i).log := by
    intro i hi
    have hspec := (spec_of_trace (P := fun _ _ _ => True)
      (Q := fun i log _ => Entered (call i) log)
      (fun i => jobCall_entered hm (call i)) (fun _ => logged_nil _) h i).1
    obtain ⟨answer, hanswer⟩ := Option.isSome_iff_exists.mp (hdone i hi)
    rw [Prog.eq_ret_of_result? hanswer] at hspec
    exact hspec
  obtain ⟨-, hjobs⟩ := jobs_of_events h
  refine ⟨_, fun x => counters_eq_sum h x hidle, ⟨?_, ?_, ?_⟩⟩
  · rw [← Finset.sum_add_distrib, ← Finset.sum_add_distrib, Finset.card_filter]
    exact Finset.sum_congr rfl fun i hi => (hentered i hi).answered
  · rw [Finset.card_filter]
    exact Finset.sum_congr rfl fun i hi => (hentered i hi).noticed
  · have hinserted : ∑ i ∈ T, bumps (c.threads i).log .declareMiningJobAccepted =
        tallied insertedBy (eventsOf labels) := by
      rw [tally_events insertedBy h hidle]
      exact Finset.sum_congr rfl fun i hi => (hentered i hi).accepted
    have hinvalidated : ∑ i ∈ T, bumps (c.threads i).log .jobsInvalidatedTotal =
        tallied retainDropped (eventsOf labels) + tallied countedBy (eventsOf labels) := by
      rw [tally_events retainDropped h hidle, tally_events countedBy h hidle,
        ← Finset.sum_add_distrib]
      exact Finset.sum_congr rfl fun i hi => (hentered i hi).invalidated
    rw [hinserted, hinvalidated]
    omega

end runs

namespace Sample

/-- A flush and a declaration. -/
def flushedWhileDeclaring : Bool → JobCall
  | false => .flush
  | true => declaring 7 3

/-- The flush counts no job, a job is declared, and the flush drops it. -/
def declaredInBetween : List (Bool ⊕ TemplateDistribution) :=
  [.inl false] ++ List.replicate 6 (.inl true) ++ List.replicate 3 (.inl false)

end Sample

/-- The job that the flush has dropped is missing from the count. -/
theorem job_books_declared_in_between :
    let c := (jobCalls Sample.crates Sample.wiring Engine.new Sample.flushedWhileDeclaring).play
      Sample.online.parStep teeAct Sample.declaredInBetween
    ∃ gained : Counter → Nat, (∀ x, c.shared.counters x = Engine.new.counters x + gained x) ∧
      JobBooks 0 0 gained 1 1 0 0 0 1 := by
  intro c
  have hdone : ∀ b, (c.threads b).prog.result?.isSome = true := by decide +kernel
  have hcalls : (Finset.univ.filter fun b => (Sample.flushedWhileDeclaring b).isDeclare).card = 1 ∧
      (Finset.univ.filter fun b => (Sample.flushedWhileDeclaring b).isNotice).card = 1 := by decide
  have hidle : ∀ b ∉ (Finset.univ : Finset Bool), (c.threads b).log = [] :=
    fun b hb => absurd (Finset.mem_univ b) hb
  obtain ⟨gained, hgained, hbooks⟩ := job_books rfl (Sample.played_run _ Sample.declaredInBetween)
    (fun b _ => hdone b) hidle
  rw [hcalls.1, hcalls.2] at hbooks
  exact ⟨gained, hgained, hbooks⟩

end Sv2P2pool
