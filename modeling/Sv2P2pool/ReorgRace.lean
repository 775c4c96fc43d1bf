import Sv2P2pool.Preflight

/-! # Declarations During a Reorg

    `handle_declare_mining_job` reads the share-chain tip, awaits the answer
    and inserts the job afterwards; `notify_share_chain_reorg` walks back from
    a new tip and drops the cached jobs it does not meet. Nothing ties the
    insertion to the tip that was read, so a job can be inserted after the
    flush that should have dropped it.
-/

namespace Sv2P2pool

open ByteCodec Bitcoin Interleave

/-! ## The system -/

/-- The engine and the share chain it reads. -/
structure ChainState where
  engine : Engine
  /-- The current tip of the share chain. -/
  tip : Option BlockHash

/-- A tip read answers the current tip or fails; header lookups may answer
    anything. -/
def chainInterp : Interp engineSig ChainState := fun s o =>
  match o with
  | .getChainTip => fun r t => (r = none ∨ r = some s.tip) ∧ t = s
  | o => fun r t => parInterp s.engine o r t.engine ∧ t.tip = s.tip

/-- The share chain moves to another tip. -/
def tipAct (tip : Option BlockHash) (s : ChainState) : ChainState := { s with tip := tip }

inductive ReorgCall where
  | declare (d : DeclareMiningJob) (pmts : Option ProvideMissingTransactionsSuccess)
  | reorg (newTip : BlockHash)

section

variable (cr : Crates) (w : Wiring)

def ReorgCall.prog : ReorgCall → Handler Unit
  | .declare d pmts => handleDeclareMiningJob cr w d pmts >>= fun _ => pure ()
  | .reorg newTip => notifyShareChainReorg w newTip

/-- The predecessors a walk has met. -/
def Collected (log : List (Event engineSig)) (h : BlockHash) : Prop :=
  ∃ cursor, ⟨.getShareHeader cursor, some (.found (some h))⟩ ∈ log

/-- The job was declared on `newTip` or on an ancestor the walk has met. -/
def OnBranch (newTip : BlockHash) (log : List (Event engineSig)) (job : DeclaredJob) : Prop :=
  ∃ h, job.shareChainTip = some h ∧ (h = newTip ∨ Collected log h)

/-- A walk's flush of the cache. -/
def IsFlush : Event engineSig → Prop
  | ⟨.jobsRetain _, _⟩ => True
  | ⟨.jobsClear, _⟩ => True
  | _ => False

/-- A declaration inserts right after its tip read, with the tip it read; a
    reorg keeps the new tip and the ancestors it has met. -/
def Faithful (call : ReorgCall) (log : List (Event engineSig)) : Op → Prop
  | .jobsInsert _ job =>
    ∃ answer, log.getLast? = some ⟨.getChainTip, answer⟩ ∧ job.shareChainTip = answer.join
  | .jobsRetain keep => ∀ newTip, call = .reorg newTip →
    ∃ ancestors, keep = survives ancestors ∧ ∀ h ∈ ancestors, h = newTip ∨ Collected log h
  | _ => True

/-- A reorg has flushed when it returns. -/
def Flushed (call : ReorgCall) (log : List (Event engineSig)) : Prop :=
  ∀ newTip, call = .reorg newTip → ∃ e ∈ log, IsFlush e

variable {cr w} {log log' : List (Event engineSig)}

theorem Collected.mono (hsub : log ⊆ log') {h : BlockHash} (hc : Collected log h) :
    Collected log' h := by
  obtain ⟨cursor, hmem⟩ := hc
  exact ⟨cursor, hsub hmem⟩

theorem OnBranch.mono (hsub : log ⊆ log') {newTip : BlockHash} {job : DeclaredJob}
    (h : OnBranch newTip log job) : OnBranch newTip log' job := by
  obtain ⟨tip, htip, hmem⟩ := h
  exact ⟨tip, htip, hmem.imp id (Collected.mono hsub)⟩

section race

variable {ι : Type} [DecidableEq ι]

/-- A tip read does not fail, and when a reorg flushes the cache, no declaration
    is between its tip read and its insertion with a tip off the new branch. -/
def Unraced (call : ι → ReorgCall) (c : Config engineSig ChainState Unit ι) :
    Label engineSig ι (Option BlockHash) → Prop
  | .thread _ ⟨.getChainTip, answer⟩ => answer ≠ none
  | .thread i e => IsFlush e → ∀ newTip, call i = .reorg newTip →
    ∀ j r job cont, (c.threads j).prog = .op (.jobsInsert r job) cont →
      OnBranch newTip (c.threads i).log job
  | .env _ => True

/-- The cached jobs, and those about to be inserted, are on the branch that the
    walk of call `i` has met. -/
structure FlushInv (newTip : BlockHash) (i : ι) (c : Config engineSig ChainState Unit ι) :
    Prop where
  cached : ∀ r job, c.shared.engine.declaredJobs.lookup r = some job →
    OnBranch newTip (c.threads i).log job
  inserting : ∀ j r job cont, (c.threads j).prog = .op (.jobsInsert r job) cont →
    OnBranch newTip (c.threads i).log job

variable {call : ι → ReorgCall} {newTip : BlockHash} {i : ι}
  {c c' : Config engineSig ChainState Unit ι}

omit [DecidableEq ι] in
/-- What one operation does to the tip and the cache. -/
theorem chainInterp_step {s s' : ChainState} {o : Op} {r : o.Res} (h : chainInterp s o r s') :
    s'.tip = s.tip ∧ CacheStep s.engine.declaredJobs ⟨o, r⟩ s'.engine.declaredJobs ∧
      ∀ answer, (⟨o, r⟩ : Event engineSig) = ⟨.getChainTip, answer⟩ →
        answer = none ∨ answer = some s.tip := by
  cases o with
  | getChainTip =>
    obtain ⟨hanswer, rfl⟩ := h
    refine ⟨rfl, .kept _ (by simp [Op.writes]), fun answer heq => ?_⟩
    cases heq
    exact hanswer
  | _ => exact ⟨h.2, parInterp_cache h.1, fun answer heq => by cases heq⟩

/-- After the flush, declarations read and insert the new tip. -/
theorem FlushInv.step (h : FlushInv newTip i c) (htip : c.shared.tip = some newTip)
    (hspec : ∀ j, (c.threads j).prog.Spec (Faithful (call j))
      (fun log _ => Flushed (call j) log) (c.threads j).log)
    {j : ι} {e : Event engineSig} (hstep : Step chainInterp tipAct c (.thread j e) c')
    (hraced : Unraced call c (.thread j e)) : FlushInv newTip i c' := by
  have hsub := hstep.log_subset i
  have hspec' := hstep.spec hspec
  cases hstep with
  | @thread _ o cont r s' hprog hI =>
    obtain ⟨-, hcache, hread⟩ := chainInterp_step hI
    refine ⟨fun id job hjob => OnBranch.mono hsub ?_, fun j' id job cont' hj' => ?_⟩
    · replace hjob : s'.engine.declaredJobs.lookup id = some job := hjob
      generalize s'.engine.declaredJobs = jobs at hcache hjob
      generalize he : (⟨o, r⟩ : Event engineSig) = e at hcache
      cases hcache with
      -- only an insert brings a job that was not there
      | inserted id' job' =>
        cases he
        rw [DashMap.lookup_insert_eq] at hjob
        split_ifs at hjob
        · cases hjob
          exact h.inserting j id' job cont hprog
        · exact h.cached id job hjob
      | removed id' =>
        rw [DashMap.lookup_erase_eq] at hjob
        split_ifs at hjob
        exact h.cached id job hjob
      | cleared => simp at hjob
      | retained keep dropped =>
        rw [DashMap.lookup_retain_eq_some] at hjob
        exact h.cached id job hjob.1
      | kept => exact h.cached id job hjob
    · rcases prog_of_update hj' with ⟨rfl, hp⟩ | ⟨-, hj⟩
      · -- the call has just read the tip, which is the new one
        have hnext := hspec' j'
        rw [show (Function.update c.threads j' ⟨cont r, (c.threads j').log ++ [⟨o, r⟩]⟩ j').prog =
          .op (.jobsInsert id job) cont' from hj'] at hnext
        obtain ⟨⟨answer, hlast, hjob⟩, -⟩ := hnext
        simp only [Function.update_self, List.getLast?_append, List.getLast?_singleton,
          Option.some_or, Option.some.injEq] at hlast
        rcases hread answer hlast with rfl | rfl
        · cases hlast
          exact absurd rfl hraced
        · refine ⟨newTip, ?_, Or.inl rfl⟩
          rw [hjob, htip]
          rfl
      · exact OnBranch.mono hsub (h.inserting j' id job cont' hj)

end race

end

/-- The next operation inserts a job. -/
def inserts : Handler Unit → Bool
  | .op (.jobsInsert _ _) _ => true
  | _ => false

/-- The condition for two calls, when no declaration is at its insertion during
    a flush. -/
def Sample.idle (c : Config engineSig ChainState Unit Bool) :
    Label engineSig Bool (Option BlockHash) → Bool
  | .thread _ ⟨.getChainTip, answer⟩ => answer.isSome
  | .thread _ ⟨.jobsRetain _, _⟩ =>
    !inserts (c.threads false).prog && !inserts (c.threads true).prog
  | .thread _ ⟨.jobsClear, _⟩ => false
  | .thread _ _ => true
  | .env _ => false

end Sv2P2pool
