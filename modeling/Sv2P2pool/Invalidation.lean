import Sv2P2pool.Reorg
import Sv2P2pool.SingleUse
import Sv2P2pool.Watcher

/-! # What the Watcher Invalidates

    The invalidator flushes the whole cache for every notice it receives. A
    receiver that has fallen behind receives a lag in the place of the tips
    it missed, and the flush is the same. What is not broadcast is another
    matter: the detector samples the tip, and a change that it does not see
    invalidates nothing.
-/

namespace Sv2P2pool

open ByteCodec Bitcoin Interleave

/-! ## Lag -/

inductive LagThread where
  | invalidator
  /-- Any handler of the engine. -/
  | handler
  deriving DecidableEq

inductive ChannelAct where
  /-- `poll_once` sends a tip. -/
  | sent (tip : BlockHash)
  /-- The `recv` of the invalidator returns. -/
  | received (notice : Except Nat BlockHash)

abbrev LagLabel := Label engineSig LagThread ChannelAct

structure LagState where
  engine : Engine
  /-- The receiver of the invalidator. -/
  rx : BroadcastReceiver BlockHash
  /-- The flush for the last notice. -/
  flush : Thread engineSig Unit

/-- Nothing sent and nothing received. -/
def LagState.new : LagState := ⟨Engine.new, .fresh, ⟨.ret (), []⟩⟩

/-- The detector sends, the invalidator receives and flushes, and handlers
    work on the engine, one operation at a time and in any order. -/
inductive LagStep (w : Wiring) (capacity : Nat) : LagState → LagLabel → LagState → Prop where
  | sent {s : LagState} (tip : BlockHash) :
      LagStep w capacity s (.env (.sent tip)) { s with rx := s.rx.push capacity tip }
  /-- The loop receives again once its flush is over. -/
  | received {s : LagState} {notice : Except Nat BlockHash} {rx : BroadcastReceiver BlockHash}
      (hidle : s.flush.prog = .ret ()) (hrecv : s.rx.recv = some (notice, rx)) :
      LagStep w capacity s (.env (.received notice))
        { s with rx := rx, flush := ⟨invalidatorFlush w, []⟩ }
  | flushing {s : LagState} {o : Op} {k : o.Res → Handler Unit} {r : o.Res} {engine : Engine}
      (hprog : s.flush.prog = .op o k) (hI : parInterp s.engine o r engine) :
      LagStep w capacity s (.thread .invalidator ⟨o, r⟩)
        { s with engine := engine, flush := ⟨k r, s.flush.log ++ [⟨o, r⟩]⟩ }
  | handling {s : LagState} {o : Op} {r : o.Res} {engine : Engine}
      (hI : parInterp s.engine o r engine) :
      LagStep w capacity s (.thread .handler ⟨o, r⟩) { s with engine := engine }

section

variable {w : Wiring} {capacity : Nat} {log : List LagLabel} {s s' : LagState}

/-- Every entry of the cache was inserted after every send. -/
def Fresh (log : List LagLabel) : Prop :=
  ∀ before tip after, log = before ++ .env (.sent tip) :: after →
    ∀ r n job, (ledger log).entries.lookup r = some (n, job) →
      (before.filterMap jobInserted).length ≤ n

/-- The flush has not cleared the cache yet. -/
def Unflushed (flush : Thread engineSig Unit) : Prop :=
  flush.prog.result? = none ∧ ⟨.jobsClear, ()⟩ ∉ flush.log

/-- A flush ends with the cache cleared; the first thread has no flush to do. -/
def Cleared (l : List (Event engineSig)) (_ : Unit) : Prop := l = [] ∨ ⟨.jobsClear, ()⟩ ∈ l

/-- What is older than a send is still going to be flushed, or gone. -/
structure LagInv (log : List LagLabel) (s : LagState) : Prop where
  tracks : (ledger log).Tracks s.engine.declaredJobs
  clears : s.flush.prog.Spec (fun _ _ => True) Cleared s.flush.log
  covered : s.rx.recv ≠ none ∨ Unflushed s.flush ∨ Fresh log

theorem invalidatorFlush_clears (w : Wiring) :
    (invalidatorFlush w).Spec (fun _ _ => True) Cleared [] := by
  unfold invalidatorFlush invalidateAll bump Cleared
  split_ifs <;> simp [jobsLen, jobsClear]

/-- An operation of a thread inserts nothing old. -/
theorem Fresh.thread (h : Fresh log) (i : LagThread) (e : Event engineSig) :
    Fresh (log ++ [.thread i e]) := by
  intro before tip after heq r n job hentry
  obtain ⟨after', rfl⟩ : ∃ after', log = before ++ .env (.sent tip) :: after' := by
    rcases exists_split_snoc.mp ⟨before, after, heq, rfl⟩ with hold | ⟨hlast, -⟩
    · obtain ⟨before', after', hlog, rfl⟩ := hold
      exact ⟨after', hlog⟩
    · cases hlast
  have hle : (before.filterMap jobInserted).length ≤
      (ledger (before ++ .env (.sent tip) :: after')).inserted.length := by
    rw [inserted_ledger, List.filterMap_append, List.length_append]
    exact Nat.le_add_right _ _
  cases he : cacheEvent (.thread i e : LagLabel) with
  | none =>
    rw [ledger_snoc_none he] at hentry
    exact h before tip after' rfl r n job hentry
  | some event =>
    rw [ledger_snoc_some he] at hentry
    rcases Tickets.lookup_step hentry with hentry | rfl
    · exact h before tip after' rfl r n job hentry
    · exact hle

theorem fresh_of_clear (log : List LagLabel) (i : LagThread) :
    Fresh (log ++ [.thread i ⟨.jobsClear, ()⟩]) := by
  intro before tip after _ r n job hentry
  rw [ledger_snoc_some (e := .retain fun _ _ => false) rfl] at hentry
  cases ((DashMap.lookup_retain_eq_some _ _ _ _).mp hentry).2

theorem LagInv.step (h : LagInv log s) {l : LagLabel}
    (hstep : LagStep w capacity s l s') : LagInv (log ++ [l]) s' := by
  cases hstep with
  | sent tip =>
    refine ⟨?_, h.clears, Or.inl (s.rx.recv_push_ne_none capacity tip)⟩
    rw [ledger_snoc_none rfl]
    exact h.tracks
  | received hidle hrecv =>
    refine ⟨?_, invalidatorFlush_clears w, Or.inr (Or.inl ⟨rfl, by simp⟩)⟩
    rw [ledger_snoc_none rfl]
    exact h.tracks
  | @flushing o k r engine hprog hI =>
    have hclears := h.clears
    rw [hprog] at hclears
    refine ⟨tracks_snoc h.tracks (parInterp_cache hI), hclears.2 r, ?_⟩
    rcases h.covered with hrecv | hflush | hfresh
    · exact Or.inl hrecv
    · by_cases hclear : (⟨o, r⟩ : Event engineSig) = ⟨.jobsClear, ()⟩
      · rw [hclear]
        exact Or.inr (Or.inr (fresh_of_clear log .invalidator))
      · have hnot : (⟨.jobsClear, ()⟩ : Event engineSig) ∉ s.flush.log ++ [⟨o, r⟩] := by
          simp [hflush.2, Ne.symm hclear]
        -- a flush does not end before it has cleared the cache
        cases hk : k r with
        | op o' k' => exact Or.inr (Or.inl ⟨rfl, hnot⟩)
        | ret u =>
          have hend := hclears.2 r
          rw [hk] at hend
          rcases hend with hnil | hmem
          · simp at hnil
          · exact absurd hmem hnot
    · exact Or.inr (Or.inr (hfresh.thread _ _))
  | @handling o r engine hI =>
    refine ⟨tracks_snoc h.tracks (parInterp_cache hI), h.clears, ?_⟩
    rcases h.covered with hrecv | hflush | hfresh
    · exact Or.inl hrecv
    · exact Or.inr (Or.inl hflush)
    · exact Or.inr (Or.inr (hfresh.thread _ _))

theorem lagInv (h : Trace (LagStep w capacity) .new log s) : LagInv log s := by
  refine Trace.history ⟨fun r => rfl, Or.inl rfl, Or.inr (Or.inr ?_)⟩
    (fun _ _ _ _ hinv hstep => hinv.step hstep) log h
  intro before tip after hlog
  simp at hlog

/-- With any capacity and in any interleaving: when the invalidator has
    drained its receiver and finished its flush, every cached job comes from
    an insertion after the last send. -/
theorem lag_loses_no_invalidation (h : Trace (LagStep w capacity) .new log s)
    (hdone : s.flush.prog = .ret ()) (hdrained : s.rx.recv = none)
    {before after : List LagLabel} {tip : BlockHash}
    (hsent : log = before ++ .env (.sent tip) :: after) :
    (ledger log).Tracks s.engine.declaredJobs ∧
    ∀ r job, s.engine.declaredJobs.lookup r = some job →
      ∃ n, (ledger log).entries.lookup r = some (n, job) ∧
        (before.filterMap jobInserted).length ≤ n ∧
        (after.filterMap jobInserted)[n - (before.filterMap jobInserted).length]? =
          some (r, job) := by
  have hinv := lagInv h
  refine ⟨hinv.tracks, fun r job hjob => ?_⟩
  have hfresh : Fresh log := by
    rcases hinv.covered with hrecv | hflush | hfresh
    · exact absurd hdrained hrecv
    · have hnone := hflush.1
      rw [hdone] at hnone
      cases hnone
    · exact hfresh
  rw [hinv.tracks r] at hjob
  obtain ⟨⟨n, job'⟩, hentry, rfl⟩ := Option.map_eq_some_iff.mp hjob
  have hle := hfresh before tip after hsent r n job' hentry
  refine ⟨n, hentry, hle, ?_⟩
  have hvalid := ledger_valid.entry r n job' hentry
  have hinserted : (ledger log).inserted =
      before.filterMap jobInserted ++ after.filterMap jobInserted := by
    rw [inserted_ledger, hsent, List.filterMap_append]
    rfl
  rw [hinserted, List.getElem?_append_right hle] at hvalid
  exact hvalid

end

namespace Sample

/-- A handler caches a job. -/
def cached (r : RequestId) : LagLabel :=
  .thread .handler ⟨.jobsInsert r (job (U256.fill 1) 3 [9]), ()⟩

/-- A notice and the flush for it, which drops `n` jobs. -/
def noticed (notice : Except Nat BlockHash) (n : Nat) : List LagLabel :=
  [.env (.received notice), .thread .invalidator ⟨.jobsLen, n⟩,
    .thread .invalidator ⟨.jobsClear, ()⟩,
    .thread .invalidator ⟨.bump .reorgNotifications 1, ()⟩,
    .thread .invalidator ⟨.bump .jobsInvalidatedTotal n, ()⟩]

/-- A job is cached and a tip sent. -/
def beforeOverrun : List LagLabel := [cached 7, .env (.sent (U256.fill 1))]

/-- In a channel for one the second tip overwrites the first. -/
def afterOverrun : List LagLabel :=
  noticed (.error 1) 1 ++ noticed (.ok (U256.fill 2)) 0 ++ [cached 9]

def overrun : List LagLabel := beforeOverrun ++ .env (.sent (U256.fill 2)) :: afterOverrun

end Sample

/-- The job from before the lag is gone, the one from after it stays. -/
theorem lag_flushes_older_job :
    ∃ s, Trace (LagStep Sample.wiring 1) .new Sample.overrun s ∧
      s.flush.prog.result? = some () ∧ s.rx.recv = none ∧
      s.engine.declaredJobs.lookup 7 = none ∧ (s.engine.declaredJobs.lookup 9).isSome = true ∧
      ∀ r job, s.engine.declaredJobs.lookup r = some job →
        ∃ n, (ledger Sample.overrun).entries.lookup r = some (n, job) ∧ 1 ≤ n := by
  have hrun : ∃ s, Trace (LagStep Sample.wiring 1) .new Sample.overrun s ∧
      s.flush.prog = .ret () ∧ s.rx.recv = none ∧ s.engine.declaredJobs.lookup 7 = none ∧
      (s.engine.declaredJobs.lookup 9).isSome = true :=
    ⟨_, ⟨_, .handling ⟨.offline, rfl⟩, _, .sent _, _, .sent _,
      _, .received rfl rfl,
      _, .flushing rfl ⟨.offline, rfl⟩, _, .flushing rfl ⟨.offline, rfl⟩,
      _, .flushing rfl ⟨.offline, rfl⟩, _, .flushing rfl ⟨.offline, rfl⟩,
      _, .received rfl rfl,
      _, .flushing rfl ⟨.offline, rfl⟩, _, .flushing rfl ⟨.offline, rfl⟩,
      _, .flushing rfl ⟨.offline, rfl⟩, _, .flushing rfl ⟨.offline, rfl⟩,
      _, .handling ⟨.offline, rfl⟩, rfl⟩, rfl, rfl, rfl, rfl⟩
  obtain ⟨s, hrun, hdone, hdrained, hgone, hkept⟩ := hrun
  have hafter := lag_loses_no_invalidation hrun hdone hdrained
    (show Sample.overrun = Sample.beforeOverrun ++ .env (.sent (U256.fill 2)) :: Sample.afterOverrun
      from rfl)
  refine ⟨s, hrun, by rw [hdone]; rfl, hdrained, hgone, hkept, fun r job hjob => ?_⟩
  obtain ⟨n, hentry, hle, -⟩ := hafter.2 r job hjob
  exact ⟨n, hentry, hle⟩

/-! ## Sampling -/

structure SampledState where
  engine : Engine
  /-- The tip of the share chain. -/
  tip : Option BlockHash
  /-- `last_tip` of the detector. -/
  lastTip : Option BlockHash
  rx : BroadcastReceiver BlockHash

/-- A fresh watcher on a share chain with the given tip. -/
def SampledState.new (tip : Option BlockHash) : SampledState := ⟨Engine.new, tip, none, .fresh⟩

inductive SampledLabel where
  /-- The share chain has a new tip. -/
  | moved (tip : Option BlockHash)
  /-- The detector reads `tip` and sends the change it sees, if any. -/
  | polled (tip seen : Option BlockHash)
  /-- A complete call of `handle_declare_mining_job`. -/
  | declared (r : RequestId) (captured : Option BlockHash) (result : DeclareMiningJobResult)

/-- The invalidator receives and flushes until it would have to wait. -/
inductive Drains (w : Wiring) :
    Engine → BroadcastReceiver BlockHash → Engine → BroadcastReceiver BlockHash → Prop where
  | done {engine : Engine} {rx : BroadcastReceiver BlockHash} (hrecv : rx.recv = none) :
      Drains w engine rx engine rx
  | notice {engine engine' : Engine} {rx next rx' : BroadcastReceiver BlockHash}
      {notice : Except Nat BlockHash} (hrecv : rx.recv = some (notice, next))
      (hrest : Drains w (engine.flushed w) next engine' rx') : Drains w engine rx engine' rx'

/-- The receiver after a poll. -/
def sendSeen (rx : BroadcastReceiver BlockHash) : Option BlockHash → BroadcastReceiver BlockHash
  | none => rx
  | some tip => rx.push broadcastCapacity tip

/-- Tip changes, polls and declarations, in any order. -/
inductive SampledStep (cr : Crates) (w : Wiring) :
    SampledState → SampledLabel → SampledState → Prop where
  | moved {s : SampledState} (tip : Option BlockHash) :
      SampledStep cr w s (.moved tip) { s with tip := tip }
  | polled {s : SampledState} {lastTip seen : Option BlockHash} {engine : Engine}
      {rx : BroadcastReceiver BlockHash} (hpoll : pollOnce s.tip s.lastTip = (lastTip, seen))
      (hdrain : Drains w s.engine (sendSeen s.rx seen) engine rx) :
      SampledStep cr w s (.polled s.tip seen) ⟨engine, s.tip, lastTip, rx⟩
  /-- The call reads the current tip. -/
  | declared {s : SampledState} (env : Env) (d : DeclareMiningJob)
      (pmts : Option ProvideMissingTransactionsSuccess) {result : DeclareMiningJobResult}
      {engine : Engine} (htip : env.chainTip = some s.tip)
      (hrun : run env.oracle (handleDeclareMiningJob cr w d pmts) s.engine = (result, engine)) :
      SampledStep cr w s (.declared d.requestId (env.shareChainTip w) result)
        { s with engine := engine }

/-- The tip a poll reads. -/
def tipRead : SampledLabel → Option BlockHash
  | .polled tip _ => tip
  | _ => none

def capture (captured : DashMap RequestId (Option BlockHash)) :
    SampledLabel → DashMap RequestId (Option BlockHash)
  | .moved _ => captured
  | .polled _ none => captured
  | .polled _ (some _) => ∅
  | .declared r tip .success => captured.insert r tip
  | .declared _ _ _ => captured

/-- The tip of the last accepted declaration of each request id since the
    detector saw a change. -/
def capturedSince (log : List SampledLabel) : DashMap RequestId (Option BlockHash) :=
  log.foldl capture ∅

section

variable {cr : Crates} {w : Wiring} {log : List SampledLabel} {s s' : SampledState}
  {tip₀ : Option BlockHash}

theorem capturedSince_snoc (log : List SampledLabel) (l : SampledLabel) :
    capturedSince (log ++ [l]) = capture (capturedSince log) l := by
  simp [capturedSince]

theorem flushed_declaredJobs (w : Wiring) (engine : Engine) :
    (engine.flushed w).declaredJobs = ∅ := by
  unfold Engine.flushed
  simp

/-- Nothing was sent. -/
theorem Drains.fresh {engine engine' : Engine} {rx : BroadcastReceiver BlockHash}
    (h : Drains w engine .fresh engine' rx) : engine' = engine ∧ rx = .fresh := by
  cases h with
  | done _ => exact ⟨rfl, rfl⟩
  | notice hrecv _ => cases hrecv

/-- One tip was sent. -/
theorem Drains.sent {engine engine' : Engine} {rx : BroadcastReceiver BlockHash} {tip : BlockHash}
    (h : Drains w engine (sendSeen .fresh (some tip)) engine' rx) :
    engine' = engine.flushed w ∧ rx = .fresh := by
  cases h with
  | done hrecv => cases hrecv
  | notice hrecv hrest =>
    cases hrecv
    exact hrest.fresh

/-- The cache holds what was declared since the last change the detector saw,
    each job with the tip it captured. -/
structure SampledInv (log : List SampledLabel) (s : SampledState) : Prop where
  drained : s.rx = .fresh
  lastTip : s.lastTip = (log.filterMap tipRead).getLast?
  cached : ∀ r, (s.engine.declaredJobs.lookup r).map DeclaredJob.shareChainTip =
    (capturedSince log).lookup r

/-- `last_tip` is the last tip that was read. -/
theorem pollOnce_lastTip (tip lastTip : Option BlockHash) :
    (pollOnce tip lastTip).1 = tip.or lastTip := by
  unfold pollOnce
  split
  · rfl
  · rfl
  · split_ifs with heq
    · rw [heq]
      rfl
    · rfl

theorem SampledInv.moved (h : SampledInv log s) (tip : Option BlockHash) :
    SampledInv (log ++ [.moved tip]) { s with tip := tip } := by
  refine ⟨h.drained, ?_, ?_⟩
  · simp [tipRead, h.lastTip]
  · rw [capturedSince_snoc]
    exact h.cached

theorem SampledInv.polled (h : SampledInv log s) {lastTip seen : Option BlockHash}
    {engine : Engine} {rx : BroadcastReceiver BlockHash}
    (hpoll : pollOnce s.tip s.lastTip = (lastTip, seen))
    (hdrain : Drains w s.engine (sendSeen s.rx seen) engine rx) :
    SampledInv (log ++ [.polled s.tip seen]) ⟨engine, s.tip, lastTip, rx⟩ := by
  have hread : lastTip = s.tip.or s.lastTip := by
    rw [← pollOnce_lastTip, hpoll]
  have hlast : lastTip =
      ((log ++ [SampledLabel.polled s.tip seen]).filterMap tipRead).getLast? := by
    rw [hread, h.lastTip, List.filterMap_append, List.getLast?_append]
    cases s.tip <;> rfl
  rw [h.drained] at hdrain
  cases seen with
  | none =>
    obtain ⟨rfl, rfl⟩ := hdrain.fresh
    refine ⟨rfl, hlast, ?_⟩
    rw [capturedSince_snoc]
    exact h.cached
  | some tip =>
    obtain ⟨rfl, rfl⟩ := hdrain.sent
    refine ⟨rfl, hlast, fun r => ?_⟩
    rw [capturedSince_snoc, flushed_declaredJobs]
    rfl

theorem SampledInv.declared (h : SampledInv log s) {env : Env} {d : DeclareMiningJob}
    {pmts : Option ProvideMissingTransactionsSuccess} {result : DeclareMiningJobResult}
    {engine : Engine}
    (hrun : run env.oracle (handleDeclareMiningJob cr w d pmts) s.engine = (result, engine)) :
    SampledInv (log ++ [.declared d.requestId (env.shareChainTip w) result])
      { s with engine := engine } := by
  refine ⟨h.drained, by simp [tipRead, h.lastTip], fun r => ?_⟩
  rw [capturedSince_snoc]
  cases hcheck : checkDeclaration cr d pmts with
  | error result' =>
    rw [run_declare_error cr w env hcheck] at hrun
    obtain ⟨rfl, rfl⟩ := Prod.mk.inj hrun
    rw [bumped_declaredJobs, h.cached r]
    cases hresult : result' with
    | success =>
      rw [hresult] at hcheck
      exact absurd hcheck (checkDeclaration_ne_success cr)
    | _ => rfl
  | ok accepted =>
    obtain ⟨t, txs⟩ := accepted
    rw [run_declare_ok cr w env hcheck] at hrun
    obtain ⟨rfl, rfl⟩ := Prod.mk.inj hrun
    simp only [bumped_declaredJobs, Engine.store, capture, DashMap.lookup_insert_eq]
    split_ifs
    · rfl
    · exact h.cached r

theorem sampledInv (h : Trace (SampledStep cr w) (.new tip₀) log s) : SampledInv log s := by
  refine Trace.history ⟨rfl, rfl, fun r => rfl⟩ (fun log s l s' hinv hstep => ?_) log h
  cases hstep with
  | moved tip => exact hinv.moved tip
  | polled hpoll hdrain => exact hinv.polled hpoll hdrain
  | declared env d pmts htip hrun => exact hinv.declared hrun

theorem pollOnce_again (tip : BlockHash) :
    pollOnce (some tip) (some tip) = (some tip, none) := by
  simp [pollOnce]

/-- The detector is silent on the first tip and on the one it has read last. -/
theorem pollOnce_silent {tip : BlockHash} {lastTip : Option BlockHash} :
    (pollOnce (some tip) lastTip).2 = none ↔ lastTip = none ∨ lastTip = some tip := by
  cases lastTip with
  | none => simp [pollOnce]
  | some prev =>
    by_cases heq : tip = prev
    · simp [pollOnce, heq]
    · simp [pollOnce, heq, Ne.symm heq]

theorem SampledStep.read {l : SampledLabel} (h : SampledStep cr w s l s')
    {tip seen : Option BlockHash} (hl : l = .polled tip seen) :
    (pollOnce tip s.lastTip).2 = seen := by
  cases h with
  | moved tip => cases hl
  | declared env d pmts htip hrun => cases hl
  | polled hpoll hdrain =>
    obtain ⟨rfl, rfl⟩ := SampledLabel.polled.inj hl
    rw [hpoll]

/-- Right after a poll that read `tip`: the poll saw a change unless it was
    the first to read a tip or read the last one again; if it saw one, no job
    is left; and every cached job is on the branch of `tip` exactly when what
    was captured since the last change it saw is. -/
theorem polled_branch_iff {tip : BlockHash} {seen : Option BlockHash}
    (h : Trace (SampledStep cr w) (.new tip₀) (log ++ [.polled (some tip) seen]) s)
    (hdr : BlockHash → Option ShareHeaderLookup) :
    (seen = none ↔ (log.filterMap tipRead).getLast? = none ∨
      (log.filterMap tipRead).getLast? = some tip) ∧
    (seen ≠ none → ∀ r, s.engine.declaredJobs.lookup r = none) ∧
    ((∀ r job share, s.engine.declaredJobs.lookup r = some job →
        job.shareChainTip = some share → ∃ k, ancestor hdr k tip = some share) ↔
      ∀ r share, (capturedSince (log ++ [.polled (some tip) seen])).lookup r =
        some (some share) → ∃ k, ancestor hdr k tip = some share) := by
  have hinv := sampledInv h
  refine ⟨?_, fun hseen r => ?_, ?_⟩
  · obtain ⟨t, hlog, hstep⟩ := (Trace.snoc_iff _ _ _ _).mp h
    rw [← (sampledInv hlog).lastTip, ← hstep.read rfl]
    exact pollOnce_silent
  · have hnone := hinv.cached r
    obtain ⟨newTip, rfl⟩ := Option.ne_none_iff_exists'.mp hseen
    rw [capturedSince_snoc] at hnone
    exact Option.map_eq_none_iff.mp hnone
  · constructor
    · intro hbranch r share hcaptured
      rw [← hinv.cached r] at hcaptured
      obtain ⟨job, hjob, hshare⟩ := Option.map_eq_some_iff.mp hcaptured
      exact hbranch r job share hjob hshare
    · intro hbranch r job share hjob hshare
      apply hbranch r share
      rw [← hinv.cached r, hjob, Option.map_some, hshare]

end

namespace Sample

/-- The share chain's tip is `tip`. -/
def onShare (tip : BlockHash) : Env := { online with chainTip := some (some tip) }

/-- Every share is a successor of `[3; 32]`. -/
def siblings (h : BlockHash) : Option ShareHeaderLookup :=
  some (.found (if h = U256.fill 3 then none else some (U256.fill 3)))

theorem ancestor_siblings (k : Nat) {h share : BlockHash}
    (hk : ancestor siblings k h = some share) : share = h ∨ share = U256.fill 3 := by
  rcases k with _ | _ | k
  · exact Or.inl (Option.some.inj hk).symm
  · right
    simp only [ancestor, prevShare, siblings] at hk
    split_ifs at hk
    · cases hk
    · exact (Option.some.inj hk).symm
  · simp only [ancestor, prevShare, siblings] at hk
    split_ifs at hk <;> cases hk

/-- Request id 7 is declared on a share. -/
def declaredOn (tip : BlockHash) : SampledLabel := .declared 7 (some tip) .success

theorem declaredOn_step {s : SampledState} {tip : BlockHash} (htip : s.tip = some tip) :
    ∃ engine, SampledStep crates wiring s (declaredOn tip) { s with engine := engine } := by
  obtain ⟨t, txs, hcheck⟩ : ∃ t txs, checkDeclaration crates (declaration 7 3 [9])
      (some ⟨[body.serialize]⟩) = .ok (t, txs) :=
    run_declare_success crates wiring online (s := Engine.new) (by decide +kernel)
  exact ⟨_, .declared (onShare tip) _ _ (by rw [htip]; rfl)
    (run_declare_ok crates wiring (onShare tip) hcheck s.engine)⟩

/-- The share chain grows by one before the first poll. -/
def grown : List SampledLabel := [declaredOn (U256.fill 3), .moved (some (U256.fill 1))]

/-- The tip moves to a sibling before the first poll. -/
def changedBeforeFirstPoll : List SampledLabel :=
  [declaredOn (U256.fill 1), .moved (some (U256.fill 2))]

/-- The tip moves to a sibling and back between two polls. -/
def changedBetweenPolls : List SampledLabel :=
  [.polled (some (U256.fill 1)) none, .moved (some (U256.fill 2)), declaredOn (U256.fill 2),
    .moved (some (U256.fill 1))]

theorem grown_run :
    ∃ s, Trace (SampledStep crates wiring) (.new (some (U256.fill 3)))
      (grown ++ [.polled (some (U256.fill 1)) none]) s := by
  obtain ⟨engine, hdeclared⟩ := declaredOn_step (s := .new (some (U256.fill 3))) rfl
  exact ⟨_, _, hdeclared, _, .moved _, _, .polled rfl (.done rfl), rfl⟩

theorem changedBeforeFirstPoll_run :
    ∃ s, Trace (SampledStep crates wiring) (.new (some (U256.fill 1)))
      (changedBeforeFirstPoll ++ [.polled (some (U256.fill 2)) none]) s := by
  obtain ⟨engine, hdeclared⟩ := declaredOn_step (s := .new (some (U256.fill 1))) rfl
  exact ⟨_, _, hdeclared, _, .moved _, _, .polled rfl (.done rfl), rfl⟩

theorem changedBetweenPolls_run :
    ∃ s, Trace (SampledStep crates wiring) (.new (some (U256.fill 1)))
      (changedBetweenPolls ++ [.polled (some (U256.fill 1)) none]) s := by
  obtain ⟨engine, hdeclared⟩ := declaredOn_step
    (s := ⟨Engine.new, some (U256.fill 2), some (U256.fill 1), .fresh⟩) rfl
  exact ⟨_, _, .polled rfl (.done rfl), _, .moved _, _, hdeclared, _, .moved _,
    _, .polled (pollOnce_again _) (.done rfl), rfl⟩

end Sample

/-- The job on the old tip stays: it is on the branch of the new one. -/
theorem polled_after_growth :
    ∃ s, Trace (SampledStep Sample.crates Sample.wiring) (.new (some (U256.fill 3)))
        (Sample.grown ++ [.polled (some (U256.fill 1)) none]) s ∧
      (s.engine.declaredJobs.lookup 7).isSome = true ∧
      ∀ r job share, s.engine.declaredJobs.lookup r = some job →
        job.shareChainTip = some share →
        ∃ k, ancestor Sample.siblings k (U256.fill 1) = some share := by
  obtain ⟨s, hrun⟩ := Sample.grown_run
  have hsince : ∀ r, (capturedSince (Sample.grown ++
      [.polled (some (U256.fill 1)) none])).lookup r =
        if r = 7 then some (some (U256.fill 3)) else none := by
    intro r
    apply DashMap.lookup_insert_eq
  refine ⟨s, hrun, ?_, (polled_branch_iff hrun Sample.siblings).2.2.mpr ?_⟩
  · have hcached := (sampledInv hrun).cached 7
    rw [hsince, if_pos rfl] at hcached
    obtain ⟨job, hjob, -⟩ := Option.map_eq_some_iff.mp hcached
    rw [hjob]
    rfl
  · intro r share hcaptured
    rw [hsince] at hcaptured
    split_ifs at hcaptured
    obtain rfl := Option.some.inj (Option.some.inj hcaptured)
    exact ⟨1, rfl⟩

/-- A poll leaves a job behind that was declared off the branch of the tip it
    read. -/
def StaleJobLeft (log : List SampledLabel) (tip : BlockHash) : Prop :=
  ∃ s r job share, Trace (SampledStep Sample.crates Sample.wiring) (.new (some (U256.fill 1)))
      (log ++ [.polled (some tip) none]) s ∧
    s.engine.declaredJobs.lookup r = some job ∧ job.shareChainTip = some share ∧
    ∀ k, ancestor Sample.siblings k tip ≠ some share

theorem stale_jobs_left : StaleJobLeft Sample.changedBeforeFirstPoll (U256.fill 2) ∧
    StaleJobLeft Sample.changedBetweenPolls (U256.fill 1) := by
  have hleft : ∀ {log s tip share}, Trace (SampledStep Sample.crates Sample.wiring)
      (.new (some (U256.fill 1))) (log ++ [.polled (some tip) none]) s →
      (capturedSince log).lookup 7 = some (some share) → share ≠ tip ∧ share ≠ U256.fill 3 →
      StaleJobLeft log tip := by
    intro log s tip share hrun hcaptured hne
    have hcached := (sampledInv hrun).cached 7
    rw [capturedSince_snoc] at hcached
    obtain ⟨job, hjob, hshare⟩ := Option.map_eq_some_iff.mp (hcached.trans hcaptured)
    refine ⟨s, 7, job, share, hrun, hjob, hshare, fun k hk => ?_⟩
    rcases Sample.ancestor_siblings k hk with heq | heq
    · exact hne.1 heq
    · exact hne.2 heq
  obtain ⟨s, hfirst⟩ := Sample.changedBeforeFirstPoll_run
  obtain ⟨s', hbetween⟩ := Sample.changedBetweenPolls_run
  exact ⟨hleft hfirst rfl (by decide), hleft hbetween rfl (by decide)⟩

end Sv2P2pool
