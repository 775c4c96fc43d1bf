import Sv2P2pool.Engine

/-! # Recent Solutions (`recent_solutions.rs`)

    A `PushSolution` records the block hash of its share; the matching share
    submission takes it out again, once. Entries expire: `take` removes an
    entry before it looks at its age, and `sweep` drops old entries on its own
    clock reading. Against this stands a ledger without expiry: the latest
    record of every share that has not been taken. A credit is paid exactly
    when the ledger holds a record that is not too old.
-/

namespace Sv2P2pool

open Bitcoin Interleave

/-! ## The buffer -/

structure RecentSolutions where
  /-- Share hash to recording time and block hash. -/
  inner : DashMap BlockHash (Nat × BlockHash)
  ttl : Nat

namespace RecentSolutions

def new (ttl : Nat) : RecentSolutions := ⟨∅, ttl⟩

/-- `Instant::elapsed`, which saturates at zero. -/
def elapsed (now recordedAt : Nat) : Nat := now - recordedAt

def record (rs : RecentSolutions) (now : Nat) (shareHash blockHash : BlockHash) :
    RecentSolutions :=
  { rs with inner := rs.inner.insert shareHash (now, blockHash) }

def take (rs : RecentSolutions) (now : Nat) (shareHash : BlockHash) :
    Option BlockHash × RecentSolutions :=
  match rs.inner.lookup shareHash with
  | none => (none, rs)
  | some (recordedAt, blockHash) =>
    -- the entry is gone whether or not it has expired
    (if elapsed now recordedAt > rs.ttl then none else some blockHash,
      { rs with inner := rs.inner.erase shareHash })

def sweep (rs : RecentSolutions) (now : Nat) : RecentSolutions :=
  { rs with inner := DashMap.retain (fun _ entry => elapsed now entry.1 ≤ rs.ttl) rs.inner }

end RecentSolutions

/-- The engine records a solution the same way. -/
theorem recordSolution_eq_record (env : Env) (s : Engine) (ttl : Nat)
    (shareHash blockHash : BlockHash) :
    (env.step s (.recordSolution shareHash blockHash)).2.recentSolutions =
      (RecentSolutions.record ⟨s.recentSolutions, ttl⟩ env.now shareHash blockHash).inner := rfl

/-! ## Sequences of operations -/

inductive SolutionOp where
  | record (shareHash blockHash : BlockHash)
  | take (shareHash : BlockHash)
  | sweep
  deriving DecidableEq

/-- An operation and the clock reading it is made at. -/
structure Stamped where
  now : Nat
  op : SolutionOp
  deriving DecidableEq

/-- The clock does not go back. -/
def ClockOrdered (ops : List Stamped) : Prop := ops.Pairwise fun a b => a.now ≤ b.now

namespace RecentSolutions

/-- One operation; only a take has an answer. -/
def perform (rs : RecentSolutions) (op : Stamped) : Option BlockHash × RecentSolutions :=
  match op.op with
  | .record shareHash blockHash => (none, rs.record op.now shareHash blockHash)
  | .take shareHash => rs.take op.now shareHash
  | .sweep => (none, rs.sweep op.now)

def after (rs : RecentSolutions) (ops : List Stamped) : RecentSolutions :=
  ops.foldl (fun rs op => (rs.perform op).2) rs

/-- The answers of the takes, in order. -/
def takeAnswers (rs : RecentSolutions) : List Stamped → List (Option BlockHash)
  | [] => []
  | op :: ops =>
    match op.op with
    | .take _ => (rs.perform op).1 :: takeAnswers (rs.perform op).2 ops
    | _ => takeAnswers (rs.perform op).2 ops

end RecentSolutions

/-! ## The ledger -/

/-- The latest record of each share that has not been taken, however old. -/
abbrev Ledger := BlockHash → Option (Nat × BlockHash)

namespace Ledger

def empty : Ledger := fun _ => none

def step (ledger : Ledger) (op : Stamped) : Ledger :=
  match op.op with
  | .record shareHash blockHash => Function.update ledger shareHash (some (op.now, blockHash))
  | .take shareHash => Function.update ledger shareHash none
  | .sweep => ledger

/-- The block of a record that is not too old. -/
def credit (ttl now : Nat) : Option (Nat × BlockHash) → Option BlockHash
  | some (recordedAt, blockHash) => if now - recordedAt ≤ ttl then some blockHash else none
  | none => none

def after (ledger : Ledger) (ops : List Stamped) : Ledger := ops.foldl step ledger

/-- The answers of the takes, in order, with no expiry but at the take. -/
def takeAnswers (ttl : Nat) (ledger : Ledger) : List Stamped → List (Option BlockHash)
  | [] => []
  | op :: ops =>
    match op.op with
    | .take shareHash =>
      credit ttl op.now (ledger shareHash) :: takeAnswers ttl (ledger.step op) ops
    | _ => takeAnswers ttl (ledger.step op) ops

end Ledger

/-! ## Refinement -/

/-- The buffer holds the ledger's records, except for some that have expired. -/
structure Refines (ttl now : Nat) (rs : RecentSolutions) (ledger : Ledger) : Prop where
  ttl_eq : rs.ttl = ttl
  entries : ∀ share, rs.inner.lookup share = ledger share ∨
    rs.inner.lookup share = none ∧ ∃ recordedAt blockHash,
      ledger share = some (recordedAt, blockHash) ∧ ttl < now - recordedAt

section refinement

variable {ttl now : Nat} {rs : RecentSolutions} {ledger : Ledger}

theorem refines_new (ttl : Nat) : Refines ttl 0 (RecentSolutions.new ttl) Ledger.empty :=
  ⟨rfl, fun share => Or.inl (by simp [RecentSolutions.new, Ledger.empty])⟩

/-- What has expired stays expired. -/
theorem Refines.mono (h : Refines ttl now rs ledger) {now' : Nat} (hle : now ≤ now') :
    Refines ttl now' rs ledger where
  ttl_eq := h.ttl_eq
  entries share := by
    refine (h.entries share).imp id fun hgone => ?_
    obtain ⟨hnone, recordedAt, blockHash, hsome, hold⟩ := hgone
    exact ⟨hnone, recordedAt, blockHash, hsome, by omega⟩

theorem Refines.record (h : Refines ttl now rs ledger) (share block : BlockHash) :
    Refines ttl now (rs.record now share block)
      (Function.update ledger share (some (now, block))) where
  ttl_eq := h.ttl_eq
  entries share' := by
    simp only [RecentSolutions.record, DashMap.lookup_insert_eq, Function.update_apply]
    split_ifs
    · exact Or.inl rfl
    · exact h.entries share'

/-- A take of an expired record answers nothing, whether or not the record is
    still there. -/
theorem Refines.take (h : Refines ttl now rs ledger) (share : BlockHash) :
    (rs.take now share).1 = Ledger.credit ttl now (ledger share) ∧
      Refines ttl now (rs.take now share).2 (Function.update ledger share none) := by
  cases hentry : rs.inner.lookup share with
  | none =>
    have htake : rs.take now share = (none, rs) := by simp [RecentSolutions.take, hentry]
    rw [htake]
    constructor
    · rcases h.entries share with heq | ⟨-, recordedAt, blockHash, hsome, hold⟩
      · rw [← heq, hentry]
        rfl
      · rw [hsome, Ledger.credit, if_neg (by omega)]
    · refine ⟨h.ttl_eq, fun share' => ?_⟩
      rw [Function.update_apply]
      split_ifs with hs
      · rw [hs]
        exact Or.inl hentry
      · exact h.entries share'
  | some entry =>
    obtain ⟨recordedAt, blockHash⟩ := entry
    have htake : rs.take now share = (if now - recordedAt > rs.ttl then none else some blockHash,
        { rs with inner := rs.inner.erase share }) := by
      simp [RecentSolutions.take, hentry, RecentSolutions.elapsed]
    rw [htake]
    have hledger : ledger share = some (recordedAt, blockHash) := by
      rcases h.entries share with heq | ⟨hnone, -⟩
      · rw [← heq, hentry]
      · rw [hentry] at hnone
        cases hnone
    constructor
    · -- the two boundary tests are complementary
      rw [hledger, Ledger.credit, h.ttl_eq]
      by_cases hage : now - recordedAt ≤ ttl
      · rw [if_pos hage, if_neg (by omega)]
      · rw [if_neg hage, if_pos (by omega)]
    · refine ⟨h.ttl_eq, fun share' => ?_⟩
      simp only [DashMap.lookup_erase_eq, Function.update_apply]
      split_ifs
      · exact Or.inl rfl
      · exact h.entries share'

/-- A sweep drops expired records only. -/
theorem Refines.sweep (h : Refines ttl now rs ledger) : Refines ttl now (rs.sweep now) ledger where
  ttl_eq := h.ttl_eq
  entries share := by
    have hswept : ∀ entry, (rs.sweep now).inner.lookup share = some entry ↔
        rs.inner.lookup share = some entry ∧ now - entry.1 ≤ ttl := by
      intro entry
      simp only [RecentSolutions.sweep, DashMap.lookup_retain_eq_some, RecentSolutions.elapsed,
        h.ttl_eq, decide_eq_true_eq]
    cases hentry : rs.inner.lookup share with
    | none =>
      have hnone : (rs.sweep now).inner.lookup share = none := by
        rw [Option.eq_none_iff_forall_ne_some]
        intro entry hsome
        rw [hswept, hentry] at hsome
        cases hsome.1
      have hold := h.entries share
      rw [hentry] at hold
      rw [hnone]
      exact hold
    | some entry =>
      -- what is still in the map is what the ledger has
      have hledger : ledger share = some entry := by
        rcases h.entries share with heq | ⟨hnone, -⟩
        · rw [← heq, hentry]
        · rw [hentry] at hnone
          cases hnone
      by_cases hage : now - entry.1 ≤ ttl
      · left
        rw [hledger, (hswept entry).mpr ⟨hentry, hage⟩]
      · refine Or.inr ⟨?_, entry.1, entry.2, hledger, by omega⟩
        rw [Option.eq_none_iff_forall_ne_some]
        intro entry' hsome
        rw [hswept, hentry] at hsome
        obtain ⟨heq, hage'⟩ := hsome
        cases heq
        exact hage hage'

/-- One step of the simulation: the answers agree and the relation is kept. -/
theorem Refines.step (h : Refines ttl now rs ledger) (op : Stamped) (hle : now ≤ op.now) :
    (∀ share, op.op = .take share →
      (rs.perform op).1 = Ledger.credit ttl op.now (ledger share)) ∧
    Refines ttl op.now (rs.perform op).2 (ledger.step op) := by
  have hnow := h.mono hle
  obtain ⟨now', op⟩ := op
  cases op with
  | record share block => exact ⟨by simp, hnow.record share block⟩
  | sweep => exact ⟨by simp, hnow.sweep⟩
  | take share =>
    refine ⟨fun share' heq => ?_, (hnow.take share).2⟩
    cases heq
    exact (hnow.take share).1

/-- The whole sequence: the answers of the takes and the final state. -/
theorem Refines.run (ops : List Stamped) : ∀ {now : Nat} {rs : RecentSolutions}
    {ledger : Ledger}, Refines ttl now rs ledger → (∀ op ∈ ops, now ≤ op.now) →
    ClockOrdered ops →
    rs.takeAnswers ops = ledger.takeAnswers ttl ops ∧
      ∃ now', Refines ttl now' (rs.after ops) (ledger.after ops) ∧
        ∀ t, (∀ op ∈ ops, op.now ≤ t) → now ≤ t → now' ≤ t := by
  induction ops with
  | nil =>
    intro now rs ledger h _ _
    exact ⟨rfl, now, h, fun t _ hle => hle⟩
  | cons op ops ih =>
    intro now rs ledger h hge hord
    obtain ⟨hanswer, hstep⟩ := h.step op (hge op List.mem_cons_self)
    obtain ⟨hlater, hord⟩ := List.pairwise_cons.mp hord
    obtain ⟨hanswers, now', hrefines, hbound⟩ := ih hstep hlater hord
    refine ⟨?_, now', hrefines, fun t ht hle => ?_⟩
    · cases hop : op.op with
      | take share =>
        simp only [RecentSolutions.takeAnswers, Ledger.takeAnswers, hop, hanswers,
          hanswer share hop]
      | record share block =>
        simpa only [RecentSolutions.takeAnswers, Ledger.takeAnswers, hop] using hanswers
      | sweep => simpa only [RecentSolutions.takeAnswers, Ledger.takeAnswers, hop] using hanswers
    · exact hbound t (fun op' hop' => ht op' (List.mem_cons_of_mem _ hop'))
        (ht op List.mem_cons_self)

end refinement

/-! ## What the ledger holds -/

/-- The operation records or takes the share. -/
def SolutionOp.concerns (share : BlockHash) : SolutionOp → Bool
  | .record share' _ => share' = share
  | .take share' => share' = share
  | .sweep => false

theorem ledger_step_of_not_concerns {ledger : Ledger} {op : Stamped} {share : BlockHash}
    (h : op.op.concerns share = false) : ledger.step op share = ledger share := by
  obtain ⟨now, op⟩ := op
  cases op with
  | record share' block =>
    have hne : share ≠ share' := by
      intro heq
      simp [SolutionOp.concerns, heq] at h
    simp [Ledger.step, hne]
  | take share' =>
    have hne : share ≠ share' := by
      intro heq
      simp [SolutionOp.concerns, heq] at h
    simp [Ledger.step, hne]
  | sweep => rfl

theorem ledger_step_record {ledger : Ledger} {now : Nat} {share block : BlockHash} :
    ledger.step ⟨now, .record share block⟩ share = some (now, block) := by
  simp [Ledger.step]

theorem ledger_step_take {ledger : Ledger} {now : Nat} {share : BlockHash} :
    ledger.step ⟨now, .take share⟩ share = none := by
  simp [Ledger.step]

/-- The entry at position `i` records the share, and nothing after it concerns
    the share. -/
def LatestRecord (ops : List Stamped) (share : BlockHash) (recordedAt : Nat) (block : BlockHash)
    (i : Nat) : Prop :=
  ops[i]? = some ⟨recordedAt, .record share block⟩ ∧
    ∀ m op, i < m → ops[m]? = some op → op.op.concerns share = false

theorem latestRecord_snoc {ops : List Stamped} {op : Stamped} {share block : BlockHash}
    {recordedAt i : Nat} :
    LatestRecord (ops ++ [op]) share recordedAt block i ↔
      op = ⟨recordedAt, .record share block⟩ ∧ i = ops.length ∨
      op.op.concerns share = false ∧ LatestRecord ops share recordedAt block i := by
  have hlast : (ops ++ [op])[ops.length]? = some op := by simp
  have hold : ∀ m, m < ops.length → (ops ++ [op])[m]? = ops[m]? := fun m hm =>
    List.getElem?_append_left hm
  constructor
  · intro h
    obtain ⟨hi, hafter⟩ := h
    have hlen : i < ops.length + 1 := by
      simpa using (List.getElem?_eq_some_iff.mp hi).1
    by_cases hi' : i < ops.length
    · rw [hold i hi'] at hi
      refine Or.inr ⟨hafter ops.length op hi' hlast, hi, fun m op' hm hop' => ?_⟩
      have hm' : m < ops.length := (List.getElem?_eq_some_iff.mp hop').1
      exact hafter m op' hm ((hold m hm').trans hop')
    · obtain rfl : i = ops.length := by omega
      rw [hlast] at hi
      exact Or.inl ⟨Option.some.inj hi, rfl⟩
  · intro h
    rcases h with ⟨rfl, rfl⟩ | ⟨hop, hi, hafter⟩
    · refine ⟨hlast, fun m op' hm hop' => ?_⟩
      have hm' := (List.getElem?_eq_some_iff.mp hop').1
      simp at hm'
      omega
    · have hi' : i < ops.length := (List.getElem?_eq_some_iff.mp hi).1
      refine ⟨(hold i hi').trans hi, fun m op' hm hop' => ?_⟩
      by_cases hm' : m < ops.length
      · exact hafter m op' hm ((hold m hm').symm.trans hop')
      · have hlen := (List.getElem?_eq_some_iff.mp hop').1
        simp at hlen
        obtain rfl : m = ops.length := by omega
        rw [hlast] at hop'
        cases hop'
        exact hop

/-- The ledger's entry is the latest record of the share, if nothing has taken
    it since. -/
theorem ledger_after_eq_some (ops : List Stamped) (share : BlockHash) (recordedAt : Nat)
    (block : BlockHash) :
    Ledger.empty.after ops share = some (recordedAt, block) ↔
      ∃ i, LatestRecord ops share recordedAt block i := by
  induction ops using List.reverseRecOn with
  | nil => simp [Ledger.after, Ledger.empty, LatestRecord]
  | append_singleton ops op ih =>
    have hafter : Ledger.empty.after (ops ++ [op]) = (Ledger.empty.after ops).step op := by
      simp [Ledger.after]
    rw [hafter]
    simp only [latestRecord_snoc]
    by_cases hop : op.op.concerns share = false
    · rw [ledger_step_of_not_concerns hop, ih]
      have hne : op ≠ ⟨recordedAt, .record share block⟩ := by
        intro heq
        subst heq
        simp [SolutionOp.concerns] at hop
      simp [hop, hne]
    · -- the last operation records or takes the share and decides alone
      obtain ⟨now, op⟩ := op
      cases op with
      | record share' block' =>
        obtain rfl : share' = share := by simpa [SolutionOp.concerns] using hop
        rw [ledger_step_record]
        simp [SolutionOp.concerns]
      | take share' =>
        obtain rfl : share' = share := by simpa [SolutionOp.concerns] using hop
        rw [ledger_step_take]
        simp [SolutionOp.concerns]
      | sweep => exact absurd rfl hop

/-! ## Credits -/

/-- The record at position `i` is credited by the take at position `j`: both are
    for one share, nothing between them concerns the share, and the record is
    not too old. -/
def Pays (ttl : Nat) (ops : List Stamped) (i j : Nat) (block : BlockHash) : Prop :=
  ∃ share recordedAt now, i < j ∧ ops[i]? = some ⟨recordedAt, .record share block⟩ ∧
    ops[j]? = some ⟨now, .take share⟩ ∧
    (∀ m op, i < m → m < j → ops[m]? = some op → op.op.concerns share = false) ∧
    now - recordedAt ≤ ttl

/-- The answer of the operation at position `j`. -/
def RecentSolutions.answerAt (rs : RecentSolutions) (ops : List Stamped) (j : Nat) :
    Option BlockHash :=
  match ops[j]? with
  | some op => ((rs.after (ops.take j)).perform op).1
  | none => none

theorem Ledger.credit_eq_some {ttl now : Nat} {entry : Option (Nat × BlockHash)}
    {block : BlockHash} :
    Ledger.credit ttl now entry = some block ↔
      ∃ recordedAt, entry = some (recordedAt, block) ∧ now - recordedAt ≤ ttl := by
  cases entry with
  | none => simp [Ledger.credit]
  | some entry =>
    obtain ⟨recordedAt, block'⟩ := entry
    simp only [Ledger.credit, Option.some.injEq, Prod.mk.injEq]
    split_ifs with hage
    · constructor
      · intro heq
        exact ⟨recordedAt, ⟨rfl, Option.some.inj heq⟩, hage⟩
      · intro h
        obtain ⟨_, ⟨-, rfl⟩, -⟩ := h
        rfl
    · simp
      omega

theorem latestRecord_take {ops : List Stamped} {share block : BlockHash} {recordedAt i j : Nat} :
    LatestRecord (ops.take j) share recordedAt block i ↔
      i < j ∧ ops[i]? = some ⟨recordedAt, .record share block⟩ ∧
        ∀ m op, i < m → m < j → ops[m]? = some op → op.op.concerns share = false := by
  simp only [LatestRecord, List.getElem?_take]
  constructor
  · intro h
    obtain ⟨hi, hafter⟩ := h
    split_ifs at hi with hij
    exact ⟨hij, hi, fun m op hm hmj hop => hafter m op hm (by rw [if_pos hmj, hop])⟩
  · intro h
    obtain ⟨hij, hi, hafter⟩ := h
    refine ⟨by rw [if_pos hij, hi], fun m op hm hop => ?_⟩
    split_ifs at hop with hmj
    exact hafter m op hm hmj hop

/-- A take answers from the ledger of the operations before it. -/
theorem answerAt_take {ttl : Nat} {ops : List Stamped} (hord : ClockOrdered ops) {j now : Nat}
    {share : BlockHash} (hj : ops[j]? = some ⟨now, .take share⟩) :
    (RecentSolutions.new ttl).answerAt ops j =
      Ledger.credit ttl now (Ledger.empty.after (ops.take j) share) := by
  have hlen : j < ops.length := (List.getElem?_eq_some_iff.mp hj).1
  have hsplit : ops = ops.take j ++ ⟨now, .take share⟩ :: ops.drop (j + 1) := by
    rw [← (List.getElem?_eq_some_iff.mp hj).2, List.cons_getElem_drop_succ, List.take_append_drop]
  have hord' := hord
  rw [ClockOrdered, hsplit, List.pairwise_append] at hord'
  obtain ⟨hbefore, -, hle⟩ := hord'
  obtain ⟨-, now', hrefines, hbound⟩ := (refines_new ttl).run (ops.take j)
    (fun op _ => Nat.zero_le op.now) hbefore
  have hnow : now' ≤ now :=
    hbound now (fun op hop => hle op hop ⟨now, .take share⟩ List.mem_cons_self) (Nat.zero_le now)
  rw [RecentSolutions.answerAt, hj]
  exact (hrefines.step ⟨now, .take share⟩ hnow).1 share rfl

theorem answerAt_eq_some {ttl : Nat} {ops : List Stamped} (hord : ClockOrdered ops) {j : Nat}
    {block : BlockHash} :
    (RecentSolutions.new ttl).answerAt ops j = some block ↔ ∃ i, Pays ttl ops i j block := by
  cases hj : ops[j]? with
  | none => simp [RecentSolutions.answerAt, Pays, hj]
  | some op =>
    obtain ⟨now, op⟩ := op
    cases op with
    | record share' block' =>
      simp [RecentSolutions.answerAt, Pays, hj, RecentSolutions.perform]
    | sweep => simp [RecentSolutions.answerAt, Pays, hj, RecentSolutions.perform]
    | take share =>
      rw [answerAt_take hord hj, Ledger.credit_eq_some]
      simp only [ledger_after_eq_some, latestRecord_take]
      constructor
      · intro h
        obtain ⟨recordedAt, ⟨i, hij, hi, hafter⟩, hage⟩ := h
        exact ⟨i, share, recordedAt, now, hij, hi, hj, hafter, hage⟩
      · intro h
        obtain ⟨i, share', recordedAt, now', hij, hi, hj', hafter, hage⟩ := h
        rw [hj] at hj'
        cases hj'
        exact ⟨recordedAt, ⟨i, hij, hi, hafter⟩, hage⟩

/-- A record pays one take only: the first one takes it away. -/
theorem Pays.unique {ttl : Nat} {ops : List Stamped} {i j j' : Nat} {block block' : BlockHash}
    (h : Pays ttl ops i j block) (h' : Pays ttl ops i j' block') : j = j' := by
  obtain ⟨share, recordedAt, now, hij, hi, hj, hafter, -⟩ := h
  obtain ⟨share', recordedAt', now', hij', hi', hj', hafter', -⟩ := h'
  rw [hi] at hi'
  cases hi'
  rcases Nat.lt_trichotomy j j' with hlt | heq | hgt
  · have hnot := hafter' j _ hij hlt hj
    simp [SolutionOp.concerns] at hnot
  · exact heq
  · have hnot := hafter j' _ hij' hgt hj'
    simp [SolutionOp.concerns] at hnot

/-- Every operation but a sweep. -/
def Stamped.notSweep (op : Stamped) : Bool := op.op ≠ .sweep

/-- The ledger does not notice sweeps. -/
theorem ledger_takeAnswers_filter (ttl : Nat) (ops : List Stamped) : ∀ ledger : Ledger,
    ledger.takeAnswers ttl (ops.filter Stamped.notSweep) = ledger.takeAnswers ttl ops := by
  induction ops with
  | nil => exact fun ledger => rfl
  | cons op ops ih =>
    intro ledger
    cases hop : op.op with
    | sweep =>
      have hstep : ledger.step op = ledger := by simp [Ledger.step, hop]
      simp [Stamped.notSweep, hop, Ledger.takeAnswers, hstep, ih]
    | take share => simp [Stamped.notSweep, hop, Ledger.takeAnswers, ih]
    | record share block => simp [Stamped.notSweep, hop, Ledger.takeAnswers, ih]

/-- For every sequence of operations with a clock that does not go back: a take
    answers with a block exactly when some record pays it; a record pays at most
    one take; recording a share again replaces its time and block and nothing
    else; and the answers do not depend on the sweeps. -/
theorem recent_solutions_refine_ledger (ttl : Nat) (ops : List Stamped)
    (hord : ClockOrdered ops) :
    (∀ j block, (RecentSolutions.new ttl).answerAt ops j = some block ↔
      ∃ i, Pays ttl ops i j block) ∧
    (∀ i j j' block block', Pays ttl ops i j block → Pays ttl ops i j' block' → j = j') ∧
    (∀ now share block share', (((RecentSolutions.new ttl).after ops).record now share
      block).inner.lookup share' = if share' = share then some (now, block)
        else ((RecentSolutions.new ttl).after ops).inner.lookup share') ∧
    ∀ ops', ClockOrdered ops' → ops'.filter Stamped.notSweep = ops.filter Stamped.notSweep →
      (RecentSolutions.new ttl).takeAnswers ops' = (RecentSolutions.new ttl).takeAnswers ops := by
  refine ⟨fun j block => answerAt_eq_some hord, fun i j j' block block' h h' => h.unique h',
    fun now share block share' => DashMap.lookup_insert_eq _ _ _ _, fun ops' hord' hfilter => ?_⟩
  have hanswers := ((refines_new ttl).run ops (fun op _ => Nat.zero_le op.now) hord).1
  have hanswers' := ((refines_new ttl).run ops' (fun op _ => Nat.zero_le op.now) hord').1
  calc (RecentSolutions.new ttl).takeAnswers ops'
      = Ledger.empty.takeAnswers ttl ops' := hanswers'
    _ = Ledger.empty.takeAnswers ttl (ops'.filter Stamped.notSweep) :=
        (ledger_takeAnswers_filter ttl ops' _).symm
    _ = Ledger.empty.takeAnswers ttl (ops.filter Stamped.notSweep) := by rw [hfilter]
    _ = Ledger.empty.takeAnswers ttl ops := ledger_takeAnswers_filter ttl ops _
    _ = (RecentSolutions.new ttl).takeAnswers ops := hanswers.symm

/-- A share recorded twice, swept and taken twice: the second record is paid
    once, at the very end of its time to live. -/
def Sample.solutionOps : List Stamped :=
  [⟨0, .record (U256.fill 1) (U256.fill 2)⟩, ⟨5, .record (U256.fill 1) (U256.fill 3)⟩,
   ⟨12, .sweep⟩, ⟨15, .take (U256.fill 1)⟩, ⟨15, .take (U256.fill 1)⟩]

theorem recent_solutions_sample :
    ClockOrdered Sample.solutionOps ∧
    (RecentSolutions.new 10).answerAt Sample.solutionOps 3 = some (U256.fill 3) ∧
    ∃ i, Pays 10 Sample.solutionOps i 3 (U256.fill 3) := by
  have hord : ClockOrdered Sample.solutionOps := by
    simp [ClockOrdered, Sample.solutionOps]
  have hanswer : (RecentSolutions.new 10).answerAt Sample.solutionOps 3 = some (U256.fill 3) := by
    decide +kernel
  exact ⟨hord, hanswer,
    ((recent_solutions_refine_ledger 10 Sample.solutionOps hord).1 3 (U256.fill 3)).mp hanswer⟩

end Sv2P2pool
