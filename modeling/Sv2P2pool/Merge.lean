import Sv2P2pool.Framework.Channel
import Sv2P2pool.Framework.Trace

/-! # The Merge Towards the Template Provider

    `spawn_cm_and_engine_to_tp_merge` forwards the messages of the channel
    manager and of the engine onto one channel. The task holds one message
    while it sends it; once an input reports its close, the task either drains
    the other input or, when that one is closed as well, ends. An input can be
    closed and still hold messages, and these are then lost.
-/

namespace Sv2P2pool

/-- The two inputs of the merge. -/
inductive MergeInput where
  | cm
  | engine
  deriving DecidableEq

instance : Fintype MergeInput where
  elems := {.cm, .engine}
  complete := fun i => by cases i <;> decide

def MergeInput.other : MergeInput → MergeInput
  | .cm => .engine
  | .engine => .cm

/-- Where the task stands. -/
inductive MergePc (α : Type) where
  /-- In `select!`. -/
  | select
  /-- In `tp_output.send` of the main loop. -/
  | forward (m : α)
  /-- `recv` of this input returned `Err`; `is_closed` of the other is next. -/
  | inputClosed (i : MergeInput)
  /-- In `recv` of the drain loop over this input. -/
  | drain (i : MergeInput)
  /-- In `tp_output.send` of the drain loop. -/
  | drainForward (i : MergeInput) (m : α)
  | exited

structure MergeTask (α : Type) where
  inputs : MergeInput → Channel α
  /-- The messages delivered to `tp_output`. -/
  tpOutput : List α
  tpOpen : Bool
  pc : MergePc α

/-- What happens next: a client of a channel acts, `select!` serves one of its
    branches, or the task goes on from where it stands. -/
inductive MergeAct (α : Type) where
  | send (i : MergeInput) (m : α)
  | close (i : MergeInput)
  | closeOutput
  | serve (i : MergeInput)
  | resume

section

variable {α : Type}

/-- The spawned task, before any message. -/
def spawnCmAndEngineToTpMerge : MergeTask α where
  inputs := fun _ => .fresh
  tpOutput := []
  tpOpen := true
  pc := .select

def MergePc.isExited : MergePc α → Bool
  | .exited => true
  | _ => false

namespace MergeTask

variable (s : MergeTask α)

/-- `recv` of an input; `next` says where its outcome leads. -/
def receive (i : MergeInput) (next : Option α → MergePc α) : Option (MergeTask α) :=
  (s.inputs i).recv.map fun r =>
    { s with inputs := Function.update s.inputs i r.2, pc := next r.1 }

/-- `tp_output.send`; a closed output ends the task. -/
def deliver (m : α) (next : MergePc α) : MergeTask α :=
  if s.tpOpen then { s with tpOutput := s.tpOutput ++ [m], pc := next }
  else { s with pc := .exited }

/-- The task goes on outside `select!`. -/
def resume : Option (MergeTask α) :=
  match s.pc with
  | .forward m => some (s.deliver m .select)
  -- if both are closed, exit; otherwise drain whatever is left
  | .inputClosed i =>
    some { s with pc := if (s.inputs i.other).closed then .exited else .drain i.other }
  | .drain i => s.receive i fun r => r.elim .exited (.drainForward i)
  | .drainForward i m => some (s.deliver m (.drain i))
  | .select | .exited => none

def step : MergeAct α → Option (MergeTask α)
  | .send i m =>
    -- the inputs are dropped with the task
    if s.pc.isExited then none
    else ((s.inputs i).send m).map fun c => { s with inputs := Function.update s.inputs i c }
  | .close i => some { s with inputs := Function.update s.inputs i (s.inputs i).close }
  | .closeOutput => some { s with tpOpen := false }
  | .serve i =>
    match s.pc with
    | .select => s.receive i fun r => r.elim (.inputClosed i) .forward
    | _ => none
  | .resume => s.resume

end MergeTask

/-! ## What a step does -/

/-- The message the task has received and not yet sent. -/
def MergePc.held : MergePc α → List α
  | .forward m | .drainForward _ m => [m]
  | _ => []

/-- The input whose close the task has seen. -/
def MergePc.seen : MergePc α → Option MergeInput
  | .inputClosed i => some i
  | .drain i | .drainForward i _ => some i.other
  | _ => none

/-- A task that holds a message has not ended. -/
theorem isExited_of_held {pc : MergePc α} {m : α} (h : pc.held = [m]) : pc.isExited = false := by
  cases pc with
  | exited => cases h
  | _ => rfl

/-- The messages sent on an input, in order. -/
def sentOn (log : List (MergeAct α)) (i : MergeInput) : List α :=
  log.filterMap fun
    | .send j m => if j = i then some m else none
    | _ => none

/-- The effect of a step on the messages under way. -/
inductive MergeStep (s : MergeTask α) : MergeAct α → MergeTask α → Prop where
  | sent (i : MergeInput) (m : α) (hrun : s.pc.isExited = false)
      (hopen : (s.inputs i).closed = false) :
      MergeStep s (.send i m)
        { s with inputs := Function.update s.inputs i ⟨(s.inputs i).queue ++ [m], false⟩ }
  | closed (i : MergeInput) :
      MergeStep s (.close i) { s with inputs := Function.update s.inputs i (s.inputs i).close }
  | outputClosed : MergeStep s .closeOutput { s with tpOpen := false }
  /-- A message moves from an input into the hands of the task. -/
  | received (a : MergeAct α) (ha : sentOn [a] = fun _ => []) (i : MergeInput) (m : α)
      (c : Channel α) (pc : MergePc α) (hqueue : (s.inputs i).queue = m :: c.queue)
      (hclosed : c.closed = (s.inputs i).closed) (hrun : s.pc.isExited = false)
      (hheld : s.pc.held = []) (hpc : pc.held = [m]) (hseen : pc.seen = s.pc.seen) :
      MergeStep s a { s with inputs := Function.update s.inputs i c, pc := pc }
  /-- The message in the hands of the task is delivered. -/
  | delivered (m : α) (pc : MergePc α) (hopen : s.tpOpen = true) (hheld : s.pc.held = [m])
      (hpc : pc.held = []) (hrun : pc.isExited = false) (hseen : pc.seen = s.pc.seen) :
      MergeStep s .resume { s with tpOutput := s.tpOutput ++ [m], pc := pc }
  /-- The output is closed. -/
  | abandoned (hopen : s.tpOpen = false) : MergeStep s .resume { s with pc := .exited }
  | sawClosed (i : MergeInput) (hpc : s.pc = .select) (hqueue : (s.inputs i).queue = [])
      (hclosed : (s.inputs i).closed = true) :
      MergeStep s (.serve i) { s with pc := .inputClosed i }
  /-- Both inputs are closed, whatever the other one still holds. -/
  | bothClosed (i : MergeInput) (hpc : s.pc = .inputClosed i)
      (hclosed : (s.inputs i.other).closed = true) : MergeStep s .resume { s with pc := .exited }
  | draining (i : MergeInput) (hpc : s.pc = .inputClosed i)
      (hopen : (s.inputs i.other).closed = false) :
      MergeStep s .resume { s with pc := .drain i.other }
  | drained (i : MergeInput) (hpc : s.pc = .drain i) (hqueue : (s.inputs i).queue = [])
      (hclosed : (s.inputs i).closed = true) : MergeStep s .resume { s with pc := .exited }

variable {s s' : MergeTask α} {a : MergeAct α}

/-- The two outcomes of a receive. -/
theorem receive_cases {i : MergeInput} {next : Option α → MergePc α}
    (h : s.receive i next = some s') :
    (∃ m c, (s.inputs i).queue = m :: c.queue ∧ c.closed = (s.inputs i).closed ∧
      s' = { s with inputs := Function.update s.inputs i c, pc := next (some m) }) ∨
    ((s.inputs i).queue = [] ∧ (s.inputs i).closed = true ∧ s' = { s with pc := next none }) := by
  obtain ⟨⟨r, c⟩, hrecv, rfl⟩ := Option.map_eq_some_iff.mp h
  cases r with
  | some m =>
    obtain ⟨hqueue, hclosed⟩ := Channel.recv_message.mp hrecv
    exact Or.inl ⟨m, c, hqueue, hclosed, rfl⟩
  | none =>
    obtain ⟨hqueue, hclosed, rfl⟩ := Channel.recv_closed.mp hrecv
    exact Or.inr ⟨hqueue, hclosed, by simp⟩

theorem deliver_cases {m : α} {pc : MergePc α} (hheld : s.pc.held = [m]) (hpc : pc.held = [])
    (hrun : pc.isExited = false) (hseen : pc.seen = s.pc.seen) :
    MergeStep s .resume (s.deliver m pc) := by
  unfold MergeTask.deliver
  split_ifs with hopen
  · exact .delivered m pc hopen hheld hpc hrun hseen
  · exact .abandoned (by simpa using hopen)

theorem step_cases (h : s.step a = some s') : MergeStep s a s' := by
  cases a with
  | send i m =>
    simp only [MergeTask.step] at h
    split_ifs at h with hrun
    -- a send into a closed channel is no step
    obtain ⟨c, hsend, rfl⟩ := Option.map_eq_some_iff.mp h
    obtain ⟨hopen, rfl⟩ := Channel.send_eq_some.mp hsend
    rw [hopen]
    exact .sent i m (by simpa using hrun) hopen
  | close i =>
    obtain rfl := Option.some.inj h
    exact .closed i
  | closeOutput =>
    obtain rfl := Option.some.inj h
    exact .outputClosed
  | serve i =>
    simp only [MergeTask.step] at h
    cases hpc : s.pc with
    | select =>
      rw [hpc] at h
      rcases receive_cases h with hrecv | hrecv
      · obtain ⟨m, c, hqueue, hclosed, rfl⟩ := hrecv
        exact .received _ rfl i m c _ hqueue hclosed (by rw [hpc]; rfl) (by rw [hpc]; rfl) rfl
          (by rw [hpc]; rfl)
      · obtain ⟨hqueue, hclosed, rfl⟩ := hrecv
        exact .sawClosed i hpc hqueue hclosed
    | _ => simp [hpc] at h
  | resume =>
    simp only [MergeTask.step, MergeTask.resume] at h
    cases hpc : s.pc with
    | select => simp [hpc] at h
    | exited => simp [hpc] at h
    | forward m =>
      simp only [hpc] at h
      obtain rfl := Option.some.inj h
      exact deliver_cases (by rw [hpc]; rfl) rfl rfl (by rw [hpc]; rfl)
    | drainForward i m =>
      simp only [hpc] at h
      obtain rfl := Option.some.inj h
      exact deliver_cases (by rw [hpc]; rfl) rfl rfl (by rw [hpc]; rfl)
    | inputClosed i =>
      simp only [hpc] at h
      obtain rfl := Option.some.inj h
      split_ifs with hclosed
      · exact .bothClosed i hpc hclosed
      · exact .draining i hpc (by simpa using hclosed)
    | drain i =>
      simp only [hpc] at h
      rcases receive_cases h with hrecv | hrecv
      · obtain ⟨m, c, hqueue, hclosed, rfl⟩ := hrecv
        exact .received _ rfl i m c _ hqueue hclosed (by rw [hpc]; rfl) (by rw [hpc]; rfl) rfl
          (by rw [hpc]; rfl)
      · obtain ⟨hqueue, hclosed, rfl⟩ := hrecv
        exact .drained i hpc hqueue hclosed

/-! ## Every message is somewhere -/

/-- Every message sent is delivered, in the hands of the task or queued, in
    the order of its input. -/
def Accounted (log : List (MergeAct α)) (s : MergeTask α) : Prop :=
  ∃ taken : MergeInput → List α, (∀ i, sentOn log i = taken i ++ (s.inputs i).queue) ∧
    Merges (s.tpOutput ++ s.pc.held) taken

variable {log : List (MergeAct α)}

theorem sentOn_append (log log' : List (MergeAct α)) (i : MergeInput) :
    sentOn (log ++ log') i = sentOn log i ++ sentOn log' i := List.filterMap_append

/-- A step that touches no message. -/
theorem Accounted.same (h : Accounted log s) (ha : sentOn [a] = fun _ => [])
    (hqueue : ∀ i, (s'.inputs i).queue = (s.inputs i).queue)
    (hout : s'.tpOutput ++ s'.pc.held = s.tpOutput ++ s.pc.held) :
    Accounted (log ++ [a]) s' := by
  obtain ⟨taken, hsent, hmerge⟩ := h
  refine ⟨taken, fun i => ?_, hout ▸ hmerge⟩
  rw [sentOn_append, ha, hqueue, List.append_nil, hsent]

/-- Closing an input leaves its queue. -/
theorem close_queue (inputs : MergeInput → Channel α) (i j : MergeInput) :
    (Function.update inputs i (inputs i).close j).queue = (inputs j).queue := by
  by_cases hj : j = i
  · subst hj
    simp [Channel.close]
  · simp [hj]

theorem close_closed (inputs : MergeInput → Channel α) (i : MergeInput) {j : MergeInput}
    (h : (inputs j).closed = true) :
    (Function.update inputs i (inputs i).close j).closed = true := by
  by_cases hj : j = i
  · subst hj
    simp [Channel.close]
  · simp [hj, h]

theorem MergeStep.accounted (h : MergeStep s a s') (hopen : s'.tpOpen = true)
    (hs : Accounted log s) : Accounted (log ++ [a]) s' := by
  cases h with
  | sent i m _ _ =>
    obtain ⟨taken, hsent, hmerge⟩ := hs
    refine ⟨taken, fun j => ?_, hmerge⟩
    rw [sentOn_append, hsent]
    by_cases hj : j = i
    · subst hj
      simp [sentOn]
    · have hij : i ≠ j := fun h => hj h.symm
      simp [sentOn, hj, hij]
  | closed i => exact hs.same rfl (close_queue s.inputs i) rfl
  | outputClosed => cases hopen
  | received _ ha i m c pc hqueue _ _ hheld hpc _ =>
    obtain ⟨taken, hsent, hmerge⟩ := hs
    rw [hheld, List.append_nil] at hmerge
    refine ⟨Function.update taken i (taken i ++ [m]), fun j => ?_, by
      rw [hpc]
      exact hmerge.snoc i m⟩
    rw [sentOn_append, ha, List.append_nil, hsent]
    by_cases hj : j = i
    · subst hj
      simp [hqueue]
    · simp [hj]
  | delivered m pc _ hheld hpc _ _ => exact hs.same rfl (fun _ => rfl) (by simp [hheld, hpc])
  | abandoned hclosed => exact absurd hopen (by simp [hclosed])
  | sawClosed i hpc _ _ => exact hs.same rfl (fun _ => rfl) (by rw [hpc]; rfl)
  | bothClosed i hpc _ => exact hs.same rfl (fun _ => rfl) (by rw [hpc]; rfl)
  | draining i hpc _ => exact hs.same rfl (fun _ => rfl) (by rw [hpc]; rfl)
  | drained i hpc _ _ => exact hs.same rfl (fun _ => rfl) (by rw [hpc]; rfl)

/-! ## The task ends with both inputs closed -/

/-- An input whose close was seen stays closed and empty, and the task ends
    on an open output only when both inputs are closed. -/
structure ClosedInv (s : MergeTask α) : Prop where
  seen : ∀ i, s.pc.seen = some i → (s.inputs i).queue = [] ∧ (s.inputs i).closed = true
  exit : s.pc.isExited = true → s.tpOpen = true → ∀ i, (s.inputs i).closed = true

/-- Two inputs: what holds of one and of the other holds of both. -/
theorem MergeInput.forall_of_other {P : MergeInput → Prop} {i : MergeInput} (h : P i)
    (hother : P i.other) (j : MergeInput) : P j := by
  cases i <;> cases j <;> assumption

@[simp] theorem MergeInput.other_other (i : MergeInput) : i.other.other = i := by
  cases i <;> rfl

theorem MergeStep.closedInv (h : MergeStep s a s') (hs : ClosedInv s) : ClosedInv s' := by
  cases h with
  | sent i m hrun hopen =>
    refine ⟨fun j hj => ?_, fun hexit => ?_⟩
    · have hne : j ≠ i := by
        intro hji
        subst hji
        simp [(hs.seen j hj).2] at hopen
      simpa [hne] using hs.seen j hj
    · rw [show s.pc.isExited = true from hexit] at hrun
      cases hrun
  | closed i =>
    refine ⟨fun j hj => ?_, fun hexit hopen j => close_closed s.inputs i (hs.exit hexit hopen j)⟩
    obtain ⟨hqueue, hclosed⟩ := hs.seen j hj
    exact ⟨(close_queue s.inputs i j).trans hqueue, close_closed s.inputs i hclosed⟩
  | outputClosed => exact ⟨hs.seen, fun _ hopen => by cases hopen⟩
  | received _ _ i m c pc hqueue _ _ _ hpc hseen =>
    refine ⟨fun j hj => ?_, fun hexit => ?_⟩
    · have hold := hs.seen j (hseen.symm.trans hj)
      have hne : j ≠ i := by
        intro hji
        subst hji
        simp [hold.1] at hqueue
      simpa [hne] using hold
    · rw [isExited_of_held hpc] at hexit
      cases hexit
  | delivered m pc _ _ _ hrun hseen =>
    refine ⟨fun j hj => hs.seen j (hseen ▸ hj), fun hexit => ?_⟩
    rw [show pc.isExited = true from hexit] at hrun
    cases hrun
  | abandoned hclosed =>
    refine ⟨fun j hj => (by cases hj), fun _ hopen => ?_⟩
    exact absurd hopen (by simp [hclosed])
  | sawClosed i hpc hqueue hclosed =>
    refine ⟨fun j hj => ?_, fun hexit => by cases hexit⟩
    obtain rfl := Option.some.inj hj
    exact ⟨hqueue, hclosed⟩
  | bothClosed i hpc hclosed =>
    -- one input was seen closed, the other is closed now
    refine ⟨fun j hj => (by cases hj), fun _ _ => ?_⟩
    exact MergeInput.forall_of_other (hs.seen i (by rw [hpc]; rfl)).2 hclosed
  | draining i hpc _ =>
    refine ⟨fun j hj => hs.seen j ?_, fun hexit => by cases hexit⟩
    rw [hpc, ← hj]
    simp [MergePc.seen]
  | drained i hpc hqueue hclosed =>
    refine ⟨fun j hj => (by cases hj), fun _ _ => ?_⟩
    exact MergeInput.forall_of_other hclosed (hs.seen i.other (by rw [hpc]; rfl)).2

/-! ## Nothing is lost -/

/-- The task looks at the other input of a closed one when that is open or
    has nothing queued. -/
def LooksInTime (s : MergeTask α) (a : MergeAct α) : Prop :=
  match a, s.pc with
  | .resume, .inputClosed i => (s.inputs i.other).closed = true → (s.inputs i.other).queue = []
  | _, _ => True

theorem looksInTime_inputClosed {i : MergeInput} (hpc : s.pc = .inputClosed i) :
    LooksInTime s .resume ↔
      ((s.inputs i.other).closed = true → (s.inputs i.other).queue = []) := by
  simp [LooksInTime, hpc]

/-- The task ends on an open output with nothing queued. -/
def EndsEmpty (s : MergeTask α) : Prop :=
  s.pc.isExited = true → s.tpOpen = true → ∀ i, (s.inputs i).queue = []

/-- After the end no queue changes. -/
theorem MergeStep.after_exit (h : MergeStep s a s') (hs : s.pc.isExited = true) :
    s'.pc.isExited = true ∧ ∀ i, (s'.inputs i).queue = (s.inputs i).queue := by
  have hnot : ∀ pc : MergePc α, s.pc = pc → pc.isExited = true := fun pc hpc => hpc ▸ hs
  cases h with
  | sent i m hrun _ => simp [hs] at hrun
  | closed i => exact ⟨hs, close_queue s.inputs i⟩
  | outputClosed => exact ⟨hs, fun _ => rfl⟩
  | received _ _ i m c pc _ _ hrun _ _ _ => simp [hs] at hrun
  | delivered m pc _ hheld _ _ _ => simp [isExited_of_held hheld] at hs
  | abandoned _ => exact ⟨rfl, fun _ => rfl⟩
  | sawClosed i hpc _ _ => cases hnot _ hpc
  | bothClosed i hpc _ => exact ⟨rfl, fun _ => rfl⟩
  | draining i hpc _ => cases hnot _ hpc
  | drained i hpc _ _ => exact ⟨rfl, fun _ => rfl⟩

theorem MergeStep.endsEmpty (h : MergeStep s a s') (hinv : ClosedInv s) (hs : EndsEmpty s)
    (htime : LooksInTime s a) : EndsEmpty s' := by
  intro hexit hopen
  cases h with
  | sent i m hrun _ => simp [show s.pc.isExited = true from hexit] at hrun
  | closed i =>
    intro j
    rw [close_queue]
    exact hs hexit hopen j
  | outputClosed => cases hopen
  | received _ _ i m c pc _ _ _ _ hpc _ => simp [isExited_of_held hpc] at hexit
  | delivered m pc _ _ _ hrun _ => simp [hrun] at hexit
  | abandoned hclosed => simp [hclosed] at hopen
  | sawClosed i _ _ _ => cases hexit
  | bothClosed i hpc hclosed =>
    have hother := (looksInTime_inputClosed hpc).mp htime hclosed
    exact MergeInput.forall_of_other (hinv.seen i (by rw [hpc]; rfl)).1 hother
  | draining i _ _ => cases hexit
  | drained i hpc hqueue _ =>
    exact MergeInput.forall_of_other hqueue (hinv.seen i.other (by rw [hpc]; rfl)).1

theorem MergeStep.tpOpen_of (h : MergeStep s a s') (hopen : s'.tpOpen = true) :
    s.tpOpen = true := by
  cases h with
  | outputClosed => cases hopen
  | _ => exact hopen

/-- What a run of the merge keeps. -/
structure MergeInv (log : List (MergeAct α)) (s : MergeTask α) : Prop where
  accounted : s.tpOpen = true → Accounted log s
  closed : ClosedInv s

theorem merge_inv (h : Trace (fun s a s' => s.step a = some s') spawnCmAndEngineToTpMerge log s) :
    MergeInv log s := by
  refine Trace.history (P := MergeInv) ⟨fun _ => ?_, ?_, ?_⟩ ?_ log h
  · exact ⟨fun _ => [], fun _ => rfl, merges_nil⟩
  · intro i hseen
    cases hseen
  · intro hexit
    cases hexit
  · intro log s a s' hs hstep
    have hstep := step_cases hstep
    exact ⟨fun hopen => hstep.accounted hopen (hs.accounted (hstep.tpOpen_of hopen)),
      hstep.closedInv hs.closed⟩

/-- A run that ends with empty queues looked in time. -/
theorem looksInTime_of_empty (hempty : ∀ i, (s'.inputs i).queue = []) :
    ∀ {s : MergeTask α}, Trace (fun s a s' => s.step a = some s') s log s' →
      Trace (fun s a s' => s.step a = some s' ∧ LooksInTime s a) s log s' := by
  induction log with
  | nil => exact fun h => h
  | cons a log ih =>
    intro s h
    obtain ⟨t, hstep, htrace⟩ := h
    refine ⟨t, ⟨hstep, ?_⟩, ih htrace⟩
    cases a with
    | resume =>
      cases hpc : s.pc with
      | inputClosed i =>
        refine (looksInTime_inputClosed hpc).mpr fun hclosed => ?_
        -- the task ends here, and what is queued stays queued
        obtain rfl : { s with pc := .exited } = t := by
          simpa [MergeTask.step, MergeTask.resume, hpc, hclosed] using hstep
        have hkept : (s'.inputs i.other).queue = (s.inputs i.other).queue := by
          refine (Trace.invariant (P := fun u => u.pc.isExited = true ∧
            (u.inputs i.other).queue = (s.inputs i.other).queue) ?_ htrace ⟨rfl, rfl⟩).2
          intro u b v hu hb
          obtain ⟨hexit, hqueue⟩ := (step_cases hb).after_exit hu.1
          exact ⟨hexit, (hqueue i.other).trans hu.2⟩
        rw [← hkept]
        exact hempty i.other
      | _ => simp [LooksInTime, hpc]
    | _ => trivial

/-- When the task has ended on an open output, both inputs are closed, and
    `tp_output` got all messages of both, in the order of their inputs, exactly
    when the task never looked at a closed input with messages queued. -/
theorem merge_lossless_iff (h : Trace (fun s a s' => s.step a = some s')
      (spawnCmAndEngineToTpMerge : MergeTask α) log s) (hexit : s.pc.isExited = true)
    (hopen : s.tpOpen = true) :
    (∀ i, (s.inputs i).closed = true) ∧
    (Merges s.tpOutput (sentOn log) ↔
      Trace (fun s a s' => s.step a = some s' ∧ LooksInTime s a)
        spawnCmAndEngineToTpMerge log s) := by
  have hinv := merge_inv h
  obtain ⟨taken, hsent, hmerge⟩ := hinv.accounted hopen
  have hheld : s.pc.held = [] := by
    cases hpc : s.pc with
    | exited => rfl
    | _ => simp [hpc, MergePc.isExited] at hexit
  rw [hheld, List.append_nil] at hmerge
  refine ⟨hinv.closed.exit hexit hopen, fun hall => ?_, fun htime => ?_⟩
  · rw [show sentOn log = fun i => taken i ++ (s.inputs i).queue from funext hsent] at hall
    exact looksInTime_of_empty (hmerge.rest_eq_nil hall) h
  · have hstart : MergeInv [] (spawnCmAndEngineToTpMerge : MergeTask α) := merge_inv rfl
    have hempty : ClosedInv s ∧ EndsEmpty s := by
      refine Trace.invariant (P := fun s => ClosedInv s ∧ EndsEmpty s) ?_ htime
        ⟨hstart.closed, fun hexit => ?_⟩
      · intro s a s' hs hstep
        have hmove := step_cases hstep.1
        exact ⟨hmove.closedInv hs.1, hmove.endsEmpty hs.1 hs.2 hstep.2⟩
      · cases hexit
    have hall : sentOn log = taken := by
      funext i
      rw [hsent, hempty.2 hexit hopen, List.append_nil]
    rw [hall]
    exact hmerge

end

/-- The channel manager's input is closed while the engine's is still open:
    the task drains the engine's input. Requests stand for their template
    ids. -/
theorem merge_lossless_draining :
    let log : List (MergeAct UInt64) := [.send .cm 1, .send .engine 2, .close .cm, .serve .cm,
      .resume, .serve .cm, .resume, .resume, .resume, .close .engine, .resume]
    ∃ s : MergeTask UInt64, s.pc.isExited = true ∧ s.tpOutput = [1, 2] ∧
      Merges s.tpOutput (sentOn log) := by
  intro log
  have hrun : ∃ s, Trace (fun s a s' => s.step a = some s' ∧ LooksInTime s a)
      spawnCmAndEngineToTpMerge log s ∧ s.pc.isExited = true ∧ s.tpOpen = true ∧
      s.tpOutput = [1, 2] :=
    ⟨_, ⟨_, ⟨rfl, trivial⟩, _, ⟨rfl, trivial⟩, _, ⟨rfl, trivial⟩, _, ⟨rfl, trivial⟩,
      _, ⟨rfl, trivial⟩, _, ⟨rfl, trivial⟩, _, ⟨rfl, fun h => by cases h⟩, _, ⟨rfl, trivial⟩,
      _, ⟨rfl, trivial⟩, _, ⟨rfl, trivial⟩, _, ⟨rfl, trivial⟩, rfl⟩, rfl, rfl, rfl⟩
  obtain ⟨s, htime, hexit, hopen, hout⟩ := hrun
  have hspec := merge_lossless_iff (htime.imp fun _ _ _ h => h.1) hexit hopen
  exact ⟨s, hexit, hout, hspec.2.mpr htime⟩

/-- Both inputs are closed with one request of the engine queued: the task
    ends and the request is lost. -/
theorem merge_loses_queued :
    let log : List (MergeAct UInt64) := [.send .engine 2, .close .engine, .close .cm, .serve .cm,
      .resume]
    ∃ s : MergeTask UInt64,
      Trace (fun s a s' => s.step a = some s') spawnCmAndEngineToTpMerge log s ∧
      s.pc.isExited = true ∧ s.tpOpen = true ∧ (s.inputs .engine).queue = [2] ∧
      ¬ Merges s.tpOutput (sentOn log) := by
  intro log
  refine ⟨_, ⟨_, rfl, _, rfl, _, rfl, _, rfl, _, rfl, rfl⟩, rfl, rfl, rfl, fun hall => ?_⟩
  obtain ⟨l, hout, htag⟩ := hall
  obtain rfl : l = [] := List.map_eq_nil_iff.mp hout
  have hlost : ([] : List UInt64) = [2] := htag .engine
  cases hlost

end Sv2P2pool
