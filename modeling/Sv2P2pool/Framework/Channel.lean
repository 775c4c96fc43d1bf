import Mathlib.Algebra.BigOperators.Group.Finset.Piecewise
import Mathlib.Algebra.Order.BigOperators.Group.Finset

/-! # Channels and Interleavings

    The receiving side of an asynchronous channel: a queue and whether all
    senders are gone. Closing a channel keeps what is queued, and a receive
    reports the close only when nothing is queued any more. `Merges` is the
    order-preserving interleaving of any number of sequences.
-/

structure Channel (α : Type) where
  queue : List α
  closed : Bool

namespace Channel

variable {α : Type}

/-- A fresh channel. -/
def fresh : Channel α := ⟨[], false⟩

/-- A closed channel takes no more messages. -/
def send (c : Channel α) (m : α) : Option (Channel α) :=
  if c.closed then none else some { c with queue := c.queue ++ [m] }

/-- The last sender is dropped. -/
def close (c : Channel α) : Channel α := { c with closed := true }

/-- Receive: a message, or `none` for a closed and empty channel; an empty
    channel that is still open makes the receiver wait. -/
def recv (c : Channel α) : Option (Option α × Channel α) :=
  match c.queue with
  | m :: rest => some (some m, { c with queue := rest })
  | [] => if c.closed then some (none, c) else none

theorem send_eq_some {c c' : Channel α} {m : α} :
    c.send m = some c' ↔ c.closed = false ∧ c' = ⟨c.queue ++ [m], c.closed⟩ := by
  unfold send
  cases hc : c.closed with
  | true => simp
  | false => simp [eq_comm]

theorem recv_message {c c' : Channel α} {m : α} :
    c.recv = some (some m, c') ↔ c.queue = m :: c'.queue ∧ c'.closed = c.closed := by
  obtain ⟨queue, closed⟩ := c
  obtain ⟨queue', closed'⟩ := c'
  cases queue with
  | nil => cases closed <;> simp [recv]
  | cons x rest => simp [recv, eq_comm, and_assoc]

theorem recv_closed {c c' : Channel α} :
    c.recv = some (none, c') ↔ c.queue = [] ∧ c.closed = true ∧ c' = c := by
  obtain ⟨queue, closed⟩ := c
  cases queue with
  | nil => cases closed <;> simp [recv, eq_comm]
  | cons x rest => simp [recv]

end Channel

/-! ## Interleavings -/

section merges

variable {ι α : Type} [DecidableEq ι]

/-- The elements tagged with `i`, in order. -/
def ofTag (i : ι) (l : List (ι × α)) : List α :=
  l.filterMap fun e => if e.1 = i then some e.2 else none

/-- `out` contains every sequence `seqs i` completely and in its order, and
    nothing else. -/
def Merges (out : List α) (seqs : ι → List α) : Prop :=
  ∃ l : List (ι × α), l.map Prod.snd = out ∧ ∀ i, ofTag i l = seqs i

theorem merges_nil : Merges ([] : List α) fun _ : ι => [] := ⟨[], rfl, fun _ => rfl⟩

theorem Merges.snoc {out : List α} {seqs : ι → List α} (h : Merges out seqs) (i : ι) (m : α) :
    Merges (out ++ [m]) (Function.update seqs i (seqs i ++ [m])) := by
  obtain ⟨l, rfl, hl⟩ := h
  refine ⟨l ++ [(i, m)], by simp, fun j => ?_⟩
  by_cases hj : j = i
  · subst hj
    simp [ofTag, ← hl]
  · have hij : ¬ i = j := fun h => hj h.symm
    simp [ofTag, ← hl, hj, hij]

theorem length_eq_sum_ofTag [Fintype ι] (l : List (ι × α)) :
    l.length = ∑ i, (ofTag i l).length := by
  induction l with
  | nil => simp [ofTag]
  | cons e l ih =>
    have hcons : ∀ i, (ofTag i (e :: l)).length =
        (ofTag i l).length + if e.1 = i then 1 else 0 := by
      intro i
      by_cases hi : e.1 = i
      · simp [ofTag, hi]
      · simp [ofTag, hi]
    simp [hcons, Finset.sum_add_distrib, ih]

/-- A list that interleaves some sequences interleaves no longer ones. -/
theorem Merges.rest_eq_nil [Fintype ι] {out : List α} {seqs rest : ι → List α}
    (h : Merges out seqs) (h' : Merges out fun i => seqs i ++ rest i) (i : ι) : rest i = [] := by
  obtain ⟨l, rfl, hl⟩ := h
  obtain ⟨l', hout, hl'⟩ := h'
  have hlen : l'.length = l.length := by simpa using congrArg List.length hout
  rw [length_eq_sum_ofTag, length_eq_sum_ofTag] at hlen
  simp only [hl, hl', List.length_append, Finset.sum_add_distrib] at hlen
  have hsum : ∑ j, (rest j).length = 0 := by omega
  exact List.eq_nil_of_length_eq_zero (Finset.sum_eq_zero_iff.mp hsum i (Finset.mem_univ i))

end merges
