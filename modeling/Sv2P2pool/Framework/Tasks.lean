import Mathlib.Data.List.Basic

/-! # Spawned Tasks and Broadcasts

    Tasks of an asynchronous runtime, by task id. A task is the future it
    still has to run. Aborting a task drops its future, and with it the join
    handles the future owns; dropping a join handle detaches its task, which
    goes on running. A broadcast receiver holds at most a fixed number of
    values; when it falls behind it is told how many it missed.
-/

structure Runtime (φ : Type) where
  /-- The futures that are still running. -/
  tasks : List (Option φ)

namespace Runtime

variable {φ : Type}

def empty : Runtime φ := ⟨[]⟩

/-- The future of a running task. -/
def future? (rt : Runtime φ) (id : Nat) : Option φ := (rt.tasks[id]?).join

/-- Some running task satisfies `p`. -/
def running (rt : Runtime φ) (p : φ → Bool) : Bool := rt.tasks.any fun task => task.any p

/-- Start a task; returns its id. -/
def spawn (rt : Runtime φ) (f : φ) : Nat × Runtime φ := (rt.tasks.length, ⟨rt.tasks ++ [some f]⟩)

@[simp] theorem spawn_fst (rt : Runtime φ) (f : φ) : (rt.spawn f).1 = rt.tasks.length := rfl

@[simp] theorem length_spawn (rt : Runtime φ) (f : φ) :
    (rt.spawn f).2.tasks.length = rt.tasks.length + 1 := by simp [spawn]

/-- Run a task up to its next await. -/
def put (rt : Runtime φ) (id : Nat) (f : φ) : Runtime φ := ⟨rt.tasks.set id (some f)⟩

/-- The task is over. -/
def finish (rt : Runtime φ) (id : Nat) : Runtime φ := ⟨rt.tasks.set id none⟩

/-- Drop a join handle: the task is detached. -/
def dropHandle (rt : Runtime φ) (_id : Nat) : Runtime φ := rt

/-- Abort a task: its future is dropped with the handles it owns. -/
def abort (handles : φ → List Nat) (rt : Runtime φ) (id : Nat) : Runtime φ :=
  match rt.future? id with
  | none => rt
  | some f => (handles f).foldl dropHandle (rt.finish id)

variable {rt : Runtime φ} {id id' : Nat} {f : φ}

theorem lt_of_future? (h : rt.future? id = some f) : id < rt.tasks.length := by
  by_contra hlt
  have hnone : rt.tasks[id]? = none := List.getElem?_eq_none (by omega)
  simp [future?, hnone] at h

theorem future?_eq_none (h : rt.tasks.length ≤ id) : rt.future? id = none := by
  simp [future?, List.getElem?_eq_none h]

theorem running_iff {p : φ → Bool} :
    rt.running p = true ↔ ∃ id f, rt.future? id = some f ∧ p f = true := by
  simp only [running, List.any_eq_true, Option.any_eq_true]
  constructor
  · intro h
    obtain ⟨task, hmem, f, rfl, hp⟩ := h
    obtain ⟨id, hid⟩ := List.getElem?_of_mem hmem
    exact ⟨id, f, by simp [future?, hid], hp⟩
  · intro h
    obtain ⟨id, f, hid, hp⟩ := h
    refine ⟨some f, ?_, f, rfl, hp⟩
    exact List.mem_of_getElem? (Option.join_eq_some_iff.mp hid)

/-- A spawned task runs, and so does every task that ran before. -/
theorem future?_spawn (rt : Runtime φ) (f : φ) (id : Nat) :
    (rt.spawn f).2.future? id = if id = rt.tasks.length then some f else rt.future? id := by
  simp only [future?, spawn]
  split_ifs with hid
  · simp [hid]
  · by_cases hlt : id < rt.tasks.length
    · rw [List.getElem?_append_left hlt]
    · rw [List.getElem?_eq_none (by simp; omega), List.getElem?_eq_none (by omega)]

theorem future?_put (h : rt.future? id' = some f) (g : φ) (id : Nat) :
    (rt.put id' g).future? id = if id = id' then some g else rt.future? id := by
  simp only [future?, put]
  split_ifs with hid
  · simp [hid, lt_of_future? h]
  · rw [List.getElem?_set_ne (fun h => hid h.symm)]

theorem future?_finish (rt : Runtime φ) (id' id : Nat) :
    (rt.finish id').future? id = if id = id' then none else rt.future? id := by
  simp only [future?, finish]
  split_ifs with hid
  · subst hid
    by_cases hlt : id < rt.tasks.length
    · simp [hlt]
    · simp [hlt]
  · rw [List.getElem?_set_ne (fun h => hid h.symm)]

theorem foldl_dropHandle (rt : Runtime φ) (ids : List Nat) : ids.foldl dropHandle rt = rt := by
  induction ids with
  | nil => rfl
  | cons id ids ih => exact ih

/-- Aborting a task ends no other task. -/
theorem future?_abort (handles : φ → List Nat) (rt : Runtime φ) (id' id : Nat) :
    (rt.abort handles id').future? id = if id = id' then none else rt.future? id := by
  unfold abort
  cases hf : rt.future? id' with
  | none =>
    split_ifs with hid
    · rw [hid, hf]
    · rfl
  | some f =>
    dsimp only
    rw [foldl_dropHandle]
    exact future?_finish rt id' id

/-! ### What the running tasks hold -/

section collect

variable {β : Type} (g : φ → Option β)

/-- What `g` reads off the running tasks, by task id. -/
def collect (rt : Runtime φ) : List β := rt.tasks.filterMap fun task => task.bind g

@[simp] theorem collect_empty : (empty : Runtime φ).collect g = [] := rfl

@[simp] theorem collect_spawn (rt : Runtime φ) (f : φ) :
    (rt.spawn f).2.collect g = rt.collect g ++ (g f).toList := by
  cases h : g f <;> simp [collect, spawn, h]

/-- The task that moves may stand first. -/
theorem collect_set_perm {rt : Runtime φ} {id : Nat} {f : φ} (h : rt.future? id = some f)
    (task : Option φ) : ((g f).toList ++ collect g ⟨rt.tasks.set id task⟩).Perm
      ((task.bind g).toList ++ rt.collect g) := by
  have hlt := lt_of_future? h
  obtain ⟨before, after, hsplit, hlength, hset⟩ : ∃ before after,
      rt.tasks = before ++ rt.tasks[id] :: after ∧ before.length = id ∧
        rt.tasks.set id task = before ++ task :: after := List.exists_of_set hlt
  have hget : rt.tasks[id] = some f := by
    have hjoin : rt.tasks[id]? = some (some f) := Option.join_eq_some_iff.mp h
    exact (List.getElem?_eq_some_iff.mp hjoin).2
  have hcons : ∀ (task : Option φ) (tasks : List (Option φ)),
      (task :: tasks).filterMap (·.bind g) = (task.bind g).toList ++ tasks.filterMap (·.bind g) := by
    intro task tasks
    cases htask : task.bind g <;> simp [htask]
  unfold collect
  rw [hset, hsplit, hget, List.filterMap_append, List.filterMap_append, hcons, hcons]
  show ((g f).toList ++ (_ ++ ((task.bind g).toList ++ _))).Perm
    ((task.bind g).toList ++ (_ ++ ((g f).toList ++ _)))
  -- the lists before and after stay where they are
  have hswap : ∀ (A B C D : List β), (A ++ (B ++ (C ++ D))).Perm (C ++ (B ++ (A ++ D))) := by
    intro A B C D
    calc (A ++ (B ++ (C ++ D))) = (A ++ B) ++ C ++ D := by simp
      List.Perm _ (C ++ (A ++ B) ++ D) := List.perm_append_comm.append_right D
      List.Perm _ (C ++ (B ++ A) ++ D) :=
        (List.perm_append_comm.append_left C).append_right D
      _ = C ++ (B ++ (A ++ D)) := by simp
  exact hswap _ _ _ _

end collect

end Runtime

/-! ## Broadcasts -/

/-- One receiver of a broadcast channel: the values it has not received yet
    and how many were overwritten before it came to them. -/
structure BroadcastReceiver (α : Type) where
  pending : List α
  missed : Nat

namespace BroadcastReceiver

variable {α : Type}

def fresh : BroadcastReceiver α := ⟨[], 0⟩

/-- A value is broadcast; a full buffer overwrites its oldest value. -/
def push (capacity : Nat) (rx : BroadcastReceiver α) (a : α) : BroadcastReceiver α :=
  if rx.pending.length < capacity then { rx with pending := rx.pending ++ [a] }
  else { pending := rx.pending.tail ++ [a], missed := rx.missed + 1 }

/-- Receive: first the number of missed values, if any, then the oldest value
    that is left. `none` means that the receiver has to wait. -/
def recv (rx : BroadcastReceiver α) : Option (Except Nat α × BroadcastReceiver α) :=
  if rx.missed = 0 then
    match rx.pending with
    | [] => none
    | a :: rest => some (.ok a, { rx with pending := rest })
  else some (.error rx.missed, { rx with missed := 0 })

/-- A value that was sent is pending, or it is one of the missed ones. -/
theorem push_eq {capacity : Nat} (hcap : 0 < capacity) (rx : BroadcastReceiver α) (a : α) :
    ∃ overwritten, (rx.push capacity a).missed = rx.missed + overwritten.length ∧
      overwritten ++ (rx.push capacity a).pending = rx.pending ++ [a] := by
  unfold push
  split_ifs with hroom
  · exact ⟨[], rfl, rfl⟩
  · cases hpending : rx.pending with
    | nil => simp [hpending] at hroom; omega
    | cons b rest => exact ⟨[b], rfl, by simp⟩

/-- A receiver that was sent something does not have to wait. -/
theorem recv_push_ne_none (capacity : Nat) (rx : BroadcastReceiver α) (a : α) :
    (rx.push capacity a).recv ≠ none := by
  have hpending : (rx.push capacity a).pending ≠ [] := by
    unfold push
    split_ifs <;> simp
  unfold recv
  split_ifs
  · cases hnil : (rx.push capacity a).pending with
    | nil => exact absurd hnil hpending
    | cons b rest => simp
  · simp

/-- What a receive returns. -/
theorem recv_cases {rx rx' : BroadcastReceiver α} {r : Except Nat α}
    (h : rx.recv = some (r, rx')) :
    (∃ a, r = .ok a ∧ rx.missed = 0 ∧ rx'.missed = 0 ∧ rx.pending = a :: rx'.pending) ∨
    (r = .error rx.missed ∧ rx'.missed = 0 ∧ rx'.pending = rx.pending) := by
  unfold recv at h
  split_ifs at h with hmissed
  · cases hpending : rx.pending with
    | nil => simp [hpending] at h
    | cons a rest =>
      simp only [hpending, Option.some.injEq, Prod.mk.injEq] at h
      obtain ⟨rfl, rfl⟩ := h
      exact Or.inl ⟨a, rfl, hmissed, hmissed, rfl⟩
  · simp only [Option.some.injEq, Prod.mk.injEq] at h
    obtain ⟨rfl, rfl⟩ := h
    exact Or.inr ⟨rfl, rfl, rfl⟩

end BroadcastReceiver
