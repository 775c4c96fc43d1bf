import Sv2P2pool.Framework.Trace
import Mathlib.Data.List.ReduceOption
import Mathlib.Logic.Function.Basic

/-! # Linearizability

    Threads call the operations of a shared object and return their results;
    in between, each operation takes steps of its own. The object is
    *linearizable* when every history of calls and returns could have come
    from an object whose operations take effect at once, at some moment
    between their call and their return.

    The atomic object is a transition system itself, so linearizability is an
    inclusion of histories, and the proof rule is a simulation: a step of the
    object is matched by any number of effects of the atomic one. An
    operation may thus take effect in a step of another thread. A thread may
    give up an operation, and the object's value may change from outside; both
    are part of the history. An object may also have failures, which are
    returned whether the operation took effect or not.
-/

namespace Linearize

/-! ## Histories -/

/-- A system whose steps are visible or not. -/
abbrev System (σ E : Type) := σ → Option E → σ → Prop

section simulation

variable {σ τ E : Type} {step : System σ E} {step' : System τ E} {R : σ → τ → Prop}

/-- The simulation rule: if related states stay related when a step of the one
    system is matched by steps of the other with the same visible part, so do
    the ends of whole runs. -/
theorem simulate
    (hstep : ∀ s l s' t, R s t → step s l s' →
      ∃ labels t', Trace step' t labels t' ∧ labels.reduceOption = l.toList ∧ R s' t')
    {labels : List (Option E)} : ∀ {s s' : σ} {t : τ}, Trace step s labels s' → R s t →
      ∃ labels' t', Trace step' t labels' t' ∧ labels'.reduceOption = labels.reduceOption ∧
        R s' t' := by
  induction labels with
  | nil =>
    intro s s' t heq hR
    subst heq
    exact ⟨[], t, rfl, rfl, hR⟩
  | cons l labels ih =>
    intro s s' t h hR
    obtain ⟨u, hl, h⟩ := h
    obtain ⟨labels₁, t₁, htrace₁, hvisible₁, hR₁⟩ := hstep s l u t hR hl
    obtain ⟨labels₂, t₂, htrace₂, hvisible₂, hR₂⟩ := ih h hR₁
    refine ⟨labels₁ ++ labels₂, t₂, (Trace.append_iff _ _ _ _).mpr ⟨t₁, htrace₁, htrace₂⟩, ?_, hR₂⟩
    rw [List.reduceOption_append, hvisible₁, hvisible₂]
    cases l <;> rfl

end simulation

/-! ## The atomic object -/

variable {ι Op Res V σ : Type}

structure Object (Op Res V : Type) where
  /-- What an operation answers on a value, and the value it leaves. -/
  effect : V → Op → Res × V
  failure : Res → Prop

inductive Event (ι Op Res V : Type) where
  | call (i : ι) (op : Op)
  | ret (i : ι) (r : Res)
  | cancel (i : ι)
  | moved (v : V)

/-- Where a thread is with its operation. -/
inductive Status (Op Res : Type) where
  | idle
  | pending (op : Op)
  | done (r : Res)

/-- The value, and where each thread is. -/
structure Atomic (ι Op Res V : Type) where
  value : V
  status : ι → Status Op Res

def Atomic.init (v : V) : Atomic ι Op Res V := ⟨v, fun _ => .idle⟩

/-- A called operation takes effect at once, at any time before it returns. -/
inductive AtomicStep [DecidableEq ι] (obj : Object Op Res V) :
    System (Atomic ι Op Res V) (Event ι Op Res V)
  | call {a : Atomic ι Op Res V} (i : ι) (op : Op) (h : a.status i = .idle) :
      AtomicStep obj a (some (.call i op)) ⟨a.value, Function.update a.status i (.pending op)⟩
  | effect {a : Atomic ι Op Res V} (i : ι) (op : Op) (h : a.status i = .pending op) :
      AtomicStep obj a none ⟨(obj.effect a.value op).2,
        Function.update a.status i (.done (obj.effect a.value op).1)⟩
  | fail {a : Atomic ι Op Res V} (i : ι) (r : Res) (h : a.status i ≠ .idle) (hr : obj.failure r) :
      AtomicStep obj a none ⟨a.value, Function.update a.status i (.done r)⟩
  | ret {a : Atomic ι Op Res V} (i : ι) (r : Res) (h : a.status i = .done r) :
      AtomicStep obj a (some (.ret i r)) ⟨a.value, Function.update a.status i .idle⟩
  | cancel {a : Atomic ι Op Res V} (i : ι) (h : a.status i ≠ .idle) :
      AtomicStep obj a (some (.cancel i)) ⟨a.value, Function.update a.status i .idle⟩
  | moved {a : Atomic ι Op Res V} (v : V) : AtomicStep obj a (some (.moved v)) ⟨v, a.status⟩

/-- Every history of the system is a history of the atomic object. -/
def Linearizable [DecidableEq ι] (step : System σ (Event ι Op Res V)) (s : σ)
    (obj : Object Op Res V) (v : V) : Prop :=
  ∀ labels s', Trace step s labels s' → ∃ labels' a',
    Trace (AtomicStep obj) (Atomic.init v) labels' a' ∧
      labels'.reduceOption = labels.reduceOption

/-- One step as a run. -/
theorem trace_one {L : Type} {step : σ → L → σ → Prop} {s s' : σ} {l : L} (h : step s l s') :
    Trace step s [l] s' :=
  ⟨s', h, rfl⟩

end Linearize
