import Mathlib.Algebra.BigOperators.Group.Finset.Piecewise
import Mathlib.Logic.Function.Basic

/-!
# One thread moves

The program counters of a system are a function of the thread.  A step updates
one of them, so a property of every thread has to be looked at twice: at the
thread that moves, and at the others.

Where functions call one another, a thread has a list of frames instead.
`marked` finds the frames of one kind; `only` says that one thread has them all.
-/

namespace Threads

variable {Thread : Type u} {Pc : Type v} [DecidableEq Thread]

/-- The threads a predicate holds of are the named ones again after a step of
one thread. -/
theorem forall_iff_update {holds : Pc → Prop} {pcs : Thread → Pc}
    {before after : Thread → Prop} {thread : Thread} {pc : Pc}
    (named : ∀ other, holds (pcs other) ↔ before other)
    (self : holds pc ↔ after thread)
    (others : ∀ other, other ≠ thread → (after other ↔ before other)) :
    ∀ other, holds (Function.update pcs thread pc other) ↔ after other := by
  apply (Function.forall_update_iff pcs
    fun other pc => holds pc ↔ after other).mpr
  refine ⟨self, fun other different => ?_⟩
  rw [named other, others other different]

/-- A thread the predicate does not hold of moves to where it does not hold. -/
theorem forall_iff_update_outside {holds : Pc → Prop} {pcs : Thread → Pc}
    {named : Thread → Prop} {thread : Thread} {pc : Pc}
    (before : ∀ other, holds (pcs other) ↔ named other)
    (same : holds pc ↔ holds (pcs thread)) :
    ∀ other, holds (Function.update pcs thread pc other) ↔ named other :=
  forall_iff_update before (same.trans (before thread)) fun _ _ => Iff.rfl

/-- A property of every program counter survives if the new one has it. -/
theorem forall_update (holds : Thread → Pc → Prop) {pcs : Thread → Pc}
    {thread : Thread} {pc : Pc} (before : ∀ other, holds other (pcs other))
    (self : holds thread pc) :
    ∀ other, holds other (Function.update pcs thread pc other) := by
  apply (Function.forall_update_iff pcs holds).mpr
  exact ⟨self, fun other _ => before other⟩

section Count

variable [Fintype Thread]

/-- What the threads weigh together. -/
def total (weight : Pc → Nat) (pcs : Thread → Pc) : Nat :=
  ∑ thread, weight (pcs thread)

theorem total_update {weight : Pc → Nat} {pcs : Thread → Pc}
    {thread : Thread} {pc : Pc} :
    total weight (Function.update pcs thread pc) + weight (pcs thread) =
      total weight pcs + weight pc := by
  have moved : ∀ other, weight (Function.update pcs thread pc other) =
      Function.update (fun other => weight (pcs other)) thread (weight pc)
        other :=
    fun other => Function.apply_update (fun _ pc => weight pc) ..
  have rest := Finset.add_sum_erase Finset.univ
    (fun other => weight (pcs other)) (Finset.mem_univ thread)
  simp only [total, moved]
  rw [Finset.sum_update_of_mem (Finset.mem_univ thread),
    Finset.sdiff_singleton_eq_erase, ← rest]
  omega

omit [DecidableEq Thread] in
theorem total_eq_zero {weight : Pc → Nat} {pcs : Thread → Pc}
    (weightless : ∀ thread, weight (pcs thread) = 0) :
    total weight pcs = 0 :=
  Finset.sum_eq_zero fun thread _ => weightless thread

/-- How many threads stand where `stands` holds. -/
def count (stands : Pc → Bool) (pcs : Thread → Pc) : Nat :=
  ∑ thread, (stands (pcs thread)).toNat

theorem count_update {stands : Pc → Bool} {pcs : Thread → Pc}
    {thread : Thread} {pc : Pc} :
    count stands (Function.update pcs thread pc) +
        (stands (pcs thread)).toNat =
      count stands pcs + (stands pc).toNat :=
  @total_update _ _ _ _ (fun pc => (stands pc).toNat) ..

omit [DecidableEq Thread] in
theorem count_eq_zero {stands : Pc → Bool} {pcs : Thread → Pc}
    (nowhere : ∀ thread, stands (pcs thread) = false) :
    count stands pcs = 0 :=
  total_eq_zero fun thread => congrArg Bool.toNat (nowhere thread)

/-- A thread moves to where it does not count, or counts as before. -/
theorem count_update_same {stands : Pc → Bool} {pcs : Thread → Pc}
    {thread : Thread} {pc : Pc} (same : stands pc = stands (pcs thread)) :
    count stands (Function.update pcs thread pc) = count stands pcs := by
  have moved := @count_update _ _ _ _ stands pcs thread pc
  rw [same] at moved
  exact Nat.add_right_cancel moved

end Count

variable {Frame : Type w}

/-- The frames of one kind, by thread. -/
def marked (mark : Frame → Bool) (frames : Thread → List Frame) :
    Thread → List Frame :=
  fun thread => (frames thread).filter mark

theorem marked_update {mark : Frame → Bool} {frames : Thread → List Frame}
    {thread : Thread} {pushed : List Frame} :
    marked mark (Function.update frames thread pushed) =
      Function.update (marked mark frames) thread (pushed.filter mark) := by
  funext other
  by_cases own : other = thread
  · subst own
    simp [marked]
  · simp [marked, own]

/-- One thread has these frames, the others have none. -/
def only (thread : Thread) (held : List Frame) : Thread → List Frame :=
  Function.update (fun _ => []) thread held

@[simp] theorem only_self {thread : Thread} {held : List Frame} :
    only thread held thread = held :=
  Function.update_self ..

theorem only_other {thread other : Thread} {held : List Frame}
    (different : other ≠ thread) : only thread held other = [] :=
  Function.update_of_ne different ..

theorem only_nil {thread : Thread} :
    only thread ([] : List Frame) = fun _ => [] :=
  Function.update_eq_self ..

theorem update_only {thread : Thread} {held pushed : List Frame} :
    Function.update (only thread held) thread pushed = only thread pushed :=
  Function.update_idem ..

/-- Whoever has a frame is the one. -/
theorem only_eq_cons {thread other : Thread} {held rest : List Frame}
    {frame : Frame} (found : only thread held other = frame :: rest) :
    other = thread ∧ held = frame :: rest := by
  by_cases own : other = thread
  · subst own
    rw [only_self] at found
    exact ⟨rfl, found⟩
  · rw [only_other own] at found
    cases found

end Threads
