import Mathlib.Control.Basic

/-!
# Stateful attempts

An attempt either produces a value or fails, and reports its final state in
both cases: a chain of calls that each return `false` on failure, abandoned at
the first failure without undoing the effects made so far.
-/

/-- A state-passing computation that keeps its state when it fails. -/
def Attempt (State : Type u) (Value : Type v) : Type (max u v) :=
  State → Option Value × State

namespace Attempt

variable {State : Type u} {Value Other Third : Type v}

def run (attempt : Attempt State Value) (state : State) :
    Option Value × State :=
  attempt state

/-- Give up, keeping the state. -/
def fail : Attempt State Value := fun state => (none, state)

protected def pure (value : Value) : Attempt State Value :=
  fun state => (some value, state)

protected def bind (attempt : Attempt State Value)
    (continue_ : Value → Attempt State Other) : Attempt State Other :=
  fun state =>
    match attempt state with
    | (some value, next) => continue_ value next
    | (none, next) => (none, next)

instance : Monad (Attempt State) where
  pure := Attempt.pure
  bind := Attempt.bind

@[simp] theorem run_pure (value : Value) (state : State) :
    (pure value : Attempt State Value).run state = (some value, state) :=
  rfl

theorem run_bind (attempt : Attempt State Value)
    (continue_ : Value → Attempt State Other) (state : State) :
    (attempt >>= continue_).run state =
      match attempt.run state with
      | (some value, next) => (continue_ value).run next
      | (none, next) => (none, next) :=
  rfl

theorem run_bind_of_some {attempt : Attempt State Value}
    {continue_ : Value → Attempt State Other} {state next : State}
    {value : Value} (succeeds : attempt.run state = (some value, next)) :
    (attempt >>= continue_).run state = (continue_ value).run next := by
  rw [run_bind, succeeds]

theorem run_bind_of_none {attempt : Attempt State Value}
    {continue_ : Value → Attempt State Other} {state next : State}
    (fails : attempt.run state = (none, next)) :
    (attempt >>= continue_).run state = (none, next) := by
  rw [run_bind, fails]

/-- A chain succeeds exactly when each of its attempts does. -/
theorem run_bind_eq_some_iff {attempt : Attempt State Value}
    {continue_ : Value → Attempt State Other} {state final : State}
    {result : Other} :
    (attempt >>= continue_).run state = (some result, final) ↔
      ∃ value next, attempt.run state = (some value, next) ∧
        (continue_ value).run next = (some result, final) := by
  constructor
  · intro succeeds
    rcases first : attempt.run state with ⟨_ | value, next⟩
    · rw [run_bind_of_none first] at succeeds
      cases succeeds
    · rw [run_bind_of_some first] at succeeds
      exact ⟨value, next, rfl, succeeds⟩
  · rintro ⟨value, next, first, second⟩
    rw [run_bind_of_some first, second]

@[ext] theorem ext {left right : Attempt State Value}
    (agree : ∀ state, left.run state = right.run state) : left = right :=
  funext agree

instance : LawfulMonad (Attempt State) :=
  LawfulMonad.mk' (Attempt State)
    (by
      intro Value attempt
      ext1 state
      change (attempt >>= fun value => pure value).run state =
        attempt.run state
      rw [run_bind]
      rcases attempt.run state with ⟨_ | value, next⟩ <;> rfl)
    (fun _ _ => rfl)
    (by
      intro Value Other Third attempt first second
      ext1 state
      simp only [run_bind]
      rcases attempt.run state with ⟨_ | value, next⟩ <;> rfl)

end Attempt
