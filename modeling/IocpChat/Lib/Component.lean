import Mathlib.Logic.Basic

/-!
# Components and simulation

A component answers calls and keeps a state.  One component simulates another
along a relation of their states when every call gives the same answer and
keeps the states related; then every sequence of calls does.
-/

/-- A state that is changed by calls, each of which returns a result. -/
def Component (State : Type u) (Call : Type v) (Result : Type w) :=
  State → Call → Result × State

namespace Component

variable {State : Type u} {Other : Type u'} {Call : Type v} {Result : Type w}

/-- Make the calls one after another. -/
def run (component : Component State Call Result) :
    State → List Call → List Result × State
  | state, [] => ([], state)
  | state, call :: rest =>
      let (result, next) := component state call
      let (results, final) := component.run next rest
      (result :: results, final)

/-- Related states answer every call alike and stay related. -/
def Simulates (concrete : Component State Call Result)
    (abstract : Component Other Call Result)
    (Related : State → Other → Prop) : Prop :=
  ∀ {state other} call, Related state other →
    (concrete state call).1 = (abstract other call).1 ∧
      Related (concrete state call).2 (abstract other call).2

theorem Simulates.run {concrete : Component State Call Result}
    {abstract : Component Other Call Result} {Related : State → Other → Prop}
    (simulates : concrete.Simulates abstract Related) {state : State}
    {other : Other} (related : Related state other) (calls : List Call) :
    (concrete.run state calls).1 = (abstract.run other calls).1 ∧
      Related (concrete.run state calls).2 (abstract.run other calls).2 := by
  induction calls generalizing state other with
  | nil => exact ⟨rfl, related⟩
  | cons call rest induction =>
      obtain ⟨sameResult, relatedNext⟩ := simulates call related
      obtain ⟨sameResults, relatedFinal⟩ := induction relatedNext
      refine ⟨?_, relatedFinal⟩
      simp only [Component.run, sameResult, sameResults]

end Component
