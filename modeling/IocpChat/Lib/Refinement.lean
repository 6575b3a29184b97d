import IocpChat.Lib.Transition

/-!
# Refinement

A concrete machine refines an abstract one when each of its steps is a step of
the abstract machine between related states, or leaves the abstract state as it
is.  Some actions can be seen from outside: a run of the concrete machine is a
run of the abstract one in which the same is seen.
-/

namespace TransitionSystem

namespace Machine

variable {State : Type u} {Action : Type v} {Above : Type u'}
  {AboveAction : Type v'} {Event : Type w}

/-- How the abstract machine follows a step. -/
inductive Follows (abstract : Machine Above AboveAction)
    (aboveSeen : AboveAction → Option Event) (Related : Above → Prop)
    (above : Above) : Option Event → Prop where
  | stays : Related above → Follows abstract aboveSeen Related above none
  | moves {action : AboveAction} {next : Above} :
      abstract.step above action = some next → Related next →
      Follows abstract aboveSeen Related above (aboveSeen action)

structure Refines (concrete : Machine State Action)
    (abstract : Machine Above AboveAction) (seen : Action → Option Event)
    (aboveSeen : AboveAction → Option Event)
    (Related : State → Above → Prop) : Prop where
  initially : ∀ {state}, concrete.initial state →
    ∃ above, abstract.initial above ∧ Related state above
  step : ∀ {state next above action}, Related state above →
    concrete.step state action = some next →
    abstract.Follows aboveSeen (Related next) above (seen action)

/-- The abstract machine follows with a run of one action or none. -/
theorem Follows.run {abstract : Machine Above AboveAction}
    {aboveSeen : AboveAction → Option Event} {Related : Above → Prop}
    {above : Above} {event : Option Event}
    (follows : abstract.Follows aboveSeen Related above event) :
    ∃ actions next, abstract.run above actions = some next ∧
      actions.filterMap aboveSeen = event.toList ∧ Related next := by
  cases follows with
  | stays related => exact ⟨[], above, rfl, rfl, related⟩
  | @moves action next stepped related =>
      refine ⟨[action], next, ?_, ?_, related⟩
      · rw [Machine.run, stepped]
        rfl
      · rw [List.filterMap_cons]
        cases aboveSeen action <;> rfl

/-- A run from related states. -/
theorem Refines.run {concrete : Machine State Action}
    {abstract : Machine Above AboveAction} {seen : Action → Option Event}
    {aboveSeen : AboveAction → Option Event} {Related : State → Above → Prop}
    (refines : concrete.Refines abstract seen aboveSeen Related)
    {state final : State} {above : Above} {actions : List Action}
    (related : Related state above)
    (replayed : concrete.run state actions = some final) :
    ∃ aboveActions aboveFinal,
      abstract.run above aboveActions = some aboveFinal ∧
        aboveActions.filterMap aboveSeen = actions.filterMap seen ∧
        Related final aboveFinal := by
  induction actions generalizing state above with
  | nil =>
      cases replayed
      exact ⟨[], above, rfl, rfl, related⟩
  | cons action rest induction =>
      simp only [Machine.run, Option.bind_eq_some_iff] at replayed
      obtain ⟨next, stepped, restReplayed⟩ := replayed
      obtain ⟨first, between, firstReplayed, firstSeen, nextRelated⟩ :=
        (refines.step related stepped).run
      obtain ⟨others, aboveFinal, othersReplayed, othersSeen, finalRelated⟩ :=
        induction nextRelated restReplayed
      refine ⟨first ++ others, aboveFinal, ?_, ?_, finalRelated⟩
      · rw [run_append firstReplayed, othersReplayed]
      · rw [List.filterMap_append, firstSeen, othersSeen, List.filterMap_cons]
        cases seen action <;> rfl

end Machine

end TransitionSystem
