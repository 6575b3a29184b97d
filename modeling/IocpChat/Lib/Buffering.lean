import IocpChat.Lib.Transition

/-!
# Buffers of a run

A step may take items in, give items out and hold back the rest.  A machine
buffers the items when every step gives what was held longest: then a run has
given what it took, in that order, up to what is still held.  Two buffers can be
put one behind the other, and what the items stand for is buffered as they are.
-/

namespace TransitionSystem

namespace Machine

variable {State : Type u} {Action : Type v} {Item : Type w} {Other : Type w'}

/-- The items of the steps of a replay, one step after the other. -/
def collect (machine : Machine State Action)
    (items : State → Action → List Item) : State → List Action → List Item
  | _, [] => []
  | state, action :: rest =>
      items state action ++
        (machine.step state action).elim [] fun next =>
          machine.collect items next rest

theorem collect_cons {machine : Machine State Action}
    {items : State → Action → List Item} {state next : State}
    {action : Action} {rest : List Action}
    (stepped : machine.step state action = some next) :
    machine.collect items state (action :: rest) =
      items state action ++ machine.collect items next rest := by
  rw [collect, stepped]
  rfl

/-- The items are the growth of a list in the state. -/
theorem collect_of_growth {machine : Machine State Action}
    {items : State → Action → List Item} {list : State → List Item}
    (grows : ∀ {state action next}, machine.step state action = some next →
      list next = list state ++ items state action)
    {state final : State} {actions : List Action}
    (replayed : machine.run state actions = some final) :
    list final = list state ++ machine.collect items state actions := by
  induction actions generalizing state with
  | nil =>
      cases replayed
      exact (List.append_nil _).symm
  | cons action rest induction =>
      simp only [run, Option.bind_eq_some_iff] at replayed
      obtain ⟨next, stepped, restReplayed⟩ := replayed
      rw [induction restReplayed, grows stepped, collect_cons stepped,
        List.append_assoc]

theorem collect_flatMap (machine : Machine State Action)
    (items : State → Action → List Item) (means : Item → List Other)
    (state : State) (actions : List Action) :
    machine.collect (fun state action => (items state action).flatMap means)
        state actions =
      (machine.collect items state actions).flatMap means := by
  induction actions generalizing state with
  | nil => rfl
  | cons action rest induction =>
      rw [collect, collect, List.flatMap_append]
      cases machine.step state action with
      | none => rfl
      | some next => exact congrArg _ (induction next)

/-- What a step gives was held or taken before what it holds then. -/
structure Buffers (machine : Machine State Action)
    (takes gives : State → Action → List Item) (held : State → List Item) :
    Prop where
  initially : ∀ {state}, machine.initial state → held state = []
  step : ∀ {state action next}, machine.step state action = some next →
    held state ++ takes state action = gives state action ++ held next

namespace Buffers

variable {machine : Machine State Action}
  {takes passes gives : State → Action → List Item}
  {held behind : State → List Item}

theorem run (buffers : machine.Buffers takes gives held)
    {state final : State} {actions : List Action}
    (replayed : machine.run state actions = some final) :
    held state ++ machine.collect takes state actions =
      machine.collect gives state actions ++ held final := by
  induction actions generalizing state with
  | nil =>
      cases replayed
      exact List.append_nil _
  | cons action rest induction =>
      simp only [Machine.run, Option.bind_eq_some_iff] at replayed
      obtain ⟨next, stepped, restReplayed⟩ := replayed
      rw [collect_cons stepped, collect_cons stepped]
      calc
        held state ++ (takes state action ++ machine.collect takes next rest) =
            gives state action ++
              (held next ++ machine.collect takes next rest) := by
          rw [← List.append_assoc, buffers.step stepped, List.append_assoc]
        _ = gives state action ++ machine.collect gives next rest ++
              held final := by
          rw [induction restReplayed, List.append_assoc]

/-- What a first buffer gives is what a second one takes. -/
theorem comp (first : machine.Buffers takes passes held)
    (second : machine.Buffers passes gives behind) :
    machine.Buffers takes gives fun state => behind state ++ held state where
  initially := by
    intro state initial
    rw [second.initially initial, first.initially initial]
    rfl
  step := by
    intro state action next stepped
    calc
      behind state ++ held state ++ takes state action =
          behind state ++ passes state action ++ held next := by
        rw [List.append_assoc, first.step stepped, List.append_assoc]
      _ = gives state action ++ (behind next ++ held next) := by
        rw [second.step stepped, List.append_assoc]

theorem flatMap (buffers : machine.Buffers takes gives held)
    (means : Item → List Other) :
    machine.Buffers (fun state action => (takes state action).flatMap means)
      (fun state action => (gives state action).flatMap means)
      fun state => (held state).flatMap means where
  initially := by
    intro state initial
    rw [buffers.initially initial]
    rfl
  step := by
    intro state action next stepped
    rw [← List.flatMap_append, buffers.step stepped, List.flatMap_append]

end Buffers

end Machine

end TransitionSystem
