import Mathlib.Logic.Function.Basic

/-!
# Linearizability

An object is called by several threads.  What is seen of it is a history of
calls and returns.  The history is linearizable if between the call and the
return of a thread there is one moment at which the object does, in one piece,
what the sequential object does: `Linearizes` lists the operations in the order
of these moments.

A method is a sequence of steps on the data.  `Performs` is what such a method
does when nobody else touches the data meanwhile.
-/

namespace Linearizability

variable {Thread : Type u} {Call : Type v} {Result : Type w} {Data : Type x}

/-- What is seen of a thread. -/
inductive Event (Thread : Type u) (Call : Type v) (Result : Type w) where
  | called (thread : Thread) (call : Call)
  | returned (thread : Thread) (result : Result)

/-- A thread has made no call, or its operation is still to come, or is done. -/
inductive Status (Call : Type v) (Result : Type w) where
  | idle
  | pending (call : Call)
  | decided (result : Result)

/-- An operation of one thread. -/
structure Operation (Thread : Type u) (Call : Type v) (Result : Type w) where
  thread : Thread
  call : Call
  result : Result

/-- The sequential object does these operations one after the other. -/
inductive RunsInOrder (performs : Data → Call → Data → Result → Prop)
    (start : Data) :
    List (Operation Thread Call Result) → Data → Prop where
  | nothing : RunsInOrder performs start [] start
  | next {order : List (Operation Thread Call Result)} {data next : Data}
      {operation : Operation Thread Call Result} :
      RunsInOrder performs start order data →
      performs data operation.call next operation.result →
      RunsInOrder performs start (order ++ [operation]) next

variable [DecidableEq Thread]

/-- The operations take effect in this order, each between the call and the
return of its thread. -/
inductive Linearizes (performs : Data → Call → Data → Result → Prop)
    (start : Data) : List (Event Thread Call Result) →
      List (Operation Thread Call Result) → (Thread → Status Call Result) →
      Data → Prop where
  | nothing : Linearizes performs start [] [] (fun _ => .idle) start
  | called {history : List (Event Thread Call Result)}
      {order : List (Operation Thread Call Result)}
      {statuses : Thread → Status Call Result} {data : Data}
      {thread : Thread} {call : Call} :
      Linearizes performs start history order statuses data →
      statuses thread = .idle →
      Linearizes performs start (history ++ [.called thread call]) order
        (Function.update statuses thread (.pending call)) data
  | takesEffect {history : List (Event Thread Call Result)}
      {order : List (Operation Thread Call Result)}
      {statuses : Thread → Status Call Result} {data next : Data}
      {thread : Thread} {call : Call} {result : Result} :
      Linearizes performs start history order statuses data →
      statuses thread = .pending call →
      performs data call next result →
      Linearizes performs start history (order ++ [⟨thread, call, result⟩])
        (Function.update statuses thread (.decided result)) next
  | returned {history : List (Event Thread Call Result)}
      {order : List (Operation Thread Call Result)}
      {statuses : Thread → Status Call Result} {data : Data}
      {thread : Thread} {result : Result} :
      Linearizes performs start history order statuses data →
      statuses thread = .decided result →
      Linearizes performs start (history ++ [.returned thread result]) order
        (Function.update statuses thread .idle) data

theorem Linearizes.runsInOrder
    {performs : Data → Call → Data → Result → Prop} {start data : Data}
    {history : List (Event Thread Call Result)}
    {order : List (Operation Thread Call Result)}
    {statuses : Thread → Status Call Result}
    (linearizes : Linearizes performs start history order statuses data) :
    RunsInOrder performs start order data := by
  induction linearizes with
  | nothing => exact .nothing
  | called _ _ induction => exact induction
  | takesEffect _ _ performs induction => exact .next induction performs
  | returned _ _ induction => exact induction

/-- An object that does what another one does has its linearizations. -/
theorem Linearizes.mono
    {performs weaker : Data → Call → Data → Result → Prop} {start data : Data}
    {history : List (Event Thread Call Result)}
    {order : List (Operation Thread Call Result)}
    {statuses : Thread → Status Call Result}
    (implies : ∀ {data call next result},
      performs data call next result → weaker data call next result)
    (linearizes : Linearizes performs start history order statuses data) :
    Linearizes weaker start history order statuses data := by
  induction linearizes with
  | nothing => exact .nothing
  | called _ idle induction => exact .called induction idle
  | takesEffect _ pending performs induction =>
      exact .takesEffect induction pending (implies performs)
  | returned _ decided induction => exact .returned induction decided

/-- The methods of an object, step by step; where a step has no meaning there
is none. -/
structure Methods (Data : Type x) (Call : Type v) (Frame : Type y)
    (Result : Type w) where
  start : Call → Frame
  advance : Data → Frame → Option (Data × (Frame ⊕ Result))

namespace Methods

variable {Frame : Type y}

/-- How far a call gets that has the data for itself. -/
inductive Gets (methods : Methods Data Call Frame Result) (data : Data)
    (call : Call) : Data → Frame → Prop where
  | start : Gets methods data call data (methods.start call)
  | step {before after : Data} {frame next : Frame} :
      Gets methods data call before frame →
      methods.advance before frame = some (after, .inl next) →
      Gets methods data call after next

/-- What a call does that has the data for itself. -/
def Performs (methods : Methods Data Call Frame Result) (data : Data)
    (call : Call) (final : Data) (result : Result) : Prop :=
  ∃ before frame, methods.Gets data call before frame ∧
    methods.advance before frame = some (final, .inr result)

end Methods

end Linearizability
