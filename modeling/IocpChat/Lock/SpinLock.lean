import IocpChat.Lib.Linearizability
import IocpChat.Lib.Threads
import IocpChat.Lib.Transition

/-!
# SpinLock

Threads call the methods of an object whose bodies hold a `SpinLockGuard`.  A
step is one atomic operation on `_locked`, or one step of a body.  Nothing keeps
a thread from the data but the lock.

Whatever the methods are, the object is linearizable: a call takes effect where
its body ends, and what it does there is what its body does alone.
-/

namespace IocpChat

open TransitionSystem Linearizability

/-- Where a thread is in `SpinLockGuard guard(_lock);`, in the body under it, or
in the destructor. -/
inductive GuardPc (Call Frame Result : Type) where
  | outside
  | exchange (call : Call) (spinCount : Nat)
  | load (call : Call) (spinCount : Nat)
  | inside (frame : Frame)
  | unlock (result : Result)
  | returns (result : Result)
  deriving DecidableEq

/-- An object behind a `SpinLock`. -/
structure GuardedObject (Thread Data Call Frame Result : Type) where
  locked : Bool
  data : Data
  pcs : Thread → GuardPc Call Frame Result

inductive GuardAction (Thread Call : Type) where
  | call (thread : Thread) (call : Call)
  | advance (thread : Thread)

/-- `++spinCount`, and a yield after 2048 rounds. -/
def SpinLock.pause (spinCount : Nat) : Nat :=
  if 2048 < spinCount + 1 then 0 else spinCount + 1

namespace GuardPc

variable {Call Frame Result : Type}

/-- The thread has the lock. -/
def holds : GuardPc Call Frame Result → Bool
  | .inside _ => true
  | .unlock _ => true
  | _ => false

end GuardPc

namespace GuardedObject

variable {Thread Data Call Frame Result : Type} [DecidableEq Thread]

def goto (state : GuardedObject Thread Data Call Frame Result)
    (thread : Thread) (pc : GuardPc Call Frame Result) :
    GuardedObject Thread Data Call Frame Result :=
  { state with pcs := Function.update state.pcs thread pc }

/-- The next step of a thread that is not outside. -/
def advance (methods : Methods Data Call Frame Result)
    (state : GuardedObject Thread Data Call Frame Result) (thread : Thread) :
    GuardPc Call Frame Result →
      Option (GuardedObject Thread Data Call Frame Result)
  | .outside => none
  | .exchange call spinCount =>
      -- `exchange(true)` returns what was there
      some ({ state with locked := true }.goto thread
        (if state.locked then .load call spinCount
          else .inside (methods.start call)))
  | .load call spinCount =>
      some (state.goto thread
        (if state.locked then .load call (SpinLock.pause spinCount)
          else .exchange call spinCount))
  | .inside frame =>
      (methods.advance state.data frame).map fun done =>
        { state with data := done.1 }.goto thread
          (done.2.elim .inside .unlock)
  | .unlock result =>
      some ({ state with locked := false }.goto thread (.returns result))
  | .returns _ => some (state.goto thread .outside)

def step (methods : Methods Data Call Frame Result)
    (state : GuardedObject Thread Data Call Frame Result) :
    GuardAction Thread Call →
      Option (GuardedObject Thread Data Call Frame Result)
  | .call thread call =>
      match state.pcs thread with
      | .outside => some (state.goto thread (.exchange call 0))
      | _ => none
  | .advance thread => state.advance methods thread (state.pcs thread)

/-- `_locked` is false, and nobody calls. -/
def initial (data : Data) : GuardedObject Thread Data Call Frame Result :=
  { locked := false
    data := data
    pcs := fun _ => .outside }

def machine (methods : Methods Data Call Frame Result) (start : Data) :
    Machine (GuardedObject Thread Data Call Frame Result)
      (GuardAction Thread Call) where
  initial := (· = initial start)
  step := step methods

/-- What a step shows of the thread. -/
def record (state : GuardedObject Thread Data Call Frame Result)
    (action : GuardAction Thread Call)
    (history : List (Event Thread Call Result)) :
    List (Event Thread Call Result) :=
  match action with
  | .call thread call => history ++ [.called thread call]
  | .advance thread =>
      match state.pcs thread with
      | .returns result => history ++ [.returned thread result]
      | _ => history

/-- The object with the history of the calls and returns. -/
def observed (methods : Methods Data Call Frame Result) (start : Data) :
    Machine (GuardedObject Thread Data Call Frame Result ×
      List (Event Thread Call Result)) (GuardAction Thread Call) :=
  (machine methods start).recording [] record

/-- What a thread has called is what its program counter says, and its body got
where it would have got alone. -/
def Agrees (methods : Methods Data Call Frame Result) (data now : Data) :
    GuardPc Call Frame Result → Status Call Result → Prop
  | .outside, status => status = .idle
  | .exchange call _, status => status = .pending call
  | .load call _, status => status = .pending call
  | .inside frame, status =>
      ∃ call, status = .pending call ∧ methods.Gets data call now frame
  | .unlock result, status => status = .decided result
  | .returns result, status => status = .decided result

/-- The calls have a linearization that ends with `data`, which is what the lock
protects while nobody changes it. -/
structure Inv (methods : Methods Data Call Frame Result) (start : Data)
    (state : GuardedObject Thread Data Call Frame Result)
    (history : List (Event Thread Call Result))
    (order : List (Operation Thread Call Result))
    (statuses : Thread → Status Call Result) (data : Data)
    (holder : Option Thread) : Prop where
  linearizes : Linearizes methods.Performs start history order statuses data
  agrees : ∀ thread,
    Agrees methods data state.data (state.pcs thread) (statuses thread)
  holds : ∀ thread,
    (state.pcs thread).holds = true ↔ holder = some thread
  locked : state.locked = holder.isSome
  untouched : (∀ thread frame, state.pcs thread ≠ .inside frame) →
    state.data = data

namespace Inv

variable {methods : Methods Data Call Frame Result} {start data : Data}
  {state : GuardedObject Thread Data Call Frame Result}
  {history : List (Event Thread Call Result)}
  {order : List (Operation Thread Call Result)}
  {statuses : Thread → Status Call Result} {holder : Option Thread}

/-- Whoever is not the holder does not look at the data. -/
theorem agreesElsewhere {later now : Data} {other : Thread}
    (inv : Inv methods start state history order statuses data holder)
    (notHolder : holder ≠ some other) :
    Agrees methods later now (state.pcs other) (statuses other) := by
  have agrees := inv.agrees other
  have holds := inv.holds other
  cases at_ : state.pcs other with
  | inside frame =>
      rw [at_] at holds
      exact absurd (holds.mp rfl) notHolder
  | _ =>
      rw [at_] at agrees
      exact agrees

/-- A thread moves; the lock and the data are its own while it changes
them. -/
theorem move {next : GuardedObject Thread Data Call Frame Result}
    {nextHistory : List (Event Thread Call Result)}
    {nextOrder : List (Operation Thread Call Result)} {nextData : Data}
    {thread : Thread} {pc : GuardPc Call Frame Result}
    {status : Status Call Result} {nextHolder : Option Thread}
    (inv : Inv methods start state history order statuses data holder)
    (pcs : next.pcs = Function.update state.pcs thread pc)
    (linearizes : Linearizes methods.Performs start nextHistory nextOrder
      (Function.update statuses thread status) nextData)
    (own : Agrees methods nextData next.data pc status)
    (others : ∀ other, other ≠ thread →
      Agrees methods nextData next.data (state.pcs other) (statuses other))
    (holds : pc.holds = true ↔ nextHolder = some thread)
    (othersHold : ∀ other, other ≠ thread →
      (nextHolder = some other ↔ holder = some other))
    (locked : next.locked = nextHolder.isSome)
    (untouched : (∀ frame, pc ≠ .inside frame) →
      (∀ other frame, other ≠ thread → state.pcs other ≠ .inside frame) →
      next.data = nextData) :
    Inv methods start next nextHistory nextOrder
      (Function.update statuses thread status) nextData nextHolder := by
  refine
    { linearizes := linearizes
      agrees := ?_
      holds := ?_
      locked := locked
      untouched := ?_ }
  · intro other
    by_cases same : other = thread
    · subst same
      rw [pcs, Function.update_self, Function.update_self]
      exact own
    · rw [pcs, Function.update_of_ne same, Function.update_of_ne same]
      exact others other same
  · rw [pcs]
    exact @Threads.forall_iff_update _ _ _
      (fun pc : GuardPc Call Frame Result => pc.holds = true) _
      (fun other => holder = some other)
      (fun other => nextHolder = some other) _ _ inv.holds holds othersHold
  · intro nobody
    apply untouched
    · intro frame inside
      apply nobody thread frame
      rw [pcs, Function.update_self, inside]
    · intro other frame different inside
      apply nobody other frame
      rw [pcs, Function.update_of_ne different, inside]

/-- A thread that does not hold the lock moves on without it. -/
theorem aside {next : GuardedObject Thread Data Call Frame Result}
    {nextHistory : List (Event Thread Call Result)} {thread : Thread}
    {pc : GuardPc Call Frame Result} {status : Status Call Result}
    (inv : Inv methods start state history order statuses data holder)
    (before : (state.pcs thread).holds = false) (after : pc.holds = false)
    (moved : next = state.goto thread pc)
    (linearizes : Linearizes methods.Performs start nextHistory order
      (Function.update statuses thread status) data)
    (own : Agrees methods data state.data pc status) :
    Inv methods start next nextHistory order
      (Function.update statuses thread status) data holder := by
  subst moved
  have notHolder : holder ≠ some thread := by
    intro same
    have holds := (inv.holds thread).mpr same
    rw [before] at holds
    cases holds
  apply inv.move
  · rfl
  · exact linearizes
  · exact own
  · intro other different
    exact inv.agrees other
  · constructor
    · intro holds
      rw [after] at holds
      cases holds
    · intro same
      exact absurd same notHolder
  · intro other different
    exact Iff.rfl
  · exact inv.locked
  · intro outside others
    apply inv.untouched
    intro other frame inside
    by_cases same : other = thread
    · subst same
      rw [inside] at before
      cases before
    · exact others other frame same inside

/-- The same, with nothing to see and nothing decided. -/
theorem waits {next : GuardedObject Thread Data Call Frame Result}
    {thread : Thread} {pc : GuardPc Call Frame Result}
    (inv : Inv methods start state history order statuses data holder)
    (before : (state.pcs thread).holds = false) (after : pc.holds = false)
    (moved : next = state.goto thread pc)
    (own : Agrees methods data state.data pc (statuses thread)) :
    Inv methods start next history order statuses data holder := by
  have same : Function.update statuses thread (statuses thread) = statuses :=
    Function.update_eq_self ..
  rw [← same]
  apply inv.aside before after moved
  · rw [same]
    exact inv.linearizes
  · exact own

/-- The lock is free, so whoever exchanges gets it, and finds the data as the
last holder left it. -/
theorem locks {thread : Thread} {call : Call} {spinCount : Nat}
    (inv : Inv methods start state history order statuses data holder)
    (at_ : state.pcs thread = .exchange call spinCount)
    (free : state.locked = false) :
    Inv methods start
      ({ state with locked := true }.goto thread
        (.inside (methods.start call)))
      history order statuses data (some thread) := by
  have nobody : holder = none := by
    have locked := inv.locked
    rw [free] at locked
    cases holder with
    | none => rfl
    | some thread => cases locked
  have unchanged : state.data = data := by
    apply inv.untouched
    intro other frame inside
    have holds := inv.holds other
    rw [inside, nobody] at holds
    cases holds.mp rfl
  have pending : statuses thread = .pending call := by
    have agrees := inv.agrees thread
    rw [at_] at agrees
    exact agrees
  have same : Function.update statuses thread (statuses thread) = statuses :=
    Function.update_eq_self ..
  rw [← same]
  apply inv.move
  · rfl
  · rw [same]
    exact inv.linearizes
  · refine ⟨call, pending, ?_⟩
    have starts : methods.Gets data call data (methods.start call) := .start
    rw [← unchanged] at starts ⊢
    exact starts
  · intro other different
    exact inv.agrees other
  · simp [GuardPc.holds]
  · intro other different
    simp [nobody, different.symm]
  · rfl
  · intro outside others
    exact absurd rfl (outside _)

/-- The holder goes on in its body. -/
theorem works {thread : Thread} {frame later : Frame} {changed : Data}
    (inv : Inv methods start state history order statuses data holder)
    (at_ : state.pcs thread = .inside frame)
    (advanced : methods.advance state.data frame =
      some (changed, .inl later)) :
    Inv methods start
      ({ state with data := changed }.goto thread (.inside later))
      history order statuses data holder := by
  have holds : holder = some thread := by
    apply (inv.holds thread).mp
    rw [at_]
    rfl
  have same : Function.update statuses thread (statuses thread) = statuses :=
    Function.update_eq_self ..
  rw [← same]
  apply inv.move
  · rfl
  · rw [same]
    exact inv.linearizes
  · have agrees := inv.agrees thread
    rw [at_] at agrees
    obtain ⟨call, pending, gets⟩ := agrees
    exact ⟨call, pending, gets.step advanced⟩
  · intro other different
    apply inv.agreesElsewhere
    simp [holds, different.symm]
  · simp [GuardPc.holds, holds]
  · intro other different
    exact Iff.rfl
  · exact inv.locked
  · intro outside others
    exact absurd rfl (outside _)

/-- The body ends, and the call has taken effect. -/
theorem ends {thread : Thread} {frame : Frame} {changed : Data}
    {result : Result}
    (inv : Inv methods start state history order statuses data holder)
    (at_ : state.pcs thread = .inside frame)
    (advanced : methods.advance state.data frame =
      some (changed, .inr result)) :
    ∃ order statuses,
      Inv methods start
        ({ state with data := changed }.goto thread (.unlock result))
        history order statuses changed holder := by
  have holds : holder = some thread := by
    apply (inv.holds thread).mp
    rw [at_]
    rfl
  have agrees := inv.agrees thread
  rw [at_] at agrees
  obtain ⟨call, pending, gets⟩ := agrees
  refine ⟨order ++ [⟨thread, call, result⟩],
    Function.update statuses thread (.decided result), ?_⟩
  apply inv.move
  · rfl
  · exact .takesEffect inv.linearizes pending
      ⟨state.data, frame, gets, advanced⟩
  · rfl
  · intro other different
    apply inv.agreesElsewhere
    simp [holds, different.symm]
  · simp [GuardPc.holds, holds]
  · intro other different
    exact Iff.rfl
  · exact inv.locked
  · intro outside others
    rfl

/-- The destructor gives the lock back. -/
theorem unlocks {thread : Thread} {result : Result}
    (inv : Inv methods start state history order statuses data holder)
    (at_ : state.pcs thread = .unlock result) :
    Inv methods start
      ({ state with locked := false }.goto thread (.returns result))
      history order statuses data none := by
  have holds : holder = some thread := by
    apply (inv.holds thread).mp
    rw [at_]
    rfl
  have same : Function.update statuses thread (statuses thread) = statuses :=
    Function.update_eq_self ..
  rw [← same]
  apply inv.move
  · rfl
  · rw [same]
    exact inv.linearizes
  · have agrees := inv.agrees thread
    rw [at_] at agrees
    exact agrees
  · intro other different
    exact inv.agrees other
  · simp [GuardPc.holds]
  · intro other different
    simp [holds, different.symm]
  · rfl
  · intro outside others
    apply inv.untouched
    intro other frame inside
    by_cases same : other = thread
    · subst same
      rw [at_] at inside
      cases inside
    · exact others other frame same inside

end Inv

/-- Some order of the calls made so far explains what they returned. -/
def Linearized (methods : Methods Data Call Frame Result) (start : Data)
    (state : GuardedObject Thread Data Call Frame Result)
    (history : List (Event Thread Call Result)) : Prop :=
  ∃ order statuses data holder,
    Inv methods start state history order statuses data holder

theorem advance_linearized {methods : Methods Data Call Frame Result}
    {start : Data} {state next : GuardedObject Thread Data Call Frame Result}
    {history : List (Event Thread Call Result)} {thread : Thread}
    (linearized : Linearized methods start state history)
    (stepped : state.advance methods thread (state.pcs thread) =
      some next) :
    Linearized methods start next (record state (.advance thread) history) := by
  obtain ⟨order, statuses, data, holder, inv⟩ := linearized
  have agrees := inv.agrees thread
  cases at_ : state.pcs thread with
  | outside =>
      rw [at_] at stepped
      cases stepped
  | exchange call spinCount =>
      simp only [record, at_]
      simp only [at_, advance, Option.some.injEq] at stepped
      rw [at_] at agrees
      cases locked : state.locked with
      | true =>
          have moved : next = state.goto thread (.load call spinCount) := by
            rw [← stepped, locked]
            simp [goto, locked]
          exact ⟨order, statuses, data, holder,
            inv.waits (by rw [at_]; rfl) rfl moved agrees⟩
      | false =>
          rw [locked] at stepped
          subst stepped
          exact ⟨order, statuses, data, some thread, inv.locks at_ locked⟩
  | load call spinCount =>
      simp only [record, at_]
      simp only [at_, advance, Option.some.injEq] at stepped
      rw [at_] at agrees
      refine ⟨order, statuses, data, holder, ?_⟩
      apply inv.waits (by rw [at_]; rfl) _ stepped.symm
      · split
        · exact agrees
        · exact agrees
      · split
        · rfl
        · rfl
  | inside frame =>
      simp only [record, at_]
      simp only [at_, advance, Option.map_eq_some_iff] at stepped
      obtain ⟨⟨changed, outcome⟩, advanced, rfl⟩ := stepped
      cases outcome with
      | inl later =>
          exact ⟨order, statuses, data, holder, inv.works at_ advanced⟩
      | inr result =>
          obtain ⟨nextOrder, nextStatuses, ended⟩ := inv.ends at_ advanced
          exact ⟨nextOrder, nextStatuses, changed, holder, ended⟩
  | unlock result =>
      simp only [record, at_]
      simp only [at_, advance, Option.some.injEq] at stepped
      subst stepped
      exact ⟨order, statuses, data, none, inv.unlocks at_⟩
  | returns result =>
      simp only [record, at_]
      simp only [at_, advance, Option.some.injEq] at stepped
      rw [at_] at agrees
      exact ⟨order, Function.update statuses thread .idle, data, holder,
        inv.aside (by rw [at_]; rfl) rfl stepped.symm
          (.returned inv.linearizes agrees) rfl⟩

theorem step_linearized {methods : Methods Data Call Frame Result}
    {start : Data} {state next : GuardedObject Thread Data Call Frame Result}
    {history : List (Event Thread Call Result)}
    {action : GuardAction Thread Call}
    (linearized : Linearized methods start state history)
    (stepped : state.step methods action = some next) :
    Linearized methods start next (record state action history) := by
  cases action with
  | advance thread => exact advance_linearized linearized stepped
  | call thread call =>
      obtain ⟨order, statuses, data, holder, inv⟩ := linearized
      simp only [step] at stepped
      split at stepped
      · rename_i at_
        have agrees := inv.agrees thread
        rw [at_] at agrees
        exact ⟨order, Function.update statuses thread (.pending call), data,
          holder, inv.aside (by rw [at_]; rfl) rfl
            (Option.some.inj stepped).symm
            (.called inv.linearizes agrees) rfl⟩
      · cases stepped

theorem initial_linearized {methods : Methods Data Call Frame Result}
    {start : Data} :
    Linearized methods start
      (initial start : GuardedObject Thread Data Call Frame Result) [] := by
  refine ⟨[], fun _ => .idle, start, none, ?_⟩
  exact
    { linearizes := .nothing
      agrees := fun _ => rfl
      holds := fun _ => by simp [initial, GuardPc.holds]
      locked := rfl
      untouched := fun _ => rfl }

/-- Every run of the threads is linearizable. -/
theorem reachable_linearized {methods : Methods Data Call Frame Result}
    {start : Data} {state : GuardedObject Thread Data Call Frame Result}
    {history : List (Event Thread Call Result)}
    (reached : (observed methods start).Reachable (state, history)) :
    Linearized methods start state history := by
  apply @Machine.Reachable.invariant _ _ _
    (fun pair : GuardedObject Thread Data Call Frame Result × _ =>
      Linearized methods start pair.1 pair.2) _ _ _ reached
  · rintro ⟨state, history⟩ ⟨rfl, rfl⟩
    exact initial_linearized
  · rintro ⟨state, history⟩ action ⟨next, nextHistory⟩ linearized stepped
    obtain ⟨moved, rfl⟩ := Machine.recording_step_eq_some_iff.mp stepped
    exact step_linearized linearized moved

end GuardedObject

end IocpChat
