import IocpChat.Job.QueueView
import IocpChat.Lib.PriorityQueue

/-!
# JobTimer

Threads reserve jobs for a queue and distribute the expired ones.  A step is one
atomic operation, one block under `_lock`, or one turn of the loop that
`Distribute` runs under it.  `top` may return any item that no other is greater
than; the action says which.  The expired items are pushed outside the lock,
with `JobQueue::Push` on owners that still exist.

`reserved`, `pushed`, `dropped` and `rounds` record what happened; a `Round` is
one `Distribute` that has passed the gate.
-/

namespace IocpChat

open TransitionSystem

/-- A deadline, a weak reference to the owner, and the job. -/
structure TimerItem (Queue Job : Type) where
  executeTick : UInt64
  owner : Queue
  job : Job
  deriving DecidableEq, Repr

/-- `operator<`: the earliest deadline is the greatest item. -/
def TimerItem.less {Queue Job : Type} (item other : TimerItem Queue Job) :
    Bool :=
  other.executeTick < item.executeTick

/-- A call of `Reserve`, and what `GetTickCount64` returned in it. -/
structure Reservation (Queue Job : Type) where
  tick : UInt64
  afterMs : UInt64
  owner : Queue
  job : Job
  deriving DecidableEq, Repr

def Reservation.item {Queue Job : Type} (reservation : Reservation Queue Job) :
    TimerItem Queue Job :=
  { executeTick := reservation.tick + reservation.afterMs
    owner := reservation.owner
    job := reservation.job }

/-- One `Distribute`: what was reserved, handled and waiting when it took the
lock, what was waiting when it left it, and what it did with the rest. -/
structure Round (Queue Job : Type) where
  now : UInt64
  reserved : List (Reservation Queue Job)
  handled : List (TimerItem Queue Job)
  before : List (TimerItem Queue Job)
  rest : List (TimerItem Queue Job)
  pushed : List (TimerItem Queue Job)
  dropped : List (TimerItem Queue Job)

/-- Where a thread stands in `Reserve` or `Distribute`. -/
inductive TimerPc (Queue Job : Type) where
  | idle
  | reserve (reservation : Reservation Queue Job)
  | distribute (now : UInt64)
  | popItems (round : Round Queue Job)
      (expiredItems : List (TimerItem Queue Job))
  | pushItems (round : Round Queue Job)
      (expiredItems : List (TimerItem Queue Job))

structure JobTimer (Thread Queue Job : Type) where
  items : List (TimerItem Queue Job)
  locked : Bool
  distributing : Bool
  destroyed : List Queue
  queues : JobSystem Thread Queue Job
  pcs : Thread → TimerPc Queue Job
  reserved : List (Reservation Queue Job)
  pushed : List (TimerItem Queue Job × UInt64)
  dropped : List (TimerItem Queue Job)
  rounds : List (Round Queue Job)

/-- `JobQueue::DoTimer` reserves for its own queue. -/
inductive TimerAction (Thread Queue Job : Type) where
  | reserve (thread : Thread) (reservation : Reservation Queue Job)
  | distribute (thread : Thread) (now : UInt64)
  | advance (thread : Thread) (top : Nat)
  | destroy (owner : Queue)
  | jobs (action : JobAction Thread Queue Job)

namespace JobTimer

variable {Thread Queue Job : Type} [DecidableEq Thread] [DecidableEq Queue]

def goto (state : JobTimer Thread Queue Job) (thread : Thread)
    (pc : TimerPc Queue Job) : JobTimer Thread Queue Job :=
  { state with pcs := Function.update state.pcs thread pc }

/-- `_items.push` under the lock. -/
def reserve (state : JobTimer Thread Queue Job)
    (reservation : Reservation Queue Job) : JobTimer Thread Queue Job :=
  { state with
    items := state.items ++ [reservation.item]
    reserved := state.reserved ++ [reservation] }

/-- What a round starts from. -/
def openRound (state : JobTimer Thread Queue Job) (now : UInt64) :
    Round Queue Job :=
  { now := now
    reserved := state.reserved
    handled := state.pushed.map Prod.fst ++ state.dropped
    before := state.items
    rest := []
    pushed := []
    dropped := [] }

/-- One turn of the loop under the lock. -/
def popItem (state : JobTimer Thread Queue Job) (thread : Thread)
    (round : Round Queue Job) (expiredItems : List (TimerItem Queue Job))
    (top : Nat) : Option (JobTimer Thread Queue Job) :=
  let leave :=
    { state with locked := false }.goto thread
      (.pushItems { round with rest := state.items } expiredItems)
  if state.items = [] then some leave
  else
    match state.items[top]? with
    | none => none
    | some item =>
        if PriorityQueue.isTop TimerItem.less state.items item = false then none
        else if round.now < item.executeTick then some leave
        else
          some ({ state with items := state.items.eraseIdx top }.goto thread
            (.popItems round (expiredItems ++ [item])))

/-- One turn of the loop that pushes the expired items. -/
def pushItem (state : JobTimer Thread Queue Job) (thread : Thread)
    (round : Round Queue Job) :
    List (TimerItem Queue Job) → Option (JobTimer Thread Queue Job)
  | [] =>
      some ({ state with
        distributing := false
        rounds := state.rounds ++ [round] }.goto thread .idle)
  | item :: expiredItems =>
      if item.owner ∈ state.destroyed then
        some ({ state with dropped := state.dropped ++ [item] }.goto thread
          (.pushItems { round with dropped := round.dropped ++ [item] }
            expiredItems))
      else
        (state.queues.step (.push thread item.owner item.job false)).map
          fun queues =>
            { state with
              queues := queues
              pushed := state.pushed ++ [(item, round.now)] }.goto thread
                (.pushItems { round with pushed := round.pushed ++ [item] }
                  expiredItems)

/-- The next step of a thread; `top` is used where it calls `_items.top`. -/
def advance (state : JobTimer Thread Queue Job) (thread : Thread)
    (top : Nat) : Option (JobTimer Thread Queue Job) :=
  match state.pcs thread with
  | .idle => none
  | .reserve reservation =>
      if state.locked then none
      else some ((state.reserve reservation).goto thread .idle)
  | .distribute now =>
      if state.locked then none
      else
        some ({ state with locked := true }.goto thread
          (.popItems (state.openRound now) []))
  | .popItems round expiredItems => state.popItem thread round expiredItems top
  | .pushItems round expiredItems =>
      -- the `Push` of the item before has to return first
      if (state.queues.calls thread).isSome then
        (state.queues.step (.advance thread)).map fun queues =>
          { state with queues := queues }
      else state.pushItem thread round expiredItems

/-- A thread that is outside `Reserve` and `Distribute`. -/
def isIdle (state : JobTimer Thread Queue Job) (thread : Thread) : Bool :=
  match state.pcs thread with
  | .idle => true
  | _ => false

def step (state : JobTimer Thread Queue Job) :
    TimerAction Thread Queue Job → Option (JobTimer Thread Queue Job)
  | .reserve thread reservation =>
      if state.isIdle thread ∧ state.queues.mayCall thread then
        some (state.goto thread (.reserve reservation))
      else none
  | .distribute thread now =>
      if state.isIdle thread ∧ state.queues.mayCall thread then
        if state.distributing then some state
        else
          some ({ state with distributing := true }.goto thread
            (.distribute now))
      else none
  | .advance thread top => state.advance thread top
  | .destroy owner =>
      some { state with destroyed := owner :: state.destroyed }
  | .jobs action =>
      if state.isIdle (JobSystem.mover action) then
        (state.queues.step action).map fun queues =>
          { state with queues := queues }
      else none

def initial : JobTimer Thread Queue Job :=
  { items := []
    locked := false
    distributing := false
    destroyed := []
    queues := JobSystem.initial
    pcs := fun _ => .idle
    reserved := []
    pushed := []
    dropped := []
    rounds := [] }

def machine (Thread Queue Job : Type) [DecidableEq Thread]
    [DecidableEq Queue] :
    Machine (JobTimer Thread Queue Job) (TimerAction Thread Queue Job) where
  initial := (· = initial)
  step := step

end JobTimer

end IocpChat
