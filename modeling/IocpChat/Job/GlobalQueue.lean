import IocpChat.Common.Types
import IocpChat.Job.JobQueue
import IocpChat.Lock.SpinLock

/-!
# GlobalQueue under its lock

The bodies of `Push`, `Pop` and `GetCount`, operation by operation on the
`std::queue` they share.  With the `SpinLock` around them they are the queue
that the steps of `JobSystem` take for granted: each call happens at one moment
between its start and its return, what goes in comes out once and in that order,
and `front` and `pop` never meet an empty queue.
-/

namespace IocpChat

open TransitionSystem Linearizability

inductive GlobalQueueCall (Queue : Type) where
  | push (jobQueue : Queue)
  | pop
  | getCount
  deriving DecidableEq

/-- The operation of the `std::queue` that comes next. -/
inductive GlobalQueueFrame (Queue : Type) where
  | push (jobQueue : Queue)
  | empty
  | front
  | pop (jobQueue : Queue)
  | size
  deriving DecidableEq

/-- `none` is the `nullptr`. -/
inductive GlobalQueueResult (Queue : Type) where
  | void
  | jobQueue (jobQueue : Option Queue)
  | count (count : Int)
  deriving DecidableEq

namespace GlobalQueue

variable {Thread Queue : Type}

def start : GlobalQueueCall Queue → GlobalQueueFrame Queue
  | .push jobQueue => .push jobQueue
  | .pop => .empty
  | .getCount => .size

/-- `front` and `pop` of an empty queue have no meaning. -/
def advance (jobQueues : List Queue) : GlobalQueueFrame Queue →
    Option (List Queue × (GlobalQueueFrame Queue ⊕ GlobalQueueResult Queue))
  | .push jobQueue => some (jobQueues ++ [jobQueue], .inr .void)
  | .empty =>
      some (jobQueues,
        if jobQueues.isEmpty then .inr (.jobQueue none) else .inl .front)
  | .front => jobQueues.head?.map fun jobQueue =>
      (jobQueues, .inl (.pop jobQueue))
  | .pop jobQueue =>
      if jobQueues.isEmpty then none
      else some (jobQueues.tail, .inr (.jobQueue (some jobQueue)))
  | .size => some (jobQueues, .inr (.count (int32 jobQueues.length)))

def methods (Queue : Type) :
    Methods (List Queue) (GlobalQueueCall Queue) (GlobalQueueFrame Queue)
      (GlobalQueueResult Queue) where
  start := start
  advance := advance

/-- A first-in first-out queue. -/
def fifo (jobQueues : List Queue) :
    GlobalQueueCall Queue → List Queue × GlobalQueueResult Queue
  | .push jobQueue => (jobQueues ++ [jobQueue], .void)
  | .pop => (jobQueues.tail, .jobQueue jobQueues.head?)
  | .getCount => (jobQueues, .count (int32 jobQueues.length))

def Fifo (jobQueues : List Queue) (call : GlobalQueueCall Queue)
    (next : List Queue) (result : GlobalQueueResult Queue) : Prop :=
  fifo jobQueues call = (next, result)

/-- A body changes the queue with its last operation, and `pop` follows a
`front` that found something. -/
def Underway (jobQueues : List Queue) : GlobalQueueCall Queue →
    GlobalQueueFrame Queue → Prop
  | .push pushed, frame => frame = .push pushed
  | .pop, frame =>
      frame = .empty ∨ (frame = .front ∧ jobQueues ≠ []) ∨
        ∃ first, frame = .pop first ∧ jobQueues.head? = some first
  | .getCount, frame => frame = .size

theorem gets_underway {jobQueues now : List Queue}
    {call : GlobalQueueCall Queue} {frame : GlobalQueueFrame Queue}
    (gets : (methods Queue).Gets jobQueues call now frame) :
    now = jobQueues ∧ Underway jobQueues call frame := by
  induction gets with
  | start =>
      refine ⟨rfl, ?_⟩
      cases call with
      | push pushed => rfl
      | pop => exact Or.inl rfl
      | getCount => rfl
  | @step before after frame next gets advanced induction =>
      obtain ⟨rfl, underway⟩ := induction
      cases call with
      | push pushed =>
          cases underway
          cases advanced
      | getCount =>
          cases underway
          cases advanced
      | pop =>
          rcases underway with rfl | ⟨rfl, some_⟩ | ⟨first, rfl, found⟩
          · cases before with
            | nil => cases advanced
            | cons first rest =>
                cases advanced
                refine ⟨rfl, Or.inr (Or.inl ⟨rfl, ?_⟩)⟩
                exact List.cons_ne_nil first rest
          · cases before with
            | nil => exact absurd rfl some_
            | cons first rest =>
                cases advanced
                exact ⟨rfl, Or.inr (Or.inr ⟨first, rfl, rfl⟩)⟩
          · cases before with
            | nil => cases found
            | cons first rest => cases advanced

/-- No operation of a body is without meaning. -/
theorem advance_isSome {jobQueues : List Queue}
    {call : GlobalQueueCall Queue} {frame : GlobalQueueFrame Queue}
    (underway : Underway jobQueues call frame) :
    (advance jobQueues frame).isSome = true := by
  cases call with
  | push pushed =>
      cases underway
      rfl
  | getCount =>
      cases underway
      rfl
  | pop =>
      rcases underway with rfl | ⟨rfl, some_⟩ | ⟨first, rfl, found⟩
      · rfl
      · cases jobQueues with
        | nil => exact absurd rfl some_
        | cons first rest => rfl
      · cases jobQueues with
        | nil => cases found
        | cons first rest => rfl

theorem performs_fifo {jobQueues next : List Queue}
    {call : GlobalQueueCall Queue} {result : GlobalQueueResult Queue}
    (performs : (methods Queue).Performs jobQueues call next result) :
    Fifo jobQueues call next result := by
  obtain ⟨now, frame, gets, ended⟩ := performs
  obtain ⟨rfl, underway⟩ := gets_underway gets
  cases call with
  | push pushed =>
      cases underway
      cases ended
      rfl
  | getCount =>
      cases underway
      cases ended
      rfl
  | pop =>
      rcases underway with rfl | ⟨rfl, some_⟩ | ⟨first, rfl, found⟩
      · cases now with
        | nil =>
            cases ended
            rfl
        | cons first rest => cases ended
      · cases now with
        | nil => exact absurd rfl some_
        | cons first rest => cases ended
      · cases now with
        | nil => cases found
        | cons first rest =>
            cases found
            cases ended
            rfl

/-- The queues that went in. -/
def pushed (order : List (Operation Thread (GlobalQueueCall Queue)
    (GlobalQueueResult Queue))) : List Queue :=
  order.filterMap fun operation =>
    match operation.call with
    | .push jobQueue => some jobQueue
    | _ => none

/-- The queues that came out. -/
def popped (order : List (Operation Thread (GlobalQueueCall Queue)
    (GlobalQueueResult Queue))) : List Queue :=
  order.filterMap fun operation =>
    match operation.result with
    | .jobQueue jobQueue => jobQueue
    | _ => none

theorem pushed_eq {start data : List Queue}
    {order : List (Operation Thread (GlobalQueueCall Queue)
      (GlobalQueueResult Queue))}
    (runs : RunsInOrder Fifo start order data) :
    start ++ pushed order = popped order ++ data := by
  induction runs with
  | nothing => simp [pushed, popped]
  | @next order data next operation runs performs induction =>
      obtain ⟨thread, call, result⟩ := operation
      cases call with
      | push jobQueue =>
          cases performs
          simp only [pushed, popped] at induction
          simp [pushed, popped, ← List.append_assoc, induction]
      | getCount =>
          cases performs
          simpa [pushed, popped] using induction
      | pop =>
          cases performs
          cases data with
          | nil => simpa [pushed, popped] using induction
          | cons first rest => simpa [pushed, popped] using induction

variable [DecidableEq Thread]

/-- What the threads see of the queue is what a queue of its own would show
them. -/
structure Atomic (state : GuardedObject Thread (List Queue)
      (GlobalQueueCall Queue) (GlobalQueueFrame Queue)
      (GlobalQueueResult Queue))
    (history : List (Event Thread (GlobalQueueCall Queue)
      (GlobalQueueResult Queue))) : Prop where
  exclusive : ∀ first second, (state.pcs first).holds = true →
    (state.pcs second).holds = true → first = second
  locked : state.locked = true ↔ ∃ thread, (state.pcs thread).holds = true
  defined : ∀ thread frame, state.pcs thread = .inside frame →
    (advance state.data frame).isSome = true
  linearizes : ∃ order statuses data,
    Linearizes Fifo [] history order statuses data ∧
      pushed order = popped order ++ data ∧
      (state.locked = false → state.data = data)

/-- For any interleaving of any number of threads. -/
theorem reachable_atomic
    {state : GuardedObject Thread (List Queue) (GlobalQueueCall Queue)
      (GlobalQueueFrame Queue) (GlobalQueueResult Queue)}
    {history : List (Event Thread (GlobalQueueCall Queue)
      (GlobalQueueResult Queue))}
    (reached : (GuardedObject.observed (methods Queue) []).Reachable
      (state, history)) : Atomic state history := by
  obtain ⟨order, statuses, data, holder, inv⟩ :=
    GuardedObject.reachable_linearized reached
  have linearizes : Linearizes Fifo [] history order statuses data :=
    inv.linearizes.mono performs_fifo
  refine
    { exclusive := ?_
      locked := ?_
      defined := ?_
      linearizes := ⟨order, statuses, data, linearizes, ?_, ?_⟩ }
  · intro first second firstHolds secondHolds
    have same := (inv.holds first).mp firstHolds
    rw [(inv.holds second).mp secondHolds] at same
    exact (Option.some.inj same).symm
  · rw [inv.locked, Option.isSome_iff_exists]
    exact exists_congr fun thread => (inv.holds thread).symm
  · intro thread frame inside
    have agrees := inv.agrees thread
    rw [inside] at agrees
    obtain ⟨call, _, gets⟩ := agrees
    obtain ⟨same, underway⟩ := gets_underway gets
    rw [same]
    exact advance_isSome underway
  · exact pushed_eq linearizes.runsInOrder
  · intro free
    apply inv.untouched
    intro thread frame inside
    have holds := inv.holds thread
    rw [inside] at holds
    rw [inv.locked, holds.mp rfl] at free
    cases free

/-- `Pop` waits for the lock while another thread pushes. -/
def pushAndPop : List (GuardAction Bool (GlobalQueueCall Nat)) :=
  [.call true (.push 7), .call false .pop, .advance true, .advance false,
    .advance true, .advance false, .advance true, .advance true,
    .advance false, .advance false, .advance false, .advance false,
    .advance false, .advance false, .advance false]

/-- It gets what was pushed. -/
theorem pushAndPop_atomic :
    ∃ state, Atomic state
      [.called true (.push 7), .called false .pop, .returned true .void,
        .returned false (.jobQueue (some (7 : Nat)))] := by
  obtain ⟨⟨state, history⟩, replayed⟩ := Option.isSome_iff_exists.mp
    (show ((GuardedObject.observed (methods Nat) []).run
      (GuardedObject.initial [], []) pushAndPop).isSome = true by decide)
  have seen : history = [.called true (.push 7), .called false .pop,
      .returned true .void, .returned false (.jobQueue (some 7))] := by
    apply @Machine.view_of_run _ _ _ _ _ _ _ Prod.snd _ replayed
    rfl
  subst seen
  refine ⟨state, reachable_atomic ?_⟩
  exact @Machine.Reachable.of_run _ _ _ (GuardedObject.initial [], []) _ _
    (.start ⟨rfl, rfl⟩) replayed

end GlobalQueue

namespace JobSystem

variable {Thread Queue Job : Type} [DecidableEq Thread] [DecidableEq Queue]

omit [DecidableEq Thread] [DecidableEq Queue] in
theorem register_fifo {state : JobSystem Thread Queue Job} {queue : Queue} :
    GlobalQueue.Fifo state.globalQueue (.push queue)
      (state.register queue).globalQueue .void :=
  rfl

/-- A worker goes on with what its `Pop` returned. -/
theorem pop_fifo {state next : JobSystem Thread Queue Job} {thread : Thread}
    (stepped : state.step (.pop thread) = some next) :
    GlobalQueue.Fifo state.globalQueue .pop next.globalQueue
      (.jobQueue ((next.executes thread).map Prod.fst)) := by
  simp only [step] at stepped
  split at stepped
  · rename_i outside
    split at stepped
    · rename_i empty
      cases stepped
      have nothing : state.executes thread = none := by
        simpa using outside.2
      rw [empty, nothing]
      rfl
    · rename_i queue rest found
      cases stepped
      simp [GlobalQueue.Fifo, GlobalQueue.fifo, found, setExecute]
  · cases stepped

end JobSystem

end IocpChat
