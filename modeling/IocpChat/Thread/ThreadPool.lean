import IocpChat.Lib.Transition

/-!
# The thread pool

The code between two operations on `_queueLock` is one step.  `_cv.wait` tests
its predicate with the lock held and gives the lock up in the same step in which
it begins to wait; a worker that is woken tests it again.  Tasks may call
`Enqueue` themselves.
-/

namespace IocpChat

open TransitionSystem

/-- Where a worker stands in `WorkerLoop`; in `checking` it is about to take the
lock and test the predicate. -/
inductive WorkerPc (Task : Type) where
  | checking
  | waiting
  | taken (task : Task)
  | running (task : Task)
  | ran
  | returned
  deriving DecidableEq, Repr

namespace WorkerPc

variable {Task : Type}

def waits : WorkerPc Task → Bool
  | waiting => true
  | _ => false

def hasReturned : WorkerPc Task → Bool
  | returned => true
  | _ => false

/-- After `notify_all`. -/
def notified : WorkerPc Task → WorkerPc Task
  | waiting => checking
  | pc => pc

end WorkerPc

/-- Where the `Stop` stands that has set `_stop`; `joining` is the index of the
worker it joins next. -/
inductive StopPc where
  | notCalled
  | notifyAll
  | joining (index : Nat)
  | returned
  deriving DecidableEq, Repr

/-- `notifying` counts the calls of `Enqueue` between the unlock and
`notify_one`.  The last four fields are the history: the tasks that were
accepted, taken from the queue, begun and finished. -/
structure ThreadPool (Task : Type) (threadCount : Nat) where
  tasks : List Task
  stop : Bool
  busyThreads : UInt32
  workers : Fin threadCount → WorkerPc Task
  notifying : Nat
  stopPc : StopPc
  accepted : List Task
  taken : List Task
  started : List Task
  finished : List Task

/-- `woken` is the worker that `notify_one` wakes; `wake` is spurious. -/
inductive PoolAction (Task : Type) (threadCount : Nat) where
  | enqueue (task : Task)
  | notifyOne (woken : Option (Fin threadCount))
  | wake (worker : Fin threadCount)
  | advance (worker : Fin threadCount)
  | callStop
  | advanceStop

/-- What the pool does by itself, once the calls have been made. -/
def PoolAction.internal {Task : Type} {threadCount : Nat} :
    PoolAction Task threadCount → Bool
  | notifyOne _ => true
  | advance _ => true
  | advanceStop => true
  | _ => false

namespace ThreadPool

variable {Task : Type} {threadCount : Nat}

def goto (pool : ThreadPool Task threadCount) (worker : Fin threadCount)
    (pc : WorkerPc Task) : ThreadPool Task threadCount :=
  { pool with workers := Function.update pool.workers worker pc }

/-- `Enqueue` up to the unlock. -/
def enqueue (pool : ThreadPool Task threadCount) (task : Task) :
    ThreadPool Task threadCount :=
  if pool.stop then pool
  else
    { pool with
      tasks := pool.tasks ++ [task]
      notifying := pool.notifying + 1
      accepted := pool.accepted ++ [task] }

/-- `notify_one` wakes a worker if there is one to wake. -/
def notifyOne (pool : ThreadPool Task threadCount) :
    Option (Fin threadCount) → Option (ThreadPool Task threadCount)
  | none =>
      if pool.notifying ≠ 0 ∧
          ∀ worker, (pool.workers worker).waits = false then
        some { pool with notifying := pool.notifying - 1 }
      else none
  | some worker =>
      if pool.notifying ≠ 0 ∧ (pool.workers worker).waits = true then
        some ({ pool with notifying := pool.notifying - 1 }.goto worker
          .checking)
      else none

/-- The block of `WorkerLoop` that holds `_queueLock`. -/
def check (pool : ThreadPool Task threadCount) (worker : Fin threadCount) :
    ThreadPool Task threadCount :=
  match pool.tasks with
  | [] => pool.goto worker (if pool.stop then .returned else .waiting)
  | task :: rest =>
      { pool with
        tasks := rest
        taken := pool.taken ++ [task] }.goto worker (.taken task)

/-- The next step of a worker; one in `_cv.wait` has none. -/
def advance (pool : ThreadPool Task threadCount) (worker : Fin threadCount) :
    Option (ThreadPool Task threadCount) :=
  match pool.workers worker with
  | .checking => some (pool.check worker)
  | .waiting => none
  | .taken task =>
      some ({ pool with
        busyThreads := pool.busyThreads + 1
        started := pool.started ++ [task] }.goto worker (.running task))
  | .running task =>
      some ({ pool with finished := pool.finished ++ [task] }.goto worker
        .ran)
  | .ran =>
      some ({ pool with busyThreads := pool.busyThreads - 1 }.goto worker
        .checking)
  | .returned => none

/-- `Stop` up to the unlock. -/
def callStop (pool : ThreadPool Task threadCount) :
    ThreadPool Task threadCount :=
  if pool.stop then pool
  else
    { pool with
      stop := true
      stopPc := .notifyAll }

/-- The rest of `Stop`; `join` waits for the worker to return. -/
def advanceStop (pool : ThreadPool Task threadCount) :
    Option (ThreadPool Task threadCount) :=
  match pool.stopPc with
  | .notCalled => none
  | .notifyAll =>
      some { pool with
        workers := fun worker => (pool.workers worker).notified
        stopPc := .joining 0 }
  | .joining index =>
      if inRange : index < threadCount then
        if (pool.workers ⟨index, inRange⟩).hasReturned then
          some { pool with stopPc := .joining (index + 1) }
        else none
      else some { pool with stopPc := .returned }
  | .returned => none

def step (pool : ThreadPool Task threadCount) :
    PoolAction Task threadCount → Option (ThreadPool Task threadCount)
  | .enqueue task => some (pool.enqueue task)
  | .notifyOne woken => pool.notifyOne woken
  | .wake worker =>
      if (pool.workers worker).waits then some (pool.goto worker .checking)
      else none
  | .advance worker => pool.advance worker
  | .callStop => some pool.callStop
  | .advanceStop => pool.advanceStop

/-- `Start` has made its threads; `tasks` were enqueued before. -/
def initial (tasks : List Task) : ThreadPool Task threadCount :=
  { tasks := tasks
    stop := false
    busyThreads := 0
    workers := fun _ => .checking
    notifying := 0
    stopPc := .notCalled
    accepted := tasks
    taken := []
    started := []
    finished := [] }

def machine (Task : Type) (threadCount : Nat) :
    Machine (ThreadPool Task threadCount) (PoolAction Task threadCount) where
  initial pool := ∃ tasks, pool = initial tasks
  step := step

end ThreadPool

end IocpChat
