import IocpChat.Common.Types
import IocpChat.Lib.Transition

/-!
# JobQueue and GlobalQueue

Threads call `JobQueue::Push` and `Clear`, pop queues from the `GlobalQueue` and
execute them.  A step is one atomic operation or one block under a `SpinLock`.
A thread that is inside a job may call `Push` and `Clear` itself, so it has two
program counters: one for the call in progress and one for `Execute`.

`_jobCount` is an `int32`, and no function looks out for its end.  A queue with
`maxPendingJobs` jobs pending takes no more of them here.
-/

namespace IocpChat

open TransitionSystem

/-- A `JobQueue`, with what was pushed, enqueued in `_jobs` and started. -/
structure JobQueue (Thread Job : Type) where
  jobs : List Job
  jobCount : Int
  locked : Bool
  called : List (Thread × Job)
  enqueued : List (Thread × Job)
  executed : List Job

/-- The steps of `Push` after `fetch_add`, and of `Clear` under the lock. -/
inductive CallPhase (Job : Type) where
  | enqueue (job : Job) (prevCount : Int) (pushOnly : Bool)
  | register
  | clear
  deriving DecidableEq, Repr

/-- The steps of `Execute`; `executeList` holds the jobs that have not been
started. -/
inductive ExecutePhase (Job : Type) where
  | takeBatch
  | loop (executeList : List Job) (executedCount : Nat)
  | job (executeList : List Job) (executedCount : Nat)
  | register
  deriving DecidableEq, Repr

structure JobSystem (Thread Queue Job : Type) where
  globalQueue : List Queue
  queues : Queue → JobQueue Thread Job
  calls : Thread → Option (Queue × CallPhase Job)
  executes : Thread → Option (Queue × ExecutePhase Job)

inductive JobAction (Thread Queue Job : Type) where
  | push (thread : Thread) (queue : Queue) (job : Job) (pushOnly : Bool)
  | clear (thread : Thread) (queue : Queue)
  | pop (thread : Thread)
  | advance (thread : Thread)

namespace JobQueue

variable {Thread Job : Type}

def maxExecuteCount : Nat := 64

/-- The most jobs that `_jobCount` can count. -/
def maxPendingJobs : Int := 2 ^ 31 - 1

def empty : JobQueue Thread Job :=
  { jobs := []
    jobCount := 0
    locked := false
    called := []
    enqueued := []
    executed := [] }

/-- The counter is raised before the job is in the list. -/
def fetchAdd (queue : JobQueue Thread Job) (thread : Thread) (job : Job) :
    JobQueue Thread Job :=
  { queue with
    jobCount := int32 (queue.jobCount + 1)
    called := queue.called ++ [(thread, job)] }

def enqueue (queue : JobQueue Thread Job) (thread : Thread) (job : Job) :
    JobQueue Thread Job :=
  { queue with
    jobs := queue.jobs ++ [job]
    enqueued := queue.enqueued ++ [(thread, job)] }

def takeBatch (queue : JobQueue Thread Job) : JobQueue Thread Job :=
  { queue with jobs := queue.jobs.drop maxExecuteCount }

def start (queue : JobQueue Thread Job) (job : Job) : JobQueue Thread Job :=
  { queue with executed := queue.executed ++ [job] }

def fetchSub (queue : JobQueue Thread Job) (executedCount : Nat) :
    JobQueue Thread Job :=
  { queue with jobCount := int32 (queue.jobCount - executedCount) }

theorem zero_le_maxPendingJobs : 0 ≤ maxPendingJobs := by
  decide

theorem fetchAdd_jobCount {queue : JobQueue Thread Job} {thread : Thread}
    {job : Job} (nonneg : 0 ≤ queue.jobCount)
    (notFull : queue.jobCount < maxPendingJobs) :
    (queue.fetchAdd thread job).jobCount = queue.jobCount + 1 := by
  unfold maxPendingJobs at notFull
  exact int32_of_range (by omega) (by omega)

/-- Subtracting a batch that is counted does not wrap. -/
theorem int32_remain {queue : JobQueue Thread Job} {executedCount : Nat}
    (counted : (executedCount : Int) ≤ queue.jobCount)
    (inRange : queue.jobCount ≤ maxPendingJobs) :
    int32 (queue.jobCount - executedCount) =
      queue.jobCount - executedCount := by
  unfold maxPendingJobs at inRange
  exact int32_of_range (by omega) (by omega)

theorem fetchSub_le {queue : JobQueue Thread Job} {executedCount : Nat}
    (remain : int32 (queue.jobCount - executedCount) =
      queue.jobCount - executedCount) :
    (queue.fetchSub executedCount).jobCount ≤ queue.jobCount :=
  remain.trans_le (Int.sub_le_self _ (Int.natCast_nonneg _))

def clearJobs (queue : JobQueue Thread Job) : JobQueue Thread Job :=
  { queue with
    jobs := []
    locked := true }

def resetCount (queue : JobQueue Thread Job) : JobQueue Thread Job :=
  { queue with
    jobCount := 0
    locked := false }

end JobQueue

namespace JobSystem

variable {Thread Queue Job : Type} [DecidableEq Thread] [DecidableEq Queue]

def setQueue (state : JobSystem Thread Queue Job) (queue : Queue)
    (value : JobQueue Thread Job) : JobSystem Thread Queue Job :=
  { state with queues := Function.update state.queues queue value }

def setCall (state : JobSystem Thread Queue Job) (thread : Thread)
    (call : Option (Queue × CallPhase Job)) : JobSystem Thread Queue Job :=
  { state with calls := Function.update state.calls thread call }

def setExecute (state : JobSystem Thread Queue Job) (thread : Thread)
    (execute : Option (Queue × ExecutePhase Job)) :
    JobSystem Thread Queue Job :=
  { state with executes := Function.update state.executes thread execute }

/-- `GlobalQueue::Push`. -/
def register (state : JobSystem Thread Queue Job) (queue : Queue) :
    JobSystem Thread Queue Job :=
  { state with globalQueue := state.globalQueue ++ [queue] }

/-- A thread calls `Push` or `Clear` when it is outside `Execute` or inside a
job. -/
def mayCall (state : JobSystem Thread Queue Job) (thread : Thread) : Bool :=
  (state.calls thread).isNone &&
    match state.executes thread with
    | none => true
    | some (_, .job _ _) => true
    | some _ => false

def advanceCall (state : JobSystem Thread Queue Job) (thread : Thread)
    (queue : Queue) : CallPhase Job → Option (JobSystem Thread Queue Job)
  | .enqueue job prevCount pushOnly =>
      if (state.queues queue).locked then none
      else
        some ((state.setQueue queue
          ((state.queues queue).enqueue thread job)).setCall thread
            (if prevCount = 0 ∧ pushOnly = false then some (queue, .register)
              else none))
  | .register => some ((state.register queue).setCall thread none)
  | .clear =>
      some ((state.setQueue queue (state.queues queue).resetCount).setCall
        thread none)

def advanceExecute (state : JobSystem Thread Queue Job) (thread : Thread)
    (queue : Queue) : ExecutePhase Job → Option (JobSystem Thread Queue Job)
  | .takeBatch =>
      if (state.queues queue).locked then none
      else
        let executeList :=
          (state.queues queue).jobs.take JobQueue.maxExecuteCount
        some ((state.setQueue queue (state.queues queue).takeBatch).setExecute
          thread (some (queue, .loop executeList executeList.length)))
  | .loop (job :: rest) executedCount =>
      some ((state.setQueue queue ((state.queues queue).start job)).setExecute
        thread (some (queue, .job rest executedCount)))
  | .loop [] executedCount =>
      let remain := int32 ((state.queues queue).jobCount - executedCount)
      some ((state.setQueue queue
        ((state.queues queue).fetchSub executedCount)).setExecute thread
          (if 0 < remain then some (queue, .register) else none))
  | .job executeList executedCount =>
      some (state.setExecute thread
        (some (queue, .loop executeList executedCount)))
  | .register => some ((state.register queue).setExecute thread none)

def step (state : JobSystem Thread Queue Job) :
    JobAction Thread Queue Job → Option (JobSystem Thread Queue Job)
  | .push thread queue job pushOnly =>
      if state.mayCall thread ∧
          (state.queues queue).jobCount < JobQueue.maxPendingJobs then
        let prevCount := (state.queues queue).jobCount
        some ((state.setQueue queue
          ((state.queues queue).fetchAdd thread job)).setCall thread
            (some (queue, .enqueue job prevCount pushOnly)))
      else none
  | .clear thread queue =>
      if state.mayCall thread ∧ (state.queues queue).locked = false then
        some ((state.setQueue queue (state.queues queue).clearJobs).setCall
          thread (some (queue, .clear)))
      else none
  | .pop thread =>
      if (state.calls thread).isNone ∧ (state.executes thread).isNone then
        match state.globalQueue with
        | [] => some state
        | queue :: rest =>
            -- the caller goes on to `Execute` the queue it got
            some ({ state with globalQueue := rest }.setExecute thread
              (some (queue, .takeBatch)))
      else none
  | .advance thread =>
      match state.calls thread with
      | some (queue, phase) => state.advanceCall thread queue phase
      | none =>
          match state.executes thread with
          | some (queue, phase) => state.advanceExecute thread queue phase
          | none => none

def initial : JobSystem Thread Queue Job :=
  { globalQueue := []
    queues := fun _ => .empty
    calls := fun _ => none
    executes := fun _ => none }

def machine (Thread Queue Job : Type) [DecidableEq Thread]
    [DecidableEq Queue] :
    Machine (JobSystem Thread Queue Job) (JobAction Thread Queue Job) where
  initial := (· = initial)
  step := step

end JobSystem

end IocpChat
