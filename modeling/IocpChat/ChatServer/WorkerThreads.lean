import IocpChat.ChatServer.ChatServer
import IocpChat.Job.JobQueue

/-!
# Worker threads

The chat server as its threads run it.  A worker takes completions, which hand
it a packet or call `OnDisconnected`, and then queues from the `GlobalQueue`; a
`PushJob` is the call of `JobQueue::Push`, and a job of the worker's batch runs
from its start, phase by phase, to its end.  The next packet of a session may
come to any thread once the job of the one before is in the queue.

`chat` has the sessions, the rooms and what was sent.  The lines of jobs in it
stay empty: the jobs are in `queues`.
-/

namespace IocpChat

open Protocol TransitionSystem

/-- What a thread runs outside of jobs. -/
inductive WorkerTask (Session : Type) where
  | handlePacket (session : Session)
  | onDisconnected (session : Session)
  deriving DecidableEq, Repr

structure WorkerServer (Thread Session : Type) where
  chat : ChatServer Session
  queues : JobSystem Thread RoomId (Session × RoomJob)
  tasks : Thread → Option (WorkerTask Session)
  phases : Thread → Option (Session × JobPhase)

inductive WorkerAction (Thread Session : Type) where
  | packet (thread : Thread) (session : Session) (packet : Packet)
      (tick : UInt64)
  | disconnect (thread : Thread) (session : Session)
  | pop (thread : Thread)
  | advance (thread : Thread)

namespace WorkerServer

variable {Thread Session : Type} [DecidableEq Thread] [DecidableEq Session]

def setTask (state : WorkerServer Thread Session) (thread : Thread)
    (task : Option (WorkerTask Session)) : WorkerServer Thread Session :=
  { state with tasks := Function.update state.tasks thread task }

def setPhase (state : WorkerServer Thread Session) (thread : Thread)
    (phase : Option (Session × JobPhase)) : WorkerServer Thread Session :=
  { state with phases := Function.update state.phases thread phase }

def setChat (state : WorkerServer Thread Session) (chat : ChatServer Session) :
    WorkerServer Thread Session :=
  { state with chat := chat }

def setQueues (state : WorkerServer Thread Session)
    (queues : JobSystem Thread RoomId (Session × RoomJob)) :
    WorkerServer Thread Session :=
  { state with queues := queues }

/-- The thread is in its loop, between `Dispatch` and `Pop`. -/
def idle (state : WorkerServer Thread Session) (thread : Thread) : Bool :=
  (state.tasks thread).isNone && (state.queues.calls thread).isNone &&
    (state.queues.executes thread).isNone

/-- The thread goes on with the session's handler as long as there is one. -/
def handling (state : WorkerServer Thread Session) (thread : Thread)
    (session : Session) (chat : ChatServer Session) :
    WorkerServer Thread Session :=
  (state.setChat chat).setTask thread
    (if (chat.sessions session).handler = none then none
      else some (.handlePacket session))

/-- A step of the thread in `JobQueue` and `GlobalQueue`. -/
def queueStep (state : WorkerServer Thread Session)
    (action : JobAction Thread RoomId (Session × RoomJob)) :
    Option (WorkerServer Thread Session) :=
  (state.queues.step action).map state.setQueues

/-- The job is in the queue; what called `PushJob` goes on behind it. -/
def pushed (state : WorkerServer Thread Session) (thread : Thread) :
    WorkerServer Thread Session :=
  match state.tasks thread with
  | some (.handlePacket session) =>
      (state.setChat (state.chat.setHandler session none)).setTask thread none
  | some (.onDisconnected session) =>
      state.setChat (state.chat.setDisconnecting session .clearRoom)
  | none => state.setPhase thread none

section Pushed

variable {state : WorkerServer Thread Session} {thread : Thread}
  {session : Session}

theorem pushed_of_handlePacket
    (task : state.tasks thread = some (.handlePacket session)) :
    state.pushed thread =
      (state.setChat (state.chat.setHandler session none)).setTask thread
        none := by
  rw [pushed, task]

theorem pushed_of_onDisconnected
    (task : state.tasks thread = some (.onDisconnected session)) :
    state.pushed thread =
      state.setChat (state.chat.setDisconnecting session .clearRoom) := by
  rw [pushed, task]

theorem pushed_of_none (noTask : state.tasks thread = none) :
    state.pushed thread = state.setPhase thread none := by
  rw [pushed, noTask]

end Pushed

/-- The next step of a handler or of `OnDisconnected`. -/
def advanceTask (state : WorkerServer Thread Session) (thread : Thread) :
    WorkerTask Session → Option (WorkerServer Thread Session)
  | .handlePacket session =>
      match (state.chat.sessions session).handler with
      | some (.push room job) =>
          state.queueStep (.push thread room (session, job) false)
      | some (.readRoom targetRoom) =>
          some (state.handling thread session
            (state.chat.advanceHandler session (.readRoom targetRoom)))
      | none => none
  | .onDisconnected session =>
      match (state.chat.sessions session).disconnecting with
      | .pushLeave room =>
          state.queueStep (.push thread room (session, .leave) false)
      | phase =>
          (state.chat.advanceDisconnect session phase).map fun chat =>
            (state.setChat chat).setTask thread none

/-- A phase of a job, which says what the next one is. -/
def runPhase (state : WorkerServer Thread Session) (thread : Thread)
    (room : RoomId) (session : Session) (phase : JobPhase) :
    WorkerServer Thread Session :=
  let chat := state.chat.advanceJob room session phase
  (state.setChat (chat.run room none)).setPhase thread
    (chat.rooms room).running

/-- The next step of a job. -/
def advancePhase (state : WorkerServer Thread Session) (thread : Thread)
    (room : RoomId) (session : Session) :
    JobPhase → Option (WorkerServer Thread Session)
  | .pushEnter targetRoom =>
      state.queueStep (.push thread targetRoom (session, .enter) false)
  | phase => some (state.runPhase thread room session phase)

/-- The next step of a thread that is inside `Execute`. -/
def advanceExecute (state : WorkerServer Thread Session) (thread : Thread)
    (room : RoomId) :
    ExecutePhase (Session × RoomJob) → Option (WorkerServer Thread Session)
  | .loop ((session, job) :: _) _ =>
      (state.queueStep (.advance thread)).map fun next =>
        next.setPhase thread (some (session, job.firstPhase))
  | .job _ _ =>
      match state.phases thread with
      | some (session, phase) => state.advancePhase thread room session phase
      | none => state.queueStep (.advance thread)
  | _ => state.queueStep (.advance thread)

def step (state : WorkerServer Thread Session) :
    WorkerAction Thread Session → Option (WorkerServer Thread Session)
  | .packet thread session packet tick =>
      if state.idle thread = true ∧
          (state.chat.sessions session).handler = none then
        (state.chat.handlePacket session tick packet).map
          (state.handling thread session)
      else none
  | .disconnect thread session =>
      if state.idle thread = true then
        (state.chat.step (.disconnect session)).map fun chat =>
          (state.setChat chat).setTask thread
            (if (chat.sessions session).disconnecting = .disconnected then none
              else some (.onDisconnected session))
      else none
  | .pop thread =>
      if (state.tasks thread).isNone then state.queueStep (.pop thread)
      else none
  | .advance thread =>
      match state.queues.calls thread with
      | some (_, .enqueue _ _ _) =>
          (state.queueStep (.advance thread)).map fun next =>
            next.pushed thread
      | some _ => state.queueStep (.advance thread)
      | none =>
          match state.queues.executes thread with
          | some (room, phase) => state.advanceExecute thread room phase
          | none => (state.tasks thread).bind (state.advanceTask thread)

def initial : WorkerServer Thread Session :=
  { chat := .initial
    queues := .initial
    tasks := fun _ => none
    phases := fun _ => none }

def machine (Thread Session : Type) [DecidableEq Thread]
    [DecidableEq Session] :
    Machine (WorkerServer Thread Session) (WorkerAction Thread Session) where
  initial := (· = initial)
  step := step

end WorkerServer

end IocpChat
