import IocpChat.ChatServer.Room
import IocpChat.Job.JobQueue
import IocpChat.Network.SessionSend

/-!
# Broadcasts of rooms

Workers execute the jobs of the rooms.  A job sends to sessions, and `Broadcast`
calls `Send` for one member after another; meanwhile other threads push jobs,
send to the same sessions and take completions.  The queues are those of
`JobSystem`, the sessions those of `SessionSend`.

Nothing here depends on what a packet says, so its bytes come with the action
that builds it, and `_room` is left out.  Beside each accepted buffer `log`
keeps where it came from.
-/

namespace IocpChat

open TransitionSystem

/-- The statements of the jobs of a room. -/
inductive RoomStatement (Session : Type) where
  | insertMember (session : Session)
  | eraseMember (session : Session)
  | send (session : Session)
  | broadcast
  | pushEnter (targetRoom : RoomId) (session : Session)

def RoomJob.body {Session : Type} (session : Session) :
    RoomJob → List (RoomStatement Session)
  | enter => [.insertMember session, .send session, .broadcast]
  | leave => [.eraseMember session, .send session, .broadcast]
  | leaveAndEnter targetRoom =>
      [.eraseMember session, .send session, .broadcast,
        .pushEnter targetRoom session]
  | handleChat _ => [.broadcast]

/-- A buffer on its way to sessions: to the one whose `Send` has been called and
to the others after it.  A broadcast has a number in its room. -/
structure Delivery (Session : Type) where
  number : Option Nat
  sendBuffer : SendBufferRef
  target : Option Session
  targets : List Session

/-- A buffer that a session has accepted, and the broadcast it came from. -/
structure LogEntry where
  source : Option (RoomId × Nat)
  sendBuffer : SendBufferRef

structure RoomSystem (Thread Session : Type) where
  queues : JobSystem Thread RoomId (Session × RoomJob)
  members : RoomId → List Session
  broadcasts : RoomId → List SendBufferRef
  statements : Thread → List (RoomStatement Session)
  deliveries : Thread → Option (Delivery Session)
  sends : Session → SessionSend Thread
  log : Session → List LogEntry

/-- `push` and `call` are what threads do outside of jobs; `run` takes the next
statement of a job and `deliver` a step of its `Send` or `Broadcast`. -/
inductive RoomAction (Thread Session : Type) where
  | push (thread : Thread) (room : RoomId) (session : Session) (job : RoomJob)
  | pop (thread : Thread)
  | advance (thread : Thread)
  | run (thread : Thread) (sendBuffer : SendBufferRef)
  | deliver (thread : Thread)
  | call (session : Session) (thread : Thread) (call : SendCall)
  | disconnect (session : Session)
  | complete (session : Session) (thread : Thread) (index numOfBytes : Nat)
  | send (session : Session) (thread : Thread) (result : WSASendResult)

namespace RoomSystem

variable {Thread Session : Type}

def setMembers (state : RoomSystem Thread Session) (room : RoomId)
    (members : List Session) : RoomSystem Thread Session :=
  { state with members := Function.update state.members room members }

def addBroadcast (state : RoomSystem Thread Session) (room : RoomId)
    (sendBuffer : SendBufferRef) : RoomSystem Thread Session :=
  { state with
    broadcasts := Function.update state.broadcasts room
      (state.broadcasts room ++ [sendBuffer]) }

@[simp] theorem setMembers_self (state : RoomSystem Thread Session)
    (room : RoomId) (members : List Session) :
    (state.setMembers room members).members room = members :=
  Function.update_self ..

theorem setMembers_other (state : RoomSystem Thread Session)
    {room other : RoomId} (different : other ≠ room)
    (members : List Session) :
    (state.setMembers room members).members other = state.members other :=
  Function.update_of_ne different ..

@[simp] theorem addBroadcast_self (state : RoomSystem Thread Session)
    (room : RoomId) (sendBuffer : SendBufferRef) :
    (state.addBroadcast room sendBuffer).broadcasts room =
      state.broadcasts room ++ [sendBuffer] :=
  Function.update_self ..

theorem addBroadcast_other (state : RoomSystem Thread Session)
    {room other : RoomId} (different : other ≠ room)
    (sendBuffer : SendBufferRef) :
    (state.addBroadcast room sendBuffer).broadcasts other =
      state.broadcasts other :=
  Function.update_of_ne different ..

/-- A thread that is not in the middle of a job. -/
def finished (state : RoomSystem Thread Session) (thread : Thread) : Bool :=
  (state.statements thread).isEmpty && (state.deliveries thread).isNone

theorem finished_iff {state : RoomSystem Thread Session} {thread : Thread} :
    state.finished thread = true ↔
      state.statements thread = [] ∧ state.deliveries thread = none := by
  simp [finished]

section Sessions

variable [DecidableEq Session]

def setSend (state : RoomSystem Thread Session) (session : Session)
    (send : SessionSend Thread) : RoomSystem Thread Session :=
  { state with sends := Function.update state.sends session send }

def addLog (state : RoomSystem Thread Session) (session : Session)
    (entries : List LogEntry) : RoomSystem Thread Session :=
  { state with
    log := Function.update state.log session
      (state.log session ++ entries) }

@[simp] theorem setSend_self (state : RoomSystem Thread Session)
    (session : Session) (send : SessionSend Thread) :
    (state.setSend session send).sends session = send :=
  Function.update_self ..

theorem setSend_other (state : RoomSystem Thread Session)
    {session other : Session} (different : other ≠ session)
    (send : SessionSend Thread) :
    (state.setSend session send).sends other = state.sends other :=
  Function.update_of_ne different ..

@[simp] theorem addLog_self (state : RoomSystem Thread Session)
    (session : Session) (entries : List LogEntry) :
    (state.addLog session entries).log session =
      state.log session ++ entries :=
  Function.update_self ..

theorem addLog_other (state : RoomSystem Thread Session)
    {session other : Session} (different : other ≠ session)
    (entries : List LogEntry) :
    (state.addLog session entries).log other = state.log other :=
  Function.update_of_ne different ..

end Sessions

variable [DecidableEq Thread]

def setStatements (state : RoomSystem Thread Session) (thread : Thread)
    (statements : List (RoomStatement Session)) : RoomSystem Thread Session :=
  { state with
    statements := Function.update state.statements thread statements }

def setDelivery (state : RoomSystem Thread Session) (thread : Thread)
    (delivery : Option (Delivery Session)) : RoomSystem Thread Session :=
  { state with
    deliveries := Function.update state.deliveries thread delivery }

@[simp] theorem setDelivery_self (state : RoomSystem Thread Session)
    (thread : Thread) (delivery : Option (Delivery Session)) :
    (state.setDelivery thread delivery).deliveries thread = delivery :=
  Function.update_self ..

theorem setDelivery_other (state : RoomSystem Thread Session)
    {thread other : Thread} (different : other ≠ thread)
    (delivery : Option (Delivery Session)) :
    (state.setDelivery thread delivery).deliveries other =
      state.deliveries other :=
  Function.update_of_ne different ..

variable [DecidableEq Session]

def onQueues (state : RoomSystem Thread Session)
    (action : JobAction Thread RoomId (Session × RoomJob)) :
    Option (RoomSystem Thread Session) :=
  (state.queues.step action).map fun queues => { state with queues := queues }

def onSession (state : RoomSystem Thread Session) (session : Session)
    (action : SendAction Thread) : Option (RoomSystem Thread Session) :=
  ((state.sends session).step action).map (state.setSend session)

/-- Which broadcast the thread is delivering to the session. -/
def source (state : RoomSystem Thread Session) (session : Session)
    (thread : Thread) : Option (RoomId × Nat) :=
  match state.deliveries thread, state.queues.executes thread with
  | some delivery, some (room, _) =>
      if delivery.target = some session then
        delivery.number.map fun number => (room, number)
      else none
  | _, _ => none

/-- A step of `Send`, `RegisterSend` or `ProcessSend`. -/
def advanceSend (state : RoomSystem Thread Session) (session : Session)
    (thread : Thread) (result : WSASendResult) :
    Option (RoomSystem Thread Session) :=
  ((state.sends session).step (.advance thread result)).map fun next =>
    let accepted := next.accepted.drop (state.sends session).accepted.length
    (state.setSend session next).addLog session
      (accepted.map fun sendBuffer =>
        { source := state.source session thread
          sendBuffer := sendBuffer })

/-- A worker returns from a job when it has run it, and starts the next. -/
def advanceQueues (state : RoomSystem Thread Session) (thread : Thread) :
    Option (RoomSystem Thread Session) :=
  match state.queues.calls thread, state.queues.executes thread with
  | none, some (_, .job _ _) =>
      if state.finished thread then state.onQueues (.advance thread) else none
  | none, some (_, .loop ((session, job) :: _) _) =>
      (state.onQueues (.advance thread)).map fun next =>
        next.setStatements thread (job.body session)
  | _, _ => state.onQueues (.advance thread)

def runStatement (state : RoomSystem Thread Session) (thread : Thread)
    (room : RoomId) (sendBuffer : SendBufferRef) :
    RoomStatement Session → Option (RoomSystem Thread Session)
  | .insertMember session =>
      let members := state.members room
      some (state.setMembers room
        (if session ∈ members then members else members ++ [session]))
  | .eraseMember session =>
      some (state.setMembers room
        ((state.members room).filter (· ≠ session)))
  | .send session =>
      some (state.setDelivery thread
        (some
          { number := none
            sendBuffer := sendBuffer
            target := none
            targets := [session] }))
  | .broadcast =>
      some ((state.addBroadcast room sendBuffer).setDelivery thread
        (some
          { number := some (state.broadcasts room).length
            sendBuffer := sendBuffer
            target := none
            targets := state.members room }))
  | .pushEnter targetRoom session =>
      state.onQueues (.push thread targetRoom (session, .enter) false)

/-- The next statement of the job that the thread is in. -/
def run (state : RoomSystem Thread Session) (thread : Thread)
    (sendBuffer : SendBufferRef) : Option (RoomSystem Thread Session) :=
  if (state.queues.calls thread).isSome ∨
      (state.deliveries thread).isSome then none
  else
    match state.queues.executes thread, state.statements thread with
    | some (room, .job _ _), statement :: rest =>
        (state.setStatements thread rest).runStatement thread room sendBuffer
          statement
    | _, _ => none

/-- The loop of `Broadcast`: the next `Send` is called when the one before has
returned. -/
def deliver (state : RoomSystem Thread Session) (thread : Thread) :
    Option (RoomSystem Thread Session) :=
  match state.deliveries thread with
  | none => none
  | some delivery =>
      match delivery.target, delivery.targets with
      | some session, _ =>
          if (state.sends session).pcs thread = .idle then
            some (state.setDelivery thread
              (some { delivery with target := none }))
          else none
      | none, [] => some (state.setDelivery thread none)
      | none, session :: rest =>
          (state.onSession session
            (.call thread (.single delivery.sendBuffer))).map fun next =>
              next.setDelivery thread
                (some
                  { delivery with
                    target := some session
                    targets := rest })

def step (state : RoomSystem Thread Session) :
    RoomAction Thread Session → Option (RoomSystem Thread Session)
  | .push thread room session job =>
      if state.finished thread then
        state.onQueues (.push thread room (session, job) false)
      else none
  | .pop thread => state.onQueues (.pop thread)
  | .advance thread => state.advanceQueues thread
  | .run thread sendBuffer => state.run thread sendBuffer
  | .deliver thread => state.deliver thread
  | .call session thread call =>
      if state.finished thread then
        state.onSession session (.call thread call)
      else none
  | .disconnect session => state.onSession session .disconnect
  | .complete session thread index numOfBytes =>
      if state.finished thread then
        state.onSession session (.complete thread index numOfBytes)
      else none
  | .send session thread result => state.advanceSend session thread result

def initial : RoomSystem Thread Session :=
  { queues := .initial
    members := fun _ => []
    broadcasts := fun _ => []
    statements := fun _ => []
    deliveries := fun _ => none
    sends := fun _ => .initial
    log := fun _ => [] }

def machine (Thread Session : Type) [DecidableEq Thread]
    [DecidableEq Session] :
    Machine (RoomSystem Thread Session) (RoomAction Thread Session) where
  initial := (· = initial)
  step := step

end RoomSystem

end IocpChat
