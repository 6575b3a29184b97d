import Mathlib.Data.Finset.Card
import Mathlib.Data.Finset.Dedup
import IocpChat.Common.Types
import IocpChat.Network.Listener

/-!
# A ServerService and its sessions

`AddSession` and `ReleaseSession` hold `_lock` for the whole of their bodies;
`Stop` holds it over the `Disconnect` of every session, while the threads go on
inside the sessions up to where they want the lock themselves.
-/

namespace IocpChat

open TransitionSystem

/-- `stopping` is the thread that holds `_lock` in `Service::Stop`, with the
sessions that its loop has not come to. -/
structure ServerService (Thread Slot : Type) where
  iocp : IocpSystem Thread Slot
  sessions : Finset Nat
  sessionCount : Int
  maxSessionCount : Int
  stopping : Option (Thread × List Nat)

/-- `stop` takes `_lock`; `order` is that of the `unordered_set`. -/
inductive ServiceAction (Thread Slot : Type) where
  | iocp (action : IocpAction Thread Slot)
  | stop (thread : Thread) (order : List Nat)
  | stopSession
  | clearSessions

/-- The thread that an action takes into a session. -/
def ThreadAction.caller {Thread : Type} : ThreadAction Thread → Option Thread
  | connect thread => some thread
  | callDisconnect thread => some thread
  | callSend thread _ => some thread
  | stop thread => some thread
  | completeDisconnect thread => some thread
  | completeRecv thread _ _ => some thread
  | completeSend thread _ _ => some thread
  | advance _ _ => none

def IocpAction.caller {Thread Slot : Type} :
    IocpAction Thread Slot → Option Thread
  | connect _ _ _ => none
  | startAccept _ _ => none
  | closeSocket => none
  | dispatch thread _ _ => some thread
  | registerAccept thread _ => some thread
  | session _ action => action.caller

namespace ServerService

variable {Thread Slot : Type}

def getCurrentSessionCount (service : ServerService Thread Slot) : Int :=
  service.sessionCount

def getMaxSessionCount (service : ServerService Thread Slot) : Int :=
  service.maxSessionCount

def addSession (service : ServerService Thread Slot) (session : Nat) :
    ServerService Thread Slot :=
  { service with
    sessionCount := int32 (service.sessionCount + 1)
    sessions := insert session service.sessions }

def releaseSession (service : ServerService Thread Slot) (session : Nat) :
    ServerService Thread Slot :=
  { service with
    sessionCount := int32 (service.sessionCount - 1)
    sessions := service.sessions.erase session }

variable [DecidableEq Thread] [DecidableEq Slot]

/-- A thread goes on inside a session. -/
def advance (service : ServerService Thread Slot) (session : Nat)
    (thread : Thread) (result : WSASendResult) :
    Option (ServerService Thread Slot) :=
  let advanced :=
    (service.iocp.step (.session session (.advance thread result))).map
      fun iocp => { service with iocp := iocp }
  match ((service.iocp.sessions session).frames thread).head? with
  | some .addSession =>
      if service.stopping.isSome then none
      else advanced.map fun service => service.addSession session
  | some .releaseSession =>
      if service.stopping.isSome then none
      else advanced.map fun service => service.releaseSession session
  | _ => advanced

/-- A `ServerService` connects no session; its `Stop` is not that of a single
session. -/
def stepIocp (service : ServerService Thread Slot) :
    IocpAction Thread Slot → Option (ServerService Thread Slot)
  | .connect _ _ _ => none
  | .session _ (.stop _) => none
  | .session session (.advance thread result) =>
      service.advance session thread result
  | action =>
      (service.iocp.step action).map fun iocp => { service with iocp := iocp }

/-- `ServerService::Stop` closes the listening socket before it calls that of
`Service`, which takes `_lock` here. -/
def stop (service : ServerService Thread Slot) (thread : Thread)
    (order : List Nat) : Option (ServerService Thread Slot) :=
  if service.iocp.listenSocket = false ∧ service.iocp.Outside thread ∧
      service.iocp.accepting thread = none ∧ service.stopping = none ∧
      order.Nodup ∧ order.toFinset = service.sessions then
    some { service with stopping := some (thread, order) }
  else none

/-- The loop of `Stop` calls `Disconnect` on the next session. -/
def stopSession (service : ServerService Thread Slot) :
    Option (ServerService Thread Slot) :=
  match service.stopping with
  | some (thread, session :: rest) =>
      if service.iocp.Outside thread then
        (service.iocp.stepSession session (.callDisconnect thread)).map
          fun iocp =>
            { service with
              iocp := iocp
              stopping := some (thread, rest) }
      else none
  | _ => none

/-- `Stop` after the loop, up to the release of `_lock`. -/
def clearSessions (service : ServerService Thread Slot) :
    Option (ServerService Thread Slot) :=
  match service.stopping with
  | some (thread, []) =>
      if service.iocp.Outside thread then
        some { service with
          iocp :=
            { service.iocp with
              sessions := fun session =>
                { service.iocp.sessions session with inService := false } }
          sessions := ∅
          stopping := none }
      else none
  | _ => none

/-- The thread in `Stop` does nothing else. -/
def step (service : ServerService Thread Slot) :
    ServiceAction Thread Slot → Option (ServerService Thread Slot)
  | .iocp action =>
      if ∃ thread ∈ action.caller,
          service.stopping.map Prod.fst = some thread then none
      else service.stepIocp action
  | .stop thread order => service.stop thread order
  | .stopSession => service.stopSession
  | .clearSessions => service.clearSessions

/-- The constructor leaves `_sessionCount` at zero. -/
def initial (recvBuffer : RingBuffer) (maxSessionCount : Int) :
    ServerService Thread Slot :=
  { iocp := .initial recvBuffer
    sessions := ∅
    sessionCount := 0
    maxSessionCount := maxSessionCount
    stopping := none }

/-- `maxSessionCount` is an `int32`. -/
def machine (Thread Slot : Type) [DecidableEq Thread] [DecidableEq Slot] :
    Machine (ServerService Thread Slot) (ServiceAction Thread Slot) where
  initial service := ∃ recvBuffer maxSessionCount,
    maxSessionCount < 2 ^ 31 ∧ service = initial recvBuffer maxSessionCount
  step := step

end ServerService

end IocpChat
