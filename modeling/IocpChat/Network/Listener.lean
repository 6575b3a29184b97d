import IocpChat.Network.SessionThreads

/-!
# Completions, sessions and the listener

`IocpCore::Dispatch` hands the event of a completion to the event's owner,
whether the I/O has succeeded or not.  The owner of an accept event is the
listener, that of the others their session; between two completions the threads
go on inside the sessions.  Sessions are known by `_sessionId`, a counter.
-/

namespace IocpChat

open TransitionSystem

/-- An event whose I/O has completed, with what the completion says. -/
inductive IocpEvent (Slot : Type) where
  | connect (session : Nat)
  | disconnect (session : Nat)
  | accept (slot : Slot)
  | recv (session index : Nat) (chunk : List UInt8)
  | send (session index numOfBytes : Nat)

/-- The outcomes of `GetQueuedCompletionStatus`; a failed I/O has an event and
an error other than `WAIT_TIMEOUT`. -/
inductive QueuedStatus (Slot : Type) where
  | succeeded (event : Option (IocpEvent Slot))
  | failed (waitTimeout : Bool) (event : Option (IocpEvent Slot))

/-- The event that `IocpCore::Dispatch` goes on with. -/
def QueuedStatus.event {Slot : Type} :
    QueuedStatus Slot → Option (IocpEvent Slot)
  | succeeded event => event
  | failed waitTimeout event => if waitTimeout then none else event

def QueuedStatus.success {Slot : Type} : QueuedStatus Slot → Bool
  | succeeded _ => true
  | failed _ _ => false

/-- The outcomes of `AcceptEx` that `RegisterAccept` distinguishes: `closed` is
`WSAEINTR`, `WSAENOTSOCK` or `ERROR_OPERATION_ABORTED`. -/
inductive AcceptExResult where
  | accepted
  | closed
  | error
  deriving DecidableEq, Repr

/-- What the calls in `ProcessAccept` return. -/
structure AcceptCalls where
  setUpdateAcceptSocket : Bool
  getpeername : Bool
  register : Bool

structure AcceptEvent where
  owner : Bool
  session : Option Nat
  pending : Bool

/-- `accepting` is the event a thread will hand to `RegisterAccept` when it has
returned from `ProcessConnect`; `established` records which sessions had a
`ConnectEx` or `AcceptEx` that completed successfully. -/
structure IocpSystem (Thread Slot : Type) where
  created : Nat
  sessions : Nat → SessionThreads Thread
  connectOwner : Nat → Bool
  listenSocket : Bool
  acceptEvents : Slot → AcceptEvent
  accepting : Thread → Option Slot
  established : Nat → Bool

inductive IocpAction (Thread Slot : Type) where
  | connect (bindAnyAddress register connectEx : Bool)
  | startAccept (slot : Slot) (results : List AcceptExResult)
  | closeSocket
  | dispatch (thread : Thread) (status : QueuedStatus Slot)
      (calls : AcceptCalls)
  | registerAccept (thread : Thread) (results : List AcceptExResult)
  | session (session : Nat) (action : ThreadAction Thread)

/-- The actions of a session that a completion begins. -/
def ThreadAction.completes {Thread : Type} : ThreadAction Thread → Bool
  | connect _ => true
  | completeDisconnect _ => true
  | completeRecv _ _ _ => true
  | completeSend _ _ _ => true
  | _ => false

namespace IocpSystem

variable {Thread Slot : Type} [DecidableEq Thread] [DecidableEq Slot]

def setSession (system : IocpSystem Thread Slot) (session : Nat)
    (state : SessionThreads Thread) : IocpSystem Thread Slot :=
  { system with sessions := Function.update system.sessions session state }

/-- Steps of a thread inside a session. -/
def stepSession (system : IocpSystem Thread Slot) (session : Nat)
    (action : ThreadAction Thread) : Option (IocpSystem Thread Slot) :=
  ((system.sessions session).step action).map (system.setSession session)

/-- `CreateSession` and `Connect`, as `ClientService::Start` calls them.  The
`HandleError` of a failing `ConnectEx` finds `_connected` false. -/
def registerConnect (system : IocpSystem Thread Slot)
    (bindAnyAddress register connectEx : Bool) : IocpSystem Thread Slot :=
  let session := system.created
  let system := { system with created := session + 1 }
  if (system.sessions session).send.connected then system
  else if bindAnyAddress = false ∨ register = false then system
  else if connectEx = false then
    { system with
      connectOwner := Function.update system.connectOwner session false }
  else
    { system with
      connectOwner := Function.update system.connectOwner session true
      sessions := Function.update system.sessions session
        { system.sessions session with
          connects := (system.sessions session).connects + 1 } }

/-- `RegisterAccept`; each round creates a session and calls `AcceptEx`. -/
def registerAccept (system : IocpSystem Thread Slot) (slot : Slot) :
    List AcceptExResult → Option (IocpSystem Thread Slot)
  | [] => if system.listenSocket then none else some system
  | result :: results =>
      if system.listenSocket = false then some system
      else
        let armed (pending : Bool) : IocpSystem Thread Slot :=
          { system with
            created := system.created + 1
            acceptEvents := Function.update system.acceptEvents slot
              { owner := true
                session := some system.created
                pending := pending } }
        match result with
        | .accepted => some (armed true)
        | .closed => some (armed false)
        | .error => (armed false).registerAccept slot results

/-- `ProcessAccept` up to the call of `ProcessConnect`, or to that of
`RegisterAccept` where one of the calls has failed. -/
def processAccept (system : IocpSystem Thread Slot) (thread : Thread)
    (slot : Slot) (calls : AcceptCalls) : Option (IocpSystem Thread Slot) :=
  if system.listenSocket = false then some system
  else
    match (system.acceptEvents slot).session with
    | none => none
    | some session =>
        let registers :=
          { system with
            accepting :=
              Function.update system.accepting thread (some slot) }
        if calls.setUpdateAcceptSocket = false then some registers
        else if calls.getpeername = false then some registers
        else if calls.register = false then some registers
        else
          let state := system.sessions session
          some (registers.setSession session
            (state.goto thread (.processConnect :: state.frames thread)))

/-- The history: whose connection this completion establishes. -/
def establish (system : IocpSystem Thread Slot) :
    QueuedStatus Slot → IocpSystem Thread Slot
  | .succeeded (some (.connect session)) =>
      { system with
        established := Function.update system.established session true }
  | .succeeded (some (.accept slot)) =>
      match (system.acceptEvents slot).session with
      | none => system
      | some session =>
          { system with
            established := Function.update system.established session true }
  | _ => system

/-- The owner of the event dispatches it; an event without one is dropped. -/
def dispatchEvent (system : IocpSystem Thread Slot) (thread : Thread)
    (calls : AcceptCalls) :
    IocpEvent Slot → Option (IocpSystem Thread Slot)
  | .connect session =>
      if (system.sessions session).connects = 0 then none
      else if system.connectOwner session = false then
        some (system.setSession session
          { system.sessions session with
            connects := (system.sessions session).connects - 1 })
      else
        { system with
          connectOwner :=
            Function.update system.connectOwner session false }.stepSession
              session (.connect thread)
  | .disconnect session =>
      system.stepSession session (.completeDisconnect thread)
  | .recv session index chunk =>
      system.stepSession session (.completeRecv thread index chunk)
  | .send session index numOfBytes =>
      system.stepSession session (.completeSend thread index numOfBytes)
  | .accept slot =>
      let event := system.acceptEvents slot
      if event.pending = false then none
      else
        let taken :=
          { system with
            acceptEvents := Function.update system.acceptEvents slot
              { event with
                owner := false
                pending := false } }
        if event.owner = false then some taken
        else taken.processAccept thread slot calls

/-- A thread is in no method of a session. -/
def Outside (system : IocpSystem Thread Slot) (thread : Thread) : Prop :=
  ∀ session < system.created, (system.sessions session).frames thread = []

instance (system : IocpSystem Thread Slot) (thread : Thread) :
    Decidable (system.Outside thread) :=
  inferInstanceAs (Decidable (∀ session < system.created, _))

def step (system : IocpSystem Thread Slot) :
    IocpAction Thread Slot → Option (IocpSystem Thread Slot)
  | .connect bindAnyAddress register connectEx =>
      some (system.registerConnect bindAnyAddress register connectEx)
  | .startAccept slot results =>
      if (system.acceptEvents slot).session = none then
        system.registerAccept slot results
      else none
  | .closeSocket => some { system with listenSocket := false }
  | .dispatch thread status calls =>
      if system.Outside thread ∧ system.accepting thread = none then
        match status.event with
        | none => some system
        | some event =>
            (system.establish status).dispatchEvent thread calls event
      else none
  | .registerAccept thread results =>
      match system.accepting thread with
      | none => none
      | some slot =>
          if system.Outside thread then
            { system with
              accepting :=
                Function.update system.accepting thread none }.registerAccept
                  slot results
          else none
  | .session session action =>
      if session < system.created ∧ action.completes = false then
        system.stepSession session action
      else none

/-- The listening socket is open, and no session has been created. -/
def initial (recvBuffer : RingBuffer) : IocpSystem Thread Slot :=
  { created := 0
    sessions := fun _ =>
      { SessionThreads.initial recvBuffer with connects := 0 }
    connectOwner := fun _ => false
    listenSocket := true
    acceptEvents := fun _ =>
      { owner := false
        session := none
        pending := false }
    accepting := fun _ => none
    established := fun _ => false }

def machine (Thread Slot : Type) [DecidableEq Thread] [DecidableEq Slot] :
    Machine (IocpSystem Thread Slot) (IocpAction Thread Slot) where
  initial system := ∃ recvBuffer, system = initial recvBuffer
  step := step

end IocpSystem

end IocpChat
