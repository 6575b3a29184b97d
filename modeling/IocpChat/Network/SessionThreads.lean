import IocpChat.Network.SessionRecv
import IocpChat.Network.SessionSend

/-!
# The threads of a PacketSession

A worker that connects the session, workers that take its completions, and any
other threads that call `Send` or `Disconnect` on it.  The functions call one
another, so each thread has a stack of what it still has to do, the innermost
call first; a step is one access to shared state.  The hooks `OnConnected`,
`OnRecvPacket` and `OnDisconnected` may call `Send` and `Disconnect` as often as
they like.

`send` holds `_connected` and the send path.  `callbacks` records the calls of
the hooks.
-/

namespace IocpChat

open TransitionSystem

/-- What a thread does next; the hooks are being executed. -/
inductive SessionFrame where
  | processConnect
  | addSession
  | onConnected
  | inOnConnected
  | disconnect
  | registerDisconnect
  | disconnectEx
  | disconnectExFailed
  | processDisconnect
  | onDisconnected
  | inOnDisconnected
  | releaseSession
  | registerRecv
  | wsaRecv
  | wsaRecvFailed
  | processRecv (numOfBytes : Nat)
  | onRecv (packets : List (List UInt8)) (dataSize processedLen : Int)
  | inOnRecvPacket
  | send
  | sendDisconnected
  | clearSessions
  deriving DecidableEq, Repr

/-- The frames of hooks. -/
def SessionFrame.hook : SessionFrame → Bool
  | inOnConnected => true
  | inOnRecvPacket => true
  | inOnDisconnected => true
  | _ => false

inductive Callback where
  | connectedStarts
  | connectedReturns
  | recvPacket (packet : List UInt8)
  | disconnectedStarts
  | disconnectedReturns
  deriving DecidableEq, Repr

/-- Where the send path calls `Disconnect`. -/
def SendPc.disconnects : SendPc → Bool
  | overflow => true
  | postFailed => true
  | brokenConnection => true
  | _ => false

structure SessionThreads (Thread : Type) where
  send : SessionSend Thread
  recvBuffer : RingBuffer
  recvOwner : Bool
  receives : List (List WSABUF)
  connects : Nat
  disconnectOwner : Bool
  disconnects : Nat
  inService : Bool
  serviceLocked : Bool
  frames : Thread → List SessionFrame
  callbacks : List Callback

/-- `advance` uses the result where the thread calls `WSASend`, `WSARecv` or
`DisconnectEx`; the last two know no recoverable errors. -/
inductive ThreadAction (Thread : Type) where
  | connect (thread : Thread)
  | callDisconnect (thread : Thread)
  | callSend (thread : Thread) (call : SendCall)
  | stop (thread : Thread)
  | completeDisconnect (thread : Thread)
  | completeRecv (thread : Thread) (index : Nat) (chunk : List UInt8)
  | completeSend (thread : Thread) (index numOfBytes : Nat)
  | advance (thread : Thread) (result : WSASendResult)

namespace SessionThreads

variable {Thread : Type}

def setConnected (state : SessionThreads Thread) (connected : Bool) :
    SessionThreads Thread :=
  { state with send := { state.send with connected := connected } }

def callback (state : SessionThreads Thread) (callback : Callback) :
    SessionThreads Thread :=
  { state with callbacks := state.callbacks ++ [callback] }

/-- A thread calls methods of the session outside of them and in hooks. -/
def mayCall (state : SessionThreads Thread) (thread : Thread) : Bool :=
  match state.frames thread with
  | [] => true
  | frame :: _ => frame.hook

variable [DecidableEq Thread]

def goto (state : SessionThreads Thread) (thread : Thread)
    (stack : List SessionFrame) : SessionThreads Thread :=
  { state with frames := Function.update state.frames thread stack }

@[simp] theorem goto_frames_self (state : SessionThreads Thread)
    (thread : Thread) (stack : List SessionFrame) :
    (state.goto thread stack).frames thread = stack :=
  Function.update_self ..

theorem goto_frames_other (state : SessionThreads Thread)
    {thread other : Thread} (different : other ≠ thread)
    (stack : List SessionFrame) :
    (state.goto thread stack).frames other = state.frames other :=
  Function.update_of_ne different ..

/-- `ProcessRecv` up to the loop of `OnRecv`. -/
def processRecv (state : SessionThreads Thread) (thread : Thread)
    (rest : List SessionFrame) (numOfBytes : Nat) : SessionThreads Thread :=
  if numOfBytes = 0 then state.goto thread (.disconnect :: rest)
  else
    let (moved, ring) := state.recvBuffer.moveWritePos numOfBytes
    let state := { state with recvBuffer := ring }
    if moved = false then state.goto thread (.disconnect :: rest)
    else
      let dataSize := ring.getDataSize
      let packetData :=
        (ring.peek dataSize).getD (List.replicate dataSize.toNat 0)
      let (packets, processedLen) := PacketSession.onRecv packetData
      state.goto thread (.onRecv packets dataSize processedLen :: rest)

/-- `ProcessRecv` after `OnRecv`. -/
def afterOnRecv (state : SessionThreads Thread) (thread : Thread)
    (rest : List SessionFrame) (dataSize processedLen : Int) :
    SessionThreads Thread :=
  if processedLen < 0 ∨ dataSize < processedLen then
    state.goto thread (.disconnect :: rest)
  else
    let (moved, ring) := state.recvBuffer.moveReadPos processedLen
    let state := { state with recvBuffer := ring }
    if moved = false then state.goto thread (.disconnect :: rest)
    else state.goto thread (.registerRecv :: rest)

/-- `RegisterRecv` after the test of `_connected`. -/
def wsaRecv (state : SessionThreads Thread) (thread : Thread)
    (rest : List SessionFrame) (result : WSASendResult) :
    SessionThreads Thread :=
  let wsabufs := state.recvBuffer.getWriteSpan 0
  if wsabufs.spanCount = 0 then state.goto thread (.disconnect :: rest)
  else
    match result with
    | .accepted =>
        { state with
          receives := state.receives ++ [RingBuffer.spans wsabufs] }.goto
            thread rest
    | _ => state.goto thread (.disconnect :: .wsaRecvFailed :: rest)

/-- A step of the send path; the places that call `Disconnect` go on when it has
returned. -/
def advanceSend (state : SessionThreads Thread) (thread : Thread)
    (rest : List SessionFrame) (result : WSASendResult) :
    Option (SessionThreads Thread) :=
  if (state.send.pcs thread).disconnects then
    some (state.goto thread (.disconnect :: .sendDisconnected :: rest))
  else
    (state.send.advance thread result).map fun send =>
      { state with send := send }.goto thread
        (if send.pcs thread = SendPc.idle then rest else .send :: rest)

def returnToSend (state : SessionThreads Thread) (thread : Thread)
    (rest : List SessionFrame) (result : WSASendResult) :
    Option (SessionThreads Thread) :=
  (state.send.advance thread result).map fun send =>
    let send := { send with connected := state.send.connected }
    { state with send := send }.goto thread
      (if send.pcs thread = SendPc.idle then rest else .send :: rest)

def runFrame (state : SessionThreads Thread) (thread : Thread)
    (rest : List SessionFrame) (result : WSASendResult) :
    SessionFrame → Option (SessionThreads Thread)
  | .processConnect =>
      some ((state.setConnected true).goto thread (.addSession :: rest))
  | .addSession =>
      if state.serviceLocked then none
      else
        some ({ state with inService := true }.goto thread
          (.onConnected :: rest))
  | .onConnected =>
      some ((state.callback .connectedStarts).goto thread
        (.inOnConnected :: rest))
  | .inOnConnected =>
      some ((state.callback .connectedReturns).goto thread
        (.registerRecv :: rest))
  | .disconnect =>
      if state.send.connected = false then some (state.goto thread rest)
      else
        some ((state.setConnected false).goto thread
          (.registerDisconnect :: rest))
  | .registerDisconnect =>
      some ({ state with disconnectOwner := true }.goto thread
        (.disconnectEx :: rest))
  | .disconnectEx =>
      match result with
      | .accepted =>
          some ({ state with disconnects := state.disconnects + 1 }.goto
            thread rest)
      | _ =>
          some (state.goto thread (.disconnect :: .disconnectExFailed :: rest))
  | .disconnectExFailed =>
      some ({ state with disconnectOwner := false }.goto thread rest)
  | .processDisconnect =>
      some ({ state with disconnectOwner := false }.goto thread
        (.onDisconnected :: rest))
  | .onDisconnected =>
      some ((state.callback .disconnectedStarts).goto thread
        (.inOnDisconnected :: rest))
  | .inOnDisconnected =>
      some ((state.callback .disconnectedReturns).goto thread
        (.releaseSession :: rest))
  | .releaseSession =>
      if state.serviceLocked then none
      else some ({ state with inService := false }.goto thread rest)
  | .registerRecv =>
      if state.send.connected = false then some (state.goto thread rest)
      else
        some ({ state with recvOwner := true }.goto thread
          (.wsaRecv :: rest))
  | .wsaRecv => some (state.wsaRecv thread rest result)
  | .wsaRecvFailed =>
      some ({ state with recvOwner := false }.goto thread rest)
  | .processRecv numOfBytes =>
      some ({ state with recvOwner := false }.processRecv thread rest
        numOfBytes)
  | .onRecv (packet :: packets) dataSize processedLen =>
      some ((state.callback (.recvPacket packet)).goto thread
        (.inOnRecvPacket :: .onRecv packets dataSize processedLen :: rest))
  | .onRecv [] dataSize processedLen =>
      some (state.afterOnRecv thread rest dataSize processedLen)
  | .inOnRecvPacket => some (state.goto thread rest)
  | .send => state.advanceSend thread rest result
  | .sendDisconnected => state.returnToSend thread rest result
  | .clearSessions =>
      some ({ state with
        inService := false
        serviceLocked := false }.goto thread rest)

/-- A worker takes the completion of a receive; without an owner in the event
`IocpCore::Dispatch` drops it. -/
def completeRecv (state : SessionThreads Thread) (thread : Thread)
    (index : Nat) (chunk : List UInt8) : Option (SessionThreads Thread) :=
  match state.receives[index]? with
  | none => none
  | some wsabufs =>
      let ring := state.recvBuffer
      let filled :=
        { ring with buffer := RingBuffer.fill ring.buffer wsabufs chunk }
      let taken :=
        { state with
          recvBuffer := filled
          receives := state.receives.eraseIdx index
          recvOwner := false }
      if state.recvOwner = false then some taken
      else some (taken.goto thread [.processRecv chunk.length])

def completeDisconnect (state : SessionThreads Thread) (thread : Thread) :
    Option (SessionThreads Thread) :=
  if state.disconnects = 0 then none
  else
    let taken :=
      { state with
        disconnects := state.disconnects - 1
        disconnectOwner := false }
    if state.disconnectOwner = false then some taken
    else some (taken.goto thread [.processDisconnect])

def step (state : SessionThreads Thread) :
    ThreadAction Thread → Option (SessionThreads Thread)
  | .connect thread =>
      if state.frames thread = [] ∧ state.connects ≠ 0 then
        some ({ state with connects := state.connects - 1 }.goto thread
          [.processConnect])
      else none
  | .callDisconnect thread =>
      if state.mayCall thread then
        some (state.goto thread (.disconnect :: state.frames thread))
      else none
  | .callSend thread call =>
      if state.mayCall thread then
        (state.send.step (.call thread call)).map fun send =>
          { state with send := send }.goto thread
            (.send :: state.frames thread)
      else none
  | .stop thread =>
      if state.frames thread = [] ∧ state.serviceLocked = false ∧
          state.inService then
        some ({ state with serviceLocked := true }.goto thread
          [.disconnect, .clearSessions])
      else none
  | .completeDisconnect thread =>
      if state.frames thread = [] then state.completeDisconnect thread
      else none
  | .completeRecv thread index chunk =>
      if state.frames thread = [] then state.completeRecv thread index chunk
      else none
  | .completeSend thread index numOfBytes =>
      if state.frames thread = [] then
        (state.send.complete thread index numOfBytes).map fun send =>
          { state with send := send }.goto thread
            (if send.pcs thread = SendPc.idle then [] else [.send])
      else none
  | .advance thread result =>
      match state.frames thread with
      | [] => none
      | frame :: rest => state.runFrame thread rest result frame

/-- A session whose `ConnectEx` or `AcceptEx` is about to complete. -/
def initial (recvBuffer : RingBuffer) : SessionThreads Thread :=
  { send := { SessionSend.initial with connected := false }
    recvBuffer := recvBuffer
    recvOwner := false
    receives := []
    connects := 1
    disconnectOwner := false
    disconnects := 0
    inService := false
    serviceLocked := false
    frames := fun _ => []
    callbacks := [] }

def machine (Thread : Type) [DecidableEq Thread] :
    Machine (SessionThreads Thread) (ThreadAction Thread) where
  initial state := ∃ recvBuffer, state = initial recvBuffer
  step := step

end SessionThreads

end IocpChat
