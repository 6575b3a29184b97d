import IocpChat.Lib.Threads
import IocpChat.Network.SessionThreads

/-!
# The receive chain of a session

`ProcessConnect` posts the first receive, and after that only the completion of
a receive posts another one.  So there is one chain of receives, and it is
either in the hands of one thread or at the system.  `RecvLoop` is the chain as
a sequential program; `step_chain` says that whatever the threads of a session
do, they advance it or leave it alone.
-/

namespace IocpChat

open TransitionSystem Threads

/-- The frames of the chain: `ProcessConnect`, `RegisterRecv` and
`ProcessRecv`. -/
def SessionFrame.receives : SessionFrame → Bool
  | processConnect => true
  | addSession => true
  | onConnected => true
  | inOnConnected => true
  | registerRecv => true
  | wsaRecv => true
  | wsaRecvFailed => true
  | processRecv _ => true
  | onRecv _ _ _ => true
  | _ => false

def Callback.packet : Callback → Option (List UInt8)
  | recvPacket packet => some packet
  | _ => none

/-- The packets `OnRecvPacket` was called with. -/
def receivedPackets (callbacks : List Callback) : List (List UInt8) :=
  callbacks.filterMap Callback.packet

/-- Where the chain is. -/
inductive RecvStage (Thread : Type) where
  | arriving
  | running (thread : Thread) (frame : SessionFrame)
  | posted (wsabufs : List WSABUF)
  | ended

namespace RecvStage

variable {Thread : Type}

def frames [DecidableEq Thread] :
    RecvStage Thread → Thread → List SessionFrame
  | running thread frame => only thread [frame]
  | _ => fun _ => []

def connects : RecvStage Thread → Nat
  | arriving => 1
  | _ => 0

def receives : RecvStage Thread → List (List WSABUF)
  | posted wsabufs => [wsabufs]
  | _ => []

/-- `_recvEvent` has an owner. -/
def ownsEvent : RecvStage Thread → Bool
  | running _ .wsaRecv => true
  | posted _ => true
  | _ => false

end RecvStage

/-- The chain with what it works on. -/
structure RecvLoop (Thread : Type) where
  stage : RecvStage Thread
  recvBuffer : RingBuffer
  received : List (List UInt8)

namespace RecvLoop

variable {Thread : Type}

def moveTo (loop : RecvLoop Thread) (stage : RecvStage Thread) :
    RecvLoop Thread :=
  { loop with stage := stage }

def processRecv (loop : RecvLoop Thread) (thread : Thread)
    (numOfBytes : Nat) : RecvLoop Thread :=
  if numOfBytes = 0 then loop.moveTo .ended
  else
    let (moved, ring) := loop.recvBuffer.moveWritePos numOfBytes
    let loop := { loop with recvBuffer := ring }
    if moved = false then loop.moveTo .ended
    else
      let dataSize := ring.getDataSize
      let packetData :=
        (ring.peek dataSize).getD (List.replicate dataSize.toNat 0)
      let (packets, processedLen) := PacketSession.onRecv packetData
      loop.moveTo (.running thread (.onRecv packets dataSize processedLen))

def afterOnRecv (loop : RecvLoop Thread) (thread : Thread)
    (dataSize processedLen : Int) : RecvLoop Thread :=
  if processedLen < 0 ∨ dataSize < processedLen then loop.moveTo .ended
  else
    let (moved, ring) := loop.recvBuffer.moveReadPos processedLen
    let loop := { loop with recvBuffer := ring }
    if moved = false then loop.moveTo .ended
    else loop.moveTo (.running thread .registerRecv)

/-- What a thread does at a frame of the chain, with the session connected and
`WSARecv` accepting the request. -/
def advance (loop : RecvLoop Thread) (thread : Thread) :
    SessionFrame → RecvLoop Thread
  | .processConnect => loop.moveTo (.running thread .addSession)
  | .addSession => loop.moveTo (.running thread .onConnected)
  | .onConnected => loop.moveTo (.running thread .inOnConnected)
  | .inOnConnected => loop.moveTo (.running thread .registerRecv)
  | .registerRecv => loop.moveTo (.running thread .wsaRecv)
  | .wsaRecv =>
      let wsabufs := loop.recvBuffer.getWriteSpan 0
      if wsabufs.spanCount = 0 then loop.moveTo .ended
      else loop.moveTo (.posted (RingBuffer.spans wsabufs))
  | .processRecv numOfBytes => loop.processRecv thread numOfBytes
  | .onRecv (packet :: packets) dataSize processedLen =>
      { loop with received := loop.received ++ [packet] }.moveTo
        (.running thread (.onRecv packets dataSize processedLen))
  | .onRecv [] dataSize processedLen =>
      loop.afterOnRecv thread dataSize processedLen
  | _ => loop.moveTo .ended

/-- A step of the chain, labelled with the bytes of a completion. -/
inductive Step (loop : RecvLoop Thread) :
    Option (List UInt8) → RecvLoop Thread → Prop where
  | rests : Step loop none loop
  | connects (thread : Thread) : loop.stage = .arriving →
      Step loop none (loop.moveTo (.running thread .processConnect))
  | advances {thread : Thread} {frame : SessionFrame} :
      loop.stage = .running thread frame →
      Step loop none (loop.advance thread frame)
  | disconnected {thread : Thread} :
      loop.stage = .running thread .registerRecv →
      Step loop none (loop.moveTo .ended)
  | fails {thread : Thread} : loop.stage = .running thread .wsaRecv →
      Step loop none (loop.moveTo (.running thread .wsaRecvFailed))
  | completes {wsabufs : List WSABUF} (thread : Thread)
      (chunk : List UInt8) : loop.stage = .posted wsabufs →
      Step loop (some chunk)
        { stage := .running thread (.processRecv chunk.length)
          recvBuffer :=
            { loop.recvBuffer with
              buffer := RingBuffer.fill loop.recvBuffer.buffer wsabufs chunk }
          received := loop.received }

end RecvLoop

namespace SessionThreads

variable {Thread : Type}

/-- The chain of a session that is at this stage of it. -/
def recvLoop (state : SessionThreads Thread) (stage : RecvStage Thread) :
    RecvLoop Thread :=
  { stage := stage
    recvBuffer := state.recvBuffer
    received := receivedPackets state.callbacks }

/-- The bytes of the completion a thread takes. -/
def takenBytes : ThreadAction Thread → Option (List UInt8)
  | .completeRecv _ _ chunk => some chunk
  | _ => none

/-- What the chain depends on, the frames and the ring apart. -/
structure SameReceives (state next : SessionThreads Thread) : Prop where
  connects : next.connects = state.connects
  receives : next.receives = state.receives
  recvOwner : next.recvOwner = state.recvOwner

theorem SameReceives.refl {state : SessionThreads Thread} :
    SameReceives state state :=
  ⟨rfl, rfl, rfl⟩

variable [DecidableEq Thread]

structure InChain (state : SessionThreads Thread)
    (stage : RecvStage Thread) : Prop where
  frames : marked SessionFrame.receives state.frames = stage.frames
  connects : state.connects = stage.connects
  receives : state.receives = stage.receives
  owner : stage.ownsEvent = true → state.recvOwner = true

/-- A thread with a frame of the chain has the whole chain. -/
theorem InChain.holder {state : SessionThreads Thread}
    {stage : RecvStage Thread} (inChain : InChain state stage)
    {thread : Thread} {frame : SessionFrame} {rest : List SessionFrame}
    (at_ : state.frames thread = frame :: rest)
    (receives : frame.receives = true) :
    stage = .running thread frame ∧
      rest.filter SessionFrame.receives = [] := by
  have found : stage.frames thread =
      frame :: rest.filter SessionFrame.receives := by
    rw [← inChain.frames, marked, at_, List.filter_cons_of_pos receives]
  cases stage with
  | running holder held =>
      obtain ⟨rfl, same⟩ := only_eq_cons found
      obtain ⟨rfl, nothing⟩ := List.cons.inj same
      exact ⟨rfl, nothing.symm⟩
  | _ => cases found

/-- A thread moves beside the chain. -/
theorem InChain.aside {state shared : SessionThreads Thread}
    {stage : RecvStage Thread} (inChain : InChain state stage)
    {thread : Thread} {pushed : List SessionFrame}
    (same : shared.frames = state.frames) (life : SameReceives state shared)
    (found : pushed.filter SessionFrame.receives =
      (state.frames thread).filter SessionFrame.receives) :
    InChain (shared.goto thread pushed) stage where
  frames := by
    change marked _ (Function.update shared.frames thread pushed) = _
    rw [marked_update, same, found, ← inChain.frames]
    exact Function.update_eq_self thread _
  connects := life.connects.trans inChain.connects
  receives := life.receives.trans inChain.receives
  owner := fun owns => life.recvOwner.trans (inChain.owner owns)

/-- The chain moves on with the thread that has it, or leaves it, or is taken
up by a thread. -/
theorem InChain.moves {state shared : SessionThreads Thread}
    {stage next : RecvStage Thread} (inChain : InChain state stage)
    {thread : Thread} {held pushed : List SessionFrame}
    (holds : stage.frames = only thread held)
    (same : shared.frames = state.frames)
    (frames : next.frames =
      only thread (pushed.filter SessionFrame.receives))
    (connects : shared.connects = next.connects)
    (receives : shared.receives = next.receives)
    (owner : next.ownsEvent = true → shared.recvOwner = true) :
    InChain (shared.goto thread pushed) next where
  frames := by
    change marked _ (Function.update shared.frames thread pushed) = _
    rw [marked_update, same, inChain.frames, holds, update_only, frames]
  connects := connects
  receives := receives
  owner := owner

/-- The chain after a step. -/
def Chains (state : SessionThreads Thread) (stage : RecvStage Thread)
    (taken : Option (List UInt8)) (next : SessionThreads Thread) : Prop :=
  ∃ nextStage, InChain next nextStage ∧
    (state.recvLoop stage).Step taken (next.recvLoop nextStage)

/-- A step beside the chain. -/
theorem InChain.rests {state shared : SessionThreads Thread}
    {stage : RecvStage Thread} (inChain : InChain state stage)
    {thread : Thread} {pushed : List SessionFrame}
    (same : shared.frames = state.frames) (life : SameReceives state shared)
    (ring : shared.recvBuffer = state.recvBuffer)
    (received : receivedPackets shared.callbacks =
      receivedPackets state.callbacks)
    (found : pushed.filter SessionFrame.receives =
      (state.frames thread).filter SessionFrame.receives) :
    Chains state stage none (shared.goto thread pushed) := by
  refine ⟨stage, inChain.aside same life found, ?_⟩
  have unchanged : (shared.goto thread pushed).recvLoop stage =
      state.recvLoop stage := by
    simp only [recvLoop, goto, ring, received]
  rw [unchanged]
  exact .rests

/-- A frame beside the chain gives way to others of its kind. -/
theorem InChain.goesOn {state shared : SessionThreads Thread}
    {stage : RecvStage Thread} (inChain : InChain state stage)
    {thread : Thread} {frame : SessionFrame} {rest : List SessionFrame}
    (at_ : state.frames thread = frame :: rest)
    (beside : frame.receives = false) (pushed : List SessionFrame)
    (same : shared.frames = state.frames) (life : SameReceives state shared)
    (ring : shared.recvBuffer = state.recvBuffer)
    (received : receivedPackets shared.callbacks =
      receivedPackets state.callbacks)
    (none_ : pushed.filter SessionFrame.receives = []) :
    Chains state stage none (shared.goto thread (pushed ++ rest)) := by
  apply inChain.rests same life ring received
  rw [List.filter_append, none_, at_, List.nil_append,
    List.filter_cons_of_neg (by simp [beside])]

/-- The thread with the chain goes on as the sequential program does. -/
theorem InChain.advances {state shared : SessionThreads Thread}
    {stage : RecvStage Thread} (inChain : InChain state stage)
    {thread : Thread} {frame : SessionFrame} {pushed : List SessionFrame}
    (holds : stage = .running thread frame) (next : RecvStage Thread)
    (same : shared.frames = state.frames)
    (frames : next.frames =
      only thread (pushed.filter SessionFrame.receives))
    (connects : shared.connects = next.connects)
    (receives : shared.receives = next.receives)
    (owner : next.ownsEvent = true → shared.recvOwner = true)
    (loop : (state.recvLoop stage).advance thread frame =
      shared.recvLoop next) :
    Chains state stage none (shared.goto thread pushed) := by
  subst holds
  refine ⟨next, inChain.moves rfl same frames connects receives owner, ?_⟩
  have advanced : (state.recvLoop (.running thread frame)).Step none
      ((state.recvLoop (.running thread frame)).advance thread frame) :=
    .advances rfl
  rw [loop] at advanced
  exact advanced

/-- It comes to another frame of the chain. -/
theorem InChain.runs {state shared : SessionThreads Thread}
    {stage : RecvStage Thread} (inChain : InChain state stage)
    {thread : Thread} {frame nextFrame : SessionFrame}
    {pushed : List SessionFrame} (holds : stage = .running thread frame)
    (same : shared.frames = state.frames)
    (connects : shared.connects = state.connects)
    (receives : shared.receives = state.receives)
    (found : pushed.filter SessionFrame.receives = [nextFrame])
    (owner : nextFrame = .wsaRecv → shared.recvOwner = true)
    (loop : (state.recvLoop stage).advance thread frame =
      shared.recvLoop (.running thread nextFrame)) :
    Chains state stage none (shared.goto thread pushed) := by
  apply inChain.advances holds _ same _ _ _ _ loop
  · rw [found]
    rfl
  · rw [connects, inChain.connects, holds]
    rfl
  · rw [receives, inChain.receives, holds]
    rfl
  · intro owns
    cases nextFrame <;> first | exact owner rfl | cases owns

/-- It leaves the chain, which is over. -/
theorem InChain.ends {state shared : SessionThreads Thread}
    {stage : RecvStage Thread} (inChain : InChain state stage)
    {thread : Thread} {frame : SessionFrame} {pushed : List SessionFrame}
    (holds : stage = .running thread frame)
    (same : shared.frames = state.frames)
    (connects : shared.connects = state.connects)
    (receives : shared.receives = state.receives)
    (found : pushed.filter SessionFrame.receives = [])
    (loop : (state.recvLoop stage).advance thread frame =
      shared.recvLoop .ended) :
    Chains state stage none (shared.goto thread pushed) := by
  apply inChain.advances holds _ same _ _ _ (by rintro ⟨⟩) loop
  · rw [found, only_nil]
    rfl
  · rw [connects, inChain.connects, holds]
    rfl
  · rw [receives, inChain.receives, holds]
    rfl

theorem processRecv_chain {state shared : SessionThreads Thread}
    {stage : RecvStage Thread} (inChain : InChain state stage)
    {thread : Thread} {numOfBytes : Nat} {rest : List SessionFrame}
    (holds : stage = .running thread (.processRecv numOfBytes))
    (nothing : rest.filter SessionFrame.receives = [])
    (same : shared.frames = state.frames)
    (connects : shared.connects = state.connects)
    (receives : shared.receives = state.receives)
    (ring : shared.recvBuffer = state.recvBuffer)
    (received : shared.callbacks = state.callbacks) :
    Chains state stage none (shared.processRecv thread rest numOfBytes) := by
  have advanced : (state.recvLoop stage).advance thread
      (.processRecv numOfBytes) =
        (state.recvLoop stage).processRecv thread numOfBytes := rfl
  unfold processRecv
  unfold RecvLoop.processRecv at advanced
  rw [ring]
  split
  · rename_i none_
    rw [if_pos none_] at advanced
    apply inChain.ends holds same connects receives
    · rw [List.filter_cons_of_neg Bool.false_ne_true, nothing]
    · rw [advanced]
      simp only [recvLoop, RecvLoop.moveTo, ring, received]
  · rename_i some_
    rw [if_neg some_] at advanced
    dsimp only [recvLoop] at advanced ⊢
    split
    · rename_i refused
      rw [if_pos refused] at advanced
      apply inChain.ends holds
      · exact same
      · exact connects
      · exact receives
      · rw [List.filter_cons_of_neg Bool.false_ne_true, nothing]
      · rw [recvLoop, advanced]
        simp only [recvLoop, RecvLoop.moveTo, received]
    · rename_i moved
      rw [if_neg moved] at advanced
      apply inChain.runs holds
      · exact same
      · exact connects
      · exact receives
      · rw [List.filter_cons_of_pos rfl, nothing]
      · rintro ⟨⟩
      · rw [recvLoop, advanced]
        simp only [recvLoop, RecvLoop.moveTo, received]

theorem afterOnRecv_chain {state : SessionThreads Thread}
    {stage : RecvStage Thread} (inChain : InChain state stage)
    {thread : Thread} {dataSize processedLen : Int}
    {rest : List SessionFrame}
    (holds : stage = .running thread (.onRecv [] dataSize processedLen))
    (nothing : rest.filter SessionFrame.receives = []) :
    Chains state stage none
      (state.afterOnRecv thread rest dataSize processedLen) := by
  have advanced : (state.recvLoop stage).advance thread
      (.onRecv [] dataSize processedLen) =
        (state.recvLoop stage).afterOnRecv thread dataSize processedLen := rfl
  unfold afterOnRecv
  unfold RecvLoop.afterOnRecv at advanced
  split
  · rename_i rejected
    rw [if_pos rejected] at advanced
    apply inChain.ends holds rfl rfl rfl
    · rw [List.filter_cons_of_neg Bool.false_ne_true, nothing]
    · exact advanced
  · rename_i passed
    rw [if_neg passed] at advanced
    dsimp only [recvLoop] at advanced ⊢
    split
    · rename_i refused
      rw [if_pos refused] at advanced
      apply inChain.ends holds
      · rfl
      · rfl
      · rfl
      · rw [List.filter_cons_of_neg Bool.false_ne_true, nothing]
      · exact advanced
    · rename_i moved
      rw [if_neg moved] at advanced
      apply inChain.runs holds
      · rfl
      · rfl
      · rfl
      · rw [List.filter_cons_of_pos rfl, nothing]
      · rintro ⟨⟩
      · exact advanced

theorem wsaRecv_chain {state : SessionThreads Thread}
    {stage : RecvStage Thread} (inChain : InChain state stage)
    {thread : Thread} {rest : List SessionFrame} {result : WSASendResult}
    (holds : stage = .running thread .wsaRecv)
    (nothing : rest.filter SessionFrame.receives = []) :
    Chains state stage none (state.wsaRecv thread rest result) := by
  have advanced : (state.recvLoop stage).advance thread .wsaRecv =
      if (state.recvBuffer.getWriteSpan 0).spanCount = 0 then
        (state.recvLoop stage).moveTo .ended
      else
        (state.recvLoop stage).moveTo
          (.posted (RingBuffer.spans (state.recvBuffer.getWriteSpan 0))) :=
    rfl
  unfold wsaRecv
  dsimp only
  split
  · rename_i noSpan
    rw [if_pos noSpan] at advanced
    apply inChain.ends holds rfl rfl rfl
    · rw [List.filter_cons_of_neg Bool.false_ne_true, nothing]
    · exact advanced
  · rename_i spans
    rw [if_neg spans] at advanced
    have owned : state.recvOwner = true :=
      inChain.owner (by rw [holds]; rfl)
    have none_ : state.receives = [] := by
      rw [inChain.receives, holds]
      rfl
    cases result with
    | accepted =>
        apply inChain.advances holds (.posted _)
        · rfl
        · rw [nothing, only_nil]
          rfl
        · change state.connects = 0
          rw [inChain.connects, holds]
          rfl
        · change state.receives ++ _ = _
          rw [none_]
          rfl
        · exact fun _ => owned
        · exact advanced
    | _ =>
        subst holds
        refine ⟨.running thread .wsaRecvFailed, ?_, .fails rfl⟩
        apply inChain.moves rfl rfl
        · rw [List.filter_cons_of_neg Bool.false_ne_true,
            List.filter_cons_of_pos rfl, nothing]
          rfl
        · exact inChain.connects
        · exact inChain.receives
        · rintro ⟨⟩

/-- A step of the send path. -/
theorem InChain.sendStep {state : SessionThreads Thread}
    {stage : RecvStage Thread} (inChain : InChain state stage)
    {thread : Thread} {frame : SessionFrame} {rest : List SessionFrame}
    (at_ : state.frames thread = frame :: rest)
    (beside : frame.receives = false) (send : SessionSend Thread) :
    Chains state stage none ({ state with send := send }.goto thread
      (if send.pcs thread = SendPc.idle then rest else .send :: rest)) := by
  have life : SameReceives state { state with send := send } :=
    { SameReceives.refl with }
  split
  · exact inChain.goesOn at_ beside [] rfl life rfl rfl rfl
  · exact inChain.goesOn at_ beside [.send] rfl life rfl rfl rfl

theorem advanceSend_chain {state next : SessionThreads Thread}
    {stage : RecvStage Thread} (inChain : InChain state stage)
    {thread : Thread} {frame : SessionFrame} {rest : List SessionFrame}
    (at_ : state.frames thread = frame :: rest)
    (beside : frame.receives = false) {result : WSASendResult}
    (stepped : state.advanceSend thread rest result = some next) :
    Chains state stage none next := by
  simp only [advanceSend] at stepped
  split at stepped
  · cases stepped
    exact inChain.goesOn at_ beside [.disconnect, .sendDisconnected] rfl .refl
      rfl rfl rfl
  · simp only [Option.map_eq_some_iff] at stepped
    obtain ⟨send, _, rfl⟩ := stepped
    exact inChain.sendStep at_ beside send

theorem returnToSend_chain {state next : SessionThreads Thread}
    {stage : RecvStage Thread} (inChain : InChain state stage)
    {thread : Thread} {frame : SessionFrame} {rest : List SessionFrame}
    (at_ : state.frames thread = frame :: rest)
    (beside : frame.receives = false) {result : WSASendResult}
    (stepped : state.returnToSend thread rest result = some next) :
    Chains state stage none next := by
  simp only [returnToSend, Option.map_eq_some_iff] at stepped
  obtain ⟨send, _, rfl⟩ := stepped
  exact inChain.sendStep at_ beside _

omit [DecidableEq Thread] in
theorem receivedPackets_callback (state : SessionThreads Thread)
    {callback : Callback} (other : callback.packet = none) :
    receivedPackets (state.callback callback).callbacks =
      receivedPackets state.callbacks := by
  change receivedPackets (state.callbacks ++ [callback]) = _
  rw [receivedPackets, List.filterMap_append, List.filterMap_cons_none other,
    List.filterMap_nil, List.append_nil]
  rfl

omit [DecidableEq Thread] in
theorem recvLoop_callback (state : SessionThreads Thread)
    {callback : Callback} (other : callback.packet = none)
    (stage : RecvStage Thread) :
    (state.callback callback).recvLoop stage = state.recvLoop stage := by
  rw [recvLoop, receivedPackets_callback state other]
  rfl

theorem runFrame_chain {state next : SessionThreads Thread}
    {stage : RecvStage Thread} (inChain : InChain state stage)
    {thread : Thread} {frame : SessionFrame} {rest : List SessionFrame}
    (at_ : state.frames thread = frame :: rest) {result : WSASendResult}
    (stepped : state.runFrame thread rest result frame = some next) :
    Chains state stage none next := by
  have continues {nextFrame : SessionFrame}
      (chain : nextFrame.receives = true)
      (nothing : rest.filter SessionFrame.receives = []) :
      (nextFrame :: rest).filter SessionFrame.receives = [nextFrame] := by
    rw [List.filter_cons_of_pos chain, nothing]
  cases frame with
  | processConnect =>
      cases stepped
      obtain ⟨holds, nothing⟩ := inChain.holder at_ rfl
      exact inChain.runs holds rfl rfl rfl (continues rfl nothing)
        (by rintro ⟨⟩) rfl
  | addSession =>
      obtain ⟨holds, nothing⟩ := inChain.holder at_ rfl
      simp only [runFrame] at stepped
      split at stepped <;> cases stepped
      apply inChain.runs holds
      · rfl
      · rfl
      · rfl
      · exact continues rfl nothing
      · rintro ⟨⟩
      · rfl
  | onConnected =>
      cases stepped
      obtain ⟨holds, nothing⟩ := inChain.holder at_ rfl
      apply inChain.runs holds
      · rfl
      · rfl
      · rfl
      · exact continues rfl nothing
      · rintro ⟨⟩
      · rw [recvLoop_callback state rfl]
        rfl
  | inOnConnected =>
      cases stepped
      obtain ⟨holds, nothing⟩ := inChain.holder at_ rfl
      apply inChain.runs holds
      · rfl
      · rfl
      · rfl
      · exact continues rfl nothing
      · rintro ⟨⟩
      · rw [recvLoop_callback state rfl]
        rfl
  | disconnect =>
      simp only [runFrame] at stepped
      split at stepped <;> cases stepped
      · exact inChain.goesOn at_ rfl [] rfl .refl rfl rfl rfl
      · exact inChain.goesOn at_ rfl [.registerDisconnect] rfl
          { SameReceives.refl with } rfl rfl rfl
  | registerDisconnect =>
      cases stepped
      exact inChain.goesOn at_ rfl [.disconnectEx] rfl
        { SameReceives.refl with } rfl rfl rfl
  | disconnectEx =>
      cases result <;> cases stepped
      · exact inChain.goesOn at_ rfl [] rfl { SameReceives.refl with } rfl rfl
          rfl
      · exact inChain.goesOn at_ rfl [.disconnect, .disconnectExFailed] rfl
          .refl rfl rfl rfl
      · exact inChain.goesOn at_ rfl [.disconnect, .disconnectExFailed] rfl
          .refl rfl rfl rfl
  | disconnectExFailed =>
      cases stepped
      exact inChain.goesOn at_ rfl [] rfl { SameReceives.refl with } rfl rfl
        rfl
  | processDisconnect =>
      cases stepped
      exact inChain.goesOn at_ rfl [.onDisconnected] rfl
        { SameReceives.refl with } rfl rfl rfl
  | onDisconnected =>
      cases stepped
      exact inChain.goesOn at_ rfl [.inOnDisconnected] rfl
        { SameReceives.refl with } rfl (receivedPackets_callback state rfl)
        rfl
  | inOnDisconnected =>
      cases stepped
      exact inChain.goesOn at_ rfl [.releaseSession] rfl
        { SameReceives.refl with } rfl (receivedPackets_callback state rfl)
        rfl
  | releaseSession =>
      simp only [runFrame] at stepped
      split at stepped <;> cases stepped
      exact inChain.goesOn at_ rfl [] rfl { SameReceives.refl with } rfl rfl
        rfl
  | registerRecv =>
      obtain ⟨holds, nothing⟩ := inChain.holder at_ rfl
      simp only [runFrame] at stepped
      split at stepped <;> cases stepped
      · -- the session is not connected, and the chain ends
        subst holds
        refine ⟨.ended, ?_, .disconnected rfl⟩
        apply inChain.moves rfl rfl
        · rw [nothing, only_nil]
          rfl
        · exact inChain.connects
        · exact inChain.receives
        · rintro ⟨⟩
      · apply inChain.runs holds
        · rfl
        · rfl
        · rfl
        · exact continues rfl nothing
        · exact fun _ => rfl
        · rfl
  | wsaRecv =>
      cases stepped
      obtain ⟨holds, nothing⟩ := inChain.holder at_ rfl
      exact wsaRecv_chain inChain holds nothing
  | wsaRecvFailed =>
      cases stepped
      obtain ⟨holds, nothing⟩ := inChain.holder at_ rfl
      apply inChain.ends holds
      · rfl
      · rfl
      · rfl
      · exact nothing
      · rfl
  | processRecv numOfBytes =>
      cases stepped
      obtain ⟨holds, nothing⟩ := inChain.holder at_ rfl
      apply processRecv_chain inChain holds nothing <;> rfl
  | onRecv packets dataSize processedLen =>
      obtain ⟨holds, nothing⟩ := inChain.holder at_ rfl
      cases packets with
      | nil =>
          cases stepped
          exact afterOnRecv_chain inChain holds nothing
      | cons packet packets =>
          cases stepped
          apply inChain.runs holds
          · rfl
          · rfl
          · rfl
          · rw [List.filter_cons_of_neg Bool.false_ne_true]
            exact continues rfl nothing
          · rintro ⟨⟩
          · have appended :
                receivedPackets (state.callbacks ++ [.recvPacket packet]) =
                  receivedPackets state.callbacks ++ [packet] := by
              rw [receivedPackets, List.filterMap_append]
              rfl
            simp only [RecvLoop.advance, RecvLoop.moveTo, recvLoop, callback,
              appended]
  | inOnRecvPacket =>
      cases stepped
      exact inChain.goesOn at_ rfl [] rfl .refl rfl rfl rfl
  | send => exact advanceSend_chain inChain at_ rfl stepped
  | sendDisconnected => exact returnToSend_chain inChain at_ rfl stepped
  | clearSessions =>
      cases stepped
      exact inChain.goesOn at_ rfl [] rfl { SameReceives.refl with } rfl rfl
        rfl

/-- A call, or a completion that has nothing to do with the chain. -/
theorem InChain.calls {state shared : SessionThreads Thread}
    {stage : RecvStage Thread} (inChain : InChain state stage)
    {thread : Thread} (pushed : List SessionFrame)
    (same : shared.frames = state.frames) (life : SameReceives state shared)
    (ring : shared.recvBuffer = state.recvBuffer)
    (received : receivedPackets shared.callbacks =
      receivedPackets state.callbacks)
    (none_ : pushed.filter SessionFrame.receives = []) :
    Chains state stage none
      (shared.goto thread (pushed ++ state.frames thread)) := by
  apply inChain.rests same life ring received
  rw [List.filter_append, none_, List.nil_append]

/-- The same for a thread that is not inside the session. -/
theorem InChain.enters {state shared : SessionThreads Thread}
    {stage : RecvStage Thread} (inChain : InChain state stage)
    {thread : Thread} (outside : state.frames thread = [])
    {pushed : List SessionFrame}
    (same : shared.frames = state.frames) (life : SameReceives state shared)
    (ring : shared.recvBuffer = state.recvBuffer)
    (received : receivedPackets shared.callbacks =
      receivedPackets state.callbacks)
    (none_ : pushed.filter SessionFrame.receives = []) :
    Chains state stage none (shared.goto thread pushed) := by
  apply inChain.rests same life ring received
  rw [none_, outside]
  rfl

theorem connect_chain {state : SessionThreads Thread}
    {stage : RecvStage Thread} (inChain : InChain state stage)
    {thread : Thread} (outstanding : state.connects ≠ 0) :
    Chains state stage none
      ({ state with connects := state.connects - 1 }.goto thread
        [.processConnect]) := by
  rw [inChain.connects] at outstanding
  cases stage with
  | arriving =>
      refine ⟨.running thread .processConnect, ?_, .connects thread rfl⟩
      apply inChain.moves only_nil.symm
      · rfl
      · rfl
      · change state.connects - 1 = 0
        rw [inChain.connects]
        rfl
      · exact inChain.receives
      · rintro ⟨⟩
  | _ => exact absurd rfl outstanding

theorem completeRecv_chain {state next : SessionThreads Thread}
    {stage : RecvStage Thread} (inChain : InChain state stage)
    {thread : Thread} {index : Nat} {chunk : List UInt8}
    (stepped : state.completeRecv thread index chunk = some next) :
    Chains state stage (some chunk) next := by
  simp only [completeRecv] at stepped
  split at stepped
  · cases stepped
  · rename_i wsabufs found
    rw [inChain.receives] at found
    cases stage with
    | posted spans =>
        rw [RecvStage.receives, List.getElem?_singleton] at found
        split at found
        · rename_i first
          cases found
          have owned : state.recvOwner = true := inChain.owner rfl
          rw [if_neg (by simp [owned])] at stepped
          cases stepped
          refine ⟨.running thread (.processRecv chunk.length), ?_,
            .completes thread chunk rfl⟩
          apply inChain.moves only_nil.symm
          · rfl
          · rfl
          · exact inChain.connects
          · change state.receives.eraseIdx index = []
            rw [inChain.receives, first]
            rfl
          · rintro ⟨⟩
        · cases found
    | _ => cases found

/-- Whatever a thread does advances the chain or leaves it alone. -/
theorem step_chain {state next : SessionThreads Thread}
    {stage : RecvStage Thread} (inChain : InChain state stage)
    {action : ThreadAction Thread} (stepped : state.step action = some next) :
    Chains state stage (takenBytes action) next := by
  cases action with
  | connect thread =>
      simp only [step] at stepped
      split at stepped <;> cases stepped
      rename_i enabled
      exact connect_chain inChain enabled.2
  | callDisconnect thread =>
      simp only [step] at stepped
      split at stepped <;> cases stepped
      exact inChain.calls [.disconnect] rfl .refl rfl rfl rfl
  | callSend thread call =>
      simp only [step] at stepped
      split at stepped
      · simp only [Option.map_eq_some_iff] at stepped
        obtain ⟨send, _, rfl⟩ := stepped
        exact inChain.calls [.send] rfl { SameReceives.refl with } rfl rfl rfl
      · cases stepped
  | stop thread =>
      simp only [step] at stepped
      split at stepped <;> cases stepped
      rename_i enabled
      exact inChain.enters enabled.1 rfl { SameReceives.refl with } rfl rfl
        rfl
  | completeDisconnect thread =>
      simp only [step, completeDisconnect] at stepped
      repeat' split at stepped
      all_goals cases stepped
      · refine ⟨stage, { inChain with }, ?_⟩
        exact .rests
      · rename_i outside _ _
        exact inChain.enters outside rfl { SameReceives.refl with } rfl rfl
          rfl
  | completeRecv thread index chunk =>
      simp only [step] at stepped
      split at stepped
      · exact completeRecv_chain inChain stepped
      · cases stepped
  | completeSend thread index numOfBytes =>
      simp only [step] at stepped
      split at stepped
      · rename_i outside
        simp only [Option.map_eq_some_iff] at stepped
        obtain ⟨send, _, rfl⟩ := stepped
        have none_ : (if send.pcs thread = SendPc.idle then []
            else [.send]).filter SessionFrame.receives = [] := by
          split <;> rfl
        exact inChain.enters outside rfl { SameReceives.refl with } rfl rfl
          none_
      · cases stepped
  | advance thread result =>
      simp only [step] at stepped
      split at stepped
      · cases stepped
      · rename_i frame rest at_
        exact runFrame_chain inChain at_ stepped

theorem initial_chain (recvBuffer : RingBuffer) :
    InChain (initial recvBuffer : SessionThreads Thread) .arriving where
  frames := rfl
  connects := rfl
  receives := rfl
  owner := by rintro ⟨⟩

end SessionThreads

end IocpChat
