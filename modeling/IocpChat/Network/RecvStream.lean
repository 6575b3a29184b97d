import IocpChat.Buffer.RingBufferSpans
import IocpChat.Network.ReceivedPacket
import IocpChat.Network.RecvChain

/-!
# The incoming stream of a session

While a `WSARecv` is outstanding nobody touches the receive ring, and the cells
it may write are the free ones.  So the chain of receives does what the
sequential receive path does with the same completions, and `OnRecvPacket` gets
the packets of the received stream, each once and in order, for any interleaving
of the threads of the session.
-/

namespace IocpChat

open TransitionSystem Threads Framing

/-- The frames between a completion and the last packet it brought. -/
def SessionFrame.processes : SessionFrame → Bool
  | processRecv _ => true
  | onRecv _ _ _ => true
  | _ => false

namespace SessionRecv

/-- `ProcessRecv` once `OnRecv` has returned. -/
def finish (session : SessionRecv) (dataSize processedLen : Int) :
    SessionRecv :=
  if processedLen < 0 ∨ dataSize < processedLen then session.disconnect
  else
    let (moved, ring) := session.recvBuffer.moveReadPos processedLen
    let session := { session with recvBuffer := ring }
    if moved = false then session.disconnect
    else session.registerRecv

theorem registerRecv_received (session : SessionRecv) :
    session.registerRecv.received = session.received := by
  unfold registerRecv
  dsimp only
  split
  · rfl
  · split <;> rfl

theorem finish_received (session : SessionRecv)
    (dataSize processedLen : Int) :
    (session.finish dataSize processedLen).received = session.received := by
  unfold finish
  dsimp only
  split
  · rfl
  · split
    · rfl
    · rw [registerRecv_received]

theorem processRecv_received (session : SessionRecv) (numOfBytes : Nat) :
    session.received <+: (session.processRecv numOfBytes).received := by
  unfold processRecv
  dsimp only
  split
  · exact List.prefix_rfl
  · split
    · exact List.prefix_rfl
    · change session.received <+: (finish _ _ _).received
      rw [finish_received]
      exact List.prefix_append ..

/-- What a session has made of a received stream: its packets were handed over,
and while a receive is outstanding the rest is in the ring. -/
structure Parses (session : SessionRecv) (stream : List UInt8) : Prop where
  valid : session.recvBuffer.Valid
  received : session.received = (PacketSession.framing.parse stream).frames
  posted : ∀ wsabufs ∈ session.posted,
    0 < session.recvBuffer.offered 0 ∧
      wsabufs = RingBuffer.spans (session.recvBuffer.getWriteSpan 0) ∧
      session.recvBuffer.contents =
        (PacketSession.framing.parse stream).rest ∧
      (PacketSession.framing.parse stream).rejected = false

/-- No receive is outstanding any more. -/
theorem Parses.ended {session : SessionRecv} {stream : List UInt8}
    (valid : session.recvBuffer.Valid)
    (received : session.received =
      (PacketSession.framing.parse stream).frames)
    (nothing : session.posted = none) : Parses session stream where
  valid := valid
  received := received
  posted := by
    rw [nothing]
    rintro wsabufs ⟨⟩

theorem Parses.registerRecv {session : SessionRecv} {stream : List UInt8}
    (valid : session.recvBuffer.Valid)
    (received : session.received =
      (PacketSession.framing.parse stream).frames)
    (nothing : session.posted = none)
    (stored : session.recvBuffer.contents =
      (PacketSession.framing.parse stream).rest)
    (wellFormed : (PacketSession.framing.parse stream).rejected = false) :
    Parses session.registerRecv stream := by
  by_cases connected : session.connected = true
  · by_cases room : 0 < session.recvBuffer.offered 0
    · rw [registerRecv_of_room valid connected room]
      refine ⟨valid, received, ?_⟩
      rintro wsabufs ⟨⟩
      exact ⟨room, rfl, stored, wellFormed⟩
    · have noSpan : (session.recvBuffer.getWriteSpan 0).spanCount = 0 := by
        rw [RingBuffer.getWriteSpan, RingBuffer.writeSpans,
          if_pos (Int.not_lt.mp room)]
      have unchanged : session.registerRecv = session.disconnect := by
        rw [SessionRecv.registerRecv, if_neg (by simp [connected])]
        exact if_pos noSpan
      rw [unchanged]
      exact Parses.ended valid received nothing
  · have unchanged : session.registerRecv = session :=
      if_pos (Bool.eq_false_iff.mpr connected)
    rw [unchanged]
    exact Parses.ended valid received nothing

/-- Dispatching the stored bytes, which are what an earlier parse has left and
what has come since. -/
theorem processData_parses {session : SessionRecv}
    {stream chunk : List UInt8} (valid : session.recvBuffer.Valid)
    (received : session.received =
      (PacketSession.framing.parse stream).frames)
    (stored : session.recvBuffer.contents =
      (PacketSession.framing.parse stream).rest ++ chunk)
    (nothing : session.posted = none) :
    Parses session.processData (stream ++ chunk) := by
  have whole := PacketSession.framing.parse_append stream chunk
  rw [← stored] at whole
  have split := PacketSession.framing.parse_flatten
    session.recvBuffer.contents
  have length := RingBuffer.length_contents session.recvBuffer
  have bounds := RingBuffer.getDataSize_bounds valid
  unfold processData
  simp only [packetData_eq valid, PacketSession.onRecv_eq]
  generalize PacketSession.framing.parse session.recvBuffer.contents =
    parsed at whole split
  obtain ⟨frames, rest, rejected⟩ := parsed
  dsimp only at whole split ⊢
  have receivedNow : session.received ++ frames =
      (PacketSession.framing.parse (stream ++ chunk)).frames := by
    rw [received, whole]
  have lengths := congrArg List.length split
  rw [List.length_append, length] at lengths
  cases rejected with
  | true =>
      have refused : ((-1 : Int) < 0 ∨
          session.recvBuffer.getDataSize < (-1 : Int)) := Or.inl (by decide)
      simp only [if_true, if_pos refused]
      exact Parses.ended valid receivedNow nothing
  | false =>
      have accepted : ¬((frames.flatten.length : Int) < 0 ∨
          session.recvBuffer.getDataSize < (frames.flatten.length : Int)) := by
        omega
      simp only [Bool.false_eq_true, if_false, if_neg accepted]
      by_cases moves : (0 : Int) < frames.flatten.length
      · obtain ⟨next, moved, nextValid, _, _, contents⟩ :=
          RingBuffer.moveReadPos_spec valid moves (by omega)
        simp only [moved, Bool.true_eq_false, if_false]
        apply Parses.registerRecv
        · exact nextValid
        · exact receivedNow
        · exact nothing
        · change next.contents = _
          rw [contents, whole, ← split]
          exact List.drop_left' rfl
        · rw [whole]
      · have zero : frames.flatten.length = 0 := by omega
        simp only [zero, Nat.cast_zero, RingBuffer.moveReadPos_zero, if_true]
        exact Parses.ended valid receivedNow nothing

/-- A completion of the outstanding receive, with as many bytes as it was lent
at most, or with none where the peer has closed. -/
theorem Parses.complete {session : SessionRecv} {stream chunk : List UInt8}
    (parses : Parses session stream) {wsabufs : List WSABUF}
    (posted : session.posted = some wsabufs)
    (within : (chunk.length : Int) ≤ RingBuffer.spanTotal wsabufs) :
    Parses (session.complete chunk) (stream ++ chunk) := by
  obtain ⟨room, rfl, stored, _⟩ := parses.posted wsabufs posted
  have valid := parses.valid
  rw [SessionRecv.complete, posted]
  cases chunk with
  | nil =>
      rw [List.append_nil]
      exact Parses.ended
        ⟨valid.capacity_pos, valid.capacity_le, valid.readPos_nonneg,
          valid.readPos_lt, valid.writePos_nonneg, valid.writePos_lt⟩
        parses.received rfl
  | cons first rest =>
      obtain ⟨_, total, filled⟩ := RingBuffer.getWriteSpan_spec valid room
      rw [total] at within
      obtain ⟨ring, moved, ringValid, _, contents⟩ :=
        RingBuffer.moveWritePos_spec valid (List.cons_ne_nil first rest)
          (within.trans (RingBuffer.offered_le _ _))
          (filled (first :: rest) within)
      have someBytes : ¬((first :: rest).length : Int) = 0 := by
        rw [List.length_cons]
        omega
      simp only [processRecv, if_neg someBytes, moved, Bool.true_eq_false,
        if_false]
      apply processData_parses
      · exact ringValid
      · exact parses.received
      · change ring.contents = _
        rw [contents, stored]
      · rfl

theorem start_parses {ring : RingBuffer} (valid : ring.Valid)
    (empty : ring.contents = []) : Parses (start ring) [] := by
  have nothing := Rule.parse_incomplete PacketSession.framing.nothing
  apply Parses.registerRecv valid
  · rw [nothing]
  · rfl
  · rw [nothing]
    exact empty
  · rw [nothing]

end SessionRecv

namespace RecvLoop

variable {Thread : Type}

/-- The sequential session at the chain's ring. -/
def session (loop : RecvLoop Thread) : SessionRecv :=
  { recvBuffer := loop.recvBuffer
    connected := true
    posted := none
    received := loop.received }

/-- The sequential session when the chain comes to its next receive, or ends,
without a disconnect from elsewhere. -/
def resume (loop : RecvLoop Thread) : SessionRecv :=
  match loop.stage with
  | .posted wsabufs => { loop.session with posted := some wsabufs }
  | .running _ (.processRecv numOfBytes) =>
      loop.session.processRecv numOfBytes
  | .running _ (.onRecv packets dataSize processedLen) =>
      { loop.session with received := loop.received ++ packets }.finish
        dataSize processedLen
  | _ => loop.session.registerRecv

/-- The chain is on the way to this sequential session. -/
def Agrees (loop : RecvLoop Thread) (session : SessionRecv) : Prop :=
  match loop.stage with
  | .ended => session.received = loop.received
  | .running _ .wsaRecvFailed => session.received = loop.received
  | _ => session = loop.resume

theorem processRecv_agrees {loop : RecvLoop Thread} {session : SessionRecv}
    {thread : Thread} {numOfBytes : Nat}
    (agrees : session = loop.session.processRecv numOfBytes) :
    (loop.processRecv thread numOfBytes).Agrees session := by
  subst agrees
  unfold processRecv SessionRecv.processRecv
  by_cases none_ : numOfBytes = 0
  · simp only [none_, Nat.cast_zero, if_true]
    rfl
  · have some_ : ¬(numOfBytes : Int) = 0 := by omega
    rw [if_neg none_, if_neg some_]
    dsimp only [session]
    split
    · rfl
    · rfl

theorem afterOnRecv_agrees {loop : RecvLoop Thread} {session : SessionRecv}
    {thread : Thread} {dataSize processedLen : Int}
    (agrees : session = loop.session.finish dataSize processedLen) :
    (loop.afterOnRecv thread dataSize processedLen).Agrees session := by
  subst agrees
  unfold afterOnRecv SessionRecv.finish
  split
  · rfl
  · dsimp only [session]
    split
    · rfl
    · rfl

theorem advance_agrees {loop : RecvLoop Thread} {session : SessionRecv}
    {thread : Thread} {frame : SessionFrame}
    (running : loop.stage = .running thread frame)
    (agrees : loop.Agrees session) :
    (loop.advance thread frame).Agrees session := by
  unfold Agrees resume at agrees
  rw [running] at agrees
  cases frame with
  | processConnect => exact agrees
  | addSession => exact agrees
  | onConnected => exact agrees
  | inOnConnected => exact agrees
  | registerRecv => exact agrees
  | wsaRecvFailed => exact agrees
  | wsaRecv =>
      change session = loop.session.registerRecv at agrees
      subst agrees
      have connected : ¬loop.session.connected = false := Bool.noConfusion
      have ring : loop.session.recvBuffer = loop.recvBuffer := rfl
      simp only [advance, SessionRecv.registerRecv, if_neg connected, ring]
      by_cases noSpan : (loop.recvBuffer.getWriteSpan 0).spanCount = 0
      · rw [if_pos noSpan, if_pos noSpan]
        rfl
      · rw [if_neg noSpan, if_neg noSpan]
        rfl
  | processRecv numOfBytes => exact processRecv_agrees agrees
  | onRecv packets dataSize processedLen =>
      cases packets with
      | nil =>
          apply afterOnRecv_agrees
          change session = SessionRecv.finish
            { loop.session with received := loop.received ++ [] } _ _
            at agrees
          rw [List.append_nil] at agrees
          exact agrees
      | cons packet packets =>
          change session = SessionRecv.finish
            { loop.session with
              received := loop.received ++ packet :: packets } _ _
            at agrees
          rw [List.append_cons] at agrees
          exact agrees
  | _ =>
      change session.received = loop.received
      rw [agrees, SessionRecv.registerRecv_received]
      rfl

/-- A step of the chain keeps to the sequential session, which takes the same
completions. -/
theorem Step.agrees {loop next : RecvLoop Thread}
    {taken : Option (List UInt8)} {session : SessionRecv}
    (step : loop.Step taken next) (agrees : loop.Agrees session) :
    next.Agrees (taken.toList.foldl SessionRecv.complete session) := by
  cases step with
  | rests => exact agrees
  | connects thread arriving =>
      unfold Agrees resume at agrees
      rw [arriving] at agrees
      exact agrees
  | advances running => exact advance_agrees running agrees
  | disconnected running =>
      unfold Agrees resume at agrees
      rw [running] at agrees
      change session.received = loop.received
      rw [agrees, SessionRecv.registerRecv_received]
      rfl
  | fails running =>
      unfold Agrees resume at agrees
      rw [running] at agrees
      change session.received = loop.received
      rw [agrees, SessionRecv.registerRecv_received]
      rfl
  | completes thread chunk posted =>
      unfold Agrees resume at agrees
      rw [posted] at agrees
      change session.complete chunk = _
      rw [agrees]
      rfl

/-- The sequential session parses what the chain receives. -/
theorem Step.parses {loop next : RecvLoop Thread}
    {taken : Option (List UInt8)} {session : SessionRecv}
    {stream : List UInt8} (step : loop.Step taken next)
    (agrees : loop.Agrees session) (parses : session.Parses stream)
    (within : ∀ chunk ∈ taken, ∀ wsabufs, loop.stage = .posted wsabufs →
      (chunk.length : Int) ≤ RingBuffer.spanTotal wsabufs) :
    (taken.toList.foldl SessionRecv.complete session).Parses
      (stream ++ taken.getD []) := by
  cases step with
  | completes thread chunk posted =>
      have within := within chunk rfl _ posted
      unfold Agrees resume at agrees
      rw [posted] at agrees
      exact parses.complete (congrArg SessionRecv.posted agrees) within
  | _ =>
      rw [Option.getD_none, List.append_nil]
      exact parses

/-- What the chain has handed over, by its stage. -/
theorem Agrees.received {loop : RecvLoop Thread} {session : SessionRecv}
    (agrees : loop.Agrees session) :
    loop.received <+: session.received ∧
      ((∀ thread frame, loop.stage = .running thread frame →
          frame.processes = false) →
        loop.received = session.received) := by
  have same {nobody : Prop} (equal : loop.received = session.received) :
      loop.received <+: session.received ∧
        (nobody → loop.received = session.received) :=
    ⟨equal ▸ List.prefix_rfl, fun _ => equal⟩
  unfold Agrees resume at agrees
  cases at_ : loop.stage with
  | ended =>
      rw [at_] at agrees
      exact same agrees.symm
  | arriving =>
      rw [at_] at agrees
      apply same
      rw [agrees, SessionRecv.registerRecv_received]
      rfl
  | posted wsabufs =>
      rw [at_] at agrees
      apply same
      rw [agrees]
      rfl
  | running thread frame =>
      rw [at_] at agrees
      have processing : frame.processes = true →
          (∀ other otherFrame,
              RecvStage.running thread frame = .running other otherFrame →
              otherFrame.processes = false) →
            loop.received = session.received := by
        intro processes nobody
        rw [nobody thread frame rfl] at processes
        cases processes
      cases frame with
      | wsaRecvFailed => exact same agrees.symm
      | processRecv numOfBytes =>
          refine ⟨?_, processing rfl⟩
          rw [agrees]
          exact loop.session.processRecv_received numOfBytes
      | onRecv packets dataSize processedLen =>
          refine ⟨?_, processing rfl⟩
          rw [agrees, SessionRecv.finish_received]
          exact List.prefix_append ..
      | _ =>
          apply same
          rw [agrees, SessionRecv.registerRecv_received]
          rfl

/-- The chain keeps the ring well formed. -/
theorem Step.valid {loop next : RecvLoop Thread}
    {taken : Option (List UInt8)} (step : loop.Step taken next)
    (valid : loop.recvBuffer.Valid) : next.recvBuffer.Valid := by
  cases step with
  | rests => exact valid
  | connects thread arriving => exact valid
  | disconnected running => exact valid
  | fails running => exact valid
  | completes thread chunk posted =>
      obtain ⟨positive, bounded, readLow, readHigh, writeLow, writeHigh⟩ :=
        valid
      exact ⟨positive, bounded, readLow, readHigh, writeLow, writeHigh⟩
  | @advances thread frame running =>
      cases frame with
      | wsaRecv =>
          simp only [advance]
          split <;> exact valid
      | processRecv numOfBytes =>
          simp only [advance, processRecv]
          repeat' split
          · exact valid
          · exact (RingBuffer.moveWritePos_keeps valid _).1
          · exact (RingBuffer.moveWritePos_keeps valid _).1
      | onRecv packets dataSize processedLen =>
          cases packets with
          | nil =>
              simp only [advance, afterOnRecv]
              repeat' split
              · exact valid
              · exact (SessionRecv.moveReadPos_keeps valid _).1
              · exact (SessionRecv.moveReadPos_keeps valid _).1
          | cons packet packets => exact valid
      | _ => exact valid

/-- The spans of the outstanding receive are those of the ring as it is. -/
def LendsWriteSpan (loop : RecvLoop Thread) : Prop :=
  ∀ wsabufs, loop.stage = .posted wsabufs →
    wsabufs = RingBuffer.spans (loop.recvBuffer.getWriteSpan 0)

theorem Step.lendsWriteSpan {loop next : RecvLoop Thread}
    {taken : Option (List UInt8)} (step : loop.Step taken next)
    (lends : loop.LendsWriteSpan) : next.LendsWriteSpan := by
  have elsewhere {stage : RecvStage Thread} {loop : RecvLoop Thread}
      (notPosted : ∀ wsabufs, stage ≠ .posted wsabufs) :
      (loop.moveTo stage).LendsWriteSpan := by
    intro wsabufs posted
    exact absurd posted (notPosted wsabufs)
  cases step with
  | rests => exact lends
  | connects thread arriving => exact elsewhere (by rintro wsabufs ⟨⟩)
  | disconnected running => exact elsewhere (by rintro wsabufs ⟨⟩)
  | fails running => exact elsewhere (by rintro wsabufs ⟨⟩)
  | completes thread chunk posted =>
      rintro wsabufs ⟨⟩
  | @advances thread frame running =>
      cases frame with
      | wsaRecv =>
          simp only [advance]
          split
          · exact elsewhere (by rintro wsabufs ⟨⟩)
          · rintro wsabufs ⟨⟩
            rfl
      | processRecv numOfBytes =>
          simp only [advance, processRecv]
          repeat' split
          all_goals exact elsewhere (by rintro wsabufs ⟨⟩)
      | onRecv packets dataSize processedLen =>
          cases packets with
          | nil =>
              simp only [advance, afterOnRecv]
              repeat' split
              all_goals exact elsewhere (by rintro wsabufs ⟨⟩)
          | cons packet packets => exact elsewhere (by rintro wsabufs ⟨⟩)
      | _ => exact elsewhere (by rintro wsabufs ⟨⟩)

end RecvLoop

namespace SessionThreads

variable {Thread : Type} [DecidableEq Thread]

/-- The session whose receive ring is this one. -/
def startingWith (recvBuffer : RingBuffer) :
    Machine (SessionThreads Thread) (ThreadAction Thread) where
  initial := (· = initial recvBuffer)
  step := step

/-- With the bytes that the completions brought so far. -/
def receiving (recvBuffer : RingBuffer) :
    Machine (SessionThreads Thread × List UInt8) (ThreadAction Thread) :=
  (startingWith recvBuffer).recording [] fun _ action stream =>
    stream ++ (takenBytes action).getD []

/-- What keeps the receive ring of a session from being written twice. -/
structure OneReceive (state : SessionThreads Thread) : Prop where
  oneOutstanding : state.receives.length ≤ 1
  oneThread : ∀ first second,
    (∃ frame ∈ state.frames first, frame.receives = true) →
    (∃ frame ∈ state.frames second, frame.receives = true) → first = second
  notBoth : state.receives ≠ [] →
    ∀ thread, ∀ frame ∈ state.frames thread, frame.receives = false
  notDropped : state.receives ≠ [] → state.recvOwner = true
  lent : ∀ wsabufs ∈ state.receives,
    wsabufs = RingBuffer.spans (state.recvBuffer.getWriteSpan 0)
  lendsFree : state.recvBuffer.LendsFree 0

theorem InChain.oneReceive {state : SessionThreads Thread}
    {stage : RecvStage Thread} (inChain : InChain state stage)
    (valid : state.recvBuffer.Valid)
    (lends : (state.recvLoop stage).LendsWriteSpan) : OneReceive state := by
  have holder : ∀ thread,
      (∃ frame ∈ state.frames thread, frame.receives = true) →
      ∃ frame, stage = .running thread frame := by
    rintro thread ⟨frame, member, receives⟩
    have found : frame ∈ stage.frames thread := by
      rw [← inChain.frames]
      exact List.mem_filter.mpr ⟨member, receives⟩
    cases stage with
    | running holder held =>
        obtain ⟨first, rest, cut⟩ := List.exists_cons_of_ne_nil
          (List.ne_nil_of_mem found)
        obtain ⟨rfl, _⟩ := only_eq_cons cut
        exact ⟨held, rfl⟩
    | _ => cases found
  have posted : state.receives ≠ [] →
      ∃ wsabufs, stage = .posted wsabufs := by
    intro outstanding
    rw [inChain.receives] at outstanding
    cases stage with
    | posted wsabufs => exact ⟨wsabufs, rfl⟩
    | _ => exact absurd rfl outstanding
  constructor
  · rw [inChain.receives]
    cases stage <;> simp [RecvStage.receives]
  · intro first second inFirst inSecond
    obtain ⟨_, runsFirst⟩ := holder first inFirst
    obtain ⟨_, runsSecond⟩ := holder second inSecond
    rw [runsFirst] at runsSecond
    exact (RecvStage.running.inj runsSecond).1
  · intro outstanding thread frame member
    by_contra receives
    obtain ⟨_, rfl⟩ := posted outstanding
    obtain ⟨_, runs⟩ := holder thread
      ⟨frame, member, Bool.not_eq_false _ ▸ receives⟩
    cases runs
  · intro outstanding
    obtain ⟨_, rfl⟩ := posted outstanding
    exact inChain.owner rfl
  · intro wsabufs member
    rw [inChain.receives] at member
    cases stage with
    | posted spans =>
        rw [List.mem_singleton.mp member]
        exact lends spans rfl
    | _ => cases member
  · exact RingBuffer.lendsFree valid 0

/-- A thread connects the session, and comes out of `RegisterRecv`. -/
def arrival (thread : Thread) : List (ThreadAction Thread) :=
  .connect thread :: List.replicate 6 (.advance thread .accepted)

/-- A receive brings at most as many bytes as it was lent. -/
def FillsSpans (state : SessionThreads Thread) :
    ThreadAction Thread → Prop
  | .completeRecv _ index chunk =>
      ∀ wsabufs ∈ state.receives[index]?,
        (chunk.length : Int) ≤ RingBuffer.spanTotal wsabufs
  | _ => True

instance (state : SessionThreads Thread) :
    ∀ action, Decidable (FillsSpans state action)
  | .completeRecv _ index chunk =>
      inferInstanceAs (Decidable (∀ wsabufs ∈ state.receives[index]?,
        (chunk.length : Int) ≤ RingBuffer.spanTotal wsabufs))
  | .connect _ => .isTrue trivial
  | .callDisconnect _ => .isTrue trivial
  | .callSend _ _ => .isTrue trivial
  | .stop _ => .isTrue trivial
  | .completeDisconnect _ => .isTrue trivial
  | .completeSend _ _ _ => .isTrue trivial
  | .advance _ _ => .isTrue trivial

/-- `OnRecvPacket` gets the packets of the stream that the completions brought;
it has got all of them when no thread is between a completion and its last
packet, and while a receive is outstanding the ring holds the rest. -/
structure ReceivesStream (state : SessionThreads Thread)
    (stream : List UInt8) : Prop where
  front : receivedPackets state.callbacks <+:
    (PacketSession.framing.parse stream).frames
  all : (∀ thread, ∀ frame ∈ state.frames thread,
      frame.processes = false) →
    receivedPackets state.callbacks =
      (PacketSession.framing.parse stream).frames
  stored : state.receives ≠ [] →
    state.recvBuffer.contents = (PacketSession.framing.parse stream).rest ∧
      (PacketSession.framing.parse stream).rejected = false

theorem InChain.running_of_mem {state : SessionThreads Thread}
    {stage : RecvStage Thread} (inChain : InChain state stage)
    {thread : Thread} {frame : SessionFrame}
    (running : stage = .running thread frame) :
    frame ∈ state.frames thread := by
  subst running
  have found : frame ∈ marked SessionFrame.receives state.frames thread := by
    rw [inChain.frames, RecvStage.frames, only_self]
    exact List.mem_singleton_self frame
  exact (List.mem_filter.mp found).1

/-- A stage, and a sequential session that has parsed the stream. -/
theorem InChain.receivesStream {state : SessionThreads Thread}
    {stage : RecvStage Thread} {session : SessionRecv} {stream : List UInt8}
    (inChain : InChain state stage)
    (agrees : (state.recvLoop stage).Agrees session)
    (parses : session.Parses stream) : ReceivesStream state stream := by
  obtain ⟨front, all⟩ := agrees.received
  rw [parses.received] at front all
  refine ⟨front, ?_, ?_⟩
  · intro nobody
    apply all
    intro thread frame running
    exact nobody thread frame (inChain.running_of_mem running)
  · intro outstanding
    rw [inChain.receives] at outstanding
    cases stage with
    | posted wsabufs =>
        change session = _ at agrees
        have posted : wsabufs ∈ session.posted := by
          rw [agrees]
          rfl
        obtain ⟨_, _, stored, wellFormed⟩ := parses.posted wsabufs posted
        rw [agrees] at stored
        exact ⟨stored, wellFormed⟩
    | _ => exact absurd rfl outstanding

/-- The receive that completes is the one that is posted. -/
theorem fills_posted {state next : SessionThreads Thread}
    {stage : RecvStage Thread} {action : ThreadAction Thread}
    (inChain : InChain state stage) (fills : FillsSpans state action)
    (stepped : state.step action = some next) {chunk : List UInt8}
    (taken : chunk ∈ takenBytes action) {wsabufs : List WSABUF}
    (posted : stage = .posted wsabufs) :
    (chunk.length : Int) ≤ RingBuffer.spanTotal wsabufs := by
  cases action with
  | completeRecv thread index bytes =>
      cases taken
      apply fills
      simp only [step, completeRecv] at stepped
      split at stepped
      · split at stepped
        · cases stepped
        · rename_i found
          rw [inChain.receives, posted, RecvStage.receives] at found ⊢
          rw [List.getElem?_singleton] at found ⊢
          split at found
          · rename_i first
            rw [if_pos first]
            rfl
          · cases found
      · cases stepped
  | _ => cases taken

/-- The chain keeps to a sequential session that has parsed the stream. -/
def Receives (state : SessionThreads Thread) (stream : List UInt8) : Prop :=
  ∃ stage session, InChain state stage ∧
    (state.recvLoop stage).Agrees session ∧ session.Parses stream

theorem Receives.step {state next : SessionThreads Thread}
    {stream : List UInt8} {action : ThreadAction Thread}
    (receives : Receives state stream) (fills : FillsSpans state action)
    (stepped : state.step action = some next) :
    Receives next (stream ++ (takenBytes action).getD []) := by
  obtain ⟨stage, session, inChain, agrees, parses⟩ := receives
  obtain ⟨nextStage, nextInChain, step⟩ := step_chain inChain stepped
  refine ⟨nextStage, _, nextInChain, step.agrees agrees, ?_⟩
  apply step.parses agrees parses
  intro chunk taken wsabufs posted
  exact fills_posted inChain fills stepped taken posted

theorem initial_receives {capacity : Nat} (positive : 0 < capacity)
    (bounded : capacity ≤ 2 ^ 30) (buffer : FlatMemory.Memory UInt8) :
    Receives (initial (RingBuffer.create capacity buffer) :
      SessionThreads Thread) [] := by
  have created := RingBuffer.create_represents positive bounded buffer
  exact ⟨.arriving, _, initial_chain _, rfl,
    SessionRecv.start_parses created.valid created.contents⟩

/-- For any interleaving of its threads, a session hands over the packets of
the stream it receives, in order, each of them once. -/
theorem reaches_receivesStream {capacity : Nat} (positive : 0 < capacity)
    (bounded : capacity ≤ 2 ^ 30) {buffer : FlatMemory.Memory UInt8}
    {state : SessionThreads Thread} {stream : List UInt8}
    (reached : (receiving (RingBuffer.create capacity buffer)).Reaches
      (fun pair => FillsSpans pair.1) (state, stream)) :
    ReceivesStream state stream := by
  have receives : Receives state stream := by
    apply @Machine.Reaches.invariant _ _ _ _
      (fun pair : SessionThreads Thread × List UInt8 =>
        Receives pair.1 pair.2) _ _ _ reached
    · rintro ⟨state, stream⟩ ⟨rfl, rfl⟩
      exact initial_receives positive bounded buffer
    · rintro ⟨state, stream⟩ action ⟨next, nextStream⟩ receives fills stepped
      obtain ⟨moved, rfl⟩ := Machine.recording_step_eq_some_iff.mp stepped
      exact receives.step fills moved
  obtain ⟨stage, session, inChain, agrees, parses⟩ := receives
  exact inChain.receivesStream agrees parses

/-- Two packets in two pieces, taken by two threads. -/
def twoPieces : List (ThreadAction Bool) :=
  List.flatten [arrival true,
    [.completeRecv false 0 [4, 0, 237, 3, 4, 0]],
    List.replicate 6 (.advance false .accepted),
    [.completeRecv true 0 [241, 3]],
    List.replicate 2 (.advance true .accepted)]

theorem twoPieces_receivesStream :
    let ring := RingBuffer.create (4096 : Nat) fun _ => 0
    let stream : List UInt8 := [4, 0, 237, 3, 4, 0, 241, 3]
    ∃ state, (receiving ring).run (initial ring, []) twoPieces =
        some (state, stream) ∧
      receivedPackets state.callbacks = [[4, 0, 237, 3], [4, 0, 241, 3]] ∧
      ReceivesStream state stream := by
  intro ring stream
  obtain ⟨⟨state, received⟩, replayed⟩ :
      ∃ pair, (receiving ring).run (initial ring, []) twoPieces =
        some pair :=
    Option.isSome_iff_exists.mp (by decide +kernel)
  have facts : (receivedPackets state.callbacks, received) =
      ([[4, 0, 237, 3], [4, 0, 241, 3]], stream) := by
    apply @Machine.view_of_run _ _ _ _ _ _ _
      (fun pair : SessionThreads Bool × List UInt8 =>
        (receivedPackets pair.1.callbacks, pair.2)) _ replayed
    decide +kernel
  obtain ⟨packets, rfl⟩ := Prod.mk.inj facts
  refine ⟨state, replayed, packets, ?_⟩
  apply @reaches_receivesStream Bool _ 4096 (by decide) (by decide)
  have starts : (receiving ring).Reaches
      (fun pair => FillsSpans pair.1)
      ((initial ring, []) : SessionThreads Bool × List UInt8) :=
    .start ⟨rfl, rfl⟩
  apply starts.of_run _ replayed
  decide +kernel

end SessionThreads

end IocpChat
