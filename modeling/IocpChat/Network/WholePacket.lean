import IocpChat.Buffer.RingBufferFifo
import IocpChat.Network.SessionRecv
import IocpChat.Protocol.PacketHandler
import IocpChat.Protocol.RoundTrip

/-!
# A whole packet in the receive ring

A packet that arrives in pieces stays in the receive ring until its last byte is
there.  `MakeSendBuffer` allows 4096 bytes; the ring of a `ClientSession` has
4096 cells, one of which is always free.
-/

namespace IocpChat

open FlatMemory Framing Protocol

namespace RingBuffer

/-- A receive of these bytes, `none` if the spans have no room for them or
`MoveWritePos` refuses. -/
def receive (ring : RingBuffer) (chunk : List UInt8) : Option RingBuffer :=
  let wsabufs := spans (ring.getWriteSpan 0)
  if spanTotal wsabufs < chunk.length then none
  else
    let ring := { ring with buffer := fill ring.buffer wsabufs chunk }
    let (moved, ring) := ring.moveWritePos chunk.length
    if moved then some ring else none

/-- Receives without a `MoveReadPos` in between. -/
def receiveAll : RingBuffer → List (List UInt8) → Option RingBuffer
  | ring, [] => some ring
  | ring, chunk :: chunks =>
      (ring.receive chunk).bind fun next => next.receiveAll chunks

/-- The receive ring of a `ClientSession` that holds nothing, at any
position. -/
structure ServerRingEmpty (ring : RingBuffer) : Prop where
  capacity_eq : ring.capacity = 4096
  readPos_nonneg : 0 ≤ ring.readPos
  readPos_lt : ring.readPos < 4096
  writePos_eq : ring.writePos = ring.readPos

/-- All the pieces are stored, and `OnRecv` then dispatches them as one packet
and returns its size. -/
def DispatchesWhole (ring : RingBuffer) (chunks : List (List UInt8)) : Prop :=
  ∃ stored, ring.receiveAll chunks = some stored ∧
    ∃ packetData, stored.peek stored.getDataSize = some packetData ∧
      PacketSession.onRecv packetData =
        ([chunks.flatten], (chunks.flatten.length : Int))

theorem ServerRingEmpty.valid {ring : RingBuffer}
    (empty : ring.ServerRingEmpty) : ring.Valid := by
  obtain ⟨capacity, readLow, readHigh, write⟩ := empty
  constructor <;> omega

theorem ServerRingEmpty.nothingStored {ring : RingBuffer}
    (empty : ring.ServerRingEmpty) :
    ring.getDataSize = 0 ∧ ring.contents = [] := by
  have dataSize : ring.getDataSize = 0 := by
    rw [getDataSize_eq empty.valid, empty.writePos_eq, if_pos (le_refl _)]
    omega
  refine ⟨dataSize, List.eq_nil_of_length_eq_zero ?_⟩
  rw [length_contents, dataSize]
  rfl

theorem ServerRingEmpty.getFreeSize_eq {ring : RingBuffer}
    (empty : ring.ServerRingEmpty) : ring.getFreeSize = 4095 := by
  rw [RingBuffer.getFreeSize_eq empty.valid, empty.nothingStored.1,
    empty.capacity_eq]
  rfl

section Receives

variable {ring : RingBuffer} (valid : ring.Valid)

include valid

/-- The spans have room for everything that is free. -/
theorem spanTotal_getWriteSpan :
    spanTotal (spans (ring.getWriteSpan 0)) = ring.getFreeSize := by
  have free := getFreeSize_eq valid
  have bounds := getDataSize_bounds valid
  have all : ring.offered 0 = ring.getFreeSize := rfl
  by_cases room : 0 < ring.offered 0
  · obtain ⟨_, total, _⟩ := getWriteSpan_spec valid room
    rw [total, all]
  · have noSpan : spans (ring.getWriteSpan 0) = [] := by
      rw [getWriteSpan, writeSpans, if_pos (by omega)]
      rfl
    rw [noSpan]
    change 0 = ring.getFreeSize
    omega

/-- A receive into the free cells appends its bytes. -/
theorem receive_of_fits {chunk : List UInt8} (nonempty : chunk ≠ [])
    (fits : (chunk.length : Int) ≤ ring.getFreeSize) :
    ∃ next, ring.receive chunk = some next ∧ next.Valid ∧
      next.capacity = ring.capacity ∧
      next.contents = ring.contents ++ chunk := by
  have positive := List.length_pos_iff.mpr nonempty
  have total := spanTotal_getWriteSpan valid
  have room : 0 < ring.offered 0 := by
    change 0 < ring.getFreeSize
    omega
  obtain ⟨_, _, filled⟩ := getWriteSpan_spec valid room
  obtain ⟨next, moved, nextValid, capacity, contents⟩ :=
    moveWritePos_spec valid nonempty fits (filled chunk fits)
  refine ⟨next, ?_, nextValid, capacity, contents⟩
  simp only [receive, total, if_neg (Int.not_lt.mpr fits), moved, if_true]

theorem receive_of_tooLong {chunk : List UInt8}
    (tooLong : ring.getFreeSize < chunk.length) :
    ring.receive chunk = none := by
  simp only [receive, spanTotal_getWriteSpan valid, if_pos tooLong]

end Receives

/-- Pieces can be received exactly when all of them fit together; then the ring
holds them behind what it held. -/
theorem receiveAll_spec {ring : RingBuffer} {chunks : List (List UInt8)}
    (valid : ring.Valid) (nonempty : ∀ chunk ∈ chunks, chunk ≠ []) :
    ((chunks.flatten.length : Int) ≤ ring.getFreeSize →
      ∃ stored, ring.receiveAll chunks = some stored ∧ stored.Valid ∧
        stored.contents = ring.contents ++ chunks.flatten) ∧
    (ring.getFreeSize < chunks.flatten.length →
      ring.receiveAll chunks = none) := by
  induction chunks generalizing ring with
  | nil =>
      have free := getFreeSize_eq valid
      have bounds := getDataSize_bounds valid
      constructor
      · intro _
        exact ⟨ring, rfl, valid, (List.append_nil _).symm⟩
      · intro impossible
        simp only [List.flatten_nil, List.length_nil, Nat.cast_zero]
          at impossible
        omega
  | cons chunk chunks induction =>
      obtain ⟨chunkNonempty, restNonempty⟩ := List.forall_mem_cons.mp nonempty
      simp only [List.flatten_cons, List.length_append, Nat.cast_add]
      by_cases fits : (chunk.length : Int) ≤ ring.getFreeSize
      · obtain ⟨next, received, nextValid, capacity, contents⟩ :=
          receive_of_fits valid chunkNonempty fits
        have left : next.getFreeSize = ring.getFreeSize - chunk.length := by
          have lengths := congrArg List.length contents
          rw [List.length_append, length_contents, length_contents] at lengths
          have bounds := getDataSize_bounds valid
          have nextBounds := getDataSize_bounds nextValid
          rw [getFreeSize_eq valid, getFreeSize_eq nextValid, capacity]
          omega
        obtain ⟨stores, refuses⟩ := induction nextValid restNonempty
        rw [receiveAll, received, Option.bind_some]
        constructor
        · intro enough
          obtain ⟨stored, restReceived, storedValid, storedContents⟩ :=
            stores (by omega)
          refine ⟨stored, restReceived, storedValid, ?_⟩
          rw [storedContents, contents, List.append_assoc]
        · intro tooLong
          exact refuses (by omega)
      · have tooLong : ring.getFreeSize < chunk.length := by omega
        constructor
        · intro enough
          omega
        · intro _
          rw [receiveAll, receive_of_tooLong valid tooLong, Option.bind_none]

/-- A frame is dispatched from an empty ring exactly when it leaves one cell
free. -/
theorem dispatchesFrame_iff {ring : RingBuffer} {chunks : List (List UInt8)}
    (empty : ring.ServerRingEmpty) (nonempty : ∀ chunk ∈ chunks, chunk ≠ [])
    (isFrame : PacketSession.framing.IsFrame chunks.flatten) :
    ring.DispatchesWhole chunks ↔ chunks.flatten.length ≤ 4095 := by
  obtain ⟨stores, refuses⟩ := receiveAll_spec empty.valid nonempty
  rw [empty.getFreeSize_eq] at stores refuses
  constructor
  · intro ⟨stored, received, _⟩
    by_contra tooLong
    rw [refuses (by omega)] at received
    cases received
  · intro fits
    obtain ⟨stored, received, valid, contents⟩ := stores (by omega)
    rw [empty.nothingStored.2, List.nil_append] at contents
    have length := length_contents stored
    rw [contents] at length
    have positive := isFrame.length_pos
    refine ⟨stored, received, chunks.flatten, ?_, ?_⟩
    · rw [peek_eq valid (by omega) (Int.le_refl _), contents, ← length,
        List.take_length]
    · have parsed := Rule.parse_frame_append isFrame []
      rw [List.append_nil] at parsed
      have nothing := Rule.parse_incomplete PacketSession.framing.nothing
      rw [PacketSession.onRecv_eq, parsed, nothing]
      simp

end RingBuffer

namespace Protocol

/-- A returned buffer holds the finished packet, within the 4096 bytes. -/
theorem Packet.bytes_of_makeSendBuffer {packet : Packet}
    {state next : SendBufferState} {sendBuffer : SendBuffer}
    (made : packet.makeSendBuffer state = .ok (some sendBuffer, next)) :
    packet.encodedSize ≤ packetAllocSize ∧
      next.bytes sendBuffer = packet.bytes := by
  have closed : state.ChunkClosed := by
    intro ref isLocal
    rw [← Bool.not_eq_true]
    intro isOpen
    rw [packet.makeSendBuffer_of_open isLocal isOpen] at made
    cases made
  have enough : packet.encodedSize ≤ packetAllocSize := by
    by_contra tooLong
    obtain ⟨_, _, full, _⟩ :=
      Packet.makeSendBuffer_full closed (Nat.lt_of_not_le tooLong)
    rw [full] at made
    cases made
  obtain ⟨sent, after, returns, _, bytes⟩ :=
    Packet.makeSendBuffer_fits closed enough
  obtain ⟨same, rfl⟩ := Prod.mk.inj (Except.ok.inj (returns.symm.trans made))
  obtain rfl := Option.some.inj same
  exact ⟨enough, bytes⟩

/-- A finished packet is one frame. -/
theorem Packet.bytes_isFrame {packet : Packet}
    (enough : packet.encodedSize ≤ packetAllocSize) :
    PacketSession.framing.IsFrame packet.bytes := by
  have size : (packet.id.finalHeader packet.encodedSize).size.toNat =
      packet.encodedSize := finalHeader_size packet.id.value enough
  have atFront : PacketSession.headerAt packet.bytes =
      packet.id.finalHeader packet.encodedSize := by
    rw [PacketSession.headerAt, Packet.bytes,
      List.take_left' (Protocol.length_headerBytes _),
      LittleEndian.Scalar.ofBytes_bytes]
  rw [PacketSession.isFrame_iff, atFront, packet.length_bytes, size,
    ← packet.length_payload]
  exact ⟨Nat.le_add_right _ _, rfl⟩

/-- The server can take a packet in, in whatever pieces it arrives, exactly when
its encoding has at most 4095 bytes. -/
theorem Packet.dispatchesWhole_iff {packet : Packet}
    {state next : SendBufferState} {sendBuffer : SendBuffer}
    (made : packet.makeSendBuffer state = .ok (some sendBuffer, next))
    {ring : RingBuffer} (empty : ring.ServerRingEmpty)
    {chunks : List (List UInt8)} (nonempty : ∀ chunk ∈ chunks, chunk ≠ [])
    (pieces : chunks.flatten = next.bytes sendBuffer) :
    ring.DispatchesWhole chunks ↔ packet.encodedSize ≤ 4095 := by
  obtain ⟨enough, bytes⟩ := Packet.bytes_of_makeSendBuffer made
  rw [bytes] at pieces
  have isFrame := Packet.bytes_isFrame enough
  rw [← pieces] at isFrame
  rw [RingBuffer.dispatchesFrame_iff empty nonempty isFrame, pieces,
    packet.length_bytes]

theorem initial_chunkClosed : SendBufferState.initial.ChunkClosed := by
  intro ref isLocal
  cases isLocal

/-- A short message in two pieces, with the ring at its last cell. -/
theorem Packet.shortChat_dispatchesWhole :
    let packet : Packet := ⟨.cRoomChat, { message := literal "hello" }⟩
    let ring : RingBuffer :=
      { RingBuffer.create 4096 fun _ => 0 with
        readPos := 4095
        writePos := 4095 }
    ∃ sendBuffer next,
      packet.makeSendBuffer .initial = .ok (some sendBuffer, next) ∧
      let bytes := next.bytes sendBuffer
      ring.DispatchesWhole [bytes.take 3, bytes.drop 3] ∧
        packet.encodedSize ≤ 4095 := by
  intro packet ring
  obtain ⟨sendBuffer, next, made, _, bytes⟩ :=
    @Packet.makeSendBuffer_fits packet _ initial_chunkClosed (by decide)
  have empty : ring.ServerRingEmpty := by
    constructor <;> decide
  have length : (next.bytes sendBuffer).length = 11 := by
    rw [bytes]
    exact packet.length_bytes
  have short : packet.encodedSize ≤ 4095 := by decide
  refine ⟨sendBuffer, next, made, ?_, short⟩
  refine (Packet.dispatchesWhole_iff made empty ?_ ?_).mpr short
  · rw [List.forall_mem_cons, List.forall_mem_singleton]
    constructor
    · apply List.length_pos_iff.mp
      rw [List.length_take, length]
      decide
    · apply List.length_pos_iff.mp
      rw [List.length_drop, length]
      decide
  · rw [List.flatten_cons, List.flatten_singleton, List.take_append_drop]

/-- A client's message of 4090 bytes is encoded, and can never be received. -/
theorem Packet.fullChat_notDispatched :
    let packet : Packet :=
      ⟨.cRoomChat, { message := List.replicate 4090 0 }⟩
    let ring := RingBuffer.create 4096 fun _ => 0
    packet.id ∈ ServerPacketHandler.cases ∧ ring.ServerRingEmpty ∧
      ∃ sendBuffer next,
        packet.makeSendBuffer .initial = .ok (some sendBuffer, next) ∧
        ¬ring.DispatchesWhole [next.bytes sendBuffer] := by
  intro packet ring
  have size : packet.encodedSize = 4096 := by
    change 4 + (2 + (List.replicate 4090 (0 : UInt8)).length % 2 ^ 16) = 4096
    rw [List.length_replicate]
    rfl
  have enough : packet.encodedSize ≤ packetAllocSize := size.le
  have empty : ring.ServerRingEmpty := by
    constructor <;> decide
  obtain ⟨sendBuffer, next, made, _, bytes⟩ :=
    Packet.makeSendBuffer_fits initial_chunkClosed enough
  refine ⟨by decide, empty, sendBuffer, next, made, ?_⟩
  rw [bytes]
  change ¬ring.DispatchesWhole [packet.bytes]
  have isFrame := Packet.bytes_isFrame enough
  have length := packet.length_bytes
  rw [RingBuffer.dispatchesFrame_iff empty]
  · rw [List.flatten_singleton, length, size]
    decide
  · rw [List.forall_mem_singleton]
    exact List.length_pos_iff.mp isFrame.length_pos
  · rw [List.flatten_singleton]
    exact isFrame

end Protocol

end IocpChat
