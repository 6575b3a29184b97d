import IocpChat.Protocol.PacketEncoding
import IocpChat.Protocol.PacketHandler

/-!
# Reading back what was written

The two directions of the codec.  A packet that `MakeSendBuffer` returns is
decoded by the dispatcher of the other side, provided 16 bits hold the length
of each of its strings and lists.  What `Read` accepts is a prefix in the
packet's format, and encoding the decoded packet gives that prefix back.
-/

namespace IocpChat

open FlatMemory LittleEndian WireFormat

namespace Protocol

open BufferReader Wire

/-- Reading the header of received bytes. -/
theorem readHeader_decodes :
    Decodes cursor (scalar PacketHeader) Unguarded
      (BufferReader.read PacketHeader) :=
  read_decodes_unguarded PacketHeader fun _ => trivial

theorem ofBuffer_ready (memory : Memory UInt8) (size : Nat) :
    cursor.Ready (.ofBuffer memory size) :=
  ⟨rfl, Nat.zero_le size⟩

/-- Once the header is read, the payload is what remains. -/
theorem readHeader_run {memory : Memory UInt8} {size : Nat}
    {header : PacketHeader} {payload : List UInt8}
    (bytes : load memory 0 size = Scalar.bytes header ++ payload) :
    ∃ reader,
      (BufferReader.read PacketHeader).run (.ofBuffer memory size) =
        (some header, reader) ∧
      cursor.Ready reader ∧ reader.remaining = payload ∧
      Frame (.ofBuffer memory size) reader := by
  have ready := ofBuffer_ready memory size
  obtain ⟨reader, runs, rest⟩ :=
    readHeader_decodes.recovers ready ⟨trivial, bytes⟩
  have frame := readHeader_decodes.frame ready
  rw [runs] at frame
  exact ⟨reader, runs, readHeader_decodes.ready ready runs, rest, frame⟩

/-- A reader with nothing left stands at the end of its window. -/
theorem pos_of_remaining_nil {reader : BufferReader}
    (ready : cursor.Ready reader) (nothing : reader.remaining = []) :
    reader.pos = reader.size := by
  have length := congrArg List.length nothing
  rw [length_remaining, List.length_nil] at length
  have bounded : reader.pos ≤ reader.size := ready.2
  omega

/-- The dispatcher of a packet reads the header, then the packet. -/
theorem handlePacket_run {id : PacketId} {header : PacketHeader}
    {start reader : BufferReader} (sameId : header.id = id.value)
    (headerRun : (BufferReader.read PacketHeader).run start =
      (some header, reader)) :
    id.handlePacket.run start =
      (do
        let fields ← id.read
        pure ({ id := id, fields := fields } : Packet)).run reader := by
  obtain ⟨cases, listed, handles⟩ := id.handlePacket_eq
  rw [handles, dispatch, Attempt.run_bind_of_some headerRun, sameId,
    find_case listed]

/-- The encoder writes a `bool` as 0 or 1. -/
theorem payload_canonical (packet : Packet) :
    packet.id.CanonicalPayload packet.payload := by
  obtain ⟨id, fields⟩ := packet
  intro starts block rest split length
  change (id.layout written).tokens fields = block ++ rest at split
  have first : ∀ (flag : Bool) (tail : List UInt8),
      (id.layout written).tokens fields = Scalar.bytes flag ++ tail →
      Scalar.Canonical Bool block := by
    intro flag tail bytes
    obtain ⟨same, _⟩ := List.append_inj (split.symm.trans bytes)
      (length.trans (Scalar.length_bytes flag).symm)
    rw [same]
    exact Scalar.canonical_bytes flag
  cases id with
  | sLogin => exact first fields.success _ rfl
  | sEnterRoom => exact first fields.success _ rfl
  | sLeaveRoom => exact first fields.success [] (List.append_nil _).symm
  | _ => cases starts

/-- Received bytes are one packet for its dispatcher: the header counts them,
and reading recovers every field and ends where the header says. -/
def Delivers (packet : Packet) (bytes : List UInt8) : Prop :=
  ∃ (header : PacketHeader) (payload : List UInt8),
    bytes = Scalar.bytes header ++ payload ∧
    header.size.toNat = bytes.length ∧
    ∀ memory : Memory UInt8, load memory 0 bytes.length = bytes →
      ∃ reader,
        packet.id.handlePacket.run (.ofBuffer memory bytes.length) =
          (some packet, reader) ∧
        reader.pos = header.size.toNat

/-- `MakeSendBuffer` returns null or a buffer that is delivered as the same
packet. -/
def RoundTrips (packet : Packet) : Prop :=
  ∀ state : SendBufferState, state.ChunkClosed →
    ∃ sendBuffer next,
      packet.makeSendBuffer state = .ok (sendBuffer, next) ∧
      ∀ sent, sendBuffer = some sent → Delivers packet (next.bytes sent)

/-- The bytes of a finished packet. -/
def Packet.bytes (packet : Packet) : List UInt8 :=
  Scalar.bytes (packet.id.finalHeader packet.encodedSize) ++ packet.payload

theorem Packet.length_bytes (packet : Packet) :
    packet.bytes.length = packet.encodedSize := by
  rw [bytes, List.length_append, length_headerBytes,
    packet.length_payload]

/-- A packet in its format is delivered. -/
theorem delivers_of_representable {packet : Packet}
    (representable :
      (packet.id.layout string).Representable packet.fields)
    (enough : packet.encodedSize ≤ packetAllocSize) :
    Delivers packet packet.bytes := by
  have size : (packet.id.finalHeader packet.encodedSize).size.toNat =
      packet.encodedSize := finalHeader_size packet.id.value enough
  refine ⟨_, packet.payload, rfl, size.trans packet.length_bytes.symm, ?_⟩
  intro memory loaded
  obtain ⟨reader, headerRun, ready, rest, frame⟩ := readHeader_run loaded
  have payload : reader.remaining =
      (packet.id.layout string).tokens packet.fields ++ [] := by
    rw [rest, List.append_nil, Packet.payload,
      PacketId.written_eq representable]
  obtain ⟨final, fieldsRun, nothing⟩ :=
    packet.id.decodes.recovers ready ⟨representable, payload⟩
  have finalReady := packet.id.decodes.ready ready fieldsRun
  have finalFrame := packet.id.decodes.frame ready
  rw [fieldsRun] at finalFrame
  refine ⟨final, ?_, ?_⟩
  · rw [handlePacket_run rfl headerRun, Attempt.run_bind_of_some fieldsRun]
    rfl
  · rw [pos_of_remaining_nil finalReady nothing, finalFrame.size, frame.size,
      size]
    exact packet.length_bytes

/-- What the dispatcher recovers from an encoded packet is in the format. -/
theorem representable_of_delivers {packet : Packet}
    (delivers : Delivers packet packet.bytes) :
    (packet.id.layout string).Representable packet.fields := by
  obtain ⟨_, _, _, _, reads⟩ := delivers
  have loaded : load (store (fun _ => 0) 0 packet.bytes) 0
      packet.bytes.length = packet.bytes :=
    load_store_same _ _ _
  obtain ⟨final, runs, _⟩ := reads _ loaded
  obtain ⟨reader, headerRun, ready, rest, _⟩ := readHeader_run loaded
  rw [handlePacket_run rfl headerRun] at runs
  rcases fieldsRun : packet.id.read.run reader with ⟨_ | fields, next⟩
  · rw [Attempt.run_bind_of_none fieldsRun] at runs
    cases runs
  · rw [Attempt.run_bind_of_some fieldsRun] at runs
    have same := Option.some.inj (Prod.mk.inj runs).1
    have canonical : packet.id.CanonicalPayload (cursor.remaining reader) := by
      change packet.id.CanonicalPayload reader.remaining
      rw [rest]
      exact payload_canonical packet
    have starts := packet.id.decodes.sound ready canonical fieldsRun
    obtain ⟨_, sameFields⟩ := Packet.mk.inj same
    rw [← eq_of_heq sameFields]
    exact starts.1

/-- A packet that is not refused comes back only if it is in the format. -/
theorem representable_of_roundTrips {packet : Packet}
    (enough : packet.encodedSize ≤ packetAllocSize)
    (roundTrips : RoundTrips packet) :
    (packet.id.layout string).Representable packet.fields := by
  have closed : SendBufferState.initial.ChunkClosed := by
    intro ref isLocal
    cases isLocal
  obtain ⟨sendBuffer, next, returns, delivers⟩ := roundTrips _ closed
  obtain ⟨sent, final, fits, _, bytes⟩ :=
    Packet.makeSendBuffer_fits closed enough
  obtain ⟨rfl, rfl⟩ := Prod.mk.inj (Except.ok.inj (returns.symm.trans fits))
  have delivered := delivers sent rfl
  rw [bytes] at delivered
  exact representable_of_delivers delivered

/-- Decoding undoes encoding exactly for the packets whose string lengths and
item counts fit in 16 bits, and for those that are refused. -/
theorem roundTrips_iff_counts (packet : Packet) :
    RoundTrips packet ↔
      (∀ count ∈ packet.id.counts packet.fields, count < 2 ^ 16) ∨
        packetAllocSize < packet.encodedSize := by
  rw [← PacketId.representable_iff]
  by_cases enough : packet.encodedSize ≤ packetAllocSize
  · constructor
    · intro roundTrips
      exact Or.inl (representable_of_roundTrips enough roundTrips)
    · intro condition state closed
      have representable :=
        condition.resolve_right (Nat.not_lt.mpr enough)
      obtain ⟨sent, next, returns, _, bytes⟩ :=
        Packet.makeSendBuffer_fits closed enough
      refine ⟨some sent, next, returns, ?_⟩
      intro other same
      cases same
      rw [bytes]
      exact delivers_of_representable representable enough
  · have tooLong := Nat.lt_of_not_le enough
    refine ⟨fun _ => Or.inr tooLong, ?_⟩
    intro _ state closed
    obtain ⟨next, _, returns, _⟩ := Packet.makeSendBuffer_full closed tooLong
    exact ⟨none, next, returns, fun _ impossible => by cases impossible⟩

/-- A name of 65536 characters is encoded like an empty one. -/
theorem longName_notRecovered :
    ¬RoundTrips ⟨.cLogin, { name := List.replicate (2 ^ 16) 0 }⟩ := by
  intro roundTrips
  have wraps : ∀ name : StdString, name.length = 2 ^ 16 →
      Packet.encodedSize ⟨.cLogin, { name := name }⟩ ≤ packetAllocSize := by
    intro name length
    change 4 + (2 + name.length % 2 ^ 16) ≤ 4096
    rw [length]
    decide
  have representable := representable_of_roundTrips
    (wraps _ List.length_replicate) roundTrips
  have short := (string_representable _).mp representable
  rw [List.length_replicate] at short
  exact Nat.lt_irrefl _ short

/-- `Read` after the header, as the dispatcher runs it. -/
def PacketId.readPacket (id : PacketId) : Decode id.Struct := do
  let _ ← BufferReader.read PacketHeader
  id.read

/-- What `Read` does to `size` received bytes: it stays inside them, accepts
exactly the payloads with a prefix in the format, and stores the only packet
such a prefix encodes, which is encoded by that prefix again. -/
structure ReadsFormat (id : PacketId) (memory : Memory UInt8) (size : Nat)
    (result : Option id.Struct) (reader : BufferReader) : Prop where
  touched : ∀ range ∈ reader.copied, range.1 + range.2 ≤ size
  bounded : reader.pos ≤ size
  accepts : result.isSome ↔ ∃ fields rest,
    (id.layout string).Starts (load memory 4 (size - 4)) fields rest
  unique : ∀ {first second firstRest secondRest},
    (id.layout string).Starts (load memory 4 (size - 4)) first firstRest →
    (id.layout string).Starts (load memory 4 (size - 4)) second secondRest →
    first = second ∧ firstRest = secondRest
  stored : ∀ {fields}, result = some fields →
    (∃ rest,
      (id.layout string).Starts (load memory 4 (size - 4)) fields rest) ∧
    reader.pos = 4 + ((id.layout string).tokens fields).length
  encoded : ∀ {fields}, result = some fields →
    reader.pos ≤ packetAllocSize →
    ∀ state : SendBufferState, state.ChunkClosed →
      ∃ sent next,
        Packet.makeSendBuffer ⟨id, fields⟩ state = .ok (some sent, next) ∧
        (next.bytes sent).length = reader.pos ∧
        (next.bytes sent).drop 4 = (id.layout string).tokens fields

/-- Received bytes of at least a header's size start with some header. -/
theorem load_header (memory : Memory UInt8) {size : Nat}
    (large : PacketHeader.byteSize ≤ size) :
    load memory 0 size =
      Scalar.bytes (Scalar.ofBytes (load memory 0 4) : PacketHeader) ++
        load memory 4 (size - 4) := by
  have header : Scalar.bytes
      (Scalar.ofBytes (load memory 0 4) : PacketHeader) = load memory 0 4 :=
    Scalar.bytes_ofBytes _ (length_load memory 0 4) trivial
  change 4 ≤ size at large
  rw [header]
  conv_lhs => rw [← Nat.add_sub_of_le large, load_add, Nat.zero_add]

/-- A decoded packet that fits is encoded by the prefix it was decoded from. -/
theorem makeSendBuffer_of_representable {id : PacketId} {fields : id.Struct}
    (representable : (id.layout string).Representable fields)
    (enough : 4 + ((id.layout string).tokens fields).length ≤ packetAllocSize)
    {state : SendBufferState} (closed : state.ChunkClosed) :
    ∃ sent next,
      Packet.makeSendBuffer ⟨id, fields⟩ state = .ok (some sent, next) ∧
      (next.bytes sent).length =
        4 + ((id.layout string).tokens fields).length ∧
      (next.bytes sent).drop 4 = (id.layout string).tokens fields := by
  let packet : Packet := ⟨id, fields⟩
  have payload : packet.payload = (id.layout string).tokens fields :=
    PacketId.written_eq representable
  have size := packet.length_payload
  rw [payload] at size
  change 4 + _ = _ at size
  rw [size] at enough
  obtain ⟨sent, next, returns, _, bytes⟩ :=
    Packet.makeSendBuffer_fits closed enough
  have header := length_headerBytes
    (id.finalHeader packet.encodedSize)
  refine ⟨sent, next, returns, ?_, ?_⟩
  · rw [bytes]
    exact packet.length_bytes.trans size.symm
  · rw [bytes, payload]
    exact List.drop_left' header

/-- The decoders accept exactly the format. -/
theorem readPacket_readsFormat (id : PacketId) (memory : Memory UInt8)
    {size : Nat} (large : PacketHeader.byteSize ≤ size)
    (canonical : id.CanonicalPayload (load memory 4 (size - 4))) :
    ReadsFormat id memory size
      (id.readPacket.run (.ofBuffer memory size)).1
      (id.readPacket.run (.ofBuffer memory size)).2 := by
  obtain ⟨reader, headerRun, ready, payload, headerFrame⟩ :=
    readHeader_run (load_header memory large)
  have sameSize : reader.size = size := headerFrame.size
  have frame := id.decodes.frame ready
  have runs : id.readPacket.run (.ofBuffer memory size) =
      id.read.run reader := by
    rw [PacketId.readPacket, Attempt.run_bind_of_some headerRun]
  rw [runs]
  rw [← payload] at canonical
  have sound : ∀ {fields final}, id.read.run reader = (some fields, final) →
      (id.layout string).Starts reader.remaining fields final.remaining :=
    fun succeeds => id.decodes.sound ready canonical succeeds
  have position : ∀ {fields final},
      id.read.run reader = (some fields, final) →
      final.pos = 4 + ((id.layout string).tokens fields).length := by
    intro fields final succeeds
    have lengths := congrArg List.length (sound succeeds).2
    have before := congrArg List.length payload
    have finalBounded := (id.decodes.ready ready succeeds).2
    have finalSize := frame.size
    rw [succeeds] at finalSize
    simp only [List.length_append, length_remaining, length_load]
      at lengths before
    change 4 ≤ size at large
    change final.size = reader.size at finalSize
    omega
  constructor
  case touched =>
    intro range member
    rcases frame.copied range member with earlier | inside
    · rcases headerFrame.copied range earlier with none | inside
      · cases none
      · exact inside
    · exact sameSize ▸ inside
  case bounded =>
    have bounded := frame.bounded ready.2
    rw [frame.size, sameSize] at bounded
    exact bounded
  case accepts =>
    rw [← payload]
    constructor
    · intro succeeds
      obtain ⟨fields, found⟩ := Option.isSome_iff_exists.mp succeeds
      exact ⟨fields, _, sound (Prod.ext found rfl)⟩
    · rintro ⟨fields, rest, starts⟩
      obtain ⟨final, succeeds, _⟩ := id.decodes.recovers ready starts
      rw [succeeds]
      rfl
  case unique =>
    rw [← payload]
    exact fun left right => id.decodes.unique ready left right
  case stored =>
    intro fields found
    have succeeds : id.read.run reader = (some fields, _) :=
      Prod.ext found rfl
    rw [← payload]
    exact ⟨⟨_, sound succeeds⟩, position succeeds⟩
  case encoded =>
    intro fields found enough state closed
    have succeeds : id.read.run reader = (some fields, _) :=
      Prod.ext found rfl
    rw [position succeeds] at enough ⊢
    exact makeSendBuffer_of_representable (sound succeeds).1 enough closed

/-- `S_ENTER_ROOM` for the room `hall` with Ada and Bo in it, and one byte more
than the packet needs. -/
def hallEntered : List UInt8 :=
  [27, 0, 240, 3, 1, 7, 0, 0, 0, 4, 0, 104, 97, 108, 108, 2, 0, 3, 0, 65, 100,
    97, 2, 0, 66, 111, 9]

/-- The name and both members are read, and the last byte is left. -/
theorem readPacket_readsFormat_hallEntered :
    let memory : Memory UInt8 := fun index => hallEntered.getD index 0
    let result := PacketId.sEnterRoom.readPacket.run (.ofBuffer memory 27)
    ReadsFormat .sEnterRoom memory 27 result.1 result.2 ∧
      result.1 = some
        { members := [{ name := literal "Ada" }, { name := literal "Bo" }]
          success := true
          roomId := 7
          roomName := literal "hall" } ∧
      result.2.pos = 26 := by
  intro memory result
  refine ⟨readPacket_readsFormat .sEnterRoom _ (by decide) ?_,
    by decide +kernel, by decide +kernel⟩
  intro _ block rest split length
  change [1] ++ hallEntered.drop 5 = block ++ rest at split
  obtain ⟨same, _⟩ := List.append_inj split.symm length
  exact Or.inr same

end Protocol

end IocpChat
