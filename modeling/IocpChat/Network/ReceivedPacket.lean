import IocpChat.Network.SessionRecv
import IocpChat.Protocol.RoundTrip

/-!
# The packets a session receives

Whatever the completions bring, `OnRecvPacket` only gets slices of what is
stored in the receive ring, which leaves one of its 4096 bytes free.  The
packets the dispatcher reads from such slices are exactly the client packets
whose encoding has at most 4095 bytes.
-/

namespace IocpChat

open FlatMemory LittleEndian WireFormat Framing Protocol

namespace SessionRecv

/-- A session in any state of its connection: the outstanding receive was
posted for the ring as it is, and every packet so far fitted in the ring. -/
structure Framed (capacity : Int) (session : SessionRecv) : Prop where
  valid : session.recvBuffer.Valid
  capacity_eq : session.recvBuffer.capacity = capacity
  posted : ∀ wsabufs ∈ session.posted, 0 < session.recvBuffer.offered 0 ∧
    wsabufs = RingBuffer.spans (session.recvBuffer.getWriteSpan 0)
  received : ∀ packet ∈ session.received, (packet.length : Int) < capacity

variable {session : SessionRecv} {capacity : Int}

theorem Framed.disconnect (framed : Framed capacity session) :
    Framed capacity session.disconnect :=
  { framed with }

theorem Framed.registerRecv (framed : Framed capacity session) :
    Framed capacity session.registerRecv := by
  by_cases connected : session.connected = true
  · by_cases room : 0 < session.recvBuffer.offered 0
    · rw [registerRecv_of_room framed.valid connected room]
      refine { framed with posted := ?_ }
      intro wsabufs posted
      exact ⟨room, (Option.some.inj posted).symm⟩
    · have noSpan : (session.recvBuffer.getWriteSpan 0).spanCount = 0 := by
        rw [RingBuffer.getWriteSpan, RingBuffer.writeSpans,
          if_pos (Int.not_lt.mp room)]
      have unchanged : session.registerRecv = session.disconnect := by
        rw [SessionRecv.registerRecv, if_neg (by simp [connected])]
        exact if_pos noSpan
      rw [unchanged]
      exact framed.disconnect
  · have unchanged : session.registerRecv = session :=
      if_pos (Bool.eq_false_iff.mpr connected)
    rw [unchanged]
    exact framed

/-- The slices of the stored bytes are shorter than the ring. -/
theorem length_slice_lt (valid : session.recvBuffer.Valid)
    {packet : List UInt8}
    (listed : packet ∈
      (PacketSession.framing.parse session.recvBuffer.contents).frames) :
    (packet.length : Int) < session.recvBuffer.capacity := by
  have whole := PacketSession.framing.parse_flatten
    session.recvBuffer.contents
  have lengths := congrArg List.length whole
  have slice := (List.sublist_flatten_of_mem listed).length_le
  have stored := RingBuffer.length_contents session.recvBuffer
  have bounds := RingBuffer.getDataSize_bounds valid
  rw [List.length_append] at lengths
  omega

/-- `Peek` of everything gives the stored bytes; with nothing stored it fails,
and the vector is empty. -/
theorem packetData_eq (valid : session.recvBuffer.Valid) :
    (session.recvBuffer.peek session.recvBuffer.getDataSize).getD
        (List.replicate session.recvBuffer.getDataSize.toNat 0) =
      session.recvBuffer.contents := by
  have stored := RingBuffer.length_contents session.recvBuffer
  by_cases positive : 0 < session.recvBuffer.getDataSize
  · rw [RingBuffer.peek_eq valid positive (Int.le_refl _), ← stored,
      List.take_length]
    rfl
  · have bounds := RingBuffer.getDataSize_bounds valid
    have nothing : session.recvBuffer.getDataSize = 0 := by omega
    rw [nothing] at stored ⊢
    rw [List.eq_nil_of_length_eq_zero stored, RingBuffer.peek,
      if_pos (Or.inl (Int.le_refl 0))]
    rfl

/-- `MoveReadPos` keeps the ring well formed, also when it refuses. -/
theorem moveReadPos_keeps {ring : RingBuffer} (valid : ring.Valid)
    (size : Int) :
    (ring.moveReadPos size).2.Valid ∧
      (ring.moveReadPos size).2.capacity = ring.capacity := by
  by_cases refused : size ≤ 0 ∨ ring.getDataSize < size
  · rw [RingBuffer.moveReadPos, if_pos refused]
    exact ⟨valid, rfl⟩
  · have positive : 0 < size := by omega
    obtain ⟨next, moved, nextValid, capacity, _⟩ :=
      RingBuffer.moveReadPos_spec valid positive (by omega)
    rw [moved]
    exact ⟨nextValid, capacity⟩

theorem Framed.processData (framed : Framed capacity session)
    (completed : session.posted = none) :
    Framed capacity session.processData := by
  let parsed := PacketSession.framing.parse session.recvBuffer.contents
  have received : ∀ packet ∈ session.received ++ parsed.frames,
      (packet.length : Int) < capacity := by
    intro packet member
    rcases List.mem_append.mp member with earlier | slice
    · exact framed.received packet earlier
    · rw [← framed.capacity_eq]
      exact length_slice_lt framed.valid slice
  have notPosted : ∀ ring : RingBuffer, ∀ wsabufs ∈ session.posted,
      0 < ring.offered 0 ∧
        wsabufs = RingBuffer.spans (ring.getWriteSpan 0) := by
    intro ring wsabufs posted
    rw [completed] at posted
    cases posted
  have moved : ∀ size, Framed capacity
      { session with
        recvBuffer := (session.recvBuffer.moveReadPos size).2
        received := session.received ++ parsed.frames } := by
    intro size
    obtain ⟨valid, sameCapacity⟩ := moveReadPos_keeps framed.valid size
    exact
      { valid := valid
        capacity_eq := sameCapacity.trans framed.capacity_eq
        posted := notPosted _
        received := received }
  have dispatched : Framed capacity
      { session with received := session.received ++ parsed.frames } :=
    { framed with received := received }
  unfold SessionRecv.processData
  simp only [packetData_eq framed.valid, PacketSession.onRecv_eq]
  split
  · exact dispatched.disconnect
  · split
    · exact dispatched.disconnect
    · split
      · exact (moved _).disconnect
      · exact (moved _).registerRecv

/-- A completion of any bytes. -/
theorem Framed.complete {chunk : List UInt8}
    (framed : Framed capacity session) (offered : session.Offered chunk) :
    Framed capacity (session.complete chunk) := by
  obtain ⟨nonempty, bounded⟩ := offered
  rcases posted : session.posted with _ | wsabufs
  · rw [SessionRecv.complete, posted]
    exact framed
  · obtain ⟨room, rfl⟩ := framed.posted wsabufs posted
    obtain ⟨_, total, filled⟩ :=
      RingBuffer.getWriteSpan_spec framed.valid room
    have fits := bounded _ posted
    rw [total] at fits
    obtain ⟨ring, moved, valid, sameCapacity, _⟩ :=
      RingBuffer.moveWritePos_spec framed.valid nonempty
        (fits.trans (RingBuffer.offered_le _ _)) (filled chunk fits)
    have someBytes : ¬(chunk.length : Int) = 0 := by
      have := List.length_pos_iff.mpr nonempty
      omega
    have stored : Framed capacity
        { session with
          recvBuffer := ring
          posted := none } :=
      { valid := valid
        capacity_eq := sameCapacity.trans framed.capacity_eq
        posted := fun _ impossible => by cases impossible
        received := framed.received }
    rw [SessionRecv.complete, posted]
    simp only [processRecv, someBytes, if_false, moved]
    exact stored.processData rfl

theorem start_framed {ring : RingBuffer} (valid : ring.Valid) :
    Framed ring.capacity (start ring) :=
  Framed.registerRecv
    { valid := valid
      capacity_eq := rfl
      posted := fun _ impossible => by cases impossible
      received := fun _ impossible => by cases impossible }

theorem completeAll_framed {ring : RingBuffer} {chunks : List (List UInt8)}
    (valid : ring.Valid) (offered : AllOffered (start ring) chunks) :
    Framed ring.capacity ((start ring).completeAll chunks) := by
  induction chunks using List.reverseRecOn with
  | nil => exact start_framed valid
  | append_singleton earlier chunk induction =>
      have earlierOffered : AllOffered (start ring) earlier := by
        intro before first after cut
        apply offered before first (after ++ [chunk])
        rw [cut, List.append_assoc, List.cons_append]
      rw [completeAll_concat]
      exact (induction earlierOffered).complete
        (offered earlier chunk [] rfl)

end SessionRecv

namespace Protocol

/-- Some connection to the server, whatever its completions were, has handed
the dispatcher a slice that it reads as this packet. -/
def Packet.Received (packet : Packet) : Prop :=
  ∃ chunks, SessionRecv.AllOffered (.start SessionRecv.serverRing) chunks ∧
    ∃ slice ∈ ((SessionRecv.start SessionRecv.serverRing).completeAll
      chunks).received,
    ∃ memory : Memory UInt8, load memory 0 slice.length = slice ∧
      (ServerPacketHandler.handlePacket.run
        (.ofBuffer memory slice.length)).1 = some packet

/-- A packet that `dispatch` returns was read in one of its cases. -/
theorem dispatch_eq_some {cases : List PacketId} {packet : Packet}
    {start final : BufferReader}
    (reads : (dispatch cases).run start = (some packet, final)) :
    ∃ header reader,
      (BufferReader.read PacketHeader).run start = (some header, reader) ∧
      packet.id ∈ cases ∧
      packet.id.read.run reader = (some packet.fields, final) := by
  obtain ⟨header, reader, headerRun, selected⟩ :=
    Attempt.run_bind_eq_some_iff.mp reads
  refine ⟨header, reader, headerRun, ?_⟩
  cases found : cases.find? fun id => id.value == header.id with
  | none =>
      rw [found] at selected
      cases selected
  | some id =>
      rw [found] at selected
      obtain ⟨fields, next, fieldsRun, built⟩ :=
        Attempt.run_bind_eq_some_iff.mp selected
      cases built
      exact ⟨List.mem_of_find?_eq_some found, fieldsRun⟩

/-- A client packet has no `bool` for the decoder to take apart. -/
theorem startsWithBool_of_client {id : PacketId}
    (client : id ∈ ServerPacketHandler.cases) : id.startsWithBool = false := by
  cases id <;> first
    | rfl
    | exact absurd client (by decide)

/-- Decoded bytes are the packet's encoding and whatever the slice has left. -/
theorem representable_of_handlePacket {memory : Memory UInt8} {size : Nat}
    {packet : Packet}
    (reads : (ServerPacketHandler.handlePacket.run
      (.ofBuffer memory size)).1 = some packet) :
    packet.id ∈ ServerPacketHandler.cases ∧
      (packet.id.layout Wire.string).Representable packet.fields ∧
      packet.encodedSize ≤ size := by
  obtain ⟨final, runs⟩ :
      ∃ final, (dispatch ServerPacketHandler.cases).run
        (.ofBuffer memory size) = (some packet, final) :=
    ⟨_, Prod.ext reads rfl⟩
  obtain ⟨header, reader, headerRun, client, fieldsRun⟩ :=
    dispatch_eq_some runs
  have ready := ofBuffer_ready memory size
  have headerStarts := readHeader_decodes.sound ready trivial headerRun
  have canonical :
      packet.id.CanonicalPayload (BufferReader.cursor.remaining reader) := by
    intro starts
    rw [startsWithBool_of_client client] at starts
    cases starts
  have starts := packet.id.decodes.sound
    (readHeader_decodes.ready ready headerRun) canonical fieldsRun
  refine ⟨client, starts.1, ?_⟩
  have input := headerStarts.2
  rw [starts.2, ← PacketId.written_eq starts.1] at input
  have lengths := congrArg List.length input
  have sizes := packet.length_payload
  have headerSize : ((Wire.scalar PacketHeader).tokens header).length =
      PacketHeader.byteSize := Protocol.length_headerBytes header
  have total : (BufferReader.cursor.remaining
      (.ofBuffer memory size)).length = size :=
    length_load memory 0 size
  have payload : ((packet.id.layout Wire.written).tokens
      packet.fields).length = packet.payload.length := rfl
  rw [List.length_append, List.length_append, headerSize, total,
    payload] at lengths
  omega

/-- Everything a session receives would fit in the ring again. -/
theorem Packet.Received.fits {packet : Packet} (received : packet.Received) :
    packet.id ∈ ServerPacketHandler.cases ∧
      (packet.id.layout Wire.string).Representable packet.fields ∧
      packet.encodedSize ≤ 4095 := by
  obtain ⟨chunks, offered, slice, listed, memory, _, reads⟩ := received
  obtain ⟨client, representable, inside⟩ := representable_of_handlePacket reads
  have framed :=
    SessionRecv.completeAll_framed SessionRecv.serverRing_valid offered
  have short : (slice.length : Int) < 4096 := framed.received slice listed
  exact ⟨client, representable, by omega⟩

/-- A whole packet in the first completion is dispatched. -/
theorem received_of_frame {frame : List UInt8}
    (isFrame : PacketSession.framing.IsFrame frame)
    (fits : frame.length ≤ 4095) :
    SessionRecv.AllOffered (.start SessionRecv.serverRing) [frame] ∧
      ((SessionRecv.start SessionRecv.serverRing).completeAll
        [frame]).received = [frame] := by
  have positive := isFrame.length_pos
  have nonempty := List.length_pos_iff.mp positive
  have fitting : SessionRecv.Fitting SessionRecv.serverRing.capacity
      [frame] := by
    intro packet member
    rw [List.mem_singleton.mp member]
    refine ⟨isFrame, ?_⟩
    change (frame.length : Int) ≤ 4096 - 1
    omega
  have offered := SessionRecv.start_serverRing_offered nonempty fits
  have begins := SessionRecv.start_waiting SessionRecv.serverRing_valid
    SessionRecv.serverRing_empty fitting (by decide) (by simpa using nonempty)
  obtain ⟨continues, _⟩ := SessionRecv.complete_step begins fitting offered
    (by simp)
  have waiting := continues ⟨[frame], [], rfl, by simpa using positive, by simp⟩
  obtain ⟨rest, splits⟩ := waiting.splits
  have whole : [] ++ frame = [frame].flatten := by simp
  rw [whole] at splits
  exact ⟨SessionRecv.allOffered_cons offered (SessionRecv.allOffered_nil _),
    splits.of_whole.1⟩

/-- A client packet in its format is received if the ring has room for it. -/
theorem Packet.received_of_representable {packet : Packet}
    (client : packet.id ∈ ServerPacketHandler.cases)
    (representable :
      (packet.id.layout Wire.string).Representable packet.fields)
    (fits : packet.encodedSize ≤ 4095) : packet.Received := by
  have enough : packet.encodedSize ≤ packetAllocSize :=
    fits.trans (by decide)
  obtain ⟨header, payload, split, size, reads⟩ :=
    delivers_of_representable representable enough
  have atFront : PacketSession.headerAt packet.bytes = header := by
    rw [PacketSession.headerAt, split,
      List.take_left' (Protocol.length_headerBytes header),
      Scalar.ofBytes_bytes]
  have isFrame : PacketSession.framing.IsFrame packet.bytes := by
    rw [PacketSession.isFrame_iff, atFront]
    refine ⟨?_, size⟩
    rw [split, List.length_append, Protocol.length_headerBytes]
    exact Nat.le_add_right _ _
  obtain ⟨offered, received⟩ :=
    received_of_frame isFrame (packet.length_bytes.trans_le fits)
  have loaded := load_store_same (fun _ => 0) 0 packet.bytes
  obtain ⟨reader, runs, _⟩ := reads _ loaded
  refine ⟨[packet.bytes], offered, packet.bytes, ?_, _, loaded, ?_⟩
  · rw [received]
    exact List.mem_singleton_self _
  · have handles : packet.id.handlePacket =
        ServerPacketHandler.handlePacket := if_pos client
    rw [← handles, runs]

/-- What a server session can receive. -/
theorem Packet.received_iff (packet : Packet) :
    packet.Received ↔
      packet.id ∈ ServerPacketHandler.cases ∧
        (packet.id.layout Wire.string).Representable packet.fields ∧
        packet.encodedSize ≤ 4095 :=
  ⟨Packet.Received.fits, fun ⟨client, representable, fits⟩ =>
    Packet.received_of_representable client representable fits⟩

instance (packet : Packet) : Decidable packet.Received :=
  decidable_of_iff
    (packet.id ∈ ServerPacketHandler.cases ∧
      (∀ count ∈ packet.id.counts packet.fields, count < 2 ^ 16) ∧
      packet.encodedSize ≤ 4095)
    (by rw [Packet.received_iff, PacketId.representable_iff])

end Protocol

end IocpChat
