import IocpChat.Protocol.PacketFormat

/-!
# MakeSendBuffer

What a call leaves behind, on a thread whose chunk is closed: a finished buffer
and a closed chunk when the packet fits in the 4096 bytes, and otherwise no
buffer and a chunk that stays open, because the early `return nullptr` skips
`SendBufferManager::Close`.
-/

namespace IocpChat

open FlatMemory LittleEndian WireFormat

namespace Protocol

open BufferWriter Wire

/-- The allocation of every packet. -/
def packetAllocSize : Nat := 4096

/-- The header a finished packet carries. -/
def finalHeader (id : UInt16) (size : Nat) : PacketHeader :=
  { size := UInt16.ofNat size, id := id }

theorem finalHeader_size (id : UInt16) {size : Nat}
    (enough : size ≤ packetAllocSize) :
    (finalHeader id size).size.toNat = size :=
  UInt16.toNat_ofNat_of_lt' (Nat.lt_of_le_of_lt enough (by decide))

theorem length_headerBytes (header : PacketHeader) :
    (Scalar.bytes header).length = PacketHeader.byteSize :=
  Scalar.length_bytes header

/-- The writer after the header: it stands in the opened allocation, and the
fields have the rest of it. -/
theorem headerWritten (id : UInt16) {sendBuffer : SendBuffer}
    {state : SendBufferState}
    (opened : SendBufferManager.Opened packetAllocSize sendBuffer state) :
    ∃ writer,
      (BufferWriter.write ({ size := 0, id := id } : PacketHeader)).run
        (.ofBuffer (state.chunks sendBuffer.owner).buffer sendBuffer.buffer
          sendBuffer.allocSize) = (some (), writer) ∧
      writer.base = sendBuffer.buffer ∧
      writer.size = packetAllocSize ∧
      writer.pos = PacketHeader.byteSize := by
  have room : sendBuffer.allocSize = packetAllocSize := opened.allocSize
  let start := BufferWriter.ofBuffer (state.chunks sendBuffer.owner).buffer
    sendBuffer.buffer sendBuffer.allocSize
  have enough : PacketHeader.byteSize ≤ start.freeSize := by
    change PacketHeader.byteSize ≤ sendBuffer.allocSize - 0
    rw [room]
    decide
  obtain ⟨writer, runs, base, size, pos, _⟩ := run_of_fits
    (write_emits ({ size := 0, id := id } : PacketHeader))
    (Nat.zero_le start.size) enough
  rw [length_headerBytes] at pos
  exact ⟨writer, runs, base, size.trans room, pos.trans (Nat.zero_add _)⟩

/-- A packet that does not fit leaves the thread's chunk open. -/
theorem makeSendBuffer_full (id : UInt16) {fields : Encode Unit}
    {output : List UInt8} (emits : Emits sink fields output)
    {state : SendBufferState} (closed : state.ChunkClosed)
    (tooLong : packetAllocSize < PacketHeader.byteSize + output.length) :
    ∃ next ref, makeSendBuffer id fields state = .ok (none, next) ∧
      next.localChunk = some ref ∧ (next.chunks ref).isOpen = true := by
  obtain ⟨sendBuffer, current, opens, opened⟩ :=
    SendBufferManager.open_of_closed closed (by decide : 0 < packetAllocSize)
      (by decide)
  obtain ⟨writer, headerRun, _, size, pos⟩ := headerWritten id opened
  have ready : writer.pos ≤ writer.size := by
    rw [size, pos]
    decide
  have fails : (fields.run writer).1 = none := by
    apply emits.full ready
    change writer.size - writer.pos < output.length
    omega
  rcases result : fields.run writer with ⟨_ | _, final⟩
  · refine ⟨current.setMemory sendBuffer.owner final.buffer,
      sendBuffer.owner, ?_, opened.isLocal, ?_⟩
    · unfold makeSendBuffer
      change (SendBufferManager.open_ packetAllocSize state >>= _) = _
      rw [opens]
      simp only [bind, Except.bind, headerRun, result]
      rfl
    · rw [SendBufferState.setMemory_same]
      exact opened.isOpen
  · rw [result] at fails
    cases fails

/-- Overwriting the header in front of the written fields. -/
theorem load_finalHeader (header : PacketHeader) {memory : Memory UInt8}
    {base : Nat} {earlier output : List UInt8}
    (length : earlier.length = PacketHeader.byteSize)
    (written : load memory base (PacketHeader.byteSize + output.length) =
      earlier ++ output) :
    load (store memory base (Scalar.bytes header)) base
        (PacketHeader.byteSize + output.length) =
      Scalar.bytes header ++ output := by
  have size := length_headerBytes header
  rw [load_add] at written ⊢
  obtain ⟨_, fields⟩ := List.append_inj written (by simp [length])
  have untouched :
      load (store memory base (Scalar.bytes header))
          (base + PacketHeader.byteSize) output.length =
        load memory (base + PacketHeader.byteSize) output.length :=
    load_store_disjoint memory (Or.inr (Nat.le_of_eq (by rw [size])))
  rw [untouched, fields, ← size, load_store_same]

/-- A packet that fits is returned complete, and the chunk is closed. -/
theorem makeSendBuffer_fits (id : UInt16) {fields : Encode Unit}
    {output : List UInt8} (emits : Emits sink fields output)
    {state : SendBufferState} (closed : state.ChunkClosed)
    (enough : PacketHeader.byteSize + output.length ≤ packetAllocSize) :
    ∃ sendBuffer next,
      makeSendBuffer id fields state = .ok (some sendBuffer, next) ∧
      next.ChunkClosed ∧
      next.bytes sendBuffer =
        Scalar.bytes (finalHeader id (PacketHeader.byteSize + output.length))
          ++ output := by
  obtain ⟨sendBuffer, current, opens, opened⟩ :=
    SendBufferManager.open_of_closed closed (by decide : 0 < packetAllocSize)
      (by decide)
  obtain ⟨writer, headerRun, base, size, pos⟩ := headerWritten id opened
  obtain ⟨final, runs, finalBase, _, finalPos, writes⟩ :=
    run_of_fits emits (by rw [size, pos]; decide)
      (by change output.length ≤ writer.size - writer.pos; omega)
  let total := PacketHeader.byteSize + output.length
  have position : final.getWriteSize = total := by
    rw [getWriteSize, finalPos, pos]
  have total_toNat : (finalHeader id total).size.toNat = total :=
    finalHeader_size id enough
  let stored := current.setMemory sendBuffer.owner
    (store final.buffer sendBuffer.buffer (Scalar.bytes (finalHeader id total)))
  have isOpen : (stored.chunks sendBuffer.owner).isOpen = true := by
    rw [SendBufferState.setMemory_same]
    exact opened.isOpen
  let finished : SendBufferChunk :=
    { stored.chunks sendBuffer.owner with
      isOpen := false
      usedSize := (stored.chunks sendBuffer.owner).usedSize + total }
  have closes : SendBufferManager.close sendBuffer total stored =
      .ok ({ sendBuffer with writeSize := total },
        stored.setChunk sendBuffer.owner finished) :=
    SendBufferManager.close_of_isOpen isOpen
      (enough.trans (Nat.le_of_eq opened.allocSize.symm))
  refine ⟨{ sendBuffer with writeSize := total },
    stored.setChunk sendBuffer.owner finished, ?_, ?_, ?_⟩
  · unfold makeSendBuffer
    change (SendBufferManager.open_ packetAllocSize state >>= _) = _
    rw [opens]
    simp only [bind, Except.bind, headerRun, runs, position]
    change (SendBufferManager.close sendBuffer
      (finalHeader id total).size.toNat stored).bind _ = _
    rw [total_toNat, closes]
    rfl
  · intro ref isLocal
    have same : sendBuffer.owner = ref :=
      Option.some.inj (opened.isLocal.symm.trans isLocal)
    subst same
    rw [SendBufferState.setChunk_same]
  · unfold SendBufferState.bytes
    rw [SendBufferState.setChunk_same]
    change load (stored.chunks sendBuffer.owner).buffer _ _ = _
    rw [SendBufferState.setMemory_same]
    have earlier : writer.written.length = PacketHeader.byteSize := by
      rw [length_written, pos]
    refine load_finalHeader _ earlier ?_
    rw [← writes, BufferWriter.written, finalBase, base, finalPos, pos]

namespace PacketId

/-- The header a finished packet with this id carries. -/
def finalHeader (id : PacketId) (size : Nat) : PacketHeader :=
  Protocol.finalHeader id.value size

end PacketId

namespace Packet

/-- The size of the packet's encoding, header included. -/
def encodedSize (packet : Packet) : Nat :=
  packet.id.encodedSize packet.fields

/-- The bytes after the header. -/
def payload (packet : Packet) : List UInt8 :=
  (packet.id.layout written).tokens packet.fields

theorem length_payload (packet : Packet) :
    PacketHeader.byteSize + packet.payload.length = packet.encodedSize :=
  (PacketId.encodedSize_eq packet.id packet.fields).symm

theorem makeSendBuffer_fits {packet : Packet} {state : SendBufferState}
    (closed : state.ChunkClosed)
    (enough : packet.encodedSize ≤ packetAllocSize) :
    ∃ sendBuffer next,
      packet.makeSendBuffer state = .ok (some sendBuffer, next) ∧
      next.ChunkClosed ∧
      next.bytes sendBuffer =
        Scalar.bytes (packet.id.finalHeader packet.encodedSize) ++
          packet.payload := by
  have sizes := packet.length_payload
  rw [packet.makeSendBuffer_eq, PacketId.makeSendBuffer, ← sizes]
  exact Protocol.makeSendBuffer_fits packet.id.value (PacketId.emits _ _)
    closed (sizes ▸ enough)

theorem makeSendBuffer_full {packet : Packet} {state : SendBufferState}
    (closed : state.ChunkClosed)
    (tooLong : packetAllocSize < packet.encodedSize) :
    ∃ next ref, packet.makeSendBuffer state = .ok (none, next) ∧
      next.localChunk = some ref ∧ (next.chunks ref).isOpen = true := by
  have sizes := packet.length_payload
  rw [packet.makeSendBuffer_eq, PacketId.makeSendBuffer]
  exact Protocol.makeSendBuffer_full packet.id.value (PacketId.emits _ _)
    closed (sizes ▸ tooLong)

/-- Every further call on a thread whose chunk was left open asserts. -/
theorem makeSendBuffer_of_open (packet : Packet) {state : SendBufferState}
    {ref : ChunkRef} (isLocal : state.localChunk = some ref)
    (isOpen : (state.chunks ref).isOpen = true) :
    packet.makeSendBuffer state = .error .managerOpenIsOpen := by
  rw [packet.makeSendBuffer_eq]
  unfold PacketId.makeSendBuffer Protocol.makeSendBuffer
  rw [SendBufferManager.open_of_open isLocal isOpen]
  rfl

end Packet

/-- The other threads leave this thread's chunk alone; the pool and the chunks
of their own they may use. -/
structure OthersAct (before after : SendBufferState) : Prop where
  localChunk : after.localChunk = before.localChunk
  chunk : ∀ ref, before.localChunk = some ref →
    after.chunks ref = before.chunks ref

theorem OthersAct.refl (state : SendBufferState) : OthersAct state state :=
  { localChunk := rfl
    chunk := fun _ _ => rfl }

theorem OthersAct.chunkClosed {before after : SendBufferState}
    (others : OthersAct before after) (closed : before.ChunkClosed) :
    after.ChunkClosed := by
  intro ref isLocal
  rw [others.localChunk] at isLocal
  rw [others.chunk ref isLocal]
  exact closed ref isLocal

/-- One thread makes these packets in turn, with the other threads acting in
between: every call returns (no assertion fails) and leaves the thread's chunk
closed. -/
def StaysClosed : SendBufferState → List Packet → Prop
  | _, [] => True
  | state, packet :: rest =>
      ∀ current, OthersAct state current →
        ∃ sendBuffer next,
          packet.makeSendBuffer current = .ok (sendBuffer, next) ∧
          next.ChunkClosed ∧ StaysClosed next rest

/-- A call leaves the chunk closed exactly when the packet fits. -/
theorem makeSendBuffer_closed_iff {packet : Packet} {state : SendBufferState}
    (closed : state.ChunkClosed) :
    (∃ sendBuffer next,
      packet.makeSendBuffer state = .ok (sendBuffer, next) ∧
      next.ChunkClosed) ↔ packet.encodedSize ≤ packetAllocSize := by
  constructor
  · rintro ⟨sendBuffer, next, returns, nextClosed⟩
    by_contra tooLong
    obtain ⟨full, ref, fullReturns, isLocal, isOpen⟩ :=
      Packet.makeSendBuffer_full closed (Nat.lt_of_not_le tooLong)
    obtain ⟨_, rfl⟩ := Prod.mk.inj
      (Except.ok.inj (fullReturns.symm.trans returns))
    rw [nextClosed ref isLocal] at isOpen
    cases isOpen
  · intro enough
    obtain ⟨sendBuffer, next, returns, nextClosed, _⟩ :=
      Packet.makeSendBuffer_fits closed enough
    exact ⟨some sendBuffer, next, returns, nextClosed⟩

theorem staysClosed_of_closed {packets : List Packet}
    {state : SendBufferState} (closed : state.ChunkClosed) :
    StaysClosed state packets ↔
      ∀ packet ∈ packets, packet.encodedSize ≤ packetAllocSize := by
  induction packets generalizing state with
  | nil => simp [StaysClosed]
  | cons packet rest induction =>
      rw [List.forall_mem_cons]
      constructor
      · intro stays
        obtain ⟨sendBuffer, next, returns, nextClosed, restStays⟩ :=
          stays state (.refl state)
        exact ⟨(makeSendBuffer_closed_iff closed).mp
            ⟨sendBuffer, next, returns, nextClosed⟩,
          (induction nextClosed).mp restStays⟩
      · rintro ⟨enough, restFit⟩ current others
        obtain ⟨sendBuffer, next, returns, nextClosed⟩ :=
          (makeSendBuffer_closed_iff (others.chunkClosed closed)).mpr enough
        exact ⟨sendBuffer, next, returns, nextClosed,
          (induction nextClosed).mpr restFit⟩

/-- A thread that has made no packet yet keeps its chunk usable through a
sequence of calls exactly when every packet of the sequence fits. -/
theorem staysClosed_iff_packetsFit (packets : List Packet) :
    (∀ state : SendBufferState, state.localChunk = none →
      StaysClosed state packets) ↔
      ∀ packet ∈ packets, packet.encodedSize ≤ packetAllocSize := by
  have closed : ∀ state : SendBufferState, state.localChunk = none →
      state.ChunkClosed := by
    intro state fresh ref isLocal
    rw [fresh] at isLocal
    cases isLocal
  constructor
  · intro stays
    exact (staysClosed_of_closed (closed .initial rfl)).mp (stays .initial rfl)
  · intro enough state fresh
    exact (staysClosed_of_closed (closed state fresh)).mpr enough

/-- A notice of 4091 characters is refused, and the next packet of the thread
fails the assertion. -/
theorem longNotice_breaksChunk :
    ¬StaysClosed .initial
        [⟨.sNotice, { message := List.replicate 4091 0 }⟩, ⟨.cRoomList, {}⟩] ∧
      ∃ next,
        Packet.makeSendBuffer ⟨.sNotice, { message := List.replicate 4091 0 }⟩
          .initial = .ok (none, next) ∧
        Packet.makeSendBuffer ⟨.cRoomList, {}⟩ next =
          .error .managerOpenIsOpen := by
  let notice : Packet := ⟨.sNotice, { message := List.replicate 4091 0 }⟩
  have closed : SendBufferState.initial.ChunkClosed := by
    intro ref isLocal
    cases isLocal
  have tooLong : packetAllocSize < notice.encodedSize := by
    change 4096 < 4 + (2 + (List.replicate 4091 (0 : UInt8)).length % 2 ^ 16)
    rw [List.length_replicate]
    decide
  constructor
  · intro stays
    have enough := (staysClosed_of_closed closed).mp stays notice
      (List.mem_cons_self ..)
    exact absurd tooLong (Nat.not_lt.mpr enough)
  · obtain ⟨next, ref, returns, isLocal, isOpen⟩ :=
      Packet.makeSendBuffer_full closed tooLong
    exact ⟨next, returns, Packet.makeSendBuffer_of_open _ isLocal isOpen⟩

end Protocol

end IocpChat
