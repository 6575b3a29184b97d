import IocpChat.Network.PacketSession

/-!
# The framing loop as an incremental parser

The loop of `OnRecv` in the arithmetic of the source: the positions are `int32`
and `sizeof` is unsigned.  On any buffer it stops after as many iterations as
there are headers, reads inside the buffer only, and computes `onRecv`.
-/

namespace IocpChat

open Framing

namespace PacketSession

/-- A signed value compared with `sizeof` is converted to `size_t`. -/
def sizeT (value : Int) : Nat :=
  (value % 2 ^ 64).toNat

/-- A call of `OnRecv`: the places of the buffer it read, each with its number
of bytes, the slices it handed over, and what it returned. -/
structure OnRecvCall where
  reads : List (Int × Nat)
  packets : List (List UInt8)
  returned : Int
  deriving DecidableEq, Repr

/-- At most `fuel` iterations of the loop, `none` if it has not returned. -/
def onRecvLoop (buffer : List UInt8) : Nat → Int → Option OnRecvCall
  | 0, _ => none
  | fuel + 1, processedLen =>
      let dataSize := int32 (buffer.length - processedLen)
      if sizeT dataSize < PacketHeader.byteSize then
        some { reads := [], packets := [], returned := processedLen }
      else
        let rest := buffer.drop processedLen.toNat
        let header := headerAt rest
        let headerRead := (processedLen, PacketHeader.byteSize)
        if header.size.toNat < PacketHeader.byteSize then
          some { reads := [headerRead], packets := [], returned := -1 }
        else if dataSize < header.size.toNat then
          some
            { reads := [headerRead]
              packets := []
              returned := processedLen }
        else
          let packetRead := (processedLen, header.size.toNat)
          (onRecvLoop buffer fuel
            (int32 (processedLen + header.size.toNat))).map fun call =>
              { reads := headerRead :: packetRead :: call.reads
                packets := rest.take header.size.toNat :: call.packets
                returned := call.returned }

/-- What `OnRecv` does with this buffer, given enough iterations. -/
def Returns (buffer : List UInt8) (call : OnRecvCall) : Prop :=
  ∀ fuel, buffer.length / PacketHeader.byteSize < fuel →
    onRecvLoop buffer fuel 0 = some call

/-- Everything the call read lies in the buffer. -/
def OnRecvCall.InBounds (call : OnRecvCall) (buffer : List UInt8) : Prop :=
  ∀ read ∈ call.reads, 0 ≤ read.1 ∧ read.1 + read.2 ≤ buffer.length

/-- A complete packet: its header counts its bytes. -/
def IsPacket (packet : List UInt8) : Prop :=
  PacketHeader.byteSize ≤ packet.length ∧
    (headerAt packet).size.toNat = packet.length

/-- The call handed over the complete packets at the front of the buffer, and
returned their length, or -1 because the next header has too small a size. -/
structure OnRecvCall.ParsesFront (call : OnRecvCall) (buffer : List UInt8)
    (rest : List UInt8) : Prop where
  cut : buffer = call.packets.flatten ++ rest
  packets : ∀ packet ∈ call.packets, IsPacket packet
  maximal : ∀ packet, IsPacket packet → ¬packet <+: rest
  rejects : call.returned = -1 ↔
    PacketHeader.byteSize ≤ rest.length ∧
      (headerAt rest).size.toNat < PacketHeader.byteSize
  returns : call.returned ≠ -1 →
    call.returned = call.packets.flatten.length

/-- `call` on two pieces of a buffer: the packets of the first piece, then those
of what it left and the second; nothing after a rejection. -/
structure OnRecvCall.Joins (call : OnRecvCall) (first second : List UInt8)
    (earlier : OnRecvCall) : Prop where
  rejected : earlier.returned = -1 →
    call.packets = earlier.packets ∧ call.returned = -1
  resumed : earlier.returned ≠ -1 →
    ∃ later, Returns (first.drop earlier.returned.toNat ++ second) later ∧
      call.packets = earlier.packets ++ later.packets ∧
      (call.returned = -1 ↔ later.returned = -1)

theorem sizeT_of_range {value : Int} (low : 0 ≤ value)
    (high : value < 2 ^ 64) : sizeT value = value.toNat := by
  rw [sizeT, Int.emod_eq_of_lt low high]

section Loop

variable {buffer : List UInt8} (short : buffer.length < 2 ^ 31)

include short

/-- One iteration, when no sum wraps. -/
theorem onRecvLoop_succ {processedLen : Nat}
    (inside : processedLen ≤ buffer.length) (fuel : Nat) :
    onRecvLoop buffer (fuel + 1) processedLen =
      if buffer.length - processedLen < PacketHeader.byteSize then
        some { reads := [], packets := [], returned := processedLen }
      else
        let rest := buffer.drop processedLen
        let header := headerAt rest
        let headerRead := ((processedLen : Int), PacketHeader.byteSize)
        if header.size.toNat < PacketHeader.byteSize then
          some { reads := [headerRead], packets := [], returned := -1 }
        else if buffer.length - processedLen < header.size.toNat then
          some
            { reads := [headerRead]
              packets := []
              returned := processedLen }
        else
          let packetRead := ((processedLen : Int), header.size.toNat)
          (onRecvLoop buffer fuel
            ((processedLen + header.size.toNat : Nat) : Int)).map fun call =>
              { reads := headerRead :: packetRead :: call.reads
                packets := rest.take header.size.toNat :: call.packets
                returned := call.returned } := by
  have dataSize : int32 (buffer.length - processedLen) =
      ((buffer.length - processedLen : Nat) : Int) := by
    rw [Nat.cast_sub inside]
    exact int32_of_range (by omega) (by omega)
  have converted : sizeT ((buffer.length - processedLen : Nat) : Int) =
      buffer.length - processedLen := by
    rw [sizeT_of_range (by omega) (by omega), Int.toNat_natCast]
  rw [onRecvLoop]
  simp only [dataSize, converted, Int.toNat_natCast, Nat.cast_lt]
  generalize headerAt (buffer.drop processedLen) = header
  by_cases partly : buffer.length - processedLen < header.size.toNat
  · simp only [if_pos partly]
  · have next : int32 (processedLen + header.size.toNat) =
        ((processedLen + header.size.toNat : Nat) : Int) := by
      rw [Nat.cast_add]
      exact int32_of_range (by omega) (by omega)
    simp only [if_neg partly, next]

/-- The loop in machine arithmetic is the loop on natural numbers. -/
theorem onRecvLoop_eq {processedLen : Nat}
    (inside : processedLen ≤ buffer.length) :
    ∃ reads,
      (∀ read ∈ reads, 0 ≤ read.1 ∧
        read.1 + read.2 ≤ (buffer.length : Int)) ∧
      ∀ fuel, (buffer.length - processedLen) / PacketHeader.byteSize < fuel →
        onRecvLoop buffer fuel processedLen =
          some
            { reads := reads
              packets := (onRecvFrom buffer processedLen).1
              returned := (onRecvFrom buffer processedLen).2 } := by
  have headerSize : PacketHeader.byteSize = 4 := rfl
  induction processedLen using onRecvFrom.induct buffer with
  | case1 processedLen dataSize done =>
      refine ⟨[], ?_, ?_⟩
      · intro read none
        cases none
      · intro fuel enough
        obtain ⟨fuel, rfl⟩ :=
          Nat.exists_eq_succ_of_ne_zero (Nat.ne_zero_of_lt enough)
        rw [onRecvLoop_succ short inside, onRecvFrom, if_pos done, if_pos done]
  | case2 processedLen dataSize whole header invalid =>
      refine ⟨[(processedLen, PacketHeader.byteSize)], ?_, ?_⟩
      · rw [List.forall_mem_singleton]
        omega
      · intro fuel enough
        obtain ⟨fuel, rfl⟩ :=
          Nat.exists_eq_succ_of_ne_zero (Nat.ne_zero_of_lt enough)
        rw [onRecvLoop_succ short inside, onRecvFrom, if_neg whole,
          if_neg whole]
        simp only [header] at invalid
        rw [if_pos invalid, dif_pos invalid]
  | case3 processedLen dataSize whole header valid partly =>
      refine ⟨[(processedLen, PacketHeader.byteSize)], ?_, ?_⟩
      · rw [List.forall_mem_singleton]
        omega
      · intro fuel enough
        obtain ⟨fuel, rfl⟩ :=
          Nat.exists_eq_succ_of_ne_zero (Nat.ne_zero_of_lt enough)
        rw [onRecvLoop_succ short inside, onRecvFrom, if_neg whole,
          if_neg whole]
        simp only [header] at valid partly
        rw [if_neg valid, dif_neg valid, if_pos partly, if_pos partly]
  | case4 processedLen dataSize whole header valid complete _ _ _ induction =>
      have next : processedLen + header.size.toNat ≤ buffer.length := by omega
      obtain ⟨reads, readsInside, returned⟩ := induction next
      refine ⟨(processedLen, PacketHeader.byteSize) ::
        (processedLen, header.size.toNat) :: reads, ?_, ?_⟩
      · rw [List.forall_mem_cons, List.forall_mem_cons]
        refine ⟨?_, ?_, readsInside⟩
        · omega
        · omega
      · intro fuel enough
        obtain ⟨fuel, rfl⟩ :=
          Nat.exists_eq_succ_of_ne_zero (Nat.ne_zero_of_lt enough)
        have later := returned fuel (by
          rw [headerSize] at enough ⊢
          omega)
        simp only [header] at valid complete later
        rw [onRecvLoop_succ short inside, onRecvFrom, if_neg whole,
          if_neg whole]
        simp only
        rw [if_neg valid, dif_neg valid, if_neg complete, if_neg complete,
          later]
        rfl

/-- `OnRecv` returns, and what it does is `onRecv`. -/
theorem returns_onRecv :
    ∃ call, Returns buffer call ∧ call.InBounds buffer ∧
      call.packets = (onRecv buffer).1 ∧
      call.returned = (onRecv buffer).2 := by
  obtain ⟨reads, inside, returned⟩ :=
    onRecvLoop_eq short (Nat.zero_le buffer.length)
  exact ⟨_, returned, inside, rfl, rfl⟩

end Loop

/-- The packets are the frames of the protocol. -/
theorem isPacket_of_frame {input packet : List UInt8}
    (listed : packet ∈ (framing.parse input).frames) : IsPacket packet := by
  induction input using Rule.parse.induct framing with
  | case1 input incomplete =>
      rw [Rule.parse_incomplete incomplete] at listed
      cases listed
  | case2 input invalid =>
      rw [Rule.parse_invalid invalid] at listed
      cases listed
  | case3 input length complete induction =>
      rw [Rule.parse_complete complete, List.mem_cons] at listed
      rcases listed with rfl | later
      · obtain ⟨large, inside, size⟩ := verdict_complete_iff.mp complete
        have taken : (input.take length).length = length := by
          rw [List.length_take, Nat.min_eq_left inside]
        have sameHeader := headerAt_append (input.drop length)
          (large.trans taken.ge)
        rw [List.take_append_drop] at sameHeader
        rw [IsPacket, taken, ← sameHeader]
        exact ⟨large, size⟩
      · exact induction later

/-- What the parser leaves begins with no complete packet. -/
theorem not_isPacket_prefix_rest (input : List UInt8) {packet : List UInt8}
    (isPacket : IsPacket packet) :
    ¬packet <+: (framing.parse input).rest := by
  rintro ⟨more, whole⟩
  have complete := framing.complete_append more (isFrame_iff.mpr isPacket)
  rw [whole, framing.verdict_rest] at complete
  split at complete <;> cases complete

theorem returned_eq_iff (input : List UInt8) :
    (onRecv input).2 = -1 ↔ (framing.parse input).rejected = true := by
  rw [onRecv_eq]
  by_cases rejected : (framing.parse input).rejected = true
  · rw [if_pos rejected]
    exact iff_of_true rfl rejected
  · rw [if_neg rejected]
    apply iff_of_false
    · omega
    · exact rejected

theorem parsesFront {buffer : List UInt8} {call : OnRecvCall}
    (packets : call.packets = (onRecv buffer).1)
    (returned : call.returned = (onRecv buffer).2) :
    call.ParsesFront buffer (framing.parse buffer).rest := by
  have frames : call.packets = (framing.parse buffer).frames := by
    rw [packets, onRecv_eq]
  constructor
  · rw [frames]
    exact (framing.parse_flatten buffer).symm
  · rw [frames]
    exact fun packet listed => isPacket_of_frame listed
  · exact fun packet => not_isPacket_prefix_rest buffer
  · rw [returned, returned_eq_iff, ← verdict_invalid_iff]
    have verdict := framing.verdict_rest buffer
    change PacketSession.verdict _ = _ at verdict
    rw [verdict]
    split
    · rename_i rejected
      exact iff_of_true rejected rfl
    · rename_i accepted
      exact iff_of_false accepted nofun
  · intro accepted
    rw [returned] at accepted ⊢
    rw [ne_eq, returned_eq_iff] at accepted
    rw [frames, onRecv_eq, if_neg accepted]

theorem joins {first second : List UInt8} {call earlier : OnRecvCall}
    (short : (first ++ second).length < 2 ^ 31)
    (packets : call.packets = (onRecv (first ++ second)).1)
    (returned : call.returned = (onRecv (first ++ second)).2)
    (earlierPackets : earlier.packets = (onRecv first).1)
    (earlierReturned : earlier.returned = (onRecv first).2) :
    call.Joins first second earlier := by
  constructor
  · intro rejected
    rw [earlierReturned, returned_eq_iff] at rejected
    obtain ⟨sameFrames, stays⟩ :=
      Rule.parse_append_rejected rejected second
    rw [packets, earlierPackets, returned, returned_eq_iff, onRecv_eq,
      onRecv_eq]
    exact ⟨sameFrames, stays⟩
  · intro accepted
    -- what the first call returned is where the rest begins
    have front := parsesFront earlierPackets earlierReturned
    have rest : first.drop earlier.returned.toNat =
        (framing.parse first).rest := by
      rw [front.returns accepted, Int.toNat_natCast]
      conv_lhs => rw [front.cut]
      exact List.drop_left
    have shorter : ((framing.parse first).rest ++ second).length < 2 ^ 31 := by
      have lengths := congrArg List.length front.cut
      rw [List.length_append] at lengths short ⊢
      omega
    obtain ⟨later, returns, _, laterPackets, laterReturned⟩ :=
      returns_onRecv shorter
    rw [rest]
    refine ⟨later, returns, ?_, ?_⟩
    · rw [packets, earlierPackets, laterPackets, onRecv_eq, onRecv_eq,
        onRecv_eq, framing.parse_append]
    · rw [returned, laterReturned, returned_eq_iff, returned_eq_iff,
        framing.parse_append]

/-- The framing loop is an incremental parser. -/
theorem onRecv_incremental {buffer : List UInt8}
    (short : buffer.length < 2 ^ 31) :
    ∃ call, Returns buffer call ∧ call.InBounds buffer ∧
      (∃ rest, call.ParsesFront buffer rest) ∧
      ∀ first second, buffer = first ++ second →
        ∃ earlier, Returns first earlier ∧ call.Joins first second earlier := by
  obtain ⟨call, returns, inBounds, packets, returned⟩ := returns_onRecv short
  refine ⟨call, returns, inBounds, ⟨_, parsesFront packets returned⟩, ?_⟩
  intro first second cut
  subst cut
  have firstShort : first.length < 2 ^ 31 := by
    rw [List.length_append] at short
    omega
  obtain ⟨earlier, earlierReturns, _, earlierPackets, earlierReturned⟩ :=
    returns_onRecv firstShort
  exact ⟨earlier, earlierReturns,
    joins short packets returned earlierPackets earlierReturned⟩

/-- A packet, half a header and its rest, and a header whose size is 3. -/
theorem onRecv_incremental_mixed :
    let buffer : List UInt8 := [5, 0, 7, 0, 1, 4, 0, 8, 0, 3, 0, 9, 0, 2]
    ∃ call, Returns buffer call ∧ call.InBounds buffer ∧
      (∃ rest, call.ParsesFront buffer rest) ∧
      ∀ first second, buffer = first ++ second →
        ∃ earlier, Returns first earlier ∧ call.Joins first second earlier :=
  onRecv_incremental (by decide)

end PacketSession

end IocpChat
