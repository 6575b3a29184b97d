import IocpChat.Lib.Framing
import IocpChat.Protocol.PacketProtocol

/-!
# PacketSession

`OnRecv` cuts complete packets off the received bytes and hands each to
`OnRecvPacket`.  It is the parser of a framing rule: the header says how long
the packet is, a size below the header's own is invalid.
-/

namespace IocpChat

open LittleEndian Framing

namespace PacketSession

/-- The header at the start of these bytes. -/
def headerAt (bytes : List UInt8) : PacketHeader :=
  Scalar.ofBytes (bytes.take PacketHeader.byteSize)

/-- The loop of `OnRecv` from `processedLen` on: the slices handed to
`OnRecvPacket` in order, and the returned value. -/
def onRecvFrom (buffer : List UInt8) (processedLen : Nat) :
    List (List UInt8) × Int :=
  let dataSize := buffer.length - processedLen
  if dataSize < PacketHeader.byteSize then ([], processedLen)
  else
    let header := headerAt (buffer.drop processedLen)
    if _invalid : header.size.toNat < PacketHeader.byteSize then ([], -1)
    else if dataSize < header.size.toNat then ([], processedLen)
    else
      let packet := (buffer.drop processedLen).take header.size.toNat
      let (packets, result) :=
        onRecvFrom buffer (processedLen + header.size.toNat)
      (packet :: packets, result)
termination_by buffer.length - processedLen
decreasing_by
  have headerSize : PacketHeader.byteSize = 4 := rfl
  change buffer.length - (processedLen + header.size.toNat) < _
  omega

def onRecv (buffer : List UInt8) : List (List UInt8) × Int :=
  onRecvFrom buffer 0

/-- The framing rule of the protocol. -/
def verdict (input : List UInt8) : Verdict :=
  if input.length < PacketHeader.byteSize then .incomplete
  else
    let size := (headerAt input).size.toNat
    if size < PacketHeader.byteSize then .invalid
    else if input.length < size then .incomplete
    else .complete size

/-- More input does not change a header that is there. -/
theorem headerAt_append {input : List UInt8} (more : List UInt8)
    (enough : PacketHeader.byteSize ≤ input.length) :
    headerAt (input ++ more) = headerAt input := by
  rw [headerAt, headerAt, List.take_append_of_le_length enough]

theorem verdict_complete_iff {input : List UInt8} {length : Nat} :
    verdict input = .complete length ↔
      PacketHeader.byteSize ≤ length ∧ length ≤ input.length ∧
        (headerAt input).size.toNat = length := by
  have headerSize : PacketHeader.byteSize = 4 := rfl
  unfold verdict
  by_cases noHeader : input.length < PacketHeader.byteSize
  · rw [if_pos noHeader]
    constructor
    · intro impossible
      cases impossible
    · rintro ⟨_, _, _⟩
      omega
  · rw [if_neg noHeader]
    simp only
    split
    · constructor
      · intro impossible
        cases impossible
      · rintro ⟨_, _, same⟩
        omega
    · split
      · constructor
        · intro impossible
          cases impossible
        · rintro ⟨_, _, same⟩
          omega
      · rw [Verdict.complete.injEq]
        constructor
        · intro same
          omega
        · exact fun found => found.2.2

theorem verdict_invalid_iff {input : List UInt8} :
    verdict input = .invalid ↔
      PacketHeader.byteSize ≤ input.length ∧
        (headerAt input).size.toNat < PacketHeader.byteSize := by
  unfold verdict
  by_cases noHeader : input.length < PacketHeader.byteSize
  · rw [if_pos noHeader]
    constructor
    · intro impossible
      cases impossible
    · rintro ⟨enough, _⟩
      exact absurd noHeader (Nat.not_lt.mpr enough)
  · rw [if_neg noHeader]
    simp only
    split
    · rename_i small
      exact ⟨fun _ => ⟨Nat.le_of_not_lt noHeader, small⟩, fun _ => rfl⟩
    · rename_i large
      constructor
      · intro impossible
        split at impossible <;> cases impossible
      · rintro ⟨_, small⟩
        exact absurd small large

/-- The packets of the protocol as frames. -/
def framing : Rule UInt8 where
  verdict := verdict
  nothing := rfl
  positive := by
    intro input length complete
    obtain ⟨large, inside, _⟩ := verdict_complete_iff.mp complete
    exact ⟨Nat.lt_of_lt_of_le (by decide) large, inside⟩
  complete_append := by
    intro input length more complete
    obtain ⟨large, inside, size⟩ := verdict_complete_iff.mp complete
    apply verdict_complete_iff.mpr
    rw [headerAt_append more (large.trans inside), List.length_append]
    exact ⟨large, inside.trans (Nat.le_add_right _ _), size⟩
  invalid_append := by
    intro input more invalid
    obtain ⟨enough, small⟩ := verdict_invalid_iff.mp invalid
    apply verdict_invalid_iff.mpr
    rw [headerAt_append more enough, List.length_append]
    exact ⟨enough.trans (Nat.le_add_right _ _), small⟩

/-- The loop parses what is left of the buffer; a rejection is reported as -1,
otherwise the value is what the parsed packets add up to. -/
theorem onRecvFrom_eq (buffer : List UInt8) (processedLen : Nat)
    (inside : processedLen ≤ buffer.length) :
    onRecvFrom buffer processedLen =
      ((framing.parse (buffer.drop processedLen)).frames,
        if (framing.parse (buffer.drop processedLen)).rejected then -1
        else ((processedLen + (framing.parse
          (buffer.drop processedLen)).frames.flatten.length : Nat) : Int)) := by
  induction processedLen using onRecvFrom.induct buffer with
  | case1 processedLen dataSize short =>
      have incomplete : framing.verdict (buffer.drop processedLen) =
          .incomplete := by
        change verdict _ = _
        rw [verdict, List.length_drop, if_pos short]
      rw [Rule.parse_incomplete incomplete, onRecvFrom, if_pos short]
      simp
  | case2 processedLen dataSize enough header invalid =>
      have rejected :
          framing.verdict (buffer.drop processedLen) = .invalid := by
        apply verdict_invalid_iff.mpr
        rw [List.length_drop]
        exact ⟨Nat.le_of_not_lt enough, invalid⟩
      rw [Rule.parse_invalid rejected, onRecvFrom, if_neg enough]
      exact dif_pos invalid
  | case3 processedLen dataSize enough header valid short =>
      have incomplete : framing.verdict (buffer.drop processedLen) =
          .incomplete := by
        change verdict _ = _
        rw [verdict, List.length_drop, if_neg enough]
        exact (if_neg valid).trans (if_pos short)
      rw [Rule.parse_incomplete incomplete, onRecvFrom, if_neg enough]
      refine (dif_neg valid).trans ((if_pos short).trans ?_)
      simp
  | case4 processedLen dataSize enough header valid complete _ _ _ induction =>
      have whole : header.size.toNat ≤ (buffer.drop processedLen).length := by
        rw [List.length_drop]
        exact Nat.le_of_not_lt complete
      have found : framing.verdict (buffer.drop processedLen) =
          .complete header.size.toNat :=
        verdict_complete_iff.mpr ⟨Nat.le_of_not_lt valid, whole, rfl⟩
      have next : processedLen + header.size.toNat ≤ buffer.length := by
        rw [List.length_drop] at whole
        omega
      have rest := induction next
      rw [← List.drop_drop] at rest
      rw [Rule.parse_complete found, onRecvFrom, if_neg enough]
      refine (dif_neg valid).trans ((if_neg complete).trans ?_)
      change (_ :: (onRecvFrom buffer (processedLen + header.size.toNat)).1,
        (onRecvFrom buffer (processedLen + header.size.toNat)).2) = _
      rw [rest]
      simp only [List.flatten_cons, List.length_append]
      have size : ((buffer.drop processedLen).take header.size.toNat).length =
          header.size.toNat := by
        rw [List.length_take, Nat.min_eq_left whole]
      rw [size, Nat.add_assoc]

/-- `OnRecv` parses the received bytes. -/
theorem onRecv_eq (buffer : List UInt8) :
    onRecv buffer =
      ((framing.parse buffer).frames,
        if (framing.parse buffer).rejected then -1
        else ((framing.parse buffer).frames.flatten.length : Int)) := by
  have parsed := onRecvFrom_eq buffer 0 (Nat.zero_le _)
  rwa [List.drop_zero, Nat.zero_add] at parsed

/-- A well-formed packet: its header counts its bytes. -/
theorem isFrame_iff {packet : List UInt8} :
    framing.IsFrame packet ↔
      PacketHeader.byteSize ≤ packet.length ∧
        (headerAt packet).size.toNat = packet.length := by
  rw [Rule.IsFrame]
  change verdict packet = _ ↔ _
  rw [verdict_complete_iff]
  constructor
  · rintro ⟨large, _, size⟩
    exact ⟨large, size⟩
  · rintro ⟨large, size⟩
    exact ⟨large, Nat.le_refl _, size⟩

end PacketSession

end IocpChat
