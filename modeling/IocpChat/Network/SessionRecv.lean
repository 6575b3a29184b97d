import IocpChat.Buffer.RingBuffer
import IocpChat.Network.PacketSession
import Mathlib.Data.List.Induction

/-!
# The receive path of a PacketSession

`RegisterRecv` posts the free spans of the receive ring to `WSARecv`; the bytes
of a completion fill them in order, and `ProcessRecv` hands the stored bytes to
`OnRecv` and takes the processed ones off the ring.

`MoveReadPos` refuses to move by 0, and `ProcessRecv` disconnects when it
refuses.  A completion that does not finish a packet therefore ends the
connection.
-/

namespace IocpChat

open FlatMemory Framing

/-- The receive side of a session: the ring, `_connected`, the spans of the
outstanding `WSARecv`, and the packets `OnRecvPacket` was called with. -/
structure SessionRecv where
  recvBuffer : RingBuffer
  connected : Bool
  posted : Option (List WSABUF)
  received : List (List UInt8)

namespace SessionRecv

def disconnect (session : SessionRecv) : SessionRecv :=
  { session with connected := false }

/-- `RegisterRecv` where `WSARecv` accepts the request. -/
def registerRecv (session : SessionRecv) : SessionRecv :=
  if session.connected = false then session
  else
    let wsabufs := session.recvBuffer.getWriteSpan 0
    if wsabufs.spanCount = 0 then session.disconnect
    else { session with posted := some (RingBuffer.spans wsabufs) }

/-- `ProcessRecv` once `MoveWritePos` has succeeded. -/
def processData (session : SessionRecv) : SessionRecv :=
  let ring := session.recvBuffer
  let dataSize := ring.getDataSize
  -- the vector is zeroed, and stays so if `Peek` were to fail
  let packetData :=
    (ring.peek dataSize).getD (List.replicate dataSize.toNat 0)
  let (packets, processedLen) := PacketSession.onRecv packetData
  let session := { session with received := session.received ++ packets }
  if processedLen < 0 ∨ dataSize < processedLen then session.disconnect
  else
    let (moved, ring) := ring.moveReadPos processedLen
    let session := { session with recvBuffer := ring }
    if moved = false then session.disconnect
    else session.registerRecv

def processRecv (session : SessionRecv) (numOfBytes : Int) : SessionRecv :=
  if numOfBytes = 0 then session.disconnect
  else
    let (moved, ring) := session.recvBuffer.moveWritePos numOfBytes
    let session := { session with recvBuffer := ring }
    if moved = false then session.disconnect
    else session.processData

/-- A completion of the posted receive with these bytes. -/
def complete (session : SessionRecv) (chunk : List UInt8) : SessionRecv :=
  match session.posted with
  | none => session
  | some wsabufs =>
      let ring := session.recvBuffer
      let filled :=
        { ring with buffer := RingBuffer.fill ring.buffer wsabufs chunk }
      processRecv
        { session with
          recvBuffer := filled
          posted := none }
        chunk.length

def completeAll (session : SessionRecv) (chunks : List (List UInt8)) :
    SessionRecv :=
  chunks.foldl complete session

theorem completeAll_concat (session : SessionRecv)
    (before : List (List UInt8)) (chunk : List UInt8) :
    session.completeAll (before ++ [chunk]) =
      (session.completeAll before).complete chunk := by
  rw [completeAll, List.foldl_append]
  rfl

/-- A connected session that has posted its first receive. -/
def start (ring : RingBuffer) : SessionRecv :=
  registerRecv
    { recvBuffer := ring
      connected := true
      posted := none
      received := [] }

/-- A completion the system can report: some bytes, as many as the posted spans
have room for. -/
def Offered (session : SessionRecv) (chunk : List UInt8) : Prop :=
  chunk ≠ [] ∧ ∀ wsabufs ∈ session.posted,
    (chunk.length : Int) ≤ RingBuffer.spanTotal wsabufs

/-- Every completion of the sequence is offered when it comes. -/
def AllOffered (session : SessionRecv) (chunks : List (List UInt8)) : Prop :=
  ∀ before chunk after, chunks = before ++ chunk :: after →
    (session.completeAll before).Offered chunk

/-- Receiving the packets in these pieces: after every completion the session
is connected, the packets that arrived in full were dispatched in order and the
bytes of the unfinished one are in the ring; at the end every packet was. -/
structure Intact (ring : RingBuffer) (packets chunks : List (List UInt8)) :
    Prop where
  always : ∀ before after, chunks = before ++ after →
    ((start ring).completeAll before).connected = true ∧
    ∃ rest, Splits packets before.flatten
      ((start ring).completeAll before).received rest
      ((start ring).completeAll before).recvBuffer.contents
  dispatched : ((start ring).completeAll chunks).received = packets

/-- The last byte of some packet is among the bytes of the completion. -/
def FinishesPacket (packets : List (List UInt8)) (before chunk : List UInt8) :
    Prop :=
  ∃ front back, packets = front ++ back ∧
    before.length < front.flatten.length ∧
    front.flatten.length ≤ before.length + chunk.length

/-- Well-formed packets that fit in a ring of this capacity, where one cell
stays free. -/
def Fitting (capacity : Int) (packets : List (List UInt8)) : Prop :=
  ∀ packet ∈ packets, PacketSession.framing.IsFrame packet ∧
    (packet.length : Int) ≤ capacity - 1

/-- A connected session that waits for more of the stream. -/
structure Waiting (packets : List (List UInt8)) (capacity : Int)
    (received : List UInt8) (session : SessionRecv) : Prop where
  valid : session.recvBuffer.Valid
  capacity_eq : session.recvBuffer.capacity = capacity
  connected : session.connected = true
  posted : session.posted =
    some (RingBuffer.spans (session.recvBuffer.getWriteSpan 0))
  room : 0 < session.recvBuffer.offered 0
  splits : ∃ rest,
    Splits packets received session.received rest session.recvBuffer.contents

theorem registerRecv_of_room {session : SessionRecv}
    (valid : session.recvBuffer.Valid) (connected : session.connected = true)
    (room : 0 < session.recvBuffer.offered 0) :
    session.registerRecv =
      { session with
        posted :=
          some (RingBuffer.spans (session.recvBuffer.getWriteSpan 0)) } := by
  obtain ⟨positive, _⟩ := RingBuffer.getWriteSpan_spec valid room
  have notConnected : ¬session.connected = false := by
    rw [connected]
    exact Bool.noConfusion
  have someSpan : ¬(session.recvBuffer.getWriteSpan 0).spanCount = 0 :=
    (Int.ne_of_gt positive)
  rw [registerRecv, if_neg notConnected]
  exact if_neg someSpan

/-- What `OnRecv` is given and what it returns, for a ring that holds `data`
whose parse is `done`. -/
theorem onRecv_of_parse {data pending : List UInt8}
    {done : List (List UInt8)}
    (parsed : PacketSession.framing.parse data =
      { frames := done, rest := pending, rejected := false }) :
    PacketSession.onRecv data = (done, (done.flatten.length : Int)) := by
  rw [PacketSession.onRecv_eq, parsed]
  rfl

/-- Dispatching the stored bytes: without a complete packet the session
disconnects, otherwise the packets are taken off the ring. -/
theorem processData_spec {session : SessionRecv}
    (valid : session.recvBuffer.Valid)
    (nonempty : session.recvBuffer.contents ≠ [])
    {done : List (List UInt8)} {pending : List UInt8}
    (parsed : PacketSession.framing.parse session.recvBuffer.contents =
      { frames := done, rest := pending, rejected := false })
    (split : session.recvBuffer.contents = done.flatten ++ pending) :
    (done.flatten = [] →
      session.processData.connected = false ∧
        session.processData.posted = session.posted) ∧
    (done.flatten ≠ [] →
      ∃ ring : RingBuffer, ring.Valid ∧
        ring.capacity = session.recvBuffer.capacity ∧
        ring.contents = pending ∧
        session.processData =
          registerRecv
            { session with
              recvBuffer := ring
              received := session.received ++ done }) := by
  let ring := session.recvBuffer
  obtain ⟨low, _⟩ := RingBuffer.getDataSize_bounds valid
  have length : ring.getDataSize.toNat =
      done.flatten.length + pending.length := by
    rw [← RingBuffer.length_contents, ← List.length_append, ← split]
  have positive : 0 < ring.getDataSize := by
    have stored := List.length_pos_iff.mpr nonempty
    rw [RingBuffer.length_contents] at stored
    change 0 < session.recvBuffer.getDataSize
    omega
  have peeked : ring.peek ring.getDataSize = some ring.contents := by
    rw [RingBuffer.peek_eq valid positive (Int.le_refl _),
      ← RingBuffer.length_contents, List.take_length]
  have received : PacketSession.onRecv
      ((ring.peek ring.getDataSize).getD
        (List.replicate ring.getDataSize.toNat 0)) =
      (done, (done.flatten.length : Int)) := by
    rw [peeked]
    exact onRecv_of_parse parsed
  have accepted : ¬((done.flatten.length : Int) < 0 ∨
      ring.getDataSize < (done.flatten.length : Int)) := by omega
  have unfolded : session.processData =
      (let session' :=
          { session with received := session.received ++ done }
        let (moved, next) := ring.moveReadPos done.flatten.length
        let session' := { session' with recvBuffer := next }
        if moved = false then session'.disconnect
        else session'.registerRecv) := by
    unfold processData
    simp only [ring] at received accepted
    simp only [received, accepted, if_false]
    rfl
  constructor
  · intro nothing
    rw [unfolded, nothing]
    simp only [List.length_nil, Nat.cast_zero, RingBuffer.moveReadPos_zero]
    exact ⟨rfl, rfl⟩
  · intro something
    have moves : (0 : Int) < done.flatten.length := by
      have := List.length_pos_iff.mpr something
      omega
    obtain ⟨next, moved, nextValid, capacity, _, contents⟩ :=
      RingBuffer.moveReadPos_spec valid moves
        (by omega : (done.flatten.length : Int) ≤ ring.getDataSize)
    refine ⟨next, nextValid, capacity, ?_, ?_⟩
    · rw [contents, split]
      exact List.drop_left' rfl
    · rw [unfolded]
      simp only [ring, moved]
      rfl

/-- The bytes of a completion are stored behind the contents, and
`ProcessRecv` goes on to dispatch. -/
theorem complete_spec {session : SessionRecv} {packets : List (List UInt8)}
    {capacity : Int} {received : List UInt8} {chunk : List UInt8}
    (waiting : Waiting packets capacity received session)
    (offered : session.Offered chunk) :
    ∃ ring : RingBuffer, ring.Valid ∧ ring.capacity = capacity ∧
      ring.contents = session.recvBuffer.contents ++ chunk ∧
      session.complete chunk =
        processData
          { session with
            recvBuffer := ring
            posted := none } := by
  obtain ⟨nonempty, bounded⟩ := offered
  have room := bounded _ waiting.posted
  obtain ⟨_, total, filled⟩ :=
    RingBuffer.getWriteSpan_spec waiting.valid waiting.room
  rw [total] at room
  obtain ⟨ring, moved, valid, sameCapacity, contents⟩ :=
    RingBuffer.moveWritePos_spec waiting.valid nonempty
      (room.trans (RingBuffer.offered_le _ _)) (filled chunk room)
  have someBytes : ¬(chunk.length : Int) = 0 := by
    have := List.length_pos_iff.mpr nonempty
    omega
  refine ⟨ring, valid, sameCapacity.trans waiting.capacity_eq, contents, ?_⟩
  rw [complete, waiting.posted]
  simp only [processRecv, someBytes, if_false, moved]
  rfl

/-- A waiting session has room for the unfinished packet. -/
theorem waiting_of_registerRecv {session : SessionRecv}
    {packets : List (List UInt8)} {received : List UInt8}
    {rest : List (List UInt8)}
    (valid : session.recvBuffer.Valid) (connected : session.connected = true)
    (fitting : Fitting session.recvBuffer.capacity packets)
    (large : 1 < session.recvBuffer.capacity)
    (splits : Splits packets received session.received rest
      session.recvBuffer.contents) :
    Waiting packets session.recvBuffer.capacity received
      session.registerRecv := by
  have free := RingBuffer.getFreeSize_eq valid
  have bounds := RingBuffer.getDataSize_bounds valid
  have stored : session.recvBuffer.contents.length =
      session.recvBuffer.getDataSize.toNat :=
    RingBuffer.length_contents _
  have room : 0 < session.recvBuffer.offered 0 := by
    change 0 < session.recvBuffer.getFreeSize
    cases rest with
    | nil =>
        have nothing := List.prefix_nil.mp splits.unfinished
        rw [nothing, List.length_nil] at stored
        omega
    | cons next rest =>
        have proper := splits.proper next rfl
        have listed : next ∈ packets := by
          rw [splits.frames_eq]
          exact List.mem_append_right _ (List.mem_cons_self ..)
        obtain ⟨_, fits⟩ := fitting next listed
        omega
  rw [registerRecv_of_room valid connected room]
  exact
    { valid := valid
      capacity_eq := rfl
      connected := connected
      posted := rfl
      room := room
      splits := ⟨rest, splits⟩ }

theorem Waiting.capacity_large {session : SessionRecv}
    {packets : List (List UInt8)} {capacity : Int} {received : List UInt8}
    (waiting : Waiting packets capacity received session) : 1 < capacity := by
  have room := waiting.room
  have free := RingBuffer.getFreeSize_eq waiting.valid
  have bounds := RingBuffer.getDataSize_bounds waiting.valid
  change 0 < session.recvBuffer.getFreeSize at room
  have same := waiting.capacity_eq
  omega

/-- A completion finishes a packet exactly when a packet is cut off after
it. -/
theorem finishesPacket_iff {packets : List (List UInt8)}
    {received chunk : List UInt8} {before done : List (List UInt8)}
    {beforeRest rest : List (List UInt8)} {beforePending pending : List UInt8}
    (earlier : Splits packets received before beforeRest beforePending)
    (later : Splits packets (received ++ chunk) (before ++ done) rest
      pending) :
    FinishesPacket packets received chunk ↔ done ≠ [] := by
  constructor
  · rintro ⟨front, back, cut, after, within⟩ nothing
    rw [nothing, List.append_nil] at later
    rw [← List.length_append] at within
    by_cases shorter : front.length ≤ before.length
    · have enough := earlier.length_le cut shorter
      omega
    · have tooLong := later.length_lt cut (Nat.lt_of_not_le shorter)
      omega
  · intro something
    refine ⟨before ++ done, rest, later.frames_eq, ?_, ?_⟩
    · apply earlier.length_lt later.frames_eq
      have positive := List.length_pos_iff.mpr something
      rw [List.length_append]
      omega
    · rw [← List.length_append]
      exact later.length_le later.frames_eq (Nat.le_refl _)

/-- A completion that finishes a packet keeps the session waiting for more; any
other ends the connection. -/
theorem complete_step {session : SessionRecv} {packets : List (List UInt8)}
    {capacity : Int} {received : List UInt8} {chunk : List UInt8}
    (waiting : Waiting packets capacity received session)
    (fitting : Fitting capacity packets)
    (offered : session.Offered chunk)
    (isPrefix : received ++ chunk <+: packets.flatten) :
    (FinishesPacket packets received chunk →
      Waiting packets capacity (received ++ chunk)
        (session.complete chunk)) ∧
    (¬FinishesPacket packets received chunk →
      (session.complete chunk).connected = false ∧
        (session.complete chunk).posted = none) := by
  obtain ⟨rest, splits⟩ := waiting.splits
  obtain ⟨ring, valid, sameCapacity, contents, completes⟩ :=
    complete_spec waiting offered
  have remaining : ring.contents <+: rest.flatten := by
    have whole := isPrefix
    rw [splits.part_eq, splits.frames_eq, List.flatten_append,
      List.append_assoc, List.prefix_append_right_inj] at whole
    rwa [contents]
  have restFrames : ∀ packet ∈ rest,
      PacketSession.framing.IsFrame packet := by
    intro packet member
    apply And.left
    apply fitting packet
    rw [splits.frames_eq]
    exact List.mem_append_right _ member
  obtain ⟨done, next, pending, dataSplits, parsed⟩ :=
    Rule.parse_prefix restFrames remaining
  have nextSplits : Splits packets (received ++ chunk)
      (session.received ++ done) next pending := by
    refine ⟨?_, ?_, dataSplits.unfinished, dataSplits.proper⟩
    · rw [splits.frames_eq, dataSplits.frames_eq, List.append_assoc]
    · rw [splits.part_eq, List.append_assoc, ← contents, dataSplits.part_eq,
        List.flatten_append, List.append_assoc]
  have doneFlatten : done.flatten = [] ↔ done = [] := by
    constructor
    · intro nothing
      cases done with
      | nil => rfl
      | cons packet more =>
          have isFrame := restFrames packet (by
            rw [dataSplits.frames_eq]
            exact List.mem_append_left _ (List.mem_cons_self ..))
          have positive := isFrame.length_pos
          rw [List.flatten_cons, List.append_eq_nil_iff] at nothing
          rw [nothing.1] at positive
          exact absurd positive (Nat.lt_irrefl _)
    · rintro rfl
      rfl
  have nonempty : ring.contents ≠ [] := by
    rw [contents]
    exact List.append_ne_nil_of_right_ne_nil _ offered.1
  let stored : SessionRecv :=
    { session with
      recvBuffer := ring
      posted := none }
  obtain ⟨stalls, dispatches⟩ :=
    processData_spec (show stored.recvBuffer.Valid from valid) nonempty parsed
      dataSplits.part_eq
  rw [completes, finishesPacket_iff splits nextSplits]
  constructor
  · intro something
    obtain ⟨final, finalValid, finalCapacity, finalContents, processed⟩ :=
      dispatches (mt doneFlatten.mp something)
    let drained : SessionRecv :=
      { stored with
        recvBuffer := final
        received := stored.received ++ done }
    have capacityEq : drained.recvBuffer.capacity = capacity :=
      finalCapacity.trans sameCapacity
    have drainedSplits : Splits packets (received ++ chunk) drained.received
        next drained.recvBuffer.contents := by
      change Splits packets _ (session.received ++ done) next final.contents
      rw [finalContents]
      exact nextSplits
    have waits : Waiting packets drained.recvBuffer.capacity
        (received ++ chunk) drained.registerRecv :=
      waiting_of_registerRecv finalValid waiting.connected
        (by rw [capacityEq]; exact fitting)
        (by rw [capacityEq]; exact waiting.capacity_large) drainedSplits
    rw [processed]
    rwa [capacityEq] at waits
  · intro nothing
    exact stalls (doneFlatten.mpr (not_not.mp nothing))

/-- A session with an empty ring waits for its first packet. -/
theorem start_waiting {ring : RingBuffer} {packets : List (List UInt8)}
    (valid : ring.Valid) (empty : ring.contents = [])
    (fitting : Fitting ring.capacity packets) (large : 1 < ring.capacity)
    (nonempty : ∀ packet ∈ packets, packet ≠ []) :
    Waiting packets ring.capacity [] (start ring) := by
  have splits : Splits packets [] [] packets ring.contents := by
    refine ⟨rfl, ?_, ?_, ?_⟩
    · rw [empty]
      rfl
    · rw [empty]
      exact List.nil_prefix
    · intro next isHead
      rw [empty]
      exact List.length_pos_iff.mpr
        (nonempty next (List.mem_of_mem_head? isHead))
  let session : SessionRecv :=
    { recvBuffer := ring
      connected := true
      posted := none
      received := [] }
  have waits : Waiting packets session.recvBuffer.capacity []
      session.registerRecv :=
    waiting_of_registerRecv valid rfl fitting large splits
  exact waits

/-- As long as every completion finishes a packet, the session waits for the
rest of the stream. -/
theorem completeAll_waiting {ring : RingBuffer}
    {packets chunks : List (List UInt8)}
    (begins : Waiting packets ring.capacity [] (start ring))
    (fitting : Fitting ring.capacity packets)
    (whole : chunks.flatten = packets.flatten)
    (offered : AllOffered (start ring) chunks)
    (finishes : ∀ before chunk after, chunks = before ++ chunk :: after →
      Waiting packets ring.capacity before.flatten
        ((start ring).completeAll before) →
      FinishesPacket packets before.flatten chunk)
    {before after : List (List UInt8)} (cut : chunks = before ++ after) :
    Waiting packets ring.capacity before.flatten
      ((start ring).completeAll before) := by
  induction before using List.reverseRecOn generalizing after with
  | nil => exact begins
  | append_singleton earlier chunk induction =>
      have cutHere : chunks = earlier ++ chunk :: after := by
        rw [cut, List.append_assoc, List.singleton_append]
      have waiting := induction cutHere
      have isPrefix : earlier.flatten ++ chunk <+: packets.flatten := by
        refine ⟨after.flatten, ?_⟩
        rw [← whole, cutHere, List.flatten_append, List.flatten_cons,
          List.append_assoc]
      obtain ⟨continues, _⟩ := complete_step waiting fitting
        (offered earlier chunk after cutHere) isPrefix
      have next := continues (finishes earlier chunk after cutHere waiting)
      rwa [completeAll_concat, List.flatten_append, List.flatten_singleton]

/-- Without room for a byte the first receive is not posted. -/
theorem start_disconnected {ring : RingBuffer} (valid : ring.Valid)
    (small : ring.capacity ≤ 1) :
    (start ring).connected = false := by
  have free := RingBuffer.getFreeSize_eq valid
  have bounds := RingBuffer.getDataSize_bounds valid
  have full : ring.offered 0 ≤ 0 := by
    change ring.getFreeSize ≤ 0
    omega
  have noSpan : (ring.getWriteSpan 0).spanCount = 0 := by
    rw [RingBuffer.getWriteSpan, RingBuffer.writeSpans, if_pos full]
  rw [start, registerRecv, if_neg Bool.noConfusion]
  exact congrArg SessionRecv.connected (if_pos noSpan)

/-- Framing survives fragmentation exactly when every completion finishes a
packet. -/
theorem intact_iff_finishesPackets {ring : RingBuffer}
    {packets chunks : List (List UInt8)} (valid : ring.Valid)
    (empty : ring.contents = []) (fitting : Fitting ring.capacity packets)
    (whole : chunks.flatten = packets.flatten)
    (offered : AllOffered (start ring) chunks) :
    Intact ring packets chunks ↔
      1 < ring.capacity ∧
        ∀ before chunk after, chunks = before ++ chunk :: after →
          FinishesPacket packets before.flatten chunk := by
  have nonempty : ∀ packet ∈ packets, packet ≠ [] := by
    intro packet member nothing
    have positive := (fitting packet member).1.length_pos
    rw [nothing] at positive
    exact Nat.lt_irrefl _ positive
  constructor
  · intro intact
    have large : 1 < ring.capacity := by
      by_contra small
      have gone := start_disconnected valid (Int.not_lt.mp small)
      have alive := (intact.always [] chunks rfl).1
      rw [completeAll, List.foldl_nil, gone] at alive
      cases alive
    have finishes : ∀ before chunk after, chunks = before ++ chunk :: after →
        Waiting packets ring.capacity before.flatten
          ((start ring).completeAll before) →
        FinishesPacket packets before.flatten chunk := by
      intro before chunk after cut waiting
      by_contra stalls
      have isPrefix : before.flatten ++ chunk <+: packets.flatten := by
        refine ⟨after.flatten, ?_⟩
        rw [← whole, cut, List.flatten_append, List.flatten_cons,
          List.append_assoc]
      obtain ⟨_, disconnects⟩ := complete_step waiting fitting
        (offered before chunk after cut) isPrefix
      have alive := (intact.always (before ++ [chunk]) after
        (by rw [cut, List.append_assoc, List.singleton_append])).1
      rw [completeAll_concat, (disconnects stalls).1] at alive
      cases alive
    refine ⟨large, ?_⟩
    intro before chunk after cut
    apply finishes before chunk after cut
    exact completeAll_waiting
      (start_waiting valid empty fitting large nonempty) fitting whole offered
      finishes cut
  · rintro ⟨large, finishes⟩
    have waits : ∀ {before after}, chunks = before ++ after →
        Waiting packets ring.capacity before.flatten
          ((start ring).completeAll before) :=
      completeAll_waiting (start_waiting valid empty fitting large nonempty)
        fitting whole offered
        (fun before chunk after cut _ => finishes before chunk after cut)
    refine ⟨fun before after cut => ?_, ?_⟩
    · exact ⟨(waits cut).connected, (waits cut).splits⟩
    · obtain ⟨rest, splits⟩ := (waits (List.append_nil chunks).symm).splits
      rw [whole] at splits
      exact splits.of_whole.1

/-- The receive ring of a server session, before its first byte. -/
def serverRing : RingBuffer :=
  { buffer := fun _ => 0
    capacity := 4096
    readPos := 0
    writePos := 0 }

theorem serverRing_valid : serverRing.Valid := by
  constructor <;> decide

theorem serverRing_empty : serverRing.contents = [] := rfl

theorem start_serverRing_posted :
    (start serverRing).posted = some [{ buf := 0, len := 4095 }] := by
  decide

theorem allOffered_nil (session : SessionRecv) : session.AllOffered [] := by
  intro before chunk after cut
  cases before <;> cases cut

theorem allOffered_cons {session : SessionRecv} {chunk : List UInt8}
    {rest : List (List UInt8)} (first : session.Offered chunk)
    (later : (session.complete chunk).AllOffered rest) :
    session.AllOffered (chunk :: rest) := by
  intro before other after cut
  cases before with
  | nil =>
      obtain ⟨rfl, _⟩ := List.cons.inj cut
      exact first
  | cons head before =>
      obtain ⟨rfl, restCut⟩ := List.cons.inj cut
      exact later before other after restCut

/-- The first receive of a server session has room for 4095 bytes. -/
theorem start_serverRing_offered {chunk : List UInt8} (nonempty : chunk ≠ [])
    (fits : chunk.length ≤ 4095) : (start serverRing).Offered chunk := by
  refine ⟨nonempty, fun wsabufs posted => ?_⟩
  rw [start_serverRing_posted] at posted
  cases posted
  change (chunk.length : Int) ≤ 4095 + 0
  omega

/-- `C_ROOM_LIST`, `C_HEARTBEAT` and `C_LEAVE_ROOM`. -/
def threePackets : List (List UInt8) :=
  [[4, 0, 237, 3], [12, 0, 235, 3, 1, 2, 3, 4, 5, 6, 7, 8], [4, 0, 241, 3]]

/-- The first two pieces end in the middle of a packet. -/
def threePieces : List (List UInt8) :=
  [[4, 0, 237, 3, 12, 0, 235, 3, 1, 2], [3, 4, 5, 6, 7, 8, 4, 0], [241, 3]]

theorem threePackets_fitting : Fitting serverRing.capacity threePackets := by
  intro packet member
  rw [PacketSession.isFrame_iff]
  revert packet
  decide

theorem threePieces_offered : AllOffered (start serverRing) threePieces := by
  have first : (start serverRing).Offered
      [4, 0, 237, 3, 12, 0, 235, 3, 1, 2] :=
    start_serverRing_offered (by decide) (by decide)
  apply allOffered_cons first
  apply allOffered_cons
  · exact ⟨by decide, by decide +kernel⟩
  apply allOffered_cons
  · exact ⟨by decide, by decide +kernel⟩
  exact allOffered_nil _

theorem threePieces_finish (before : List (List UInt8)) (chunk : List UInt8)
    (after : List (List UInt8)) (cut : threePieces = before ++ chunk :: after) :
    FinishesPacket threePackets before.flatten chunk := by
  cases before with
  | nil =>
      obtain ⟨rfl, _⟩ := List.cons.inj cut
      exact ⟨threePackets.take 1, threePackets.drop 1, rfl, by decide,
        by decide⟩
  | cons first before =>
      obtain ⟨rfl, laterCut⟩ := List.cons.inj cut
      cases before with
      | nil =>
          obtain ⟨rfl, _⟩ := List.cons.inj laterCut
          exact ⟨threePackets.take 2, threePackets.drop 2, rfl, by decide,
            by decide⟩
      | cons second before =>
          obtain ⟨rfl, lastCut⟩ := List.cons.inj laterCut
          cases before with
          | nil =>
              obtain ⟨rfl, _⟩ := List.cons.inj lastCut
              exact ⟨threePackets, [], rfl, by decide, by decide⟩
          | cons third before =>
              obtain ⟨_, noneLeft⟩ := List.cons.inj lastCut
              cases before <;> cases noneLeft

/-- Each piece finishes a packet, so the three packets arrive intact. -/
theorem intact_iff_finishesPackets_threePieces :
    Intact serverRing threePackets threePieces ∧
      ∀ before chunk after, threePieces = before ++ chunk :: after →
        FinishesPacket threePackets before.flatten chunk := by
  have whole : threePieces.flatten = threePackets.flatten := rfl
  have equivalent := intact_iff_finishesPackets serverRing_valid
    serverRing_empty threePackets_fitting whole threePieces_offered
  exact ⟨equivalent.mpr ⟨by decide, threePieces_finish⟩, threePieces_finish⟩

/-- A heartbeat of twelve bytes that arrives in two halves: after the first
half the session has disconnected, and the second is never received. -/
theorem splitHeartbeat_disconnects :
    let packet : List UInt8 := [12, 0, 235, 3, 1, 2, 3, 4, 5, 6, 7, 8]
    let first : List UInt8 := [12, 0, 235, 3, 1, 2]
    let second : List UInt8 := [3, 4, 5, 6, 7, 8]
    Fitting serverRing.capacity [packet] ∧
      [first, second].flatten = [packet].flatten ∧
      AllOffered (start serverRing) [first, second] ∧
      ¬Intact serverRing [packet] [first, second] := by
  intro packet first second
  have fitting : Fitting serverRing.capacity [packet] := by
    intro other member
    rw [List.mem_singleton.mp member]
    exact ⟨PacketSession.isFrame_iff.mpr ⟨by decide, by decide⟩, by decide⟩
  have begins := start_waiting serverRing_valid serverRing_empty fitting
    (by decide) (by simp [packet])
  have offered : (start serverRing).Offered first :=
    start_serverRing_offered (by decide) (by decide)
  have unfinished : ¬FinishesPacket [packet] [] first := by
    rintro ⟨front, back, cut, started, within⟩
    cases front with
    | nil => exact absurd started (Nat.lt_irrefl 0)
    | cons head front =>
        obtain ⟨rfl, _⟩ := List.cons.inj cut
        rw [List.flatten_cons, List.length_append] at within
        change 12 + _ ≤ 0 + 6 at within
        omega
  obtain ⟨_, stalls⟩ := complete_step begins fitting offered
    ⟨second, rfl⟩
  obtain ⟨gone, nothingPosted⟩ := stalls unfinished
  refine ⟨fitting, rfl, ?_, ?_⟩
  · refine allOffered_cons offered (allOffered_cons ⟨by decide, ?_⟩
      (allOffered_nil _))
    intro wsabufs posted
    rw [nothingPosted] at posted
    cases posted
  · intro intact
    have alive := (intact.always [first] [second] rfl).1
    have same : (start serverRing).completeAll [first] =
        (start serverRing).complete first := rfl
    rw [same, gone] at alive
    cases alive

end SessionRecv

end IocpChat
