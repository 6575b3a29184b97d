import IocpChat.Protocol.PacketProtocol

/-!
# ServerPacketHandler and ClientPacketHandler

`HandlePacket` reads the header, selects a packet by `header.id` and hands the
packet that was read to its handler.  The result is the packet that reaches its
handler; no packet is `return false`.
-/

namespace IocpChat

open LittleEndian

namespace Protocol

/-- `HandlePacket` with the given cases of the `switch`. -/
def dispatch (cases : List PacketId) : Decode Packet := do
  let header ← BufferReader.read PacketHeader
  match cases.find? fun id => id.value == header.id with
  | some id =>
      let fields ← id.read
      return { id := id, fields := fields }
  | none => Attempt.fail

end Protocol

open Protocol

def ServerPacketHandler.cases : List PacketId :=
  [.cLogin, .cHeartbeat, .cRoomList, .cEnterRoom, .cLeaveRoom, .cRoomChat,
    .cGlobalChat]

/-- The packet passed to a `Handle_C_...`. -/
def ServerPacketHandler.handlePacket : Decode Packet :=
  dispatch ServerPacketHandler.cases

def ClientPacketHandler.cases : List PacketId :=
  [.sLogin, .sHeartbeat, .sRoomList, .sEnterRoom, .sLeaveRoom, .sRoomChat,
    .sGlobalChat, .sNotice]

/-- The packet passed to a `Handle_S_...`. -/
def ClientPacketHandler.handlePacket : Decode Packet :=
  dispatch ClientPacketHandler.cases

namespace Protocol

/-- The dispatcher of the side that receives the packet. -/
def PacketId.handlePacket (id : PacketId) : Decode Packet :=
  if id ∈ ServerPacketHandler.cases then ServerPacketHandler.handlePacket
  else ClientPacketHandler.handlePacket

theorem PacketId.value_injective {left right : PacketId}
    (same : left.value = right.value) : left = right := by
  cases left <;> cases right <;> first | rfl | (exact absurd same (by decide))

/-- The case of a listed packet is selected by its id. -/
theorem find_case {cases : List PacketId} {id : PacketId}
    (listed : id ∈ cases) :
    cases.find? (fun other => other.value == id.value) = some id := by
  cases found : cases.find? fun other => other.value == id.value with
  | none =>
      have missing := List.find?_eq_none.mp found id listed
      simp at missing
  | some other =>
      have sameValue := List.find?_some found
      rw [PacketId.value_injective (eq_of_beq sameValue)]

theorem PacketId.handlePacket_eq (id : PacketId) :
    ∃ cases, id ∈ cases ∧ id.handlePacket = dispatch cases := by
  by_cases fromClient : id ∈ ServerPacketHandler.cases
  · exact ⟨_, fromClient, if_pos fromClient⟩
  · refine ⟨ClientPacketHandler.cases, ?_, if_neg fromClient⟩
    cases id <;> first
      | decide
      | exact absurd (by decide) fromClient

end Protocol

end IocpChat
