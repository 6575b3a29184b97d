import IocpChat.Protocol.PacketProtocol

/-!
# The formats of the packets

Every packet has one format: `Read` decodes it and the writing calls of
`MakeSendBuffer` emit it.  A format is laid out over the format of strings,
since the encoder treats strings that 16 bits cannot count in a way of its own:
`Wire.string` has no encoding for them, `Wire.written` has the bytes that
`WriteString` produces.
-/

namespace IocpChat

open LittleEndian WireFormat

namespace Wire

/-- What `WriteString` writes, for strings of every length. -/
def written : Format UInt8 StdString where
  Representable _ := True
  tokens := BufferWriter.narrowed

end Wire

namespace Protocol

open BufferReader BufferWriter Wire

section Reading

variable {Fields Struct : Type} {format : Format UInt8 Fields}
  {Guard : List UInt8 → Prop} {decoder : Decode Fields}
  {fields : Struct → Fields} {read : Decode Struct}

/-- A structure that is read field by field. -/
theorem item_decodes (build : Fields → Struct)
    (decodes : Decodes cursor format Guard decoder)
    (fields_build : ∀ value, fields (build value) = value)
    (build_fields : ∀ packet, build (fields packet) = packet)
    (reads : read = do
      let value ← decoder
      pure (build value)) :
    Decodes cursor (format.comap fields) Guard read := by
  rw [reads, ← map_eq_pure_bind]
  exact decodes.record fields_build build_fields

/-- A packet is read field by field, then `IsValid` is asked. -/
theorem packet_decodes (build : Fields → Struct)
    (decodes : Decodes cursor format Guard decoder)
    (fields_build : ∀ value, fields (build value) = value)
    (build_fields : ∀ packet, build (fields packet) = packet)
    (reads : read = do
      let value ← decoder
      requireValid
      pure (build value)) :
    Decodes cursor (format.comap fields) Guard read := by
  refine item_decodes build (requireValid_decodes decodes)
    fields_build build_fields ?_
  simp only [reads, bind_assoc, pure_bind]

theorem nothing_decodes :
    Decodes cursor .unit Unguarded (pure () : Decode Unit) :=
  .of_format _ (.done ()) (by simp [Format.unit]) (by simp [Format.unit])

end Reading

namespace CLogin

def layout (text : Format UInt8 StdString) : Format UInt8 CLogin :=
  text.comap name

theorem decodes :
    Decodes cursor (layout string) Unguarded read := by
  refine packet_decodes (fun name => { name := name })
    readString_decodes
    (fun _ => rfl) (fun _ => rfl) ?_
  rfl

theorem emits (packet : CLogin) :
    Emits sink packet.write ((layout written).tokens packet) :=
  writeString_emits packet.name

end CLogin

namespace SLogin

def layout (text : Format UInt8 StdString) : Format UInt8 SLogin :=
  ((scalar Bool).seq ((scalar UInt64).seq (text.seq text))).comap
    fun packet =>
      (packet.success, packet.playerId, packet.name, packet.message)

theorem decodes :
    Decodes cursor (layout string) (CanonicalPrefix Bool) read := by
  refine packet_decodes
    (fun (success, playerId, name, message) =>
      { success := success
        playerId := playerId
        name := name
        message := message })
    ((read_decodes Bool).seq_unguarded
      ((read_decodes_unguarded UInt64 fun _ => trivial).seq_unguarded
        (readString_decodes.seq_unguarded readString_decodes)))
    (fun _ => rfl) (fun _ => rfl) ?_
  simp only [read, bind_assoc, pure_bind]

theorem emits (packet : SLogin) :
    Emits sink packet.write ((layout written).tokens packet) :=
  (write_emits packet.success).append
    ((write_emits packet.playerId).append
      ((writeString_emits packet.name).append
        (writeString_emits packet.message)))

end SLogin

namespace CHeartbeat

def layout : Format UInt8 CHeartbeat :=
  (scalar UInt64).comap clientTick

theorem decodes :
    Decodes cursor layout Unguarded read := by
  refine packet_decodes (fun clientTick => { clientTick := clientTick })
    (read_decodes_unguarded UInt64 fun _ => trivial)
    (fun _ => rfl) (fun _ => rfl) ?_
  rfl

theorem emits (packet : CHeartbeat) :
    Emits sink packet.write (layout.tokens packet) :=
  write_emits packet.clientTick

end CHeartbeat

namespace SHeartbeat

def layout : Format UInt8 SHeartbeat :=
  (scalar UInt64).comap serverTick

theorem decodes :
    Decodes cursor layout Unguarded read := by
  refine packet_decodes (fun serverTick => { serverTick := serverTick })
    (read_decodes_unguarded UInt64 fun _ => trivial)
    (fun _ => rfl) (fun _ => rfl) ?_
  rfl

theorem emits (packet : SHeartbeat) :
    Emits sink packet.write (layout.tokens packet) :=
  write_emits packet.serverTick

end SHeartbeat

namespace CRoomList

def layout : Format UInt8 CRoomList :=
  Format.unit.comap fun _ => ()

theorem decodes :
    Decodes cursor layout Unguarded read := by
  refine packet_decodes (fun _ => {}) nothing_decodes
    (fun _ => rfl) (fun _ => rfl) ?_
  simp only [read, pure_bind]

theorem emits (packet : CRoomList) :
    Emits sink packet.write (layout.tokens packet) :=
  .nothing

end CRoomList

namespace RoomsInfo

def layout (text : Format UInt8 StdString) : Format UInt8 RoomsInfo :=
  ((scalar Int32).seq (text.seq (scalar Int32))).comap
    fun item => (item.roomId, item.roomName, item.userCount)

theorem decodes :
    Decodes cursor (layout string) Unguarded read := by
  refine item_decodes
    (fun (roomId, roomName, userCount) =>
      { roomId := roomId
        roomName := roomName
        userCount := userCount })
    ((read_decodes_unguarded Int32 fun _ => trivial).seq_unguarded
      (readString_decodes.seq_unguarded
        (read_decodes_unguarded Int32 fun _ => trivial)))
    (fun _ => rfl) (fun _ => rfl) ?_
  simp only [read, bind_assoc, pure_bind]

theorem emits (item : RoomsInfo) :
    Emits sink item.write ((layout written).tokens item) :=
  (write_emits item.roomId).append
    ((writeString_emits item.roomName).append (write_emits item.userCount))

end RoomsInfo

namespace SRoomList

def layout (text : Format UInt8 StdString) : Format UInt8 SRoomList :=
  (list (RoomsInfo.layout text)).comap rooms

theorem decodes :
    Decodes cursor (layout string) Unguarded read := by
  refine packet_decodes (fun rooms => { rooms := rooms })
    (readList_decodes RoomsInfo.decodes)
    (fun _ => rfl) (fun _ => rfl) ?_
  rfl

theorem emits (packet : SRoomList) :
    Emits sink packet.write ((layout written).tokens packet) :=
  writeList_emits RoomsInfo.emits packet.rooms

end SRoomList

namespace CEnterRoom

def layout (text : Format UInt8 StdString) : Format UInt8 CEnterRoom :=
  ((scalar Int32).seq text).comap
    fun packet => (packet.roomId, packet.roomName)

theorem decodes :
    Decodes cursor (layout string) Unguarded read := by
  refine packet_decodes
    (fun (roomId, roomName) =>
      { roomId := roomId
        roomName := roomName })
    ((read_decodes_unguarded Int32 fun _ => trivial).seq_unguarded
      readString_decodes)
    (fun _ => rfl) (fun _ => rfl) ?_
  simp only [read, bind_assoc, pure_bind]

theorem emits (packet : CEnterRoom) :
    Emits sink packet.write ((layout written).tokens packet) :=
  (write_emits packet.roomId).append (writeString_emits packet.roomName)

end CEnterRoom

namespace MembersInfo

def layout (text : Format UInt8 StdString) : Format UInt8 MembersInfo :=
  text.comap name

theorem decodes :
    Decodes cursor (layout string) Unguarded read := by
  refine item_decodes (fun name => { name := name })
    readString_decodes
    (fun _ => rfl) (fun _ => rfl) ?_
  rfl

theorem emits (item : MembersInfo) :
    Emits sink item.write ((layout written).tokens item) :=
  writeString_emits item.name

end MembersInfo

namespace SEnterRoom

def layout (text : Format UInt8 StdString) : Format UInt8 SEnterRoom :=
  ((scalar Bool).seq ((scalar Int32).seq
    (text.seq (list (MembersInfo.layout text))))).comap
    fun packet =>
      (packet.success, packet.roomId, packet.roomName, packet.members)

theorem decodes :
    Decodes cursor (layout string) (CanonicalPrefix Bool) read := by
  refine packet_decodes
    (fun (success, roomId, roomName, members) =>
      { members := members
        success := success
        roomId := roomId
        roomName := roomName })
    ((read_decodes Bool).seq_unguarded
      ((read_decodes_unguarded Int32 fun _ => trivial).seq_unguarded
        (readString_decodes.seq_unguarded
          (readList_decodes MembersInfo.decodes))))
    (fun _ => rfl) (fun _ => rfl) ?_
  simp only [read, bind_assoc, pure_bind]

theorem emits (packet : SEnterRoom) :
    Emits sink packet.write ((layout written).tokens packet) :=
  (write_emits packet.success).append
    ((write_emits packet.roomId).append
      ((writeString_emits packet.roomName).append
        (writeList_emits MembersInfo.emits packet.members)))

end SEnterRoom

namespace CLeaveRoom

def layout : Format UInt8 CLeaveRoom :=
  Format.unit.comap fun _ => ()

theorem decodes :
    Decodes cursor layout Unguarded read := by
  refine packet_decodes (fun _ => {}) nothing_decodes
    (fun _ => rfl) (fun _ => rfl) ?_
  simp only [read, pure_bind]

theorem emits (packet : CLeaveRoom) :
    Emits sink packet.write (layout.tokens packet) :=
  .nothing

end CLeaveRoom

namespace SLeaveRoom

def layout : Format UInt8 SLeaveRoom :=
  (scalar Bool).comap success

theorem decodes :
    Decodes cursor layout (CanonicalPrefix Bool) read := by
  refine packet_decodes (fun success => { success := success })
    (read_decodes Bool)
    (fun _ => rfl) (fun _ => rfl) ?_
  rfl

theorem emits (packet : SLeaveRoom) :
    Emits sink packet.write (layout.tokens packet) :=
  write_emits packet.success

end SLeaveRoom

namespace CRoomChat

def layout (text : Format UInt8 StdString) : Format UInt8 CRoomChat :=
  text.comap message

theorem decodes :
    Decodes cursor (layout string) Unguarded read := by
  refine packet_decodes (fun message => { message := message })
    readString_decodes
    (fun _ => rfl) (fun _ => rfl) ?_
  rfl

theorem emits (packet : CRoomChat) :
    Emits sink packet.write ((layout written).tokens packet) :=
  writeString_emits packet.message

end CRoomChat

namespace SRoomChat

def layout (text : Format UInt8 StdString) : Format UInt8 SRoomChat :=
  (text.seq text).comap fun packet => (packet.senderName, packet.message)

theorem decodes :
    Decodes cursor (layout string) Unguarded read := by
  refine packet_decodes
    (fun (senderName, message) =>
      { senderName := senderName
        message := message })
    (readString_decodes.seq_unguarded readString_decodes)
    (fun _ => rfl) (fun _ => rfl) ?_
  simp only [read, bind_assoc, pure_bind]

theorem emits (packet : SRoomChat) :
    Emits sink packet.write ((layout written).tokens packet) :=
  (writeString_emits packet.senderName).append
    (writeString_emits packet.message)

end SRoomChat

namespace CGlobalChat

def layout (text : Format UInt8 StdString) : Format UInt8 CGlobalChat :=
  text.comap message

theorem decodes :
    Decodes cursor (layout string) Unguarded read := by
  refine packet_decodes (fun message => { message := message })
    readString_decodes
    (fun _ => rfl) (fun _ => rfl) ?_
  rfl

theorem emits (packet : CGlobalChat) :
    Emits sink packet.write ((layout written).tokens packet) :=
  writeString_emits packet.message

end CGlobalChat

namespace SGlobalChat

def layout (text : Format UInt8 StdString) : Format UInt8 SGlobalChat :=
  (text.seq text).comap fun packet => (packet.senderName, packet.message)

theorem decodes :
    Decodes cursor (layout string) Unguarded read := by
  refine packet_decodes
    (fun (senderName, message) =>
      { senderName := senderName
        message := message })
    (readString_decodes.seq_unguarded readString_decodes)
    (fun _ => rfl) (fun _ => rfl) ?_
  simp only [read, bind_assoc, pure_bind]

theorem emits (packet : SGlobalChat) :
    Emits sink packet.write ((layout written).tokens packet) :=
  (writeString_emits packet.senderName).append
    (writeString_emits packet.message)

end SGlobalChat

namespace SNotice

def layout (text : Format UInt8 StdString) : Format UInt8 SNotice :=
  text.comap message

theorem decodes :
    Decodes cursor (layout string) Unguarded read := by
  refine packet_decodes (fun message => { message := message })
    readString_decodes
    (fun _ => rfl) (fun _ => rfl) ?_
  rfl

theorem emits (packet : SNotice) :
    Emits sink packet.write ((layout written).tokens packet) :=
  writeString_emits packet.message

end SNotice

namespace PacketId

/-- The format of the packets with this id, over a format of strings. -/
def layout (text : Format UInt8 StdString) :
    (id : PacketId) → Format UInt8 id.Struct
  | cLogin => CLogin.layout text
  | sLogin => SLogin.layout text
  | cHeartbeat => CHeartbeat.layout
  | sHeartbeat => SHeartbeat.layout
  | cRoomList => CRoomList.layout
  | sRoomList => SRoomList.layout text
  | cEnterRoom => CEnterRoom.layout text
  | sEnterRoom => SEnterRoom.layout text
  | cLeaveRoom => CLeaveRoom.layout
  | sLeaveRoom => SLeaveRoom.layout
  | cRoomChat => CRoomChat.layout text
  | sRoomChat => SRoomChat.layout text
  | cGlobalChat => CGlobalChat.layout text
  | sGlobalChat => SGlobalChat.layout text
  | sNotice => SNotice.layout text

/-- The packets whose first field is a `bool`. -/
def startsWithBool : PacketId → Bool
  | sLogin => true
  | sEnterRoom => true
  | sLeaveRoom => true
  | _ => false

/-- A `bool` at the start of the payload is a byte 0 or 1. -/
def CanonicalPayload (id : PacketId) (payload : List UInt8) : Prop :=
  id.startsWithBool = true → CanonicalPrefix Bool payload

theorem decodes (id : PacketId) :
    Decodes cursor (id.layout string) id.CanonicalPayload id.read := by
  have guarded : ∀ {Struct : Type} {format : Format UInt8 Struct}
      {read : Decode Struct}, id.startsWithBool = true →
      Decodes cursor format (CanonicalPrefix Bool) read →
      Decodes cursor format id.CanonicalPayload read :=
    fun starts decodes => decodes.of_guard fun _ canonical => canonical starts
  have unguarded : ∀ {Struct : Type} {format : Format UInt8 Struct}
      {read : Decode Struct},
      Decodes cursor format Unguarded read →
      Decodes cursor format id.CanonicalPayload read :=
    fun decodes => decodes.of_guard fun _ _ => trivial
  cases id with
  | cLogin => exact unguarded CLogin.decodes
  | sLogin => exact guarded rfl SLogin.decodes
  | cHeartbeat => exact unguarded CHeartbeat.decodes
  | sHeartbeat => exact unguarded SHeartbeat.decodes
  | cRoomList => exact unguarded CRoomList.decodes
  | sRoomList => exact unguarded SRoomList.decodes
  | cEnterRoom => exact unguarded CEnterRoom.decodes
  | sEnterRoom => exact guarded rfl SEnterRoom.decodes
  | cLeaveRoom => exact unguarded CLeaveRoom.decodes
  | sLeaveRoom => exact guarded rfl SLeaveRoom.decodes
  | cRoomChat => exact unguarded CRoomChat.decodes
  | sRoomChat => exact unguarded SRoomChat.decodes
  | cGlobalChat => exact unguarded CGlobalChat.decodes
  | sGlobalChat => exact unguarded SGlobalChat.decodes
  | sNotice => exact unguarded SNotice.decodes

theorem emits (id : PacketId) (packet : id.Struct) :
    Emits sink (id.write packet) ((id.layout written).tokens packet) := by
  cases id with
  | cLogin => exact CLogin.emits packet
  | sLogin => exact SLogin.emits packet
  | cHeartbeat => exact CHeartbeat.emits packet
  | sHeartbeat => exact SHeartbeat.emits packet
  | cRoomList => exact CRoomList.emits packet
  | sRoomList => exact SRoomList.emits packet
  | cEnterRoom => exact CEnterRoom.emits packet
  | sEnterRoom => exact SEnterRoom.emits packet
  | cLeaveRoom => exact CLeaveRoom.emits packet
  | sLeaveRoom => exact SLeaveRoom.emits packet
  | cRoomChat => exact CRoomChat.emits packet
  | sRoomChat => exact SRoomChat.emits packet
  | cGlobalChat => exact CGlobalChat.emits packet
  | sGlobalChat => exact SGlobalChat.emits packet
  | sNotice => exact SNotice.emits packet

/-- The string lengths and item counts that are written in 16 bits. -/
def counts : (id : PacketId) → id.Struct → List Nat
  | cLogin, packet => [packet.name.length]
  | sLogin, packet => [packet.name.length, packet.message.length]
  | cHeartbeat, _ => []
  | sHeartbeat, _ => []
  | cRoomList, _ => []
  | sRoomList, packet =>
      packet.rooms.length :: packet.rooms.map fun room => room.roomName.length
  | cEnterRoom, packet => [packet.roomName.length]
  | sEnterRoom, packet =>
      packet.roomName.length :: packet.members.length ::
        packet.members.map fun member => member.name.length
  | cLeaveRoom, _ => []
  | sLeaveRoom, _ => []
  | cRoomChat, packet => [packet.message.length]
  | sRoomChat, packet => [packet.senderName.length, packet.message.length]
  | cGlobalChat, packet => [packet.message.length]
  | sGlobalChat, packet => [packet.senderName.length, packet.message.length]
  | sNotice, packet => [packet.message.length]

/-- A packet has an encoding exactly when 16 bits hold all its counts. -/
theorem representable_iff (id : PacketId) (packet : id.Struct) :
    (id.layout string).Representable packet ↔
      ∀ count ∈ id.counts packet, count < 2 ^ 16 := by
  cases id <;>
    simp [layout, counts, CLogin.layout, SLogin.layout, CHeartbeat.layout,
      SHeartbeat.layout, CRoomList.layout, RoomsInfo.layout, SRoomList.layout,
      CEnterRoom.layout, MembersInfo.layout, SEnterRoom.layout,
      CLeaveRoom.layout, SLeaveRoom.layout, CRoomChat.layout,
      SRoomChat.layout, CGlobalChat.layout, SGlobalChat.layout,
      SNotice.layout, Format.comap, Format.seq, Format.unit, scalar,
      string_representable, list_representable]

/-- The encoder writes packets that have an encoding in their format. -/
theorem written_eq {id : PacketId} {packet : id.Struct}
    (representable : (id.layout string).Representable packet) :
    (id.layout written).tokens packet = (id.layout string).tokens packet := by
  have text : ∀ {str : StdString}, string.Representable str →
      written.tokens str = string.tokens str :=
    fun representable => narrowed_eq_tokens representable
  cases id with
  | cLogin => exact text representable
  | sLogin =>
      obtain ⟨_, _, name, message⟩ := representable
      simp only [layout, SLogin.layout, Format.comap, Format.seq, text name,
        text message]
  | cHeartbeat => rfl
  | sHeartbeat => rfl
  | cRoomList => rfl
  | sRoomList =>
      obtain ⟨_, _, rooms⟩ := representable
      refine congrArg (_ ++ ·) (List.flatMap_congr fun room member => ?_)
      obtain ⟨_, roomName, _⟩ := rooms room member
      simp only [RoomsInfo.layout, Format.comap, Format.seq, text roomName]
  | cEnterRoom =>
      obtain ⟨_, roomName⟩ := representable
      simp only [layout, CEnterRoom.layout, Format.comap, Format.seq,
        text roomName]
  | sEnterRoom =>
      obtain ⟨_, _, roomName, _, _, members⟩ := representable
      have names : (list (MembersInfo.layout written)).tokens packet.members =
          (list (MembersInfo.layout string)).tokens packet.members :=
        congrArg (_ ++ ·) (List.flatMap_congr fun member listed =>
          text (members member listed))
      simp only [layout, SEnterRoom.layout, Format.comap, Format.seq,
        text roomName, names]
  | cLeaveRoom => rfl
  | sLeaveRoom => rfl
  | cRoomChat => exact text representable
  | sRoomChat =>
      obtain ⟨senderName, message⟩ := representable
      simp only [layout, SRoomChat.layout, Format.comap, Format.seq,
        text senderName, text message]
  | cGlobalChat => exact text representable
  | sGlobalChat =>
      obtain ⟨senderName, message⟩ := representable
      simp only [layout, SGlobalChat.layout, Format.comap, Format.seq,
        text senderName, text message]
  | sNotice => exact text representable

/-- The bytes of a string, whose length is written modulo 2^16. -/
def textSize (text : StdString) : Nat :=
  2 + text.length % 2 ^ 16

/-- The size of the packet `MakeSendBuffer` lays out, header included. -/
def encodedSize : (id : PacketId) → id.Struct → Nat
  | cLogin, packet => 4 + textSize packet.name
  | sLogin, packet => 13 + textSize packet.name + textSize packet.message
  | cHeartbeat, _ => 12
  | sHeartbeat, _ => 12
  | cRoomList, _ => 4
  | sRoomList, packet =>
      6 + (packet.rooms.map fun room =>
        4 + (textSize room.roomName + 4)).sum
  | cEnterRoom, packet => 8 + textSize packet.roomName
  | sEnterRoom, packet =>
      11 + textSize packet.roomName +
        (packet.members.map fun member => textSize member.name).sum
  | cLeaveRoom, _ => 4
  | sLeaveRoom, _ => 5
  | cRoomChat, packet => 4 + textSize packet.message
  | sRoomChat, packet =>
      4 + textSize packet.senderName + textSize packet.message
  | cGlobalChat, packet => 4 + textSize packet.message
  | sGlobalChat, packet =>
      4 + textSize packet.senderName + textSize packet.message
  | sNotice, packet => 4 + textSize packet.message

theorem encodedSize_eq (id : PacketId) (packet : id.Struct) :
    id.encodedSize packet =
      PacketHeader.byteSize + ((id.layout written).tokens packet).length := by
  have text : ∀ str, (written.tokens str).length = textSize str :=
    length_narrowed
  cases id <;>
    simp [layout, encodedSize, CLogin.layout, SLogin.layout, CHeartbeat.layout,
      SHeartbeat.layout, CRoomList.layout, RoomsInfo.layout, SRoomList.layout,
      CEnterRoom.layout, MembersInfo.layout, SEnterRoom.layout,
      CLeaveRoom.layout, SLeaveRoom.layout, CRoomChat.layout,
      SRoomChat.layout, CGlobalChat.layout, SGlobalChat.layout,
      SNotice.layout, Format.comap, Format.seq, Format.unit, scalar, list,
      Format.headed, Format.repeated, Scalar.length_bytes, List.length_flatMap,
      PacketHeader.byteSize, text]
  all_goals omega

end PacketId

end Protocol

end IocpChat
