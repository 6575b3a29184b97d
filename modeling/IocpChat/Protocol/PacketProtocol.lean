import IocpChat.Buffer.SendBuffer

/-!
# PacketProtocol

The fifteen packets: their fields, `Read` and the writing calls of
`MakeSendBuffer`.  The `header` member is left out of the structures;
`MakeSendBuffer` overwrites it and `Read` does not touch it.
-/

namespace IocpChat

open FlatMemory LittleEndian WireFormat

/-- `#pragma pack(push, 1)`. -/
structure PacketHeader where
  size : UInt16
  id : UInt16
  deriving DecidableEq, Repr

namespace PacketHeader

def byteSize : Nat := 4

instance : Scalar PacketHeader where
  size := byteSize
  bytes header := Scalar.bytes header.size ++ Scalar.bytes header.id
  ofBytes block :=
    { size := Scalar.ofBytes (block.take 2)
      id := Scalar.ofBytes (block.drop 2) }
  Canonical _ := True
  length_bytes header := by
    rw [List.length_append, Scalar.length_bytes, Scalar.length_bytes]
    rfl
  ofBytes_bytes header := by
    have length : (Scalar.bytes header.size).length = 2 :=
      Scalar.length_bytes header.size
    rw [List.take_left' length, List.drop_left' length,
      Scalar.ofBytes_bytes, Scalar.ofBytes_bytes]
  canonical_bytes _ := trivial
  bytes_ofBytes block length _ := by
    change block.length = 4 at length
    have low : (block.take 2).length = Scalar.size UInt16 := by
      rw [List.length_take, length]
      rfl
    have high : (block.drop 2).length = Scalar.size UInt16 := by
      rw [List.length_drop, length]
      rfl
    change Scalar.bytes (Scalar.ofBytes (block.take 2) : UInt16) ++
      Scalar.bytes (Scalar.ofBytes (block.drop 2) : UInt16) = block
    rw [Scalar.bytes_ofBytes _ low trivial,
      Scalar.bytes_ofBytes _ high trivial, List.take_append_drop]

end PacketHeader

namespace Protocol

open BufferReader BufferWriter

inductive PacketId where
  | cLogin
  | sLogin
  | cHeartbeat
  | sHeartbeat
  | cRoomList
  | sRoomList
  | cEnterRoom
  | sEnterRoom
  | cLeaveRoom
  | sLeaveRoom
  | cRoomChat
  | sRoomChat
  | cGlobalChat
  | sGlobalChat
  | sNotice
  deriving DecidableEq, Repr

def PacketId.value : PacketId → UInt16
  | cLogin => 1001
  | sLogin => 1002
  | cHeartbeat => 1003
  | sHeartbeat => 1004
  | cRoomList => 1005
  | sRoomList => 1006
  | cEnterRoom => 1007
  | sEnterRoom => 1008
  | cLeaveRoom => 1009
  | sLeaveRoom => 1010
  | cRoomChat => 1011
  | sRoomChat => 1012
  | cGlobalChat => 1013
  | sGlobalChat => 1014
  | sNotice => 1015

/-- `MakeSendBuffer` around the writing calls of a packet, as every packet and
`PacketFormat.PacketStruct` have it; the result is `none` for `nullptr`. -/
def makeSendBuffer (id : UInt16) (fields : Encode Unit)
    (state : SendBufferState) :
    Except AssertCrash (Option SendBuffer × SendBufferState) := do
  let (opened, state) ← SendBufferManager.open_ 4096 state
  match opened with
  | none => throw .nullSendBuffer
  | some sendBuffer =>
      let memory := (state.chunks sendBuffer.owner).buffer
      let writer :=
        BufferWriter.ofBuffer memory sendBuffer.buffer sendBuffer.allocSize
      -- the return value of the header's `Write` is not looked at
      let header : PacketHeader := { size := 0, id := id }
      let writer := ((BufferWriter.write header).run writer).2
      match fields.run writer with
      | (none, writer) =>
          -- an early `return nullptr`, without `SendBufferManager::Close`
          return (none, state.setMemory sendBuffer.owner writer.buffer)
      | (some (), writer) =>
          let header : PacketHeader :=
            { header with size := UInt16.ofNat writer.getWriteSize }
          let memory :=
            store writer.buffer sendBuffer.buffer (Scalar.bytes header)
          let (sendBuffer, state) ← SendBufferManager.close sendBuffer
            header.size.toNat (state.setMemory sendBuffer.owner memory)
          return (some sendBuffer, state)

/-- `MakeSendBuffer` of the packet with this id. -/
def PacketId.makeSendBuffer (id : PacketId) (fields : Encode Unit)
    (state : SendBufferState) :
    Except AssertCrash (Option SendBuffer × SendBufferState) :=
  Protocol.makeSendBuffer id.value fields state

structure CLogin where
  name : StdString
  deriving DecidableEq, Repr

namespace CLogin

def read : Decode CLogin := do
  let name ← readString
  requireValid
  return { name := name }

def write (packet : CLogin) : Encode Unit :=
  writeString packet.name

def makeSendBuffer (packet : CLogin) :=
  PacketId.cLogin.makeSendBuffer packet.write

end CLogin

structure SLogin where
  success : Bool
  playerId : UInt64
  name : StdString
  message : StdString
  deriving DecidableEq, Repr

namespace SLogin

def read : Decode SLogin := do
  let success ← BufferReader.read Bool
  let playerId ← BufferReader.read UInt64
  let name ← readString
  let message ← readString
  requireValid
  return { success := success
           playerId := playerId
           name := name
           message := message }

def write (packet : SLogin) : Encode Unit := do
  BufferWriter.write packet.success
  BufferWriter.write packet.playerId
  writeString packet.name
  writeString packet.message

def makeSendBuffer (packet : SLogin) :=
  PacketId.sLogin.makeSendBuffer packet.write

end SLogin

structure CHeartbeat where
  clientTick : UInt64
  deriving DecidableEq, Repr

namespace CHeartbeat

def read : Decode CHeartbeat := do
  let clientTick ← BufferReader.read UInt64
  requireValid
  return { clientTick := clientTick }

def write (packet : CHeartbeat) : Encode Unit :=
  BufferWriter.write packet.clientTick

def makeSendBuffer (packet : CHeartbeat) :=
  PacketId.cHeartbeat.makeSendBuffer packet.write

end CHeartbeat

structure SHeartbeat where
  serverTick : UInt64
  deriving DecidableEq, Repr

namespace SHeartbeat

def read : Decode SHeartbeat := do
  let serverTick ← BufferReader.read UInt64
  requireValid
  return { serverTick := serverTick }

def write (packet : SHeartbeat) : Encode Unit :=
  BufferWriter.write packet.serverTick

def makeSendBuffer (packet : SHeartbeat) :=
  PacketId.sHeartbeat.makeSendBuffer packet.write

end SHeartbeat

structure CRoomList where
  deriving DecidableEq, Repr

namespace CRoomList

def read : Decode CRoomList := do
  requireValid
  return {}

def write (_ : CRoomList) : Encode Unit :=
  pure ()

def makeSendBuffer (packet : CRoomList) :=
  PacketId.cRoomList.makeSendBuffer packet.write

end CRoomList

/-- `S_ROOM_LIST::RoomsInfo`. -/
structure RoomsInfo where
  roomId : Int32
  roomName : StdString
  userCount : Int32
  deriving DecidableEq, Repr

namespace RoomsInfo

def read : Decode RoomsInfo := do
  let roomId ← BufferReader.read Int32
  let roomName ← readString
  let userCount ← BufferReader.read Int32
  return { roomId := roomId
           roomName := roomName
           userCount := userCount }

def write (item : RoomsInfo) : Encode Unit := do
  BufferWriter.write item.roomId
  writeString item.roomName
  BufferWriter.write item.userCount

end RoomsInfo

structure SRoomList where
  rooms : List RoomsInfo
  deriving DecidableEq, Repr

namespace SRoomList

def read : Decode SRoomList := do
  let rooms ← readList RoomsInfo.read
  requireValid
  return { rooms := rooms }

def write (packet : SRoomList) : Encode Unit :=
  writeList RoomsInfo.write packet.rooms

def makeSendBuffer (packet : SRoomList) :=
  PacketId.sRoomList.makeSendBuffer packet.write

end SRoomList

structure CEnterRoom where
  roomId : Int32
  roomName : StdString
  deriving DecidableEq, Repr

namespace CEnterRoom

def read : Decode CEnterRoom := do
  let roomId ← BufferReader.read Int32
  let roomName ← readString
  requireValid
  return { roomId := roomId
           roomName := roomName }

def write (packet : CEnterRoom) : Encode Unit := do
  BufferWriter.write packet.roomId
  writeString packet.roomName

def makeSendBuffer (packet : CEnterRoom) :=
  PacketId.cEnterRoom.makeSendBuffer packet.write

end CEnterRoom

/-- `S_ENTER_ROOM::MembersInfo`. -/
structure MembersInfo where
  name : StdString
  deriving DecidableEq, Repr

namespace MembersInfo

def read : Decode MembersInfo := do
  let name ← readString
  return { name := name }

def write (item : MembersInfo) : Encode Unit :=
  writeString item.name

end MembersInfo

structure SEnterRoom where
  members : List MembersInfo
  success : Bool
  roomId : Int32
  roomName : StdString
  deriving DecidableEq, Repr

namespace SEnterRoom

def read : Decode SEnterRoom := do
  let success ← BufferReader.read Bool
  let roomId ← BufferReader.read Int32
  let roomName ← readString
  let members ← readList MembersInfo.read
  requireValid
  return { members := members
           success := success
           roomId := roomId
           roomName := roomName }

def write (packet : SEnterRoom) : Encode Unit := do
  BufferWriter.write packet.success
  BufferWriter.write packet.roomId
  writeString packet.roomName
  writeList MembersInfo.write packet.members

def makeSendBuffer (packet : SEnterRoom) :=
  PacketId.sEnterRoom.makeSendBuffer packet.write

end SEnterRoom

structure CLeaveRoom where
  deriving DecidableEq, Repr

namespace CLeaveRoom

def read : Decode CLeaveRoom := do
  requireValid
  return {}

def write (_ : CLeaveRoom) : Encode Unit :=
  pure ()

def makeSendBuffer (packet : CLeaveRoom) :=
  PacketId.cLeaveRoom.makeSendBuffer packet.write

end CLeaveRoom

structure SLeaveRoom where
  success : Bool
  deriving DecidableEq, Repr

namespace SLeaveRoom

def read : Decode SLeaveRoom := do
  let success ← BufferReader.read Bool
  requireValid
  return { success := success }

def write (packet : SLeaveRoom) : Encode Unit :=
  BufferWriter.write packet.success

def makeSendBuffer (packet : SLeaveRoom) :=
  PacketId.sLeaveRoom.makeSendBuffer packet.write

end SLeaveRoom

structure CRoomChat where
  message : StdString
  deriving DecidableEq, Repr

namespace CRoomChat

def read : Decode CRoomChat := do
  let message ← readString
  requireValid
  return { message := message }

def write (packet : CRoomChat) : Encode Unit :=
  writeString packet.message

def makeSendBuffer (packet : CRoomChat) :=
  PacketId.cRoomChat.makeSendBuffer packet.write

end CRoomChat

structure SRoomChat where
  senderName : StdString
  message : StdString
  deriving DecidableEq, Repr

namespace SRoomChat

def read : Decode SRoomChat := do
  let senderName ← readString
  let message ← readString
  requireValid
  return { senderName := senderName
           message := message }

def write (packet : SRoomChat) : Encode Unit := do
  writeString packet.senderName
  writeString packet.message

def makeSendBuffer (packet : SRoomChat) :=
  PacketId.sRoomChat.makeSendBuffer packet.write

end SRoomChat

structure CGlobalChat where
  message : StdString
  deriving DecidableEq, Repr

namespace CGlobalChat

def read : Decode CGlobalChat := do
  let message ← readString
  requireValid
  return { message := message }

def write (packet : CGlobalChat) : Encode Unit :=
  writeString packet.message

def makeSendBuffer (packet : CGlobalChat) :=
  PacketId.cGlobalChat.makeSendBuffer packet.write

end CGlobalChat

structure SGlobalChat where
  senderName : StdString
  message : StdString
  deriving DecidableEq, Repr

namespace SGlobalChat

def read : Decode SGlobalChat := do
  let senderName ← readString
  let message ← readString
  requireValid
  return { senderName := senderName
           message := message }

def write (packet : SGlobalChat) : Encode Unit := do
  writeString packet.senderName
  writeString packet.message

def makeSendBuffer (packet : SGlobalChat) :=
  PacketId.sGlobalChat.makeSendBuffer packet.write

end SGlobalChat

structure SNotice where
  message : StdString
  deriving DecidableEq, Repr

namespace SNotice

def read : Decode SNotice := do
  let message ← readString
  requireValid
  return { message := message }

def write (packet : SNotice) : Encode Unit :=
  writeString packet.message

def makeSendBuffer (packet : SNotice) :=
  PacketId.sNotice.makeSendBuffer packet.write

end SNotice

namespace PacketId

/-- The structure of the packets with this id. -/
@[reducible] def Struct : PacketId → Type
  | cLogin => CLogin
  | sLogin => SLogin
  | cHeartbeat => CHeartbeat
  | sHeartbeat => SHeartbeat
  | cRoomList => CRoomList
  | sRoomList => SRoomList
  | cEnterRoom => CEnterRoom
  | sEnterRoom => SEnterRoom
  | cLeaveRoom => CLeaveRoom
  | sLeaveRoom => SLeaveRoom
  | cRoomChat => CRoomChat
  | sRoomChat => SRoomChat
  | cGlobalChat => CGlobalChat
  | sGlobalChat => SGlobalChat
  | sNotice => SNotice

def read : (id : PacketId) → Decode id.Struct
  | cLogin => CLogin.read
  | sLogin => SLogin.read
  | cHeartbeat => CHeartbeat.read
  | sHeartbeat => SHeartbeat.read
  | cRoomList => CRoomList.read
  | sRoomList => SRoomList.read
  | cEnterRoom => CEnterRoom.read
  | sEnterRoom => SEnterRoom.read
  | cLeaveRoom => CLeaveRoom.read
  | sLeaveRoom => SLeaveRoom.read
  | cRoomChat => CRoomChat.read
  | sRoomChat => SRoomChat.read
  | cGlobalChat => CGlobalChat.read
  | sGlobalChat => SGlobalChat.read
  | sNotice => SNotice.read

def write : (id : PacketId) → id.Struct → Encode Unit
  | cLogin => CLogin.write
  | sLogin => SLogin.write
  | cHeartbeat => CHeartbeat.write
  | sHeartbeat => SHeartbeat.write
  | cRoomList => CRoomList.write
  | sRoomList => SRoomList.write
  | cEnterRoom => CEnterRoom.write
  | sEnterRoom => SEnterRoom.write
  | cLeaveRoom => CLeaveRoom.write
  | sLeaveRoom => SLeaveRoom.write
  | cRoomChat => CRoomChat.write
  | sRoomChat => SRoomChat.write
  | cGlobalChat => CGlobalChat.write
  | sGlobalChat => SGlobalChat.write
  | sNotice => SNotice.write

end PacketId

/-- A packet of any of the fifteen types. -/
structure Packet where
  id : PacketId
  fields : id.Struct

namespace Packet

def makeSendBuffer : Packet → SendBufferState →
    Except AssertCrash (Option SendBuffer × SendBufferState)
  | ⟨.cLogin, packet⟩ => packet.makeSendBuffer
  | ⟨.sLogin, packet⟩ => packet.makeSendBuffer
  | ⟨.cHeartbeat, packet⟩ => packet.makeSendBuffer
  | ⟨.sHeartbeat, packet⟩ => packet.makeSendBuffer
  | ⟨.cRoomList, packet⟩ => packet.makeSendBuffer
  | ⟨.sRoomList, packet⟩ => packet.makeSendBuffer
  | ⟨.cEnterRoom, packet⟩ => packet.makeSendBuffer
  | ⟨.sEnterRoom, packet⟩ => packet.makeSendBuffer
  | ⟨.cLeaveRoom, packet⟩ => packet.makeSendBuffer
  | ⟨.sLeaveRoom, packet⟩ => packet.makeSendBuffer
  | ⟨.cRoomChat, packet⟩ => packet.makeSendBuffer
  | ⟨.sRoomChat, packet⟩ => packet.makeSendBuffer
  | ⟨.cGlobalChat, packet⟩ => packet.makeSendBuffer
  | ⟨.sGlobalChat, packet⟩ => packet.makeSendBuffer
  | ⟨.sNotice, packet⟩ => packet.makeSendBuffer

/-- The fifteen `MakeSendBuffer` differ in the id and the fields only. -/
theorem makeSendBuffer_eq (packet : Packet) :
    packet.makeSendBuffer =
      packet.id.makeSendBuffer (packet.id.write packet.fields) := by
  obtain ⟨id, fields⟩ := packet
  cases id <;> rfl

end Packet

end Protocol

end IocpChat
