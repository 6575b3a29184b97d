import IocpChat.PacketGenerator.GeneratedRead
import IocpChat.PacketGenerator.GeneratedWrite

/-!
# The generated packet handlers

From all the `Packet` elements of `PDL.xml` to `PacketProtocol.h`,
`ServerPacketHandler.h` and `ClientPacketHandler.h`, and what the three do when
they are compiled together.  A structure and a `case` are about the same packet
only because they were given the same name.
-/

namespace IocpChat.PacketGenerator

open FlatMemory LittleEndian WireFormat

/-- A `Packet` element.  `id` is what `int.Parse` makes of the attribute; where
it throws, or the number is no `uint16`, there is nothing to compile. -/
structure PacketNode where
  name : Option String
  id : Option UInt16
  childNodes : List PacketChild

def PacketNode.info (node : PacketNode) : PacketInfo :=
  .ofXml (node.name.getD "") (node.id.getD 0) node.childNodes

/-- `PacketProtocol.h`: the enumerators `PKT_...` and the structures. -/
structure ProtocolHeader where
  packetIds : List (String × UInt16)
  structs : List PacketStruct

/-- `...PacketHandler.h`: the declarations of `Handle_...` and the cases of the
`switch`, by the names of their packets. -/
structure HandlerHeader where
  className : String
  handlerDecls : List String
  dispatchCases : List String
  deriving DecidableEq, Repr

structure GeneratedFiles where
  protocol : ProtocolHeader
  server : HandlerHeader
  client : HandlerHeader

/-- `pkt.Name.StartsWith(prefixFilter)` -/
def PacketInfo.startsWith (pkt : PacketInfo) (prefixFilter : String) : Bool :=
  prefixFilter.toList.isPrefixOf pkt.name.toList

def generateHandlerFile (packets : List PacketInfo)
    (className prefixFilter : String) : HandlerHeader :=
  let selected := (packets.filter (·.startsWith prefixFilter)).map
    PacketInfo.name
  { className := className
    handlerDecls := selected
    dispatchCases := selected }

/-- `Main` behind the loading of the file. -/
def main (packetNodes : List PacketNode) : Option GeneratedFiles := do
  let packets := packetNodes.map PacketNode.info
  let structs ← packets.mapM generatePacketStruct
  return { protocol :=
             { packetIds := packets.map fun pkt => (pkt.name, pkt.id)
               structs := structs }
           server := generateHandlerFile packets "ServerPacketHandler" "C_"
           client := generateHandlerFile packets "ClientPacketHandler" "S_" }

namespace ProtocolHeader

/-- `Protocol::PKT_...` -/
def packetId (protocol : ProtocolHeader) (name : String) : Option UInt16 :=
  (protocol.packetIds.find? (·.1 = name)).map Prod.snd

/-- `Protocol::...` -/
def struct (protocol : ProtocolHeader) (name : String) : Option PacketStruct :=
  protocol.structs.find? (·.name = name)

/-- No enumerator and no structure is defined twice, and the structures are
well formed. -/
def Compiles (protocol : ProtocolHeader) : Prop :=
  (protocol.packetIds.map Prod.fst).Nodup ∧
    (protocol.structs.map PacketStruct.name).Nodup ∧
    ∀ struct ∈ protocol.structs, struct.Declares

instance (protocol : ProtocolHeader) : Decidable protocol.Compiles :=
  inferInstanceAs (Decidable (_ ∧ _ ∧ _))

end ProtocolHeader

/-- `Protocol::... pkt;` -/
def PacketStruct.defaultFields (struct : PacketStruct) : Fields where
  members := defaultRecord struct.members
  lists name := (struct.lists.find? (·.name = name)).map fun list =>
    { declared := list.members
      items := [] }

namespace HandlerHeader

/-- No two cases of the `switch` have the same value. -/
def Compiles (handler : HandlerHeader) (protocol : ProtocolHeader) : Prop :=
  (handler.dispatchCases.map protocol.packetId).Nodup

instance (handler : HandlerHeader) (protocol : ProtocolHeader) :
    Decidable (handler.Compiles protocol) :=
  inferInstanceAs (Decidable (List.Nodup _))

/-- `HandlePacket`: the `Handle_...` it calls and the packet it gives to it, or
no call and `return false`. -/
def handlePacket (handler : HandlerHeader) (protocol : ProtocolHeader)
    (platform : Platform) (buffer : Memory UInt8) (len : Nat) :
    Option (Option (String × Fields)) :=
  match (BufferReader.read PacketHeader).run (.ofBuffer buffer len) with
  | (none, _) => some none
  | (some header, reader) =>
      match handler.dispatchCases.find? fun name =>
          protocol.packetId name = some header.id with
      | none => some none
      | some name =>
          (protocol.struct name).bind fun struct =>
            (struct.read platform struct.defaultFields reader).map
              fun result =>
                if result.1 then some (name, result.2.1) else none

end HandlerHeader

/-- The files the compiler accepts. -/
def GeneratedFiles.Compile (files : GeneratedFiles) : Prop :=
  files.protocol.Compiles ∧ files.server.Compiles files.protocol ∧
    files.client.Compiles files.protocol

instance (files : GeneratedFiles) : Decidable files.Compile :=
  inferInstanceAs (Decidable (_ ∧ _ ∧ _))

/-- The handler file that is generated with a prefix. -/
def GeneratedFiles.Handles (files : GeneratedFiles) (prefixFilter : String)
    (handler : HandlerHeader) : Prop :=
  prefixFilter = "C_" ∧ handler = files.server ∨
    prefixFilter = "S_" ∧ handler = files.client

/-- An entry is found by its key, if no other has the same. -/
theorem find_key {Entry Key : Type} [DecidableEq Key] {key : Entry → Key}
    {entries : List Entry} (distinct : (entries.map key).Nodup)
    {entry : Entry} (listed : entry ∈ entries) :
    entries.find? (fun other => decide (key other = key entry)) =
      some entry := by
  induction entries with
  | nil => cases listed
  | cons first entries induction =>
      obtain ⟨fresh, rest⟩ := List.nodup_cons.mp distinct
      rcases List.mem_cons.mp listed with rfl | later
      · simp
      · have different : key first ≠ key entry := by
          intro same
          apply fresh
          rw [same]
          exact List.mem_map_of_mem later
        rw [List.find?_cons_of_neg (by simpa using different)]
        exact induction rest later

theorem exists_of_mapM {Info Generated : Type}
    {generate : Info → Option Generated} {infos : List Info}
    {generated : List Generated}
    (generates : infos.mapM generate = some generated) {result : Generated}
    (listed : result ∈ generated) :
    ∃ info ∈ infos, generate info = some result := by
  induction infos generalizing generated with
  | nil =>
      cases generates
      cases listed
  | cons info infos induction =>
      simp only [List.mapM_cons, Option.bind_eq_bind, Option.bind_eq_some_iff,
        Option.pure_def, Option.some.injEq] at generates
      obtain ⟨first, own, rest, others, rfl⟩ := generates
      rcases List.mem_cons.mp listed with rfl | later
      · exact ⟨info, List.mem_cons_self .., own⟩
      · obtain ⟨other, member, found⟩ := induction others later
        exact ⟨other, List.mem_cons_of_mem _ member, found⟩

/-- A structure has the name and the enumerator of its description. -/
theorem generatePacketStruct_header {pkt : PacketInfo} {struct : PacketStruct}
    (generates : generatePacketStruct pkt = some struct) :
    pkt.name = struct.name ∧ pkt.id = struct.id := by
  simp only [generatePacketStruct, Option.bind_eq_bind,
    Option.bind_eq_some_iff, Option.pure_def, Option.some.injEq] at generates
  obtain ⟨lists, _, members, _, rfl⟩ := generates
  exact ⟨rfl, rfl⟩

/-- The enumerators and the cases are those of the structures. -/
theorem main_agrees {packetNodes : List PacketNode} {files : GeneratedFiles}
    (generates : main packetNodes = some files) :
    (∀ struct ∈ files.protocol.structs, struct.Generated) ∧
      files.protocol.packetIds =
        files.protocol.structs.map (fun struct => (struct.name, struct.id)) ∧
      ∀ prefixFilter handler, files.Handles prefixFilter handler →
        handler.dispatchCases =
          (files.protocol.structs.map PacketStruct.name).filter fun name =>
            prefixFilter.toList.isPrefixOf name.toList := by
  simp only [main, Option.bind_eq_bind, Option.bind_eq_some_iff,
    Option.pure_def, Option.some.injEq] at generates
  obtain ⟨structs, generated, rfl⟩ := generates
  have names : (packetNodes.map PacketNode.info).map PacketInfo.name =
      structs.map PacketStruct.name :=
    map_of_mapM generated fun _ _ own => (generatePacketStruct_header own).1
  have cases_ : ∀ className prefixFilter,
      (generateHandlerFile (packetNodes.map PacketNode.info) className
        prefixFilter).dispatchCases =
        (structs.map PacketStruct.name).filter fun name =>
          prefixFilter.toList.isPrefixOf name.toList := by
    intro className prefixFilter
    rw [← names, List.filter_map]
    rfl
  refine ⟨?_, ?_, ?_⟩
  · intro struct listed
    obtain ⟨info, _, own⟩ := exists_of_mapM generated listed
    exact generatePacketStruct_generated own
  · apply map_of_mapM generated
    intro info struct own
    obtain ⟨name, id⟩ := generatePacketStruct_header own
    rw [name, id]
  · rintro prefixFilter handler (⟨rfl, rfl⟩ | ⟨rfl, rfl⟩)
    · exact cases_ _ _
    · exact cases_ _ _

namespace PacketStruct

theorem defaultFields_holds {struct : PacketStruct}
    (declares : struct.Declares) : struct.Holds struct.defaultFields := by
  have names := declares.1
  rw [List.nodup_append] at names
  have lists := (List.nodup_append.mp names.1).2.1
  refine
    { members := defaultRecord_holds names.2.1
      lists := ?_
      others := ?_ }
  · intro list listed
    refine
      ⟨{ declared := list.members
         items := [] }, ?_, ?_⟩
    · exact Option.map_eq_some_iff.mpr ⟨list, find_key lists listed, rfl⟩
    · exact ⟨rfl, nofun⟩
  · intro name absent
    simp only [defaultFields, Option.map_eq_none_iff, List.find?_eq_none,
      decide_eq_true_eq]
    rintro list listed rfl
    exact absent (List.mem_map_of_mem listed)

end PacketStruct

/-- What the handlers of one side do: a packet that is theirs reaches the
handler of its own name as it was sent, and no handler gets anything else than
what was read for the id of the header. -/
structure Dispatches (files : GeneratedFiles) (prefixFilter : String)
    (handler : HandlerHeader) (platform : Platform) : Prop where
  own : ∀ struct ∈ files.protocol.structs,
    prefixFilter.toList.isPrefixOf struct.name.toList = true →
    struct.Unhidden → ∀ value, struct.Holds value → value.Counted →
    PacketHeader.byteSize + (struct.tokens value).length ≤ 4096 →
    ∀ state : SendBufferState, state.ChunkClosed →
      ∃ sendBuffer next,
        struct.makeSendBuffer platform value state =
          some (.ok (some sendBuffer, next)) ∧
        ∀ buffer, load buffer 0 (next.bytes sendBuffer).length =
            next.bytes sendBuffer →
          handler.handlePacket files.protocol platform buffer
            (next.bytes sendBuffer).length = some (some (struct.name, value))
  only : ∀ buffer len name pkt,
    handler.handlePacket files.protocol platform buffer len =
      some (some (name, pkt)) →
      ∃ header reader final, ∃ struct ∈ files.protocol.structs,
        (BufferReader.read PacketHeader).run (.ofBuffer buffer len) =
          (some header, reader) ∧
        struct.name = name ∧ struct.id = header.id ∧
        prefixFilter.toList.isPrefixOf name.toList = true ∧
        struct.read platform struct.defaultFields reader =
          some (true, pkt, final)

/-- The enumerator of a structure. -/
theorem packetId_eq {files : GeneratedFiles}
    (packetIds : files.protocol.packetIds =
      files.protocol.structs.map (fun struct => (struct.name, struct.id)))
    (compiles : files.protocol.Compiles) {struct : PacketStruct}
    (listed : struct ∈ files.protocol.structs) :
    files.protocol.packetId struct.name = some struct.id := by
  have entry : (struct.name, struct.id) ∈ files.protocol.packetIds := by
    rw [packetIds]
    exact List.mem_map_of_mem listed
  have found := find_key compiles.1 entry
  exact Option.map_eq_some_iff.mpr ⟨_, found, rfl⟩

section Pdl

/-! The packets of `PDL.xml`. -/

def memberNode (name type : String) : PacketChild :=
  { tag := "Member"
    name := some name
    type := some type
    childNodes := [] }

def listNode (name : String) (members : List (String × String)) :
    PacketChild :=
  { tag := "List"
    name := some name
    type := none
    childNodes := members.map fun member =>
      { tag := "Member"
        name := some member.1
        type := some member.2 } }

def packetNode (name : String) (id : UInt16)
    (childNodes : List PacketChild) : PacketNode :=
  { name := some name
    id := some id
    childNodes := childNodes }

def pdl : List PacketNode :=
  [packetNode "C_LOGIN" 1001 [memberNode "name" "string"],
    packetNode "S_LOGIN" 1002
      [memberNode "success" "bool", memberNode "playerId" "uint64",
        memberNode "name" "string", memberNode "message" "string"],
    packetNode "C_HEARTBEAT" 1003 [memberNode "clientTick" "uint64"],
    packetNode "S_HEARTBEAT" 1004 [memberNode "serverTick" "uint64"],
    packetNode "C_ROOM_LIST" 1005 [],
    packetNode "S_ROOM_LIST" 1006
      [listNode "rooms" [("roomId", "int32"), ("roomName", "string"),
        ("userCount", "int32")]],
    packetNode "C_ENTER_ROOM" 1007
      [memberNode "roomId" "int32", memberNode "roomName" "string"],
    packetNode "S_ENTER_ROOM" 1008
      [memberNode "success" "bool", memberNode "roomId" "int32",
        memberNode "roomName" "string",
        listNode "members" [("name", "string")]],
    packetNode "C_LEAVE_ROOM" 1009 [],
    packetNode "S_LEAVE_ROOM" 1010 [memberNode "success" "bool"],
    packetNode "C_ROOM_CHAT" 1011 [memberNode "message" "string"],
    packetNode "S_ROOM_CHAT" 1012
      [memberNode "senderName" "string", memberNode "message" "string"],
    packetNode "C_GLOBAL_CHAT" 1013 [memberNode "message" "string"],
    packetNode "S_GLOBAL_CHAT" 1014
      [memberNode "senderName" "string", memberNode "message" "string"],
    packetNode "S_NOTICE" 1015 [memberNode "message" "string"]]

/-- What is emitted for `C_ENTER_ROOM`. -/
def enterRoomStruct : PacketStruct where
  name := "C_ENTER_ROOM"
  id := 1007
  lists := []
  members :=
    [{ type := .int32
       name := "roomId" },
      { type := .stdString
        name := "roomName" }]
  readCode :=
    [.call
      { isString := false
        operand := .variable "roomId" },
      .call
        { isString := true
          operand := .variable "roomName" }]
  writeCode :=
    [.call
      { isString := false
        operand := .variable "roomId" },
      .call
        { isString := true
          operand := .variable "roomName" }]

def enterLobby : Fields where
  members name :=
    if name = "roomId" then some ⟨.int32, (7 : Int32)⟩
    else if name = "roomName" then some ⟨.stdString, literal "lobby"⟩
    else none
  lists _ := none

theorem enterLobby_holds : enterRoomStruct.Holds enterLobby := by
  constructor
  · constructor
    · intro member listed
      simp only [enterRoomStruct, List.mem_cons, List.not_mem_nil, or_false]
        at listed
      rcases listed with rfl | rfl
      · exact ⟨(7 : Int32), by simp [enterLobby]⟩
      · exact ⟨literal "lobby", by simp [enterLobby]⟩
    · intro name other
      simp only [enterRoomStruct, List.map_cons, List.map_nil, List.mem_cons,
        List.not_mem_nil, or_false, not_or] at other
      simp only [enterLobby, other, if_false]
  · intro list listed
    cases listed
  · intro name _
    rfl

theorem enterLobby_counted : enterLobby.Counted := by
  constructor
  · intro name value stored
    simp only [enterLobby] at stored
    split at stored
    · cases stored
      trivial
    · split at stored
      · cases stored
        change (literal "lobby").length ≤ 65535
        decide
      · cases stored
  · intro name list stored
    cases stored

end Pdl

end IocpChat.PacketGenerator
