import Mathlib.Data.List.Basic

/-!
# PacketGenerator

From a `Packet` element of `PDL.xml` to the members, the `Read` body and the
writing calls of the structure that `GeneratePacketStruct` emits.  Emitted code
is kept as statements; what they name is only looked up when they are compiled.
-/

namespace IocpChat.PacketGenerator

structure MemberInfo where
  name : String
  type : String
  deriving DecidableEq, Repr

structure ListInfo where
  name : String
  members : List MemberInfo
  deriving DecidableEq, Repr

structure PacketInfo where
  name : String
  id : UInt16
  members : List MemberInfo
  lists : List ListInfo
  deriving DecidableEq, Repr

/-- An element with the attributes that are looked at. -/
structure XmlNode where
  tag : String
  name : Option String
  type : Option String
  deriving DecidableEq, Repr

structure PacketChild extends XmlNode where
  childNodes : List XmlNode
  deriving DecidableEq, Repr

def XmlNode.member (node : XmlNode) : MemberInfo :=
  { name := node.name.getD ""
    type := node.type.getD "" }

/-- One turn of the loop over `packetNode.ChildNodes`. -/
def PacketInfo.addChild (pkt : PacketInfo) (child : PacketChild) :
    PacketInfo :=
  if child.tag = "Member" then
    { pkt with members := pkt.members ++ [child.member] }
  else if child.tag = "List" then
    { pkt with
      lists := pkt.lists ++
        [{ name := child.name.getD ""
           members := (child.childNodes.filter (·.tag = "Member")).map
             XmlNode.member }] }
  else pkt

/-- A `Packet` element. -/
def PacketInfo.ofXml (name : String) (id : UInt16)
    (children : List PacketChild) : PacketInfo :=
  children.foldl addChild
    { name := name
      id := id
      members := []
      lists := [] }

inductive CppType where
  | bool
  | int8
  | int16
  | int32
  | int64
  | uint8
  | uint16
  | uint32
  | uint64
  | float
  | double
  | stdString
  deriving DecidableEq, Repr

/-- `TypeMapping`; there is no key for any other type. -/
def typeMapping : String → Option CppType
  | "bool" => some .bool
  | "int8" => some .int8
  | "int16" => some .int16
  | "int32" => some .int32
  | "int64" => some .int64
  | "uint8" => some .uint8
  | "uint16" => some .uint16
  | "uint32" => some .uint32
  | "uint64" => some .uint64
  | "float" => some .float
  | "double" => some .double
  | "string" => some .stdString
  | _ => none

/-- `type name;` -/
structure MemberDeclaration where
  type : CppType
  name : String
  deriving DecidableEq, Repr

/-- `struct ...Info { ... };` and `std::vector<...Info> name;` -/
structure ListDeclaration where
  name : String
  members : List MemberDeclaration
  deriving DecidableEq, Repr

inductive Operand where
  /-- `name` -/
  | variable (name : String)
  /-- `list[i].member` -/
  | element (list member : String)
  /-- `item.member` -/
  | item (member : String)
  deriving DecidableEq, Repr

/-- `if (reader.Read(operand) == false) return false;`, with `ReadString` where
`isString` holds; or a call of the writer and `return nullptr;`. -/
structure Call where
  isString : Bool
  operand : Operand
  deriving DecidableEq, Repr

inductive ReadStatement where
  | call (call : Call)
  /-- `uint16 countVar = 0;` -/
  | declareCount (countVar : String)
  /-- `list.resize(countVar);` -/
  | resize (list countVar : String)
  /-- `for (uint16 i = 0; i < countVar; ++i)` -/
  | loop (countVar : String) (body : List Call)
  deriving DecidableEq, Repr

inductive WriteStatement where
  | call (call : Call)
  /-- `uint16 countVar = static_cast<uint16>(list.size());` -/
  | declareCount (countVar list : String)
  /-- `for (const auto& item : list)` -/
  | loop (list : String) (body : List Call)
  deriving DecidableEq, Repr

structure PacketStruct where
  name : String
  id : UInt16
  lists : List ListDeclaration
  members : List MemberDeclaration
  readCode : List ReadStatement
  writeCode : List WriteStatement
  deriving DecidableEq, Repr

def MemberInfo.declare (m : MemberInfo) : Option MemberDeclaration :=
  (typeMapping m.type).map fun type =>
    { type := type
      name := m.name }

def ListInfo.declare (list : ListInfo) : Option ListDeclaration :=
  (list.members.mapM MemberInfo.declare).map fun members =>
    { name := list.name
      members := members }

/-- The call for a member of the packet or of a list. -/
def MemberInfo.call (operand : String → Operand) (m : MemberInfo) : Call :=
  { isString := m.type = "string"
    operand := operand m.name }

def countVar (list : String) : String :=
  list ++ "Count"

def ListInfo.readCode (list : ListInfo) : List ReadStatement :=
  [.declareCount (countVar list.name),
    .call
      { isString := false
        operand := .variable (countVar list.name) },
    .resize list.name (countVar list.name),
    .loop (countVar list.name)
      (list.members.map (MemberInfo.call (.element list.name)))]

def ListInfo.writeCode (list : ListInfo) : List WriteStatement :=
  [.declareCount (countVar list.name) list.name,
    .call
      { isString := false
        operand := .variable (countVar list.name) },
    .loop list.name (list.members.map (MemberInfo.call .item))]

/-- The result is `none` where the lookup of a type throws. -/
def generatePacketStruct (pkt : PacketInfo) : Option PacketStruct := do
  let lists ← pkt.lists.mapM ListInfo.declare
  let members ← pkt.members.mapM MemberInfo.declare
  return { name := pkt.name
           id := pkt.id
           lists := lists
           members := members
           readCode :=
             pkt.members.map (.call ∘ MemberInfo.call .variable) ++
               pkt.lists.flatMap ListInfo.readCode
           writeCode :=
             pkt.members.map (.call ∘ MemberInfo.call .variable) ++
               pkt.lists.flatMap ListInfo.writeCode }

end IocpChat.PacketGenerator
