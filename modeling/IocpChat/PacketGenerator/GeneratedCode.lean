import IocpChat.PacketGenerator.Program
import IocpChat.Protocol.PacketEncoding

/-!
# What the generated code does

An object of a generated structure has its plain members and its vectors.  The
bodies of `Read` and `MakeSendBuffer` look a name up among the local variables
first and among the members then; code that the C++ compiler rejects has no
meaning.  A member can be hidden by the reader, by the writer or by the send
buffer: then the call copies that object.
-/

namespace IocpChat.PacketGenerator

open LittleEndian WireFormat

/-- The values of a type; a `float` or `double` is its object representation. -/
abbrev CppType.Value : CppType → Type
  | bool => Bool
  | int8 => Int8
  | int16 => Int16
  | int32 => Int32
  | int64 => Int64
  | uint8 => UInt8
  | uint16 => UInt16
  | uint32 => UInt32
  | uint64 => UInt64
  | float => UInt32
  | double => UInt64
  | stdString => StdString

/-- `type name{};` and `std::string name;` -/
def CppType.default : (type : CppType) → type.Value
  | bool => false
  | int8 => 0
  | int16 => 0
  | int32 => 0
  | int64 => 0
  | uint8 => 0
  | uint16 => 0
  | uint32 => 0
  | uint64 => 0
  | float => (0 : UInt32)
  | double => (0 : UInt64)
  | stdString => []

/-- `Read<T>`, or `ReadString`. -/
def CppType.read : (type : CppType) → Decode type.Value
  | bool => BufferReader.read Bool
  | int8 => BufferReader.read Int8
  | int16 => BufferReader.read Int16
  | int32 => BufferReader.read Int32
  | int64 => BufferReader.read Int64
  | uint8 => BufferReader.read UInt8
  | uint16 => BufferReader.read UInt16
  | uint32 => BufferReader.read UInt32
  | uint64 => BufferReader.read UInt64
  | float => BufferReader.read UInt32
  | double => BufferReader.read UInt64
  | stdString => BufferReader.readString

/-- `Write<T>`, or `WriteString`. -/
def CppType.write : (type : CppType) → type.Value → Encode Unit
  | bool => BufferWriter.write
  | int8 => BufferWriter.write
  | int16 => BufferWriter.write
  | int32 => BufferWriter.write
  | int64 => BufferWriter.write
  | uint8 => BufferWriter.write
  | uint16 => BufferWriter.write
  | uint32 => BufferWriter.write
  | uint64 => BufferWriter.write
  | float => fun value => BufferWriter.write (show UInt32 from value)
  | double => fun value => BufferWriter.write (show UInt64 from value)
  | stdString => BufferWriter.writeString

abbrev CppValue := (type : CppType) × type.Value

/-- The plain members of an object by their names. -/
abbrev Record := String → Option CppValue

/-- `struct ...Info`, with its default member initializers. -/
def defaultRecord (declared : List MemberDeclaration) : Record :=
  fun name => (declared.find? (·.name = name)).map fun member =>
    ⟨member.type, member.type.default⟩

structure ListValue where
  declared : List MemberDeclaration
  items : List Record

/-- An object of a generated structure, its header apart. -/
structure Fields where
  members : Record
  lists : String → Option ListValue

/-- What copying the local objects of the generated functions does: their
representations, and what is left of a reader that is read into itself. -/
structure Platform where
  writerBytes : BufferWriter → List UInt8
  sendBufferBytes : List UInt8
  overwriteReader : Decode Unit

namespace Platform

/-- `writer.Write(writer)` -/
def writeWriter (platform : Platform) : Encode Unit :=
  fun writer => BufferWriter.writeBytes (platform.writerBytes writer) writer

end Platform

/-- `static_cast<uint16>(list.size())` and the loop need a vector; `hidden` says
which names the local variables have taken. -/
def Fields.vector (fields : Fields) (hidden : Bool) (list : String) :
    Option ListValue :=
  if hidden then none else fields.lists list

section Writing

/-- `Write` does not take a string, `WriteString` nothing else. -/
def writeValue (isString : Bool) (value : CppValue) : Option (Encode Unit) :=
  if isString = decide (value.1 = .stdString) then
    some (value.1.write value.2)
  else none

variable (platform : Platform) (fields : Fields)

def writeCall (counts : String → Option UInt16) (item : Option Record)
    (call : Call) : Option (Encode Unit) :=
  match call.operand with
  | .variable name =>
      if name = "writer" then
        if call.isString then none else some platform.writeWriter
      else if name = "sendBuffer" then
        if call.isString then none
        else some (BufferWriter.writeBytes platform.sendBufferBytes)
      else
        match counts name with
        | some count => writeValue call.isString ⟨.uint16, count⟩
        | none => (fields.members name).bind (writeValue call.isString)
  | .item member =>
      (item.bind fun record => record member).bind (writeValue call.isString)
  | .element _ _ => none

/-- One call after another. -/
def writeAll : List (Option (Encode Unit)) → Option (Encode Unit)
  | [] => some (pure ())
  | first :: rest =>
      first.bind fun first =>
        (writeAll rest).map fun rest => first >>= fun _ => rest

def hidesFromWriter (counts : String → Option UInt16) (name : String) : Bool :=
  name = "writer" || name = "sendBuffer" || (counts name).isSome

/-- The writing calls of `MakeSendBuffer`. -/
def execWrite :
    (String → Option UInt16) → List WriteStatement → Option (Encode Unit)
  | _, [] => some (pure ())
  | counts, .call call :: rest =>
      (writeCall platform fields counts none call).bind fun first =>
        (execWrite counts rest).map fun rest => first >>= fun _ => rest
  | counts, .declareCount countVar list :: rest =>
      if hidesFromWriter counts countVar then none
      else
        (fields.vector (hidesFromWriter counts list) list).bind fun list =>
          execWrite (Function.update counts countVar
            (some (UInt16.ofNat list.items.length))) rest
  | counts, .loop list body :: rest =>
      (fields.vector (hidesFromWriter counts list) list).bind fun list =>
        (writeAll (list.items.flatMap fun item =>
          body.map (writeCall platform fields counts (some item)))).bind
            fun first =>
              (execWrite counts rest).map fun rest => first >>= fun _ => rest

end Writing

structure ReadFrame where
  reader : BufferReader
  fields : Fields
  counts : String → Option UInt16

/-- A part of a `Read` body: `(false, _)` is `return false`. -/
abbrev ReadCode := ReadFrame → Option (Bool × ReadFrame)

def ReadCode.andThen (first second : ReadCode) : ReadCode := fun frame =>
  match first frame with
  | some (true, next) => second next
  | stopped => stopped

def readAll : List ReadCode → ReadCode
  | [] => fun frame => some (true, frame)
  | first :: rest => first.andThen (readAll rest)

/-- `for (uint16 i = index; ...)` with `left` turns to go; `i` stays below a
`uint16` and does not wrap. -/
def readLoop (body : Nat → ReadCode) : (left index : Nat) → ReadCode
  | 0, _ => fun frame => some (true, frame)
  | left + 1, index => (body index).andThen (readLoop body left (index + 1))

/-- Read into a variable that holds `old`. -/
def readValue (isString : Bool) (old : CppValue)
    (assign : CppValue → ReadFrame → ReadFrame) : ReadCode := fun frame =>
  if isString = decide (old.1 = .stdString) then
    match old.1.read.run frame.reader with
    | (some value, reader) =>
        some (true, assign ⟨old.1, value⟩ { frame with reader := reader })
    | (none, reader) => some (false, { frame with reader := reader })
  else none

namespace ReadFrame

def hides (frame : ReadFrame) (name : String) : Bool :=
  name = "reader" || (frame.counts name).isSome

def setMember (frame : ReadFrame) (name : String) (value : CppValue) :
    ReadFrame :=
  { frame with
    fields := { frame.fields with
      members := Function.update frame.fields.members name (some value) } }

def setList (frame : ReadFrame) (name : String) (list : ListValue) :
    ReadFrame :=
  { frame with
    fields := { frame.fields with
      lists := Function.update frame.fields.lists name (some list) } }

def setCount (frame : ReadFrame) (name : String) (count : UInt16) :
    ReadFrame :=
  { frame with counts := Function.update frame.counts name (some count) }

end ReadFrame

def ListValue.resize (list : ListValue) (count : Nat) : ListValue :=
  { list with
    items := list.items.take count ++
      List.replicate (count - list.items.length)
        (defaultRecord list.declared) }

def ListValue.setItem (list : ListValue) (index : Nat) (member : String)
    (value : CppValue) : ListValue :=
  { list with
    items := list.items.modify index fun item =>
      Function.update item member (some value) }

section Reading

variable (platform : Platform)

/-- A call in the loop over `index`, or outside of the loops. -/
def readCall (index : Option Nat) (call : Call) : ReadCode := fun frame =>
  match call.operand with
  | .variable name =>
      if name = "reader" then
        if call.isString then none
        else
          match platform.overwriteReader.run frame.reader with
          | (result, reader) =>
              some (result.isSome, { frame with reader := reader })
      else
        match frame.counts name with
        | some _ =>
            if call.isString then none
            else
              match (BufferReader.read UInt16).run frame.reader with
              | (some count, reader) =>
                  some (true,
                    { frame with reader := reader }.setCount name count)
              | (none, reader) => some (false, { frame with reader := reader })
        | none =>
            match frame.fields.members name with
            | some old =>
                readValue call.isString old
                  (fun value frame => frame.setMember name value) frame
            | none => none
  | .element name member =>
      match index,
        frame.fields.vector (frame.hides name || name = "i") name with
      | some index, some list =>
          match list.items[index]?.bind (· member) with
          | some old =>
              readValue call.isString old (fun value frame =>
                frame.setList name (list.setItem index member value)) frame
          | none => none
      | _, _ => none
  | .item _ => none

def execRead : ReadStatement → ReadCode
  | .call call => readCall platform none call
  | .declareCount countVar => fun frame =>
      if frame.hides countVar then none
      else some (true, frame.setCount countVar 0)
  | .resize name countVar => fun frame =>
      match frame.fields.vector (frame.hides name) name,
        frame.counts countVar with
      | some list, some count =>
          some (true, frame.setList name (list.resize count.toNat))
      | _, _ => none
  | .loop countVar body => fun frame =>
      match frame.counts countVar with
      | some count =>
          readLoop (fun index => readAll (body.map
            (readCall platform (some index)))) count.toNat 0 frame
      | none => none

end Reading

namespace PacketStruct

/-- The members of a class have different names, and none is called like its
functions or its enumerator. -/
def Declares (struct : PacketStruct) : Prop :=
  (["header", "Read", "MakeSendBuffer", "PKT_" ++ struct.name] ++
      struct.lists.map ListDeclaration.name ++
      struct.members.map MemberDeclaration.name).Nodup ∧
    ∀ list ∈ struct.lists, (list.members.map MemberDeclaration.name).Nodup

instance (struct : PacketStruct) : Decidable struct.Declares :=
  inferInstanceAs (Decidable (_ ∧ _))

/-- `MakeSendBuffer` of an object. -/
def makeSendBuffer (struct : PacketStruct) (platform : Platform)
    (fields : Fields) (state : SendBufferState) :
    Option (Except AssertCrash (Option SendBuffer × SendBufferState)) :=
  if struct.Declares then
    (execWrite platform fields (fun _ => none) struct.writeCode).map
      fun calls => Protocol.makeSendBuffer struct.id calls state
  else none

/-- `Read` of an object: what it returns, the object and the reader then. -/
def read (struct : PacketStruct) (platform : Platform) (fields : Fields)
    (reader : BufferReader) : Option (Bool × Fields × BufferReader) :=
  if struct.Declares then
    (readAll (struct.readCode.map (execRead platform))
      { reader := reader
        fields := fields
        counts := fun _ => none }).map fun (reached, frame) =>
          (reached && frame.reader.isValid, frame.fields, frame.reader)
  else none

end PacketStruct

end IocpChat.PacketGenerator
