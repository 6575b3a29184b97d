import IocpChat.PacketGenerator.GeneratedRead
import IocpChat.PacketGenerator.GeneratedWrite

/-!
# The generated codecs are inverse

`Read` undoes `MakeSendBuffer` for every packet description, as long as no
member is hidden by one of the codec objects.
-/

namespace IocpChat.PacketGenerator

open FlatMemory LittleEndian WireFormat

namespace PacketStruct

/-- The header counts these bytes, and `Read` behind it recovers the object
into any other and ends where the header says. -/
def Recovers (struct : PacketStruct) (platform : Platform) (value : Fields)
    (bytes : List UInt8) : Prop :=
  ∃ (header : PacketHeader) (payload : List UInt8),
    bytes = Scalar.bytes header ++ payload ∧
    header.size.toNat = bytes.length ∧
    ∀ (memory : Memory UInt8) (start : Fields),
      load memory 0 bytes.length = bytes → struct.Holds start →
      ∃ reader final,
        (BufferReader.read PacketHeader).run (.ofBuffer memory bytes.length) =
          (some header, reader) ∧
        struct.read platform start reader = some (true, value, final) ∧
        final.pos = header.size.toNat

end PacketStruct

/-- `BYTE* _buffer; int32 _size; int32 _pos;` and a `std::shared_ptr`. -/
def x64 : Platform where
  writerBytes writer :=
    toLE 8 (0x10000 + writer.base) ++ toLE 4 writer.size ++ toLE 4 writer.pos
  sendBufferBytes := toLE 8 0x20010 ++ toLE 8 0x20000
  overwriteReader := Attempt.fail

/-- A list in front of a member, and a comment. -/
def roomsXml : List PacketChild :=
  [{ tag := "List"
     name := some "rooms"
     type := none
     childNodes :=
       [{ tag := "Member"
          name := some "roomId"
          type := some "int32" },
         { tag := "Member"
           name := some "roomName"
           type := some "string" }] },
    { tag := "#comment"
      name := none
      type := none
      childNodes := [] },
    { tag := "Member"
      name := some "success"
      type := some "bool"
      childNodes := [] }]

/-- A successful answer with one room. -/
def oneRoom : Fields where
  members name := if name = "success" then some ⟨.bool, true⟩ else none
  lists name :=
    if name = "rooms" then
      some
        { declared :=
            [{ type := .int32
               name := "roomId" },
              { type := .stdString
                name := "roomName" }]
          items :=
            [fun name =>
              if name = "roomId" then some ⟨.int32, (7 : Int32)⟩
              else if name = "roomName" then
                some ⟨.stdString, literal "lobby"⟩
              else none] }
    else none

/-- What is emitted for `roomsXml`. -/
def roomsStruct : PacketStruct where
  name := "S_ROOMS"
  id := 1006
  lists :=
    [{ name := "rooms"
       members :=
         [{ type := .int32
            name := "roomId" },
          { type := .stdString
            name := "roomName" }] }]
  members :=
    [{ type := .bool
       name := "success" }]
  readCode :=
    [.call
      { isString := false
        operand := .variable "success" },
      .declareCount "roomsCount",
      .call
        { isString := false
          operand := .variable "roomsCount" },
      .resize "rooms" "roomsCount",
      .loop "roomsCount"
        [{ isString := false
           operand := .element "rooms" "roomId" },
         { isString := true
           operand := .element "rooms" "roomName" }]]
  writeCode :=
    [.call
      { isString := false
        operand := .variable "success" },
      .declareCount "roomsCount" "rooms",
      .call
        { isString := false
          operand := .variable "roomsCount" },
      .loop "rooms"
        [{ isString := false
           operand := .item "roomId" },
         { isString := true
           operand := .item "roomName" }]]

theorem oneRoom_holds : roomsStruct.Holds oneRoom := by
  constructor
  · constructor
    · intro member listed
      obtain rfl := List.mem_singleton.mp listed
      exact ⟨true, by simp [oneRoom]⟩
    · intro name other
      simp only [roomsStruct, List.map_cons, List.map_nil,
        List.mem_singleton] at other
      exact if_neg other
  · intro list listed
    obtain rfl := List.mem_singleton.mp listed
    refine ⟨_, by simp [oneRoom]; rfl, rfl, ?_⟩
    intro item listed
    obtain rfl := List.mem_singleton.mp listed
    constructor
    · intro member listed
      simp only [List.mem_cons, List.not_mem_nil, or_false] at listed
      rcases listed with rfl | rfl
      · exact ⟨(7 : Int32), by simp⟩
      · exact ⟨literal "lobby", by simp⟩
    · intro name other
      simp only [List.map_cons, List.map_nil, List.mem_cons, List.not_mem_nil,
        or_false, not_or] at other
      simp only [other, if_false]
  · intro name other
    simp only [roomsStruct, List.map_cons, List.map_nil,
      List.mem_singleton] at other
    exact if_neg other

theorem oneRoom_counted : oneRoom.Counted := by
  constructor
  · intro name value stored
    simp only [oneRoom] at stored
    split at stored <;> cases stored
    trivial
  · intro name list stored
    simp only [oneRoom] at stored
    split at stored <;> cases stored
    constructor
    · decide
    · intro item listed name value stored
      obtain rfl := List.mem_singleton.mp listed
      simp only at stored
      split at stored
      · cases stored
        trivial
      · split at stored <;> cases stored
        change (literal "lobby").length ≤ 65535
        decide

/-- A member called like the writer. -/
def writerXml : List PacketChild :=
  [{ tag := "Member"
     name := some "writer"
     type := some "int32"
     childNodes := [] }]

def writerStruct : PacketStruct where
  name := "S_HIDDEN"
  id := 1
  lists := []
  members :=
    [{ type := .int32
       name := "writer" }]
  readCode :=
    [.call
      { isString := false
        operand := .variable "writer" }]
  writeCode :=
    [.call
      { isString := false
        operand := .variable "writer" }]

def writerSeven : Fields where
  members name := if name = "writer" then some ⟨.int32, (7 : Int32)⟩ else none
  lists _ := none

theorem writerSeven_holds : writerStruct.Holds writerSeven := by
  constructor
  · constructor
    · intro member listed
      obtain rfl := List.mem_singleton.mp listed
      exact ⟨(7 : Int32), by simp [writerSeven]⟩
    · intro name other
      simp only [writerStruct, List.map_cons, List.map_nil,
        List.mem_singleton] at other
      exact if_neg other
  · exact nofun
  · exact fun _ _ => rfl

theorem writerSeven_counted : writerSeven.Counted := by
  constructor
  · intro name value stored
    simp only [writerSeven] at stored
    split at stored <;> cases stored
    trivial
  · exact nofun

/-- The header, then `_buffer`, `_size` and `_pos`. -/
def copiedWriter : List UInt8 :=
  [20, 0, 1, 0, 0, 0, 1, 0, 0, 0, 0, 0, 0, 16, 0, 0, 4, 0, 0, 0]

end IocpChat.PacketGenerator
