import IocpChat.PacketGenerator.GeneratedCode

/-!
# Objects of a generated structure

Which objects a description admits, how one is encoded, and which names keep the
local variables of the generated functions from hiding a member.  The emitted
bodies depend on the declarations alone.
-/

namespace IocpChat.PacketGenerator

open LittleEndian WireFormat BufferReader BufferWriter

namespace CppType

def format : (type : CppType) → Format UInt8 type.Value
  | bool => Wire.scalar Bool
  | int8 => Wire.scalar Int8
  | int16 => Wire.scalar Int16
  | int32 => Wire.scalar Int32
  | int64 => Wire.scalar Int64
  | uint8 => Wire.scalar UInt8
  | uint16 => Wire.scalar UInt16
  | uint32 => Wire.scalar UInt32
  | uint64 => Wire.scalar UInt64
  | float => Wire.scalar UInt32
  | double => Wire.scalar UInt64
  | stdString => Wire.string

theorem decodes (type : CppType) :
    ∃ Guard, Decodes cursor type.format Guard type.read := by
  cases type with
  | stdString => exact ⟨_, readString_decodes⟩
  | _ => exact ⟨_, read_decodes _⟩

theorem emits (type : CppType) {value : type.Value}
    (representable : type.format.Representable value) :
    Emits sink (type.write value) (type.format.tokens value) := by
  cases type with
  | stdString =>
      have emitted := writeString_emits value
      rw [narrowed_eq_tokens representable] at emitted
      exact emitted
  | _ => exact write_emits _

end CppType

/-- A value that 16 bits can count. -/
def CppValue.Counted : CppValue → Prop
  | ⟨.stdString, text⟩ => text.length ≤ 65535
  | _ => True

theorem CppValue.Counted.representable {type : CppType} {value : type.Value}
    (counted : CppValue.Counted ⟨type, value⟩) :
    type.format.Representable value := by
  cases type with
  | stdString => exact (Wire.string_representable value).mpr (by
      have short : value.length ≤ 65535 := counted
      omega)
  | _ => trivial

/-- The call for a declared member. -/
def MemberDeclaration.call (operand : String → Operand)
    (member : MemberDeclaration) : Call :=
  { isString := member.type = .stdString
    operand := operand member.name }

/-- The variables with these names are taken from `value`. -/
def overlay {Value : Type} (names : List String)
    (value record : String → Option Value) : String → Option Value :=
  fun name => if name ∈ names then value name else record name

theorem overlay_cons {Value : Type} {names : List String} {name : String}
    {value record : String → Option Value} :
    overlay (name :: names) value record =
      overlay names value (Function.update record name (value name)) := by
  funext other
  simp only [overlay, List.mem_cons, Function.update_apply]
  by_cases same : other = name
  · subst same
    simp
  · simp [same]

theorem overlay_eq {Value : Type} {names : List String}
    {value record : String → Option Value}
    (others : ∀ name, name ∉ names → record name = value name) :
    overlay names value record = value := by
  funext name
  unfold overlay
  split
  · rfl
  · rename_i other
    exact others name other

namespace Record

/-- An object has the declared members, and no others. -/
structure Holds (declared : List MemberDeclaration) (record : Record) :
    Prop where
  members : ∀ member ∈ declared, ∃ value : member.type.Value,
    record member.name = some ⟨member.type, value⟩
  others : ∀ name, name ∉ declared.map MemberDeclaration.name →
    record name = none

/-- The encoding of one member. -/
def memberTokens (record : Record) (member : MemberDeclaration) :
    List UInt8 :=
  match record member.name with
  | some value => value.1.format.tokens value.2
  | none => []

def tokens (declared : List MemberDeclaration) (record : Record) :
    List UInt8 :=
  declared.flatMap record.memberTokens

def Counted (record : Record) : Prop :=
  ∀ name value, record name = some value → CppValue.Counted value

theorem overlay_holds {declared : List MemberDeclaration}
    {value record : Record} (valueHolds : value.Holds declared)
    (holds : record.Holds declared) :
    overlay (declared.map MemberDeclaration.name) value record = value := by
  apply overlay_eq
  intro name other
  rw [holds.others name other, valueHolds.others name other]

end Record

theorem find_name {declared : List MemberDeclaration}
    (names : (declared.map MemberDeclaration.name).Nodup)
    {member : MemberDeclaration} (listed : member ∈ declared) :
    declared.find? (·.name = member.name) = some member := by
  induction declared with
  | nil => cases listed
  | cons first declared induction =>
      obtain ⟨fresh, rest⟩ := List.nodup_cons.mp names
      rcases List.mem_cons.mp listed with rfl | later
      · simp
      · have different : first.name ≠ member.name := fun same =>
          fresh (same ▸ List.mem_map_of_mem later)
        rw [List.find?_cons_of_neg (by simpa using different)]
        exact induction rest later

/-- Every declared member has its initializer. -/
theorem defaultRecord_holds {declared : List MemberDeclaration}
    (names : (declared.map MemberDeclaration.name).Nodup) :
    (defaultRecord declared).Holds declared := by
  constructor
  · intro member listed
    have found := find_name names listed
    refine ⟨member.type.default, ?_⟩
    simp only [defaultRecord, found, Option.map_some]
  · intro name absent
    simp only [defaultRecord, Option.map_eq_none_iff, List.find?_eq_none,
      decide_eq_true_eq]
    rintro member listed rfl
    exact absent (List.mem_map_of_mem listed)

/-- An object of `std::vector<...Info>`. -/
structure ListValue.Holds (declared : List MemberDeclaration)
    (list : ListValue) : Prop where
  type : list.declared = declared
  items : ∀ item ∈ list.items, item.Holds declared

structure ListValue.Counted (list : ListValue) : Prop where
  length : list.items.length ≤ 65535
  items : ∀ item ∈ list.items, Record.Counted item

theorem ListValue.Holds.eta {declared : List MemberDeclaration}
    {list : ListValue} (holds : list.Holds declared) :
    { declared := declared
      items := list.items } = list := by
  obtain ⟨_, _⟩ := list
  cases holds.type
  rfl

theorem ListValue.length_resize (list : ListValue) (count : Nat) :
    (list.resize count).items.length = count := by
  simp only [resize, List.length_append, List.length_take,
    List.length_replicate]
  omega

theorem ListValue.Holds.resize {declared : List MemberDeclaration}
    (names : (declared.map MemberDeclaration.name).Nodup) {list : ListValue}
    (holds : list.Holds declared) (count : Nat) :
    (list.resize count).Holds declared := by
  refine ⟨holds.type, ?_⟩
  intro item member
  rcases List.mem_append.mp member with kept | added
  · exact holds.items item (List.mem_of_mem_take kept)
  · rw [List.eq_of_mem_replicate added, holds.type]
    exact defaultRecord_holds names

/-- The count, then the items. -/
def ListValue.tokens (list : ListValue) : List UInt8 :=
  Scalar.bytes (UInt16.ofNat list.items.length) ++
    list.items.flatMap (Record.tokens list.declared)

theorem ListValue.Counted.toNat_count {list : ListValue}
    (counted : list.Counted) :
    (UInt16.ofNat list.items.length).toNat = list.items.length := by
  exact UInt16.toNat_ofNat_of_lt' (Nat.lt_succ_of_le counted.length)

namespace ListDeclaration

def readCode (list : ListDeclaration) : List ReadStatement :=
  [.declareCount (countVar list.name),
    .call
      { isString := false
        operand := .variable (countVar list.name) },
    .resize list.name (countVar list.name),
    .loop (countVar list.name)
      (list.members.map (MemberDeclaration.call (.element list.name)))]

def writeCode (list : ListDeclaration) : List WriteStatement :=
  [.declareCount (countVar list.name) list.name,
    .call
      { isString := false
        operand := .variable (countVar list.name) },
    .loop list.name (list.members.map (MemberDeclaration.call .item))]

end ListDeclaration

theorem countVar_ne {list name : String}
    (last : name.toList.getLast? ≠ some 't') :
    countVar list ≠ name := by
  rintro rfl
  apply last
  rw [countVar, String.toList_append, List.getLast?_append]
  rfl

theorem countVar_ne_self (list : String) : countVar list ≠ list := by
  intro same
  have lengths := congrArg String.length same
  rw [countVar, String.length_append] at lengths
  have count : "Count".length = 5 := rfl
  omega

theorem countVar_injective {left right : String}
    (same : countVar left = countVar right) : left = right := by
  have characters := congrArg String.toList same
  simp only [countVar, String.toList_append, List.append_left_inj] at characters
  exact String.toList_inj.mp characters

/-- The name of a list is its own among these local variables, and the name of
its counter is free. -/
structure ListVisible (locals : List String) (counts : String → Option UInt16)
    (list : ListDeclaration) : Prop where
  name : list.name ∉ locals
  noCount : counts list.name = none
  fresh : counts (countVar list.name) = none

/-- The counter of an earlier list hides no later list. -/
def Apart (earlier later : ListDeclaration) : Prop :=
  later.name ≠ earlier.name ∧ later.name ≠ countVar earlier.name

theorem ListVisible.later {locals : List String}
    {counts : String → Option UInt16} {earlier later : ListDeclaration}
    {count : UInt16} (visible : ListVisible locals counts later)
    (apart : Apart earlier later) :
    ListVisible locals
      (Function.update counts (countVar earlier.name) (some count)) later := by
  refine ⟨visible.name, ?_, ?_⟩
  · rw [Function.update_of_ne apart.2]
    exact visible.noCount
  · rw [Function.update_of_ne fun same => apart.1 (countVar_injective same)]
    exact visible.fresh

/-- The encoding of one list. -/
def Fields.listTokens (fields : Fields) (list : ListDeclaration) :
    List UInt8 :=
  match fields.lists list.name with
  | some value => value.tokens
  | none => []

namespace PacketStruct

/-- The bodies as the declarations determine them. -/
structure Generated (struct : PacketStruct) : Prop where
  readCode : struct.readCode =
    struct.members.map (.call ∘ MemberDeclaration.call .variable) ++
      struct.lists.flatMap ListDeclaration.readCode
  writeCode : struct.writeCode =
    struct.members.map (.call ∘ MemberDeclaration.call .variable) ++
      struct.lists.flatMap ListDeclaration.writeCode

/-- An object of the structure. -/
structure Holds (struct : PacketStruct) (fields : Fields) : Prop where
  members : fields.members.Holds struct.members
  lists : ∀ list ∈ struct.lists, ∃ value,
    fields.lists list.name = some value ∧ value.Holds list.members
  others : ∀ name, name ∉ struct.lists.map ListDeclaration.name →
    fields.lists name = none

/-- What the generated functions use is not hidden by their local variables. -/
structure Unhidden (struct : PacketStruct) : Prop where
  members : ∀ member ∈ struct.members,
    member.name ∉ ["reader", "writer", "sendBuffer"]
  lists : ∀ list ∈ struct.lists, list.name ∉ ["reader", "writer", "sendBuffer"]
  index : ∀ list ∈ struct.lists, list.members ≠ [] → list.name ≠ "i"
  counts : struct.lists.Pairwise fun earlier later =>
    later.name ≠ countVar earlier.name

/-- The encoding of an object, behind the header. -/
def tokens (struct : PacketStruct) (fields : Fields) : List UInt8 :=
  fields.members.tokens struct.members ++
    struct.lists.flatMap fields.listTokens

end PacketStruct

/-- The strings and lists of an object have at most 65535 elements. -/
structure Fields.Counted (fields : Fields) : Prop where
  members : Record.Counted fields.members
  lists : ∀ name list, fields.lists name = some list → list.Counted

namespace PacketStruct

variable {struct : PacketStruct}

theorem apart (declares : struct.Declares) (unhidden : struct.Unhidden) :
    struct.lists.Pairwise Apart := by
  have names := declares.1
  rw [List.nodup_append] at names
  have names := (List.nodup_append.mp names.1).2.1
  have different := List.pairwise_map.mp names
  exact (different.and unhidden.counts).imp fun ⟨name, count⟩ =>
    ⟨Ne.symm name, count⟩

end PacketStruct

/-- What is emitted for described members depends on their declarations. -/
theorem map_of_mapM {Info Declaration Code : Type}
    {declare : Info → Option Declaration} {infos : List Info}
    {declared : List Declaration}
    (declares : infos.mapM declare = some declared)
    {emit : Info → Code} {emitDeclared : Declaration → Code}
    (same : ∀ info declaration, declare info = some declaration →
      emit info = emitDeclared declaration) :
    infos.map emit = declared.map emitDeclared := by
  induction infos generalizing declared with
  | nil =>
      cases declares
      rfl
  | cons info infos induction =>
      simp only [List.mapM_cons, Option.bind_eq_bind, Option.bind_eq_some_iff,
        Option.pure_def, Option.some.injEq] at declares
      obtain ⟨first, own, rest, others, rfl⟩ := declares
      rw [List.map_cons, List.map_cons, same info first own,
        induction others]

theorem typeMapping_string {key : String} {type : CppType}
    (mapped : typeMapping key = some type) :
    key = "string" ↔ type = .stdString := by
  constructor
  · rintro rfl
    exact (Option.some.inj mapped).symm
  · rintro rfl
    revert mapped
    unfold typeMapping
    split <;> simp

theorem MemberInfo.call_eq {operand : String → Operand} {info : MemberInfo}
    {member : MemberDeclaration} (declares : info.declare = some member) :
    info.call operand = member.call operand := by
  obtain ⟨type, mapped, rfl⟩ := Option.map_eq_some_iff.mp declares
  simp only [MemberInfo.call, MemberDeclaration.call,
    typeMapping_string mapped]

theorem generatePacketStruct_generated {pkt : PacketInfo}
    {struct : PacketStruct}
    (generates : generatePacketStruct pkt = some struct) :
    struct.Generated := by
  simp only [generatePacketStruct, Option.bind_eq_bind,
    Option.bind_eq_some_iff, Option.pure_def, Option.some.injEq] at generates
  obtain ⟨lists, declaresLists, members, declaresMembers, rfl⟩ := generates
  have calls {Statement : Type} (statement : Call → Statement) :
      pkt.members.map (statement ∘ MemberInfo.call .variable) =
        members.map (statement ∘ MemberDeclaration.call .variable) :=
    map_of_mapM declaresMembers fun _ _ declares =>
      congrArg statement (MemberInfo.call_eq declares)
  have items : ∀ {info : ListInfo} {list : ListDeclaration},
      info.declare = some list → info.name = list.name ∧
        ∀ operand, info.members.map (MemberInfo.call operand) =
          list.members.map (MemberDeclaration.call operand) := by
    intro info list declares
    obtain ⟨declared, declaresItems, rfl⟩ := Option.map_eq_some_iff.mp declares
    exact ⟨rfl, fun _ => map_of_mapM declaresItems fun _ _ declares =>
      MemberInfo.call_eq declares⟩
  constructor
  · dsimp only
    rw [calls, List.flatMap_def, List.flatMap_def]
    congr 2
    apply map_of_mapM declaresLists
    intro info list declares
    obtain ⟨name, body⟩ := items declares
    rw [ListInfo.readCode, ListDeclaration.readCode, name, body]
  · dsimp only
    rw [calls, List.flatMap_def, List.flatMap_def]
    congr 2
    apply map_of_mapM declaresLists
    intro info list declares
    obtain ⟨name, body⟩ := items declares
    rw [ListInfo.writeCode, ListDeclaration.writeCode, name, body]

end IocpChat.PacketGenerator
