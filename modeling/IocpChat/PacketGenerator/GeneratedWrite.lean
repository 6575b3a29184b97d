import IocpChat.PacketGenerator.GeneratedFormat

/-!
# The generated MakeSendBuffer

The writing calls compile, and write the encoding of the object.
-/

namespace IocpChat.PacketGenerator

open LittleEndian WireFormat BufferWriter

/-- The code compiles, and writes `output`. -/
def Writes (code : Option (Encode Unit)) (output : List UInt8) : Prop :=
  ∃ encoder, code = some encoder ∧ Emits sink encoder output

namespace Writes

theorem nothing : Writes (some (pure ())) [] :=
  ⟨_, rfl, Emits.nothing⟩

theorem andThen {first rest : Option (Encode Unit)} {left right : List UInt8}
    (firstWrites : Writes first left) (restWrites : Writes rest right) :
    Writes
      (first.bind fun first =>
        rest.map fun rest => first >>= fun _ => rest)
      (left ++ right) := by
  obtain ⟨encoder, rfl, emits⟩ := firstWrites
  obtain ⟨other, rfl, otherEmits⟩ := restWrites
  exact ⟨_, rfl, emits.append otherEmits⟩

theorem value {type : CppType} {value : type.Value}
    (counted : CppValue.Counted ⟨type, value⟩) :
    Writes (writeValue (decide (type = .stdString)) ⟨type, value⟩)
      (type.format.tokens value) := by
  unfold writeValue
  rw [if_pos rfl]
  exact ⟨_, rfl, type.emits counted.representable⟩

end Writes

section Writing

variable {platform : Platform} {fields : Fields}

theorem members_write {counts : String → Option UInt16}
    {declared : List MemberDeclaration}
    (visible : ∀ member ∈ declared,
      member.name ∉ ["reader", "writer", "sendBuffer"])
    (noCount : ∀ member ∈ declared, counts member.name = none)
    (typed : ∀ member ∈ declared, ∃ value : member.type.Value,
      fields.members member.name = some ⟨member.type, value⟩)
    (counted : Record.Counted fields.members)
    {rest : List WriteStatement} {output : List UInt8}
    (restWrites : Writes (execWrite platform fields counts rest) output) :
    Writes
      (execWrite platform fields counts
        (declared.map (.call ∘ MemberDeclaration.call .variable) ++ rest))
      (fields.members.tokens declared ++ output) := by
  induction declared with
  | nil => exact restWrites
  | cons member declared induction =>
      obtain ⟨ownVisible, restVisible⟩ := List.forall_mem_cons.mp visible
      obtain ⟨ownCount, restCount⟩ := List.forall_mem_cons.mp noCount
      obtain ⟨⟨value, stored⟩, restTyped⟩ := List.forall_mem_cons.mp typed
      have own : Writes (writeCall platform fields counts none
          (member.call .variable)) (member.type.format.tokens value) := by
        have written := Writes.value (counted _ _ stored)
        simp only [List.mem_cons, List.not_mem_nil, or_false, not_or]
          at ownVisible
        simpa only [writeCall, MemberDeclaration.call, ownVisible, ownCount,
          stored, if_false, Option.bind_some] using written
      have tokens : Record.tokens (member :: declared) fields.members =
          member.type.format.tokens value ++
            Record.tokens declared fields.members := by
        simp only [Record.tokens, List.flatMap_cons, Record.memberTokens,
          stored]
      rw [tokens, List.append_assoc]
      exact own.andThen (induction restVisible restCount restTyped)

/-- The turn of the loop for one item, then the others. -/
theorem item_writes {counts : String → Option UInt16} {item : Record}
    {declared : List MemberDeclaration}
    (typed : ∀ member ∈ declared, ∃ value : member.type.Value,
      item member.name = some ⟨member.type, value⟩)
    (counted : item.Counted) {rest : List (Option (Encode Unit))}
    {output : List UInt8} (restWrites : Writes (writeAll rest) output) :
    Writes
      (writeAll (declared.map (fun member =>
        writeCall platform fields counts (some item)
          (member.call .item)) ++ rest))
      (item.tokens declared ++ output) := by
  induction declared with
  | nil => exact restWrites
  | cons member declared induction =>
      obtain ⟨⟨value, stored⟩, restTyped⟩ := List.forall_mem_cons.mp typed
      have own : Writes (writeCall platform fields counts (some item)
          (member.call .item)) (member.type.format.tokens value) := by
        have written := Writes.value (counted _ _ stored)
        simpa only [writeCall, MemberDeclaration.call, stored,
          Option.bind_some] using written
      have tokens : Record.tokens (member :: declared) item =
          member.type.format.tokens value ++ Record.tokens declared item := by
        simp only [Record.tokens, List.flatMap_cons, Record.memberTokens,
          stored]
      rw [tokens, List.append_assoc]
      exact own.andThen (induction restTyped)

theorem items_write {counts : String → Option UInt16}
    {declared : List MemberDeclaration} {items : List Record}
    (holds : ∀ item ∈ items, item.Holds declared)
    (counted : ∀ item ∈ items, Record.Counted item) :
    Writes
      (writeAll (items.flatMap fun item => declared.map fun member =>
        writeCall platform fields counts (some item) (member.call .item)))
      (items.flatMap (Record.tokens declared)) := by
  induction items with
  | nil => exact Writes.nothing
  | cons item items induction =>
      obtain ⟨ownHolds, restHolds⟩ := List.forall_mem_cons.mp holds
      obtain ⟨ownCounted, restCounted⟩ := List.forall_mem_cons.mp counted
      rw [List.flatMap_cons, List.flatMap_cons]
      apply item_writes ownHolds.members ownCounted
      exact induction restHolds restCounted

theorem list_writes {counts : String → Option UInt16} {list : ListDeclaration}
    (visible : ListVisible ["writer", "sendBuffer"] counts list)
    {value : ListValue} (stored : fields.lists list.name = some value)
    (holds : value.Holds list.members) (counted : value.Counted)
    {rest : List WriteStatement} {output : List UInt8}
    (restWrites : Writes
      (execWrite platform fields (Function.update counts (countVar list.name)
        (some (UInt16.ofNat value.items.length))) rest) output) :
    Writes (execWrite platform fields counts (list.writeCode ++ rest))
      (value.tokens ++ output) := by
  have notWriter : countVar list.name ≠ "writer" := countVar_ne (by decide)
  have notBuffer : countVar list.name ≠ "sendBuffer" := countVar_ne (by decide)
  have notSelf : list.name ≠ countVar list.name :=
    (countVar_ne_self list.name).symm
  obtain ⟨isWriter, isBuffer⟩ :
      list.name ≠ "writer" ∧ list.name ≠ "sendBuffer" := by
    simpa using visible.name
  let counts' := Function.update counts (countVar list.name)
    (some (UInt16.ofNat value.items.length))
  have count : Writes (writeCall platform fields counts' none
      { isString := false
        operand := .variable (countVar list.name) })
      (Scalar.bytes (UInt16.ofNat value.items.length)) := by
    refine ⟨BufferWriter.write (UInt16.ofNat value.items.length), ?_,
      write_emits _⟩
    simp only [writeCall, notWriter, notBuffer, if_false, counts',
      Function.update_self]
    rfl
  have items := @items_write platform fields counts' list.members value.items
    holds.items counted.items
  have whole := count.andThen (items.andThen restWrites)
  have code : execWrite platform fields counts (list.writeCode ++ rest) =
      (writeCall platform fields counts' none
        { isString := false
          operand := .variable (countVar list.name) }).bind fun first =>
        ((writeAll (value.items.flatMap fun item => list.members.map
          fun member => writeCall platform fields counts' (some item)
            (member.call .item))).bind fun first =>
              (execWrite platform fields counts' rest).map fun rest =>
                first >>= fun _ => rest).map fun rest =>
                  first >>= fun _ => rest := by
    simp [ListDeclaration.writeCode, execWrite, hidesFromWriter,
      Fields.vector, notWriter, notBuffer, visible.fresh, visible.noCount,
      isWriter, isBuffer, stored, notSelf, counts', Function.comp_def]
  rw [code, ListValue.tokens, holds.type, List.append_assoc]
  exact whole

theorem lists_write {counts : String → Option UInt16}
    {lists : List ListDeclaration}
    (visible : ∀ list ∈ lists,
      ListVisible ["writer", "sendBuffer"] counts list)
    (apart : lists.Pairwise Apart)
    (typed : ∀ list ∈ lists, ∃ value, fields.lists list.name = some value ∧
      value.Holds list.members ∧ value.Counted) :
    Writes (execWrite platform fields counts
        (lists.flatMap ListDeclaration.writeCode))
      (lists.flatMap fields.listTokens) := by
  induction lists generalizing counts with
  | nil => exact Writes.nothing
  | cons list lists induction =>
      obtain ⟨ownVisible, restVisible⟩ := List.forall_mem_cons.mp visible
      obtain ⟨ownApart, restApart⟩ := List.pairwise_cons.mp apart
      obtain ⟨⟨value, stored, holds, counted⟩, restTyped⟩ :=
        List.forall_mem_cons.mp typed
      have tokens : (list :: lists).flatMap fields.listTokens =
          value.tokens ++ lists.flatMap fields.listTokens := by
        simp only [List.flatMap_cons, Fields.listTokens, stored]
      rw [tokens, List.flatMap_cons]
      apply list_writes ownVisible stored holds counted
      exact induction
        (fun later listed =>
          (restVisible later listed).later (ownApart later listed))
        restApart restTyped

end Writing

namespace PacketStruct

variable {struct : PacketStruct}

theorem fields_write {platform : Platform} (generated : struct.Generated)
    (declares : struct.Declares) (unhidden : struct.Unhidden)
    {value : Fields} (holds : struct.Holds value) (counted : value.Counted) :
    Writes (execWrite platform value (fun _ => none) struct.writeCode)
      (struct.tokens value) := by
  rw [generated.writeCode]
  apply members_write unhidden.members (fun _ _ => rfl) holds.members.members
    counted.members
  apply lists_write
  · intro list listed
    refine ⟨?_, rfl, rfl⟩
    have visible := unhidden.lists list listed
    simp only [List.mem_cons, List.not_mem_nil, or_false, not_or] at visible ⊢
    exact visible.2
  · exact apart declares unhidden
  · intro list listed
    obtain ⟨new, stored, newHolds⟩ := holds.lists list listed
    exact ⟨new, stored, newHolds, counted.lists _ _ stored⟩

end PacketStruct

end IocpChat.PacketGenerator
