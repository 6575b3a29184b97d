import IocpChat.PacketGenerator.GeneratedFormat
import IocpChat.Protocol.RoundTrip

/-!
# The generated Read

At the encoding of an object, `Read` turns any object of the structure into that
one: call by call for the plain members, turn by turn for the lists, and member
by member inside of a turn.
-/

namespace IocpChat.PacketGenerator

open LittleEndian WireFormat BufferReader

theorem readAll_append (first second : List ReadCode) :
    readAll (first ++ second) = (readAll first).andThen (readAll second) := by
  induction first with
  | nil => rfl
  | cons code first induction =>
      funext frame
      rw [List.cons_append, readAll, readAll, induction]
      simp only [ReadCode.andThen]
      rcases code frame with _ | ⟨_ | _, next⟩ <;> rfl

/-- The frame, but for its reader. -/
def ReadFrame.of (fields : Fields) (counts : String → Option UInt16)
    (reader : BufferReader) : ReadFrame :=
  { reader := reader
    fields := fields
    counts := counts }

/-- The code reads `output`, whatever follows it, and goes on. -/
def Reads (code : ReadCode) (output : List UInt8)
    (before after : BufferReader → ReadFrame) : Prop :=
  ∀ reader rest, cursor.Ready reader → reader.remaining = output ++ rest →
    ∃ next, code (before reader) = some (true, after next) ∧
      cursor.Ready next ∧ next.remaining = rest ∧ next.size = reader.size

namespace Reads

theorem nothing {before : BufferReader → ReadFrame} :
    Reads (readAll []) [] before before := by
  intro reader rest ready remaining
  exact ⟨reader, rfl, ready, remaining, rfl⟩

theorem andThen {first second : ReadCode} {left right : List UInt8}
    {before middle after : BufferReader → ReadFrame}
    (firstReads : Reads first left before middle)
    (secondReads : Reads second right middle after) :
    Reads (first.andThen second) (left ++ right) before after := by
  intro reader rest ready remaining
  rw [List.append_assoc] at remaining
  obtain ⟨next, firstRun, nextReady, nextRemaining, nextSize⟩ :=
    firstReads reader _ ready remaining
  obtain ⟨final, secondRun, finalReady, finalRemaining, finalSize⟩ :=
    secondReads next _ nextReady nextRemaining
  refine ⟨final, ?_, finalReady, finalRemaining, finalSize.trans nextSize⟩
  simp only [ReadCode.andThen, firstRun, secondRun]

theorem append {first second : List ReadCode} {left right : List UInt8}
    {before middle after : BufferReader → ReadFrame}
    (firstReads : Reads (readAll first) left before middle)
    (secondReads : Reads (readAll second) right middle after) :
    Reads (readAll (first ++ second)) (left ++ right) before after := by
  rw [readAll_append]
  exact firstReads.andThen secondReads

/-- Code that does not read. -/
theorem silent {code : ReadCode} {before after : BufferReader → ReadFrame}
    (runs : ∀ reader, code (before reader) = some (true, after reader)) :
    Reads code [] before after := by
  intro reader rest ready remaining
  exact ⟨reader, runs reader, ready, remaining, rfl⟩

theorem congr {code other : ReadCode} {output : List UInt8}
    {before after : BufferReader → ReadFrame}
    (reads : Reads other output before after)
    (same : ∀ reader, code (before reader) = other (before reader)) :
    Reads code output before after := by
  intro reader rest ready remaining
  rw [same]
  exact reads reader rest ready remaining

end Reads

/-- Reading into a variable of the right type. -/
theorem readValue_reads {type : CppType} {old new : type.Value}
    {assign : CppValue → ReadFrame → ReadFrame}
    {before : BufferReader → ReadFrame}
    (reader_eq : ∀ reader, (before reader).reader = reader)
    (with_eq : ∀ reader next,
      { before reader with reader := next } = before next)
    (representable : type.format.Representable new) :
    Reads (readValue (decide (type = .stdString)) ⟨type, old⟩ assign)
      (type.format.tokens new) before
      fun reader => assign ⟨type, new⟩ (before reader) := by
  intro reader rest ready remaining
  obtain ⟨Guard, decodes⟩ := type.decodes
  obtain ⟨next, runs, nextRemaining⟩ :=
    decodes.recovers ready ⟨representable, remaining⟩
  have frame := decodes.frame ready
  rw [runs] at frame
  refine ⟨next, ?_, decodes.ready ready runs, nextRemaining, frame.size⟩
  simp only [readValue, reader_eq, runs, with_eq, if_true]

/-- A member that a call names is assigned, and with it the view of the
object. -/
def Assigns (platform : Platform) (index : Option Nat)
    (operand : String → Operand) (value : Record)
    (view : Record → BufferReader → ReadFrame) (member : MemberDeclaration) :
    Prop :=
  ∀ (record : Record) (old new : member.type.Value),
    record member.name = some ⟨member.type, old⟩ →
    value member.name = some ⟨member.type, new⟩ →
    Reads (readCall platform index (member.call operand))
      (member.type.format.tokens new) (view record)
      (view (Function.update record member.name (some ⟨member.type, new⟩)))

/-- The calls for all members, one after another. -/
theorem members_read {platform : Platform} {index : Option Nat}
    {operand : String → Operand} {value : Record}
    {view : Record → BufferReader → ReadFrame}
    {declared : List MemberDeclaration}
    (assigns : ∀ member ∈ declared,
      Assigns platform index operand value view member)
    {record : Record}
    (typed : ∀ member ∈ declared, ∃ old : member.type.Value,
      record member.name = some ⟨member.type, old⟩)
    (holds : ∀ member ∈ declared, ∃ new : member.type.Value,
      value member.name = some ⟨member.type, new⟩) :
    Reads (readAll (declared.map fun member =>
        readCall platform index (member.call operand)))
      (value.tokens declared) (view record)
      (view (overlay (declared.map MemberDeclaration.name) value record)) := by
  induction declared generalizing record with
  | nil => exact Reads.nothing
  | cons member declared induction =>
      obtain ⟨own, others⟩ := List.forall_mem_cons.mp assigns
      obtain ⟨⟨old, before⟩, oldTyped⟩ := List.forall_mem_cons.mp typed
      obtain ⟨⟨new, after⟩, newTyped⟩ := List.forall_mem_cons.mp holds
      have first := own record old new before after
      have rest := @induction others
        (Function.update record member.name (some ⟨member.type, new⟩))
        (by
          intro other member'
          rw [Function.update_apply]
          split
          · rename_i same
            rw [← after, ← same]
            exact newTyped other member'
          · exact oldTyped other member') newTyped
      have tokens : value.tokens (member :: declared) =
          member.type.format.tokens new ++ value.tokens declared := by
        simp only [Record.tokens, List.flatMap_cons, Record.memberTokens, after]
      rw [tokens, List.map_cons, List.map_cons, overlay_cons, after]
      exact first.andThen rest

/-- A member of the packet, outside of the loops. -/
theorem variable_assigns {platform : Platform} {value : Record}
    {fields : Fields} {counts : String → Option UInt16}
    {member : MemberDeclaration} (visible : member.name ≠ "reader")
    (noCount : counts member.name = none) (counted : value.Counted) :
    Assigns platform none .variable value
      (fun record => .of { fields with members := record } counts) member := by
  intro record old new before after
  have assigned := @readValue_reads member.type old new
    (fun value frame => frame.setMember member.name value)
    (.of { fields with members := record } counts)
    (fun _ => rfl) (fun _ _ => rfl) (counted _ _ after).representable
  apply assigned.congr
  intro reader
  simp only [readCall, MemberDeclaration.call, ReadFrame.of, if_neg visible,
    noCount, before]

/-- The view of the object while a list is `value`. -/
def listView (fields : Fields) (counts : String → Option UInt16)
    (list : String) (value : ListValue) : BufferReader → ReadFrame :=
  .of { fields with lists := Function.update fields.lists list (some value) }
    counts

theorem modify_middle {Item : Type} (done pending : List Item) (item : Item)
    (change : Item → Item) :
    (done ++ item :: pending).modify done.length change =
      done ++ change item :: pending := by
  induction done with
  | nil => rfl
  | cons first done induction =>
      rw [List.cons_append, List.length_cons, List.modify_succ_cons, induction,
        List.cons_append]

/-- A member of the item that the loop has come to. -/
theorem element_assigns {platform : Platform} {value : Record}
    {fields : Fields} {counts : String → Option UInt16} {list : String}
    {declared : List MemberDeclaration} {member : MemberDeclaration}
    {done pending : List Record}
    (visible : list ≠ "reader" ∧ list ≠ "i" ∧ counts list = none)
    (counted : value.Counted) :
    Assigns platform (some done.length) (.element list) value
      (fun record => listView fields counts list
        { declared := declared
          items := done ++ record :: pending }) member := by
  intro record old new before after
  let current : ListValue :=
    { declared := declared
      items := done ++ record :: pending }
  have assigned := @readValue_reads member.type old new
    (fun value frame =>
      frame.setList list (current.setItem done.length member.name value))
    (listView fields counts list current)
    (fun _ => rfl) (fun _ _ => rfl) (counted _ _ after).representable
  have stored : ∀ reader,
      (listView fields counts list current reader).setList list
        (current.setItem done.length member.name ⟨member.type, new⟩) =
      listView fields counts list
        { declared := declared
          items := done ++ Function.update record member.name
            (some ⟨member.type, new⟩) :: pending } reader := by
    intro reader
    simp only [ReadFrame.setList, listView, ReadFrame.of, Function.update_idem,
      ListValue.setItem, current, modify_middle]
  simp only [stored] at assigned
  apply assigned.congr
  intro reader
  obtain ⟨notReader, notIndex, noCount⟩ := visible
  simp [readCall, MemberDeclaration.call, Fields.vector, ReadFrame.hides,
    listView, ReadFrame.of, notReader, notIndex, noCount, before, current]

/-- The turns of the loop from an item on. -/
theorem loop_reads {platform : Platform} {fields : Fields}
    {counts : String → Option UInt16} {list : String}
    {declared : List MemberDeclaration}
    (visible : declared ≠ [] →
      list ≠ "reader" ∧ list ≠ "i" ∧ counts list = none)
    {todo : List Record} (holds : ∀ item ∈ todo, item.Holds declared)
    (counted : ∀ item ∈ todo, Record.Counted item)
    {done pending : List Record} (same : pending.length = todo.length)
    (oldHolds : ∀ item ∈ pending, item.Holds declared) :
    Reads
      (readLoop (fun index => readAll (declared.map fun member =>
          readCall platform (some index) (member.call (.element list))))
        todo.length done.length)
      (todo.flatMap (Record.tokens declared))
      (listView fields counts list
        { declared := declared
          items := done ++ pending })
      (listView fields counts list
        { declared := declared
          items := done ++ todo }) := by
  induction todo generalizing done pending with
  | nil =>
      obtain rfl := List.length_eq_zero_iff.mp same
      exact Reads.nothing
  | cons item todo induction =>
      cases pending with
      | nil => cases same
      | cons old pending =>
          obtain ⟨itemHolds, restHolds⟩ := List.forall_mem_cons.mp holds
          obtain ⟨itemCounted, restCounted⟩ := List.forall_mem_cons.mp counted
          obtain ⟨ownHolds, pendingHolds⟩ := List.forall_mem_cons.mp oldHolds
          have own := @members_read platform (some done.length)
            (.element list) item
            (fun record => listView fields counts list
              { declared := declared
                items := done ++ record :: pending }) declared
            (fun member listed =>
              element_assigns (visible (List.ne_nil_of_mem listed))
                itemCounted)
            old ownHolds.members itemHolds.members
          rw [Record.overlay_holds itemHolds ownHolds] at own
          have rest := @induction restHolds restCounted (done ++ [item]) pending
            (Nat.succ.inj same) pendingHolds
          rw [List.length_append, List.append_assoc, List.append_assoc] at rest
          exact own.andThen rest

theorem list_reads {platform : Platform} {fields : Fields}
    {counts : String → Option UInt16} {list : ListDeclaration}
    (visible : ListVisible ["reader"] counts list)
    (index : list.members ≠ [] → list.name ≠ "i")
    (names : (list.members.map MemberDeclaration.name).Nodup)
    {old new : ListValue} (current : fields.lists list.name = some old)
    (oldHolds : old.Holds list.members) (holds : new.Holds list.members)
    (counted : new.Counted) :
    Reads (readAll (list.readCode.map (execRead platform))) new.tokens
      (.of fields counts)
      (listView fields (Function.update counts (countVar list.name)
        (some (UInt16.ofNat new.items.length))) list.name new) := by
  let count := UInt16.ofNat new.items.length
  have total : count.toNat = new.items.length := counted.toNat_count
  have notReader : countVar list.name ≠ "reader" := countVar_ne (by decide)
  have notSelf : list.name ≠ countVar list.name :=
    (countVar_ne_self list.name).symm
  have visibleName : list.name ≠ "reader" := by simpa using visible.name
  let countsAt (value : UInt16) :=
    Function.update counts (countVar list.name) (some value)
  have declares :
      Reads (execRead platform (.declareCount (countVar list.name))) []
        (.of fields counts) (.of fields (countsAt 0)) := by
    apply Reads.silent
    intro reader
    simp [execRead, ReadFrame.hides, ReadFrame.setCount, ReadFrame.of,
      notReader, visible.fresh, countsAt]
  have readsCount : Reads (execRead platform (.call
        { isString := false
          operand := .variable (countVar list.name) }))
      (Scalar.bytes count) (.of fields (countsAt 0))
      (.of fields (countsAt count)) := by
    intro reader rest ready remaining
    obtain ⟨next, runs, nextRemaining⟩ :=
      readUInt16_decodes.recovers ready ⟨trivial, remaining⟩
    have frame := readUInt16_decodes.frame ready
    rw [runs] at frame
    refine ⟨next, ?_, readUInt16_decodes.ready ready runs, nextRemaining,
      frame.size⟩
    simp [execRead, readCall, ReadFrame.of, notReader, countsAt, runs,
      ReadFrame.setCount]
  have resizes :
      Reads (execRead platform (.resize list.name (countVar list.name))) []
        (.of fields (countsAt count))
        (listView fields (countsAt count) list.name
          (old.resize count.toNat)) := by
    apply Reads.silent
    intro reader
    simp [execRead, Fields.vector, ReadFrame.hides, ReadFrame.of, listView,
      ReadFrame.setList, visibleName, visible.noCount, notSelf, countsAt,
      current]
  have loops : Reads (execRead platform (.loop (countVar list.name)
        (list.members.map (MemberDeclaration.call (.element list.name)))))
      (new.items.flatMap (Record.tokens list.members))
      (listView fields (countsAt count) list.name (old.resize count.toNat))
      (listView fields (countsAt count) list.name new) := by
    have resized := oldHolds.resize names count.toNat
    have length : (old.resize count.toNat).items.length =
        new.items.length := (old.length_resize count.toNat).trans total
    have turns := @loop_reads platform fields (countsAt count) list.name
      list.members
      (fun nonempty => ⟨visibleName, index nonempty, by
        simp [countsAt, notSelf, visible.noCount]⟩)
      new.items holds.items counted.items [] _ length resized.items
    rw [List.nil_append, List.nil_append, resized.eta, holds.eta] at turns
    apply turns.congr
    intro reader
    simp only [execRead, listView, ReadFrame.of, countsAt,
      Function.update_self, total, List.length_nil, List.map_map,
      Function.comp_def]
  have whole := declares.andThen (readsCount.andThen (resizes.andThen
    (loops.andThen Reads.nothing)))
  simp only [List.nil_append, List.append_nil] at whole
  rw [ListValue.tokens, holds.type]
  exact whole

theorem lists_read {platform : Platform} {value fields : Fields}
    {counts : String → Option UInt16} {lists : List ListDeclaration}
    (visible : ∀ list ∈ lists, ListVisible ["reader"] counts list)
    (index : ∀ list ∈ lists, list.members ≠ [] → list.name ≠ "i")
    (apart : lists.Pairwise Apart)
    (names : ∀ list ∈ lists,
      (list.members.map MemberDeclaration.name).Nodup)
    (typed : ∀ list ∈ lists, ∃ old, fields.lists list.name = some old ∧
      old.Holds list.members)
    (holds : ∀ list ∈ lists, ∃ new, value.lists list.name = some new ∧
      new.Holds list.members ∧ new.Counted) :
    ∃ counted, Reads
      (readAll ((lists.flatMap ListDeclaration.readCode).map
        (execRead platform)))
      (lists.flatMap value.listTokens) (.of fields counts)
      (.of { fields with
        lists := overlay (lists.map ListDeclaration.name) value.lists
          fields.lists } counted) := by
  induction lists generalizing fields counts with
  | nil => exact ⟨counts, Reads.nothing⟩
  | cons list lists induction =>
      obtain ⟨ownVisible, restVisible⟩ := List.forall_mem_cons.mp visible
      obtain ⟨ownIndex, restIndex⟩ := List.forall_mem_cons.mp index
      obtain ⟨ownApart, restApart⟩ := List.pairwise_cons.mp apart
      obtain ⟨ownNames, restNames⟩ := List.forall_mem_cons.mp names
      obtain ⟨⟨old, current, oldHolds⟩, oldTyped⟩ :=
        List.forall_mem_cons.mp typed
      obtain ⟨⟨new, result, newHolds, newCounted⟩, restHolds⟩ :=
        List.forall_mem_cons.mp holds
      have own := @list_reads platform fields counts list ownVisible ownIndex
        ownNames old new current oldHolds newHolds newCounted
      obtain ⟨counted, rest⟩ := @induction
        { fields with
          lists := Function.update fields.lists list.name (some new) }
        (Function.update counts (countVar list.name)
          (some (UInt16.ofNat new.items.length)))
        (fun later listed => (restVisible later listed).later
          (ownApart later listed))
        restIndex restApart restNames
        (by
          intro later listed
          simp only [Function.update_of_ne (ownApart later listed).1]
          exact oldTyped later listed)
        restHolds
      refine ⟨counted, ?_⟩
      have tokens : (list :: lists).flatMap value.listTokens =
          new.tokens ++ lists.flatMap value.listTokens := by
        simp only [List.flatMap_cons, Fields.listTokens, result]
      rw [tokens, List.flatMap_cons, List.map_append, List.map_cons,
        overlay_cons, result]
      exact own.append rest

namespace PacketStruct

variable {struct : PacketStruct}

/-- `Read` of any object at an encoding. -/
theorem read_recovers {platform : Platform} (generated : struct.Generated)
    (declares : struct.Declares) (unhidden : struct.Unhidden)
    {value start : Fields} (holds : struct.Holds value)
    (counted : value.Counted) (startHolds : struct.Holds start)
    {reader : BufferReader} (ready : cursor.Ready reader)
    (remaining : reader.remaining = struct.tokens value) :
    ∃ final, struct.read platform start reader = some (true, value, final) ∧
      final.pos = reader.size := by
  have members := @members_read platform none .variable value.members
    (fun record => .of { start with members := record } fun _ => none)
    struct.members
    (fun member listed => variable_assigns
      (fun hidden => unhidden.members member listed (by simp [hidden])) rfl
      counted.members)
    start.members startHolds.members.members holds.members.members
  rw [Record.overlay_holds holds.members startHolds.members] at members
  obtain ⟨counts, lists⟩ := @lists_read platform value
    { start with members := value.members } (fun _ => none) struct.lists
    (fun list listed =>
      { name := fun hidden => unhidden.lists list listed (by
          simp [List.mem_singleton.mp hidden])
        noCount := rfl
        fresh := rfl })
    unhidden.index (apart declares unhidden) declares.2 startHolds.lists
    (by
      intro list listed
      obtain ⟨new, result, newHolds⟩ := holds.lists list listed
      exact ⟨new, result, newHolds, counted.lists _ _ result⟩)
  have overlaid : overlay (struct.lists.map ListDeclaration.name) value.lists
      start.lists = value.lists := by
    apply overlay_eq
    intro name other
    rw [startHolds.others name other, holds.others name other]
  simp only [overlaid] at lists
  have code : struct.readCode.map (execRead platform) =
      (struct.members.map fun member =>
        readCall platform none (member.call .variable)) ++
      (struct.lists.flatMap ListDeclaration.readCode).map
        (execRead platform) := by
    rw [generated.readCode, List.map_append, List.map_map]
    rfl
  obtain ⟨final, runs, finalReady, nothing, size⟩ :=
    (members.append lists) reader [] ready
      (remaining.trans (List.append_nil _).symm)
  refine ⟨final, ?_, ?_⟩
  · have starts : ({ reader := reader
                     fields := start
                     counts := fun _ => none } : ReadFrame) =
        .of { start with members := start.members } (fun _ => none) reader :=
      rfl
    rw [read, if_pos declares, code, starts, runs]
    simp only [Option.map_some, ReadFrame.of, Bool.true_and]
    rw [show final.isValid = true from finalReady.1]
  · rw [Protocol.pos_of_remaining_nil finalReady nothing, size]

end PacketStruct

end IocpChat.PacketGenerator
