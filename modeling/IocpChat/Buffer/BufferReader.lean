import IocpChat.Common.Types
import IocpChat.Lib.LittleEndian
import IocpChat.Lib.Memory
import IocpChat.Lib.WireFormat

/-!
# BufferReader

The reader is a window of `size` bytes over memory that may go on behind it (a
packet is read in place, in the middle of the received bytes).  `copied`
records every range `memcpy` takes from the buffer.  `_pos <= _size` always
holds, so `freeSize` never truncates.

The second half gives the formats the reading calls decode.
-/

namespace IocpChat

open FlatMemory LittleEndian WireFormat

structure BufferReader where
  buffer : Memory UInt8
  size : Nat
  pos : Nat
  isValid : Bool
  copied : List (Nat × Nat)

/-- A reading call: `none` is the return value `false`. -/
abbrev Decode := Attempt BufferReader

namespace BufferReader

def ofBuffer (buffer : Memory UInt8) (size : Nat) : BufferReader :=
  { buffer := buffer, size := size, pos := 0, isValid := true, copied := [] }

def freeSize (reader : BufferReader) : Nat :=
  reader.size - reader.pos

/-- The bytes from `_pos` to the end of the window. -/
def remaining (reader : BufferReader) : List UInt8 :=
  load reader.buffer reader.pos reader.freeSize

/-- `_isValid = false; return false;` -/
def invalidate {Value : Type} : Decode Value :=
  fun reader => (none, { reader with isValid := false })

/-- `memcpy(dest, &_buffer[_pos], length)`. -/
def copy (length : Nat) : Decode (List UInt8) :=
  fun reader =>
    (some (load reader.buffer reader.pos length),
      { reader with copied := (reader.pos, length) :: reader.copied })

def advance (length : Nat) : Decode Unit :=
  fun reader => (some (), { reader with pos := reader.pos + length })

/-- Continue when at least `length` bytes are left. -/
def require (length : Nat) : Decode Unit :=
  fun reader =>
    if reader.freeSize < length then invalidate reader
    else (some (), reader)

def peek (Value : Type) [Scalar Value] : Decode Value := do
  require (Scalar.size Value)
  let block ← copy (Scalar.size Value)
  pure (Scalar.ofBytes block)

def read (Value : Type) [Scalar Value] : Decode Value := do
  let dest ← peek Value
  advance (Scalar.size Value)
  pure dest

/-- The body of a string, after its length. -/
def readBody (length : Nat) : Decode StdString := do
  require length
  if 0 < length then
    let block ← copy length
    advance length
    pure block
  else pure []

def readString : Decode StdString := do
  let len ← read UInt16
  readBody len.toNat

/-- `return reader.IsValid();` at the end of a packet's `Read`. -/
def requireValid : Decode Unit :=
  fun reader => if reader.isValid then (some (), reader) else (none, reader)

/-- What no reading call changes, and where it may read. -/
structure Frame (before after : BufferReader) : Prop where
  buffer : after.buffer = before.buffer
  size : after.size = before.size
  advances : before.pos ≤ after.pos
  bounded : before.pos ≤ before.size → after.pos ≤ after.size
  copied : ∀ range ∈ after.copied,
    range ∈ before.copied ∨ range.1 + range.2 ≤ before.size

theorem Frame.refl (reader : BufferReader) : Frame reader reader :=
  { buffer := rfl
    size := rfl
    advances := Nat.le_refl _
    bounded := id
    copied := fun _ member => Or.inl member }

theorem Frame.trans {first second third : BufferReader}
    (left : Frame first second) (right : Frame second third) :
    Frame first third :=
  { buffer := right.buffer.trans left.buffer
    size := right.size.trans left.size
    advances := left.advances.trans right.advances
    bounded := fun inside => right.bounded (left.bounded inside)
    copied := by
      intro range member
      rcases right.copied range member with earlier | inside
      · exact left.copied range earlier
      · exact Or.inr (left.size ▸ inside) }

/-- Reading proceeds through the bytes of the window. -/
def cursor : Cursor BufferReader UInt8 where
  Ready reader := reader.isValid = true ∧ reader.pos ≤ reader.size
  remaining := remaining
  Frame := Frame
  frame_refl := Frame.refl
  frame_trans := Frame.trans

@[simp] theorem length_remaining (reader : BufferReader) :
    reader.remaining.length = reader.size - reader.pos :=
  length_load _ _ _

/-- Copying `length` available bytes and stepping over them. -/
def take (length : Nat) : Decode (List UInt8) := do
  require length
  let block ← copy length
  advance length
  pure block

theorem run_require (length : Nat) (reader : BufferReader) :
    (require length).run reader =
      if reader.freeSize < length then
        (none, { reader with isValid := false })
      else (some (), reader) :=
  rfl

theorem run_take (length : Nat) (reader : BufferReader) :
    (take length).run reader =
      if reader.freeSize < length then
        (none, { reader with isValid := false })
      else
        (some (load reader.buffer reader.pos length),
          { reader with
            pos := reader.pos + length
            copied := (reader.pos, length) :: reader.copied }) := by
  have required := run_require length reader
  split at required
  · rename_i short
    rw [take, Attempt.run_bind_of_none required, if_pos short]
  · rename_i enough
    rw [take, Attempt.run_bind_of_some required, if_neg enough]
    rfl

/-- The raw bytes of the window are decoded as they stand. -/
theorem take_decodes (length : Nat) :
    Decodes cursor (.raw length) Unguarded (take length) where
  recovers := by
    rintro reader block rest ⟨valid, inside⟩ ⟨sameLength, input⟩
    change block.length = length at sameLength
    change reader.remaining = block ++ rest at input
    have lengths := congrArg List.length input
    simp only [length_remaining, List.length_append] at lengths
    have enough : ¬reader.freeSize < length := by
      unfold freeSize
      omega
    have split : reader.remaining =
        load reader.buffer reader.pos length ++
          load reader.buffer (reader.pos + length)
            (reader.size - (reader.pos + length)) := by
      rw [← load_add, remaining, freeSize]
      congr 1
      omega
    obtain ⟨blockEq, restEq⟩ := List.append_inj
      (split.symm.trans input) (by simp [sameLength])
    refine ⟨_, by rw [run_take, if_neg enough, blockEq], ?_⟩
    exact restEq
  sound := by
    rintro reader block next ⟨valid, inside⟩ _ succeeds
    rw [run_take] at succeeds
    split at succeeds
    · cases succeeds
    · rename_i enough
      cases succeeds
      unfold freeSize at enough
      refine ⟨length_load _ _ _, ?_⟩
      change load _ _ (reader.size - reader.pos) =
        load _ _ length ++ load _ _ (reader.size - (reader.pos + length))
      rw [← load_add]
      congr 1
      omega
  ready := by
    rintro reader block next ⟨valid, inside⟩ succeeds
    rw [run_take] at succeeds
    split at succeeds
    · cases succeeds
    · rename_i enough
      cases succeeds
      unfold freeSize at enough
      refine ⟨valid, ?_⟩
      change reader.pos + length ≤ reader.size
      omega
  frame := by
    rintro reader ⟨valid, inside⟩
    rw [run_take]
    split
    · exact { Frame.refl reader with }
    · rename_i enough
      unfold freeSize at enough
      exact
        { buffer := rfl
          size := rfl
          advances := Nat.le_add_right _ _
          bounded := by
            intro _
            change reader.pos + length ≤ reader.size
            omega
          copied := by
            intro range member
            rcases List.mem_cons.mp member with rfl | earlier
            · right
              change reader.pos + length ≤ reader.size
              omega
            · exact Or.inl earlier }

/-- Reading a scalar copies its bytes and steps over them. -/
theorem read_eq_take (Value : Type) [Scalar Value] :
    read Value = Scalar.ofBytes <$> take (Scalar.size Value) := by
  simp only [read, peek, take, map_eq_pure_bind, bind_assoc, pure_bind]

theorem readBody_decodes (length : Nat) :
    Decodes cursor (.raw length) Unguarded (readBody length) := by
  unfold readBody
  split
  · exact take_decodes length
  · rename_i empty
    have noLength : length = 0 := by omega
    subst noLength
    have anything : require 0 = (pure () : Decode Unit) := by
      ext1 reader
      rw [run_require, if_neg (Nat.not_lt_zero _)]
      rfl
    rw [anything, pure_bind]
    refine Decodes.of_format _ (Decodes.done []) ?_ ?_
    · intro block
      simp [Format.raw]
    · rintro block rfl
      rfl

end BufferReader

namespace Wire

/-- The object representation of a scalar. -/
def scalar (Value : Type) [Scalar Value] : Format UInt8 Value where
  Representable _ := True
  tokens := Scalar.bytes

/-- A string is its length, narrowed to 16 bits, and its bytes. -/
def string : Format UInt8 StdString :=
  (scalar UInt16).headed (fun text => UInt16.ofNat text.length)
    fun length => .raw length.toNat

/-- A list is its item count, narrowed to 16 bits, and its items. -/
def list {Value : Type} (item : Format UInt8 Value) :
    Format UInt8 (List Value) :=
  (scalar UInt16).headed (fun items => UInt16.ofNat items.length)
    fun count => item.repeated count.toNat

/-- The bytes a scalar is read from represent a value. -/
def CanonicalPrefix (Value : Type) [Scalar Value] (input : List UInt8) :
    Prop :=
  ∀ block rest, input = block ++ rest →
    block.length = Scalar.size Value →
    Scalar.Canonical Value block

/-- A string has an encoding exactly when its length is not narrowed. -/
theorem string_representable (text : StdString) :
    string.Representable text ↔ text.length < 2 ^ 16 := by
  have size : UInt16.size = 2 ^ 16 := rfl
  simp only [string, Format.headed, Format.raw, scalar, true_and,
    UInt16.toNat_ofNat']
  omega

theorem list_representable {Value : Type} (item : Format UInt8 Value)
    (items : List Value) :
    (list item).Representable items ↔
      items.length < 2 ^ 16 ∧ ∀ value ∈ items, item.Representable value := by
  simp only [list, Format.headed, Format.repeated, scalar, true_and,
    UInt16.toNat_ofNat']
  have narrowed : items.length = items.length % 2 ^ 16 ↔
      items.length < 2 ^ 16 := by omega
  rw [narrowed]

end Wire

namespace BufferReader

open Wire

theorem read_decodes (Value : Type) [Scalar Value] :
    Decodes cursor (scalar Value) (CanonicalPrefix Value) (read Value) where
  recovers := by
    rintro reader value rest ready ⟨_, input⟩
    obtain ⟨next, taken, nextInput⟩ :=
      (take_decodes (Scalar.size Value)).recovers ready
        ⟨Scalar.length_bytes value, input⟩
    refine ⟨next, ?_, nextInput⟩
    rw [read_eq_take, map_eq_pure_bind, Attempt.run_bind_of_some taken,
      Attempt.run_pure, Scalar.ofBytes_bytes]
  sound := by
    intro reader value next ready canonical succeeds
    rw [read_eq_take, map_eq_pure_bind] at succeeds
    rcases taken : (take (Scalar.size Value)).run reader with
      ⟨_ | block, middle⟩
    · rw [Attempt.run_bind_of_none taken] at succeeds
      cases succeeds
    · rw [Attempt.run_bind_of_some taken, Attempt.run_pure] at succeeds
      cases succeeds
      obtain ⟨length, input⟩ :=
        (take_decodes (Scalar.size Value)).sound ready trivial taken
      refine ⟨trivial, ?_⟩
      rw [input]
      congr 1
      exact (Scalar.bytes_ofBytes block length
        (canonical block _ input length)).symm
  ready := by
    intro reader value next ready succeeds
    rw [read_eq_take, map_eq_pure_bind] at succeeds
    rcases taken : (take (Scalar.size Value)).run reader with
      ⟨_ | block, middle⟩
    · rw [Attempt.run_bind_of_none taken] at succeeds
      cases succeeds
    · rw [Attempt.run_bind_of_some taken, Attempt.run_pure] at succeeds
      cases succeeds
      exact (take_decodes (Scalar.size Value)).ready ready taken
  frame := by
    intro reader ready
    have taken := (take_decodes (Scalar.size Value)).frame ready
    rw [read_eq_take, map_eq_pure_bind]
    rcases result : (take (Scalar.size Value)).run reader with
      ⟨_ | block, middle⟩
    · rw [Attempt.run_bind_of_none result]
      rwa [result] at taken
    · rw [Attempt.run_bind_of_some result, Attempt.run_pure]
      rwa [result] at taken

/-- Every byte string of the right size represents an integer. -/
theorem read_decodes_unguarded (Value : Type) [Scalar Value]
    (canonical : ∀ block : List UInt8, Scalar.Canonical Value block) :
    Decodes cursor (scalar Value) Unguarded (read Value) :=
  (read_decodes Value).of_guard fun _ _ block _ _ _ => canonical block

theorem readUInt16_decodes :
    Decodes cursor (scalar UInt16) Unguarded (read UInt16) :=
  read_decodes_unguarded UInt16 fun _ => trivial

theorem readString_decodes :
    Decodes cursor string Unguarded readString :=
  (Decodes.headed _ _ readUInt16_decodes
    (by rintro length text fits
        change text.length = length.toNat at fits
        simp [fits])
    fun length => readBody_decodes length.toNat).of_guard
      fun _ _ => ⟨trivial, fun _ _ _ => trivial⟩

/-- The reading loop of a generated list: the count, then the items. -/
def readList {Value : Type} (item : Decode Value) : Decode (List Value) := do
  let count ← read UInt16
  times item count.toNat

theorem readList_decodes {Value : Type} {format : Format UInt8 Value}
    {item : Decode Value} (decodes : Decodes cursor format Unguarded item) :
    Decodes cursor (list format) Unguarded (readList item) :=
  (Decodes.headed _ _ readUInt16_decodes
    (by rintro count items ⟨length, _⟩
        simp [length])
    fun count => decodes.times count.toNat).of_guard
      fun _ _ => ⟨trivial, fun _ _ _ => trivial⟩

/-- `requireValid` passes wherever the reading calls have succeeded. -/
theorem requireValid_decodes {Value : Type} {format : Format UInt8 Value}
    {Guard : List UInt8 → Prop} {decoder : Decode Value}
    (decodes : Decodes cursor format Guard decoder) :
    Decodes cursor format Guard (do
      let value ← decoder
      requireValid
      pure value) := by
  have same : ∀ reader, cursor.Ready reader →
      (do
        let value ← decoder
        requireValid
        pure value).run reader = decoder.run reader := by
    intro reader ready
    rcases result : decoder.run reader with ⟨_ | value, next⟩
    · rw [Attempt.run_bind_of_none result]
    · have valid : next.isValid = true := (decodes.ready ready result).1
      rw [Attempt.run_bind_of_some result]
      have passes : requireValid.run next = (some (), next) := by
        simp [requireValid, Attempt.run, valid]
      rw [Attempt.run_bind_of_some passes, Attempt.run_pure]
  exact
    { recovers := fun ready starts => by
        rw [same _ ready]
        exact decodes.recovers ready starts
      sound := fun ready guarded succeeds => by
        rw [same _ ready] at succeeds
        exact decodes.sound ready guarded succeeds
      ready := fun ready succeeds => by
        rw [same _ ready] at succeeds
        exact decodes.ready ready succeeds
      frame := fun ready => by
        rw [same _ ready]
        exact decodes.frame ready }

end BufferReader

end IocpChat
