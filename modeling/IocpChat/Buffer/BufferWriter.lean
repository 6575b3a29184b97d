import IocpChat.Buffer.BufferReader

/-!
# BufferWriter

The writer appends to a window of `size` bytes at `base`, the place
`_buffer` points to inside a larger memory.  A call that does not fit returns
`false` and leaves the bytes written so far where they are.

Lengths and counts are narrowed to 16 bits by `static_cast<uint16>`;
`narrowed` is what a string then contributes to the output.
-/

namespace IocpChat

open FlatMemory LittleEndian WireFormat

structure BufferWriter where
  buffer : Memory UInt8
  base : Nat
  size : Nat
  pos : Nat

/-- A writing call: `none` is the return value `false`. -/
abbrev Encode := Attempt BufferWriter

namespace BufferWriter

def ofBuffer (buffer : Memory UInt8) (base size : Nat) : BufferWriter :=
  { buffer := buffer, base := base, size := size, pos := 0 }

def getWriteSize (writer : BufferWriter) : Nat :=
  writer.pos

def freeSize (writer : BufferWriter) : Nat :=
  writer.size - writer.pos

/-- The bytes from the start of the window to `_pos`. -/
def written (writer : BufferWriter) : List UInt8 :=
  load writer.buffer writer.base writer.pos

/-- `Write(const void* src, int32 len)` on a block of `len` bytes. -/
def writeBytes (block : List UInt8) : Encode Unit :=
  fun writer =>
    if writer.freeSize < block.length then (none, writer)
    else
      (some (),
        { writer with
          buffer := store writer.buffer (writer.base + writer.pos) block
          pos := writer.pos + block.length })

def write {Value : Type} [Scalar Value] (src : Value) : Encode Unit :=
  writeBytes (Scalar.bytes src)

def writeString (str : StdString) : Encode Unit := do
  let len := UInt16.ofNat str.length
  write len
  if 0 < len then writeBytes (str.take len.toNat) else pure ()

/-- The writing loop of a generated list: the narrowed count, then every
item. -/
def writeList {Value : Type} (item : Value → Encode Unit)
    (values : List Value) : Encode Unit := do
  write (UInt16.ofNat values.length)
  values.forM item

/-- What no writing call changes: the window, what is already written, and
all memory outside the free part of the window. -/
structure Frame (before after : BufferWriter) : Prop where
  base : after.base = before.base
  size : after.size = before.size
  advances : before.pos ≤ after.pos
  bounded : before.pos ≤ before.size → after.pos ≤ after.size
  outside : ∀ address,
    address < before.base + before.pos ∨ before.base + before.size ≤ address →
    after.buffer address = before.buffer address

theorem Frame.refl (writer : BufferWriter) : Frame writer writer :=
  { base := rfl
    size := rfl
    advances := Nat.le_refl _
    bounded := id
    outside := fun _ _ => rfl }

theorem Frame.trans {first second third : BufferWriter}
    (left : Frame first second) (right : Frame second third) :
    Frame first third :=
  { base := right.base.trans left.base
    size := right.size.trans left.size
    advances := left.advances.trans right.advances
    bounded := fun inside => right.bounded (left.bounded inside)
    outside := by
      intro address outside
      have later : address < second.base + second.pos ∨
          second.base + second.size ≤ address := by
        have sameBase := left.base
        have sameSize := left.size
        have grown := left.advances
        omega
      rw [right.outside address later, left.outside address outside] }

def sink : Sink BufferWriter UInt8 where
  Ready writer := writer.pos ≤ writer.size
  written := written
  room := freeSize
  Frame := Frame
  frame_refl := Frame.refl
  frame_trans := Frame.trans

@[simp] theorem length_written (writer : BufferWriter) :
    writer.written.length = writer.pos :=
  length_load _ _ _

/-- An encoder whose output fits moves `_pos` behind it. -/
theorem run_of_fits {encoder : Encode Unit} {output : List UInt8}
    (emits : Emits sink encoder output) {writer : BufferWriter}
    (ready : writer.pos ≤ writer.size)
    (enough : output.length ≤ writer.freeSize) :
    ∃ next, encoder.run writer = (some (), next) ∧
      next.base = writer.base ∧ next.size = writer.size ∧
      next.pos = writer.pos + output.length ∧
      next.written = writer.written ++ output := by
  obtain ⟨next, runs, _, writes, _⟩ := emits.fits ready enough
  have frame := emits.frame ready
  rw [runs] at frame
  have length := congrArg List.length writes
  rw [List.length_append] at length
  exact ⟨next, runs, frame.base, frame.size,
    by simpa [sink] using length, writes⟩

theorem run_writeBytes (block : List UInt8) (writer : BufferWriter) :
    (writeBytes block).run writer =
      if writer.freeSize < block.length then (none, writer)
      else
        (some (),
          { writer with
            buffer := store writer.buffer (writer.base + writer.pos) block
            pos := writer.pos + block.length }) :=
  rfl

theorem writeBytes_emits (block : List UInt8) :
    Emits sink (writeBytes block) block where
  fits := by
    intro writer ready enough
    change writer.pos ≤ writer.size at ready
    change block.length ≤ writer.size - writer.pos at enough
    have room : ¬writer.freeSize < block.length := by
      unfold freeSize
      omega
    refine ⟨_, by rw [run_writeBytes, if_neg room], ?_, ?_, ?_⟩
    · change writer.pos + block.length ≤ writer.size
      omega
    · change load _ _ (writer.pos + block.length) = load _ _ _ ++ block
      rw [load_add, load_store_same, load_store_disjoint]
      exact Or.inl (Nat.le_refl _)
    · change writer.size - (writer.pos + block.length) + block.length =
        writer.size - writer.pos
      omega
  full := by
    intro writer _ short
    change writer.freeSize < block.length at short
    rw [run_writeBytes, if_pos short]
  frame := by
    intro writer ready
    change writer.pos ≤ writer.size at ready
    rw [run_writeBytes]
    split
    · exact Frame.refl writer
    · rename_i enough
      unfold freeSize at enough
      exact
        { base := rfl
          size := rfl
          advances := Nat.le_add_right _ _
          bounded := by
            intro _
            change writer.pos + block.length ≤ writer.size
            omega
          outside := fun address outside =>
            store_outside writer.buffer (by omega) }

theorem write_emits {Value : Type} [Scalar Value] (src : Value) :
    Emits sink (write src) (Scalar.bytes src) :=
  writeBytes_emits (Scalar.bytes src)

/-- The bytes `writeString` contributes: the length modulo 2^16 and that many
bytes of the string. -/
def narrowed (str : StdString) : List UInt8 :=
  Scalar.bytes (UInt16.ofNat str.length) ++ str.take (str.length % 2 ^ 16)

theorem writeString_emits (str : StdString) :
    Emits sink (writeString str) (narrowed str) := by
  refine (write_emits (UInt16.ofNat str.length)).append ?_
  rw [UInt16.toNat_ofNat']
  split
  · exact writeBytes_emits _
  · rename_i empty
    have noLength : str.length % 2 ^ 16 = 0 := by
      have small := UInt16.not_lt.mp empty
      have zero := UInt16.le_iff_toNat_le.mp small
      rw [UInt16.toNat_ofNat'] at zero
      simpa using zero
    rw [noLength]
    exact Emits.nothing

theorem writeList_emits {Value : Type} {item : Value → Encode Unit}
    {tokens : Value → List UInt8}
    (emits : ∀ value, Emits sink (item value) (tokens value))
    (values : List Value) :
    Emits sink (writeList item values)
      (Scalar.bytes (UInt16.ofNat values.length) ++ values.flatMap tokens) :=
  (write_emits _).append (Emits.each emits values)

/-- A string that is not narrowed is written in its wire format. -/
theorem narrowed_eq_tokens {str : StdString}
    (representable : Wire.string.Representable str) :
    narrowed str = Wire.string.tokens str := by
  have short := (Wire.string_representable str).mp representable
  unfold narrowed
  rw [Nat.mod_eq_of_lt short, List.take_length]
  rfl

theorem length_narrowed (str : StdString) :
    (narrowed str).length = 2 + str.length % 2 ^ 16 := by
  have bounded := Nat.mod_le str.length (2 ^ 16)
  rw [narrowed, List.length_append, List.length_take, Scalar.length_bytes,
    Nat.min_eq_left bounded]
  rfl

end BufferWriter

end IocpChat
