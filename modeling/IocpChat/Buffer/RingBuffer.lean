import Mathlib.Data.List.ReduceOption
import IocpChat.Common.Types
import IocpChat.Lib.CircularMemory

/-!
# RingBuffer

The fields are `int32` values; every sum the source computes is wrapped.  One
cell is always left free, so equal positions mean an empty buffer.  Addresses
handed to `memcpy` or to the socket are positions inside the buffer.

`Valid` holds of every ring buffer in use; under it no sum wraps and the stored
bytes are the circular block from `_readPos` on.
-/

namespace IocpChat

open FlatMemory

structure RingBuffer where
  buffer : Memory UInt8
  capacity : Int
  readPos : Int
  writePos : Int

/-- A `WSABUF`: the address of `buf` inside the buffer, and `len`. -/
structure WSABUF where
  buf : Int
  len : Int
  deriving DecidableEq, Repr

/-- The array passed to `GetWriteSpan`, with the entries that were written, and
the returned count. -/
structure Spans where
  first : Option WSABUF
  second : Option WSABUF
  spanCount : Int
  deriving DecidableEq, Repr

namespace RingBuffer

def clear (ring : RingBuffer) : RingBuffer :=
  { ring with
    readPos := 0
    writePos := 0 }

def getDataSize (ring : RingBuffer) : Int :=
  if ring.readPos ≤ ring.writePos then int32 (ring.writePos - ring.readPos)
  else int32 (int32 (ring.capacity - ring.readPos) + ring.writePos)

def getFreeSize (ring : RingBuffer) : Int :=
  int32 (int32 (ring.capacity - 1) - ring.getDataSize)

/-- `memcpy` of `size` bytes out of the buffer. -/
def copyOut (ring : RingBuffer) (position size : Int) : List UInt8 :=
  load ring.buffer position.toNat size.toNat

/-- `memcpy` of `size` bytes from `data + offset` into the buffer. -/
def copyIn (ring : RingBuffer) (position : Int) (data : Memory UInt8)
    (offset size : Int) : RingBuffer :=
  { ring with
    buffer := store ring.buffer position.toNat
      (load data offset.toNat size.toNat) }

def write (ring : RingBuffer) (data : Memory UInt8) (size : Int) :
    Bool × RingBuffer :=
  if size ≤ 0 ∨ ring.getFreeSize < size then (false, ring)
  else if int32 (ring.writePos + size) ≤ ring.capacity then
    let ring := ring.copyIn ring.writePos data 0 size
    (true,
      { ring with
        writePos := (int32 (ring.writePos + size)).tmod ring.capacity })
  else
    let firstPart := int32 (ring.capacity - ring.writePos)
    let ring := ring.copyIn ring.writePos data 0 firstPart
    let secondPart := int32 (size - firstPart)
    let ring := ring.copyIn 0 data firstPart secondPart
    (true, { ring with writePos := secondPart })

/-- The bytes copied to `dest`, or `none` for `false`. -/
def peek (ring : RingBuffer) (size : Int) : Option (List UInt8) :=
  if size ≤ 0 ∨ ring.getDataSize < size then none
  else if int32 (ring.readPos + size) ≤ ring.capacity then
    some (ring.copyOut ring.readPos size)
  else
    let firstPart := int32 (ring.capacity - ring.readPos)
    let secondPart := int32 (size - firstPart)
    some (ring.copyOut ring.readPos firstPart ++ ring.copyOut 0 secondPart)

def moveWritePos (ring : RingBuffer) (size : Int) : Bool × RingBuffer :=
  if size ≤ 0 ∨ ring.getFreeSize < size then (false, ring)
  else
    (true,
      { ring with
        writePos := (int32 (ring.writePos + size)).tmod ring.capacity })

def moveReadPos (ring : RingBuffer) (size : Int) : Bool × RingBuffer :=
  if size ≤ 0 ∨ ring.getDataSize < size then (false, ring)
  else
    (true,
      { ring with
        readPos := (int32 (ring.readPos + size)).tmod ring.capacity })

/-- The bytes copied to `dest` and the returned value. -/
def read (ring : RingBuffer) (size : Int) :
    Option (List UInt8) × Bool × RingBuffer :=
  match ring.peek size with
  | none => (none, false, ring)
  | some dest => (some dest, ring.moveReadPos size)

/-- `freeSize` of `GetWriteSpan`, limited to `maxBytes` when that is given. -/
def offered (ring : RingBuffer) (maxBytes : Int) : Int :=
  if 0 < maxBytes then min ring.getFreeSize maxBytes else ring.getFreeSize

/-- The spans over `freeSize` cells from the write position on. -/
def writeSpans (ring : RingBuffer) (freeSize : Int) : Spans :=
  if freeSize ≤ 0 then { first := none, second := none, spanCount := 0 }
  else if ring.readPos ≤ ring.writePos then
    let tailFree := int32 (ring.capacity - ring.writePos)
    -- the one-cell gap lies at the end when the data starts at 0
    let tailFree := if ring.readPos = 0 then int32 (tailFree - 1) else tailFree
    let tailFree := min tailFree freeSize
    let spans : Spans :=
      if 0 < tailFree then
        { first := some { buf := ring.writePos, len := tailFree }
          second := none
          spanCount := 1 }
      else { first := none, second := none, spanCount := 0 }
    let freeSize :=
      if 0 < tailFree then int32 (freeSize - tailFree) else freeSize
    if 0 < freeSize ∧ 0 < ring.readPos then
      let headFree := min (int32 (ring.readPos - 1)) freeSize
      if 0 < headFree then
        { spans with
          second := some { buf := 0, len := headFree }
          spanCount := 2 }
      else spans
    else spans
  else
    let directFree :=
      min (int32 (int32 (ring.readPos - ring.writePos) - 1)) freeSize
    if 0 < directFree then
      { first := some { buf := ring.writePos, len := directFree }
        second := none
        spanCount := 1 }
    else { first := none, second := none, spanCount := 0 }

def getWriteSpan (ring : RingBuffer) (maxBytes : Int) : Spans :=
  ring.writeSpans (ring.offered maxBytes)

/-- `dataSize` of `GetReadSpan`, limited to `maxBytes` when that is given. -/
def readable (ring : RingBuffer) (maxBytes : Int) : Int :=
  if 0 < maxBytes then min ring.getDataSize maxBytes else ring.getDataSize

/-- The spans over `dataSize` cells from the read position on. -/
def readSpans (ring : RingBuffer) (dataSize : Int) : Spans :=
  if dataSize ≤ 0 then { first := none, second := none, spanCount := 0 }
  else if ring.readPos ≤ ring.writePos then
    { first := some { buf := ring.readPos, len := dataSize }
      second := none
      spanCount := 1 }
  else
    let tailData := min (int32 (ring.capacity - ring.readPos)) dataSize
    let spans : Spans :=
      { first := some { buf := ring.readPos, len := tailData }
        second := none
        spanCount := 1 }
    let dataSize := int32 (dataSize - tailData)
    if 0 < dataSize ∧ 0 < ring.writePos then
      let headData := min ring.writePos dataSize
      if 0 < headData then
        { spans with
          second := some { buf := 0, len := headData }
          spanCount := 2 }
      else spans
    else spans

def getReadSpan (ring : RingBuffer) (maxBytes : Int) : Spans :=
  ring.readSpans (ring.readable maxBytes)

/-- The positions of a ring buffer in use, and a capacity for which no sum
leaves the range of `int32`. -/
structure Valid (ring : RingBuffer) : Prop where
  capacity_pos : 0 < ring.capacity
  capacity_le : ring.capacity ≤ 2 ^ 30
  readPos_nonneg : 0 ≤ ring.readPos
  readPos_lt : ring.readPos < ring.capacity
  writePos_nonneg : 0 ≤ ring.writePos
  writePos_lt : ring.writePos < ring.capacity

/-- The stored bytes, oldest first. -/
def contents (ring : RingBuffer) : List UInt8 :=
  loadRing ring.buffer ring.capacity.toNat ring.readPos.toNat
    ring.getDataSize.toNat

section Positions

variable {ring : RingBuffer}

theorem getDataSize_eq (valid : ring.Valid) :
    ring.getDataSize =
      if ring.readPos ≤ ring.writePos then ring.writePos - ring.readPos
      else ring.capacity - ring.readPos + ring.writePos := by
  obtain ⟨positive, bounded, readLow, readHigh, writeLow, writeHigh⟩ := valid
  unfold getDataSize
  split
  · exact int32_of_range (by omega) (by omega)
  · have tail : int32 (ring.capacity - ring.readPos) =
        ring.capacity - ring.readPos :=
      int32_of_range (by omega) (by omega)
    rw [tail]
    exact int32_of_range (by omega) (by omega)

theorem getDataSize_bounds (valid : ring.Valid) :
    0 ≤ ring.getDataSize ∧ ring.getDataSize < ring.capacity := by
  have size := getDataSize_eq valid
  obtain ⟨positive, bounded, readLow, readHigh, writeLow, writeHigh⟩ := valid
  split at size <;> omega

theorem getFreeSize_eq (valid : ring.Valid) :
    ring.getFreeSize = ring.capacity - 1 - ring.getDataSize := by
  obtain ⟨low, high⟩ := getDataSize_bounds valid
  have positive := valid.capacity_pos
  have bounded := valid.capacity_le
  have room : int32 (ring.capacity - 1) = ring.capacity - 1 :=
    int32_of_range (by omega) (by omega)
  rw [getFreeSize, room]
  exact int32_of_range (by omega) (by omega)

/-- A position moved by a size that stays within one turn. -/
theorem move_eq {position size : Int} (valid : ring.Valid)
    (low : 0 ≤ position) (high : position < ring.capacity)
    (positive : 0 ≤ size) (within : size < ring.capacity) :
    (int32 (position + size)).tmod ring.capacity =
      if position + size < ring.capacity then position + size
      else position + size - ring.capacity := by
  have bounded := valid.capacity_le
  rw [int32_of_range (by omega) (by omega),
    Int.tmod_eq_emod_of_nonneg (by omega)]
  split
  · rename_i direct
    exact Int.emod_eq_of_lt (by omega) direct
  · rename_i wrapped
    rw [← Int.sub_emod_right]
    exact Int.emod_eq_of_lt (by omega) (by omega)

theorem move_range {position size : Int} (valid : ring.Valid)
    (low : 0 ≤ position) (high : position < ring.capacity)
    (positive : 0 ≤ size) (within : size < ring.capacity) :
    0 ≤ (int32 (position + size)).tmod ring.capacity ∧
      (int32 (position + size)).tmod ring.capacity < ring.capacity := by
  rw [move_eq valid low high positive within]
  split <;> constructor <;> omega

theorem writePos_eq_slot (valid : ring.Valid) :
    ring.writePos.toNat =
      slot ring.capacity.toNat ring.readPos.toNat ring.getDataSize.toNat := by
  have size := getDataSize_eq valid
  obtain ⟨positive, bounded, readLow, readHigh, writeLow, writeHigh⟩ := valid
  unfold slot
  split at size <;> split <;> omega

@[simp] theorem length_contents (ring : RingBuffer) :
    ring.contents.length = ring.getDataSize.toNat :=
  length_loadRing _ _ _ _

theorem peek_eq (valid : ring.Valid) {size : Int} (positive : 0 < size)
    (stored : size ≤ ring.getDataSize) :
    ring.peek size = some (ring.contents.take size.toNat) := by
  obtain ⟨low, high⟩ := getDataSize_bounds valid
  have inside : ring.readPos.toNat < ring.capacity.toNat := by
    have := valid.readPos_nonneg
    have := valid.readPos_lt
    omega
  have block : ring.contents.take size.toNat =
      loadRing ring.buffer ring.capacity.toNat ring.readPos.toNat
        size.toNat :=
    take_loadRing _ inside (by omega) (by omega)
  obtain ⟨_, bounded, readLow, readHigh, _, _⟩ := valid
  rw [block]
  unfold peek
  rw [if_neg (by omega), int32_of_range (by omega) (by omega)]
  split
  · rename_i direct
    rw [loadRing_direct _ (by omega)]
    rfl
  · rename_i wrapped
    have firstPart : int32 (ring.capacity - ring.readPos) =
        ring.capacity - ring.readPos :=
      int32_of_range (by omega) (by omega)
    have secondPart : int32 (size - (ring.capacity - ring.readPos)) =
        size - (ring.capacity - ring.readPos) :=
      int32_of_range (by omega) (by omega)
    have tail : ring.capacity.toNat - ring.readPos.toNat =
        (ring.capacity - ring.readPos).toNat := by omega
    have head : size.toNat - (ring.capacity - ring.readPos).toNat =
        (size - (ring.capacity - ring.readPos)).toNat := by omega
    simp only [firstPart, secondPart]
    rw [loadRing_wrapped _ inside (by omega), tail, head]
    rfl

/-- `MoveReadPos` takes the oldest bytes off. -/
theorem moveReadPos_spec (valid : ring.Valid) {size : Int}
    (positive : 0 < size) (stored : size ≤ ring.getDataSize) :
    ∃ next, ring.moveReadPos size = (true, next) ∧ next.Valid ∧
      next.capacity = ring.capacity ∧
      next.getDataSize = ring.getDataSize - size ∧
      next.contents = ring.contents.drop size.toNat := by
  obtain ⟨low, high⟩ := getDataSize_bounds valid
  have dataSize := getDataSize_eq valid
  have moved := move_eq valid valid.readPos_nonneg valid.readPos_lt
    (Int.le_of_lt positive) (Int.lt_of_le_of_lt stored high)
  have accepted : ¬(size ≤ 0 ∨ ring.getDataSize < size) := by omega
  let next : RingBuffer :=
    { ring with
      readPos := (int32 (ring.readPos + size)).tmod ring.capacity }
  have position : next.readPos =
      if ring.readPos + size < ring.capacity then ring.readPos + size
      else ring.readPos + size - ring.capacity := moved
  have range := move_range valid valid.readPos_nonneg valid.readPos_lt
    (Int.le_of_lt positive) (Int.lt_of_le_of_lt stored high)
  have nextValid : next.Valid :=
    { valid with
      readPos_nonneg := range.1
      readPos_lt := range.2 }
  have nextSize : next.getDataSize = ring.getDataSize - size := by
    rw [getDataSize_eq nextValid, dataSize]
    change (if next.readPos ≤ ring.writePos then
        ring.writePos - next.readPos
      else ring.capacity - next.readPos + ring.writePos) = _
    have readHigh := valid.readPos_lt
    have writeHigh := valid.writePos_lt
    have writeLow := valid.writePos_nonneg
    split at position <;> split at dataSize <;> split <;> omega
  refine ⟨next, by rw [moveReadPos, if_neg accepted], nextValid, rfl,
    nextSize, ?_⟩
  have readLow := valid.readPos_nonneg
  have readHigh := valid.readPos_lt
  have positions : next.readPos.toNat =
      slot ring.capacity.toNat ring.readPos.toNat size.toNat := by
    unfold slot
    split at position <;> split <;> omega
  rw [contents, contents, drop_loadRing _ (by omega) (by omega) (by omega),
    ← positions, nextSize]
  congr 1
  omega

/-- `MoveReadPos` refuses to move by nothing. -/
theorem moveReadPos_zero (ring : RingBuffer) :
    ring.moveReadPos 0 = (false, ring) := by
  simp [moveReadPos]

/-- Bytes that were stored behind the contents become contents when the write
position moves over them. -/
theorem moveWritePos_spec (valid : ring.Valid) {data : List UInt8}
    (nonempty : data ≠ []) (fits : (data.length : Int) ≤ ring.getFreeSize)
    {buffer : Memory UInt8}
    (filled : buffer = storeRing ring.buffer ring.capacity.toNat
      ring.writePos.toNat data) :
    ∃ next,
      ({ ring with buffer := buffer } : RingBuffer).moveWritePos data.length =
        (true, next) ∧
      next.Valid ∧ next.capacity = ring.capacity ∧
      next.contents = ring.contents ++ data := by
  obtain ⟨low, high⟩ := getDataSize_bounds valid
  have free := getFreeSize_eq valid
  have dataSize := getDataSize_eq valid
  have positive : 0 < data.length := List.length_pos_iff.mpr nonempty
  have moved := move_eq valid valid.writePos_nonneg valid.writePos_lt
    (by omega : (0 : Int) ≤ data.length) (by omega)
  let next : RingBuffer :=
    { ring with
      buffer := buffer
      writePos := (int32 (ring.writePos + data.length)).tmod ring.capacity }
  have position : next.writePos =
      if ring.writePos + data.length < ring.capacity then
        ring.writePos + data.length
      else ring.writePos + data.length - ring.capacity := moved
  have range := move_range valid valid.writePos_nonneg valid.writePos_lt
    (by omega : (0 : Int) ≤ data.length) (by omega)
  have nextValid : next.Valid :=
    { valid with
      writePos_nonneg := range.1
      writePos_lt := range.2 }
  have nextSize : next.getDataSize = ring.getDataSize + data.length := by
    rw [getDataSize_eq nextValid, dataSize]
    change (if ring.readPos ≤ next.writePos then
        next.writePos - ring.readPos
      else ring.capacity - ring.readPos + next.writePos) = _
    have readLow := valid.readPos_nonneg
    have readHigh := valid.readPos_lt
    have writeHigh := valid.writePos_lt
    split at position <;> split at dataSize <;> split <;> omega
  have accepted : ¬((data.length : Int) ≤ 0 ∨
      ({ ring with buffer := buffer } : RingBuffer).getFreeSize <
        data.length) := by
    change ¬((data.length : Int) ≤ 0 ∨ ring.getFreeSize < data.length)
    omega
  refine ⟨next, by rw [moveWritePos, if_neg accepted], nextValid, rfl, ?_⟩
  have readHigh := valid.readPos_lt
  have readLow := valid.readPos_nonneg
  have sizes : next.getDataSize.toNat =
      ring.getDataSize.toNat + data.length := by omega
  rw [contents, sizes]
  change loadRing buffer _ _ _ = _
  rw [filled, writePos_eq_slot valid]
  exact loadRing_storeRing _ (by omega) (by omega)

end Positions

/-- The spans of an array that were written, up to the returned count. -/
def spans (returned : Spans) : List WSABUF :=
  ([returned.first, returned.second].take
    returned.spanCount.toNat).reduceOption

/-- The bytes an operation may put into the spans. -/
def spanTotal (spans : List WSABUF) : Int :=
  (spans.map WSABUF.len).sum

/-- Received bytes fill the spans in order. -/
def fill (buffer : Memory UInt8) : List WSABUF → List UInt8 → Memory UInt8
  | [], _ => buffer
  | span :: rest, data =>
      fill (store buffer span.buf.toNat (data.take span.len.toNat)) rest
        (data.drop span.len.toNat)

theorem offered_le (ring : RingBuffer) (maxBytes : Int) :
    ring.offered maxBytes ≤ ring.getFreeSize := by
  unfold offered
  split
  · exact min_le_left _ _
  · exact le_refl _

/-- The free cells are covered by one span, or by two of which the first ends
with the buffer and the second starts it. -/
theorem writeSpans_eq {ring : RingBuffer} (valid : ring.Valid)
    {freeSize : Int} (room : 0 < freeSize)
    (atMost : freeSize ≤ ring.getFreeSize) :
    ∃ tail, 0 < tail ∧ tail ≤ freeSize ∧
      ring.writePos + tail ≤ ring.capacity ∧
      (tail < freeSize → ring.writePos + tail = ring.capacity) ∧
      ring.writeSpans freeSize =
        if tail < freeSize then
          { first := some { buf := ring.writePos, len := tail }
            second := some { buf := 0, len := freeSize - tail }
            spanCount := 2 }
        else
          { first := some { buf := ring.writePos, len := tail }
            second := none
            spanCount := 1 } := by
  have free := getFreeSize_eq valid
  have dataSize := getDataSize_eq valid
  obtain ⟨positive, bounded, readLow, readHigh, writeLow, writeHigh⟩ := valid
  unfold writeSpans
  rw [if_neg (by omega)]
  split at dataSize
  · rename_i ordered
    have toEnd : int32 (ring.capacity - ring.writePos) =
        ring.capacity - ring.writePos :=
      int32_of_range (by omega) (by omega)
    have gap : int32 (ring.capacity - ring.writePos - 1) =
        ring.capacity - ring.writePos - 1 :=
      int32_of_range (by omega) (by omega)
    have before : int32 (ring.readPos - 1) = ring.readPos - 1 :=
      int32_of_range (by omega) (by omega)
    rw [if_pos ordered]
    simp only [toEnd, gap, before]
    by_cases oneSpan : freeSize ≤
        if ring.readPos = 0 then ring.capacity - ring.writePos - 1
        else ring.capacity - ring.writePos
    · have tail := min_eq_right oneSpan
      have nothingLeft : int32 (freeSize - freeSize) = 0 := by
        rw [int32_of_range (by omega) (by omega)]
        omega
      simp only [tail, room, if_true, nothingLeft, lt_irrefl, false_and,
        if_false]
      refine ⟨freeSize, room, le_refl _, ?_, fun impossible => ?_, ?_⟩
      · split at oneSpan <;> omega
      · exact absurd impossible (lt_irrefl _)
      · rw [if_neg (lt_irrefl _)]
    · -- the first span reaches the end of the buffer
      have started : ¬ring.readPos = 0 := by
        intro atStart
        rw [if_pos atStart] at oneSpan
        omega
      rw [if_neg started] at oneSpan
      have tail : min (ring.capacity - ring.writePos) freeSize =
          ring.capacity - ring.writePos := min_eq_left (by omega)
      have left : int32 (freeSize - (ring.capacity - ring.writePos)) =
          freeSize - (ring.capacity - ring.writePos) :=
        int32_of_range (by omega) (by omega)
      have head : min (ring.readPos - 1)
          (freeSize - (ring.capacity - ring.writePos)) =
          freeSize - (ring.capacity - ring.writePos) :=
        min_eq_right (by omega)
      have tailPos : 0 < ring.capacity - ring.writePos := by omega
      have leftPos : 0 < freeSize - (ring.capacity - ring.writePos) := by
        omega
      have behind : 0 < ring.readPos := by omega
      simp only [started, if_false, tail, tailPos, if_true, left, leftPos,
        behind, true_and, head]
      refine ⟨ring.capacity - ring.writePos, tailPos, by omega, by omega,
        fun _ => by omega, ?_⟩
      rw [if_pos (by omega)]
  · rename_i wrapped
    have between : int32 (ring.readPos - ring.writePos) =
        ring.readPos - ring.writePos :=
      int32_of_range (by omega) (by omega)
    have gap : int32 (ring.readPos - ring.writePos - 1) =
        ring.readPos - ring.writePos - 1 :=
      int32_of_range (by omega) (by omega)
    have direct : min (ring.readPos - ring.writePos - 1) freeSize =
        freeSize := min_eq_right (by omega)
    rw [if_neg wrapped]
    simp only [between, gap, direct]
    rw [if_pos room]
    refine ⟨freeSize, room, le_refl _, by omega, fun impossible => ?_, ?_⟩
    · exact absurd impossible (lt_irrefl _)
    · rw [if_neg (lt_irrefl _)]

/-- The spans cover what is offered, and filling them stores the bytes behind
the contents. -/
theorem getWriteSpan_spec {ring : RingBuffer} (valid : ring.Valid)
    {maxBytes : Int} (room : 0 < ring.offered maxBytes) :
    0 < (ring.getWriteSpan maxBytes).spanCount ∧
      spanTotal (spans (ring.getWriteSpan maxBytes)) =
        ring.offered maxBytes ∧
      ∀ data : List UInt8, (data.length : Int) ≤ ring.offered maxBytes →
        fill ring.buffer (spans (ring.getWriteSpan maxBytes)) data =
          storeRing ring.buffer ring.capacity.toNat ring.writePos.toNat
            data := by
  obtain ⟨tail, positive, atMost, inside, toEnd, returned⟩ :=
    writeSpans_eq valid room (ring.offered_le maxBytes)
  have writeLow := valid.writePos_nonneg
  rw [getWriteSpan, returned]
  split
  · rename_i two
    have ends := toEnd two
    refine ⟨(by decide : (0 : Int) < 2),
      by simp [spans, spanTotal], ?_⟩
    intro data fits
    have first : ring.capacity.toNat - ring.writePos.toNat = tail.toNat := by
      omega
    have second : (data.drop tail.toNat).take
        (ring.offered maxBytes - tail).toNat = data.drop tail.toNat := by
      apply List.take_of_length_le
      rw [List.length_drop]
      omega
    simp [spans, fill, storeRing, first, second]
  · rename_i one
    refine ⟨(by decide : (0 : Int) < 1), ?_, ?_⟩
    · simp [spans, spanTotal]
      omega
    · intro data fits
      have all : data.take tail.toNat = data :=
        List.take_of_length_le (by omega)
      have allDirect : data.take (ring.capacity.toNat - ring.writePos.toNat) =
          data := List.take_of_length_le (by omega)
      have nothing : data.drop (ring.capacity.toNat - ring.writePos.toNat) =
          [] := List.drop_of_length_le (by omega)
      simp [spans, fill, storeRing, all, allDirect, nothing]

end RingBuffer

end IocpChat
