import IocpChat.Buffer.RingBuffer
import IocpChat.Lib.BoundedQueue
import IocpChat.Lib.Component

/-!
# The ring buffer is a bounded queue

For every sequence of calls the ring buffer answers like a queue of
`capacity - 1` bytes.  `callSums` lists the `int32` sums that a call computes,
before they are wrapped.
-/

namespace IocpChat

open FlatMemory

/-- A call with the memory `data` points to; sizes are whatever the caller
passes. -/
inductive RingCall where
  | write (data : Memory UInt8) (size : Int)
  | read (size : Int)
  | peek (size : Int)
  | moveReadPos (size : Int)
  | clear

/-- The returned value, and the bytes that were copied to `dest`. -/
structure RingResult where
  succeeded : Bool
  dest : List UInt8
  deriving DecidableEq, Repr

def RingResult.refused : RingResult :=
  { succeeded := false
    dest := [] }

def RingResult.accepted (dest : List UInt8) : RingResult :=
  { succeeded := true
    dest := dest }

namespace RingBuffer

/-- `RingBuffer::RingBuffer`; the memory is not initialised. -/
def create (capacity : Int) (buffer : Memory UInt8) : RingBuffer :=
  { buffer := buffer
    capacity := capacity
    readPos := 0
    writePos := 0 }

def call : Component RingBuffer RingCall RingResult
  | ring, .write data size =>
      let (succeeded, ring) := ring.write data size
      ({ succeeded := succeeded, dest := [] }, ring)
  | ring, .read size =>
      let (dest, succeeded, ring) := ring.read size
      ({ succeeded := succeeded, dest := dest.getD [] }, ring)
  | ring, .peek size =>
      match ring.peek size with
      | some dest => (.accepted dest, ring)
      | none => (.refused, ring)
  | ring, .moveReadPos size =>
      let (succeeded, ring) := ring.moveReadPos size
      ({ succeeded := succeeded, dest := [] }, ring)
  | ring, .clear => (.accepted [], ring.clear)

section Sums

def dataSizeSums (ring : RingBuffer) : List Int :=
  if ring.readPos ≤ ring.writePos then [ring.writePos - ring.readPos]
  else
    [ring.capacity - ring.readPos,
      ring.capacity - ring.readPos + ring.writePos]

def freeSizeSums (ring : RingBuffer) : List Int :=
  ring.dataSizeSums ++
    [ring.capacity - 1, ring.capacity - 1 - ring.getDataSize]

/-- The sums of a copy from or to `position`. -/
def copySums (ring : RingBuffer) (position size : Int) : List Int :=
  if position + size ≤ ring.capacity then [position + size]
  else
    [position + size, ring.capacity - position,
      size - (ring.capacity - position)]

def peekSums (ring : RingBuffer) (size : Int) : List Int :=
  if size ≤ 0 then []
  else
    ring.dataSizeSums ++
      if ring.getDataSize < size then []
      else ring.copySums ring.readPos size

def moveReadPosSums (ring : RingBuffer) (size : Int) : List Int :=
  if size ≤ 0 then []
  else
    ring.dataSizeSums ++
      if ring.getDataSize < size then [] else [ring.readPos + size]

/-- The sums that a call computes. -/
def callSums (ring : RingBuffer) : RingCall → List Int
  | .write _ size =>
      if size ≤ 0 then []
      else
        ring.freeSizeSums ++
          if ring.getFreeSize < size then []
          else ring.copySums ring.writePos size
  | .read size => ring.peekSums size ++ ring.moveReadPosSums size
  | .peek size => ring.peekSums size
  | .moveReadPos size => ring.moveReadPosSums size
  | .clear => []

end Sums

/-- The sizes that a call can succeed for. -/
def Admits (ring : RingBuffer) : RingCall → Prop
  | .write _ size => 0 < size ∧ size ≤ ring.getFreeSize
  | .read size => 0 < size ∧ size ≤ ring.getDataSize
  | .peek size => 0 < size ∧ size ≤ ring.getDataSize
  | .moveReadPos size => 0 < size ∧ size ≤ ring.getDataSize
  | .clear => True

end RingBuffer

/-- An operation that is only asked for with a positive size. -/
def forSize {Answer : Type} (size : Int) (operation : Nat → Option Answer) :
    Option Answer :=
  if 0 < size then operation size.toNat else none

theorem forSize_eq_none {Answer : Type} {size : Int}
    {operation : Nat → Option Answer}
    (refused : 0 < size → operation size.toNat = none) :
    forSize size operation = none := by
  unfold forSize
  split
  · rename_i positive
    exact refused positive
  · rfl

/-- A queue of bytes under the same calls. -/
def byteQueue (bound : Nat) :
    Component (BoundedQueue UInt8 bound) RingCall RingResult
  | queue, .write data size =>
      match forSize size fun length => queue.push (load data 0 length) with
      | some next => (.accepted [], next)
      | none => (.refused, queue)
  | queue, .read size =>
      match forSize size queue.front, forSize size queue.pop with
      | some dest, some next => (.accepted dest, next)
      | _, _ => (.refused, queue)
  | queue, .peek size =>
      match forSize size queue.front with
      | some dest => (.accepted dest, queue)
      | none => (.refused, queue)
  | queue, .moveReadPos size =>
      match forSize size queue.pop with
      | some next => (.accepted [], next)
      | none => (.refused, queue)
  | _, .clear => (.accepted [], .empty)

namespace RingBuffer

/-- The ring buffer holds the bytes of the queue. -/
structure Represents (ring : RingBuffer) {bound : Nat}
    (queue : BoundedQueue UInt8 bound) : Prop where
  valid : ring.Valid
  bound_eq : ring.capacity = bound + 1
  contents : ring.contents = queue.items

variable {ring : RingBuffer} {bound : Nat} {queue : BoundedQueue UInt8 bound}

theorem Represents.getDataSize (represents : ring.Represents queue) :
    ring.getDataSize = queue.size := by
  have stored := length_contents ring
  have bounds := getDataSize_bounds represents.valid
  rw [represents.contents] at stored
  change queue.size = _ at stored
  omega

theorem Represents.getFreeSize (represents : ring.Represents queue) :
    ring.getFreeSize = queue.free := by
  have within := queue.within
  change queue.size ≤ bound at within
  rw [getFreeSize_eq represents.valid, represents.getDataSize,
    represents.bound_eq, BoundedQueue.free]
  omega

/-- `Write` stores the bytes like a receive would, and moves the write
position over them. -/
theorem write_eq (valid : ring.Valid) (data : Memory UInt8) {size : Int}
    (positive : 0 < size) (fits : size ≤ ring.getFreeSize) :
    ring.write data size =
      ({ ring with
        buffer := storeRing ring.buffer ring.capacity.toNat
          ring.writePos.toNat (load data 0 size.toNat) } :
          RingBuffer).moveWritePos size := by
  have bounds := getDataSize_bounds valid
  have free := getFreeSize_eq valid
  have writeLow := valid.writePos_nonneg
  have writeHigh := valid.writePos_lt
  have bounded := valid.capacity_le
  have refused : ¬(size ≤ 0 ∨ ring.getFreeSize < size) := by omega
  have moved := move_eq valid writeLow writeHigh (by omega : 0 ≤ size)
    (by omega)
  have sum : int32 (ring.writePos + size) = ring.writePos + size :=
    int32_of_range (by omega) (by omega)
  have accepts : ∀ buffer : Memory UInt8,
      ({ ring with buffer := buffer } : RingBuffer).moveWritePos size =
        (true,
          { ring with
            buffer := buffer
            writePos :=
              (int32 (ring.writePos + size)).tmod ring.capacity }) :=
    fun _ => if_neg refused
  rw [accepts, write, if_neg refused]
  split
  · rename_i direct
    rw [sum] at direct
    have plain : ring.writePos.toNat + (load data 0 size.toNat).length ≤
        ring.capacity.toNat := by
      rw [length_load]
      omega
    rw [storeRing_direct _ plain]
    rfl
  · rename_i wrapped
    rw [sum] at wrapped
    have firstPart : int32 (ring.capacity - ring.writePos) =
        ring.capacity - ring.writePos :=
      int32_of_range (by omega) (by omega)
    have secondPart : int32 (size - (ring.capacity - ring.writePos)) =
        size - (ring.capacity - ring.writePos) :=
      int32_of_range (by omega) (by omega)
    have position : (int32 (ring.writePos + size)).tmod ring.capacity =
        size - (ring.capacity - ring.writePos) := by
      rw [moved, if_neg (by omega)]
      omega
    have tail : ring.capacity.toNat - ring.writePos.toNat =
        (ring.capacity - ring.writePos).toNat := by omega
    simp only [firstPart, secondPart, position]
    rw [storeRing, tail, take_load _ _ _ _ (by omega),
      drop_load _ _ _ _ (by omega)]
    have rest : size.toNat - (ring.capacity - ring.writePos).toNat =
        (size - (ring.capacity - ring.writePos)).toNat := by omega
    rw [rest, Nat.zero_add]
    rfl

theorem write_accepts (represents : ring.Represents queue)
    (data : Memory UInt8) {size : Int} (positive : 0 < size)
    (fits : size ≤ ring.getFreeSize) :
    ∃ next more, ring.write data size = (true, next) ∧
      queue.push (load data 0 size.toNat) = some more ∧
      next.Represents more := by
  let block := load data 0 size.toNat
  have length : (block.length : Int) = size := by
    rw [length_load]
    omega
  have nonempty : block ≠ [] := by
    apply List.length_pos_iff.mp
    omega
  obtain ⟨next, moved, valid, capacity, contents⟩ :=
    moveWritePos_spec represents.valid nonempty (length.trans_le fits) rfl
  rw [length] at moved
  have free := represents.getFreeSize
  have room : block.length ≤ queue.free := by omega
  refine ⟨next, _, (write_eq represents.valid data positive fits).trans moved,
    dif_pos room, ?_⟩
  exact
    { valid := valid
      bound_eq := capacity.trans represents.bound_eq
      contents := by rw [contents, represents.contents] }

theorem peek_accepts (represents : ring.Represents queue) {size : Int}
    (positive : 0 < size) (fits : size ≤ ring.getDataSize) :
    ∃ dest, ring.peek size = some dest ∧
      queue.front size.toNat = some dest := by
  have stored := represents.getDataSize
  have enough : size.toNat ≤ queue.size := by omega
  refine ⟨_, peek_eq represents.valid positive fits, ?_⟩
  rw [BoundedQueue.front, if_pos enough, represents.contents]

theorem moveReadPos_accepts (represents : ring.Represents queue)
    {size : Int} (positive : 0 < size) (fits : size ≤ ring.getDataSize) :
    ∃ next fewer, ring.moveReadPos size = (true, next) ∧
      queue.pop size.toNat = some fewer ∧ next.Represents fewer := by
  have stored := represents.getDataSize
  have enough : size.toNat ≤ queue.size := by omega
  obtain ⟨next, moved, valid, capacity, _, contents⟩ :=
    moveReadPos_spec represents.valid positive fits
  refine ⟨next, _, moved, if_pos enough, ?_⟩
  exact
    { valid := valid
      bound_eq := capacity.trans represents.bound_eq
      contents := by rw [contents, represents.contents] }

theorem Represents.clear (represents : ring.Represents queue) :
    ring.clear.Represents (.empty : BoundedQueue UInt8 bound) := by
  have valid := represents.valid
  refine
    { valid :=
        { capacity_pos := valid.capacity_pos
          capacity_le := valid.capacity_le
          readPos_nonneg := Int.le_refl 0
          readPos_lt := valid.capacity_pos
          writePos_nonneg := Int.le_refl 0
          writePos_lt := valid.capacity_pos }
      bound_eq := represents.bound_eq
      contents := rfl }

/-- A refused call changes nothing. -/
theorem call_refused {request : RingCall} (refused : ¬ring.Admits request) :
    ring.call request = (.refused, ring) := by
  have bad : ∀ {size limit : Int}, ¬(0 < size ∧ size ≤ limit) →
      size ≤ 0 ∨ limit < size := by
    intro size limit outside
    omega
  cases request with
  | write data size =>
      simp only [call, write, if_pos (bad refused)]
      rfl
  | read size =>
      simp only [call, read, peek, if_pos (bad refused)]
      rfl
  | peek size => simp only [call, peek, if_pos (bad refused)]
  | moveReadPos size =>
      simp only [call, moveReadPos, if_pos (bad refused)]
      rfl
  | clear => exact absurd trivial refused

/-- The queue refuses the same calls. -/
theorem byteQueue_refused (represents : ring.Represents queue)
    {request : RingCall} (refused : ¬ring.Admits request) :
    byteQueue bound queue request = (.refused, queue) := by
  have stored := represents.getDataSize
  have free := represents.getFreeSize
  have tooMany : ∀ {size : Int}, ¬(0 < size ∧ size ≤ ring.getDataSize) →
      0 < size → queue.size < size.toNat := by
    intro size outside positive
    omega
  cases request with
  | write data size =>
      have none : forSize size (fun length =>
          queue.push (load data 0 length)) = none := by
        apply forSize_eq_none
        intro positive
        apply BoundedQueue.push_eq_none
        rw [length_load]
        simp only [Admits] at refused
        omega
      simp only [byteQueue, none]
  | read size =>
      have none := forSize_eq_none fun positive =>
        BoundedQueue.front_eq_none (tooMany refused positive)
      simp only [byteQueue, none]
  | peek size =>
      have none := forSize_eq_none fun positive =>
        BoundedQueue.front_eq_none (tooMany refused positive)
      simp only [byteQueue, none]
  | moveReadPos size =>
      have none := forSize_eq_none fun positive =>
        BoundedQueue.pop_eq_none (tooMany refused positive)
      simp only [byteQueue, none]
  | clear => exact absurd trivial refused

/-- An admitted call succeeds, with the queue's answer. -/
theorem call_accepts (represents : ring.Represents queue)
    {request : RingCall} (admitted : ring.Admits request) :
    (ring.call request).1.succeeded = true ∧
      (ring.call request).1 = (byteQueue bound queue request).1 ∧
      (ring.call request).2.Represents
        (byteQueue bound queue request).2 := by
  cases request with
  | write data size =>
      obtain ⟨positive, fits⟩ := admitted
      obtain ⟨next, more, written, pushed, later⟩ :=
        write_accepts represents data positive fits
      simp only [call, byteQueue, forSize, written, if_pos positive, pushed]
      exact ⟨trivial, rfl, later⟩
  | read size =>
      obtain ⟨positive, fits⟩ := admitted
      obtain ⟨dest, peeked, front⟩ := peek_accepts represents positive fits
      obtain ⟨next, fewer, moved, popped, later⟩ :=
        moveReadPos_accepts represents positive fits
      simp only [call, byteQueue, forSize, read, peeked, moved,
        if_pos positive, front, popped]
      exact ⟨trivial, rfl, later⟩
  | peek size =>
      obtain ⟨positive, fits⟩ := admitted
      obtain ⟨dest, peeked, front⟩ := peek_accepts represents positive fits
      simp only [call, byteQueue, forSize, peeked, if_pos positive, front]
      exact ⟨rfl, trivial, represents⟩
  | moveReadPos size =>
      obtain ⟨positive, fits⟩ := admitted
      obtain ⟨next, fewer, moved, popped, later⟩ :=
        moveReadPos_accepts represents positive fits
      simp only [call, byteQueue, forSize, moved, if_pos positive, popped]
      exact ⟨trivial, rfl, later⟩
  | clear => exact ⟨rfl, rfl, represents.clear⟩

theorem call_simulates :
    call.Simulates (byteQueue bound)
      (fun ring queue => ring.Represents queue) := by
  intro ring queue request represents
  by_cases admitted : ring.Admits request
  · exact (call_accepts represents admitted).2
  · rw [call_refused admitted, byteQueue_refused represents admitted]
    exact ⟨rfl, represents⟩

/-- The values an `int32` can hold. -/
def InRange (value : Int) : Prop :=
  -(2 ^ 31) ≤ value ∧ value < 2 ^ 31

section Overflow

variable (valid : ring.Valid)

include valid

theorem dataSizeSums_inRange : ∀ sum ∈ ring.dataSizeSums, InRange sum := by
  obtain ⟨positive, bounded, readLow, readHigh, writeLow, writeHigh⟩ := valid
  unfold dataSizeSums InRange
  split <;> simp only [List.mem_cons, List.not_mem_nil, or_false,
    forall_eq_or_imp, forall_eq] <;> omega

theorem freeSizeSums_inRange : ∀ sum ∈ ring.freeSizeSums, InRange sum := by
  have bounds := getDataSize_bounds valid
  have bounded := valid.capacity_le
  have rest : ∀ sum ∈ [ring.capacity - 1,
      ring.capacity - 1 - ring.getDataSize], InRange sum := by
    simp only [List.mem_cons, List.not_mem_nil, or_false,
    forall_eq_or_imp, forall_eq, InRange]
    omega
  exact List.forall_mem_append.mpr ⟨dataSizeSums_inRange valid, rest⟩

theorem copySums_inRange {position size : Int} (low : 0 ≤ position)
    (high : position < ring.capacity) (positive : 0 < size)
    (within : size < ring.capacity) :
    ∀ sum ∈ ring.copySums position size, InRange sum := by
  have bounded := valid.capacity_le
  unfold copySums InRange
  split <;> simp only [List.mem_cons, List.not_mem_nil, or_false,
    forall_eq_or_imp, forall_eq] <;> omega

theorem peekSums_inRange (size : Int) :
    ∀ sum ∈ ring.peekSums size, InRange sum := by
  have bounds := getDataSize_bounds valid
  unfold peekSums
  split
  · simp
  · refine List.forall_mem_append.mpr ⟨dataSizeSums_inRange valid, ?_⟩
    split
    · simp
    · exact copySums_inRange valid valid.readPos_nonneg valid.readPos_lt
        (by omega) (by omega)

theorem moveReadPosSums_inRange (size : Int) :
    ∀ sum ∈ ring.moveReadPosSums size, InRange sum := by
  have bounds := getDataSize_bounds valid
  have bounded := valid.capacity_le
  have readLow := valid.readPos_nonneg
  have readHigh := valid.readPos_lt
  unfold moveReadPosSums
  split
  · simp
  · refine List.forall_mem_append.mpr ⟨dataSizeSums_inRange valid, ?_⟩
    unfold InRange
    split
    · simp
    · simp only [List.mem_cons, List.not_mem_nil, or_false, forall_eq]
      omega

/-- No call overflows. -/
theorem callSums_inRange (request : RingCall) :
    ∀ sum ∈ ring.callSums request, InRange sum := by
  have bounds := getDataSize_bounds valid
  have free := getFreeSize_eq valid
  cases request with
  | write data size =>
      simp only [callSums]
      split
      · simp
      · refine List.forall_mem_append.mpr ⟨freeSizeSums_inRange valid, ?_⟩
        split
        · simp
        · exact copySums_inRange valid valid.writePos_nonneg
            valid.writePos_lt (by omega) (by omega)
  | read size =>
      exact List.forall_mem_append.mpr
        ⟨peekSums_inRange valid size, moveReadPosSums_inRange valid size⟩
  | peek size => exact peekSums_inRange valid size
  | moveReadPos size => exact moveReadPosSums_inRange valid size
  | clear => simp [callSums]

end Overflow

/-- The ring buffer as its callers see it: the queue it stands for, and what
every further call does. -/
structure IsQueue (ring : RingBuffer) {bound : Nat}
    (queue : BoundedQueue UInt8 bound) : Prop where
  readPos : 0 ≤ ring.readPos ∧ ring.readPos < bound + 1
  writePos : 0 ≤ ring.writePos ∧ ring.writePos < bound + 1
  contents : ring.contents = queue.items
  dataSize : ring.getDataSize = queue.items.length
  sizes : ring.getDataSize + ring.getFreeSize = bound
  noOverflow : ∀ request, ∀ sum ∈ ring.callSums request, InRange sum
  succeeds : ∀ request,
    (ring.call request).1.succeeded = true ↔ ring.Admits request
  unchanged : ∀ request, (ring.call request).1.succeeded = false →
    (ring.call request).2 = ring

theorem Represents.isQueue (represents : ring.Represents queue) :
    ring.IsQueue queue := by
  have valid := represents.valid
  have same := represents.bound_eq
  have readHigh := valid.readPos_lt
  have writeHigh := valid.writePos_lt
  rw [same] at readHigh writeHigh
  refine
    { readPos := ⟨valid.readPos_nonneg, readHigh⟩
      writePos := ⟨valid.writePos_nonneg, writeHigh⟩
      contents := represents.contents
      dataSize := represents.getDataSize
      sizes := ?_
      noOverflow := callSums_inRange valid
      succeeds := ?_
      unchanged := ?_ }
  · rw [getFreeSize_eq valid]
    omega
  · intro request
    constructor
    · intro succeeded
      by_contra refused
      rw [call_refused refused] at succeeded
      cases succeeded
    · intro admitted
      exact (call_accepts represents admitted).1
  · intro request failed
    by_cases admitted : ring.Admits request
    · rw [(call_accepts represents admitted).1] at failed
      cases failed
    · rw [call_refused admitted]

theorem create_represents {capacity : Nat} (positive : 0 < capacity)
    (bounded : capacity ≤ 2 ^ 30) (buffer : Memory UInt8) :
    (create capacity buffer).Represents
      (.empty : BoundedQueue UInt8 (capacity - 1)) where
  valid :=
    { capacity_pos := Int.natCast_pos.mpr positive
      capacity_le := by
        change (capacity : Int) ≤ 2 ^ 30
        omega
      readPos_nonneg := Int.le_refl 0
      readPos_lt := Int.natCast_pos.mpr positive
      writePos_nonneg := Int.le_refl 0
      writePos_lt := Int.natCast_pos.mpr positive }
  bound_eq := by
    change (capacity : Int) = _
    omega
  contents := rfl

/-- Every sequence of calls on a ring buffer is answered as by a queue of
`capacity - 1` bytes. -/
theorem run_isQueue {capacity : Nat} (positive : 0 < capacity)
    (bounded : capacity ≤ 2 ^ 30) (buffer : Memory UInt8)
    (calls : List RingCall) :
    let ring := create capacity buffer
    let queue : BoundedQueue UInt8 (capacity - 1) := .empty
    (call.run ring calls).1 = ((byteQueue (capacity - 1)).run queue calls).1 ∧
      (call.run ring calls).2.IsQueue
        ((byteQueue (capacity - 1)).run queue calls).2 := by
  intro ring queue
  have represents : ring.Represents queue :=
    create_represents positive bounded buffer
  obtain ⟨sameResults, later⟩ := call_simulates.run represents calls
  exact ⟨sameResults, later.isQueue⟩

/-- Two writes and reads on a ring of 8 bytes, the second across its end. -/
theorem run_isQueue_wrapped :
    let calls : List RingCall :=
      [.write (fun address => UInt8.ofNat address) 6, .read 6,
        .write (fun address => UInt8.ofNat address) 5, .read 5]
    let ring := create (8 : Nat) fun _ => 0
    let queue : BoundedQueue UInt8 (8 - 1) := .empty
    (call.run ring calls).1 = ((byteQueue (8 - 1)).run queue calls).1 ∧
      (call.run ring calls).2.IsQueue
        ((byteQueue (8 - 1)).run queue calls).2 :=
  run_isQueue (by decide) (by decide) _ _

end RingBuffer

end IocpChat
