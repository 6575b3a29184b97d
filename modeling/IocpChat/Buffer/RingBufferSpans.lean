import IocpChat.Buffer.RingBufferFifo

/-!
# The spans of a ring buffer

`GetWriteSpan` and `GetReadSpan` lend out the cells that `Write` and `Peek`
would copy.  Both return a circular block, cut where the buffer ends.  A receive
may fill fewer cells than it was lent; `MoveWritePos` is told how many.
-/

namespace IocpChat

open FlatMemory

/-- What happens to a ring buffer: a call, received bytes that fill the spans of
`GetWriteSpan` as far as they go, and `MoveWritePos`. -/
inductive RingUse where
  | call (request : RingCall)
  | receive (maxBytes : Int) (data : List UInt8)
  | moveWritePos (size : Int)

/-- The cells of a span. -/
def WSABUF.Holds (span : WSABUF) (cell : Int) : Prop :=
  span.buf ≤ cell ∧ cell < span.buf + span.len

namespace RingBuffer

def use (ring : RingBuffer) : RingUse → RingBuffer
  | .call request => (call ring request).2
  | .receive maxBytes data =>
      let wsabufs := spans (ring.getWriteSpan maxBytes)
      { ring with buffer := fill ring.buffer wsabufs data }
  | .moveWritePos size => (ring.moveWritePos size).2

/-- A ring buffer of this capacity after some uses. -/
def InUse (capacity : Nat) (ring : RingBuffer) : Prop :=
  ∃ buffer uses, ring = List.foldl use (create capacity buffer) uses

/-- The cells of the stored bytes. -/
def Stores (ring : RingBuffer) (cell : Int) : Prop :=
  ∃ offset : Nat, offset < ring.getDataSize.toNat ∧
    cell = slot ring.capacity.toNat ring.readPos.toNat offset

/-- The bytes in the spans, in order. -/
def gather (ring : RingBuffer) (wsabufs : List WSABUF) : List UInt8 :=
  wsabufs.flatMap fun span => ring.copyOut span.buf span.len

/-- At most two spans, every returned entry of which was written, inside the
buffer and apart from each other, with `total` cells. -/
structure WellFormed (ring : RingBuffer) (total : Int) (returned : Spans) :
    Prop where
  initialised : ((spans returned).length : Int) = returned.spanCount
  atMostTwo : returned.spanCount ≤ 2
  inBounds : ∀ span ∈ spans returned,
    0 ≤ span.buf ∧ 0 < span.len ∧ span.buf + span.len ≤ ring.capacity
  disjoint : (spans returned).Pairwise fun one other =>
    ∀ cell, one.Holds cell → ¬other.Holds cell
  total_eq : spanTotal (spans returned) = total

/-- The spans of `GetWriteSpan`: they avoid the stored bytes, and filling the
first bytes of them followed by `MoveWritePos` is a `Write`. -/
structure LendsFree (ring : RingBuffer) (maxBytes : Int) : Prop where
  wellFormed : ring.WellFormed
    (if 0 < maxBytes then min ring.getFreeSize maxBytes else ring.getFreeSize)
    (ring.getWriteSpan maxBytes)
  avoids : ∀ span ∈ spans (ring.getWriteSpan maxBytes), ∀ cell,
    span.Holds cell → ¬ring.Stores cell
  isWrite : ∀ (data : Memory UInt8) (size : Nat), 0 < size →
    (size : Int) ≤ spanTotal (spans (ring.getWriteSpan maxBytes)) →
    ∃ next,
      ({ ring with
        buffer := fill ring.buffer (spans (ring.getWriteSpan maxBytes))
          (load data 0 size) } : RingBuffer).moveWritePos size =
        (true, next) ∧
      ring.write data size = (true, next)

/-- The spans of `GetReadSpan` hold what `Peek` copies. -/
structure LendsStored (ring : RingBuffer) (maxBytes : Int) : Prop where
  wellFormed : ring.WellFormed
    (if 0 < maxBytes then min ring.getDataSize maxBytes else ring.getDataSize)
    (ring.getReadSpan maxBytes)
  isPeek : ring.peek (spanTotal (spans (ring.getReadSpan maxBytes))) =
    if (ring.getReadSpan maxBytes).spanCount = 0 then none
    else some (ring.gather (spans (ring.getReadSpan maxBytes)))

/-- The spans over the `size` cells from `start` on: one, or two of which the
first ends with the buffer and the second starts it. -/
def CutAtEnd (capacity start size : Int) (returned : Spans) : Prop :=
  ∃ tail, 0 < tail ∧ tail ≤ size ∧ start + tail ≤ capacity ∧
    (tail < size → start + tail = capacity) ∧
    returned =
      if tail < size then
        { first := some { buf := start, len := tail }
          second := some { buf := 0, len := size - tail }
          spanCount := 2 }
      else
        { first := some { buf := start, len := tail }
          second := none
          spanCount := 1 }

section Spans

variable {ring : RingBuffer}

/-- One span or two. -/
theorem CutAtEnd.one_or_two {capacity start size : Int} {returned : Spans}
    (cut : CutAtEnd capacity start size returned) :
    0 < size ∧
      ((start + size ≤ capacity ∧ returned.spanCount = 1 ∧
          spans returned = [{ buf := start, len := size }]) ∨
        ∃ tail, 0 < tail ∧ tail < size ∧ start + tail = capacity ∧
          returned.spanCount = 2 ∧
          spans returned =
            [{ buf := start, len := tail },
              { buf := 0, len := size - tail }]) := by
  obtain ⟨tail, positive, atMost, inside, toEnd, rfl⟩ := cut
  refine ⟨by omega, ?_⟩
  split
  · rename_i two
    exact Or.inr ⟨tail, positive, two, toEnd two, rfl, rfl⟩
  · rename_i one
    obtain rfl : tail = size := by omega
    exact Or.inl ⟨inside, rfl, rfl⟩

theorem CutAtEnd.wellFormed {start size : Int} {returned : Spans}
    (cut : CutAtEnd ring.capacity start size returned) (low : 0 ≤ start)
    (within : size ≤ ring.capacity) : ring.WellFormed size returned := by
  obtain ⟨positive, one | two⟩ := cut.one_or_two
  · obtain ⟨inside, count, same⟩ := one
    constructor
    · rw [same, count]
      rfl
    · omega
    · rw [same, List.forall_mem_singleton]
      exact ⟨low, positive, inside⟩
    · rw [same]
      apply List.pairwise_singleton
    · rw [same]
      exact Int.add_zero size
  · obtain ⟨tail, tailPos, short, ends, count, same⟩ := two
    constructor
    · rw [same, count]
      rfl
    · omega
    · rw [same, List.forall_mem_cons, List.forall_mem_singleton]
      refine ⟨⟨low, tailPos, Int.le_of_eq ends⟩, Int.le_refl 0, ?_, ?_⟩
      · exact Int.sub_pos.mpr short
      · change 0 + (size - tail) ≤ ring.capacity
        omega
    · rw [same, List.pairwise_pair]
      intro cell first second
      obtain ⟨fromStart, _⟩ := first
      obtain ⟨_, toTail⟩ := second
      simp only at fromStart toTail
      omega
    · rw [same]
      change tail + (size - tail + 0) = size
      omega

/-- The cells of the spans are those of the block. -/
theorem CutAtEnd.slot_of_holds {capacity start size : Int} {returned : Spans}
    (cut : CutAtEnd capacity start size returned) (low : 0 ≤ start)
    (high : start < capacity)
    {span : WSABUF} (listed : span ∈ spans returned) {cell : Int}
    (holds : span.Holds cell) :
    ∃ offset : Nat, (offset : Int) < size ∧
      cell = slot capacity.toNat start.toNat offset := by
  obtain ⟨positive, one | two⟩ := cut.one_or_two
  · obtain ⟨inside, _, same⟩ := one
    rw [same, List.mem_singleton] at listed
    obtain ⟨lower, upper⟩ := holds
    rw [listed] at lower upper
    refine ⟨(cell - start).toNat, ?_, ?_⟩
    · simp only at lower upper
      omega
    · simp only [slot] at lower upper ⊢
      rw [if_pos (by omega)]
      omega
  · obtain ⟨tail, tailPos, short, ends, _, same⟩ := two
    rw [same, List.mem_cons, List.mem_singleton] at listed
    obtain ⟨lower, upper⟩ := holds
    rcases listed with first | second
    · rw [first] at lower upper
      refine ⟨(cell - start).toNat, ?_, ?_⟩
      · simp only at lower upper
        omega
      · simp only [slot] at lower upper ⊢
        rw [if_pos (by omega)]
        omega
    · rw [second] at lower upper
      refine ⟨(tail + cell).toNat, ?_, ?_⟩
      · simp only at lower upper
        omega
      · simp only [slot] at lower upper ⊢
        rw [if_neg (by omega)]
        omega

/-- The bytes of the spans are those of the block. -/
theorem CutAtEnd.gather_eq {start size : Int} {returned : Spans}
    (cut : CutAtEnd ring.capacity start size returned) (low : 0 ≤ start)
    (high : start < ring.capacity) :
    ring.gather (spans returned) =
      loadRing ring.buffer ring.capacity.toNat start.toNat size.toNat := by
  obtain ⟨positive, one | two⟩ := cut.one_or_two
  · obtain ⟨inside, _, same⟩ := one
    rw [same, gather, List.flatMap_singleton, loadRing_direct _ (by omega)]
    rfl
  · obtain ⟨tail, tailPos, short, ends, _, same⟩ := two
    have first : ring.capacity.toNat - start.toNat = tail.toNat := by omega
    have second : size.toNat - tail.toNat = (size - tail).toNat := by omega
    rw [same, gather, List.flatMap_cons, List.flatMap_singleton,
      loadRing_wrapped _ (by omega) (by omega), first, second]
    rfl

/-- The stored bytes are covered by the read spans. -/
theorem readSpans_cut (valid : ring.Valid) {dataSize : Int}
    (positive : 0 < dataSize) (stored : dataSize ≤ ring.getDataSize) :
    CutAtEnd ring.capacity ring.readPos dataSize (ring.readSpans dataSize) := by
  have sizes := getDataSize_eq valid
  obtain ⟨_, bounded, readLow, readHigh, writeLow, writeHigh⟩ := valid
  unfold readSpans
  rw [if_neg (by omega)]
  split at sizes
  · rename_i ordered
    rw [if_pos ordered]
    refine ⟨dataSize, positive, Int.le_refl _, by omega, ?_, ?_⟩
    · intro impossible
      exact absurd impossible (Int.lt_irrefl _)
    · rw [if_neg (Int.lt_irrefl _)]
  · rename_i wrapped
    have toEnd : int32 (ring.capacity - ring.readPos) =
        ring.capacity - ring.readPos :=
      int32_of_range (by omega) (by omega)
    rw [if_neg wrapped]
    simp only [toEnd]
    by_cases oneSpan : dataSize ≤ ring.capacity - ring.readPos
    · have nothingLeft : int32 (dataSize - dataSize) = 0 := by
        rw [Int.sub_self]
        exact int32_of_range (by decide) (by decide)
      simp only [min_eq_right oneSpan, nothingLeft, lt_irrefl, false_and,
        if_false]
      refine ⟨dataSize, positive, Int.le_refl _, by omega, ?_, ?_⟩
      · intro impossible
        exact absurd impossible (Int.lt_irrefl _)
      · rw [if_neg (Int.lt_irrefl _)]
    · -- the bytes go on at the start of the buffer
      have longer : ring.capacity - ring.readPos ≤ dataSize := by omega
      have left : int32 (dataSize - (ring.capacity - ring.readPos)) =
          dataSize - (ring.capacity - ring.readPos) :=
        int32_of_range (by omega) (by omega)
      have head : min ring.writePos
          (dataSize - (ring.capacity - ring.readPos)) =
          dataSize - (ring.capacity - ring.readPos) :=
        min_eq_right (by omega)
      have leftPos : 0 < dataSize - (ring.capacity - ring.readPos) := by
        omega
      have written : 0 < ring.writePos := by omega
      simp only [min_eq_left longer, left, head, leftPos, written, true_and,
        if_true]
      refine ⟨ring.capacity - ring.readPos, by omega, longer, by omega,
        fun _ => by omega, ?_⟩
      rw [if_pos (by omega)]

/-- An array in which nothing was written. -/
theorem wellFormed_none :
    ring.WellFormed 0 { first := none, second := none, spanCount := 0 } where
  initialised := rfl
  atMostTwo := by decide
  inBounds := by
    intro span listed
    cases listed
  disjoint := List.Pairwise.nil
  total_eq := rfl

theorem writeSpans_none {freeSize : Int} (none : freeSize ≤ 0) :
    ring.writeSpans freeSize =
      { first := .none, second := .none, spanCount := 0 } :=
  if_pos none

theorem readSpans_none {dataSize : Int} (none : dataSize ≤ 0) :
    ring.readSpans dataSize =
      { first := .none, second := .none, spanCount := 0 } :=
  if_pos none

/-- A free cell lies behind the stored ones. -/
theorem not_stores_of_free (valid : ring.Valid) {offset : Nat}
    (free : (offset : Int) < ring.getFreeSize) :
    ¬ring.Stores (slot ring.capacity.toNat ring.writePos.toNat offset) := by
  rintro ⟨stored, below, same⟩
  have freeSize := getFreeSize_eq valid
  have bounds := getDataSize_bounds valid
  have position := writePos_eq_slot valid
  obtain ⟨positive, bounded, readLow, readHigh, writeLow, writeHigh⟩ := valid
  rw [position, slot_slot (by omega) (by omega)] at same
  unfold slot at same
  split at same <;> split at same <;> omega

theorem lendsFree (valid : ring.Valid) (maxBytes : Int) :
    ring.LendsFree maxBytes := by
  have free := getFreeSize_eq valid
  have bounds := getDataSize_bounds valid
  have writeLow := valid.writePos_nonneg
  have writeHigh := valid.writePos_lt
  have limit : (if 0 < maxBytes then min ring.getFreeSize maxBytes
      else ring.getFreeSize) = ring.offered maxBytes := rfl
  have atMost := ring.offered_le maxBytes
  have nonneg : 0 ≤ ring.offered maxBytes := by
    unfold offered
    split <;> omega
  by_cases room : 0 < ring.offered maxBytes
  · have cut : CutAtEnd ring.capacity ring.writePos (ring.offered maxBytes)
        (ring.getWriteSpan maxBytes) :=
      writeSpans_eq valid room atMost
    have wellFormed := cut.wellFormed writeLow (by omega)
    constructor
    · rw [limit]
      exact wellFormed
    · intro span listed cell holds
      obtain ⟨offset, below, rfl⟩ :=
        cut.slot_of_holds writeLow writeHigh listed holds
      exact not_stores_of_free valid (by omega)
    · intro data size positive fits
      rw [wellFormed.total_eq] at fits
      have length := length_load data 0 size
      obtain ⟨_, _, filled⟩ := getWriteSpan_spec valid room
      have stored := filled (load data 0 size) (by omega)
      have nonempty : load data 0 size ≠ [] := by
        apply List.length_pos_iff.mp
        omega
      obtain ⟨next, moved, _⟩ := moveWritePos_spec valid nonempty
        (by omega) stored
      rw [length] at moved
      have written := write_eq valid data (by omega : (0 : Int) < size)
        (by omega)
      rw [Int.toNat_natCast, ← stored] at written
      exact ⟨next, moved, written.trans moved⟩
  · have nothing : ring.offered maxBytes = 0 := by omega
    have empty : ring.getWriteSpan maxBytes =
        { first := none, second := none, spanCount := 0 } :=
      writeSpans_none (Int.le_of_eq nothing)
    constructor
    · rw [limit, nothing, empty]
      exact wellFormed_none
    · intro span listed
      rw [empty] at listed
      cases listed
    · intro data size positive fits
      rw [empty] at fits
      change (size : Int) ≤ 0 at fits
      omega

theorem lendsStored (valid : ring.Valid) (maxBytes : Int) :
    ring.LendsStored maxBytes := by
  have bounds := getDataSize_bounds valid
  have readLow := valid.readPos_nonneg
  have readHigh := valid.readPos_lt
  have limit : (if 0 < maxBytes then min ring.getDataSize maxBytes
      else ring.getDataSize) = ring.readable maxBytes := rfl
  have atMost : ring.readable maxBytes ≤ ring.getDataSize := by
    unfold readable
    split <;> omega
  have nonneg : 0 ≤ ring.readable maxBytes := by
    unfold readable
    split <;> omega
  by_cases some : 0 < ring.readable maxBytes
  · have cut : CutAtEnd ring.capacity ring.readPos (ring.readable maxBytes)
        (ring.getReadSpan maxBytes) :=
      readSpans_cut valid some atMost
    have wellFormed := cut.wellFormed readLow (by omega)
    have returned : ¬(ring.getReadSpan maxBytes).spanCount = 0 := by
      obtain ⟨_, ⟨_, count, _⟩ | ⟨_, _, _, _, count, _⟩⟩ := cut.one_or_two
      · omega
      · omega
    constructor
    · rw [limit]
      exact wellFormed
    · rw [wellFormed.total_eq, if_neg returned, peek_eq valid some atMost,
        cut.gather_eq readLow readHigh, contents,
        take_loadRing _ (by omega) (by omega) (by omega)]
  · have nothing : ring.readable maxBytes = 0 := by omega
    have empty : ring.getReadSpan maxBytes =
        { first := none, second := none, spanCount := 0 } :=
      readSpans_none (Int.le_of_eq nothing)
    constructor
    · rw [limit, nothing, empty]
      exact wellFormed_none
    · rw [empty, if_pos rfl]
      exact if_pos (Or.inl (Int.le_refl 0))

end Spans

section Uses

/-- A well-formed ring buffer is a queue of its contents. -/
theorem Valid.represents {ring : RingBuffer} (valid : ring.Valid) :
    ∃ bound, ∃ queue : BoundedQueue UInt8 bound, ring.Represents queue := by
  have bounds := getDataSize_bounds valid
  have positive := valid.capacity_pos
  have length := length_contents ring
  refine ⟨ring.capacity.toNat - 1,
    { items := ring.contents
      within := by omega }, valid, by omega, rfl⟩

theorem moveWritePos_keeps {ring : RingBuffer} (valid : ring.Valid)
    (size : Int) :
    (ring.moveWritePos size).2.Valid ∧
      (ring.moveWritePos size).2.capacity = ring.capacity := by
  have free := getFreeSize_eq valid
  have bounds := getDataSize_bounds valid
  unfold moveWritePos
  split
  · exact ⟨valid, rfl⟩
  · rename_i accepted
    have moved := move_eq valid valid.writePos_nonneg valid.writePos_lt
      (by omega : 0 ≤ size) (by omega)
    obtain ⟨positive, bounded, readLow, readHigh, writeLow, writeHigh⟩ := valid
    refine ⟨⟨positive, bounded, readLow, readHigh, ?_, ?_⟩, rfl⟩
    · simp only [moved]
      split <;> omega
    · simp only [moved]
      split <;> omega

theorem use_keeps {ring : RingBuffer} (valid : ring.Valid) (use : RingUse) :
    (ring.use use).Valid ∧ (ring.use use).capacity = ring.capacity := by
  cases use with
  | call request =>
      obtain ⟨bound, queue, represents⟩ := valid.represents
      have later := (call_simulates request represents).2
      exact ⟨later.valid, later.bound_eq.trans represents.bound_eq.symm⟩
  | receive maxBytes data =>
      obtain ⟨positive, bounded, readLow, readHigh, writeLow, writeHigh⟩ :=
        valid
      exact ⟨⟨positive, bounded, readLow, readHigh, writeLow, writeHigh⟩, rfl⟩
  | moveWritePos size => exact moveWritePos_keeps valid size

theorem InUse.valid {capacity : Nat} {ring : RingBuffer}
    (positive : 0 < capacity) (bounded : capacity ≤ 2 ^ 30)
    (inUse : InUse capacity ring) : ring.Valid := by
  obtain ⟨buffer, uses, rfl⟩ := inUse
  have created := (create_represents positive bounded buffer).valid
  generalize create capacity buffer = ring at created
  induction uses generalizing ring with
  | nil => exact created
  | cons first uses induction =>
      exact induction _ (use_keeps created first).1

/-- The span path agrees with the copying path, whatever the ring buffer went
through. -/
theorem spans_agree {capacity : Nat} {ring : RingBuffer}
    (positive : 0 < capacity) (bounded : capacity ≤ 2 ^ 30)
    (inUse : InUse capacity ring) (maxBytes : Int) :
    ring.LendsFree maxBytes ∧ ring.LendsStored maxBytes :=
  ⟨lendsFree (inUse.valid positive bounded) maxBytes,
    lendsStored (inUse.valid positive bounded) maxBytes⟩

/-- A receive of 5 bytes into a ring of 8, of which 4 are read and 4 more are
received across the end. -/
theorem spans_agree_wrapped :
    let uses : List RingUse :=
      [.receive 0 [1, 2, 3, 4, 5], .moveWritePos 5, .call (.read 4),
        .receive 4 [6, 7, 8, 9], .moveWritePos 4]
    let ring := uses.foldl use (create (8 : Nat) fun _ => 0)
    (ring.LendsFree 0 ∧ ring.LendsStored 0) ∧
      ring.contents = [5, 6, 7, 8, 9] :=
  ⟨spans_agree (by decide) (by decide) ⟨_, _, rfl⟩ 0, by decide⟩

end Uses

end RingBuffer

end IocpChat
