import IocpChat.Lib.Memory

/-!
# Circular blocks

A block of at most `capacity` cells that starts anywhere below `capacity` and
continues at cell 0.  `slot` is the cell at an offset from the start; `loadRing`
and `storeRing` copy a circular block in the two pieces it consists of.
-/

namespace FlatMemory

variable {Cell : Type u}

/-- The cell `offset` steps after `start`, at most once around. -/
def slot (capacity start offset : Nat) : Nat :=
  if start + offset < capacity then start + offset
  else start + offset - capacity

theorem slot_lt {capacity start offset : Nat} (inside : start < capacity)
    (within : offset ≤ capacity) : slot capacity start offset < capacity := by
  unfold slot
  split <;> omega

/-- Two moves in a row are one longer move. -/
theorem slot_slot {capacity start first second : Nat}
    (inside : start < capacity) (within : first + second ≤ capacity) :
    slot capacity (slot capacity start first) second =
      slot capacity start (first + second) := by
  unfold slot
  split <;> split <;> split <;> omega

/-- The `length` cells from `start` on, once around at most. -/
def loadRing (memory : Memory Cell) (capacity start length : Nat) :
    List Cell :=
  (List.range length).map fun offset => memory (slot capacity start offset)

/-- Overwrite the cells from `start` on, the part past the end at cell 0. -/
def storeRing (memory : Memory Cell) (capacity start : Nat)
    (block : List Cell) : Memory Cell :=
  store (store memory start (block.take (capacity - start))) 0
    (block.drop (capacity - start))

@[simp] theorem length_loadRing (memory : Memory Cell)
    (capacity start length : Nat) :
    (loadRing memory capacity start length).length = length := by
  simp [loadRing]

/-- A circular block that does not reach the end is a plain block. -/
theorem loadRing_direct (memory : Memory Cell) {capacity start length : Nat}
    (direct : start + length ≤ capacity) :
    loadRing memory capacity start length = load memory start length := by
  apply List.map_congr_left
  intro offset member
  have below : offset < length := List.mem_range.mp member
  simp [slot, show start + offset < capacity by omega]

/-- A circular block that passes the end is two plain blocks. -/
theorem loadRing_wrapped (memory : Memory Cell) {capacity start length : Nat}
    (inside : start < capacity) (wrapped : capacity ≤ start + length) :
    loadRing memory capacity start length =
      load memory start (capacity - start) ++
        load memory 0 (length - (capacity - start)) := by
  have split : length =
      (capacity - start) + (length - (capacity - start)) := by omega
  rw [loadRing, split, List.range_add, List.map_append, Nat.add_sub_cancel_left]
  congr 1
  · apply List.map_congr_left
    intro offset member
    have below : offset < capacity - start := List.mem_range.mp member
    simp [slot, show start + offset < capacity by omega]
  · rw [List.map_map]
    apply List.map_congr_left
    intro offset _
    have beyond : ¬start + (capacity - start + offset) < capacity := by omega
    have index : start + (capacity - start + offset) - capacity = offset := by
      omega
    simp [slot, beyond, index]

theorem loadRing_add (memory : Memory Cell)
    {capacity start first second : Nat} (inside : start < capacity)
    (within : first + second ≤ capacity) :
    loadRing memory capacity start (first + second) =
      loadRing memory capacity start first ++
        loadRing memory capacity (slot capacity start first) second := by
  rw [loadRing, List.range_add, List.map_append, List.map_map]
  congr 1
  apply List.map_congr_left
  intro offset member
  have below : offset < second := List.mem_range.mp member
  rw [slot_slot inside (by omega)]
  rfl

theorem take_loadRing (memory : Memory Cell)
    {capacity start length count : Nat} (inside : start < capacity)
    (within : length ≤ capacity) (enough : count ≤ length) :
    (loadRing memory capacity start length).take count =
      loadRing memory capacity start count := by
  obtain ⟨rest, rfl⟩ := Nat.exists_eq_add_of_le enough
  rw [loadRing_add memory inside within, List.take_left' (by simp)]

theorem drop_loadRing (memory : Memory Cell)
    {capacity start length count : Nat} (inside : start < capacity)
    (within : length ≤ capacity) (enough : count ≤ length) :
    (loadRing memory capacity start length).drop count =
      loadRing memory capacity (slot capacity start count)
        (length - count) := by
  obtain ⟨rest, rfl⟩ := Nat.exists_eq_add_of_le enough
  rw [loadRing_add memory inside within, List.drop_left' (by simp),
    Nat.add_sub_cancel_left]

/-- Storing a block that does not reach the end is a plain store. -/
theorem storeRing_direct (memory : Memory Cell) {capacity start : Nat}
    {block : List Cell} (direct : start + block.length ≤ capacity) :
    storeRing memory capacity start block = store memory start block := by
  have fits : block.length ≤ capacity - start := by omega
  rw [storeRing, List.take_of_length_le fits, List.drop_of_length_le fits,
    store_nil]

/-- A stored cell holds its element of the block. -/
theorem storeRing_slot (memory : Memory Cell) {capacity start offset : Nat}
    {block : List Cell} (inside : start < capacity)
    (within : block.length ≤ capacity) (below : offset < block.length) :
    storeRing memory capacity start block (slot capacity start offset) =
      block[offset] := by
  unfold storeRing slot
  split
  · rename_i direct
    rw [store_outside _ (Or.inr (by rw [List.length_drop]; omega)),
      store_inside _ _ _ (by rw [List.length_take]; omega),
      List.getElem_take]
  · rename_i wrapped
    have index : start + offset - capacity <
        (block.drop (capacity - start)).length := by
      rw [List.length_drop]
      omega
    have shift : capacity - start + (start + offset - capacity) = offset := by
      omega
    have stored := store_inside
      (store memory start (block.take (capacity - start))) 0
      (block.drop (capacity - start)) index
    rw [Nat.zero_add] at stored
    rw [stored, List.getElem_drop]
    congr 1

/-- Storing a block leaves the rest of the circle alone. -/
theorem storeRing_beyond (memory : Memory Cell) {capacity start offset : Nat}
    {block : List Cell} (inside : start < capacity)
    (beyond : block.length ≤ offset) (below : offset < capacity) :
    storeRing memory capacity start block (slot capacity start offset) =
      memory (slot capacity start offset) := by
  unfold storeRing slot
  split
  · rename_i direct
    rw [store_outside _ (Or.inr (by rw [List.length_drop]; omega)),
      store_outside _ (Or.inr (by rw [List.length_take]; omega))]
  · rename_i wrapped
    rw [store_outside _ (Or.inr (by rw [List.length_drop]; omega)),
      store_outside _ (Or.inl (by omega))]

/-- A block stored right behind a loaded one extends it. -/
theorem loadRing_storeRing (memory : Memory Cell)
    {capacity start length : Nat} {block : List Cell}
    (inside : start < capacity) (within : length + block.length ≤ capacity) :
    loadRing
        (storeRing memory capacity (slot capacity start length) block)
        capacity start (length + block.length) =
      loadRing memory capacity start length ++ block := by
  have behind : slot capacity start length < capacity :=
    slot_lt inside (by omega)
  apply List.ext_getElem
  · simp
  · intro offset below _
    rw [length_loadRing] at below
    simp only [loadRing, List.getElem_map, List.getElem_range]
    by_cases earlier : offset < length
    · -- seen from the block, the earlier cells lie behind it
      have around : slot capacity start offset =
          slot capacity (slot capacity start length)
            (capacity - length + offset) := by
        unfold slot
        split <;> split <;> split <;> omega
      rw [around, storeRing_beyond memory behind (by omega) (by omega),
        ← around, List.getElem_append_left (by simpa using earlier)]
      simp
    · have position : slot capacity start offset =
          slot capacity (slot capacity start length) (offset - length) := by
        rw [slot_slot inside (by omega)]
        congr 1
        omega
      rw [position, storeRing_slot memory behind (by omega) (by omega),
        List.getElem_append_right (by simpa using Nat.le_of_not_lt earlier)]
      simp

end FlatMemory
