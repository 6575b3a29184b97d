import Mathlib.Data.List.Basic
import Mathlib.Data.Set.BooleanAlgebra
import Mathlib.Data.Set.Disjoint
import Mathlib.Order.CompletePartialOrder

/-!
# Flat memory with block copies

A memory is a total map from addresses to cells.  `load` and `store` are the
two halves of a block copy; the lemmas say what a copy changes, what it leaves
alone and how adjacent copies compose.  Where there are several memories, an
`extent` is a block of one of them.
-/

namespace FlatMemory

/-- An address space of cells. -/
abbrev Memory (Cell : Type u) := Nat → Cell

variable {Cell : Type u}

/-- The `length` cells from `address` on. -/
def load (memory : Memory Cell) (address length : Nat) : List Cell :=
  (List.range length).map fun index => memory (address + index)

/-- Overwrite the cells from `address` on by a block. -/
def store (memory : Memory Cell) (address : Nat) (block : List Cell) :
    Memory Cell :=
  fun index =>
    if address ≤ index then
      (block[index - address]?).getD (memory index)
    else memory index

@[simp] theorem length_load (memory : Memory Cell) (address length : Nat) :
    (load memory address length).length = length := by
  simp [load]

theorem getElem?_load (memory : Memory Cell) (address length index : Nat) :
    (load memory address length)[index]? =
      if index < length then some (memory (address + index)) else none := by
  by_cases inside : index < length
  · simp [load, inside]
  · simp [load, inside]

/-- A long load is two adjacent loads. -/
theorem load_add (memory : Memory Cell) (address first second : Nat) :
    load memory address (first + second) =
      load memory address first ++ load memory (address + first) second := by
  simp [load, List.range_add, Nat.add_assoc]

theorem take_load (memory : Memory Cell) (address length count : Nat)
    (within : count ≤ length) :
    (load memory address length).take count = load memory address count := by
  obtain ⟨extra, rfl⟩ := Nat.exists_eq_add_of_le within
  rw [load_add]
  simp

theorem drop_load (memory : Memory Cell) (address length count : Nat)
    (within : count ≤ length) :
    (load memory address length).drop count =
      load memory (address + count) (length - count) := by
  obtain ⟨extra, rfl⟩ := Nat.exists_eq_add_of_le within
  rw [load_add]
  simp

/-- Two memories that agree on a block give the same load. -/
theorem load_congr {left right : Memory Cell} {address length : Nat}
    (agree : ∀ index, address ≤ index → index < address + length →
      left index = right index) :
    load left address length = load right address length := by
  apply List.map_congr_left
  intro index member
  have inside : index < length := List.mem_range.mp member
  exact agree (address + index) (by omega) (by omega)

@[simp] theorem store_nil (memory : Memory Cell) (address : Nat) :
    store memory address [] = memory := by
  funext index
  simp [store]

/-- Cells outside the stored block keep their value. -/
theorem store_outside (memory : Memory Cell) {address index : Nat}
    {block : List Cell}
    (outside : index < address ∨ address + block.length ≤ index) :
    store memory address block index = memory index := by
  unfold store
  rcases outside with before | after
  · simp [Nat.not_le_of_gt before]
  · have beyond : block[index - address]? = none :=
      List.getElem?_eq_none (by omega)
    simp [beyond]

theorem store_inside (memory : Memory Cell) (address : Nat)
    (block : List Cell) {index : Nat} (inside : index < block.length) :
    store memory address block (address + index) = block[index] := by
  simp [store, inside]

/-- Loading back exactly what was stored. -/
theorem load_store_same (memory : Memory Cell) (address : Nat)
    (block : List Cell) :
    load (store memory address block) address block.length = block := by
  apply List.ext_getElem?
  intro index
  rw [getElem?_load]
  by_cases inside : index < block.length
  · simp [inside, store_inside memory address block inside]
  · simp [inside]

/-- A store does not disturb a disjoint block. -/
theorem load_store_disjoint (memory : Memory Cell)
    {address length target : Nat} {block : List Cell}
    (disjoint : address + length ≤ target ∨
      target + block.length ≤ address) :
    load (store memory target block) address length =
      load memory address length := by
  apply load_congr
  intro index lower upper
  exact store_outside memory (by omega)

section Extents

variable {Key : Type v}

/-- The cells of a block, in one of several memories. -/
def extent (memory : Key) (address length : Nat) : Set (Key × Nat) :=
  { cell | cell.1 = memory ∧ address ≤ cell.2 ∧ cell.2 < address + length }

theorem extent_disjoint_of_ne {left right : Key} (different : left ≠ right)
    (address length target size : Nat) :
    Disjoint (extent left address length) (extent right target size) := by
  apply Set.disjoint_left.mpr
  intro cell inLeft inRight
  exact different (inLeft.1.symm.trans inRight.1)

theorem extent_disjoint_of_le {memory : Key} {address length target : Nat}
    (before : address + length ≤ target) (size : Nat) :
    Disjoint (extent memory address length) (extent memory target size) := by
  apply Set.disjoint_left.mpr
  intro cell inLeft inRight
  have low := inLeft.2.2
  have high := inRight.2.1
  omega

end Extents

end FlatMemory
