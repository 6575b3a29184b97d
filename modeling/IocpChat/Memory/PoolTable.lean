import Mathlib.Data.List.Basic
import Mathlib.Logic.Function.Basic

/-!
# The size classes

`PoolAllocator::Init` makes a pool for every size class and enters each size up
to 4096 in the table of pools.  The slot of a thread's cache is computed from
the size class by a formula of its own; it is the number of the pool.
-/

namespace IocpChat

/-- The pools by their `_allocSize`, in the order in which they are made; a
pool is named by its place.  `currentPoolIdx` is the first size that is not in
the table. -/
structure PoolTable where
  pools : List Nat
  poolTable : Nat → Option Nat
  currentPoolIdx : Nat

namespace PoolTable

/-- So many rounds of `while (currentPoolIdx <= size)`. -/
def fill (pool : Nat) : Nat → (Nat → Option Nat) → Nat → Nat → Option Nat
  | 0, poolTable, _ => poolTable
  | rounds + 1, poolTable, currentPoolIdx =>
      fill pool rounds
        (Function.update poolTable currentPoolIdx (some pool))
        (currentPoolIdx + 1)

/-- The body of the loops over `size`. -/
def addPool (table : PoolTable) (size : Nat) : PoolTable :=
  let pool := table.pools.length
  let rounds := size + 1 - table.currentPoolIdx
  { pools := table.pools ++ [size]
    poolTable := fill pool rounds table.poolTable table.currentPoolIdx
    currentPoolIdx := table.currentPoolIdx + rounds }

/-- The values of `size` in
`for (int32 size = first; size <= last; size += step)`. -/
def sizes (first last step : Nat) : List Nat :=
  List.range' first ((last - first) / step + 1) step

/-- `PoolAllocator::Init`. -/
def init : PoolTable :=
  let table : PoolTable :=
    { pools := []
      poolTable := fun _ => none
      currentPoolIdx := 0 }
  let table := (sizes 32 1024 32).foldl addPool table
  let table := (sizes (1024 + 128) 2048 128).foldl addPool table
  (sizes (2048 + 256) 4096 256).foldl addPool table

end PoolTable

/-- `MAX_ALLOC_SIZE`. -/
def maxAllocSize : Nat := 4096

/-- The slot of `LMemoryCache.cache` for blocks of this size class. -/
def poolIdx (allocSize : Nat) : Nat :=
  if allocSize ≤ 1024 then allocSize / 32 - 1
  else if allocSize ≤ 2048 then 32 + (allocSize - 1024) / 128 - 1
  else 40 + (allocSize - 2048) / 256 - 1

namespace PoolTable

theorem fill_apply (pool rounds : Nat) (poolTable : Nat → Option Nat)
    (currentPoolIdx index : Nat) :
    fill pool rounds poolTable currentPoolIdx index =
      if currentPoolIdx ≤ index ∧ index < currentPoolIdx + rounds then
        some pool
      else poolTable index := by
  induction rounds generalizing poolTable currentPoolIdx with
  | zero =>
      have nowhere : ¬(currentPoolIdx ≤ index ∧ index < currentPoolIdx + 0) :=
        fun ⟨low, high⟩ => Nat.not_lt.mpr low high
      rw [if_neg nowhere]
      rfl
  | succ rounds induction =>
      rw [fill, induction]
      by_cases here : index = currentPoolIdx
      · subst here
        have first : index ≤ index ∧ index < index + (rounds + 1) := by omega
        have later : ¬(index + 1 ≤ index ∧ index < index + 1 + rounds) := by
          omega
        rw [if_neg later, if_pos first, Function.update_self]
      · have same : (currentPoolIdx + 1 ≤ index ∧
            index < currentPoolIdx + 1 + rounds) ↔
            currentPoolIdx ≤ index ∧ index < currentPoolIdx + (rounds + 1) := by
          omega
        simp only [same, Function.update_of_ne here]

/-- A size is in the table with the first pool whose blocks are as large. -/
structure Built (table : PoolTable) : Prop where
  poolTable : ∀ index, table.poolTable index =
    table.pools.findIdx? fun size => index ≤ size
  currentPoolIdx : ∀ index, index < table.currentPoolIdx ↔
    ∃ size ∈ table.pools, index ≤ size

theorem Built.addPool {table : PoolTable} (built : table.Built) (size : Nat) :
    (table.addPool size).Built where
  poolTable := by
    intro index
    have found := built.currentPoolIdx index
    simp only [PoolTable.addPool, fill_apply, built.poolTable,
      List.findIdx?_append]
    cases first : table.pools.findIdx? fun size => index ≤ size with
    | some pool =>
        have known : index < table.currentPoolIdx := by
          obtain ⟨known, fits, _⟩ :=
            List.findIdx?_eq_some_iff_getElem.mp first
          exact found.mpr ⟨_, List.getElem_mem known, of_decide_eq_true fits⟩
        rw [if_neg (by omega)]
        rfl
    | none =>
        have unknown : table.currentPoolIdx ≤ index := by
          apply Nat.le_of_not_lt
          intro known
          obtain ⟨other, member, fits⟩ := found.mp known
          have misses := List.findIdx?_eq_none_iff.mp first other member
          exact absurd fits (of_decide_eq_false misses)
        by_cases fits : index ≤ size
        · rw [if_pos (by omega)]
          simp [fits]
        · rw [if_neg (by omega)]
          simp [fits]
  currentPoolIdx := by
    intro index
    have found := built.currentPoolIdx index
    simp only [PoolTable.addPool, List.mem_append, List.mem_singleton,
      or_and_right, exists_or, exists_eq_left, ← found]
    omega

theorem Built.addPools {table : PoolTable} (built : table.Built)
    (sizes : List Nat) : (sizes.foldl PoolTable.addPool table).Built := by
  induction sizes generalizing table with
  | nil => exact built
  | cons size rest induction => exact induction (built.addPool size)

theorem init_built : init.Built := by
  apply Built.addPools
  apply Built.addPools
  apply Built.addPools
  exact
    { poolTable := fun _ => rfl
      currentPoolIdx := fun index => by simp }

theorem pools_addPools (table : PoolTable) (sizes : List Nat) :
    (sizes.foldl addPool table).pools = table.pools ++ sizes := by
  induction sizes generalizing table with
  | nil => exact (List.append_nil _).symm
  | cons size rest induction =>
      rw [List.foldl_cons, induction]
      exact List.append_assoc ..

theorem init_pools :
    init.pools =
      sizes 32 1024 32 ++ sizes (1024 + 128) 2048 128 ++
        sizes (2048 + 256) 4096 256 := by
  simp only [init, pools_addPools]
  rfl

theorem init_pools_sorted : init.pools.Pairwise (· < ·) := by
  rw [init_pools]
  decide

/-- A block of a pool is looked up under the pool's own class. -/
theorem poolTable_class {pool allocSize : Nat}
    (isClass : init.pools[pool]? = some allocSize) :
    init.poolTable allocSize = some pool := by
  rw [init_built.poolTable]
  obtain ⟨inside, rfl⟩ := List.getElem?_eq_some_iff.mp isClass
  apply List.findIdx?_eq_some_iff_getElem.mpr
  refine ⟨inside, decide_eq_true (Nat.le_refl _), ?_⟩
  intro earlier before
  have smaller := List.pairwise_iff_getElem.mp init_pools_sorted earlier pool
    (Nat.lt_trans before inside) inside before
  simpa using smaller

/-- A size is looked up in a pool whose blocks are large enough. -/
theorem class_of_poolTable {size pool : Nat}
    (found : init.poolTable size = some pool) :
    ∃ allocSize, init.pools[pool]? = some allocSize ∧ size ≤ allocSize ∧
      allocSize ≤ maxAllocSize := by
  rw [init_built.poolTable] at found
  obtain ⟨inside, fits, _⟩ := List.findIdx?_eq_some_iff_getElem.mp found
  refine ⟨_, List.getElem?_eq_getElem inside, of_decide_eq_true fits, ?_⟩
  have small : ∀ allocSize ∈ init.pools, allocSize ≤ maxAllocSize := by
    rw [init_pools]
    decide
  exact small _ (List.getElem_mem inside)

theorem poolTable_isSome_iff {size : Nat} :
    (init.poolTable size).isSome ↔ size ≤ maxAllocSize := by
  constructor
  · intro found
    obtain ⟨pool, found⟩ := Option.isSome_iff_exists.mp found
    obtain ⟨allocSize, _, fits, small⟩ := class_of_poolTable found
    exact Nat.le_trans fits small
  · intro small
    have largest : maxAllocSize ∈ init.pools := by
      rw [init_pools]
      decide
    rw [init_built.poolTable, List.findIdx?_isSome, List.any_eq_true]
    exact ⟨_, largest, decide_eq_true small⟩

/-- The formula for the slot counts the pools. -/
theorem poolIdx_class {pool allocSize : Nat}
    (isClass : init.pools[pool]? = some allocSize) :
    poolIdx allocSize = pool := by
  have all : ∀ pool < 48, ∀ allocSize ∈ init.pools[pool]?,
      poolIdx allocSize = pool := by
    rw [init_pools]
    decide
  obtain ⟨inside, _⟩ := List.getElem?_eq_some_iff.mp isClass
  have length : init.pools.length = 48 := by
    rw [init_pools]
    rfl
  exact all pool (length ▸ inside) allocSize isClass

end PoolTable

end IocpChat
