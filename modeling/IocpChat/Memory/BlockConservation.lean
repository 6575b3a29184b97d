import IocpChat.Memory.BlockCounts

/-!
# No block twice, none too short

Whatever the threads allocate and release, a pool's block has one place, in the
slot and the pool of its size class; `Alloc` returns a block that is not live
and is large enough, `Release` takes every live block back, and the counters
are those of the places.
-/

namespace IocpChat.PoolAllocator

open TransitionSystem

variable {Thread : Type}

/-- The block has the pool's size class, and `Release` finds the pool and its
slot in the header. -/
structure OfPool (state : PoolAllocator Thread) (pool : Nat) (block : Block) :
    Prop where
  header : state.headers block = .attach (state.pools pool).allocSize
  poolTable : PoolTable.init.poolTable (state.headers block).allocSize =
    some pool
  poolIdx : poolIdx (state.headers block).allocSize = pool

variable [DecidableEq Thread] [Fintype Thread]

/-- `held` is what a call in progress has between two of its steps. -/
structure Conserves (state : PoolAllocator Thread) : Prop where
  onePlace : ∀ block < state.nextBlock,
    (state.headers block).allocSize ≤ maxAllocSize →
      ∃! place, block ∈ state.file place
  once : ∀ place, (state.file place).Nodup
  cached : ∀ thread slot, ∀ block ∈ state.caches thread slot,
    state.OfPool slot block
  cacheBound : ∀ thread slot, (state.caches thread slot).length ≤ 48
  free : ∀ pool, ∀ block ∈ (state.pools pool).freeList,
    state.OfPool pool block
  returned : ∀ block size, (block, size) ∈ state.live → 1 ≤ size →
    size ≤ 4096 → ∃ pool, PoolTable.init.poolTable size = some pool ∧
      state.OfPool pool block ∧ size ≤ (state.pools pool).allocSize
  fresh : ∀ action next block size, state.step action = some next →
    next.live = state.live ++ [(block, size)] →
      ∀ other, (block, other) ∉ state.live
  allocs : ∀ thread size, state.pcs thread = .idle →
    (state.step (.alloc thread size)).isSome
  releases : ∀ thread block size, state.pcs thread = .idle →
    (block, size) ∈ state.live → (state.step (.release thread block)).isSome
  advances : ∀ thread, state.pcs thread ≠ .idle →
    (state.step (.advance thread)).isSome
  allocCount : ∀ pool, (state.pools pool).allocCount =
    int32 (liveIn state.live pool + cachedIn state.caches pool +
      Threads.total (AllocPc.counted pool) state.pcs +
        (state.pools pool).freeList.length : Nat)
  useCount : ∀ pool, (state.pools pool).useCount =
    int32 (liveIn state.live pool + cachedIn state.caches pool +
      Threads.total (AllocPc.used pool) state.pcs : Nat)
  settled : (∀ thread, state.pcs thread = .idle) → ∀ pool,
    (state.pools pool).allocCount =
        int32 (liveIn state.live pool + cachedIn state.caches pool +
          (state.pools pool).freeList.length : Nat) ∧
      (state.pools pool).useCount =
        int32 (liveIn state.live pool + cachedIn state.caches pool : Nat)

section Progress

variable {state : PoolAllocator Thread} {thread : Thread}

omit [DecidableEq Thread] [Fintype Thread] in
theorem Classified.ofPool (classified : state.Classified) {pool : Nat}
    {block : Block} (hasClass : HasClass state.headers pool block) :
    state.OfPool pool block := by
  obtain ⟨allocSize, isClass, header⟩ := hasClass
  have sameSize := classified.allocSize_eq isClass
  constructor
  · rw [sameSize, header]
  · rw [header]
    exact PoolTable.poolTable_class isClass
  · rw [header]
    exact PoolTable.poolIdx_class isClass

omit [Fintype Thread] in
/-- `_poolTable` has a pool for every size that is not large. -/
theorem alloc_isSome (size : Int) : (state.alloc thread size).isSome := by
  unfold alloc
  split
  · rfl
  · split
    · rfl
    · rename_i small
      have inTable : (PoolTable.init.poolTable size.toNat).isSome := by
        rw [PoolTable.poolTable_isSome_iff]
        omega
      obtain ⟨pool, found⟩ := Option.isSome_iff_exists.mp inTable
      simp only [found]
      split <;> rfl

omit [Fintype Thread] in
theorem release_isSome (classified : state.Classified)
    {entry : Block × Nat} (member : entry ∈ state.live) :
    (state.release thread entry).isSome := by
  obtain ⟨_, header⟩ := classified.live entry member
  simp only [release, header, MemoryHeader.attach, ne_eq, not_true_eq_false,
    if_false]
  split
  · rfl
  · rename_i notLarge
    obtain ⟨pool, ⟨_, found⟩, _⟩ :=
      classified.hasClass_of_live member (Nat.le_of_not_lt notLarge)
    obtain ⟨allocSize, isClass, _⟩ := PoolTable.class_of_poolTable found
    simp only [classSize_eq found isClass, PoolTable.poolTable_class isClass]
    split <;> rfl

omit [Fintype Thread] in
/-- `localList.back()` is there in every round of the loop. -/
theorem advance_isSome (classified : state.Classified)
    (busy : state.pcs thread ≠ .idle) : (state.advance thread).isSome := by
  have fits := (classified.threads thread).pc
  unfold advance
  cases at_ : state.pcs thread with
  | idle => exact absurd at_ busy
  | pop size pool =>
      simp only
      split <;> rfl
  | flush pool slot i block =>
      rw [at_] at fits
      obtain ⟨rfl, _, length, _⟩ := fits
      simp only
      split
      · rename_i more
        split
        · rename_i flushHeader rest list
          obtain ⟨_, _, header⟩ := (classified.threads thread).cached slot
            flushHeader (list ▸ List.mem_cons_self ..)
          rw [header, MemoryHeader.attach, if_neg (not_not_intro rfl)]
          rfl
        · rename_i list
          rw [list] at length
          have few : i = maxLocalCache := (Nat.zero_add i).symm.trans length
          rw [few] at more
          exact absurd more (by decide)
      · rfl
  | _ => rfl

end Progress

/-- At every moment of every history of calls. -/
theorem reachable_conserves {state : PoolAllocator Thread}
    (reachable : (machine Thread).Reachable state) : state.Conserves := by
  obtain ⟨⟨placed, classified⟩, counted⟩ := reachable_counted reachable
  exact
    { onePlace := fun block old small =>
        placed.exclusive.existsUnique (placed.filed block old small)
      once := placed.exclusive.nodup
      cached := fun thread slot block member =>
        classified.ofPool ((classified.threads thread).cached slot block member)
      cacheBound := fun thread slot => (classified.threads thread).bounded slot
      free := fun pool block member =>
        classified.ofPool (classified.free pool block member)
      returned := by
        intro block size isLive positive small
        have inTable : (PoolTable.init.poolTable size).isSome :=
          PoolTable.poolTable_isSome_iff.mpr small
        obtain ⟨pool, found⟩ := Option.isSome_iff_exists.mp inTable
        obtain ⟨allocSize, isClass, fits, _⟩ :=
          PoolTable.class_of_poolTable found
        have header := (classified.live _ isLive).2
        rw [classSize_eq found isClass] at header
        refine ⟨pool, found, ?_, ?_⟩
        · exact classified.ofPool ⟨allocSize, isClass, header⟩
        · rw [classified.allocSize_eq isClass]
          exact fits
      fresh := by
        intro action next block size stepped returned other isLive
        have after := (step_valid ⟨placed, classified⟩ stepped).1
        have distinct : (next.live.map Prod.fst).Nodup :=
          after.exclusive.nodup .live
        rw [returned, List.map_append] at distinct
        have notAgain := List.disjoint_of_nodup_append distinct
        apply notAgain (List.mem_map_of_mem isLive)
        exact List.mem_singleton_self _
      allocs := by
        intro thread size idle
        rw [step, if_pos idle]
        exact alloc_isSome size
      releases := by
        intro thread block size idle isLive
        rw [step, if_pos idle]
        cases found : state.live.find? fun entry => entry.1 == block with
        | some entry =>
            apply release_isSome classified
            exact List.mem_of_find?_eq_some found
        | none =>
            have differs := List.find?_eq_none.mp found _ isLive
            exact absurd (beq_self_eq_true block) differs
      advances := fun thread busy => advance_isSome classified busy
      allocCount := fun pool => (counted pool).allocCount
      useCount := fun pool => (counted pool).useCount
      settled := by
        intro idle pool
        have empty : ∀ weight : AllocPc → Nat, weight .idle = 0 →
            Threads.total weight state.pcs = 0 := by
          intro weight weightless
          apply Threads.total_eq_zero
          exact fun thread => (congrArg weight (idle thread)).trans weightless
        have counts := counted pool
        constructor
        · rw [counts.allocCount, outside, empty _ rfl]
          rfl
        · rw [counts.useCount, outside, empty _ rfl]
          rfl }

/-- One thread allocates, the other releases and takes the block again. -/
theorem reachable_conserves_twoThreads :
    ∃ state, (machine Bool).run initial
        [.alloc true 24, .advance true, .alloc false 5000, .advance true,
          .advance true, .advance true, .advance true, .release false 1,
          .alloc false 30, .alloc true 0, .release true 0] = some state ∧
      state.live = [(1, 30)] ∧ (state.pools 0).useCount = 1 ∧
      state.Conserves := by
  have computed : ((machine Bool).run initial
      [.alloc true 24, .advance true, .alloc false 5000, .advance true,
        .advance true, .advance true, .advance true, .release false 1,
        .alloc false 30, .alloc true 0, .release true 0]).map
          (fun state => (state.live, (state.pools 0).useCount)) =
        some ([(1, 30)], 1) := by
    decide +kernel
  obtain ⟨state, replayed, view⟩ := Option.map_eq_some_iff.mp computed
  obtain ⟨live, used⟩ := Prod.mk.inj view
  refine ⟨state, replayed, live, used, ?_⟩
  exact reachable_conserves (.of_run (.start rfl) replayed)

end IocpChat.PoolAllocator
