import IocpChat.Lib.Threads
import IocpChat.Memory.BlockPlaces

/-!
# The headers of the blocks

The header of a block says to which pool it belongs, so `Release` finds the
slot and the pool from which `Alloc` took it.  No assertion of the allocator
fails, and a full cache always has the blocks that it gives back.
-/

namespace IocpChat

open Filing TransitionSystem

/-- The size class of a request; a large block is as large as asked for. -/
def classSize (size : Nat) : Nat :=
  match PoolTable.init.poolTable size with
  | some pool => PoolTable.init.pools.getD pool 0
  | none => size

/-- The header of the block is that of a block of the pool. -/
def HasClass (headers : Block → MemoryHeader) (pool : Nat) (block : Block) :
    Prop :=
  ∃ allocSize, PoolTable.init.pools[pool]? = some allocSize ∧
    headers block = .attach allocSize

/-- The request is for the pool. -/
def Asks (size pool : Nat) : Prop :=
  0 < size ∧ PoolTable.init.poolTable size = some pool

/-- What holds of a thread in the middle of a call. -/
def AllocPc.Fits (headers : Block → MemoryHeader) (cache : Nat → List Block) :
    AllocPc → Prop
  | idle => True
  | pop size pool => Asks size pool
  | allocate size pool => Asks size pool
  | countAlloc size pool block => Asks size pool ∧ HasClass headers pool block
  | countUse size pool block => Asks size pool ∧ HasClass headers pool block
  | attachHeader size pool block =>
      Asks size pool ∧ HasClass headers pool block
  | flush pool slot i block =>
      slot = pool ∧ i ≤ batchSize ∧
        (cache pool).length + i = maxLocalCache ∧ HasClass headers pool block
  | push pool slot i flushHeader block =>
      slot = pool ∧ i < batchSize ∧
        (cache pool).length + i + 1 = maxLocalCache ∧
        HasClass headers pool flushHeader ∧ HasClass headers pool block

structure ThreadFits (headers : Block → MemoryHeader)
    (cache : Nat → List Block) (pc : AllocPc) : Prop where
  cached : ∀ slot, ∀ block ∈ cache slot, HasClass headers slot block
  bounded : ∀ slot, (cache slot).length ≤ maxLocalCache
  pc : pc.Fits headers cache

theorem classSize_eq {size pool allocSize : Nat}
    (found : PoolTable.init.poolTable size = some pool)
    (isClass : PoolTable.init.pools[pool]? = some allocSize) :
    classSize size = allocSize := by
  rw [classSize, found]
  exact (List.getD_eq_getElem?_getD ..).trans
    (congrArg (Option.getD · 0) isClass)

theorem le_classSize (size : Nat) : size ≤ classSize size := by
  cases found : PoolTable.init.poolTable size with
  | some pool =>
      obtain ⟨allocSize, isClass, fits, _⟩ :=
        PoolTable.class_of_poolTable found
      rw [classSize_eq found isClass]
      exact fits
  | none => rw [classSize, found]

theorem poolTable_of_large {size : Nat} (large : maxAllocSize < size) :
    PoolTable.init.poolTable size = none := by
  apply Option.not_isSome_iff_eq_none.mp
  rw [PoolTable.poolTable_isSome_iff]
  exact Nat.not_le.mpr large

theorem poolTable_of_largeClass {size : Nat}
    (large : maxAllocSize < classSize size) :
    PoolTable.init.poolTable size = none := by
  cases found : PoolTable.init.poolTable size with
  | some pool =>
      obtain ⟨allocSize, isClass, _, small⟩ :=
        PoolTable.class_of_poolTable found
      rw [classSize_eq found isClass] at large
      exact absurd small (Nat.not_le.mpr large)
  | none => rfl

/-- A call looks at the headers of the blocks in its hands only. -/
theorem AllocPc.Fits.mono {headers other : Block → MemoryHeader}
    {cache : Nat → List Block} {pc : AllocPc} (fits : pc.Fits headers cache)
    (kept : ∀ block ∈ pc.held, ∀ pool,
      HasClass headers pool block → HasClass other pool block) :
    pc.Fits other cache := by
  cases pc with
  | countAlloc size pool block =>
      exact ⟨fits.1, kept block (List.mem_singleton_self _) pool fits.2⟩
  | countUse size pool block =>
      exact ⟨fits.1, kept block (List.mem_singleton_self _) pool fits.2⟩
  | attachHeader size pool block =>
      exact ⟨fits.1, kept block (List.mem_singleton_self _) pool fits.2⟩
  | flush pool slot i block =>
      obtain ⟨sameSlot, rounds, length, hasClass⟩ := fits
      refine ⟨sameSlot, rounds, length, ?_⟩
      exact kept block (List.mem_singleton_self _) pool hasClass
  | push pool slot i flushHeader block =>
      obtain ⟨sameSlot, rounds, length, flushClass, hasClass⟩ := fits
      refine ⟨sameSlot, rounds, length, ?_, ?_⟩
      · exact kept flushHeader (List.mem_cons_self ..) pool flushClass
      · exact kept block (List.mem_cons_of_mem _ (List.mem_singleton_self _))
          pool hasClass
  | _ => exact fits

theorem ThreadFits.update {headers : Block → MemoryHeader}
    {cache : Nat → List Block} {pc next : AllocPc} {slot : Nat}
    {list : List Block} (fits : ThreadFits headers cache pc)
    (listed : ∀ block ∈ list, HasClass headers slot block)
    (short : list.length ≤ maxLocalCache)
    (after : next.Fits headers (Function.update cache slot list)) :
    ThreadFits headers (Function.update cache slot list) next where
  cached := Threads.forall_update
    (fun slot (list : List Block) =>
      ∀ block ∈ list, HasClass headers slot block)
    fits.cached listed
  bounded := Threads.forall_update
    (fun _ (list : List Block) => list.length ≤ maxLocalCache)
    fits.bounded short
  pc := after

namespace PoolAllocator

variable {Thread : Type}

/-- Every block has the header of the place where it is. -/
structure Classified (state : PoolAllocator Thread) : Prop where
  poolSizes : ∀ pool, (state.pools pool).allocSize =
    PoolTable.init.pools.getD pool 0
  free : ∀ pool, ∀ block ∈ (state.pools pool).freeList,
    HasClass state.headers pool block
  live : ∀ entry ∈ state.live, 0 < entry.2 ∧
    state.headers entry.1 = .attach (classSize entry.2)
  threads : ∀ thread,
    ThreadFits state.headers (state.caches thread) (state.pcs thread)

section Operations

variable [DecidableEq Thread] {state : PoolAllocator Thread} {thread : Thread}

theorem Classified.setThread (classified : state.Classified) {slot : Nat}
    {list : List Block} {pc : AllocPc}
    (self : ThreadFits state.headers
      (Function.update (state.caches thread) slot list) pc) :
    ((state.setCache thread slot list).setPc thread pc).Classified :=
  { classified with
    threads := by
      intro other
      by_cases own : other = thread
      · subst own
        simpa [setPc, setCache] using self
      · simpa [setPc, setCache, own] using classified.threads other }

theorem Classified.setPc (classified : state.Classified) {pc : AllocPc}
    (fits : pc.Fits state.headers (state.caches thread)) :
    (state.setPc thread pc).Classified :=
  { classified with
    threads := Threads.forall_update
      (fun other => ThreadFits state.headers (state.caches other))
      classified.threads { classified.threads thread with pc := fits } }

theorem Classified.setCache (classified : state.Classified) {slot : Nat}
    {list : List Block} (idle : state.pcs thread = .idle)
    (listed : ∀ block ∈ list, HasClass state.headers slot block)
    (short : list.length ≤ maxLocalCache) :
    (state.setCache thread slot list).Classified :=
  { classified with
    threads := by
      intro other
      by_cases own : other = thread
      · subst own
        have fits := (classified.threads other).update listed short
          (show AllocPc.idle.Fits _ _ from trivial)
        simpa [PoolAllocator.setCache, idle] using fits
      · simpa [PoolAllocator.setCache, own] using classified.threads other }

omit [DecidableEq Thread] in
theorem Classified.setPool (classified : state.Classified) {pool : Nat}
    {value : MemoryPool}
    (sameSize : value.allocSize = (state.pools pool).allocSize)
    (free : ∀ block ∈ value.freeList, HasClass state.headers pool block) :
    (state.setPool pool value).Classified :=
  { classified with
    poolSizes := Threads.forall_update
      (fun pool (value : MemoryPool) =>
        value.allocSize = PoolTable.init.pools.getD pool 0)
      classified.poolSizes (sameSize.trans (classified.poolSizes pool))
    free := Threads.forall_update
      (fun pool (value : MemoryPool) => ∀ block ∈ value.freeList,
        HasClass state.headers pool block)
      classified.free free }

omit [DecidableEq Thread] in
theorem Classified.setLive (classified : state.Classified)
    {live : List (Block × Nat)}
    (returned : ∀ entry ∈ live, 0 < entry.2 ∧
      state.headers entry.1 = .attach (classSize entry.2)) :
    (state.setLive live).Classified :=
  { classified with live := returned }

omit [DecidableEq Thread] in
/-- A pool's blocks have one size. -/
theorem Classified.allocSize_eq (classified : state.Classified)
    {pool allocSize : Nat}
    (isClass : PoolTable.init.pools[pool]? = some allocSize) :
    (state.pools pool).allocSize = allocSize := by
  rw [classified.poolSizes, List.getD_eq_getElem?_getD, isClass]
  rfl

omit [DecidableEq Thread] in
/-- `AttachHeader` writes what is there already. -/
theorem attachHeader_eq {pool allocSize : Nat} {block : Block}
    (hasClass : HasClass state.headers pool block)
    (isClass : PoolTable.init.pools[pool]? = some allocSize) :
    state.attachHeader block allocSize = state := by
  obtain ⟨_, isAlso, header⟩ := hasClass
  obtain rfl := Option.some.inj (isClass.symm.trans isAlso)
  rw [attachHeader, ← header, Function.update_eq_self]

omit [DecidableEq Thread] in
/-- The header of a new block is none of those that are looked at. -/
theorem Classified.alignedMalloc (classified : state.Classified)
    (placed : state.Placed) (allocSize : Nat) :
    (state.alignedMalloc allocSize).Classified := by
  have kept : ∀ {place block}, block ∈ state.file place →
      (state.alignedMalloc allocSize).headers block = state.headers block := by
    intro place block member
    have old := placed.known block ⟨place, member⟩
    exact Function.update_of_ne (Nat.ne_of_lt old) ..
  have classKept : ∀ {place pool block}, block ∈ state.file place →
      HasClass state.headers pool block →
      HasClass (state.alignedMalloc allocSize).headers pool block := by
    intro place pool block member ⟨size, isClass, header⟩
    exact ⟨size, isClass, (kept member).trans header⟩
  exact
    { poolSizes := classified.poolSizes
      free := fun pool block member =>
        @classKept (.free pool) _ _ member (classified.free pool block member)
      live := by
        intro entry member
        obtain ⟨positive, header⟩ := classified.live entry member
        have filed : entry.1 ∈ state.file .live :=
          List.mem_map_of_mem member
        exact ⟨positive, (kept filed).trans header⟩
      threads := by
        intro thread
        have fits := classified.threads thread
        have held : ∀ block ∈ (state.pcs thread).held, ∀ pool,
            HasClass state.headers pool block →
            HasClass (state.alignedMalloc allocSize).headers pool block :=
          fun block member _ => @classKept (.held thread) _ _ member
        exact
          { cached := fun slot block member =>
              @classKept (.cached thread slot) _ _ member
                (fits.cached slot block member)
            bounded := fits.bounded
            pc := fits.pc.mono held } }

end Operations

section Advance

variable [DecidableEq Thread] {state next : PoolAllocator Thread}
  {thread : Thread}

/-- A step that only counts a block that the call has. -/
theorem setPool_setPc_valid (placed : state.Placed)
    (classified : state.Classified) {pool : Nat} {value : MemoryPool}
    {pc : AllocPc} (sameSize : value.allocSize = (state.pools pool).allocSize)
    (sameList : value.freeList = (state.pools pool).freeList)
    (sameHeld : pc.held = (state.pcs thread).held)
    (fits : pc.Fits state.headers (state.caches thread)) :
    ((state.setPool pool value).setPc thread pc).Placed ∧
      ((state.setPool pool value).setPc thread pc).Classified := by
  constructor
  · refine placed.stay rfl rfl ?_
    rw [file_setPc_same, file_setPool_same]
    · exact sameList.symm
    · exact sameHeld.symm
  · refine (classified.setPool sameSize ?_).setPc fits
    rw [sameList]
    exact classified.free pool

theorem advance_valid (placed : state.Placed) (classified : state.Classified)
    (advanced : state.advance thread = some next) :
    next.Placed ∧ next.Classified := by
  have fits := (classified.threads thread).pc
  have held : state.file (.held thread) = (state.pcs thread).held := rfl
  unfold advance at advanced
  cases at_ : state.pcs thread with
  | idle =>
      rw [at_] at advanced
      cases advanced
  | pop size pool =>
      rw [at_] at advanced fits held
      simp only at advanced
      split at advanced
      · rename_i block rest list
        cases advanced
        have listed := classified.free pool
        rw [list] at listed
        constructor
        · refine placed.move (.free pool) (.held thread) block rest [block]
            rfl rfl ?_ ?_ ?_ ?_
          · rw [file_setPc, file_setPool]
            rfl
          · nofun
          · exact .of_eq list
          · rw [held]
            exact .refl _
        · apply Classified.setPc
          · refine classified.setPool rfl ?_
            exact fun other member =>
              listed other (List.mem_cons_of_mem _ member)
          · exact ⟨fits, listed block (List.mem_cons_self ..)⟩
      · cases advanced
        refine ⟨placed.stay rfl rfl ?_, classified.setPc fits⟩
        apply file_setPc_same
        rw [at_]
        rfl
  | allocate size pool =>
      rw [at_] at advanced fits held
      cases advanced
      obtain ⟨allocSize, isClass, _⟩ := PoolTable.class_of_poolTable fits.2
      constructor
      · refine placed.enter (.held thread) [state.nextBlock] _ rfl rfl ?_ ?_
        · rw [file_setPc, file_alignedMalloc]
          rfl
        · rw [held]
          exact .refl _
      · apply (classified.alignedMalloc placed _).setPc
        refine ⟨fits, allocSize, isClass, ?_⟩
        rw [classified.allocSize_eq isClass]
        exact Function.update_self ..
  | countAlloc size pool block =>
      rw [at_] at advanced fits held
      cases advanced
      refine setPool_setPc_valid placed classified rfl rfl ?_ fits
      rw [at_]
      rfl
  | countUse size pool block =>
      rw [at_] at advanced fits held
      cases advanced
      refine setPool_setPc_valid placed classified rfl rfl ?_ fits
      rw [at_]
      rfl
  | attachHeader size pool block =>
      rw [at_] at advanced fits held
      obtain ⟨⟨positive, found⟩, allocSize, isClass, header⟩ := fits
      simp only [classified.allocSize_eq isClass,
        attachHeader_eq ⟨allocSize, isClass, header⟩ isClass] at advanced
      cases advanced
      constructor
      · refine placed.move (.held thread) .live block []
          (state.live.map Prod.fst ++ [block]) rfl rfl ?_ ?_ ?_ ?_
        · rw [file_setPc, file_setLive, List.map_append]
          apply Function.update_comm
          nofun
        · nofun
        · exact .of_eq held
        · exact List.perm_append_singleton ..
      · apply Classified.setPc
        · apply classified.setLive
          intro entry member
          rcases List.mem_append.mp member with old | new
          · exact classified.live entry old
          · rw [List.mem_singleton.mp new, classSize_eq found isClass]
            exact ⟨positive, header⟩
        · trivial
  | flush pool slot i block =>
      rw [at_] at advanced fits held
      obtain ⟨rfl, rounds, length, hasClass⟩ := fits
      have listed := (classified.threads thread).cached slot
      have bounded := (classified.threads thread).bounded slot
      simp only at advanced
      split at advanced
      · rename_i more
        split at advanced
        · rename_i flushHeader rest list
          split at advanced
          · cases advanced
          · cases advanced
            rw [list] at listed length bounded
            constructor
            · refine placed.move (.cached thread slot) (.held thread)
                flushHeader rest [flushHeader, block] rfl rfl ?_ ?_ ?_ ?_
              · rw [file_setPc, file_setPool_same, file_setCache]
                · rfl
                · rfl
              · nofun
              · exact .of_eq list
              · rw [held]
                exact .refl _
            · have self : ThreadFits state.headers
                  (Function.update (state.caches thread) slot rest)
                  (.push slot slot i flushHeader block) := by
                apply (classified.threads thread).update
                · exact fun other member =>
                    listed other (List.mem_cons_of_mem _ member)
                · exact Nat.le_of_succ_le bounded
                · refine ⟨rfl, more, ?_, ?_, hasClass⟩
                  · rw [Function.update_self, Nat.add_right_comm]
                    exact length
                  · exact listed flushHeader (List.mem_cons_self ..)
              refine Classified.setPool (classified.setThread self) ?_ ?_
              · rfl
              · exact classified.free slot
        · cases advanced
      · rename_i last
        cases advanced
        constructor
        · refine placed.move (.held thread) (.cached thread slot) block []
            (block :: state.caches thread slot) rfl rfl ?_ ?_ ?_ ?_
          · rw [file_setPc, file_setCache]
            apply Function.update_comm
            nofun
          · nofun
          · exact .of_eq held
          · exact .refl _
        · apply classified.setThread
          apply (classified.threads thread).update
          · intro other member
            rcases List.mem_cons.mp member with rfl | old
            · exact hasClass
            · exact listed other old
          · unfold batchSize at last rounds
            rw [List.length_cons]
            omega
          · trivial
  | push pool slot i flushHeader block =>
      rw [at_] at advanced fits held
      cases advanced
      obtain ⟨rfl, more, length, flushClass, hasClass⟩ := fits
      constructor
      · refine placed.move (.held thread) (.free slot) flushHeader [block]
          (flushHeader :: (state.pools slot).freeList) rfl rfl ?_ ?_ ?_ ?_
        · rw [file_setPc, file_setPool]
          apply Function.update_comm
          nofun
        · nofun
        · exact .of_eq held
        · exact .refl _
      · refine Classified.setPc (Classified.setPool classified ?_ ?_) ?_
        · rfl
        · intro other member
          rcases List.mem_cons.mp member with rfl | listed
          · exact flushClass
          · exact classified.free slot other listed
        · refine ⟨rfl, more, ?_, hasClass⟩
          exact (Nat.add_assoc ..).symm.trans length

end Advance

section Calls

variable [DecidableEq Thread] {state next : PoolAllocator Thread}
  {thread : Thread}

theorem alloc_valid (placed : state.Placed) (classified : state.Classified)
    (idle : state.pcs thread = .idle) {size : Int}
    (allocated : state.alloc thread size = some next) :
    next.Placed ∧ next.Classified := by
  unfold alloc at allocated
  split at allocated
  · cases allocated
    exact ⟨placed, classified⟩
  rename_i positive
  split at allocated
  · rename_i large
    cases allocated
    constructor
    · refine placed.enter .live (state.live.map Prod.fst ++ [state.nextBlock])
        size.toNat rfl rfl ?_ ?_
      · rw [file_setLive, file_alignedMalloc, List.map_append]
        rfl
      · exact List.perm_append_singleton ..
    · have allocated := classified.alignedMalloc placed size.toNat
      apply allocated.setLive
      intro entry member
      rcases List.mem_append.mp member with old | new
      · exact allocated.live entry old
      · rw [List.mem_singleton.mp new, classSize, poolTable_of_large (by omega)]
        exact ⟨by omega, Function.update_self ..⟩
  · split at allocated
    · cases allocated
    · rename_i pool found
      have asks : Asks size.toNat pool := ⟨by omega, found⟩
      obtain ⟨allocSize, isClass, _⟩ := PoolTable.class_of_poolTable found
      simp only [classified.allocSize_eq isClass,
        PoolTable.poolIdx_class isClass] at allocated
      have listed := (classified.threads thread).cached pool
      have bounded := (classified.threads thread).bounded pool
      split at allocated
      · rename_i block rest list
        rw [list] at listed bounded
        have hasClass := listed block (List.mem_cons_self ..)
        have cached : (state.setCache thread pool rest).Classified := by
          apply classified.setCache idle
          · exact fun other member =>
              listed other (List.mem_cons_of_mem _ member)
          · exact Nat.le_of_succ_le bounded
        have sameHeader :
            (state.setCache thread pool rest).attachHeader block allocSize =
              state.setCache thread pool rest :=
          attachHeader_eq hasClass isClass
        rw [sameHeader] at allocated
        cases allocated
        constructor
        · refine placed.move (.cached thread pool) .live block rest
            (state.live.map Prod.fst ++ [block]) rfl rfl ?_ ?_ ?_ ?_
          · rw [file_setLive, file_setCache, List.map_append]
            rfl
          · nofun
          · exact .of_eq list
          · exact List.perm_append_singleton ..
        · apply cached.setLive
          intro entry member
          rcases List.mem_append.mp member with old | new
          · exact cached.live entry old
          · obtain ⟨_, isAlso, header⟩ := hasClass
            rw [List.mem_singleton.mp new, classSize_eq found isAlso]
            exact ⟨asks.1, header⟩
      · cases allocated
        refine ⟨placed.stay rfl rfl ?_, classified.setPc asks⟩
        apply file_setPc_same
        rw [idle]
        rfl

omit [DecidableEq Thread] in
/-- A live block that is not too large is one of a pool. -/
theorem Classified.hasClass_of_live (classified : state.Classified)
    {entry : Block × Nat} (member : entry ∈ state.live)
    (small : classSize entry.2 ≤ maxAllocSize) :
    ∃ pool, Asks entry.2 pool ∧ HasClass state.headers pool entry.1 := by
  obtain ⟨positive, header⟩ := classified.live entry member
  have inTable : (PoolTable.init.poolTable entry.2).isSome := by
    rw [PoolTable.poolTable_isSome_iff]
    exact Nat.le_trans (le_classSize _) small
  obtain ⟨pool, found⟩ := Option.isSome_iff_exists.mp inTable
  obtain ⟨allocSize, isClass, _⟩ := PoolTable.class_of_poolTable found
  refine ⟨pool, ⟨positive, found⟩, allocSize, isClass, ?_⟩
  rw [header, classSize_eq found isClass]

theorem release_valid (placed : state.Placed) (classified : state.Classified)
    (idle : state.pcs thread = .idle) {entry : Block × Nat}
    (member : entry ∈ state.live)
    (released : state.release thread entry = some next) :
    next.Placed ∧ next.Classified := by
  obtain ⟨_, header⟩ := classified.live entry member
  have leaves : (state.file .live).Perm
      (entry.1 :: (state.live.erase entry).map Prod.fst) :=
    (List.perm_cons_erase member).map Prod.fst
  have returned : (state.setLive (state.live.erase entry)).Classified :=
    classified.setLive fun other left =>
      classified.live other (List.mem_of_mem_erase left)
  simp only [release, header, MemoryHeader.attach, ne_eq, not_true_eq_false,
    if_false] at released
  split at released
  · rename_i large
    cases released
    refine ⟨?_, returned⟩
    refine placed.leave .live entry.1 _ rfl rfl ?_ leaves ?_
    · rw [file_setLive]
    · rw [header]
      exact large
  · rename_i notLarge
    obtain ⟨pool, ⟨_, found⟩, hasClass⟩ :=
      classified.hasClass_of_live member (Nat.le_of_not_lt notLarge)
    obtain ⟨allocSize, isClass, _⟩ := PoolTable.class_of_poolTable found
    simp only [classSize_eq found isClass, PoolTable.poolTable_class isClass,
      PoolTable.poolIdx_class isClass] at released
    split at released
    · rename_i room
      cases released
      constructor
      · refine placed.move .live (.cached thread pool) entry.1 _
          (entry.1 :: state.caches thread pool) rfl rfl ?_ ?_ leaves ?_
        · rw [file_setCache, file_setLive]
          rfl
        · nofun
        · exact .refl _
      · refine returned.setCache idle ?_ (Nat.succ_le_of_lt room)
        intro other filed
        rcases List.mem_cons.mp filed with rfl | old
        · exact hasClass
        · exact (classified.threads thread).cached pool other old
    · rename_i full
      cases released
      constructor
      · refine placed.move .live (.held thread) entry.1 _ [entry.1] rfl rfl
          ?_ ?_ leaves ?_
        · rw [file_setPc, file_setLive]
          rfl
        · nofun
        · have held : state.file (.held thread) = [] :=
            congrArg AllocPc.held idle
          rw [held]
      · apply returned.setPc
        refine ⟨rfl, Nat.zero_le _, ?_, hasClass⟩
        apply Nat.le_antisymm
        · exact (classified.threads thread).bounded pool
        · exact Nat.le_of_not_lt full

theorem step_valid {action : AllocAction Thread}
    (valid : state.Placed ∧ state.Classified)
    (stepped : state.step action = some next) :
    next.Placed ∧ next.Classified := by
  obtain ⟨placed, classified⟩ := valid
  cases action with
  | alloc thread size =>
      obtain ⟨idle, allocated⟩ := Option.ite_none_right_eq_some.mp stepped
      exact alloc_valid placed classified idle allocated
  | release thread block =>
      obtain ⟨idle, found⟩ := Option.ite_none_right_eq_some.mp stepped
      split at found
      · rename_i entry isLive
        have member := List.mem_of_find?_eq_some isLive
        exact release_valid placed classified idle member found
      · cases found
  | advance thread => exact advance_valid placed classified stepped

omit [DecidableEq Thread] in
theorem initial_valid :
    (initial : PoolAllocator Thread).Placed ∧
      (initial : PoolAllocator Thread).Classified := by
  have empty : ∀ place, (initial : PoolAllocator Thread).file place = [] := by
    intro place
    cases place <;> rfl
  constructor
  · exact
      { exclusive :=
          { nodup := fun place => empty place ▸ List.nodup_nil
            unique := by
              intro first _ item member
              rw [empty first] at member
              cases member }
        known := by
          intro item ⟨place, member⟩
          rw [empty place] at member
          cases member
        filed := nofun }
  · exact
      { poolSizes := fun _ => rfl
        free := nofun
        live := nofun
        threads := fun _ =>
          { cached := nofun
            bounded := fun _ => Nat.zero_le _
            pc := trivial } }

end Calls

end PoolAllocator

end IocpChat
