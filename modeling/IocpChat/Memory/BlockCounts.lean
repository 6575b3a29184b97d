import IocpChat.Memory.BlockHeaders

/-!
# The counters of the pools

The two counters of a pool follow its blocks: what is live, what the threads
have in their caches, what calls have in their hands, and, for `_allocCount`,
what is in the free list.
-/

namespace IocpChat

open TransitionSystem

/-- How much an event at a pool weighs for another pool, or the same. -/
def forPool (pool other : Nat) : Nat :=
  if pool = other then 1 else 0

/-- The blocks of a pool that a call has and `_allocCount` counts. -/
def AllocPc.counted (other : Nat) : AllocPc → Nat
  | countUse _ pool _ => forPool pool other
  | attachHeader _ pool _ => forPool pool other
  | flush pool _ _ _ => forPool pool other
  | push pool _ _ _ _ => 2 * forPool pool other
  | _ => 0

/-- The blocks of a pool that a call has and `_useCount` counts. -/
def AllocPc.used (other : Nat) : AllocPc → Nat
  | attachHeader _ pool _ => forPool pool other
  | flush pool _ _ _ => forPool pool other
  | push pool _ _ _ _ => forPool pool other
  | _ => 0

/-- The live blocks of a pool. -/
def liveIn (live : List (Block × Nat)) (pool : Nat) : Nat :=
  live.countP fun entry => PoolTable.init.poolTable entry.2 = some pool

/-- The blocks of a pool in the caches of the threads. -/
def cachedIn {Thread : Type} [Fintype Thread]
    (caches : Thread → Nat → List Block) (pool : Nat) : Nat :=
  Threads.total (fun cache => (cache pool).length) caches

section Lists

theorem liveIn_append_of_asks {live : List (Block × Nat)} {block : Block}
    {size pool other : Nat}
    (found : PoolTable.init.poolTable size = some pool) :
    liveIn (live ++ [(block, size)]) other =
      liveIn live other + forPool pool other := by
  simp [liveIn, List.countP_append, found, forPool]

theorem liveIn_append_of_large {live : List (Block × Nat)} {block : Block}
    {size other : Nat} (large : PoolTable.init.poolTable size = none) :
    liveIn (live ++ [(block, size)]) other = liveIn live other := by
  simp [liveIn, List.countP_append, large]

theorem liveIn_erase_of_asks {live : List (Block × Nat)}
    {entry : Block × Nat} {pool other : Nat} (member : entry ∈ live)
    (found : PoolTable.init.poolTable entry.2 = some pool) :
    liveIn (live.erase entry) other + forPool pool other =
      liveIn live other := by
  have order := List.perm_cons_erase member
  rw [liveIn, liveIn, order.countP_eq]
  simp [found, forPool, List.countP_cons]

theorem liveIn_erase_of_large {live : List (Block × Nat)}
    {entry : Block × Nat} {other : Nat} (member : entry ∈ live)
    (large : PoolTable.init.poolTable entry.2 = none) :
    liveIn (live.erase entry) other = liveIn live other := by
  have order := List.perm_cons_erase member
  rw [liveIn, liveIn, order.countP_eq]
  simp [large]

variable {Thread : Type} [DecidableEq Thread] [Fintype Thread]
  {caches : Thread → Nat → List Block} {thread : Thread} {slot : Nat}

theorem cachedIn_update (list : List Block) (other : Nat) :
    cachedIn (Function.update caches thread
        (Function.update (caches thread) slot list)) other +
          (caches thread slot).length * forPool slot other =
      cachedIn caches other + list.length * forPool slot other := by
  have moved := @Threads.total_update _ _ _ _
    (fun cache : Nat → List Block => (cache other).length) caches thread
    (Function.update (caches thread) slot list)
  unfold cachedIn forPool
  by_cases same : slot = other
  · subst same
    simpa using moved
  · rw [Function.update_of_ne (Ne.symm same)] at moved
    simp [same, Nat.add_right_cancel moved]

theorem cachedIn_push (block : Block) (other : Nat) :
    cachedIn (Function.update caches thread
        (Function.update (caches thread) slot
          (block :: caches thread slot))) other =
      cachedIn caches other + forPool slot other := by
  have moved := @cachedIn_update _ _ _ caches thread slot
    (block :: caches thread slot) other
  rw [List.length_cons, Nat.succ_mul] at moved
  omega

theorem cachedIn_pop {block : Block} {rest : List Block}
    (list : caches thread slot = block :: rest) (other : Nat) :
    cachedIn (Function.update caches thread
        (Function.update (caches thread) slot rest)) other +
          forPool slot other =
      cachedIn caches other := by
  have moved := @cachedIn_update _ _ _ caches thread slot rest other
  rw [list, List.length_cons, Nat.succ_mul] at moved
  omega

end Lists

/-- A counter that followed a total follows it when the total has changed. -/
def Counts (before after change : Int) : Prop :=
  ∀ total, before = int32 total → after = int32 (total + change)

theorem Counts.zero (count : Int) : Counts count count 0 := by
  intro total follows
  rw [Int.add_zero]
  exact follows

theorem Counts.add (count change : Int) :
    Counts count (int32 (count + change)) change := by
  intro total follows
  rw [follows]
  exact Int.bmod_add_bmod

namespace PoolAllocator

variable {Thread : Type} [Fintype Thread]

/-- The blocks of a pool that are not in its free list; a call's count by
`weight`. -/
def outside (weight : AllocPc → Nat) (state : PoolAllocator Thread)
    (pool : Nat) : Nat :=
  liveIn state.live pool + cachedIn state.caches pool +
    Threads.total weight state.pcs

structure Counted (state : PoolAllocator Thread) (pool : Nat) : Prop where
  allocCount : (state.pools pool).allocCount =
    int32 (outside (AllocPc.counted pool) state pool +
      (state.pools pool).freeList.length : Nat)
  useCount : (state.pools pool).useCount =
    int32 (outside (AllocPc.used pool) state pool : Nat)

section Step

variable [DecidableEq Thread] {state next : PoolAllocator Thread}
  {thread : Thread}

/-- What the thread weighs, and what it moves. -/
theorem outside_next {pc : AllocPc} {weight : AllocPc → Nat} {other : Nat}
    {change : Int}
    (pcs : next.pcs = Function.update state.pcs thread pc)
    (moved : (liveIn next.live other + cachedIn next.caches other +
          weight pc : Int) =
      liveIn state.live other + cachedIn state.caches other +
        weight (state.pcs thread) + change) :
    (outside weight next other : Int) =
      outside weight state other + change := by
  have weighed := @Threads.total_update _ _ _ _ weight state.pcs thread pc
  rw [← pcs] at weighed
  unfold outside
  omega

/-- A step of one thread at one pool. -/
theorem Counted.move (counted : ∀ pool, state.Counted pool) (pool : Nat)
    (allocs uses frees : Int) {value : MemoryPool} {pc : AllocPc}
    (pools : next.pools = Function.update state.pools pool value)
    (pcs : next.pcs = Function.update state.pcs thread pc)
    (allocCount :
      Counts (state.pools pool).allocCount value.allocCount allocs)
    (useCount : Counts (state.pools pool).useCount value.useCount uses)
    (free : (value.freeList.length : Int) =
      (state.pools pool).freeList.length + frees)
    (allocated : ∀ other, (liveIn next.live other +
          cachedIn next.caches other + pc.counted other : Int) =
      liveIn state.live other + cachedIn state.caches other +
        (state.pcs thread).counted other +
          (allocs - frees) * forPool pool other)
    (used : ∀ other, (liveIn next.live other + cachedIn next.caches other +
          pc.used other : Int) =
      liveIn state.live other + cachedIn state.caches other +
        (state.pcs thread).used other + uses * forPool pool other)
    (other : Nat) : next.Counted other := by
  have total := @outside_next _ _ _ _ _ _ _ (AllocPc.counted other) other _
    pcs (allocated other)
  have inUse := @outside_next _ _ _ _ _ _ _ (AllocPc.used other) other _
    pcs (used other)
  have before := counted other
  by_cases same : pool = other
  · subst same
    have here : next.pools pool = value := by
      rw [pools]
      exact Function.update_self ..
    rw [forPool, if_pos rfl, Int.natCast_one, Int.mul_one] at total inUse
    constructor
    · rw [here, allocCount _ before.allocCount]
      apply congrArg int32
      omega
    · rw [here, useCount _ before.useCount, inUse]
  · have there : next.pools other = state.pools other := by
      rw [pools]
      exact Function.update_of_ne (Ne.symm same) ..
    rw [forPool, if_neg same, Int.natCast_zero, Int.mul_zero] at total inUse
    constructor
    · rw [there, before.allocCount]
      apply congrArg int32
      omega
    · rw [there, before.useCount]
      apply congrArg int32
      omega

/-- A step of one thread at no pool. -/
theorem Counted.stay (counted : ∀ pool, state.Counted pool) {pc : AllocPc}
    (pools : next.pools = state.pools)
    (pcs : next.pcs = Function.update state.pcs thread pc)
    (allocated : ∀ other, liveIn next.live other +
          cachedIn next.caches other + pc.counted other =
      liveIn state.live other + cachedIn state.caches other +
        (state.pcs thread).counted other)
    (used : ∀ other, liveIn next.live other + cachedIn next.caches other +
          pc.used other =
      liveIn state.live other + cachedIn state.caches other +
        (state.pcs thread).used other)
    (other : Nat) : next.Counted other := by
  apply Counted.move counted 0 0 0 0 _ pcs (.zero _) (.zero _)
  · exact (Int.add_zero _).symm
  · intro other
    have same := allocated other
    omega
  · intro other
    have same := used other
    omega
  · rw [pools]
    exact (Function.update_eq_self ..).symm

theorem advance_counted (classified : state.Classified)
    (counted : ∀ pool, state.Counted pool)
    (advanced : state.advance thread = some next) :
    ∀ pool, next.Counted pool := by
  have fits := (classified.threads thread).pc
  unfold advance at advanced
  cases at_ : state.pcs thread with
  | idle =>
      rw [at_] at advanced
      cases advanced
  | pop size pool =>
      rw [at_] at advanced
      simp only at advanced
      split at advanced
      · rename_i block rest list
        cases advanced
        refine Counted.move counted pool 0 0 (-1) rfl rfl (.zero _)
          (.zero _) ?_ ?_ ?_
        · simp only [list, List.length_cons]
          omega
        · intro other
          simp only [at_, AllocPc.counted, setPc, setPool]
          omega
        · intro other
          simp only [at_, AllocPc.used, setPc, setPool]
          omega
      · cases advanced
        refine Counted.stay counted rfl rfl ?_ ?_
        · intro other
          simp only [at_, AllocPc.counted, setPc]
        · intro other
          simp only [at_, AllocPc.used, setPc]
  | allocate size pool =>
      rw [at_] at advanced
      cases advanced
      refine Counted.stay counted rfl rfl ?_ ?_
      · intro other
        simp only [at_, AllocPc.counted, setPc, alignedMalloc, attachHeader]
      · intro other
        simp only [at_, AllocPc.used, setPc, alignedMalloc, attachHeader]
  | countAlloc size pool block =>
      rw [at_] at advanced
      cases advanced
      refine Counted.move counted pool 1 0 0 rfl rfl (.add _ _) (.zero _)
        (Int.add_zero _).symm ?_ ?_
      · intro other
        simp only [at_, AllocPc.counted, setPc, setPool]
        omega
      · intro other
        simp only [at_, AllocPc.used, setPc, setPool]
        omega
  | countUse size pool block =>
      rw [at_] at advanced
      cases advanced
      refine Counted.move counted pool 0 1 0 rfl rfl (.zero _) (.add _ _)
        (Int.add_zero _).symm ?_ ?_
      · intro other
        simp only [at_, AllocPc.counted, setPc, setPool]
        omega
      · intro other
        simp only [at_, AllocPc.used, setPc, setPool]
        omega
  | attachHeader size pool block =>
      rw [at_] at advanced fits
      cases advanced
      have returned := fun other =>
        @liveIn_append_of_asks state.live block size pool other fits.1.2
      refine Counted.stay counted rfl rfl ?_ ?_
      · intro other
        simp only [at_, AllocPc.counted, setPc, setLive, attachHeader,
          returned]
        omega
      · intro other
        simp only [at_, AllocPc.used, setPc, setLive, attachHeader, returned]
        omega
  | flush pool slot i block =>
      rw [at_] at advanced fits
      obtain ⟨rfl, _⟩ := fits
      simp only at advanced
      split at advanced
      · split at advanced
        · rename_i flushHeader rest list
          split at advanced
          · cases advanced
          · cases advanced
            refine Counted.move counted slot 0 (-1) 0 rfl rfl (.zero _)
              (.add _ _) (Int.add_zero _).symm ?_ ?_
            · intro other
              have popped := cachedIn_pop list other
              simp only [at_, AllocPc.counted, setPc, setPool, setCache]
              omega
            · intro other
              have popped := cachedIn_pop list other
              simp only [at_, AllocPc.used, setPc, setPool, setCache]
              omega
        · cases advanced
      · cases advanced
        refine Counted.stay counted rfl rfl ?_ ?_
        · intro other
          simp only [at_, AllocPc.counted, setPc, setCache, cachedIn_push]
          omega
        · intro other
          simp only [at_, AllocPc.used, setPc, setCache, cachedIn_push]
          omega
  | push pool slot i flushHeader block =>
      rw [at_] at advanced
      cases advanced
      refine Counted.move counted pool 0 0 1 rfl rfl (.zero _) (.zero _) rfl
        ?_ ?_
      · intro other
        simp only [at_, AllocPc.counted, setPc, setPool]
        omega
      · intro other
        simp only [at_, AllocPc.used, setPc, setPool]
        omega

theorem alloc_counted (classified : state.Classified)
    (counted : ∀ pool, state.Counted pool) (idle : state.pcs thread = .idle)
    {size : Int} (allocated : state.alloc thread size = some next) :
    ∀ pool, next.Counted pool := by
  have stays : state.pcs = Function.update state.pcs thread .idle :=
    idle ▸ (Function.update_eq_self ..).symm
  unfold alloc at allocated
  split at allocated
  · cases allocated
    exact counted
  rename_i positive
  split at allocated
  · rename_i large
    cases allocated
    have returned := fun other => @liveIn_append_of_large state.live
      state.nextBlock size.toNat other (poolTable_of_large (by omega))
    refine Counted.stay counted rfl stays ?_ ?_
    · intro other
      rw [setLive, returned, idle]
      rfl
    · intro other
      rw [setLive, returned, idle]
      rfl
  · split at allocated
    · cases allocated
    · rename_i pool found
      obtain ⟨allocSize, isClass, _⟩ := PoolTable.class_of_poolTable found
      simp only [classified.allocSize_eq isClass,
        PoolTable.poolIdx_class isClass] at allocated
      split at allocated
      · rename_i block rest list
        cases allocated
        refine Counted.stay counted rfl stays ?_ ?_
        · intro other
          have popped := cachedIn_pop list other
          simp only [idle, setLive, attachHeader, setCache,
            liveIn_append_of_asks found]
          omega
        · intro other
          have popped := cachedIn_pop list other
          simp only [idle, setLive, attachHeader, setCache,
            liveIn_append_of_asks found]
          omega
      · cases allocated
        refine Counted.stay counted rfl rfl ?_ ?_
        · intro other
          rw [idle]
          rfl
        · intro other
          rw [idle]
          rfl

theorem release_counted (classified : state.Classified)
    (counted : ∀ pool, state.Counted pool) (idle : state.pcs thread = .idle)
    {entry : Block × Nat} (member : entry ∈ state.live)
    (released : state.release thread entry = some next) :
    ∀ pool, next.Counted pool := by
  have stays : state.pcs = Function.update state.pcs thread .idle :=
    idle ▸ (Function.update_eq_self ..).symm
  obtain ⟨_, header⟩ := classified.live entry member
  simp only [release, header, MemoryHeader.attach, ne_eq, not_true_eq_false,
    if_false] at released
  split at released
  · rename_i large
    cases released
    have taken := fun other => @liveIn_erase_of_large state.live entry other
      member (poolTable_of_largeClass large)
    refine Counted.stay counted rfl stays ?_ ?_
    · intro other
      rw [setLive, taken, idle]
    · intro other
      rw [setLive, taken, idle]
  · rename_i notLarge
    obtain ⟨pool, ⟨_, found⟩, hasClass⟩ :=
      classified.hasClass_of_live member (Nat.le_of_not_lt notLarge)
    obtain ⟨allocSize, isClass, _⟩ := PoolTable.class_of_poolTable found
    simp only [classSize_eq found isClass, PoolTable.poolTable_class isClass,
      PoolTable.poolIdx_class isClass] at released
    have taken := fun other =>
      @liveIn_erase_of_asks state.live entry pool other member found
    split at released
    · cases released
      refine Counted.stay counted rfl stays ?_ ?_
      · intro other
        simp only [idle, setLive, setCache, cachedIn_push, ← taken other]
        omega
      · intro other
        simp only [idle, setLive, setCache, cachedIn_push, ← taken other]
        omega
    · cases released
      refine Counted.stay counted rfl rfl ?_ ?_
      · intro other
        simp only [idle, setLive, setPc, AllocPc.counted, ← taken other]
        omega
      · intro other
        simp only [idle, setLive, setPc, AllocPc.used, ← taken other]
        omega

theorem step_counted {action : AllocAction Thread}
    (classified : state.Classified) (counted : ∀ pool, state.Counted pool)
    (stepped : state.step action = some next) :
    ∀ pool, next.Counted pool := by
  cases action with
  | alloc thread size =>
      obtain ⟨idle, allocated⟩ := Option.ite_none_right_eq_some.mp stepped
      exact alloc_counted classified counted idle allocated
  | release thread block =>
      obtain ⟨idle, found⟩ := Option.ite_none_right_eq_some.mp stepped
      split at found
      · rename_i entry isLive
        have member := List.mem_of_find?_eq_some isLive
        exact release_counted classified counted idle member found
      · cases found
  | advance thread => exact advance_counted classified counted stepped

omit [DecidableEq Thread] in
theorem initial_counted (pool : Nat) :
    (initial : PoolAllocator Thread).Counted pool := by
  have caches : cachedIn (fun _ : Thread => fun _ => []) pool = 0 :=
    Threads.total_eq_zero fun _ => rfl
  have weightless : ∀ weight : AllocPc → Nat, weight .idle = 0 →
      Threads.total weight (fun _ : Thread => .idle) = 0 :=
    fun _ zero => Threads.total_eq_zero fun _ => zero
  have zero : 0 = int32 0 := (int32_of_range (by omega) (by omega)).symm
  constructor
  · simp only [initial, outside, caches, weightless (AllocPc.counted pool) rfl]
    exact zero
  · simp only [initial, outside, caches, weightless (AllocPc.used pool) rfl]
    exact zero

theorem reachable_counted {state : PoolAllocator Thread}
    (reachable : (machine Thread).Reachable state) :
    (state.Placed ∧ state.Classified) ∧ ∀ pool, state.Counted pool := by
  apply Machine.Reachable.invariant _ _ reachable
  · intro start isInitial
    cases isInitial
    exact ⟨initial_valid, initial_counted⟩
  · intro _ _ _ ⟨valid, counted⟩ stepped
    exact ⟨step_valid valid stepped, step_counted valid.2 counted stepped⟩

end Step

end PoolAllocator

end IocpChat
