import IocpChat.Lib.Filing
import IocpChat.Memory.PoolAllocator

/-!
# Where the blocks are

A block of a pool is live, in the hands of a call, in one thread's cache in the
slot of its size class, or in the free list of its class's pool, and nowhere
twice.
-/

namespace IocpChat

open Filing TransitionSystem

inductive BlockPlace (Thread : Type) where
  | live
  | cached (thread : Thread) (slot : Nat)
  | free (pool : Nat)
  | held (thread : Thread)
  deriving DecidableEq, Repr

/-- The blocks that a call has in its hands. -/
def AllocPc.held : AllocPc → List Block
  | countAlloc _ _ block => [block]
  | countUse _ _ block => [block]
  | attachHeader _ _ block => [block]
  | flush _ _ _ block => [block]
  | push _ _ _ flushHeader block => [flushHeader, block]
  | _ => []

namespace PoolAllocator

variable {Thread : Type}

def file (state : PoolAllocator Thread) : BlockPlace Thread → List Block
  | .live => state.live.map Prod.fst
  | .cached thread slot => state.caches thread slot
  | .free pool => (state.pools pool).freeList
  | .held thread => (state.pcs thread).held

section File

variable [DecidableEq Thread] (state : PoolAllocator Thread)

@[simp] theorem file_setPc (thread : Thread) (pc : AllocPc) :
    (state.setPc thread pc).file =
      Function.update state.file (.held thread) pc.held := by
  funext place
  cases place with
  | held other =>
      by_cases own : other = thread
      · subst own
        simp [file, setPc]
      · simp [file, setPc, own]
  | _ => simp [file, setPc]

theorem file_setPc_same {thread : Thread} {pc : AllocPc}
    (same : (state.pcs thread).held = pc.held) :
    (state.setPc thread pc).file = state.file := by
  rw [file_setPc, ← same]
  exact Function.update_eq_self ..

@[simp] theorem file_setCache (thread : Thread) (slot : Nat)
    (list : List Block) :
    (state.setCache thread slot list).file =
      Function.update state.file (.cached thread slot) list := by
  funext place
  cases place with
  | cached other otherSlot =>
      by_cases own : other = thread
      · subst own
        by_cases same : otherSlot = slot
        · subst same
          simp [file, setCache]
        · simp [file, setCache, same]
      · simp [file, setCache, own]
  | _ => simp [file, setCache]

@[simp] theorem file_setPool (pool : Nat)
    (value : MemoryPool) :
    (state.setPool pool value).file =
      Function.update state.file (.free pool) value.freeList := by
  funext place
  cases place with
  | free other =>
      by_cases same : other = pool
      · subst same
        simp [file, setPool]
      · simp [file, setPool, same]
  | _ => simp [file, setPool]

theorem file_setPool_same {pool : Nat} {value : MemoryPool}
    (same : (state.pools pool).freeList = value.freeList) :
    (state.setPool pool value).file = state.file := by
  rw [file_setPool, ← same]
  exact Function.update_eq_self ..

@[simp] theorem file_setLive (live : List (Block × Nat)) :
    (state.setLive live).file =
      Function.update state.file .live (live.map Prod.fst) := by
  funext place
  cases place <;> simp [file, setLive]

omit [DecidableEq Thread] in
@[simp] theorem file_alignedMalloc (allocSize : Nat) :
    (state.alignedMalloc allocSize).file = state.file := by
  funext place
  cases place <;> rfl

end File

/-- Every block that came from a pool has one place. -/
structure Placed (state : PoolAllocator Thread) : Prop where
  exclusive : Exclusive state.file
  known : ∀ block, Filed state.file block → block < state.nextBlock
  filed : ∀ block < state.nextBlock,
    (state.headers block).allocSize ≤ maxAllocSize → Filed state.file block

section Placed

variable [DecidableEq Thread] {state next : PoolAllocator Thread}

/-- A block goes from one place to another. -/
theorem Placed.move (placed : state.Placed)
    (source target : BlockPlace Thread) (block : Block) (rest list : List Block)
    (sameHeaders : next.headers = state.headers)
    (sameNext : next.nextBlock = state.nextBlock)
    (moved : next.file =
      Function.update (Function.update state.file source rest) target list)
    (different : source ≠ target)
    (leaves : (state.file source).Perm (block :: rest))
    (enters : list.Perm (block :: state.file target)) : next.Placed := by
  obtain ⟨exclusive, same⟩ := placed.exclusive.move different leaves enters
  rw [← moved] at exclusive same
  exact
    { exclusive := exclusive
      known := by
        intro other filed
        rw [sameNext]
        exact placed.known other ((same other).mp filed)
      filed := by
        intro other old small
        rw [sameNext] at old
        rw [sameHeaders] at small
        exact (same other).mpr (placed.filed other old small) }

omit [DecidableEq Thread] in
/-- A step that moves no block. -/
theorem Placed.stay (placed : state.Placed)
    (sameHeaders : next.headers = state.headers)
    (sameNext : next.nextBlock = state.nextBlock)
    (stays : next.file = state.file) : next.Placed where
  exclusive := stays ▸ placed.exclusive
  known := by
    rw [stays, sameNext]
    exact placed.known
  filed := by
    rw [stays, sameNext, sameHeaders]
    exact placed.filed

/-- A new block comes from `_aligned_malloc`. -/
theorem Placed.enter (placed : state.Placed) (target : BlockPlace Thread)
    (list : List Block) (allocSize : Nat)
    (headers : next.headers = (state.alignedMalloc allocSize).headers)
    (nextBlock : next.nextBlock = state.nextBlock + 1)
    (entered : next.file = Function.update state.file target list)
    (enters : list.Perm (state.nextBlock :: state.file target)) :
    next.Placed := by
  have absent : ¬Filed state.file state.nextBlock :=
    fun filed => Nat.lt_irrefl _ (placed.known _ filed)
  have exclusive := placed.exclusive.enter absent enters
  have same := fun other => @filed_enter_iff _ _ _ state.file target
    state.nextBlock list enters other
  rw [← entered] at exclusive same
  exact
    { exclusive := exclusive
      known := by
        intro other filed
        rw [nextBlock]
        rcases (same other).mp filed with rfl | old
        · exact Nat.lt_succ_self _
        · exact Nat.lt_succ_of_lt (placed.known other old)
      filed := by
        intro other old small
        apply (same other).mpr
        rw [nextBlock] at old
        rcases Nat.lt_succ_iff_lt_or_eq.mp old with older | rfl
        · right
          apply placed.filed other older
          have kept : next.headers other = state.headers other := by
            rw [headers]
            exact Function.update_of_ne (Nat.ne_of_lt older) ..
          exact kept ▸ small
        · exact Or.inl rfl }

/-- A block that is too large for a pool goes back to the system. -/
theorem Placed.leave (placed : state.Placed) (source : BlockPlace Thread)
    (block : Block) (rest : List Block)
    (sameHeaders : next.headers = state.headers)
    (sameNext : next.nextBlock = state.nextBlock)
    (left : next.file = Function.update state.file source rest)
    (leaves : (state.file source).Perm (block :: rest))
    (large : maxAllocSize < (state.headers block).allocSize) :
    next.Placed := by
  have exclusive := placed.exclusive.leave leaves
  have same := fun other => @Exclusive.filed_leave_iff _ _ _ state.file source
    block rest placed.exclusive leaves other
  rw [← left] at exclusive same
  exact
    { exclusive := exclusive
      known := by
        intro other filed
        rw [sameNext]
        exact placed.known other ((same other).mp filed).2
      filed := by
        intro other old small
        rw [sameNext] at old
        rw [sameHeaders] at small
        apply (same other).mpr
        refine ⟨?_, placed.filed other old small⟩
        intro isBlock
        rw [isBlock] at small
        exact absurd small (Nat.not_le.mpr large) }

end Placed

end PoolAllocator

end IocpChat
