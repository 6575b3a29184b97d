import IocpChat.Common.Types
import IocpChat.Lib.Transition
import IocpChat.Memory.PoolTable

/-!
# PoolAllocator and MemoryPool

Threads call `Alloc` and `Release` at the same time.  What a call does with the
thread's own cache is one step; every access to a pool is a step of its own:
an interlocked push or pop, or an addition to a counter.

Every `main` calls `Init` before it starts a thread.  `_aligned_malloc` does not
fail, and a block is named by the number of blocks before it.
-/

namespace IocpChat

open TransitionSystem

/-- What `_aligned_malloc` returns. -/
abbrev Block := Nat

structure MemoryHeader where
  allocSize : Nat
  magic : UInt32
  deriving DecidableEq, Repr

/-- The constructor; `AttachHeader` calls it again in place. -/
def MemoryHeader.attach (allocSize : Nat) : MemoryHeader :=
  { allocSize := allocSize
    magic := 0xABCD1234 }

/-- `freeList` is the `SLIST_HEADER`, its top first. -/
structure MemoryPool where
  allocSize : Nat
  freeList : List Block
  allocCount : Int
  useCount : Int
  deriving DecidableEq, Repr

def batchSize : Nat := 16

def maxLocalCache : Nat := 48

/-- Where a thread stands in a call.  `allocate` is the branch of
`MemoryPool::Pop` for an empty pool; `flush` is the loop of `Release` after `i`
rounds, for the block that is released, and `push` is `MemoryPool::Push` in
it. -/
inductive AllocPc where
  | idle
  | pop (size pool : Nat)
  | allocate (size pool : Nat)
  | countAlloc (size pool : Nat) (block : Block)
  | countUse (size pool : Nat) (block : Block)
  | attachHeader (size pool : Nat) (block : Block)
  | flush (pool slot i : Nat) (block : Block)
  | push (pool slot i : Nat) (flushHeader block : Block)
  deriving DecidableEq, Repr

/-- `caches` is `LMemoryCache.cache` of each thread, every vector from its back.
`live` is history: what `Alloc` has returned for which size and `Release` has
not got back. -/
structure PoolAllocator (Thread : Type) where
  pools : Nat → MemoryPool
  headers : Block → MemoryHeader
  nextBlock : Block
  caches : Thread → Nat → List Block
  pcs : Thread → AllocPc
  live : List (Block × Nat)

inductive AllocAction (Thread : Type) where
  | alloc (thread : Thread) (size : Int)
  | release (thread : Thread) (block : Block)
  | advance (thread : Thread)

namespace PoolAllocator

variable {Thread : Type} [DecidableEq Thread]

def setPc (state : PoolAllocator Thread) (thread : Thread) (pc : AllocPc) :
    PoolAllocator Thread :=
  { state with pcs := Function.update state.pcs thread pc }

def setCache (state : PoolAllocator Thread) (thread : Thread) (slot : Nat)
    (list : List Block) : PoolAllocator Thread :=
  { state with
    caches := Function.update state.caches thread
      (Function.update (state.caches thread) slot list) }

def setPool (state : PoolAllocator Thread) (pool : Nat)
    (value : MemoryPool) : PoolAllocator Thread :=
  { state with pools := Function.update state.pools pool value }

/-- `MemoryHeader::AttachHeader`. -/
def attachHeader (state : PoolAllocator Thread) (block : Block)
    (allocSize : Nat) : PoolAllocator Thread :=
  { state with
    headers := Function.update state.headers block (.attach allocSize) }

/-- A new block with its header. -/
def alignedMalloc (state : PoolAllocator Thread) (allocSize : Nat) :
    PoolAllocator Thread :=
  { state.attachHeader state.nextBlock allocSize with
    nextBlock := state.nextBlock + 1 }

/-- `Alloc` returns the block. -/
def setLive (state : PoolAllocator Thread) (live : List (Block × Nat)) :
    PoolAllocator Thread :=
  { state with live := live }

/-- `PoolAllocator::Alloc` up to its first access to a pool; `none` is a failed
assertion. -/
def alloc (state : PoolAllocator Thread) (thread : Thread) (size : Int) :
    Option (PoolAllocator Thread) :=
  if size ≤ 0 then some state
  else if (maxAllocSize : Int) < size then
    some ((state.alignedMalloc size.toNat).setLive
      (state.live ++ [(state.nextBlock, size.toNat)]))
  else
    match PoolTable.init.poolTable size.toNat with
    | none => none
    | some pool =>
        let allocSize := (state.pools pool).allocSize
        let slot := poolIdx allocSize
        match state.caches thread slot with
        | block :: rest =>
            some (((state.setCache thread slot rest).attachHeader block
              allocSize).setLive (state.live ++ [(block, size.toNat)]))
        | [] => some (state.setPc thread (.pop size.toNat pool))

/-- `PoolAllocator::Release` of a live block up to its first access to a
pool. -/
def release (state : PoolAllocator Thread) (thread : Thread)
    (entry : Block × Nat) : Option (PoolAllocator Thread) :=
  let header := state.headers entry.1
  let state := state.setLive (state.live.erase entry)
  if header.magic ≠ 0xABCD1234 then none
  else if maxAllocSize < header.allocSize then some state
  else
    match PoolTable.init.poolTable header.allocSize with
    | none => none
    | some pool =>
        let slot := poolIdx header.allocSize
        if (state.caches thread slot).length < maxLocalCache then
          some (state.setCache thread slot
            (entry.1 :: state.caches thread slot))
        else some (state.setPc thread (.flush pool slot 0 entry.1))

/-- The next step of a call. -/
def advance (state : PoolAllocator Thread) (thread : Thread) :
    Option (PoolAllocator Thread) :=
  match state.pcs thread with
  | .idle => none
  | .pop size pool =>
      match (state.pools pool).freeList with
      | block :: rest =>
          some ((state.setPool pool
            { state.pools pool with freeList := rest }).setPc thread
              (.countUse size pool block))
      | [] => some (state.setPc thread (.allocate size pool))
  | .allocate size pool =>
      some ((state.alignedMalloc (state.pools pool).allocSize).setPc thread
        (.countAlloc size pool state.nextBlock))
  | .countAlloc size pool block =>
      some ((state.setPool pool
        { state.pools pool with
          allocCount := int32 ((state.pools pool).allocCount + 1) }).setPc
            thread (.countUse size pool block))
  | .countUse size pool block =>
      some ((state.setPool pool
        { state.pools pool with
          useCount := int32 ((state.pools pool).useCount + 1) }).setPc
            thread (.attachHeader size pool block))
  | .attachHeader size pool block =>
      some (((state.attachHeader block (state.pools pool).allocSize).setLive
        (state.live ++ [(block, size)])).setPc thread .idle)
  | .flush pool slot i block =>
      if i < batchSize then
        match state.caches thread slot with
        | flushHeader :: rest =>
            if (state.headers flushHeader).magic ≠ 0xABCD1234 then none
            else
              some (((state.setCache thread slot rest).setPool pool
                { state.pools pool with
                  useCount := int32 ((state.pools pool).useCount - 1) }).setPc
                    thread (.push pool slot i flushHeader block))
        | [] => none
      else
        some ((state.setCache thread slot
          (block :: state.caches thread slot)).setPc thread .idle)
  | .push pool slot i flushHeader block =>
      some ((state.setPool pool
        { state.pools pool with
          freeList := flushHeader :: (state.pools pool).freeList }).setPc
            thread (.flush pool slot (i + 1) block))

/-- Only a live pointer is released, and a thread makes one call at a time. -/
def step (state : PoolAllocator Thread) :
    AllocAction Thread → Option (PoolAllocator Thread)
  | .alloc thread size =>
      if state.pcs thread = .idle then state.alloc thread size else none
  | .release thread block =>
      if state.pcs thread = .idle then
        match state.live.find? fun entry => entry.1 == block with
        | some entry => state.release thread entry
        | none => none
      else none
  | .advance thread => state.advance thread

/-- After `Init`. -/
def initial : PoolAllocator Thread :=
  { pools := fun pool =>
      { allocSize := PoolTable.init.pools.getD pool 0
        freeList := []
        allocCount := 0
        useCount := 0 }
    headers := fun _ => .attach 0
    nextBlock := 0
    caches := fun _ _ => []
    pcs := fun _ => .idle
    live := [] }

def machine (Thread : Type) [DecidableEq Thread] :
    Machine (PoolAllocator Thread) (AllocAction Thread) where
  initial := (· = initial)
  step := step

end PoolAllocator

end IocpChat
