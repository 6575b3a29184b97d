import IocpChat.Buffer.BufferWriter
import Mathlib.Logic.Function.Basic

/-!
# SendBuffer, SendBufferChunk and SendBufferManager

Chunks are named by references into a heap, so that a chunk outlives the
thread's use of it as long as a `SendBuffer` refers to it.  The state is what
one thread sees: the heap, its `LSendBufferChunk` and the shared pool.
`SendBufferManager::Push` is private and has no caller.

`ASSERT_CRASH` ends the process, so a call returns the failed assertion or a
result.  No caller passes a negative size; sizes are natural numbers.
-/

namespace IocpChat

open FlatMemory

/-- The assertions of the module, and the use of a null `SendBufferRef`. -/
inductive AssertCrash where
  | chunkOpenAllocSize
  | chunkOpenIsOpen
  | chunkCloseIsOpen
  | sendBufferCloseWriteSize
  | managerOpenIsOpen
  | nullSendBuffer
  deriving DecidableEq, Repr

/-- 64KB. -/
def chunkSize : Nat := 0x10000

structure SendBufferChunk where
  buffer : Memory UInt8
  isOpen : Bool
  usedSize : Nat

/-- `SendBufferChunkRef`. -/
abbrev ChunkRef := Nat

/-- `_buffer` is an offset into the memory of the owning chunk. -/
structure SendBuffer where
  owner : ChunkRef
  buffer : Nat
  allocSize : Nat
  writeSize : Nat
  deriving DecidableEq, Repr

namespace SendBufferChunk

/-- A new chunk: `_buffer.resize(CHUNK_SIZE)`. -/
def new : SendBufferChunk :=
  { buffer := fun _ => 0, isOpen := false, usedSize := 0 }

def reset (chunk : SendBufferChunk) : SendBufferChunk :=
  { chunk with isOpen := false, usedSize := 0 }

def freeSize (chunk : SendBufferChunk) : Nat :=
  chunkSize - chunk.usedSize

/-- The offset of the opened part, or `none` for `nullptr`. -/
def open_ (chunk : SendBufferChunk) (allocSize : Nat) :
    Except AssertCrash (Option Nat × SendBufferChunk) :=
  if ¬(0 < allocSize ∧ allocSize ≤ chunkSize) then
    .error .chunkOpenAllocSize
  else if chunk.isOpen then .error .chunkOpenIsOpen
  else if chunk.freeSize < allocSize then .ok (none, chunk)
  else .ok (some chunk.usedSize, { chunk with isOpen := true })

def close (chunk : SendBufferChunk) (writeSize : Nat) :
    Except AssertCrash SendBufferChunk :=
  if chunk.isOpen then
    .ok { chunk with
      isOpen := false
      usedSize := chunk.usedSize + writeSize }
  else .error .chunkCloseIsOpen

end SendBufferChunk

/-- What one thread sees of the send buffers. -/
structure SendBufferState where
  chunks : ChunkRef → SendBufferChunk
  nextRef : ChunkRef
  localChunk : Option ChunkRef
  pool : List ChunkRef

namespace SendBufferState

/-- A thread that has not opened anything yet, over an empty pool. -/
def initial : SendBufferState :=
  { chunks := fun _ => .new
    nextRef := 0
    localChunk := none
    pool := [] }

def setChunk (state : SendBufferState) (ref : ChunkRef)
    (chunk : SendBufferChunk) : SendBufferState :=
  { state with chunks := Function.update state.chunks ref chunk }

/-- Replace the memory of a chunk, as the writes through a buffer do. -/
def setMemory (state : SendBufferState) (ref : ChunkRef)
    (memory : Memory UInt8) : SendBufferState :=
  state.setChunk ref { state.chunks ref with buffer := memory }

/-- The bytes of a buffer from its start to `WriteSize()`. -/
def bytes (state : SendBufferState) (sendBuffer : SendBuffer) : List UInt8 :=
  load (state.chunks sendBuffer.owner).buffer sendBuffer.buffer
    sendBuffer.writeSize

@[simp] theorem setChunk_same (state : SendBufferState) (ref : ChunkRef)
    (chunk : SendBufferChunk) : (state.setChunk ref chunk).chunks ref = chunk :=
  Function.update_self ..

@[simp] theorem setMemory_same (state : SendBufferState) (ref : ChunkRef)
    (memory : Memory UInt8) :
    (state.setMemory ref memory).chunks ref =
      { state.chunks ref with buffer := memory } :=
  Function.update_self ..

end SendBufferState

/-- `SendBuffer::Close`. -/
def SendBuffer.close (sendBuffer : SendBuffer) (writeSize : Nat)
    (state : SendBufferState) :
    Except AssertCrash (SendBuffer × SendBufferState) :=
  if sendBuffer.allocSize < writeSize then .error .sendBufferCloseWriteSize
  else do
    let chunk ← (state.chunks sendBuffer.owner).close writeSize
    return ({ sendBuffer with writeSize := writeSize },
      state.setChunk sendBuffer.owner chunk)

namespace SendBufferManager

/-- A pooled chunk, or a new one. -/
def pop (state : SendBufferState) : ChunkRef × SendBufferState :=
  match state.pool.getLast? with
  | some ref => (ref, { state with pool := state.pool.dropLast })
  | none =>
      (state.nextRef,
        { state.setChunk state.nextRef .new with
          nextRef := state.nextRef + 1 })

/-- `LSendBufferChunk = Pop(); LSendBufferChunk->Reset();` -/
def renew (state : SendBufferState) : ChunkRef × SendBufferState :=
  let (ref, popped) := pop state
  (ref,
    { popped.setChunk ref (popped.chunks ref).reset with
      localChunk := some ref })

/-- The thread's chunk, taken from the pool on first use. -/
def acquire (state : SendBufferState) : ChunkRef × SendBufferState :=
  match state.localChunk with
  | some ref => (ref, state)
  | none => renew state

def open_ (size : Nat) (state : SendBufferState) :
    Except AssertCrash (Option SendBuffer × SendBufferState) :=
  let (ref, state) := acquire state
  if (state.chunks ref).isOpen then .error .managerOpenIsOpen
  else
    let (ref, state) :=
      if (state.chunks ref).freeSize < size then renew state
      else (ref, state)
    do
      let (offset, chunk) ← (state.chunks ref).open_ size
      return (offset.map fun buffer =>
          { owner := ref, buffer := buffer, allocSize := size, writeSize := 0 },
        state.setChunk ref chunk)

def close (sendBuffer : SendBuffer) (writeSize : Nat)
    (state : SendBufferState) :
    Except AssertCrash (SendBuffer × SendBufferState) :=
  sendBuffer.close writeSize state

end SendBufferManager

/-- The thread has no open chunk: `LSendBufferChunk` is null or closed. -/
def SendBufferState.ChunkClosed (state : SendBufferState) : Prop :=
  ∀ ref, state.localChunk = some ref → (state.chunks ref).isOpen = false

namespace SendBufferManager

theorem renew_spec (state : SendBufferState) :
    (renew state).2.localChunk = some (renew state).1 ∧
      ((renew state).2.chunks (renew state).1).isOpen = false ∧
      ((renew state).2.chunks (renew state).1).usedSize = 0 := by
  refine ⟨rfl, ?_, ?_⟩ <;>
    simp [renew, SendBufferState.setChunk, SendBufferChunk.reset]

theorem acquire_spec {state : SendBufferState} (closed : state.ChunkClosed) :
    (acquire state).2.localChunk = some (acquire state).1 ∧
      ((acquire state).2.chunks (acquire state).1).isOpen = false := by
  unfold acquire
  cases current : state.localChunk with
  | none => exact ⟨(renew_spec state).1, (renew_spec state).2.1⟩
  | some ref => exact ⟨current, closed ref current⟩

/-- What `open_` hands out: the whole allocation lies free in the thread's
chunk, which is now open. -/
structure Opened (size : Nat) (sendBuffer : SendBuffer)
    (state : SendBufferState) : Prop where
  isLocal : state.localChunk = some sendBuffer.owner
  isOpen : (state.chunks sendBuffer.owner).isOpen = true
  start : sendBuffer.buffer = (state.chunks sendBuffer.owner).usedSize
  allocSize : sendBuffer.allocSize = size
  within : sendBuffer.buffer + size ≤ chunkSize

/-- On a closed chunk `open_` never asserts and never returns null. -/
theorem open_of_closed {state : SendBufferState} {size : Nat}
    (closed : state.ChunkClosed) (positive : 0 < size)
    (bounded : size ≤ chunkSize) :
    ∃ sendBuffer next, open_ size state = .ok (some sendBuffer, next) ∧
      Opened size sendBuffer next := by
  obtain ⟨acquiredLocal, acquiredClosed⟩ := acquire_spec closed
  have fits : ∀ (ref : ChunkRef) (current : SendBufferState),
      current.localChunk = some ref →
      (current.chunks ref).isOpen = false →
      ¬(current.chunks ref).freeSize < size →
      ∃ sendBuffer next,
        (do
          let (offset, chunk) ← (current.chunks ref).open_ size
          return (offset.map fun buffer =>
              { owner := ref, buffer := buffer, allocSize := size
                writeSize := 0 : SendBuffer },
            current.setChunk ref chunk) :
            Except AssertCrash (Option SendBuffer × SendBufferState)) =
          .ok (some sendBuffer, next) ∧ Opened size sendBuffer next := by
    intro ref current isLocal notOpen room
    have opened : (current.chunks ref).open_ size =
        .ok (some (current.chunks ref).usedSize,
          { current.chunks ref with isOpen := true }) := by
      simp [SendBufferChunk.open_, positive, bounded, notOpen, room]
    rw [opened]
    refine ⟨_, _, rfl, ?_⟩
    unfold SendBufferChunk.freeSize at room
    exact
      { isLocal := isLocal
        isOpen := by simp
        start := by simp
        allocSize := rfl
        within := by
          change (current.chunks ref).usedSize + size ≤ chunkSize
          omega }
  unfold open_
  simp only [acquiredClosed, Bool.false_eq_true, if_false]
  split
  · obtain ⟨renewedLocal, renewedClosed, renewedUsed⟩ :=
      renew_spec (acquire state).2
    refine fits _ _ renewedLocal renewedClosed ?_
    rw [SendBufferChunk.freeSize, renewedUsed]
    omega
  · rename_i room
    exact fits _ _ acquiredLocal acquiredClosed room

/-- On an open chunk the assertion of `open_` fires. -/
theorem open_of_open {state : SendBufferState} {size : Nat} {ref : ChunkRef}
    (isLocal : state.localChunk = some ref)
    (isOpen : (state.chunks ref).isOpen = true) :
    open_ size state = .error .managerOpenIsOpen := by
  simp [open_, acquire, isLocal, isOpen]

/-- An opened buffer can be closed once, at any size it has room for. -/
theorem close_of_isOpen {state : SendBufferState} {sendBuffer : SendBuffer}
    {writeSize : Nat}
    (isOpen : (state.chunks sendBuffer.owner).isOpen = true)
    (enough : writeSize ≤ sendBuffer.allocSize) :
    close sendBuffer writeSize state =
      .ok ({ sendBuffer with writeSize := writeSize },
        state.setChunk sendBuffer.owner
          { state.chunks sendBuffer.owner with
            isOpen := false
            usedSize :=
              (state.chunks sendBuffer.owner).usedSize + writeSize }) := by
  simp only [close, SendBuffer.close, Nat.not_lt.mpr enough, if_false,
    SendBufferChunk.close, isOpen, if_true]
  rfl

end SendBufferManager

end IocpChat
