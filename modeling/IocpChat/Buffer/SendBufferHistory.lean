import IocpChat.Buffer.SendBuffer
import IocpChat.Lib.Threads
import IocpChat.Lib.Transition
import Mathlib.Data.Set.BooleanAlgebra
import Mathlib.Data.Set.Disjoint
import Mathlib.Order.CompletePartialOrder

/-!
# The send buffers of all threads

Every thread cuts its buffers off a chunk of its own and closes one before it
opens the next.  A closed buffer is shared by reference; it keeps its chunk
alive after the thread has gone on to another.  `Open` touches what the threads
share only in `Pop`, under the lock, so it is one step.
-/

namespace IocpChat

open FlatMemory TransitionSystem

/-- A `SendBuffer` that is still referenced, and its bytes when it was
closed. -/
structure ClosedBuffer where
  sendBuffer : SendBuffer
  contents : List UInt8
  deriving DecidableEq, Repr

/-- `opened` is the buffer that a thread has not closed yet. -/
structure SendBuffers (Thread : Type) where
  chunks : ChunkRef → SendBufferChunk
  nextRef : ChunkRef
  pool : List ChunkRef
  localChunks : Thread → Option ChunkRef
  opened : Thread → Option SendBuffer
  referenced : List ClosedBuffer

/-- The cells that hold a closed buffer's bytes. -/
def SendBuffer.written (sendBuffer : SendBuffer) : Set (ChunkRef × Nat) :=
  extent sendBuffer.owner sendBuffer.buffer sendBuffer.writeSize

inductive SendBufferAction (Thread : Type) where
  | open_ (thread : Thread) (size : Nat)
  | write (thread : Thread) (offset : Nat) (block : List UInt8)
  | close (thread : Thread) (writeSize : Nat)
  | drop (place : Nat)

namespace SendBufferManager

/-- What a call does to the heap: chunks that were there stay as they are, and
the thread's chunk `ref` is new or was the thread's before. -/
structure Grows (state next : SendBufferState) (ref : ChunkRef) : Prop where
  noPool : next.pool = []
  isLocal : next.localChunk = some ref
  nextRef_le : state.nextRef ≤ next.nextRef
  ref_lt : ref < next.nextRef
  kept : ∀ other < state.nextRef, next.chunks other = state.chunks other
  own : ref < state.nextRef → state.localChunk = some ref

section Grows

variable {state next : SendBufferState} {ref : ChunkRef}

/-- `Push` is never called, so `Pop` makes a new chunk. -/
theorem renew_eq (noPool : state.pool = []) :
    renew state =
      (state.nextRef,
        { chunks := Function.update state.chunks state.nextRef .new
          nextRef := state.nextRef + 1
          localChunk := some state.nextRef
          pool := state.pool }) := by
  have popped : pop state = (state.nextRef,
      { state.setChunk state.nextRef .new with
        nextRef := state.nextRef + 1 }) := by
    rw [pop, noPool]
    rfl
  have reset : SendBufferChunk.new.reset = .new := rfl
  simp only [renew, popped, SendBufferState.setChunk, Function.update_self,
    Function.update_idem, reset]

theorem Grows.renew (grows : Grows state next ref) :
    Grows state (renew next).2 (SendBufferManager.renew next).1 := by
  rw [renew_eq grows.noPool]
  exact
    { noPool := grows.noPool
      isLocal := rfl
      nextRef_le := Nat.le_succ_of_le grows.nextRef_le
      ref_lt := Nat.lt_succ_self _
      kept := by
        intro other old
        have older : other < next.nextRef :=
          Nat.lt_of_lt_of_le old grows.nextRef_le
        rw [← grows.kept other old]
        exact Function.update_of_ne (Nat.ne_of_lt older) ..
      own := fun old =>
        absurd (Nat.lt_of_lt_of_le old grows.nextRef_le) (Nat.lt_irrefl _) }

theorem acquire_grows (noPool : state.pool = [])
    (known : ∀ other, state.localChunk = some other →
      other < state.nextRef) :
    Grows state (acquire state).2 (acquire state).1 := by
  unfold acquire
  cases current : state.localChunk with
  | some ref =>
      exact
        { noPool := noPool
          isLocal := current
          nextRef_le := Nat.le_refl _
          ref_lt := known ref current
          kept := fun _ _ => rfl
          own := fun _ => current }
  | none =>
      have renewed : SendBufferManager.renew state = _ := renew_eq noPool
      simp only [renewed]
      exact
        { noPool := noPool
          isLocal := rfl
          nextRef_le := Nat.le_succ _
          ref_lt := Nat.lt_succ_self _
          kept := fun other old =>
            Function.update_of_ne (Nat.ne_of_lt old) ..
          own := fun old => absurd old (Nat.lt_irrefl _) }

end Grows

/-- What `Open` leaves behind: only the chunk of the new buffer is other than
before, and it is open. -/
structure OpenFrame (state next : SendBufferState) (sendBuffer : SendBuffer) :
    Prop where
  noPool : next.pool = []
  nextRef_le : state.nextRef ≤ next.nextRef
  owner_lt : sendBuffer.owner < next.nextRef
  others : ∀ ref < state.nextRef, ref ≠ sendBuffer.owner →
    next.chunks ref = state.chunks ref
  own : sendBuffer.owner < state.nextRef →
    state.localChunk = some sendBuffer.owner ∧
      next.chunks sendBuffer.owner =
        { state.chunks sendBuffer.owner with isOpen := true }

theorem open_frame {state next : SendBufferState} {sendBuffer : SendBuffer}
    {size : Nat} (noPool : state.pool = [])
    (known : ∀ other, state.localChunk = some other → other < state.nextRef)
    (opened : open_ size state = .ok (some sendBuffer, next)) :
    OpenFrame state next sendBuffer := by
  have fits : ∀ (ref : ChunkRef) (current : SendBufferState),
      Grows state current ref →
      (do
        let made ← (current.chunks ref).open_ size
        return (made.1.map fun buffer =>
            { owner := ref, buffer := buffer, allocSize := size
              writeSize := 0 : SendBuffer },
          current.setChunk ref made.2) :
          Except AssertCrash (Option SendBuffer × SendBufferState)) =
        .ok (some sendBuffer, next) → OpenFrame state next sendBuffer := by
    intro ref current grows made
    unfold SendBufferChunk.open_ at made
    split at made
    · cases made
    · split at made
      · cases made
      · split at made
        · cases made
        · cases made
          exact
            { noPool := grows.noPool
              nextRef_le := grows.nextRef_le
              owner_lt := grows.ref_lt
              others := by
                intro other old different
                rw [← grows.kept other old]
                exact Function.update_of_ne different ..
              own := by
                intro old
                refine ⟨grows.own old, ?_⟩
                rw [← grows.kept ref old]
                exact Function.update_self .. }
  have acquired := acquire_grows noPool known
  simp only [open_] at opened
  split at opened
  · cases opened
  · split at opened
    · exact fits _ _ acquired.renew opened
    · exact fits _ _ acquired opened

end SendBufferManager

namespace SendBuffers

variable {Thread : Type}

/-- What a thread sees. -/
def view (state : SendBuffers Thread) (thread : Thread) : SendBufferState :=
  { chunks := state.chunks
    nextRef := state.nextRef
    localChunk := state.localChunks thread
    pool := state.pool }

def bytes (state : SendBuffers Thread) (sendBuffer : SendBuffer) :
    List UInt8 :=
  load (state.chunks sendBuffer.owner).buffer sendBuffer.buffer
    sendBuffer.writeSize

variable [DecidableEq Thread]

def setView (state : SendBuffers Thread) (thread : Thread)
    (view : SendBufferState) : SendBuffers Thread :=
  { state with
    chunks := view.chunks
    nextRef := view.nextRef
    pool := view.pool
    localChunks := Function.update state.localChunks thread view.localChunk }

def setOpened (state : SendBuffers Thread) (thread : Thread)
    (opened : Option SendBuffer) : SendBuffers Thread :=
  { state with opened := Function.update state.opened thread opened }

/-- A thread writes only into its open buffer. -/
def write (state : SendBuffers Thread) (sendBuffer : SendBuffer)
    (offset : Nat) (block : List UInt8) : SendBuffers Thread :=
  let chunk := state.chunks sendBuffer.owner
  { state with
    chunks := Function.update state.chunks sendBuffer.owner
      { chunk with
        buffer := store chunk.buffer (sendBuffer.buffer + offset) block } }

def step (state : SendBuffers Thread) :
    SendBufferAction Thread → Option (SendBuffers Thread)
  | .open_ thread size =>
      if state.opened thread = none ∧ 0 < size ∧ size ≤ chunkSize then
        match SendBufferManager.open_ size (state.view thread) with
        | .ok (some sendBuffer, view) =>
            some ((state.setView thread view).setOpened thread
              (some sendBuffer))
        | _ => none
      else none
  | .write thread offset block =>
      match state.opened thread with
      | some sendBuffer =>
          if offset + block.length ≤ sendBuffer.allocSize then
            some (state.write sendBuffer offset block)
          else none
      | none => none
  | .close thread writeSize =>
      match state.opened thread with
      | some sendBuffer =>
          match SendBufferManager.close sendBuffer writeSize
              (state.view thread) with
          | .ok (closed, view) =>
              let closedState :=
                (state.setView thread view).setOpened thread none
              some
                { closedState with
                  referenced := state.referenced ++
                    [{ sendBuffer := closed
                       contents := closedState.bytes closed }] }
          | .error _ => none
      | none => none
  | .drop place =>
      some { state with referenced := state.referenced.eraseIdx place }

/-- No thread has opened anything yet. -/
def initial : SendBuffers Thread :=
  { chunks := fun _ => .new
    nextRef := 0
    pool := []
    localChunks := fun _ => none
    opened := fun _ => none
    referenced := [] }

def machine (Thread : Type) [DecidableEq Thread] :
    Machine (SendBuffers Thread) (SendBufferAction Thread) where
  initial := (· = initial)
  step := step

/-- The buffer lies below the mark of its chunk, and has the bytes it was closed
with. -/
structure Holds (state : SendBuffers Thread) (closed : ClosedBuffer) :
    Prop where
  owner_lt : closed.sendBuffer.owner < state.nextRef
  committed : closed.sendBuffer.buffer + closed.sendBuffer.writeSize ≤
    (state.chunks closed.sendBuffer.owner).usedSize
  contents : state.bytes closed.sendBuffer = closed.contents

/-- Every thread has a chunk of its own and writes above its mark. -/
structure Valid (state : SendBuffers Thread) : Prop where
  noPool : state.pool = []
  local_lt : ∀ thread ref, state.localChunks thread = some ref →
    ref < state.nextRef
  local_inj : ∀ first second ref, state.localChunks first = some ref →
    state.localChunks second = some ref → first = second
  opened : ∀ thread sendBuffer, state.opened thread = some sendBuffer →
    SendBufferManager.Opened sendBuffer.allocSize sendBuffer
      (state.view thread)
  closed : ∀ thread, state.opened thread = none →
    (state.view thread).ChunkClosed
  referenced : ∀ closed ∈ state.referenced, state.Holds closed
  apart : state.referenced.Pairwise fun first second =>
    Disjoint first.sendBuffer.written second.sendBuffer.written

omit [DecidableEq Thread] in
theorem initial_valid : (initial : SendBuffers Thread).Valid where
  noPool := rfl
  local_lt := nofun
  local_inj := nofun
  opened := nofun
  closed := fun _ _ => nofun
  referenced := nofun
  apart := List.Pairwise.nil

section Steps

variable {state next : SendBuffers Thread} {thread : Thread}

omit [DecidableEq Thread] in
theorem Holds.mono {closed : ClosedBuffer} (holds : state.Holds closed)
    (more : state.nextRef ≤ next.nextRef)
    (used : (state.chunks closed.sendBuffer.owner).usedSize ≤
      (next.chunks closed.sendBuffer.owner).usedSize)
    (same : next.bytes closed.sendBuffer = state.bytes closed.sendBuffer) :
    next.Holds closed where
  owner_lt := Nat.lt_of_lt_of_le holds.owner_lt more
  committed := holds.committed.trans used
  contents := same.trans holds.contents

/-- Another thread does not notice that a chunk that is not its own changes. -/
theorem others_valid (valid : state.Valid) {view : SendBufferState}
    {opened : Option SendBuffer} {other : Thread} (different : other ≠ thread)
    (others : ∀ ref, state.localChunks other = some ref →
      view.chunks ref = state.chunks ref) :
    let next := (state.setView thread view).setOpened thread opened
    (∀ sendBuffer, next.opened other = some sendBuffer →
      SendBufferManager.Opened sendBuffer.allocSize sendBuffer
        (next.view other)) ∧
      (next.opened other = none → (next.view other).ChunkClosed) := by
  intro next
  have sameOpened : next.opened other = state.opened other :=
    Function.update_of_ne different ..
  have sameLocal : next.localChunks other = state.localChunks other :=
    Function.update_of_ne different ..
  rw [sameOpened]
  constructor
  · intro sendBuffer isOpened
    have before := valid.opened other sendBuffer isOpened
    have sameChunk := others _ before.isLocal
    exact
      { isLocal := sameLocal.trans before.isLocal
        isOpen := (congrArg SendBufferChunk.isOpen sameChunk).trans
          before.isOpen
        start := before.start.trans
          (congrArg SendBufferChunk.usedSize sameChunk).symm
        allocSize := rfl
        within := before.within }
  · intro notOpened ref isLocal
    have before : state.localChunks other = some ref :=
      sameLocal.symm.trans isLocal
    have closed := valid.closed other notOpened ref before
    exact (congrArg SendBufferChunk.isOpen (others ref before)).trans closed

theorem open_valid (valid : state.Valid) {size : Nat}
    (notOpened : state.opened thread = none) (positive : 0 < size)
    (bounded : size ≤ chunkSize) :
    ∃ sendBuffer view,
      SendBufferManager.open_ size (state.view thread) =
          .ok (some sendBuffer, view) ∧
        SendBufferManager.Opened size sendBuffer view ∧
        ((state.setView thread view).setOpened thread
          (some sendBuffer)).Valid := by
  obtain ⟨sendBuffer, view, made, isOpened⟩ :=
    SendBufferManager.open_of_closed (valid.closed thread notOpened) positive
      bounded
  refine ⟨sendBuffer, view, made, isOpened, ?_⟩
  have frame := SendBufferManager.open_frame valid.noPool
    (valid.local_lt thread) made
  let next := (state.setView thread view).setOpened thread (some sendBuffer)
  have selfLocal : next.localChunks thread = some sendBuffer.owner :=
    (Function.update_self ..).trans isOpened.isLocal
  have selfOpened : next.opened thread = some sendBuffer :=
    Function.update_self ..
  have otherLocal : ∀ other, other ≠ thread →
      next.localChunks other = state.localChunks other :=
    fun other different => Function.update_of_ne different ..
  -- a chunk of another thread is neither new nor this thread's
  have apartLocal : ∀ other ref, other ≠ thread →
      state.localChunks other = some ref → ref ≠ sendBuffer.owner := by
    intro other ref different isLocal same
    have known := valid.local_lt other ref isLocal
    rw [same] at known isLocal
    exact different
      (valid.local_inj other thread _ isLocal (frame.own known).1)
  have others := fun other (different : other ≠ thread) =>
    @others_valid _ _ _ thread valid view (some sendBuffer) other different
      fun ref isLocal => frame.others ref
        (valid.local_lt other ref isLocal)
        (apartLocal other ref different isLocal)
  have keptBytes : ∀ ref < state.nextRef,
      (view.chunks ref).buffer = (state.chunks ref).buffer ∧
        (view.chunks ref).usedSize = (state.chunks ref).usedSize := by
    intro ref old
    by_cases same : ref = sendBuffer.owner
    · rw [same] at old ⊢
      rw [(frame.own old).2]
      exact ⟨rfl, rfl⟩
    · rw [frame.others ref old same]
      exact ⟨rfl, rfl⟩
  exact
    { noPool := frame.noPool
      local_lt := by
        intro other ref isLocal
        by_cases own : other = thread
        · subst own
          rw [selfLocal, Option.some.injEq] at isLocal
          exact isLocal ▸ frame.owner_lt
        · rw [otherLocal other own] at isLocal
          exact Nat.lt_of_lt_of_le (valid.local_lt other ref isLocal)
            frame.nextRef_le
      local_inj := by
        intro first second ref firstLocal secondLocal
        by_cases firstOwn : first = thread
        · subst firstOwn
          rw [selfLocal, Option.some.injEq] at firstLocal
          by_contra different
          rw [otherLocal second (Ne.symm different)] at secondLocal
          exact apartLocal second ref (Ne.symm different) secondLocal
            firstLocal.symm
        · rw [otherLocal first firstOwn] at firstLocal
          by_cases secondOwn : second = thread
          · subst secondOwn
            rw [selfLocal, Option.some.injEq] at secondLocal
            exact absurd secondLocal.symm
              (apartLocal first ref firstOwn firstLocal)
          · rw [otherLocal second secondOwn] at secondLocal
            exact valid.local_inj first second ref firstLocal secondLocal
      opened := by
        intro other current isCurrent
        by_cases own : other = thread
        · subst own
          have same : sendBuffer = current :=
            Option.some.inj (selfOpened.symm.trans isCurrent)
          subst same
          rw [isOpened.allocSize]
          exact
            { isOpened with isLocal := selfLocal }
        · exact (others other own).1 current isCurrent
      closed := by
        intro other notOpenedNow
        by_cases own : other = thread
        · subst own
          have impossible : some sendBuffer = none :=
            selfOpened.symm.trans notOpenedNow
          cases impossible
        · exact (others other own).2 notOpenedNow
      referenced := by
        intro closed member
        have holds := valid.referenced closed member
        obtain ⟨sameBytes, sameUsed⟩ := keptBytes _ holds.owner_lt
        refine holds.mono frame.nextRef_le (Nat.le_of_eq sameUsed.symm) ?_
        exact congrArg (fun memory => load memory _ _) sameBytes
      apart := valid.apart }

omit [DecidableEq Thread] in
/-- What is closed lies below a buffer that is open. -/
theorem Valid.below (valid : state.Valid) {sendBuffer : SendBuffer}
    (opened : state.opened thread = some sendBuffer) {closed : ClosedBuffer}
    (member : closed ∈ state.referenced)
    (same : closed.sendBuffer.owner = sendBuffer.owner) :
    closed.sendBuffer.buffer + closed.sendBuffer.writeSize ≤
      sendBuffer.buffer := by
  have committed := (valid.referenced closed member).committed
  rw [same] at committed
  exact committed.trans_eq (valid.opened thread sendBuffer opened).start.symm

omit [DecidableEq Thread] in
theorem write_valid (valid : state.Valid) {sendBuffer : SendBuffer}
    (opened : state.opened thread = some sendBuffer) (offset : Nat)
    (block : List UInt8) : (state.write sendBuffer offset block).Valid := by
  have marks : ∀ ref,
      ((state.write sendBuffer offset block).chunks ref).isOpen =
          (state.chunks ref).isOpen ∧
        ((state.write sendBuffer offset block).chunks ref).usedSize =
          (state.chunks ref).usedSize := by
    intro ref
    by_cases same : ref = sendBuffer.owner
    · subst same
      simp [write]
    · simp [write, same]
  exact
    { valid with
      opened := by
        intro other current isCurrent
        have before := valid.opened other current isCurrent
        exact
          { before with
            isOpen := (marks _).1.trans before.isOpen
            start := before.start.trans (marks _).2.symm }
      closed := fun other notOpened ref isLocal =>
        (marks ref).1.trans (valid.closed other notOpened ref isLocal)
      referenced := by
        intro closed member
        have holds := valid.referenced closed member
        refine holds.mono (Nat.le_refl _) (Nat.le_of_eq (marks _).2.symm) ?_
        by_cases same : closed.sendBuffer.owner = sendBuffer.owner
        · have below := valid.below opened member same
          simp only [bytes, write, same, Function.update_self]
          apply load_store_disjoint
          exact Or.inl (below.trans (Nat.le_add_right _ _))
        · simp only [bytes, write, ne_eq, same, not_false_eq_true,
            Function.update_of_ne] }

omit [DecidableEq Thread] in
/-- `Close` moves the mark of the thread's chunk behind the written bytes. -/
theorem close_eq (valid : state.Valid) {sendBuffer : SendBuffer}
    (opened : state.opened thread = some sendBuffer) {writeSize : Nat}
    (enough : writeSize ≤ sendBuffer.allocSize) :
    SendBufferManager.close sendBuffer writeSize (state.view thread) =
      .ok ({ sendBuffer with writeSize := writeSize },
        (state.view thread).setChunk sendBuffer.owner
          { state.chunks sendBuffer.owner with
            isOpen := false
            usedSize := sendBuffer.buffer + writeSize }) := by
  have before := valid.opened thread sendBuffer opened
  rw [SendBufferManager.close_of_isOpen before.isOpen enough, before.start]
  rfl

theorem close_valid (valid : state.Valid) {sendBuffer : SendBuffer}
    (opened : state.opened thread = some sendBuffer) (writeSize : Nat) :
    let closed : SendBuffer := { sendBuffer with writeSize := writeSize }
    let view := (state.view thread).setChunk sendBuffer.owner
      { state.chunks sendBuffer.owner with
        isOpen := false
        usedSize := sendBuffer.buffer + writeSize }
    let next := (state.setView thread view).setOpened thread none
    ({ next with
      referenced := state.referenced ++
        [{ sendBuffer := closed
           contents := next.bytes closed }] } : SendBuffers Thread).Valid := by
  intro closed view next
  have before := valid.opened thread sendBuffer opened
  have chunk : view.chunks sendBuffer.owner =
      { state.chunks sendBuffer.owner with
        isOpen := false
        usedSize := sendBuffer.buffer + writeSize } :=
    Function.update_self ..
  have otherChunk : ∀ ref, ref ≠ sendBuffer.owner →
      view.chunks ref = state.chunks ref :=
    fun ref different => Function.update_of_ne different ..
  have selfOpened : next.opened thread = none := Function.update_self ..
  have sameLocal : next.localChunks = state.localChunks :=
    Function.update_eq_self ..
  have others := fun other (different : other ≠ thread) =>
    @others_valid _ _ _ thread valid view none other different
      fun ref isLocal => otherChunk ref fun same =>
        different (valid.local_inj other thread ref isLocal
          (same ▸ before.isLocal))
  have older : ∀ held ∈ state.referenced, next.Holds held := by
    intro held member
    have holds := valid.referenced held member
    by_cases same : held.sendBuffer.owner = sendBuffer.owner
    · refine holds.mono (Nat.le_refl _) ?_ ?_
      · have mark := before.start
        change (state.chunks held.sendBuffer.owner).usedSize ≤
          (view.chunks held.sendBuffer.owner).usedSize
        rw [same, chunk]
        exact Nat.le_add_right_of_le (Nat.le_of_eq mark.symm)
      · change load (view.chunks _).buffer _ _ = _
        rw [same, chunk, bytes, same]
    · refine holds.mono (Nat.le_refl _) ?_ ?_
      · exact Nat.le_of_eq
          (congrArg SendBufferChunk.usedSize (otherChunk _ same)).symm
      · change load (view.chunks _).buffer _ _ = _
        rw [otherChunk _ same]
        rfl
  exact
    { noPool := valid.noPool
      local_lt := by
        intro other ref isLocal
        exact valid.local_lt other ref (sameLocal ▸ isLocal)
      local_inj := by
        intro first second ref firstLocal secondLocal
        exact valid.local_inj first second ref (sameLocal ▸ firstLocal)
          (sameLocal ▸ secondLocal)
      opened := by
        intro other current isCurrent
        by_cases own : other = thread
        · subst own
          have impossible := selfOpened.symm.trans isCurrent
          cases impossible
        · exact (others other own).1 current isCurrent
      closed := by
        intro other notOpened
        by_cases own : other = thread
        · subst own
          intro ref isLocal
          have mine : state.localChunks other = some ref :=
            sameLocal ▸ isLocal
          have same : sendBuffer.owner = ref :=
            Option.some.inj (before.isLocal.symm.trans mine)
          rw [← same]
          exact congrArg SendBufferChunk.isOpen chunk
        · exact (others other own).2 notOpened
      referenced := by
        intro held member
        rcases List.mem_append.mp member with old | new
        · exact { older held old with }
        · rw [List.mem_singleton.mp new]
          exact
            { owner_lt := valid.local_lt thread _ before.isLocal
              committed := Nat.le_of_eq
                (congrArg SendBufferChunk.usedSize chunk).symm
              contents := rfl }
      apart := by
        apply List.pairwise_append.mpr
        refine ⟨valid.apart, List.pairwise_singleton .., ?_⟩
        intro held member new isNew
        rw [List.mem_singleton.mp isNew]
        by_cases same : held.sendBuffer.owner = sendBuffer.owner
        · have below := valid.below opened member same
          rw [SendBuffer.written, same]
          exact extent_disjoint_of_le below _
        · exact extent_disjoint_of_ne same .. }

omit [DecidableEq Thread] in
theorem drop_valid (valid : state.Valid) (place : Nat) :
    ({ state with
      referenced := state.referenced.eraseIdx place } :
        SendBuffers Thread).Valid :=
  { valid with
    referenced := fun closed member =>
      { valid.referenced closed (List.mem_of_mem_eraseIdx member) with }
    apart := valid.apart.sublist (List.eraseIdx_sublist ..) }

theorem step_valid {action : SendBufferAction Thread} (valid : state.Valid)
    (stepped : state.step action = some next) : next.Valid := by
  cases action with
  | open_ thread size =>
      simp only [step] at stepped
      split at stepped
      · rename_i sizes
        obtain ⟨notOpened, positive, bounded⟩ := sizes
        obtain ⟨sendBuffer, view, made, _, opened⟩ :=
          open_valid valid notOpened positive bounded
        rw [made] at stepped
        cases stepped
        exact opened
      · cases stepped
  | write thread offset block =>
      simp only [step] at stepped
      split at stepped
      · rename_i sendBuffer opened
        split at stepped
        · cases stepped
          exact write_valid valid opened offset block
        · cases stepped
      · cases stepped
  | close thread writeSize =>
      simp only [step] at stepped
      split at stepped
      · rename_i sendBuffer opened
        by_cases enough : writeSize ≤ sendBuffer.allocSize
        · rw [close_eq valid opened enough] at stepped
          cases stepped
          exact close_valid valid opened writeSize
        · have crashes : SendBufferManager.close sendBuffer writeSize
              (state.view thread) = .error .sendBufferCloseWriteSize :=
            if_pos (Nat.lt_of_not_le enough)
          rw [crashes] at stepped
          cases stepped
      · cases stepped
  | drop place =>
      cases stepped
      exact drop_valid valid place

end Steps

/-- What the users of send buffers rely on. -/
structure Intact (state : SendBuffers Thread) : Prop where
  opens : ∀ thread size, state.opened thread = none → 0 < size →
    size ≤ chunkSize → ∃ sendBuffer view,
      SendBufferManager.open_ size (state.view thread) =
          .ok (some sendBuffer, view) ∧
        sendBuffer.allocSize = size ∧
        sendBuffer.buffer + sendBuffer.allocSize ≤ chunkSize
  closes : ∀ thread sendBuffer writeSize,
    state.opened thread = some sendBuffer →
    writeSize ≤ sendBuffer.allocSize → ∃ view,
      SendBufferManager.close sendBuffer writeSize (state.view thread) =
        .ok ({ sendBuffer with writeSize := writeSize }, view)
  apart : state.referenced.Pairwise fun first second =>
    Disjoint first.sendBuffer.written second.sendBuffer.written
  contents : ∀ closed ∈ state.referenced,
    state.bytes closed.sendBuffer = closed.contents

/-- Whatever is opened, written and closed, by any number of threads, what was
closed stays as it is. -/
theorem reaches_intact {state : SendBuffers Thread}
    (reached : (machine Thread).Reachable state) : state.Intact := by
  have valid : state.Valid := by
    apply Machine.Reachable.invariant _ _ reached
    · intro state initially
      rw [show state = initial from initially]
      exact initial_valid
    · intro state action next valid stepped
      exact step_valid valid stepped
  exact
    { opens := by
        intro thread size notOpened positive bounded
        obtain ⟨sendBuffer, view, made, isOpened, _⟩ :=
          open_valid valid notOpened positive bounded
        refine ⟨sendBuffer, view, made, isOpened.allocSize, ?_⟩
        rw [isOpened.allocSize]
        exact isOpened.within
      closes := fun thread sendBuffer writeSize opened enough =>
        ⟨_, close_eq valid opened enough⟩
      apart := valid.apart
      contents := fun closed member =>
        (valid.referenced closed member).contents }

/-- Two threads; the first closes a buffer, opens the next one and writes in
it. -/
theorem reaches_intact_twoThreads :
    ∃ state, (machine Bool).run initial
        [.open_ true 128, .write true 0 [1, 2], .open_ false 65536,
          .close true 2, .open_ true 65535, .write true 0 [3],
          .write false 9 [4], .close true 1] = some state ∧
      state.referenced.map ClosedBuffer.contents = [[1, 2], [3]] ∧
      state.Intact := by
  obtain ⟨state, replayed⟩ : ∃ state, (machine Bool).run initial
      [.open_ true 128, .write true 0 [1, 2], .open_ false 65536,
        .close true 2, .open_ true 65535, .write true 0 [3],
        .write false 9 [4], .close true 1] = some state :=
    Option.isSome_iff_exists.mp (by decide +kernel)
  refine ⟨state, replayed, ?_, ?_⟩
  · apply Machine.view_of_run replayed
    decide +kernel
  · exact reaches_intact (.of_run (.start rfl) replayed)

end SendBuffers

end IocpChat
