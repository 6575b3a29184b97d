import IocpChat.Lib.Threads
import IocpChat.Lib.Transition

/-!
# The send path of a Session

Any number of threads run `Send`, `RegisterSend` and `ProcessSend` of one
session.  Each thread has a program counter; a step is one access to shared
state: a whole block under `_sendLock`, one atomic operation, or the use of the
send event by the thread that owns the pump.  Completions are taken by any idle
thread, as `IocpCore::Dispatch` does.

`outstanding` holds the bytes of the `WSASend` requests that have not completed.
`accepted` and `acknowledged` record what entered the queue and what was
reported sent.
-/

namespace IocpChat

open TransitionSystem

/-- The bytes of a closed buffer from `Buffer()` to `WriteSize()`, or null. -/
abbrev SendBufferRef := Option (List UInt8)

/-- The two overloads of `Send`. -/
inductive SendCall where
  | single (sendBuffer : SendBufferRef)
  | batch (sendBuffers : List SendBufferRef)
  deriving DecidableEq, Repr

namespace SendCall

/-- What the first test of `Send` refuses, besides a lost connection. -/
def nothing : SendCall → Bool
  | single sendBuffer => sendBuffer.isNone
  | batch sendBuffers => sendBuffers.isEmpty

def sendBuffers : SendCall → List SendBufferRef
  | single sendBuffer => [sendBuffer]
  | batch sendBuffers => sendBuffers

def maxSendQueueSize : Nat := 500

/-- The high-water test under the lock. -/
def overflows (queued : Nat) : SendCall → Bool
  | single _ => maxSendQueueSize ≤ queued
  | batch sendBuffers => maxSendQueueSize ≤ queued + sendBuffers.length

end SendCall

/-- The outcomes of `WSASend` that `RegisterSend` distinguishes. -/
inductive WSASendResult where
  | accepted
  | recoverableError
  | fatalError
  deriving DecidableEq, Repr

/-- Where a thread stands. -/
inductive SendPc where
  | idle
  | send (call : SendCall)
  | enqueue (call : SendCall)
  | overflow
  | registerSend
  | gather
  | nothingGathered
  | clearOwner
  | post (wsaBufs : List (List UInt8))
  | postFailed
  | abandon
  | processSend (request : List UInt8) (numOfBytes : Nat)
  | consume (request : List UInt8) (numOfBytes : Nat)
  | requeue (uncompleted : List SendBufferRef) (nextOffset : Int)
  | brokenConnection
  deriving DecidableEq, Repr

structure SessionSend (Thread : Type) where
  connected : Bool
  sendQueue : List SendBufferRef
  isSending : Bool
  sendOffset : Int
  eventOwner : Bool
  eventBuffers : List SendBufferRef
  outstanding : List (List UInt8)
  pcs : Thread → SendPc
  accepted : List SendBufferRef
  acknowledged : List UInt8

inductive SendAction (Thread : Type) where
  | call (thread : Thread) (call : SendCall)
  | disconnect
  | complete (thread : Thread) (index : Nat) (numOfBytes : Nat)
  | advance (thread : Thread) (result : WSASendResult)

namespace SessionSend

/-- The bytes of a buffer; a null reference has none. -/
def bytes (sendBuffer : SendBufferRef) : List UInt8 :=
  sendBuffer.getD []

def maxGather : Nat := 64

/-- The `WSABUF`s of the gathered buffers; the offset applies to the first. -/
def wsaBufs (sendOffset : Int) : List SendBufferRef → List (List UInt8)
  | [] => []
  | first :: rest =>
      (if 0 < sendOffset then (bytes first).drop sendOffset.toNat
        else bytes first) :: rest.map bytes

/-- The loop of `ProcessSend`: the buffers that were not sent in full, and the
offset into the first of them. -/
def consumeBuffers (offset bytesRemaining : Int) :
    List SendBufferRef → List SendBufferRef × Int
  | [] => ([], 0)
  | sendBuffer :: rest =>
      let actualPendingBytes := (bytes sendBuffer).length - offset
      if actualPendingBytes ≤ bytesRemaining then
        consumeBuffers 0 (bytesRemaining - actualPendingBytes) rest
      else (sendBuffer :: rest, offset + bytesRemaining)

section Steps

variable {Thread : Type} [DecidableEq Thread]

def goto (state : SessionSend Thread) (thread : Thread) (pc : SendPc) :
    SessionSend Thread :=
  { state with pcs := Function.update state.pcs thread pc }

theorem goto_pcs_self {shared : SessionSend Thread} {thread : Thread}
    {pc : SendPc} : (shared.goto thread pc).pcs thread = pc :=
  Function.update_self ..

theorem goto_pcs_other {shared : SessionSend Thread} {thread other : Thread}
    {pc : SendPc} (different : other ≠ thread) :
    (shared.goto thread pc).pcs other = shared.pcs other :=
  Function.update_of_ne different ..

/-- The next step of a thread; `result` is used where it calls `WSASend`. -/
def advance (state : SessionSend Thread) (thread : Thread)
    (result : WSASendResult) : Option (SessionSend Thread) :=
  match state.pcs thread with
  | .idle => none
  | .send call =>
      if call.nothing ∨ state.connected = false then
        some (state.goto thread .idle)
      else some (state.goto thread (.enqueue call))
  | .enqueue call =>
      if call.overflows state.sendQueue.length then
        some (state.goto thread .overflow)
      else
        let queued :=
          { state with
            sendQueue := state.sendQueue ++ call.sendBuffers
            isSending := true
            accepted := state.accepted ++ call.sendBuffers }
        if state.isSending then some (queued.goto thread .idle)
        else some (queued.goto thread .registerSend)
  | .overflow =>
      some ({ state with connected := false }.goto thread .idle)
  | .registerSend =>
      if state.connected = false then some (state.goto thread .idle)
      else some ({ state with eventOwner := true }.goto thread .gather)
  | .gather =>
      let gathered := state.sendQueue.take maxGather
      -- a null buffer is dereferenced here, and the process ends
      if none ∈ gathered then none
      else
        let taken :=
          { state with
            sendQueue := state.sendQueue.drop maxGather
            eventBuffers := state.eventBuffers ++ gathered }
        if gathered = [] then some (taken.goto thread .nothingGathered)
        else
          some (taken.goto thread
            (.post (wsaBufs state.sendOffset gathered)))
  | .nothingGathered =>
      some ({ state with isSending := false }.goto thread .clearOwner)
  | .clearOwner =>
      some ({ state with eventOwner := false }.goto thread .idle)
  | .post wsaBufs =>
      match result with
      | .accepted =>
          some ({ state with
            outstanding := state.outstanding ++ [wsaBufs.flatten] }.goto
              thread .idle)
      | .recoverableError => some (state.goto thread .idle)
      | .fatalError => some (state.goto thread .postFailed)
  | .postFailed =>
      some ({ state with connected := false }.goto thread .abandon)
  | .abandon =>
      some ({ state with
        eventOwner := false
        eventBuffers := []
        isSending := false }.goto thread .idle)
  | .processSend request numOfBytes =>
      if numOfBytes = 0 then
        some ({ state with
          eventOwner := false
          eventBuffers := [] }.goto thread .brokenConnection)
      else
        some ({ state with eventOwner := false }.goto thread
          (.consume request numOfBytes))
  | .consume request numOfBytes =>
      let (uncompleted, nextOffset) :=
        consumeBuffers state.sendOffset numOfBytes state.eventBuffers
      some ({ state with
        eventBuffers := []
        acknowledged := state.acknowledged ++ request.take numOfBytes }.goto
          thread (.requeue uncompleted nextOffset))
  | .requeue uncompleted nextOffset =>
      if uncompleted ≠ [] then
        some ({ state with
          sendQueue := uncompleted ++ state.sendQueue
          sendOffset := nextOffset }.goto thread .registerSend)
      else if state.sendQueue = [] then
        some ({ state with
          sendOffset := 0
          isSending := false }.goto thread .idle)
      else
        some ({ state with sendOffset := 0 }.goto thread .registerSend)
  | .brokenConnection =>
      some ({ state with connected := false }.goto thread .idle)

/-- An idle thread takes the completion of a request; without an owner in the
event `IocpCore::Dispatch` drops it. -/
def complete (state : SessionSend Thread) (thread : Thread)
    (index numOfBytes : Nat) : Option (SessionSend Thread) :=
  if state.pcs thread ≠ .idle then none
  else
    match state.outstanding[index]? with
    | none => none
    | some request =>
        if request.length < numOfBytes then none
        else
          let taken :=
            { state with
              outstanding := state.outstanding.eraseIdx index
              eventOwner := false }
          if state.eventOwner = false then some taken
          else some (taken.goto thread (.processSend request numOfBytes))

def step (state : SessionSend Thread) :
    SendAction Thread → Option (SessionSend Thread)
  | .call thread call =>
      if state.pcs thread = .idle then some (state.goto thread (.send call))
      else none
  | .disconnect => some { state with connected := false }
  | .complete thread index numOfBytes =>
      state.complete thread index numOfBytes
  | .advance thread result => state.advance thread result

/-- A connected session that has sent nothing. -/
def initial : SessionSend Thread :=
  { connected := true
    sendQueue := []
    isSending := false
    sendOffset := 0
    eventOwner := false
    eventBuffers := []
    outstanding := []
    pcs := fun _ => .idle
    accepted := []
    acknowledged := [] }

def machine (Thread : Type) [DecidableEq Thread] :
    Machine (SessionSend Thread) (SendAction Thread) where
  initial := (· = initial)
  step := step

end Steps

/-- The bytes of a line of buffers behind an offset into the first. -/
def unsent (offset : Int) (buffers : List SendBufferRef) : List UInt8 :=
  (buffers.flatMap bytes).drop offset.toNat

/-- An offset lies inside the first buffer, or there is none. -/
def OffsetInside (offset : Int) (buffers : List SendBufferRef) : Prop :=
  offset = 0 ∨
    0 < offset ∧ ∃ first rest, buffers = first :: rest ∧
      offset < (bytes first).length

theorem OffsetInside.append {offset : Int} {buffers : List SendBufferRef}
    (inside : OffsetInside offset buffers) (more : List SendBufferRef) :
    OffsetInside offset (buffers ++ more) := by
  rcases inside with zero | ⟨positive, first, rest, rfl, below⟩
  · exact Or.inl zero
  · exact Or.inr ⟨positive, first, rest ++ more, rfl, below⟩

/-- Appending buffers appends their bytes, whatever the offset. -/
theorem unsent_append {offset : Int} {buffers : List SendBufferRef}
    (inside : OffsetInside offset buffers) (more : List SendBufferRef) :
    unsent offset (buffers ++ more) =
      unsent offset buffers ++ more.flatMap bytes := by
  unfold unsent
  rw [List.flatMap_append]
  apply List.drop_append_of_le_length
  rcases inside with rfl | ⟨positive, first, rest, rfl, below⟩
  · exact Nat.zero_le _
  · rw [List.flatMap_cons, List.length_append]
    omega

/-- The gathered `WSABUF`s are the unsent bytes of the gathered buffers. -/
theorem flatten_wsaBufs {offset : Int} {buffers : List SendBufferRef}
    (inside : OffsetInside offset buffers) :
    (wsaBufs offset buffers).flatten = unsent offset buffers := by
  cases buffers with
  | nil => simp [wsaBufs, unsent]
  | cons first rest =>
      have whole : unsent offset (first :: rest) =
          (bytes first).drop offset.toNat ++ rest.flatMap bytes := by
        rw [unsent, List.flatMap_cons]
        apply List.drop_append_of_le_length
        rcases inside with rfl | ⟨positive, other, others, same, below⟩
        · exact Nat.zero_le _
        · obtain ⟨rfl, _⟩ := List.cons.inj same
          omega
      rw [whole, wsaBufs, List.flatten_cons, List.flatMap_def]
      congr 1
      split
      · rfl
      · rename_i notPositive
        have zero : offset.toNat = 0 := by omega
        rw [zero, List.drop_zero]

/-- After a completion of `count` bytes, the buffers that are left start behind
them, at an offset inside the first. -/
theorem consumeBuffers_spec {offset : Int} {buffers : List SendBufferRef}
    {count : Nat} (inside : OffsetInside offset buffers)
    (within : count ≤ (unsent offset buffers).length) :
    OffsetInside (consumeBuffers offset count buffers).2
        (consumeBuffers offset count buffers).1 ∧
      unsent (consumeBuffers offset count buffers).2
          (consumeBuffers offset count buffers).1 =
        (unsent offset buffers).drop count ∧
      ((consumeBuffers offset count buffers).1 = [] →
        (consumeBuffers offset count buffers).2 = 0) := by
  induction buffers generalizing offset count with
  | nil =>
      refine ⟨Or.inl rfl, ?_, fun _ => rfl⟩
      simp [consumeBuffers, unsent]
  | cons first rest induction =>
      have low : 0 ≤ offset := by
        rcases inside with rfl | ⟨positive, _⟩
        · exact Int.le_refl 0
        · exact Int.le_of_lt positive
      have below : offset ≤ (bytes first).length := by
        rcases inside with rfl | ⟨_, other, others, same, below⟩
        · exact Int.natCast_nonneg _
        · obtain ⟨rfl, _⟩ := List.cons.inj same
          exact Int.le_of_lt below
      have front : unsent offset (first :: rest) =
          (bytes first).drop offset.toNat ++ unsent 0 rest := by
        rw [unsent, List.flatMap_cons]
        exact List.drop_append_of_le_length (by omega)
      have frontLength : ((bytes first).drop offset.toNat).length =
          (bytes first).length - offset.toNat := List.length_drop
      rw [consumeBuffers]
      by_cases done : ((bytes first).length : Int) - offset ≤ count
      · -- the first buffer has been sent in full
        rw [if_pos done]
        have left : (count : Int) - ((bytes first).length - offset) =
            ((count - ((bytes first).length - offset.toNat) : Nat) : Int) := by
          omega
        have withinRest : count - ((bytes first).length - offset.toNat) ≤
            (unsent 0 rest).length := by
          rw [front, List.length_append, frontLength] at within
          omega
        obtain ⟨restInside, restUnsent, restEmpty⟩ :=
          induction (Or.inl rfl) withinRest
        have gone : ((bytes first).drop offset.toNat).drop count = [] :=
          List.drop_of_length_le (by rw [frontLength]; omega)
        rw [left]
        refine ⟨restInside, ?_, restEmpty⟩
        rw [restUnsent, front, List.drop_append, frontLength, gone,
          List.nil_append]
      · -- the completion ends inside the first buffer
        rw [if_neg done]
        refine ⟨?_, ?_, ?_⟩
        · by_cases nothing : offset + count = 0
          · exact Or.inl nothing
          · exact Or.inr ⟨by omega, first, rest, rfl, by omega⟩
        · have moved : (offset + count).toNat = offset.toNat + count := by
            omega
          rw [unsent, unsent, moved, List.drop_drop]
        · intro impossible
          cases impossible

section Invariant

variable {Thread : Type}

/-- The buffers in `line`, from `offset` on, are what is left to
acknowledge. -/
structure InLine (acknowledged : List UInt8) (accepted : List SendBufferRef)
    (offset : Int) (line : List SendBufferRef) : Prop where
  inside : OffsetInside offset line
  stream : acknowledged ++ unsent offset line = accepted.flatMap bytes

theorem InLine.append {acknowledged : List UInt8}
    {accepted line : List SendBufferRef} {offset : Int}
    (inLine : InLine acknowledged accepted offset line)
    (more : List SendBufferRef) :
    InLine acknowledged (accepted ++ more) offset (line ++ more) :=
  { inside := inLine.inside.append more
    stream := by
      rw [unsent_append inLine.inside, ← List.append_assoc, inLine.stream,
        List.flatMap_append] }

/-- What is in line at the socket and in the queue. -/
def Waiting (state : SessionSend Thread) : Prop :=
  OffsetInside state.sendOffset state.eventBuffers ∧
    InLine state.acknowledged state.accepted state.sendOffset
      (state.eventBuffers ++ state.sendQueue)

/-- The program counters of a thread that owns the pump. -/
def Pumps : SendPc → Prop
  | .registerSend => True
  | .gather => True
  | .post _ => True
  | .processSend _ _ => True
  | .consume _ _ => True
  | .requeue _ _ => True
  | _ => False

/-- What holds at each program counter of the owner. -/
def Pumping (state : SessionSend Thread) : SendPc → Prop
  | .registerSend =>
      state.eventBuffers = [] ∧ state.sendQueue ≠ [] ∧
        InLine state.acknowledged state.accepted state.sendOffset
          state.sendQueue
  | .gather =>
      state.eventBuffers = [] ∧ state.sendQueue ≠ [] ∧
        InLine state.acknowledged state.accepted state.sendOffset
          state.sendQueue ∧
        state.eventOwner = true
  | .post wsaBufs =>
      Waiting state ∧
        wsaBufs.flatten = unsent state.sendOffset state.eventBuffers ∧
        state.eventOwner = true
  | .processSend request numOfBytes =>
      Waiting state ∧
        request = unsent state.sendOffset state.eventBuffers ∧
        1 ≤ numOfBytes ∧ numOfBytes ≤ request.length
  | .consume request numOfBytes =>
      Waiting state ∧
        request = unsent state.sendOffset state.eventBuffers ∧
        numOfBytes ≤ request.length
  | .requeue uncompleted nextOffset =>
      state.eventBuffers = [] ∧
        InLine state.acknowledged state.accepted nextOffset
          (uncompleted ++ state.sendQueue) ∧
        (uncompleted = [] → nextOffset = 0)
  | _ => False

theorem Pumping.stream {state : SessionSend Thread} {pc : SendPc}
    (pumping : Pumping state pc)
    (settled : ∀ uncompleted nextOffset,
      pc ≠ .requeue uncompleted nextOffset) :
    state.acknowledged ++
        unsent state.sendOffset (state.eventBuffers ++ state.sendQueue) =
      state.accepted.flatMap bytes := by
  cases pc with
  | registerSend =>
      obtain ⟨noBuffers, _, inLine⟩ := pumping
      rw [noBuffers]
      exact inLine.stream
  | gather =>
      obtain ⟨noBuffers, _, inLine, _⟩ := pumping
      rw [noBuffers]
      exact inLine.stream
  | post wsaBufs => exact pumping.1.2.stream
  | processSend request numOfBytes => exact pumping.1.2.stream
  | consume request numOfBytes => exact pumping.1.2.stream
  | requeue uncompleted nextOffset => exact absurd rfl (settled _ _)
  | _ => exact pumping.elim

/-- Who has the right to start the next `WSASend`. -/
inductive Pump (Thread : Type) where
  | free
  | thread (owner : Thread)
  | request (bytes : List UInt8)
  | stranded

def Owned (state : SessionSend Thread) : Pump Thread → Prop
  | .free =>
      state.isSending = false ∧ state.outstanding = [] ∧
        state.eventBuffers = [] ∧ state.sendQueue = [] ∧
        InLine state.acknowledged state.accepted state.sendOffset []
  | .thread owner =>
      state.isSending = true ∧ state.outstanding = [] ∧
        Pumping state (state.pcs owner)
  | .request bytes =>
      state.isSending = true ∧ state.outstanding = [bytes] ∧
        Waiting state ∧
        bytes = unsent state.sendOffset state.eventBuffers ∧
        state.eventOwner = true
  | .stranded =>
      -- `RegisterSend` has returned because the session is not connected
      state.isSending = true ∧ state.outstanding = [] ∧
        state.eventBuffers = [] ∧
        InLine state.acknowledged state.accepted state.sendOffset
          state.sendQueue

/-- The program counters a regular run does not come to, and a call that has
passed the first test. -/
def Expected : SendPc → Prop
  | .enqueue call => call.nothing = false
  | .nothingGathered => False
  | .clearOwner => False
  | .postFailed => False
  | .abandon => False
  | .brokenConnection => False
  | _ => True

/-- One party owns the pump, and what is in line is what is missing from the
acknowledged stream. -/
structure Inv (state : SessionSend Thread) (pump : Pump Thread) : Prop where
  pumps_iff : ∀ thread, Pumps (state.pcs thread) ↔ pump = .thread thread
  expected : ∀ thread, Expected (state.pcs thread)
  owned : Owned state pump

/-- One party owns the pump; nobody does only without a connection. -/
def Held (state : SessionSend Thread) : Prop :=
  ∃ pump, Inv state pump ∧ (pump = .stranded → state.connected = false)

/-- Every `WSASend` is accepted and no completion reports 0 bytes. -/
def Regular (_ : SessionSend Thread) : SendAction Thread → Prop
  | .call _ _ => True
  | .disconnect => True
  | .complete _ _ numOfBytes => 1 ≤ numOfBytes
  | .advance _ result => result = .accepted

theorem initial_inv : Inv (initial : SessionSend Thread) .free :=
  { pumps_iff := fun _ => ⟨False.elim, fun impossible => by cases impossible⟩
    expected := fun _ => trivial
    owned := ⟨rfl, rfl, rfl, rfl, Or.inl rfl, rfl⟩ }

/-- What the owner of the pump knows. -/
theorem Inv.pumping {state : SessionSend Thread} {pump : Pump Thread}
    (inv : Inv state pump) {thread : Thread}
    (pumps : Pumps (state.pcs thread)) :
    pump = .thread thread ∧ state.isSending = true ∧
      state.outstanding = [] ∧ Pumping state (state.pcs thread) := by
  obtain rfl := (inv.pumps_iff thread).mp pumps
  exact ⟨rfl, inv.owned⟩

/-- The acknowledged bytes followed by the pending ones are the accepted ones,
and at most one request is outstanding.  A completion moves the buffers in
flight to locals of `ProcessSend` before they return to the queue. -/
structure StreamIntact (state : SessionSend Thread) : Prop where
  inFlight :
    (∀ thread uncompleted nextOffset,
      state.pcs thread ≠ .requeue uncompleted nextOffset) →
    state.acknowledged ++
        unsent state.sendOffset (state.eventBuffers ++ state.sendQueue) =
      state.accepted.flatMap bytes
  requeueing : ∀ thread uncompleted nextOffset,
    state.pcs thread = .requeue uncompleted nextOffset →
    state.acknowledged ++ unsent nextOffset (uncompleted ++ state.sendQueue) =
      state.accepted.flatMap bytes
  oneOutstanding : state.outstanding.length ≤ 1
  requestIsFront : ∀ request ∈ state.outstanding,
    request = unsent state.sendOffset state.eventBuffers

/-- Whoever owns the pump, the line is what is missing. -/
theorem Inv.streamIntact {state : SessionSend Thread} {pump : Pump Thread}
    (inv : Inv state pump) : StreamIntact state := by
  have noRequeue : (∀ thread, pump ≠ .thread thread) →
      ∀ thread uncompleted nextOffset,
        state.pcs thread ≠ .requeue uncompleted nextOffset := by
    intro nobody thread uncompleted nextOffset at_
    apply nobody thread
    apply (inv.pumps_iff thread).mp
    rw [at_]
    trivial
  cases pump with
  | free =>
      obtain ⟨_, outstanding, noBuffers, empty, inLine⟩ := inv.owned
      have nobody := noRequeue (fun _ impossible => by cases impossible)
      refine ⟨fun _ => ?_, ?_, ?_, ?_⟩
      · rw [noBuffers, empty]
        exact inLine.stream
      · exact fun thread _ _ at_ => absurd at_ (nobody thread _ _)
      · rw [outstanding]
        exact Nat.zero_le 1
      · rw [outstanding]
        exact fun _ impossible => by cases impossible
  | request bytes =>
      obtain ⟨_, outstanding, ⟨_, inLine⟩, requested, _⟩ := inv.owned
      have nobody := noRequeue (fun _ impossible => by cases impossible)
      refine ⟨fun _ => inLine.stream, ?_, ?_, ?_⟩
      · exact fun thread _ _ at_ => absurd at_ (nobody thread _ _)
      · rw [outstanding]
        exact Nat.le_refl 1
      · intro request member
        rw [outstanding] at member
        rw [List.mem_singleton.mp member]
        exact requested
  | stranded =>
      obtain ⟨_, outstanding, noBuffers, inLine⟩ := inv.owned
      have nobody := noRequeue (fun _ impossible => by cases impossible)
      refine ⟨fun _ => ?_, ?_, ?_, ?_⟩
      · rw [noBuffers]
        exact inLine.stream
      · exact fun thread _ _ at_ => absurd at_ (nobody thread _ _)
      · rw [outstanding]
        exact Nat.zero_le 1
      · rw [outstanding]
        exact fun _ impossible => by cases impossible
  | thread owner =>
      obtain ⟨_, outstanding, pumping⟩ := inv.owned
      refine ⟨?_, ?_, ?_, ?_⟩
      · intro noneRequeues
        exact pumping.stream (noneRequeues owner)
      · intro thread uncompleted nextOffset at_
        have pumps : Pumps (state.pcs thread) := by
          rw [at_]
          trivial
        obtain ⟨_, _, _, own⟩ := inv.pumping pumps
        rw [at_] at own
        exact own.2.1.stream
      · rw [outstanding]
        exact Nat.zero_le 1
      · rw [outstanding]
        exact fun _ impossible => by cases impossible

/-- Nothing that is owned depends on the connection. -/
theorem owned_disconnected {state : SessionSend Thread} (pump : Pump Thread)
    (owned : Owned state pump) :
    Owned { state with connected := false } pump := by
  cases pump with
  | free => exact owned
  | request bytes => exact owned
  | stranded => exact owned
  | thread owner =>
      obtain ⟨sending, nothing, pumping⟩ := owned
      refine ⟨sending, nothing, ?_⟩
      change Pumping _ (state.pcs owner)
      cases at_ : state.pcs owner <;> rw [at_] at pumping <;> exact pumping

variable [DecidableEq Thread]

/-- Moving one thread, with the pump in the right hands afterwards. -/
theorem pumps_iff_goto {state shared : SessionSend Thread}
    {pump next : Pump Thread} {thread : Thread} {pc : SendPc}
    (before : ∀ other, Pumps (state.pcs other) ↔ pump = .thread other)
    (same : shared.pcs = state.pcs)
    (self : Pumps pc ↔ next = .thread thread)
    (others : ∀ other, other ≠ thread →
      (next = .thread other ↔ pump = .thread other)) :
    ∀ other, Pumps ((shared.goto thread pc).pcs other) ↔
      next = .thread other := by
  rw [← same] at before
  exact Threads.forall_iff_update before self others

theorem expected_goto {state shared : SessionSend Thread} {thread : Thread}
    {pc : SendPc} (before : ∀ other, Expected (state.pcs other))
    (same : shared.pcs = state.pcs) (expected : Expected pc) :
    ∀ other, Expected ((shared.goto thread pc).pcs other) := by
  rw [← same] at before
  exact Threads.forall_update (fun _ => Expected) before expected

/-- A thread that does not own the pump moves, and the rest of the state is
changed in a way the owner does not notice. -/
theorem Inv.bystander {state shared : SessionSend Thread}
    {pump : Pump Thread} (inv : Inv state pump) {thread : Thread}
    {pc : SendPc} (same : shared.pcs = state.pcs)
    (outside : ¬Pumps (state.pcs thread)) (stays : ¬Pumps pc)
    (expected : Expected pc)
    (unchanged : ∀ owner, Owned state owner → Owned shared owner) :
    Inv (shared.goto thread pc) pump where
  pumps_iff := by
    refine pumps_iff_goto inv.pumps_iff same ?_ (fun _ _ => Iff.rfl)
    constructor
    · exact fun pumps => absurd pumps stays
    · exact fun owns => absurd ((inv.pumps_iff thread).mpr owns) outside
  expected := expected_goto inv.expected same expected
  owned := by
    have owned := unchanged pump inv.owned
    cases pump with
    | free => exact owned
    | request bytes => exact owned
    | stranded => exact owned
    | thread owner =>
        have different : owner ≠ thread := by
          rintro rfl
          exact outside ((inv.pumps_iff owner).mpr rfl)
        obtain ⟨sending, nothing, pumping⟩ := owned
        refine ⟨sending, nothing, ?_⟩
        rw [goto_pcs_other different]
        cases at_ : shared.pcs owner <;> rw [at_] at pumping <;> exact pumping

/-- The pump passes from one party to another, one of them the thread that
moves. -/
theorem Inv.handOver {state shared : SessionSend Thread}
    {pump next : Pump Thread} (inv : Inv state pump) {thread : Thread}
    {pc : SendPc} (same : shared.pcs = state.pcs)
    (from_ : ∀ other, other ≠ thread → pump ≠ .thread other)
    (towards : ∀ other, other ≠ thread → next ≠ .thread other)
    (self : Pumps pc ↔ next = .thread thread) (expected : Expected pc)
    (owned : Owned (shared.goto thread pc) next) :
    Inv (shared.goto thread pc) next where
  pumps_iff := by
    refine pumps_iff_goto inv.pumps_iff same self ?_
    intro other different
    constructor
    · exact fun owns => absurd owns (towards other different)
    · exact fun owns => absurd owns (from_ other different)
  expected := expected_goto inv.expected same expected
  owned := owned

/-- The thread that moves owns the pump afterwards. -/
theorem owned_thread {shared : SessionSend Thread} {thread : Thread}
    {pc : SendPc} (sending : shared.isSending = true)
    (nothing : shared.outstanding = []) (pumping : Pumping shared pc) :
    Owned (shared.goto thread pc) (.thread thread) := by
  refine ⟨sending, nothing, ?_⟩
  rw [goto_pcs_self]
  cases pc <;> exact pumping

/-- A step of the owner after which it still owns the pump. -/
theorem Inv.keep {state shared : SessionSend Thread} {pump : Pump Thread}
    (inv : Inv state pump) {thread : Thread} {pc : SendPc}
    (same : shared.pcs = state.pcs) (pumps : Pumps (state.pcs thread))
    (continues : Pumps pc) (expected : Expected pc)
    (sending : shared.isSending = true) (nothing : shared.outstanding = [])
    (pumping : Pumping shared pc) :
    Inv (shared.goto thread pc) (.thread thread) := by
  have owner := (inv.pumping pumps).1
  refine inv.handOver same ?_ ?_ ?_ expected
    (owned_thread sending nothing pumping)
  · intro other different owns
    rw [owner] at owns
    exact different (Pump.thread.inj owns).symm
  · intro other different owns
    exact different (Pump.thread.inj owns).symm
  · exact ⟨fun _ => rfl, fun _ => continues⟩

/-- A step of the owner that gives the pump away. -/
theorem Inv.giveAway {state shared : SessionSend Thread}
    {pump next : Pump Thread} (inv : Inv state pump) {thread : Thread}
    {pc : SendPc} (same : shared.pcs = state.pcs)
    (pumps : Pumps (state.pcs thread)) (ends : ¬Pumps pc)
    (expected : Expected pc) (nobody : ∀ other, next ≠ .thread other)
    (owned : Owned (shared.goto thread pc) next) :
    Inv (shared.goto thread pc) next := by
  have owner := (inv.pumping pumps).1
  refine inv.handOver same ?_ (fun other _ => nobody other) ?_ expected owned
  · intro other different owns
    rw [owner] at owns
    exact different (Pump.thread.inj owns).symm
  · exact ⟨fun pumps => absurd pumps ends,
      fun owns => absurd owns (nobody thread)⟩

/-- `Send` under the lock: the buffers join the line; the thread that finds no
send in progress takes the pump. -/
theorem enqueue_inv {state : SessionSend Thread} {pump : Pump Thread}
    (inv : Inv state pump)
    (kept : pump = .stranded → state.connected = false) {thread : Thread}
    {call : SendCall} (at_ : state.pcs thread = .enqueue call) :
    let queued : SessionSend Thread :=
      { state with
        sendQueue := state.sendQueue ++ call.sendBuffers
        isSending := true
        accepted := state.accepted ++ call.sendBuffers }
    (state.isSending = true → Held (queued.goto thread .idle)) ∧
    (state.isSending = false → Held (queued.goto thread .registerSend)) := by
  intro queued
  have some_ : call.sendBuffers ≠ [] := by
    have expected := inv.expected thread
    rw [at_] at expected
    change call.nothing = false at expected
    cases call with
    | single sendBuffer => exact List.cons_ne_nil _ _
    | batch sendBuffers =>
        intro nothing
        change sendBuffers = [] at nothing
        subst nothing
        cases expected
  have outside : ¬Pumps (state.pcs thread) := by
    rw [at_]
    exact id
  have longer : state.sendQueue ++ call.sendBuffers ≠ [] :=
    List.append_ne_nil_of_right_ne_nil _ some_
  have waiting : Waiting state → Waiting queued := by
    rintro ⟨inside, inLine⟩
    refine ⟨inside, ?_⟩
    have extended := inLine.append call.sendBuffers
    rwa [List.append_assoc] at extended
  constructor
  · intro sending
    refine ⟨pump, inv.bystander rfl outside id trivial ?_, kept⟩
    intro owner owned
    cases owner with
    | free =>
        obtain ⟨notSending, _⟩ := owned
        rw [notSending] at sending
        cases sending
    | request bytes =>
        obtain ⟨_, outstanding, waits, requested, hasOwner⟩ := owned
        exact ⟨rfl, outstanding, waiting waits, requested, hasOwner⟩
    | stranded =>
        obtain ⟨_, outstanding, nothing, inLine⟩ := owned
        exact ⟨rfl, outstanding, nothing, inLine.append call.sendBuffers⟩
    | thread owner =>
        obtain ⟨_, outstanding, pumping⟩ := owned
        refine ⟨rfl, outstanding, ?_⟩
        change Pumping queued (state.pcs owner)
        cases ownerAt : state.pcs owner <;> rw [ownerAt] at pumping <;>
          try exact pumping
        case registerSend =>
          obtain ⟨nothing, _, inLine⟩ := pumping
          exact ⟨nothing, longer, inLine.append call.sendBuffers⟩
        case gather =>
          obtain ⟨nothing, _, inLine, hasOwner⟩ := pumping
          exact ⟨nothing, longer, inLine.append call.sendBuffers, hasOwner⟩
        case post wsaBufs =>
          obtain ⟨waits, facts⟩ := pumping
          exact ⟨waiting waits, facts⟩
        case processSend request numOfBytes =>
          obtain ⟨waits, facts⟩ := pumping
          exact ⟨waiting waits, facts⟩
        case consume request numOfBytes =>
          obtain ⟨waits, facts⟩ := pumping
          exact ⟨waiting waits, facts⟩
        case requeue uncompleted nextOffset =>
          obtain ⟨nothing, inLine, atEnd⟩ := pumping
          refine ⟨nothing, ?_, atEnd⟩
          have extended := inLine.append call.sendBuffers
          rwa [List.append_assoc] at extended
  · intro idle
    cases pump with
    | request bytes =>
        have sending := inv.owned.1
        rw [idle] at sending
        cases sending
    | stranded =>
        have sending := inv.owned.1
        rw [idle] at sending
        cases sending
    | thread owner =>
        have sending := inv.owned.1
        rw [idle] at sending
        cases sending
    | free =>
        obtain ⟨_, outstanding, nothing, empty, inLine⟩ := inv.owned
        refine ⟨.thread thread, inv.handOver rfl ?_ ?_ ?_ trivial
          (owned_thread rfl outstanding ⟨nothing, longer, ?_⟩), nofun⟩
        · intro other _ owns
          cases owns
        · intro other different owns
          exact different (Pump.thread.inj owns).symm
        · exact ⟨fun _ => rfl, fun _ => trivial⟩
        · change InLine _ _ state.sendOffset
            (state.sendQueue ++ call.sendBuffers)
          rw [empty]
          exact inLine.append call.sendBuffers

/-- Gathering moves buffers from the queue to the event; the line is the same,
and the `WSABUF`s are its unsent front. -/
theorem gather_inv {state next : SessionSend Thread} {pump : Pump Thread}
    (inv : Inv state pump) {thread : Thread} {result : WSASendResult}
    (at_ : state.pcs thread = .gather)
    (stepped : state.advance thread result = some next) :
    Held next := by
  have pumps : Pumps (state.pcs thread) := by
    rw [at_]
    trivial
  obtain ⟨_, sending, outstanding, pumping⟩ := inv.pumping pumps
  rw [at_] at pumping
  obtain ⟨noBuffers, queued, inLine, hasOwner⟩ := pumping
  let gathered := state.sendQueue.take maxGather
  have someGathered : gathered ≠ [] := by
    intro nothing
    rcases List.take_eq_nil_iff.mp nothing with zero | empty
    · cases zero
    · exact queued empty
  have split : gathered ++ state.sendQueue.drop maxGather = state.sendQueue :=
    List.take_append_drop _ _
  have inside : OffsetInside state.sendOffset gathered := by
    rcases inLine.inside with zero | ⟨positive, first, rest, same, below⟩
    · exact Or.inl zero
    · refine Or.inr ⟨positive, first, rest.take 63, ?_, below⟩
      change state.sendQueue.take 64 = _
      rw [same]
      rfl
  let taken : SessionSend Thread :=
    { state with
      sendQueue := state.sendQueue.drop maxGather
      eventBuffers := state.eventBuffers ++ gathered }
  have event : taken.eventBuffers = gathered := by
    change state.eventBuffers ++ gathered = gathered
    rw [noBuffers, List.nil_append]
  have waits : Waiting taken := by
    refine ⟨?_, ?_⟩
    · rw [event]
      exact inside
    · rw [event]
      change InLine _ _ _ (gathered ++ state.sendQueue.drop maxGather)
      rw [split]
      exact inLine
  have requested : (wsaBufs state.sendOffset gathered).flatten =
      unsent taken.sendOffset taken.eventBuffers := by
    rw [event]
    exact flatten_wsaBufs inside
  have posts : next = taken.goto thread
      (.post (wsaBufs state.sendOffset gathered)) := by
    simp only [advance, at_] at stepped
    split at stepped
    · cases stepped
    · exact (Option.some.inj stepped).symm
  rw [posts]
  exact ⟨_, inv.keep rfl pumps trivial trivial sending outstanding
    ⟨waits, requested, hasOwner⟩, nofun⟩

/-- Accounting for a completion: what was acknowledged leaves the line. -/
theorem consume_inv {state next : SessionSend Thread} {pump : Pump Thread}
    (inv : Inv state pump) {thread : Thread} {result : WSASendResult}
    {request : List UInt8} {numOfBytes : Nat}
    (at_ : state.pcs thread = .consume request numOfBytes)
    (stepped : state.advance thread result = some next) :
    Held next := by
  have pumps : Pumps (state.pcs thread) := by
    rw [at_]
    trivial
  obtain ⟨_, sending, outstanding, pumping⟩ := inv.pumping pumps
  rw [at_] at pumping
  obtain ⟨⟨inside, inLine⟩, requested, within⟩ := pumping
  rw [requested] at within
  obtain ⟨leftInside, left, atEnd⟩ := consumeBuffers_spec inside within
  simp only [advance, at_] at stepped
  obtain rfl := Option.some.inj stepped
  refine ⟨_, inv.keep rfl pumps trivial trivial sending outstanding
    ⟨rfl, ⟨?_, ?_⟩, atEnd⟩, nofun⟩
  · exact leftInside.append _
  · -- the request is the front of the line, so its bytes stay in order
    change (state.acknowledged ++ request.take numOfBytes) ++ unsent _ _ = _
    rw [unsent_append leftInside, left, requested, ← inLine.stream,
      unsent_append inside]
    simp only [List.append_assoc]
    rw [← List.append_assoc (List.take numOfBytes _), List.take_append_drop]

/-- Putting unfinished buffers back in front of the queue. -/
theorem requeue_inv {state next : SessionSend Thread} {pump : Pump Thread}
    (inv : Inv state pump) {thread : Thread} {result : WSASendResult}
    {uncompleted : List SendBufferRef} {nextOffset : Int}
    (at_ : state.pcs thread = .requeue uncompleted nextOffset)
    (stepped : state.advance thread result = some next) :
    Held next := by
  have pumps : Pumps (state.pcs thread) := by
    rw [at_]
    trivial
  obtain ⟨_, sending, outstanding, pumping⟩ := inv.pumping pumps
  rw [at_] at pumping
  obtain ⟨noBuffers, inLine, atEnd⟩ := pumping
  simp only [advance, at_] at stepped
  by_cases finished : uncompleted = []
  · have zero := atEnd finished
    rw [finished, zero, List.nil_append] at inLine
    rw [if_neg (not_not.mpr finished)] at stepped
    by_cases empty : state.sendQueue = []
    · rw [if_pos empty] at stepped
      obtain rfl := Option.some.inj stepped
      rw [empty] at inLine
      exact ⟨.free, inv.giveAway rfl pumps id trivial
        (fun _ owns => by cases owns)
        ⟨rfl, outstanding, noBuffers, empty, inLine⟩, nofun⟩
    · rw [if_neg empty] at stepped
      obtain rfl := Option.some.inj stepped
      exact ⟨_, inv.keep rfl pumps trivial trivial sending outstanding
        ⟨noBuffers, empty, inLine⟩, nofun⟩
  · rw [if_pos finished] at stepped
    obtain rfl := Option.some.inj stepped
    exact ⟨_, inv.keep rfl pumps trivial trivial sending outstanding
      ⟨noBuffers, List.append_ne_nil_of_left_ne_nil finished _, inLine⟩,
      nofun⟩

/-- One step of a thread. -/
theorem advance_inv {state next : SessionSend Thread} {pump : Pump Thread}
    (inv : Inv state pump)
    (kept : pump = .stranded → state.connected = false) {thread : Thread}
    (stepped : state.advance thread .accepted = some next) :
    Held next := by
  have expected := inv.expected thread
  cases at_ : state.pcs thread with
  | idle => simp [advance, at_] at stepped
  | send call =>
      have outside : ¬Pumps (state.pcs thread) := by
        rw [at_]
        exact id
      simp only [advance, at_] at stepped
      split at stepped
      · obtain rfl := Option.some.inj stepped
        exact ⟨pump, inv.bystander rfl outside id trivial fun _ => id, kept⟩
      · rename_i passes
        obtain rfl := Option.some.inj stepped
        have something : call.nothing = false := by
          cases refused : call.nothing with
          | false => rfl
          | true => exact absurd (Or.inl refused) passes
        exact ⟨pump, inv.bystander rfl outside id something fun _ => id, kept⟩
  | enqueue call =>
      obtain ⟨joins, takes⟩ := enqueue_inv inv kept at_
      simp only [advance, at_] at stepped
      split at stepped
      · obtain rfl := Option.some.inj stepped
        have outside : ¬Pumps (state.pcs thread) := by
          rw [at_]
          exact id
        exact ⟨pump, inv.bystander rfl outside id trivial fun _ => id, kept⟩
      · split at stepped
        · rename_i sending
          obtain rfl := Option.some.inj stepped
          exact joins sending
        · rename_i notSending
          obtain rfl := Option.some.inj stepped
          exact takes (Bool.eq_false_iff.mpr notSending)
  | overflow =>
      simp only [advance, at_] at stepped
      obtain rfl := Option.some.inj stepped
      have outside : ¬Pumps (state.pcs thread) := by
        rw [at_]
        exact id
      exact ⟨pump, inv.bystander rfl outside id trivial owned_disconnected,
        fun _ => rfl⟩
  | registerSend =>
      have pumps : Pumps (state.pcs thread) := by
        rw [at_]
        trivial
      obtain ⟨_, sending, outstanding, pumping⟩ := inv.pumping pumps
      rw [at_] at pumping
      obtain ⟨noBuffers, queued, inLine⟩ := pumping
      simp only [advance, at_] at stepped
      split at stepped
      · rename_i lost
        obtain rfl := Option.some.inj stepped
        exact ⟨.stranded, inv.giveAway rfl pumps id trivial
          (fun _ owns => by cases owns)
          ⟨sending, outstanding, noBuffers, inLine⟩, fun _ => lost⟩
      · obtain rfl := Option.some.inj stepped
        exact ⟨_, inv.keep rfl pumps trivial trivial sending outstanding
          ⟨noBuffers, queued, inLine, rfl⟩, nofun⟩
  | gather => exact gather_inv inv at_ stepped
  | nothingGathered =>
      rw [at_] at expected
      cases expected
  | clearOwner =>
      rw [at_] at expected
      cases expected
  | post wsaBufs =>
      have pumps : Pumps (state.pcs thread) := by
        rw [at_]
        trivial
      obtain ⟨_, sending, outstanding, pumping⟩ := inv.pumping pumps
      rw [at_] at pumping
      obtain ⟨waits, requested, hasOwner⟩ := pumping
      simp only [advance, at_] at stepped
      obtain rfl := Option.some.inj stepped
      refine ⟨.request wsaBufs.flatten, inv.giveAway rfl pumps id trivial
        (fun _ owns => by cases owns)
        ⟨sending, ?_, waits, requested, hasOwner⟩, nofun⟩
      change state.outstanding ++ [wsaBufs.flatten] = [wsaBufs.flatten]
      rw [outstanding, List.nil_append]
  | postFailed =>
      rw [at_] at expected
      cases expected
  | abandon =>
      rw [at_] at expected
      cases expected
  | processSend request numOfBytes =>
      have pumps : Pumps (state.pcs thread) := by
        rw [at_]
        trivial
      obtain ⟨_, sending, outstanding, pumping⟩ := inv.pumping pumps
      rw [at_] at pumping
      obtain ⟨waits, requested, positive, within⟩ := pumping
      have someBytes : ¬numOfBytes = 0 := Nat.ne_of_gt positive
      simp only [advance, at_, someBytes, if_false] at stepped
      obtain rfl := Option.some.inj stepped
      exact ⟨_, inv.keep rfl pumps trivial trivial sending outstanding
        ⟨waits, requested, within⟩, nofun⟩
  | consume request numOfBytes => exact consume_inv inv at_ stepped
  | requeue uncompleted nextOffset => exact requeue_inv inv at_ stepped
  | brokenConnection =>
      rw [at_] at expected
      cases expected

/-- An idle thread takes the completion of the outstanding request, and the
pump with it. -/
theorem complete_inv {state next : SessionSend Thread} {pump : Pump Thread}
    (inv : Inv state pump) {thread : Thread} {index numOfBytes : Nat}
    (positive : 1 ≤ numOfBytes)
    (stepped : state.complete thread index numOfBytes = some next) :
    Held next := by
  unfold complete at stepped
  split at stepped
  · cases stepped
  · split at stepped
    · cases stepped
    · rename_i idle request found
      split at stepped
      · cases stepped
      · rename_i tooMany
        have within : numOfBytes ≤ request.length := Nat.not_lt.mp tooMany
        cases pump with
        | free =>
            obtain ⟨_, outstanding, _⟩ := inv.owned
            rw [outstanding] at found
            cases found
        | thread owner =>
            obtain ⟨_, outstanding, _⟩ := inv.owned
            rw [outstanding] at found
            cases found
        | stranded =>
            obtain ⟨_, outstanding, _⟩ := inv.owned
            rw [outstanding] at found
            cases found
        | request bytes =>
            obtain ⟨sending, outstanding, waits, requested, hasOwner⟩ :=
              inv.owned
            rw [outstanding, List.getElem?_singleton] at found
            split at found
            · rename_i first
              obtain rfl := Option.some.inj found
              simp only [hasOwner, Bool.true_eq_false, if_false] at stepped
              obtain rfl := Option.some.inj stepped
              refine ⟨.thread thread, inv.handOver rfl ?_ ?_ ?_ trivial
                (owned_thread sending ?_
                  ⟨waits, requested, positive, within⟩), nofun⟩
              · intro other _ owns
                cases owns
              · intro other different owns
                exact different (Pump.thread.inj owns).symm
              · exact ⟨fun _ => rfl, fun _ => trivial⟩
              · change state.outstanding.eraseIdx index = []
                rw [outstanding, first]
                rfl
            · cases found

/-- One step of a regular run keeps the pump in one party's hands. -/
theorem step_inv {state next : SessionSend Thread} {pump : Pump Thread}
    {action : SendAction Thread} (inv : Inv state pump)
    (kept : pump = .stranded → state.connected = false)
    (regular : Regular state action)
    (stepped : state.step action = some next) : Held next := by
  cases action with
  | call thread call =>
      change (if state.pcs thread = .idle then _ else none) = _ at stepped
      split at stepped
      · rename_i idle
        obtain rfl := Option.some.inj stepped
        have outside : ¬Pumps (state.pcs thread) := by
          rw [idle]
          exact id
        exact ⟨pump, inv.bystander rfl outside id trivial fun _ => id, kept⟩
      · cases stepped
  | disconnect =>
      obtain rfl := Option.some.inj stepped
      exact ⟨pump, ⟨inv.pumps_iff, inv.expected,
        owned_disconnected pump inv.owned⟩, fun _ => rfl⟩
  | complete thread index numOfBytes =>
      exact complete_inv inv regular stepped
  | advance thread result =>
      have accepted : result = .accepted := regular
      subst accepted
      exact advance_inv inv kept stepped

theorem reaches_held {state : SessionSend Thread}
    (reached : (machine Thread).Reaches Regular state) : Held state := by
  apply Machine.Reaches.invariant _ _ reached
  · intro state initially
    obtain rfl : state = initial := initially
    exact ⟨.free, initial_inv, nofun⟩
  · intro state action next ⟨pump, inv, kept⟩ regular stepped
    exact step_inv inv kept regular stepped

/-- The send path keeps the stream, for any interleaving of its threads. -/
theorem reaches_streamIntact {state : SessionSend Thread}
    (reached : (machine Thread).Reaches Regular state) :
    StreamIntact state := by
  obtain ⟨pump, inv, _⟩ := reaches_held reached
  exact inv.streamIntact

/-- A completion reports one byte of three while another buffer queues up. -/
def partialSends : List (SendAction Bool) :=
  [.call true (.single (some [1, 2, 3])),
    .advance true .accepted,
    .advance true .accepted,
    .advance true .accepted,
    .advance true .accepted,
    .call false (.single (some [4])),
    .advance false .accepted,
    .advance true .accepted,
    .advance false .accepted,
    .complete false 0 1,
    .advance false .accepted,
    .advance false .accepted]

theorem partialSends_streamIntact :
    ∃ state, (machine Bool).run initial partialSends = some state ∧
      state.acknowledged = [1] ∧ state.sendQueue = [some [4]] ∧
      state.pcs false = .requeue [some [1, 2, 3]] 1 ∧
      StreamIntact state := by
  have meets : ∀ action ∈ partialSends, ∀ state : SessionSend Bool,
      Regular state action := by
    simp [partialSends, Regular]
  obtain ⟨state, replayed⟩ :
      ∃ state, (machine Bool).run initial partialSends = some state :=
    Option.isSome_iff_exists.mp rfl
  have facts : (((machine Bool).run initial partialSends).map fun state =>
      (state.acknowledged, state.sendQueue, state.pcs false)) =
        some ([1], [some [4]], .requeue [some [1, 2, 3]] 1) := rfl
  rw [replayed] at facts
  simp only [Option.map_some, Option.some.injEq, Prod.mk.injEq] at facts
  obtain ⟨acknowledged, queued, at_⟩ := facts
  exact ⟨state, replayed, acknowledged, queued, at_,
    reaches_streamIntact
      (Machine.Reaches.of_run (.start rfl) (Machine.RunMeets.of_forall meets)
        replayed)⟩

end Invariant

end SessionSend

end IocpChat
