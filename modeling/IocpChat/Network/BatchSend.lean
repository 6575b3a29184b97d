import IocpChat.Network.SessionSend

/-!
# One batch and its buffers one by one

The two overloads of `Send` test the high-water mark differently: the one for a
single buffer lets the queue grow to the mark, the one for a vector keeps it
below.  The single form ignores a null reference, the other one queues it.
-/

namespace IocpChat

open TransitionSystem

namespace SessionSend

variable {Thread : Type} [DecidableEq Thread]

/-- The thread goes on until its call has returned, and nobody else moves. -/
inductive Finishes (thread : Thread) :
    SessionSend Thread → SessionSend Thread → Prop where
  | returned {state : SessionSend Thread} :
      state.pcs thread = .idle → Finishes thread state state
  | advanced {state next final : SessionSend Thread}
      {result : WSASendResult} :
      state.advance thread result = some next → Finishes thread next final →
      Finishes thread state final

/-- What the call leaves behind. -/
def Returns (thread : Thread) (state : SessionSend Thread) (call : SendCall)
    (final : SessionSend Thread) : Prop :=
  ∃ called, state.step (.call thread call) = some called ∧
    Finishes thread called final

/-- What the calls leave behind, one after the other. -/
inductive ReturnsEach (thread : Thread) :
    SessionSend Thread → List SendCall → SessionSend Thread → Prop where
  | nil {state : SessionSend Thread} : ReturnsEach thread state [] state
  | cons {state next final : SessionSend Thread} {call : SendCall}
      {calls : List SendCall} :
      Returns thread state call next → ReturnsEach thread next calls final →
      ReturnsEach thread state (call :: calls) final

/-- If the buffers are accepted one by one, the batch is accepted and leaves
the same queue. -/
def BatchAgrees (thread : Thread) (state : SessionSend Thread)
    (sendBuffers : List SendBufferRef) : Prop :=
  ∀ singles,
    ReturnsEach thread state (sendBuffers.map .single) singles →
    singles.connected = true →
    ∃ batch, Returns thread state (.batch sendBuffers) batch ∧
      batch.connected = true ∧ batch.sendQueue = singles.sendQueue ∧
      batch.isSending = singles.isSending

/-- A connected session has a send in flight, and the thread is free. -/
structure InFlight (thread : Thread) (state : SessionSend Thread) : Prop where
  connected : state.connected = true
  isSending : state.isSending = true
  idle : state.pcs thread = .idle

/-- What `Send` does while a send is in flight. -/
def afterSend (state : SessionSend Thread) (call : SendCall) :
    SessionSend Thread :=
  if call.nothing ∨ state.connected = false then state
  else if call.overflows state.sendQueue.length then
    { state with connected := false }
  else
    { state with
      sendQueue := state.sendQueue ++ call.sendBuffers
      isSending := true
      accepted := state.accepted ++ call.sendBuffers }

theorem finishes_idle_iff {thread : Thread}
    {state final : SessionSend Thread} (idle : state.pcs thread = .idle) :
    Finishes thread state final ↔ final = state := by
  constructor
  · intro finishes
    cases finishes with
    | returned => rfl
    | advanced advanced _ =>
        rw [advance, idle] at advanced
        cases advanced
  · intro same
    rw [same]
    exact .returned idle

theorem finishes_goto_iff {thread : Thread}
    {state next final : SessionSend Thread} {pc : SendPc}
    (advances : ∀ result,
      (state.goto thread pc).advance thread result = some next)
    (busy : pc ≠ .idle) :
    Finishes thread (state.goto thread pc) final ↔
      Finishes thread next final := by
  constructor
  · intro finishes
    cases finishes with
    | returned idle =>
        rw [goto_pcs_self] at idle
        exact absurd idle busy
    | @advanced _ other _ result advanced finishes =>
        obtain rfl := Option.some.inj (advanced.symm.trans (advances result))
        exact finishes
  · exact .advanced (advances .accepted)

theorem goto_goto (state : SessionSend Thread) (thread : Thread)
    (first second : SendPc) :
    (state.goto thread first).goto thread second =
      state.goto thread second := by
  rw [goto, goto, goto, Function.update_idem]

/-- The thread is back where it was. -/
theorem goto_idle {thread : Thread} {state : SessionSend Thread}
    (idle : state.pcs thread = .idle) (pc : SendPc) :
    (state.goto thread pc).goto thread .idle = state := by
  rw [goto_goto, goto, ← idle, Function.update_eq_self]

/-- No call registers a send, so it has returned after three steps at most. -/
theorem returns_iff {thread : Thread} {state final : SessionSend Thread}
    {call : SendCall} (isSending : state.isSending = true)
    (idle : state.pcs thread = .idle) :
    Returns thread state call final ↔ final = afterSend state call := by
  have called : state.step (.call thread call) =
      some (state.goto thread (.send call)) := if_pos idle
  have starts : Returns thread state call final ↔
      Finishes thread (state.goto thread (.send call)) final := by
    rw [Returns, called]
    simp
  rw [starts, afterSend]
  by_cases refused : call.nothing ∨ state.connected = false
  · have advances : ∀ result,
        (state.goto thread (.send call)).advance thread result =
          some state := by
      intro result
      simp only [advance, goto_pcs_self, goto_idle idle]
      exact if_pos refused
    rw [finishes_goto_iff advances (by simp), finishes_idle_iff idle,
      if_pos refused]
  have enters : ∀ result,
      (state.goto thread (.send call)).advance thread result =
        some (state.goto thread (.enqueue call)) := by
    intro result
    simp only [advance, goto_pcs_self, goto_goto]
    exact if_neg refused
  rw [finishes_goto_iff enters (by simp), if_neg refused]
  by_cases overflows : call.overflows state.sendQueue.length = true
  · have refuses : ∀ result,
        (state.goto thread (.enqueue call)).advance thread result =
          some (state.goto thread .overflow) := by
      intro result
      simp only [advance, goto_pcs_self, goto_goto]
      exact if_pos overflows
    let disconnected : SessionSend Thread := { state with connected := false }
    have disconnects : ∀ result,
        (state.goto thread .overflow).advance thread result =
          some disconnected := by
      intro result
      simp only [advance, goto_pcs_self]
      exact congrArg some (@goto_idle _ _ thread disconnected idle .overflow)
    rw [finishes_goto_iff refuses (by simp),
      finishes_goto_iff disconnects (by simp), if_pos overflows]
    exact finishes_idle_iff idle
  · let queued : SessionSend Thread :=
      { state with
        sendQueue := state.sendQueue ++ call.sendBuffers
        isSending := true
        accepted := state.accepted ++ call.sendBuffers }
    have accepts : ∀ result,
        (state.goto thread (.enqueue call)).advance thread result =
          some queued := by
      intro result
      have returns := @goto_idle _ _ thread queued idle (.enqueue call)
      simp only [advance, goto_pcs_self]
      rw [← returns]
      refine (if_neg overflows).trans ?_
      exact if_pos isSending
    rw [finishes_goto_iff accepts (by simp), if_neg overflows]
    exact finishes_idle_iff idle

omit [DecidableEq Thread] in
theorem afterSend_isSending {state : SessionSend Thread} {call : SendCall}
    (isSending : state.isSending = true) :
    (afterSend state call).isSending = true := by
  unfold afterSend
  split
  · exact isSending
  · split
    · exact isSending
    · rfl

omit [DecidableEq Thread] in
theorem afterSend_pcs (state : SessionSend Thread) (call : SendCall) :
    (afterSend state call).pcs = state.pcs := by
  unfold afterSend
  split
  · rfl
  · split <;> rfl

theorem returnsEach_iff {thread : Thread} {state final : SessionSend Thread}
    {calls : List SendCall} (isSending : state.isSending = true)
    (idle : state.pcs thread = .idle) :
    ReturnsEach thread state calls final ↔
      final = calls.foldl afterSend state := by
  induction calls generalizing state with
  | nil =>
      constructor
      · intro returns
        cases returns
        rfl
      · intro same
        rw [same]
        exact .nil
  | cons call calls induction =>
      have stillSending := @afterSend_isSending _ _ call isSending
      have stillIdle : (afterSend state call).pcs thread = .idle := by
        rw [afterSend_pcs]
        exact idle
      rw [List.foldl_cons, ← induction stillSending stillIdle]
      constructor
      · intro returns
        cases returns with
        | cons first rest =>
            rw [returns_iff isSending idle] at first
            exact first ▸ rest
      · exact .cons ((returns_iff isSending idle).mpr rfl)

/-- How many buffers the single form queues. -/
def present (sendBuffers : List SendBufferRef) : Nat :=
  sendBuffers.countP Option.isSome

omit [DecidableEq Thread] in
theorem foldl_afterSend_disconnected {state : SessionSend Thread}
    (disconnected : state.connected = false) (calls : List SendCall) :
    calls.foldl afterSend state = state := by
  induction calls with
  | nil => rfl
  | cons call calls induction =>
      rw [List.foldl_cons, afterSend, if_pos (Or.inr disconnected)]
      exact induction

omit [DecidableEq Thread] in
/-- The single form takes the buffers that are there, up to the mark. -/
theorem foldl_single {state : SessionSend Thread}
    (connected : state.connected = true) (isSending : state.isSending = true)
    (sendBuffers : List SendBufferRef) :
    let final := (sendBuffers.map SendCall.single).foldl afterSend state
    (final.connected = true ↔ present sendBuffers = 0 ∨
      state.sendQueue.length + present sendBuffers ≤
        SendCall.maxSendQueueSize) ∧
    (final.connected = true → final.isSending = true ∧
      final.sendQueue =
        state.sendQueue ++ sendBuffers.filter Option.isSome) := by
  induction sendBuffers generalizing state with
  | nil =>
      refine ⟨iff_of_true connected (Or.inl rfl), fun _ => ⟨isSending, ?_⟩⟩
      exact (List.append_nil _).symm
  | cons sendBuffer sendBuffers induction =>
      cases sendBuffer with
      | none =>
          have ignored : afterSend state (.single none) = state :=
            if_pos (Or.inl rfl)
          have after := induction connected isSending
          simpa [ignored, present] using after
      | some data =>
          by_cases full : SendCall.maxSendQueueSize ≤ state.sendQueue.length
          · have refused : afterSend state (.single (some data)) =
                { state with connected := false } := by
              rw [afterSend, if_neg (by simp [SendCall.nothing, connected])]
              exact if_pos (decide_eq_true full)
            rw [List.map_cons, List.foldl_cons, refused,
              foldl_afterSend_disconnected rfl]
            refine ⟨iff_of_false Bool.false_ne_true ?_, nofun⟩
            simp only [present, List.countP_cons, Option.isSome_some, if_true]
            omega
          · have queued : afterSend state (.single (some data)) =
                { state with
                  sendQueue := state.sendQueue ++ [some data]
                  isSending := true
                  accepted := state.accepted ++ [some data] } := by
              rw [afterSend, if_neg (by simp [SendCall.nothing, connected])]
              exact if_neg (by simpa [SendCall.overflows] using full)
            have after := @induction (afterSend state (.single (some data)))
            rw [queued] at after
            obtain ⟨connects, contents⟩ := after connected rfl
            rw [List.map_cons, List.foldl_cons, queued]
            refine ⟨connects.trans ?_, fun accepted => ?_⟩
            · simp only [present, List.countP_cons, Option.isSome_some,
                if_true, List.length_append, List.length_singleton]
              omega
            · obtain ⟨sending, queue⟩ := contents accepted
              refine ⟨sending, queue.trans ?_⟩
              rw [List.append_assoc]
              rfl

/-- The vector is empty, or none of its entries is null and they leave the
queue below the mark, or its buffers do not fit one by one either. -/
def BatchFits (state : SessionSend Thread)
    (sendBuffers : List SendBufferRef) : Prop :=
  sendBuffers = [] ∨
    (none ∉ sendBuffers ∧
      state.sendQueue.length + sendBuffers.length <
        SendCall.maxSendQueueSize) ∨
    (present sendBuffers ≠ 0 ∧
      SendCall.maxSendQueueSize <
        state.sendQueue.length + present sendBuffers)

/-- One buffer after the other is accepted up to the mark; the batch has to be
accepted then, and to leave the same buffers. -/
theorem batchAgrees_iff_accepted {thread : Thread}
    {state : SessionSend Thread} (inFlight : InFlight thread state)
    (sendBuffers : List SendBufferRef) :
    BatchAgrees thread state sendBuffers ↔
      (present sendBuffers = 0 ∨ state.sendQueue.length +
        present sendBuffers ≤ SendCall.maxSendQueueSize →
      (afterSend state (.batch sendBuffers)).connected = true ∧
        (afterSend state (.batch sendBuffers)).sendQueue =
          state.sendQueue ++ sendBuffers.filter Option.isSome) := by
  obtain ⟨connected, isSending, idle⟩ := inFlight
  obtain ⟨connects, contents⟩ := foldl_single connected isSending sendBuffers
  unfold BatchAgrees
  simp only [returnsEach_iff isSending idle, returns_iff isSending idle,
    forall_eq, exists_eq_left, connects]
  apply forall_congr'
  intro fits
  obtain ⟨sending, queue⟩ := contents (connects.mpr fits)
  rw [queue, sending, afterSend_isSending isSending]
  simp only [and_true]

/-- A batch agrees with its buffers one by one exactly if it fits. -/
theorem batchAgrees_iff {thread : Thread} {state : SessionSend Thread}
    (inFlight : InFlight thread state) (sendBuffers : List SendBufferRef) :
    BatchAgrees thread state sendBuffers ↔ BatchFits state sendBuffers := by
  have connected := inFlight.connected
  have some_le : present sendBuffers ≤ sendBuffers.length :=
    List.countP_le_length
  rw [batchAgrees_iff_accepted inFlight, BatchFits]
  by_cases empty : sendBuffers = []
  · subst empty
    have unchanged : afterSend state (.batch []) = state := if_pos (Or.inl rfl)
    rw [unchanged]
    refine iff_of_true (fun _ => ⟨connected, ?_⟩) (Or.inl rfl)
    exact (List.append_nil _).symm
  have goes : ¬((SendCall.batch sendBuffers).nothing ∨
      state.connected = false) := by
    simp [SendCall.nothing, empty, connected]
  rw [afterSend, if_neg goes, or_iff_right empty]
  by_cases tooMany : SendCall.maxSendQueueSize ≤
      state.sendQueue.length + sendBuffers.length
  · have overflows : (SendCall.batch sendBuffers).overflows
        state.sendQueue.length = true := decide_eq_true tooMany
    rw [if_pos overflows]
    constructor
    · intro accepted
      right
      by_contra fits
      have connects := (accepted (by omega)).1
      cases connects
    · intro fits singles
      omega
  · have admitted : ¬(SendCall.batch sendBuffers).overflows
        state.sendQueue.length = true := by
      simpa [SendCall.overflows] using tooMany
    rw [if_neg admitted]
    have below : state.sendQueue.length + sendBuffers.length <
        SendCall.maxSendQueueSize := Nat.lt_of_not_le tooMany
    have same : state.sendQueue ++ sendBuffers =
        state.sendQueue ++ sendBuffers.filter Option.isSome ↔
          none ∉ sendBuffers := by
      rw [List.append_cancel_left_eq, eq_comm, List.filter_eq_self]
      constructor
      · intro all member
        cases all none member
      · intro noNull sendBuffer member
        cases sendBuffer with
        | none => exact absurd member noNull
        | some data => rfl
    constructor
    · intro accepted
      left
      refine ⟨?_, below⟩
      exact same.mp (accepted (by omega)).2
    · intro fits _
      rcases fits with ⟨noNull, _⟩ | ⟨_, singlesOverflow⟩
      · exact ⟨connected, same.mpr noNull⟩
      · omega

/-- A send is in flight and `queued` buffers wait behind it. -/
def waitingActions (queued : Nat) : List (SendAction Unit) :=
  .call () (.single (some [0])) ::
    List.replicate 5 (.advance () .accepted) ++
    .call () (.batch (List.replicate queued (some [0]))) ::
      List.replicate 2 (.advance () .accepted)

/-- 498 buffers wait, and a batch of one is accepted as that one would be. -/
theorem batchAgrees_iff_last :
    ∃ state, (machine Unit).run initial (waitingActions 498) = some state ∧
      BatchFits state [some [1]] ∧ BatchAgrees () state [some [1]] := by
  obtain ⟨state, replayed⟩ : ∃ state,
      (machine Unit).run initial (waitingActions 498) = some state :=
    Option.isSome_iff_exists.mp (by decide +kernel)
  have view : (state.connected, state.isSending, state.pcs (),
      state.sendQueue.length) = (true, true, .idle, 498) := by
    apply Machine.view_of_run replayed
    decide +kernel
  obtain ⟨connected, isSending, idle, waiting⟩ := by
    simpa only [Prod.mk.injEq] using view
  have fits : BatchFits state [some [1]] := by
    refine Or.inr (Or.inl ⟨by decide, ?_⟩)
    rw [waiting]
    decide
  exact ⟨state, replayed, fits,
    (batchAgrees_iff ⟨connected, isSending, idle⟩ [some [1]]).mpr fits⟩

/-- 499 buffers wait.  One more is accepted, but not as a batch of one. -/
theorem lastPlace_disagrees :
    ∃ state, (machine Unit).run initial (waitingActions 499) = some state ∧
      InFlight () state ∧ ¬BatchAgrees () state [some [1]] := by
  obtain ⟨state, replayed⟩ : ∃ state,
      (machine Unit).run initial (waitingActions 499) = some state :=
    Option.isSome_iff_exists.mp (by decide +kernel)
  have view : (state.connected, state.isSending, state.pcs (),
      state.sendQueue.length) = (true, true, .idle, 499) := by
    apply Machine.view_of_run replayed
    decide +kernel
  obtain ⟨connected, isSending, idle, waiting⟩ := by
    simpa only [Prod.mk.injEq] using view
  have inFlight : InFlight () state := ⟨connected, isSending, idle⟩
  refine ⟨state, replayed, inFlight, ?_⟩
  rw [batchAgrees_iff_accepted inFlight]
  intro agrees
  have refused : (afterSend state (.batch [some [1]])).connected = false := by
    simp [afterSend, SendCall.nothing, SendCall.overflows,
      SendCall.maxSendQueueSize, connected, waiting]
  have fits : state.sendQueue.length + present [some [1]] ≤
      SendCall.maxSendQueueSize := by
    rw [waiting]
    decide
  have accepted := (agrees (Or.inr fits)).1
  rw [refused] at accepted
  cases accepted

end SessionSend

end IocpChat
