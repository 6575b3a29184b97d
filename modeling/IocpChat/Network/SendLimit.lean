import IocpChat.Network.SessionSend

/-!
# The high-water mark of the send queue

Both overloads of `Send` test the size of the queue before they add to it.
`ProcessSend` puts the buffers of a partial completion back without a test, so a
queue that was filled in the meantime grows past the mark, and the next `Send`
is refused.
-/

namespace IocpChat

open TransitionSystem

namespace SessionSend

variable {Thread : Type} [DecidableEq Thread]

/-- The buffers that a partial completion puts back, if any, leave the queue
within the mark. -/
def RequeueFits (state : SessionSend Thread) : SendAction Thread → Prop
  | .advance thread _ =>
      match state.pcs thread with
      | .requeue uncompleted _ =>
          uncompleted.length + state.sendQueue.length ≤
            SendCall.maxSendQueueSize
      | _ => True
  | _ => True

/-- Between two steps, when no thread is under `_sendLock`. -/
def WithinLimit (state : SessionSend Thread) : Prop :=
  state.sendQueue.length ≤ SendCall.maxSendQueueSize

omit [DecidableEq Thread] in
/-- What passes the test under the lock stays within the mark. -/
theorem length_enqueue_le {call : SendCall} {queue : List SendBufferRef}
    (accepted : ¬call.overflows queue.length = true) :
    (queue ++ call.sendBuffers).length ≤ SendCall.maxSendQueueSize := by
  rw [List.length_append]
  cases call with
  | single sendBuffer =>
      simp only [SendCall.overflows, decide_eq_true_eq] at accepted
      change queue.length + 1 ≤ _
      omega
  | batch sendBuffers =>
      simp only [SendCall.overflows, decide_eq_true_eq] at accepted
      change queue.length + sendBuffers.length ≤ _
      omega

theorem advance_withinLimit_iff {state next : SessionSend Thread}
    {thread : Thread} {result : WSASendResult}
    (within : WithinLimit state)
    (advanced : state.advance thread result = some next) :
    WithinLimit next ↔ RequeueFits state (.advance thread result) := by
  unfold WithinLimit at within ⊢
  unfold advance at advanced
  unfold RequeueFits
  cases at_ : state.pcs thread with
  | requeue uncompleted nextOffset =>
      simp only [at_] at advanced ⊢
      split at advanced
      · cases advanced
        rw [← List.length_append]
        rfl
      · rename_i nothing
        rw [not_not] at nothing
        rw [nothing, List.length_nil, Nat.zero_add]
        split at advanced <;> cases advanced <;> rfl
  | enqueue call =>
      simp only [at_] at advanced ⊢
      apply iff_of_true _ trivial
      split at advanced
      · cases advanced
        exact within
      · rename_i accepted
        have queued := length_enqueue_le accepted
        split at advanced <;> cases advanced <;> exact queued
  | gather =>
      simp only [at_] at advanced ⊢
      apply iff_of_true _ trivial
      have fewer : (state.sendQueue.drop maxGather).length ≤
          SendCall.maxSendQueueSize :=
        (List.length_drop.trans_le (Nat.sub_le _ _)).trans within
      split at advanced
      · cases advanced
      · split at advanced <;> cases advanced <;> exact fewer
  | idle =>
      simp only [at_] at advanced
      cases advanced
  | _ =>
      -- no other step touches the queue
      simp only [at_] at advanced ⊢
      apply iff_of_true _ trivial
      first
        | cases advanced
          exact within
        | split at advanced <;> cases advanced <;> exact within

theorem step_withinLimit_iff {state next : SessionSend Thread}
    {action : SendAction Thread} (within : WithinLimit state)
    (stepped : state.step action = some next) :
    WithinLimit next ↔ RequeueFits state action := by
  cases action with
  | advance thread result => exact advance_withinLimit_iff within stepped
  | call thread call =>
      apply iff_of_true _ trivial
      simp only [step] at stepped
      split at stepped <;> cases stepped
      exact within
  | disconnect =>
      cases stepped
      exact iff_of_true within trivial
  | complete thread index numOfBytes =>
      apply iff_of_true _ trivial
      simp only [step, complete] at stepped
      split at stepped
      · cases stepped
      · split at stepped
        · cases stepped
        · split at stepped
          · cases stepped
          · split at stepped <;> cases stepped <;> exact within

/-- The queue stays within its mark through a whole run exactly when no partial
completion of the run puts too many buffers back. -/
theorem withinLimit_iff_requeueFits {final : SessionSend Thread}
    {actions : List (SendAction Thread)}
    (replayed : (machine Thread).run initial actions = some final) :
    (∀ before, before <+: actions → ∀ state,
      (machine Thread).run initial before = some state →
      state.sendQueue.length ≤ SendCall.maxSendQueueSize) ↔
      (machine Thread).RunMeets RequeueFits initial actions := by
  have exactly : ∀ {state action next}, WithinLimit state →
      (machine Thread).step state action = some next →
      (WithinLimit next ↔ RequeueFits state action) :=
    fun within stepped => step_withinLimit_iff within stepped
  have starts : WithinLimit (initial : SessionSend Thread) :=
    Nat.zero_le _
  exact (Machine.runMeets_iff_always exactly starts replayed).symm

/-- The steps of a thread up to `WSASend` for this call, on an idle pump. -/
def sendActions (call : SendCall) : List (SendAction Unit) :=
  .call () call ::
    List.replicate 5 (.advance () .accepted)

/-- Two buffers, the first of which is sent in part and put back. -/
theorem withinLimit_iff_requeueFits_partial :
    let actions : List (SendAction Unit) :=
      sendActions (.batch [some [1, 2], some [3]]) ++ [.complete () 0 1] ++
        List.replicate 3 (.advance () .accepted)
    ∃ final, (machine Unit).run initial actions = some final ∧
      (machine Unit).RunMeets RequeueFits initial actions ∧
      ∀ before, before <+: actions → ∀ state,
        (machine Unit).run initial before = some state →
        state.sendQueue.length ≤ SendCall.maxSendQueueSize := by
  intro actions
  have everywhere : ∀ count < actions.length + 1,
      ∀ state ∈ (machine Unit).run initial (actions.take count),
        state.sendQueue.length ≤ SendCall.maxSendQueueSize := by
    decide +kernel
  have within : ∀ before, before <+: actions → ∀ state,
      (machine Unit).run initial before = some state →
      state.sendQueue.length ≤ SendCall.maxSendQueueSize := by
    intro before isPrefix state reached
    rw [List.prefix_iff_eq_take.mp isPrefix] at reached
    exact everywhere _ (Nat.lt_succ_of_le isPrefix.length_le) state reached
  obtain ⟨final, replayed⟩ :
      ∃ final, (machine Unit).run initial actions = some final :=
    Option.isSome_iff_exists.mp (by decide +kernel)
  exact ⟨final, replayed, (withinLimit_iff_requeueFits replayed).mp within,
    within⟩

/-- 64 buffers are at the socket and 499 more in the queue when one byte is
reported sent: 63 buffers are put back, and the queue holds 562.  The next
`Send` disconnects the session. -/
theorem partialCompletion_exceedsLimit :
    let actions : List (SendAction Unit) :=
      sendActions (.batch (List.replicate 64 (some [0]))) ++
        [.call () (.batch (List.replicate 499 (some [0]))),
          .advance () .accepted, .advance () .accepted, .complete () 0 1] ++
        List.replicate 3 (.advance () .accepted)
    ∃ state, (machine Unit).run initial actions = some state ∧
      state.sendQueue.length = 562 ∧
      (SendCall.single (some [0])).overflows state.sendQueue.length = true := by
  intro actions
  obtain ⟨state, replayed⟩ :
      ∃ state, (machine Unit).run initial actions = some state :=
    Option.isSome_iff_exists.mp (by decide +kernel)
  have length : state.sendQueue.length = 562 := by
    apply Machine.view_of_run replayed
    decide +kernel
  refine ⟨state, replayed, length, ?_⟩
  rw [length]
  decide

end SessionSend

end IocpChat
