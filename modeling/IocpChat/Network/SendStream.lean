import IocpChat.Network.SendPump

/-!
# The outgoing stream of a session

As long as every `WSASend` is accepted, what a session has handed over is a
front of the buffers that `Send` accepted, in their order.  After a completion
of 0 bytes it does not grow any more.
-/

namespace IocpChat

open TransitionSystem

/-- The call that has not come to the queue yet. -/
def SendPc.pending : SendPc → Option SendCall
  | send call => some call
  | enqueue call => some call
  | _ => none

namespace SessionSend

variable {Thread : Type}

/-- The bytes that were reported sent and those of the request that is
outstanding. -/
def outgoing (state : SessionSend Thread) : List UInt8 :=
  state.acknowledged ++ state.outstanding.flatten

/-- `WSASend` accepts the request. -/
def RequestAccepted (state : SessionSend Thread) :
    SendAction Thread → Prop
  | .advance thread result =>
      ∀ wsaBufs, state.pcs thread = .post wsaBufs → result = .accepted
  | _ => True

/-- The stream flows in order, or it has stopped. -/
def Flowing (state : SessionSend Thread) : Prop :=
  Held state ∨
    Stalled state ∧ state.acknowledged <+: state.accepted.flatMap bytes

theorem Inv.acknowledged_front {state : SessionSend Thread}
    {pump : Pump Thread} (inv : Inv state pump) :
    state.acknowledged <+: state.accepted.flatMap bytes := by
  have intact := inv.streamIntact
  by_cases requeues : ∃ thread uncompleted nextOffset,
      state.pcs thread = .requeue uncompleted nextOffset
  · obtain ⟨thread, uncompleted, nextOffset, at_⟩ := requeues
    exact ⟨_, intact.requeueing thread uncompleted nextOffset at_⟩
  · refine ⟨_, intact.inFlight ?_⟩
    intro thread uncompleted nextOffset at_
    exact requeues ⟨thread, uncompleted, nextOffset, at_⟩

theorem Inv.outgoing_front {state : SessionSend Thread}
    {pump : Pump Thread} (inv : Inv state pump) :
    state.outgoing <+: state.accepted.flatMap bytes := by
  have nothing : state.outstanding = [] →
      state.outgoing <+: state.accepted.flatMap bytes := by
    intro outstanding
    rw [outgoing, outstanding, List.flatten_nil, List.append_nil]
    exact inv.acknowledged_front
  cases pump with
  | free => exact nothing inv.owned.2.1
  | thread owner => exact nothing inv.owned.2.1
  | stranded => exact nothing inv.owned.2.1
  | request bytes =>
      obtain ⟨_, outstanding, ⟨inside, inLine⟩, requested, _⟩ := inv.owned
      rw [outgoing, outstanding, List.flatten_singleton, requested,
        ← inLine.stream, unsent_append inside]
      exact ⟨_, List.append_assoc ..⟩

theorem Flowing.outgoing_front {state : SessionSend Thread}
    (flowing : Flowing state) :
    state.outgoing <+: state.accepted.flatMap bytes := by
  rcases flowing with ⟨pump, inv, _⟩ | ⟨stalled, front⟩
  · exact inv.outgoing_front
  · rw [outgoing, stalled.nothing, List.flatten_nil, List.append_nil]
    exact front

variable [DecidableEq Thread]

/-- A thread puts the buffers of its call into the queue, or nothing. -/
theorem advance_accepted {state next : SessionSend Thread} {thread : Thread}
    {result : WSASendResult}
    (stepped : state.advance thread result = some next) :
    (∃ call, (state.pcs thread).pending = some call ∧
        next.accepted = state.accepted ++ call.sendBuffers ∧
        (next.pcs thread).pending = none) ∨
      next.accepted = state.accepted ∧
        ((next.pcs thread).pending = none ∨
          (next.pcs thread).pending = (state.pcs thread).pending) := by
  cases at_ : state.pcs thread with
  | idle => simp [advance, at_] at stepped
  | send call =>
      simp only [advance, at_] at stepped
      split at stepped <;> cases stepped <;> right <;> refine ⟨rfl, ?_⟩
      · exact Or.inl (congrArg SendPc.pending goto_pcs_self)
      · right
        rw [goto_pcs_self]
        rfl
  | enqueue call =>
      simp only [advance, at_] at stepped
      split at stepped
      · cases stepped
        exact Or.inr ⟨rfl, Or.inl (congrArg SendPc.pending goto_pcs_self)⟩
      · left
        split at stepped <;> cases stepped <;>
          exact ⟨call, rfl, rfl, congrArg SendPc.pending goto_pcs_self⟩
  | _ =>
      simp only [advance, at_] at stepped
      repeat' split at stepped
      all_goals cases stepped
      all_goals
        exact Or.inr ⟨rfl, Or.inl (congrArg SendPc.pending goto_pcs_self)⟩

/-- A call starts, or nothing is put into the queue. -/
theorem step_accepted_grows {state next : SessionSend Thread}
    {action : SendAction Thread} (stepped : state.step action = some next) :
    state.accepted <+: next.accepted := by
  cases action with
  | call thread call =>
      simp only [step] at stepped
      split at stepped <;> cases stepped
      exact List.prefix_rfl
  | disconnect =>
      cases stepped
      exact List.prefix_rfl
  | complete thread index numOfBytes =>
      simp only [step, complete] at stepped
      repeat' split at stepped
      all_goals cases stepped
      all_goals exact List.prefix_rfl
  | advance thread result =>
      rcases advance_accepted stepped with ⟨call, _, more, _⟩ | ⟨same, _⟩
      · rw [more]
        exact List.prefix_append ..
      · simp [same]

/-- Nothing is acknowledged any more. -/
theorem stalled_acknowledged {state next : SessionSend Thread}
    {action : SendAction Thread} (stalled : Stalled state)
    (stepped : state.step action = some next) :
    next.acknowledged = state.acknowledged := by
  cases action with
  | call thread call =>
      simp only [step] at stepped
      split at stepped <;> cases stepped
      rfl
  | disconnect =>
      cases stepped
      rfl
  | complete thread index numOfBytes =>
      simp [step, complete, stalled.nothing] at stepped
  | advance thread result =>
      have outside := stalled.outside thread
      simp only [step] at stepped
      cases at_ : state.pcs thread with
      | consume request numOfBytes =>
          rw [at_] at outside
          cases outside
      | _ =>
          simp only [advance, at_] at stepped
          repeat' split at stepped
          all_goals cases stepped
          all_goals rfl

theorem step_flowing {state next : SessionSend Thread}
    {action : SendAction Thread} (flowing : Flowing state)
    (accepted : RequestAccepted state action)
    (stepped : state.step action = some next) : Flowing next := by
  rcases flowing with ⟨pump, inv, kept⟩ | ⟨stalled, front⟩
  · have regularly : Regular state action → Flowing next :=
      fun regular => Or.inl (step_inv inv kept regular stepped)
    cases action with
    | call thread call => exact regularly trivial
    | disconnect => exact regularly trivial
    | complete thread index numOfBytes =>
        cases numOfBytes with
        | succ count => exact regularly (Nat.succ_pos count)
        | zero =>
            obtain ⟨idle, _, request, outstanding, rfl⟩ :=
              complete_eq inv stepped
            have front := inv.acknowledged_front
            refine Or.inr ⟨?_, front⟩
            cases pump with
            | request bytes =>
                exact inv.stalls rfl (fun _ => nofun) inv.owned.1 rfl rfl
            | free =>
                rw [inv.owned.2.1] at outstanding
                cases outstanding
            | thread owner =>
                rw [inv.owned.2.1] at outstanding
                cases outstanding
            | stranded =>
                rw [inv.owned.2.1] at outstanding
                cases outstanding
    | advance thread result =>
        by_cases posts : ∃ wsaBufs, state.pcs thread = .post wsaBufs
        · obtain ⟨wsaBufs, at_⟩ := posts
          exact regularly (accepted wsaBufs at_)
        · simp only [step] at stepped
          rw [advance_result result (not_exists.mp posts)] at stepped
          exact Or.inl (advance_inv inv kept stepped)
  · refine Or.inr ⟨stalled_step stalled stepped, ?_⟩
    rw [stalled_acknowledged stalled stepped]
    obtain ⟨more, longer⟩ := step_accepted_grows stepped
    rw [← longer, List.flatMap_append]
    exact front.trans (List.prefix_append ..)

end SessionSend

end IocpChat
