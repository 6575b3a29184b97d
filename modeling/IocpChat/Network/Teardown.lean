import IocpChat.Network.SessionPhase

/-!
# Teardown of a session

`OnDisconnected` and `ReleaseSession` hang on the completion of `DisconnectEx`.
Where that call fails at once, `HandleError` finds `_connected` already false
and nobody is left to run them; and where a `Disconnect` gets in between the
store to `_connected` and `AddSession`, the session enters `_sessions` after it
has been released.  In all other runs teardown is complete.
-/

namespace IocpChat

open TransitionSystem Threads

namespace SessionThreads

variable {Thread : Type}

/-- No I/O is outstanding and no thread is inside the session. -/
structure Quiet (state : SessionThreads Thread) : Prop where
  connects : state.connects = 0
  disconnects : state.disconnects = 0
  receives : state.receives = []
  sends : state.send.outstanding = []
  frames : ∀ thread, state.frames thread = []

def TeardownComplete (state : SessionThreads Thread) : Prop :=
  .connectedStarts ∈ state.callbacks → state.send.connected = false →
    state.callbacks.count .disconnectedStarts = 1 ∧ state.inService = false

variable [DecidableEq Thread]

theorem reaches_regularPhase {state : SessionThreads Thread}
    (reached : (machine Thread).Reaches TeardownRegular state) :
    ∃ phase, InPhase state phase ∧ phase.regular = true := by
  apply Machine.Reaches.invariant _ _ reached
  · rintro _ ⟨recvBuffer, rfl⟩
    exact ⟨.arriving, initial_phase recvBuffer, rfl⟩
  · rintro state action next ⟨phase, inPhase, regular⟩ permitted stepped
    obtain ⟨nextPhase, nextInPhase, stays⟩ := step_phase inPhase stepped
    exact ⟨nextPhase, nextInPhase, stays regular permitted⟩

/-- A quiet session that is not connected has been closed, or teardown has gone
wrong. -/
theorem Quiet.phase {state : SessionThreads Thread} {phase : Phase Thread}
    (quiet : Quiet state) (inPhase : InPhase state phase)
    (disconnected : state.send.connected = false) :
    phase = .closed ∨ phase = .overtaken ∨ phase = .abandoned := by
  have nobody : ∀ thread, phase.frames thread = [] := by
    intro thread
    rw [← inPhase.frames, marked, quiet.frames thread]
    rfl
  cases phase with
  | arriving =>
      have waiting := inPhase.connects
      rw [quiet.connects] at waiting
      cases waiting
  | connecting thread =>
      have busy := nobody thread
      rw [Phase.frames, only_self] at busy
      cases busy
  | connected =>
      have connected := inPhase.connected
      rw [disconnected] at connected
      cases connected
  | closing thread frame =>
      have busy := nobody thread
      rw [Phase.frames, only_self] at busy
      cases busy
  | requested =>
      have waiting := inPhase.disconnects
      rw [quiet.disconnects] at waiting
      cases waiting
  | abandoned => exact Or.inr (Or.inr rfl)
  | closed => exact Or.inl rfl
  | overtaken => exact Or.inr (Or.inl rfl)

/-- In every run without a failing `DisconnectEx` and without a release before
`AddSession`, a quiet session has been torn down completely. -/
theorem teardown_complete {state : SessionThreads Thread}
    (reached : (machine Thread).Reaches TeardownRegular state)
    (quiet : Quiet state) : TeardownComplete state := by
  intro _ disconnected
  obtain ⟨phase, inPhase, regular⟩ := reaches_regularPhase reached
  rcases quiet.phase inPhase disconnected with rfl | rfl | rfl
  · exact ⟨inPhase.announced, (inPhase.removed rfl).1⟩
  · cases regular
  · cases regular

theorem quiet_of_two {state : SessionThreads Bool}
    (nothing : (state.connects, state.disconnects, state.receives,
      state.send.outstanding) = (0, 0, [], []))
    (frames : (state.frames true, state.frames false) = ([], [])) :
    Quiet state := by
  simp only [Prod.mk.injEq] at nothing frames
  obtain ⟨connects, disconnects, receives, sends⟩ := nothing
  refine ⟨connects, disconnects, receives, sends, fun thread => ?_⟩
  cases thread with
  | true => exact frames.1
  | false => exact frames.2

/-- The session connects and the peer closes; `result` is that of
`DisconnectEx`. -/
def connectAndClose (result : WSASendResult) : List (ThreadAction Bool) :=
  [.connect true,
    .advance true .accepted,
    .advance true .accepted,
    .advance true .accepted,
    .advance true .accepted,
    .advance true .accepted,
    .advance true .accepted,
    .completeRecv true 0 [],
    .advance true .accepted,
    .advance true .accepted,
    .advance true .accepted,
    .advance true result]

/-- The completion of `DisconnectEx`, up to the end of `ReleaseSession`. -/
def finishDisconnect : List (ThreadAction Bool) :=
  [.completeDisconnect false,
    .advance false .accepted,
    .advance false .accepted,
    .advance false .accepted,
    .advance false .accepted]

theorem connectAndClose_complete :
    ∃ state, (machine Bool).run (initial SessionRecv.serverRing)
        (connectAndClose .accepted ++ finishDisconnect) = some state ∧
      .connectedStarts ∈ state.callbacks ∧ state.send.connected = false ∧
      TeardownComplete state := by
  obtain ⟨state, replayed⟩ :
      ∃ state, (machine Bool).run (initial SessionRecv.serverRing)
        (connectAndClose .accepted ++ finishDisconnect) = some state :=
    Option.isSome_iff_exists.mp rfl
  have nothing : (state.connects, state.disconnects, state.receives,
      state.send.outstanding) = (0, 0, [], []) := by
    apply Machine.view_of_run replayed
    rfl
  have frames : (state.frames true, state.frames false) = ([], []) := by
    apply Machine.view_of_run replayed
    rfl
  have disconnected : state.send.connected = false := by
    apply Machine.view_of_run replayed
    rfl
  have callbacks : state.callbacks =
      [.connectedStarts, .connectedReturns, .disconnectedStarts,
        .disconnectedReturns] := by
    apply Machine.view_of_run replayed
    rfl
  refine ⟨state, replayed, by simp [callbacks], disconnected, ?_⟩
  have starts : (machine Bool).Reaches TeardownRegular
      (initial SessionRecv.serverRing) := .start ⟨_, rfl⟩
  apply teardown_complete _ (quiet_of_two nothing frames)
  apply starts.of_run _ replayed
  decide +kernel

/-- `DisconnectEx` fails, and the session stays in `_sessions`. -/
theorem connectAndClose_incomplete :
    ∃ state, (machine Bool).run (initial SessionRecv.serverRing)
        (connectAndClose .fatalError ++
          [.advance true .accepted, .advance true .accepted]) = some state ∧
      Quiet state ∧
      state.callbacks = [.connectedStarts, .connectedReturns] ∧
      state.inService = true ∧ ¬TeardownComplete state := by
  obtain ⟨state, replayed⟩ :
      ∃ state, (machine Bool).run (initial SessionRecv.serverRing)
        (connectAndClose .fatalError ++
          [.advance true .accepted, .advance true .accepted]) = some state :=
    Option.isSome_iff_exists.mp rfl
  have nothing : (state.connects, state.disconnects, state.receives,
      state.send.outstanding) = (0, 0, [], []) := by
    apply Machine.view_of_run replayed
    rfl
  have frames : (state.frames true, state.frames false) = ([], []) := by
    apply Machine.view_of_run replayed
    rfl
  have disconnected : state.send.connected = false := by
    apply Machine.view_of_run replayed
    rfl
  have callbacks : state.callbacks = [.connectedStarts, .connectedReturns] := by
    apply Machine.view_of_run replayed
    rfl
  have inService : state.inService = true := by
    apply Machine.view_of_run replayed
    rfl
  refine ⟨state, replayed, quiet_of_two nothing frames, callbacks, inService,
    fun complete => ?_⟩
  obtain ⟨_, removed⟩ := complete (by simp [callbacks]) disconnected
  rw [inService] at removed
  cases removed

/-- A `Disconnect` between the store to `_connected` and `AddSession`. -/
def closeBeforeAdding : List (ThreadAction Bool) :=
  [.connect true,
    .advance true .accepted,
    .callDisconnect false,
    .advance false .accepted,
    .advance false .accepted,
    .advance false .accepted] ++ finishDisconnect ++
  [.advance true .accepted,
    .advance true .accepted,
    .advance true .accepted,
    .advance true .accepted]

/-- The session has been released before `AddSession` inserts it. -/
theorem closeBeforeAdding_incomplete :
    ∃ state, (machine Bool).run (initial SessionRecv.serverRing)
        closeBeforeAdding = some state ∧
      Quiet state ∧ state.inService = true ∧ ¬TeardownComplete state := by
  obtain ⟨state, replayed⟩ :
      ∃ state, (machine Bool).run (initial SessionRecv.serverRing)
        closeBeforeAdding = some state :=
    Option.isSome_iff_exists.mp rfl
  have nothing : (state.connects, state.disconnects, state.receives,
      state.send.outstanding) = (0, 0, [], []) := by
    apply Machine.view_of_run replayed
    rfl
  have frames : (state.frames true, state.frames false) = ([], []) := by
    apply Machine.view_of_run replayed
    rfl
  have disconnected : state.send.connected = false := by
    apply Machine.view_of_run replayed
    rfl
  have callbacks : state.callbacks =
      [.disconnectedStarts, .disconnectedReturns, .connectedStarts,
        .connectedReturns] := by
    apply Machine.view_of_run replayed
    rfl
  have inService : state.inService = true := by
    apply Machine.view_of_run replayed
    rfl
  refine ⟨state, replayed, quiet_of_two nothing frames, inService,
    fun complete => ?_⟩
  obtain ⟨_, removed⟩ := complete (by simp [callbacks]) disconnected
  rw [inService] at removed
  cases removed

end SessionThreads

end IocpChat
