import IocpChat.ChatServer.RoomMembership

/-!
# After OnDisconnected

`OnDisconnected` pushes one `Leave`, to the room it finds in `_room`.  No room
keeps the session if, at that moment, nothing else is on its way that would put
it into a room or leave it there, and no later packet asks for a room.
-/

namespace IocpChat

open TransitionSystem

/-- Membership after one more job. -/
def RoomJob.settle (member : Bool) : RoomJob → Bool
  | enter => true
  | leave => false
  | leaveAndEnter _ => false
  | handleChat _ => member

/-- Membership when the room has done these jobs. -/
def settle (member : Bool) (line : List RoomJob) : Bool :=
  line.foldl RoomJob.settle member

theorem settle_append (member : Bool) (first second : List RoomJob) :
    settle member (first ++ second) = settle (settle member first) second :=
  List.foldl_append

namespace SessionView

/-- `OnDisconnected` may read `_room` now: no entry is on its way, except into
that room and before the `Leave`, and the other rooms will be without the
session. -/
structure MayLeave (view : SessionView) : Prop where
  noSwitch : ∀ room targetRoom, .leaveAndEnter targetRoom ∉ view.line room
  noEntry : ∀ room, view.handler ≠ some (.push room .enter)
  settles : ∀ room, view.room ≠ some room →
    settle (view.rooms room).member (view.line room) = false

/-- A session for which `OnDisconnected` has started. -/
structure Leaving (view : SessionView) : Prop where
  noSwitch : ∀ room targetRoom, .leaveAndEnter targetRoom ∉ view.line room
  noEntry : ∀ room, view.handler ≠ some (.push room .enter)
  settles : ∀ room, view.disconnecting ≠ .pushLeave room →
    settle (view.rooms room).member (view.line room) = false

/-- A job has inserted the session before it sets `_room`. -/
def Inserted (view : SessionView) : Prop :=
  ∀ room, (view.rooms room).running = some .setRoom →
    (view.rooms room).member = true

/-- A step inside one room that brings the same end about. -/
theorem Leaving.update {view : SessionView} (leaving : Leaving view)
    {room : RoomId} {value : RoomView}
    (fewer : value.line.Sublist (view.rooms room).line)
    (same : settle value.member value.line =
      settle (view.rooms room).member (view.rooms room).line) :
    Leaving (view.update room value) where
  noSwitch := by
    intro other targetRoom member
    exact leaving.noSwitch other targetRoom
      ((line_update_sublist view fewer other).subset member)
  noEntry := leaving.noEntry
  settles := by
    intro other notHere
    have before := leaving.settles other notHere
    rw [line, settle_append] at before ⊢
    by_cases here : other = room
    · subst here
      rw [rooms_update_self, same]
      exact before
    · rw [rooms_update_other view here]
      exact before

/-- A step that leaves the lines and the members alone. -/
theorem Leaving.of_line {view next : SessionView} (leaving : Leaving view)
    (lines : ∀ room, next.line room = view.line room)
    (members : ∀ room,
      (next.rooms room).member = (view.rooms room).member)
    (noEntry : ∀ room, next.handler ≠ some (.push room .enter))
    (disconnecting : next.disconnecting = view.disconnecting) :
    Leaving next where
  noSwitch := by
    intro room targetRoom
    rw [lines]
    exact leaving.noSwitch room targetRoom
  noEntry := noEntry
  settles := by
    intro room notHere
    rw [lines, members]
    rw [disconnecting] at notHere
    exact leaving.settles room notHere

/-- No running job of the session is a `LeaveAndEnter`. -/
theorem Leaving.not_running {view : SessionView} (leaving : Leaving view)
    {room targetRoom : RoomId} {phase : JobPhase}
    (running : (view.rooms room).running = some phase)
    (pending : phase.pending = [.leaveAndEnter targetRoom]) : False := by
  apply leaving.noSwitch room targetRoom
  rw [line_run view running, pending]
  exact List.mem_append_left _ (List.mem_singleton.mpr rfl)

theorem settle_running {room : RoomView} {phase : JobPhase}
    (running : room.running = some phase) :
    settle room.member room.line =
      settle (settle room.member phase.pending) room.jobs := by
  rw [RoomView.line, running, settle_append]
  rfl

theorem Inserted.update {view : SessionView} (inserted : Inserted view)
    {room : RoomId} {value : RoomView}
    (new : value.running = some .setRoom → value.member = true) :
    Inserted (view.update room value) := by
  intro other running
  by_cases same : other = room
  · subst same
    rw [rooms_update_self] at running ⊢
    exact new running
  · rw [rooms_update_other view same] at running ⊢
    exact inserted other running

theorem Inserted.pushJob {view : SessionView} (inserted : Inserted view)
    (room : RoomId) (job : RoomJob) : Inserted (view.pushJob room job) := by
  intro other running
  rw [running_pushJob] at running
  rw [member_pushJob]
  exact inserted other running

/-- Only the job itself takes the session out of the room again. -/
theorem step_inserted {view next : SessionView} {event : SessionEvent}
    (inserted : Inserted view) (stepped : view.Step event next) :
    Inserted next := by
  cases stepped with
  | elsewhere => exact inserted
  | receiveEnter => exact inserted
  | request => exact inserted
  | ignore => exact inserted
  | switch => exact inserted
  | join => exact inserted
  | push => exact inserted.pushJob _ _
  | disconnect => exact inserted
  | disconnectOutside => exact inserted
  | pushLeave => exact inserted.pushJob _ _
  | forgetRoom => exact inserted
  | @start room job rest free queued =>
      apply inserted.update
      cases job <;> exact nofun
  | insertMember running => exact inserted.update fun _ => rfl
  | @setRoom room running =>
      have moved : Inserted (view.setRoom (some room)) := inserted
      exact moved.update nofun
  | eraseMember running => exact inserted.update nofun
  | readHere running here => exact inserted.update nofun
  | readElsewhere running elsewhere => exact inserted.update nofun
  | @clearRoom room targetRoom running =>
      have moved : Inserted (view.setRoom none) := inserted
      exact moved.update nofun
  | quiet running quiet =>
      apply inserted.update
      exact fun impossible => absurd impossible (quietNext_spec quiet).2.1.2
  | @pushEnter room targetRoom running =>
      have done : Inserted (view.run room none) := inserted.update nofun
      exact done.pushJob _ _

/-- `_room` does not matter any more. -/
theorem Leaving.setRoom {view : SessionView} (leaving : Leaving view)
    (room : Option RoomId) : Leaving (view.setRoom room) :=
  ⟨leaving.noSwitch, leaving.noEntry, leaving.settles⟩

/-- `C_LEAVE_ROOM` and `C_ROOM_CHAT` after the start of `OnDisconnected`. -/
theorem Leaving.request {view : SessionView} (leaving : Leaving view)
    {room : RoomId} {job : RoomJob} (before : Reading view.handler)
    (harmless : job = .leave ∨ ∃ message, job = .handleChat message) :
    Leaving (view.setHandler (some (.push room job))) where
  noSwitch := by
    intro other targetRoom member
    rcases (mem_line_push before).mp member with old | ⟨_, rfl⟩
    · exact leaving.noSwitch other targetRoom old
    · rcases harmless with impossible | ⟨_, impossible⟩ <;> cases impossible
  noEntry := by
    rintro other ⟨⟩
    rcases harmless with impossible | ⟨_, impossible⟩ <;> cases impossible
  settles := by
    intro other notHere
    have settled := leaving.settles other notHere
    by_cases here : room = other
    · subst here
      rw [line_push_self before, settle_append]
      change settle (settle (view.rooms room).member _) _ = false
      rw [settled]
      rcases harmless with rfl | ⟨_, rfl⟩ <;> rfl
    · rw [line_push_other before here]
      exact settled

/-- What the handler is about to push puts the session nowhere. -/
theorem Leaving.settle_handlerLine {view : SessionView}
    (leaving : Leaving view) (room : RoomId) :
    settle false (handlerLine view.handler room) = false := by
  cases handler : view.handler with
  | none => rfl
  | some phase =>
      cases phase with
      | readRoom targetRoom => rfl
      | push target job =>
          rw [handlerLine]
          split
          · cases job with
            | enter => exact absurd handler (leaving.noEntry target)
            | _ => rfl
          · rfl

/-- `OnDisconnected` pushes its `Leave` behind the jobs of the room. -/
theorem Leaving.pushLeave {view : SessionView} (leaving : Leaving view)
    {room : RoomId} (pushes : view.disconnecting = .pushLeave room) :
    Leaving ((view.pushJob room .leave).setDisconnecting .clearRoom) where
  noSwitch := by
    intro other targetRoom member
    rcases mem_line_pushJob member with old | ⟨_, impossible⟩
    · exact leaving.noSwitch other targetRoom old
    · cases impossible
  noEntry := leaving.noEntry
  settles := by
    intro other _
    change settle ((view.pushJob room .leave).rooms other).member
      (((view.pushJob room .leave).rooms other).line ++
        handlerLine view.handler other) = false
    by_cases here : other = room
    · subst here
      rw [settle_append, SessionView.pushJob, rooms_update_self]
      change settle (settle (view.rooms other).member
        (_ ++ ((view.rooms other).jobs ++ [.leave]))) _ = false
      rw [← List.append_assoc, settle_append]
      exact leaving.settle_handlerLine other
    · rw [SessionView.pushJob, rooms_update_other view here]
      apply leaving.settles other
      rw [pushes]
      rintro ⟨⟩
      exact here rfl

/-- Sending moves nobody. -/
theorem Leaving.quiet {view : SessionView} (leaving : Leaving view)
    {room : RoomId} {phase : JobPhase} {next : Option JobPhase}
    (running : (view.rooms room).running = some phase)
    (quiet : quietNext phase = some next) : Leaving (view.run room next) := by
  apply leaving.update
  · rw [RoomView.line, RoomView.line, running]
    exact (quietNext_spec quiet).1.append_right _
  · rw [settle_running running]
    change settle (view.rooms room).member
      (next.elim [] JobPhase.pending ++ (view.rooms room).jobs) = _
    rw [settle_append]
    cases phase with
    | replyEnter =>
        obtain rfl := Option.some.inj quiet
        rfl
    | noticeJoined =>
        obtain rfl := Option.some.inj quiet
        rfl
    | broadcastChat message =>
        obtain rfl := Option.some.inj quiet
        rfl
    | replyLeave targetRoom =>
        cases targetRoom with
        | some target => exact (leaving.not_running running rfl).elim
        | none =>
            obtain rfl := Option.some.inj quiet
            rfl
    | noticeLeft targetRoom =>
        cases targetRoom with
        | some target => exact (leaving.not_running running rfl).elim
        | none =>
            obtain rfl := Option.some.inj quiet
            rfl
    | _ => cases quiet

/-- Once `OnDisconnected` has read `_room`, every step keeps the session on its
way out. -/
theorem step_leaving {view next : SessionView} {event : SessionEvent}
    (inserted : Inserted view) (leaving : Leaving view)
    (started : view.disconnecting ≠ .connected)
    (ignored : ∀ targetRoom, event = .enterRoom targetRoom →
      view.room = some targetRoom)
    (stepped : view.Step event next) : Leaving next := by
  cases stepped with
  | elsewhere => exact leaving
  | receiveEnter targetRoom idle =>
      apply leaving.of_line
      · exact line_setHandler_reading (idle ▸ reading_none)
          (reading_readRoom targetRoom)
      · exact fun _ => rfl
      · exact fun _ impossible => by cases impossible
      · rfl
  | request idle inside harmless =>
      exact leaving.request (idle ▸ reading_none) harmless
  | ignore reads inside =>
      apply leaving.of_line
      · exact line_setHandler_reading (reads ▸ reading_readRoom _) reading_none
      · exact fun _ => rfl
      · exact fun _ impossible => by cases impossible
      · rfl
  | switch reads inside different =>
      have there := ignored _ rfl
      rw [inside] at there
      exact absurd (Option.some.inj there) different
  | join reads outside =>
      have there := ignored _ rfl
      rw [outside] at there
      cases there
  | push pushes =>
      apply leaving.of_line
      · exact line_pushed pushes
      · exact fun room => member_pushJob view _ room _
      · exact fun _ impossible => by cases impossible
      · rfl
  | disconnect connected => exact absurd connected started
  | disconnectOutside connected => exact absurd connected started
  | pushLeave pushes => exact leaving.pushLeave pushes
  | forgetRoom forgets =>
      exact
        { noSwitch := leaving.noSwitch
          noEntry := leaving.noEntry
          settles := by
            intro room _
            apply leaving.settles room
            rw [forgets]
            exact nofun }
  | @start room job rest free queued =>
      have line : (view.rooms room).line = job :: rest := by
        rw [RoomView.line, free, queued]
        rfl
      have after : ({ view.rooms room with
            jobs := rest
            running := some job.firstPhase } : RoomView).line =
          (view.rooms room).line := by
        rw [line, RoomView.line]
        change job.firstPhase.pending ++ rest = _
        rw [JobPhase.pending_firstPhase]
        rfl
      apply leaving.update
      · rw [after]
      · rw [after]
  | @insertMember room running =>
      apply leaving.update
      · change ([RoomJob.enter] ++ (view.rooms room).jobs).Sublist _
        rw [RoomView.line, running]
        exact List.Sublist.refl _
      · rw [settle_running running]
        rfl
  | @setRoom room running =>
      apply (leaving.setRoom (some room)).update
      · exact List.sublist_append_right _ _
      · change _ = settle (view.rooms room).member (view.rooms room).line
        rw [settle_running running, inserted room running]
        change settle (view.rooms room).member (view.rooms room).jobs = _
        rw [inserted room running]
        rfl
  | @eraseMember room targetRoom running =>
      cases targetRoom with
      | some target => exact (leaving.not_running running rfl).elim
      | none =>
          apply leaving.update
          · exact List.sublist_append_right _ _
          · rw [settle_running running]
            rfl
  | @readHere room targetRoom running here =>
      cases targetRoom with
      | some target => exact (leaving.not_running running rfl).elim
      | none =>
          apply leaving.update
          · exact List.sublist_append_right _ _
          · rw [settle_running running]
            rfl
  | @readElsewhere room targetRoom running elsewhere =>
      cases targetRoom with
      | some target => exact (leaving.not_running running rfl).elim
      | none =>
          apply leaving.update
          · exact List.sublist_append_right _ _
          · rw [settle_running running]
            rfl
  | @clearRoom room targetRoom running =>
      cases targetRoom with
      | some target => exact (leaving.not_running running rfl).elim
      | none =>
          apply (leaving.setRoom none).update
          · exact List.sublist_append_right _ _
          · change _ = settle (view.rooms room).member (view.rooms room).line
            rw [settle_running running]
            rfl
  | quiet running quiet => exact leaving.quiet running quiet
  | @pushEnter room targetRoom running =>
      exact (leaving.not_running running rfl).elim

end SessionView

namespace ChatServer

variable {Session : Type} [DecidableEq Session]

/-- Sessions whose `OnDisconnected` has returned, and whose packets have been
handled, are in no room when the rooms have done their jobs. -/
def NoGhosts (state : ChatServer Session) : Prop :=
  state.JobsDone → ∀ session,
    (state.sessions session).disconnecting = .disconnected →
    (state.sessions session).handler = none →
    ∀ room, session ∉ (state.rooms room).members

/-- `OnDisconnected` reads `_room` when nothing else would put the session into
a room, and from then on a `C_ENTER_ROOM` only asks for that room. -/
def LeavesForGood (state : ChatServer Session) (action : ChatAction Session) :
    Prop :=
  ∀ session,
    (state.event session action = .disconnect →
      (state.view session).MayLeave) ∧
    ∀ targetRoom, state.event session action = .enterRoom targetRoom →
      (state.sessions session).disconnecting ≠ .connected →
      (state.sessions session).room = some targetRoom

/-- What the invariant says of one session. -/
def Departs (view : SessionView) : Prop :=
  view.Inserted ∧ (view.disconnecting ≠ .connected → view.Leaving)

/-- The step with which `OnDisconnected` starts. -/
theorem leaving_of_start {view next : SessionView} {event : SessionEvent}
    (may : event = .disconnect → view.MayLeave)
    (stepped : view.Step event next)
    (connected : view.disconnecting = .connected)
    (started : next.disconnecting ≠ .connected) : next.Leaving := by
  cases stepped with
  | @disconnect room _ inside =>
      obtain ⟨noSwitch, noEntry, settles⟩ := may rfl
      refine ⟨noSwitch, noEntry, fun other notHere => settles other ?_⟩
      rw [inside]
      rintro ⟨⟩
      exact notHere rfl
  | disconnectOutside _ outside =>
      obtain ⟨noSwitch, noEntry, settles⟩ := may rfl
      refine ⟨noSwitch, noEntry, fun other _ => settles other ?_⟩
      rw [outside]
      exact nofun
  | pushLeave pushes =>
      rw [connected] at pushes
      cases pushes
  | forgetRoom forgets =>
      rw [connected] at forgets
      cases forgets
  | _ => exact absurd connected started

theorem reaches_departs {state : ChatServer Session}
    (reached : (machine Session).Reaches LeavesForGood state)
    (session : Session) : Departs (state.view session) := by
  have all : ∀ session, Departs (state.view session) := by
    apply Machine.Reaches.invariant _ _ reached
    · intro state initially session
      obtain rfl : state = initial := initially
      refine ⟨fun room running => ?_, fun started => absurd rfl started⟩
      rw [initial_view_rooms] at running
      cases running
    · intro state action next departs leaves stepped session
      have viewed := step_view stepped session
      obtain ⟨inserted, leaving⟩ := departs session
      refine ⟨SessionView.step_inserted inserted viewed, fun started => ?_⟩
      by_cases connected : (state.view session).disconnecting = .connected
      · exact leaving_of_start (leaves session).1 viewed connected started
      · exact SessionView.step_leaving inserted (leaving connected) connected
          (fun targetRoom reads =>
            (leaves session).2 targetRoom reads connected) viewed
  exact all session

/-- Nothing is on its way to a session when the rooms and its handler are
idle. -/
theorem line_eq_nil_of_done {state : ChatServer Session} {session : Session}
    (done : state.JobsDone) (idle : (state.sessions session).handler = none)
    (room : RoomId) : (state.view session).line room = [] := by
  change (runningFor session (state.rooms room).running).elim []
      JobPhase.pending ++ jobsFor session (state.rooms room).jobs ++
    SessionView.handlerLine (state.sessions session).handler room = []
  rw [(done room).1, (done room).2, idle]
  rfl

/-- In every run in which sessions leave for good, no room keeps a ghost. -/
theorem reaches_noGhosts {state : ChatServer Session}
    (reached : (machine Session).Reaches LeavesForGood state) :
    state.NoGhosts := by
  intro done session disconnected idle room member
  have started : (state.view session).disconnecting ≠ .connected := by
    change (state.sessions session).disconnecting ≠ .connected
    rw [disconnected]
    exact nofun
  have leaving := (reaches_departs reached session).2 started
  have settled := leaving.settles room (by
    change (state.sessions session).disconnecting ≠ .pushLeave room
    rw [disconnected]
    exact nofun)
  rw [line_eq_nil_of_done done idle] at settled
  have present : ((state.view session).rooms room).member = true :=
    decide_eq_true member
  rw [settle, List.foldl_nil, present] at settled
  cases settled

/-- A client enters room 1, is disconnected and leaves it. -/
def leavesAfterEntry : List (ChatAction Unit) :=
  [.onDisconnected (),
    .onDisconnected (),
    .start 1,
    .execute 1,
    .execute 1,
    .execute 1,
    .execute 1]

/-- Only `Handle_C_ENTER_ROOM` and `OnDisconnected` are restricted. -/
theorem leavesForGood_of_other {state : ChatServer Session}
    {action : ChatAction Session}
    (others : ∀ session, state.event session action ≠ .disconnect ∧
      ∀ targetRoom, state.event session action ≠ .enterRoom targetRoom) :
    LeavesForGood state action := by
  intro session
  obtain ⟨notDisconnect, notEnter⟩ := others session
  exact ⟨fun disconnects => absurd disconnects notDisconnect,
    fun targetRoom reads => absurd reads (notEnter targetRoom)⟩

theorem leavesAfterEntry_noGhosts :
    ∃ state, (machine Unit).Reaches LeavesForGood state ∧
      (state.sessions ()).disconnecting = .disconnected ∧ state.JobsDone ∧
      () ∉ (state.rooms 1).members ∧ state.NoGhosts := by
  let requested : ChatServer Unit :=
    (initial : ChatServer Unit).setHandler () (some (.readRoom 1))
  let pushing := requested.setHandler () (some (.push 1 .enter))
  have requestedReached : (machine Unit).Reaches LeavesForGood requested := by
    have stepped : (machine Unit).step initial (.packet ()
        ⟨.cEnterRoom, { roomId := 1, roomName := [] }⟩ 0) = some requested :=
      rfl
    refine .step (.start rfl) ?_ stepped
    exact leavesForGood_of_other fun _ => ⟨nofun, fun _ => nofun⟩
  have pushingReached : (machine Unit).Reaches LeavesForGood pushing := by
    have stepped : (machine Unit).step requested (.handle ()) = some pushing :=
      rfl
    refine .step requestedReached ?_ stepped
    exact fun _ => ⟨nofun, fun _ _ started => absurd rfl started⟩
  have entryMeets : (machine Unit).RunMeets LeavesForGood pushing oneEntry := by
    refine ⟨leavesForGood_of_other fun _ => ⟨nofun, fun _ => nofun⟩,
      fun next _ => ?_⟩
    apply Machine.RunMeets.of_forall
    intro action member state
    apply leavesForGood_of_other
    intro session
    simp only [List.mem_cons, List.not_mem_nil, or_false] at member
    rcases member with rfl | rfl | rfl | rfl | rfl <;>
      exact ⟨nofun, fun _ => nofun⟩
  let entered := ((machine Unit).run pushing oneEntry).get rfl
  have enteredReached : (machine Unit).Reaches LeavesForGood entered :=
    Machine.Reaches.of_run pushingReached entryMeets
      (Option.some_get _).symm
  have enteredDone : entered.JobsDone := by
    apply jobsDone_of_roomIds enteredReached.reachable
    change ∀ room ∈ ([1, 2, 3] : List RoomId), _
    simp only [List.mem_cons, List.not_mem_nil, or_false]
    rintro room (rfl | rfl | rfl) <;> exact ⟨rfl, rfl⟩
  have elsewhere : ∀ room, room ≠ 1 →
      () ∉ (entered.rooms room).members := by
    intro room different
    by_cases used : room ∈ entered.roomIds
    · change room ∈ ([1, 2, 3] : List RoomId) at used
      simp only [List.mem_cons, List.not_mem_nil, or_false] at used
      rcases used with rfl | rfl | rfl
      · exact absurd rfl different
      · exact List.not_mem_nil
      · exact List.not_mem_nil
    · rw [(reachable_unused enteredReached.reachable used).1]
      exact List.not_mem_nil
  have noLine : ∀ room, (entered.view ()).line room = [] :=
    line_eq_nil_of_done enteredDone rfl
  have mayLeave : (entered.view ()).MayLeave :=
    { noSwitch := by
        intro room targetRoom
        rw [noLine]
        exact List.not_mem_nil
      noEntry := fun _ => nofun
      settles := by
        intro room notHere
        have different : room ≠ 1 := by
          rintro rfl
          exact notHere rfl
        rw [noLine]
        exact decide_eq_false (elsewhere room different) }
  have leaveMeets : (machine Unit).RunMeets LeavesForGood entered
      (.disconnect () :: leavesAfterEntry) := by
    refine ⟨fun _ => ⟨fun _ => mayLeave, fun _ => nofun⟩, fun next _ => ?_⟩
    apply Machine.RunMeets.of_forall
    intro action member state
    apply leavesForGood_of_other
    intro session
    simp only [leavesAfterEntry, List.mem_cons, List.not_mem_nil,
      or_false] at member
    rcases member with rfl | rfl | rfl | rfl | rfl | rfl | rfl <;>
      exact ⟨nofun, fun _ => nofun⟩
  let final := ((machine Unit).run entered
    (.disconnect () :: leavesAfterEntry)).get rfl
  have reached : (machine Unit).Reaches LeavesForGood final :=
    Machine.Reaches.of_run enteredReached leaveMeets (Option.some_get _).symm
  have done : final.JobsDone := by
    apply jobsDone_of_roomIds reached.reachable
    change ∀ room ∈ ([1, 2, 3] : List RoomId), _
    simp only [List.mem_cons, List.not_mem_nil, or_false]
    rintro room (rfl | rfl | rfl) <;> exact ⟨rfl, rfl⟩
  exact ⟨final, reached, rfl, done, List.not_mem_nil,
    reaches_noGhosts reached⟩

/-- A client is disconnected while its entry into room 1 is in the queue. -/
def disconnectBeforeEntry : List (ChatAction Unit) :=
  [.packet () ⟨.cEnterRoom, { roomId := 1, roomName := [] }⟩ 0,
    .handle (),
    .handle (),
    .disconnect (),
    .start 1,
    .execute 1,
    .execute 1,
    .execute 1,
    .execute 1]

theorem disconnectBeforeEntry_ghost :
    ∃ state, (machine Unit).Reachable state ∧ state.JobsDone ∧
      (state.sessions ()).disconnecting = .disconnected ∧
      (state.sessions ()).handler = none ∧
      () ∈ (state.rooms 1).members ∧ ¬state.NoGhosts := by
  obtain ⟨state, replayed⟩ :
      ∃ state, (machine Unit).run initial disconnectBeforeEntry = some state :=
    Option.isSome_iff_exists.mp rfl
  have reached : (machine Unit).Reachable state :=
    Machine.Reachable.of_run (.start rfl) replayed
  have facts : ((machine Unit).run initial disconnectBeforeEntry).map
      (fun state =>
        ((state.sessions ()).disconnecting, (state.sessions ()).handler,
          state.roomIds, (state.rooms 1).members,
          state.roomIds.map fun room =>
            ((state.rooms room).jobs, (state.rooms room).running))) =
      some (.disconnected, none, [1, 2, 3], [()],
        [([], none), ([], none), ([], none)]) := rfl
  rw [replayed] at facts
  simp only [Option.map_some, Option.some.injEq, Prod.mk.injEq] at facts
  obtain ⟨disconnected, idle, ids, members, quiet⟩ := facts
  have ghost : () ∈ (state.rooms 1).members := by
    rw [members]
    exact List.mem_singleton.mpr rfl
  have done : state.JobsDone := by
    apply jobsDone_of_roomIds reached
    rw [ids] at quiet ⊢
    simpa using quiet
  refine ⟨state, reached, done, disconnected, idle, ghost, ?_⟩
  exact fun noGhosts => noGhosts done () disconnected idle 1 ghost

end ChatServer

end IocpChat
