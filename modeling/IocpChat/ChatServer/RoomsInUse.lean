import IocpChat.ChatServer.SessionView

/-!
# Rooms in use

Handlers, jobs and sessions refer only to rooms in `RoomManager::_rooms`.  So a
room is empty when `GetOrCreateRoom` puts it there, and whether the rooms have
done their jobs can be seen from `_rooms`.
-/

namespace IocpChat

open TransitionSystem

def RoomJob.Within (roomIds : List RoomId) : RoomJob → Prop
  | leaveAndEnter targetRoom => targetRoom ∈ roomIds
  | _ => True

def JobPhase.Within (roomIds : List RoomId) : JobPhase → Prop
  | eraseMember targetRoom => ∀ room ∈ targetRoom, room ∈ roomIds
  | readRoom targetRoom => ∀ room ∈ targetRoom, room ∈ roomIds
  | clearRoom targetRoom => ∀ room ∈ targetRoom, room ∈ roomIds
  | replyLeave targetRoom => ∀ room ∈ targetRoom, room ∈ roomIds
  | noticeLeft targetRoom => ∀ room ∈ targetRoom, room ∈ roomIds
  | pushEnter targetRoom => targetRoom ∈ roomIds
  | _ => True

def HandlerPhase.Within (roomIds : List RoomId) : HandlerPhase → Prop
  | readRoom targetRoom => targetRoom ∈ roomIds
  | push room job => room ∈ roomIds ∧ job.Within roomIds

theorem RoomJob.Within.mono {roomIds more : List RoomId} {job : RoomJob}
    (within : job.Within roomIds) (subset : roomIds ⊆ more) :
    job.Within more := by
  cases job with
  | leaveAndEnter targetRoom => exact subset within
  | _ => trivial

theorem JobPhase.Within.mono {roomIds more : List RoomId} {phase : JobPhase}
    (within : phase.Within roomIds) (subset : roomIds ⊆ more) :
    phase.Within more := by
  cases phase with
  | insertMember => trivial
  | setRoom => trivial
  | replyEnter => trivial
  | noticeJoined => trivial
  | broadcastChat message => trivial
  | pushEnter targetRoom => exact subset within
  | _ => exact fun room target => subset (within room target)

theorem HandlerPhase.Within.mono {roomIds more : List RoomId}
    {phase : HandlerPhase} (within : phase.Within roomIds)
    (subset : roomIds ⊆ more) : phase.Within more := by
  cases phase with
  | readRoom targetRoom => exact subset within
  | push room job => exact ⟨subset within.1, within.2.mono subset⟩

/-- What a session has to do with the room of this id. -/
structure RoomView.Within (value : RoomView) (room : RoomId)
    (roomIds : List RoomId) : Prop where
  member : value.member = true → room ∈ roomIds
  jobs : ∀ job ∈ value.jobs, room ∈ roomIds ∧ job.Within roomIds
  running : ∀ phase, value.running = some phase →
    room ∈ roomIds ∧ phase.Within roomIds

structure SessionView.Within (view : SessionView) (roomIds : List RoomId) :
    Prop where
  room : ∀ room, view.room = some room → room ∈ roomIds
  handler : ∀ phase, view.handler = some phase → phase.Within roomIds
  disconnecting : ∀ room, view.disconnecting = .pushLeave room →
    room ∈ roomIds
  rooms : ∀ room, (view.rooms room).Within room roomIds

namespace SessionView

theorem Within.setHandler {view : SessionView} {roomIds : List RoomId}
    (within : view.Within roomIds) {handler : Option HandlerPhase}
    (new : ∀ phase, handler = some phase → phase.Within roomIds) :
    (view.setHandler handler).Within roomIds :=
  { within with handler := new }

theorem Within.setRoom {view : SessionView} {roomIds : List RoomId}
    (within : view.Within roomIds) {room : Option RoomId}
    (new : ∀ id, room = some id → id ∈ roomIds) :
    (view.setRoom room).Within roomIds :=
  { within with room := new }

theorem Within.setDisconnecting {view : SessionView} {roomIds : List RoomId}
    (within : view.Within roomIds) {phase : DisconnectPhase}
    (new : ∀ room, phase = .pushLeave room → room ∈ roomIds) :
    (view.setDisconnecting phase).Within roomIds :=
  { within with disconnecting := new }

theorem Within.update {view : SessionView} {roomIds : List RoomId}
    (within : view.Within roomIds) {room : RoomId} {value : RoomView}
    (new : value.Within room roomIds) :
    (view.update room value).Within roomIds :=
  { within with
    rooms := by
      intro other
      by_cases same : other = room
      · subst same
        rw [rooms_update_self]
        exact new
      · rw [rooms_update_other view same]
        exact within.rooms other }

theorem Within.pushJob {view : SessionView} {roomIds : List RoomId}
    (within : view.Within roomIds) {room : RoomId} {job : RoomJob}
    (known : room ∈ roomIds) (new : job.Within roomIds) :
    (view.pushJob room job).Within roomIds := by
  apply within.update
  exact
    { within.rooms room with
      jobs := by
        intro other member
        rcases List.mem_append.mp member with old | added
        · exact (within.rooms room).jobs other old
        · rw [List.mem_singleton.mp added]
          exact ⟨known, new⟩ }

theorem Within.run {view : SessionView} {roomIds : List RoomId}
    (within : view.Within roomIds) {room : RoomId} {running : Option JobPhase}
    (new : ∀ phase, running = some phase →
      room ∈ roomIds ∧ phase.Within roomIds) :
    (view.run room running).Within roomIds :=
  within.update { within.rooms room with running := new }

theorem Within.mono {view : SessionView} {roomIds more : List RoomId}
    (within : view.Within roomIds) (subset : roomIds ⊆ more) :
    view.Within more where
  room := fun room inside => subset (within.room room inside)
  handler := fun phase at_ => (within.handler phase at_).mono subset
  disconnecting := fun room pushes => subset (within.disconnecting room pushes)
  rooms := by
    intro room
    have old := within.rooms room
    exact
      { member := fun present => subset (old.member present)
        jobs := fun job member =>
          ⟨subset (old.jobs job member).1, (old.jobs job member).2.mono subset⟩
        running := fun phase at_ =>
          ⟨subset (old.running phase at_).1,
            (old.running phase at_).2.mono subset⟩ }

theorem firstPhase_within {roomIds : List RoomId} {job : RoomJob}
    (within : job.Within roomIds) : job.firstPhase.Within roomIds := by
  cases job with
  | enter => trivial
  | leave =>
      intro room impossible
      cases impossible
  | leaveAndEnter targetRoom =>
      intro room target
      obtain rfl := Option.some.inj target
      exact within
  | handleChat message => trivial

theorem quietNext_within {roomIds : List RoomId} {phase after : JobPhase}
    {next : Option JobPhase} (quiet : quietNext phase = some next)
    (within : phase.Within roomIds) (goes : next = some after) :
    after.Within roomIds := by
  subst goes
  cases phase with
  | replyEnter =>
      obtain rfl := Option.some.inj (Option.some.inj quiet)
      trivial
  | noticeJoined => cases Option.some.inj quiet
  | replyLeave targetRoom =>
      obtain rfl := Option.some.inj (Option.some.inj quiet)
      exact within
  | noticeLeft targetRoom =>
      cases targetRoom with
      | none => cases Option.some.inj quiet
      | some target =>
          obtain rfl := Option.some.inj (Option.some.inj quiet)
          exact within target rfl
  | broadcastChat message => cases Option.some.inj quiet
  | _ => cases quiet

/-- The rooms a session refers to are those it referred to before, and the one
its new packet asks for. -/
theorem step_within {view next : SessionView} {event : SessionEvent}
    {roomIds : List RoomId} (within : view.Within roomIds)
    (known : ∀ targetRoom, event = .receiveEnter targetRoom →
      targetRoom ∈ roomIds)
    (stepped : view.Step event next) : next.Within roomIds := by
  cases stepped with
  | elsewhere => exact within
  | receiveEnter targetRoom idle =>
      apply within.setHandler
      rintro _ ⟨⟩
      exact known targetRoom rfl
  | request idle inside harmless =>
      apply within.setHandler
      rintro _ ⟨⟩
      refine ⟨within.room _ inside, ?_⟩
      rcases harmless with rfl | ⟨_, rfl⟩ <;> trivial
  | ignore reads inside => exact within.setHandler nofun
  | switch reads inside different =>
      apply within.setHandler
      rintro _ ⟨⟩
      exact ⟨within.room _ inside, within.handler _ reads⟩
  | join reads outside =>
      apply within.setHandler
      rintro _ ⟨⟩
      exact ⟨within.handler _ reads, trivial⟩
  | push pushes =>
      obtain ⟨known, job⟩ := within.handler _ pushes
      exact (within.pushJob known job).setHandler nofun
  | disconnect connected inside =>
      apply within.setDisconnecting
      rintro _ ⟨⟩
      exact within.room _ inside
  | disconnectOutside =>
      exact within.setDisconnecting (fun _ impossible => by cases impossible)
  | pushLeave pushes =>
      have known := within.disconnecting _ pushes
      have pushed : (view.pushJob _ .leave).Within roomIds :=
        within.pushJob known trivial
      exact pushed.setDisconnecting (fun _ impossible => by cases impossible)
  | forgetRoom =>
      have outside : (view.setRoom none).Within roomIds :=
        within.setRoom nofun
      exact outside.setDisconnecting (fun _ impossible => by cases impossible)
  | @start room job rest free queued =>
      have all := (within.rooms room).jobs
      rw [queued] at all
      obtain ⟨known, first⟩ := all job (List.mem_cons_self ..)
      apply within.update
      exact
        { member := (within.rooms room).member
          jobs := fun other member => all other (List.mem_cons_of_mem _ member)
          running := by
            rintro _ ⟨⟩
            refine ⟨known, ?_⟩
            exact firstPhase_within first }
  | @insertMember room running =>
      obtain ⟨known, _⟩ := (within.rooms room).running _ running
      apply within.update
      exact
        { member := fun _ => known
          jobs := (within.rooms room).jobs
          running := by
            rintro _ ⟨⟩
            exact ⟨known, trivial⟩ }
  | @setRoom room running =>
      obtain ⟨known, _⟩ := (within.rooms room).running _ running
      apply Within.run
      · apply within.setRoom
        rintro _ ⟨⟩
        exact known
      · rintro _ ⟨⟩
        exact ⟨known, trivial⟩
  | @eraseMember room targetRoom running =>
      obtain ⟨known, target⟩ := (within.rooms room).running _ running
      apply within.update
      exact
        { member := nofun
          jobs := (within.rooms room).jobs
          running := by
            rintro _ ⟨⟩
            exact ⟨known, target⟩ }
  | @readHere room targetRoom running here =>
      obtain ⟨known, target⟩ := (within.rooms room).running _ running
      apply within.run
      rintro _ ⟨⟩
      exact ⟨known, target⟩
  | @readElsewhere room targetRoom running elsewhere =>
      obtain ⟨known, target⟩ := (within.rooms room).running _ running
      apply within.run
      rintro _ ⟨⟩
      exact ⟨known, target⟩
  | @clearRoom room targetRoom running =>
      obtain ⟨known, target⟩ := (within.rooms room).running _ running
      have outside : (view.setRoom none).Within roomIds :=
        within.setRoom nofun
      apply outside.run
      rintro _ ⟨⟩
      exact ⟨known, target⟩
  | @quiet room phase next running quiet =>
      obtain ⟨known, target⟩ := (within.rooms room).running _ running
      apply within.run
      intro after goes
      exact ⟨known, quietNext_within quiet target goes⟩
  | @pushEnter room targetRoom running =>
      obtain ⟨_, target⟩ := (within.rooms room).running _ running
      have done : (view.run room none).Within roomIds :=
        within.run (fun _ impossible => by cases impossible)
      have pushed : ((view.run room none).pushJob targetRoom .enter).Within
          roomIds := done.pushJob target trivial
      exact pushed

end SessionView

namespace ChatServer

variable {Session : Type} [DecidableEq Session]

theorem advanceJob_roomIds (state : ChatServer Session) (room : RoomId)
    (session : Session) (phase : JobPhase) :
    (state.advanceJob room session phase).roomIds = state.roomIds := by
  cases phase with
  | readRoom targetRoom =>
      rw [advanceJob]
      split <;> rfl
  | _ => rfl

theorem advanceHandler_roomIds (state : ChatServer Session)
    (session : Session) (phase : HandlerPhase) :
    (state.advanceHandler session phase).roomIds = state.roomIds := by
  cases phase with
  | push room job => rfl
  | readRoom targetRoom =>
      simp only [advanceHandler]
      split
      · split <;> rfl
      · rfl

theorem advanceDisconnect_roomIds {state next : ChatServer Session}
    {session : Session} {phase : DisconnectPhase}
    (advanced : state.advanceDisconnect session phase = some next) :
    next.roomIds = state.roomIds := by
  cases phase with
  | connected => cases advanced
  | disconnected => cases advanced
  | pushLeave room =>
      obtain rfl := Option.some.inj advanced
      rfl
  | clearRoom =>
      obtain rfl := Option.some.inj advanced
      rfl

omit [DecidableEq Session] in
theorem getOrCreateRoom_roomIds (state : ChatServer Session) (roomId : RoomId)
    (defaultName : StdString) :
    state.roomIds ⊆ (state.getOrCreateRoom roomId defaultName).roomIds ∧
      roomId ∈ (state.getOrCreateRoom roomId defaultName).roomIds := by
  unfold getOrCreateRoom
  split
  · rename_i known
    exact ⟨List.Subset.refl _, known⟩
  · refine ⟨List.subset_append_left _ _, ?_⟩
    exact List.mem_append_right _ (List.mem_singleton.mpr rfl)

/-- Rooms are never taken out of `_rooms`. -/
theorem step_roomIds {state next : ChatServer Session}
    {action : ChatAction Session} (stepped : state.step action = some next) :
    state.roomIds ⊆ next.roomIds := by
  cases action with
  | packet session packet tick =>
      change (if (state.sessions session).handler = none then _ else none) = _
        at stepped
      split at stepped
      · unfold handlePacket at stepped
        have requests : ∀ job,
            (state.requestJob session job).roomIds = state.roomIds := by
          intro job
          unfold requestJob
          split <;> rfl
        split at stepped
        case h_4 packet =>
          obtain rfl := Option.some.inj stepped
          exact (getOrCreateRoom_roomIds state packet.roomId _).1
        case h_5 =>
          obtain rfl := Option.some.inj stepped
          rw [requests]
          exact List.Subset.refl _
        case h_6 =>
          obtain rfl := Option.some.inj stepped
          rw [requests]
          exact List.Subset.refl _
        case h_8 => cases stepped
        all_goals
          obtain rfl := Option.some.inj stepped
          exact List.Subset.refl _
      · cases stepped
  | handle session =>
      obtain ⟨phase, _, rfl⟩ := Option.map_eq_some_iff.mp stepped
      rw [advanceHandler_roomIds]
      exact List.Subset.refl _
  | disconnect session =>
      change (if (state.sessions session).disconnecting = .connected then _
        else none) = _ at stepped
      split at stepped
      · split at stepped <;> obtain rfl := Option.some.inj stepped <;>
          exact List.Subset.refl _
      · cases stepped
  | onDisconnected session =>
      rw [advanceDisconnect_roomIds stepped]
      exact List.Subset.refl _
  | start room =>
      simp only [step] at stepped
      split at stepped
      · obtain rfl := Option.some.inj stepped
        exact List.Subset.refl _
      · cases stepped
  | execute room =>
      obtain ⟨⟨session, phase⟩, _, rfl⟩ := Option.map_eq_some_iff.mp stepped
      change state.roomIds ⊆ (state.advanceJob room session phase).roomIds
      rw [advanceJob_roomIds]
      exact List.Subset.refl _

/-- The room a `C_ENTER_ROOM` asks for is in `_rooms` from then on. -/
theorem step_receiveEnter {state next : ChatServer Session}
    {action : ChatAction Session} (stepped : state.step action = some next)
    {session : Session} {targetRoom : RoomId}
    (receives : state.event session action = .receiveEnter targetRoom) :
    targetRoom ∈ next.roomIds := by
  cases action with
  | packet owner packet tick =>
      rw [event] at receives
      split at receives
      · obtain ⟨id, fields⟩ := packet
        cases id with
        | cEnterRoom =>
            obtain rfl := SessionEvent.receiveEnter.inj receives
            change (if (state.sessions owner).handler = none then _
              else none) = _ at stepped
            split at stepped
            · obtain rfl := Option.some.inj stepped
              exact (getOrCreateRoom_roomIds state fields.roomId _).2
            · cases stepped
        | _ => cases receives
      · cases receives
  | handle owner =>
      rw [event] at receives
      split at receives
      · split at receives <;> cases receives
      · cases receives
  | disconnect owner =>
      rw [event] at receives
      split at receives <;> cases receives
  | _ => cases receives

theorem initial_view_rooms (session : Session) (room : RoomId) :
    ((initial : ChatServer Session).view session).rooms room =
      { member := false
        jobs := []
        running := none } := by
  simp only [view, initial, Room.view]
  split
  · rfl
  · split
    · rfl
    · split <;> rfl

theorem reachable_within {state : ChatServer Session}
    (reached : (machine Session).Reachable state) (session : Session) :
    (state.view session).Within state.roomIds := by
  have all : ∀ session, (state.view session).Within state.roomIds := by
    apply Machine.Reachable.invariant _ _ reached
    · intro state initially session
      obtain rfl : state = initial := initially
      exact
        { room := fun _ impossible => by cases impossible
          handler := fun _ impossible => by cases impossible
          disconnecting := fun _ impossible => by cases impossible
          rooms := by
            intro room
            rw [initial_view_rooms]
            exact ⟨nofun, nofun, nofun⟩ }
    · intro state action next within stepped session
      apply SessionView.step_within _ _ (step_view stepped session)
      · exact (within session).mono (step_roomIds stepped)
      · exact fun targetRoom receives => step_receiveEnter stepped receives
  exact all session

/-- A room that is not in `_rooms` is as a new one, but for the name. -/
theorem reachable_unused {state : ChatServer Session}
    (reached : (machine Session).Reachable state) {room : RoomId}
    (unused : room ∉ state.roomIds) :
    (state.rooms room).members = [] ∧ (state.rooms room).jobs = [] ∧
      (state.rooms room).running = none := by
  have within := fun session => (reachable_within reached session).rooms room
  refine ⟨?_, ?_, ?_⟩
  · apply List.eq_nil_iff_forall_not_mem.mpr
    intro session member
    exact unused ((within session).member (decide_eq_true member))
  · apply List.eq_nil_iff_forall_not_mem.mpr
    intro ⟨session, job⟩ member
    have queued : job ∈ ((state.view session).rooms room).jobs := by
      apply List.mem_filterMap.mpr
      exact ⟨(session, job), member, if_pos rfl⟩
    exact unused ((within session).jobs job queued).1
  · cases running : (state.rooms room).running with
    | none => rfl
    | some job =>
        obtain ⟨session, phase⟩ := job
        have at_ : ((state.view session).rooms room).running = some phase := by
          change runningFor session (state.rooms room).running = _
          rw [running, runningFor_self]
        exact absurd ((within session).running phase at_).1 unused

/-- No room job is pending or running. -/
def JobsDone (state : ChatServer Session) : Prop :=
  ∀ room, (state.rooms room).jobs = [] ∧ (state.rooms room).running = none

/-- It is enough to look at the rooms in `_rooms`. -/
theorem jobsDone_of_roomIds {state : ChatServer Session}
    (reached : (machine Session).Reachable state)
    (done : ∀ room ∈ state.roomIds,
      (state.rooms room).jobs = [] ∧ (state.rooms room).running = none) :
    state.JobsDone := by
  intro room
  by_cases used : room ∈ state.roomIds
  · exact done room used
  · exact (reachable_unused reached used).2

end ChatServer

end IocpChat
