import IocpChat.ChatServer.SessionActions

/-!
# The lines of the rooms

What the handlers and the jobs do to the sessions, the rooms and the outputs
does not depend on which jobs wait in the rooms and how far the running ones
are.  The lines can be put in and exchanged.
-/

namespace IocpChat

open Protocol

/-- The jobs of a room that have not been started, and the one that runs. -/
structure RoomLine (Session : Type) where
  jobs : List (Session × RoomJob)
  running : Option (Session × JobPhase)

namespace RoomLine

variable {Session : Type}

def push (line : RoomLine Session) (session : Session) (job : RoomJob) :
    RoomLine Session :=
  { line with jobs := line.jobs ++ [(session, job)] }

def run (line : RoomLine Session) (running : Option (Session × JobPhase)) :
    RoomLine Session :=
  { line with running := running }

end RoomLine

namespace Room

variable {Session : Type}

def withLine (room : Room Session) (line : RoomLine Session) : Room Session :=
  { room with
    jobs := line.jobs
    running := line.running }

end Room

namespace ChatServer

variable {Session : Type} [DecidableEq Session]

/-- The server with these jobs in its rooms. -/
def withLines (state : ChatServer Session)
    (lines : RoomId → RoomLine Session) : ChatServer Session :=
  { state with rooms := fun room => (state.rooms room).withLine (lines room) }

section Lines

variable (state : ChatServer Session) (lines : RoomId → RoomLine Session)
  (room : RoomId) (session : Session)

omit [DecidableEq Session] in
theorem setRoom_withLines (value : Room Session) (line : RoomLine Session) :
    (state.withLines lines).setRoom room (value.withLine line) =
      (state.setRoom room value).withLines
        (Function.update lines room line) := by
  have rooms : Function.update (state.withLines lines).rooms room
      (value.withLine line) =
        ((state.setRoom room value).withLines
          (Function.update lines room line)).rooms := by
    funext other
    by_cases same : other = room
    · subst same
      simp [withLines, setRoom]
    · simp [withLines, setRoom, same]
  exact congrArg (fun rooms : RoomId → Room Session =>
    ({ state with rooms := rooms } : ChatServer Session)) rooms

omit [DecidableEq Session] in
/-- A room that does not touch its own line. -/
theorem setRoom_withLines_self (value : Room Session) :
    (state.withLines lines).setRoom room (value.withLine (lines room)) =
      (state.setRoom room value).withLines lines := by
  rw [setRoom_withLines, Function.update_eq_self]

omit [DecidableEq Session] in
theorem run_withLines (running : Option (Session × JobPhase)) :
    (state.withLines lines).run room running =
      state.withLines
        (Function.update lines room ((lines room).run running)) := by
  have set := setRoom_withLines state lines room (state.rooms room)
    ((lines room).run running)
  have same : state.setRoom room (state.rooms room) = state := by
    rw [setRoom, Function.update_eq_self]
  rw [same] at set
  exact set

omit [DecidableEq Session] in
theorem pushJob_withLines (job : RoomJob) :
    (state.withLines lines).pushJob room session job =
      state.withLines
        (Function.update lines room ((lines room).push session job)) := by
  have set := setRoom_withLines state lines room (state.rooms room)
    ((lines room).push session job)
  have same : state.setRoom room (state.rooms room) = state := by
    rw [setRoom, Function.update_eq_self]
  rw [same] at set
  exact set

omit [DecidableEq Session] in
/-- The lines that were there before do not matter. -/
theorem withLines_run (running : Option (Session × JobPhase)) :
    (state.run room running).withLines lines = state.withLines lines := by
  have rooms : ((state.run room running).withLines lines).rooms =
      (state.withLines lines).rooms := by
    funext other
    by_cases same : other = room
    · subst same
      simp [withLines, run, setRoom, Room.run, Room.withLine]
    · simp [withLines, run, setRoom, same]
  exact congrArg (fun rooms : RoomId → Room Session =>
    ({ state with rooms := rooms } : ChatServer Session)) rooms

omit [DecidableEq Session] in
theorem getOrCreateRoom_withLines (defaultName : StdString) :
    (state.withLines lines).getOrCreateRoom room defaultName =
      (state.getOrCreateRoom room defaultName).withLines lines := by
  unfold getOrCreateRoom
  change (if room ∈ state.roomIds then _ else _) = _
  split
  · rfl
  · exact setRoom_withLines_self
      { state with roomIds := state.roomIds ++ [room] } lines room
      { state.rooms room with roomName := defaultName }

theorem requestJob_withLines (job : RoomJob) :
    (state.withLines lines).requestJob session job =
      (state.requestJob session job).withLines lines := by
  have same : ((state.withLines lines).sessions session).room =
      (state.sessions session).room := rfl
  rw [requestJob, requestJob, same]
  cases (state.sessions session).room <;> rfl

theorem handlePacket_withLines (tick : UInt64) (packet : Packet) :
    (state.withLines lines).handlePacket session tick packet =
      (state.handlePacket session tick packet).map
        (·.withLines lines) := by
  obtain ⟨id, fields⟩ := packet
  cases id with
  | cEnterRoom =>
      simp only [handlePacket, handleEnterRoom, getOrCreateRoom_withLines]
      rfl
  | cLeaveRoom =>
      simp only [handlePacket, requestJob_withLines]
      rfl
  | cRoomChat =>
      simp only [handlePacket, requestJob_withLines]
      rfl
  | _ => rfl

theorem readRoom_withLines (targetRoom : RoomId) :
    (state.withLines lines).advanceHandler session (.readRoom targetRoom) =
      (state.advanceHandler session (.readRoom targetRoom)).withLines
        lines := by
  have same : ((state.withLines lines).sessions session).room =
      (state.sessions session).room := rfl
  rw [advanceHandler, advanceHandler, same]
  cases (state.sessions session).room with
  | none => rfl
  | some oldRoom =>
      by_cases same : oldRoom = targetRoom
      · simp only [same, if_true]
        rfl
      · simp only [same, if_false]
        rfl

theorem disconnect_withLines :
    (state.withLines lines).step (.disconnect session) =
      (state.step (.disconnect session)).map (·.withLines lines) := by
  unfold step
  change (if (state.sessions session).disconnecting = .connected then _
    else none) = _
  by_cases connected : (state.sessions session).disconnecting = .connected
  · have same : ((state.withLines lines).sessions session).room =
        (state.sessions session).room := rfl
    simp only [connected, if_true, same]
    cases (state.sessions session).room <;> rfl
  · simp only [connected, if_false]
    rfl

omit [DecidableEq Session] in
/-- A room sets the phase of its job and does nothing else with its line. -/
theorem run_phase (running : Option (Session × JobPhase)) :
    (state.withLines lines).run room running =
      (state.run room running).withLines
        (Function.update lines room
          ((lines room).run ((state.run room running).rooms room).running)) :=
    by
  have after : ((state.run room running).rooms room).running = running := by
    simp [run, setRoom, Room.run]
  rw [run_withLines, withLines_run, after]

omit [DecidableEq Session] in
theorem setRoom_run (value : Room Session)
    (running : Option (Session × JobPhase)) :
    state.setRoom room (value.run running) =
      (state.setRoom room value).run room running := by
  simp [run, setRoom]

omit [DecidableEq Session] in
theorem setRoom_phase (value : Room Session)
    (running : Option (Session × JobPhase)) :
    (state.withLines lines).setRoom room
        ((value.withLine (lines room)).run running) =
      (state.setRoom room (value.run running)).withLines
        (Function.update lines room
          ((lines room).run
            ((state.setRoom room (value.run running)).rooms
              room).running)) := by
  rw [setRoom_run, setRoom_withLines_self, run_phase, setRoom_run]

theorem step_execute {phase : JobPhase}
    (running : (state.rooms room).running = some (session, phase)) :
    state.step (.execute room) =
      some (state.advanceJob room session phase) := by
  rw [step, running]
  rfl

/-- A phase of a job, apart from `PushJob`. -/
theorem advanceJob_withLines {phase : JobPhase}
    (notPush : ∀ targetRoom, phase ≠ .pushEnter targetRoom) :
    (state.withLines lines).advanceJob room session phase =
      (state.advanceJob room session phase).withLines
        (Function.update lines room
          ((lines room).run
            ((state.advanceJob room session phase).rooms room).running)) := by
  cases phase with
  | insertMember =>
      exact setRoom_phase state lines room
        ((state.rooms room).insertMember session) _
  | eraseMember targetRoom =>
      exact setRoom_phase state lines room
        ((state.rooms room).eraseMember session) _
  | setRoom => exact run_phase (state.setSessionRoom session (some room)) ..
  | clearRoom targetRoom =>
      exact run_phase (state.setSessionRoom session none) ..
  | replyEnter =>
      exact run_phase (state.emit (.send session (state.enterRes room))) ..
  | noticeJoined =>
      exact run_phase
        (state.broadcast room session (state.noticePkt session joined)) ..
  | replyLeave targetRoom =>
      exact run_phase (state.emit (.send session leaveRes)) ..
  | noticeLeft targetRoom =>
      exact run_phase
        (state.broadcast room session (state.noticePkt session left)) ..
  | broadcastChat message =>
      exact run_phase
        (state.broadcast room session (state.chatPkt session message)) ..
  | readRoom targetRoom =>
      by_cases here : (state.sessions session).room = some room
      · have reads : ∀ server : ChatServer Session,
            server.sessions = state.sessions →
            server.advanceJob room session (.readRoom targetRoom) =
              server.run room (some (session, .clearRoom targetRoom)) := by
          intro server same
          rw [advanceJob, same, if_pos here]
        rw [reads (state.withLines lines) rfl, reads state rfl]
        exact run_phase ..
      · have reads : ∀ server : ChatServer Session,
            server.sessions = state.sessions →
            server.advanceJob room session (.readRoom targetRoom) =
              server.run room (some (session, .replyLeave targetRoom)) := by
          intro server same
          rw [advanceJob, same, if_neg here]
        rw [reads (state.withLines lines) rfl, reads state rfl]
        exact run_phase ..
  | pushEnter targetRoom => exact absurd rfl (notPush targetRoom)

/-- A room takes the first job of its line. -/
theorem start_withLines {job : RoomJob} {rest : List (Session × RoomJob)}
    (free : (lines room).running = none)
    (queued : (lines room).jobs = (session, job) :: rest) :
    (state.withLines lines).step (.start room) =
      some (state.withLines
        (Function.update lines room
          { jobs := rest
            running := some (session, job.firstPhase) })) := by
  have set := setRoom_withLines state lines room (state.rooms room)
    { jobs := rest
      running := some (session, job.firstPhase) }
  have same : state.setRoom room (state.rooms room) = state := by
    rw [setRoom, Function.update_eq_self]
  rw [same] at set
  rw [← set]
  simp only [step, withLines, Room.withLine, free, queued]

/-- The three callers of `PushJob`. -/
theorem push_withLines (job : RoomJob) :
    (state.withLines lines).advanceHandler session (.push room job) =
      (state.setHandler session none).withLines
        (Function.update lines room ((lines room).push session job)) := by
  rw [advanceHandler, pushJob_withLines]
  rfl

theorem pushLeave_withLines :
    (state.withLines lines).advanceDisconnect session (.pushLeave room) =
      some ((state.setDisconnecting session .clearRoom).withLines
        (Function.update lines room ((lines room).push session .leave))) := by
  have pushed := pushJob_withLines state lines room session .leave
  exact congrArg (fun state : ChatServer Session =>
    some (state.setDisconnecting session .clearRoom)) pushed

theorem pushEnter_withLines (targetRoom : RoomId) :
    (state.withLines lines).advanceJob room session (.pushEnter targetRoom) =
      state.withLines
        (Function.update (Function.update lines room ((lines room).run none))
          targetRoom
          ((Function.update lines room ((lines room).run none) targetRoom).push
            session .enter)) := by
  rw [advanceJob, run_withLines, pushJob_withLines]

end Lines

end ChatServer

end IocpChat
