import IocpChat.ChatServer.RoomMembership

/-!
# The actions of a session

What the packets of a client, the rest of their handlers and the jobs of the
rooms do to the session's view, one action at a time.
-/

namespace IocpChat

open Protocol

namespace SessionView

/-- `C_LEAVE_ROOM` and `C_ROOM_CHAT` go to the room that `_room` names. -/
def request (view : SessionView) (job : RoomJob) : SessionView :=
  match view.room with
  | some room => view.setHandler (some (.push room job))
  | none => view

/-- A packet, up to the first access of `_room`. -/
def receive (view : SessionView) : Packet → SessionView
  | ⟨.cEnterRoom, packet⟩ =>
      view.setHandler (some (.readRoom packet.roomId))
  | ⟨.cLeaveRoom, _⟩ => view.request .leave
  | ⟨.cRoomChat, packet⟩ => view.request (.handleChat packet.message)
  | _ => view

/-- The rest of the handler. -/
def advance (view : SessionView) : HandlerPhase → SessionView
  | .readRoom targetRoom =>
      match view.room with
      | some oldRoom =>
          if oldRoom = targetRoom then view.setHandler none
          else
            view.setHandler (some (.push oldRoom (.leaveAndEnter targetRoom)))
      | none => view.setHandler (some (.push targetRoom .enter))
  | .push room job => (view.pushJob room job).setHandler none

/-- A step of a room's job or of `OnDisconnected`. -/
structure JobStep (view next : SessionView) : Prop where
  step : view.Step .other next
  handler : next.handler = view.handler

end SessionView

namespace ChatServer

variable {Session : Type} [DecidableEq Session]

theorem view_requestJob (state : ChatServer Session) (session : Session)
    (job : RoomJob) :
    (state.requestJob session job).view session =
      (state.view session).request job := by
  unfold requestJob SessionView.request
  change _ = match (state.sessions session).room with
    | some room => (state.view session).setHandler (some (.push room job))
    | none => state.view session
  cases (state.sessions session).room with
  | none => rfl
  | some room => exact view_setHandler_self state session _

theorem view_handlePacket {state next : ChatServer Session}
    {session : Session} {tick : UInt64} {packet : Packet}
    (handled : state.handlePacket session tick packet = some next) :
    next.view session = (state.view session).receive packet := by
  obtain ⟨id, fields⟩ := packet
  cases id with
  | cLogin =>
      cases handled
      simp [handleLogin, view, setSession, emit, ClientSession.setPlayerInfo,
        SessionView.receive]
  | cHeartbeat =>
      cases handled
      rfl
  | cRoomList =>
      cases handled
      rfl
  | cEnterRoom =>
      cases handled
      rw [handleEnterRoom, view_setHandler_self, view_getOrCreateRoom]
      rfl
  | cLeaveRoom =>
      cases handled
      exact view_requestJob state session .leave
  | cRoomChat =>
      cases handled
      exact view_requestJob state session _
  | cGlobalChat =>
      cases handled
      rfl
  | _ => cases handled

theorem view_advanceHandler (state : ChatServer Session) (session : Session)
    (phase : HandlerPhase) :
    (state.advanceHandler session phase).view session =
      (state.view session).advance phase := by
  cases phase with
  | push room job =>
      rw [advanceHandler, view_setHandler_self, view_pushJob_self]
      rfl
  | readRoom targetRoom =>
      have here : (state.view session).room = (state.sessions session).room :=
        rfl
      simp only [advanceHandler, SessionView.advance, here]
      cases (state.sessions session).room with
      | none => exact view_setHandler_self state session _
      | some oldRoom =>
          by_cases same : oldRoom = targetRoom
          · simp only [same, if_true]
            exact view_setHandler_self state session _
          · simp only [same, if_false]
            exact view_setHandler_self state session _

theorem setSessionRoom_handler (state : ChatServer Session)
    (owner session : Session) (room : Option RoomId) :
    ((state.setSessionRoom owner room).view session).handler =
      (state.view session).handler := by
  by_cases own : owner = session
  · subst own
    rw [view_setSessionRoom_self]
    rfl
  · rw [setSessionRoom, view_setSession_other state own]

/-- A job moves no handler. -/
theorem advanceJob_handler (state : ChatServer Session) (room : RoomId)
    (owner session : Session) (phase : JobPhase) :
    ((state.advanceJob room owner phase).view session).handler =
      (state.view session).handler := by
  cases phase with
  | setRoom => exact setSessionRoom_handler state owner session _
  | clearRoom targetRoom => exact setSessionRoom_handler state owner session _
  | readRoom targetRoom =>
      rw [advanceJob]
      split <;> rfl
  | _ => rfl

/-- `OnDisconnected` moves no handler. -/
theorem advanceDisconnect_handler {state next : ChatServer Session}
    {session : Session} {phase : DisconnectPhase}
    (advanced : state.advanceDisconnect session phase = some next) :
    (next.view session).handler = (state.view session).handler := by
  cases phase with
  | connected => cases advanced
  | disconnected => cases advanced
  | pushLeave room =>
      cases advanced
      rw [view_setDisconnecting_self, view_pushJob_self]
      rfl
  | clearRoom =>
      cases advanced
      rw [view_setDisconnecting_self, view_setSessionRoom_self]
      rfl

/-- The kinds of steps, as one session sees them. -/
inductive Seen (state next : ChatServer Session) (session : Session) :
    ChatAction Session → Prop where
  | packet {packet : Packet} {tick : UInt64} :
      (state.view session).handler = none →
      next.view session = (state.view session).receive packet →
      Seen state next session (.packet session packet tick)
  | handle {phase : HandlerPhase} :
      (state.view session).handler = some phase →
      next.view session = (state.view session).advance phase →
      Seen state next session (.handle session)
  | disconnect :
      (state.view session).Step .disconnect (next.view session) →
      Seen state next session (.disconnect session)
  | job {action : ChatAction Session} :
      (∀ packet tick, action ≠ .packet session packet tick) →
      (state.view session).JobStep (next.view session) →
      Seen state next session action

theorem Seen.elsewhere {state next : ChatServer Session} {session : Session}
    {action : ChatAction Session}
    (same : next.view session = state.view session)
    (notOwn : ∀ packet tick, action ≠ .packet session packet tick) :
    Seen state next session action := by
  refine .job notOwn ?_
  rw [same]
  exact ⟨.elsewhere _, rfl⟩

theorem step_seen {state next : ChatServer Session}
    {action : ChatAction Session} (stepped : state.step action = some next)
    (session : Session) : Seen state next session action := by
  have viewed := step_view stepped session
  cases action with
  | packet owner packet tick =>
      simp only [step] at stepped
      split at stepped
      · rename_i idle
        by_cases own : owner = session
        · subst own
          exact .packet idle (view_handlePacket stepped)
        · refine .elsewhere (handlePacket_other own stepped) ?_
          intro _ _ same
          cases same
          exact own rfl
      · cases stepped
  | handle owner =>
      obtain ⟨phase, at_, rfl⟩ := Option.map_eq_some_iff.mp stepped
      by_cases own : owner = session
      · subst own
        exact .handle at_ (view_advanceHandler state owner phase)
      · exact .elsewhere (advanceHandler_other own phase) (by simp)
  | disconnect owner =>
      by_cases own : owner = session
      · subst own
        rw [event, if_pos rfl] at viewed
        exact .disconnect viewed
      · refine .elsewhere ?_ (by simp)
        simp only [step] at stepped
        split at stepped
        · split at stepped <;> obtain rfl := Option.some.inj stepped <;>
            exact view_setSession_other state own _
        · cases stepped
  | onDisconnected owner =>
      by_cases own : owner = session
      · subst own
        exact .job (by simp) ⟨viewed, advanceDisconnect_handler stepped⟩
      · exact .elsewhere (advanceDisconnect_other own stepped) (by simp)
  | start room =>
      refine .job (by simp) ⟨viewed, ?_⟩
      simp only [step] at stepped
      split at stepped
      · cases stepped
        rfl
      · cases stepped
  | execute room =>
      obtain ⟨⟨owner, phase⟩, _, rfl⟩ := Option.map_eq_some_iff.mp stepped
      exact .job (by simp)
        ⟨viewed, advanceJob_handler state room owner session phase⟩

end ChatServer

end IocpChat
