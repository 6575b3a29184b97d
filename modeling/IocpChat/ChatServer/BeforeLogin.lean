import IocpChat.ChatServer.RoomsInUse
import IocpChat.ChatServer.SessionActions
import IocpChat.Lib.Threads

/-!
# Before the login

No handler asks `IsAuthenticated`: a client that has not logged in enters rooms
and chats like any other, with an empty name.  What is done for it is what its
packets ask for.
-/

namespace IocpChat

open Protocol TransitionSystem

/-- The rooms that the `C_ENTER_ROOM`s among the packets name. -/
def enteredRooms (packets : List Packet) : List RoomId :=
  packets.filterMap fun
    | ⟨.cEnterRoom, packet⟩ => some packet.roomId
    | _ => none

theorem mem_enteredRooms {packets : List Packet} {packet : CEnterRoom}
    (member : ⟨.cEnterRoom, packet⟩ ∈ packets) :
    packet.roomId ∈ enteredRooms packets :=
  List.mem_filterMap.mpr ⟨_, member, rfl⟩

/-- What a room says for a session without a name. -/
inductive Anonymous (packets : List Packet) : Packet → Prop where
  | joined :
      Anonymous packets
        ⟨.sNotice, { message := literal "[] joined the room." }⟩
  | left :
      Anonymous packets ⟨.sNotice, { message := literal "[] left the room." }⟩
  | chat {packet : CRoomChat} :
      ⟨.cRoomChat, packet⟩ ∈ packets →
      Anonymous packets
        ⟨.sRoomChat,
          { senderName := []
            message := packet.message }⟩

/-- A broadcast for the session is an anonymous answer to one of its packets. -/
def Output.Asked {Session : Type} (session : Session) (packets : List Packet) :
    Output Session → Prop
  | send _ _ => True
  | roomBroadcast room owner _ packet =>
      owner = session → room ∈ enteredRooms packets ∧ Anonymous packets packet
  | serviceBroadcast owner packet =>
      owner = session →
        ∃ asked : CGlobalChat, ⟨.cGlobalChat, asked⟩ ∈ packets ∧
          packet =
            ⟨.sGlobalChat,
              { senderName := []
                message := asked.message }⟩

/-- The room messages that are under way come from these packets. -/
structure RoomView.Utters (value : RoomView) (packets : List Packet) :
    Prop where
  jobs : ∀ message, .handleChat message ∈ value.jobs →
    ⟨.cRoomChat, { message := message }⟩ ∈ packets
  running : ∀ message, value.running = some (.broadcastChat message) →
    ⟨.cRoomChat, { message := message }⟩ ∈ packets

structure SessionView.Utters (view : SessionView) (packets : List Packet) :
    Prop where
  handler : ∀ room message,
    view.handler = some (.push room (.handleChat message)) →
    ⟨.cRoomChat, { message := message }⟩ ∈ packets
  rooms : ∀ room, (view.rooms room).Utters packets

namespace SessionView

variable {view : SessionView} {packets : List Packet}

theorem Utters.update (utters : view.Utters packets) {room : RoomId}
    {value : RoomView} (new : value.Utters packets) :
    (view.update room value).Utters packets :=
  { utters with
    rooms := by
      intro other
      by_cases same : other = room
      · subst same
        rw [rooms_update_self]
        exact new
      · rw [rooms_update_other view same]
        exact utters.rooms other }

theorem Utters.run (utters : view.Utters packets) {room : RoomId}
    {running : Option JobPhase}
    (new : ∀ message, running = some (.broadcastChat message) →
      ⟨.cRoomChat, { message := message }⟩ ∈ packets) :
    (view.run room running).Utters packets :=
  utters.update { utters.rooms room with running := new }

theorem Utters.pushJob (utters : view.Utters packets) {room : RoomId}
    {job : RoomJob}
    (new : ∀ message, job = .handleChat message →
      ⟨.cRoomChat, { message := message }⟩ ∈ packets) :
    (view.pushJob room job).Utters packets := by
  apply utters.update
  refine { utters.rooms room with jobs := ?_ }
  intro message member
  rcases List.mem_append.mp member with old | added
  · exact (utters.rooms room).jobs message old
  · exact new message (List.mem_singleton.mp added).symm

theorem Utters.setHandler (utters : view.Utters packets)
    {handler : Option HandlerPhase}
    (new : ∀ room message,
      handler = some (.push room (.handleChat message)) →
      ⟨.cRoomChat, { message := message }⟩ ∈ packets) :
    (view.setHandler handler).Utters packets :=
  { utters with handler := new }

theorem Utters.setRoom (utters : view.Utters packets) (room : Option RoomId) :
    (view.setRoom room).Utters packets :=
  { utters with }

theorem Utters.setDisconnecting (utters : view.Utters packets)
    (phase : DisconnectPhase) : (view.setDisconnecting phase).Utters packets :=
  { utters with }

theorem receive_utters (utters : view.Utters packets) {packet : Packet}
    (asked : packet ∈ packets) : (view.receive packet).Utters packets := by
  have requested : ∀ job,
      (∀ message, job = .handleChat message →
        ⟨.cRoomChat, { message := message }⟩ ∈ packets) →
      (view.request job).Utters packets := by
    intro job new
    unfold request
    split
    · apply utters.setHandler
      intro room message same
      cases same
      exact new message rfl
    · exact utters
  obtain ⟨id, fields⟩ := packet
  cases id with
  | cEnterRoom => exact utters.setHandler nofun
  | cLeaveRoom => exact requested _ nofun
  | cRoomChat =>
      apply requested
      intro message same
      cases same
      exact asked
  | _ => exact utters

theorem advance_utters (utters : view.Utters packets) {phase : HandlerPhase}
    (at_ : view.handler = some phase) :
    (view.advance phase).Utters packets := by
  cases phase with
  | push room job =>
      apply Utters.setHandler
      · apply utters.pushJob
        intro message same
        subst same
        exact utters.handler room message at_
      · simp
  | readRoom targetRoom =>
      simp only [advance]
      split
      · split
        · exact utters.setHandler (by simp)
        · exact utters.setHandler (by simp)
      · exact utters.setHandler (by simp)

/-- The phases of a job speak only where they start with it. -/
theorem quietNext_silent {phase : JobPhase} {next : Option JobPhase}
    (quiet : quietNext phase = some next) (message : StdString) :
    next ≠ some (.broadcastChat message) := by
  cases phase with
  | noticeLeft targetRoom => cases targetRoom <;> cases quiet <;> exact nofun
  | replyEnter =>
      cases quiet
      exact nofun
  | noticeJoined =>
      cases quiet
      exact nofun
  | replyLeave targetRoom =>
      cases quiet
      exact nofun
  | broadcastChat message =>
      cases quiet
      exact nofun
  | _ => cases quiet

theorem disconnect_utters {next : SessionView} (utters : view.Utters packets)
    (stepped : view.Step .disconnect next) : next.Utters packets := by
  cases stepped with
  | disconnect => exact utters.setDisconnecting _
  | disconnectOutside => exact utters.setDisconnecting _

theorem step_utters {next : SessionView} (utters : view.Utters packets)
    (stepped : view.JobStep next) : next.Utters packets := by
  obtain ⟨step, handler⟩ := stepped
  cases step with
  | elsewhere => exact utters
  | request idle =>
      rw [idle] at handler
      cases handler
  | push pushes =>
      rw [pushes] at handler
      cases handler
  | pushLeave pushes =>
      apply Utters.setDisconnecting
      exact utters.pushJob nofun
  | forgetRoom forgets =>
      exact (utters.setRoom none).setDisconnecting _
  | @start room job rest free queued =>
      have all := (utters.rooms room).jobs
      rw [queued] at all
      apply utters.update
      exact
        { jobs := fun message member =>
            all message (List.mem_cons_of_mem _ member)
          running := by
            intro message same
            apply all message
            cases job with
            | handleChat =>
                cases same
                exact List.mem_cons_self ..
            | _ => cases same }
  | @insertMember room running =>
      exact utters.update { (utters.rooms room) with running := nofun }
  | setRoom running => exact (utters.setRoom _).run nofun
  | @eraseMember room targetRoom running =>
      exact utters.update { (utters.rooms room) with running := nofun }
  | readHere running here => exact utters.run nofun
  | readElsewhere running elsewhere => exact utters.run nofun
  | clearRoom running => exact (utters.setRoom none).run nofun
  | quiet running quiet =>
      apply utters.run
      intro message same
      exact absurd same (quietNext_silent quiet message)
  | @pushEnter room targetRoom running =>
      have done : (view.run room none).Utters packets := utters.run nofun
      exact done.pushJob nofun

end SessionView

namespace ChatServer

variable {Session : Type} [DecidableEq Session]

/-- The packets of a session, in the order of its handlers. -/
def packetsFrom (session : Session) (actions : List (ChatAction Session)) :
    List Packet :=
  actions.filterMap fun
    | .packet owner packet _ => if owner = session then some packet else none
    | _ => none

theorem mem_packetsFrom_iff {session : Session} {packet : Packet}
    {actions : List (ChatAction Session)} :
    packet ∈ packetsFrom session actions ↔
      ∃ tick, .packet session packet tick ∈ actions := by
  unfold packetsFrom
  rw [List.mem_filterMap]
  constructor
  · intro ⟨action, member, taken⟩
    cases action with
    | packet owner other tick =>
        obtain ⟨rfl, rfl⟩ : owner = session ∧ other = packet := by
          simpa using taken
        exact ⟨tick, member⟩
    | _ => cases taken
  · intro ⟨tick, member⟩
    exact ⟨_, member, if_pos rfl⟩

/-- The broadcasts that a step builds; what it sends to one session is not
looked at. -/
inductive Built (state : ChatServer Session) :
    ChatAction Session → Output Session → Prop where
  | reply {action : ChatAction Session} (session : Session) (packet : Packet) :
      Built state action (.send session packet)
  | globalChat (session : Session) (packet : CGlobalChat) (tick : UInt64) :
      Built state (.packet session ⟨.cGlobalChat, packet⟩ tick)
        (.serviceBroadcast session (state.globalPkt session packet))
  | noticeJoined {room : RoomId} {session : Session} :
      (state.rooms room).running = some (session, .noticeJoined) →
      Built state (.execute room)
        (.roomBroadcast room session (state.rooms room).members
          (state.noticePkt session joined))
  | noticeLeft {room : RoomId} {session : Session}
      {targetRoom : Option RoomId} :
      (state.rooms room).running = some (session, .noticeLeft targetRoom) →
      Built state (.execute room)
        (.roomBroadcast room session (state.rooms room).members
          (state.noticePkt session left))
  | chat {room : RoomId} {session : Session} {message : StdString} :
      (state.rooms room).running = some (session, .broadcastChat message) →
      Built state (.execute room)
        (.roomBroadcast room session (state.rooms room).members
          (state.chatPkt session message))

/-- A step adds at most one output. -/
structure Emits (state : ChatServer Session) (action : ChatAction Session)
    (next : ChatServer Session) : Prop where
  outputs : ∀ output ∈ next.outputs,
    output ∈ state.outputs ∨ Built state action output

section Emits

variable {state next : ChatServer Session} {action : ChatAction Session}

omit [DecidableEq Session] in
theorem Emits.silent (same : next.outputs = state.outputs) :
    Emits state action next where
  outputs := by
    intro output member
    rw [same] at member
    exact Or.inl member

omit [DecidableEq Session] in
theorem Emits.single {output : Output Session}
    (added : next.outputs = state.outputs ++ [output])
    (built : Built state action output) : Emits state action next where
  outputs := by
    intro other member
    rw [added] at member
    rcases List.mem_append.mp member with old | new
    · exact Or.inl old
    · rw [List.mem_singleton.mp new]
      exact Or.inr built

theorem handlePacket_emits {session : Session} {packet : Packet}
    {tick : UInt64}
    (handled : state.handlePacket session tick packet = some next) :
    Emits state (.packet session packet tick) next := by
  obtain ⟨id, fields⟩ := packet
  cases id with
  | cLogin =>
      cases handled
      exact .single rfl (.reply _ _)
  | cHeartbeat =>
      cases handled
      exact .single rfl (.reply _ _)
  | cRoomList =>
      cases handled
      exact .single rfl (.reply _ _)
  | cEnterRoom =>
      cases handled
      apply Emits.silent
      exact getOrCreateRoom_outputs state _ _
  | cLeaveRoom =>
      cases handled
      apply Emits.silent
      exact requestJob_outputs state _ _
  | cRoomChat =>
      cases handled
      apply Emits.silent
      exact requestJob_outputs state _ _
  | cGlobalChat =>
      cases handled
      exact .single rfl (.globalChat _ _ _)
  | _ => cases handled

theorem advanceJob_emits {room : RoomId} {session : Session}
    {phase : JobPhase}
    (running : (state.rooms room).running = some (session, phase)) :
    Emits state (.execute room) (state.advanceJob room session phase) := by
  cases phase with
  | insertMember => exact .silent rfl
  | setRoom => exact .silent rfl
  | replyEnter => exact .single rfl (.reply _ _)
  | noticeJoined => exact .single rfl (.noticeJoined running)
  | eraseMember targetRoom => exact .silent rfl
  | readRoom targetRoom =>
      apply Emits.silent
      rw [advanceJob]
      split <;> rfl
  | clearRoom targetRoom => exact .silent rfl
  | replyLeave targetRoom => exact .single rfl (.reply _ _)
  | noticeLeft targetRoom => exact .single rfl (.noticeLeft running)
  | pushEnter targetRoom => exact .silent rfl
  | broadcastChat message => exact .single rfl (.chat running)

theorem step_emits (stepped : state.step action = some next) :
    Emits state action next := by
  cases action with
  | packet session packet tick =>
      simp only [step] at stepped
      split at stepped
      · exact handlePacket_emits stepped
      · cases stepped
  | handle session =>
      obtain ⟨phase, _, rfl⟩ := Option.map_eq_some_iff.mp stepped
      apply Emits.silent
      cases phase with
      | push room job => rfl
      | readRoom targetRoom =>
          simp only [advanceHandler]
          split
          · split <;> rfl
          · rfl
  | disconnect session =>
      simp only [step] at stepped
      split at stepped
      · split at stepped <;> cases stepped <;> exact .silent rfl
      · cases stepped
  | onDisconnected session =>
      simp only [step] at stepped
      apply Emits.silent
      cases phase : (state.sessions session).disconnecting with
      | pushLeave room =>
          rw [phase] at stepped
          cases stepped
          rfl
      | clearRoom =>
          rw [phase] at stepped
          cases stepped
          rfl
      | _ =>
          rw [phase] at stepped
          cases stepped
  | start room =>
      simp only [step] at stepped
      split at stepped
      · cases stepped
        exact .silent rfl
      · cases stepped
  | execute room =>
      obtain ⟨⟨session, phase⟩, running, rfl⟩ :=
        Option.map_eq_some_iff.mp stepped
      exact advanceJob_emits running

end Emits

/-- The name and `_authenticated` are the same. -/
def SameIdentity (before after : ClientSession) : Prop :=
  after.playerName = before.playerName ∧
    after.authenticated = before.authenticated

section Identity

variable {state next : ChatServer Session} {action : ChatAction Session}

theorem setSession_sameIdentity {session : Session} {value : ClientSession}
    (same : SameIdentity (state.sessions session) value) (other : Session) :
    SameIdentity (state.sessions other)
      ((state.setSession session value).sessions other) :=
  Threads.forall_update (fun other => SameIdentity (state.sessions other))
    (fun _ => ⟨rfl, rfl⟩) same other

theorem setHandler_sameIdentity (state : ChatServer Session)
    (owner session : Session) (handler : Option HandlerPhase) :
    SameIdentity (state.sessions session)
      ((state.setHandler owner handler).sessions session) := by
  apply setSession_sameIdentity
  exact ⟨rfl, rfl⟩

theorem setSessionRoom_sameIdentity (state : ChatServer Session)
    (owner session : Session) (room : Option RoomId) :
    SameIdentity (state.sessions session)
      ((state.setSessionRoom owner room).sessions session) := by
  apply setSession_sameIdentity
  exact ⟨rfl, rfl⟩

theorem setDisconnecting_sameIdentity (state : ChatServer Session)
    (owner session : Session) (phase : DisconnectPhase) :
    SameIdentity (state.sessions session)
      ((state.setDisconnecting owner phase).sessions session) := by
  apply setSession_sameIdentity
  exact ⟨rfl, rfl⟩

theorem handleEnterRoom_sameIdentity (owner session : Session)
    (packet : CEnterRoom) :
    SameIdentity (state.sessions session)
      ((state.handleEnterRoom owner packet).sessions session) := by
  have created : (state.getOrCreateRoom packet.roomId
      (defaultRoomName packet)).sessions = state.sessions := by
    unfold getOrCreateRoom
    split <;> rfl
  rw [← created]
  apply setHandler_sameIdentity

theorem requestJob_sameIdentity (owner session : Session) (job : RoomJob) :
    SameIdentity (state.sessions session)
      ((state.requestJob owner job).sessions session) := by
  unfold requestJob
  split
  · apply setHandler_sameIdentity
  · exact ⟨rfl, rfl⟩

theorem advanceHandler_sameIdentity (owner session : Session)
    (phase : HandlerPhase) :
    SameIdentity (state.sessions session)
      ((state.advanceHandler owner phase).sessions session) := by
  cases phase with
  | push room job =>
      exact setHandler_sameIdentity (state.pushJob room owner job) _ _ _
  | readRoom targetRoom =>
      simp only [advanceHandler]
      split
      · split <;> apply setHandler_sameIdentity
      · apply setHandler_sameIdentity

theorem advanceDisconnect_sameIdentity {owner session : Session}
    {phase : DisconnectPhase}
    (advanced : state.advanceDisconnect owner phase = some next) :
    SameIdentity (state.sessions session) (next.sessions session) := by
  cases phase with
  | pushLeave room =>
      cases advanced
      exact setDisconnecting_sameIdentity (state.pushJob room owner .leave) _ _
        _
  | clearRoom =>
      cases advanced
      have outside := setSessionRoom_sameIdentity state owner session none
      have done := setDisconnecting_sameIdentity
        (state.setSessionRoom owner none) owner session .disconnected
      exact ⟨done.1.trans outside.1, done.2.trans outside.2⟩
  | _ => cases advanced

theorem advanceJob_sameIdentity (room : RoomId) (owner session : Session)
    (phase : JobPhase) :
    SameIdentity (state.sessions session)
      ((state.advanceJob room owner phase).sessions session) := by
  cases phase with
  | setRoom => exact setSessionRoom_sameIdentity state owner session _
  | clearRoom targetRoom =>
      exact setSessionRoom_sameIdentity state owner session _
  | readRoom targetRoom =>
      rw [advanceJob]
      split <;> exact ⟨rfl, rfl⟩
  | _ => exact ⟨rfl, rfl⟩

/-- `SetPlayerInfo` is called for a `C_LOGIN` of the session, and nothing else
changes who it is. -/
inductive Identified (before after : ClientSession) (session : Session) :
    ChatAction Session → Prop where
  | login {packet : CLogin} {tick : UInt64} :
      after.authenticated = true →
      Identified before after session
        (.packet session ⟨.cLogin, packet⟩ tick)
  | other {action : ChatAction Session} :
      (∀ packet tick, action ≠ .packet session ⟨.cLogin, packet⟩ tick) →
      SameIdentity before after → Identified before after session action

theorem handlePacket_identified {owner : Session} {packet : Packet}
    {tick : UInt64}
    (handled : state.handlePacket owner tick packet = some next)
    (session : Session) :
    Identified (state.sessions session) (next.sessions session) session
      (.packet owner packet tick) := by
  obtain ⟨id, fields⟩ := packet
  cases id with
  | cLogin =>
      cases handled
      by_cases own : owner = session
      · subst own
        apply Identified.login
        simp [handleLogin, setSession, emit, ClientSession.setPlayerInfo]
      · apply Identified.other
        · intro _ _ same
          cases same
          exact own rfl
        · have others : (state.handleLogin owner fields).sessions session =
              state.sessions session :=
            Function.update_of_ne (Ne.symm own) ..
          rw [others]
          exact ⟨rfl, rfl⟩
  | cHeartbeat =>
      cases handled
      exact .other (by simp) ⟨rfl, rfl⟩
  | cRoomList =>
      cases handled
      exact .other (by simp) ⟨rfl, rfl⟩
  | cEnterRoom =>
      cases handled
      exact .other (by simp) (handleEnterRoom_sameIdentity owner session _)
  | cLeaveRoom =>
      cases handled
      exact .other (by simp) (requestJob_sameIdentity owner session _)
  | cRoomChat =>
      cases handled
      exact .other (by simp) (requestJob_sameIdentity owner session _)
  | cGlobalChat =>
      cases handled
      exact .other (by simp) ⟨rfl, rfl⟩
  | _ => cases handled

theorem step_identified (stepped : state.step action = some next)
    (session : Session) :
    Identified (state.sessions session) (next.sessions session) session
      action := by
  cases action with
  | packet owner packet tick =>
      simp only [step] at stepped
      split at stepped
      · exact handlePacket_identified stepped session
      · cases stepped
  | handle owner =>
      obtain ⟨phase, _, rfl⟩ := Option.map_eq_some_iff.mp stepped
      exact .other (by simp) (advanceHandler_sameIdentity owner session phase)
  | disconnect owner =>
      simp only [step] at stepped
      split at stepped
      · split at stepped <;> cases stepped <;>
          exact .other (by simp) (setDisconnecting_sameIdentity state owner _ _)
      · cases stepped
  | onDisconnected owner =>
      exact .other (by simp) (advanceDisconnect_sameIdentity stepped)
  | start room =>
      simp only [step] at stepped
      split at stepped
      · cases stepped
        exact .other (by simp) ⟨rfl, rfl⟩
      · cases stepped
  | execute room =>
      obtain ⟨⟨owner, phase⟩, _, rfl⟩ := Option.map_eq_some_iff.mp stepped
      exact .other (by simp) (advanceJob_sameIdentity room owner session phase)

end Identity

/-- `IsAuthenticated` says whether a `C_LOGIN` was handled. -/
theorem run_authenticated_iff {state final : ChatServer Session}
    {actions : List (ChatAction Session)}
    (replayed : (machine Session).run state actions = some final)
    (session : Session) :
    (final.sessions session).authenticated = true ↔
      (state.sessions session).authenticated = true ∨
        ∃ packet, ⟨.cLogin, packet⟩ ∈ packetsFrom session actions := by
  simp only [mem_packetsFrom_iff]
  induction actions generalizing state with
  | nil =>
      cases replayed
      simp
  | cons action rest induction =>
      simp only [Machine.run, Option.bind_eq_some_iff] at replayed
      obtain ⟨next, stepped, restReplayed⟩ := replayed
      rw [induction restReplayed]
      cases step_identified stepped session with
      | @login packet tick loggedIn =>
          apply iff_of_true (Or.inl loggedIn)
          exact Or.inr ⟨packet, tick, List.mem_cons_self ..⟩
      | other notLogin same =>
          rw [same.2]
          simp only [List.mem_cons, Ne.symm (notLogin _ _), false_or]

/-- What holds of a session that has not logged in. -/
structure BeforeLogin (state : ChatServer Session) (session : Session)
    (packets : List Packet) : Prop where
  unnamed : (state.sessions session).playerName = []
  within : (state.view session).Within (enteredRooms packets)
  utters : (state.view session).Utters packets
  outputs : ∀ output ∈ state.outputs, output.Asked session packets

theorem initial_beforeLogin (session : Session) (packets : List Packet) :
    BeforeLogin initial session packets where
  unnamed := rfl
  within :=
    { room := nofun
      handler := nofun
      disconnecting := nofun
      rooms := by
        intro room
        rw [initial_view_rooms]
        exact ⟨nofun, nofun, nofun⟩ }
  utters :=
    { handler := nofun
      rooms := by
        intro room
        rw [initial_view_rooms]
        exact ⟨nofun, nofun⟩ }
  outputs := nofun

section BeforeLogin

variable {state next : ChatServer Session} {action : ChatAction Session}
  {session : Session} {packets : List Packet}

/-- A room that is asked for is one of those the packets name. -/
theorem event_entered {targetRoom : RoomId}
    (asked : ∀ packet tick, action = .packet session packet tick →
      packet ∈ packets)
    (receives : state.event session action = .receiveEnter targetRoom) :
    targetRoom ∈ enteredRooms packets := by
  cases action with
  | packet owner packet tick =>
      rw [event] at receives
      split at receives
      · rename_i own
        subst own
        obtain ⟨id, fields⟩ := packet
        cases id with
        | cEnterRoom =>
            obtain rfl := SessionEvent.receiveEnter.inj receives
            exact mem_enteredRooms (asked _ _ rfl)
        | _ => cases receives
      · cases receives
  | handle owner =>
      rw [event] at receives
      split at receives
      · split at receives <;> cases receives
      · cases receives
  | disconnect owner =>
      rw [event] at receives
      split at receives <;> cases receives
  | _ => cases receives

/-- A room with a job of the session is one it asked for. -/
theorem BeforeLogin.runs (before : BeforeLogin state session packets)
    {room : RoomId} {phase : JobPhase}
    (running : (state.rooms room).running = some (session, phase)) :
    ((state.view session).rooms room).running = some phase ∧
      room ∈ enteredRooms packets := by
  have viewed : ((state.view session).rooms room).running = some phase := by
    change runningFor session (state.rooms room).running = some phase
    rw [running, runningFor_self]
  exact ⟨viewed, ((before.within.rooms room).running phase viewed).1⟩

theorem BeforeLogin.built (before : BeforeLogin state session packets)
    (asked : ∀ packet tick, action = .packet session packet tick →
      packet ∈ packets)
    {output : Output Session} (built : Built state action output) :
    output.Asked session packets := by
  cases built with
  | reply => trivial
  | globalChat owner packet tick =>
      intro own
      subst own
      refine ⟨packet, asked _ _ rfl, ?_⟩
      rw [globalPkt, before.unnamed]
  | @noticeJoined room owner running =>
      intro own
      subst own
      refine ⟨(before.runs running).2, ?_⟩
      rw [noticePkt, before.unnamed]
      exact .joined
  | @noticeLeft room owner targetRoom running =>
      intro own
      subst own
      refine ⟨(before.runs running).2, ?_⟩
      rw [noticePkt, before.unnamed]
      exact .left
  | @chat room owner message running =>
      intro own
      subst own
      obtain ⟨viewed, entered⟩ := before.runs running
      refine ⟨entered, ?_⟩
      rw [chatPkt, before.unnamed]
      exact .chat ((before.utters.rooms room).running message viewed)

theorem step_seen_utters (utters : (state.view session).Utters packets)
    (asked : ∀ packet tick, action = .packet session packet tick →
      packet ∈ packets)
    (stepped : state.step action = some next) :
    (next.view session).Utters packets := by
  cases step_seen stepped session with
  | packet idle seen =>
      rw [seen]
      exact SessionView.receive_utters utters (asked _ _ rfl)
  | handle running seen =>
      rw [seen]
      exact SessionView.advance_utters utters running
  | disconnect viewed => exact SessionView.disconnect_utters utters viewed
  | job _ viewed => exact SessionView.step_utters utters viewed

theorem step_beforeLogin (before : BeforeLogin state session packets)
    (asked : ∀ packet tick, action = .packet session packet tick →
      packet ∈ packets)
    (noLogin : ∀ packet, ⟨.cLogin, packet⟩ ∉ packets)
    (stepped : state.step action = some next) :
    BeforeLogin next session packets where
  unnamed := by
    cases step_identified stepped session with
    | @login packet tick loggedIn =>
        exact absurd (asked _ _ rfl) (noLogin packet)
    | other notLogin same => exact same.1.trans before.unnamed
  within :=
    SessionView.step_within before.within (fun _ => event_entered asked)
      (step_view stepped session)
  utters := step_seen_utters before.utters asked stepped
  outputs := by
    intro output member
    rcases (step_emits stepped).outputs output member with old | new
    · exact before.outputs output old
    · exact before.built asked new

end BeforeLogin

/-- Before its login a session is only in rooms that it asked to enter, and
what is broadcast on its behalf is anonymous and answers one of its packets. -/
theorem run_onlyAsked {actions : List (ChatAction Session)}
    {state : ChatServer Session} {session : Session}
    (replayed : (machine Session).run initial actions = some state)
    (notYet : (state.sessions session).authenticated = false) :
    (∀ room, session ∈ (state.rooms room).members →
      room ∈ enteredRooms (packetsFrom session actions)) ∧
      ∀ output ∈ state.outputs,
        output.Asked session (packetsFrom session actions) := by
  have noLogin : ∀ packet,
      ⟨.cLogin, packet⟩ ∉ packetsFrom session actions := by
    intro packet member
    have loggedIn := (run_authenticated_iff replayed session).mpr
      (Or.inr ⟨packet, member⟩)
    rw [notYet] at loggedIn
    cases loggedIn
  have before : BeforeLogin state session (packetsFrom session actions) := by
    apply Machine.run_invariant_of_mem _ _ (List.Subset.refl actions) replayed
    · intro state action next before member stepped
      refine step_beforeLogin before ?_ noLogin stepped
      rintro packet tick rfl
      exact mem_packetsFrom_iff.mpr ⟨tick, member⟩
    · exact initial_beforeLogin session _
  constructor
  · intro room member
    exact (before.within.rooms room).member (decide_eq_true member)
  · exact before.outputs

/-- A client that never logs in enters room 1, chats there and chats
globally. -/
def chatWithoutLogin : List (ChatAction Unit) :=
  [.packet () ⟨.cEnterRoom, { roomId := 1, roomName := [] }⟩ 0,
    .handle (),
    .handle (),
    .start 1,
    .execute 1,
    .execute 1,
    .execute 1,
    .execute 1,
    .packet () ⟨.cRoomChat, { message := literal "hello" }⟩ 0,
    .handle (),
    .start 1,
    .execute 1,
    .packet () ⟨.cGlobalChat, { message := literal "all" }⟩ 0]

theorem run_onlyAsked_chat :
    ∃ state, (machine Unit).run initial chatWithoutLogin = some state ∧
      (state.sessions ()).authenticated = false ∧
      (∀ room, () ∈ (state.rooms room).members →
        room ∈ enteredRooms (packetsFrom () chatWithoutLogin)) ∧
      ∀ output ∈ state.outputs,
        output.Asked () (packetsFrom () chatWithoutLogin) := by
  obtain ⟨state, replayed⟩ :
      ∃ state, (machine Unit).run initial chatWithoutLogin = some state :=
    Option.isSome_iff_exists.mp rfl
  have notYet : (state.sessions ()).authenticated = false := by
    apply Machine.view_of_run replayed
    rfl
  exact ⟨state, replayed, notYet, run_onlyAsked replayed notYet⟩

/-- All three broadcasts are made for it, and it is a member of the room. -/
theorem chatWithoutLogin_speaks :
    ∃ state, (machine Unit).run initial chatWithoutLogin = some state ∧
      (state.sessions ()).authenticated = false ∧
      () ∈ (state.rooms 1).members ∧
      (∃ members,
        .roomBroadcast 1 () members
          ⟨.sNotice, { message := literal "[] joined the room." }⟩ ∈
            state.outputs) ∧
      (∃ members,
        .roomBroadcast 1 () members
          ⟨.sRoomChat, { senderName := [], message := literal "hello" }⟩ ∈
            state.outputs) ∧
      .serviceBroadcast ()
        ⟨.sGlobalChat, { senderName := [], message := literal "all" }⟩ ∈
          state.outputs := by
  obtain ⟨state, replayed⟩ :
      ∃ state, (machine Unit).run initial chatWithoutLogin = some state :=
    Option.isSome_iff_exists.mp rfl
  have notYet : (state.sessions ()).authenticated = false := by
    apply Machine.view_of_run replayed
    rfl
  have inside : (state.rooms 1).members = [()] := by
    apply Machine.view_of_run replayed
    rfl
  have built : state.outputs.drop 1 =
      [.roomBroadcast 1 () [()]
          ⟨.sNotice, { message := literal "[] joined the room." }⟩,
        .roomBroadcast 1 () [()]
          ⟨.sRoomChat, { senderName := [], message := literal "hello" }⟩,
        .serviceBroadcast ()
          ⟨.sGlobalChat, { senderName := [], message := literal "all" }⟩] := by
    apply Machine.view_of_run replayed
    rfl
  have outputs : ∀ output ∈ state.outputs.drop 1, output ∈ state.outputs :=
    fun output => List.mem_of_mem_drop
  rw [built] at outputs
  refine ⟨state, replayed, notYet, ?_, ⟨[()], ?_⟩, ⟨[()], ?_⟩, ?_⟩
  · rw [inside]
    exact List.mem_singleton_self ()
  · apply outputs
    exact List.mem_cons_self ..
  · apply outputs
    exact List.mem_cons_of_mem _ (List.mem_cons_self ..)
  · apply outputs
    exact List.mem_cons_of_mem _ (List.mem_cons_of_mem _
      (List.mem_cons_self ..))

end ChatServer

end IocpChat
