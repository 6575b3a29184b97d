import Mathlib.Algebra.Order.BigOperators.Group.List
import Mathlib.Data.List.Forall2
import IocpChat.ChatClient.ClientView
import IocpChat.ChatServer.BeforeLogin

/-!
# Client and server agree

What a step of the server sends to a session, its client handles.  Over a whole
run the client keeps its name, its room and the labels of the lines it shows,
as long as the session asks in turn and the answers fit in a packet.
-/

namespace IocpChat

open Protocol TransitionSystem

/-- The room message is sent and reaches this session. -/
def Output.heard {Session : Type} [DecidableEq Session] (session : Session) :
    Output Session → Bool
  | .roomBroadcast _ _ members ⟨.sRoomChat, packet⟩ =>
      Packet.sent ⟨.sRoomChat, packet⟩ && decide (session ∈ members)
  | _ => false

/-- The line shows the message, and in which room it was said; what the session
said itself is marked. -/
inductive ChatLine.Shows {Session : Type} (session : Session) :
    ChatLine → Output Session → Prop where
  | chat {isMe : Bool} {room : RoomId} {owner : Session}
      {members : List Session} {packet : SRoomChat} :
      (owner = session → isMe = true) →
      Shows session
        { isMe := isMe
          roomId := room
          senderName := packet.senderName
          message := packet.message }
        (.roomBroadcast room owner members ⟨.sRoomChat, packet⟩)

def ChatAction.asksForRoom {Session : Type} : ChatAction Session → Bool
  | packet _ asked _ => asked.asksForRoom
  | _ => false

/-- The session that logs in, and its name. -/
def ChatAction.loginName {Session : Type} :
    ChatAction Session → Option (Session × StdString)
  | packet session ⟨.cLogin, login⟩ _ => some (session, login.name)
  | _ => none

/-- The room that executes a phase of its job. -/
def ChatAction.executes {Session : Type} : ChatAction Session → Option RoomId
  | execute room => some room
  | _ => none

namespace ChatServer

variable {Session : Type} [DecidableEq Session]

/-- The client of the session, once it has handled what it was sent. -/
def client (state : ChatServer Session) (session : Session) : ChatClient :=
  .after session state.outputs

/-- The room messages that reached the session. -/
def heardBy (state : ChatServer Session) (session : Session) :
    List (Output Session) :=
  state.outputs.filter (Output.heard session)

/-- A `C_ENTER_ROOM` or `C_LEAVE_ROOM` of the session comes when the ones before
it have been answered. -/
def AsksInTurn (session : Session) (state : ChatServer Session) :
    ChatAction Session → Prop
  | .packet owner packet _ =>
      owner = session → packet.asksForRoom = true →
        (state.view session).Answered
  | _ => True

/-- The answers to the session's `C_LOGIN` and `C_ENTER_ROOM` fit in the 4096
bytes of `MakeSendBuffer`. -/
def AnswersFit (session : Session) (state : ChatServer Session)
    (action : ChatAction Session) : Prop :=
  (∀ login ∈ action.loginName, login.1 = session → login.2.length ≤ 4034) ∧
    ∀ room ∈ action.executes,
      (state.rooms room).running = some (session, .replyEnter) →
        13 + (state.rooms room).roomName.length +
          ((state.rooms room).members.map fun member =>
            2 + (state.sessions member).playerName.length).sum ≤ 4096

instance (session : Session) (state : ChatServer Session)
    (action : ChatAction Session) :
    Decidable (AnswersFit session state action) :=
  @instDecidableAnd _ _ (Option.decidableForallMem action.loginName)
    (Option.decidableForallMem action.executes)

/-- What the session may ask for, and when. -/
def Asks (session : Session) (state : ChatServer Session)
    (action : ChatAction Session) : Prop :=
  AsksInTurn session state action ∧ AnswersFit session state action

structure ClientAgrees (state : ChatServer Session) (session : Session) :
    Prop where
  login : (state.client session).session.isLoggedIn =
    (state.sessions session).authenticated
  name : (state.client session).session.playerName =
    (state.sessions session).playerName
  room : (state.view session).Answered →
    (state.client session).session.currentRoomId =
      (state.sessions session).room.getD 0
  member : (state.view session).Answered →
    ∀ room, session ∈ (state.rooms room).members ↔
      (state.sessions session).room = some room
  chatLines : List.Forall₂ (ChatLine.Shows session)
    (state.client session).chatLines
    (state.heardBy session)

/-- What a step brings to the client of a session. -/
inductive Brings (state next : ChatServer Session) (session : Session)
    (client : ChatClient) : ChatAction Session → ChatClient → Prop where
  | login {packet : CLogin} {tick playerId : UInt64} :
      next.sessions session =
        (state.sessions session).setPlayerInfo playerId packet.name →
      next.heardBy session = state.heardBy session →
      Brings state next session client
        (.packet session ⟨.cLogin, packet⟩ tick)
        { client with
          session := (client.session.setLoggedIn true).setPlayerName
            packet.name }
  | enterRoom {room : RoomId} :
      (state.rooms room).running = some (session, .replyEnter) →
      next.heardBy session = state.heardBy session →
      Brings state next session client (.execute room)
        { client with session := client.session.setCurrentRoomId room }
  | leaveRoom {room : RoomId} {targetRoom : Option RoomId} :
      (state.rooms room).running = some (session, .replyLeave targetRoom) →
      next.heardBy session = state.heardBy session →
      Brings state next session client (.execute room)
        { client with session := client.session.setCurrentRoomId 0 }
  | chat {room : RoomId} {owner : Session} {message : StdString} :
      (state.rooms room).running = some (owner, .broadcastChat message) →
      session ∈ (state.rooms room).members →
      next.heardBy session = state.heardBy session ++
        [.roomBroadcast room owner (state.rooms room).members
          (state.chatPkt owner message)] →
      Brings state next session client (.execute room)
        (client.handleRoomChat
          { senderName := (state.sessions owner).playerName
            message := message })
  | nothing {action : ChatAction Session} :
      (∀ packet tick, action ≠ .packet session ⟨.cLogin, packet⟩ tick) →
      (∀ room phase current, action = .execute room →
        (state.rooms room).running = some (session, phase) →
        SessionView.roomShown room current phase = current) →
      next.heardBy session = state.heardBy session →
      Brings state next session client action client

section Step

variable {state next : ChatServer Session} {action : ChatAction Session}
  {session : Session}

theorem Brings.silent (same : next.outputs = state.outputs)
    (notLogin : ∀ packet tick,
      action ≠ .packet session ⟨.cLogin, packet⟩ tick)
    (elsewhere : ∀ room phase current, action = .execute room →
      (state.rooms room).running = some (session, phase) →
      SessionView.roomShown room current phase = current) :
    Brings state next session (state.client session) action
      (next.client session) := by
  have client : next.client session = state.client session := by
    rw [ChatServer.client, same]
    rfl
  rw [client]
  apply Brings.nothing notLogin elsewhere
  rw [heardBy, same]
  rfl

theorem client_append {output : Output Session}
    (added : next.outputs = state.outputs ++ [output]) :
    next.client session = (state.client session).receive session output := by
  rw [client, added, ChatClient.after_append]
  rfl

theorem heardBy_append {output : Output Session}
    (added : next.outputs = state.outputs ++ [output]) :
    next.heardBy session =
      state.heardBy session ++ [output].filter (Output.heard session) := by
  rw [heardBy, added, List.filter_append]
  rfl

/-- The client does nothing with what is sent. -/
theorem Brings.quiet {output : Output Session}
    (added : next.outputs = state.outputs ++ [output])
    (ignores : ∀ client : ChatClient, client.receive session output = client)
    (notHeard : output.heard session = false)
    (notLogin : ∀ packet tick,
      action ≠ .packet session ⟨.cLogin, packet⟩ tick)
    (elsewhere : ∀ room phase current, action = .execute room →
      (state.rooms room).running = some (session, phase) →
      SessionView.roomShown room current phase = current) :
    Brings state next session (state.client session) action
      (next.client session) := by
  rw [client_append added, ignores]
  apply Brings.nothing notLogin elsewhere
  rw [heardBy_append added, List.filter_cons_of_neg (by simp [notHeard]),
    List.filter_nil, List.append_nil]

theorem receive_of_reaches {output : Output Session}
    (sent : output.packet.sent = true)
    (reaches : output.reaches session = true) (client : ChatClient) :
    client.receive session output = client.handlePacket output.packet := by
  rw [ChatClient.receive, Output.packetFor, sent, reaches]
  rfl

theorem receive_elsewhere {output : Output Session}
    (elsewhere : output.reaches session = false) (client : ChatClient) :
    client.receive session output = client := by
  rw [ChatClient.receive, Output.packetFor, elsewhere, Bool.and_false]
  rfl

theorem receive_refused {output : Output Session}
    (refused : output.packet.sent = false) (client : ChatClient) :
    client.receive session output = client := by
  rw [ChatClient.receive, Output.packetFor, refused, Bool.false_and]
  rfl

theorem receive_send_other {owner : Session} {packet : Packet}
    (different : owner ≠ session) (client : ChatClient) :
    client.receive session (.send owner packet) = client := by
  apply receive_elsewhere
  exact decide_eq_false different

theorem receive_send_self {packet : Packet} (sent : packet.sent = true)
    (client : ChatClient) :
    client.receive session (.send session packet) =
      client.handlePacket packet := by
  apply receive_of_reaches
  · exact sent
  · exact decide_eq_true rfl

/-- A packet that the client only prints. -/
theorem receive_printed {output : Output Session}
    (prints : ∀ client : ChatClient,
      client.handlePacket output.packet = client)
    (client : ChatClient) : client.receive session output = client := by
  cases sent : output.packet.sent with
  | false => exact receive_refused sent client
  | true =>
      cases reaches : output.reaches session with
      | false => exact receive_elsewhere reaches client
      | true => rw [receive_of_reaches sent reaches, prints]

theorem textSize_le (text : StdString) :
    PacketId.textSize text ≤ 2 + text.length := by
  rw [PacketId.textSize]
  have small := Nat.mod_le text.length (2 ^ 16)
  omega

theorem loginRes_sent {packet : CLogin} (playerId : UInt64)
    (fits : packet.name.length ≤ 4034) :
    (loginRes playerId packet).sent = true := by
  have small := textSize_le packet.name
  apply decide_eq_true
  change 13 + PacketId.textSize packet.name + (2 + 45 % 2 ^ 16) ≤ 4096
  omega

omit [DecidableEq Session] in
theorem enterRes_sent {room : RoomId}
    (fits : 13 + (state.rooms room).roomName.length +
      ((state.rooms room).members.map fun member =>
        2 + (state.sessions member).playerName.length).sum ≤ 4096) :
    (state.enterRes room).sent = true := by
  have name := textSize_le (state.rooms room).roomName
  have members : ((state.rooms room).members.map fun member =>
      PacketId.textSize (state.sessions member).playerName).sum ≤
        ((state.rooms room).members.map fun member =>
          2 + (state.sessions member).playerName.length).sum :=
    List.sum_le_sum fun member _ => textSize_le _
  apply decide_eq_true
  change 11 + PacketId.textSize (state.rooms room).roomName +
    (((state.rooms room).members.map _).map _).sum ≤ 4096
  rw [List.map_map]
  change _ + ((state.rooms room).members.map fun member =>
    PacketId.textSize (state.sessions member).playerName).sum ≤ 4096
  omega

theorem handlePacket_brings {owner : Session} {packet : Packet}
    {tick : UInt64}
    (fits : AnswersFit session state (.packet owner packet tick))
    (handled : state.handlePacket owner tick packet = some next) :
    Brings state next session (state.client session)
      (.packet owner packet tick) (next.client session) := by
  obtain ⟨id, fields⟩ := packet
  cases id with
  | cLogin =>
      cases handled
      by_cases own : owner = session
      · subst own
        have added : (state.handleLogin owner fields).outputs =
            state.outputs ++ [.send owner (loginRes state.nextPlayerId fields)]
            := rfl
        rw [client_append added,
          receive_send_self (loginRes_sent _ (fits.1 _ rfl rfl))]
        apply @Brings.login _ _ _ _ _ _ _ _ state.nextPlayerId
        · simp [handleLogin, setSession, emit]
        · rw [heardBy_append added]
          exact List.append_nil _
      · apply Brings.quiet rfl (receive_send_other own) rfl
        · intro _ _ same
          cases same
          exact own rfl
        · simp
  | cHeartbeat =>
      cases handled
      exact .quiet rfl (receive_printed fun _ => rfl) rfl (by simp) (by simp)
  | cRoomList =>
      cases handled
      exact .quiet rfl (receive_printed fun _ => rfl) rfl (by simp) (by simp)
  | cEnterRoom =>
      cases handled
      exact .silent (getOrCreateRoom_outputs state _ _) (by simp) (by simp)
  | cLeaveRoom =>
      cases handled
      exact .silent (requestJob_outputs state _ _) (by simp) (by simp)
  | cRoomChat =>
      cases handled
      exact .silent (requestJob_outputs state _ _) (by simp) (by simp)
  | cGlobalChat =>
      cases handled
      exact .quiet rfl (receive_printed fun _ => rfl) rfl (by simp) (by simp)
  | _ => cases handled

omit [DecidableEq Session] in
/-- A phase of another session, or one that the client is not told of. -/
theorem elsewhere_of_running {room : RoomId} {owner : Session}
    {phase : JobPhase}
    (running : (state.rooms room).running = some (owner, phase))
    (untold : owner = session → ∀ current,
      SessionView.roomShown room current phase = current)
    (there : RoomId) (other : JobPhase) (current : RoomId)
    (same : (.execute room : ChatAction Session) = .execute there)
    (own : (state.rooms there).running = some (session, other)) :
    SessionView.roomShown there current other = current := by
  cases same
  cases running.symm.trans own
  exact untold rfl current

theorem advanceJob_brings {room : RoomId} {owner : Session} {phase : JobPhase}
    (fits : AnswersFit session state (.execute room))
    (running : (state.rooms room).running = some (owner, phase)) :
    Brings state (state.advanceJob room owner phase) session
      (state.client session) (.execute room)
      ((state.advanceJob room owner phase).client session) := by
  have untold := @elsewhere_of_running _ state session _ _ _ running
  cases phase with
  | insertMember => exact .silent rfl (by simp) (untold fun _ _ => rfl)
  | setRoom => exact .silent rfl (by simp) (untold fun _ _ => rfl)
  | replyEnter =>
      by_cases own : owner = session
      · subst own
        have added : (state.advanceJob room owner .replyEnter).outputs =
            state.outputs ++ [.send owner (state.enterRes room)] := rfl
        rw [client_append added,
          receive_send_self (enterRes_sent (fits.2 room rfl running))]
        apply Brings.enterRoom running
        rw [heardBy_append added]
        exact List.append_nil _
      · exact .quiet rfl (receive_send_other own) rfl (by simp)
          (untold fun same => absurd same own)
  | noticeJoined =>
      exact .quiet rfl (receive_printed fun _ => rfl) rfl (by simp)
        (untold fun _ _ => rfl)
  | eraseMember targetRoom =>
      exact .silent rfl (by simp) (untold fun _ _ => rfl)
  | readRoom targetRoom =>
      have same : (state.advanceJob room owner
          (.readRoom targetRoom)).outputs = state.outputs := by
        rw [advanceJob]
        split <;> rfl
      exact .silent same (by simp) (untold fun _ _ => rfl)
  | clearRoom targetRoom =>
      exact .silent rfl (by simp) (untold fun _ _ => rfl)
  | replyLeave targetRoom =>
      by_cases own : owner = session
      · subst own
        have added : (state.advanceJob room owner
            (.replyLeave targetRoom)).outputs =
            state.outputs ++ [.send owner leaveRes] := rfl
        rw [client_append added, receive_send_self rfl]
        apply Brings.leaveRoom running
        rw [heardBy_append added]
        exact List.append_nil _
      · exact .quiet rfl (receive_send_other own) rfl (by simp)
          (untold fun same => absurd same own)
  | noticeLeft targetRoom =>
      exact .quiet rfl (receive_printed fun _ => rfl) rfl (by simp)
        (untold fun _ _ => rfl)
  | pushEnter targetRoom =>
      exact .silent rfl (by simp) (untold fun _ _ => rfl)
  | broadcastChat message =>
      have added : (state.advanceJob room owner
          (.broadcastChat message)).outputs = state.outputs ++
          [.roomBroadcast room owner (state.rooms room).members
            (state.chatPkt owner message)] := rfl
      have notLogin : ∀ packet tick, (.execute room : ChatAction Session) ≠
          .packet session ⟨.cLogin, packet⟩ tick := by simp
      by_cases inside : session ∈ (state.rooms room).members
      · cases sent : (state.chatPkt owner message).sent with
        | true =>
            have received := @receive_of_reaches _ _ session
              (.roomBroadcast room owner (state.rooms room).members
                (state.chatPkt owner message)) sent (decide_eq_true inside)
            rw [client_append added, received]
            apply Brings.chat running inside
            rw [heardBy_append added, List.filter_cons_of_pos]
            · rfl
            · exact Bool.and_eq_true_iff.mpr ⟨sent, decide_eq_true inside⟩
        | false =>
            apply Brings.quiet added (receive_refused sent) _ notLogin
            · exact untold fun _ _ => rfl
            · exact Bool.and_eq_false_iff.mpr (Or.inl sent)
      · apply Brings.quiet added _ _ notLogin
        · exact untold fun _ _ => rfl
        · exact receive_elsewhere (decide_eq_false inside)
        · exact Bool.and_eq_false_iff.mpr (Or.inr (decide_eq_false inside))

theorem advanceHandler_outputs {owner : Session} {phase : HandlerPhase} :
    (state.advanceHandler owner phase).outputs = state.outputs := by
  cases phase with
  | push room job => rfl
  | readRoom targetRoom =>
      simp only [advanceHandler]
      split
      · split <;> rfl
      · rfl

theorem advanceDisconnect_outputs {owner : Session} {phase : DisconnectPhase}
    (advanced : state.advanceDisconnect owner phase = some next) :
    next.outputs = state.outputs := by
  cases phase with
  | pushLeave room =>
      cases advanced
      rfl
  | clearRoom =>
      cases advanced
      rfl
  | _ => cases advanced

theorem step_brings (fits : AnswersFit session state action)
    (stepped : state.step action = some next) :
    Brings state next session (state.client session) action
      (next.client session) := by
  cases action with
  | packet owner packet tick =>
      simp only [step] at stepped
      split at stepped
      · exact handlePacket_brings fits stepped
      · cases stepped
  | handle owner =>
      obtain ⟨phase, _, rfl⟩ := Option.map_eq_some_iff.mp stepped
      exact .silent advanceHandler_outputs (by simp) (by simp)
  | disconnect owner =>
      simp only [step] at stepped
      split at stepped
      · split at stepped <;> cases stepped <;>
          exact .silent rfl (by simp) (by simp)
      · cases stepped
  | onDisconnected owner =>
      exact .silent (advanceDisconnect_outputs stepped) (by simp) (by simp)
  | start room =>
      simp only [step] at stepped
      split at stepped
      · cases stepped
        exact .silent rfl (by simp) (by simp)
      · cases stepped
  | execute room =>
      obtain ⟨⟨owner, phase⟩, running, rfl⟩ :=
        Option.map_eq_some_iff.mp stepped
      exact advanceJob_brings fits running

theorem Brings.roomShown {client after : ChatClient} {room : RoomId}
    {phase : JobPhase}
    (brings : Brings state next session client (.execute room) after)
    (running : (state.rooms room).running = some (session, phase)) :
    after.session.currentRoomId =
      SessionView.roomShown room client.session.currentRoomId phase := by
  cases brings with
  | enterRoom replies =>
      cases replies.symm.trans running
      rfl
  | leaveRoom replies =>
      cases replies.symm.trans running
      rfl
  | chat speaks _ _ =>
      cases speaks.symm.trans running
      rfl
  | nothing _ untold _ => exact (untold room phase _ rfl running).symm

theorem Brings.roomKept {client after : ChatClient}
    (brings : Brings state next session client action after)
    (elsewhere : ∀ room phase, action = .execute room →
      (state.rooms room).running ≠ some (session, phase)) :
    after.session.currentRoomId = client.session.currentRoomId := by
  cases brings with
  | enterRoom replies => exact absurd replies (elsewhere _ _ rfl)
  | leaveRoom replies => exact absurd replies (elsewhere _ _ rfl)
  | _ => rfl

theorem view_advanceJob (state : ChatServer Session) (session : Session)
    (room : RoomId) (phase : JobPhase) :
    (state.advanceJob room session phase).view session =
      (state.view session).work room phase := by
  cases phase with
  | insertMember =>
      rw [advanceJob, view_setRoom, Room.view_run,
        Room.view_insertMember_self, runningFor_self]
      rfl
  | setRoom =>
      rw [advanceJob, view_run, view_setSessionRoom_self, runningFor_self]
      rfl
  | replyEnter =>
      rw [advanceJob, view_run, view_emit, runningFor_self]
      rfl
  | noticeJoined =>
      rw [advanceJob, view_run, broadcast, view_emit, runningFor_none]
      rfl
  | eraseMember targetRoom =>
      rw [advanceJob, view_setRoom, Room.view_run, Room.view_eraseMember_self,
        runningFor_self]
      rfl
  | readRoom targetRoom =>
      have here : (state.view session).room = (state.sessions session).room :=
        rfl
      rw [advanceJob, SessionView.work, here]
      split <;> rw [view_run, runningFor_self]
  | clearRoom targetRoom =>
      rw [advanceJob, view_run, view_setSessionRoom_self, runningFor_self]
      rfl
  | replyLeave targetRoom =>
      rw [advanceJob, view_run, view_emit, runningFor_self]
      rfl
  | noticeLeft targetRoom =>
      have after : runningFor session
          (targetRoom.map fun target => (session, .pushEnter target)) =
          targetRoom.map .pushEnter := by
        cases targetRoom with
        | none => rfl
        | some target => exact runningFor_self session _
      rw [advanceJob, view_run, broadcast, view_emit, after]
      rfl
  | pushEnter targetRoom =>
      rw [advanceJob, view_pushJob_self, view_run, runningFor_none]
      rfl
  | broadcastChat message =>
      rw [advanceJob, view_run, broadcast, view_emit, runningFor_none]
      rfl

/-- A session that `OnDisconnected` is called for, or works for, is not
connected afterwards. -/
theorem not_connected {phase : DisconnectPhase} (left : phase ≠ .connected) :
    ((state.setDisconnecting session phase).sessions
      session).disconnecting ≠ .connected := by
  have after : ((state.setDisconnecting session phase).sessions
      session).disconnecting = phase :=
    congrArg SessionView.disconnecting
      (view_setDisconnecting_self state session phase)
  rw [after]
  exact left

theorem disconnect_view (stepped : state.step action = some next)
    {owner : Session} (disconnects : action = .disconnect owner ∨
      action = .onDisconnected owner)
    (connected : (next.sessions session).disconnecting = .connected) :
    next.view session = state.view session := by
  rcases disconnects with rfl | rfl
  · simp only [step] at stepped
    split at stepped
    · by_cases own : owner = session
      · subst own
        split at stepped <;> cases stepped <;>
          exact absurd connected (not_connected (by simp))
      · split at stepped <;> cases stepped <;>
          exact view_setSession_other state own _
    · cases stepped
  · by_cases own : owner = session
    · subst own
      simp only [step] at stepped
      cases at_ : (state.sessions owner).disconnecting with
      | pushLeave room =>
          rw [at_] at stepped
          cases stepped
          exact absurd connected (not_connected (by simp))
      | clearRoom =>
          rw [at_] at stepped
          cases stepped
          exact absurd connected (not_connected (by simp))
      | _ =>
          rw [at_] at stepped
          cases stepped
    · exact advanceDisconnect_other own stepped

/-- The job of another session that a room takes is not in the view. -/
theorem view_start_other {room : RoomId} {owner : Session} {job : RoomJob}
    {rest : List (Session × RoomJob)} (different : owner ≠ session)
    (free : (state.rooms room).running = none)
    (queued : (state.rooms room).jobs = (owner, job) :: rest) :
    (state.setRoom room
      { state.rooms room with
        jobs := rest
        running := some (owner, job.firstPhase) }).view session =
      state.view session := by
  rw [view_setRoom, Room.view_start_other different free queued]
  exact congrArg _ (Function.update_eq_self room (state.view session).rooms)

theorem step_turn (stepped : state.step action = some next)
    (turn : (state.view session).Turn
      (state.client session).session.currentRoomId)
    (connected : (next.sessions session).disconnecting = .connected)
    (asks : Asks session state action) :
    (next.view session).Turn
      (next.client session).session.currentRoomId := by
  obtain ⟨inTurn, fits⟩ := asks
  have brings : Brings state next session (state.client session) action
      (next.client session) := step_brings fits stepped
  cases action with
  | packet owner packet tick =>
      rw [brings.roomKept (by simp)]
      simp only [step] at stepped
      split at stepped
      · rename_i idle
        by_cases own : owner = session
        · subst own
          rw [view_handlePacket stepped]
          exact SessionView.receive_turn turn idle (inTurn rfl)
        · rw [handlePacket_other own stepped]
          exact turn
      · cases stepped
  | handle owner =>
      rw [brings.roomKept (by simp)]
      obtain ⟨phase, at_, rfl⟩ := Option.map_eq_some_iff.mp stepped
      by_cases own : owner = session
      · subst own
        rw [view_advanceHandler]
        exact SessionView.advance_turn turn at_
      · rw [advanceHandler_other own]
        exact turn
  | disconnect owner =>
      rw [brings.roomKept (by simp),
        disconnect_view stepped (Or.inl rfl) connected]
      exact turn
  | onDisconnected owner =>
      rw [brings.roomKept (by simp),
        disconnect_view stepped (Or.inr rfl) connected]
      exact turn
  | start room =>
      rw [brings.roomKept (by simp)]
      simp only [step] at stepped
      split at stepped
      · rename_i owner job rest free queued
        cases stepped
        by_cases own : owner = session
        · subst own
          rw [view_setRoom, Room.view_start_self]
          apply SessionView.start_turn turn
          · change runningFor owner (state.rooms room).running = none
            rw [free, runningFor_none]
          · change jobsFor owner (state.rooms room).jobs = _
            rw [queued, jobsFor_self]
        · rw [view_start_other own free queued]
          exact turn
      · cases stepped
  | execute room =>
      obtain ⟨⟨owner, phase⟩, running, rfl⟩ :=
        Option.map_eq_some_iff.mp stepped
      by_cases own : owner = session
      · subst own
        rw [brings.roomShown running]
        change SessionView.Turn ((state.advanceJob room owner phase).view
          owner) _
        rw [view_advanceJob]
        apply SessionView.work_turn turn
        change runningFor owner (state.rooms room).running = some phase
        rw [running, runningFor_self]
      · rw [brings.roomKept]
        · change SessionView.Turn ((state.advanceJob room owner phase).view
            session) _
          rw [advanceJob_other own running]
          exact turn
        · intro there other same
          cases same
          rw [running]
          intro impossible
          cases impossible
          exact own rfl

theorem Brings.identity {client after : ChatClient}
    (brings : Brings state next session client action after)
    (identified : Identified (state.sessions session)
      (next.sessions session) session action)
    (login : client.session.isLoggedIn =
      (state.sessions session).authenticated)
    (name : client.session.playerName =
      (state.sessions session).playerName) :
    after.session.isLoggedIn = (next.sessions session).authenticated ∧
      after.session.playerName = (next.sessions session).playerName := by
  have kept : SameIdentity (state.sessions session) (next.sessions session) →
      client.session.isLoggedIn = (next.sessions session).authenticated ∧
        client.session.playerName = (next.sessions session).playerName := by
    intro same
    exact ⟨login.trans same.2.symm, name.trans same.1.symm⟩
  cases brings with
  | login info _ =>
      rw [info]
      exact ⟨rfl, rfl⟩
  | enterRoom _ _ =>
      cases identified with
      | other _ same => exact kept same
  | leaveRoom _ _ =>
      cases identified with
      | other _ same => exact kept same
  | chat _ _ _ =>
      cases identified with
      | other _ same => exact kept same
  | nothing notLogin _ _ =>
      cases identified with
      | login => exact absurd rfl (notLogin _ _)
      | other _ same => exact kept same

theorem Brings.chatLines {client after : ChatClient}
    (brings : Brings state next session client action after)
    (turn : (state.view session).Turn client.session.currentRoomId)
    (name : client.session.playerName =
      (state.sessions session).playerName)
    (chatLines : List.Forall₂ (ChatLine.Shows session) client.chatLines
      (state.heardBy session)) :
    List.Forall₂ (ChatLine.Shows session) after.chatLines
      (next.heardBy session) := by
  cases brings with
  | login _ heard =>
      rw [heard]
      exact chatLines
  | enterRoom _ heard =>
      rw [heard]
      exact chatLines
  | leaveRoom _ heard =>
      rw [heard]
      exact chatLines
  | nothing _ _ heard =>
      rw [heard]
      exact chatLines
  | @chat room owner message running inside heard =>
      have member : ((state.view session).rooms room).member = true :=
        decide_eq_true inside
      have speaks : ((state.view session).rooms room).running = none ∨
          ((state.view session).rooms room).running =
            some (.broadcastChat message) := by
        change runningFor session (state.rooms room).running = _ ∨
          runningFor session (state.rooms room).running = _
        rw [running]
        exact ite_eq_or_eq .. |>.symm
      have label : client.session.currentRoomId = room := by
        apply turn.label member
        · rcases speaks with idle | speaks <;> simp [*]
        · rcases speaks with idle | speaks <;> simp [*]
      rw [heard]
      apply List.rel_append chatLines
      apply List.Forall₂.cons _ .nil
      rw [label]
      apply ChatLine.Shows.chat
      intro own
      subst own
      exact decide_eq_true name

/-- What a run keeps for a session that asks in turn. -/
structure Agreeing (state : ChatServer Session) (session : Session) : Prop where
  login : (state.client session).session.isLoggedIn =
    (state.sessions session).authenticated
  name : (state.client session).session.playerName =
    (state.sessions session).playerName
  turn : (state.view session).Turn
    (state.client session).session.currentRoomId
  chatLines : List.Forall₂ (ChatLine.Shows session)
    (state.client session).chatLines (state.heardBy session)

theorem initial_agreeing (session : Session) :
    Agreeing (initial : ChatServer Session) session where
  login := rfl
  name := rfl
  turn := by
    apply @SessionView.Turn.answered _ _ none
    · intro room
      rw [initial_view_rooms]
      rfl
    · rfl
    · refine ⟨?_, rfl, rfl⟩
      intro room
      rw [initial_view_rooms]
      constructor <;> intro impossible <;> cases impossible
  chatLines := .nil

theorem step_agreeing (agreeing : Agreeing state session)
    (stepped : state.step action = some next)
    (connected : (next.sessions session).disconnecting = .connected)
    (asks : Asks session state action) : Agreeing next session := by
  have brings : Brings state next session (state.client session) action
      (next.client session) := step_brings asks.2 stepped
  obtain ⟨login, name⟩ := brings.identity (step_identified stepped session)
    agreeing.login agreeing.name
  exact
    { login := login
      name := name
      turn := step_turn stepped agreeing.turn connected asks
      chatLines :=
        brings.chatLines agreeing.turn agreeing.name agreeing.chatLines }

theorem Agreeing.agrees (agreeing : Agreeing state session) :
    ClientAgrees state session := by
  have settled : (state.view session).Answered → ∃ room,
      (state.view session).Stands
        (state.client session).session.currentRoomId
        (SessionView.settled room) :=
    agreeing.turn.settled_of_answered
  exact
    { login := agreeing.login
      name := agreeing.name
      room := by
        intro answered
        obtain ⟨room, stands⟩ := settled answered
        have inside : (state.sessions session).room = room := stands.room
        rw [stands.client, inside]
        rfl
      member := by
        intro answered room
        obtain ⟨current, stands⟩ := settled answered
        have inside : (state.sessions session).room = current := stands.room
        have member : decide (session ∈ (state.rooms room).members) = true ↔
            current = some room := stands.member room
        rw [inside, ← member, decide_eq_true_iff]
      chatLines := agreeing.chatLines }

end Step

theorem asksInTurn_of_notAsking {state : ChatServer Session}
    {session : Session} {action : ChatAction Session}
    (notAsking : action.asksForRoom = false) :
    AsksInTurn session state action := by
  cases action with
  | packet owner packet tick =>
      intro _ asks
      rw [ChatAction.asksForRoom, asks] at notAsking
      cases notAsking
  | _ => trivial

/-- Where all jobs are done, an idle handler leaves nothing to answer. -/
theorem answered_of_jobsDone {state : ChatServer Session}
    (done : state.JobsDone) {session : Session}
    (idle : (state.sessions session).handler = none) :
    (state.view session).Answered := by
  constructor
  · intro room
    change JobPhase.running (runningFor session (state.rooms room).running) ++
      (jobsFor session (state.rooms room).jobs).filter RoomJob.moves = []
    rw [(done room).1, (done room).2]
    rfl
  · change HandlerPhase.asks (state.sessions session).handler = false
    rw [idle]
    rfl

/-- A client enters a room and speaks there. -/
def enterAndSay (room : RoomId) (message : String) : List (ChatAction Unit) :=
  [.start room,
    .execute room,
    .execute room,
    .execute room,
    .execute room,
    .packet () ⟨.cRoomChat, { message := literal message }⟩ 0,
    .handle (),
    .start room,
    .execute room]

/-- It has something to leave before. -/
def goAndSay (room : RoomId) (leaving : List (ChatAction Unit))
    (message : String) : List (ChatAction Unit) :=
  .packet () ⟨.cEnterRoom, { roomId := room, roomName := [] }⟩ 0 ::
    .handle () :: .handle () :: (leaving ++ enterAndSay room message)

theorem goAndSay_asksInTurn {state : ChatServer Unit} (done : state.JobsDone)
    (idle : (state.sessions ()).handler = none) {room : RoomId}
    {leaving : List (ChatAction Unit)} {message : String}
    (notAsking : ∀ action ∈ leaving, action.asksForRoom = false) :
    (machine Unit).RunMeets (AsksInTurn ()) state
      (goAndSay room leaving message) := by
  refine ⟨fun _ _ => answered_of_jobsDone done idle, fun next _ => ?_⟩
  apply Machine.RunMeets.of_forall
  intro action member state
  apply asksInTurn_of_notAsking
  revert action
  simp only [List.forall_mem_cons, List.forall_mem_append]
  exact ⟨rfl, rfl, notAsking,
    by simp [enterAndSay, ChatAction.asksForRoom,
      Protocol.Packet.asksForRoom]⟩

/-- What a visit leaves for the next one. -/
theorem goAndSay_done {state : ChatServer Unit}
    (reached : (machine Unit).Reachable state)
    (facts : (state.roomIds, (state.sessions ()).handler,
        state.roomIds.map fun room =>
          ((state.rooms room).jobs, (state.rooms room).running)) =
      ([1, 2, 3], none, [([], none), ([], none), ([], none)])) :
    state.JobsDone ∧ (state.sessions ()).handler = none := by
  simp only [Prod.mk.injEq] at facts
  obtain ⟨ids, idle, rooms⟩ := facts
  refine ⟨?_, idle⟩
  apply jobsDone_of_roomIds reached
  rw [ids] at rooms ⊢
  simpa using rooms

def ada : ChatClient :=
  { session :=
      { playerName := literal "Ada"
        isLoggedIn := true
        currentRoomId := 2 }
    chatLines :=
      [{ isMe := true
         roomId := 1
         senderName := literal "Ada"
         message := literal "one" },
        { isMe := true
          roomId := 2
          senderName := literal "Ada"
          message := literal "two" }] }

def adaLoggedIn : ChatServer Unit :=
  initial.handleLogin () { name := literal "Ada" }

/-- Room 1 works on the `LeaveAndEnter`. -/
def leaveFirst : List (ChatAction Unit) :=
  .start 1 :: .replicate 6 (.execute 1)

end ChatServer

end IocpChat
