import IocpChat.ChatServer.ChatServer
import IocpChat.Lib.Threads
import IocpChat.Network.ReceivedPacket

/-!
# Replies that fit

Everything a client can send has at most 4095 bytes, but an answer may need
more: `S_LOGIN` repeats the name next to a fixed text, a chat packet adds the
sender's name, and the lists grow with the rooms and members.  `RepliesFit`
says of each step whether the packets it builds fit in the 4096 bytes of
`MakeSendBuffer`.
-/

namespace IocpChat

open TransitionSystem Protocol

namespace Protocol

/-- `MakeSendBuffer` of the packet does not return `nullptr`. -/
def Packet.Encodable (packet : Packet) : Prop :=
  ∀ state : SendBufferState, state.ChunkClosed →
    ∃ sendBuffer next,
      packet.makeSendBuffer state = .ok (some sendBuffer, next)

theorem Packet.encodable_iff (packet : Packet) :
    packet.Encodable ↔ packet.encodedSize ≤ packetAllocSize := by
  constructor
  · intro encodable
    by_contra tooLong
    have closed : SendBufferState.initial.ChunkClosed := by
      intro ref isLocal
      cases isLocal
    obtain ⟨sendBuffer, next, returns⟩ := encodable .initial closed
    obtain ⟨_, _, full, _⟩ :=
      Packet.makeSendBuffer_full closed (Nat.lt_of_not_le tooLong)
    rw [full] at returns
    cases returns
  · intro enough state closed
    obtain ⟨sendBuffer, next, returns, _⟩ :=
      Packet.makeSendBuffer_fits closed enough
    exact ⟨sendBuffer, next, returns⟩

/-- What `MakeSendBuffer` returned was sent: `Send` and `Broadcast` of `nullptr`
send nothing. -/
def Packet.sent (packet : Packet) : Bool :=
  decide (packet.encodedSize ≤ packetAllocSize)

theorem Packet.sent_iff (packet : Packet) :
    packet.sent = true ↔ packet.Encodable := by
  rw [Packet.encodable_iff, Packet.sent, decide_eq_true_iff]

/-- Below 2^16 nothing is lost of a string's length. -/
theorem PacketId.textSize_eq {text : StdString}
    (short : text.length < 2 ^ 16) : PacketId.textSize text =
      2 + text.length := by
  rw [PacketId.textSize, Nat.mod_eq_of_lt short]

end Protocol

/-- The packet that the step handles came through a receive ring. -/
def ChatAction.Received {Session : Type} : ChatAction Session → Prop
  | packet _ received _ => received.Received
  | _ => True

instance {Session : Type} :
    DecidablePred (@ChatAction.Received Session)
  | .packet _ received _ => inferInstanceAs (Decidable received.Received)
  | .handle _ => .isTrue trivial
  | .disconnect _ => .isTrue trivial
  | .onDisconnected _ => .isTrue trivial
  | .start _ => .isTrue trivial
  | .execute _ => .isTrue trivial

/-- A chat message that is waiting came out of a received packet. -/
def RoomJob.MessageShort : RoomJob → Prop
  | handleChat message => message.length < 2 ^ 16
  | _ => True

def JobPhase.MessageShort : JobPhase → Prop
  | broadcastChat message => message.length < 2 ^ 16
  | _ => True

def HandlerPhase.MessageShort : HandlerPhase → Prop
  | push _ job => job.MessageShort
  | readRoom _ => True

structure ClientSession.TextsShort (session : ClientSession) : Prop where
  playerName : session.playerName.length ≤ 4089
  handler : ∀ phase ∈ session.handler, phase.MessageShort

structure Room.TextsShort {Session : Type} (room : Room Session) : Prop where
  roomName : room.roomName.length < 2 ^ 16
  jobs : ∀ job ∈ room.jobs, job.2.MessageShort
  running : ∀ phase ∈ room.running, phase.2.MessageShort

namespace ChatServer

variable {Session : Type} [DecidableEq Session]

/-- The packet that this phase of a job builds fits. -/
def ReplyFits (state : ChatServer Session) (room : RoomId)
    (session : Session) : JobPhase → Prop
  | .replyEnter =>
      13 + (state.rooms room).roomName.length +
        ((state.rooms room).members.map fun member =>
          2 + (state.sessions member).playerName.length).sum ≤ 4096
  | .noticeJoined => 25 + (state.sessions session).playerName.length ≤ 4096
  | .noticeLeft _ => 23 + (state.sessions session).playerName.length ≤ 4096
  | .broadcastChat message =>
      8 + (state.sessions session).playerName.length +
        message.length ≤ 4096
  | _ => True

/-- The packets that the step builds fit. -/
def RepliesFit (state : ChatServer Session) : ChatAction Session → Prop
  | .packet _ ⟨.cLogin, packet⟩ _ => packet.name.length ≤ 4034
  | .packet _ ⟨.cRoomList, _⟩ _ =>
      6 + (state.roomIds.map fun room =>
        10 + (state.rooms room).roomName.length).sum ≤ 4096
  | .packet session ⟨.cGlobalChat, packet⟩ _ =>
      8 + (state.sessions session).playerName.length +
        packet.message.length ≤ 4096
  | .execute room =>
      ∀ job ∈ (state.rooms room).running, state.ReplyFits room job.1 job.2
  | _ => True

/-- The names and messages the server holds. -/
structure TextsShort (state : ChatServer Session) : Prop where
  sessions : ∀ session, (state.sessions session).TextsShort
  rooms : ∀ room, (state.rooms room).TextsShort

namespace TextsShort

variable {state : ChatServer Session}

theorem setSession (short : state.TextsShort) {session : Session}
    {value : ClientSession} (new : value.TextsShort) :
    (state.setSession session value).TextsShort :=
  { short with
    sessions := Threads.forall_update (fun _ => ClientSession.TextsShort)
      short.sessions new }

omit [DecidableEq Session] in
theorem setRoom (short : state.TextsShort) {room : RoomId}
    {value : Room Session} (new : value.TextsShort) :
    (state.setRoom room value).TextsShort :=
  { short with
    rooms := Threads.forall_update (fun _ => Room.TextsShort)
      short.rooms new }

omit [DecidableEq Session] in
theorem emit (short : state.TextsShort) (output : Output Session) :
    (state.emit output).TextsShort :=
  { short with }

theorem setHandler (short : state.TextsShort) {session : Session}
    {handler : Option HandlerPhase}
    (new : ∀ phase ∈ handler, phase.MessageShort) :
    (state.setHandler session handler).TextsShort :=
  short.setSession { short.sessions session with handler := new }

theorem setSessionRoom (short : state.TextsShort) (session : Session)
    (room : Option RoomId) :
    (state.setSessionRoom session room).TextsShort :=
  short.setSession { short.sessions session with }

theorem setDisconnecting (short : state.TextsShort) (session : Session)
    (phase : DisconnectPhase) :
    (state.setDisconnecting session phase).TextsShort :=
  short.setSession { short.sessions session with }

omit [DecidableEq Session] in
theorem pushJob (short : state.TextsShort) {room : RoomId}
    {session : Session} {job : RoomJob} (new : job.MessageShort) :
    (state.pushJob room session job).TextsShort := by
  apply short.setRoom
  refine { short.rooms room with jobs := ?_ }
  intro other member
  rcases List.mem_append.mp member with old | added
  · exact (short.rooms room).jobs other old
  · rw [List.mem_singleton.mp added]
    exact new

omit [DecidableEq Session] in
theorem run (short : state.TextsShort) {room : RoomId}
    {running : Option (Session × JobPhase)}
    (new : ∀ phase ∈ running, phase.2.MessageShort) :
    (state.run room running).TextsShort :=
  short.setRoom { short.rooms room with running := new }

end TextsShort

omit [DecidableEq Session] in
theorem initial_textsShort : (initial : ChatServer Session).TextsShort where
  sessions _ :=
    { playerName := Nat.zero_le _
      handler := fun _ impossible => by cases impossible }
  rooms room := by
    have empty : ∀ name : StdString, name.length < 2 ^ 16 →
        (Room.create name : Room Session).TextsShort := by
      intro name short
      exact
        { roomName := short
          jobs := fun _ impossible => by cases impossible
          running := fun _ impossible => by cases impossible }
    simp only [initial]
    split
    · exact empty _ (by decide)
    · split
      · exact empty _ (by decide)
      · split
        · exact empty _ (by decide)
        · exact empty _ (by decide)

/-- `std::to_string` of an `int32` has at most eleven characters. -/
theorem length_toString_int32 (value : Int32) :
    (toString value.toInt).length ≤ 11 := by
  have lower := Int32.le_toInt value
  have upper := Int32.toInt_lt value
  have digits : ∀ number : Nat, number ≤ 2 ^ 31 →
      number.repr.length ≤ 10 := by
    intro number small
    exact (Nat.length_repr_le_iff (by decide)).mpr (by omega)
  generalize value.toInt = number at lower upper ⊢
  cases number with
  | ofNat number =>
      have upper : (number : Int) < 2 ^ 31 := upper
      have short := digits number (by omega)
      change number.repr.length ≤ 11
      omega
  | negSucc number =>
      have short := digits (number + 1) (by omega)
      change ("-" ++ (number + 1).repr).length ≤ 11
      rw [String.length_append]
      exact Nat.add_le_add_left short 1

theorem length_defaultRoomName {packet : CEnterRoom}
    (short : packet.roomName.length < 2 ^ 16) :
    (defaultRoomName packet).length < 2 ^ 16 := by
  unfold defaultRoomName
  split
  · have number := length_toString_int32 packet.roomId
    rw [List.length_append, length_literal, length_literal]
    change 5 + _ < _
    omega
  · exact short

/-- What a step builds is encodable exactly if `fit` holds, and the texts stay
short. -/
structure Answers (state next : ChatServer Session) (fit : Prop) : Prop where
  built : ∃ built, next.outputs = state.outputs ++ built ∧
    ((∀ output ∈ built, output.packet.Encodable) ↔ fit)
  short : next.TextsShort

section Answers

variable {state next : ChatServer Session}

omit [DecidableEq Session] in
theorem Answers.silent (same : next.outputs = state.outputs)
    (short : next.TextsShort) : Answers state next True :=
  ⟨⟨[], by rw [same, List.append_nil], by simp⟩, short⟩

omit [DecidableEq Session] in
theorem Answers.single {fit : Prop} {output : Output Session}
    (added : next.outputs = state.outputs ++ [output])
    (size : output.packet.encodedSize ≤ packetAllocSize ↔ fit)
    (short : next.TextsShort) : Answers state next fit := by
  refine ⟨⟨[output], added, ?_⟩, short⟩
  simp only [List.mem_singleton, forall_eq]
  rw [Packet.encodable_iff, size]

omit [DecidableEq Session] in
theorem TextsShort.playerName (short : state.TextsShort)
    (session : Session) :
    (state.sessions session).playerName.length < 2 ^ 16 :=
  Nat.lt_of_le_of_lt (short.sessions session).playerName (by decide)

omit [DecidableEq Session] in
theorem listRes_fits_iff (short : state.TextsShort) :
    state.listRes.encodedSize ≤ packetAllocSize ↔
      6 + (state.roomIds.map fun room =>
        10 + (state.rooms room).roomName.length).sum ≤ 4096 := by
  have sizes : state.listRes.encodedSize =
      6 + (state.roomIds.map fun room =>
        10 + (state.rooms room).roomName.length).sum := by
    change 6 + ((state.roomIds.map _).map _).sum = _
    rw [List.map_map]
    congr 2
    apply List.map_congr_left
    intro room _
    change 4 + (PacketId.textSize (state.rooms room).roomName + 4) = _
    rw [PacketId.textSize_eq (short.rooms room).roomName]
    omega
  rw [sizes]
  rfl

omit [DecidableEq Session] in
theorem enterRes_fits_iff (short : state.TextsShort) (room : RoomId) :
    (state.enterRes room).encodedSize ≤ packetAllocSize ↔
      13 + (state.rooms room).roomName.length +
        ((state.rooms room).members.map fun member =>
          2 + (state.sessions member).playerName.length).sum ≤ 4096 := by
  have sizes : (state.enterRes room).encodedSize =
      13 + (state.rooms room).roomName.length +
        ((state.rooms room).members.map fun member =>
          2 + (state.sessions member).playerName.length).sum := by
    change 11 + PacketId.textSize (state.rooms room).roomName +
      (((state.rooms room).members.map _).map _).sum = _
    rw [List.map_map, PacketId.textSize_eq (short.rooms room).roomName]
    congr 1
    · omega
    · congr 1
      apply List.map_congr_left
      intro member _
      exact PacketId.textSize_eq (short.playerName member)
  rw [sizes]
  rfl

omit [DecidableEq Session] in
theorem noticePkt_fits_iff (short : state.TextsShort) (session : Session)
    {event : String} (brief : event.length ≤ 18) :
    (state.noticePkt session event).encodedSize ≤ packetAllocSize ↔
      7 + event.length + (state.sessions session).playerName.length ≤
        4096 := by
  have nameShort := (short.sessions session).playerName
  let message := literal "[" ++ (state.sessions session).playerName ++
    literal event
  have length : message.length =
      1 + (state.sessions session).playerName.length + event.length := by
    simp only [message, List.length_append, length_literal]
    rfl
  have whole : (state.noticePkt session event).encodedSize =
      4 + PacketId.textSize message := rfl
  rw [whole, packetAllocSize, PacketId.textSize_eq (by omega)]
  omega

theorem chat_fits_iff {name message : StdString}
    (nameShort : name.length < 2 ^ 16)
    (messageShort : message.length < 2 ^ 16) :
    4 + PacketId.textSize name + PacketId.textSize message ≤
        packetAllocSize ↔
      8 + name.length + message.length ≤ 4096 := by
  rw [PacketId.textSize_eq nameShort, PacketId.textSize_eq messageShort,
    packetAllocSize]
  omega

end Answers

/-- Each string of a received packet is short. -/
theorem counts_of_received {packet : Packet} (received : packet.Received) :
    ∀ count ∈ packet.id.counts packet.fields, count < 2 ^ 16 :=
  (PacketId.representable_iff _ _).mp received.fits.2.1

theorem handleLogin_answers {state : ChatServer Session}
    (short : state.TextsShort) (session : Session) {packet : CLogin}
    (nameShort : packet.name.length ≤ 4089) :
    Answers state (state.handleLogin session packet)
      (packet.name.length ≤ 4034) := by
  refine .single rfl ?_ ?_
  · change 13 + PacketId.textSize packet.name + (2 + 45 % 2 ^ 16) ≤ 4096 ↔ _
    rw [PacketId.textSize_eq (Nat.lt_of_le_of_lt nameShort (by decide))]
    omega
  · apply TextsShort.emit
    have same : TextsShort
        { state with nextPlayerId := state.nextPlayerId + 1 } :=
      { short with }
    exact same.setSession
      { short.sessions session with playerName := nameShort }

theorem handleEnterRoom_answers {state : ChatServer Session}
    (short : state.TextsShort) (session : Session) {packet : CEnterRoom}
    (nameShort : packet.roomName.length < 2 ^ 16) :
    Answers state (state.handleEnterRoom session packet) True := by
  have created : (state.getOrCreateRoom packet.roomId
      (defaultRoomName packet)).TextsShort := by
    unfold getOrCreateRoom
    split
    · exact short
    · have same : TextsShort
          { state with roomIds := state.roomIds ++ [packet.roomId] } :=
        { short with }
      exact same.setRoom
        { short.rooms packet.roomId with
          roomName := length_defaultRoomName nameShort }
  refine .silent ?_ (created.setHandler ?_)
  · change (state.getOrCreateRoom _ _).outputs = _
    unfold getOrCreateRoom
    split <;> rfl
  · intro phase isPhase
    cases isPhase
    trivial

theorem requestJob_answers {state : ChatServer Session}
    (short : state.TextsShort) (session : Session) {job : RoomJob}
    (jobShort : job.MessageShort) :
    Answers state (state.requestJob session job) True := by
  unfold requestJob
  split
  · refine .silent rfl (short.setHandler ?_)
    intro phase isPhase
    cases isPhase
    exact jobShort
  · exact .silent rfl short

theorem handlePacket_answers {state next : ChatServer Session}
    (short : state.TextsShort) {session : Session} {packet : Packet}
    {tick : UInt64} (received : packet.Received)
    (handled : state.handlePacket session tick packet = some next) :
    Answers state next (RepliesFit state (.packet session packet tick)) := by
  have counts := counts_of_received received
  obtain ⟨id, fields⟩ := packet
  cases id with
  | cLogin =>
      cases handled
      have size : 4 + PacketId.textSize fields.name ≤ 4095 :=
        received.fits.2.2
      have nameShort : fields.name.length < 2 ^ 16 :=
        counts _ (List.mem_singleton_self _)
      rw [PacketId.textSize_eq nameShort] at size
      exact handleLogin_answers short session (by omega)
  | cHeartbeat =>
      cases handled
      exact .single rfl (by simp [Output.packet, heartbeatRes,
        Packet.encodedSize, PacketId.encodedSize, packetAllocSize,
        RepliesFit]) (short.emit _)
  | cRoomList =>
      cases handled
      exact .single rfl (listRes_fits_iff short) (short.emit _)
  | cEnterRoom =>
      cases handled
      exact handleEnterRoom_answers short session
        (counts _ (List.mem_singleton_self _))
  | cLeaveRoom =>
      cases handled
      exact requestJob_answers short session trivial
  | cRoomChat =>
      cases handled
      exact requestJob_answers short session
        (counts _ (List.mem_singleton_self _))
  | cGlobalChat =>
      cases handled
      exact .single rfl
        (chat_fits_iff (short.playerName session)
          (counts _ (List.mem_singleton_self _)))
        (short.emit _)
  | _ => cases handled

theorem advanceHandler_answers {state : ChatServer Session}
    (short : state.TextsShort) {session : Session} {phase : HandlerPhase}
    (phaseShort : phase.MessageShort) :
    Answers state (state.advanceHandler session phase) True := by
  have finished : ∀ {value : ChatServer Session}, value.TextsShort →
      (value.setHandler session none).TextsShort :=
    fun short => short.setHandler fun _ impossible => by cases impossible
  have pushing : ∀ {room : RoomId} {job : RoomJob}, job.MessageShort →
      (state.setHandler session (some (.push room job))).TextsShort := by
    intro room job jobShort
    apply short.setHandler
    intro phase isPhase
    cases isPhase
    exact jobShort
  cases phase with
  | readRoom targetRoom =>
      have chained : (RoomJob.leaveAndEnter targetRoom).MessageShort := trivial
      have direct : RoomJob.enter.MessageShort := trivial
      simp only [advanceHandler]
      cases (state.sessions session).room with
      | none => exact .silent rfl (pushing direct)
      | some oldRoom =>
          by_cases same : oldRoom = targetRoom
          · simp only [same, if_true]
            exact .silent rfl (finished short)
          · simp only [same, if_false]
            exact .silent rfl (pushing chained)
  | push room job => exact .silent rfl (finished (short.pushJob phaseShort))

theorem advanceDisconnect_answers {state next : ChatServer Session}
    (short : state.TextsShort) {session : Session} {phase : DisconnectPhase}
    (advanced : state.advanceDisconnect session phase = some next) :
    Answers state next True := by
  have leaving : RoomJob.leave.MessageShort := trivial
  cases phase with
  | pushLeave room =>
      cases advanced
      exact .silent rfl ((short.pushJob leaving).setDisconnecting _ _)
  | clearRoom =>
      cases advanced
      exact .silent rfl ((short.setSessionRoom _ _).setDisconnecting _ _)
  | connected => cases advanced
  | disconnected => cases advanced

theorem advanceJob_answers {state : ChatServer Session}
    (short : state.TextsShort) {room : RoomId} {session : Session}
    {phase : JobPhase} (phaseShort : phase.MessageShort) :
    Answers state (state.advanceJob room session phase)
      (state.ReplyFits room session phase) := by
  have idle : ∀ {value : ChatServer Session}, value.TextsShort →
      (value.run room none).TextsShort :=
    fun short => short.run fun _ impossible => by cases impossible
  have continuing : ∀ {value : ChatServer Session} {later : JobPhase},
      value.TextsShort → later.MessageShort →
      (value.run room (some (session, later))).TextsShort := by
    intro value later short laterShort
    apply short.run
    intro running isRunning
    cases isRunning
    exact laterShort
  have updated : ∀ {members : List Session} {later : JobPhase},
      later.MessageShort →
      (state.setRoom room
        (({ state.rooms room with members := members } : Room Session).run
          (some (session, later)))).TextsShort := by
    intro members later laterShort
    apply short.setRoom
    refine { short.rooms room with running := ?_ }
    intro running isRunning
    cases isRunning
    exact laterShort
  cases phase with
  | insertMember => exact .silent rfl (updated trivial)
  | setRoom =>
      exact .silent rfl (continuing (short.setSessionRoom _ _) trivial)
  | replyEnter =>
      exact .single rfl (enterRes_fits_iff short room)
        (continuing (short.emit _) trivial)
  | noticeJoined =>
      exact .single rfl (noticePkt_fits_iff short session (by decide))
        (idle (short.emit _))
  | eraseMember targetRoom => exact .silent rfl (updated trivial)
  | readRoom targetRoom =>
      simp only [advanceJob]
      split
      · exact .silent rfl (continuing short trivial)
      · exact .silent rfl (continuing short trivial)
  | clearRoom targetRoom =>
      exact .silent rfl (continuing (short.setSessionRoom _ _) trivial)
  | replyLeave targetRoom =>
      refine .single rfl ?_ (continuing (short.emit _) trivial)
      exact iff_of_true (by decide : 5 ≤ 4096) trivial
  | noticeLeft targetRoom =>
      refine .single rfl (noticePkt_fits_iff short session (by decide)) ?_
      · cases targetRoom with
        | none => exact idle (short.emit _)
        | some target => exact continuing (short.emit _) trivial
  | pushEnter targetRoom =>
      exact .silent rfl ((idle short).pushJob trivial)
  | broadcastChat message =>
      exact .single rfl (chat_fits_iff (short.playerName session) phaseShort)
        (idle (short.emit _))

/-- One step. -/
theorem step_answers {state next : ChatServer Session}
    {action : ChatAction Session} (short : state.TextsShort)
    (received : action.Received) (stepped : state.step action = some next) :
    Answers state next (state.RepliesFit action) := by
  cases action with
  | packet session packet tick =>
      simp only [step] at stepped
      split at stepped
      · exact handlePacket_answers short received stepped
      · cases stepped
  | handle session =>
      obtain ⟨phase, isPhase, rfl⟩ := Option.map_eq_some_iff.mp stepped
      exact advanceHandler_answers short
        ((short.sessions session).handler phase isPhase)
  | disconnect session =>
      simp only [step] at stepped
      split at stepped
      · split at stepped
        · cases stepped
          exact .silent rfl (short.setDisconnecting _ _)
        · cases stepped
          exact .silent rfl (short.setDisconnecting _ _)
      · cases stepped
  | onDisconnected session => exact advanceDisconnect_answers short stepped
  | start room =>
      simp only [step] at stepped
      split at stepped
      · rename_i session job rest _ queued
        cases stepped
        have jobs := (short.rooms room).jobs
        rw [queued] at jobs
        have jobShort := jobs _ (List.mem_cons_self ..)
        refine .silent rfl (short.setRoom
          { short.rooms room with
            jobs := fun other member =>
              jobs other (List.mem_cons_of_mem _ member)
            running := ?_ })
        intro running isRunning
        cases isRunning
        cases job with
        | handleChat message => exact jobShort
        | _ => trivial
      · cases stepped
  | execute room =>
      obtain ⟨⟨session, phase⟩, isRunning, rfl⟩ :=
        Option.map_eq_some_iff.mp stepped
      have phaseShort : phase.MessageShort :=
        (short.rooms room).running _ isRunning
      have same : state.RepliesFit (.execute room) ↔
          state.ReplyFits room session phase := by
        simp only [RepliesFit, isRunning, Option.mem_some, forall_eq']
      rw [same]
      exact advanceJob_answers short phaseShort

/-- A run from here on: everything it builds is encodable exactly if every step
builds packets that fit. -/
theorem run_answers {state final : ChatServer Session}
    {actions : List (ChatAction Session)} (short : state.TextsShort)
    (received : ∀ action ∈ actions, action.Received)
    (replayed : (machine Session).run state actions = some final) :
    ∃ built, final.outputs = state.outputs ++ built ∧
      ((∀ output ∈ built, output.packet.Encodable) ↔
        (machine Session).RunMeets RepliesFit state actions) := by
  induction actions generalizing state with
  | nil =>
      cases replayed
      exact ⟨[], (List.append_nil _).symm, by simp [Machine.RunMeets]⟩
  | cons action rest induction =>
      obtain ⟨first, restReceived⟩ := List.forall_mem_cons.mp received
      simp only [Machine.run, Option.bind_eq_some_iff] at replayed
      obtain ⟨next, stepped, restReplayed⟩ := replayed
      obtain ⟨⟨built, added, encodable⟩, shortAfter⟩ :=
        step_answers short first stepped
      obtain ⟨later, restAdded, restEncodable⟩ :=
        induction shortAfter restReceived restReplayed
      refine ⟨built ++ later, ?_, ?_⟩
      · rw [restAdded, added, List.append_assoc]
      · rw [List.forall_mem_append, encodable, restEncodable]
        exact (Machine.runMeets_cons stepped).symm

/-- In a run on received packets, everything the server builds is encodable
exactly if every step builds packets that fit. -/
theorem outputsEncodable_iff_repliesFit {final : ChatServer Session}
    {actions : List (ChatAction Session)}
    (received : ∀ action ∈ actions, action.Received)
    (replayed : (machine Session).run initial actions = some final) :
    (∀ output ∈ final.outputs, output.packet.Encodable) ↔
      (machine Session).RunMeets RepliesFit initial actions := by
  obtain ⟨built, added, encodable⟩ :=
    run_answers initial_textsShort received replayed
  have nothing : (initial : ChatServer Session).outputs = [] := rfl
  rw [nothing, List.nil_append] at added
  rw [added, encodable]

omit [DecidableEq Session] in
/-- A name that fills the receive ring is a packet a client can send. -/
theorem received_login {name : StdString} (fits : name.length ≤ 4089) :
    Packet.Received ⟨.cLogin, { name := name }⟩ := by
  have short : name.length < 2 ^ 16 := Nat.lt_of_le_of_lt fits (by decide)
  have client : PacketId.cLogin ∈ ServerPacketHandler.cases := by decide
  apply Packet.received_of_representable client
  · exact (Wire.string_representable name).mpr short
  · change 4 + PacketId.textSize name ≤ 4095
    rw [PacketId.textSize_eq short]
    omega

/-- A client logs in, enters room 1, asks for the rooms and speaks in the room
and to all. -/
def guestVisit : List (ChatAction Unit) :=
  [.packet () ⟨.cLogin, { name := literal "guest" }⟩ 0,
    .packet () ⟨.cEnterRoom, { roomId := 1, roomName := [] }⟩ 0,
    .handle (),
    .handle (),
    .start 1,
    .execute 1,
    .execute 1,
    .execute 1,
    .execute 1,
    .packet () ⟨.cRoomList, {}⟩ 0,
    .packet () ⟨.cRoomChat, { message := literal "hello" }⟩ 0,
    .handle (),
    .start 1,
    .execute 1,
    .packet () ⟨.cGlobalChat, { message := literal "all" }⟩ 0]

/-- The six packets that answer the visit fit, so every step's did. -/
theorem guestVisit_encodable :
    ∃ final, (machine Unit).run initial guestVisit = some final ∧
      final.outputs.length = 6 ∧
      (∀ output ∈ final.outputs, output.packet.Encodable) ∧
      (machine Unit).RunMeets RepliesFit initial guestVisit := by
  have received : ∀ action ∈ guestVisit, action.Received := by decide +kernel
  obtain ⟨final, replayed⟩ :
      ∃ final, (machine Unit).run initial guestVisit = some final :=
    Option.isSome_iff_exists.mp rfl
  have facts : (final.outputs.length,
      final.outputs.all fun output => output.packet.sent) = (6, true) :=
    @Machine.view_of_run _ _ _ _ _ _ _ (fun state : ChatServer Unit =>
      (state.outputs.length,
        state.outputs.all fun output => output.packet.sent)) _ replayed
      (by decide +kernel)
  obtain ⟨count, sent⟩ := Prod.mk.inj facts
  have encodable : ∀ output ∈ final.outputs, output.packet.Encodable := by
    intro output member
    apply (Packet.sent_iff output.packet).mp
    exact List.all_eq_true.mp sent output member
  exact ⟨final, replayed, count, encodable,
    (outputsEncodable_iff_repliesFit received replayed).mp encodable⟩

omit [DecidableEq Session] in
/-- A longer name than 4034 bytes is not. -/
theorem loginRes_notEncodable {packet : CLogin}
    (long : 4034 < packet.name.length) (fits : packet.name.length ≤ 4089)
    (playerId : UInt64) : ¬(loginRes playerId packet).Encodable := by
  intro encodable
  have size : 13 + PacketId.textSize packet.name + (2 + 45 % 2 ^ 16) ≤ 4096 :=
    (Packet.encodable_iff _).mp encodable
  rw [PacketId.textSize_eq (Nat.lt_of_le_of_lt fits (by decide))] at size
  omega

/-- The answer to a name of 4089 bytes would have 4151. -/
theorem longLogin_notEncodable :
    let packet : Packet := ⟨.cLogin, { name := List.replicate 4089 0 }⟩
    packet.Received ∧
      ∃ final, (machine Unit).run initial [.packet () packet 0] = some final ∧
        ∃ output ∈ final.outputs, ¬output.packet.Encodable := by
  intro packet
  have length : (List.replicate 4089 (0 : UInt8)).length = 4089 :=
    List.length_replicate
  refine ⟨received_login length.le, _, rfl, _, List.mem_singleton_self _, ?_⟩
  apply loginRes_notEncodable
  · change 4034 < (List.replicate 4089 (0 : UInt8)).length
    rw [length]
    decide
  · exact length.le

end ChatServer

end IocpChat
