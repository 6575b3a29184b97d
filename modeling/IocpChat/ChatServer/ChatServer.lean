import IocpChat.ChatServer.Room
import IocpChat.Lib.Transition

/-!
# The chat server

Any number of clients send packets and are disconnected while the rooms work on
their jobs.  A handler runs to its first access of the session's `_room`; what
it pushes then is a step of its own, and so are the three accesses of
`OnDisconnected`.  `Handle_C_LOGIN` is one step, with the three unguarded writes
of `SetPlayerInfo` and the answer.
-/

namespace IocpChat

open Protocol TransitionSystem

/-- `roomIds` are the keys of `RoomManager::_rooms`. -/
structure ChatServer (Session : Type) where
  sessions : Session → ClientSession
  roomIds : List RoomId
  rooms : RoomId → Room Session
  nextPlayerId : UInt64
  outputs : List (Output Session)

inductive ChatAction (Session : Type) where
  | packet (session : Session) (packet : Packet) (tick : UInt64)
  | handle (session : Session)
  | disconnect (session : Session)
  | onDisconnected (session : Session)
  | start (room : RoomId)
  | execute (room : RoomId)

namespace ChatServer

variable {Session : Type} [DecidableEq Session]

def setSession (state : ChatServer Session) (session : Session)
    (value : ClientSession) : ChatServer Session :=
  { state with sessions := Function.update state.sessions session value }

def setRoom (state : ChatServer Session) (room : RoomId)
    (value : Room Session) : ChatServer Session :=
  { state with rooms := Function.update state.rooms room value }

def emit (state : ChatServer Session) (output : Output Session) :
    ChatServer Session :=
  { state with outputs := state.outputs ++ [output] }

def pushJob (state : ChatServer Session) (room : RoomId) (session : Session)
    (job : RoomJob) : ChatServer Session :=
  state.setRoom room ((state.rooms room).pushJob session job)

def setHandler (state : ChatServer Session) (session : Session)
    (handler : Option HandlerPhase) : ChatServer Session :=
  state.setSession session ((state.sessions session).setHandler handler)

def setSessionRoom (state : ChatServer Session) (session : Session)
    (room : Option RoomId) : ChatServer Session :=
  state.setSession session ((state.sessions session).setRoom room)

def setDisconnecting (state : ChatServer Session) (session : Session)
    (phase : DisconnectPhase) : ChatServer Session :=
  state.setSession session ((state.sessions session).setDisconnecting phase)

def run (state : ChatServer Session) (room : RoomId)
    (running : Option (Session × JobPhase)) : ChatServer Session :=
  state.setRoom room ((state.rooms room).run running)

/-- `RoomManager::GetOrCreateRoom`.  Nothing refers to a room before it is in
`_rooms`, so the new room is empty already and gets its name here. -/
def getOrCreateRoom (state : ChatServer Session) (roomId : RoomId)
    (defaultName : StdString) : ChatServer Session :=
  if roomId ∈ state.roomIds then state
  else
    { state with roomIds := state.roomIds ++ [roomId] }.setRoom roomId
      { state.rooms roomId with roomName := defaultName }

/-- `RoomManager::GetRoomListInfo`. -/
def getRoomListInfo (state : ChatServer Session) : List RoomsInfo :=
  state.roomIds.map fun roomId =>
    { roomId := roomId
      roomName := (state.rooms roomId).roomName
      userCount := Int32.ofNat (state.rooms roomId).members.length }

/-- The name of a room that is created without one. -/
def defaultRoomName (packet : CEnterRoom) : StdString :=
  if packet.roomName = [] then
    literal "Room_" ++ literal (toString packet.roomId.toInt)
  else packet.roomName

section Packets

/-! The packets the server builds. -/

def loginRes (playerId : UInt64) (packet : CLogin) : Packet :=
  ⟨.sLogin,
    { success := true
      playerId := playerId
      name := packet.name
      message := literal "Welcome to High-Performance IOCP Chat Server!" }⟩

def heartbeatRes (tick : UInt64) : Packet :=
  ⟨.sHeartbeat, { serverTick := tick }⟩

def listRes (state : ChatServer Session) : Packet :=
  ⟨.sRoomList, { rooms := state.getRoomListInfo }⟩

def globalPkt (state : ChatServer Session) (session : Session)
    (packet : CGlobalChat) : Packet :=
  ⟨.sGlobalChat,
    { senderName := (state.sessions session).playerName
      message := packet.message }⟩

def enterRes (state : ChatServer Session) (room : RoomId) : Packet :=
  ⟨.sEnterRoom,
    { success := true
      roomId := room
      roomName := (state.rooms room).roomName
      members := (state.rooms room).members.map fun member =>
        { name := (state.sessions member).playerName } }⟩

def leaveRes : Packet :=
  ⟨.sLeaveRoom, { success := true }⟩

/-- `"[" + name + "] joined the room."` and the like. -/
def noticePkt (state : ChatServer Session) (session : Session)
    (event : String) : Packet :=
  ⟨.sNotice,
    { message := literal "[" ++ (state.sessions session).playerName ++
        literal event }⟩

def chatPkt (state : ChatServer Session) (session : Session)
    (message : StdString) : Packet :=
  ⟨.sRoomChat,
    { senderName := (state.sessions session).playerName
      message := message }⟩

end Packets

def joined : String := "] joined the room."

def left : String := "] left the room."

/-- `Room::Broadcast`. -/
def broadcast (state : ChatServer Session) (room : RoomId) (session : Session)
    (packet : Packet) : ChatServer Session :=
  state.emit (.roomBroadcast room session (state.rooms room).members packet)

def handleLogin (state : ChatServer Session) (session : Session)
    (packet : CLogin) : ChatServer Session :=
  let playerId := state.nextPlayerId
  ({ state with nextPlayerId := playerId + 1 }.setSession session
    ((state.sessions session).setPlayerInfo playerId packet.name)).emit
      (.send session (loginRes playerId packet))

def handleEnterRoom (state : ChatServer Session) (session : Session)
    (packet : CEnterRoom) : ChatServer Session :=
  (state.getOrCreateRoom packet.roomId (defaultRoomName packet)).setHandler
    session (some (.readRoom packet.roomId))

/-- `C_LEAVE_ROOM` and `C_ROOM_CHAT` push a job to the session's room, if it has
one. -/
def requestJob (state : ChatServer Session) (session : Session)
    (job : RoomJob) : ChatServer Session :=
  match (state.sessions session).room with
  | some room => state.setHandler session (some (.push room job))
  | none => state

/-- `Handle_C_...` of the packet. -/
def handlePacket (state : ChatServer Session) (session : Session)
    (tick : UInt64) : Packet → Option (ChatServer Session)
  | ⟨.cLogin, packet⟩ => some (state.handleLogin session packet)
  | ⟨.cHeartbeat, _⟩ => some (state.emit (.send session (heartbeatRes tick)))
  | ⟨.cRoomList, _⟩ => some (state.emit (.send session state.listRes))
  | ⟨.cEnterRoom, packet⟩ => some (state.handleEnterRoom session packet)
  | ⟨.cLeaveRoom, _⟩ => some (state.requestJob session .leave)
  | ⟨.cRoomChat, packet⟩ =>
      some (state.requestJob session (.handleChat packet.message))
  | ⟨.cGlobalChat, packet⟩ =>
      some (state.emit
        (.serviceBroadcast session (state.globalPkt session packet)))
  | _ => none

/-- The rest of `Handle_C_...`. -/
def advanceHandler (state : ChatServer Session) (session : Session) :
    HandlerPhase → ChatServer Session
  | .readRoom targetRoom =>
      match (state.sessions session).room with
      | some oldRoom =>
          if oldRoom = targetRoom then state.setHandler session none
          else
            state.setHandler session
              (some (.push oldRoom (.leaveAndEnter targetRoom)))
      | none => state.setHandler session (some (.push targetRoom .enter))
  | .push room job => (state.pushJob room session job).setHandler session none

def advanceDisconnect (state : ChatServer Session) (session : Session) :
    DisconnectPhase → Option (ChatServer Session)
  | .pushLeave room =>
      some ((state.pushJob room session .leave).setDisconnecting session
        .clearRoom)
  | .clearRoom =>
      some ((state.setSessionRoom session none).setDisconnecting session
        .disconnected)
  | _ => none

/-- One phase of the job the room is running. -/
def advanceJob (state : ChatServer Session) (room : RoomId)
    (session : Session) : JobPhase → ChatServer Session
  | .insertMember =>
      state.setRoom room (((state.rooms room).insertMember session).run
        (some (session, .setRoom)))
  | .setRoom =>
      (state.setSessionRoom session (some room)).run room
        (some (session, .replyEnter))
  | .replyEnter =>
      (state.emit (.send session (state.enterRes room))).run room
        (some (session, .noticeJoined))
  | .noticeJoined =>
      (state.broadcast room session (state.noticePkt session joined)).run room
        none
  | .eraseMember targetRoom =>
      state.setRoom room (((state.rooms room).eraseMember session).run
        (some (session, .readRoom targetRoom)))
  | .readRoom targetRoom =>
      if (state.sessions session).room = some room then
        state.run room (some (session, .clearRoom targetRoom))
      else state.run room (some (session, .replyLeave targetRoom))
  | .clearRoom targetRoom =>
      (state.setSessionRoom session none).run room
        (some (session, .replyLeave targetRoom))
  | .replyLeave targetRoom =>
      (state.emit (.send session leaveRes)).run room
        (some (session, .noticeLeft targetRoom))
  | .noticeLeft targetRoom =>
      (state.broadcast room session (state.noticePkt session left)).run room
        (targetRoom.map fun target => (session, .pushEnter target))
  | .pushEnter targetRoom =>
      (state.run room none).pushJob targetRoom session .enter
  | .broadcastChat message =>
      (state.broadcast room session (state.chatPkt session message)).run room
        none

def step (state : ChatServer Session) :
    ChatAction Session → Option (ChatServer Session)
  | .packet session packet tick =>
      if (state.sessions session).handler = none then
        state.handlePacket session tick packet
      else none
  | .handle session =>
      (state.sessions session).handler.map (state.advanceHandler session)
  | .disconnect session =>
      if (state.sessions session).disconnecting = .connected then
        match (state.sessions session).room with
        | some room => some (state.setDisconnecting session (.pushLeave room))
        | none => some (state.setDisconnecting session .disconnected)
      else none
  | .onDisconnected session =>
      state.advanceDisconnect session (state.sessions session).disconnecting
  | .start room =>
      match (state.rooms room).running, (state.rooms room).jobs with
      | none, (session, job) :: rest =>
          some (state.setRoom room
            { state.rooms room with
              jobs := rest
              running := some (session, job.firstPhase) })
      | _, _ => none
  | .execute room =>
      (state.rooms room).running.map fun (session, phase) =>
        state.advanceJob room session phase

/-- After `RoomManager::Init`, with the sessions as they are constructed. -/
def initial : ChatServer Session :=
  { sessions := fun _ => .initial
    roomIds := [1, 2, 3]
    rooms := fun roomId =>
      if roomId = 1 then .create (literal "Lobby Channel 1")
      else if roomId = 2 then .create (literal "Chat Room 2")
      else if roomId = 3 then .create (literal "Free Talk 3")
      else .create []
    nextPlayerId := 1000
    outputs := [] }

def machine (Session : Type) [DecidableEq Session] :
    Machine (ChatServer Session) (ChatAction Session) where
  initial := (· = initial)
  step := step

end ChatServer

end IocpChat
