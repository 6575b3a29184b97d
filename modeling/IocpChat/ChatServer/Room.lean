import IocpChat.Protocol.PacketProtocol

/-!
# Room and ClientSession

A room runs its jobs one at a time, in the order in which they were pushed.  The
handlers and callbacks of sessions run on other threads, so a job is cut into
phases: one access to `_members` or to a session's `_room` each, and one for
each packet that is built and sent.  The three plain writes of `SetPlayerInfo`
are one step: a job that reads the name in between has no defined result.

`_members` is a list in iteration order; the order means nothing.
-/

namespace IocpChat

open Protocol

/-- `_rooms` has one `Room` for an id, so the id stands for the object. -/
abbrev RoomId := Int32

/-- The member functions of `Room` that are pushed as jobs. -/
inductive RoomJob where
  | enter
  | leave
  | leaveAndEnter (targetRoom : RoomId)
  | handleChat (message : StdString)
  deriving DecidableEq, Repr

/-- What a job does next.  `Leave` and `LeaveAndEnter` share the phases of
`Leave`; with a target the last phase pushes `Enter` there. -/
inductive JobPhase where
  | insertMember
  | setRoom
  | replyEnter
  | noticeJoined
  | eraseMember (targetRoom : Option RoomId)
  | readRoom (targetRoom : Option RoomId)
  | clearRoom (targetRoom : Option RoomId)
  | replyLeave (targetRoom : Option RoomId)
  | noticeLeft (targetRoom : Option RoomId)
  | pushEnter (targetRoom : RoomId)
  | broadcastChat (message : StdString)
  deriving DecidableEq, Repr

def RoomJob.firstPhase : RoomJob → JobPhase
  | enter => .insertMember
  | leave => .eraseMember none
  | leaveAndEnter targetRoom => .eraseMember (some targetRoom)
  | handleChat message => .broadcastChat message

structure Room (Session : Type) where
  roomName : StdString
  members : List Session
  jobs : List (Session × RoomJob)
  running : Option (Session × JobPhase)

/-- What `Handle_C_...` does next for a session. -/
inductive HandlerPhase where
  | readRoom (targetRoom : RoomId)
  | push (room : RoomId) (job : RoomJob)
  deriving DecidableEq, Repr

/-- What `OnDisconnected` does next for a session. -/
inductive DisconnectPhase where
  | connected
  | pushLeave (room : RoomId)
  | clearRoom
  | disconnected
  deriving DecidableEq, Repr

structure ClientSession where
  playerId : UInt64
  playerName : StdString
  authenticated : Bool
  room : Option RoomId
  handler : Option HandlerPhase
  disconnecting : DisconnectPhase
  deriving DecidableEq, Repr

/-- A packet that was built, with where it was sent. -/
inductive Output (Session : Type) where
  | send (session : Session) (packet : Packet)
  | roomBroadcast (room : RoomId) (session : Session) (members : List Session)
      (packet : Packet)
  | serviceBroadcast (session : Session) (packet : Packet)

def Output.packet {Session : Type} : Output Session → Packet
  | send _ packet => packet
  | roomBroadcast _ _ _ packet => packet
  | serviceBroadcast _ packet => packet

namespace ClientSession

def initial : ClientSession :=
  { playerId := 0
    playerName := []
    authenticated := false
    room := none
    handler := none
    disconnecting := .connected }

def setPlayerInfo (session : ClientSession) (id : UInt64) (name : StdString) :
    ClientSession :=
  { session with
    playerId := id
    playerName := name
    authenticated := true }

def setRoom (session : ClientSession) (room : Option RoomId) :
    ClientSession :=
  { session with room := room }

def setHandler (session : ClientSession) (handler : Option HandlerPhase) :
    ClientSession :=
  { session with handler := handler }

def setDisconnecting (session : ClientSession) (phase : DisconnectPhase) :
    ClientSession :=
  { session with disconnecting := phase }

end ClientSession

namespace Room

variable {Session : Type}

def create (roomName : StdString) : Room Session :=
  { roomName := roomName
    members := []
    jobs := []
    running := none }

def pushJob (room : Room Session) (session : Session) (job : RoomJob) :
    Room Session :=
  { room with jobs := room.jobs ++ [(session, job)] }

def run (room : Room Session) (running : Option (Session × JobPhase)) :
    Room Session :=
  { room with running := running }

variable [DecidableEq Session]

/-- `_members[session->GetSessionId()] = session`. -/
def insertMember (room : Room Session) (session : Session) : Room Session :=
  { room with
    members :=
      if session ∈ room.members then room.members
      else room.members ++ [session] }

/-- `_members.erase`. -/
def eraseMember (room : Room Session) (session : Session) : Room Session :=
  { room with members := room.members.filter (· ≠ session) }

end Room

end IocpChat
