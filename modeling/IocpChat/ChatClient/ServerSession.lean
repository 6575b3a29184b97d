import IocpChat.ChatServer.ReplySizes

/-!
# The client's session

What the interactive client keeps of the packets it receives, and the lines of
room chat it prints.  The other handlers print only what is in their packet.
-/

namespace IocpChat

open Protocol

structure ServerSession where
  playerName : StdString
  isLoggedIn : Bool
  currentRoomId : Int32
  deriving DecidableEq, Repr

/-- `[Room roomId] <senderName> : message`, in the colour of `isMe`. -/
structure ChatLine where
  isMe : Bool
  roomId : Int32
  senderName : StdString
  message : StdString
  deriving DecidableEq, Repr

structure ChatClient where
  session : ServerSession
  chatLines : List ChatLine
  deriving DecidableEq, Repr

namespace ServerSession

def initial : ServerSession :=
  { playerName := []
    isLoggedIn := false
    currentRoomId := 0 }

def setPlayerName (session : ServerSession) (name : StdString) :
    ServerSession :=
  { session with playerName := name }

def setLoggedIn (session : ServerSession) (loggedIn : Bool) : ServerSession :=
  { session with isLoggedIn := loggedIn }

def setCurrentRoomId (session : ServerSession) (roomId : Int32) :
    ServerSession :=
  { session with currentRoomId := roomId }

end ServerSession

namespace ChatClient

def initial : ChatClient :=
  { session := .initial
    chatLines := [] }

/-- `Handle_S_LOGIN` -/
def handleLogin (client : ChatClient) (pkt : SLogin) : ChatClient :=
  if pkt.success then
    { client with
      session := (client.session.setLoggedIn true).setPlayerName pkt.name }
  else client

/-- `Handle_S_ENTER_ROOM` -/
def handleEnterRoom (client : ChatClient) (pkt : SEnterRoom) : ChatClient :=
  if pkt.success then
    { client with session := client.session.setCurrentRoomId pkt.roomId }
  else client

/-- `Handle_S_LEAVE_ROOM` -/
def handleLeaveRoom (client : ChatClient) (pkt : SLeaveRoom) : ChatClient :=
  if pkt.success then
    { client with session := client.session.setCurrentRoomId 0 }
  else client

/-- `Handle_S_ROOM_CHAT` -/
def handleRoomChat (client : ChatClient) (pkt : SRoomChat) : ChatClient :=
  { client with
    chatLines := client.chatLines ++
      [{ isMe := client.session.playerName = pkt.senderName
         roomId := client.session.currentRoomId
         senderName := pkt.senderName
         message := pkt.message }] }

/-- `Handle_S_...` of the packet. -/
def handlePacket (client : ChatClient) : Packet → ChatClient
  | ⟨.sLogin, pkt⟩ => client.handleLogin pkt
  | ⟨.sEnterRoom, pkt⟩ => client.handleEnterRoom pkt
  | ⟨.sLeaveRoom, pkt⟩ => client.handleLeaveRoom pkt
  | ⟨.sRoomChat, pkt⟩ => client.handleRoomChat pkt
  | _ => client

end ChatClient

/-- The output goes to this session; `Service::Broadcast` goes to all of
them. -/
def Output.reaches {Session : Type} [DecidableEq Session]
    (session : Session) : Output Session → Bool
  | .send owner _ => decide (owner = session)
  | .roomBroadcast _ _ members _ => decide (session ∈ members)
  | .serviceBroadcast _ _ => true

/-- The packet that a session is sent, unless `MakeSendBuffer` has refused
it. -/
def Output.packetFor {Session : Type} [DecidableEq Session]
    (session : Session) (output : Output Session) : Option Packet :=
  if output.packet.sent && output.reaches session then some output.packet
  else none

namespace ChatClient

variable {Session : Type} [DecidableEq Session]

/-- What a session is sent, its client handles. -/
def receive (session : Session) (client : ChatClient)
    (output : Output Session) : ChatClient :=
  ((output.packetFor session).map client.handlePacket).getD client

/-- The client of a session that has been sent these packets. -/
def after (session : Session) (outputs : List (Output Session)) : ChatClient :=
  outputs.foldl (receive session) initial

theorem after_append {session : Session} {outputs : List (Output Session)}
    {output : Output Session} :
    after session (outputs ++ [output]) =
      receive session (after session outputs) output := by
  simp [after]

end ChatClient

end IocpChat
