import IocpChat.Lib.Transition
import IocpChat.Network.PacketSession
import IocpChat.Protocol.PacketHandler
import IocpChat.Utility.TokenBucket

/-!
# ClientSession and AbuseMonitor

What a session does between the arming of its accept slot and its last packet,
as far as the rate limiter, the heartbeat and the abuse reports are concerned,
and the watchdogs that call `CheckHeartbeatTimeouts`.  `ProcessConnect` and the
receives of a session follow one another, so a session has one program counter.
`tickCount` is what `GetTickCount64` returns; it never falls.
-/

namespace IocpChat

open FlatMemory Protocol TransitionSystem

structure NetAddress where
  ipAddress : StdString
  port : UInt16
  deriving DecidableEq, Repr

structure AbuseLogEntry (Session : Type) where
  sessionId : Session
  playerName : StdString
  ipAddress : StdString
  port : UInt16
  reason : String
  timestamp : UInt64
  deriving DecidableEq, Repr

structure AbuseMonitor (Session : Type) where
  logs : List (AbuseLogEntry Session)
  abuseCount : UInt32

/-- `ReportAbuse`. -/
def AbuseMonitor.reportAbuse {Session : Type} (monitor : AbuseMonitor Session)
    (sessionId : Session) (playerName : StdString) (address : NetAddress)
    (reason : String) (tick : UInt64) : AbuseMonitor Session :=
  { logs := monitor.logs ++
      [{ sessionId := sessionId
         playerName :=
           if playerName = [] then literal "(Unauth)" else playerName
         ipAddress :=
           if address.ipAddress = [] then literal "0.0.0.0"
           else address.ipAddress
         port := address.port
         reason := reason
         timestamp := tick }]
    abuseCount := monitor.abuseCount + 1 }

theorem AbuseMonitor.mem_reportAbuse {Session : Type}
    {monitor : AbuseMonitor Session} {sessionId : Session}
    {playerName : StdString} {address : NetAddress} {reason : String}
    {tick : UInt64} {entry : AbuseLogEntry Session}
    (member : entry ∈ (monitor.reportAbuse sessionId playerName address reason
      tick).logs) :
    entry ∈ monitor.logs ∨
      entry.sessionId = sessionId ∧ entry.reason = reason := by
  rcases List.mem_append.mp member with old | new
  · exact Or.inl old
  · obtain rfl := List.mem_singleton.mp new
    exact Or.inr ⟨rfl, rfl⟩

/-- The rest of a call of `OnRecv`: the packets that it has still to hand over,
and what it returns. -/
structure Batch where
  packets : List (List UInt8)
  processedLen : Int
  deriving DecidableEq, Repr

/-- What the session does next. -/
inductive MonitoredPc where
  | unborn
  | accepting
  | processConnect
  | addSession
  | onConnected
  | firstHeartbeat (tick : UInt64)
  | resetRateLimiter
  | registerRecv
  | receiving
  | onRecv (batch : Batch)
  | flooding (batch : Batch)
  | reportFlooding (batch : Batch)
  | acceptPacket (packet : List UInt8) (batch : Batch)
  | updateHeartbeat (packet : List UInt8) (tick : UInt64) (batch : Batch)
  | handlePacket (packet : List UInt8) (batch : Batch)
  | handleHeartbeat (tick : UInt64) (batch : Batch)
  | reportMalformed (batch : Batch)
  | disconnect (batch : Batch)
  | stopped
  deriving DecidableEq, Repr

/-- `connectedAt` and `acceptedAt` are history: when `_connected` was set, and
the tick of the last packet whose heartbeat has been stored. -/
structure MonitoredSession where
  pc : MonitoredPc
  connected : Bool
  lastHeartbeatTick : UInt64
  netAddress : NetAddress
  playerName : StdString
  isAbuseReported : Bool
  rateLimiter : TokenBucket
  connectedAt : UInt64
  acceptedAt : UInt64

/-- Where a watchdog stands in `CheckHeartbeatTimeouts`, and the sessions of the
snapshot that it has not looked at. -/
inductive WatchdogPc (Session : Type) where
  | idle
  | snapshot (timeoutMs now : UInt64)
  | check (timeoutMs now : UInt64) (sessions : List Session)
  | readHeartbeat (timeoutMs now : UInt64) (session : Session)
      (sessions : List Session)
  | reportTimeout (timeoutMs now : UInt64) (session : Session)
      (sessions : List Session)
  | disconnect (timeoutMs now : UInt64) (session : Session)
      (sessions : List Session)
  deriving DecidableEq, Repr

/-- A subtraction `now - lastHeartbeat` of a watchdog, with the history of the
session at the moment its heartbeat was read. -/
structure HeartbeatCheck (Session : Type) where
  session : Session
  timeoutMs : UInt64
  now : UInt64
  lastHeartbeat : UInt64
  connectedAt : UInt64
  acceptedAt : UInt64
  deriving DecidableEq, Repr

/-- The session is reported and disconnected. -/
def HeartbeatCheck.timedOut {Session : Type} (check : HeartbeatCheck Session) :
    Bool :=
  check.timeoutMs < check.now - check.lastHeartbeat

/-- `checks` and `refused` are history: the subtractions of the watchdogs, and
for each packet that `HandlePacket` refused its session. -/
structure AbuseSystem (Session Watchdog : Type) where
  tickCount : UInt64
  sessions : Session → MonitoredSession
  inService : List Session
  monitor : AbuseMonitor Session
  watchdogs : Watchdog → WatchdogPc Session
  checks : List (HeartbeatCheck Session)
  refused : List Session

inductive AbuseAction (Session Watchdog : Type) where
  | tick (now : UInt64)
  | create (session : Session)
  | accept (session : Session) (address : NetAddress)
  | receive (session : Session) (buffer : List UInt8)
  | advance (session : Session)
  | disconnect (session : Session)
  | releaseSession (session : Session)
  | checkHeartbeatTimeouts (watchdog : Watchdog) (timeoutMs : UInt64)
  | snapshot (watchdog : Watchdog) (sessions : List Session)
  | watch (watchdog : Watchdog)

/-- The packet that `HandlePacket` reads from these bytes. -/
def readPacket (packet : List UInt8) : Option Packet :=
  (ServerPacketHandler.handlePacket.run
    (.ofBuffer (fun address => packet.getD address 0) packet.length)).1

/-- The name that `SetPlayerInfo` stores when this packet is handled. -/
def nameAfter (playerName : StdString) : Packet → StdString
  | { id := .cLogin, fields := fields } => CLogin.name fields
  | _ => playerName

namespace AbuseSystem

variable {Session Watchdog : Type} [DecidableEq Session]

def setSession (system : AbuseSystem Session Watchdog) (session : Session)
    (state : MonitoredSession) : AbuseSystem Session Watchdog :=
  { system with sessions := Function.update system.sessions session state }

/-- `CreateSession` when the accept slot is armed. -/
def create (system : AbuseSystem Session Watchdog) (session : Session) :
    Option (AbuseSystem Session Watchdog) :=
  let state := system.sessions session
  if state.pc = .unborn then
    some (system.setSession session
      { state with
        pc := .accepting
        lastHeartbeatTick := system.tickCount
        rateLimiter := .full 40 20 system.tickCount })
  else none

/-- A receive completes: `buffer` is what the ring buffer holds then, or nothing
if the peer has closed the connection. -/
def receive (system : AbuseSystem Session Watchdog) (session : Session)
    (buffer : List UInt8) : Option (AbuseSystem Session Watchdog) :=
  let state := system.sessions session
  if state.pc = .receiving then
    if buffer = [] then
      some (system.setSession session
        { state with
          pc := .stopped
          connected := false })
    else
      let (packets, processedLen) := PacketSession.onRecv buffer
      let batch : Batch :=
        { packets := packets
          processedLen := processedLen }
      some (system.setSession session { state with pc := .onRecv batch })
  else none

/-- The next step of `ProcessConnect`, `ProcessRecv` or `OnRecvPacket`. -/
def advance (system : AbuseSystem Session Watchdog) (session : Session) :
    Option (AbuseSystem Session Watchdog) :=
  let state := system.sessions session
  let report (reason : String) : AbuseSystem Session Watchdog :=
    { system with
      monitor := system.monitor.reportAbuse session state.playerName
        state.netAddress reason system.tickCount }
  match state.pc with
  | .unborn => none
  | .accepting => none
  | .processConnect =>
      some (system.setSession session
        { state with
          pc := .addSession
          connected := true
          connectedAt := system.tickCount })
  | .addSession =>
      some ({ system with
        inService := system.inService.insert session }.setSession session
          { state with pc := .onConnected })
  | .onConnected =>
      some (system.setSession session
        { state with pc := .firstHeartbeat system.tickCount })
  | .firstHeartbeat tick =>
      some (system.setSession session
        { state with
          pc := .resetRateLimiter
          lastHeartbeatTick := tick })
  | .resetRateLimiter =>
      some (system.setSession session
        { state with
          pc := .registerRecv
          rateLimiter := state.rateLimiter.reset system.tickCount })
  | .registerRecv =>
      some (system.setSession session
        { state with pc := if state.connected then .receiving else .stopped })
  | .receiving => none
  | .onRecv { packets := [], processedLen := processedLen } =>
      -- `MoveReadPos` refuses to move by nothing
      if processedLen ≤ 0 then
        some (system.setSession session
          { state with
            pc := .stopped
            connected := false })
      else some (system.setSession session { state with pc := .registerRecv })
  | .onRecv { packets := packet :: packets, processedLen := processedLen } =>
      let batch : Batch :=
        { packets := packets
          processedLen := processedLen }
      let (admitted, rateLimiter) :=
        state.rateLimiter.consume 1 system.tickCount
      some (system.setSession session
        { state with
          pc := if admitted then .acceptPacket packet batch else .flooding batch
          rateLimiter := rateLimiter })
  | .flooding batch =>
      some (system.setSession session
        { state with
          pc := if state.isAbuseReported then .disconnect batch
            else .reportFlooding batch
          isAbuseReported := true })
  | .reportFlooding batch =>
      some ((report "Packet Flooding Detected").setSession session
        { state with pc := .disconnect batch })
  | .acceptPacket packet batch =>
      some (system.setSession session
        { state with pc := .updateHeartbeat packet system.tickCount batch })
  | .updateHeartbeat packet tick batch =>
      some (system.setSession session
        { state with
          pc := .handlePacket packet batch
          lastHeartbeatTick := tick
          acceptedAt := tick })
  | .handlePacket packet batch =>
      match readPacket packet with
      | none =>
          some ({ system with
            refused := system.refused ++ [session] }.setSession session
              { state with pc := .reportMalformed batch })
      | some packet =>
          some (system.setSession session
            { state with
              pc := if packet.id = .cHeartbeat then
                  .handleHeartbeat system.tickCount batch
                else .onRecv batch
              playerName := nameAfter state.playerName packet })
  | .handleHeartbeat tick batch =>
      some (system.setSession session
        { state with
          pc := .onRecv batch
          lastHeartbeatTick := tick })
  | .reportMalformed batch =>
      some ((report "Invalid Packet Framing / Malformed Data").setSession
        session { state with pc := .disconnect batch })
  | .disconnect batch =>
      some (system.setSession session
        { state with
          pc := .onRecv batch
          connected := false })
  | .stopped => none

variable [DecidableEq Watchdog]

def setWatchdog (system : AbuseSystem Session Watchdog) (watchdog : Watchdog)
    (pc : WatchdogPc Session) : AbuseSystem Session Watchdog :=
  { system with watchdogs := Function.update system.watchdogs watchdog pc }

/-- The next step in the loop of `CheckHeartbeatTimeouts`. -/
def watch (system : AbuseSystem Session Watchdog) (watchdog : Watchdog) :
    Option (AbuseSystem Session Watchdog) :=
  match system.watchdogs watchdog with
  | .idle => none
  | .snapshot _ _ => none
  | .check _ _ [] => some (system.setWatchdog watchdog .idle)
  | .check timeoutMs now (session :: sessions) =>
      some (system.setWatchdog watchdog
        (if (system.sessions session).connected then
          .readHeartbeat timeoutMs now session sessions
        else .check timeoutMs now sessions))
  | .readHeartbeat timeoutMs now session sessions =>
      let state := system.sessions session
      if state.lastHeartbeatTick = 0 ∨ now ≤ state.lastHeartbeatTick then
        some (system.setWatchdog watchdog (.check timeoutMs now sessions))
      else
        let check : HeartbeatCheck Session :=
          { session := session
            timeoutMs := timeoutMs
            now := now
            lastHeartbeat := state.lastHeartbeatTick
            connectedAt := state.connectedAt
            acceptedAt := state.acceptedAt }
        some ({ system with
          checks := system.checks ++ [check] }.setWatchdog watchdog
            (if check.timedOut then
              .reportTimeout timeoutMs now session sessions
            else .check timeoutMs now sessions))
  | .reportTimeout timeoutMs now session sessions =>
      some ({ system with
        monitor := system.monitor.reportAbuse session []
          (system.sessions session).netAddress
          "Heartbeat Timeout (Keep-alive Failed)"
          system.tickCount }.setWatchdog watchdog
            (.disconnect timeoutMs now session sessions))
  | .disconnect timeoutMs now session sessions =>
      some ((system.setSession session
        { system.sessions session with connected := false }).setWatchdog
          watchdog (.check timeoutMs now sessions))

def step (system : AbuseSystem Session Watchdog) :
    AbuseAction Session Watchdog → Option (AbuseSystem Session Watchdog)
  | .tick now =>
      if system.tickCount ≤ now then some { system with tickCount := now }
      else none
  | .create session => system.create session
  | .accept session address =>
      let state := system.sessions session
      if state.pc = .accepting then
        some (system.setSession session
          { state with
            pc := .processConnect
            netAddress := address })
      else none
  | .receive session buffer => system.receive session buffer
  | .advance session => system.advance session
  | .disconnect session =>
      some (system.setSession session
        { system.sessions session with connected := false })
  | .releaseSession session =>
      if (system.sessions session).connected then none
      else some { system with inService := system.inService.erase session }
  | .checkHeartbeatTimeouts watchdog timeoutMs =>
      if system.watchdogs watchdog = .idle then
        some (system.setWatchdog watchdog
          (.snapshot timeoutMs system.tickCount))
      else none
  | .snapshot watchdog sessions =>
      match system.watchdogs watchdog with
      | .snapshot timeoutMs now =>
          if sessions.Perm system.inService then
            some (system.setWatchdog watchdog (.check timeoutMs now sessions))
          else none
      | _ => none
  | .watch watchdog => system.watch watchdog

/-- No session has been created. -/
def initial (tickCount : UInt64) : AbuseSystem Session Watchdog :=
  { tickCount := tickCount
    sessions := fun _ =>
      { pc := .unborn
        connected := false
        lastHeartbeatTick := 0
        netAddress :=
          { ipAddress := []
            port := 0 }
        playerName := []
        isAbuseReported := false
        rateLimiter := .full 40 20 0
        connectedAt := 0
        acceptedAt := 0 }
    inService := []
    monitor :=
      { logs := []
        abuseCount := 0 }
    watchdogs := fun _ => .idle
    checks := []
    refused := [] }

def machine (Session Watchdog : Type) [DecidableEq Session]
    [DecidableEq Watchdog] :
    Machine (AbuseSystem Session Watchdog) (AbuseAction Session Watchdog) where
  initial system := ∃ tickCount, system = initial tickCount
  step := step

end AbuseSystem

end IocpChat
