import Mathlib.Logic.Function.Basic
import IocpChat.ChatServer.ChatServer

/-!
# What concerns one session

`SessionView` is the part of the server that decides in which rooms one session
is a member: its `_room`, its handler and `OnDisconnected`, and in every room
its own membership and its own jobs.  What the server does for other sessions
does not move the view.
-/

namespace IocpChat

open Protocol

structure RoomView where
  member : Bool
  jobs : List RoomJob
  running : Option JobPhase
  deriving DecidableEq, Repr

structure SessionView where
  room : Option RoomId
  handler : Option HandlerPhase
  disconnecting : DisconnectPhase
  rooms : RoomId → RoomView

/-- The steps of a session that conditions speak about: a `C_ENTER_ROOM` is
handed to its handler, the handler reads `_room`, `OnDisconnected` reads it. -/
inductive SessionEvent where
  | receiveEnter (targetRoom : RoomId)
  | enterRoom (targetRoom : RoomId)
  | disconnect
  | other
  deriving DecidableEq, Repr

namespace RoomView

def pushJob (room : RoomView) (job : RoomJob) : RoomView :=
  { room with jobs := room.jobs ++ [job] }

def run (room : RoomView) (running : Option JobPhase) : RoomView :=
  { room with running := running }

def setMember (room : RoomView) (member : Bool) : RoomView :=
  { room with member := member }

end RoomView

namespace SessionView

def setRoom (view : SessionView) (room : Option RoomId) : SessionView :=
  { view with room := room }

def setHandler (view : SessionView) (handler : Option HandlerPhase) :
    SessionView :=
  { view with handler := handler }

def setDisconnecting (view : SessionView) (phase : DisconnectPhase) :
    SessionView :=
  { view with disconnecting := phase }

def update (view : SessionView) (room : RoomId) (value : RoomView) :
    SessionView :=
  { view with rooms := Function.update view.rooms room value }

def pushJob (view : SessionView) (room : RoomId) (job : RoomJob) :
    SessionView :=
  view.update room ((view.rooms room).pushJob job)

def run (view : SessionView) (room : RoomId) (running : Option JobPhase) :
    SessionView :=
  view.update room ((view.rooms room).run running)

@[simp] theorem rooms_update_self (view : SessionView) (room : RoomId)
    (value : RoomView) : (view.update room value).rooms room = value :=
  Function.update_self ..

theorem rooms_update_other (view : SessionView) {room other : RoomId}
    (different : other ≠ room) (value : RoomView) :
    (view.update room value).rooms other = view.rooms other :=
  Function.update_of_ne different ..

@[simp] theorem running_pushJob (view : SessionView) (target room : RoomId)
    (job : RoomJob) :
    ((view.pushJob target job).rooms room).running =
      (view.rooms room).running := by
  by_cases same : room = target
  · subst same
    rw [pushJob, rooms_update_self]
    rfl
  · rw [pushJob, rooms_update_other _ same]

@[simp] theorem member_pushJob (view : SessionView) (target room : RoomId)
    (job : RoomJob) :
    ((view.pushJob target job).rooms room).member =
      (view.rooms room).member := by
  by_cases same : room = target
  · subst same
    rw [pushJob, rooms_update_self]
    rfl
  · rw [pushJob, rooms_update_other _ same]

/-- The phases after which a job only sends: they neither look at `_members` and
`_room` nor change them. -/
def quietNext : JobPhase → Option (Option JobPhase)
  | .replyEnter => some (some .noticeJoined)
  | .noticeJoined => some none
  | .replyLeave targetRoom => some (some (.noticeLeft targetRoom))
  | .noticeLeft targetRoom => some (targetRoom.map .pushEnter)
  | .broadcastChat _ => some none
  | _ => none

/-- The steps of the session's handler, callback and jobs. -/
inductive Step : SessionView → SessionEvent → SessionView → Prop where
  | elsewhere (view : SessionView) : Step view .other view
  | receiveEnter {view : SessionView} (targetRoom : RoomId) :
      view.handler = none →
      Step view (.receiveEnter targetRoom)
        (view.setHandler (some (.readRoom targetRoom)))
  | request {view : SessionView} {room : RoomId} {job : RoomJob} :
      view.handler = none →
      view.room = some room →
      job = .leave ∨ (∃ message, job = .handleChat message) →
      Step view .other (view.setHandler (some (.push room job)))
  | ignore {view : SessionView} {targetRoom : RoomId} :
      view.handler = some (.readRoom targetRoom) →
      view.room = some targetRoom →
      Step view (.enterRoom targetRoom) (view.setHandler none)
  | switch {view : SessionView} {oldRoom targetRoom : RoomId} :
      view.handler = some (.readRoom targetRoom) →
      view.room = some oldRoom →
      oldRoom ≠ targetRoom →
      Step view (.enterRoom targetRoom)
        (view.setHandler (some (.push oldRoom (.leaveAndEnter targetRoom))))
  | join {view : SessionView} {targetRoom : RoomId} :
      view.handler = some (.readRoom targetRoom) →
      view.room = none →
      Step view (.enterRoom targetRoom)
        (view.setHandler (some (.push targetRoom .enter)))
  | push {view : SessionView} {room : RoomId} {job : RoomJob} :
      view.handler = some (.push room job) →
      Step view .other ((view.pushJob room job).setHandler none)
  | disconnect {view : SessionView} {room : RoomId} :
      view.disconnecting = .connected →
      view.room = some room →
      Step view .disconnect (view.setDisconnecting (.pushLeave room))
  | disconnectOutside {view : SessionView} :
      view.disconnecting = .connected →
      view.room = none →
      Step view .disconnect (view.setDisconnecting .disconnected)
  | pushLeave {view : SessionView} {room : RoomId} :
      view.disconnecting = .pushLeave room →
      Step view .other ((view.pushJob room .leave).setDisconnecting .clearRoom)
  | forgetRoom {view : SessionView} :
      view.disconnecting = .clearRoom →
      Step view .other ((view.setRoom none).setDisconnecting .disconnected)
  | start {view : SessionView} {room : RoomId} {job : RoomJob}
      {rest : List RoomJob} :
      (view.rooms room).running = none →
      (view.rooms room).jobs = job :: rest →
      Step view .other
        (view.update room
          { view.rooms room with
            jobs := rest
            running := some job.firstPhase })
  | insertMember {view : SessionView} {room : RoomId} :
      (view.rooms room).running = some .insertMember →
      Step view .other
        (view.update room
          (((view.rooms room).setMember true).run (some .setRoom)))
  | setRoom {view : SessionView} {room : RoomId} :
      (view.rooms room).running = some .setRoom →
      Step view .other ((view.setRoom (some room)).run room (some .replyEnter))
  | eraseMember {view : SessionView} {room : RoomId}
      {targetRoom : Option RoomId} :
      (view.rooms room).running = some (.eraseMember targetRoom) →
      Step view .other
        (view.update room
          (((view.rooms room).setMember false).run
            (some (.readRoom targetRoom))))
  | readHere {view : SessionView} {room : RoomId}
      {targetRoom : Option RoomId} :
      (view.rooms room).running = some (.readRoom targetRoom) →
      view.room = some room →
      Step view .other (view.run room (some (.clearRoom targetRoom)))
  | readElsewhere {view : SessionView} {room : RoomId}
      {targetRoom : Option RoomId} :
      (view.rooms room).running = some (.readRoom targetRoom) →
      view.room ≠ some room →
      Step view .other (view.run room (some (.replyLeave targetRoom)))
  | clearRoom {view : SessionView} {room : RoomId}
      {targetRoom : Option RoomId} :
      (view.rooms room).running = some (.clearRoom targetRoom) →
      Step view .other
        ((view.setRoom none).run room (some (.replyLeave targetRoom)))
  | quiet {view : SessionView} {room : RoomId} {phase : JobPhase}
      {next : Option JobPhase} :
      (view.rooms room).running = some phase →
      quietNext phase = some next →
      Step view .other (view.run room next)
  | pushEnter {view : SessionView} {room targetRoom : RoomId} :
      (view.rooms room).running = some (.pushEnter targetRoom) →
      Step view .other ((view.run room none).pushJob targetRoom .enter)

end SessionView

section Views

variable {Session : Type} [DecidableEq Session]

/-- The phase of a room's job, if it is a job for this session. -/
def runningFor (session : Session) :
    Option (Session × JobPhase) → Option JobPhase
  | some (owner, phase) => if owner = session then some phase else none
  | none => none

@[simp] theorem runningFor_none (session : Session) :
    runningFor session none = none :=
  rfl

@[simp] theorem runningFor_self (session : Session) (phase : JobPhase) :
    runningFor session (some (session, phase)) = some phase :=
  if_pos rfl

theorem runningFor_other {session owner : Session} (different : owner ≠ session)
    (phase : JobPhase) : runningFor session (some (owner, phase)) = none :=
  if_neg different

/-- The jobs for this session. -/
def jobsFor (session : Session) (jobs : List (Session × RoomJob)) :
    List RoomJob :=
  jobs.filterMap fun (owner, job) => if owner = session then some job else none

@[simp] theorem jobsFor_self (session : Session) (job : RoomJob)
    (rest : List (Session × RoomJob)) :
    jobsFor session ((session, job) :: rest) = job :: jobsFor session rest := by
  simp [jobsFor]

theorem jobsFor_other {session owner : Session} (different : owner ≠ session)
    (job : RoomJob) (rest : List (Session × RoomJob)) :
    jobsFor session ((owner, job) :: rest) = jobsFor session rest := by
  simp [jobsFor, different]

@[simp] theorem jobsFor_append (session : Session)
    (first second : List (Session × RoomJob)) :
    jobsFor session (first ++ second) =
      jobsFor session first ++ jobsFor session second :=
  List.filterMap_append

namespace Room

def view (room : Room Session) (session : Session) : RoomView :=
  { member := decide (session ∈ room.members)
    jobs := jobsFor session room.jobs
    running := runningFor session room.running }

@[simp] theorem view_pushJob_self (room : Room Session) (session : Session)
    (job : RoomJob) :
    (room.pushJob session job).view session =
      (room.view session).pushJob job := by
  change ({ room.view session with
    jobs := jobsFor session (room.jobs ++ [(session, job)]) } : RoomView) = _
  rw [jobsFor_append, jobsFor_self]
  rfl

theorem view_pushJob_other (room : Room Session) {session owner : Session}
    (different : owner ≠ session) (job : RoomJob) :
    (room.pushJob owner job).view session = room.view session := by
  change ({ room.view session with
    jobs := jobsFor session (room.jobs ++ [(owner, job)]) } : RoomView) = _
  rw [jobsFor_append, jobsFor_other different]
  exact congrArg (fun jobs => ({ room.view session with jobs := jobs } :
    RoomView)) (List.append_nil _)

@[simp] theorem view_run (room : Room Session) (session : Session)
    (running : Option (Session × JobPhase)) :
    (room.run running).view session =
      (room.view session).run (runningFor session running) :=
  rfl

/-- A room that is free starts a job of the session. -/
theorem view_start_self (room : Room Session) (session : Session)
    (job : RoomJob) (rest : List (Session × RoomJob)) :
    ({ room with
        jobs := rest
        running := some (session, job.firstPhase) } :
      Room Session).view session =
      { room.view session with
        jobs := jobsFor session rest
        running := some job.firstPhase } := by
  simp only [view, runningFor_self]

/-- A room that is free starts a job of another session. -/
theorem view_start_other {room : Room Session} {session owner : Session}
    (different : owner ≠ session) {job : RoomJob}
    {rest : List (Session × RoomJob)} (free : room.running = none)
    (queued : room.jobs = (owner, job) :: rest) :
    ({ room with
        jobs := rest
        running := some (owner, job.firstPhase) } :
      Room Session).view session = room.view session := by
  simp only [view, runningFor_other different, free, runningFor_none, queued,
    jobsFor_other different]

@[simp] theorem view_insertMember_self (room : Room Session)
    (session : Session) :
    (room.insertMember session).view session =
      (room.view session).setMember true := by
  by_cases present : session ∈ room.members <;>
    simp [view, insertMember, RoomView.setMember, present]

theorem view_insertMember_other (room : Room Session)
    {session owner : Session} (different : owner ≠ session) :
    (room.insertMember owner).view session = room.view session := by
  by_cases present : owner ∈ room.members <;>
    simp [view, insertMember, present, Ne.symm different]

@[simp] theorem view_eraseMember_self (room : Room Session)
    (session : Session) :
    (room.eraseMember session).view session =
      (room.view session).setMember false := by
  simp [view, eraseMember, RoomView.setMember]

theorem view_eraseMember_other (room : Room Session)
    {session owner : Session} (different : owner ≠ session) :
    (room.eraseMember owner).view session = room.view session := by
  simp [view, eraseMember, Ne.symm different]

end Room

namespace ChatServer

def view (state : ChatServer Session) (session : Session) : SessionView :=
  { room := (state.sessions session).room
    handler := (state.sessions session).handler
    disconnecting := (state.sessions session).disconnecting
    rooms := fun room => (state.rooms room).view session }

@[simp] theorem view_setRoom (state : ChatServer Session) (session : Session)
    (room : RoomId) (value : Room Session) :
    (state.setRoom room value).view session =
      (state.view session).update room (value.view session) := by
  have moved := Function.comp_update (fun room : Room Session =>
    room.view session) state.rooms room value
  simp only [view, setRoom, SessionView.update, SessionView.mk.injEq, true_and]
  exact moved

theorem view_setSession_other (state : ChatServer Session)
    {session owner : Session} (different : owner ≠ session)
    (value : ClientSession) :
    (state.setSession owner value).view session = state.view session := by
  simp [view, setSession, different.symm]

@[simp] theorem view_emit (state : ChatServer Session) (session : Session)
    (output : Output Session) :
    (state.emit output).view session = state.view session :=
  rfl

@[simp] theorem view_setHandler_self (state : ChatServer Session)
    (session : Session) (handler : Option HandlerPhase) :
    (state.setHandler session handler).view session =
      (state.view session).setHandler handler := by
  simp [view, setHandler, setSession, ClientSession.setHandler,
    SessionView.setHandler]

@[simp] theorem view_setSessionRoom_self (state : ChatServer Session)
    (session : Session) (room : Option RoomId) :
    (state.setSessionRoom session room).view session =
      (state.view session).setRoom room := by
  simp [view, setSessionRoom, setSession, ClientSession.setRoom,
    SessionView.setRoom]

@[simp] theorem view_setDisconnecting_self (state : ChatServer Session)
    (session : Session) (phase : DisconnectPhase) :
    (state.setDisconnecting session phase).view session =
      (state.view session).setDisconnecting phase := by
  simp [view, setDisconnecting, setSession, ClientSession.setDisconnecting,
    SessionView.setDisconnecting]

@[simp] theorem view_run (state : ChatServer Session) (session : Session)
    (room : RoomId) (running : Option (Session × JobPhase)) :
    (state.run room running).view session =
      (state.view session).run room (runningFor session running) :=
  view_setRoom state session room _

@[simp] theorem view_pushJob_self (state : ChatServer Session)
    (session : Session) (room : RoomId) (job : RoomJob) :
    (state.pushJob room session job).view session =
      (state.view session).pushJob room job := by
  rw [pushJob, view_setRoom, Room.view_pushJob_self]
  rfl

/-- Nothing changes for a session that has no job running in the room. -/
theorem view_run_none (state : ChatServer Session) {session : Session}
    {room : RoomId}
    (outside : ((state.view session).rooms room).running = none) :
    (state.view session).run room none = state.view session := by
  rw [SessionView.run, RoomView.run, ← outside, SessionView.update,
    Function.update_eq_self]

theorem view_pushJob_other (state : ChatServer Session)
    {session owner : Session} (different : owner ≠ session) (room : RoomId)
    (job : RoomJob) :
    (state.pushJob room owner job).view session = state.view session := by
  rw [pushJob, view_setRoom, Room.view_pushJob_other _ different]
  exact congrArg _ (Function.update_eq_self room _)

theorem view_getOrCreateRoom (state : ChatServer Session) (session : Session)
    (roomId : RoomId) (defaultName : StdString) :
    (state.getOrCreateRoom roomId defaultName).view session =
      state.view session := by
  unfold getOrCreateRoom
  split
  · rfl
  · rw [view_setRoom]
    exact congrArg _ (Function.update_eq_self roomId _)

theorem requestJob_outputs (state : ChatServer Session) (session : Session)
    (job : RoomJob) :
    (state.requestJob session job).outputs = state.outputs := by
  unfold requestJob
  split <;> rfl

omit [DecidableEq Session] in
theorem getOrCreateRoom_outputs (state : ChatServer Session)
    (roomId : RoomId) (defaultName : StdString) :
    (state.getOrCreateRoom roomId defaultName).outputs = state.outputs := by
  unfold getOrCreateRoom
  split <;> rfl

/-- What a packet means to the session that sent it. -/
def packetEvent : Packet → SessionEvent
  | ⟨.cEnterRoom, packet⟩ => .receiveEnter packet.roomId
  | _ => .other

/-- What the action means to a session. -/
def event (state : ChatServer Session) (session : Session) :
    ChatAction Session → SessionEvent
  | .packet owner packet _ =>
      if owner = session then packetEvent packet else .other
  | .handle owner =>
      if owner = session then
        match (state.sessions owner).handler with
        | some (.readRoom targetRoom) => .enterRoom targetRoom
        | _ => .other
      else .other
  | .disconnect owner => if owner = session then .disconnect else .other
  | _ => .other

/-- The handling of a packet up to the first access of `_room`. -/
theorem handlePacket_self {state next : ChatServer Session} {session : Session}
    {tick : UInt64} {packet : Packet}
    (idle : (state.sessions session).handler = none)
    (handled : state.handlePacket session tick packet = some next) :
    (state.view session).Step (packetEvent packet) (next.view session) := by
  have requests : ∀ job, job = .leave ∨ (∃ message, job = .handleChat message) →
      (state.view session).Step .other
        ((state.requestJob session job).view session) := by
    intro job harmless
    unfold requestJob
    split
    · rename_i room at_
      rw [view_setHandler_self]
      exact .request idle at_ harmless
    · exact .elsewhere _
  unfold handlePacket at handled
  split at handled
  · -- C_LOGIN
    obtain rfl := Option.some.inj handled
    rename_i packet
    have same : (state.handleLogin session packet).view session =
        state.view session := by
      simp [handleLogin, view, setSession, emit, ClientSession.setPlayerInfo]
    rw [same]
    exact .elsewhere _
  · obtain rfl := Option.some.inj handled
    exact .elsewhere _
  · obtain rfl := Option.some.inj handled
    exact .elsewhere _
  · -- C_ENTER_ROOM
    obtain rfl := Option.some.inj handled
    rw [handleEnterRoom, view_setHandler_self, view_getOrCreateRoom]
    exact .receiveEnter _ idle
  · obtain rfl := Option.some.inj handled
    exact requests .leave (Or.inl rfl)
  · obtain rfl := Option.some.inj handled
    exact requests _ (Or.inr ⟨_, rfl⟩)
  · obtain rfl := Option.some.inj handled
    exact .elsewhere _
  · cases handled

theorem handlePacket_other {state next : ChatServer Session}
    {session owner : Session} (different : owner ≠ session) {tick : UInt64}
    {packet : Packet}
    (handled : state.handlePacket owner tick packet = some next) :
    next.view session = state.view session := by
  have requests : ∀ job,
      (state.requestJob owner job).view session = state.view session := by
    intro job
    unfold requestJob
    split
    · exact view_setSession_other state different _
    · rfl
  unfold handlePacket at handled
  split at handled
  · obtain rfl := Option.some.inj handled
    exact view_setSession_other _ different _
  · obtain rfl := Option.some.inj handled
    rfl
  · obtain rfl := Option.some.inj handled
    rfl
  · obtain rfl := Option.some.inj handled
    exact (view_setSession_other _ different _).trans
      (view_getOrCreateRoom state session _ _)
  · obtain rfl := Option.some.inj handled
    exact requests _
  · obtain rfl := Option.some.inj handled
    exact requests _
  · obtain rfl := Option.some.inj handled
    rfl
  · cases handled

theorem advanceHandler_self {state : ChatServer Session} {session : Session}
    {phase : HandlerPhase}
    (at_ : (state.sessions session).handler = some phase) :
    (state.view session).Step (state.event session (.handle session))
      ((state.advanceHandler session phase).view session) := by
  have means : state.event session (.handle session) =
      match (some phase : Option HandlerPhase) with
      | some (.readRoom targetRoom) => .enterRoom targetRoom
      | _ => .other := by
    rw [event, if_pos rfl, at_]
  rw [means]
  cases phase with
  | push room job =>
      rw [advanceHandler, view_setHandler_self, view_pushJob_self]
      exact .push at_
  | readRoom targetRoom =>
      simp only [advanceHandler]
      split
      · rename_i oldRoom inside
        split
        · rename_i same
          subst same
          rw [view_setHandler_self]
          exact .ignore at_ inside
        · rename_i different
          rw [view_setHandler_self]
          exact .switch at_ inside different
      · rename_i outside
        rw [view_setHandler_self]
        exact .join at_ outside

theorem advanceHandler_other {state : ChatServer Session}
    {session owner : Session} (different : owner ≠ session)
    (phase : HandlerPhase) :
    (state.advanceHandler owner phase).view session = state.view session := by
  cases phase with
  | push room job =>
      exact (view_setSession_other _ different _).trans
        (view_pushJob_other state different room job)
  | readRoom targetRoom =>
      simp only [advanceHandler]
      split
      · split <;> exact view_setSession_other _ different _
      · exact view_setSession_other _ different _

theorem advanceDisconnect_self {state next : ChatServer Session}
    {session : Session}
    (advanced : state.advanceDisconnect session
      (state.sessions session).disconnecting = some next) :
    (state.view session).Step .other (next.view session) := by
  cases at_ : (state.sessions session).disconnecting with
  | connected =>
      rw [at_] at advanced
      cases advanced
  | disconnected =>
      rw [at_] at advanced
      cases advanced
  | pushLeave room =>
      rw [at_] at advanced
      obtain rfl := Option.some.inj advanced
      rw [view_setDisconnecting_self, view_pushJob_self]
      exact .pushLeave at_
  | clearRoom =>
      rw [at_] at advanced
      obtain rfl := Option.some.inj advanced
      rw [view_setDisconnecting_self, view_setSessionRoom_self]
      exact .forgetRoom at_

theorem advanceDisconnect_other {state next : ChatServer Session}
    {session owner : Session} (different : owner ≠ session)
    {phase : DisconnectPhase}
    (advanced : state.advanceDisconnect owner phase = some next) :
    next.view session = state.view session := by
  cases phase with
  | connected => cases advanced
  | disconnected => cases advanced
  | pushLeave room =>
      obtain rfl := Option.some.inj advanced
      exact (view_setSession_other _ different _).trans
        (view_pushJob_other state different room .leave)
  | clearRoom =>
      obtain rfl := Option.some.inj advanced
      exact (view_setSession_other _ different _).trans
        (view_setSession_other _ different _)

theorem advanceJob_self {state : ChatServer Session} {session : Session}
    {room : RoomId} {phase : JobPhase}
    (running : (state.rooms room).running = some (session, phase)) :
    (state.view session).Step .other
      ((state.advanceJob room session phase).view session) := by
  have at_ : ((state.view session).rooms room).running = some phase := by
    change runningFor session (state.rooms room).running = some phase
    rw [running, runningFor_self]
  cases phase with
  | insertMember =>
      rw [advanceJob, view_setRoom, Room.view_run,
        Room.view_insertMember_self, runningFor_self]
      exact .insertMember at_
  | setRoom =>
      rw [advanceJob, view_run, view_setSessionRoom_self, runningFor_self]
      exact .setRoom at_
  | replyEnter =>
      rw [advanceJob, view_run, view_emit, runningFor_self]
      exact .quiet at_ rfl
  | noticeJoined =>
      rw [advanceJob, view_run, broadcast, view_emit, runningFor_none]
      exact .quiet at_ rfl
  | eraseMember targetRoom =>
      rw [advanceJob, view_setRoom, Room.view_run, Room.view_eraseMember_self,
        runningFor_self]
      exact .eraseMember at_
  | readRoom targetRoom =>
      rw [advanceJob]
      split
      · rename_i here
        rw [view_run, runningFor_self]
        exact .readHere at_ here
      · rename_i elsewhere
        rw [view_run, runningFor_self]
        exact .readElsewhere at_ elsewhere
  | clearRoom targetRoom =>
      rw [advanceJob, view_run, view_setSessionRoom_self, runningFor_self]
      exact .clearRoom at_
  | replyLeave targetRoom =>
      rw [advanceJob, view_run, view_emit, runningFor_self]
      exact .quiet at_ rfl
  | noticeLeft targetRoom =>
      have after : runningFor session
          (targetRoom.map fun target => (session, .pushEnter target)) =
          targetRoom.map .pushEnter := by
        cases targetRoom with
        | none => rfl
        | some target => exact runningFor_self session _
      rw [advanceJob, view_run, broadcast, view_emit, after]
      exact .quiet at_ rfl
  | pushEnter targetRoom =>
      rw [advanceJob, view_pushJob_self, view_run, runningFor_none]
      exact .pushEnter at_
  | broadcastChat message =>
      rw [advanceJob, view_run, broadcast, view_emit, runningFor_none]
      exact .quiet at_ rfl

theorem advanceJob_other {state : ChatServer Session} {session owner : Session}
    (different : owner ≠ session) {room : RoomId} {phase : JobPhase}
    (running : (state.rooms room).running = some (owner, phase)) :
    (state.advanceJob room owner phase).view session = state.view session := by
  have outside : ((state.view session).rooms room).running = none := by
    change runningFor session (state.rooms room).running = none
    rw [running, runningFor_other different]
  have stays := view_run_none state outside
  have others := fun phase => runningFor_other different phase
  cases phase with
  | insertMember =>
      rw [advanceJob, view_setRoom, Room.view_run,
        Room.view_insertMember_other _ different, others]
      exact stays
  | setRoom =>
      rw [advanceJob, view_run, setSessionRoom,
        view_setSession_other state different, others]
      exact stays
  | replyEnter =>
      rw [advanceJob, view_run, view_emit, others]
      exact stays
  | noticeJoined =>
      rw [advanceJob, view_run, broadcast, view_emit, runningFor_none]
      exact stays
  | eraseMember targetRoom =>
      rw [advanceJob, view_setRoom, Room.view_run,
        Room.view_eraseMember_other _ different, others]
      exact stays
  | readRoom targetRoom =>
      rw [advanceJob]
      split <;> rw [view_run, others] <;> exact stays
  | clearRoom targetRoom =>
      rw [advanceJob, view_run, setSessionRoom,
        view_setSession_other state different, others]
      exact stays
  | replyLeave targetRoom =>
      rw [advanceJob, view_run, view_emit, others]
      exact stays
  | noticeLeft targetRoom =>
      have after : runningFor session
          (targetRoom.map fun target => (owner, .pushEnter target)) = none := by
        cases targetRoom with
        | none => rfl
        | some target => exact others _
      rw [advanceJob, view_run, broadcast, view_emit, after]
      exact stays
  | pushEnter targetRoom =>
      rw [advanceJob, view_pushJob_other _ different, view_run,
        runningFor_none]
      exact stays
  | broadcastChat message =>
      rw [advanceJob, view_run, broadcast, view_emit, runningFor_none]
      exact stays

/-- Every step of the server is a step of the session's view. -/
theorem step_view {state next : ChatServer Session}
    {action : ChatAction Session} (stepped : state.step action = some next)
    (session : Session) :
    (state.view session).Step (state.event session action)
      (next.view session) := by
  cases action with
  | packet owner packet tick =>
      change (if (state.sessions owner).handler = none then _ else none) = _
        at stepped
      split at stepped
      · rename_i idle
        by_cases own : owner = session
        · subst own
          rw [event, if_pos rfl]
          exact handlePacket_self idle stepped
        · rw [handlePacket_other own stepped, event, if_neg own]
          exact .elsewhere _
      · cases stepped
  | handle owner =>
      obtain ⟨phase, at_, rfl⟩ := Option.map_eq_some_iff.mp stepped
      by_cases own : owner = session
      · subst own
        exact advanceHandler_self at_
      · rw [advanceHandler_other own, event, if_neg own]
        exact .elsewhere _
  | disconnect owner =>
      change (if (state.sessions owner).disconnecting = .connected then _
        else none) = _ at stepped
      split at stepped
      · rename_i connected
        by_cases own : owner = session
        · subst own
          rw [event, if_pos rfl]
          split at stepped
          · rename_i room inside
            obtain rfl := Option.some.inj stepped
            rw [view_setDisconnecting_self]
            exact .disconnect connected inside
          · rename_i outside
            obtain rfl := Option.some.inj stepped
            rw [view_setDisconnecting_self]
            exact .disconnectOutside connected outside
        · rw [event, if_neg own]
          have same : next.view session = state.view session := by
            split at stepped <;> obtain rfl := Option.some.inj stepped <;>
              exact view_setSession_other state own _
          rw [same]
          exact .elsewhere _
      · cases stepped
  | onDisconnected owner =>
      by_cases own : owner = session
      · subst own
        exact advanceDisconnect_self stepped
      · rw [advanceDisconnect_other own stepped]
        exact .elsewhere _
  | start room =>
      simp only [step] at stepped
      split at stepped
      · rename_i owner job rest free queued
        obtain rfl := Option.some.inj stepped
        have free' : ((state.view session).rooms room).running = none := by
          change runningFor session (state.rooms room).running = none
          rw [free, runningFor_none]
        have jobs : ((state.view session).rooms room).jobs =
            jobsFor session ((owner, job) :: rest) :=
          congrArg (jobsFor session) queued
        rw [view_setRoom]
        by_cases own : owner = session
        · subst own
          rw [jobsFor_self] at jobs
          rw [Room.view_start_self]
          exact .start free' jobs
        · have same := Function.update_eq_self room (state.view session).rooms
          rw [Room.view_start_other own free queued]
          change SessionView.Step _ _
            ((state.view session).update room ((state.view session).rooms room))
          rw [SessionView.update, same]
          exact .elsewhere _
      · cases stepped
  | execute room =>
      obtain ⟨⟨owner, phase⟩, running, rfl⟩ :=
        Option.map_eq_some_iff.mp stepped
      by_cases own : owner = session
      · subst own
        exact advanceJob_self running
      · have same := advanceJob_other own running
        change SessionView.Step _ _
          ((state.advanceJob room owner phase).view session)
        rw [same]
        exact .elsewhere _

end ChatServer

end Views

end IocpChat
