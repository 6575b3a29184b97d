import IocpChat.ChatClient.ServerSession
import IocpChat.ChatServer.SessionActions

/-!
# What the client believes

The client learns where it is from the answers to its requests.  While it waits
for each of them before it makes the next one, it is right: its name is its
name, its room is its room once the answer is in, and every line of room chat
that it shows is labelled with the room in which it was said.

A request goes from the handler to the line of a room, and a `LeaveAndEnter`
from there to the line of another room.  The invariant says where it is, and how
far the server and the client have followed.
-/

namespace IocpChat

open Protocol TransitionSystem

/-- The jobs that move the session. -/
def RoomJob.moves : RoomJob → Bool
  | handleChat _ => false
  | _ => true

/-- `Leave`, or `LeaveAndEnter` where there is a target. -/
def leaving : Option RoomId → RoomJob
  | none => .leave
  | some targetRoom => .leaveAndEnter targetRoom

/-- The job that a phase belongs to, as long as it has not answered, or is to
push an `Enter`. -/
def JobPhase.unanswered : JobPhase → List RoomJob
  | insertMember => [.enter]
  | setRoom => [.enter]
  | replyEnter => [.enter]
  | eraseMember targetRoom => [leaving targetRoom]
  | readRoom targetRoom => [leaving targetRoom]
  | clearRoom targetRoom => [leaving targetRoom]
  | replyLeave targetRoom => [leaving targetRoom]
  | noticeLeft (some targetRoom) => [leaving (some targetRoom)]
  | pushEnter targetRoom => [leaving (some targetRoom)]
  | noticeJoined => []
  | noticeLeft none => []
  | broadcastChat _ => []

def JobPhase.running : Option JobPhase → List RoomJob
  | some phase => phase.unanswered
  | none => []

/-- The requests that are in a room. -/
def RoomView.unanswered (room : RoomView) : List RoomJob :=
  JobPhase.running room.running ++ room.jobs.filter RoomJob.moves

/-- The handler has a request that is in no room yet. -/
def HandlerPhase.asks : Option HandlerPhase → Bool
  | some (.readRoom _) => true
  | some (.push _ job) => job.moves
  | none => false

/-- The packets that ask for a room. -/
def Protocol.Packet.asksForRoom : Packet → Bool
  | ⟨.cEnterRoom, _⟩ => true
  | ⟨.cLeaveRoom, _⟩ => true
  | _ => false

theorem unanswered_firstPhase (job : RoomJob) :
    job.firstPhase.unanswered = [job].filter RoomJob.moves := by
  cases job with
  | _ => rfl

namespace SessionView

/-- A phase of a job of the session. -/
def work (view : SessionView) (room : RoomId) : JobPhase → SessionView
  | .insertMember =>
      view.update room (((view.rooms room).setMember true).run (some .setRoom))
  | .setRoom => (view.setRoom (some room)).run room (some .replyEnter)
  | .replyEnter => view.run room (some .noticeJoined)
  | .noticeJoined => view.run room none
  | .eraseMember targetRoom =>
      view.update room
        (((view.rooms room).setMember false).run (some (.readRoom targetRoom)))
  | .readRoom targetRoom =>
      if view.room = some room then
        view.run room (some (.clearRoom targetRoom))
      else view.run room (some (.replyLeave targetRoom))
  | .clearRoom targetRoom =>
      (view.setRoom none).run room (some (.replyLeave targetRoom))
  | .replyLeave targetRoom => view.run room (some (.noticeLeft targetRoom))
  | .noticeLeft targetRoom => view.run room (targetRoom.map .pushEnter)
  | .pushEnter targetRoom => (view.run room none).pushJob targetRoom .enter
  | .broadcastChat _ => view.run room none

/-- Where the session is a member, what its `_room` is, and what its client
shows. -/
structure Stands (view : SessionView) (client : RoomId)
    (place : Option RoomId × Option RoomId × RoomId) : Prop where
  member : ∀ room, (view.rooms room).member = true ↔ place.1 = some room
  room : view.room = place.2.1
  client : client = place.2.2

/-- With nothing on its way. -/
def settled (room : Option RoomId) : Option RoomId × Option RoomId × RoomId :=
  (room, room, room.getD 0)

/-- How far the server and the client have followed a request that is in this
room. -/
def place (room : RoomId) :
    RoomJob → Option JobPhase → Option RoomId × Option RoomId × RoomId
  | .enter, some .setRoom => (some room, none, 0)
  | .enter, some .replyEnter => (some room, some room, 0)
  | .enter, _ => settled none
  | _, some (.readRoom _) => (none, some room, room)
  | _, some (.clearRoom _) => (none, some room, room)
  | _, some (.replyLeave _) => (none, none, room)
  | _, some (.noticeLeft (some _)) => settled none
  | _, some (.pushEnter _) => settled none
  | _, _ => settled (some room)

/-- A handler asks for what fits the room it has read. -/
def Asks (room : Option RoomId) : HandlerPhase → Prop
  | .readRoom _ => True
  | .push _ .enter => room = none
  | .push there .leave => room = some there
  | .push there (.leaveAndEnter _) => room = some there
  | .push _ (.handleChat _) => False

/-- The request of the session: none, still in its handler, or in a room. -/
inductive Turn (view : SessionView) (client : RoomId) : Prop where
  | answered {room : Option RoomId} :
      (∀ other, (view.rooms other).unanswered = []) →
      HandlerPhase.asks view.handler = false →
      view.Stands client (settled room) → Turn view client
  | asks {room : Option RoomId} {phase : HandlerPhase} :
      (∀ other, (view.rooms other).unanswered = []) →
      view.handler = some phase → Asks room phase →
      view.Stands client (settled room) → Turn view client
  | works {room : RoomId} {job : RoomJob} :
      (view.rooms room).unanswered = [job] →
      (∀ other, other ≠ room → (view.rooms other).unanswered = []) →
      HandlerPhase.asks view.handler = false →
      view.Stands client (place room job (view.rooms room).running) →
      Turn view client

/-- Nothing is on its way. -/
def Answered (view : SessionView) : Prop :=
  (∀ room, (view.rooms room).unanswered = []) ∧
    HandlerPhase.asks view.handler = false

/-- A room in which nothing moves is like one that does nothing. -/
theorem place_quiet {room : RoomId} {job : RoomJob} {running : Option JobPhase}
    (quiet : JobPhase.running running = []) :
    place room job running = place room job none := by
  cases running with
  | none => rfl
  | some phase =>
      cases phase with
      | noticeJoined => cases job <;> rfl
      | broadcastChat message => cases job <;> rfl
      | noticeLeft targetRoom =>
          cases targetRoom with
          | none => cases job <;> rfl
          | some target => cases quiet
      | _ => cases quiet

theorem place_firstPhase {room : RoomId} {job started : RoomJob} :
    place room job (some started.firstPhase) = place room job none := by
  cases job <;> cases started <;> rfl

/-- Something happens in a room that moves nothing. -/
theorem Turn.update {view : SessionView} {client there : RoomId}
    {value : RoomView} (turn : view.Turn client)
    (unanswered : value.unanswered = (view.rooms there).unanswered)
    (member : value.member = (view.rooms there).member)
    (same : ∀ job, place there job value.running =
      place there job (view.rooms there).running) :
    (view.update there value).Turn client := by
  have lines : ∀ room, ((view.update there value).rooms room).unanswered =
      (view.rooms room).unanswered := by
    intro room
    by_cases here : room = there
    · subst here
      rw [rooms_update_self, unanswered]
    · rw [rooms_update_other view here]
  have stands : ∀ place, view.Stands client place →
      (view.update there value).Stands client place := by
    intro place stands
    refine ⟨?_, stands.room, stands.client⟩
    intro room
    by_cases here : room = there
    · subst here
      rw [rooms_update_self, member]
      exact stands.member room
    · rw [rooms_update_other view here]
      exact stands.member room
  cases turn with
  | answered nothing silent settled =>
      apply Turn.answered
      · intro other
        rw [lines, nothing]
      · exact silent
      · exact stands _ settled
  | asks nothing at_ fits settled =>
      apply Turn.asks
      · intro other
        rw [lines, nothing]
      · exact at_
      · exact fits
      · exact stands _ settled
  | @works room job here elsewhere silent placed =>
      apply Turn.works
      · rw [lines, here]
      · intro other different
        rw [lines, elsewhere other different]
      · exact silent
      · apply stands
        by_cases there_ : room = there
        · subst there_
          rw [rooms_update_self, same]
          exact placed
        · rw [rooms_update_other view there_]
          exact placed

/-- The handler changes, but has no request before or after. -/
theorem Turn.silent {view : SessionView} {client : RoomId}
    {handler : Option HandlerPhase} (turn : view.Turn client)
    (before : HandlerPhase.asks view.handler = false)
    (after : HandlerPhase.asks handler = false) :
    (view.setHandler handler).Turn client := by
  cases turn with
  | answered nothing _ settled =>
      exact .answered nothing after ⟨settled.member, settled.room,
        settled.client⟩
  | @asks room phase nothing at_ fits settled =>
      rw [at_] at before
      cases phase with
      | readRoom targetRoom => cases before
      | push there job =>
          cases job with
          | handleChat message => exact fits.elim
          | _ => cases before
  | works here elsewhere _ placed =>
      exact .works here elsewhere after ⟨placed.member, placed.room,
        placed.client⟩

/-- Before a client makes a request, it has the answers to the others. -/
theorem Turn.settled_of_answered {view : SessionView} {client : RoomId}
    (turn : view.Turn client) (answered : view.Answered) :
    ∃ room, view.Stands client (settled room) := by
  cases turn with
  | answered _ _ settled => exact ⟨_, settled⟩
  | asks _ _ _ settled => exact ⟨_, settled⟩
  | works here _ _ _ =>
      rw [answered.1] at here
      cases here

theorem receive_turn {view : SessionView} {client : RoomId} {packet : Packet}
    (turn : view.Turn client) (idle : view.handler = none)
    (inTurn : packet.asksForRoom = true → view.Answered) :
    (view.receive packet).Turn client := by
  have before : HandlerPhase.asks view.handler = false := by
    rw [idle]
    rfl
  obtain ⟨id, fields⟩ := packet
  cases id with
  | cEnterRoom =>
      have answered := inTurn rfl
      obtain ⟨room, stands⟩ := turn.settled_of_answered answered
      exact @Turn.asks _ _ room (.readRoom fields.roomId) answered.1 rfl
        trivial ⟨stands.member, stands.room, stands.client⟩
  | cLeaveRoom =>
      have answered := inTurn rfl
      obtain ⟨room, stands⟩ := turn.settled_of_answered answered
      simp only [receive, request]
      split
      · rename_i there inside
        have fits : Asks room (.push there .leave) := by
          have same := stands.room
          rw [inside] at same
          exact same.symm
        exact .asks answered.1 rfl fits
          ⟨stands.member, stands.room, stands.client⟩
      · exact turn
  | cRoomChat =>
      simp only [receive, request]
      split
      · exact turn.silent before rfl
      · exact turn
  | _ => exact turn

theorem unanswered_pushJob_self (view : SessionView) {room : RoomId}
    {job : RoomJob} :
    ((view.pushJob room job).rooms room).unanswered =
      (view.rooms room).unanswered ++ [job].filter RoomJob.moves := by
  rw [pushJob, rooms_update_self]
  simp [RoomView.pushJob, RoomView.unanswered]

theorem unanswered_pushJob_other (view : SessionView) {room other : RoomId}
    {job : RoomJob} (different : other ≠ room) :
    ((view.pushJob room job).rooms other).unanswered =
      (view.rooms other).unanswered := by
  rw [pushJob, rooms_update_other view different]

theorem running_nil {room : RoomView} (nothing : room.unanswered = []) :
    JobPhase.running room.running = [] :=
  (List.append_eq_nil_iff.mp nothing).1

/-- A request comes into the line of a room. -/
theorem Turn.push {view : SessionView} {client there : RoomId} {job : RoomJob}
    {handler : Option HandlerPhase}
    (nothing : ∀ other, (view.rooms other).unanswered = [])
    (moves : job.moves = true) (silent : HandlerPhase.asks handler = false)
    (placed : view.Stands client (place there job none)) :
    ((view.pushJob there job).setHandler handler).Turn client := by
  apply @Turn.works _ _ there job
  · change ((view.pushJob there job).rooms there).unanswered = [job]
    rw [unanswered_pushJob_self, nothing, List.nil_append,
      List.filter_cons_of_pos moves, List.filter_nil]
  · intro other different
    change ((view.pushJob there job).rooms other).unanswered = []
    rw [unanswered_pushJob_other view different, nothing]
  · exact silent
  · change SessionView.Stands _ _
      (place there job ((view.pushJob there job).rooms there).running)
    rw [running_pushJob, place_quiet (running_nil (nothing there))]
    refine ⟨?_, placed.room, placed.client⟩
    intro room
    change ((view.pushJob there job).rooms room).member = true ↔ _
    rw [member_pushJob]
    exact placed.member room

theorem chat_turn {view : SessionView} {client there : RoomId}
    {message : StdString} (turn : view.Turn client)
    (at_ : view.handler = some (.push there (.handleChat message))) :
    ((view.pushJob there (.handleChat message)).setHandler none).Turn
      client := by
  have pushed : (view.pushJob there (.handleChat message)).Turn client := by
    apply turn.update
    · simp [RoomView.unanswered, RoomView.pushJob, RoomJob.moves]
    · rfl
    · intro job
      rfl
  apply pushed.silent
  · change HandlerPhase.asks view.handler = false
    rw [at_]
    rfl
  · rfl

/-- The handler goes on. -/
theorem advance_turn {view : SessionView} {client : RoomId}
    {phase : HandlerPhase} (turn : view.Turn client)
    (at_ : view.handler = some phase) : (view.advance phase).Turn client := by
  have asking : HandlerPhase.asks (some phase) = true →
      (∀ other, (view.rooms other).unanswered = []) ∧
        ∃ room, Asks room phase ∧ view.Stands client (settled room) := by
    intro asks
    cases turn with
    | answered _ silent _ =>
        rw [at_, asks] at silent
        cases silent
    | asks nothing there fits settled =>
        obtain rfl := Option.some.inj (at_.symm.trans there)
        exact ⟨nothing, _, fits, settled⟩
    | works _ _ silent _ =>
        rw [at_, asks] at silent
        cases silent
  cases phase with
  | readRoom targetRoom =>
      obtain ⟨nothing, room, _, settled⟩ := asking rfl
      have read : view.room = room := settled.room
      simp only [advance]
      cases inside : view.room with
      | none =>
          have fits : Asks room (.push targetRoom .enter) := by
            rw [← read, inside]
            rfl
          exact .asks nothing rfl fits
            ⟨settled.member, settled.room, settled.client⟩
      | some oldRoom =>
          by_cases same : oldRoom = targetRoom
          · simp only [same, if_true]
            exact .answered nothing rfl
              ⟨settled.member, settled.room, settled.client⟩
          · simp only [same, if_false]
            have fits :
                Asks room (.push oldRoom (.leaveAndEnter targetRoom)) := by
              rw [← read, inside]
              rfl
            exact .asks nothing rfl fits
              ⟨settled.member, settled.room, settled.client⟩
  | push there job =>
      cases job with
      | handleChat message => exact chat_turn turn at_
      | enter =>
          obtain ⟨nothing, room, fits, settled⟩ := asking rfl
          cases fits
          exact .push nothing rfl rfl settled
      | leave =>
          obtain ⟨nothing, room, fits, settled⟩ := asking rfl
          cases fits
          exact .push nothing rfl rfl settled
      | leaveAndEnter targetRoom =>
          obtain ⟨nothing, room, fits, settled⟩ := asking rfl
          cases fits
          exact .push nothing rfl rfl settled

/-- A room takes a job from its line. -/
theorem start_turn {view : SessionView} {client room : RoomId} {job : RoomJob}
    {rest : List RoomJob} (turn : view.Turn client)
    (free : (view.rooms room).running = none)
    (queued : (view.rooms room).jobs = job :: rest) :
    (view.update room
      { view.rooms room with
        jobs := rest
        running := some job.firstPhase }).Turn client := by
  apply turn.update
  · change job.firstPhase.unanswered ++ rest.filter RoomJob.moves =
      JobPhase.running (view.rooms room).running ++
        (view.rooms room).jobs.filter RoomJob.moves
    rw [free, queued, unanswered_firstPhase, ← List.filter_append]
    rfl
  · rfl
  · intro other
    rw [free]
    exact place_firstPhase

/-- The only request of the session is the one this room is working on. -/
structure Working (view : SessionView) (room : RoomId) : Prop where
  jobs : (view.rooms room).jobs.filter RoomJob.moves = []
  elsewhere : ∀ other, other ≠ room → (view.rooms other).unanswered = []
  silent : HandlerPhase.asks view.handler = false

theorem Turn.working {view : SessionView} {client room : RoomId}
    {phase : JobPhase} {job : RoomJob} (turn : view.Turn client)
    (at_ : (view.rooms room).running = some phase)
    (unanswered : phase.unanswered = [job]) :
    view.Working room ∧ view.Stands client (place room job (some phase)) := by
  have line : (view.rooms room).unanswered =
      job :: (view.rooms room).jobs.filter RoomJob.moves := by
    rw [RoomView.unanswered, at_, JobPhase.running, unanswered]
    rfl
  cases turn with
  | answered nothing _ _ =>
      rw [nothing] at line
      cases line
  | asks nothing _ _ _ =>
      rw [nothing] at line
      cases line
  | @works there asked here elsewhere silent placed =>
      by_cases same : room = there
      · subst same
        rw [line] at here
        obtain ⟨rfl, nothing⟩ := List.cons.inj here
        rw [at_] at placed
        exact ⟨⟨nothing, elsewhere, silent⟩, placed⟩
      · rw [elsewhere room same] at line
        cases line

theorem Working.elsewhere_update {view : SessionView} {room : RoomId}
    {value : RoomView} (working : view.Working room) (other : RoomId)
    (different : other ≠ room) :
    ((view.update room value).rooms other).unanswered = [] := by
  rw [rooms_update_other view different]
  exact working.elsewhere other different

/-- The job goes on. -/
theorem Working.turn {view : SessionView} {client room : RoomId}
    {value : RoomView} {job : RoomJob} (working : view.Working room)
    (jobs : value.jobs = (view.rooms room).jobs)
    (unanswered : JobPhase.running value.running = [job])
    (placed : (view.update room value).Stands client
      (place room job value.running)) :
    (view.update room value).Turn client := by
  apply @Turn.works _ _ room job
  · rw [rooms_update_self, RoomView.unanswered, unanswered, jobs,
      working.jobs, List.append_nil]
  · exact working.elsewhere_update
  · exact working.silent
  · rw [rooms_update_self]
    exact placed

/-- The job has answered. -/
theorem Working.answered {view : SessionView} {room : RoomId}
    {value : RoomView} (working : view.Working room)
    (jobs : value.jobs = (view.rooms room).jobs)
    (quiet : JobPhase.running value.running = []) (other : RoomId) :
    ((view.update room value).rooms other).unanswered = [] := by
  by_cases same : other = room
  · subst same
    rw [rooms_update_self, RoomView.unanswered, quiet, jobs, working.jobs,
      List.append_nil]
  · exact working.elsewhere_update other same

/-- Only the job's place in its phases changes. -/
theorem Stands.run {view : SessionView} {client room : RoomId}
    {place : Option RoomId × Option RoomId × RoomId}
    {running : Option JobPhase} (stands : view.Stands client place) :
    (view.run room running).Stands client place where
  member := by
    intro other
    rw [← stands.member other]
    by_cases same : other = room
    · subst same
      rw [SessionView.run, rooms_update_self]
      rfl
    · rw [SessionView.run, rooms_update_other view same]
  room := stands.room
  client := stands.client

theorem Stands.insertMember {view : SessionView} {client room : RoomId}
    {inside : Option RoomId} {shown : RoomId} {value : RoomView}
    (stands : view.Stands client (none, inside, shown))
    (member : value.member = true) :
    (view.update room value).Stands client (some room, inside, shown) where
  member := by
    intro other
    by_cases same : other = room
    · subst same
      rw [rooms_update_self, member]
      exact iff_of_true rfl rfl
    · rw [rooms_update_other view same, stands.member]
      constructor
      · intro nowhere
        cases nowhere
      · intro there
        exact (same (Option.some.inj there).symm).elim
  room := stands.room
  client := stands.client

theorem Stands.eraseMember {view : SessionView} {client room : RoomId}
    {inside : Option RoomId} {shown : RoomId} {value : RoomView}
    (stands : view.Stands client (some room, inside, shown))
    (member : value.member = false) :
    (view.update room value).Stands client (none, inside, shown) where
  member := by
    intro other
    by_cases same : other = room
    · subst same
      rw [rooms_update_self, member]
      constructor <;> intro impossible <;> cases impossible
    · rw [rooms_update_other view same, stands.member]
      constructor
      · intro there
        exact (same (Option.some.inj there).symm).elim
      · intro nowhere
        cases nowhere
  room := stands.room
  client := stands.client

/-- `_currentRoomId` after the reply that the phase sends. -/
def roomShown (room client : RoomId) : JobPhase → RoomId
  | .replyEnter => room
  | .replyLeave _ => 0
  | _ => client

/-- A job that moves nothing. -/
theorem quiet_turn {view : SessionView} {client room : RoomId}
    {phase : JobPhase} (turn : view.Turn client)
    (at_ : (view.rooms room).running = some phase)
    (quiet : phase.unanswered = []) : (view.run room none).Turn client := by
  apply turn.update
  · change [] ++ (view.rooms room).jobs.filter RoomJob.moves =
      JobPhase.running (view.rooms room).running ++ _
    rw [at_, JobPhase.running, quiet]
  · rfl
  · intro job
    rw [at_]
    exact (@place_quiet room job (some phase) quiet).symm

theorem work_turn {view : SessionView} {client room : RoomId}
    {phase : JobPhase} (turn : view.Turn client)
    (at_ : (view.rooms room).running = some phase) :
    (view.work room phase).Turn (roomShown room client phase) := by
  cases phase with
  | noticeJoined => exact quiet_turn turn at_ rfl
  | broadcastChat message => exact quiet_turn turn at_ rfl
  | insertMember =>
      obtain ⟨working, placed⟩ := turn.working at_ rfl
      exact working.turn rfl rfl (placed.insertMember rfl)
  | setRoom =>
      obtain ⟨working, placed⟩ := turn.working at_ rfl
      have entered : (view.setRoom (some room)).Stands client
          (some room, some room, 0) := ⟨placed.member, rfl, placed.client⟩
      have moved : (view.setRoom (some room)).Working room :=
        ⟨working.jobs, working.elsewhere, working.silent⟩
      exact moved.turn rfl rfl entered.run
  | replyEnter =>
      obtain ⟨working, placed⟩ := turn.working at_ rfl
      have shown : view.Stands room (settled (some room)) :=
        ⟨placed.member, placed.room, rfl⟩
      exact .answered (working.answered rfl rfl) working.silent shown.run
  | eraseMember targetRoom =>
      obtain ⟨working, placed⟩ := turn.working at_ rfl
      have erased : (view.work room (.eraseMember targetRoom)).Stands client
          (place room (leaving targetRoom) (some (.readRoom targetRoom))) := by
        cases targetRoom with
        | none => exact placed.eraseMember rfl
        | some target => exact placed.eraseMember rfl
      exact working.turn rfl rfl erased
  | readRoom targetRoom =>
      obtain ⟨working, placed⟩ := turn.working at_ rfl
      have outside : view.Stands client (none, some room, room) := by
        cases targetRoom with
        | none => exact placed
        | some target => exact placed
      have reads : (view.work room (.readRoom targetRoom)) =
          view.run room (some (.clearRoom targetRoom)) :=
        if_pos outside.room
      rw [reads]
      cases targetRoom with
      | none => exact working.turn rfl rfl outside.run
      | some target => exact working.turn rfl rfl outside.run
  | clearRoom targetRoom =>
      obtain ⟨working, placed⟩ := turn.working at_ rfl
      have outside : (view.setRoom none).Stands client (none, none, room) := by
        cases targetRoom with
        | none => exact ⟨placed.member, rfl, placed.client⟩
        | some target => exact ⟨placed.member, rfl, placed.client⟩
      have moved : (view.setRoom none).Working room :=
        ⟨working.jobs, working.elsewhere, working.silent⟩
      cases targetRoom with
      | none => exact moved.turn rfl rfl outside.run
      | some target => exact moved.turn rfl rfl outside.run
  | replyLeave targetRoom =>
      obtain ⟨working, placed⟩ := turn.working at_ rfl
      have outside : view.Stands 0 (settled none) := by
        cases targetRoom with
        | none => exact ⟨placed.member, placed.room, rfl⟩
        | some target => exact ⟨placed.member, placed.room, rfl⟩
      cases targetRoom with
      | none =>
          exact .answered (working.answered rfl rfl) working.silent outside.run
      | some target => exact working.turn rfl rfl outside.run
  | noticeLeft targetRoom =>
      cases targetRoom with
      | none => exact quiet_turn turn at_ rfl
      | some target =>
          obtain ⟨working, placed⟩ := turn.working at_ rfl
          exact working.turn rfl rfl placed.run
  | pushEnter targetRoom =>
      obtain ⟨working, placed⟩ := turn.working at_ rfl
      exact @Turn.push (view.run room none) _ targetRoom .enter view.handler
        (working.answered rfl rfl) rfl working.silent placed.run

/-- A member that has been told of its entry shows its room. -/
theorem place_label {room there : RoomId} {job : RoomJob}
    {running : Option JobPhase}
    (member : (place there job running).1 = some room) :
    there = room ∧ (running = some .setRoom ∨ running = some .replyEnter) ∨
      (place there job running).2.2 = room := by
  revert member
  unfold place
  split <;> intro member
  · exact Or.inl ⟨Option.some.inj member, Or.inl rfl⟩
  · exact Or.inl ⟨Option.some.inj member, Or.inr rfl⟩
  · cases member
  · cases member
  · cases member
  · cases member
  · cases member
  · cases member
  · exact Or.inr (Option.some.inj member)

theorem Turn.label {view : SessionView} {client room : RoomId}
    (turn : view.Turn client) (member : (view.rooms room).member = true)
    (notSetRoom : (view.rooms room).running ≠ some .setRoom)
    (told : (view.rooms room).running ≠ some .replyEnter) : client = room := by
  have settledLabel : ∀ {current}, view.Stands client (settled current) →
      client = room := by
    intro current stands
    have here : current = some room := (stands.member room).mp member
    rw [stands.client, here]
    rfl
  cases turn with
  | answered _ _ settled => exact settledLabel settled
  | asks _ _ _ settled => exact settledLabel settled
  | @works there job _ _ _ placed =>
      rcases place_label ((placed.member room).mp member) with
        ⟨rfl, entering⟩ | label
      · rcases entering with sets | replies
        · exact absurd sets notSetRoom
        · exact absurd replies told
      · rw [placed.client, label]

end SessionView

end IocpChat
