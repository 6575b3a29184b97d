import IocpChat.ChatServer.Notices
import IocpChat.ChatServer.RoomLines
import IocpChat.Lib.Buffering

/-!
# What the rooms tell

Every job of a room has a script: the reply of an entry, the notices and the
messages it tells.  A room tells the scripts of the jobs that were pushed to it,
in the order of the pushes, and a session's messages are those it asked the room
to tell, in the order in which they were received.
-/

namespace IocpChat

open Protocol TransitionSystem

/-- `S_ENTER_ROOM`, the two notices, and `S_ROOM_CHAT`. -/
inductive Utterance where
  | enterRes
  | joined
  | left
  | message (text : StdString)
  deriving DecidableEq, Repr

namespace Utterance

def text : Utterance → Option StdString
  | message text => some text
  | _ => none

end Utterance

def RoomJob.script : RoomJob → List Utterance
  | enter => [.enterRes, .joined]
  | leave => [.left]
  | leaveAndEnter _ => [.left]
  | handleChat message => [.message message]

def RoomJob.message : RoomJob → Option StdString
  | handleChat message => some message
  | _ => none

namespace JobPhase

/-- What the rest of the job tells. -/
def untold : JobPhase → List Utterance
  | insertMember => [.enterRes, .joined]
  | setRoom => [.enterRes, .joined]
  | replyEnter => [.enterRes, .joined]
  | noticeJoined => [.joined]
  | pushEnter _ => []
  | broadcastChat message => [.message message]
  | _ => [.left]

/-- What the phase itself tells. -/
def tells : JobPhase → List Utterance
  | replyEnter => [.enterRes]
  | noticeJoined => [.joined]
  | noticeLeft _ => [.left]
  | broadcastChat message => [.message message]
  | _ => []

/-- The next phase of the job; `inRoom` is what `readRoom` finds. -/
def next (inRoom : Bool) : JobPhase → Option JobPhase
  | insertMember => some setRoom
  | setRoom => some replyEnter
  | replyEnter => some noticeJoined
  | eraseMember targetRoom => some (readRoom targetRoom)
  | readRoom targetRoom =>
      some (if inRoom then clearRoom targetRoom else replyLeave targetRoom)
  | clearRoom targetRoom => some (replyLeave targetRoom)
  | replyLeave targetRoom => some (noticeLeft targetRoom)
  | noticeLeft targetRoom => targetRoom.map pushEnter
  | _ => none

theorem untold_firstPhase (job : RoomJob) :
    job.firstPhase.untold = job.script := by
  cases job <;> rfl

theorem untold_next (phase : JobPhase) (inRoom : Bool) :
    phase.untold = phase.tells ++ (phase.next inRoom).elim [] untold := by
  cases phase with
  | readRoom targetRoom => cases inRoom <;> rfl
  | noticeLeft targetRoom => cases targetRoom <;> rfl
  | _ => rfl

end JobPhase

namespace RoomLine

variable {Session : Type}

def append (line : RoomLine Session) (jobs : List (Session × RoomJob)) :
    RoomLine Session :=
  { line with jobs := line.jobs ++ jobs }

/-- The utterances, each with the session it is about. -/
def about (session : Session) (utterances : List Utterance) :
    List (Session × Utterance) :=
  utterances.map (Prod.mk session)

def script (job : Session × RoomJob) : List (Session × Utterance) :=
  about job.1 job.2.script

/-- What the jobs of the line are still to tell. -/
def untold (line : RoomLine Session) : List (Session × Utterance) :=
  (line.running.elim [] fun job => about job.1 job.2.untold) ++
    line.jobs.flatMap script

theorem untold_append (line : RoomLine Session)
    (jobs : List (Session × RoomJob)) :
    (line.append jobs).untold = line.untold ++ jobs.flatMap script := by
  rw [untold, append, List.flatMap_append, ← List.append_assoc]
  rfl

/-- What a room does with its line in a step, and what it tells. -/
inductive Works (line : RoomLine Session) :
    List (Session × Utterance) → RoomLine Session → Prop where
  | rests : Works line [] line
  | starts {session : Session} {job : RoomJob}
      {rest : List (Session × RoomJob)} :
      line.running = none → line.jobs = (session, job) :: rest →
      Works line []
        { jobs := rest
          running := some (session, job.firstPhase) }
  | advances {session : Session} {phase : JobPhase} (inRoom : Bool) :
      line.running = some (session, phase) →
      Works line (about session phase.tells)
        (line.run ((phase.next inRoom).map (Prod.mk session)))

theorem Works.untold {line after : RoomLine Session}
    {told : List (Session × Utterance)} (works : line.Works told after) :
    line.untold = told ++ after.untold := by
  cases works with
  | rests => rfl
  | @starts session job rest free queued =>
      simp only [RoomLine.untold, free, queued]
      change script (session, job) ++ rest.flatMap script =
        about session job.firstPhase.untold ++ rest.flatMap script
      rw [JobPhase.untold_firstPhase]
      rfl
  | @advances session phase inRoom running =>
      have splits : about session phase.untold = about session phase.tells ++
          ((phase.next inRoom).map (Prod.mk session)).elim [] fun job =>
            about job.1 job.2.untold := by
        rw [phase.untold_next inRoom, about, List.map_append]
        cases phase.next inRoom <;> rfl
      simp only [RoomLine.untold, running]
      change about session phase.untold ++ _ = _
      rw [splits, List.append_assoc]
      rfl

end RoomLine

namespace ChatServer

variable {Session : Type}

def line (state : ChatServer Session) (room : RoomId) : RoomLine Session :=
  { jobs := (state.rooms room).jobs
    running := (state.rooms room).running }

/-- What an output is for a room. -/
def uttered (room : RoomId) : Output Session → Option (Session × Utterance)
  | .send session ⟨.sEnterRoom, packet⟩ =>
      if packet.roomId = room then some (session, .enterRes) else none
  | .roomBroadcast there session _ ⟨.sNotice, packet⟩ =>
      if there = room then
        some (session,
          if (literal joined).isSuffixOf packet.message then .joined
          else .left)
      else none
  | .roomBroadcast there session _ ⟨.sRoomChat, packet⟩ =>
      if there = room then some (session, .message packet.message) else none
  | _ => none

variable [DecidableEq Session]

/-- The job a step pushes to the room. -/
def pushedTo (room : RoomId) (state : ChatServer Session)
    (action : ChatAction Session) : List (Session × RoomJob) :=
  match state.pushes action with
  | some (there, push) => if there = room then [push] else []
  | none => []

/-- What a step tells in the room. -/
def tellsIn (room : RoomId) (state : ChatServer Session) :
    ChatAction Session → List (Session × Utterance)
  | .execute there =>
      if there = room then
        (state.rooms there).running.elim [] fun job =>
          RoomLine.about job.1 job.2.tells
      else []
  | _ => []

/-- The message a packet asks the session's room to tell. -/
def asksIn (room : RoomId) (session : Session) (state : ChatServer Session) :
    ChatAction Session → List StdString
  | .packet owner ⟨.cRoomChat, packet⟩ _ =>
      if owner = session ∧ (state.sessions session).room = some room then
        [packet.message]
      else []
  | _ => []

section Lines

variable {state next : ChatServer Session} {room : RoomId} {session : Session}

omit [DecidableEq Session] in
theorem pushJob_line (there : RoomId) (job : RoomJob) :
    (state.pushJob there session job).line room =
      (state.line room).append
        (if there = room then [(session, job)] else []) := by
  by_cases here : there = room
  · subst here
    rw [if_pos rfl]
    simp [line, pushJob, setRoom, Room.pushJob, RoomLine.append]
  · rw [if_neg here]
    simp [line, pushJob, setRoom, RoomLine.append,
      Function.update_of_ne (Ne.symm here)]

omit [DecidableEq Session] in
theorem run_line (there : RoomId) (running : Option (Session × JobPhase)) :
    (state.run there running).line room =
      if there = room then (state.line room).run running
      else state.line room := by
  by_cases here : there = room
  · subst here
    rw [if_pos rfl]
    simp [line, run, setRoom, Room.run, RoomLine.run]
  · rw [if_neg here]
    simp [line, run, setRoom, Function.update_of_ne (Ne.symm here)]

omit [DecidableEq Session] in
theorem append_nil_line :
    (state.line room).append [] = state.line room := by
  rw [RoomLine.append, List.append_nil]

omit [DecidableEq Session] in
theorem getOrCreateRoom_line (roomId : RoomId) (name : StdString) :
    (state.getOrCreateRoom roomId name).line room = state.line room := by
  rw [getOrCreateRoom]
  split
  · rfl
  · by_cases here : room = roomId
    · subst here
      simp [line, setRoom]
    · simp [line, setRoom, Function.update_of_ne here]

theorem handlePacket_line {tick : UInt64} {packet : Packet}
    (handled : state.handlePacket session tick packet = some next) :
    next.line room = state.line room := by
  have requested : ∀ job,
      (state.requestJob session job).line room = state.line room := by
    intro job
    rw [requestJob]
    split <;> rfl
  obtain ⟨id, fields⟩ := packet
  cases id with
  | cLogin =>
      cases handled
      rfl
  | cHeartbeat =>
      cases handled
      rfl
  | cRoomList =>
      cases handled
      rfl
  | cGlobalChat =>
      cases handled
      rfl
  | cEnterRoom =>
      cases handled
      exact getOrCreateRoom_line _ _
  | cLeaveRoom =>
      cases handled
      exact requested .leave
  | cRoomChat =>
      cases handled
      exact requested _
  | _ => cases handled

/-- A phase of a job, apart from `PushJob`. -/
theorem advanceJob_line {there : RoomId} {phase : JobPhase}
    (notPush : ∀ targetRoom, phase ≠ .pushEnter targetRoom) :
    (state.advanceJob there session phase).line room =
      if there = room then
        (state.line room).run
          ((phase.next (decide ((state.sessions session).room =
            some there))).map (Prod.mk session))
      else state.line room := by
  have sets : ∀ (value : Room Session) (running : Option (Session × JobPhase)),
      value.jobs = (state.rooms there).jobs →
      value.running = (state.rooms there).running →
      (state.setRoom there (value.run running)).line room =
        if there = room then (state.line room).run running
        else state.line room := by
    intro value running sameJobs sameRunning
    by_cases here : there = room
    · subst here
      rw [if_pos rfl]
      simp [line, setRoom, Room.run, RoomLine.run, sameJobs]
    · rw [if_neg here]
      simp [line, setRoom, Function.update_of_ne (Ne.symm here)]
  cases phase with
  | insertMember => exact sets _ _ rfl rfl
  | eraseMember targetRoom => exact sets _ _ rfl rfl
  | readRoom targetRoom =>
      rw [advanceJob]
      split
      · rename_i inRoom
        simp only [inRoom, JobPhase.next]
        exact run_line ..
      · rename_i outside
        simp only [outside, JobPhase.next]
        exact run_line ..
  | noticeLeft targetRoom =>
      cases targetRoom with
      | none => exact run_line ..
      | some target => exact run_line ..
  | pushEnter targetRoom => exact absurd rfl (notPush targetRoom)
  | _ => exact run_line ..

theorem advanceDisconnect_line {phase : DisconnectPhase}
    (at_ : (state.sessions session).disconnecting = phase)
    (advanced : state.advanceDisconnect session phase = some next) :
    next.line room =
      (state.line room).append
        (state.pushedTo room (.onDisconnected session)) := by
  cases phase with
  | connected => cases advanced
  | disconnected => cases advanced
  | clearRoom =>
      cases advanced
      have nothing : state.pushedTo room (.onDisconnected session) = [] := by
        simp only [pushedTo, pushes, at_]
      rw [nothing, append_nil_line]
      rfl
  | pushLeave there =>
      cases advanced
      have pushed : state.pushedTo room (.onDisconnected session) =
          if there = room then [(session, .leave)] else [] := by
        simp only [pushedTo, pushes, at_]
      rw [pushed]
      exact pushJob_line there .leave

theorem advanceHandler_line {phase : HandlerPhase}
    (at_ : (state.sessions session).handler = some phase) :
    (state.advanceHandler session phase).line room =
      (state.line room).append (state.pushedTo room (.handle session)) := by
  cases phase with
  | push there job =>
      have pushed : state.pushedTo room (.handle session) =
          if there = room then [(session, job)] else [] := by
        simp only [pushedTo, pushes, at_]
      rw [pushed]
      exact pushJob_line there job
  | readRoom targetRoom =>
      have nothing : state.pushedTo room (.handle session) = [] := by
        simp only [pushedTo, pushes, at_]
      rw [nothing, append_nil_line, advanceHandler]
      split
      · split <;> rfl
      · rfl

/-- A step of a job of any room, as one room sees it. -/
theorem execute_line {there : RoomId} {phase : JobPhase}
    (running : (state.rooms there).running = some (session, phase)) :
    ∃ after, (state.line room).Works (state.tellsIn room (.execute there))
        after ∧
      (state.advanceJob there session phase).line room =
        after.append (state.pushedTo room (.execute there)) := by
  have tells : state.tellsIn room (.execute there) =
      if there = room then RoomLine.about session phase.tells else [] := by
    rw [tellsIn, running]
    rfl
  rw [tells]
  by_cases push : ∃ targetRoom, phase = .pushEnter targetRoom
  · obtain ⟨targetRoom, rfl⟩ := push
    have pushed : state.pushedTo room (.execute there) =
        if targetRoom = room then [(session, .enter)] else [] := by
      simp only [pushedTo, pushes, running]
    rw [pushed, advanceJob, pushJob_line, run_line]
    by_cases here : there = room
    · subst here
      rw [if_pos rfl, if_pos rfl]
      exact ⟨_, .advances false running, rfl⟩
    · rw [if_neg here, if_neg here]
      exact ⟨_, .rests, rfl⟩
  · have notPush : ∀ targetRoom, phase ≠ .pushEnter targetRoom :=
      fun targetRoom same => push ⟨targetRoom, same⟩
    have nothing : state.pushedTo room (.execute there) = [] := by
      simp only [pushedTo, pushes, running]
      cases phase with
      | pushEnter targetRoom => exact absurd rfl (notPush targetRoom)
      | _ => rfl
    rw [nothing, advanceJob_line notPush]
    by_cases here : there = room
    · subst here
      rw [if_pos rfl, if_pos rfl]
      refine ⟨_, .advances (decide ((state.sessions session).room =
        some there)) running, ?_⟩
      rw [RoomLine.append, List.append_nil]
    · rw [if_neg here, if_neg here]
      exact ⟨_, .rests, append_nil_line.symm⟩

/-- What a step does to the line of a room: some work at its front, and pushes
at its end. -/
theorem step_line {action : ChatAction Session}
    (stepped : state.step action = some next) (room : RoomId) :
    ∃ after, (state.line room).Works (state.tellsIn room action) after ∧
      next.line room = after.append (state.pushedTo room action) := by
  cases action with
  | packet owner packet tick =>
      simp only [step] at stepped
      split at stepped
      · refine ⟨_, .rests, ?_⟩
        rw [handlePacket_line stepped]
        exact append_nil_line.symm
      · cases stepped
  | handle owner =>
      obtain ⟨phase, at_, rfl⟩ := Option.map_eq_some_iff.mp stepped
      exact ⟨_, .rests, advanceHandler_line at_⟩
  | disconnect owner =>
      refine ⟨_, .rests, ?_⟩
      simp only [step] at stepped
      split at stepped
      · split at stepped <;> obtain rfl := Option.some.inj stepped <;>
          exact append_nil_line.symm
      · cases stepped
  | onDisconnected owner =>
      exact ⟨_, .rests, advanceDisconnect_line rfl stepped⟩
  | start there =>
      simp only [step] at stepped
      split at stepped
      · rename_i owner job rest free queued
        obtain rfl := Option.some.inj stepped
        by_cases here : there = room
        · subst here
          refine ⟨_, .starts free queued, ?_⟩
          change _ = RoomLine.append _ []
          simp [line, setRoom, RoomLine.append]
        · refine ⟨_, .rests, ?_⟩
          change _ = RoomLine.append _ []
          simp [line, setRoom, RoomLine.append,
            Function.update_of_ne (Ne.symm here)]
      · cases stepped
  | execute there =>
      obtain ⟨⟨owner, phase⟩, running, rfl⟩ :=
        Option.map_eq_some_iff.mp stepped
      exact execute_line running

/-- The outputs of a step, as a room's utterances. -/
theorem handlePacket_uttered {tick : UInt64} {packet : Packet}
    (handled : state.handlePacket session tick packet = some next) :
    next.outputs.filterMap (uttered room) =
      state.outputs.filterMap (uttered room) := by
  have silent : ∀ output, uttered room output = none →
      (state.outputs ++ [output]).filterMap (uttered room) =
        state.outputs.filterMap (uttered room) := by
    intro output nothing
    rw [List.filterMap_append, List.filterMap_cons_none nothing,
      List.filterMap_nil, List.append_nil]
  obtain ⟨id, fields⟩ := packet
  cases id with
  | cLogin =>
      cases handled
      exact silent _ rfl
  | cHeartbeat =>
      cases handled
      exact silent _ rfl
  | cRoomList =>
      cases handled
      exact silent _ rfl
  | cGlobalChat =>
      cases handled
      exact silent _ rfl
  | cEnterRoom =>
      cases handled
      exact congrArg _ (getOrCreateRoom_outputs state _ _)
  | cLeaveRoom =>
      cases handled
      exact congrArg _ (requestJob_outputs state _ _)
  | cRoomChat =>
      cases handled
      exact congrArg _ (requestJob_outputs state _ _)
  | _ => cases handled

omit [DecidableEq Session] in
theorem uttered_broadcast (there : RoomId) (members : List Session) :
    uttered room (.roomBroadcast there session members
        (state.noticePkt session joined)) =
        (if there = room then some (session, .joined) else none) ∧
      uttered room (.roomBroadcast there session members
        (state.noticePkt session left)) =
        if there = room then some (session, .left) else none := by
  have ends : (literal joined).isSuffixOf (literal "[" ++
      (state.sessions session).playerName ++ literal joined) = true :=
    List.isSuffixOf_iff_suffix.mpr (List.suffix_append _ _)
  have differs := left_not_joined (state.sessions session).playerName
  constructor
  · simp only [uttered, noticePkt, ends, if_true]
  · simp only [uttered, noticePkt, differs, Bool.false_eq_true, if_false]

theorem advanceJob_uttered (there : RoomId) (phase : JobPhase) :
    (state.advanceJob there session phase).outputs.filterMap (uttered room) =
      state.outputs.filterMap (uttered room) ++
        if there = room then RoomLine.about session phase.tells else [] := by
  have silent : state.outputs.filterMap (uttered room) =
      state.outputs.filterMap (uttered room) ++
        if there = room then RoomLine.about session [] else [] := by
    rw [RoomLine.about, List.map_nil, ite_self, List.append_nil]
  have tells : ∀ output utterance,
      uttered room output =
        (if there = room then some (session, utterance) else none) →
      (state.outputs ++ [output]).filterMap (uttered room) =
        state.outputs.filterMap (uttered room) ++
          if there = room then RoomLine.about session [utterance]
          else [] := by
    intro output utterance same
    rw [List.filterMap_append]
    congr 1
    by_cases here : there = room
    · rw [if_pos here] at same ⊢
      rw [List.filterMap_cons_some same]
      rfl
    · rw [if_neg here] at same ⊢
      rw [List.filterMap_cons_none same]
      rfl
  cases phase with
  | replyEnter => exact tells _ .enterRes rfl
  | noticeJoined =>
      exact tells _ .joined (uttered_broadcast there _).1
  | noticeLeft targetRoom =>
      exact tells _ .left (uttered_broadcast there _).2
  | broadcastChat message => exact tells _ (.message message) rfl
  | replyLeave targetRoom =>
      refine Eq.trans ?_ silent
      change (state.outputs ++ [_]).filterMap (uttered room) = _
      rw [List.filterMap_append]
      exact List.append_nil _
  | readRoom targetRoom =>
      rw [advanceJob]
      split <;> exact silent
  | _ => exact silent

theorem step_uttered {action : ChatAction Session}
    (stepped : state.step action = some next) (room : RoomId) :
    next.outputs.filterMap (uttered room) =
      state.outputs.filterMap (uttered room) ++ state.tellsIn room action := by
  have silent : next.outputs = state.outputs →
      next.outputs.filterMap (uttered room) =
        state.outputs.filterMap (uttered room) ++ [] := by
    intro same
    rw [same, List.append_nil]
  cases action with
  | packet owner packet tick =>
      simp only [step] at stepped
      split at stepped
      · rw [handlePacket_uttered stepped]
        exact (List.append_nil _).symm
      · cases stepped
  | handle owner =>
      obtain ⟨phase, at_, rfl⟩ := Option.map_eq_some_iff.mp stepped
      apply silent
      cases phase with
      | push there job => rfl
      | readRoom targetRoom =>
          rw [advanceHandler]
          split
          · split <;> rfl
          · rfl
  | disconnect owner =>
      apply silent
      simp only [step] at stepped
      split at stepped
      · split at stepped <;> obtain rfl := Option.some.inj stepped <;> rfl
      · cases stepped
  | onDisconnected owner =>
      apply silent
      change state.advanceDisconnect owner _ = some next at stepped
      generalize (state.sessions owner).disconnecting = phase at stepped
      cases phase with
      | pushLeave there =>
          obtain rfl := Option.some.inj stepped
          rfl
      | clearRoom =>
          obtain rfl := Option.some.inj stepped
          rfl
      | _ => cases stepped
  | start there =>
      apply silent
      simp only [step] at stepped
      split at stepped
      · obtain rfl := Option.some.inj stepped
        rfl
      · cases stepped
  | execute there =>
      obtain ⟨⟨owner, phase⟩, running, rfl⟩ :=
        Option.map_eq_some_iff.mp stepped
      rw [advanceJob_uttered, tellsIn, running]
      rfl

end Lines

/-- The message of a job of the session. -/
def messageOf (session : Session) (job : Session × RoomJob) :
    List StdString :=
  if job.1 = session then job.2.message.toList else []

/-- The text the room tells for the session. -/
def textOf (session : Session) (told : Session × Utterance) :
    List StdString :=
  if told.1 = session then told.2.text.toList else []

/-- The message a handler is about to push. -/
def heldFor (room : RoomId) (handler : Option HandlerPhase) :
    List StdString :=
  match handler with
  | some (.push there job) =>
      if there = room then job.message.toList else []
  | _ => []

theorem script_textOf (session : Session) (job : Session × RoomJob) :
    (RoomLine.script job).flatMap (textOf session) =
      messageOf session job := by
  obtain ⟨owner, job⟩ := job
  by_cases own : owner = session
  · cases job <;>
      simp [RoomLine.script, RoomLine.about, RoomJob.script, textOf, messageOf,
        own, Utterance.text, RoomJob.message]
  · cases job <;>
      simp [RoomLine.script, RoomLine.about, RoomJob.script, textOf, messageOf,
        own]

/-- A room tells the scripts of its jobs. -/
theorem buffers_scripts (room : RoomId) :
    (machine Session).Buffers
      (fun state action => (state.pushedTo room action).flatMap
        RoomLine.script)
      (tellsIn room) fun state => (state.line room).untold where
  initially := by
    rintro state rfl
    simp only [line, initial]
    split
    · rfl
    · split
      · rfl
      · split <;> rfl
  step := by
    intro state action next stepped
    obtain ⟨after, works, leads⟩ := step_line stepped room
    rw [leads, RoomLine.untold_append, works.untold, List.append_assoc]

section Messages

variable {state next : ChatServer Session} {room : RoomId} {session : Session}

theorem requests_handler {job : RoomJob}
    (idle : (state.sessions session).handler = none) :
    heldFor room ((state.view session).request job).handler =
      if (state.sessions session).room = some room then job.message.toList
      else [] := by
  have here : (state.view session).room = (state.sessions session).room := rfl
  have silent : (state.view session).handler = none := idle
  rw [SessionView.request, here]
  cases (state.sessions session).room with
  | none =>
      rw [if_neg (by simp)]
      simp only [silent, heldFor]
  | some there =>
      simp only [SessionView.setHandler, heldFor, Option.some.injEq]

theorem receive_holds {packet : Packet} {tick : UInt64}
    (idle : (state.sessions session).handler = none) :
    heldFor room ((state.view session).receive packet).handler =
      state.asksIn room session (.packet session packet tick) := by
  have silent : (state.view session).handler = none := idle
  obtain ⟨id, fields⟩ := packet
  cases id with
  | cEnterRoom => rfl
  | cLeaveRoom =>
      change heldFor room ((state.view session).request .leave).handler = []
      rw [requests_handler idle]
      exact ite_self _
  | cRoomChat =>
      change heldFor room ((state.view session).request
        (.handleChat fields.message)).handler = _
      rw [requests_handler idle, asksIn]
      simp only [true_and]
      rfl
  | _ =>
      change heldFor room (state.view session).handler = []
      rw [silent]
      rfl

/-- Only the handler of the session pushes its messages. -/
theorem pushedTo_messages {action : ChatAction Session}
    (notOwn : action ≠ .handle session) :
    (state.pushedTo room action).flatMap (messageOf session) = [] := by
  have keyless : ∀ {there owner job},
      state.pushes action = some (there, owner, job) →
      messageOf session (owner, job) = [] := by
    intro there owner job pushed
    cases action with
    | handle other =>
        have different : other ≠ session := by
          intro same
          exact notOwn (congrArg _ same)
        simp only [pushes] at pushed
        split at pushed
        · cases pushed
          exact if_neg different
        · cases pushed
    | onDisconnected other =>
        simp only [pushes] at pushed
        split at pushed
        · cases pushed
          exact ite_self _
        · cases pushed
    | execute there =>
        simp only [pushes] at pushed
        split at pushed
        · cases pushed
          exact ite_self _
        · cases pushed
    | _ => cases pushed
  cases pushed : state.pushes action with
  | none =>
      simp only [pushedTo, pushed]
      rfl
  | some push =>
      obtain ⟨there, owner, job⟩ := push
      simp only [pushedTo, pushed]
      split
      · rw [List.flatMap_singleton, keyless pushed]
      · rfl

theorem handle_holds {phase : HandlerPhase}
    (at_ : (state.sessions session).handler = some phase) :
    heldFor room (some phase) =
      (state.pushedTo room (.handle session)).flatMap (messageOf session) ++
        heldFor room ((state.view session).advance phase).handler := by
  cases phase with
  | push there job =>
      simp only [pushedTo, pushes, at_, SessionView.advance,
        SessionView.setHandler, heldFor, List.append_nil]
      split
      · rw [List.flatMap_singleton, messageOf, if_pos rfl]
      · rfl
  | readRoom targetRoom =>
      have quiet : heldFor room
          ((state.view session).advance (.readRoom targetRoom)).handler =
            [] := by
        rw [SessionView.advance]
        split
        · split
          · rfl
          · exact ite_self _
        · exact ite_self _
      rw [quiet]
      simp only [pushedTo, pushes, at_, heldFor]
      rfl

theorem setDisconnecting_handler (state : ChatServer Session)
    (owner session : Session) (phase : DisconnectPhase) :
    ((state.setDisconnecting owner phase).view session).handler =
      (state.view session).handler := by
  by_cases own : owner = session
  · subst own
    rw [view_setDisconnecting_self]
    rfl
  · rw [setDisconnecting, view_setSession_other state own]

/-- The handler keeps a message until it has pushed it. -/
theorem buffers_messages (room : RoomId) (session : Session) :
    (machine Session).Buffers (asksIn room session)
      (fun state action =>
        (state.pushedTo room action).flatMap (messageOf session))
      fun state => heldFor room (state.sessions session).handler where
  initially := by
    rintro state rfl
    rfl
  step := by
    intro state action next stepped
    have elsewhere : action ≠ .handle session →
        (next.view session).handler = (state.view session).handler →
        state.asksIn room session action = [] →
        heldFor room (state.sessions session).handler ++
            state.asksIn room session action =
          (state.pushedTo room action).flatMap (messageOf session) ++
            heldFor room (next.sessions session).handler := by
      intro notOwn same nothing
      rw [nothing, pushedTo_messages notOwn, List.append_nil]
      exact (congrArg (heldFor room) same).symm
    cases action with
    | packet owner packet tick =>
        simp only [machine, step] at stepped
        split at stepped
        · rename_i idle
          by_cases own : owner = session
          · subst own
            have viewed := view_handlePacket stepped
            rw [pushedTo_messages (by simp), idle]
            change state.asksIn room owner (.packet owner packet tick) =
              heldFor room (next.view owner).handler
            rw [viewed, receive_holds idle]
          · apply elsewhere (by simp)
            · rw [handlePacket_other own stepped]
            · obtain ⟨id, fields⟩ := packet
              cases id with
              | cRoomChat =>
                  rw [asksIn, if_neg fun both => own both.1]
              | _ => rfl
        · cases stepped
    | handle owner =>
        obtain ⟨phase, at_, rfl⟩ := Option.map_eq_some_iff.mp stepped
        by_cases own : owner = session
        · subst own
          rw [at_]
          change heldFor room (some phase) ++ [] = _ ++
            heldFor room ((state.advanceHandler owner phase).view
              owner).handler
          rw [view_advanceHandler, List.append_nil]
          exact handle_holds at_
        · apply elsewhere _ _ rfl
          · intro same
            cases same
            exact own rfl
          · rw [advanceHandler_other own]
    | disconnect owner =>
        apply elsewhere (by simp) _ rfl
        simp only [machine, step] at stepped
        split at stepped
        · split at stepped <;> obtain rfl := Option.some.inj stepped <;>
            exact setDisconnecting_handler ..
        · cases stepped
    | onDisconnected owner =>
        apply elsewhere (by simp) _ rfl
        by_cases own : owner = session
        · subst own
          exact advanceDisconnect_handler stepped
        · rw [advanceDisconnect_other own stepped]
    | start there =>
        apply elsewhere (by simp) _ rfl
        simp only [machine, step] at stepped
        split at stepped
        · obtain rfl := Option.some.inj stepped
          rfl
        · cases stepped
    | execute there =>
        obtain ⟨⟨owner, phase⟩, running, rfl⟩ :=
          Option.map_eq_some_iff.mp stepped
        apply elsewhere (by simp) _ rfl
        exact advanceJob_handler state there owner session phase

/-- A message is told for the session when the room has come to its job. -/
theorem buffers_texts (room : RoomId) (session : Session) :
    (machine Session).Buffers (asksIn room session)
      (fun state action =>
        (state.tellsIn room action).flatMap (textOf session))
      fun state =>
        (state.line room).untold.flatMap (textOf session) ++
          heldFor room (state.sessions session).handler := by
  have scripts := (@buffers_scripts Session _ room).flatMap
    (textOf session)
  have same : (fun (state : ChatServer Session) action =>
      ((state.pushedTo room action).flatMap RoomLine.script).flatMap
        (textOf session)) =
      fun state action =>
        (state.pushedTo room action).flatMap (messageOf session) := by
    funext state action
    rw [List.flatMap_assoc]
    exact congrArg (List.flatMap · _) (funext (script_textOf session))
  rw [same] at scripts
  exact (buffers_messages room session).comp scripts

end Messages

/-- What the rooms have told and have still to tell is what they were given.
`scripts`: the jobs, in the order of the pushes.  `messages`: the messages of a
session, in the order in which its packets came. -/
structure Accounted (state : ChatServer Session)
    (actions : List (ChatAction Session)) : Prop where
  scripts : ∀ room,
    state.outputs.filterMap (uttered room) ++ (state.line room).untold =
      ((machine Session).collect (pushedTo room) initial actions).flatMap
        RoomLine.script
  messages : ∀ room session,
    (state.outputs.filterMap (uttered room)).flatMap (textOf session) ++
        ((state.line room).untold.flatMap (textOf session) ++
          heldFor room (state.sessions session).handler) =
      (machine Session).collect (asksIn room session) initial actions

/-- No room loses, repeats or reorders what it has to tell. -/
theorem run_accounted {state : ChatServer Session}
    {actions : List (ChatAction Session)}
    (replayed : (machine Session).run initial actions = some state) :
    Accounted state actions := by
  have told : ∀ room, state.outputs.filterMap (uttered room) =
      (machine Session).collect (tellsIn room) initial actions := by
    intro room
    exact Machine.collect_of_growth (fun stepped => step_uttered stepped room)
      replayed
  constructor
  · intro room
    have buffered := (buffers_scripts room).run replayed
    rw [(buffers_scripts room).initially rfl, List.nil_append,
      Machine.collect_flatMap] at buffered
    rw [told room, buffered]
  · intro room session
    have buffered := (buffers_texts room session).run replayed
    rw [(buffers_texts room session).initially rfl, List.nil_append,
      Machine.collect_flatMap] at buffered
    rw [told room, buffered]

/-- A message of a member of room 1. -/
def chatPacket (message : StdString) : Packet :=
  ⟨.cRoomChat, { message := message }⟩

/-- Three messages, the second of which is waiting in the room and the third one
in the handler. -/
def chatActions : List (ChatAction Unit) :=
  [.packet () (chatPacket (literal "a")) 0,
    .handle (),
    .start 1,
    .packet () (chatPacket (literal "b")) 0,
    .handle (),
    .execute 1,
    .packet () (chatPacket (literal "c")) 0]

def threeMessages : List (ChatAction Unit) :=
  enterActions 1 ++ chatActions

theorem threeMessages_accounted :
    ∃ state, (machine Unit).run initial threeMessages = some state ∧
      (machine Unit).collect (asksIn 1 ()) initial threeMessages =
        [literal "a", literal "b", literal "c"] ∧
      state.outputs.filterMap (uttered 1) =
        [((), .enterRes), ((), .joined), ((), .message (literal "a"))] ∧
      Accounted state threeMessages := by
  obtain ⟨state, replayed⟩ :
      ∃ state, (machine Unit).run initial threeMessages = some state :=
    Option.isSome_iff_exists.mp (by decide +kernel)
  have told : state.outputs.filterMap (uttered 1) =
      [((), .enterRes), ((), .joined), ((), .message (literal "a"))] := by
    apply Machine.view_of_run replayed
    decide +kernel
  refine ⟨state, replayed, ?_, told, run_accounted replayed⟩
  decide +kernel

end ChatServer

end IocpChat
