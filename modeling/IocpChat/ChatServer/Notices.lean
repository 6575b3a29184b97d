import IocpChat.ChatServer.Departure
import IocpChat.ChatServer.ReplySizes
import IocpChat.ChatServer.SessionActions

/-!
# The notices of a room

A handler decides by `_room` which job it pushes, and a client may send its next
packet before the job has run.  A room's notices tell what happened to its
members as long as every `Enter` is pushed for a session that will be outside
when the room gets to it, and every `Leave` for one that will be inside, and the
notices are not too long to be sent.
-/

namespace IocpChat

open Protocol TransitionSystem

/-- The job changes the membership it will find. -/
def RoomJob.Fits (member : Bool) : RoomJob → Prop
  | enter => member = false
  | leave => member = true
  | leaveAndEnter _ => member = true
  | handleChat _ => True

instance RoomJob.Fits.decidable (member : Bool) :
    ∀ job : RoomJob, Decidable (job.Fits member)
  | enter => inferInstanceAs (Decidable (member = false))
  | leave => inferInstanceAs (Decidable (member = true))
  | leaveAndEnter _ => inferInstanceAs (Decidable (member = true))
  | handleChat _ => .isTrue trivial

/-- Every job of the line changes the membership it will find. -/
def LineFits : Bool → List RoomJob → Prop
  | _, [] => True
  | member, job :: rest => job.Fits member ∧ LineFits (job.settle member) rest

theorem lineFits_append {member : Bool} {line : List RoomJob} {job : RoomJob} :
    LineFits member (line ++ [job]) ↔
      LineFits member line ∧ job.Fits (settle member line) := by
  induction line generalizing member with
  | nil => exact ⟨fun fits => ⟨trivial, fits.1⟩, fun fits => ⟨fits.2, trivial⟩⟩
  | cons first rest induction =>
      change first.Fits member ∧ LineFits _ (rest ++ [job]) ↔
        (first.Fits member ∧ LineFits _ rest) ∧ _
      rw [induction, and_assoc]
      rfl

/-- The access to `_members` that the running job has before it. -/
def JobPhase.due : JobPhase → List RoomJob
  | insertMember => [.enter]
  | eraseMember none => [.leave]
  | eraseMember (some targetRoom) => [.leaveAndEnter targetRoom]
  | _ => []

/-- The notice of an access that is done: `true` for "joined". -/
def JobPhase.pendingNotice : JobPhase → Option Bool
  | setRoom => some true
  | replyEnter => some true
  | noticeJoined => some true
  | readRoom _ => some false
  | clearRoom _ => some false
  | replyLeave _ => some false
  | noticeLeft _ => some false
  | _ => none

/-- The notices change sides, and the first is not the given one. -/
def Alternates : Bool → List Bool → Prop
  | _, [] => True
  | before, notice :: rest => notice = !before ∧ Alternates notice rest

theorem alternates_append {before notice : Bool} {notices : List Bool} :
    Alternates before (notices ++ [notice]) ↔
      Alternates before notices ∧ notice = !notices.getLastD before := by
  induction notices generalizing before with
  | nil =>
      exact ⟨fun holds => ⟨trivial, holds.1⟩,
        fun holds => ⟨holds.2, trivial⟩⟩
  | cons first rest induction =>
      change first = !before ∧ Alternates first (rest ++ [notice]) ↔
        (first = !before ∧ Alternates first rest) ∧ _
      rw [induction, and_assoc, List.getLastD_cons]

namespace RoomView

/-- The accesses to `_members` that are still to come. -/
def due (room : RoomView) : List RoomJob :=
  room.running.elim [] JobPhase.due ++ room.jobs

def pendingNotice (room : RoomView) : Option Bool :=
  room.running.bind JobPhase.pendingNotice

/-- The membership that a job pushed now will find. -/
def expected (room : RoomView) : Bool :=
  settle room.member room.due

/-- The rest of the running job changes nothing. -/
theorem expected_run_none {room : RoomView} {phase : JobPhase}
    (running : room.running = some phase) (passed : phase.due = []) :
    (room.run none).expected = room.expected := by
  rw [expected, expected, due, due, running]
  change settle room.member room.jobs =
    settle room.member (phase.due ++ room.jobs)
  rw [passed]
  rfl

/-- The notices so far tell the membership, up to the one to come, and the line
goes on like that. -/
structure Told (room : RoomView) (changed : Bool) (notices : List Bool) :
    Prop where
  fits : LineFits room.member room.due
  alternate : Alternates false notices
  quiet : room.pendingNotice = none → notices.getLastD false = room.member
  pending : ∀ notice, room.pendingNotice = some notice →
    changed = true ∧ room.member = notice ∧ notices.getLastD false = !notice

namespace Told

variable {room : RoomView} {changed : Bool} {notices : List Bool}

/-- Without a job of the session, the mark is somebody else's. -/
theorem free (told : room.Told changed notices) (outside : room.running = none)
    (other : Bool) : room.Told other notices :=
  { told with
    pending := by
      intro notice pending
      rw [RoomView.pendingNotice, outside] at pending
      cases pending }

theorem pushJob (told : room.Told changed notices) {job : RoomJob}
    (fits : job.Fits room.expected) :
    (room.pushJob job).Told changed notices :=
  { told with
    fits := by
      have line : (room.pushJob job).due = room.due ++ [job] :=
        (List.append_assoc ..).symm
      rw [line]
      exact lineFits_append.mpr ⟨told.fits, fits⟩ }

theorem start (told : room.Told changed notices)
    (outside : room.running = none) {job : RoomJob} {rest : List RoomJob}
    (jobs : room.jobs = job :: rest) :
    Told
      { room with
        jobs := rest
        running := some job.firstPhase } changed notices := by
  have fits := told.fits
  have quiet := told.quiet
  rw [RoomView.due, outside, jobs] at fits
  rw [RoomView.pendingNotice, outside] at quiet
  have noNotice : (job.firstPhase).pendingNotice = none := by
    cases job <;> rfl
  refine ⟨?_, told.alternate, fun _ => quiet rfl, ?_⟩
  · cases job with
    | handleChat message => exact fits.2
    | _ => exact fits
  · intro notice pending
    change (job.firstPhase).pendingNotice = _ at pending
    rw [noNotice] at pending
    cases pending

theorem fit (told : room.Told changed notices) {phase : JobPhase}
    {job : RoomJob} (running : room.running = some phase)
    (due : phase.due = [job]) : job.Fits room.member := by
  have line := told.fits
  rw [RoomView.due, running] at line
  change LineFits room.member (phase.due ++ room.jobs) at line
  rw [due] at line
  exact line.1

/-- The job goes on without a notice. -/
theorem silent (told : room.Told changed notices) {phase : JobPhase}
    {next : Option JobPhase} (running : room.running = some phase)
    (passed : phase.due = []) (nothingDue : next.elim [] JobPhase.due = [])
    (same : next.bind JobPhase.pendingNotice = phase.pendingNotice) :
    (room.run next).Told changed notices := by
  have fits := told.fits
  have quiet := told.quiet
  have pending := told.pending
  rw [RoomView.due, running] at fits
  rw [RoomView.pendingNotice, running] at quiet pending
  change LineFits room.member (phase.due ++ room.jobs) at fits
  rw [passed] at fits
  refine ⟨?_, told.alternate, ?_, ?_⟩
  · change LineFits room.member (next.elim [] JobPhase.due ++ room.jobs)
    rw [nothingDue]
    exact fits
  · change next.bind JobPhase.pendingNotice = none → _
    rw [same]
    exact quiet
  · change ∀ notice, next.bind JobPhase.pendingNotice = some notice → _
    rw [same]
    exact pending

/-- `Enter` and `Leave` have changed `_members`. -/
theorem access (told : room.Told changed notices) {phase next : JobPhase}
    {job : RoomJob} {notice : Bool} (running : room.running = some phase)
    (due : phase.due = [job])
    (fits : job.Fits room.member → room.member = !notice)
    (settles : job.settle room.member = notice)
    (noNotice : phase.pendingNotice = none) (nothingDue : next.due = [])
    (comes : next.pendingNotice = some notice) :
    ((room.setMember notice).run (some next)).Told true notices := by
  have line := told.fits
  have quiet := told.quiet
  rw [RoomView.due, running] at line
  rw [RoomView.pendingNotice, running] at quiet
  change LineFits room.member (phase.due ++ room.jobs) at line
  rw [due] at line
  obtain ⟨fit, rest⟩ := line
  rw [settles] at rest
  refine ⟨?_, told.alternate, ?_, ?_⟩
  · change LineFits notice (next.due ++ room.jobs)
    rw [nothingDue]
    exact rest
  · intro none_
    change next.pendingNotice = none at none_
    rw [comes] at none_
    cases none_
  · intro other same
    change next.pendingNotice = some other at same
    rw [comes] at same
    obtain rfl := Option.some.inj same
    refine ⟨rfl, rfl, ?_⟩
    rw [quiet noNotice]
    exact fits fit

/-- The notice is broadcast. -/
theorem announce (told : room.Told changed notices) {phase : JobPhase}
    {next : Option JobPhase} {notice : Bool}
    (running : room.running = some phase) (passed : phase.due = [])
    (comes : phase.pendingNotice = some notice)
    (nothingDue : next.elim [] JobPhase.due = [])
    (noNotice : next.bind JobPhase.pendingNotice = none) :
    (room.run next).Told changed (notices ++ [notice]) := by
  have fits := told.fits
  have pending := told.pending
  rw [RoomView.due, running] at fits
  rw [RoomView.pendingNotice, running] at pending
  change LineFits room.member (phase.due ++ room.jobs) at fits
  rw [passed] at fits
  obtain ⟨_, member, last⟩ := pending notice comes
  refine ⟨?_, ?_, ?_, ?_⟩
  · change LineFits room.member (next.elim [] JobPhase.due ++ room.jobs)
    rw [nothingDue]
    exact fits
  · rw [alternates_append, last, Bool.not_not]
    exact ⟨told.alternate, rfl⟩
  · intro _
    rw [List.getLastD_concat]
    exact member.symm
  · intro other same
    change next.bind JobPhase.pendingNotice = some other at same
    rw [noNotice] at same
    cases same

end Told

end RoomView

/-- The bytes of a notice's packet beside the name. -/
def JobPhase.noticeOverhead : JobPhase → Option Nat
  | noticeJoined => some 25
  | noticeLeft _ => some 23
  | _ => none

/-- The notice of this phase is sent; a longer one is built and not sent. -/
def ChatServer.noticeSent {Session : Type} [DecidableEq Session]
    (state : ChatServer Session) (session : Session) : JobPhase → Bool
  | .noticeJoined => (state.noticePkt session joined).sent
  | .noticeLeft _ => (state.noticePkt session left).sent
  | _ => true

/-- What a room tells about a session: a notice, or `S_LEAVE_ROOM`. -/
inductive NoticeKind where
  | joined
  | left
  | leaveRes
  deriving DecidableEq, Repr

/-- A packet a job has sent, and whether the job has changed `_members`. -/
structure NoticeEntry (Session : Type) where
  room : RoomId
  session : Session
  kind : NoticeKind
  changed : Bool

/-- For every room what its running job has done to `_members`, and what the
rooms have told. -/
structure NoticeLog (Session : Type) where
  changed : RoomId → Bool
  entries : List (NoticeEntry Session)

namespace NoticeLog

variable {Session : Type}

def empty : NoticeLog Session :=
  { changed := fun _ => false
    entries := [] }

def mark (log : NoticeLog Session) (room : RoomId) (changed : Bool) :
    NoticeLog Session :=
  { log with changed := Function.update log.changed room changed }

def add (log : NoticeLog Session) (room : RoomId) (session : Session)
    (kind : NoticeKind) : NoticeLog Session :=
  { log with
    entries := log.entries ++
      [{ room := room
         session := session
         kind := kind
         changed := log.changed room }] }

/-- What the phase of a job adds; `member` is what it finds in `_members`, and
`sent` says whether its notice is sent. -/
def job (log : NoticeLog Session) (room : RoomId) (session : Session)
    (member sent : Bool) : JobPhase → NoticeLog Session
  | .insertMember => log.mark room (!member)
  | .eraseMember _ => log.mark room member
  | .noticeJoined => if sent then log.add room session .joined else log
  | .replyLeave _ => log.add room session .leaveRes
  | .noticeLeft _ => if sent then log.add room session .left else log
  | _ => log

theorem mark_changed (log : NoticeLog Session) (room : RoomId)
    (changed : Bool) : (log.mark room changed).changed room = changed :=
  Function.update_self ..

variable [DecidableEq Session]

def record (state : ChatServer Session) (action : ChatAction Session)
    (log : NoticeLog Session) : NoticeLog Session :=
  match action with
  | .execute room =>
      match (state.rooms room).running with
      | some (session, phase) =>
          log.job room session (decide (session ∈ (state.rooms room).members))
            (state.noticeSent session phase) phase
      | none => log
  | _ => log

/-- The notice an entry is; `true` for "joined". -/
def noticeOf (room : RoomId) (session : Session)
    (entry : NoticeEntry Session) : Option Bool :=
  if entry.room = room ∧ entry.session = session then
    match entry.kind with
    | .joined => some true
    | .left => some false
    | .leaveRes => none
  else none

/-- The notices of a room about a session. -/
def notices (log : NoticeLog Session) (room : RoomId) (session : Session) :
    List Bool :=
  log.entries.filterMap (noticeOf room session)

theorem notices_add (log : NoticeLog Session) (room other : RoomId)
    (owner session : Session) (kind : NoticeKind) :
    (log.add other owner kind).notices room session =
      log.notices room session ++
        (noticeOf room session
          { room := other
            session := owner
            kind := kind
            changed := log.changed other }).toList := by
  rw [notices, add, List.filterMap_append]
  cases found : noticeOf room session _ <;> simp [notices, found]

/-- A job tells nothing about other sessions and in other rooms. -/
theorem notices_job_other (log : NoticeLog Session) {room other : RoomId}
    {owner session : Session} (different : ¬(other = room ∧ owner = session))
    (member sent : Bool) (phase : JobPhase) :
    (log.job other owner member sent phase).notices room session =
      log.notices room session := by
  have nothing : ∀ kind, (log.add other owner kind).notices room session =
      log.notices room session := by
    intro kind
    rw [notices_add, noticeOf, if_neg different]
    exact List.append_nil _
  cases phase with
  | noticeJoined =>
      cases sent with
      | true => exact nothing .joined
      | false => rfl
  | replyLeave targetRoom => exact nothing .leaveRes
  | noticeLeft targetRoom =>
      cases sent with
      | true => exact nothing .left
      | false => rfl
  | _ => rfl

omit [DecidableEq Session] in
theorem changed_job_other (log : NoticeLog Session) {room other : RoomId}
    (different : room ≠ other) (owner : Session) (member sent : Bool)
    (phase : JobPhase) :
    (log.job other owner member sent phase).changed room =
      log.changed room := by
  cases phase with
  | insertMember => exact Function.update_of_ne different ..
  | eraseMember targetRoom => exact Function.update_of_ne different ..
  | noticeJoined => cases sent <;> rfl
  | noticeLeft targetRoom => cases sent <;> rfl
  | _ => rfl

end NoticeLog

namespace SessionView

/-- Every room tells this session's membership. -/
def Told (view : SessionView) (changed : RoomId → Bool)
    (notices : RoomId → List Bool) : Prop :=
  ∀ room, (view.rooms room).Told (changed room) (notices room)

/-- A room has gone on. -/
theorem Told.update {view : SessionView} {changed after : RoomId → Bool}
    {notices more : RoomId → List Bool} (told : view.Told changed notices)
    {room : RoomId} {value : RoomView}
    (here : value.Told (after room) (more room))
    (elsewhere : ∀ other, other ≠ room →
      after other = changed other ∧ more other = notices other) :
    (view.update room value).Told after more := by
  intro other
  by_cases same : other = room
  · subst same
    rw [rooms_update_self]
    exact here
  · obtain ⟨sameChanged, sameNotices⟩ := elsewhere other same
    rw [rooms_update_other _ same, sameChanged, sameNotices]
    exact told other

theorem Told.pushJob {view : SessionView} {changed : RoomId → Bool}
    {notices : RoomId → List Bool} (told : view.Told changed notices)
    {room : RoomId} {job : RoomJob}
    (fits : job.Fits (view.rooms room).expected) :
    (view.pushJob room job).Told changed notices :=
  told.update ((told room).pushJob fits) fun _ _ => ⟨rfl, rfl⟩

end SessionView

namespace ChatServer

variable {Session : Type} [DecidableEq Session]

/-- The job an action pushes, with its room and its session. -/
def pushes (state : ChatServer Session) :
    ChatAction Session → Option (RoomId × Session × RoomJob)
  | .handle session =>
      match (state.sessions session).handler with
      | some (.push room job) => some (room, session, job)
      | _ => none
  | .onDisconnected session =>
      match (state.sessions session).disconnecting with
      | .pushLeave room => some (room, session, .leave)
      | _ => none
  | .execute room =>
      match (state.rooms room).running with
      | some (session, .pushEnter targetRoom) =>
          some (targetRoom, session, .enter)
      | _ => none
  | _ => none

/-- A pushed job will change the membership it finds, when the room has done
what is waiting there. -/
def PushFits (state : ChatServer Session) (action : ChatAction Session) :
    Prop :=
  ∀ push ∈ state.pushes action,
    push.2.2.Fits ((state.rooms push.1).view push.2.1).expected

instance (state : ChatServer Session) (action : ChatAction Session) :
    Decidable (state.PushFits action) :=
  inferInstanceAs (Decidable (∀ push ∈ state.pushes action,
    push.2.2.Fits ((state.rooms push.1).view push.2.1).expected))

/-- The job phase that the step executes. -/
def executed (state : ChatServer Session) :
    ChatAction Session → Option (Session × JobPhase)
  | .execute room => (state.rooms room).running
  | _ => none

/-- The notice that the step comes to fits in the 4096 bytes of
`MakeSendBuffer`. -/
def NoticesFit (state : ChatServer Session) (action : ChatAction Session) :
    Prop :=
  ∀ job ∈ state.executed action, ∀ overhead ∈ job.2.noticeOverhead,
    overhead + (state.sessions job.1).playerName.length ≤ 4096

instance (state : ChatServer Session) (action : ChatAction Session) :
    Decidable (state.NoticesFit action) :=
  inferInstanceAs (Decidable (∀ job ∈ state.executed action,
    ∀ overhead ∈ job.2.noticeOverhead,
      overhead + (state.sessions job.1).playerName.length ≤ 4096))

omit [DecidableEq Session] in
theorem noticePkt_sent {state : ChatServer Session} {session : Session}
    {event : String}
    (short : 7 + event.length + (state.sessions session).playerName.length ≤
      4096) : (state.noticePkt session event).sent = true := by
  have length : (literal "[" ++ (state.sessions session).playerName ++
      literal event).length =
        1 + (state.sessions session).playerName.length + event.length := by
    simp only [List.length_append, length_literal]
    rfl
  apply decide_eq_true
  change 4 + PacketId.textSize (literal "[" ++
    (state.sessions session).playerName ++ literal event) ≤ 4096
  rw [PacketId.textSize_eq (by omega), length]
  omega

theorem noticesFit_sent {state : ChatServer Session} {room : RoomId}
    {session : Session} {phase : JobPhase}
    (fits : state.NoticesFit (.execute room))
    (running : (state.rooms room).running = some (session, phase)) :
    state.noticeSent session phase = true := by
  cases phase with
  | noticeJoined => exact noticePkt_sent (fits _ running 25 rfl)
  | noticeLeft targetRoom => exact noticePkt_sent (fits _ running 23 rfl)
  | _ => rfl

/-- The rooms tell the session's memberships. -/
def Told (state : ChatServer Session) (log : NoticeLog Session)
    (session : Session) : Prop :=
  (state.view session).Told log.changed fun room => log.notices room session

/-- The room goes on with the session's job. -/
theorem told_update {log : NoticeLog Session} {view : SessionView}
    {session : Session} {room : RoomId} {value : RoomView}
    {member sent : Bool} {phase : JobPhase}
    (told : view.Told log.changed fun room => log.notices room session)
    (here : value.Told ((log.job room session member sent phase).changed room)
      ((log.job room session member sent phase).notices room session)) :
    (view.update room value).Told
      (log.job room session member sent phase).changed
      fun other =>
        (log.job room session member sent phase).notices other session := by
  apply told.update here
  intro other different
  refine ⟨log.changed_job_other different session member sent phase, ?_⟩
  apply log.notices_job_other
  exact fun same => different same.1.symm

theorem job_told {state : ChatServer Session} {log : NoticeLog Session}
    {session : Session} {room : RoomId} {phase : JobPhase}
    (told : Told state log session)
    (running : (state.rooms room).running = some (session, phase))
    (fits : PushFits state (.execute room)) :
    Told (state.advanceJob room session phase)
      (log.job room session (decide (session ∈ (state.rooms room).members))
        true phase) session := by
  have at_ : ((state.view session).rooms room).running = some phase := by
    change runningFor session (state.rooms room).running = some phase
    rw [running, runningFor_self]
  have here := told room
  unfold Told
  cases phase with
  | insertMember =>
      rw [advanceJob, view_setRoom, Room.view_run,
        Room.view_insertMember_self, runningFor_self]
      apply told_update told
      have outside : ((state.rooms room).view session).member = false :=
        here.fit at_ rfl
      change RoomView.Told _
        ((log.mark room (!((state.rooms room).view session).member)).changed
          room) _
      rw [NoticeLog.mark_changed, outside]
      exact here.access at_ rfl id rfl rfl rfl rfl
  | eraseMember targetRoom =>
      rw [advanceJob, view_setRoom, Room.view_run, Room.view_eraseMember_self,
        runningFor_self]
      apply told_update told
      have inside : ((state.rooms room).view session).member = true := by
        cases targetRoom with
        | none => exact here.fit at_ rfl
        | some target => exact here.fit at_ rfl
      change RoomView.Told _
        ((log.mark room ((state.rooms room).view session).member).changed
          room) _
      rw [NoticeLog.mark_changed, inside]
      cases targetRoom with
      | none => exact here.access at_ rfl id rfl rfl rfl rfl
      | some target => exact here.access at_ rfl id rfl rfl rfl rfl
  | setRoom =>
      rw [advanceJob, view_run, view_setSessionRoom_self, runningFor_self]
      apply told_update told
      exact here.silent at_ rfl rfl rfl
  | replyEnter =>
      rw [advanceJob, view_run, view_emit, runningFor_self]
      apply told_update told
      exact here.silent at_ rfl rfl rfl
  | noticeJoined =>
      rw [advanceJob, view_run, broadcast, view_emit, runningFor_none]
      apply told_update told
      change RoomView.Told _ (log.changed room)
        ((log.add room session .joined).notices room session)
      rw [NoticeLog.notices_add, NoticeLog.noticeOf, if_pos ⟨rfl, rfl⟩]
      exact here.announce at_ rfl rfl rfl rfl
  | readRoom targetRoom =>
      rw [advanceJob]
      split
      · rw [view_run, runningFor_self]
        apply told_update told
        exact here.silent at_ rfl rfl rfl
      · rw [view_run, runningFor_self]
        apply told_update told
        exact here.silent at_ rfl rfl rfl
  | clearRoom targetRoom =>
      rw [advanceJob, view_run, view_setSessionRoom_self, runningFor_self]
      apply told_update told
      exact here.silent at_ rfl rfl rfl
  | replyLeave targetRoom =>
      rw [advanceJob, view_run, view_emit, runningFor_self]
      apply told_update told
      change RoomView.Told _ (log.changed room)
        ((log.add room session .leaveRes).notices room session)
      rw [NoticeLog.notices_add, NoticeLog.noticeOf, if_pos ⟨rfl, rfl⟩,
        Option.toList_none, List.append_nil]
      exact here.silent at_ rfl rfl rfl
  | noticeLeft targetRoom =>
      have after : runningFor session
          (targetRoom.map fun target => (session, .pushEnter target)) =
          targetRoom.map .pushEnter := by
        cases targetRoom with
        | none => rfl
        | some target => exact runningFor_self session _
      rw [advanceJob, view_run, broadcast, view_emit, after]
      apply told_update told
      change RoomView.Told _ (log.changed room)
        ((log.add room session .left).notices room session)
      rw [NoticeLog.notices_add, NoticeLog.noticeOf, if_pos ⟨rfl, rfl⟩]
      cases targetRoom with
      | none => exact here.announce at_ rfl rfl rfl rfl
      | some target => exact here.announce at_ rfl rfl rfl rfl
  | pushEnter targetRoom =>
      rw [advanceJob, view_pushJob_self, view_run, runningFor_none]
      have gone : ((state.view session).run room none).Told
          (log.job room session (decide (session ∈ (state.rooms room).members))
            true (.pushEnter targetRoom)).changed
          fun other => log.notices other session := by
        apply told_update told
        exact here.silent at_ rfl rfl rfl
      apply gone.pushJob
      have fit := fits (targetRoom, session, .enter) (by simp [pushes, running])
      have same : (((state.view session).run room none).rooms
          targetRoom).expected =
          ((state.rooms targetRoom).view session).expected := by
        by_cases own : targetRoom = room
        · subst own
          rw [SessionView.run, SessionView.rooms_update_self]
          exact RoomView.expected_run_none at_ rfl
        · rw [SessionView.run, SessionView.rooms_update_other _ own]
          rfl
      rw [same]
      exact fit
  | broadcastChat message =>
      rw [advanceJob, view_run, broadcast, view_emit, runningFor_none]
      apply told_update told
      exact here.silent at_ rfl rfl rfl

/-- A step of the server outside the jobs. -/
theorem told_of_rooms {state next : ChatServer Session}
    {log : NoticeLog Session} {session : Session}
    (told : Told state log session)
    (same : (next.view session).rooms = (state.view session).rooms) :
    Told next log session := by
  intro room
  rw [same]
  exact told room

theorem receive_rooms (view : SessionView) (packet : Packet) :
    (view.receive packet).rooms = view.rooms := by
  have request : ∀ job, (view.request job).rooms = view.rooms := by
    intro job
    unfold SessionView.request
    split <;> rfl
  unfold SessionView.receive
  split
  · rfl
  · exact request _
  · exact request _
  · rfl

/-- The handler of the session goes on. -/
theorem handler_told {state : ChatServer Session} {log : NoticeLog Session}
    {session : Session} {phase : HandlerPhase}
    (told : Told state log session)
    (at_ : (state.sessions session).handler = some phase)
    (fits : PushFits state (.handle session)) :
    Told (state.advanceHandler session phase) log session := by
  unfold Told
  rw [view_advanceHandler]
  cases phase with
  | readRoom targetRoom =>
      intro room
      rw [SessionView.advance]
      split
      · split <;> exact told room
      · exact told room
  | push room job =>
      have fit := fits (room, session, job) (by simp [pushes, at_])
      exact SessionView.Told.pushJob told fit

theorem disconnect_told {state next : ChatServer Session}
    {log : NoticeLog Session} {session : Session}
    (told : Told state log session)
    (fits : PushFits state (.onDisconnected session))
    (advanced : state.advanceDisconnect session
      (state.sessions session).disconnecting = some next) :
    Told next log session := by
  cases at_ : (state.sessions session).disconnecting with
  | connected =>
      rw [at_] at advanced
      cases advanced
  | disconnected =>
      rw [at_] at advanced
      cases advanced
  | pushLeave room =>
      rw [at_] at advanced
      obtain rfl := Option.some.inj advanced
      unfold Told
      rw [view_setDisconnecting_self, view_pushJob_self]
      have fit := fits (room, session, .leave) (by simp [pushes, at_])
      exact SessionView.Told.pushJob told fit
  | clearRoom =>
      rw [at_] at advanced
      obtain rfl := Option.some.inj advanced
      unfold Told
      rw [view_setDisconnecting_self, view_setSessionRoom_self]
      exact told

theorem start_told {state next : ChatServer Session} {log : NoticeLog Session}
    {session : Session} {room : RoomId} (told : Told state log session)
    (stepped : state.step (.start room) = some next) :
    Told next log session := by
  simp only [step] at stepped
  split at stepped
  · rename_i owner job rest free queued
    obtain rfl := Option.some.inj stepped
    have free' : ((state.view session).rooms room).running = none := by
      change runningFor session (state.rooms room).running = none
      rw [free, runningFor_none]
    have jobs : ((state.view session).rooms room).jobs =
        jobsFor session ((owner, job) :: rest) :=
      congrArg (jobsFor session) queued
    unfold Told
    rw [view_setRoom]
    refine SessionView.Told.update told ?_ fun _ _ => ⟨rfl, rfl⟩
    by_cases own : owner = session
    · subst own
      rw [jobsFor_self] at jobs
      rw [Room.view_start_self]
      exact (told room).start free' jobs
    · rw [Room.view_start_other own free queued]
      exact told room
  · cases stepped

theorem step_told {state next : ChatServer Session} {log : NoticeLog Session}
    {action : ChatAction Session} (told : ∀ session, Told state log session)
    (fits : PushFits state action) (short : NoticesFit state action)
    (stepped : state.step action = some next) (session : Session) :
    Told next (log.record state action) session := by
  cases action with
  | packet owner packet tick =>
      apply told_of_rooms (told session)
      simp only [step] at stepped
      split at stepped
      · by_cases own : owner = session
        · subst own
          rw [view_handlePacket stepped, receive_rooms]
        · rw [handlePacket_other own stepped]
      · cases stepped
  | handle owner =>
      obtain ⟨phase, at_, rfl⟩ := Option.map_eq_some_iff.mp stepped
      by_cases own : owner = session
      · subst own
        exact handler_told (told owner) at_ fits
      · apply told_of_rooms (told session)
        rw [advanceHandler_other own]
  | disconnect owner =>
      apply told_of_rooms (told session)
      simp only [step] at stepped
      split at stepped
      · by_cases own : owner = session
        · subst own
          split at stepped <;> obtain rfl := Option.some.inj stepped <;>
            rw [view_setDisconnecting_self] <;> rfl
        · have same : next.view session = state.view session := by
            split at stepped <;> obtain rfl := Option.some.inj stepped <;>
              exact view_setSession_other state own _
          rw [same]
      · cases stepped
  | onDisconnected owner =>
      by_cases own : owner = session
      · subst own
        exact disconnect_told (told owner) fits stepped
      · apply told_of_rooms (told session)
        rw [advanceDisconnect_other own stepped]
  | start room => exact start_told (told session) stepped
  | execute room =>
      obtain ⟨⟨owner, phase⟩, running, rfl⟩ :=
        Option.map_eq_some_iff.mp stepped
      simp only [NoticeLog.record, running, noticesFit_sent short running]
      by_cases own : owner = session
      · subst own
        exact job_told (told owner) running fits
      · change SessionView.Told
          ((state.advanceJob room owner phase).view session) _ _
        rw [advanceJob_other own running]
        intro other
        have before := told session other
        beta_reduce at before ⊢
        rw [log.notices_job_other fun same => own same.2]
        by_cases here : other = room
        · subst here
          apply before.free
          change runningFor session (state.rooms other).running = none
          rw [running, runningFor_other own]
        · rw [log.changed_job_other here]
          exact before

/-- What a packet tells, as the clients see it. -/
def announced : Output Session → Option (Option RoomId × Session × NoticeKind)
  | .roomBroadcast room session _ ⟨.sNotice, packet⟩ =>
      some (some room, session,
        if (literal joined).isSuffixOf packet.message then .joined else .left)
  | .send session ⟨.sLeaveRoom, _⟩ => some (none, session, .leaveRes)
  | _ => none

end ChatServer

/-- The reply does not name its room. -/
def NoticeEntry.announced {Session : Type} (entry : NoticeEntry Session) :
    Option RoomId × Session × NoticeKind :=
  (if entry.kind = .leaveRes then none else some entry.room, entry.session,
    entry.kind)

namespace ChatServer

variable {Session : Type} [DecidableEq Session]

/-- A notice of a leaving does not end like one of an entry. -/
theorem left_not_joined (name : StdString) :
    (literal joined).isSuffixOf (literal "[" ++ name ++ literal left) =
      false := by
  rw [Bool.eq_false_iff, ne_eq, List.isSuffixOf_iff_suffix]
  intro suffix
  have shorter : literal left <:+ literal joined :=
    List.suffix_of_suffix_length_le (List.suffix_append _ _) suffix (by decide)
  revert shorter
  decide

omit [DecidableEq Session] in
theorem announced_joined (state : ChatServer Session) (room : RoomId)
    (session : Session) (members : List Session) :
    announced (.roomBroadcast room session members
        (state.noticePkt session joined)) =
      some (some room, session, .joined) := by
  have ends : (literal joined).isSuffixOf (literal "[" ++
      (state.sessions session).playerName ++ literal joined) = true :=
    List.isSuffixOf_iff_suffix.mpr (List.suffix_append _ _)
  exact congrArg (fun kind => some (some room, session, kind)) (if_pos ends)

omit [DecidableEq Session] in
theorem announced_left (state : ChatServer Session) (room : RoomId)
    (session : Session) (members : List Session) :
    announced (.roomBroadcast room session members
        (state.noticePkt session left)) =
      some (some room, session, .left) := by
  have ends := left_not_joined (state.sessions session).playerName
  exact congrArg (fun kind => some (some room, session, kind))
    (if_neg (Bool.eq_false_iff.mp ends))

/-- What an output tells, when it is sent. -/
def published (output : Output Session) :
    Option (Option RoomId × Session × NoticeKind) :=
  if output.packet.sent then announced output else none

omit [DecidableEq Session] in
theorem published_silent {output : Output Session}
    (silent : announced output = none) : published output = none := by
  rw [published, silent, ite_self]

/-- The log has the notices and replies that were sent, in their order. -/
def Logged (state : ChatServer Session) (log : NoticeLog Session) : Prop :=
  state.outputs.filterMap published =
    log.entries.map NoticeEntry.announced

omit [DecidableEq Session] in
theorem Logged.grow {state next : ChatServer Session}
    {log after : NoticeLog Session} (logged : Logged state log)
    {outputs : List (Output Session)} {entries : List (NoticeEntry Session)}
    (sent : next.outputs = state.outputs ++ outputs)
    (told : after.entries = log.entries ++ entries)
    (agree : outputs.filterMap published =
      entries.map NoticeEntry.announced) : Logged next after := by
  rw [Logged, sent, told, List.filterMap_append, List.map_append, agree,
    logged]

omit [DecidableEq Session] in
theorem Logged.silent {state next : ChatServer Session}
    {log after : NoticeLog Session} (logged : Logged state log)
    (sent : next.outputs = state.outputs)
    (told : after.entries = log.entries) : Logged next after := by
  rw [Logged, sent, told]
  exact logged

theorem handlePacket_logged {state next : ChatServer Session}
    {log : NoticeLog Session} {session : Session} {packet : Packet}
    {tick : UInt64} (logged : Logged state log)
    (handled : state.handlePacket session tick packet = some next) :
    Logged next log := by
  have quiet : ∀ {after : ChatServer Session} (output : Output Session),
      after.outputs = state.outputs ++ [output] → announced output = none →
      Logged after log := by
    intro after output sent silent
    apply logged.grow sent (List.append_nil _).symm
    rw [List.filterMap_cons_none (published_silent silent)]
    rfl
  obtain ⟨id, fields⟩ := packet
  cases id with
  | cLogin =>
      cases handled
      exact quiet _ rfl rfl
  | cHeartbeat =>
      cases handled
      exact quiet _ rfl rfl
  | cRoomList =>
      cases handled
      exact quiet _ rfl rfl
  | cEnterRoom =>
      cases handled
      apply logged.silent _ rfl
      exact getOrCreateRoom_outputs state _ _
  | cLeaveRoom =>
      cases handled
      exact logged.silent (requestJob_outputs state _ _) rfl
  | cRoomChat =>
      cases handled
      exact logged.silent (requestJob_outputs state _ _) rfl
  | cGlobalChat =>
      cases handled
      exact quiet _ rfl rfl
  | _ => cases handled

omit [DecidableEq Session] in
/-- A notice that is built is logged when it is sent. -/
theorem notice_logged {state : ChatServer Session} {log : NoticeLog Session}
    (logged : Logged state log) {room : RoomId} {session : Session}
    {packet : Packet} {kind : NoticeKind} (notice : kind ≠ .leaveRes)
    (announces : ∀ members, announced (.roomBroadcast room session members
      packet) = some (some room, session, kind)) :
    Logged (state.broadcast room session packet)
      (if packet.sent then log.add room session kind else log) := by
  cases sent : packet.sent with
  | false =>
      apply logged.grow rfl (List.append_nil _).symm
      rw [List.filterMap_cons_none]
      · rfl
      · rw [published, Output.packet, sent]
        rfl
  | true =>
      apply logged.grow rfl rfl
      rw [@List.filterMap_cons_some _ _ _ _ _ (some room, session, kind)]
      · rw [List.map_singleton, NoticeEntry.announced, if_neg notice]
        rfl
      · rw [published, Output.packet, sent]
        exact announces _

theorem job_logged {state : ChatServer Session} {log : NoticeLog Session}
    (logged : Logged state log) (room : RoomId) (session : Session)
    (member : Bool) (phase : JobPhase) :
    Logged (state.advanceJob room session phase)
      (log.job room session member (state.noticeSent session phase)
        phase) := by
  cases phase with
  | noticeJoined =>
      exact notice_logged logged (by simp) (announced_joined state room session)
  | noticeLeft targetRoom =>
      exact notice_logged logged (by simp) (announced_left state room session)
  | replyLeave targetRoom => exact logged.grow rfl rfl rfl
  | replyEnter =>
      apply logged.grow rfl (List.append_nil _).symm
      rw [List.filterMap_cons_none (published_silent rfl)]
      rfl
  | broadcastChat message =>
      apply logged.grow rfl (List.append_nil _).symm
      rw [List.filterMap_cons_none (published_silent rfl)]
      rfl
  | readRoom targetRoom =>
      rw [advanceJob]
      split <;> exact logged.silent rfl rfl
  | _ => exact logged.silent rfl rfl

theorem step_logged {state next : ChatServer Session}
    {log : NoticeLog Session} {action : ChatAction Session}
    (logged : Logged state log) (stepped : state.step action = some next) :
    Logged next (log.record state action) := by
  cases action with
  | packet owner packet tick =>
      simp only [step] at stepped
      split at stepped
      · exact handlePacket_logged logged stepped
      · cases stepped
  | handle owner =>
      obtain ⟨phase, at_, rfl⟩ := Option.map_eq_some_iff.mp stepped
      apply logged.silent _ rfl
      cases phase with
      | push room job => rfl
      | readRoom targetRoom =>
          simp only [advanceHandler]
          split
          · split <;> rfl
          · rfl
  | disconnect owner =>
      simp only [step] at stepped
      split at stepped
      · split at stepped <;> obtain rfl := Option.some.inj stepped <;>
          exact logged.silent rfl rfl
      · cases stepped
  | onDisconnected owner =>
      change state.advanceDisconnect owner _ = some next at stepped
      generalize (state.sessions owner).disconnecting = phase at stepped
      cases phase with
      | pushLeave room =>
          obtain rfl := Option.some.inj stepped
          exact logged.silent rfl rfl
      | clearRoom =>
          obtain rfl := Option.some.inj stepped
          exact logged.silent rfl rfl
      | _ => cases stepped
  | start room =>
      simp only [step] at stepped
      split at stepped
      · obtain rfl := Option.some.inj stepped
        exact logged.silent rfl rfl
      · cases stepped
  | execute room =>
      obtain ⟨⟨owner, phase⟩, running, rfl⟩ :=
        Option.map_eq_some_iff.mp stepped
      simp only [NoticeLog.record, running]
      exact job_logged logged room owner _ phase

/-- A job that is about to tell something has changed `_members`. -/
theorem job_changed {state : ChatServer Session} {log : NoticeLog Session}
    {session : Session} {room : RoomId} {phase : JobPhase}
    (told : Told state log session)
    (running : (state.rooms room).running = some (session, phase))
    (before : ∀ entry ∈ log.entries, entry.changed = true)
    (member sent : Bool) :
    ∀ entry ∈ (log.job room session member sent phase).entries,
      entry.changed = true := by
  have changed : ∀ notice, phase.pendingNotice = some notice →
      log.changed room = true := by
    intro notice comes
    apply (told room).pending notice _ |>.1
    change (runningFor session (state.rooms room).running).bind _ = _
    rw [running, runningFor_self]
    exact comes
  have adds : ∀ kind, log.changed room = true →
      ∀ entry ∈ (log.add room session kind).entries, entry.changed = true := by
    intro kind mark entry member
    rcases List.mem_append.mp member with old | new
    · exact before entry old
    · rw [List.mem_singleton.mp new]
      exact mark
  cases phase with
  | noticeJoined =>
      cases sent with
      | true => exact adds .joined (changed true rfl)
      | false => exact before
  | replyLeave targetRoom => exact adds .leaveRes (changed false rfl)
  | noticeLeft targetRoom =>
      cases sent with
      | true => exact adds .left (changed false rfl)
      | false => exact before
  | _ => exact before

/-- The notices tell what happened: they are what the rooms have sent, every one
comes from a job that has changed `_members`, and those of one room about one
session alternate. -/
structure NoticesMatch (state : ChatServer Session) (log : NoticeLog Session) :
    Prop where
  logged : Logged state log
  changed : ∀ entry ∈ log.entries, entry.changed = true
  alternate : ∀ room session, Alternates false (log.notices room session)

/-- The server with the log of its notices. -/
def noticing (Session : Type) [DecidableEq Session] :
    Machine (ChatServer Session × NoticeLog Session) (ChatAction Session) :=
  (machine Session).recording .empty NoticeLog.record

theorem initial_told (session : Session) :
    Told (initial : ChatServer Session) .empty session := by
  intro room
  rw [initial_view_rooms]
  exact
    { fits := trivial
      alternate := trivial
      quiet := fun _ => rfl
      pending := nofun }

theorem reaches_told {pair : ChatServer Session × NoticeLog Session}
    (reached : (noticing Session).Reaches
      (fun pair action => PushFits pair.1 action ∧ NoticesFit pair.1 action)
      pair) :
    (∀ session, Told pair.1 pair.2 session) ∧ Logged pair.1 pair.2 ∧
      ∀ entry ∈ pair.2.entries, entry.changed = true := by
  apply Machine.Reaches.invariant _ _ reached
  · intro ⟨state, log⟩ ⟨initially, start⟩
    obtain rfl : state = initial := initially
    obtain rfl : log = .empty := start
    exact ⟨initial_told, rfl, nofun⟩
  · intro ⟨state, log⟩ action ⟨next, after⟩ ⟨told, logged, changed⟩ fits both
    obtain ⟨stepped, rfl⟩ := Machine.recording_step_eq_some_iff.mp both
    refine ⟨step_told told fits.1 fits.2 stepped,
      step_logged logged stepped, ?_⟩
    cases action with
    | execute room =>
        obtain ⟨⟨owner, phase⟩, running, _⟩ :=
          Option.map_eq_some_iff.mp stepped
        simp only [NoticeLog.record, running]
        exact job_changed (told owner) running changed _ _
    | _ => exact changed

/-- While the pushed jobs fit the membership they will find and the notices fit
in a packet, the notices match the transitions. -/
theorem reaches_noticesMatch {pair : ChatServer Session × NoticeLog Session}
    (reached : (noticing Session).Reaches
      (fun pair action => PushFits pair.1 action ∧ NoticesFit pair.1 action)
      pair) :
    NoticesMatch pair.1 pair.2 := by
  obtain ⟨told, logged, changed⟩ := reaches_told reached
  exact ⟨logged, changed, fun room session => (told session room).alternate⟩

/-- The client is disconnected in a room. -/
def disconnectActions (room : RoomId) : List (ChatAction Unit) :=
  .disconnect () :: .onDisconnected () :: .onDisconnected () ::
    .start room :: .replicate 4 (.execute room)

/-- The client goes on to room 2, where it is disconnected. -/
def switchActions : List (ChatAction Unit) :=
  enterActions 1 ++ switchRoom 1 2 ++ disconnectActions 2

theorem switch_noticesMatch :
    ∃ pair, (noticing Unit).run (initial, .empty) switchActions = some pair ∧
      pair.2.notices 1 () = [true, false] ∧
      pair.2.notices 2 () = [true, false] ∧ NoticesMatch pair.1 pair.2 := by
  obtain ⟨pair, replayed⟩ : ∃ pair,
      (noticing Unit).run (initial, .empty) switchActions = some pair :=
    Option.isSome_iff_exists.mp (by decide +kernel)
  have meets : (noticing Unit).RunMeets
      (fun pair action => PushFits pair.1 action ∧ NoticesFit pair.1 action)
      (initial, .empty) switchActions := by
    decide +kernel
  have view : (pair.2.notices 1 (), pair.2.notices 2 ()) =
      ([true, false], [true, false]) := by
    apply Machine.view_of_run replayed
    decide +kernel
  obtain ⟨first, second⟩ := Prod.mk.inj view
  have start : (noticing Unit).initial (initial, .empty) := ⟨rfl, rfl⟩
  exact ⟨pair, replayed, first, second, reaches_noticesMatch
    (Machine.Reaches.of_run (.start start) meets replayed)⟩

/-- The client sends `C_LEAVE_ROOM` twice before the room runs. -/
def twoLeaves : List (ChatAction Unit) :=
  [.packet () leavePacket 0,
    .handle (),
    .packet () leavePacket 0,
    .handle (),
    .start 1,
    .execute 1,
    .execute 1,
    .execute 1,
    .execute 1,
    .execute 1,
    .start 1,
    .execute 1,
    .execute 1,
    .execute 1,
    .execute 1]

def leaveTwice : List (ChatAction Unit) :=
  enterActions 1 ++ twoLeaves

/-- The client is told twice that it has left, and so is the room. -/
theorem leaveTwice_noMatch :
    ∃ pair, (noticing Unit).run (initial, .empty) leaveTwice = some pair ∧
      pair.2.notices 1 () = [true, false, false] ∧
      ¬NoticesMatch pair.1 pair.2 := by
  obtain ⟨pair, replayed⟩ : ∃ pair,
      (noticing Unit).run (initial, .empty) leaveTwice = some pair :=
    Option.isSome_iff_exists.mp (by decide +kernel)
  have notices : pair.2.notices 1 () = [true, false, false] := by
    apply Machine.view_of_run replayed
    decide +kernel
  refine ⟨pair, replayed, notices, ?_⟩
  intro holds
  have alternate := holds.alternate 1 ()
  rw [notices] at alternate
  obtain ⟨_, _, twice, _⟩ := alternate
  cases twice

end ChatServer

end IocpChat
