import IocpChat.ChatServer.Departure
import IocpChat.ChatServer.SessionActions
import Mathlib.Data.List.Induction

/-!
# The last request of a client

`Handle_C_ENTER_ROOM` and `Handle_C_LEAVE_ROOM` decide by `_room`, while jobs of
earlier requests may still be about to change it.  `Leads` says in which room
the jobs on their way leave the session, whatever order the rooms run them in;
a request that is read when the decision fits leads where the client asked.
-/

namespace IocpChat

open TransitionSystem Protocol

/-- The running job, as long as it may still change `_room`. -/
def JobPhase.outstanding : JobPhase → List RoomJob
  | readRoom none => [.leave]
  | clearRoom none => [.leave]
  | phase => phase.pending

def RoomView.remaining (room : RoomView) : List RoomJob :=
  room.running.elim [] JobPhase.outstanding ++ room.jobs

namespace SessionView

/-- Everything that may still change `_room` in this room. -/
def remaining (view : SessionView) (room : RoomId) : List RoomJob :=
  (view.rooms room).remaining ++ handlerLine view.handler room

/-- `_room` names the room when its jobs are done, if nobody else sets it. -/
def endsIn (view : SessionView) (room : RoomId) : Bool :=
  settle (decide (view.room = some room)) (view.remaining room)

/-- `C_LEAVE_ROOM` may be read: no entry is on its way but into the room that
`_room` names. -/
def MayLeaveRoom (view : SessionView) : Prop :=
  ∀ room, ∀ job ∈ view.remaining room, ∀ destination,
    job.destination room = some destination →
    job = .enter ∧ view.room = some room

/-- `C_ENTER_ROOM` may be read: the session is in the room and no job is about
to take it out, or it is not and every entry on its way leads there too, except
into the room that it will leave. -/
def MayEnterRoom (view : SessionView) (targetRoom : RoomId) : Prop :=
  view.room = some targetRoom ∧
      (∀ job ∈ view.remaining targetRoom, job ≠ .leave ∧
        ∀ destination, job ≠ .leaveAndEnter destination) ∨
    view.room ≠ some targetRoom ∧
      ∀ room, ∀ job ∈ view.remaining room, ∀ destination,
        job.destination room = some destination →
        destination = targetRoom ∨ job = .enter ∧ view.room = some room

/-- The jobs on their way leave the session in this room, or in none. -/
structure Leads (view : SessionView) (destination : Option RoomId) : Prop where
  apart : ∀ room targetRoom,
    .leaveAndEnter targetRoom ∈ view.remaining room → targetRoom ≠ room
  switches : ∀ room targetRoom,
    .leaveAndEnter targetRoom ∈ view.remaining room →
    destination = some targetRoom
  stays : ∀ room, view.endsIn room = true → destination = some room
  arrives : ∀ targetRoom, destination = some targetRoom →
    view.endsIn targetRoom = true ∨
      ∃ room, .leaveAndEnter targetRoom ∈ view.remaining room
  leaving : ∀ room, view.handler = some (.push room .leave) →
    destination = none

/-- Only leaving jobs are outstanding longer than they are pending. -/
theorem mem_outstanding_iff {phase : JobPhase} {job : RoomJob}
    (entry : job ≠ .leave) : job ∈ phase.outstanding ↔ job ∈ phase.pending := by
  cases phase with
  | readRoom targetRoom =>
      cases targetRoom with
      | none => simpa [JobPhase.outstanding, JobPhase.pending] using entry
      | some target => exact Iff.rfl
  | clearRoom targetRoom =>
      cases targetRoom with
      | none => simpa [JobPhase.outstanding, JobPhase.pending] using entry
      | some target => exact Iff.rfl
  | _ => exact Iff.rfl

theorem mem_remaining_iff {view : SessionView} {room : RoomId}
    {job : RoomJob} (entry : job ≠ .leave) :
    job ∈ view.remaining room ↔ job ∈ view.line room := by
  have running : job ∈ (view.rooms room).running.elim []
        JobPhase.outstanding ↔
      job ∈ (view.rooms room).running.elim [] JobPhase.pending := by
    cases (view.rooms room).running with
    | none => exact Iff.rfl
    | some phase => exact mem_outstanding_iff entry
  simp only [remaining, line, RoomView.remaining, RoomView.line,
    List.mem_append, running]

theorem destination_ne_leave {job : RoomJob} {room destination : RoomId}
    (goes : job.destination room = some destination) : job ≠ .leave := by
  rintro rfl
  cases goes

/-- A line without an entry ends outside. -/
theorem enter_mem_of_settle {line : List RoomJob}
    (inside : settle false line = true) : .enter ∈ line := by
  induction line using List.reverseRecOn with
  | nil => cases inside
  | append_singleton first job induction =>
      rw [settle_append] at inside
      cases job with
      | enter => exact List.mem_append_right _ (List.mem_singleton_self _)
      | handleChat message =>
          exact List.mem_append_left _ (induction inside)
      | leave => cases inside
      | leaveAndEnter targetRoom => cases inside

/-- A line without a leaving ends inside. -/
theorem settle_true {line : List RoomJob}
    (stays : ∀ job ∈ line, job ≠ .leave ∧
      ∀ destination, job ≠ .leaveAndEnter destination) :
    settle true line = true := by
  induction line with
  | nil => rfl
  | cons job rest induction =>
      obtain ⟨first, later⟩ := List.forall_mem_cons.mp stays
      have inside : job.settle true = true := by
        cases job with
        | enter => rfl
        | handleChat message => rfl
        | leave => exact absurd rfl first.1
        | leaveAndEnter targetRoom => exact absurd rfl (first.2 targetRoom)
      change settle (job.settle true) rest = true
      rw [inside]
      exact induction later

theorem endsIn_elsewhere {view : SessionView} {room : RoomId}
    (outside : view.room ≠ some room) (ends : view.endsIn room = true) :
    .enter ∈ view.remaining room := by
  apply enter_mem_of_settle
  rw [endsIn, decide_eq_false outside] at ends
  exact ends

/-- A step inside one room that may set `_room` to or from it. -/
theorem Leads.update {view next : SessionView} {destination : Option RoomId}
    (leads : Leads view destination) {room : RoomId} {value : RoomView}
    (rooms : next.rooms = Function.update view.rooms room value)
    (handler : next.handler = view.handler)
    (elsewhere : ∀ other, other ≠ room →
      (next.room = some other ↔ view.room = some other))
    (same : settle (decide (next.room = some room)) value.remaining =
      settle (decide (view.room = some room)) (view.rooms room).remaining)
    (switches : ∀ targetRoom, .leaveAndEnter targetRoom ∈ value.remaining ↔
      .leaveAndEnter targetRoom ∈ (view.rooms room).remaining) :
    Leads next destination := by
  have endsSame : ∀ other, next.endsIn other = view.endsIn other := by
    intro other
    rw [endsIn, endsIn, remaining, remaining, settle_append, settle_append,
      handler, rooms]
    by_cases here : other = room
    · subst here
      rw [Function.update_self, same]
    · rw [Function.update_of_ne here]
      simp only [elsewhere other here]
  have switchesSame : ∀ other targetRoom,
      .leaveAndEnter targetRoom ∈ next.remaining other ↔
        .leaveAndEnter targetRoom ∈ view.remaining other := by
    intro other targetRoom
    rw [remaining, remaining, List.mem_append, List.mem_append, handler, rooms]
    by_cases here : other = room
    · subst here
      rw [Function.update_self, switches]
    · rw [Function.update_of_ne here]
  exact
    { apart := fun other targetRoom member =>
        leads.apart other targetRoom ((switchesSame other targetRoom).mp member)
      switches := fun other targetRoom member =>
        leads.switches other targetRoom
          ((switchesSame other targetRoom).mp member)
      stays := fun other ends => leads.stays other (endsSame other ▸ ends)
      arrives := by
        intro targetRoom goes
        simp only [endsSame, switchesSame]
        exact leads.arrives targetRoom goes
      leaving := by
        rw [handler]
        exact leads.leaving }

/-- A step inside one room that leaves `_room` alone. -/
theorem Leads.update_quiet {view : SessionView} {destination : Option RoomId}
    (leads : Leads view destination) {room : RoomId} {value : RoomView}
    (same : value.remaining = (view.rooms room).remaining) :
    Leads (view.update room value) destination := by
  refine leads.update rfl rfl (fun _ _ => Iff.rfl) ?_ ?_
  · rw [same]
    rfl
  · intro targetRoom
    rw [same]

theorem remaining_running {room : RoomView} {phase : JobPhase}
    (running : room.running = some phase) :
    room.remaining = phase.outstanding ++ room.jobs := by
  rw [RoomView.remaining, running]
  rfl

theorem remaining_quiet {room : RoomView} {phase : JobPhase}
    {next : Option JobPhase} (running : room.running = some phase)
    (quiet : quietNext phase = some next)
    (noChat : ∀ message, phase ≠ .broadcastChat message) :
    (room.run next).remaining = room.remaining := by
  rw [remaining_running running]
  cases phase with
  | replyEnter =>
      cases quiet
      rfl
  | noticeJoined =>
      cases quiet
      rfl
  | replyLeave targetRoom =>
      cases quiet
      cases targetRoom <;> rfl
  | noticeLeft targetRoom =>
      cases quiet
      cases targetRoom <;> rfl
  | broadcastChat message => exact absurd rfl (noChat message)
  | _ => cases quiet

/-- The chat that was broadcast moved nobody. -/
theorem Leads.chat {view : SessionView} {destination : Option RoomId}
    (leads : Leads view destination) {room : RoomId} {message : StdString}
    (running : (view.rooms room).running = some (.broadcastChat message)) :
    Leads (view.run room none) destination := by
  have before := remaining_running running
  refine leads.update rfl rfl (fun _ _ => Iff.rfl) ?_ ?_
  · rw [before]
    rfl
  · intro targetRoom
    rw [before]
    change _ ↔ _ ∈ RoomJob.handleChat message :: (view.rooms room).jobs
    simp [RoomView.remaining, RoomView.run]

/-- What a handler is about to push to the target of a `LeaveAndEnter` does not
leave it. -/
theorem Leads.handlerLine_stays {view : SessionView}
    {destination : Option RoomId} (leads : Leads view destination)
    {targetRoom : RoomId} (goes : destination = some targetRoom) :
    settle true (handlerLine view.handler targetRoom) = true := by
  apply settle_true
  intro job member
  have remains : job ∈ view.remaining targetRoom :=
    List.mem_append_right _ member
  constructor
  · rintro rfl
    have pushes : view.handler = some (.push targetRoom .leave) := by
      cases handler : view.handler with
      | none =>
          rw [handler] at member
          cases member
      | some phase =>
          rw [handler] at member
          cases phase with
          | readRoom other => cases member
          | push other job =>
              rw [handlerLine] at member
              split at member
              · rename_i here
                rw [here, List.mem_singleton.mp member]
              · cases member
    rw [leads.leaving targetRoom pushes] at goes
    cases goes
  · rintro other rfl
    have same := goes.symm.trans (leads.switches targetRoom other remains)
    exact leads.apart targetRoom other remains (Option.some.inj same).symm

/-- `LeaveAndEnter` pushes its `Enter`. -/
theorem Leads.pushEnter {view : SessionView} {destination : Option RoomId}
    (leads : Leads view destination) {room targetRoom : RoomId}
    (outside : view.room ≠ some room)
    (running : (view.rooms room).running = some (.pushEnter targetRoom)) :
    Leads ((view.run room none).pushJob targetRoom .enter) destination := by
  let next := (view.run room none).pushJob targetRoom .enter
  have before := remaining_running running
  have pending : .leaveAndEnter targetRoom ∈ view.remaining room := by
    rw [remaining, before]
    exact List.mem_append_left _ (List.mem_cons_self ..)
  have different := leads.apart room targetRoom pending
  have goes := leads.switches room targetRoom pending
  have hereAfter : next.remaining room =
      (view.rooms room).jobs ++ handlerLine view.handler room := by
    change ((view.run room none).update targetRoom _ |>.rooms room).remaining ++
      _ = _
    rw [rooms_update_other _ different.symm, run, rooms_update_self]
    rfl
  have targetAfter : next.remaining targetRoom =
      (view.rooms targetRoom).remaining ++ [.enter] ++
        handlerLine view.handler targetRoom := by
    change ((view.run room none).update targetRoom _ |>.rooms
      targetRoom).remaining ++ _ = _
    rw [rooms_update_self, run, rooms_update_other _ different]
    change _ ++ (_ ++ _) ++ _ = _
    rw [← List.append_assoc]
    rfl
  have elsewhere : ∀ other, other ≠ room → other ≠ targetRoom →
      next.remaining other = view.remaining other := by
    intro other notHere notTarget
    change
      ((view.run room none).update targetRoom _ |>.rooms other).remaining ++
        _ = _
    rw [rooms_update_other _ notTarget, run, rooms_update_other _ notHere]
    rfl
  have endsHere : next.endsIn room = view.endsIn room := by
    have sameRoom : next.room = view.room := rfl
    rw [endsIn, endsIn, hereAfter, sameRoom, decide_eq_false outside, remaining,
      before]
    rfl
  have endsTarget : next.endsIn targetRoom = true := by
    rw [endsIn, targetAfter, settle_append, settle_append]
    exact leads.handlerLine_stays goes
  have fewer : ∀ other target,
      .leaveAndEnter target ∈ next.remaining other →
      .leaveAndEnter target ∈ view.remaining other := by
    intro other target member
    by_cases here : other = room
    · subst here
      rw [hereAfter] at member
      rw [remaining, before, List.append_assoc]
      exact List.mem_append_right _ member
    · by_cases there : other = targetRoom
      · subst there
        rw [targetAfter] at member
        simpa [remaining] using member
      · rwa [elsewhere other here there] at member
  exact
    { apart := fun other target member =>
        leads.apart other target (fewer other target member)
      switches := fun other target member =>
        leads.switches other target (fewer other target member)
      stays := by
        intro other ends
        change next.endsIn other = true at ends
        by_cases here : other = room
        · subst here
          exact leads.stays other (endsHere ▸ ends)
        · by_cases there : other = targetRoom
          · rw [there]
            exact goes
          · apply leads.stays other
            rw [endsIn, elsewhere other here there] at ends
            exact ends
      arrives := by
        intro target same
        have target_eq : target = targetRoom :=
          Option.some.inj (same.symm.trans goes)
        subst target_eq
        exact Or.inl endsTarget
      leaving := leads.leaving }

theorem step_leads {view next : SessionView} {destination : Option RoomId}
    (inv : Inv view) (leads : Leads view destination)
    (connected : view.disconnecting = .connected)
    (stepped : view.JobStep next) : Leads next destination := by
  obtain ⟨step, handler⟩ := stepped
  cases step with
  | elsewhere => exact leads
  | request idle =>
      rw [idle] at handler
      cases handler
  | push pushes =>
      rw [pushes] at handler
      cases handler
  | pushLeave pushes =>
      rw [connected] at pushes
      cases pushes
  | forgetRoom forgets =>
      rw [connected] at forgets
      cases forgets
  | @start room job rest free queued =>
      apply leads.update_quiet
      rw [RoomView.remaining, RoomView.remaining, free, queued]
      cases job <;> rfl
  | @insertMember room running =>
      apply leads.update_quiet
      rw [remaining_running running]
      rfl
  | @setRoom room running =>
      have before := remaining_running running
      have pending : RoomJob.enter ∈ view.line room := by
        rw [line_run view running]
        exact List.mem_append_left _ (List.mem_singleton_self _)
      refine leads.update rfl rfl ?_ ?_ ?_
      · intro other different
        have notThere : view.room ≠ some other := by
          rcases inv.entering room pending with outside | here
          · rw [outside]
            simp
          · rw [here]
            exact fun same => different (Option.some.inj same).symm
        refine iff_of_false ?_ notThere
        exact fun same => different (Option.some.inj same).symm
      · rw [before]
        change settle (decide (some room = some room)) _ = _
        rw [decide_eq_true rfl]
        rfl
      · intro targetRoom
        rw [before]
        simp [RoomView.remaining, RoomView.run, JobPhase.outstanding,
          JobPhase.pending, SessionView.setRoom]
  | @eraseMember room targetRoom running =>
      apply leads.update_quiet
      rw [remaining_running running]
      cases targetRoom <;> rfl
  | @readHere room targetRoom running here =>
      apply leads.update_quiet
      rw [remaining_running running]
      cases targetRoom <;> rfl
  | @readElsewhere room targetRoom running elsewhere =>
      have before := remaining_running running
      refine leads.update rfl rfl (fun _ _ => Iff.rfl) ?_ ?_
      · rw [before]
        change settle (decide (view.room = some room)) _ = _
        rw [decide_eq_false elsewhere]
        cases targetRoom <;> rfl
      · intro target
        rw [before]
        cases targetRoom <;>
          simp [RoomView.remaining, RoomView.run, JobPhase.outstanding,
            JobPhase.pending]
  | @clearRoom room targetRoom running =>
      have before := remaining_running running
      have here := inv.clearing room targetRoom running
      refine leads.update rfl rfl ?_ ?_ ?_
      · intro other different
        rw [here]
        refine iff_of_false (by rintro ⟨⟩) ?_
        exact fun same => different (Option.some.inj same).symm
      · rw [before]
        cases targetRoom <;> rfl
      · intro target
        rw [before]
        cases targetRoom <;>
          simp [RoomView.remaining, RoomView.run, JobPhase.outstanding,
            JobPhase.pending, SessionView.setRoom]
  | @quiet room phase next running quiet =>
      by_cases chat : ∃ message, phase = .broadcastChat message
      · obtain ⟨message, rfl⟩ := chat
        cases quiet
        exact leads.chat running
      · apply leads.update_quiet
        exact remaining_quiet running quiet fun message same =>
          chat ⟨message, same⟩
  | @pushEnter room targetRoom running =>
      apply leads.pushEnter _ running
      rcases inv.left room targetRoom (by rw [running]; rfl) with
        outside | there
      · rw [outside]
        simp
      · rw [there]
        have pending : .leaveAndEnter targetRoom ∈ view.remaining room := by
          rw [remaining, remaining_running running]
          exact List.mem_append_left _ (List.mem_cons_self ..)
        exact fun same =>
          leads.apart room targetRoom pending (Option.some.inj same)

/-- A step of the handler that leaves everything on its way as it is. -/
theorem Leads.of_remaining {view next : SessionView}
    {destination : Option RoomId} (leads : Leads view destination)
    (room : next.room = view.room)
    (same : ∀ room, next.remaining room = view.remaining room)
    (leaving : ∀ room, next.handler ≠ some (.push room .leave)) :
    Leads next destination := by
  have ends : ∀ other, next.endsIn other = view.endsIn other := by
    intro other
    rw [endsIn, endsIn, room, same]
  exact
    { apart := by simpa only [same] using leads.apart
      switches := by simpa only [same] using leads.switches
      stays := by simpa only [ends] using leads.stays
      arrives := by simpa only [ends, same] using leads.arrives
      leaving := fun other pushes => absurd pushes (leaving other) }

theorem remaining_reading {view : SessionView} {handler : Option HandlerPhase}
    (before : Reading view.handler) (after : Reading handler) (room : RoomId) :
    (view.setHandler handler).remaining room = view.remaining room := by
  rw [remaining, remaining, handlerLine_reading before]
  exact congrArg _ (handlerLine_reading after room)

theorem remaining_push_self {view : SessionView} {room : RoomId}
    {job : RoomJob} (before : Reading view.handler) :
    (view.setHandler (some (.push room job))).remaining room =
      view.remaining room ++ [job] := by
  rw [remaining, remaining, handlerLine_reading before, List.append_nil]
  exact congrArg _ (if_pos rfl)

theorem remaining_push_other {view : SessionView} {room other : RoomId}
    {job : RoomJob} (before : Reading view.handler) (different : room ≠ other) :
    (view.setHandler (some (.push room job))).remaining other =
      view.remaining other := by
  rw [remaining, remaining, handlerLine_reading before]
  exact congrArg _ (if_neg different)

/-- The job that the handler pushes stays the last one of its room. -/
theorem remaining_pushed {view : SessionView} {target : RoomId}
    {job : RoomJob} (pushes : view.handler = some (.push target job))
    (room : RoomId) :
    ((view.pushJob target job).setHandler none).remaining room =
      view.remaining room := by
  have idle : ((view.pushJob target job).setHandler none).remaining room =
      ((view.pushJob target job).rooms room).remaining ++ [] := rfl
  rw [idle, List.append_nil, remaining, pushes, handlerLine]
  by_cases here : target = room
  · subst here
    rw [if_pos rfl, SessionView.pushJob, rooms_update_self]
    exact (List.append_assoc ..).symm
  · rw [if_neg here, SessionView.pushJob,
      rooms_update_other view (Ne.symm here), List.append_nil]

theorem mem_remaining_push {view : SessionView} {target room : RoomId}
    {pushed job : RoomJob} (before : Reading view.handler) :
    job ∈ (view.setHandler (some (.push target pushed))).remaining room ↔
      job ∈ view.remaining room ∨ target = room ∧ job = pushed := by
  by_cases here : target = room
  · subst here
    simp [remaining_push_self before]
  · simp [remaining_push_other before here, here]

/-- Where the line ends when one more job is pushed. -/
theorem endsIn_push {view : SessionView} {target room : RoomId}
    {job : RoomJob} (before : Reading view.handler) :
    (view.setHandler (some (.push target job))).endsIn room =
      if target = room then job.settle (view.endsIn room)
      else view.endsIn room := by
  have sameRoom : (view.setHandler (some (.push target job))).room =
      view.room := rfl
  rw [endsIn, endsIn, sameRoom]
  by_cases here : target = room
  · subst here
    rw [remaining_push_self before, settle_append, if_pos rfl]
    rfl
  · rw [remaining_push_other before here, if_neg here]

/-- `C_ROOM_CHAT`. -/
theorem Leads.request_chat {view : SessionView}
    {destination : Option RoomId} (leads : Leads view destination)
    (before : Reading view.handler) (message : StdString) :
    Leads (view.request (.handleChat message)) destination := by
  unfold request
  split
  · rename_i target inside
    have ends : ∀ room,
        (view.setHandler (some (.push target (.handleChat message)))).endsIn
          room = view.endsIn room := by
      intro room
      rw [endsIn_push before]
      split <;> rfl
    have switches : ∀ room targetRoom, .leaveAndEnter targetRoom ∈
        (view.setHandler (some (.push target (.handleChat message)))).remaining
          room ↔ .leaveAndEnter targetRoom ∈ view.remaining room := by
      intro room targetRoom
      rw [mem_remaining_push before]
      exact or_iff_left (fun impossible => by cases impossible.2)
    exact
      { apart := by simpa only [switches] using leads.apart
        switches := by simpa only [switches] using leads.switches
        stays := by simpa only [ends] using leads.stays
        arrives := by simpa only [ends, switches] using leads.arrives
        leaving := fun room pushes => by cases pushes }
  · exact leads

/-- `C_LEAVE_ROOM`, read when it may be. -/
theorem request_leave_leads {view : SessionView} (may : view.MayLeaveRoom)
    (before : Reading view.handler) : Leads (view.request .leave) none := by
  have noSwitch : ∀ room targetRoom,
      .leaveAndEnter targetRoom ∉ view.remaining room := by
    intro room targetRoom member
    obtain ⟨impossible, _⟩ := may room _ member targetRoom rfl
    cases impossible
  have outside : ∀ room, view.room ≠ some room → view.endsIn room = false := by
    intro room notHere
    by_contra ends
    have enters := endsIn_elsewhere notHere (Bool.not_eq_false _ ▸ ends)
    exact notHere (may room _ enters room rfl).2
  unfold request
  split
  · rename_i target inside
    have notSwitch : ∀ room targetRoom, .leaveAndEnter targetRoom ∉
        (view.setHandler (some (.push target .leave))).remaining room := by
      intro room targetRoom member
      rcases (mem_remaining_push before).mp member with old | ⟨_, impossible⟩
      · exact noSwitch room targetRoom old
      · cases impossible
    exact
      { apart := fun room targetRoom member =>
          absurd member (notSwitch room targetRoom)
        switches := fun room targetRoom member =>
          absurd member (notSwitch room targetRoom)
        stays := by
          intro room ends
          rw [endsIn_push before] at ends
          by_cases here : target = room
          · rw [if_pos here] at ends
            cases ends
          · have notHere : view.room ≠ some room := by
              rw [inside]
              exact fun same => here (Option.some.inj same)
            rw [if_neg here, outside room notHere] at ends
            cases ends
        arrives := nofun
        leaving := fun _ _ => rfl }
  · rename_i nowhere
    exact
      { apart := fun room targetRoom member =>
          absurd member (noSwitch room targetRoom)
        switches := fun room targetRoom member =>
          absurd member (noSwitch room targetRoom)
        stays := by
          intro room ends
          rw [outside room (by rw [nowhere]; exact nofun)] at ends
          cases ends
        arrives := nofun
        leaving := fun _ _ => rfl }

/-- `C_ENTER_ROOM` for the room that the session is in and stays in. -/
theorem ignore_leads {view : SessionView} {destination : Option RoomId}
    {targetRoom : RoomId} (inv : Inv view) (leads : Leads view destination)
    (reads : view.handler = some (.readRoom targetRoom))
    (inside : view.room = some targetRoom)
    (stays : ∀ job ∈ view.remaining targetRoom, job ≠ .leave ∧
      ∀ destination, job ≠ .leaveAndEnter destination) :
    Leads (view.setHandler none) (some targetRoom) := by
  have before : Reading view.handler := reads ▸ reading_readRoom targetRoom
  have same : ∀ room, (view.setHandler none).remaining room =
      view.remaining room := remaining_reading before reading_none
  have ends : ∀ room, (view.setHandler none).endsIn room =
      view.endsIn room := by
    intro room
    rw [endsIn, endsIn, same]
    rfl
  exact
    { apart := by simpa only [same] using leads.apart
      switches := by
        intro room target member
        rw [same] at member
        have notLeave : RoomJob.leaveAndEnter target ≠ .leave := nofun
        have pending := (mem_remaining_iff notLeave).mp member
        rcases inv.switching room target pending with outside | here | there
        · rw [inside] at outside
          cases outside
        · obtain rfl : targetRoom = room :=
            Option.some.inj (inside.symm.trans here)
          exact absurd rfl ((stays _ member).2 target)
        · rw [← inside, there]
      stays := by
        intro room isEnd
        rw [ends] at isEnd
        by_contra elsewhere
        have notHere : view.room ≠ some room := by
          rw [inside]
          exact elsewhere
        have enters := endsIn_elsewhere notHere isEnd
        have notLeave : RoomJob.enter ≠ .leave := nofun
        have pending := (mem_remaining_iff notLeave).mp enters
        rcases inv.entering room pending with outside | here
        · rw [inside] at outside
          cases outside
        · exact notHere here
      arrives := by
        intro target same
        cases same
        rw [ends, endsIn, inside, decide_eq_true rfl]
        exact Or.inl (settle_true stays)
      leaving := nofun }

/-- `C_ENTER_ROOM` for another room. -/
theorem push_entry_leads {view : SessionView} {destination : Option RoomId}
    {targetRoom room : RoomId} {job : RoomJob}
    (leads : Leads view destination) (before : Reading view.handler)
    (notThere : view.room ≠ some targetRoom)
    (entry : job = .enter ∧ room = targetRoom ∧ view.room = none ∨
      job = .leaveAndEnter targetRoom ∧ view.room = some room)
    (fits : ∀ room, ∀ job ∈ view.remaining room, ∀ destination,
      job.destination room = some destination →
      destination = targetRoom ∨ job = .enter ∧ view.room = some room) :
    Leads (view.setHandler (some (.push room job))) (some targetRoom) := by
  have ends : ∀ other, view.room ≠ some other → view.endsIn other = true →
      other = targetRoom := by
    intro other notHere isEnd
    have enters := endsIn_elsewhere notHere isEnd
    rcases fits other _ enters other rfl with there | ⟨_, here⟩
    · exact there
    · exact absurd here notHere
  exact
    { apart := by
        intro other target member
        rcases (mem_remaining_push before).mp member with old | ⟨here, new⟩
        · exact leads.apart other target old
        · rcases entry with ⟨rfl, _⟩ | ⟨rfl, inside⟩
          · cases new
          · cases new
            rintro rfl
            exact notThere (here ▸ inside)
      switches := by
        intro other target member
        rcases (mem_remaining_push before).mp member with old | ⟨_, new⟩
        · rcases fits other _ old target rfl with there | ⟨impossible, _⟩
          · rw [there]
          · cases impossible
        · rcases entry with ⟨rfl, _⟩ | ⟨rfl, _⟩
          · cases new
          · cases new
            rfl
      stays := by
        intro other isEnd
        rw [endsIn_push before] at isEnd
        by_cases here : room = other
        · rw [if_pos here] at isEnd
          rcases entry with ⟨rfl, there, _⟩ | ⟨rfl, _⟩
          · rw [← there, here]
          · cases isEnd
        · rw [if_neg here] at isEnd
          have notHere : view.room ≠ some other := by
            rcases entry with ⟨_, _, nowhere⟩ | ⟨_, inside⟩
            · rw [nowhere]
              exact nofun
            · rw [inside]
              exact fun same => here (Option.some.inj same)
          rw [ends other notHere isEnd]
      arrives := by
        intro target same
        cases same
        rcases entry with ⟨rfl, rfl, _⟩ | ⟨rfl, _⟩
        · left
          rw [endsIn_push before, if_pos rfl]
          rfl
        · right
          exact ⟨room, (mem_remaining_push before).mpr (Or.inr ⟨rfl, rfl⟩)⟩
      leaving := by
        intro other pushes
        cases pushes
        rcases entry with ⟨impossible, _⟩ | ⟨impossible, _⟩ <;>
          cases impossible }

/-- `C_ENTER_ROOM`, read when it may be. -/
theorem advance_enter_leads {view : SessionView} {destination : Option RoomId}
    {targetRoom : RoomId} (inv : Inv view) (leads : Leads view destination)
    (reads : view.handler = some (.readRoom targetRoom))
    (may : view.MayEnterRoom targetRoom) :
    Leads (view.advance (.readRoom targetRoom)) (some targetRoom) := by
  have before : Reading view.handler := reads ▸ reading_readRoom targetRoom
  rcases may with ⟨inside, stays⟩ | ⟨notThere, fits⟩
  · simp only [advance, inside, if_true]
    exact ignore_leads inv leads reads inside stays
  · cases room : view.room with
    | none =>
        simp only [advance, room]
        exact push_entry_leads leads before notThere
          (Or.inl ⟨rfl, rfl, room⟩) fits
    | some oldRoom =>
        have different : oldRoom ≠ targetRoom := by
          rintro rfl
          exact notThere room
        simp only [advance, room, different, if_false]
        exact push_entry_leads leads before notThere
          (Or.inr ⟨rfl, room⟩) fits

/-- Under the invariant of membership, what may be read here may be read
there. -/
theorem MayEnterRoom.mayEnter {view : SessionView} {targetRoom : RoomId}
    (may : view.MayEnterRoom targetRoom) : view.MayEnter targetRoom := by
  rcases may with ⟨inside, _⟩ | ⟨_, fits⟩
  · exact Or.inl inside
  · right
    intro room job member destination goes
    apply fits room job _ destination goes
    exact (mem_remaining_iff (destination_ne_leave goes)).mpr member

end SessionView

namespace ChatServer

variable {Session : Type} [DecidableEq Session]

/-- The room of the last request, or none after a `C_LEAVE_ROOM`. -/
def requested (session : Session) (wanted : Option RoomId) :
    ChatAction Session → Option RoomId
  | .packet owner ⟨.cEnterRoom, packet⟩ _ =>
      if owner = session then some packet.roomId else wanted
  | .packet owner ⟨.cLeaveRoom, _⟩ _ =>
      if owner = session then none else wanted
  | _ => wanted

def lastRequest (session : Session) (initially : Option RoomId)
    (actions : List (ChatAction Session)) : Option RoomId :=
  actions.foldl (requested session) initially

/-- The session's requests read `_room` when the decision fits the jobs that are
on their way. -/
def ReadsInTime (session : Session) (state : ChatServer Session) :
    ChatAction Session → Prop
  | .packet owner ⟨.cLeaveRoom, _⟩ _ =>
      owner = session → (state.view session).MayLeaveRoom
  | .handle owner =>
      owner = session → ∀ targetRoom,
        (state.sessions session).handler = some (.readRoom targetRoom) →
        (state.view session).MayEnterRoom targetRoom
  | _ => True

/-- A connected session whose requests are done, in the room or in none. -/
structure AtRest (state : ChatServer Session) (session : Session)
    (initially : Option RoomId) : Prop where
  connected : (state.sessions session).disconnecting = .connected
  room_eq : (state.sessions session).room = initially
  handler : (state.sessions session).handler = none
  rooms : ∀ other, (state.rooms other).view session =
    { member := decide (initially = some other)
      jobs := []
      running := none }

/-- The session is on its way to where it asked to be. -/
structure Follows (view : SessionView) (wanted : Option RoomId) : Prop where
  inv : view.Inv
  leads : ∃ destination, view.Leads destination ∧
    match view.handler with
    | some (.readRoom targetRoom) => wanted = some targetRoom
    | _ => wanted = destination

theorem follows_of_leads {view : SessionView} {wanted : Option RoomId}
    (inv : view.Inv) (leads : view.Leads wanted)
    (reading : ∀ targetRoom, view.handler ≠ some (.readRoom targetRoom)) :
    Follows view wanted := by
  refine ⟨inv, wanted, leads, ?_⟩
  cases handler : view.handler with
  | none => rfl
  | some phase =>
      cases phase with
      | readRoom targetRoom => exact absurd handler (reading targetRoom)
      | push room job => rfl

theorem Follows.of_atRest {state : ChatServer Session} {session : Session}
    {initially : Option RoomId} (rest : state.AtRest session initially) :
    Follows (state.view session) initially := by
  have rooms : ∀ room, (state.view session).rooms room =
      { member := decide (initially = some room)
        jobs := []
        running := none } := rest.rooms
  have at_ : (state.view session).room = initially := rest.room_eq
  have idle : (state.view session).handler = none := rest.handler
  have line : ∀ room, (state.view session).line room = [] := by
    intro room
    rw [SessionView.line, rooms, idle]
    rfl
  have remaining : ∀ room, (state.view session).remaining room = [] := by
    intro room
    rw [SessionView.remaining, rooms, idle]
    rfl
  have ends : ∀ room, (state.view session).endsIn room =
      decide (initially = some room) := by
    intro room
    rw [SessionView.endsIn, remaining, at_]
    rfl
  apply follows_of_leads
  · exact
      { member := by
          intro room
          rw [rooms, at_, decide_eq_true_iff]
          exact ⟨fun here => Or.inr ⟨here, id⟩,
            fun either => (either.resolve_left (by simp)).1⟩
        clearing := by
          intro room targetRoom running
          rw [rooms] at running
          cases running
        entering := by
          intro room member
          rw [line] at member
          cases member
        switching := by
          intro room targetRoom member
          rw [line] at member
          cases member
        left := by
          intro room targetRoom leaves
          rw [rooms] at leaves
          cases leaves
        heading := by
          refine .oneRoom 0 fun room job member => ?_
          rw [line] at member
          cases member }
  · exact
      { apart := by
          intro room targetRoom member
          rw [remaining] at member
          cases member
        switches := by
          intro room targetRoom member
          rw [remaining] at member
          cases member
        stays := by
          intro room isEnd
          rw [ends] at isEnd
          exact of_decide_eq_true isEnd
        arrives := by
          intro targetRoom same
          left
          rw [ends]
          exact decide_eq_true same
        leaving := by
          rw [idle]
          simp }
  · rw [idle]
    simp

/-- A packet of the session. -/
theorem receive_follows {view : SessionView} {wanted : Option RoomId}
    (follows : Follows view wanted) (idle : view.handler = none)
    (packet : Packet) (inv : (view.receive packet).Inv)
    (may : packet.id = .cLeaveRoom → view.MayLeaveRoom)
    (session : Session) (tick : UInt64) :
    Follows (view.receive packet)
      (requested session wanted (.packet session packet tick)) := by
  obtain ⟨_, destination, leads, same⟩ := follows
  rw [idle] at same
  subst same
  have before : SessionView.Reading view.handler :=
    idle ▸ SessionView.reading_none
  have unchanged : Follows view wanted := by
    apply follows_of_leads ‹view.Inv› leads
    rw [idle]
    exact nofun
  have requestReading : ∀ job targetRoom,
      (view.request job).handler ≠ some (.readRoom targetRoom) := by
    intro job targetRoom
    unfold SessionView.request
    split
    · exact nofun
    · rw [idle]
      exact nofun
  obtain ⟨id, fields⟩ := packet
  cases id with
  | cEnterRoom =>
      rw [requested, if_pos rfl]
      refine ⟨inv, wanted, ?_, rfl⟩
      refine leads.of_remaining ?_ ?_ ?_
      · rfl
      · exact SessionView.remaining_reading before
          (SessionView.reading_readRoom _)
      · exact nofun
  | cLeaveRoom =>
      rw [requested, if_pos rfl]
      exact follows_of_leads inv
        (SessionView.request_leave_leads (may rfl) before)
        (requestReading _)
  | cRoomChat =>
      exact follows_of_leads inv (leads.request_chat before _)
        (requestReading _)
  | _ => exact unchanged

/-- The rest of a handler. -/
theorem advance_follows {view : SessionView} {wanted : Option RoomId}
    {phase : HandlerPhase} (follows : Follows view wanted)
    (running : view.handler = some phase)
    (inv : (view.advance phase).Inv)
    (may : ∀ targetRoom, phase = .readRoom targetRoom →
      view.MayEnterRoom targetRoom) :
    Follows (view.advance phase) wanted := by
  obtain ⟨before, destination, leads, same⟩ := follows
  rw [running] at same
  cases phase with
  | readRoom targetRoom =>
      obtain rfl : wanted = some targetRoom := same
      apply follows_of_leads inv
      · exact SessionView.advance_enter_leads before leads running
          (may targetRoom rfl)
      · intro target
        simp only [SessionView.advance]
        cases view.room with
        | none => rintro ⟨⟩
        | some oldRoom =>
            by_cases here : oldRoom = targetRoom
            · simp only [here, if_true]
              rintro ⟨⟩
            · simp only [here, if_false]
              rintro ⟨⟩
  | push room job =>
      obtain rfl : wanted = destination := same
      apply follows_of_leads inv
      · refine leads.of_remaining ?_ ?_ ?_
        · rfl
        · exact SessionView.remaining_pushed running
        · rintro _ ⟨⟩
      · rintro _ ⟨⟩

theorem handle_of_enterRoom {state : ChatServer Session} {session : Session}
    {action : ChatAction Session} {targetRoom : RoomId}
    (reads : state.event session action = .enterRoom targetRoom) :
    action = .handle session ∧
      (state.sessions session).handler = some (.readRoom targetRoom) := by
  cases action with
  | packet owner packet tick =>
      simp only [event] at reads
      split at reads
      · obtain ⟨id, fields⟩ := packet
        cases id <;> cases reads
      · cases reads
  | handle owner =>
      simp only [event] at reads
      split at reads
      · rename_i own
        subst own
        split at reads
        · rename_i running
          cases reads
          exact ⟨rfl, running⟩
        · cases reads
      · cases reads
  | disconnect owner =>
      simp only [event] at reads
      split at reads <;> cases reads
  | onDisconnected owner => cases reads
  | start room => cases reads
  | execute room => cases reads

/-- A job keeps where the session is going. -/
theorem job_follows {view next : SessionView} {wanted : Option RoomId}
    (follows : Follows view wanted) (inv : next.Inv)
    (connected : view.disconnecting = .connected)
    (viewed : view.JobStep next) : Follows next wanted := by
  obtain ⟨before, destination, leads, same⟩ := follows
  rw [← viewed.handler] at same
  exact ⟨inv, destination,
    SessionView.step_leads before leads connected viewed, same⟩

theorem disconnected_after {view next : SessionView}
    (stepped : view.Step .disconnect next) :
    next.disconnecting ≠ .connected := by
  cases stepped <;> exact nofun

/-- Only the session's own packets ask for something. -/
theorem requested_eq {session : Session} {action : ChatAction Session}
    (notOwn : ∀ packet tick, action ≠ .packet session packet tick)
    (wanted : Option RoomId) : requested session wanted action = wanted := by
  cases action with
  | packet owner packet tick =>
      have different : owner ≠ session := by
        rintro rfl
        exact notOwn packet tick rfl
      obtain ⟨id, fields⟩ := packet
      cases id with
      | cEnterRoom => exact if_neg different
      | cLeaveRoom => exact if_neg different
      | _ => rfl
  | _ => rfl

/-- One step while the session stays connected. -/
theorem step_follows {state next : ChatServer Session} {session : Session}
    {wanted : Option RoomId} {action : ChatAction Session}
    (follows : Follows (state.view session) wanted)
    (inTime : ReadsInTime session state action)
    (connected : (next.view session).disconnecting = .connected)
    (stepped : state.step action = some next) :
    Follows (next.view session) (requested session wanted action) := by
  have viewed := step_view stepped session
  have connectedBefore := connected_before viewed connected
  have inv : (next.view session).Inv := by
    refine SessionView.step_inv follows.inv ?_ connected viewed
    intro targetRoom reads
    obtain ⟨rfl, running⟩ := handle_of_enterRoom reads
    exact (inTime rfl targetRoom running).mayEnter
  cases step_seen stepped session with
  | packet idle seen =>
      rename_i packet tick
      rw [seen] at inv ⊢
      refine receive_follows follows idle packet inv ?_ session tick
      intro leaves
      obtain ⟨id, fields⟩ := packet
      cases leaves
      exact inTime rfl
  | handle running seen =>
      rename_i phase
      rw [seen] at inv ⊢
      refine advance_follows follows running inv ?_
      rintro targetRoom rfl
      exact inTime rfl targetRoom running
  | disconnect step =>
      exact absurd connected (disconnected_after step)
  | job notOwn step =>
      rw [requested_eq notOwn]
      exact job_follows follows inv connectedBefore step

/-- Nobody is connected again. -/
theorem connected_of_run {state final : ChatServer Session}
    {session : Session} {actions : List (ChatAction Session)}
    (connected : (final.view session).disconnecting = .connected)
    (replayed : (machine Session).run state actions = some final) :
    (state.view session).disconnecting = .connected := by
  induction actions generalizing state with
  | nil =>
      cases replayed
      exact connected
  | cons action rest induction =>
      simp only [Machine.run, Option.bind_eq_some_iff] at replayed
      obtain ⟨next, stepped, restReplayed⟩ := replayed
      exact connected_before (step_view stepped session)
        (induction restReplayed)

/-- A run of the session's requests, with everything else in between. -/
theorem run_follows {state final : ChatServer Session} {session : Session}
    {wanted : Option RoomId} {actions : List (ChatAction Session)}
    (follows : Follows (state.view session) wanted)
    (inTime : (machine Session).RunMeets (ReadsInTime session) state actions)
    (connected : (final.view session).disconnecting = .connected)
    (replayed : (machine Session).run state actions = some final) :
    Follows (final.view session) (lastRequest session wanted actions) := by
  induction actions generalizing state wanted with
  | nil =>
      cases replayed
      exact follows
  | cons action rest induction =>
      simp only [Machine.run, Option.bind_eq_some_iff] at replayed
      obtain ⟨next, stepped, restReplayed⟩ := replayed
      obtain ⟨inTimeHere, inTimeLater⟩ :=
        (Machine.runMeets_cons stepped).mp inTime
      have followsNext := step_follows follows inTimeHere
        (connected_of_run connected restReplayed) stepped
      exact induction followsNext inTimeLater restReplayed

/-- With nothing on its way any more, `_room` is where the session was going. -/
theorem room_eq_of_follows {view : SessionView} {wanted : Option RoomId}
    (follows : Follows view wanted) (idle : view.handler = none)
    (nothing : ∀ room, view.remaining room = []) : view.room = wanted := by
  obtain ⟨_, destination, leads, same⟩ := follows
  rw [idle] at same
  subst same
  have ends : ∀ room, view.endsIn room = decide (view.room = some room) := by
    intro room
    rw [SessionView.endsIn, nothing]
    rfl
  cases wanted with
  | some targetRoom =>
      rcases leads.arrives targetRoom rfl with here | ⟨room, member⟩
      · rw [ends] at here
        exact of_decide_eq_true here
      · rw [nothing] at member
        cases member
  | none =>
      by_contra somewhere
      obtain ⟨room, inside⟩ := Option.ne_none_iff_exists'.mp somewhere
      have isEnd := ends room
      rw [decide_eq_true inside] at isEnd
      exact absurd (leads.stays room isEnd) nofun

/-- A client whose requests read `_room` in time ends where its last request
sends it, whatever happens in between. -/
theorem run_lastRequest {state final : ChatServer Session}
    {session : Session} {initially : Option RoomId}
    {actions : List (ChatAction Session)}
    (rest : state.AtRest session initially)
    (inTime : (machine Session).RunMeets (ReadsInTime session) state actions)
    (replayed : (machine Session).run state actions = some final)
    (connected : (final.sessions session).disconnecting = .connected)
    (idle : (final.sessions session).handler = none)
    (done : final.JobsDone) :
    (final.sessions session).room =
      lastRequest session initially actions := by
  have follows := run_follows (.of_atRest rest) inTime connected replayed
  refine room_eq_of_follows follows idle ?_
  intro room
  change (runningFor session (final.rooms room).running).elim []
      JobPhase.outstanding ++ jobsFor session (final.rooms room).jobs ++
    SessionView.handlerLine (final.sessions session).handler room = []
  rw [(done room).1, (done room).2, idle]
  rfl

/-- The queues of all rooms are empty and none of their jobs is running. -/
def roomsDone (state : ChatServer Session) : Bool :=
  state.roomIds.all fun room =>
    (state.rooms room).jobs.isEmpty && (state.rooms room).running.isNone

/-- The session reads `_room` only when everything before is done. -/
def readsWhenDone (session : Session) (state : ChatServer Session) :
    ChatAction Session → Bool
  | .packet _ _ _ => (state.sessions session).handler.isNone && state.roomsDone
  | .handle _ =>
      match (state.sessions session).handler with
      | some (.readRoom _) => state.roomsDone
      | _ => true
  | _ => true

theorem remaining_of_roomsDone {state : ChatServer Session}
    {session : Session} (reached : (machine Session).Reachable state)
    (done : state.roomsDone = true)
    (pushesNothing : ∀ room,
      SessionView.handlerLine (state.sessions session).handler room = [])
    (room : RoomId) : (state.view session).remaining room = [] := by
  have quiet : state.JobsDone := by
    apply jobsDone_of_roomIds reached
    intro used member
    have here := List.all_eq_true.mp done used member
    rw [Bool.and_eq_true, List.isEmpty_iff, Option.isNone_iff_eq_none] at here
    exact here
  change (runningFor session (state.rooms room).running).elim []
      JobPhase.outstanding ++ jobsFor session (state.rooms room).jobs ++
    SessionView.handlerLine (state.sessions session).handler room = []
  rw [(quiet room).1, (quiet room).2, pushesNothing]
  rfl

/-- A client that waits for each of its requests reads `_room` in time. -/
theorem runMeets_readsInTime {state : ChatServer Session} {session : Session}
    {actions : List (ChatAction Session)}
    (reached : (machine Session).Reachable state)
    (waits : (machine Session).RunMeets
      (fun state action => readsWhenDone session state action = true)
      state actions) :
    (machine Session).RunMeets (ReadsInTime session) state actions := by
  induction actions generalizing state with
  | nil => trivial
  | cons action rest induction =>
      obtain ⟨waitsHere, waitsLater⟩ := waits
      refine ⟨?_, fun next stepped => ?_⟩
      · cases action with
        | packet owner packet tick =>
            obtain ⟨id, fields⟩ := packet
            cases id with
            | cLeaveRoom =>
                intro _ room job member
                obtain ⟨idle, done⟩ := Bool.and_eq_true_iff.mp waitsHere
                have nothing := remaining_of_roomsDone reached done
                  (fun room => by
                    rw [Option.isNone_iff_eq_none.mp idle]
                    rfl) room
                rw [nothing] at member
                cases member
            | _ => trivial
        | handle owner =>
            intro _ targetRoom reads
            rw [readsWhenDone, reads] at waitsHere
            have nothing := remaining_of_roomsDone reached waitsHere
              (fun room => by
                rw [reads]
                rfl)
            by_cases inside :
                (state.view session).room = some targetRoom
            · refine .inl ⟨inside, fun job member => ?_⟩
              rw [nothing] at member
              cases member
            · refine .inr ⟨inside, fun room job member => ?_⟩
              rw [nothing] at member
              cases member
        | _ => trivial
      · exact induction (.step reached trivial stepped)
          (waitsLater next stepped)

/-- A client enters room 1, leaves it, enters room 2 and switches to room 3. -/
def tourOfRooms : List (ChatAction Unit) :=
  enterActions 1 ++ leaveActions 1 ++ enterActions 2 ++ switchRoom 2 3

theorem initial_atRest : (initial : ChatServer Unit).AtRest () none where
  connected := rfl
  room_eq := rfl
  handler := rfl
  rooms := initial_view_rooms ()

/-- After its last request the client is in room 3 and in no other. -/
theorem tourOfRooms_lastRequest :
    ∃ final, (machine Unit).run initial tourOfRooms = some final ∧
      final.JobsDone ∧
      (final.sessions ()).room = lastRequest () none tourOfRooms ∧
      lastRequest () none tourOfRooms = some 3 := by
  have inTime :
      (machine Unit).RunMeets (ReadsInTime ()) initial tourOfRooms :=
    runMeets_readsInTime (.start rfl) (by decide +kernel)
  obtain ⟨final, replayed⟩ :
      ∃ final, (machine Unit).run initial tourOfRooms = some final :=
    Option.isSome_iff_exists.mp rfl
  have facts : ((machine Unit).run initial tourOfRooms).map (fun state =>
      ((state.sessions ()).disconnecting, (state.sessions ()).handler,
        state.roomIds, state.roomIds.map fun room =>
          ((state.rooms room).jobs, (state.rooms room).running))) =
      some (.connected, none, [1, 2, 3],
        [([], none), ([], none), ([], none)]) := rfl
  rw [replayed] at facts
  simp only [Option.map_some, Option.some.injEq, Prod.mk.injEq] at facts
  obtain ⟨connected, idle, ids, quiet⟩ := facts
  have done : final.JobsDone := by
    apply jobsDone_of_roomIds (Machine.Reachable.of_run (.start rfl) replayed)
    rw [ids] at quiet ⊢
    simpa using quiet
  exact ⟨final, replayed, done,
    run_lastRequest initial_atRest inTime replayed connected idle done, rfl⟩

/-- A client leaves before its entry into room 1 has run. -/
def leaveBeforeEntry : List (ChatAction Unit) :=
  [.packet () ⟨.cEnterRoom, { roomId := 1, roomName := [] }⟩ 0,
    .handle (),
    .handle (),
    .packet () ⟨.cLeaveRoom, {}⟩ 0,
    .start 1,
    .execute 1,
    .execute 1,
    .execute 1,
    .execute 1]

theorem leaveBeforeEntry_enters :
    ∃ final, (initial : ChatServer Unit).AtRest () none ∧
      (machine Unit).run initial leaveBeforeEntry = some final ∧
      (final.sessions ()).disconnecting = .connected ∧
      (final.sessions ()).handler = none ∧ final.JobsDone ∧
      lastRequest () none leaveBeforeEntry = none ∧
      (final.sessions ()).room = some 1 := by
  obtain ⟨final, replayed⟩ :
      ∃ final, (machine Unit).run initial leaveBeforeEntry = some final :=
    Option.isSome_iff_exists.mp rfl
  have facts : ((machine Unit).run initial leaveBeforeEntry).map (fun state =>
      ((state.sessions ()).disconnecting, (state.sessions ()).handler,
        (state.sessions ()).room, state.roomIds,
        state.roomIds.map fun room =>
          ((state.rooms room).jobs, (state.rooms room).running))) =
      some (.connected, none, some 1, [1, 2, 3],
        [([], none), ([], none), ([], none)]) := rfl
  rw [replayed] at facts
  simp only [Option.map_some, Option.some.injEq, Prod.mk.injEq] at facts
  obtain ⟨connected, idle, inside, ids, quiet⟩ := facts
  have done : final.JobsDone := by
    apply jobsDone_of_roomIds (Machine.Reachable.of_run (.start rfl) replayed)
    rw [ids] at quiet ⊢
    simpa using quiet
  exact ⟨final, initial_atRest, replayed, connected, idle, done, rfl, inside⟩

end ChatServer

end IocpChat
