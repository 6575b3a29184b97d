import IocpChat.ChatServer.RoomsInUse

/-!
# Membership and the session's room

`_members` and `_room` are changed by different accesses of a job, and the
handlers decide by `_room` which job they push.  They agree as long as no
`C_ENTER_ROOM` is handled while another request of the session is still on its
way to a different room.
-/

namespace IocpChat

open TransitionSystem

/-- Where the job takes the session. -/
def RoomJob.destination (room : RoomId) : RoomJob → Option RoomId
  | enter => some room
  | leaveAndEnter targetRoom => some targetRoom
  | _ => none

/-- The running job, as long as its entry or its leaving is not done. -/
def JobPhase.pending : JobPhase → List RoomJob
  | insertMember => [.enter]
  | setRoom => [.enter]
  | eraseMember none => [.leave]
  | eraseMember (some targetRoom) => [.leaveAndEnter targetRoom]
  | readRoom (some targetRoom) => [.leaveAndEnter targetRoom]
  | clearRoom (some targetRoom) => [.leaveAndEnter targetRoom]
  | replyLeave (some targetRoom) => [.leaveAndEnter targetRoom]
  | noticeLeft (some targetRoom) => [.leaveAndEnter targetRoom]
  | pushEnter targetRoom => [.leaveAndEnter targetRoom]
  | broadcastChat message => [.handleChat message]
  | _ => []

/-- Between `_members.erase` and the test of `_room`, or the clearing of it. -/
def Erased : Option JobPhase → Prop
  | some (.readRoom _) => True
  | some (.clearRoom _) => True
  | _ => False

/-- The target of a `LeaveAndEnter` that has left. -/
def leftFor : Option JobPhase → Option RoomId
  | some (.replyLeave targetRoom) => targetRoom
  | some (.noticeLeft targetRoom) => targetRoom
  | some (.pushEnter targetRoom) => some targetRoom
  | _ => none

/-- The jobs of the session in the room, the running one first. -/
def RoomView.line (room : RoomView) : List RoomJob :=
  room.running.elim [] JobPhase.pending ++ room.jobs

theorem JobPhase.pending_firstPhase (job : RoomJob) :
    job.firstPhase.pending = [job] := by
  cases job <;> rfl

/-- No `Enter` behind a `LeaveAndEnter`. -/
def EntersFirst (line : List RoomJob) : Prop :=
  line.Pairwise fun first second =>
    ∀ targetRoom, first = .leaveAndEnter targetRoom → second ≠ .enter

namespace SessionView

/-- The job the handler is about to push. -/
def handlerLine (handler : Option HandlerPhase) (room : RoomId) :
    List RoomJob :=
  match handler with
  | some (.push target job) => if target = room then [job] else []
  | _ => []

/-- Everything that will happen to the session in the room. -/
def line (view : SessionView) (room : RoomId) : List RoomJob :=
  (view.rooms room).line ++ handlerLine view.handler room

/-- `C_ENTER_ROOM` for the target is harmless now: the session is there already,
or every entry on its way goes there too, except into the room that the session
is in and will leave. -/
def MayEnter (view : SessionView) (targetRoom : RoomId) : Prop :=
  view.room = some targetRoom ∨
    ∀ room, ∀ job ∈ view.line room, ∀ destination,
      job.destination room = some destination →
      destination = targetRoom ∨ job = .enter ∧ view.room = some room

/-- Where the entries on their way go: to one room, or first into the room `at_`
and from there to the target. -/
inductive Heading (view : SessionView) : Prop where
  | oneRoom (targetRoom : RoomId) :
      (∀ room, ∀ job ∈ view.line room, ∀ destination,
        job.destination room = some destination → destination = targetRoom) →
      Heading view
  | through (at_ targetRoom : RoomId) :
      (∀ room, .enter ∈ view.line room → room = at_) →
      (∀ room destination, .leaveAndEnter destination ∈ view.line room →
        room = at_ ∧ destination = targetRoom) →
      EntersFirst (view.line at_) →
      Heading view

structure Inv (view : SessionView) : Prop where
  member : ∀ room, (view.rooms room).member = true ↔
    (view.rooms room).running = some .setRoom ∨
      view.room = some room ∧ ¬Erased (view.rooms room).running
  clearing : ∀ room targetRoom,
    (view.rooms room).running = some (.clearRoom targetRoom) →
    view.room = some room
  entering : ∀ room, .enter ∈ view.line room →
    view.room = none ∨ view.room = some room
  switching : ∀ room targetRoom, .leaveAndEnter targetRoom ∈ view.line room →
    view.room = none ∨ view.room = some room ∨ view.room = some targetRoom
  left : ∀ room targetRoom,
    leftFor (view.rooms room).running = some targetRoom →
    view.room = none ∨ view.room = some targetRoom
  heading : Heading view

/-- Fewer jobs head nowhere else. -/
theorem Heading.of_sublist {view next : SessionView} (heading : Heading view)
    (fewer : ∀ room, (next.line room).Sublist (view.line room)) :
    Heading next := by
  cases heading with
  | oneRoom targetRoom all =>
      refine .oneRoom targetRoom ?_
      intro room job member
      exact all room job ((fewer room).subset member)
  | through at_ targetRoom enters leaves ordered =>
      refine .through at_ targetRoom ?_ ?_ ?_
      · exact fun room member => enters room ((fewer room).subset member)
      · intro room destination member
        exact leaves room destination ((fewer room).subset member)
      · exact ordered.sublist (fewer at_)

/-- A step inside one room that takes jobs off its line. -/
theorem line_update_sublist (view : SessionView) {room : RoomId}
    {value : RoomView} (fewer : value.line.Sublist (view.rooms room).line)
    (other : RoomId) :
    ((view.update room value).line other).Sublist (view.line other) := by
  apply List.Sublist.append_right
  by_cases same : other = room
  · subst same
    rw [rooms_update_self]
    exact fewer
  · rw [rooms_update_other view same]

/-- A step of a job that touches `_members` only, or nothing. -/
theorem Inv.update {view : SessionView} (inv : Inv view) {room : RoomId}
    {value : RoomView} (fewer : value.line.Sublist (view.rooms room).line)
    (member : value.member = true ↔ value.running = some .setRoom ∨
      view.room = some room ∧ ¬Erased value.running)
    (clearing : ∀ targetRoom, value.running = some (.clearRoom targetRoom) →
      view.room = some room)
    (left : ∀ targetRoom, leftFor value.running = some targetRoom →
      view.room = none ∨ view.room = some targetRoom) :
    Inv (view.update room value) where
  member := by
    intro other
    by_cases same : other = room
    · subst same
      rw [rooms_update_self]
      exact member
    · rw [rooms_update_other view same]
      exact inv.member other
  clearing := by
    intro other targetRoom at_
    by_cases same : other = room
    · subst same
      rw [rooms_update_self] at at_
      exact clearing targetRoom at_
    · rw [rooms_update_other view same] at at_
      exact inv.clearing other targetRoom at_
  entering := by
    intro other enters
    exact inv.entering other
      ((line_update_sublist view fewer other).subset enters)
  switching := by
    intro other targetRoom leaves
    exact inv.switching other targetRoom
      ((line_update_sublist view fewer other).subset leaves)
  left := by
    intro other targetRoom at_
    by_cases same : other = room
    · subst same
      rw [rooms_update_self] at at_
      exact left targetRoom at_
    · rw [rooms_update_other view same] at at_
      exact inv.left other targetRoom at_
  heading := inv.heading.of_sublist (line_update_sublist view fewer)

/-- A step that moves nothing but the handler, and at most takes jobs off. -/
theorem Inv.of_sublist {view next : SessionView} (inv : Inv view)
    (room : next.room = view.room)
    (rooms : ∀ room, (next.rooms room).member = (view.rooms room).member ∧
      (next.rooms room).running = (view.rooms room).running)
    (fewer : ∀ room, (next.line room).Sublist (view.line room)) :
    Inv next where
  member := by
    intro other
    rw [room, (rooms other).1, (rooms other).2]
    exact inv.member other
  clearing := by
    intro other targetRoom at_
    rw [(rooms other).2] at at_
    rw [room]
    exact inv.clearing other targetRoom at_
  entering := by
    intro other enters
    rw [room]
    exact inv.entering other ((fewer other).subset enters)
  switching := by
    intro other targetRoom leaves
    rw [room]
    exact inv.switching other targetRoom ((fewer other).subset leaves)
  left := by
    intro other targetRoom at_
    rw [(rooms other).2] at at_
    rw [room]
    exact inv.left other targetRoom at_
  heading := inv.heading.of_sublist fewer

/-- A handler that is not about to push a job. -/
def Reading (handler : Option HandlerPhase) : Prop :=
  ∀ room job, handler ≠ some (.push room job)

theorem reading_none : Reading none :=
  nofun

theorem reading_readRoom (targetRoom : RoomId) :
    Reading (some (.readRoom targetRoom)) :=
  nofun

theorem handlerLine_reading {handler : Option HandlerPhase}
    (reading : Reading handler) (room : RoomId) :
    handlerLine handler room = [] := by
  cases handler with
  | none => rfl
  | some phase =>
      cases phase with
      | readRoom targetRoom => rfl
      | push target job => exact absurd rfl (reading target job)

theorem line_setHandler_reading {view : SessionView}
    {handler : Option HandlerPhase} (before : Reading view.handler)
    (after : Reading handler) (room : RoomId) :
    (view.setHandler handler).line room = view.line room := by
  rw [line, line, handlerLine_reading before]
  exact congrArg _ (handlerLine_reading after room)

theorem mem_line_push {view : SessionView} {target room : RoomId}
    {pushed job : RoomJob} (before : Reading view.handler) :
    job ∈ (view.setHandler (some (.push target pushed))).line room ↔
      job ∈ view.line room ∨ target = room ∧ job = pushed := by
  have old : view.line room = (view.rooms room).line := by
    rw [line, handlerLine_reading before, List.append_nil]
  rw [old]
  change job ∈ (view.rooms room).line ++
    (if target = room then [pushed] else []) ↔ _
  rw [List.mem_append]
  by_cases here : target = room <;> simp [here]

theorem line_push_self {view : SessionView} {target : RoomId} {job : RoomJob}
    (before : Reading view.handler) :
    (view.setHandler (some (.push target job))).line target =
      view.line target ++ [job] := by
  have old : view.line target = (view.rooms target).line := by
    rw [line, handlerLine_reading before, List.append_nil]
  rw [old]
  exact congrArg _ (if_pos rfl)

theorem line_push_other {view : SessionView} {target room : RoomId}
    {job : RoomJob} (before : Reading view.handler)
    (different : target ≠ room) :
    (view.setHandler (some (.push target job))).line room = view.line room := by
  have old : view.line room = (view.rooms room).line := by
    rw [line, handlerLine_reading before, List.append_nil]
  rw [old]
  exact (congrArg _ (if_neg different)).trans (List.append_nil _)

/-- What is pushed behind a line, if it is no `Enter`. -/
theorem entersFirst_append {line : List RoomJob} {job : RoomJob}
    (ordered : EntersFirst line) (noEnter : job ≠ .enter) :
    EntersFirst (line ++ [job]) := by
  apply List.pairwise_append.mpr
  refine ⟨ordered, List.pairwise_singleton _ _, ?_⟩
  intro first _ second member _ _
  rw [List.mem_singleton.mp member]
  exact noEnter

/-- The handler is about to push a job to the room the session is in. -/
theorem Inv.pushHere {view : SessionView} (inv : Inv view) {room : RoomId}
    {job : RoomJob} (before : Reading view.handler)
    (inside : view.room = some room) (noEnter : job ≠ .enter)
    (heading : Heading (view.setHandler (some (.push room job)))) :
    Inv (view.setHandler (some (.push room job))) where
  member := inv.member
  clearing := inv.clearing
  entering := by
    intro other enters
    rcases (mem_line_push before).mp enters with old | ⟨_, new⟩
    · exact inv.entering other old
    · exact absurd new.symm noEnter
  switching := by
    intro other targetRoom leaves
    rcases (mem_line_push before).mp leaves with old | ⟨here, _⟩
    · exact inv.switching other targetRoom old
    · exact Or.inr (Or.inl (here ▸ inside))
  left := inv.left
  heading := heading

/-- `C_LEAVE_ROOM` and `C_ROOM_CHAT` change no heading. -/
theorem request_heading {view : SessionView} {room : RoomId} {job : RoomJob}
    (before : Reading view.handler)
    (harmless : job = .leave ∨ ∃ message, job = .handleChat message)
    (heading : Heading view) :
    Heading (view.setHandler (some (.push room job))) := by
  have noEnter : job ≠ .enter := by
    rcases harmless with rfl | ⟨_, rfl⟩ <;> exact nofun
  have noLeave : ∀ targetRoom, job ≠ .leaveAndEnter targetRoom := by
    intro targetRoom
    rcases harmless with rfl | ⟨_, rfl⟩ <;> exact nofun
  have nowhere : ∀ room, job.destination room = none := by
    intro room
    rcases harmless with rfl | ⟨_, rfl⟩ <;> rfl
  cases heading with
  | oneRoom targetRoom all =>
      refine .oneRoom targetRoom ?_
      intro other entry member destination goes
      rcases (mem_line_push before).mp member with old | ⟨_, rfl⟩
      · exact all other entry old destination goes
      · rw [nowhere other] at goes
        cases goes
  | through at_ targetRoom enters leaves ordered =>
      refine .through at_ targetRoom ?_ ?_ ?_
      · intro other member
        rcases (mem_line_push before).mp member with old | ⟨_, new⟩
        · exact enters other old
        · exact absurd new.symm noEnter
      · intro other destination member
        rcases (mem_line_push before).mp member with old | ⟨_, new⟩
        · exact leaves other destination old
        · exact absurd new.symm (noLeave destination)
      · by_cases here : room = at_
        · subst here
          rw [line_push_self before]
          exact entersFirst_append ordered noEnter
        · rw [line_push_other before here]
          exact ordered

/-- `C_ENTER_ROOM` from another room: whatever enters this room does so before
the session leaves it again. -/
theorem switch_heading {view : SessionView} (inv : Inv view)
    {oldRoom targetRoom : RoomId} (before : Reading view.handler)
    (inside : view.room = some oldRoom) (different : oldRoom ≠ targetRoom)
    (may : view.MayEnter targetRoom) :
    Heading (view.setHandler
      (some (.push oldRoom (.leaveAndEnter targetRoom)))) := by
  have harmless : ∀ room, ∀ job ∈ view.line room, ∀ destination,
      job.destination room = some destination →
      destination = targetRoom ∨ job = .enter ∧ view.room = some room := by
    rcases may with there | harmless
    · rw [inside] at there
      exact absurd (Option.some.inj there) different
    · exact harmless
  have enters : ∀ room, .enter ∈ view.line room → room = oldRoom := by
    intro room member
    rcases inv.entering room member with outside | here
    · rw [inside] at outside
      cases outside
    · rw [inside] at here
      exact (Option.some.inj here).symm
  have leaves : ∀ room destination,
      .leaveAndEnter destination ∈ view.line room →
      room = oldRoom ∧ destination = targetRoom := by
    intro room destination member
    have same : destination = targetRoom := by
      rcases harmless room _ member destination rfl with same | ⟨impossible, _⟩
      · exact same
      · cases impossible
    refine ⟨?_, same⟩
    rcases inv.switching room destination member with outside | here | there
    · rw [inside] at outside
      cases outside
    · rw [inside] at here
      exact (Option.some.inj here).symm
    · rw [inside] at there
      exact absurd ((Option.some.inj there).trans same) different
  have ordered : EntersFirst (view.line oldRoom) := by
    cases inv.heading with
    | through at_ _ throughEnters throughLeaves ordered =>
        by_cases same : at_ = oldRoom
        · exact same ▸ ordered
        · apply List.Pairwise.imp_of_mem _
            (List.pairwise_of_forall fun _ _ => trivial)
          intro first second firstMember _ _ destination isLeave
          subst isLeave
          exact absurd (throughLeaves oldRoom _ firstMember).1.symm same
    | oneRoom destination all =>
        apply List.Pairwise.imp_of_mem _
          (List.pairwise_of_forall fun _ _ => trivial)
        rintro first second firstMember secondMember _ other rfl rfl
        have here := all oldRoom .enter secondMember oldRoom rfl
        have there := all oldRoom _ firstMember other rfl
        have target := (leaves oldRoom other firstMember).2
        exact absurd (here.trans (there.symm.trans target)) different
  refine .through oldRoom targetRoom ?_ ?_ ?_
  · intro room member
    rcases (mem_line_push before).mp member with old | ⟨_, impossible⟩
    · exact enters room old
    · cases impossible
  · intro room destination member
    rcases (mem_line_push before).mp member with old | ⟨rfl, new⟩
    · exact leaves room destination old
    · exact ⟨rfl, RoomJob.leaveAndEnter.inj new⟩
  · rw [line_push_self before]
    exact entersFirst_append ordered nofun

/-- `C_ENTER_ROOM` from outside: every entry goes to the same room. -/
theorem join_inv {view : SessionView} (inv : Inv view) {targetRoom : RoomId}
    (before : Reading view.handler) (outside : view.room = none)
    (may : view.MayEnter targetRoom) :
    Inv (view.setHandler (some (.push targetRoom .enter))) where
  member := inv.member
  clearing := inv.clearing
  entering := fun _ _ => Or.inl outside
  switching := fun _ _ _ => Or.inl outside
  left := inv.left
  heading := by
    refine .oneRoom targetRoom ?_
    intro room job member destination goes
    rcases (mem_line_push before).mp member with old | ⟨rfl, rfl⟩
    · rcases may with there | harmless
      · rw [outside] at there
        cases there
      · rcases harmless room job old destination goes with same | ⟨_, here⟩
        · exact same
        · rw [outside] at here
          cases here
    · exact (Option.some.inj goes).symm

/-- A `LeaveAndEnter` that has left is still on its way to its target. -/
theorem leaveAndEnter_mem_line {view : SessionView} {room targetRoom : RoomId}
    (left : leftFor (view.rooms room).running = some targetRoom) :
    .leaveAndEnter targetRoom ∈ view.line room := by
  apply List.mem_append_left
  apply List.mem_append_left
  cases running : (view.rooms room).running with
  | none =>
      rw [running] at left
      cases left
  | some phase =>
      rw [running] at left
      cases phase with
      | replyLeave other =>
          obtain rfl : other = some targetRoom := left
          exact List.mem_singleton.mpr rfl
      | noticeLeft other =>
          obtain rfl : other = some targetRoom := left
          exact List.mem_singleton.mpr rfl
      | pushEnter other =>
          obtain rfl := Option.some.inj left
          exact List.mem_singleton.mpr rfl
      | _ => cases left

theorem line_run (view : SessionView) {room : RoomId} {phase : JobPhase}
    (running : (view.rooms room).running = some phase) :
    view.line room = phase.pending ++ ((view.rooms room).jobs ++
      handlerLine view.handler room) := by
  rw [line, RoomView.line, running, List.append_assoc]
  rfl

/-- A running entry: the session is outside or in this room already, and every
other entry goes there too or starts there. -/
theorem setRoom_inv {view : SessionView} (inv : Inv view) {room : RoomId}
    (running : (view.rooms room).running = some .setRoom) :
    Inv ((view.setRoom (some room)).run room (some .replyEnter)) := by
  have entersHere : .enter ∈ view.line room := by
    rw [line_run view running]
    exact List.mem_append_left _ (List.mem_singleton.mpr rfl)
  have before := inv.entering room entersHere
  have noClearing : ∀ other targetRoom,
      (view.rooms other).running ≠ some (.clearRoom targetRoom) := by
    intro other targetRoom clears
    have inside := inv.clearing other targetRoom clears
    rcases before with outside | here
    · rw [outside] at inside
      cases inside
    · rw [here] at inside
      obtain rfl := Option.some.inj inside
      rw [running] at clears
      cases clears
  have fewer : ∀ other,
      (((view.setRoom (some room)).run room (some .replyEnter)).line
        other).Sublist (view.line other) := by
    apply line_update_sublist
    change (view.rooms room).jobs.Sublist (_ ++ (view.rooms room).jobs)
    exact List.sublist_append_right _ _
  have enters : ∀ other, .enter ∈ view.line other → other = room := by
    intro other member
    cases inv.heading with
    | oneRoom targetRoom all =>
        exact (all other _ member other rfl).trans
          (all room _ entersHere room rfl).symm
    | through at_ targetRoom allEnter _ _ =>
        exact (allEnter other member).trans (allEnter room entersHere).symm
  have leaves : ∀ other targetRoom,
      .leaveAndEnter targetRoom ∈ view.line other →
      other = room ∨ targetRoom = room := by
    intro other targetRoom member
    cases inv.heading with
    | oneRoom _ all =>
        exact Or.inr ((all other _ member targetRoom rfl).trans
          (all room _ entersHere room rfl).symm)
    | through at_ _ allEnter allLeave _ =>
        exact Or.inl ((allLeave other targetRoom member).1.trans
          (allEnter room entersHere).symm)
  exact
    { member := by
        intro other
        by_cases same : other = room
        · subst same
          have inserted := (inv.member other).mpr (Or.inl running)
          rw [run, rooms_update_self]
          exact ⟨fun _ => Or.inr ⟨rfl, id⟩, fun _ => inserted⟩
        · rw [run, rooms_update_other _ same]
          change (view.rooms other).member = true ↔
            (view.rooms other).running = some .setRoom ∨
              some room = some other ∧ _
          rw [inv.member other]
          apply or_congr Iff.rfl
          constructor
          · rintro ⟨inside, _⟩
            rcases before with outside | here
            · rw [outside] at inside
              cases inside
            · rw [here] at inside
              exact absurd (Option.some.inj inside).symm same
          · rintro ⟨here, _⟩
            exact absurd (Option.some.inj here).symm same
      clearing := by
        intro other targetRoom clears
        by_cases same : other = room
        · subst same
          rw [run, rooms_update_self] at clears
          cases clears
        · rw [run, rooms_update_other _ same] at clears
          exact absurd clears (noClearing other targetRoom)
      entering := by
        intro other member
        exact Or.inr (congrArg some
          (enters other ((fewer other).subset member)).symm)
      switching := by
        intro other targetRoom member
        rcases leaves other targetRoom ((fewer other).subset member) with
          rfl | rfl
        · exact Or.inr (Or.inl rfl)
        · exact Or.inr (Or.inr rfl)
      left := by
        intro other targetRoom at_
        by_cases same : other = room
        · subst same
          rw [run, rooms_update_self] at at_
          cases at_
        · rw [run, rooms_update_other _ same] at at_
          have member : .leaveAndEnter targetRoom ∈ view.line other :=
            leaveAndEnter_mem_line at_
          rcases leaves other targetRoom member with here | rfl
          · exact absurd here same
          · exact Or.inr rfl
      heading := inv.heading.of_sublist fewer }

/-- A running `Leave` clears the `_room` it has found to be this room. -/
theorem clearRoom_inv {view : SessionView} (inv : Inv view) {room : RoomId}
    {targetRoom : Option RoomId}
    (running : (view.rooms room).running = some (.clearRoom targetRoom)) :
    Inv ((view.setRoom none).run room (some (.replyLeave targetRoom))) := by
  have inside := inv.clearing room targetRoom running
  have fewer : ∀ other,
      (((view.setRoom none).run room (some (.replyLeave targetRoom))).line
        other).Sublist (view.line other) := by
    apply line_update_sublist
    apply List.Sublist.append_right
    change (JobPhase.pending _).Sublist ((view.rooms room).running.elim _ _)
    rw [running]
    cases targetRoom <;> exact List.Sublist.refl _
  exact
    { member := by
        intro other
        by_cases same : other = room
        · subst same
          have erased : (view.rooms other).member ≠ true := by
            intro present
            rcases (inv.member other).mp present with inserting | ⟨_, notErased⟩
            · rw [running] at inserting
              cases inserting
            · rw [running] at notErased
              exact notErased trivial
          rw [run, rooms_update_self]
          constructor
          · exact fun present => absurd present erased
          · rintro (inserting | ⟨nowhere, _⟩)
            · cases inserting
            · cases nowhere
        · rw [run, rooms_update_other _ same]
          change (view.rooms other).member = true ↔
            (view.rooms other).running = some .setRoom ∨ none = some other ∧ _
          rw [inv.member other]
          apply or_congr Iff.rfl
          constructor
          · rintro ⟨here, _⟩
            rw [inside] at here
            exact absurd (Option.some.inj here).symm same
          · rintro ⟨nowhere, _⟩
            cases nowhere
      clearing := by
        intro other otherTarget clears
        by_cases same : other = room
        · subst same
          rw [run, rooms_update_self] at clears
          cases clears
        · rw [run, rooms_update_other _ same] at clears
          have here := inv.clearing other otherTarget clears
          rw [inside] at here
          exact absurd (Option.some.inj here).symm same
      entering := fun _ _ => Or.inl rfl
      switching := fun _ _ _ => Or.inl rfl
      left := fun _ _ _ => Or.inl rfl
      heading := inv.heading.of_sublist fewer }

theorem mem_line_pushJob {view : SessionView} {target room : RoomId}
    {pushed job : RoomJob}
    (member : job ∈ (view.pushJob target pushed).line room) :
    job ∈ view.line room ∨ room = target ∧ job = pushed := by
  by_cases same : room = target
  · subst same
    rw [line, pushJob, rooms_update_self] at member
    change job ∈ (_ ++ ((view.rooms room).jobs ++ [pushed])) ++ _ at member
    rw [line, RoomView.line]
    simp only [List.mem_append, List.mem_singleton] at member ⊢
    rcases member with (running | queued | new) | handler
    · exact Or.inl (Or.inl (Or.inl running))
    · exact Or.inl (Or.inl (Or.inr queued))
    · exact Or.inr ⟨trivial, new⟩
    · exact Or.inl (Or.inr handler)
  · rw [line, pushJob, rooms_update_other _ same] at member
    exact Or.inl member

/-- When a `LeaveAndEnter` pushes its entry, every other entry goes there. -/
theorem pushEnter_heading {view : SessionView} (heading : Heading view)
    {room other targetRoom destination : RoomId} {job : RoomJob}
    (running : (view.rooms room).running = some (.pushEnter targetRoom))
    (member : job ∈ view.line other)
    (goes : job.destination other = some destination) :
    destination = targetRoom := by
  have first := line_run view running
  have leaves : .leaveAndEnter targetRoom ∈ view.line room := by
    rw [first]
    exact List.mem_append_left _ (List.mem_singleton.mpr rfl)
  cases heading with
  | oneRoom _ all =>
      exact (all other job member destination goes).trans
        (all room _ leaves targetRoom rfl).symm
  | through at_ _ allEnter allLeave ordered =>
      obtain ⟨rfl, same⟩ := allLeave room targetRoom leaves
      cases job with
      | enter =>
          -- it would be behind the `LeaveAndEnter` in the same line
          obtain rfl := allEnter other member
          unfold EntersFirst at ordered
          rw [first] at ordered member
          rcases List.mem_append.mp member with head | later
          · cases List.mem_singleton.mp head
          · exact absurd rfl
              ((List.pairwise_cons.mp ordered).1 _ later targetRoom rfl)
      | leaveAndEnter otherTarget =>
          obtain rfl := Option.some.inj goes
          exact (allLeave other _ member).2.trans same.symm
      | leave => cases goes
      | handleChat message => cases goes

/-- The last phase of `LeaveAndEnter`: its entry is in the target's line now. -/
theorem pushEnter_inv {view : SessionView} (inv : Inv view)
    {room targetRoom : RoomId}
    (running : (view.rooms room).running = some (.pushEnter targetRoom)) :
    Inv ((view.run room none).pushJob targetRoom .enter) := by
  have reached : view.room = none ∨ view.room = some targetRoom := by
    apply inv.left room targetRoom
    rw [running]
    rfl
  have leavesHere : .leaveAndEnter targetRoom ∈ view.line room := by
    apply leaveAndEnter_mem_line
    rw [running]
    rfl
  let next := (view.run room none).pushJob targetRoom .enter
  have fewer : ∀ other,
      ((view.run room none).line other).Sublist (view.line other) := by
    apply line_update_sublist
    exact List.sublist_append_right _ _
  have moved : ∀ other job, job ∈ next.line other →
      job ∈ view.line other ∨ other = targetRoom ∧ job = .enter := by
    intro other job member
    rcases mem_line_pushJob member with old | new
    · exact Or.inl ((fewer other).subset old)
    · exact Or.inr new
  have phases : ∀ other, other ≠ room →
      (next.rooms other).running = (view.rooms other).running := by
    intro other different
    rw [running_pushJob, run, rooms_update_other _ different]
  have done : (next.rooms room).running = none := by
    rw [running_pushJob, run, rooms_update_self]
    rfl
  have members : ∀ other,
      (next.rooms other).member = (view.rooms other).member := by
    intro other
    rw [member_pushJob]
    by_cases same : other = room
    · subst same
      rw [run, rooms_update_self]
      rfl
    · rw [run, rooms_update_other _ same]
  exact
    { member := by
        intro other
        rw [members other, inv.member other]
        by_cases same : other = room
        · subst same
          rw [done, running]
          exact or_congr ⟨(by simp), (by simp)⟩ Iff.rfl
        · rw [phases other same]
          exact Iff.rfl
      clearing := by
        intro other otherTarget clears
        by_cases same : other = room
        · subst same
          rw [done] at clears
          cases clears
        · rw [phases other same] at clears
          exact inv.clearing other otherTarget clears
      entering := by
        intro other member
        rcases moved other _ member with old | ⟨rfl, _⟩
        · exact inv.entering other old
        · exact reached
      switching := by
        intro other otherTarget member
        rcases moved other _ member with old | ⟨_, impossible⟩
        · exact inv.switching other otherTarget old
        · cases impossible
      left := by
        intro other otherTarget at_
        by_cases same : other = room
        · subst same
          rw [done] at at_
          cases at_
        · rw [phases other same] at at_
          exact inv.left other otherTarget at_
      heading := by
        refine .oneRoom targetRoom ?_
        intro other job member destination goes
        rcases moved other job member with old | ⟨rfl, rfl⟩
        · exact pushEnter_heading inv.heading running old goes
        · exact (Option.some.inj goes).symm }

/-- The handler's job is in the line already. -/
theorem line_pushed {view : SessionView} {target : RoomId} {job : RoomJob}
    (pushes : view.handler = some (.push target job)) (room : RoomId) :
    ((view.pushJob target job).setHandler none).line room =
      view.line room := by
  change ((view.pushJob target job).rooms room).line ++ [] = _
  rw [List.append_nil, line, pushes, handlerLine]
  by_cases here : room = target
  · subst here
    rw [pushJob, rooms_update_self, if_pos rfl]
    exact (List.append_assoc _ _ _).symm
  · rw [pushJob, rooms_update_other _ here, if_neg (Ne.symm here),
      List.append_nil]

/-- A phase that only sends keeps everything the invariant speaks about. -/
theorem quietNext_spec {phase : JobPhase} {next : Option JobPhase}
    (quiet : quietNext phase = some next) :
    (next.elim [] JobPhase.pending).Sublist phase.pending ∧
      (some phase ≠ some JobPhase.setRoom ∧ next ≠ some .setRoom) ∧
      (Erased (some phase) ↔ Erased next) ∧
      (∀ targetRoom, next ≠ some (.clearRoom targetRoom)) ∧
      (∀ targetRoom, leftFor next = some targetRoom →
        leftFor (some phase) = some targetRoom) := by
  cases phase with
  | replyEnter =>
      obtain rfl := Option.some.inj quiet
      exact ⟨List.Sublist.refl _, ⟨nofun, nofun⟩, Iff.rfl, nofun, nofun⟩
  | noticeJoined =>
      obtain rfl := Option.some.inj quiet
      exact ⟨List.Sublist.refl _, ⟨nofun, nofun⟩, Iff.rfl, nofun, nofun⟩
  | replyLeave targetRoom =>
      obtain rfl := Option.some.inj quiet
      refine ⟨?_, ⟨nofun, nofun⟩, Iff.rfl, nofun, fun _ => id⟩
      cases targetRoom <;> exact List.Sublist.refl _
  | noticeLeft targetRoom =>
      obtain rfl := Option.some.inj quiet
      cases targetRoom with
      | none =>
          exact ⟨List.Sublist.refl _, ⟨nofun, nofun⟩, Iff.rfl, nofun, nofun⟩
      | some target =>
          exact ⟨List.Sublist.refl _, ⟨nofun, nofun⟩, Iff.rfl, nofun,
            fun _ => id⟩
  | broadcastChat message =>
      obtain rfl := Option.some.inj quiet
      exact ⟨List.nil_sublist _, ⟨nofun, nofun⟩, Iff.rfl, nofun, nofun⟩
  | _ => cases quiet

/-- One step of a connected session keeps membership and `_room` together. -/
theorem step_inv {view next : SessionView} {event : SessionEvent}
    (inv : Inv view)
    (may : ∀ targetRoom, event = .enterRoom targetRoom →
      view.MayEnter targetRoom)
    (connected : next.disconnecting = .connected)
    (stepped : view.Step event next) : Inv next := by
  have same : ∀ room, (view.rooms room).member = (view.rooms room).member ∧
      (view.rooms room).running = (view.rooms room).running :=
    fun _ => ⟨rfl, rfl⟩
  cases stepped with
  | elsewhere => exact inv
  | receiveEnter targetRoom idle =>
      refine inv.of_sublist rfl same fun room => ?_
      rw [line_setHandler_reading (idle ▸ reading_none)
        (reading_readRoom targetRoom)]
  | request idle inside harmless =>
      have before : Reading view.handler := idle ▸ reading_none
      refine inv.pushHere before inside ?_
        (request_heading before harmless inv.heading)
      rcases harmless with rfl | ⟨_, rfl⟩ <;> exact nofun
  | ignore reads inside =>
      refine inv.of_sublist rfl same fun room => ?_
      rw [line_setHandler_reading (reads ▸ reading_readRoom _) reading_none]
  | switch reads inside different =>
      have before : Reading view.handler := reads ▸ reading_readRoom _
      refine inv.pushHere before inside ?_
        (switch_heading inv before inside different (may _ rfl))
      exact nofun
  | join reads outside =>
      exact join_inv inv (reads ▸ reading_readRoom _) outside (may _ rfl)
  | push pushes =>
      apply Inv.of_sublist inv
      · rfl
      · intro room
        exact ⟨member_pushJob view _ room _, running_pushJob view _ room _⟩
      · intro room
        rw [line_pushed pushes room]
  | disconnect => cases connected
  | disconnectOutside => cases connected
  | pushLeave => cases connected
  | forgetRoom => cases connected
  | @start room job rest free queued =>
      have before := inv.member room
      rw [free] at before
      apply inv.update
      · have line : (view.rooms room).line = job :: rest := by
          rw [RoomView.line, free, queued]
          rfl
        rw [line, RoomView.line]
        change (job.firstPhase.pending ++ rest).Sublist _
        rw [JobPhase.pending_firstPhase]
        exact List.Sublist.refl _
      · change (view.rooms room).member = true ↔ _
        rw [before]
        cases job <;> exact or_congr ⟨nofun, nofun⟩ Iff.rfl
      · cases job <;> exact nofun
      · cases job <;> exact nofun
  | @insertMember room running =>
      apply inv.update
      · change ([RoomJob.enter] ++ (view.rooms room).jobs).Sublist _
        rw [RoomView.line, running]
        exact List.Sublist.refl _
      · exact ⟨fun _ => Or.inl rfl, fun _ => rfl⟩
      · exact nofun
      · exact nofun
  | setRoom running => exact setRoom_inv inv running
  | @eraseMember room targetRoom running =>
      apply inv.update
      · rw [RoomView.line, RoomView.line, running]
        apply List.Sublist.append_right
        cases targetRoom with
        | none => exact List.nil_sublist _
        | some target => exact List.Sublist.refl _
      · constructor
        · exact nofun
        · rintro (inserting | ⟨_, notErased⟩)
          · cases inserting
          · exact absurd trivial notErased
      · exact nofun
      · exact nofun
  | @readHere room targetRoom running here =>
      apply inv.update
      · rw [RoomView.line, RoomView.line, running]
        apply List.Sublist.append_right
        cases targetRoom <;> exact List.Sublist.refl _
      · have before := inv.member room
        rw [running] at before
        change (view.rooms room).member = true ↔ _
        rw [before]
        exact or_congr ⟨nofun, nofun⟩ Iff.rfl
      · exact fun _ _ => here
      · exact nofun
  | @readElsewhere room targetRoom running elsewhere =>
      apply inv.update
      · rw [RoomView.line, RoomView.line, running]
        apply List.Sublist.append_right
        cases targetRoom <;> exact List.Sublist.refl _
      · have before := inv.member room
        rw [running] at before
        change (view.rooms room).member = true ↔ _
        rw [before]
        apply or_congr ⟨nofun, nofun⟩
        constructor
        · exact fun ⟨here, _⟩ => absurd here elsewhere
        · exact fun ⟨here, _⟩ => absurd here elsewhere
      · exact nofun
      · intro target left
        obtain rfl : targetRoom = some target := left
        have leaves : .leaveAndEnter target ∈ view.line room := by
          rw [line_run view running]
          exact List.mem_append_left _ (List.mem_singleton.mpr rfl)
        rcases inv.switching room target leaves with outside | here | there
        · exact Or.inl outside
        · exact absurd here elsewhere
        · exact Or.inr there
  | clearRoom running => exact clearRoom_inv inv running
  | @quiet room phase next running quiet =>
      obtain ⟨fewer, notInserting, erased, notClearing, left⟩ :=
        quietNext_spec quiet
      apply inv.update
      · rw [RoomView.line, RoomView.line, running]
        exact fewer.append_right _
      · have before := inv.member room
        rw [running] at before
        change (view.rooms room).member = true ↔ next = some .setRoom ∨
          _ ∧ ¬Erased next
        rw [before]
        exact or_congr
          ⟨fun impossible => absurd impossible notInserting.1,
            fun impossible => absurd impossible notInserting.2⟩
          (and_congr Iff.rfl (not_congr erased))
      · exact fun _ clears => absurd clears (notClearing _)
      · intro target leaves
        apply inv.left room target
        rw [running]
        exact left target leaves
  | pushEnter running => exact pushEnter_inv inv running

end SessionView

namespace ChatServer

variable {Session : Type} [DecidableEq Session]

/-- Connected sessions are members of the room they point to, and of no
other. -/
def MembershipAgrees (state : ChatServer Session) : Prop :=
  ∀ session, (state.sessions session).disconnecting = .connected →
    (∀ room, session ∈ (state.rooms room).members ↔
      (state.sessions session).room = some room) ∧
    ∀ room other, session ∈ (state.rooms room).members →
      session ∈ (state.rooms other).members → room = other

/-- Where `Handle_C_ENTER_ROOM` reads `_room` of a connected session, no other
request of it is on its way to a different room. -/
def EntersOneRoom (state : ChatServer Session) (action : ChatAction Session) :
    Prop :=
  ∀ session targetRoom, (state.sessions session).disconnecting = .connected →
    state.event session action = .enterRoom targetRoom →
    (state.view session).MayEnter targetRoom

/-- A session that has not been disconnected was not before either. -/
theorem connected_before {view next : SessionView} {event : SessionEvent}
    (stepped : view.Step event next)
    (connected : next.disconnecting = .connected) :
    view.disconnecting = .connected := by
  cases stepped <;> first | exact connected | cases connected

theorem initial_view_inv (session : Session) :
    ((initial : ChatServer Session).view session).Inv := by
  have empty := initial_view_rooms session
  have noLine : ∀ room,
      ((initial : ChatServer Session).view session).line room = [] := by
    intro room
    rw [SessionView.line, empty]
    rfl
  exact
    { member := by
        intro room
        rw [empty]
        exact ⟨nofun, fun running => by
          rcases running with impossible | ⟨impossible, _⟩ <;>
            cases impossible⟩
      clearing := by
        intro room targetRoom running
        rw [empty] at running
        cases running
      entering := fun _ _ => Or.inl rfl
      switching := fun _ _ _ => Or.inl rfl
      left := fun _ _ _ => Or.inl rfl
      heading := by
        refine .oneRoom 0 ?_
        intro room job member
        rw [noLine] at member
        cases member }

theorem reaches_view_inv {state : ChatServer Session}
    (reached : (machine Session).Reaches EntersOneRoom state)
    (session : Session) :
    (state.sessions session).disconnecting = .connected →
      (state.view session).Inv := by
  have all : ∀ session, (state.sessions session).disconnecting = .connected →
      (state.view session).Inv := by
    apply Machine.Reaches.invariant _ _ reached
    · intro state initially
      obtain rfl : state = initial := initially
      exact fun session _ => initial_view_inv session
    · intro state action next inv enters stepped session connected
      have viewed := step_view stepped session
      have before := connected_before viewed connected
      exact SessionView.step_inv (inv session before)
        (fun targetRoom reads => enters session targetRoom before reads)
        connected viewed
  exact all session

/-- With no job on its way membership is what `_room` says. -/
theorem membershipAgrees_of_inv {state : ChatServer Session}
    (done : state.JobsDone)
    (inv : ∀ session, (state.sessions session).disconnecting = .connected →
      (state.view session).Inv) : state.MembershipAgrees := by
  intro session connected
  have agrees : ∀ room, session ∈ (state.rooms room).members ↔
      (state.sessions session).room = some room := by
    intro room
    have member := (inv session connected).member room
    change decide (session ∈ (state.rooms room).members) = true ↔
      runningFor session (state.rooms room).running = _ ∨ _ ∧
        ¬Erased (runningFor session (state.rooms room).running) at member
    rw [(done room).2, runningFor_none, decide_eq_true_iff] at member
    rw [member]
    constructor
    · rintro (impossible | ⟨inside, _⟩)
      · cases impossible
      · exact inside
    · exact fun inside => Or.inr ⟨inside, id⟩
  refine ⟨agrees, fun room other here there => ?_⟩
  have same := ((agrees room).mp here).symm.trans ((agrees other).mp there)
  exact Option.some.inj same

/-- In every run in which no session is sent to two rooms at once, membership
and `_room` agree whenever the rooms have done their jobs. -/
theorem reaches_membershipAgrees {state : ChatServer Session}
    (reached : (machine Session).Reaches EntersOneRoom state)
    (done : state.JobsDone) : state.MembershipAgrees :=
  membershipAgrees_of_inv done (reaches_view_inv reached)

/-- A client enters room 1. -/
def oneEntry : List (ChatAction Unit) :=
  [.handle (),
    .start 1,
    .execute 1,
    .execute 1,
    .execute 1,
    .execute 1]

/-- A client asks for a room and enters it. -/
def enterActions (room : RoomId) : List (ChatAction Unit) :=
  .packet () ⟨.cEnterRoom, { roomId := room, roomName := [] }⟩ 0 ::
    .handle () :: .handle () :: .start room :: .replicate 4 (.execute room)

def leavePacket : Protocol.Packet :=
  ⟨.cLeaveRoom, {}⟩

def leaveActions (room : RoomId) : List (ChatAction Unit) :=
  .packet () leavePacket 0 :: .handle () :: .start room ::
    .replicate 5 (.execute room)

/-- A client goes from one room to another. -/
def switchRoom (room targetRoom : RoomId) : List (ChatAction Unit) :=
  [.packet () ⟨.cEnterRoom, { roomId := targetRoom, roomName := [] }⟩ 0,
    .handle (),
    .handle (),
    .start room,
    .execute room,
    .execute room,
    .execute room,
    .execute room,
    .execute room,
    .execute room,
    .start targetRoom,
    .execute targetRoom,
    .execute targetRoom,
    .execute targetRoom,
    .execute targetRoom]

theorem oneEntry_membershipAgrees :
    ∃ state, (machine Unit).Reaches EntersOneRoom state ∧ state.JobsDone ∧
      () ∈ (state.rooms 1).members ∧ state.MembershipAgrees := by
  let requested : ChatServer Unit :=
    (initial : ChatServer Unit).setHandler () (some (.readRoom 1))
  let pushing := requested.setHandler () (some (.push 1 .enter))
  have requestedReached : (machine Unit).Reaches EntersOneRoom requested := by
    have stepped : (machine Unit).step initial (.packet ()
        ⟨.cEnterRoom, { roomId := 1, roomName := [] }⟩ 0) = some requested :=
      rfl
    refine .step (.start rfl) ?_ stepped
    intro session targetRoom _ impossible
    cases impossible
  have pushingReached : (machine Unit).Reaches EntersOneRoom pushing := by
    have stepped : (machine Unit).step requested (.handle ()) = some pushing :=
      rfl
    refine .step requestedReached ?_ stepped
    intro session targetRoom _ _
    refine Or.inr fun room job member => ?_
    have noLine : (requested.view session).line room = [] := by
      change ((initial.view session).rooms room).line ++ [] = []
      rw [initial_view_rooms]
      rfl
    rw [noLine] at member
    cases member
  have meets : (machine Unit).RunMeets EntersOneRoom pushing oneEntry := by
    refine ⟨?_, fun next _ => ?_⟩
    · intro session targetRoom _ impossible
      cases impossible
    apply Machine.RunMeets.of_forall
    intro action member state session targetRoom _ reads
    simp only [List.mem_cons, List.not_mem_nil, or_false] at member
    rcases member with rfl | rfl | rfl | rfl | rfl <;> cases reads
  obtain ⟨state, replayed⟩ :
      ∃ state, (machine Unit).run pushing oneEntry = some state :=
    Option.isSome_iff_exists.mp rfl
  have reached := Machine.Reaches.of_run pushingReached meets replayed
  have facts : ((machine Unit).run pushing oneEntry).map (fun state =>
      (state.roomIds, (state.rooms 1).members,
        state.roomIds.map fun room =>
          ((state.rooms room).jobs, (state.rooms room).running))) =
      some ([1, 2, 3], [()], [([], none), ([], none), ([], none)]) := rfl
  rw [replayed] at facts
  simp only [Option.map_some, Option.some.injEq, Prod.mk.injEq] at facts
  obtain ⟨ids, members, idle⟩ := facts
  have done : state.JobsDone := by
    apply jobsDone_of_roomIds reached.reachable
    rw [ids] at idle ⊢
    simpa using idle
  refine ⟨state, reached, done, ?_, reaches_membershipAgrees reached done⟩
  rw [members]
  exact List.mem_singleton.mpr rfl

/-- A client asks for rooms 1 and 2 before its first entry has run. -/
def twoEntries : List (ChatAction Unit) :=
  [.packet () ⟨.cEnterRoom, { roomId := 1, roomName := [] }⟩ 0,
    .handle (),
    .handle (),
    .packet () ⟨.cEnterRoom, { roomId := 2, roomName := [] }⟩ 0,
    .handle (),
    .handle (),
    .start 1,
    .execute 1,
    .execute 1,
    .execute 1,
    .execute 1,
    .start 2,
    .execute 2,
    .execute 2,
    .execute 2,
    .execute 2]

theorem twoEntries_inBothRooms :
    ∃ state, (machine Unit).Reachable state ∧ state.JobsDone ∧
      () ∈ (state.rooms 1).members ∧ () ∈ (state.rooms 2).members ∧
      ¬state.MembershipAgrees := by
  obtain ⟨state, replayed⟩ :
      ∃ state, (machine Unit).run initial twoEntries = some state :=
    Option.isSome_iff_exists.mp rfl
  have reached : (machine Unit).Reachable state :=
    Machine.Reachable.of_run (.start rfl) replayed
  have facts : ((machine Unit).run initial twoEntries).map (fun state =>
      ((state.sessions ()).disconnecting, state.roomIds,
        (state.rooms 1).members, (state.rooms 2).members,
        state.roomIds.map fun room =>
          ((state.rooms room).jobs, (state.rooms room).running))) =
      some (.connected, [1, 2, 3], [()], [()],
        [([], none), ([], none), ([], none)]) := rfl
  rw [replayed] at facts
  simp only [Option.map_some, Option.some.injEq, Prod.mk.injEq] at facts
  obtain ⟨connected, ids, first, second, idle⟩ := facts
  have inFirst : () ∈ (state.rooms 1).members := by
    rw [first]
    exact List.mem_singleton.mpr rfl
  have inSecond : () ∈ (state.rooms 2).members := by
    rw [second]
    exact List.mem_singleton.mpr rfl
  refine ⟨state, reached, ?_, inFirst, inSecond, ?_⟩
  · apply jobsDone_of_roomIds reached
    rw [ids] at idle ⊢
    simpa using idle
  · intro agrees
    have same := (agrees () connected).2 1 2 inFirst inSecond
    exact absurd same (by decide)

end ChatServer

end IocpChat
