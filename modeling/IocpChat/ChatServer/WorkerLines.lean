import IocpChat.ChatServer.RoomLines
import IocpChat.ChatServer.WorkerThreads
import IocpChat.Job.ActorGuarantee

/-!
# Where the jobs of a room are

`ChatServer` gives every room a line of jobs, which it runs one at a time.  The
workers do the same with batches from the `JobQueue`s: what is left of a
worker's batch and what is in the queue behind it are the line of the room, and
the job that the worker is inside is the one that runs.  No step in the queues
changes the lines, apart from the one that puts a job in and the one that starts
it.
-/

namespace IocpChat

open Protocol TransitionSystem

namespace WorkerServer

variable {Thread Session : Type}

/-- The line of a room in which nobody executes is the queue; a worker has taken
the front of it. -/
inductive IsLine (state : WorkerServer Thread Session) (room : RoomId) :
    RoomLine Session → Prop where
  | free :
      (∀ thread phase,
        state.queues.executes thread ≠ some (room, phase)) →
      IsLine state room
        { jobs := (state.queues.queues room).jobs
          running := none }
  | worker {thread : Thread} {phase : ExecutePhase (Session × RoomJob)} :
      state.queues.executes thread = some (room, phase) →
      IsLine state room
        { jobs := unstarted (some phase) ++
            (state.queues.queues room).jobs
          running := state.phases thread }

/-- Nothing happens in the room. -/
theorem IsLine.same {state next : WorkerServer Thread Session} {room : RoomId}
    {line : RoomLine Session} (isLine : state.IsLine room line)
    (jobs : (next.queues.queues room).jobs = (state.queues.queues room).jobs)
    (executes : ∀ thread phase,
      next.queues.executes thread = some (room, phase) ↔
        state.queues.executes thread = some (room, phase))
    (phases : ∀ thread phase,
      state.queues.executes thread = some (room, phase) →
      next.phases thread = state.phases thread) : next.IsLine room line := by
  cases isLine with
  | free nobody =>
      rw [← jobs]
      apply IsLine.free
      intro thread phase at_
      exact nobody thread phase ((executes thread phase).mp at_)
  | @worker thread phase at_ =>
      rw [← jobs, ← phases thread phase at_]
      exact .worker ((executes thread phase).mpr at_)

/-- What called `PushJob` in this thread. -/
inductive Calls (state : WorkerServer Thread Session) (thread : Thread)
    (room : RoomId) : Session → RoomJob → Prop where
  | handler {session : Session} {job : RoomJob} :
      state.tasks thread = some (.handlePacket session) →
      (state.chat.sessions session).handler = some (.push room job) →
      Calls state thread room session job
  | onDisconnected {session : Session} :
      state.tasks thread = some (.onDisconnected session) →
      (state.chat.sessions session).disconnecting = .pushLeave room →
      Calls state thread room session .leave
  | job {session : Session} :
      state.tasks thread = none →
      state.phases thread = some (session, .pushEnter room) →
      Calls state thread room session .enter

end WorkerServer

/-- The state of the task in its session is the same. -/
def WorkerTask.Kept {Session : Type} (before after : ChatServer Session) :
    WorkerTask Session → Prop
  | handlePacket session =>
      (after.sessions session).handler = (before.sessions session).handler
  | onDisconnected session =>
      (after.sessions session).disconnecting =
        (before.sessions session).disconnecting

/-- The task has something left to do. -/
def WorkerTask.Alive {Session : Type} (chat : ChatServer Session) :
    WorkerTask Session → Prop
  | handlePacket session => (chat.sessions session).handler ≠ none
  | onDisconnected session =>
      (chat.sessions session).disconnecting ≠ .connected ∧
        (chat.sessions session).disconnecting ≠ .disconnected

namespace WorkerServer

variable {Thread Session : Type}

theorem Calls.kept {state next : WorkerServer Thread Session} {thread : Thread}
    {room : RoomId} {session : Session} {job : RoomJob}
    (calls : state.Calls thread room session job)
    (tasks : next.tasks thread = state.tasks thread)
    (phases : next.phases thread = state.phases thread)
    (kept : ∀ task, state.tasks thread = some task →
      task.Kept state.chat next.chat) : next.Calls thread room session job := by
  cases calls with
  | handler task at_ =>
      have same : (next.chat.sessions session).handler =
          (state.chat.sessions session).handler := kept _ task
      exact .handler (tasks.trans task) (same.trans at_)
  | onDisconnected task at_ =>
      have same : (next.chat.sessions session).disconnecting =
          (state.chat.sessions session).disconnecting := kept _ task
      exact .onDisconnected (tasks.trans task) (same.trans at_)
  | job noTask at_ => exact .job (tasks.trans noTask) (phases.trans at_)

theorem alive_kept {before after : ChatServer Session}
    {task : WorkerTask Session} (alive : task.Alive before)
    (kept : task.Kept before after) : task.Alive after := by
  cases task with
  | handlePacket session =>
      change (after.sessions session).handler ≠ none
      have same : (after.sessions session).handler =
          (before.sessions session).handler := kept
      rw [same]
      exact alive
  | onDisconnected session =>
      change (after.sessions session).disconnecting ≠ .connected ∧
        (after.sessions session).disconnecting ≠ .disconnected
      have same : (after.sessions session).disconnecting =
          (before.sessions session).disconnecting := kept
      rw [same]
      exact alive

variable [DecidableEq Thread]

structure Inv (state : WorkerServer Thread Session) : Prop where
  queues : (JobSystem.machine Thread RoomId (Session × RoomJob)).Reaches
    JobSystem.PushesOnly state.queues
  phases : ∀ thread, state.phases thread ≠ none →
    ∃ room rest count,
      state.queues.executes thread = some (room, .job rest count)
  tasks : ∀ thread task, state.tasks thread = some task →
    state.queues.executes thread = none ∧ task.Alive state.chat
  unique : ∀ thread other task, state.tasks thread = some task →
    state.tasks other = some task → thread = other
  calls : ∀ thread room session job count pushOnly,
    state.queues.calls thread =
      some (room, .enqueue (session, job) count pushOnly) →
    state.Calls thread room session job

/-- What a step of a thread leaves alone of the others. -/
structure Moves (state next : WorkerServer Thread Session) (thread : Thread) :
    Prop where
  queues : next.queues = state.queues ∨ ∃ action,
    JobSystem.mover action = thread ∧
      JobSystem.PushesOnly state.queues action ∧
      state.queues.step action = some next.queues
  phases : ∀ other, other ≠ thread → next.phases other = state.phases other
  tasks : ∀ other, other ≠ thread → next.tasks other = state.tasks other
  kept : ∀ other task, other ≠ thread → state.tasks other = some task →
    task.Kept state.chat next.chat

theorem Moves.queuesOther {state next : WorkerServer Thread Session}
    {thread other : Thread} (moves : Moves state next thread)
    (different : other ≠ thread) :
    next.queues.calls other = state.queues.calls other ∧
      next.queues.executes other = state.queues.executes other := by
  rcases moves.queues with same | ⟨action, rfl, _, stepped⟩
  · rw [same]
    exact ⟨rfl, rfl⟩
  · exact JobSystem.step_other different stepped

/-- It is enough to look at the thread that moves. -/
theorem Inv.moves {state next : WorkerServer Thread Session} {thread : Thread}
    (inv : Inv state) (moves : Moves state next thread)
    (phase : next.phases thread ≠ none → ∃ room rest count,
      next.queues.executes thread = some (room, .job rest count))
    (task : ∀ task, next.tasks thread = some task →
      next.queues.executes thread = none ∧ task.Alive next.chat ∧
        ∀ other, other ≠ thread → state.tasks other ≠ some task)
    (call : ∀ room session job count pushOnly,
      next.queues.calls thread =
        some (room, .enqueue (session, job) count pushOnly) →
      next.Calls thread room session job) : Inv next where
  queues := by
    rcases moves.queues with same | ⟨action, _, pushes, stepped⟩
    · rw [same]
      exact inv.queues
    · exact .step inv.queues pushes stepped
  phases := by
    intro other inside
    by_cases own : other = thread
    · subst own
      exact phase inside
    · rw [moves.phases other own] at inside
      rw [(moves.queuesOther own).2]
      exact inv.phases other inside
  tasks := by
    intro other theirs at_
    by_cases own : other = thread
    · subst own
      obtain ⟨outside, alive, _⟩ := task theirs at_
      exact ⟨outside, alive⟩
    · rw [moves.tasks other own] at at_
      obtain ⟨outside, alive⟩ := inv.tasks other theirs at_
      rw [(moves.queuesOther own).2]
      exact ⟨outside, alive_kept alive (moves.kept other theirs own at_)⟩
  unique := by
    intro first second theirs firstAt secondAt
    by_cases firstOwn : first = thread
    · by_cases secondOwn : second = thread
      · rw [firstOwn, secondOwn]
      · subst firstOwn
        rw [moves.tasks second secondOwn] at secondAt
        exact absurd secondAt ((task theirs firstAt).2.2 second secondOwn)
    · rw [moves.tasks first firstOwn] at firstAt
      by_cases secondOwn : second = thread
      · subst secondOwn
        exact absurd firstAt ((task theirs secondAt).2.2 first firstOwn)
      · rw [moves.tasks second secondOwn] at secondAt
        exact inv.unique first second theirs firstAt secondAt
  calls := by
    intro other room session job count pushOnly at_
    by_cases own : other = thread
    · subst own
      exact call room session job count pushOnly at_
    · rw [(moves.queuesOther own).1] at at_
      apply (inv.calls other room session job count pushOnly at_).kept
      · exact moves.tasks other own
      · exact moves.phases other own
      · intro theirs
        exact moves.kept other theirs own

section Kept

variable [DecidableEq Session] {chat next : ChatServer Session}
  {session : Session} {task : WorkerTask Session}

/-- Only the handler of one session changes. -/
theorem kept_of_handler
    (others : ∀ owner, owner ≠ session → next.view owner = chat.view owner)
    (disconnecting : (next.view session).disconnecting =
      (chat.view session).disconnecting)
    (different : task ≠ .handlePacket session) : task.Kept chat next := by
  cases task with
  | handlePacket owner =>
      have notOwn : owner ≠ session := by
        intro same
        exact different (congrArg WorkerTask.handlePacket same)
      exact congrArg SessionView.handler (others owner notOwn)
  | onDisconnected owner =>
      by_cases own : owner = session
      · subst own
        exact disconnecting
      · exact congrArg SessionView.disconnecting (others owner own)

/-- Only `OnDisconnected` of one session goes on. -/
theorem kept_of_disconnecting
    (others : ∀ owner, owner ≠ session → next.view owner = chat.view owner)
    (handler : (next.view session).handler = (chat.view session).handler)
    (different : task ≠ .onDisconnected session) : task.Kept chat next := by
  cases task with
  | handlePacket owner =>
      by_cases own : owner = session
      · subst own
        exact handler
      · exact congrArg SessionView.handler (others owner own)
  | onDisconnected owner =>
      have notOwn : owner ≠ session := by
        intro same
        exact different (congrArg WorkerTask.onDisconnected same)
      exact congrArg SessionView.disconnecting (others owner notOwn)

theorem handlePacket_kept {tick : UInt64} {packet : Packet}
    (handled : chat.handlePacket session tick packet = some next)
    (different : task ≠ .handlePacket session) : task.Kept chat next := by
  apply kept_of_handler _ _ different
  · intro owner notOwn
    exact ChatServer.handlePacket_other (Ne.symm notOwn) handled
  · rw [ChatServer.view_handlePacket handled]
    obtain ⟨id, fields⟩ := packet
    have requests : ∀ job, ((chat.view session).request job).disconnecting =
        (chat.view session).disconnecting := by
      intro job
      unfold SessionView.request
      split <;> rfl
    cases id with
    | cLeaveRoom => exact requests _
    | cRoomChat => exact requests _
    | _ => rfl

theorem advanceHandler_kept {phase : HandlerPhase}
    (different : task ≠ .handlePacket session) :
    task.Kept chat (chat.advanceHandler session phase) := by
  apply kept_of_handler _ _ different
  · intro owner notOwn
    exact ChatServer.advanceHandler_other (Ne.symm notOwn) phase
  · rw [ChatServer.view_advanceHandler]
    cases phase with
    | push room job => rfl
    | readRoom targetRoom =>
        simp only [SessionView.advance]
        split
        · split <;> rfl
        · rfl

theorem setHandler_kept {handler : Option HandlerPhase}
    (different : task ≠ .handlePacket session) :
    task.Kept chat (chat.setHandler session handler) := by
  apply kept_of_handler _ _ different
  · intro owner notOwn
    exact ChatServer.view_setSession_other chat (Ne.symm notOwn) _
  · rw [ChatServer.view_setHandler_self]
    rfl

theorem setDisconnecting_kept {phase : DisconnectPhase}
    (different : task ≠ .onDisconnected session) :
    task.Kept chat (chat.setDisconnecting session phase) := by
  apply kept_of_disconnecting _ _ different
  · intro owner notOwn
    exact ChatServer.view_setSession_other chat (Ne.symm notOwn) _
  · rw [ChatServer.view_setDisconnecting_self]
    rfl

theorem disconnect_kept
    (stepped : chat.step (.disconnect session) = some next)
    (different : task ≠ .onDisconnected session) : task.Kept chat next := by
  simp only [ChatServer.step] at stepped
  split at stepped
  · split at stepped <;> cases stepped <;>
      exact setDisconnecting_kept different
  · cases stepped

theorem advanceDisconnect_kept {phase : DisconnectPhase}
    (advanced : chat.advanceDisconnect session phase = some next)
    (different : task ≠ .onDisconnected session) : task.Kept chat next := by
  apply kept_of_disconnecting _ _ different
  · intro owner notOwn
    exact ChatServer.advanceDisconnect_other (Ne.symm notOwn) advanced
  · exact ChatServer.advanceDisconnect_handler advanced

theorem advanceJob_kept {room : RoomId} {owner : Session} {phase : JobPhase} :
    task.Kept chat (chat.advanceJob room owner phase) := by
  cases task with
  | handlePacket session =>
      exact ChatServer.advanceJob_handler chat room owner session phase
  | onDisconnected session =>
      have set : ∀ target, ((chat.setSessionRoom owner target).sessions
          session).disconnecting = (chat.sessions session).disconnecting := by
        intro target
        by_cases own : owner = session
        · subst own
          exact congrArg SessionView.disconnecting
            (ChatServer.view_setSessionRoom_self chat owner target)
        · exact congrArg SessionView.disconnecting
            (ChatServer.view_setSession_other chat own _)
      cases phase with
      | setRoom => exact set _
      | clearRoom targetRoom => exact set _
      | readRoom targetRoom =>
          change ((chat.advanceJob room owner
            (.readRoom targetRoom)).sessions session).disconnecting = _
          rw [ChatServer.advanceJob]
          split <;> rfl
      | _ => rfl

end Kept

/-- The worker threads are in this state while the chat server is in that. -/
structure Related (state : WorkerServer Thread Session)
    (server : ChatServer Session) : Prop where
  inv : Inv state
  lines : ∃ lines, server = state.chat.withLines lines ∧
    ∀ room, state.IsLine room (lines room)

section Lines

variable {state next : WorkerServer Thread Session} {thread : Thread}
  {room : RoomId} {line : RoomLine Session}
  {phase : ExecutePhase (Session × RoomJob)}

/-- The worker in a room is the only one. -/
theorem Inv.worker (inv : Inv state)
    (at_ : state.queues.executes thread = some (room, phase))
    {other : Thread} {otherPhase : ExecutePhase (Session × RoomJob)}
    (otherAt : state.queues.executes other = some (room, otherPhase)) :
    other = thread :=
  JobSystem.reaches_exclusive inv.queues ⟨otherPhase, otherAt⟩ ⟨phase, at_⟩

theorem IsLine.here (isLine : state.IsLine room line) (inv : Inv state)
    (at_ : state.queues.executes thread = some (room, phase)) :
    line =
      { jobs := unstarted (some phase) ++ (state.queues.queues room).jobs
        running := state.phases thread } := by
  cases isLine with
  | free nobody => exact absurd at_ (nobody thread phase)
  | @worker other otherPhase otherAt =>
      obtain rfl := inv.worker at_ otherAt
      cases at_.symm.trans otherAt
      rfl

/-- A thread that is not inside a job has no phase of one. -/
theorem Inv.noPhase (inv : Inv state)
    (outside : ∀ room rest count,
      state.queues.executes thread ≠ some (room, .job rest count)) :
    state.phases thread = none := by
  cases found : state.phases thread with
  | none => rfl
  | some running =>
      obtain ⟨room, rest, count, at_⟩ :=
        inv.phases thread (by simp [found])
      exact absurd at_ (outside room rest count)

/-- A worker goes on in its room, or leaves it. -/
structure WorksIn (state next : WorkerServer Thread Session) (thread : Thread)
    (room : RoomId) : Prop where
  jobs : ∀ other, other ≠ room →
    (next.queues.queues other).jobs = (state.queues.queues other).jobs
  executes : ∀ other, other ≠ thread →
    next.queues.executes other = state.queues.executes other
  phases : ∀ other, other ≠ thread → next.phases other = state.phases other
  inside : ∃ phase, state.queues.executes thread = some (room, phase)
  stays : ∀ other phase, next.queues.executes thread = some (other, phase) →
    other = room

theorem WorksIn.elsewhere (works : WorksIn state next thread room)
    {other : RoomId} (different : other ≠ room)
    (isLine : state.IsLine other line) : next.IsLine other line := by
  obtain ⟨phase, inside⟩ := works.inside
  apply isLine.same (works.jobs other different)
  · intro worker theirs
    by_cases own : worker = thread
    · subst own
      constructor
      · intro at_
        exact absurd (works.stays other theirs at_) different
      · intro at_
        rw [inside] at at_
        cases at_
        exact absurd rfl different
    · rw [works.executes worker own]
  · intro worker theirs at_
    apply works.phases worker
    intro own
    rw [own, inside] at at_
    cases at_
    exact different rfl

/-- Nobody is left in the room. -/
theorem WorksIn.free (works : WorksIn state next thread room) (inv : Inv state)
    (left : next.queues.executes thread = none) (worker : Thread)
    (theirs : ExecutePhase (Session × RoomJob)) :
    next.queues.executes worker ≠ some (room, theirs) := by
  obtain ⟨phase, inside⟩ := works.inside
  intro at_
  by_cases own : worker = thread
  · rw [own, left] at at_
    cases at_
  · rw [works.executes worker own] at at_
    exact own (inv.worker inside at_)

end Lines

section Queues

variable {state next : WorkerServer Thread Session} {thread : Thread}
  {server : ChatServer Session}

omit [DecidableEq Thread] in
theorem kept_refl {chat : ChatServer Session} (task : WorkerTask Session) :
    task.Kept chat chat := by
  cases task with
  | _ => rfl

/-- A step in the queues only. -/
theorem Inv.queueMove (inv : Inv state)
    {action : JobAction Thread RoomId (Session × RoomJob)}
    {queues : JobSystem Thread RoomId (Session × RoomJob)}
    (mover : JobSystem.mover action = thread)
    (pushes : JobSystem.PushesOnly state.queues action)
    (stepped : state.queues.step action = some queues)
    (phase : state.phases thread ≠ none → ∃ room rest count,
      queues.executes thread = some (room, .job rest count))
    (task : state.tasks thread ≠ none → queues.executes thread = none)
    (call : ∀ room session job count pushOnly,
      queues.calls thread =
        some (room, .enqueue (session, job) count pushOnly) →
      state.Calls thread room session job) : Inv (state.setQueues queues) := by
  have moves : Moves state (state.setQueues queues) thread :=
    { queues := Or.inr ⟨action, mover, pushes, stepped⟩
      phases := fun _ _ => rfl
      tasks := fun _ _ => rfl
      kept := fun _ task _ _ => kept_refl task }
  apply inv.moves moves phase
  · intro theirs at_
    refine ⟨task ?_, (inv.tasks thread theirs at_).2, ?_⟩
    · intro nothing
      cases nothing.symm.trans at_
    · intro other different otherAt
      exact different (inv.unique other thread theirs otherAt at_)
  · intro room session job count pushOnly at_
    exact (call room session job count pushOnly at_).kept rfl rfl
      fun task _ => kept_refl task

/-- The rooms have the same lines. -/
theorem Related.stays (related : Related state server) (inv : Inv next)
    (chat : next.chat = state.chat)
    (isLine : ∀ room line, state.IsLine room line → next.IsLine room line) :
    Related next server where
  inv := inv
  lines := by
    obtain ⟨lines, same, areLines⟩ := related.lines
    rw [chat]
    exact ⟨lines, same, fun room => isLine room _ (areLines room)⟩

theorem queueStep_eq {action : JobAction Thread RoomId (Session × RoomJob)}
    (stepped : state.queueStep action = some next) :
    ∃ queues, state.queues.step action = some queues ∧
      next = state.setQueues queues := by
  obtain ⟨queues, moved, same⟩ := Option.map_eq_some_iff.mp stepped
  exact ⟨queues, moved, same.symm⟩

/-- A thread calls `PushJob`. -/
theorem push_related (related : Related state server) {room : RoomId}
    {session : Session} {job : RoomJob}
    (calls : state.Calls thread room session job)
    (stepped : state.queueStep (.push thread room (session, job) false) =
      some next) : Related next server := by
  obtain ⟨queues, moved, rfl⟩ := queueStep_eq stepped
  have explicit := moved
  simp only [JobSystem.step] at explicit
  split at explicit
  · obtain rfl := Option.some.inj explicit
    have inv := related.inv
    refine related.stays ?_ rfl fun other line isLine => ?_
    · apply @Inv.queueMove _ _ _ state thread inv
        (.push thread room (session, job) false) _ rfl rfl moved
      · exact inv.phases thread
      · intro busy
        obtain ⟨task, at_⟩ := Option.ne_none_iff_exists'.mp busy
        exact (inv.tasks thread task at_).1
      · intro other session' job' count pushOnly at_
        simp only [JobSystem.setCall, Function.update_self] at at_
        cases at_
        exact calls
    · apply isLine.same
      · by_cases same : other = room
        · subst same
          simp [setQueues, JobSystem.setCall, JobSystem.setQueue,
            JobQueue.fetchAdd]
        · simp [setQueues, JobSystem.setCall, JobSystem.setQueue, same]
      · exact fun _ _ => Iff.rfl
      · exact fun _ _ _ => rfl
  · cases explicit

/-- A thread has got the queue of a room. -/
theorem IsLine.pop {room other : RoomId} {line : RoomLine Session}
    (isLine : state.IsLine other line) (nextInv : Inv next)
    (queues : next.queues.queues = state.queues.queues)
    (phases : next.phases = state.phases)
    (noPhase : state.phases thread = none)
    (noExecute : state.queues.executes thread = none)
    (executes : next.queues.executes =
      Function.update state.queues.executes thread
        (some (room, .takeBatch))) : next.IsLine other line := by
  have took : next.queues.executes thread = some (room, .takeBatch) := by
    rw [executes, Function.update_self]
  have others : ∀ worker, worker ≠ thread →
      next.queues.executes worker = state.queues.executes worker := by
    intro worker different
    rw [executes, Function.update_of_ne different]
  by_cases here : other = room
  · subst here
    cases isLine with
    | free nobody =>
        have line : next.IsLine other _ := .worker took
        rw [phases, noPhase, queues] at line
        exact line
    | @worker worker phase at_ =>
        have notOwn : worker ≠ thread := by
          intro own
          rw [own, noExecute] at at_
          cases at_
        rw [← others worker notOwn] at at_
        exact absurd (nextInv.worker took at_) notOwn
  · apply isLine.same
    · rw [queues]
    · intro worker phase
      by_cases own : worker = thread
      · subst own
        rw [took, noExecute]
        constructor
        · intro same
          cases same
          exact absurd rfl here
        · intro impossible
          cases impossible
      · rw [others worker own]
    · intro worker phase _
      rw [phases]

/-- A thread that is in its loop asks for a queue. -/
theorem pop_related (related : Related state server)
    (idle : state.tasks thread = none)
    (stepped : state.queueStep (.pop thread) = some next) :
    Related next server := by
  obtain ⟨queues, moved, rfl⟩ := queueStep_eq stepped
  have inv := related.inv
  have explicit := moved
  simp only [JobSystem.step] at explicit
  split at explicit
  · rename_i outside
    have noCall := Option.isNone_iff_eq_none.mp outside.1
    have noExecute := Option.isNone_iff_eq_none.mp outside.2
    have noPhase : state.phases thread = none := by
      apply inv.noPhase
      simp [noExecute]
    have nextInv : Inv (state.setQueues queues) := by
      apply @Inv.queueMove _ _ _ state thread inv (.pop thread) _ rfl trivial
        moved
      · exact fun inside => absurd noPhase inside
      · exact fun busy => absurd idle busy
      · intro room session job count pushOnly at_
        have sameCalls : queues.calls = state.queues.calls := by
          split at explicit <;> cases explicit <;> rfl
        rw [sameCalls, noCall] at at_
        cases at_
    refine related.stays nextInv rfl fun other line isLine => ?_
    split at explicit
    · cases explicit
      exact isLine
    · cases explicit
      exact isLine.pop nextInv rfl rfl noPhase noExecute rfl
  · cases explicit

/-- A producer registers the queue. -/
theorem register_related (related : Related state server) {room : RoomId}
    (at_ : state.queues.calls thread = some (room, .register))
    (stepped : state.queueStep (.advance thread) = some next) :
    Related next server := by
  obtain ⟨queues, moved, rfl⟩ := queueStep_eq stepped
  have inv := related.inv
  have explicit := moved
  simp only [JobSystem.step, at_, JobSystem.advanceCall,
    Option.some.injEq] at explicit
  subst explicit
  refine related.stays ?_ rfl fun other line isLine => ?_
  · apply @Inv.queueMove _ _ _ state thread inv (.advance thread) _ rfl
      trivial moved
    · exact inv.phases thread
    · intro busy
      obtain ⟨task, taskAt⟩ := Option.ne_none_iff_exists'.mp busy
      exact (inv.tasks thread task taskAt).1
    · intro other session job count pushOnly registered
      simp only [JobSystem.setCall, Function.update_self] at registered
      cases registered
  · exact isLine.same rfl (fun _ _ => Iff.rfl) fun _ _ _ => rfl

/-- A worker goes on in its room without a job. -/
theorem works_related (related : Related state server) {room : RoomId}
    {phase : ExecutePhase (Session × RoomJob)}
    {queues : JobSystem Thread RoomId (Session × RoomJob)}
    (at_ : state.queues.executes thread = some (room, phase))
    (noCall : state.queues.calls thread = none)
    (noPhase : state.phases thread = none)
    (moved : state.queues.step (.advance thread) = some queues)
    (works : WorksIn state (state.setQueues queues) thread room)
    (calls : queues.calls = state.queues.calls)
    (here : (∃ nextPhase, queues.executes thread = some (room, nextPhase) ∧
        unstarted (some nextPhase) ++ (queues.queues room).jobs =
          unstarted (some phase) ++ (state.queues.queues room).jobs) ∨
      queues.executes thread = none ∧ (queues.queues room).jobs =
        unstarted (some phase) ++ (state.queues.queues room).jobs) :
    Related (state.setQueues queues) server := by
  have inv := related.inv
  refine related.stays ?_ rfl fun other line isLine => ?_
  · apply @Inv.queueMove _ _ _ state thread inv (.advance thread) _ rfl
      trivial moved
    · exact fun inside => absurd noPhase inside
    · intro busy
      obtain ⟨task, taskAt⟩ := Option.ne_none_iff_exists'.mp busy
      rw [(inv.tasks thread task taskAt).1] at at_
      cases at_
    · intro there session job count pushOnly called
      rw [calls, noCall] at called
      cases called
  · by_cases same : other = room
    · subst same
      rw [isLine.here inv at_, noPhase]
      rcases here with ⟨nextPhase, nextAt, jobs⟩ | ⟨left, jobs⟩
      · have line : IsLine (state.setQueues queues) other _ :=
          .worker nextAt
        change IsLine _ other
          { jobs := unstarted (some nextPhase) ++ (queues.queues other).jobs
            running := state.phases thread } at line
        rw [noPhase, jobs] at line
        exact line
      · have line : IsLine (state.setQueues queues) other _ :=
          .free (works.free inv left)
        change IsLine _ other
          { jobs := (queues.queues other).jobs
            running := none } at line
        rw [jobs] at line
        exact line
    · exact works.elsewhere same isLine

/-- A worker that updates its room's queue and its own place. -/
theorem WorksIn.of_update {room : RoomId}
    {phase : ExecutePhase (Session × RoomJob)}
    {value : JobQueue Thread (Session × RoomJob)}
    {after : Option (RoomId × ExecutePhase (Session × RoomJob))}
    (at_ : state.queues.executes thread = some (room, phase))
    (queues : next.queues.queues =
      Function.update state.queues.queues room value)
    (executes : next.queues.executes =
      Function.update state.queues.executes thread after)
    (phases : ∀ other, other ≠ thread →
      next.phases other = state.phases other)
    (stays : ∀ other theirs, after = some (other, theirs) → other = room) :
    WorksIn state next thread room where
  jobs := by
    intro other different
    rw [queues, Function.update_of_ne different]
  executes := by
    intro other different
    rw [executes, Function.update_of_ne different]
  phases := phases
  inside := ⟨phase, at_⟩
  stays := by
    intro other theirs found
    rw [executes, Function.update_self] at found
    exact stays other theirs found

/-- A step of `Execute` outside of jobs. -/
theorem execute_related (related : Related state server) {room : RoomId}
    {phase : ExecutePhase (Session × RoomJob)}
    (at_ : state.queues.executes thread = some (room, phase))
    (noCall : state.queues.calls thread = none)
    (noPhase : state.phases thread = none)
    (notStart : ∀ job rest count, phase ≠ .loop (job :: rest) count)
    (stepped : state.queueStep (.advance thread) = some next) :
    Related next server := by
  obtain ⟨queues, moved, rfl⟩ := queueStep_eq stepped
  have explicit := moved
  simp only [JobSystem.step, noCall, at_] at explicit
  cases phase with
  | takeBatch =>
      simp only [JobSystem.advanceExecute] at explicit
      split at explicit
      · cases explicit
      · cases explicit
        apply works_related related at_ noCall noPhase moved _ rfl
        · refine Or.inl ⟨_, Function.update_self .., ?_⟩
          simp [unstarted, JobSystem.setExecute, JobSystem.setQueue,
            JobQueue.takeBatch]
        · refine .of_update at_ rfl rfl (fun _ _ => rfl) ?_
          intro other theirs same
          cases same
          rfl
  | loop executeList count =>
      cases executeList with
      | cons job rest => exact absurd rfl (notStart job rest count)
      | nil =>
          simp only [JobSystem.advanceExecute] at explicit
          cases explicit
          apply works_related related at_ noCall noPhase moved _ rfl
          · split
            · refine Or.inl ⟨_, Function.update_self .., ?_⟩
              simp [unstarted, JobSystem.setExecute, JobSystem.setQueue,
                JobQueue.fetchSub]
            · refine Or.inr ⟨Function.update_self .., ?_⟩
              simp [unstarted, JobSystem.setExecute, JobSystem.setQueue,
                JobQueue.fetchSub]
          · refine .of_update at_ rfl rfl (fun _ _ => rfl) ?_
            intro other theirs same
            split at same
            · cases same
              rfl
            · cases same
  | job rest count =>
      cases explicit
      apply works_related related at_ noCall noPhase moved _ rfl
      · exact Or.inl ⟨_, Function.update_self .., rfl⟩
      · refine .of_update at_ (Function.update_eq_self ..).symm rfl
          (fun _ _ => rfl) ?_
        intro other theirs same
        cases same
        rfl
  | register =>
      cases explicit
      apply works_related related at_ noCall noPhase moved _ rfl
      · exact Or.inr ⟨Function.update_self .., rfl⟩
      · refine .of_update at_ (Function.update_eq_self ..).symm rfl
          (fun _ _ => rfl) ?_
        intro other theirs same
        cases same

/-- A step of a handler or of `OnDisconnected` outside of the queues. -/
theorem Inv.taskMove (inv : Inv state) {chat : ChatServer Session}
    {task : Option (WorkerTask Session)}
    (outside : state.queues.executes thread = none)
    (noCall : state.queues.calls thread = none)
    (kept : ∀ other theirs, other ≠ thread →
      state.tasks other = some theirs → theirs.Kept state.chat chat)
    (alive : ∀ own, task = some own → own.Alive chat ∧
      ∀ other, other ≠ thread → state.tasks other ≠ some own) :
    Inv ((state.setChat chat).setTask thread task) := by
  have moves : Moves state ((state.setChat chat).setTask thread task)
      thread :=
    { queues := Or.inl rfl
      phases := fun _ _ => rfl
      tasks := fun other different => Function.update_of_ne different ..
      kept := kept }
  apply inv.moves moves
  · exact inv.phases thread
  · intro own at_
    change Function.update state.tasks thread task thread = _ at at_
    rw [Function.update_self] at at_
    exact ⟨outside, alive own at_⟩
  · intro room session job count pushOnly called
    change state.queues.calls thread = _ at called
    rw [noCall] at called
    cases called

/-- The rooms have the same lines, and the sessions have moved. -/
theorem Related.taskMove (related : Related state server)
    {chat : ChatServer Session} {task : Option (WorkerTask Session)}
    (inv : Inv ((state.setChat chat).setTask thread task)) :
    ∃ lines, server = state.chat.withLines lines ∧
      Related ((state.setChat chat).setTask thread task)
        (chat.withLines lines) := by
  obtain ⟨lines, same, areLines⟩ := related.lines
  refine ⟨lines, same, inv, lines, rfl, fun room => ?_⟩
  exact (areLines room).same rfl (fun _ _ => Iff.rfl) fun _ _ _ => rfl

end Queues

end WorkerServer

end IocpChat
