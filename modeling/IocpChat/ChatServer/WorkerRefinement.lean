import IocpChat.ChatServer.WorkerLines
import IocpChat.Lib.Refinement

/-!
# The worker threads refine the chat server

Every step of a thread is a step of the chat server or none: a handler, a phase
of a job and the start of a job are one each, and a `PushJob` takes place when
the job is in the queue.
-/

namespace IocpChat

open Protocol TransitionSystem

namespace WorkerServer

variable {Thread Session : Type} [DecidableEq Thread]

/-- What comes from outside. -/
def seen : WorkerAction Thread Session → Option (ChatAction Session)
  | .packet _ session packet tick => some (.packet session packet tick)
  | .disconnect _ session => some (.disconnect session)
  | .pop _ => none
  | .advance _ => none

def chatSeen : ChatAction Session → Option (ChatAction Session)
  | .packet session packet tick => some (.packet session packet tick)
  | .disconnect session => some (.disconnect session)
  | _ => none

section Tasks

variable [DecidableEq Session] {state next : WorkerServer Thread Session}
  {thread : Thread} {server : ChatServer Session} {session : Session}

omit [DecidableEq Thread] [DecidableEq Session] in
theorem idle_eq (idle : state.idle thread = true) :
    state.tasks thread = none ∧ state.queues.calls thread = none ∧
      state.queues.executes thread = none := by
  simpa [WorkerServer.idle, and_assoc] using idle

/-- A completion hands a packet to its handler. -/
theorem packet_follows (related : Related state server) {packet : Packet}
    {tick : UInt64} (idle : state.idle thread = true)
    (waits : (state.chat.sessions session).handler = none)
    (stepped : (state.chat.handlePacket session tick packet).map
      (state.handling thread session) = some next) :
    (ChatServer.machine Session).Follows chatSeen (Related next) server
      (some (.packet session packet tick)) := by
  obtain ⟨chat, handled, rfl⟩ := Option.map_eq_some_iff.mp stepped
  obtain ⟨_, noCall, outside⟩ := idle_eq idle
  have nobody : ∀ other, state.tasks other ≠
      some (.handlePacket session) := by
    intro other at_
    exact (related.inv.tasks other _ at_).2 waits
  have inv : Inv (state.handling thread session chat) := by
    apply related.inv.taskMove outside noCall
    · intro other theirs _ at_
      apply handlePacket_kept handled
      intro same
      rw [same] at at_
      exact nobody other at_
    · intro own same
      split at same
      · cases same
      · rename_i handles
        cases same
        exact ⟨handles, fun other _ => nobody other⟩
  obtain ⟨lines, rfl, nextRelated⟩ := related.taskMove inv
  have follows : (ChatServer.machine Session).step
      (state.chat.withLines lines) (.packet session packet tick) =
        some (chat.withLines lines) := by
    change (if (state.chat.sessions session).handler = none then
      (state.chat.withLines lines).handlePacket session tick packet
      else none) = _
    rw [if_pos waits, ChatServer.handlePacket_withLines, handled]
    rfl
  exact @Machine.Follows.moves _ _ _ _ chatSeen _ _
    (.packet session packet tick) _ follows nextRelated

/-- A completion calls `OnDisconnected`. -/
theorem disconnect_follows (related : Related state server)
    (idle : state.idle thread = true)
    (stepped : (state.chat.step (.disconnect session)).map
      (fun chat => (state.setChat chat).setTask thread
        (if (chat.sessions session).disconnecting = .disconnected then none
          else some (.onDisconnected session))) = some next) :
    (ChatServer.machine Session).Follows chatSeen (Related next) server
      (some (.disconnect session)) := by
  obtain ⟨chat, handled, rfl⟩ := Option.map_eq_some_iff.mp stepped
  obtain ⟨_, noCall, outside⟩ := idle_eq idle
  have connected : (state.chat.sessions session).disconnecting =
      .connected := by
    simp only [ChatServer.step] at handled
    split at handled
    · assumption
    · cases handled
  have left : (chat.sessions session).disconnecting ≠ .connected := by
    simp only [ChatServer.step, connected, if_true] at handled
    split at handled <;> cases handled <;>
      simp [ChatServer.setDisconnecting, ChatServer.setSession,
        ClientSession.setDisconnecting]
  have nobody : ∀ other, state.tasks other ≠
      some (.onDisconnected session) := by
    intro other at_
    exact (related.inv.tasks other _ at_).2.1 connected
  have inv : Inv ((state.setChat chat).setTask thread
      (if (chat.sessions session).disconnecting = .disconnected then none
        else some (.onDisconnected session))) := by
    apply related.inv.taskMove outside noCall
    · intro other theirs _ at_
      apply disconnect_kept handled
      intro same
      rw [same] at at_
      exact nobody other at_
    · intro own same
      split at same
      · cases same
      · rename_i goesOn
        cases same
        exact ⟨⟨left, goesOn⟩, fun other _ => nobody other⟩
  obtain ⟨lines, rfl, nextRelated⟩ := related.taskMove inv
  have follows : (ChatServer.machine Session).step
      (state.chat.withLines lines) (.disconnect session) =
        some (chat.withLines lines) := by
    change (state.chat.withLines lines).step (.disconnect session) = _
    rw [ChatServer.disconnect_withLines, handled]
    rfl
  exact @Machine.Follows.moves _ _ _ _ chatSeen _ _ (.disconnect session) _
    follows nextRelated

/-- `Handle_C_ENTER_ROOM` reads `_room`. -/
theorem readRoom_follows (related : Related state server)
    {targetRoom : RoomId}
    (task : state.tasks thread = some (.handlePacket session))
    (noCall : state.queues.calls thread = none)
    (at_ : (state.chat.sessions session).handler =
      some (.readRoom targetRoom)) :
    (ChatServer.machine Session).Follows chatSeen
      (Related (state.handling thread session
        (state.chat.advanceHandler session (.readRoom targetRoom))))
      server none := by
  have outside := (related.inv.tasks thread _ task).1
  have inv : Inv (state.handling thread session
      (state.chat.advanceHandler session (.readRoom targetRoom))) := by
    apply related.inv.taskMove outside noCall
    · intro other theirs different theirsAt
      apply advanceHandler_kept
      intro same
      rw [same] at theirsAt
      exact different (related.inv.unique other thread _ theirsAt task)
    · intro own same
      split at same
      · cases same
      · rename_i handles
        cases same
        refine ⟨handles, fun other different otherAt => ?_⟩
        exact different (related.inv.unique other thread _ otherAt task)
  obtain ⟨lines, rfl, nextRelated⟩ := related.taskMove inv
  have follows : (ChatServer.machine Session).step
      (state.chat.withLines lines) (.handle session) =
        some ((state.chat.advanceHandler session
          (.readRoom targetRoom)).withLines lines) := by
    change (state.chat.sessions session).handler.map
      ((state.chat.withLines lines).advanceHandler session) = _
    rw [at_, Option.map_some, ChatServer.readRoom_withLines]
  exact @Machine.Follows.moves _ _ _ _ chatSeen _ _ (.handle session) _
    follows nextRelated

/-- `OnDisconnected` clears `_room`. -/
theorem clearRoom_follows (related : Related state server)
    {chat : ChatServer Session}
    (task : state.tasks thread = some (.onDisconnected session))
    (noCall : state.queues.calls thread = none)
    (at_ : (state.chat.sessions session).disconnecting = .clearRoom)
    (advanced : state.chat.advanceDisconnect session .clearRoom = some chat) :
    (ChatServer.machine Session).Follows chatSeen
      (Related ((state.setChat chat).setTask thread none)) server none := by
  have outside := (related.inv.tasks thread _ task).1
  have inv : Inv ((state.setChat chat).setTask thread none) := by
    apply related.inv.taskMove outside noCall
    · intro other theirs different theirsAt
      apply advanceDisconnect_kept advanced
      intro same
      rw [same] at theirsAt
      exact different (related.inv.unique other thread _ theirsAt task)
    · intro own same
      cases same
  obtain ⟨lines, rfl, nextRelated⟩ := related.taskMove inv
  have follows : (ChatServer.machine Session).step
      (state.chat.withLines lines) (.onDisconnected session) =
        some (chat.withLines lines) := by
    change (state.chat.withLines lines).advanceDisconnect session
      (state.chat.sessions session).disconnecting = _
    cases advanced
    rw [at_]
    rfl
  exact @Machine.Follows.moves _ _ _ _ chatSeen _ _ (.onDisconnected session)
    _ follows nextRelated

omit [DecidableEq Session] in
/-- One room gets another line. -/
theorem related_update {room : RoomId} {lines : RoomId → RoomLine Session}
    {line : RoomLine Session} (inv : Inv next)
    (here : next.IsLine room line)
    (elsewhere : ∀ other, other ≠ room → next.IsLine other (lines other)) :
    Related next (next.chat.withLines (Function.update lines room line)) where
  inv := inv
  lines := by
    refine ⟨_, rfl, fun other => ?_⟩
    by_cases same : other = room
    · subst same
      rw [Function.update_self]
      exact here
    · rw [Function.update_of_ne same]
      exact elsewhere other same

/-- A worker starts the next job of its batch. -/
theorem start_follows (related : Related state server) {room : RoomId}
    {job : RoomJob} {rest : List (Session × RoomJob)} {count : Nat}
    (at_ : state.queues.executes thread =
      some (room, .loop ((session, job) :: rest) count))
    (noCall : state.queues.calls thread = none)
    (stepped : (state.queueStep (.advance thread)).map
      (fun next => next.setPhase thread (some (session, job.firstPhase))) =
        some next) :
    (ChatServer.machine Session).Follows chatSeen (Related next) server
      none := by
  obtain ⟨mid, moved, rfl⟩ := Option.map_eq_some_iff.mp stepped
  obtain ⟨queues, queuesMoved, rfl⟩ := queueStep_eq moved
  have explicit := queuesMoved
  simp only [JobSystem.step, noCall, at_, JobSystem.advanceExecute,
    Option.some.injEq] at explicit
  have inv := related.inv
  have noTask : state.tasks thread = none := by
    cases found : state.tasks thread with
    | none => rfl
    | some task =>
        rw [(inv.tasks thread task found).1] at at_
        cases at_
  have noPhase : state.phases thread = none := by
    apply inv.noPhase
    simp [at_]
  have inside : queues.executes thread = some (room, .job rest count) := by
    rw [← explicit]
    exact Function.update_self ..
  have phaseSet : ((state.setQueues queues).setPhase thread
      (some (session, job.firstPhase))).phases thread =
        some (session, job.firstPhase) := Function.update_self ..
  have moves : Moves state ((state.setQueues queues).setPhase thread
      (some (session, job.firstPhase))) thread :=
    { queues := Or.inr ⟨.advance thread, rfl, trivial, queuesMoved⟩
      phases := fun other different => Function.update_of_ne different ..
      tasks := fun _ _ => rfl
      kept := fun _ task _ _ => kept_refl task }
  have nextInv : Inv ((state.setQueues queues).setPhase thread
      (some (session, job.firstPhase))) := by
    apply inv.moves moves
    · exact fun _ => ⟨room, rest, count, inside⟩
    · intro task found
      cases noTask.symm.trans found
    · intro there session' job' count' pushOnly called
      have sameCalls : queues.calls = state.queues.calls := by
        rw [← explicit]
        rfl
      change queues.calls thread = _ at called
      rw [sameCalls, noCall] at called
      cases called
  obtain ⟨lines, rfl, areLines⟩ := related.lines
  have line := (areLines room).here inv at_
  rw [noPhase] at line
  have follows : (ChatServer.machine Session).step
      (state.chat.withLines lines) (.start room) =
        some (state.chat.withLines (Function.update lines room
          { jobs := rest ++ (state.queues.queues room).jobs
            running := some (session, job.firstPhase) })) := by
    apply ChatServer.start_withLines
    · rw [line]
    · rw [line]
      rfl
  have jobs : (queues.queues room).jobs = (state.queues.queues room).jobs := by
    rw [← explicit]
    simp [JobSystem.setExecute, JobSystem.setQueue, JobQueue.start]
  have works : WorksIn state ((state.setQueues queues).setPhase thread
      (some (session, job.firstPhase))) thread room := by
    refine .of_update at_ (congrArg JobSystem.queues explicit).symm
      (congrArg JobSystem.executes explicit).symm moves.phases ?_
    intro other theirs same
    cases same
    rfl
  refine @Machine.Follows.moves _ _ _ _ chatSeen _ _ (.start room) _ follows
    (related_update nextInv ?_ fun other different =>
      works.elsewhere different (areLines other))
  have here : IsLine ((state.setQueues queues).setPhase thread
      (some (session, job.firstPhase))) room _ := .worker inside
  rw [phaseSet] at here
  change IsLine _ room
    { jobs := rest ++ (queues.queues room).jobs
      running := some (session, job.firstPhase) } at here
  rw [jobs] at here
  exact here

/-- A phase of a job. -/
theorem phase_follows (related : Related state server) {room : RoomId}
    {phase : JobPhase} {rest : List (Session × RoomJob)} {count : Nat}
    (at_ : state.queues.executes thread = some (room, .job rest count))
    (noCall : state.queues.calls thread = none)
    (inside : state.phases thread = some (session, phase))
    (notPush : ∀ targetRoom, phase ≠ .pushEnter targetRoom) :
    (ChatServer.machine Session).Follows chatSeen
      (Related (state.runPhase thread room session phase)) server none := by
  have inv := related.inv
  have moves : Moves state (state.runPhase thread room session phase)
      thread :=
    { queues := Or.inl rfl
      phases := fun other different => Function.update_of_ne different ..
      tasks := fun _ _ => rfl
      kept := by
        intro other task _ _
        have kept : task.Kept state.chat
            (state.chat.advanceJob room session phase) := advanceJob_kept
        cases task with
        | _ => exact kept }
  have nextInv : Inv (state.runPhase thread room session phase) := by
    apply inv.moves moves
    · exact fun _ => ⟨room, rest, count, at_⟩
    · intro task found
      change state.tasks thread = some task at found
      rw [(inv.tasks thread task found).1] at at_
      cases at_
    · intro there session' job' count' pushOnly called
      change state.queues.calls thread = _ at called
      rw [noCall] at called
      cases called
  obtain ⟨lines, rfl, areLines⟩ := related.lines
  have line := (areLines room).here inv at_
  rw [inside] at line
  have running : ((state.chat.withLines lines).rooms room).running =
      some (session, phase) := congrArg RoomLine.running line
  have follows : (ChatServer.machine Session).step
      (state.chat.withLines lines) (.execute room) =
        some (((state.chat.advanceJob room session phase).run room
          none).withLines (Function.update lines room
            ((lines room).run
              ((state.chat.advanceJob room session phase).rooms
                room).running))) := by
    change (state.chat.withLines lines).step (.execute room) = _
    rw [ChatServer.step_execute _ _ _ running, ChatServer.withLines_run,
      ChatServer.advanceJob_withLines _ _ _ _ notPush]
  have works : WorksIn state (state.runPhase thread room session phase) thread
      room := by
    refine .of_update at_ (Function.update_eq_self ..).symm
      (Function.update_eq_self ..).symm moves.phases ?_
    intro other theirs same
    cases at_.symm.trans same
    rfl
  refine @Machine.Follows.moves _ _ _ _ chatSeen _ _ (.execute room) _ follows
    (related_update nextInv ?_ fun other different =>
      works.elsewhere different (areLines other))
  have here : IsLine (state.runPhase thread room session phase) room _ :=
    .worker at_
  have after : (state.runPhase thread room session phase).phases thread =
      ((state.chat.advanceJob room session phase).rooms room).running :=
    Function.update_self ..
  rw [after] at here
  rw [line]
  exact here

omit [DecidableEq Thread] [DecidableEq Session] in
/-- A job comes to the end of the line of its room. -/
theorem IsLine.enqueue {room other : RoomId} {line : RoomLine Session}
    {job : RoomJob} (isLine : state.IsLine other line)
    (queues : next.queues.queues =
      Function.update state.queues.queues room
        ((state.queues.queues room).enqueue thread (session, job)))
    (executes : next.queues.executes = state.queues.executes)
    (phases : next.phases = state.phases) :
    next.IsLine other (if other = room then line.push session job else line) :=
    by
  split
  · rename_i same
    subst same
    have jobs : (next.queues.queues other).jobs =
        (state.queues.queues other).jobs ++ [(session, job)] := by
      rw [queues, Function.update_self]
      rfl
    cases isLine with
    | free nobody =>
        rw [← executes] at nobody
        have here := IsLine.free nobody
        rw [jobs] at here
        exact here
    | worker at_ =>
        rw [← executes] at at_
        have here := IsLine.worker at_
        rw [jobs, phases, ← List.append_assoc] at here
        exact here
  · rename_i different
    apply isLine.same
    · rw [queues, Function.update_of_ne different]
    · intro worker phase
      rw [executes]
    · intro worker phase _
      rw [phases]

omit [DecidableEq Session] in
theorem related_enqueue {room : RoomId} {lines : RoomId → RoomLine Session}
    {job : RoomJob} (inv : Inv next)
    (areLines : ∀ other, state.IsLine other (lines other))
    (queues : next.queues.queues =
      Function.update state.queues.queues room
        ((state.queues.queues room).enqueue thread (session, job)))
    (executes : next.queues.executes = state.queues.executes)
    (phases : next.phases = state.phases) :
    Related next (next.chat.withLines
      (Function.update lines room ((lines room).push session job))) := by
  apply related_update inv
  · have here := (areLines room).enqueue queues executes phases
    rw [if_pos rfl] at here
    exact here
  · intro other different
    have there := (areLines other).enqueue queues executes phases
    rw [if_neg different] at there
    exact there

omit [DecidableEq Session] in
/-- The queues after the locked part of `Push`. -/
theorem enqueue_eq {room : RoomId} {job : RoomJob} {count : Int}
    {pushOnly : Bool} {queues : JobSystem Thread RoomId (Session × RoomJob)}
    (at_ : state.queues.calls thread =
      some (room, .enqueue (session, job) count pushOnly))
    (moved : state.queues.step (.advance thread) = some queues) :
    queues.queues = Function.update state.queues.queues room
        ((state.queues.queues room).enqueue thread (session, job)) ∧
      queues.executes = state.queues.executes ∧
      ∀ other phase, queues.calls thread = some (other, phase) →
        phase = .register := by
  simp only [JobSystem.step, at_, JobSystem.advanceCall] at moved
  split at moved
  · cases moved
  · cases moved
    refine ⟨rfl, rfl, fun other phase called => ?_⟩
    simp only [JobSystem.setCall, Function.update_self] at called
    split at called
    · cases called
      rfl
    · cases called

/-- The handler's job is in the queue. -/
theorem handlerPush_follows (related : Related state server) {room : RoomId}
    {job : RoomJob} {count : Int} {pushOnly : Bool}
    {queues : JobSystem Thread RoomId (Session × RoomJob)}
    (at_ : state.queues.calls thread =
      some (room, .enqueue (session, job) count pushOnly))
    (moved : state.queues.step (.advance thread) = some queues)
    (task : state.tasks thread = some (.handlePacket session))
    (handles : (state.chat.sessions session).handler =
      some (.push room job)) :
    (ChatServer.machine Session).Follows chatSeen
      (Related ((state.setQueues queues).pushed thread)) server none := by
  have inv := related.inv
  have pushed : (state.setQueues queues).pushed thread =
      ((state.setQueues queues).setChat
        (state.chat.setHandler session none)).setTask thread none := by
    exact pushed_of_handlePacket task
  obtain ⟨enqueued, executes, registers⟩ := enqueue_eq at_ moved
  rw [pushed]
  have moves : Moves state (((state.setQueues queues).setChat
      (state.chat.setHandler session none)).setTask thread none) thread :=
    { queues := Or.inr ⟨.advance thread, rfl, trivial, moved⟩
      phases := fun _ _ => rfl
      tasks := fun other different => Function.update_of_ne different ..
      kept := by
        intro other theirs different theirsAt
        apply setHandler_kept
        intro same
        rw [same] at theirsAt
        exact different (inv.unique other thread _ theirsAt task) }
  have nextInv : Inv (((state.setQueues queues).setChat
      (state.chat.setHandler session none)).setTask thread none) := by
    apply inv.moves moves
    · intro inside
      obtain ⟨there, rest, taken, jobAt⟩ := inv.phases thread inside
      rw [(inv.tasks thread _ task).1] at jobAt
      cases jobAt
    · intro own found
      change Function.update state.tasks thread none thread = _ at found
      rw [Function.update_self] at found
      cases found
    · intro there owner job' count' pushOnly' called
      cases registers there _ called
  obtain ⟨lines, rfl, areLines⟩ := related.lines
  have follows : (ChatServer.machine Session).step
      (state.chat.withLines lines) (.handle session) =
        some ((state.chat.setHandler session none).withLines
          (Function.update lines room ((lines room).push session job))) := by
    change (state.chat.sessions session).handler.map
      ((state.chat.withLines lines).advanceHandler session) = _
    rw [handles, Option.map_some, ChatServer.push_withLines]
  exact @Machine.Follows.moves _ _ _ _ chatSeen _ _ (.handle session) _
    follows (related_enqueue nextInv areLines enqueued executes rfl)

/-- The `Leave` of `OnDisconnected` is in the queue. -/
theorem leavePush_follows (related : Related state server) {room : RoomId}
    {count : Int} {pushOnly : Bool}
    {queues : JobSystem Thread RoomId (Session × RoomJob)}
    (at_ : state.queues.calls thread =
      some (room, .enqueue (session, .leave) count pushOnly))
    (moved : state.queues.step (.advance thread) = some queues)
    (task : state.tasks thread = some (.onDisconnected session))
    (pushes : (state.chat.sessions session).disconnecting =
      .pushLeave room) :
    (ChatServer.machine Session).Follows chatSeen
      (Related ((state.setQueues queues).pushed thread)) server none := by
  have inv := related.inv
  have pushed : (state.setQueues queues).pushed thread =
      (state.setQueues queues).setChat
        (state.chat.setDisconnecting session .clearRoom) := by
    exact pushed_of_onDisconnected task
  obtain ⟨enqueued, executes, registers⟩ := enqueue_eq at_ moved
  rw [pushed]
  have moves : Moves state ((state.setQueues queues).setChat
      (state.chat.setDisconnecting session .clearRoom)) thread :=
    { queues := Or.inr ⟨.advance thread, rfl, trivial, moved⟩
      phases := fun _ _ => rfl
      tasks := fun _ _ => rfl
      kept := by
        intro other theirs different theirsAt
        apply setDisconnecting_kept
        intro same
        rw [same] at theirsAt
        exact different (inv.unique other thread _ theirsAt task) }
  have nextInv : Inv ((state.setQueues queues).setChat
      (state.chat.setDisconnecting session .clearRoom)) := by
    apply inv.moves moves
    · intro inside
      obtain ⟨there, rest, taken, jobAt⟩ := inv.phases thread inside
      rw [(inv.tasks thread _ task).1] at jobAt
      cases jobAt
    · intro own found
      cases task.symm.trans found
      have outside : queues.executes thread = none := by
        rw [executes]
        exact (inv.tasks thread _ task).1
      have clears : ((state.chat.setDisconnecting session
          .clearRoom).sessions session).disconnecting = .clearRoom :=
        congrArg SessionView.disconnecting
          (ChatServer.view_setDisconnecting_self state.chat session _)
      refine ⟨outside, ?_, ?_⟩
      · change ((state.chat.setDisconnecting session
          .clearRoom).sessions session).disconnecting ≠ .connected ∧
            ((state.chat.setDisconnecting session
              .clearRoom).sessions session).disconnecting ≠ .disconnected
        rw [clears]
        exact ⟨by simp, by simp⟩
      · intro other different otherAt
        exact different (inv.unique other thread _ otherAt task)
    · intro there owner job' count' pushOnly' called
      cases registers there _ called
  obtain ⟨lines, rfl, areLines⟩ := related.lines
  have follows : (ChatServer.machine Session).step
      (state.chat.withLines lines) (.onDisconnected session) =
        some ((state.chat.setDisconnecting session .clearRoom).withLines
          (Function.update lines room ((lines room).push session .leave))) := by
    change (state.chat.withLines lines).advanceDisconnect session
      (state.chat.sessions session).disconnecting = _
    rw [pushes, ChatServer.pushLeave_withLines]
  exact @Machine.Follows.moves _ _ _ _ chatSeen _ _ (.onDisconnected session)
    _ follows (related_enqueue nextInv areLines enqueued executes rfl)

/-- The `Enter` of a `LeaveAndEnter` is in the queue. -/
theorem enterPush_follows (related : Related state server) {room : RoomId}
    {count : Int} {pushOnly : Bool}
    {queues : JobSystem Thread RoomId (Session × RoomJob)}
    (at_ : state.queues.calls thread =
      some (room, .enqueue (session, .enter) count pushOnly))
    (moved : state.queues.step (.advance thread) = some queues)
    (noTask : state.tasks thread = none)
    (pushes : state.phases thread = some (session, .pushEnter room)) :
    (ChatServer.machine Session).Follows chatSeen
      (Related ((state.setQueues queues).pushed thread)) server none := by
  have inv := related.inv
  have pushed : (state.setQueues queues).pushed thread =
      (state.setQueues queues).setPhase thread none := by
    exact pushed_of_none noTask
  obtain ⟨enqueued, executes, registers⟩ := enqueue_eq at_ moved
  rw [pushed]
  obtain ⟨there, rest, taken, inside⟩ := inv.phases thread (by simp [pushes])
  have moves : Moves state ((state.setQueues queues).setPhase thread none)
      thread :=
    { queues := Or.inr ⟨.advance thread, rfl, trivial, moved⟩
      phases := fun other different => Function.update_of_ne different ..
      tasks := fun _ _ => rfl
      kept := fun _ task _ _ => kept_refl task }
  have nextInv : Inv ((state.setQueues queues).setPhase thread none) := by
    apply inv.moves moves
    · intro _
      refine ⟨there, rest, taken, ?_⟩
      rw [← inside]
      exact congrFun executes thread
    · intro own found
      cases noTask.symm.trans found
    · intro other owner job' count' pushOnly' called
      cases registers other _ called
  obtain ⟨lines, rfl, areLines⟩ := related.lines
  have line := (areLines there).here inv inside
  rw [pushes] at line
  have running : ((state.chat.withLines lines).rooms there).running =
      some (session, .pushEnter room) := congrArg RoomLine.running line
  have follows : (ChatServer.machine Session).step
      (state.chat.withLines lines) (.execute there) =
        some (state.chat.withLines
          (Function.update
            (Function.update lines there ((lines there).run none)) room
            ((Function.update lines there ((lines there).run none)
              room).push session .enter))) := by
    change (state.chat.withLines lines).step (.execute there) = _
    rw [ChatServer.step_execute _ _ _ running, ChatServer.pushEnter_withLines]
  -- the job ends first, and its `Enter` goes into the line of the other room
  have works : WorksIn state (state.setPhase thread none) thread there := by
    refine .of_update inside (Function.update_eq_self ..).symm
      (Function.update_eq_self ..).symm moves.phases ?_
    intro other theirs same
    cases inside.symm.trans same
    rfl
  have ended : ∀ other, (state.setPhase thread none).IsLine other
      (Function.update lines there ((lines there).run none) other) := by
    intro other
    by_cases same : other = there
    · subst same
      have here : (state.setPhase thread none).IsLine other _ :=
        .worker inside
      have after : (state.setPhase thread none).phases thread = none :=
        Function.update_self ..
      rw [after] at here
      rw [Function.update_self, line]
      exact here
    · rw [Function.update_of_ne same]
      exact works.elsewhere same (areLines other)
  exact @Machine.Follows.moves _ _ _ _ chatSeen _ _ (.execute there) _
    follows (related_enqueue nextInv ended enqueued executes rfl)

theorem enqueue_follows (related : Related state server) {room : RoomId}
    {job : Session × RoomJob} {count : Int} {pushOnly : Bool}
    (at_ : state.queues.calls thread =
      some (room, .enqueue job count pushOnly))
    (stepped : (state.queueStep (.advance thread)).map
      (fun next => next.pushed thread) = some next) :
    (ChatServer.machine Session).Follows chatSeen (Related next) server
      none := by
  obtain ⟨mid, moved, rfl⟩ := Option.map_eq_some_iff.mp stepped
  obtain ⟨queues, queuesMoved, rfl⟩ := queueStep_eq moved
  obtain ⟨session, job⟩ := job
  cases related.inv.calls thread room session job count pushOnly at_ with
  | handler task handles =>
      exact handlerPush_follows related at_ queuesMoved task handles
  | onDisconnected task pushes =>
      exact leavePush_follows related at_ queuesMoved task pushes
  | job noTask pushes =>
      exact enterPush_follows related at_ queuesMoved noTask pushes

theorem advanceTask_follows (related : Related state server)
    {task : WorkerTask Session} (at_ : state.tasks thread = some task)
    (noCall : state.queues.calls thread = none)
    (stepped : state.advanceTask thread task = some next) :
    (ChatServer.machine Session).Follows chatSeen (Related next) server
      none := by
  cases task with
  | handlePacket session =>
      simp only [advanceTask] at stepped
      split at stepped
      · rename_i room job handles
        exact .stays (push_related related (.handler at_ handles) stepped)
      · rename_i targetRoom handles
        cases stepped
        exact readRoom_follows related at_ noCall handles
      · cases stepped
  | onDisconnected session =>
      simp only [advanceTask] at stepped
      cases phase : (state.chat.sessions session).disconnecting with
      | pushLeave room =>
          rw [phase] at stepped
          exact .stays
            (push_related related (.onDisconnected at_ phase) stepped)
      | clearRoom =>
          rw [phase] at stepped
          obtain ⟨chat, advanced, rfl⟩ := Option.map_eq_some_iff.mp stepped
          exact clearRoom_follows related at_ noCall phase advanced
      | connected =>
          rw [phase] at stepped
          cases stepped
      | disconnected =>
          rw [phase] at stepped
          cases stepped

theorem advanceExecute_follows (related : Related state server)
    {room : RoomId} {phase : ExecutePhase (Session × RoomJob)}
    (at_ : state.queues.executes thread = some (room, phase))
    (noCall : state.queues.calls thread = none)
    (stepped : state.advanceExecute thread room phase = some next) :
    (ChatServer.machine Session).Follows chatSeen (Related next) server
      none := by
  have inv := related.inv
  cases phase with
  | takeBatch =>
      have noPhase := @Inv.noPhase _ _ _ state thread inv (by simp [at_])
      exact .stays (execute_related related at_ noCall noPhase (by simp)
        stepped)
  | register =>
      have noPhase := @Inv.noPhase _ _ _ state thread inv (by simp [at_])
      exact .stays (execute_related related at_ noCall noPhase (by simp)
        stepped)
  | loop executeList count =>
      cases executeList with
      | nil =>
          have noPhase := @Inv.noPhase _ _ _ state thread inv (by simp [at_])
          exact .stays (execute_related related at_ noCall noPhase (by simp)
            stepped)
      | cons job rest =>
          obtain ⟨session, job⟩ := job
          exact start_follows related at_ noCall stepped
  | job rest count =>
      simp only [advanceExecute] at stepped
      cases inside : state.phases thread with
      | none =>
          rw [inside] at stepped
          exact .stays (execute_related related at_ noCall inside (by simp)
            stepped)
      | some running =>
          obtain ⟨session, phase⟩ := running
          rw [inside] at stepped
          have noTask : state.tasks thread = none := by
            cases found : state.tasks thread with
            | none => rfl
            | some task =>
                rw [(inv.tasks thread task found).1] at at_
                cases at_
          by_cases pushes : ∃ targetRoom, phase = .pushEnter targetRoom
          · obtain ⟨targetRoom, rfl⟩ := pushes
            exact .stays (push_related related (.job noTask inside) stepped)
          · have notPush : ∀ targetRoom, phase ≠ .pushEnter targetRoom := by
              intro targetRoom same
              exact pushes ⟨targetRoom, same⟩
            have runs : state.advancePhase thread room session phase =
                some (state.runPhase thread room session phase) := by
              cases phase with
              | pushEnter targetRoom => exact absurd rfl (notPush targetRoom)
              | _ => rfl
            change state.advancePhase thread room session phase = _ at stepped
            cases runs.symm.trans stepped
            exact phase_follows related at_ noCall inside notPush

theorem step_follows {action : WorkerAction Thread Session}
    (related : Related state server)
    (stepped : state.step action = some next) :
    (ChatServer.machine Session).Follows chatSeen (Related next) server
      (seen action) := by
  cases action with
  | packet thread session packet tick =>
      simp only [step] at stepped
      split at stepped
      · rename_i may
        exact packet_follows related may.1 may.2 stepped
      · cases stepped
  | disconnect thread session =>
      simp only [step] at stepped
      split at stepped
      · rename_i idle
        exact disconnect_follows related idle stepped
      · cases stepped
  | pop thread =>
      simp only [step] at stepped
      split at stepped
      · rename_i idle
        exact .stays (pop_related related
          (Option.isNone_iff_eq_none.mp idle) stepped)
      · cases stepped
  | advance thread =>
      simp only [step] at stepped
      split at stepped
      · rename_i room job count pushOnly at_
        exact enqueue_follows related at_ stepped
      · rename_i call notEnqueue at_
        obtain ⟨room, phase⟩ := call
        have noClear := ((JobSystem.reaches_inv related.inv.queues).1 thread
          room phase at_).1
        cases phase with
        | enqueue job count pushOnly =>
            exact absurd rfl (notEnqueue room job count pushOnly)
        | register => exact .stays (register_related related at_ stepped)
        | clear => exact absurd rfl noClear
      · rename_i noCall
        split at stepped
        · rename_i room phase at_
          exact advanceExecute_follows related at_ noCall stepped
        · obtain ⟨task, at_, advanced⟩ := Option.bind_eq_some_iff.mp stepped
          exact advanceTask_follows related at_ noCall advanced

omit [DecidableEq Session] in
theorem initial_related :
    Related (initial : WorkerServer Thread Session) .initial where
  inv :=
    { queues := .start rfl
      phases := fun _ inside => absurd rfl inside
      tasks := by
        intro thread task at_
        cases at_
      unique := by
        intro thread other task at_
        cases at_
      calls := by
        intro thread room session job count pushOnly at_
        cases at_ }
  lines := by
    refine ⟨fun _ =>
      { jobs := []
        running := none }, ?_, ?_⟩
    · have rooms : (ChatServer.initial : ChatServer Session).rooms =
          (ChatServer.initial.withLines fun _ =>
            { jobs := []
              running := none }).rooms := by
        funext room
        simp only [ChatServer.initial, ChatServer.withLines, Room.withLine]
        split
        · rfl
        · split
          · rfl
          · split <;> rfl
      exact congrArg (fun rooms : RoomId → Room Session =>
        ({ ChatServer.initial with rooms := rooms } : ChatServer Session))
        rooms
    · intro room
      apply IsLine.free
      intro thread phase at_
      cases at_

/-- The machine of the workers refines the machine of the chat server. -/
theorem machine_refines (Thread Session : Type) [DecidableEq Thread]
    [DecidableEq Session] :
    (machine Thread Session).Refines (ChatServer.machine Session) seen chatSeen
      Related where
  initially := by
    rintro state rfl
    exact ⟨.initial, rfl, initial_related⟩
  step := step_follows

/-- What the chat server tells of the workers. -/
structure Serves (state : WorkerServer Thread Session)
    (server : ChatServer Session) : Prop where
  sessions : server.sessions = state.chat.sessions
  outputs : server.outputs = state.chat.outputs
  roomIds : server.roomIds = state.chat.roomIds
  nextPlayerId : server.nextPlayerId = state.chat.nextPlayerId
  roomNames : ∀ room, (server.rooms room).roomName =
    (state.chat.rooms room).roomName
  members : ∀ room, (server.rooms room).members =
    (state.chat.rooms room).members
  lines : ∀ room, state.IsLine room
    { jobs := (server.rooms room).jobs
      running := (server.rooms room).running }
  exclusive : ∀ room first second, state.queues.Executing first room →
    state.queues.Executing second room → first = second

/-- However the workers interleave, the chat server has a run with the same
packets and disconnects that sends the same and leaves the same behind. -/
theorem run_refines {actions : List (WorkerAction Thread Session)}
    (replayed : (machine Thread Session).run initial actions = some state) :
    ∃ chatActions server,
      (ChatServer.machine Session).run .initial chatActions = some server ∧
        chatActions.filterMap chatSeen = actions.filterMap seen ∧
        state.Serves server := by
  obtain ⟨chatActions, server, chatReplayed, sameSeen, related⟩ :=
    (machine_refines Thread Session).run initial_related replayed
  refine ⟨chatActions, server, chatReplayed, sameSeen, ?_⟩
  have inv := related.inv
  obtain ⟨lines, rfl, areLines⟩ := related.lines
  exact
    { sessions := rfl
      outputs := rfl
      roomIds := rfl
      nextPlayerId := rfl
      roomNames := fun _ => rfl
      members := fun _ => rfl
      lines := areLines
      exclusive := fun _ _ _ => JobSystem.reaches_exclusive inv.queues }

end Tasks

/-- One thread handles the packet of a client that enters a room, and another
one runs the job. -/
def oneEntry : List (WorkerAction Bool Unit) :=
  .packet true () ⟨.cEnterRoom, { roomId := 1, roomName := [] }⟩ 0 ::
    .replicate 4 (.advance true) ++ .pop false :: .replicate 8 (.advance false)

theorem oneEntry_refines :
    ∃ state, (machine Bool Unit).run initial oneEntry = some state ∧
      ∃ chatActions server,
        (ChatServer.machine Unit).run .initial chatActions = some server ∧
          chatActions.filterMap chatSeen = oneEntry.filterMap seen ∧
          state.Serves server ∧ (server.rooms 1).members = [()] := by
  obtain ⟨state, replayed⟩ :
      ∃ state, (machine Bool Unit).run initial oneEntry = some state :=
    Option.isSome_iff_exists.mp rfl
  obtain ⟨chatActions, server, chatReplayed, sameSeen, serves⟩ :=
    run_refines replayed
  have members : (state.chat.rooms 1).members = [()] :=
    @Machine.view_of_run _ _ _ _ _ _ _ (fun state : WorkerServer Bool Unit =>
      (state.chat.rooms 1).members) _ replayed rfl
  refine ⟨state, replayed, chatActions, server, chatReplayed, sameSeen, serves,
    ?_⟩
  rw [serves.members, members]

end WorkerServer

end IocpChat
