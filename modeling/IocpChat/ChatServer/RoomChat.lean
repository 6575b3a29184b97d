import IocpChat.ChatServer.Departure
import IocpChat.ChatServer.SessionActions

/-!
# Speaking in a room

`Handle_C_ROOM_CHAT` pushes a `HandleChat` to the room that `_room` names.  The
room broadcasts it when the jobs in front of it are done; the speaker is a
member then if those jobs leave it one.
-/

namespace IocpChat

open TransitionSystem

/-- Every chat of the line is done while the session is a member. -/
def ChatsInside : Bool → List RoomJob → Prop
  | _, [] => True
  | member, job :: rest =>
      (∀ message, job = .handleChat message → member = true) ∧
        ChatsInside (job.settle member) rest

theorem chatsInside_append {member : Bool} {line : List RoomJob}
    {job : RoomJob} :
    ChatsInside member (line ++ [job]) ↔
      ChatsInside member line ∧
        ∀ message, job = .handleChat message → settle member line = true := by
  induction line generalizing member with
  | nil => simp [ChatsInside, settle]
  | cons first rest induction =>
      simp only [List.cons_append, ChatsInside, induction, and_assoc]
      rfl

/-- The job has taken the session out of `_members`. -/
def JobPhase.Removed : JobPhase → Prop
  | readRoom _ => True
  | clearRoom _ => True
  | replyLeave _ => True
  | noticeLeft _ => True
  | pushEnter _ => True
  | _ => False

structure RoomView.Speaks (room : RoomView) : Prop where
  chats : ChatsInside room.member room.line
  inserted : room.running = some .setRoom → room.member = true
  removed : ∀ phase, room.running = some phase → phase.Removed →
    room.member = false

namespace SessionView

def Speaks (view : SessionView) : Prop :=
  ∀ room, (view.rooms room).Speaks

theorem Speaks.update {view : SessionView} (speaks : view.Speaks)
    {room : RoomId} {value : RoomView} (new : value.Speaks) :
    (view.update room value).Speaks := by
  intro other
  by_cases same : other = room
  · subst same
    rw [rooms_update_self]
    exact new
  · rw [rooms_update_other view same]
    exact speaks other

theorem Speaks.pushJob {view : SessionView} (speaks : view.Speaks)
    {room : RoomId} {job : RoomJob}
    (inside : ∀ message, job = .handleChat message →
      settle (view.rooms room).member (view.rooms room).line = true) :
    (view.pushJob room job).Speaks := by
  apply speaks.update
  have line : ((view.rooms room).pushJob job).line =
      (view.rooms room).line ++ [job] :=
    (List.append_assoc ..).symm
  exact
    { speaks room with
      chats := by
        rw [line]
        exact chatsInside_append.mpr ⟨(speaks room).chats, inside⟩ }

/-- The line of a room with a running job. -/
theorem chats_running {room : RoomView} {phase : JobPhase}
    (speaks : room.Speaks) (running : room.running = some phase) :
    ChatsInside room.member (phase.pending ++ room.jobs) := by
  have chats := speaks.chats
  rw [RoomView.line, running] at chats
  exact chats

/-- On its way out, a job leaves the chats behind it outside. -/
theorem chatsInside_removed {phase : JobPhase} (removed : phase.Removed)
    (jobs : List RoomJob) :
    ChatsInside false (phase.pending ++ jobs) ↔ ChatsInside false jobs := by
  have switching : ∀ targetRoom,
      ChatsInside false (.leaveAndEnter targetRoom :: jobs) ↔
        ChatsInside false jobs := by
    intro targetRoom
    simp [ChatsInside, RoomJob.settle]
  cases phase with
  | readRoom targetRoom =>
      cases targetRoom with
      | none => exact Iff.rfl
      | some target => exact switching target
  | clearRoom targetRoom =>
      cases targetRoom with
      | none => exact Iff.rfl
      | some target => exact switching target
  | replyLeave targetRoom =>
      cases targetRoom with
      | none => exact Iff.rfl
      | some target => exact switching target
  | noticeLeft targetRoom =>
      cases targetRoom with
      | none => exact Iff.rfl
      | some target => exact switching target
  | pushEnter targetRoom => exact switching targetRoom
  | _ => cases removed

/-- A job goes on on its way out. -/
theorem speaks_removed {room : RoomView} {next : JobPhase}
    (outside : room.member = false) (chats : ChatsInside false room.jobs)
    (removed : next.Removed) : (room.run (some next)).Speaks where
  chats := by
    change ChatsInside room.member (next.pending ++ room.jobs)
    rw [outside]
    exact (chatsInside_removed removed room.jobs).mpr chats
  inserted := by
    intro same
    cases same
    cases removed
  removed := fun _ _ _ => outside

/-- A job that has nothing to do with `_members` any more. -/
theorem speaks_idle {room : RoomView} {next : Option JobPhase}
    (chats : ChatsInside room.member room.jobs)
    (noPending : next.elim [] JobPhase.pending = [])
    (notSetRoom : next ≠ some .setRoom)
    (notRemoved : ∀ phase, next = some phase → ¬phase.Removed) :
    (room.run next).Speaks where
  chats := by
    change ChatsInside room.member
      (next.elim [] JobPhase.pending ++ room.jobs)
    rw [noPending]
    exact chats
  inserted := fun same => absurd same notSetRoom
  removed := fun phase same isRemoved =>
    absurd isRemoved (notRemoved phase same)

theorem chats_of_removed {room : RoomView} {phase : JobPhase}
    (speaks : room.Speaks) (running : room.running = some phase)
    (removed : phase.Removed) :
    room.member = false ∧ ChatsInside false room.jobs := by
  have outside := speaks.removed phase running removed
  have chats := chats_running speaks running
  rw [outside] at chats
  exact ⟨outside, (chatsInside_removed removed room.jobs).mp chats⟩

theorem Speaks.setRoom {view : SessionView} (speaks : view.Speaks)
    (room : Option RoomId) : (view.setRoom room).Speaks :=
  speaks

/-- Sending changes nothing for the chats in the line. -/
theorem speaks_quiet {room : RoomView} {phase : JobPhase}
    {next : Option JobPhase} (speaks : room.Speaks)
    (running : room.running = some phase)
    (quiet : quietNext phase = some next) : (room.run next).Speaks := by
  have chats := chats_running speaks running
  cases phase with
  | replyEnter =>
      cases quiet
      exact speaks_idle chats rfl nofun (by rintro _ ⟨⟩ ⟨⟩)
  | noticeJoined =>
      cases quiet
      exact speaks_idle chats rfl nofun nofun
  | broadcastChat message =>
      cases quiet
      exact speaks_idle chats.2 rfl nofun nofun
  | replyLeave targetRoom =>
      cases quiet
      obtain ⟨outside, later⟩ := chats_of_removed speaks running trivial
      exact speaks_removed outside later trivial
  | noticeLeft targetRoom =>
      cases quiet
      obtain ⟨outside, later⟩ := chats_of_removed speaks running trivial
      cases targetRoom with
      | none =>
          refine speaks_idle ?_ rfl nofun nofun
          rw [outside]
          exact later
      | some target => exact speaks_removed outside later trivial
  | _ => cases quiet

theorem disconnect_speaks {view next : SessionView} (speaks : view.Speaks)
    (stepped : view.Step .disconnect next) : next.Speaks := by
  cases stepped with
  | disconnect => exact speaks
  | disconnectOutside => exact speaks

theorem step_speaks {view next : SessionView} (speaks : view.Speaks)
    (stepped : view.JobStep next) : next.Speaks := by
  obtain ⟨step, handler⟩ := stepped
  cases step with
  | elsewhere => exact speaks
  | request idle =>
      rw [idle] at handler
      cases handler
  | push pushes =>
      rw [pushes] at handler
      cases handler
  | pushLeave pushes => exact speaks.pushJob (by simp)
  | forgetRoom forgets => exact speaks
  | @start room job rest free queued =>
      apply speaks.update
      have line : (view.rooms room).line = job :: rest := by
        rw [RoomView.line, free, queued]
        rfl
      have chats := (speaks room).chats
      rw [line] at chats
      exact
        { chats := by
            change ChatsInside _ (job.firstPhase.pending ++ rest)
            rw [JobPhase.pending_firstPhase]
            exact chats
          inserted := by cases job <;> rintro ⟨⟩
          removed := by
            intro phase same isRemoved
            cases same
            cases job <;> cases isRemoved }
  | @insertMember room running =>
      apply speaks.update
      have chats := chats_running (speaks room) running
      exact
        { chats := ⟨(by simp), chats.2⟩
          inserted := fun _ => rfl
          removed := by
            intro phase same isRemoved
            cases same
            cases isRemoved }
  | @setRoom room running =>
      apply (speaks.setRoom (some room)).update
      have chats := chats_running (speaks room) running
      have inside := (speaks room).inserted running
      refine speaks_idle ?_ rfl (by simp) (by rintro _ ⟨⟩ ⟨⟩)
      change ChatsInside (view.rooms room).member _
      rw [inside]
      exact chats.2
  | @eraseMember room targetRoom running =>
      apply speaks.update
      have chats := chats_running (speaks room) running
      have later : ChatsInside false (view.rooms room).jobs := by
        cases targetRoom with
        | none => exact chats.2
        | some target => exact chats.2
      exact speaks_removed rfl later trivial
  | @readHere room targetRoom running here =>
      obtain ⟨outside, later⟩ := chats_of_removed (speaks room) running trivial
      exact speaks.update (speaks_removed outside later trivial)
  | @readElsewhere room targetRoom running elsewhere =>
      obtain ⟨outside, later⟩ := chats_of_removed (speaks room) running trivial
      exact speaks.update (speaks_removed outside later trivial)
  | @clearRoom room targetRoom running =>
      obtain ⟨outside, later⟩ := chats_of_removed (speaks room) running trivial
      exact (speaks.setRoom none).update
        (speaks_removed outside later trivial)
  | quiet running quiet =>
      exact speaks.update (speaks_quiet (speaks _) running quiet)
  | @pushEnter room targetRoom running =>
      obtain ⟨outside, later⟩ := chats_of_removed (speaks room) running trivial
      have done : (view.run room none).Speaks := by
        apply speaks.update
        refine speaks_idle ?_ rfl (by simp) (by simp)
        rw [outside]
        exact later
      exact done.pushJob (by simp)

end SessionView

namespace ChatServer

variable {Session : Type} [DecidableEq Session]

/-- Whoever speaks in a room at this moment is a member of it. -/
def OnlyMembersSpeak (state : ChatServer Session) : Prop :=
  ∀ room session message,
    (state.rooms room).running = some (session, .broadcastChat message) →
    session ∈ (state.rooms room).members

/-- A chat is pushed only to a room that will have the session as a member when
it has done the jobs it has now. -/
def ChatsAsMember (state : ChatServer Session) :
    ChatAction Session → Prop
  | .handle session =>
      ∀ room message,
        (state.sessions session).handler =
          some (.push room (.handleChat message)) →
        settle ((state.rooms room).view session).member
          ((state.rooms room).view session).line = true
  | _ => True

theorem receive_speaks {view : SessionView} (speaks : view.Speaks)
    (packet : Protocol.Packet) : (view.receive packet).Speaks := by
  have requested : ∀ job, (view.request job).Speaks := by
    intro job
    unfold SessionView.request
    split <;> exact speaks
  obtain ⟨id, fields⟩ := packet
  cases id with
  | cLeaveRoom => exact requested _
  | cRoomChat => exact requested _
  | _ => exact speaks

theorem advance_speaks {view : SessionView} {phase : HandlerPhase}
    (speaks : view.Speaks)
    (inside : ∀ room message, phase = .push room (.handleChat message) →
      settle (view.rooms room).member (view.rooms room).line = true) :
    (view.advance phase).Speaks := by
  cases phase with
  | push room job =>
      have pushed : (view.pushJob room job).Speaks := by
        apply speaks.pushJob
        rintro message rfl
        exact inside room message rfl
      exact pushed
  | readRoom targetRoom =>
      simp only [SessionView.advance]
      cases view.room with
      | none => exact speaks
      | some oldRoom =>
          by_cases same : oldRoom = targetRoom
          · simp only [same, if_true]
            exact speaks
          · simp only [same, if_false]
            exact speaks

theorem reaches_speaks {state : ChatServer Session}
    (reached : (machine Session).Reaches ChatsAsMember state) :
    ∀ session, (state.view session).Speaks := by
  apply Machine.Reaches.invariant _ _ reached
  · intro state initially session room
    obtain rfl : state = initial := initially
    rw [initial_view_rooms]
    exact
      { chats := trivial
        inserted := nofun
        removed := nofun }
  · intro state action next speaks inside stepped session
    cases step_seen stepped session with
    | packet idle seen =>
        rw [seen]
        exact receive_speaks (speaks session) _
    | handle running seen =>
        rw [seen]
        refine advance_speaks (speaks session) ?_
        rintro room message rfl
        exact inside room message running
    | disconnect viewed =>
        exact SessionView.disconnect_speaks (speaks session) viewed
    | job _ viewed => exact SessionView.step_speaks (speaks session) viewed

/-- In every run in which chats are pushed to rooms that will have the speaker
as a member, only members speak. -/
theorem reaches_onlyMembersSpeak {state : ChatServer Session}
    (reached : (machine Session).Reaches ChatsAsMember state) :
    state.OnlyMembersSpeak := by
  intro room session message running
  have viewed : ((state.view session).rooms room).running =
      some (.broadcastChat message) := by
    change runningFor session (state.rooms room).running = _
    rw [running, runningFor_self]
  have chats := SessionView.chats_running
    (reaches_speaks reached session room) viewed
  have inside := chats.1 message rfl
  exact of_decide_eq_true inside

/-- Only the pushing of a chat is restricted. -/
theorem chatsAsMember_of_handler {state : ChatServer Session}
    {session : Session} {handler : Option HandlerPhase}
    (at_ : (state.sessions session).handler = handler)
    (noChat : ∀ room message,
      handler ≠ some (.push room (.handleChat message))) :
    ChatsAsMember state (.handle session) := by
  intro room message pushes
  rw [at_] at pushes
  exact absurd pushes (noChat room message)

/-- A client that has entered room 1 speaks there. -/
theorem chatInRoom_onlyMembersSpeak :
    ∃ state, (machine Unit).Reaches ChatsAsMember state ∧
      (state.rooms 1).running = some ((), .broadcastChat (literal "hello")) ∧
      state.OnlyMembersSpeak := by
  let requested : ChatServer Unit :=
    (initial : ChatServer Unit).setHandler () (some (.readRoom 1))
  let pushing := requested.setHandler () (some (.push 1 .enter))
  have requestedReached : (machine Unit).Reaches ChatsAsMember requested := by
    have stepped : (machine Unit).step initial (.packet ()
        ⟨.cEnterRoom, { roomId := 1, roomName := [] }⟩ 0) = some requested :=
      rfl
    refine .step (.start rfl) ?_ stepped
    trivial
  have pushingReached : (machine Unit).Reaches ChatsAsMember pushing := by
    have stepped : (machine Unit).step requested (.handle ()) = some pushing :=
      rfl
    refine .step requestedReached ?_ stepped
    exact chatsAsMember_of_handler rfl nofun
  have entryMeets : (machine Unit).RunMeets ChatsAsMember pushing oneEntry := by
    refine ⟨chatsAsMember_of_handler rfl nofun, fun next _ => ?_⟩
    apply Machine.RunMeets.of_forall
    intro action member state
    simp only [List.mem_cons, List.not_mem_nil, or_false] at member
    rcases member with rfl | rfl | rfl | rfl | rfl <;> trivial
  let entered := ((machine Unit).run pushing oneEntry).get rfl
  have enteredReached : (machine Unit).Reaches ChatsAsMember entered :=
    Machine.Reaches.of_run pushingReached entryMeets (Option.some_get _).symm
  let chatting := entered.setHandler ()
    (some (.push 1 (.handleChat (literal "hello"))))
  have chattingReached : (machine Unit).Reaches ChatsAsMember chatting := by
    have stepped : (machine Unit).step entered (.packet ()
        ⟨.cRoomChat, { message := literal "hello" }⟩ 0) = some chatting := rfl
    refine .step enteredReached ?_ stepped
    trivial
  have inside : ChatsAsMember chatting (.handle ()) := by
    intro room message pushes
    cases pushes
    rfl
  let pushed :=
    (chatting.pushJob 1 () (.handleChat (literal "hello"))).setHandler () none
  have pushedReached : (machine Unit).Reaches ChatsAsMember pushed := by
    have stepped : (machine Unit).step chatting (.handle ()) = some pushed :=
      rfl
    exact .step chattingReached inside stepped
  let speaking := ((machine Unit).step pushed (.start 1)).get rfl
  have speakingReached : (machine Unit).Reaches ChatsAsMember speaking := by
    have stepped : (machine Unit).step pushed (.start 1) = some speaking :=
      (Option.some_get _).symm
    refine .step pushedReached ?_ stepped
    trivial
  exact ⟨speaking, speakingReached, rfl,
    reaches_onlyMembersSpeak speakingReached⟩

/-- A client in room 1 leaves it and speaks before the leaving has run. -/
def chatAfterLeave : List (ChatAction Unit) :=
  [.packet () ⟨.cEnterRoom, { roomId := 1, roomName := [] }⟩ 0,
    .handle (),
    .handle (),
    .start 1,
    .execute 1,
    .execute 1,
    .execute 1,
    .execute 1,
    .packet () ⟨.cLeaveRoom, {}⟩ 0,
    .handle (),
    .packet () ⟨.cRoomChat, { message := literal "hello" }⟩ 0,
    .handle (),
    .start 1,
    .execute 1,
    .execute 1,
    .execute 1,
    .execute 1,
    .execute 1,
    .start 1]

theorem chatAfterLeave_outside :
    ∃ state, (machine Unit).Reachable state ∧
      (state.rooms 1).running = some ((), .broadcastChat (literal "hello")) ∧
      (state.rooms 1).members = [] ∧ ¬state.OnlyMembersSpeak := by
  obtain ⟨state, replayed⟩ :
      ∃ state, (machine Unit).run initial chatAfterLeave = some state :=
    Option.isSome_iff_exists.mp rfl
  have facts : ((machine Unit).run initial chatAfterLeave).map (fun state =>
      ((state.rooms 1).running, (state.rooms 1).members)) =
      some (some ((), .broadcastChat (literal "hello")), []) := rfl
  rw [replayed] at facts
  simp only [Option.map_some, Option.some.injEq, Prod.mk.injEq] at facts
  obtain ⟨running, empty⟩ := facts
  refine ⟨state, .of_run (.start rfl) replayed, running, empty, ?_⟩
  intro inside
  have member := inside 1 () _ running
  rw [empty] at member
  cases member

end ChatServer

end IocpChat
