import IocpChat.ChatServer.RoomBroadcast
import IocpChat.Job.ActorGuarantee
import IocpChat.Lib.KeyOrder
import IocpChat.Network.SendStream

/-!
# Broadcasts arrive in the order of the room

One worker at a time executes a room, so a broadcast has been offered to all its
members before the next one begins.  The numbers of a room's broadcasts
therefore increase along the buffers that a session has accepted, and the
session's outgoing stream is a front of those.
-/

namespace IocpChat

open KeyOrder TransitionSystem

/-- The number of the entry, if it is a broadcast of the room. -/
def LogEntry.number (room : RoomId) (entry : LogEntry) : Option Nat :=
  match entry.source with
  | some (other, number) => if other = room then some number else none
  | none => none

theorem LogEntry.number_eq_some_iff {room : RoomId} {entry : LogEntry}
    {number : Nat} :
    entry.number room = some number ↔ entry.source = some (room, number) := by
  unfold LogEntry.number
  cases entry.source with
  | none => simp
  | some source =>
      obtain ⟨other, own⟩ := source
      by_cases same : other = room <;> simp [same]

theorem LogEntry.number_eq_none {room other : RoomId} {entry : LogEntry}
    {number : Nat} (source : entry.source = some (other, number))
    (different : other ≠ room) : entry.number room = none := by
  simp only [LogEntry.number, source, if_neg different]

namespace RoomSystem

variable {Thread Session : Type}

/-- The numbers of the room's broadcasts that the session has accepted. -/
def numbers (state : RoomSystem Thread Session) (session : Session)
    (room : RoomId) : List Nat :=
  (state.log session).filterMap (LogEntry.number room)

/-- A broadcast is delivered to each target once, and it is the latest of its
room. -/
structure Numbered (state : RoomSystem Thread Session) (thread : Thread)
    (room : RoomId) (delivery : Delivery Session) (number : Nat) : Prop where
  newest : number + 1 = (state.broadcasts room).length
  sendBuffer : (state.broadcasts room)[number]? = some delivery.sendBuffer
  distinct : delivery.targets.Nodup
  targetOnce : ∀ session, delivery.target = some session →
    session ∉ delivery.targets
  waiting : ∀ session ∈ delivery.targets,
    ∀ other ∈ state.numbers session room, other < number
  calling : ∀ session call, delivery.target = some session →
    ((state.sends session).pcs thread).pending = some call →
    call = .single delivery.sendBuffer ∧
      ∀ other ∈ state.numbers session room, other < number

/-- A thread delivers inside a job, and calls nothing else meanwhile. -/
structure Delivering (state : RoomSystem Thread Session) (thread : Thread)
    (delivery : Delivery Session) : Prop where
  noCall : state.queues.calls thread = none
  inJob : ∃ room executeList executedCount,
    state.queues.executes thread =
      some (room, .job executeList executedCount) ∧
    ∀ number, delivery.number = some number →
      Numbered state thread room delivery number

theorem Numbered.frame {state next : RoomSystem Thread Session}
    {thread : Thread} {room : RoomId} {delivery : Delivery Session}
    {number : Nat} (numbered : Numbered state thread room delivery number)
    (broadcasts : next.broadcasts room = state.broadcasts room)
    (targets : ∀ session ∈ delivery.targets,
      next.numbers session room = state.numbers session room)
    (target : ∀ session call, delivery.target = some session →
      ((next.sends session).pcs thread).pending = some call →
      ((state.sends session).pcs thread).pending = some call ∧
        next.numbers session room = state.numbers session room) :
    Numbered next thread room delivery number where
  newest := by
    rw [broadcasts]
    exact numbered.newest
  sendBuffer := by
    rw [broadcasts]
    exact numbered.sendBuffer
  distinct := numbered.distinct
  targetOnce := numbered.targetOnce
  waiting := by
    intro session member
    rw [targets session member]
    exact numbered.waiting session member
  calling := by
    intro session call towards pending
    obtain ⟨before, same⟩ := target session call towards pending
    rw [same]
    exact numbered.calling session call towards before

theorem Delivering.frame {state next : RoomSystem Thread Session}
    {thread : Thread} {delivery : Delivery Session}
    (delivering : Delivering state thread delivery)
    (calls : next.queues.calls thread = state.queues.calls thread)
    (executes : next.queues.executes thread = state.queues.executes thread)
    (numbered : ∀ room executeList executedCount number,
      state.queues.executes thread =
        some (room, .job executeList executedCount) →
      Numbered state thread room delivery number →
      Numbered next thread room delivery number) :
    Delivering next thread delivery where
  noCall := calls.trans delivering.noCall
  inJob := by
    obtain ⟨room, executeList, executedCount, at_, before⟩ := delivering.inJob
    refine ⟨room, executeList, executedCount, executes.trans at_, ?_⟩
    intro number same
    exact numbered room executeList executedCount number at_
      (before number same)

/-- The `Send` of a delivery returns. -/
theorem Delivering.returned {state : RoomSystem Thread Session}
    {thread : Thread} {delivery : Delivery Session}
    (delivering : Delivering state thread delivery) :
    Delivering state thread { delivery with target := none } where
  noCall := delivering.noCall
  inJob := by
    obtain ⟨room, executeList, executedCount, at_, before⟩ := delivering.inJob
    refine ⟨room, executeList, executedCount, at_, fun number same => ?_⟩
    exact
      { before number same with
        targetOnce := nofun
        calling := nofun }

variable [DecidableEq Thread]

/-- `WSASend` accepts what it is given. -/
def RequestsAccepted (state : RoomSystem Thread Session) :
    RoomAction Thread Session → Prop
  | .send session thread result =>
      (state.sends session).RequestAccepted (.advance thread result)
  | _ => True

structure Inv (state : RoomSystem Thread Session) : Prop where
  queues : (JobSystem.machine Thread RoomId (Session × RoomJob)).Reaches
    JobSystem.PushesOnly state.queues
  flowing : ∀ session, (state.sends session).Flowing
  log : ∀ session, (state.log session).map LogEntry.sendBuffer =
    (state.sends session).accepted
  content : ∀ session, ∀ entry ∈ state.log session, ∀ room number,
    entry.source = some (room, number) →
    (state.broadcasts room)[number]? = some entry.sendBuffer
  members : ∀ room, (state.members room).Nodup
  delivering : ∀ thread delivery, state.deliveries thread = some delivery →
    Delivering state thread delivery
  increasing : ∀ session room,
    Increasing (LogEntry.number room) (state.log session)

/-- Two threads that deliver do so for different rooms. -/
theorem Inv.differentRooms {state : RoomSystem Thread Session}
    (inv : Inv state) {thread other : Thread} {room otherRoom : RoomId}
    {phase otherPhase : ExecutePhase (Session × RoomJob)}
    (different : other ≠ thread)
    (executes : state.queues.executes thread = some (room, phase))
    (otherExecutes :
      state.queues.executes other = some (otherRoom, otherPhase)) :
    otherRoom ≠ room := by
  rintro rfl
  exact different (JobSystem.reaches_exclusive inv.queues
    ⟨otherPhase, otherExecutes⟩ ⟨phase, executes⟩)

/-- The numbers that a session has are those of broadcasts there have been. -/
theorem Inv.number_lt {state : RoomSystem Thread Session} (inv : Inv state)
    {session : Session} {room : RoomId} {number : Nat}
    (member : number ∈ state.numbers session room) :
    number < (state.broadcasts room).length := by
  obtain ⟨entry, logged, keyed⟩ := List.mem_filterMap.mp member
  have found := inv.content session entry logged room number
    (LogEntry.number_eq_some_iff.mp keyed)
  exact (List.getElem?_eq_some_iff.mp found).1

theorem initial_inv : Inv (initial : RoomSystem Thread Session) where
  queues := .start rfl
  flowing := fun _ => Or.inl ⟨.free, SessionSend.initial_inv, nofun⟩
  log := fun _ => rfl
  content := fun _ _ member => absurd member List.not_mem_nil
  members := fun _ => List.nodup_nil
  delivering := nofun
  increasing := fun _ _ => List.Pairwise.nil

/-- A thread that delivers nothing moves in the queues. -/
theorem onQueues_inv {state next : RoomSystem Thread Session}
    {action : JobAction Thread RoomId (Session × RoomJob)} (inv : Inv state)
    (pushes : JobSystem.PushesOnly state.queues action)
    (free : state.deliveries (JobSystem.mover action) = none)
    (stepped : state.onQueues action = some next) : Inv next := by
  obtain ⟨queues, moved, rfl⟩ := Option.map_eq_some_iff.mp stepped
  exact
    { inv with
      queues := .step inv.queues pushes moved
      delivering := by
        intro thread delivery delivers
        have different : thread ≠ JobSystem.mover action := by
          rintro rfl
          have nothing : state.deliveries _ = some delivery := delivers
          rw [free] at nothing
          cases nothing
        obtain ⟨calls, executes⟩ := JobSystem.step_other different moved
        have before := inv.delivering thread delivery delivers
        exact before.frame calls executes fun _ _ _ _ _ numbered =>
          { numbered with } }

theorem Inv.setStatements {state : RoomSystem Thread Session}
    (inv : Inv state) (thread : Thread)
    (statements : List (RoomStatement Session)) :
    Inv (state.setStatements thread statements) :=
  { inv with
    delivering := by
      intro other delivery delivers
      have before := inv.delivering other delivery delivers
      exact before.frame rfl rfl fun _ _ _ _ _ numbered =>
        { numbered with } }

/-- A worker that delivers is not in the code of its queue. -/
theorem advanceQueues_inv {state next : RoomSystem Thread Session}
    {thread : Thread} (inv : Inv state)
    (stepped : state.advanceQueues thread = some next) : Inv next := by
  have pushes : JobSystem.PushesOnly state.queues (.advance thread) := trivial
  have noDelivery : (∀ room executeList executedCount,
        state.queues.calls thread = none →
        state.queues.executes thread ≠
          some (room, .job executeList executedCount)) →
      state.deliveries thread = none := by
    intro outside
    by_contra some_
    obtain ⟨delivery, delivers⟩ := Option.ne_none_iff_exists'.mp some_
    have delivering := inv.delivering thread delivery delivers
    obtain ⟨room, executeList, executedCount, at_, _⟩ := delivering.inJob
    exact outside _ _ _ delivering.noCall at_
  unfold advanceQueues at stepped
  split at stepped
  · split at stepped
    · rename_i done
      exact onQueues_inv inv pushes (finished_iff.mp done).2 stepped
    · cases stepped
  · rename_i noCall at_
    obtain ⟨shared, moved, rfl⟩ := Option.map_eq_some_iff.mp stepped
    have free : state.deliveries thread = none := by
      apply noDelivery
      intro room executeList executedCount _ inJob
      rw [at_] at inJob
      cases inJob
    exact (onQueues_inv inv pushes free moved).setStatements thread _
  · rename_i notInJob notLoop
    have free : state.deliveries thread = none := by
      apply noDelivery
      intro room executeList executedCount noCall inJob
      exact notInJob room executeList executedCount noCall inJob
    exact onQueues_inv inv pushes free stepped

theorem Inv.setMembers {state : RoomSystem Thread Session} (inv : Inv state)
    (room : RoomId) {members : List Session} (distinct : members.Nodup) :
    Inv (state.setMembers room members) :=
  { inv with
    members := by
      intro other
      by_cases same : other = room
      · subst same
        rw [setMembers_self]
        exact distinct
      · rw [setMembers_other state same]
        exact inv.members other
    delivering := by
      intro other delivery delivers
      have before := inv.delivering other delivery delivers
      exact before.frame rfl rfl fun _ _ _ _ _ numbered =>
        { numbered with } }

/-- A thread has a new delivery, or none. -/
theorem Inv.setDelivery {state : RoomSystem Thread Session} (inv : Inv state)
    {thread : Thread} {delivery : Option (Delivery Session)}
    (delivering : ∀ new, delivery = some new →
      Delivering state thread new) :
    Inv (state.setDelivery thread delivery) :=
  { inv with
    delivering := by
      intro other found delivers
      have before : Delivering state other found := by
        by_cases own : other = thread
        · subst own
          rw [setDelivery_self] at delivers
          exact delivering found delivers
        · rw [setDelivery_other state own] at delivers
          exact inv.delivering other found delivers
      exact before.frame rfl rfl fun _ _ _ _ _ numbered =>
        { numbered with } }

/-- A new broadcast begins when no other one of the room is on its way. -/
theorem Inv.addBroadcast {state : RoomSystem Thread Session} (inv : Inv state)
    {room : RoomId} {sendBuffer : SendBufferRef}
    (free : ∀ thread delivery executeList executedCount,
      state.deliveries thread = some delivery →
      state.queues.executes thread ≠
        some (room, .job executeList executedCount)) :
    Inv (state.addBroadcast room sendBuffer) :=
  { inv with
    content := by
      intro session entry logged other number source
      have found := inv.content session entry logged other number source
      by_cases same : other = room
      · subst same
        rw [addBroadcast_self]
        have inside := (List.getElem?_eq_some_iff.mp found).1
        rw [List.getElem?_append_left inside]
        exact found
      · rw [addBroadcast_other state same]
        exact found
    delivering := by
      intro thread delivery delivers
      have before := inv.delivering thread delivery delivers
      refine before.frame rfl rfl ?_
      intro other executeList executedCount number at_ numbered
      have different : other ≠ room := by
        rintro rfl
        exact free thread delivery executeList executedCount delivers at_
      exact numbered.frame (addBroadcast_other state different _)
        (fun _ _ => rfl) fun _ _ _ pending => ⟨pending, rfl⟩ }

variable [DecidableEq Session]

/-- The next statement of a job. -/
theorem run_inv {state next : RoomSystem Thread Session} {thread : Thread}
    {sendBuffer : SendBufferRef} (inv : Inv state)
    (stepped : state.run thread sendBuffer = some next) : Inv next := by
  unfold run at stepped
  split at stepped
  · cases stepped
  · rename_i quiet
    obtain ⟨noCall, noDelivery⟩ := not_or.mp quiet
    have noCall := Option.not_isSome_iff_eq_none.mp noCall
    have noDelivery := Option.not_isSome_iff_eq_none.mp noDelivery
    split at stepped
    · rename_i room executeList executedCount statement rest at_ _
      have moved := inv.setStatements thread rest
      cases statement with
      | insertMember session =>
          simp only [runStatement] at stepped
          cases stepped
          apply moved.setMembers
          split
          · exact inv.members room
          · rename_i new
            apply (List.nodup_append_comm).mpr
            exact List.nodup_cons.mpr ⟨new, inv.members room⟩
      | eraseMember session =>
          cases stepped
          exact moved.setMembers room ((inv.members room).filter _)
      | send session =>
          cases stepped
          apply moved.setDelivery
          rintro new ⟨⟩
          exact
            { noCall := noCall
              inJob := ⟨room, executeList, executedCount, at_, nofun⟩ }
      | broadcast =>
          cases stepped
          have free : ∀ other delivery otherList otherCount,
              state.deliveries other = some delivery →
              state.queues.executes other ≠
                some (room, .job otherList otherCount) := by
            intro other delivery otherList otherCount delivers otherAt
            have different : other ≠ thread := by
              rintro rfl
              rw [noDelivery] at delivers
              cases delivers
            exact inv.differentRooms different at_ otherAt rfl
          apply (moved.addBroadcast free).setDelivery
          rintro new ⟨⟩
          refine
            { noCall := noCall
              inJob := ⟨room, executeList, executedCount, at_, ?_⟩ }
          rintro number ⟨⟩
          have broadcasts : ((state.setStatements thread rest).addBroadcast
              room sendBuffer).broadcasts room =
                state.broadcasts room ++ [sendBuffer] :=
            addBroadcast_self ..
          exact
            { newest := by
                rw [broadcasts, List.length_append]
                rfl
              sendBuffer := by
                rw [broadcasts]
                exact List.getElem?_concat_length
              distinct := inv.members room
              targetOnce := nofun
              waiting := fun session _ other member => inv.number_lt member
              calling := nofun }
      | pushEnter targetRoom session =>
          have pushes : JobSystem.PushesOnly state.queues
              (.push thread targetRoom (session, .enter) false) := rfl
          exact onQueues_inv moved pushes noDelivery stepped
    · cases stepped

/-- A step of a session that accepts no buffer. -/
theorem Inv.setSend {state : RoomSystem Thread Session} (inv : Inv state)
    {session : Session} {next : SessionSend Thread}
    (flowing : next.Flowing)
    (accepted : next.accepted = (state.sends session).accepted)
    (pending : ∀ thread delivery call,
      state.deliveries thread = some delivery →
      delivery.target = some session →
      (next.pcs thread).pending = some call →
      ((state.sends session).pcs thread).pending = some call) :
    Inv (state.setSend session next) :=
  { inv with
    flowing := by
      intro other
      by_cases same : other = session
      · subst same
        rw [setSend_self]
        exact flowing
      · rw [setSend_other state same]
        exact inv.flowing other
    log := by
      intro other
      by_cases same : other = session
      · subst same
        rw [setSend_self, accepted]
        exact inv.log other
      · rw [setSend_other state same]
        exact inv.log other
    delivering := by
      intro thread delivery delivers
      have before := inv.delivering thread delivery delivers
      refine before.frame rfl rfl fun room _ _ number at_ numbered => ?_
      refine numbered.frame rfl (fun _ _ => rfl) ?_
      intro other call towards called
      refine ⟨?_, rfl⟩
      by_cases same : other = session
      · subst same
        rw [setSend_self] at called
        exact pending thread delivery call delivers towards called
      · rw [setSend_other state same] at called
        exact called }

/-- What other threads do to a session apart from `Send`'s own steps. -/
theorem onSession_inv {state next : RoomSystem Thread Session}
    {session : Session} {action : SendAction Thread} (inv : Inv state)
    (outside : ∀ thread result, action ≠ .advance thread result)
    (free : ∀ thread call, action = .call thread call →
      state.deliveries thread = none)
    (stepped : state.onSession session action = some next) : Inv next := by
  obtain ⟨send, moved, rfl⟩ := Option.map_eq_some_iff.mp stepped
  have accepted : (state.sends session).RequestAccepted action := by
    cases action with
    | advance thread result => exact absurd rfl (outside thread result)
    | _ => trivial
  have flowing :=
    SessionSend.step_flowing (inv.flowing session) accepted moved
  cases action with
  | advance thread result => exact absurd rfl (outside thread result)
  | call thread call =>
      have noDelivery := free thread call rfl
      simp only [SessionSend.step] at moved
      split at moved <;> cases moved
      refine inv.setSend flowing rfl ?_
      intro other delivery pending delivers _ called
      have different : other ≠ thread := by
        rintro rfl
        rw [noDelivery] at delivers
        cases delivers
      rw [SessionSend.goto_pcs_other different] at called
      exact called
  | disconnect =>
      cases moved
      exact inv.setSend flowing rfl fun _ _ _ _ _ => id
  | complete thread index numOfBytes =>
      simp only [SessionSend.step, SessionSend.complete] at moved
      repeat' split at moved
      all_goals cases moved
      · exact inv.setSend flowing rfl fun _ _ _ _ _ => id
      · refine inv.setSend flowing rfl ?_
        intro other delivery pending _ _ called
        by_cases own : other = thread
        · subst own
          rw [SessionSend.goto_pcs_self] at called
          cases called
        · rw [SessionSend.goto_pcs_other own] at called
          exact called

/-- `Broadcast` calls `Send` for the next member. -/
theorem deliverNext_inv {state next : RoomSystem Thread Session}
    {thread : Thread} {delivery : Delivery Session} {session : Session}
    {rest : List Session} (inv : Inv state)
    (delivers : state.deliveries thread = some delivery)
    (noTarget : delivery.target = none)
    (targets : delivery.targets = session :: rest)
    (stepped : state.onSession session
      (.call thread (.single delivery.sendBuffer)) = some next) :
    Inv (next.setDelivery thread
      (some
        { delivery with
          target := some session
          targets := rest })) := by
  obtain ⟨send, moved, rfl⟩ := Option.map_eq_some_iff.mp stepped
  have accepted : (state.sends session).RequestAccepted
      (.call thread (.single delivery.sendBuffer)) := trivial
  have flowing :=
    SessionSend.step_flowing (inv.flowing session) accepted moved
  simp only [SessionSend.step] at moved
  split at moved <;> cases moved
  have called : Inv (state.setSend session ((state.sends session).goto thread
      (.send (.single delivery.sendBuffer)))) := by
    refine inv.setSend flowing rfl ?_
    intro other otherDelivery call otherDelivers towards pending
    have different : other ≠ thread := by
      rintro rfl
      rw [delivers] at otherDelivers
      cases otherDelivers
      rw [noTarget] at towards
      cases towards
    rw [SessionSend.goto_pcs_other different] at pending
    exact pending
  apply called.setDelivery
  rintro new ⟨⟩
  have delivering := inv.delivering thread delivery delivers
  obtain ⟨room, executeList, executedCount, at_, before⟩ := delivering.inJob
  refine
    { noCall := delivering.noCall
      inJob := ⟨room, executeList, executedCount, at_, ?_⟩ }
  intro number same
  have numbered := before number same
  have distinct := numbered.distinct
  have waiting := numbered.waiting
  rw [targets] at distinct waiting
  obtain ⟨once, distinctRest⟩ := List.nodup_cons.mp distinct
  exact
    { newest := numbered.newest
      sendBuffer := numbered.sendBuffer
      distinct := distinctRest
      targetOnce := by
        rintro other ⟨⟩
        exact once
      waiting := fun other member =>
        waiting other (List.mem_cons_of_mem _ member)
      calling := by
        rintro other call ⟨⟩ pending
        rw [setSend_self, SessionSend.goto_pcs_self] at pending
        cases pending
        exact ⟨rfl, waiting session (List.mem_cons_self ..)⟩ }

/-- A step of the thread in `Send` or in the loop of `Broadcast`. -/
theorem deliver_inv {state next : RoomSystem Thread Session}
    {thread : Thread} (inv : Inv state)
    (stepped : state.deliver thread = some next) : Inv next := by
  unfold deliver at stepped
  split at stepped
  · cases stepped
  · rename_i delivery delivers
    have delivering := inv.delivering thread delivery delivers
    split at stepped
    · split at stepped
      · cases stepped
        apply inv.setDelivery
        rintro new ⟨⟩
        exact delivering.returned
      · cases stepped
    · cases stepped
      exact inv.setDelivery nofun
    · rename_i session rest noTarget targets
      obtain ⟨shared, called, rfl⟩ := Option.map_eq_some_iff.mp stepped
      exact deliverNext_inv inv delivers noTarget targets called

/-- A session accepts buffers. -/
def accept (state : RoomSystem Thread Session) (session : Session)
    (send : SessionSend Thread) (entries : List LogEntry) :
    RoomSystem Thread Session :=
  (state.setSend session send).addLog session entries

omit [DecidableEq Thread] in
theorem numbers_accept_other {state : RoomSystem Thread Session}
    {session other : Session} {send : SessionSend Thread}
    {entries : List LogEntry} (different : other ≠ session) (room : RoomId) :
    (state.accept session send entries).numbers other room =
      state.numbers other room :=
  congrArg (List.filterMap _) (addLog_other _ different entries)

omit [DecidableEq Thread] in
theorem numbers_accept_keyless {state : RoomSystem Thread Session}
    {session : Session} {send : SessionSend Thread}
    {entries : List LogEntry} {room : RoomId}
    (keyless : ∀ entry ∈ entries, entry.number room = none)
    (other : Session) :
    (state.accept session send entries).numbers other room =
      state.numbers other room := by
  by_cases same : other = session
  · subst same
    rw [numbers, accept, addLog_self]
    exact filterMap_append_keyless keyless
  · exact numbers_accept_other same room

theorem Inv.accept {state : RoomSystem Thread Session} (inv : Inv state)
    {session : Session} {send : SessionSend Thread}
    {entries : List LogEntry} (flowing : send.Flowing)
    (accepted : send.accepted = (state.sends session).accepted ++
      entries.map LogEntry.sendBuffer)
    (content : ∀ entry ∈ entries, ∀ room number,
      entry.source = some (room, number) →
      (state.broadcasts room)[number]? = some entry.sendBuffer)
    (increasing : ∀ room, Increasing (LogEntry.number room)
      (state.log session ++ entries))
    (delivering : ∀ thread delivery,
      state.deliveries thread = some delivery →
      Delivering (state.accept session send entries) thread delivery) :
    Inv (state.accept session send entries) where
  queues := inv.queues
  flowing := by
    intro other
    change ((state.setSend session send).sends other).Flowing
    by_cases same : other = session
    · subst same
      rw [setSend_self]
      exact flowing
    · rw [setSend_other state same]
      exact inv.flowing other
  log := by
    intro other
    change _ = ((state.setSend session send).sends other).accepted
    by_cases same : other = session
    · subst same
      rw [setSend_self, RoomSystem.accept, addLog_self, List.map_append,
        accepted]
      exact congrArg (· ++ _) (inv.log other)
    · rw [setSend_other state same, RoomSystem.accept, addLog_other _ same]
      exact inv.log other
  content := by
    intro other entry logged room number source
    by_cases same : other = session
    · subst same
      rw [RoomSystem.accept, addLog_self] at logged
      rcases List.mem_append.mp logged with old | new
      · exact inv.content other entry old room number source
      · exact content entry new room number source
    · rw [RoomSystem.accept, addLog_other _ same] at logged
      exact inv.content other entry logged room number source
  members := inv.members
  delivering := delivering
  increasing := by
    intro other room
    by_cases same : other = session
    · subst same
      rw [RoomSystem.accept, addLog_self]
      exact increasing room
    · rw [RoomSystem.accept, addLog_other _ same]
      exact inv.increasing other room

omit [DecidableEq Thread] in
/-- Whoever delivers a broadcast to the session. -/
theorem source_eq_some {state : RoomSystem Thread Session}
    {session : Session} {thread : Thread} {room : RoomId} {number : Nat}
    (source : state.source session thread = some (room, number)) :
    ∃ delivery phase, state.deliveries thread = some delivery ∧
      state.queues.executes thread = some (room, phase) ∧
      delivery.target = some session ∧ delivery.number = some number := by
  unfold RoomSystem.source at source
  split at source
  · rename_i delivery other phase delivers at_
    split at source
    · rename_i towards
      obtain ⟨own, same, found⟩ := Option.map_eq_some_iff.mp source
      cases found
      exact ⟨delivery, phase, delivers, at_, towards, same⟩
    · cases source
  · cases source

/-- The calls of the other threads do not move. -/
theorem pending_after {state next : SessionSend Thread} {thread : Thread}
    {result : WSASendResult}
    (moved : state.advance thread result = some next)
    (own : (next.pcs thread).pending = none ∨
      (next.pcs thread).pending = (state.pcs thread).pending)
    {other : Thread} {call : SendCall}
    (called : (next.pcs other).pending = some call) :
    (state.pcs other).pending = some call := by
  by_cases same : other = thread
  · subst same
    rcases own with nothing | before
    · rw [nothing] at called
      cases called
    · rw [← before]
      exact called
  · rw [SessionSend.advance_pcs_other same moved] at called
    exact called

/-- Buffers that belong to no broadcast. -/
theorem acceptOther_inv {state : RoomSystem Thread Session}
    {session : Session} {send : SessionSend Thread}
    {buffers : List SendBufferRef} (inv : Inv state)
    (flowing : send.Flowing)
    (accepted : send.accepted = (state.sends session).accepted ++ buffers)
    (pending : ∀ thread call, (send.pcs thread).pending = some call →
      ((state.sends session).pcs thread).pending = some call) :
    Inv (state.accept session send
      (buffers.map fun sendBuffer =>
        { source := none
          sendBuffer := sendBuffer })) := by
  have keyless : ∀ room, ∀ entry ∈ buffers.map fun sendBuffer =>
      ({ source := none
         sendBuffer := sendBuffer } : LogEntry),
      entry.number room = none := by
    intro room entry member
    obtain ⟨sendBuffer, _, rfl⟩ := List.mem_map.mp member
    rfl
  apply inv.accept flowing
  · rw [accepted, List.map_map]
    exact congrArg _ (List.map_id _).symm
  · intro entry member room number source
    obtain ⟨sendBuffer, _, rfl⟩ := List.mem_map.mp member
    cases source
  · intro room
    rw [Increasing, filterMap_append_keyless (keyless room)]
    exact inv.increasing session room
  · intro thread delivery delivers
    have before := inv.delivering thread delivery delivers
    refine before.frame rfl rfl fun room _ _ number at_ numbered => ?_
    have same : ∀ other, (state.accept session send _).numbers other room =
        state.numbers other room :=
      numbers_accept_keyless (keyless room)
    refine numbered.frame rfl (fun other _ => same other) ?_
    intro other call _ called
    refine ⟨?_, same other⟩
    change (((state.setSend session send).sends other).pcs thread).pending =
      some call at called
    by_cases here : other = session
    · subst here
      rw [setSend_self] at called
      exact pending thread call called
    · rw [setSend_other state here] at called
      exact called

/-- The buffer of a broadcast. -/
theorem acceptBroadcast_inv {state : RoomSystem Thread Session}
    {session : Session} {send : SessionSend Thread} {thread : Thread}
    {delivery : Delivery Session} {room : RoomId}
    {phase : ExecutePhase (Session × RoomJob)} {number : Nat}
    {call : SendCall} (inv : Inv state) (flowing : send.Flowing)
    (accepted : send.accepted =
      (state.sends session).accepted ++ call.sendBuffers)
    (delivers : state.deliveries thread = some delivery)
    (at_ : state.queues.executes thread = some (room, phase))
    (towards : delivery.target = some session)
    (numberIs : delivery.number = some number)
    (before : ((state.sends session).pcs thread).pending = some call)
    (after : (send.pcs thread).pending = none)
    (others : ∀ other, other ≠ thread →
      send.pcs other = (state.sends session).pcs other) :
    Inv (state.accept session send
      (call.sendBuffers.map fun sendBuffer =>
        { source := some (room, number)
          sendBuffer := sendBuffer })) := by
  have delivering := inv.delivering thread delivery delivers
  obtain ⟨own, executeList, executedCount, ownAt, numbered⟩ :=
    delivering.inJob
  obtain ⟨rfl, rfl⟩ : own = room ∧ .job executeList executedCount = phase := by
    rw [at_] at ownAt
    cases ownAt
    exact ⟨rfl, rfl⟩
  have numbered := numbered number numberIs
  obtain ⟨rfl, latest⟩ := numbered.calling session call towards before
  let entry : LogEntry :=
    { source := some (own, number)
      sendBuffer := delivery.sendBuffer }
  have keyed : entry.number own = some number :=
    LogEntry.number_eq_some_iff.mpr rfl
  have keyless : ∀ other, other ≠ own → ∀ new ∈ [entry],
      new.number other = none := by
    intro other different new member
    obtain rfl := List.mem_singleton.mp member
    exact LogEntry.number_eq_none rfl different.symm
  change Inv (state.accept session send [entry])
  apply inv.accept flowing accepted
  · intro new member other otherNumber source
    obtain rfl := List.mem_singleton.mp member
    cases source
    exact numbered.sendBuffer
  · intro other
    by_cases same : other = own
    · subst same
      exact (inv.increasing session other).append keyed latest
    · rw [Increasing, filterMap_append_keyless (keyless other same)]
      exact inv.increasing session other
  · intro other otherDelivery otherDelivers
    have otherDelivering := inv.delivering other otherDelivery otherDelivers
    refine otherDelivering.frame rfl rfl ?_
    intro otherRoom otherList otherCount otherNumber otherAt otherNumbered
    by_cases same : other = thread
    · subst same
      rw [delivers] at otherDelivers
      cases otherDelivers
      rw [ownAt] at otherAt
      cases otherAt
      refine otherNumbered.frame rfl ?_ ?_
      · intro member inTargets
        have elsewhere : member ≠ session := by
          rintro rfl
          exact numbered.targetOnce member towards inTargets
        exact numbers_accept_other elsewhere own
      · intro target call targetIs called
        rw [towards] at targetIs
        cases targetIs
        change (((state.setSend session send).sends session).pcs other).pending
          = some call at called
        rw [setSend_self, after] at called
        cases called
    · have otherRoom_ne := inv.differentRooms same ownAt otherAt
      have unchanged : ∀ member,
          (state.accept session send [entry]).numbers member otherRoom =
            state.numbers member otherRoom :=
        numbers_accept_keyless (keyless otherRoom otherRoom_ne)
      refine otherNumbered.frame rfl (fun member _ => unchanged member) ?_
      intro target call _ called
      refine ⟨?_, unchanged target⟩
      change (((state.setSend session send).sends target).pcs other).pending =
        some call at called
      by_cases here : target = session
      · subst here
        rw [setSend_self, others other same] at called
        exact called
      · rw [setSend_other state here] at called
        exact called

/-- A step of a thread in `Send`, `RegisterSend` or `ProcessSend`. -/
theorem advanceSend_inv {state next : RoomSystem Thread Session}
    {session : Session} {thread : Thread} {result : WSASendResult}
    (inv : Inv state)
    (accepts : (state.sends session).RequestAccepted
      (.advance thread result))
    (stepped : state.advanceSend session thread result = some next) :
    Inv next := by
  obtain ⟨send, moved, rfl⟩ := Option.map_eq_some_iff.mp stepped
  have flowing := SessionSend.step_flowing (inv.flowing session) accepts moved
  have new : ∀ buffers, send.accepted =
        (state.sends session).accepted ++ buffers →
      send.accepted.drop (state.sends session).accepted.length = buffers := by
    intro buffers accepted
    rw [accepted, List.drop_left]
  rcases SessionSend.advance_accepted moved with
    ⟨call, before, accepted, after⟩ | ⟨same, own⟩
  · simp only [new _ accepted]
    cases source : state.source session thread with
    | none =>
        apply acceptOther_inv inv flowing accepted
        intro other otherCall
        exact pending_after moved (Or.inl after)
    | some broadcast =>
        obtain ⟨room, number⟩ := broadcast
        obtain ⟨delivery, phase, delivers, at_, towards, numberIs⟩ :=
          source_eq_some source
        apply acceptBroadcast_inv inv flowing accepted delivers at_ towards
          numberIs before after
        intro other different
        exact SessionSend.advance_pcs_other different moved
  · have accepted : send.accepted = (state.sends session).accepted ++ [] := by
      rw [same, List.append_nil]
    simp only [new _ accepted]
    apply acceptOther_inv inv flowing accepted
    intro other otherCall
    exact pending_after moved own

theorem step_inv {state next : RoomSystem Thread Session}
    {action : RoomAction Thread Session} (inv : Inv state)
    (accepted : RequestsAccepted state action)
    (stepped : state.step action = some next) : Inv next := by
  cases action with
  | push thread room session job =>
      simp only [step] at stepped
      split at stepped
      · rename_i done
        have pushes : JobSystem.PushesOnly state.queues
            (.push thread room (session, job) false) := rfl
        exact onQueues_inv inv pushes (finished_iff.mp done).2 stepped
      · cases stepped
  | pop thread =>
      have pushes : JobSystem.PushesOnly state.queues (.pop thread) := trivial
      refine onQueues_inv inv pushes ?_ stepped
      obtain ⟨queues, moved, _⟩ := Option.map_eq_some_iff.mp stepped
      simp only [JobSystem.step] at moved
      split at moved
      · rename_i outside
        by_contra some_
        obtain ⟨delivery, delivers⟩ := Option.ne_none_iff_exists'.mp some_
        obtain ⟨room, executeList, executedCount, at_, _⟩ :=
          (inv.delivering _ delivery delivers).inJob
        change state.queues.executes thread = _ at at_
        rw [at_] at outside
        cases outside.2
      · cases moved
  | advance thread => exact advanceQueues_inv inv stepped
  | run thread sendBuffer => exact run_inv inv stepped
  | deliver thread => exact deliver_inv inv stepped
  | call session thread call =>
      simp only [step] at stepped
      split at stepped
      · rename_i done
        refine onSession_inv inv ?_ ?_ stepped
        · simp
        · rintro _ _ ⟨⟩
          exact (finished_iff.mp done).2
      · cases stepped
  | disconnect session =>
      refine onSession_inv inv ?_ ?_ stepped
      · simp
      · simp
  | complete session thread index numOfBytes =>
      simp only [step] at stepped
      split at stepped
      · refine onSession_inv inv ?_ ?_ stepped
        · simp
        · simp
      · cases stepped
  | send session thread result => exact advanceSend_inv inv accepted stepped

theorem reaches_inv {state : RoomSystem Thread Session}
    (reached : (machine Thread Session).Reaches RequestsAccepted state) :
    Inv state := by
  apply Machine.Reaches.invariant _ _ reached
  · intro state initially
    obtain rfl : state = initial := initially
    exact initial_inv
  · intro state action next inv accepted stepped
    exact step_inv inv accepted stepped

/-- The outgoing stream of a session is a front of what it has accepted, and
every session has the broadcasts of a room in the order in which the room
executed them. -/
structure BroadcastsOrdered (state : RoomSystem Thread Session) : Prop where
  stream : ∀ session, (state.sends session).outgoing <+:
    (state.log session).flatMap fun entry =>
      SessionSend.bytes entry.sendBuffer
  content : ∀ session, ∀ entry ∈ state.log session, ∀ room number,
    entry.source = some (room, number) →
    (state.broadcasts room)[number]? = some entry.sendBuffer
  order : ∀ room session, ∀ first ∈ state.numbers session room,
    ∀ second ∈ state.numbers session room,
    (Precedes (LogEntry.number room) (state.log session) first second ↔
      first < second)
  agree : ∀ room session other first second,
    first ∈ state.numbers session room →
    second ∈ state.numbers session room →
    first ∈ state.numbers other room → second ∈ state.numbers other room →
    (Precedes (LogEntry.number room) (state.log session) first second ↔
      Precedes (LogEntry.number room) (state.log other) first second)

/-- Whatever the workers and the other threads do, as long as `WSASend` accepts
what it is given. -/
theorem reaches_broadcastsOrdered {state : RoomSystem Thread Session}
    (reached : (machine Thread Session).Reaches RequestsAccepted state) :
    BroadcastsOrdered state := by
  have inv := reaches_inv reached
  have order : ∀ room session, ∀ first ∈ state.numbers session room,
      ∀ second ∈ state.numbers session room,
      (Precedes (LogEntry.number room) (state.log session) first second ↔
        first < second) :=
    fun room session _ firstMember _ secondMember =>
      precedes_iff_lt (inv.increasing session room) firstMember secondMember
  refine ⟨?_, inv.content, order, ?_⟩
  · intro session
    have front := (inv.flowing session).outgoing_front
    rw [← inv.log session, List.flatMap_map] at front
    exact front
  · intro room session other first second inSession secondInSession inOther
      secondInOther
    rw [order room session first inSession second secondInSession,
      order room other first inOther second secondInOther]

/-- A thread's steps in `Send` of a session. -/
def sending (session : Bool) (steps : Nat) : List (RoomAction Bool Bool) :=
  .deliver true ::
    List.replicate steps (.send session true .accepted) ++ [.deliver true]

/-- Two clients enter room 1, and the first one speaks. -/
def twoMembers : List (RoomAction Bool Bool) :=
  List.flatten
    [[.push true 1 true .enter, .advance true, .advance true],
      [.push true 1 false .enter, .advance true],
      [.push true 1 true (.handleChat []), .advance true],
      [.pop true, .advance true],
      [.advance true, .run true none, .run true (some [1])],
      sending true 5,
      [.deliver true, .run true (some [2])],
      sending true 2,
      [.deliver true, .advance true],
      [.advance true, .run true none, .run true (some [3])],
      sending false 5,
      [.deliver true, .run true (some [4])],
      sending true 2,
      sending false 2,
      [.deliver true, .advance true],
      [.advance true, .run true (some [5])],
      sending true 2,
      sending false 2]

theorem twoMembers_broadcastsOrdered :
    ∃ state, (machine Bool Bool).run initial twoMembers = some state ∧
      state.numbers true 1 = [0, 1, 2] ∧ state.numbers false 1 = [1, 2] ∧
      BroadcastsOrdered state := by
  have meets : ∀ action ∈ twoMembers, ∀ state : RoomSystem Bool Bool,
      RequestsAccepted state action := by
    have accepted : twoMembers.all (fun
        | .send _ _ result => result == .accepted
        | _ => true) = true := rfl
    intro action member state
    have allowed := List.all_eq_true.mp accepted action member
    cases action with
    | send session thread result => exact fun _ _ => eq_of_beq allowed
    | _ => trivial
  have facts : ((machine Bool Bool).run initial twoMembers).map (fun state =>
      (state.numbers true 1, state.numbers false 1)) =
      some ([0, 1, 2], [1, 2]) := by
    decide +kernel
  obtain ⟨state, replayed, both⟩ := Option.map_eq_some_iff.mp facts
  obtain ⟨first, second⟩ := Prod.mk.inj both
  exact ⟨state, replayed, first, second,
    reaches_broadcastsOrdered
      (Machine.Reaches.of_run (.start rfl) (Machine.RunMeets.of_forall meets)
        replayed)⟩

end RoomSystem

end IocpChat
