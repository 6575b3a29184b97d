import IocpChat.Network.Listener
import Mathlib.Data.Finset.Basic

/-!
# A session is added once

A call of `AddSession` comes from a completed `AcceptEx`, and this has a session
of its own, which nobody else has.  So the session that `AddSession` inserts has
never been in the registry.
-/

namespace IocpChat

open TransitionSystem

/-- The frames of a session whose `AddSession` is still to come. -/
def SessionFrame.arrives : SessionFrame → Bool
  | processConnect => true
  | addSession => true
  | _ => false

namespace SessionThreads

variable {Thread : Type}

/-- How often a thread is going to call `AddSession`. -/
def arrivals (state : SessionThreads Thread) (thread : Thread) : Nat :=
  (state.frames thread).countP SessionFrame.arrives

/-- A step of a thread may leave fewer arrivals, but no more, and connects
nothing. -/
structure Settles (state next : SessionThreads Thread) : Prop where
  arrivals : ∀ thread, next.arrivals thread ≤ state.arrivals thread
  connects : next.connects = state.connects

theorem Settles.same {state next : SessionThreads Thread}
    (frames : next.frames = state.frames)
    (connects : next.connects = state.connects) : Settles state next where
  arrivals := by
    intro thread
    rw [SessionThreads.arrivals, frames]
    exact le_rfl
  connects := connects

variable [DecidableEq Thread]

theorem Settles.goto {state shared : SessionThreads Thread} {thread : Thread}
    {stack : List SessionFrame} (same : shared.frames = state.frames)
    (connects : shared.connects = state.connects)
    (fewer : stack.countP SessionFrame.arrives ≤ state.arrivals thread) :
    Settles state (shared.goto thread stack) where
  arrivals := by
    intro other
    unfold SessionThreads.arrivals
    by_cases own : other = thread
    · subst own
      rw [goto_frames_self]
      exact fewer
    · rw [goto_frames_other _ own, same]
  connects := connects

/-- The thread takes its innermost call away and makes others. -/
theorem Settles.frame {state shared : SessionThreads Thread} {thread : Thread}
    {frame : SessionFrame} {rest : List SessionFrame}
    (at_ : state.frames thread = frame :: rest)
    (pushed : List SessionFrame) (same : shared.frames = state.frames)
    (connects : shared.connects = state.connects)
    (fewer : pushed.countP SessionFrame.arrives ≤
      [frame].countP SessionFrame.arrives) :
    Settles state (shared.goto thread (pushed ++ rest)) := by
  apply Settles.goto same connects
  rw [SessionThreads.arrivals, at_, ← List.singleton_append, List.countP_append,
    List.countP_append]
  exact Nat.add_le_add_right fewer _

theorem processRecv_settles {state shared : SessionThreads Thread}
    {thread : Thread} {frame : SessionFrame} {rest : List SessionFrame}
    (at_ : state.frames thread = frame :: rest)
    (same : shared.frames = state.frames)
    (connects : shared.connects = state.connects) (numOfBytes : Nat) :
    Settles state (shared.processRecv thread rest numOfBytes) := by
  unfold processRecv
  split
  · exact .frame at_ [.disconnect] same connects (Nat.zero_le _)
  · dsimp only
    split
    · exact .frame at_ [.disconnect] same connects (Nat.zero_le _)
    · exact .frame at_ [.onRecv _ _ _] same connects (Nat.zero_le _)

theorem afterOnRecv_settles {state : SessionThreads Thread}
    {thread : Thread} {frame : SessionFrame} {rest : List SessionFrame}
    (at_ : state.frames thread = frame :: rest) (dataSize processedLen : Int) :
    Settles state (state.afterOnRecv thread rest dataSize processedLen) := by
  unfold afterOnRecv
  split
  · exact .frame at_ [.disconnect] rfl rfl (Nat.zero_le _)
  · dsimp only
    split
    · exact .frame at_ [.disconnect] rfl rfl (Nat.zero_le _)
    · exact .frame at_ [.registerRecv] rfl rfl (Nat.zero_le _)

theorem wsaRecv_settles {state : SessionThreads Thread}
    {thread : Thread} {frame : SessionFrame} {rest : List SessionFrame}
    (at_ : state.frames thread = frame :: rest) (result : WSASendResult) :
    Settles state (state.wsaRecv thread rest result) := by
  unfold wsaRecv
  dsimp only
  split
  · exact .frame at_ [.disconnect] rfl rfl (Nat.zero_le _)
  · cases result with
    | accepted => exact .frame at_ [] rfl rfl (Nat.zero_le _)
    | _ =>
        exact .frame at_ [.disconnect, .wsaRecvFailed] rfl rfl (Nat.zero_le _)

theorem sendStep_settles {state : SessionThreads Thread}
    {thread : Thread} {frame : SessionFrame} {rest : List SessionFrame}
    (at_ : state.frames thread = frame :: rest) (send : SessionSend Thread) :
    Settles state ({ state with send := send }.goto thread
      (if send.pcs thread = SendPc.idle then rest else .send :: rest)) := by
  split
  · exact .frame at_ [] rfl rfl (Nat.zero_le _)
  · exact .frame at_ [.send] rfl rfl (Nat.zero_le _)

theorem runFrame_settles {state next : SessionThreads Thread}
    {thread : Thread} {frame : SessionFrame} {rest : List SessionFrame}
    (at_ : state.frames thread = frame :: rest) {result : WSASendResult}
    (stepped : state.runFrame thread rest result frame = some next) :
    Settles state next := by
  have goes (pushed : List SessionFrame) {shared : SessionThreads Thread}
      (same : shared.frames = state.frames)
      (connects : shared.connects = state.connects)
      (plain : pushed.countP SessionFrame.arrives = 0) :
      Settles state (shared.goto thread (pushed ++ rest)) := by
    apply Settles.frame at_ pushed same connects
    rw [plain]
    exact Nat.zero_le _
  cases frame with
  | processConnect =>
      cases stepped
      exact .frame at_ [.addSession] rfl rfl le_rfl
  | addSession =>
      simp only [runFrame] at stepped
      split at stepped <;> cases stepped
      exact goes [.onConnected] rfl rfl rfl
  | onConnected =>
      cases stepped
      exact goes [.inOnConnected] rfl rfl rfl
  | inOnConnected =>
      cases stepped
      exact goes [.registerRecv] rfl rfl rfl
  | disconnect =>
      simp only [runFrame] at stepped
      split at stepped <;> cases stepped
      · exact goes [] rfl rfl rfl
      · exact goes [.registerDisconnect] rfl rfl rfl
  | registerDisconnect =>
      cases stepped
      exact goes [.disconnectEx] rfl rfl rfl
  | disconnectEx =>
      cases result with
      | accepted =>
          cases stepped
          exact goes [] rfl rfl rfl
      | _ =>
          cases stepped
          exact goes [.disconnect, .disconnectExFailed] rfl rfl rfl
  | disconnectExFailed =>
      cases stepped
      exact goes [] rfl rfl rfl
  | processDisconnect =>
      cases stepped
      exact goes [.onDisconnected] rfl rfl rfl
  | onDisconnected =>
      cases stepped
      exact goes [.inOnDisconnected] rfl rfl rfl
  | inOnDisconnected =>
      cases stepped
      exact goes [.releaseSession] rfl rfl rfl
  | releaseSession =>
      simp only [runFrame] at stepped
      split at stepped <;> cases stepped
      exact goes [] rfl rfl rfl
  | registerRecv =>
      simp only [runFrame] at stepped
      split at stepped <;> cases stepped
      · exact goes [] rfl rfl rfl
      · exact goes [.wsaRecv] rfl rfl rfl
  | wsaRecv =>
      cases stepped
      exact wsaRecv_settles at_ result
  | wsaRecvFailed =>
      cases stepped
      exact goes [] rfl rfl rfl
  | processRecv numOfBytes =>
      cases stepped
      apply processRecv_settles at_
      · rfl
      · rfl
  | onRecv packets dataSize processedLen =>
      cases packets with
      | nil =>
          cases stepped
          exact afterOnRecv_settles at_ dataSize processedLen
      | cons packet packets =>
          cases stepped
          exact goes [.inOnRecvPacket, .onRecv packets _ _] rfl rfl rfl
  | inOnRecvPacket =>
      cases stepped
      exact goes [] rfl rfl rfl
  | send =>
      simp only [runFrame, advanceSend] at stepped
      split at stepped
      · cases stepped
        exact goes [.disconnect, .sendDisconnected] rfl rfl rfl
      · simp only [Option.map_eq_some_iff] at stepped
        obtain ⟨send, _, rfl⟩ := stepped
        exact sendStep_settles at_ send
  | sendDisconnected =>
      simp only [runFrame, returnToSend, Option.map_eq_some_iff] at stepped
      obtain ⟨send, _, rfl⟩ := stepped
      exact sendStep_settles at_ _
  | clearSessions =>
      cases stepped
      exact goes [] rfl rfl rfl

/-- Only `connect` makes a session arrive. -/
theorem step_settles {state next : SessionThreads Thread}
    {action : ThreadAction Thread} (other : ∀ thread, action ≠ .connect thread)
    (stepped : state.step action = some next) : Settles state next := by
  cases action with
  | connect thread => exact absurd rfl (other thread)
  | callDisconnect thread =>
      simp only [step] at stepped
      split at stepped <;> cases stepped
      exact .goto rfl rfl (Nat.le_of_eq (List.countP_cons_of_neg nofun))
  | callSend thread call =>
      simp only [step] at stepped
      split at stepped
      · simp only [Option.map_eq_some_iff] at stepped
        obtain ⟨send, _, rfl⟩ := stepped
        exact .goto rfl rfl (Nat.le_of_eq (List.countP_cons_of_neg nofun))
      · cases stepped
  | stop thread =>
      simp only [step] at stepped
      split at stepped <;> cases stepped
      exact .goto rfl rfl (Nat.zero_le _)
  | completeDisconnect thread =>
      simp only [step, completeDisconnect] at stepped
      split at stepped
      · split at stepped
        · cases stepped
        · split at stepped <;> cases stepped
          · exact .same rfl rfl
          · exact .goto rfl rfl (Nat.zero_le _)
      · cases stepped
  | completeRecv thread index chunk =>
      simp only [step, completeRecv] at stepped
      split at stepped
      · split at stepped
        · cases stepped
        · split at stepped <;> cases stepped
          · exact .same rfl rfl
          · exact .goto rfl rfl (Nat.zero_le _)
      · cases stepped
  | completeSend thread index numOfBytes =>
      simp only [step] at stepped
      split at stepped
      · simp only [Option.map_eq_some_iff] at stepped
        obtain ⟨send, _, rfl⟩ := stepped
        refine .goto rfl rfl ?_
        split <;> exact Nat.zero_le _
      · cases stepped
  | advance thread result =>
      simp only [step] at stepped
      split at stepped
      · cases stepped
      · rename_i frame rest at_
        exact runFrame_settles at_ stepped

/-- Who executes `AddSession` has one call of it less to come. -/
theorem addSession_arrivals {state next : SessionThreads Thread}
    {thread : Thread} {rest : List SessionFrame} {result : WSASendResult}
    (at_ : state.frames thread = .addSession :: rest)
    (stepped : state.step (.advance thread result) = some next) :
    next.arrivals thread + 1 = state.arrivals thread := by
  simp only [step, at_, runFrame] at stepped
  split at stepped <;> cases stepped
  simp [arrivals, at_, SessionFrame.arrives, List.countP_cons]

omit [DecidableEq Thread]

/-- Nobody is going to add the session. -/
def Settled (state : SessionThreads Thread) : Prop :=
  ∀ thread, state.arrivals thread = 0

/-- One call of `AddSession` is to come at most. -/
structure ArrivesOnce (state : SessionThreads Thread) : Prop where
  once : ∀ thread, state.arrivals thread ≤ 1
  alone : ∀ thread other, other ≠ thread → state.arrivals thread ≠ 0 →
    state.arrivals other = 0

theorem Settled.mono {state next : SessionThreads Thread}
    (settled : Settled state) (settles : Settles state next) :
    Settled next := by
  intro thread
  apply Nat.le_zero.mp
  calc
    next.arrivals thread ≤ state.arrivals thread := settles.arrivals thread
    _ = 0 := settled thread

theorem Settled.arrivesOnce {state : SessionThreads Thread}
    (settled : Settled state) : ArrivesOnce state where
  once := by
    intro thread
    rw [settled thread]
    exact Nat.zero_le _
  alone := fun _ other _ _ => settled other

theorem ArrivesOnce.mono {state next : SessionThreads Thread}
    (arrivesOnce : ArrivesOnce state) (settles : Settles state next) :
    ArrivesOnce next where
  once := fun thread => (settles.arrivals thread).trans (arrivesOnce.once _)
  alone := by
    intro thread other different arriving
    have before := settles.arrivals other
    rw [arrivesOnce.alone thread other different] at before
    · exact Nat.le_zero.mp before
    · intro none_
      have after := settles.arrivals thread
      rw [none_] at after
      exact arriving (Nat.le_zero.mp after)

/-- A thread enters `ProcessConnect`. -/
theorem Settled.connecting [DecidableEq Thread]
    {state : SessionThreads Thread} (settled : Settled state)
    {thread : Thread} :
    ArrivesOnce (state.goto thread
      (.processConnect :: state.frames thread)) := by
  have others : ∀ other, other ≠ thread → (state.goto thread
      (.processConnect :: state.frames thread)).arrivals other = 0 := by
    intro other different
    rw [arrivals, goto_frames_other _ different]
    exact settled other
  have own : (state.goto thread
      (.processConnect :: state.frames thread)).arrivals thread = 1 := by
    rw [arrivals, goto_frames_self, List.countP_cons_of_pos rfl]
    exact congrArg Nat.succ (settled thread)
  constructor
  · intro other
    by_cases same : other = thread
    · rw [same, own]
    · rw [others other same]
      exact Nat.zero_le _
  · intro first second different arriving
    have first_ : first = thread := by
      by_contra other
      exact arriving (others first other)
    exact others second (first_ ▸ different)

/-- After `AddSession` nothing of the kind is left. -/
theorem ArrivesOnce.added {state next : SessionThreads Thread}
    (arrivesOnce : ArrivesOnce state) (settles : Settles state next)
    {thread : Thread}
    (added : next.arrivals thread + 1 = state.arrivals thread) :
    Settled next := by
  intro other
  by_cases own : other = thread
  · have once := arrivesOnce.once thread
    rw [← added] at once
    rw [own]
    exact Nat.le_zero.mp (Nat.le_of_succ_le_succ once)
  · have before := settles.arrivals other
    rw [arrivesOnce.alone thread other own (by omega)] at before
    exact Nat.le_zero.mp before

end SessionThreads

namespace IocpSystem

variable {Thread Slot : Type}

/-- No session is added a second time: neither one that is in the registry nor
one whose `AcceptEx` is outstanding is on its way into it. -/
structure ArriveOnce (iocp : IocpSystem Thread Slot)
    (registered : Finset Nat) : Prop where
  once : ∀ session, (iocp.sessions session).ArrivesOnce
  outside : ∀ session ∈ registered, (iocp.sessions session).Settled
  connects : ∀ session, (iocp.sessions session).connects = 0
  fresh : ∀ session, iocp.created ≤ session →
    (iocp.sessions session).Settled ∧ session ∉ registered
  pending : ∀ slot, (iocp.acceptEvents slot).pending = true →
    ∃ session < iocp.created,
      (iocp.acceptEvents slot).session = some session ∧
        (iocp.sessions session).Settled ∧ session ∉ registered
  distinct : ∀ slot other, (iocp.acceptEvents slot).pending = true →
    (iocp.acceptEvents other).pending = true →
    (iocp.acceptEvents slot).session = (iocp.acceptEvents other).session →
    slot = other

/-- Sessions may settle and leave the registry. -/
theorem ArriveOnce.settle {iocp next : IocpSystem Thread Slot}
    {registered left : Finset Nat} (arriveOnce : ArriveOnce iocp registered)
    (settles : ∀ session,
      (iocp.sessions session).Settles (next.sessions session))
    (subset : left ⊆ registered) (created : next.created = iocp.created)
    (acceptEvents : next.acceptEvents = iocp.acceptEvents) :
    ArriveOnce next left where
  once := fun session => (arriveOnce.once session).mono (settles session)
  outside := fun session member =>
    (arriveOnce.outside session (subset member)).mono (settles session)
  connects := fun session =>
    (settles session).connects.trans (arriveOnce.connects session)
  fresh := by
    intro session later
    rw [created] at later
    obtain ⟨settled, absent⟩ := arriveOnce.fresh session later
    exact ⟨settled.mono (settles session), fun member =>
      absent (subset member)⟩
  pending := by
    intro slot pending
    rw [acceptEvents] at pending ⊢
    obtain ⟨session, before, same, settled, absent⟩ :=
      arriveOnce.pending slot pending
    refine ⟨session, created ▸ before, same, settled.mono (settles session),
      fun member => absent (subset member)⟩
  distinct := by
    rw [acceptEvents]
    exact arriveOnce.distinct

theorem ArriveOnce.initial {recvBuffer : RingBuffer} :
    ArriveOnce (initial recvBuffer : IocpSystem Thread Slot) ∅ where
  once := fun _ => SessionThreads.Settled.arrivesOnce fun _ => rfl
  outside := fun session member => absurd member (Finset.notMem_empty session)
  connects := fun _ => rfl
  fresh := fun session _ => ⟨fun _ => rfl, Finset.notMem_empty session⟩
  pending := nofun
  distinct := nofun

theorem ArriveOnce.establish {iocp : IocpSystem Thread Slot}
    {registered : Finset Nat} (arriveOnce : ArriveOnce iocp registered)
    (status : QueuedStatus Slot) :
    ArriveOnce (iocp.establish status) registered := by
  unfold IocpSystem.establish
  split
  · exact { arriveOnce with }
  · split
    · exact arriveOnce
    · exact { arriveOnce with }
  · exact arriveOnce

variable [DecidableEq Thread]

/-- A thread that is inside a session, or calls one of its methods, goes on. -/
theorem ArriveOnce.stepSession {iocp next : IocpSystem Thread Slot}
    {registered : Finset Nat} (arriveOnce : ArriveOnce iocp registered)
    {session : Nat} {action : ThreadAction Thread}
    (other : ∀ thread, action ≠ .connect thread)
    (stepped : iocp.stepSession session action = some next) :
    ArriveOnce next registered := by
  simp only [IocpSystem.stepSession, Option.map_eq_some_iff] at stepped
  obtain ⟨state, moved, rfl⟩ := stepped
  have settles := SessionThreads.step_settles other moved
  refine arriveOnce.settle ?_ (Finset.Subset.refl _) rfl rfl
  apply (Function.forall_update_iff iocp.sessions fun other state =>
    (iocp.sessions other).Settles state).mpr
  exact ⟨settles, fun _ _ => .same rfl rfl⟩

/-- Who executes `AddSession` puts a session into the registry that was never in
it. -/
theorem ArriveOnce.addSession {iocp next : IocpSystem Thread Slot}
    {registered : Finset Nat} (arriveOnce : ArriveOnce iocp registered)
    {session : Nat} (exists_ : session < iocp.created)
    {thread : Thread} {rest : List SessionFrame} {result : WSASendResult}
    (at_ : (iocp.sessions session).frames thread = .addSession :: rest)
    (stepped : iocp.stepSession session (.advance thread result) = some next) :
    session ∉ registered ∧ ArriveOnce next (insert session registered) := by
  have arriving : ¬(iocp.sessions session).Settled := by
    intro settled
    have none_ := settled thread
    simp [SessionThreads.arrivals, at_, SessionFrame.arrives,
      List.countP_cons] at none_
  have plain : ∀ other, ThreadAction.advance thread result ≠ .connect other :=
    nofun
  have after := arriveOnce.stepSession plain stepped
  simp only [IocpSystem.stepSession, Option.map_eq_some_iff] at stepped
  obtain ⟨state, moved, rfl⟩ := stepped
  have settled : state.Settled := by
    apply (arriveOnce.once session).added
      (SessionThreads.step_settles plain moved)
    exact SessionThreads.addSession_arrivals at_ moved
  have extends_ {other : Nat} (different : other ≠ session)
      (absent : other ∉ registered) : other ∉ insert session registered := by
    rw [Finset.mem_insert]
    exact fun member => member.elim different absent
  refine ⟨fun member => arriving (arriveOnce.outside session member), ?_⟩
  refine
    { after with
      outside := ?_
      fresh := ?_
      pending := ?_ }
  · intro other member
    rcases Finset.mem_insert.mp member with rfl | old
    · change (Function.update iocp.sessions other state other).Settled
      rw [Function.update_self]
      exact settled
    · exact after.outside other old
  · intro other later
    obtain ⟨untouched, absent⟩ := after.fresh other later
    exact ⟨untouched, extends_ (Nat.ne_of_gt (exists_.trans_le later)) absent⟩
  · intro slot pending
    obtain ⟨other, before, same, untouched, absent⟩ :=
      after.pending slot pending
    refine ⟨other, before, same, untouched, extends_ ?_ absent⟩
    rintro rfl
    obtain ⟨_, _, awaited, settled, _⟩ := arriveOnce.pending slot pending
    cases Option.some.inj (awaited.symm.trans same)
    exact arriving settled

variable [DecidableEq Slot]

omit [DecidableEq Thread] in
/-- An event gets a session that did not exist before. -/
theorem ArriveOnce.arm {iocp : IocpSystem Thread Slot}
    {registered : Finset Nat} (arriveOnce : ArriveOnce iocp registered)
    {slot : Slot} (pending : Bool) :
    ArriveOnce
      { iocp with
        created := iocp.created + 1
        acceptEvents := Function.update iocp.acceptEvents slot
          { owner := true
            session := some iocp.created
            pending := pending } } registered where
  once := arriveOnce.once
  outside := arriveOnce.outside
  connects := arriveOnce.connects
  fresh := fun session later => arriveOnce.fresh session (by
    change iocp.created + 1 ≤ session at later
    omega)
  pending := by
    apply (Function.forall_update_iff iocp.acceptEvents fun _ event =>
      event.pending = true → ∃ session < iocp.created + 1,
        event.session = some session ∧
          (iocp.sessions session).Settled ∧ session ∉ registered).mpr
    constructor
    · intro _
      obtain ⟨settled, absent⟩ := arriveOnce.fresh iocp.created le_rfl
      exact ⟨iocp.created, Nat.lt_succ_self _, rfl, settled, absent⟩
    · intro other _ outstanding
      obtain ⟨session, before, same, untouched⟩ :=
        arriveOnce.pending other outstanding
      exact ⟨session, Nat.lt_succ_of_lt before, same, untouched⟩
  distinct := by
    intro first second
    have older : ∀ other, (iocp.acceptEvents other).pending = true →
        (iocp.acceptEvents other).session ≠ some iocp.created := by
      intro other outstanding new
      obtain ⟨session, before, same, _⟩ :=
        arriveOnce.pending other outstanding
      rw [same] at new
      exact absurd (Option.some.inj new) (Nat.ne_of_lt before)
    by_cases firstNew : first = slot <;> by_cases secondNew : second = slot
    · intro _ _ _
      rw [firstNew, secondNew]
    · subst firstNew
      simp only [Function.update_self, Function.update_of_ne secondNew]
      exact fun _ outstanding same =>
        absurd same.symm (older second outstanding)
    · subst secondNew
      simp only [Function.update_self, Function.update_of_ne firstNew]
      exact fun outstanding _ same => absurd same (older first outstanding)
    · simp only [Function.update_of_ne firstNew,
        Function.update_of_ne secondNew]
      exact arriveOnce.distinct first second

omit [DecidableEq Thread] in
/-- `RegisterAccept` puts new sessions into the event. -/
theorem ArriveOnce.registerAccept {iocp next : IocpSystem Thread Slot}
    {registered : Finset Nat} (arriveOnce : ArriveOnce iocp registered)
    {slot : Slot} {results : List AcceptExResult}
    (stepped : iocp.registerAccept slot results = some next) :
    ArriveOnce next registered := by
  induction results generalizing iocp with
  | nil =>
      simp only [IocpSystem.registerAccept] at stepped
      split at stepped <;> cases stepped
      exact arriveOnce
  | cons result results induction =>
      simp only [IocpSystem.registerAccept] at stepped
      split at stepped
      · cases stepped
        exact arriveOnce
      · cases result with
        | accepted =>
            cases stepped
            exact arriveOnce.arm true
        | closed =>
            cases stepped
            exact arriveOnce.arm false
        | error => exact induction (arriveOnce.arm false) stepped

omit [DecidableEq Thread] in
/-- The completion of an event has been taken. -/
theorem ArriveOnce.take {iocp : IocpSystem Thread Slot}
    {registered : Finset Nat} (arriveOnce : ArriveOnce iocp registered)
    (slot : Slot) :
    ArriveOnce
      { iocp with
        acceptEvents := Function.update iocp.acceptEvents slot
          { iocp.acceptEvents slot with
            owner := false
            pending := false } } registered :=
  { arriveOnce with
    pending := by
      apply (Function.forall_update_iff iocp.acceptEvents fun _ event =>
        event.pending = true → ∃ session < iocp.created,
          event.session = some session ∧
            (iocp.sessions session).Settled ∧ session ∉ registered).mpr
      exact ⟨nofun, fun other _ => arriveOnce.pending other⟩
    distinct := by
      intro first second
      by_cases firstTaken : first = slot
      · subst firstTaken
        simp only [Function.update_self]
        exact nofun
      · by_cases secondTaken : second = slot
        · subst secondTaken
          simp only [Function.update_self]
          exact fun _ impossible => nomatch impossible
        · simp only [Function.update_of_ne firstTaken,
            Function.update_of_ne secondTaken]
          exact arriveOnce.distinct first second }

omit [DecidableEq Slot] in
/-- A thread enters `ProcessConnect` of a session that nobody else has. -/
theorem ArriveOnce.arrive {iocp : IocpSystem Thread Slot}
    {registered : Finset Nat} (arriveOnce : ArriveOnce iocp registered)
    {thread : Thread} {session : Nat}
    (awaited : session < iocp.created ∧ (iocp.sessions session).Settled ∧
      session ∉ registered)
    (alone : ∀ slot, (iocp.acceptEvents slot).pending = true →
      (iocp.acceptEvents slot).session ≠ some session) :
    ArriveOnce
      (iocp.setSession session
        ((iocp.sessions session).goto thread
          (.processConnect :: (iocp.sessions session).frames thread)))
      registered := by
  obtain ⟨exists_, settled, absent⟩ := awaited
  have others {other : Nat} (different : other ≠ session)
      (state : SessionThreads Thread) :
      (iocp.setSession session state).sessions other = iocp.sessions other :=
    Function.update_of_ne different ..
  constructor
  · apply (Function.forall_update_iff iocp.sessions fun _ state =>
      state.ArrivesOnce).mpr
    exact ⟨settled.connecting, fun other _ => arriveOnce.once other⟩
  · intro other member
    rw [others (fun same => absent (same ▸ member))]
    exact arriveOnce.outside other member
  · apply (Function.forall_update_iff iocp.sessions fun _ state =>
      state.connects = 0).mpr
    exact ⟨arriveOnce.connects session, fun other _ =>
      arriveOnce.connects other⟩
  · intro other later
    rw [others (Nat.ne_of_gt (Nat.lt_of_lt_of_le exists_ later))]
    exact arriveOnce.fresh other later
  · intro slot pending
    obtain ⟨other, before, same, untouched⟩ := arriveOnce.pending slot pending
    refine ⟨other, before, same, ?_⟩
    rw [others]
    · exact untouched
    · rintro rfl
      exact alone slot pending same
  · exact arriveOnce.distinct

omit [DecidableEq Slot] in
/-- A completed `AcceptEx` puts its session on the way into the registry. -/
theorem ArriveOnce.processAccept {iocp next : IocpSystem Thread Slot}
    {registered : Finset Nat} (arriveOnce : ArriveOnce iocp registered)
    {thread : Thread} {slot : Slot} {calls : AcceptCalls} {session : Nat}
    (accepts : (iocp.acceptEvents slot).session = some session)
    (awaited : session < iocp.created ∧ (iocp.sessions session).Settled ∧
      session ∉ registered)
    (alone : ∀ other, (iocp.acceptEvents other).pending = true →
      (iocp.acceptEvents other).session ≠ some session)
    (stepped : iocp.processAccept thread slot calls = some next) :
    ArriveOnce next registered := by
  have registers : ArriveOnce
      { iocp with
        accepting := Function.update iocp.accepting thread (some slot) }
      registered := { arriveOnce with }
  simp only [IocpSystem.processAccept, accepts] at stepped
  split at stepped
  · cases stepped
    exact arriveOnce
  · repeat' split at stepped
    all_goals cases stepped
    · exact registers
    · exact registers
    · exact registers
    · exact registers.arrive awaited alone

/-- The owner of a completed event dispatches it. -/
theorem ArriveOnce.dispatchEvent {iocp next : IocpSystem Thread Slot}
    {registered : Finset Nat} (arriveOnce : ArriveOnce iocp registered)
    {thread : Thread} {calls : AcceptCalls} {event : IocpEvent Slot}
    (stepped : iocp.dispatchEvent thread calls event = some next) :
    ArriveOnce next registered := by
  cases event with
  | connect session =>
      simp only [IocpSystem.dispatchEvent, arriveOnce.connects session,
        if_true] at stepped
      cases stepped
  | disconnect session =>
      apply arriveOnce.stepSession _ stepped
      exact nofun
  | recv session index chunk =>
      apply arriveOnce.stepSession _ stepped
      exact nofun
  | send session index numOfBytes =>
      apply arriveOnce.stepSession _ stepped
      exact nofun
  | accept slot =>
      simp only [IocpSystem.dispatchEvent] at stepped
      split at stepped
      · cases stepped
      · rename_i completes
        have pending := Bool.not_eq_false _ ▸ completes
        obtain ⟨session, before, accepts, settled, absent⟩ :=
          arriveOnce.pending slot pending
        have taken : ArriveOnce _ registered := arriveOnce.take slot
        split at stepped
        · cases stepped
          exact taken
        · refine taken.processAccept ?_ ⟨before, settled, absent⟩ ?_ stepped
          · simp only [Function.update_self]
            exact accepts
          · intro other outstanding same
            have different : other ≠ slot := by
              rintro rfl
              simp only [Function.update_self] at outstanding
              cases outstanding
            simp only [Function.update_of_ne different] at outstanding same
            apply different
            apply arriveOnce.distinct other slot outstanding pending
            rw [same, accepts]

/-- A step of the listener, of a worker that takes a completion, or of a thread
that calls a method of a session. -/
theorem ArriveOnce.step {iocp next : IocpSystem Thread Slot}
    {registered : Finset Nat} (arriveOnce : ArriveOnce iocp registered)
    {action : IocpAction Thread Slot}
    (server : ∀ bindAnyAddress register connectEx,
      action ≠ .connect bindAnyAddress register connectEx)
    (stepped : iocp.step action = some next) :
    ArriveOnce next registered := by
  cases action with
  | connect bindAnyAddress register connectEx =>
      exact absurd rfl (server bindAnyAddress register connectEx)
  | startAccept slot results =>
      simp only [IocpSystem.step] at stepped
      split at stepped
      · exact arriveOnce.registerAccept stepped
      · cases stepped
  | closeSocket =>
      cases stepped
      exact { arriveOnce with }
  | dispatch thread status calls =>
      simp only [IocpSystem.step] at stepped
      split at stepped
      · split at stepped
        · cases stepped
          exact arriveOnce
        · exact (arriveOnce.establish status).dispatchEvent stepped
      · cases stepped
  | registerAccept thread results =>
      simp only [IocpSystem.step] at stepped
      split at stepped
      · cases stepped
      · split at stepped
        · apply ArriveOnce.registerAccept _ stepped
          exact { arriveOnce with }
        · cases stepped
  | session session action =>
      simp only [IocpSystem.step] at stepped
      split at stepped
      · rename_i enabled
        apply arriveOnce.stepSession _ stepped
        rintro thread rfl
        cases enabled.2
      · cases stepped

end IocpSystem

end IocpChat
