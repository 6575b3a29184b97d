import IocpChat.Network.Listener

/-!
# Only established connections become sessions

`ProcessAccept` learns from the socket whether the connection is there;
`ProcessConnect` takes the completion of `ConnectEx` for a success, whatever it
was.  Without a failing `ConnectEx`, a session that no completed I/O has
connected stays as it was created.
-/

namespace IocpChat

open TransitionSystem

namespace SessionThreads

variable {Thread : Type}

/-- A session before `ProcessConnect`: threads that call it return at once. -/
structure Fresh (state : SessionThreads Thread) : Prop where
  connected : state.send.connected = false
  inService : state.inService = false
  callbacks : state.callbacks = []
  receives : state.receives = []
  disconnects : state.disconnects = 0
  sends : state.send.outstanding = []
  frames : ∀ thread, state.frames thread = [] ∨
    state.frames thread = [.disconnect] ∨
    state.frames thread = [.send] ∧
      ∃ call, state.send.pcs thread = .send call

theorem Fresh.outside {state : SessionThreads Thread} (fresh : Fresh state)
    {thread : Thread} (calls : state.mayCall thread = true) :
    state.frames thread = [] := by
  unfold mayCall at calls
  rcases fresh.frames thread with none_ | closing | ⟨sending, _⟩
  · exact none_
  · rw [closing] at calls
    cases calls
  · rw [sending] at calls
    cases calls

variable [DecidableEq Thread]

/-- A thread enters or leaves a fresh session. -/
theorem Fresh.goto {state : SessionThreads Thread} (fresh : Fresh state)
    {thread : Thread} {pushed : List SessionFrame}
    (allowed : pushed = [] ∨ pushed = [.disconnect]) :
    Fresh (state.goto thread pushed) :=
  { fresh with
    frames := by
      intro other
      by_cases own : other = thread
      · subst own
        rw [goto_frames_self]
        rcases allowed with rfl | rfl
        · exact Or.inl rfl
        · exact Or.inr (Or.inl rfl)
      · rw [goto_frames_other _ own]
        exact fresh.frames other }

/-- The same for a thread that calls `Send`. -/
theorem Fresh.gotoSend {state : SessionThreads Thread} (fresh : Fresh state)
    {thread : Thread} {pushed : List SessionFrame} {pc : SendPc}
    (allowed : pushed = [] ∨ pushed = [.send] ∧ ∃ call, pc = .send call) :
    Fresh ({ state with send := state.send.goto thread pc }.goto thread
      pushed) :=
  { fresh with
    frames := by
      intro other
      by_cases own : other = thread
      · subst own
        rw [goto_frames_self]
        rcases allowed with rfl | ⟨rfl, call, rfl⟩
        · exact Or.inl rfl
        · exact Or.inr (Or.inr ⟨rfl, call, Function.update_self ..⟩)
      · rw [goto_frames_other _ own]
        change state.frames other = [] ∨ _
        have same : (state.send.goto thread pc).pcs other =
            state.send.pcs other := Function.update_of_ne own ..
        rcases fresh.frames other with none_ | closing | ⟨sending, call, at_⟩
        · exact Or.inl none_
        · exact Or.inr (Or.inl closing)
        · exact Or.inr (Or.inr ⟨sending, call, same.trans at_⟩) }

theorem Fresh.advance {state next : SessionThreads Thread}
    (fresh : Fresh state) {thread : Thread} {result : WSASendResult}
    (stepped : state.step (.advance thread result) = some next) :
    Fresh next := by
  have disconnected := fresh.connected
  simp only [step] at stepped
  rcases fresh.frames thread with none_ | closing | ⟨sending, call, at_⟩
  · rw [none_] at stepped
    cases stepped
  · rw [closing] at stepped
    simp only [runFrame, disconnected, if_true] at stepped
    cases stepped
    exact fresh.goto (Or.inl rfl)
  · rw [sending] at stepped
    simp only [runFrame, advanceSend, at_, SendPc.disconnects,
      SessionSend.advance, disconnected, or_true, if_true, Bool.false_eq_true,
      if_false, Option.map_some, Option.some.injEq] at stepped
    subst stepped
    apply fresh.gotoSend
    left
    simp [SessionSend.goto]

theorem connect_frames {state next : SessionThreads Thread}
    {thread : Thread} (stepped : state.step (.connect thread) = some next) :
    next.frames thread = [.processConnect] := by
  simp only [step] at stepped
  split at stepped <;> cases stepped
  exact goto_frames_self ..

/-- Nothing happens to a fresh session before `ProcessConnect`. -/
theorem Fresh.step {state next : SessionThreads Thread}
    (fresh : Fresh state) {action : ThreadAction Thread}
    (other : ∀ thread, action ≠ .connect thread)
    (stepped : state.step action = some next) : Fresh next := by
  cases action with
  | connect thread => exact absurd rfl (other thread)
  | callDisconnect thread =>
      simp only [SessionThreads.step] at stepped
      split at stepped <;> cases stepped
      rename_i calls
      rw [fresh.outside calls]
      exact fresh.goto (Or.inr rfl)
  | callSend thread call =>
      simp only [SessionThreads.step] at stepped
      split at stepped
      · rename_i calls
        simp only [SessionSend.step, Option.map_eq_some_iff] at stepped
        obtain ⟨send, called, rfl⟩ := stepped
        split at called <;> cases called
        rw [fresh.outside calls]
        exact fresh.gotoSend (Or.inr ⟨rfl, call, rfl⟩)
      · cases stepped
  | stop thread =>
      simp [SessionThreads.step, fresh.inService] at stepped
  | completeDisconnect thread =>
      simp [SessionThreads.step, completeDisconnect, fresh.disconnects]
        at stepped
  | completeRecv thread index chunk =>
      simp [SessionThreads.step, completeRecv, fresh.receives] at stepped
  | completeSend thread index numOfBytes =>
      simp only [SessionThreads.step] at stepped
      split at stepped
      · simp [SessionSend.complete, fresh.sends] at stepped
      · cases stepped
  | advance thread result => exact fresh.advance stepped

end SessionThreads

namespace IocpSystem

variable {Thread Slot : Type}

/-- A session that is or was connected, or is in `_sessions`, or got
`OnConnected`, owes it to an I/O that completed successfully. -/
def OnlyEstablished (system : IocpSystem Thread Slot) : Prop :=
  ∀ session, (system.sessions session).send.connected = true ∨
      (system.sessions session).inService = true ∨
      .connectedStarts ∈ (system.sessions session).callbacks →
    system.established session = true

/-- The other sessions are as they were created. -/
def Traced (system : IocpSystem Thread Slot) : Prop :=
  ∀ session, system.established session = true ∨
    (system.sessions session).Fresh

theorem Traced.onlyEstablished {system : IocpSystem Thread Slot}
    (traced : Traced system) : OnlyEstablished system := by
  intro session effect
  rcases traced session with established | fresh
  · exact established
  · rcases effect with connected | inService | called
    · rw [fresh.connected] at connected
      cases connected
    · rw [fresh.inService] at inService
      cases inService
    · rw [fresh.callbacks] at called
      cases called

theorem Traced.establish {system : IocpSystem Thread Slot}
    (traced : Traced system) (status : QueuedStatus Slot) :
    Traced (system.establish status) := by
  have marked (marked session : Nat) :
      Function.update system.established marked true session = true ∨
        (system.sessions session).Fresh := by
    rw [Function.update_apply]
    split
    · exact Or.inl rfl
    · exact traced session
  unfold IocpSystem.establish
  split
  · exact marked _
  · split
    · exact traced
    · exact marked _
  · exact traced

theorem Traced.setSession {system : IocpSystem Thread Slot}
    (traced : Traced system) {session : Nat} {state : SessionThreads Thread}
    (allowed : system.established session = true ∨ state.Fresh) :
    Traced (system.setSession session state) := by
  intro other
  change system.established other = true ∨
    (Function.update system.sessions session state other).Fresh
  rw [Function.update_apply]
  split
  · rename_i same
    rw [same]
    exact allowed
  · exact traced other

theorem Traced.registerConnect {system : IocpSystem Thread Slot}
    (traced : Traced system) (bindAnyAddress register connectEx : Bool) :
    Traced (system.registerConnect bindAnyAddress register connectEx) := by
  unfold IocpSystem.registerConnect
  dsimp only
  repeat' split
  all_goals try exact traced
  have begun : Traced
      { system with
        created := system.created + 1
        connectOwner :=
          Function.update system.connectOwner system.created true } := traced
  apply begun.setSession
  rcases traced system.created with established | fresh
  · exact Or.inl established
  · exact Or.inr { fresh with }

theorem initial_traced (recvBuffer : RingBuffer) :
    Traced (initial recvBuffer : IocpSystem Thread Slot) := by
  intro session
  right
  exact
    { connected := rfl
      inService := rfl
      callbacks := rfl
      receives := rfl
      disconnects := rfl
      sends := rfl
      frames := fun _ => Or.inl rfl }

/-- `getpeername` succeeds only on a connected socket. -/
def PeerIsConnected (system : IocpSystem Thread Slot) :
    IocpAction Thread Slot → Prop
  | .dispatch _ status calls =>
      ∀ slot session, status.event = some (.accept slot) →
        (system.acceptEvents slot).session = some session →
          calls.getpeername = true →
            (system.establish status).established session = true
  | _ => True

/-- No `ConnectEx` completes with a failure. -/
def ConnectSucceeds : IocpAction Thread Slot → Prop
  | .dispatch _ status _ =>
      ∀ session, status.event = some (.connect session) →
        status.success = true
  | _ => True

theorem establish_acceptEvents (system : IocpSystem Thread Slot)
    (status : QueuedStatus Slot) :
    (system.establish status).acceptEvents = system.acceptEvents := by
  unfold establish
  repeat' split
  all_goals rfl

theorem established_of_success {system : IocpSystem Thread Slot}
    {status : QueuedStatus Slot} {session : Nat}
    (event : status.event = some (.connect session))
    (success : status.success = true) :
    (system.establish status).established session = true := by
  cases status with
  | succeeded queued =>
      obtain rfl : queued = some (.connect session) := event
      exact Function.update_self ..
  | failed waitTimeout queued => cases success

variable [DecidableEq Thread]

theorem Traced.stepSession {system next : IocpSystem Thread Slot}
    (traced : Traced system) {session : Nat} {action : ThreadAction Thread}
    (allowed : system.established session = true ∨
      ∀ thread, action ≠ .connect thread)
    (stepped : system.stepSession session action = some next) :
    Traced next := by
  simp only [IocpSystem.stepSession, Option.map_eq_some_iff] at stepped
  obtain ⟨state, stepped, rfl⟩ := stepped
  apply traced.setSession
  rcases traced session with established | fresh
  · exact Or.inl established
  · rcases allowed with established | other
    · exact Or.inl established
    · exact Or.inr (fresh.step other stepped)

theorem Traced.processAccept {system next : IocpSystem Thread Slot}
    (traced : Traced system) {thread : Thread} {slot : Slot}
    {calls : AcceptCalls}
    (connected : ∀ session, (system.acceptEvents slot).session =
      some session → calls.getpeername = true →
        system.established session = true)
    (processed : system.processAccept thread slot calls = some next) :
    Traced next := by
  simp only [IocpSystem.processAccept] at processed
  split at processed
  · cases processed
    exact traced
  · split at processed
    · cases processed
    · rename_i session known
      repeat' split at processed
      all_goals cases processed
      · exact traced
      · exact traced
      · exact traced
      · rename_i named _
        apply Traced.setSession
        · exact traced
        · exact Or.inl (connected session known (Bool.not_eq_false _ ▸ named))

variable [DecidableEq Slot]

omit [DecidableEq Thread] in
/-- `RegisterAccept` touches no session. -/
theorem Traced.registerAccept {system next : IocpSystem Thread Slot}
    (traced : Traced system) {slot : Slot} {results : List AcceptExResult}
    (registered : system.registerAccept slot results = some next) :
    Traced next := by
  induction results generalizing system with
  | nil =>
      simp only [IocpSystem.registerAccept] at registered
      split at registered <;> cases registered
      exact traced
  | cons result results induction =>
      simp only [IocpSystem.registerAccept] at registered
      split at registered
      · cases registered
        exact traced
      · cases result with
        | accepted =>
            cases registered
            exact traced
        | closed =>
            cases registered
            exact traced
        | error =>
            refine induction ?_ registered
            exact traced

theorem Traced.dispatch {system next : IocpSystem Thread Slot}
    (traced : Traced system) {thread : Thread} {calls : AcceptCalls}
    {event : IocpEvent Slot}
    (connects : ∀ session, event = .connect session →
      system.established session = true)
    (accepts : ∀ slot session, event = .accept slot →
      (system.acceptEvents slot).session = some session →
        calls.getpeername = true → system.established session = true)
    (dispatched : system.dispatchEvent thread calls event = some next) :
    Traced next := by
  cases event with
  | connect session =>
      simp only [dispatchEvent] at dispatched
      repeat' split at dispatched
      · cases dispatched
      · cases dispatched
        exact traced.setSession (Or.inl (connects session rfl))
      · refine Traced.stepSession ?_ (Or.inl ?_) dispatched
        · exact traced
        · exact connects session rfl
  | disconnect session =>
      refine traced.stepSession ?_ dispatched
      exact Or.inr nofun
  | recv session index chunk =>
      refine traced.stepSession ?_ dispatched
      exact Or.inr nofun
  | send session index numOfBytes =>
      refine traced.stepSession ?_ dispatched
      exact Or.inr nofun
  | accept slot =>
      simp only [dispatchEvent] at dispatched
      repeat' split at dispatched
      · cases dispatched
      · cases dispatched
        exact traced
      · refine Traced.processAccept ?_ ?_ dispatched
        · exact traced
        · intro session known named
          refine accepts slot session rfl ?_ named
          simpa using known

theorem step_traced {system next : IocpSystem Thread Slot}
    {action : IocpAction Thread Slot} (traced : Traced system)
    (peer : PeerIsConnected system action) (succeeds : ConnectSucceeds action)
    (stepped : system.step action = some next) : Traced next := by
  cases action with
  | connect bindAnyAddress register connectEx =>
      cases stepped
      exact traced.registerConnect bindAnyAddress register connectEx
  | startAccept slot results =>
      simp only [step] at stepped
      split at stepped
      · exact traced.registerAccept stepped
      · cases stepped
  | closeSocket =>
      cases stepped
      exact traced
  | dispatch thread status calls =>
      simp only [step] at stepped
      split at stepped
      · split at stepped
        · cases stepped
          exact traced
        · rename_i event known
          apply (traced.establish status).dispatch _ _ stepped
          · rintro session rfl
            exact established_of_success known (succeeds session known)
          · rintro slot session rfl events named
            rw [establish_acceptEvents] at events
            exact peer slot session known events named
      · cases stepped
  | registerAccept thread results =>
      simp only [step] at stepped
      split at stepped
      · cases stepped
      · split at stepped
        · refine Traced.registerAccept ?_ stepped
          exact traced
        · cases stepped
  | session session action =>
      simp only [step] at stepped
      split at stepped
      · rename_i enabled
        apply traced.stepSession (Or.inr _) stepped
        rintro thread rfl
        cases enabled.2
      · cases stepped

/-- In every run without a failing `ConnectEx`, whatever else fails. -/
theorem reaches_onlyEstablished {system : IocpSystem Thread Slot}
    (reached : (machine Thread Slot).Reaches (fun system action =>
      PeerIsConnected system action ∧ ConnectSucceeds action) system) :
    OnlyEstablished system := by
  apply Traced.onlyEstablished
  apply Machine.Reaches.invariant _ _ reached
  · rintro _ ⟨recvBuffer, rfl⟩
    exact initial_traced recvBuffer
  · intro system action next traced ⟨peer, succeeds⟩ stepped
    exact step_traced traced peer succeeds stepped

/-- A failing `ConnectEx` connects the session all the same. -/
theorem failedConnect_connects {system taken next : IocpSystem Thread Slot}
    {thread : Thread} {session : Nat} {calls : AcceptCalls}
    {result : WSASendResult}
    (unconnected : system.established session = false)
    (owned : system.connectOwner session = true)
    (failed : system.step (.dispatch thread
      (.failed false (some (.connect session))) calls) = some taken)
    (stepped : taken.step (.session session (.advance thread result)) =
      some next) : ¬OnlyEstablished next := by
  have connects : (taken.sessions session).frames thread =
      [.processConnect] ∧ taken.established session = false := by
    simp only [step] at failed
    split at failed
    · simp only [QueuedStatus.event, establish, dispatchEvent, owned,
        Bool.true_eq_false, Bool.false_eq_true, if_false, stepSession] at failed
      split at failed
      · cases failed
      · simp only [Option.map_eq_some_iff] at failed
        obtain ⟨state, entered, rfl⟩ := failed
        refine ⟨?_, unconnected⟩
        simp only [setSession, Function.update_self]
        exact SessionThreads.connect_frames entered
    · cases failed
  simp only [step] at stepped
  split at stepped
  · simp only [stepSession, SessionThreads.step, connects.1,
      SessionThreads.runFrame, Option.map_some, Option.some.injEq] at stepped
    subst stepped
    intro established
    have set : (taken.setSession session
        (((taken.sessions session).setConnected true).goto thread
          [.addSession])).established session = true :=
      established session (Or.inl (by
        simp [setSession, SessionThreads.setConnected, SessionThreads.goto]))
    change taken.established session = true at set
    rw [connects.2] at set
    cases set
  · cases stepped

/-- The listener accepts; the first `AcceptEx` fails at once. -/
def acceptOne : List (IocpAction Bool Unit) :=
  [.startAccept () [.error, .accepted],
    .dispatch true (.succeeded (some (.accept ())))
      { setUpdateAcceptSocket := true
        getpeername := true
        register := true },
    .session 1 (.advance true .accepted),
    .session 1 (.advance true .accepted),
    .session 1 (.advance true .accepted)]

theorem acceptOne_onlyEstablished :
    ∃ system, (machine Bool Unit).run (initial SessionRecv.serverRing)
        acceptOne = some system ∧
      (system.sessions 1).send.connected = true ∧
      (system.sessions 1).callbacks = [.connectedStarts] ∧
      OnlyEstablished system := by
  have meets : ∀ action ∈ acceptOne, ∀ system : IocpSystem Bool Unit,
      PeerIsConnected system action ∧ ConnectSucceeds action := by
    simp only [acceptOne, List.mem_cons, List.not_mem_nil, or_false]
    rintro action (rfl | rfl | rfl | rfl | rfl) system
    · exact ⟨trivial, trivial⟩
    · constructor
      · intro slot session _ known _
        simp [establish, known]
      · intro session other
        cases other
    · exact ⟨trivial, trivial⟩
    · exact ⟨trivial, trivial⟩
    · exact ⟨trivial, trivial⟩
  obtain ⟨system, replayed⟩ :
      ∃ system, (machine Bool Unit).run (initial SessionRecv.serverRing)
        acceptOne = some system :=
    Option.isSome_iff_exists.mp rfl
  have connected : (system.sessions 1).send.connected = true := by
    apply Machine.view_of_run replayed
    rfl
  have callbacks : (system.sessions 1).callbacks = [.connectedStarts] := by
    apply Machine.view_of_run replayed
    rfl
  have starts : (machine Bool Unit).Reaches (fun system action =>
      PeerIsConnected system action ∧ ConnectSucceeds action)
      (initial SessionRecv.serverRing) := .start ⟨_, rfl⟩
  refine ⟨system, replayed, connected, callbacks, ?_⟩
  exact reaches_onlyEstablished
    (starts.of_run (Machine.RunMeets.of_forall meets) replayed)

/-- `ConnectEx` is refused by the peer, and the session is connected. -/
theorem refusedConnect_notEstablished :
    ∃ system, (machine Bool Unit).run (initial SessionRecv.serverRing)
        [.connect true true true,
          .dispatch true (.failed false (some (.connect 0)))
            { setUpdateAcceptSocket := true
              getpeername := true
              register := true },
          .session 0 (.advance true .accepted),
          .session 0 (.advance true .accepted),
          .session 0 (.advance true .accepted)] = some system ∧
      (system.sessions 0).send.connected = true ∧
      (system.sessions 0).inService = true ∧
      (system.sessions 0).callbacks = [.connectedStarts] ∧
      system.established 0 = false ∧ ¬OnlyEstablished system := by
  refine ⟨_, rfl, rfl, rfl, rfl, rfl, fun established => ?_⟩
  have connected := established 0 (Or.inl rfl)
  cases connected

end IocpSystem

end IocpChat
