import IocpChat.Network.Listener

/-!
# The accept events of the listener

`StartAccept` calls `RegisterAccept` for each `AcceptEvent`, and from then on
`ProcessAccept` calls it again whatever happens to the accepted connection.
`RegisterAccept` takes three error codes of `AcceptEx` for the end of the
listener without asking the listening socket, although they may be about the
session's; so an event is lost exactly where one of them comes while the socket
is open.
-/

namespace IocpChat

open TransitionSystem

/-- The outcome that ends the retries of `RegisterAccept`. -/
def AcceptExResult.last (results : List AcceptExResult) :
    Option AcceptExResult :=
  results.find? fun result => result ≠ .error

namespace IocpSystem

variable {Thread Slot : Type}

/-- While the listening socket is open, each event that has been registered has
an `AcceptEx` outstanding, or the thread that took its completion is still in
`ProcessAccept`. -/
def SlotsArmed (system : IocpSystem Thread Slot) : Prop :=
  system.listenSocket = true → ∀ slot,
    (system.acceptEvents slot).session ≠ none →
      (system.acceptEvents slot).pending = true ∨
        ∃ thread, system.accepting thread = some slot

/-- No `AcceptEx` that ends the retries fails with the codes of a closed
listener while the listening socket is open. -/
def ListenerCodesHonest (system : IocpSystem Thread Slot) :
    IocpAction Thread Slot → Prop
  | .startAccept _ results =>
      system.listenSocket = true → AcceptExResult.last results ≠ some .closed
  | .registerAccept _ results =>
      system.listenSocket = true → AcceptExResult.last results ≠ some .closed
  | _ => True

instance (system : IocpSystem Thread Slot) :
    ∀ action, Decidable (ListenerCodesHonest system action)
  | .startAccept _ _ => inferInstanceAs (Decidable (_ → _))
  | .registerAccept _ _ => inferInstanceAs (Decidable (_ → _))
  | .connect _ _ _ => .isTrue trivial
  | .closeSocket => .isTrue trivial
  | .dispatch _ _ _ => .isTrue trivial
  | .session _ _ => .isTrue trivial

/-- An event is outstanding, or in the hands of one thread, or neither. -/
structure SlotsHeld (system : IocpSystem Thread Slot) : Prop where
  owner : ∀ slot, (system.acceptEvents slot).pending = true →
    (system.acceptEvents slot).owner = true ∧
      (system.acceptEvents slot).session ≠ none
  accepting : ∀ thread slot, system.accepting thread = some slot →
    (system.acceptEvents slot).pending = false ∧
      (system.acceptEvents slot).session ≠ none
  alone : ∀ thread other slot, system.accepting thread = some slot →
    system.accepting other = some slot → thread = other

/-- The events are as they should be. -/
structure Armed (system : IocpSystem Thread Slot) : Prop
    extends SlotsHeld system where
  armed : SlotsArmed system

/-- What the events depend on. -/
structure SameSlots (system next : IocpSystem Thread Slot) : Prop where
  listenSocket : next.listenSocket = system.listenSocket
  acceptEvents : next.acceptEvents = system.acceptEvents
  accepting : next.accepting = system.accepting

theorem SameSlots.trans {system middle next : IocpSystem Thread Slot}
    (first : SameSlots system middle) (second : SameSlots middle next) :
    SameSlots system next :=
  ⟨second.listenSocket.trans first.listenSocket,
    second.acceptEvents.trans first.acceptEvents,
    second.accepting.trans first.accepting⟩

theorem SlotsHeld.same {system next : IocpSystem Thread Slot}
    (held : SlotsHeld system) (same : SameSlots system next) :
    SlotsHeld next where
  owner := by
    rw [same.acceptEvents]
    exact held.owner
  accepting := by
    rw [same.acceptEvents, same.accepting]
    exact held.accepting
  alone := by
    rw [same.accepting]
    exact held.alone

theorem SameSlots.armed {system next : IocpSystem Thread Slot}
    (same : SameSlots system next) (armed : SlotsArmed system) :
    SlotsArmed next := by
  unfold SlotsArmed
  rw [same.listenSocket, same.acceptEvents, same.accepting]
  exact armed

theorem establish_same (system : IocpSystem Thread Slot)
    (status : QueuedStatus Slot) :
    SameSlots system (system.establish status) := by
  unfold establish
  split
  · exact ⟨rfl, rfl, rfl⟩
  · split
    · exact ⟨rfl, rfl, rfl⟩
    · exact ⟨rfl, rfl, rfl⟩
  · exact ⟨rfl, rfl, rfl⟩

theorem registerConnect_same (system : IocpSystem Thread Slot)
    (bindAnyAddress register connectEx : Bool) :
    SameSlots system
      (system.registerConnect bindAnyAddress register connectEx) := by
  unfold registerConnect
  dsimp only
  repeat' split
  all_goals exact ⟨rfl, rfl, rfl⟩

theorem stepSession_same [DecidableEq Thread]
    {system next : IocpSystem Thread Slot} {session : Nat}
    {action : ThreadAction Thread}
    (stepped : system.stepSession session action = some next) :
    SameSlots system next := by
  simp only [stepSession, Option.map_eq_some_iff] at stepped
  obtain ⟨state, _, rfl⟩ := stepped
  exact ⟨rfl, rfl, rfl⟩

section Register

variable [DecidableEq Slot]

/-- `RegisterAccept` leaves everything to the last outcome. -/
theorem registerAccept_open {system next : IocpSystem Thread Slot}
    {slot : Slot} {results : List AcceptExResult}
    (opened : system.listenSocket = true)
    (stepped : system.registerAccept slot results = some next) :
    next.listenSocket = true ∧ next.accepting = system.accepting ∧
      ∃ session, next.acceptEvents = Function.update system.acceptEvents slot
        { owner := true
          session := some session
          pending := AcceptExResult.last results ≠ some .closed } := by
  induction results generalizing system with
  | nil =>
      simp only [registerAccept, opened, if_true] at stepped
      cases stepped
  | cons result results induction =>
      simp only [registerAccept, opened, Bool.true_eq_false, if_false]
        at stepped
      cases result with
      | accepted =>
          cases stepped
          exact ⟨rfl, rfl, system.created, rfl⟩
      | closed =>
          cases stepped
          exact ⟨rfl, rfl, system.created, rfl⟩
      | error =>
          obtain ⟨stays, same, session, acceptEvents⟩ :=
            induction rfl stepped
          refine ⟨stays, same, session, ?_⟩
          rw [acceptEvents, Function.update_idem]
          rfl

theorem registerAccept_closed {system next : IocpSystem Thread Slot}
    {slot : Slot} {results : List AcceptExResult}
    (closed : system.listenSocket = false)
    (stepped : system.registerAccept slot results = some next) :
    next = system := by
  cases results with
  | nil =>
      simp only [registerAccept, closed, Bool.false_eq_true, if_false]
        at stepped
      exact (Option.some.inj stepped).symm
  | cons result results =>
      simp only [registerAccept, closed, if_true] at stepped
      exact (Option.some.inj stepped).symm

end Register

variable [DecidableEq Thread] [DecidableEq Slot]

omit [DecidableEq Thread] in
/-- An event that nobody has is registered. -/
theorem SlotsHeld.register {system next : IocpSystem Thread Slot}
    (held : SlotsHeld system) {slot : Slot}
    (free : ∀ thread, system.accepting thread ≠ some slot)
    {results : List AcceptExResult}
    (stepped : system.registerAccept slot results = some next) :
    SlotsHeld next := by
  by_cases opened : system.listenSocket = true
  · obtain ⟨_, same, session, acceptEvents⟩ :=
      registerAccept_open opened stepped
    constructor
    · rw [acceptEvents]
      apply (Function.forall_update_iff system.acceptEvents fun _ event =>
        event.pending = true → event.owner = true ∧ event.session ≠ none).mpr
      exact ⟨fun _ => ⟨rfl, nofun⟩, fun other _ => held.owner other⟩
    · intro thread other takes
      rw [same] at takes
      have different : other ≠ slot := by
        rintro rfl
        exact free thread takes
      rw [acceptEvents, Function.update_of_ne different]
      exact held.accepting thread other takes
    · rw [same]
      exact held.alone
  · rw [registerAccept_closed (Bool.not_eq_true _ ▸ opened) stepped]
    exact held

omit [DecidableEq Thread] in
/-- It is armed unless the last outcome says that the listener is closed. -/
theorem registerAccept_armed_iff {system next : IocpSystem Thread Slot}
    {slot : Slot}
    (others : system.listenSocket = true → ∀ other, other ≠ slot →
      (system.acceptEvents other).session ≠ none →
        (system.acceptEvents other).pending = true ∨
          ∃ thread, system.accepting thread = some other)
    (free : ∀ thread, system.accepting thread ≠ some slot)
    {results : List AcceptExResult}
    (stepped : system.registerAccept slot results = some next) :
    SlotsArmed next ↔ (system.listenSocket = true →
      AcceptExResult.last results ≠ some .closed) := by
  by_cases opened : system.listenSocket = true
  · obtain ⟨stays, same, session, acceptEvents⟩ :=
      registerAccept_open opened stepped
    unfold SlotsArmed
    rw [same, acceptEvents]
    constructor
    · intro armed _
      have registered := armed stays slot
      rw [Function.update_self] at registered
      rcases registered nofun with pending | ⟨thread, takes⟩
      · exact of_decide_eq_true pending
      · exact absurd takes (free thread)
    · intro honest _ other
      by_cases own : other = slot
      · subst own
        rw [Function.update_self]
        exact fun _ => Or.inl (decide_eq_true (honest opened))
      · rw [Function.update_of_ne own]
        exact others opened other own
  · rw [registerAccept_closed (Bool.not_eq_true _ ▸ opened) stepped]
    exact iff_of_true (fun impossible => absurd impossible opened)
      fun impossible => absurd impossible opened

omit [DecidableEq Slot] in
/-- `ProcessAccept` of a listening socket ends in `RegisterAccept`. -/
theorem processAccept_cases {system next : IocpSystem Thread Slot}
    {thread : Thread} {slot : Slot} {calls : AcceptCalls}
    (stepped : system.processAccept thread slot calls = some next) :
    system.listenSocket = false ∧ next = system ∨
      SameSlots
        { system with
          accepting := Function.update system.accepting thread (some slot) }
        next := by
  simp only [processAccept] at stepped
  split at stepped
  · rename_i closed
    exact Or.inl ⟨closed, (Option.some.inj stepped).symm⟩
  · right
    split at stepped
    · cases stepped
    · repeat' split at stepped
      all_goals cases stepped
      all_goals exact ⟨rfl, rfl, rfl⟩

omit [DecidableEq Thread] in
/-- The completion of an outstanding `AcceptEx` is taken. -/
theorem SlotsHeld.take {system : IocpSystem Thread Slot}
    (held : SlotsHeld system) {slot : Slot}
    (pending : (system.acceptEvents slot).pending = true) :
    SlotsHeld
      { system with
        acceptEvents := Function.update system.acceptEvents slot
          { system.acceptEvents slot with
            owner := false
            pending := false } } where
  owner := by
    apply (Function.forall_update_iff system.acceptEvents fun _ event =>
      event.pending = true → event.owner = true ∧ event.session ≠ none).mpr
    exact ⟨nofun, fun other _ => held.owner other⟩
  accepting := by
    intro thread
    apply (Function.forall_update_iff system.acceptEvents fun other event =>
      system.accepting thread = some other →
        event.pending = false ∧ event.session ≠ none).mpr
    exact ⟨fun _ => ⟨rfl, (held.owner slot pending).2⟩,
      fun other _ => held.accepting thread other⟩
  alone := held.alone

omit [DecidableEq Slot] in
/-- A thread takes an event that nobody has into its hands. -/
theorem SlotsHeld.hold {system : IocpSystem Thread Slot}
    (held : SlotsHeld system) {thread : Thread} {slot : Slot}
    (taken : (system.acceptEvents slot).pending = false ∧
      (system.acceptEvents slot).session ≠ none)
    (free : ∀ other, system.accepting other ≠ some slot) :
    SlotsHeld
      { system with
        accepting :=
          Function.update system.accepting thread (some slot) } where
  owner := held.owner
  accepting := by
    apply (Function.forall_update_iff system.accepting fun _ held =>
      ∀ slot, held = some slot →
        (system.acceptEvents slot).pending = false ∧
          (system.acceptEvents slot).session ≠ none).mpr
    constructor
    · intro other same
      cases same
      exact taken
    · exact fun other _ => held.accepting other
  alone := by
    intro first second other firstTakes secondTakes
    have own {holder : Thread}
        (takes : Function.update system.accepting thread (some slot) holder =
          some slot) : holder = thread := by
      by_contra different
      rw [Function.update_of_ne different] at takes
      exact free holder takes
    by_cases same : other = slot
    · subst same
      rw [own firstTakes, own secondTakes]
    · have elsewhere {holder : Thread}
          (takes : Function.update system.accepting thread (some slot) holder =
            some other) : system.accepting holder = some other := by
        rw [Function.update_apply] at takes
        split at takes
        · exact absurd (Option.some.inj takes).symm same
        · exact takes
      exact held.alone first second other (elsewhere firstTakes)
        (elsewhere secondTakes)

omit [DecidableEq Slot] in
theorem ne_of_update_none {accepting : Thread → Option Slot}
    {thread other : Thread} {slot : Slot}
    (takes : Function.update accepting thread none other = some slot) :
    other ≠ thread ∧ accepting other = some slot := by
  rw [Function.update_apply] at takes
  split at takes
  · cases takes
  · rename_i different
    exact ⟨different, takes⟩

omit [DecidableEq Slot] in
/-- A thread gives its event away. -/
theorem SlotsHeld.release {system : IocpSystem Thread Slot}
    (held : SlotsHeld system) (thread : Thread) :
    SlotsHeld
      { system with
        accepting := Function.update system.accepting thread none } where
  owner := held.owner
  accepting := fun other slot takes =>
    held.accepting other slot (ne_of_update_none takes).2
  alone := fun first second slot firstTakes secondTakes =>
    held.alone first second slot (ne_of_update_none firstTakes).2
      (ne_of_update_none secondTakes).2

/-- The completion of an outstanding `AcceptEx`, up to `RegisterAccept`. -/
theorem dispatchAccept_armed {system next : IocpSystem Thread Slot}
    (held : SlotsHeld system) {thread : Thread} {slot : Slot}
    {calls : AcceptCalls} (outside : system.accepting thread = none)
    (stepped : system.dispatchEvent thread calls (.accept slot) = some next) :
    SlotsHeld next ∧ (SlotsArmed system → SlotsArmed next) := by
  simp only [dispatchEvent] at stepped
  split at stepped
  · cases stepped
  · rename_i completes
    have pending := Bool.not_eq_false _ ▸ completes
    obtain ⟨owner, session⟩ := held.owner slot pending
    have free : ∀ other, system.accepting other ≠ some slot := by
      intro other takes
      have waiting := (held.accepting other slot takes).1
      rw [pending] at waiting
      cases waiting
    rw [if_neg (by simp [owner])] at stepped
    rcases processAccept_cases stepped with ⟨closed, rfl⟩ | same
    · refine ⟨held.take pending, fun _ opened => ?_⟩
      rw [closed] at opened
      cases opened
    · refine ⟨((held.take pending).hold ?_ free).same same, fun armed => ?_⟩
      · simp only [Function.update_self]
        exact ⟨trivial, session⟩
      · apply same.armed
        intro opened other registered
        by_cases own : other = slot
        · exact Or.inr ⟨thread, own ▸ Function.update_self ..⟩
        · simp only [Function.update_of_ne own] at registered ⊢
          rcases armed opened other registered with waits | ⟨holder, takes⟩
          · exact Or.inl waits
          · refine Or.inr ⟨holder, ?_⟩
            rw [Function.update_of_ne]
            · exact takes
            · rintro rfl
              rw [outside] at takes
              cases takes

/-- A step keeps the events in order, and armed exactly if it is honest. -/
theorem step_armed {system next : IocpSystem Thread Slot}
    {action : IocpAction Thread Slot} (held : SlotsHeld system)
    (stepped : system.step action = some next) :
    SlotsHeld next ∧ (SlotsArmed system →
      (SlotsArmed next ↔ ListenerCodesHonest system action)) := by
  have beside {next : IocpSystem Thread Slot}
      (same : SameSlots system next)
      (honest : ListenerCodesHonest system action) :
      SlotsHeld next ∧ (SlotsArmed system →
        (SlotsArmed next ↔ ListenerCodesHonest system action)) :=
    ⟨held.same same, fun armed => iff_of_true (same.armed armed) honest⟩
  cases action with
  | connect bindAnyAddress register connectEx =>
      cases stepped
      exact beside (registerConnect_same ..) trivial
  | startAccept slot results =>
      simp only [step] at stepped
      split at stepped
      · rename_i new
        have free : ∀ thread, system.accepting thread ≠ some slot :=
          fun thread takes => (held.accepting thread slot takes).2 new
        refine ⟨held.register free stepped, fun armed => ?_⟩
        exact registerAccept_armed_iff (fun opened other _ =>
          armed opened other) free stepped
      · cases stepped
  | closeSocket =>
      cases stepped
      exact ⟨{ held with }, fun _ => iff_of_true nofun trivial⟩
  | dispatch thread status calls =>
      simp only [step] at stepped
      split at stepped
      · rename_i enabled
        split at stepped
        · cases stepped
          exact beside ⟨rfl, rfl, rfl⟩ trivial
        · rename_i event _
          have established := establish_same system status
          have heldThen := held.same established
          cases event with
          | accept slot =>
              obtain ⟨stays, armed⟩ := dispatchAccept_armed heldThen
                (established.accepting ▸ enabled.2) stepped
              exact ⟨stays, fun before => iff_of_true
                (armed (established.armed before)) trivial⟩
          | connect session =>
              simp only [dispatchEvent] at stepped
              split at stepped
              · cases stepped
              · split at stepped
                · cases stepped
                  exact beside (established.trans ⟨rfl, rfl, rfl⟩) trivial
                · have connects := stepSession_same stepped
                  exact beside (established.trans { connects with }) trivial
          | disconnect session =>
              exact beside (established.trans (stepSession_same stepped))
                trivial
          | recv session index chunk =>
              exact beside (established.trans (stepSession_same stepped))
                trivial
          | send session index numOfBytes =>
              exact beside (established.trans (stepSession_same stepped))
                trivial
      · cases stepped
  | registerAccept thread results =>
      simp only [step] at stepped
      split at stepped
      · cases stepped
      · rename_i slot takes
        split at stepped
        · have released := held.release thread
          let cleared : IocpSystem Thread Slot :=
            { system with
              accepting := Function.update system.accepting thread none }
          have free : ∀ other, cleared.accepting other ≠ some slot := by
            intro other again
            obtain ⟨different, still⟩ := ne_of_update_none again
            exact different (held.alone other thread slot still takes)
          refine ⟨released.register free stepped, fun armed => ?_⟩
          apply @registerAccept_armed_iff _ _ _ cleared _ _ _ free _ stepped
          intro opened other different registered
          rcases armed opened other registered with waits | ⟨holder, holds⟩
          · exact Or.inl waits
          · refine Or.inr ⟨holder, ?_⟩
            change Function.update system.accepting thread none holder = _
            rw [Function.update_of_ne]
            · exact holds
            · rintro rfl
              rw [takes] at holds
              exact different (Option.some.inj holds).symm
        · cases stepped
  | session session action =>
      simp only [step] at stepped
      split at stepped
      · exact beside (stepSession_same stepped) trivial
      · cases stepped

theorem Armed.step_iff {system next : IocpSystem Thread Slot}
    {action : IocpAction Thread Slot} (armed : Armed system)
    (stepped : system.step action = some next) :
    Armed next ↔ ListenerCodesHonest system action := by
  obtain ⟨held, exactly⟩ := step_armed armed.toSlotsHeld stepped
  rw [← exactly armed.armed]
  constructor
  · exact Armed.armed
  · exact fun armed => ⟨held, armed⟩

omit [DecidableEq Thread] [DecidableEq Slot] in
theorem initial_armed (recvBuffer : RingBuffer) :
    Armed (initial recvBuffer : IocpSystem Thread Slot) where
  owner := nofun
  accepting := nofun
  alone := nofun
  armed := fun _ _ registered => absurd rfl registered

/-- No accept event is lost throughout a run exactly if, while the listening
socket is open, no `AcceptEx` fails for good with the codes of a closed
listener. -/
theorem slotsArmed_iff {system final : IocpSystem Thread Slot}
    {actions : List (IocpAction Thread Slot)}
    (starts : (machine Thread Slot).initial system)
    (replayed : (machine Thread Slot).run system actions = some final) :
    (machine Thread Slot).RunMeets ListenerCodesHonest system actions ↔
      ∀ before, before <+: actions → ∀ reached,
        (machine Thread Slot).run system before = some reached →
          SlotsArmed reached := by
  obtain ⟨recvBuffer, rfl⟩ := starts
  have armed : Armed (initial recvBuffer : IocpSystem Thread Slot) :=
    initial_armed recvBuffer
  rw [Machine.runMeets_iff_always Armed.step_iff armed replayed]
  constructor
  · intro always before isPrefix reached earlier
    exact (always before isPrefix reached earlier).armed
  · intro always before isPrefix reached earlier
    refine ⟨?_, always before isPrefix reached earlier⟩
    apply Machine.run_invariant _ armed.toSlotsHeld earlier
    exact fun held stepped => (step_armed held stepped).1

/-- `StartAccept`, and the peer of the fourth event is gone before
`getpeername`. -/
def acceptGone (results : List AcceptExResult) :
    List (IocpAction Unit (Fin 16)) :=
  (List.finRange 16).map (fun slot => .startAccept slot [.accepted]) ++
    [.dispatch () (.succeeded (some (.accept 3)))
        { setUpdateAcceptSocket := true
          getpeername := false
          register := true },
      .registerAccept () results]

theorem slotsArmed_iff_acceptGone :
    ∃ final, (machine Unit (Fin 16)).run (initial SessionRecv.serverRing)
        (acceptGone [.error, .accepted]) = some final ∧
      (∀ slot, (final.acceptEvents slot).pending = true) ∧
      ∀ before, before <+: acceptGone [.error, .accepted] → ∀ reached,
        (machine Unit (Fin 16)).run (initial SessionRecv.serverRing) before =
          some reached → SlotsArmed reached := by
  obtain ⟨final, replayed⟩ : ∃ final, (machine Unit (Fin 16)).run
      (initial SessionRecv.serverRing) (acceptGone [.error, .accepted]) =
        some final :=
    Option.isSome_iff_exists.mp (by decide +kernel)
  have pending : decide (∀ slot, (final.acceptEvents slot).pending = true) =
      true := by
    apply Machine.view_of_run replayed
    decide +kernel
  refine ⟨final, replayed, of_decide_eq_true pending, ?_⟩
  apply (slotsArmed_iff ⟨_, rfl⟩ replayed).mp
  decide +kernel

/-- The socket of the next session is invalid, and the event is lost. -/
theorem acceptGone_notArmed :
    ∃ final, (machine Unit (Fin 16)).run (initial SessionRecv.serverRing)
        (acceptGone [.closed]) = some final ∧
      final.listenSocket = true ∧
      (final.acceptEvents 3).session ≠ none ∧
      (final.acceptEvents 3).pending = false ∧ ¬SlotsArmed final := by
  obtain ⟨final, replayed⟩ : ∃ final, (machine Unit (Fin 16)).run
      (initial SessionRecv.serverRing) (acceptGone [.closed]) = some final :=
    Option.isSome_iff_exists.mp (by decide +kernel)
  have view : (final.listenSocket, (final.acceptEvents 3).session,
      (final.acceptEvents 3).pending, final.accepting ()) =
        (true, some 16, false, none) := by
    apply Machine.view_of_run replayed
    decide +kernel
  obtain ⟨opened, session, pending, accepting⟩ := by
    simpa only [Prod.mk.injEq] using view
  have registered : (final.acceptEvents 3).session ≠ none := by
    rw [session]
    exact nofun
  refine ⟨final, replayed, opened, registered, pending, fun armed => ?_⟩
  rcases armed opened 3 registered with waits | ⟨holder, holds⟩
  · rw [pending] at waits
    cases waits
  · rw [accepting] at holds
    cases holds

end IocpSystem

end IocpChat
