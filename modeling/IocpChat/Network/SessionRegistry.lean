import IocpChat.Network.Service
import IocpChat.Network.SessionArrival

/-!
# The registry of a ServerService

`_sessionCount` is moved by one whatever becomes of the set, `Stop` empties the
set and leaves the counter to the disconnect completions that are still to come,
and nobody compares either of them with `_maxSessionCount`.  Registry and bound
stay in order in exactly the runs where no call gets that far.
-/

namespace IocpChat

open TransitionSystem

namespace ServerService

variable {Thread Slot : Type}

/-- The counter is the size of the set and within the bound. -/
def RegistryAgrees (service : ServerService Thread Slot) : Prop :=
  service.getCurrentSessionCount = service.sessions.card ∧
    (service.sessions.card : Int) ≤ service.getMaxSessionCount

/-- `AddSession` finds room, `ReleaseSession` finds its session, and `Stop`
finds nothing to clear. -/
def Admissible (service : ServerService Thread Slot) :
    ServiceAction Thread Slot → Prop
  | .iocp (.session session (.advance thread _)) =>
      (((service.iocp.sessions session).frames thread).head? =
          some .addSession →
        (service.sessions.card : Int) < service.getMaxSessionCount) ∧
      (((service.iocp.sessions session).frames thread).head? =
          some .releaseSession →
        session ∈ service.sessions)
  | .clearSessions => service.sessions = ∅
  | _ => True

theorem addSession_agrees {service : ServerService Thread Slot}
    (agrees : RegistryAgrees service)
    (bound : service.getMaxSessionCount < 2 ^ 31) {session : Nat}
    (new : session ∉ service.sessions) :
    RegistryAgrees (service.addSession session) ↔
      (service.sessions.card : Int) < service.getMaxSessionCount := by
  obtain ⟨counts, _⟩ := agrees
  have one : ((insert session service.sessions).card : Int) =
      service.sessions.card + 1 := by
    rw [Finset.card_insert_of_notMem new]
    rfl
  unfold RegistryAgrees
  unfold getCurrentSessionCount getMaxSessionCount at *
  simp only [addSession, counts, one]
  constructor
  · intro ⟨_, room⟩
    omega
  · intro room
    exact ⟨int32_of_range (by omega) (by omega), by omega⟩

theorem releaseSession_agrees {service : ServerService Thread Slot}
    (agrees : RegistryAgrees service)
    (bound : service.getMaxSessionCount < 2 ^ 31) {session : Nat} :
    RegistryAgrees (service.releaseSession session) ↔
      session ∈ service.sessions := by
  obtain ⟨counts, within⟩ := agrees
  unfold RegistryAgrees
  unfold getCurrentSessionCount getMaxSessionCount at *
  simp only [releaseSession, counts]
  rw [int32_of_range (by omega) (by omega)]
  constructor
  · intro ⟨same, _⟩
    by_contra absent
    rw [Finset.erase_eq_of_notMem absent] at same
    omega
  · intro member
    have one := Finset.card_erase_add_one member
    omega

instance (service : ServerService Thread Slot) :
    ∀ action, Decidable (Admissible service action)
  | .iocp (.session _ (.advance _ _)) => inferInstanceAs (Decidable (_ ∧ _))
  | .clearSessions => inferInstanceAs (Decidable (service.sessions = ∅))
  | .stop _ _ => .isTrue trivial
  | .stopSession => .isTrue trivial
  | .iocp (.connect _ _ _) => .isTrue trivial
  | .iocp (.startAccept _ _) => .isTrue trivial
  | .iocp .closeSocket => .isTrue trivial
  | .iocp (.dispatch _ _ _) => .isTrue trivial
  | .iocp (.registerAccept _ _) => .isTrue trivial
  | .iocp (.session _ (.connect _)) => .isTrue trivial
  | .iocp (.session _ (.callDisconnect _)) => .isTrue trivial
  | .iocp (.session _ (.callSend _ _)) => .isTrue trivial
  | .iocp (.session _ (.stop _)) => .isTrue trivial
  | .iocp (.session _ (.completeDisconnect _)) => .isTrue trivial
  | .iocp (.session _ (.completeRecv _ _ _)) => .isTrue trivial
  | .iocp (.session _ (.completeSend _ _ _)) => .isTrue trivial

/-- What a step does to the registry, and when that is admissible. -/
inductive RegistryStep (service : ServerService Thread Slot)
    (action : ServiceAction Thread Slot) :
    ServerService Thread Slot → Prop where
  | beside (iocp : IocpSystem Thread Slot)
      (stopping : Option (Thread × List Nat)) :
      iocp.ArriveOnce service.sessions →
      Admissible service action →
      RegistryStep service action
        { service with
          iocp := iocp
          stopping := stopping }
  | adds (iocp : IocpSystem Thread Slot) (session : Nat) :
      iocp.ArriveOnce (insert session service.sessions) →
      service.stopping = none → session ∉ service.sessions →
      (Admissible service action ↔
        (service.sessions.card : Int) < service.getMaxSessionCount) →
      RegistryStep service action
        ({ service with iocp := iocp }.addSession session)
  | removes (iocp : IocpSystem Thread Slot) (session : Nat) :
      iocp.ArriveOnce (service.sessions.erase session) →
      service.stopping = none →
      (Admissible service action ↔ session ∈ service.sessions) →
      RegistryStep service action
        ({ service with iocp := iocp }.releaseSession session)
  | clears (iocp : IocpSystem Thread Slot) :
      iocp.ArriveOnce ∅ →
      (Admissible service action ↔ service.sessions = ∅) →
      RegistryStep service action
        { service with
          iocp := iocp
          sessions := ∅
          stopping := none }

variable [DecidableEq Thread] [DecidableEq Slot]

theorem advance_cases {service next : ServerService Thread Slot}
    (arriveOnce : service.iocp.ArriveOnce service.sessions) {session : Nat}
    {thread : Thread} {result : WSASendResult}
    (stepped : service.advance session thread result = some next) :
    RegistryStep service (.iocp (.session session (.advance thread result)))
      next := by
  have plain : ∀ bindAnyAddress register connectEx,
      IocpAction.session session (.advance thread result) ≠
        (.connect bindAnyAddress register connectEx : IocpAction Thread Slot) :=
    nofun
  simp only [advance] at stepped
  split at stepped
  · rename_i adding
    obtain ⟨rest, at_⟩ := List.head?_eq_some_iff.mp adding
    split at stepped
    · cases stepped
    · rename_i free
      simp only [Option.map_map, Option.map_eq_some_iff] at stepped
      obtain ⟨iocp, moved, rfl⟩ := stepped
      simp only [IocpSystem.step] at moved
      split at moved
      · rename_i enabled
        obtain ⟨new, after⟩ := arriveOnce.addSession enabled.1 at_ moved
        apply RegistryStep.adds iocp session after
          (Option.not_isSome_iff_eq_none.mp free) new
        simp [Admissible, adding]
      · cases moved
  · rename_i removing
    split at stepped
    · cases stepped
    · rename_i free
      simp only [Option.map_map, Option.map_eq_some_iff] at stepped
      obtain ⟨iocp, moved, rfl⟩ := stepped
      have after := arriveOnce.step plain moved
      apply RegistryStep.removes iocp session
        (after.settle (fun _ => .same rfl rfl) (Finset.erase_subset _ _) rfl
          rfl)
        (Option.not_isSome_iff_eq_none.mp free)
      simp [Admissible, removing]
  · rename_i notAdding notRemoving
    simp only [Option.map_eq_some_iff] at stepped
    obtain ⟨iocp, moved, rfl⟩ := stepped
    refine .beside _ _ (arriveOnce.step plain moved) ?_
    exact ⟨fun adding => absurd adding notAdding,
      fun removing => absurd removing notRemoving⟩

theorem stepIocp_cases {service next : ServerService Thread Slot}
    {action : IocpAction Thread Slot}
    (arriveOnce : service.iocp.ArriveOnce service.sessions)
    (stepped : service.stepIocp action = some next) :
    RegistryStep service (.iocp action) next := by
  unfold stepIocp at stepped
  split at stepped
  · cases stepped
  · cases stepped
  · exact advance_cases arriveOnce stepped
  · rename_i notConnect _ notAdvance
    simp only [Option.map_eq_some_iff] at stepped
    obtain ⟨iocp, moved, rfl⟩ := stepped
    refine .beside _ _ (arriveOnce.step notConnect moved) ?_
    unfold Admissible
    split
    · rename_i same
      cases same
      exact absurd rfl (notAdvance _ _ _)
    · rename_i same
      cases same
    · trivial

theorem step_cases {service next : ServerService Thread Slot}
    {action : ServiceAction Thread Slot}
    (arriveOnce : service.iocp.ArriveOnce service.sessions)
    (stepped : service.step action = some next) :
    RegistryStep service action next := by
  cases action with
  | iocp action =>
      simp only [step] at stepped
      split at stepped
      · cases stepped
      · exact stepIocp_cases arriveOnce stepped
  | stop thread order =>
      simp only [step, stop] at stepped
      split at stepped <;> cases stepped
      exact .beside _ _ arriveOnce trivial
  | stopSession =>
      simp only [step, stopSession] at stepped
      split at stepped
      · split at stepped
        · simp only [Option.map_eq_some_iff] at stepped
          obtain ⟨iocp, stepped, rfl⟩ := stepped
          refine .beside _ _ ?_ trivial
          apply arriveOnce.stepSession _ stepped
          exact nofun
        · cases stepped
      · cases stepped
  | clearSessions =>
      simp only [step, clearSessions] at stepped
      split at stepped
      · split at stepped <;> cases stepped
        apply RegistryStep.clears _ _ Iff.rfl
        exact arriveOnce.settle (fun _ => .same rfl rfl)
          (Finset.empty_subset _) rfl rfl
      · cases stepped

omit [DecidableEq Thread] [DecidableEq Slot] in
theorem RegistryStep.arriveOnce {service next : ServerService Thread Slot}
    {action : ServiceAction Thread Slot}
    (registryStep : RegistryStep service action next) :
    next.iocp.ArriveOnce next.sessions := by
  cases registryStep with
  | beside iocp stopping arriveOnce => exact arriveOnce
  | adds iocp session arriveOnce => exact arriveOnce
  | removes iocp session arriveOnce => exact arriveOnce
  | clears iocp arriveOnce => exact arriveOnce

omit [DecidableEq Thread] [DecidableEq Slot] in
theorem RegistryStep.maxSessionCount {service next : ServerService Thread Slot}
    {action : ServiceAction Thread Slot}
    (registryStep : RegistryStep service action next) :
    next.getMaxSessionCount = service.getMaxSessionCount := by
  cases registryStep <;> rfl

omit [DecidableEq Thread] [DecidableEq Slot] in
/-- From an agreeing registry exactly the admissible steps lead to one. -/
theorem RegistryStep.agrees {service next : ServerService Thread Slot}
    {action : ServiceAction Thread Slot}
    (registryStep : RegistryStep service action next)
    (agrees : RegistryAgrees service)
    (bound : service.getMaxSessionCount < 2 ^ 31) :
    RegistryAgrees next ↔ Admissible service action := by
  cases registryStep with
  | beside iocp stopping arriveOnce admissible =>
      exact iff_of_true agrees admissible
  | adds iocp session arriveOnce free new exactly =>
      rw [exactly]
      exact addSession_agrees agrees bound new
  | removes iocp session arriveOnce free exactly =>
      rw [exactly]
      exact releaseSession_agrees agrees bound
  | clears iocp arriveOnce exactly =>
      rw [exactly]
      obtain ⟨counts, within⟩ := agrees
      constructor
      · intro ⟨empty, _⟩
        change service.getCurrentSessionCount = 0 at empty
        rw [counts] at empty
        exact Finset.card_eq_zero.mp (Int.natCast_eq_zero.mp empty)
      · intro empty
        rw [empty] at counts within
        exact ⟨counts, within⟩

omit [DecidableEq Thread] [DecidableEq Slot] in
/-- While `_lock` is held the registry stays as it is. -/
theorem RegistryStep.locked {service next : ServerService Thread Slot}
    {action : ServiceAction Thread Slot}
    (registryStep : RegistryStep service action next)
    (held : next.stopping ≠ none) (agrees : RegistryAgrees service) :
    RegistryAgrees next := by
  cases registryStep with
  | beside iocp stopping arriveOnce admissible => exact agrees
  | adds iocp session arriveOnce free => exact absurd free held
  | removes iocp session arriveOnce free => exact absurd free held
  | clears iocp => exact absurd rfl held

/-- What holds of every state of a run, whatever becomes of the registry. -/
structure Counted (service : ServerService Thread Slot) : Prop where
  arriveOnce : service.iocp.ArriveOnce service.sessions
  bound : service.getMaxSessionCount < 2 ^ 31

theorem Counted.step {service next : ServerService Thread Slot}
    {action : ServiceAction Thread Slot} (counted : Counted service)
    (stepped : service.step action = some next) : Counted next := by
  have registryStep := step_cases counted.arriveOnce stepped
  exact ⟨registryStep.arriveOnce,
    registryStep.maxSessionCount ▸ counted.bound⟩

/-- The registry is in order, whoever holds `_lock`. -/
structure Orderly (service : ServerService Thread Slot) : Prop
    extends Counted service where
  agrees : RegistryAgrees service

theorem Orderly.step_iff {service next : ServerService Thread Slot}
    {action : ServiceAction Thread Slot} (orderly : Orderly service)
    (stepped : service.step action = some next) :
    Orderly next ↔ Admissible service action := by
  have registryStep := step_cases orderly.arriveOnce stepped
  rw [← registryStep.agrees orderly.agrees orderly.bound]
  constructor
  · exact Orderly.agrees
  · exact fun agrees => ⟨orderly.toCounted.step stepped, agrees⟩

theorem Orderly.locked {service next : ServerService Thread Slot}
    {action : ServiceAction Thread Slot} (orderly : Orderly service)
    (stepped : service.step action = some next)
    (held : next.stopping ≠ none) : Orderly next where
  toCounted := orderly.toCounted.step stepped
  agrees := (step_cases orderly.arriveOnce stepped).locked held orderly.agrees

/-- Whenever `_lock` is free, the counter is the size of the set, and this is at
most the bound. -/
def RegistryConsistent (service : ServerService Thread Slot) : Prop :=
  service.stopping = none → RegistryAgrees service

/-- The registry is consistent throughout a run exactly if the bound is not
negative, no session is added to a full registry or released while it is not in
it, and `Stop` finds the registry empty. -/
theorem registryConsistent_iff {service final : ServerService Thread Slot}
    {actions : List (ServiceAction Thread Slot)}
    (starts : (machine Thread Slot).initial service)
    (replayed : (machine Thread Slot).run service actions = some final) :
    (0 ≤ service.getMaxSessionCount ∧
        (machine Thread Slot).RunMeets Admissible service actions) ↔
      ∀ before, before <+: actions → ∀ reached,
        (machine Thread Slot).run service before = some reached →
          RegistryConsistent reached := by
  obtain ⟨recvBuffer, maxSessionCount, int32Bound, rfl⟩ := starts
  have counted : Counted
      (initial recvBuffer maxSessionCount : ServerService Thread Slot) :=
    ⟨.initial, int32Bound⟩
  constructor
  · intro ⟨room, meets⟩ before isPrefix reached earlier _
    have orderly : Orderly
        (initial recvBuffer maxSessionCount : ServerService Thread Slot) :=
      ⟨counted, rfl, room⟩
    have always := (Machine.runMeets_iff_always Orderly.step_iff orderly
      replayed).mp meets
    exact (always before isPrefix reached earlier).agrees
  · intro consistent
    have orderly : Orderly
        (initial recvBuffer maxSessionCount : ServerService Thread Slot) :=
      ⟨counted, consistent [] List.nil_prefix _ rfl rfl⟩
    refine ⟨orderly.agrees.2, ?_⟩
    apply (Machine.runMeets_iff_always Orderly.step_iff orderly replayed).mpr
    intro before isPrefix reached earlier
    apply Machine.always_of_visible Orderly.locked orderly _ isPrefix earlier
    intro before isPrefix reached earlier free
    refine ⟨?_, consistent before isPrefix reached earlier free⟩
    exact Machine.run_invariant Counted.step counted earlier

/-- Two clients may connect. -/
def serverOfTwo : ServerService Unit Unit :=
  initial SessionRecv.serverRing 2

/-- A client connects; the worker goes on up to the return of `AddSession`. -/
def accept (session : Nat) : List (ServiceAction Unit Unit) :=
  [.iocp (.dispatch () (.succeeded (some (.accept ())))
      { setUpdateAcceptSocket := true
        getpeername := true
        register := true }),
    .iocp (.session session (.advance () .accepted)),
    .iocp (.session session (.advance () .accepted))]

/-- The rest of `ProcessConnect` and of `ProcessAccept`. -/
def finishAccept (session : Nat) : List (ServiceAction Unit Unit) :=
  List.replicate 4 (.iocp (.session session (.advance () .accepted))) ++
    [.iocp (.registerAccept () [.accepted])]

/-- The client of session 0 closes its connection. -/
def peerCloses : List (ServiceAction Unit Unit) :=
  .iocp (.dispatch () (.succeeded (some (.recv 0 0 [])))
      { setUpdateAcceptSocket := true
        getpeername := true
        register := true }) ::
    List.replicate 4 (.iocp (.session 0 (.advance () .accepted))) ++
    .iocp (.dispatch () (.succeeded (some (.disconnect 0)))
        { setUpdateAcceptSocket := true
          getpeername := true
          register := true }) ::
    List.replicate 4 (.iocp (.session 0 (.advance () .accepted)))

def stopEmpty : List (ServiceAction Unit Unit) :=
  [.iocp .closeSocket, .stop () [], .clearSessions]

/-- A client comes and goes before the server stops. -/
def quietStop : List (ServiceAction Unit Unit) :=
  .iocp (.startAccept () [.accepted]) :: accept 0 ++ finishAccept 0 ++
    peerCloses ++ stopEmpty

theorem registryConsistent_iff_quietStop :
    ∃ final, (machine Unit Unit).run serverOfTwo quietStop = some final ∧
      ∀ before, before <+: quietStop → ∀ reached,
        (machine Unit Unit).run serverOfTwo before = some reached →
          RegistryConsistent reached := by
  obtain ⟨final, replayed⟩ : ∃ final,
      (machine Unit Unit).run serverOfTwo quietStop = some final :=
    Option.isSome_iff_exists.mp (by decide +kernel)
  have starts : (machine Unit Unit).initial serverOfTwo :=
    ⟨_, _, by decide, rfl⟩
  have meets : (machine Unit Unit).RunMeets Admissible serverOfTwo
      quietStop := by decide +kernel
  refine ⟨final, replayed, (registryConsistent_iff starts replayed).mp ?_⟩
  exact ⟨by decide, meets⟩

/-- `Stop` while the client is connected, up to the release of `_lock`. -/
def stopConnected : List (ServiceAction Unit Unit) :=
  .iocp (.startAccept () [.accepted]) :: accept 0 ++ finishAccept 0 ++
    [.iocp .closeSocket, .stop () [0], .stopSession] ++
    List.replicate 3 (.iocp (.session 0 (.advance () .accepted))) ++
    [.clearSessions]

/-- A third client connects. -/
def acceptThree : List (ServiceAction Unit Unit) :=
  .iocp (.startAccept () [.accepted]) :: accept 0 ++ finishAccept 0 ++
    accept 1 ++ finishAccept 1 ++ accept 2

/-- After `Stop` an empty registry counts one session, and three sessions are
accepted where two are allowed. -/
theorem stopConnected_inconsistent :
    (∃ final, (machine Unit Unit).run serverOfTwo stopConnected = some final ∧
        final.getCurrentSessionCount = 1 ∧ final.sessions = ∅ ∧
        ¬RegistryConsistent final) ∧
      ∃ final, (machine Unit Unit).run serverOfTwo acceptThree = some final ∧
        final.sessions.card = 3 ∧ final.getMaxSessionCount = 2 ∧
        ¬RegistryConsistent final := by
  constructor
  · obtain ⟨final, replayed⟩ : ∃ final,
        (machine Unit Unit).run serverOfTwo stopConnected = some final :=
      Option.isSome_iff_exists.mp (by decide +kernel)
    have view : (final.stopping, final.getCurrentSessionCount,
        final.sessions) = (none, 1, ∅) := by
      apply Machine.view_of_run replayed
      decide +kernel
    obtain ⟨free, counts, empty⟩ := by
      simpa only [Prod.mk.injEq] using view
    refine ⟨final, replayed, counts, empty, fun consistent => ?_⟩
    have same := (consistent free).1
    rw [counts, empty] at same
    cases same
  · obtain ⟨final, replayed⟩ : ∃ final,
        (machine Unit Unit).run serverOfTwo acceptThree = some final :=
      Option.isSome_iff_exists.mp (by decide +kernel)
    have view : (final.stopping, final.sessions.card,
        final.getMaxSessionCount) = (none, 3, 2) := by
      apply Machine.view_of_run replayed
      decide +kernel
    obtain ⟨free, three, two⟩ := by
      simpa only [Prod.mk.injEq] using view
    refine ⟨final, replayed, three, two, fun consistent => ?_⟩
    have within := (consistent free).2
    rw [three, two] at within
    omega

end ServerService

end IocpChat
