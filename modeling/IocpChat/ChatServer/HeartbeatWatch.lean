import IocpChat.ChatServer.AbuseMonitor

/-!
# The heartbeat watchdog

A session gets its first tick when it is created, and the next one in
`OnConnected`.  In between, `_connected` and `AddSession` have already shown it
to the watchdogs, so a session that waited long for its client looks dead for a
moment.  From the tick of `OnConnected` on, no watchdog is wrong.
-/

namespace IocpChat

open TransitionSystem

/-- `OnConnected` has not stored its tick. -/
def MonitoredPc.awaits : MonitoredPc → Bool
  | unborn => true
  | accepting => true
  | processConnect => true
  | addSession => true
  | onConnected => true
  | firstHeartbeat _ => true
  | _ => false

/-- The tick that is about to be stored. -/
def MonitoredPc.tick : MonitoredPc → Option UInt64
  | firstHeartbeat tick => some tick
  | updateHeartbeat _ tick _ => some tick
  | handleHeartbeat tick _ => some tick
  | _ => none

/-- The subtraction does not wrap, and who is punished has been silent for more
than `timeoutMs`, counted from the connection and the last accepted packet. -/
def HeartbeatCheck.Justified {Session : Type}
    (check : HeartbeatCheck Session) : Prop :=
  check.lastHeartbeat ≤ check.now ∧
    (check.timedOut = true →
      check.connectedAt.toNat + check.timeoutMs.toNat < check.now.toNat ∧
        check.acceptedAt.toNat + check.timeoutMs.toNat < check.now.toNat)

/-- Whom a watchdog is about to report or to disconnect, the silence that it
allows, and its clock. -/
def WatchdogPc.punishes {Session : Type} :
    WatchdogPc Session → Option (Session × UInt64 × UInt64)
  | reportTimeout timeoutMs now session _ => some (session, timeoutMs, now)
  | disconnect timeoutMs now session _ => some (session, timeoutMs, now)
  | _ => none

namespace AbuseSystem

variable {Session Watchdog : Type}

def ChecksJustified (system : AbuseSystem Session Watchdog) : Prop :=
  ∀ check ∈ system.checks, check.Justified

/-- Who is reported or disconnected for a timeout was found timed out. -/
structure PunishmentsChecked (system : AbuseSystem Session Watchdog) :
    Prop where
  watchdogs : ∀ watchdog session timeoutMs now,
    (system.watchdogs watchdog).punishes = some (session, timeoutMs, now) →
    ∃ check ∈ system.checks, check.session = session ∧
      check.timeoutMs = timeoutMs ∧ check.now = now ∧ check.timedOut = true
  logs : ∀ entry ∈ system.monitor.logs,
    entry.reason = "Heartbeat Timeout (Keep-alive Failed)" →
    ∃ check ∈ system.checks, check.session = entry.sessionId ∧
      check.timedOut = true

/-- Where a watchdog reads the heartbeat of a session whose `OnConnected` has
not stored its tick, the tick of the creation is 0 or at most `timeoutMs` old,
or the session has been connected for more than `timeoutMs`. -/
def HeartbeatReady (system : AbuseSystem Session Watchdog) :
    AbuseAction Session Watchdog → Prop
  | .watch watchdog =>
      match system.watchdogs watchdog with
      | .readHeartbeat timeoutMs now session _ =>
          let state := system.sessions session
          state.pc.awaits = true →
            state.lastHeartbeatTick = 0 ∨
            now.toNat ≤ state.lastHeartbeatTick.toNat + timeoutMs.toNat ∨
            state.connectedAt.toNat + timeoutMs.toNat < now.toNat
      | _ => True
  | _ => True

/-- The ticks of a session are in order. -/
structure Timely (tickCount : UInt64) (state : MonitoredSession) : Prop where
  connected : state.connectedAt.toNat ≤ tickCount.toNat
  accepted : state.acceptedAt.toNat ≤ tickCount.toNat
  awaits : state.pc.awaits = true → state.acceptedAt = 0
  stored : state.pc.awaits = false →
    state.connectedAt.toNat ≤ state.lastHeartbeatTick.toNat ∧
      state.acceptedAt.toNat ≤ state.lastHeartbeatTick.toNat
  stores : ∀ tick, state.pc.tick = some tick →
    state.connectedAt.toNat ≤ tick.toNat ∧
      state.acceptedAt.toNat ≤ tick.toNat ∧ tick.toNat ≤ tickCount.toNat

/-- A step that stores no tick and is not about to. -/
theorem Timely.goto {tickCount : UInt64} {state next : MonitoredSession}
    {pc : MonitoredPc} (timely : Timely tickCount state)
    (at_ : state.pc = pc)
    (heartbeat : next.lastHeartbeatTick = state.lastHeartbeatTick)
    (connected : next.connectedAt = state.connectedAt)
    (accepted : next.acceptedAt = state.acceptedAt)
    (awaits : next.pc.awaits = pc.awaits)
    (none_ : next.pc.tick = none) : Timely tickCount next := by
  constructor
  · rw [connected]
    exact timely.connected
  · rw [accepted]
    exact timely.accepted
  · rw [awaits, accepted, ← at_]
    exact timely.awaits
  · rw [awaits, heartbeat, connected, accepted, ← at_]
    exact timely.stored
  · intro tick found
    rw [none_] at found
    cases found

/-- `GetTickCount64` is called, and its result is about to be stored. -/
theorem Timely.readTick {tickCount : UInt64} {state next : MonitoredSession}
    {pc : MonitoredPc} (timely : Timely tickCount state)
    (at_ : state.pc = pc)
    (heartbeat : next.lastHeartbeatTick = state.lastHeartbeatTick)
    (connected : next.connectedAt = state.connectedAt)
    (accepted : next.acceptedAt = state.acceptedAt)
    (awaits : next.pc.awaits = pc.awaits)
    (reads : next.pc.tick = some tickCount) : Timely tickCount next := by
  constructor
  · rw [connected]
    exact timely.connected
  · rw [accepted]
    exact timely.accepted
  · rw [awaits, accepted, ← at_]
    exact timely.awaits
  · rw [awaits, heartbeat, connected, accepted, ← at_]
    exact timely.stored
  · intro tick found
    rw [reads] at found
    cases found
    rw [connected, accepted]
    exact ⟨timely.connected, timely.accepted, Nat.le_refl _⟩

/-- A tick is stored; `accepted` is that of a packet, or the old one. -/
theorem Timely.store {tickCount tick : UInt64}
    {state next : MonitoredSession} (timely : Timely tickCount state)
    (reads : state.pc.tick = some tick)
    (heartbeat : next.lastHeartbeatTick = tick)
    (connected : next.connectedAt = state.connectedAt)
    (accepted : next.acceptedAt = state.acceptedAt ∨ next.acceptedAt = tick)
    (awaits : next.pc.awaits = false)
    (none_ : next.pc.tick = none) : Timely tickCount next := by
  obtain ⟨afterConnect, afterAccept, past⟩ := timely.stores tick reads
  have below : next.acceptedAt.toNat ≤ tick.toNat := by
    rcases accepted with same | same
    · rw [same]
      exact afterAccept
    · rw [same]
  constructor
  · rw [connected]
    exact timely.connected
  · exact below.trans past
  · intro before
    rw [awaits] at before
    cases before
  · intro _
    rw [heartbeat, connected]
    exact ⟨afterConnect, below⟩
  · intro other found
    rw [none_] at found
    cases found

theorem Timely.later {tickCount now : UInt64} {state : MonitoredSession}
    (timely : Timely tickCount state) (later : tickCount ≤ now) :
    Timely now state := by
  have later : tickCount.toNat ≤ now.toNat := later
  refine { timely with
    connected := timely.connected.trans later
    accepted := timely.accepted.trans later
    stores := ?_ }
  intro tick reads
  obtain ⟨afterConnect, afterAccept, past⟩ := timely.stores tick reads
  exact ⟨afterConnect, afterAccept, past.trans later⟩

variable [DecidableEq Session]

omit [DecidableEq Session] in
/-- The sessions of a system whose ticks are in order. -/
def AllTimely (system : AbuseSystem Session Watchdog) : Prop :=
  ∀ session, Timely system.tickCount (system.sessions session)

theorem AllTimely.setSession {system : AbuseSystem Session Watchdog}
    (timely : AllTimely system) {session : Session}
    {state : MonitoredSession} (next : Timely system.tickCount state) :
    AllTimely (system.setSession session state) := by
  intro other
  change Timely system.tickCount
    (Function.update system.sessions session state other)
  rw [Function.update_apply]
  split
  · exact next
  · exact timely other

theorem advance_timely {system next : AbuseSystem Session Watchdog}
    (timely : AllTimely system) {session : Session}
    (stepped : system.advance session = some next) : AllTimely next := by
  have own := timely session
  simp only [advance] at stepped
  cases at_ : (system.sessions session).pc with
  | unborn => simp [at_] at stepped
  | accepting => simp [at_] at stepped
  | receiving => simp [at_] at stepped
  | stopped => simp [at_] at stepped
  | processConnect =>
      simp only [at_] at stepped
      cases stepped
      apply timely.setSession
      have none_ : (system.sessions session).acceptedAt = 0 :=
        own.awaits (by rw [at_]; rfl)
      constructor
      · exact Nat.le_refl _
      · exact own.accepted
      · exact fun _ => none_
      · exact nofun
      · exact nofun
  | addSession =>
      simp only [at_] at stepped
      cases stepped
      apply AllTimely.setSession
      · exact timely
      · exact own.goto at_ rfl rfl rfl rfl rfl
  | onConnected =>
      simp only [at_] at stepped
      cases stepped
      apply timely.setSession
      exact own.readTick at_ rfl rfl rfl rfl rfl
  | firstHeartbeat tick =>
      simp only [at_] at stepped
      cases stepped
      apply timely.setSession
      exact own.store (by rw [at_]; rfl) rfl rfl (Or.inl rfl) rfl rfl
  | resetRateLimiter =>
      simp only [at_] at stepped
      cases stepped
      apply timely.setSession
      exact own.goto at_ rfl rfl rfl rfl rfl
  | registerRecv =>
      simp only [at_] at stepped
      cases stepped
      apply timely.setSession
      refine own.goto at_ rfl rfl rfl ?_ ?_
      · dsimp only
        split <;> rfl
      · dsimp only
        split <;> rfl
  | onRecv batch =>
      obtain ⟨packets, processedLen⟩ := batch
      cases packets with
      | nil =>
          simp only [at_] at stepped
          split at stepped
          · cases stepped
            apply timely.setSession
            exact own.goto at_ rfl rfl rfl rfl rfl
          · cases stepped
            apply timely.setSession
            exact own.goto at_ rfl rfl rfl rfl rfl
      | cons packet packets =>
          simp only [at_] at stepped
          cases stepped
          apply timely.setSession
          refine own.goto at_ rfl rfl rfl ?_ ?_
          · dsimp only
            split <;> rfl
          · dsimp only
            split <;> rfl
  | flooding batch =>
      simp only [at_] at stepped
      cases stepped
      apply timely.setSession
      refine own.goto at_ rfl rfl rfl ?_ ?_
      · dsimp only
        split <;> rfl
      · dsimp only
        split <;> rfl
  | reportFlooding batch =>
      simp only [at_] at stepped
      cases stepped
      apply AllTimely.setSession
      · exact timely
      · exact own.goto at_ rfl rfl rfl rfl rfl
  | acceptPacket packet batch =>
      simp only [at_] at stepped
      cases stepped
      apply timely.setSession
      exact own.readTick at_ rfl rfl rfl rfl rfl
  | updateHeartbeat packet tick batch =>
      simp only [at_] at stepped
      cases stepped
      apply timely.setSession
      exact own.store (by rw [at_]; rfl) rfl rfl (Or.inr rfl) rfl rfl
  | handlePacket packet batch =>
      simp only [at_] at stepped
      split at stepped
      · cases stepped
        apply AllTimely.setSession
        · exact timely
        · exact own.goto at_ rfl rfl rfl rfl rfl
      · rename_i handled _
        cases stepped
        apply timely.setSession
        by_cases heartbeat : handled.id = .cHeartbeat
        · rw [if_pos heartbeat]
          exact own.readTick at_ rfl rfl rfl rfl rfl
        · rw [if_neg heartbeat]
          exact own.goto at_ rfl rfl rfl rfl rfl
  | handleHeartbeat tick batch =>
      simp only [at_] at stepped
      cases stepped
      apply timely.setSession
      exact own.store (by rw [at_]; rfl) rfl rfl (Or.inl rfl) rfl rfl
  | reportMalformed batch =>
      simp only [at_] at stepped
      cases stepped
      apply AllTimely.setSession
      · exact timely
      · exact own.goto at_ rfl rfl rfl rfl rfl
  | disconnect batch =>
      simp only [at_] at stepped
      cases stepped
      apply timely.setSession
      exact own.goto at_ rfl rfl rfl rfl rfl

/-- Somebody else clears `_connected`. -/
theorem Timely.disconnect {tickCount : UInt64} {state : MonitoredSession}
    (timely : Timely tickCount state) :
    Timely tickCount { state with connected := false } :=
  { timely with }

variable [DecidableEq Watchdog]

theorem watch_timely {system next : AbuseSystem Session Watchdog}
    (timely : AllTimely system) {watchdog : Watchdog}
    (stepped : system.watch watchdog = some next) : AllTimely next := by
  simp only [watch] at stepped
  cases at_ : system.watchdogs watchdog with
  | idle => simp [at_] at stepped
  | snapshot timeoutMs now => simp [at_] at stepped
  | check timeoutMs now sessions =>
      cases sessions with
      | nil =>
          simp only [at_] at stepped
          cases stepped
          exact timely
      | cons session sessions =>
          simp only [at_] at stepped
          cases stepped
          exact timely
  | readHeartbeat timeoutMs now session sessions =>
      simp only [at_] at stepped
      split at stepped
      · cases stepped
        exact timely
      · cases stepped
        exact timely
  | reportTimeout timeoutMs now session sessions =>
      simp only [at_] at stepped
      cases stepped
      exact timely
  | disconnect timeoutMs now session sessions =>
      simp only [at_] at stepped
      cases stepped
      exact timely.setSession (timely session).disconnect

theorem step_timely {system next : AbuseSystem Session Watchdog}
    {action : AbuseAction Session Watchdog} (timely : AllTimely system)
    (stepped : system.step action = some next) : AllTimely next := by
  cases action with
  | tick now =>
      simp only [step] at stepped
      split at stepped <;> cases stepped
      rename_i later
      exact fun session => (timely session).later later
  | create session =>
      simp only [step, create] at stepped
      split at stepped <;> cases stepped
      rename_i at_
      apply timely.setSession
      have own := timely session
      exact
        { own with
          awaits := fun _ => own.awaits (by rw [at_]; rfl)
          stored := nofun
          stores := nofun }
  | accept session address =>
      simp only [step] at stepped
      split at stepped <;> cases stepped
      rename_i at_
      apply timely.setSession
      exact (timely session).goto at_ rfl rfl rfl rfl rfl
  | receive session buffer =>
      simp only [step, receive] at stepped
      split at stepped
      · rename_i at_
        split at stepped
        · cases stepped
          apply timely.setSession
          exact (timely session).goto at_ rfl rfl rfl rfl rfl
        · cases stepped
          apply timely.setSession
          exact (timely session).goto at_ rfl rfl rfl rfl rfl
      · cases stepped
  | advance session => exact advance_timely timely stepped
  | disconnect session =>
      cases stepped
      exact timely.setSession (timely session).disconnect
  | releaseSession session =>
      simp only [step] at stepped
      split at stepped <;> cases stepped
      exact timely
  | checkHeartbeatTimeouts watchdog timeoutMs =>
      simp only [step] at stepped
      split at stepped <;> cases stepped
      exact timely
  | snapshot watchdog sessions =>
      simp only [step] at stepped
      split at stepped
      · split at stepped <;> cases stepped
        exact timely
      · cases stepped
  | watch watchdog => exact watch_timely timely stepped

omit [DecidableEq Session] [DecidableEq Watchdog] in
/-- A subtraction is in order exactly if the session was ready for it. -/
theorem check_justified_iff {tickCount : UInt64} {state : MonitoredSession}
    (timely : Timely tickCount state) {session : Session}
    {timeoutMs now : UInt64} (nonzero : state.lastHeartbeatTick ≠ 0)
    (past : ¬now ≤ state.lastHeartbeatTick) :
    (HeartbeatCheck.Justified
      { session := session
        timeoutMs := timeoutMs
        now := now
        lastHeartbeat := state.lastHeartbeatTick
        connectedAt := state.connectedAt
        acceptedAt := state.acceptedAt }) ↔
      (state.pc.awaits = true →
        state.lastHeartbeatTick = 0 ∨
        now.toNat ≤ state.lastHeartbeatTick.toNat + timeoutMs.toNat ∨
        state.connectedAt.toNat + timeoutMs.toNat < now.toNat) := by
  have past : state.lastHeartbeatTick.toNat < now.toNat :=
    Nat.lt_of_not_le past
  have below : state.lastHeartbeatTick ≤ now := Nat.le_of_lt past
  have elapsed : (now - state.lastHeartbeatTick).toNat =
      now.toNat - state.lastHeartbeatTick.toNat :=
    UInt64.toNat_sub_of_le _ _ below
  have timedOut : timeoutMs < now - state.lastHeartbeatTick ↔
      timeoutMs.toNat < now.toNat - state.lastHeartbeatTick.toNat := by
    rw [UInt64.lt_iff_toNat_lt, elapsed]
  simp only [HeartbeatCheck.Justified, HeartbeatCheck.timedOut,
    decide_eq_true_eq, timedOut]
  constructor
  · rintro ⟨_, silent⟩ _
    by_cases late : timeoutMs.toNat <
        now.toNat - state.lastHeartbeatTick.toNat
    · exact Or.inr (Or.inr (silent late).1)
    · exact Or.inr (Or.inl (by omega))
  · intro ready
    refine ⟨below, fun late => ?_⟩
    cases awaits : state.pc.awaits with
    | true =>
        have none_ := timely.awaits awaits
        rcases ready awaits with zero | fresh | connected
        · exact absurd zero nonzero
        · omega
        · refine ⟨connected, ?_⟩
          rw [none_]
          simp only [UInt64.toNat_zero]
          omega
    | false =>
        obtain ⟨afterConnect, afterAccept⟩ := timely.stored awaits
        omega

omit [DecidableEq Watchdog] in
/-- A session neither subtracts nor reports a timeout. -/
theorem advance_frame {system next : AbuseSystem Session Watchdog}
    {session : Session} (stepped : system.advance session = some next) :
    next.checks = system.checks ∧ next.watchdogs = system.watchdogs ∧
      ∀ entry ∈ next.monitor.logs, entry ∈ system.monitor.logs ∨
        entry.reason ≠ "Heartbeat Timeout (Keep-alive Failed)" := by
  simp only [advance] at stepped
  repeat' split at stepped
  all_goals cases stepped
  all_goals first
    | exact ⟨rfl, rfl, fun _ old => Or.inl old⟩
    | refine ⟨rfl, rfl, ?_⟩
      intro entry member
      refine (AbuseMonitor.mem_reportAbuse member).imp_right ?_
      rintro ⟨_, reason⟩
      rw [reason]
      decide

/-- And it subtracts only where it has read a heartbeat. -/
theorem watch_checks {system next : AbuseSystem Session Watchdog}
    {watchdog : Watchdog}
    (elsewhere : ∀ timeoutMs now session sessions,
      system.watchdogs watchdog ≠
        .readHeartbeat timeoutMs now session sessions)
    (stepped : system.watch watchdog = some next) :
    next.checks = system.checks := by
  simp only [watch] at stepped
  cases at_ : system.watchdogs watchdog with
  | idle => simp [at_] at stepped
  | snapshot timeoutMs now => simp [at_] at stepped
  | check timeoutMs now sessions =>
      cases sessions <;> simp only [at_] at stepped <;> cases stepped <;> rfl
  | readHeartbeat timeoutMs now session sessions =>
      exact absurd at_ (elsewhere timeoutMs now session sessions)
  | reportTimeout timeoutMs now session sessions =>
      simp only [at_] at stepped
      cases stepped
      rfl
  | disconnect timeoutMs now session sessions =>
      simp only [at_] at stepped
      cases stepped
      rfl

theorem step_checks {system next : AbuseSystem Session Watchdog}
    {action : AbuseAction Session Watchdog}
    (other : ∀ watchdog, action ≠ .watch watchdog)
    (stepped : system.step action = some next) :
    next.checks = system.checks := by
  cases action with
  | watch watchdog => exact absurd rfl (other watchdog)
  | advance session => exact (advance_frame stepped).1
  | create session =>
      simp only [step, create] at stepped
      split at stepped <;> cases stepped
      rfl
  | receive session buffer =>
      simp only [step, receive] at stepped
      repeat' split at stepped
      all_goals cases stepped
      all_goals rfl
  | disconnect session =>
      cases stepped
      rfl
  | _ =>
      simp only [step] at stepped
      repeat' split at stepped
      all_goals cases stepped
      all_goals rfl

omit [DecidableEq Session] [DecidableEq Watchdog] in
/-- A step that makes nobody new to be punished. -/
theorem PunishmentsChecked.of_frame {system next : AbuseSystem Session Watchdog}
    (checked : PunishmentsChecked system)
    (kept : system.checks ⊆ next.checks)
    (watchdogs : ∀ watchdog punished,
      (next.watchdogs watchdog).punishes = some punished →
      (system.watchdogs watchdog).punishes = some punished)
    (logs : ∀ entry ∈ next.monitor.logs, entry ∈ system.monitor.logs ∨
      entry.reason ≠ "Heartbeat Timeout (Keep-alive Failed)") :
    PunishmentsChecked next := by
  constructor
  · intro watchdog session timeoutMs now punishes
    obtain ⟨check, member, found⟩ :=
      checked.watchdogs watchdog session timeoutMs now
        (watchdogs watchdog _ punishes)
    exact ⟨check, kept member, found⟩
  · intro entry member reason
    have old := (logs entry member).resolve_right fun other => other reason
    obtain ⟨check, member, found⟩ := checked.logs entry old reason
    exact ⟨check, kept member, found⟩

omit [DecidableEq Session] in
theorem punishes_setWatchdog {system : AbuseSystem Session Watchdog}
    {watchdog other : Watchdog} {pc : WatchdogPc Session}
    {punished : Session × UInt64 × UInt64}
    (own : pc.punishes = some punished →
      (system.watchdogs watchdog).punishes = some punished)
    (punishes : ((system.setWatchdog watchdog pc).watchdogs other).punishes =
      some punished) :
    (system.watchdogs other).punishes = some punished := by
  by_cases same : other = watchdog
  · subst same
    simp only [setWatchdog, Function.update_self] at punishes
    exact own punishes
  · simpa only [setWatchdog, Function.update_of_ne same] using punishes

theorem watch_punishmentsChecked {system next : AbuseSystem Session Watchdog}
    (checked : PunishmentsChecked system) {watchdog : Watchdog}
    (stepped : system.watch watchdog = some next) :
    PunishmentsChecked next := by
  simp only [watch] at stepped
  cases at_ : system.watchdogs watchdog with
  | idle => simp [at_] at stepped
  | snapshot timeoutMs now => simp [at_] at stepped
  | check timeoutMs now sessions =>
      cases sessions with
      | nil =>
          simp only [at_] at stepped
          cases stepped
          refine checked.of_frame (List.Subset.refl _) ?_ fun _ => Or.inl
          exact fun _ _ => punishes_setWatchdog nofun
      | cons session sessions =>
          simp only [at_] at stepped
          cases stepped
          refine checked.of_frame (List.Subset.refl _) ?_ fun _ => Or.inl
          refine fun _ _ => punishes_setWatchdog ?_
          split <;> exact nofun
  | readHeartbeat timeoutMs now session sessions =>
      simp only [at_] at stepped
      split at stepped
      · cases stepped
        refine checked.of_frame (List.Subset.refl _) ?_ fun _ => Or.inl
        exact fun _ _ => punishes_setWatchdog nofun
      · cases stepped
        split
        · rename_i timedOut
          constructor
          · intro other punished _ _ punishes
            by_cases same : other = watchdog
            · subst same
              simp only [setWatchdog, Function.update_self,
                WatchdogPc.punishes, Option.some.injEq, Prod.mk.injEq]
                at punishes
              obtain ⟨rfl, rfl, rfl⟩ := punishes
              exact ⟨_, List.mem_append_right _ (List.mem_singleton_self _),
                rfl, rfl, rfl, timedOut⟩
            · simp only [setWatchdog, Function.update_of_ne same] at punishes
              obtain ⟨check, member, found⟩ :=
                checked.watchdogs other _ _ _ punishes
              exact ⟨check, List.mem_append_left _ member, found⟩
          · intro entry member reason
            obtain ⟨check, member, found⟩ := checked.logs entry member reason
            exact ⟨check, List.mem_append_left _ member, found⟩
        · refine checked.of_frame (List.subset_append_left ..) ?_
            fun _ => Or.inl
          exact fun _ _ => punishes_setWatchdog nofun
  | reportTimeout timeoutMs now session sessions =>
      have punished := checked.watchdogs watchdog session timeoutMs now
        (by rw [at_]; rfl)
      simp only [at_] at stepped
      cases stepped
      constructor
      · intro other session timeoutMs now punishes
        refine checked.watchdogs other session timeoutMs now ?_
        refine punishes_setWatchdog ?_ punishes
        rw [at_]
        exact id
      · intro entry member reason
        rcases AbuseMonitor.mem_reportAbuse member with old | ⟨own, _⟩
        · exact checked.logs entry old reason
        · obtain ⟨check, member, same, _, _, timedOut⟩ := punished
          exact ⟨check, member, same.trans own.symm, timedOut⟩
  | disconnect timeoutMs now session sessions =>
      simp only [at_] at stepped
      cases stepped
      refine checked.of_frame (List.Subset.refl _) ?_ fun _ => Or.inl
      exact fun _ _ => punishes_setWatchdog nofun

theorem step_punishmentsChecked {system next : AbuseSystem Session Watchdog}
    {action : AbuseAction Session Watchdog}
    (checked : PunishmentsChecked system)
    (stepped : system.step action = some next) :
    PunishmentsChecked next := by
  cases action with
  | watch watchdog => exact watch_punishmentsChecked checked stepped
  | advance session =>
      obtain ⟨checks, watchdogs, logs⟩ := advance_frame stepped
      refine checked.of_frame ?_ ?_ logs
      · rw [checks]
        exact List.Subset.refl _
      · rw [watchdogs]
        exact fun _ _ => id
  | checkHeartbeatTimeouts watchdog timeoutMs =>
      simp only [step] at stepped
      split at stepped <;> cases stepped
      refine checked.of_frame (List.Subset.refl _) ?_ fun _ => Or.inl
      exact fun _ _ => punishes_setWatchdog nofun
  | snapshot watchdog sessions =>
      simp only [step] at stepped
      split at stepped
      · split at stepped <;> cases stepped
        refine checked.of_frame (List.Subset.refl _) ?_ fun _ => Or.inl
        exact fun _ _ => punishes_setWatchdog nofun
      · cases stepped
  | _ =>
      simp only [step, create, receive] at stepped
      repeat' split at stepped
      all_goals cases stepped
      all_goals exact
        { watchdogs := checked.watchdogs
          logs := checked.logs }

omit [DecidableEq Session] [DecidableEq Watchdog] in
theorem heartbeatReady_read {system : AbuseSystem Session Watchdog}
    {watchdog : Watchdog} {timeoutMs now : UInt64} {session : Session}
    {sessions : List Session}
    (at_ : system.watchdogs watchdog =
      .readHeartbeat timeoutMs now session sessions) :
    HeartbeatReady system (.watch watchdog) ↔
      ((system.sessions session).pc.awaits = true →
        (system.sessions session).lastHeartbeatTick = 0 ∨
        now.toNat ≤ (system.sessions session).lastHeartbeatTick.toNat +
          timeoutMs.toNat ∨
        (system.sessions session).connectedAt.toNat + timeoutMs.toNat <
          now.toNat) := by
  simp only [HeartbeatReady, at_]

theorem watch_justified_iff {system next : AbuseSystem Session Watchdog}
    (timely : AllTimely system) {watchdog : Watchdog}
    (stepped : system.watch watchdog = some next) :
    ChecksJustified next ↔
      ChecksJustified system ∧ HeartbeatReady system (.watch watchdog) := by
  cases at_ : system.watchdogs watchdog with
  | readHeartbeat timeoutMs now session sessions =>
      rw [heartbeatReady_read at_]
      simp only [watch, at_] at stepped
      split at stepped
      · rename_i skipped
        cases stepped
        refine (and_iff_left ?_).symm
        intro _
        rcases skipped with zero | early
        · exact Or.inl zero
        · have early : now.toNat ≤
              (system.sessions session).lastHeartbeatTick.toNat := early
          exact Or.inr (Or.inl (early.trans (Nat.le_add_right ..)))
      · rename_i subtracts
        rw [not_or] at subtracts
        cases stepped
        rw [← check_justified_iff (timely session) subtracts.1 subtracts.2]
        exact List.forall_mem_append.trans
          (and_congr_right' List.forall_mem_singleton)
  | _ =>
      have ready : HeartbeatReady system (.watch watchdog) := by
        simp only [HeartbeatReady, at_]
      refine Iff.trans ?_ (and_iff_left ready).symm
      unfold ChecksJustified
      rw [watch_checks (by simp [at_]) stepped]

theorem step_justified_iff {system next : AbuseSystem Session Watchdog}
    {action : AbuseAction Session Watchdog} (timely : AllTimely system)
    (stepped : system.step action = some next) :
    ChecksJustified next ↔
      ChecksJustified system ∧ HeartbeatReady system action := by
  cases action with
  | watch watchdog => exact watch_justified_iff timely stepped
  | _ =>
      unfold ChecksJustified
      rw [step_checks nofun stepped]
      exact (and_iff_left trivial).symm

/-- In every run, whoever is punished for a timeout was found timed out, and
the watchdogs punish only the silent and subtract only what is in the past
exactly if no session was read in the window. -/
theorem run_checksJustified_iff {tickCount : UInt64}
    {final : AbuseSystem Session Watchdog}
    {actions : List (AbuseAction Session Watchdog)}
    (replayed : (machine Session Watchdog).run (initial tickCount) actions =
      some final) :
    PunishmentsChecked final ∧
      (ChecksJustified final ↔
        (machine Session Watchdog).RunMeets HeartbeatReady (initial tickCount)
          actions) := by
  have timely : AllTimely (initial tickCount : AbuseSystem Session Watchdog) :=
    fun _ =>
      { connected := by simp [initial]
        accepted := by simp [initial]
        awaits := fun _ => rfl
        stored := nofun
        stores := nofun }
  have nobody : PunishmentsChecked
      (initial tickCount : AbuseSystem Session Watchdog) :=
    { watchdogs := fun _ _ _ _ => nofun
      logs := fun _ member => absurd member List.not_mem_nil }
  constructor
  · exact Machine.run_invariant step_punishmentsChecked nobody replayed
  · rw [Machine.run_iff_runMeets step_timely step_justified_iff timely replayed]
    exact and_iff_right fun _ member => absurd member List.not_mem_nil

/-- A watchdog gets to a client before `OnConnected`, ten seconds after the
accept slot was armed; the client then asks for the rooms and is silent. -/
def silentClient : List (AbuseAction Unit Unit) :=
  [.tick 60000, .create (), .tick 70000,
    .accept () ⟨literal "127.0.0.1", 7777⟩, .advance (), .advance (),
    .checkHeartbeatTimeouts () 15000, .snapshot () [()], .watch (),
    .watch (), .watch (), .advance (), .advance (), .advance (), .advance (),
    .receive () [4, 0, 237, 3], .tick 70500, .advance (), .advance (),
    .advance (), .advance (), .tick 85501,
    .checkHeartbeatTimeouts () 15000, .snapshot () [()], .watch (),
    .watch (), .watch (), .watch ()]

/-- The first check reads the tick of the creation and passes, the second one
finds the client timed out. -/
theorem silentClient_heartbeatReady :
    (machine Unit Unit).RunMeets HeartbeatReady (initial 1) silentClient ∧
      ∃ final, (machine Unit Unit).run (initial 1) silentClient = some final ∧
        ChecksJustified final ∧
        (final.checks.map fun check =>
          (check.lastHeartbeat, check.connectedAt, check.timedOut)) =
            [(60000, 70000, false), (70500, 70000, true)] ∧
        (final.sessions ()).connected = false := by
  obtain ⟨final, replayed⟩ :
      ∃ final, (machine Unit Unit).run (initial 1) silentClient = some final :=
    Option.isSome_iff_exists.mp (by decide +kernel)
  have checks : final.checks =
      [{ session := ()
         timeoutMs := 15000
         now := 70000
         lastHeartbeat := 60000
         connectedAt := 70000
         acceptedAt := 0 },
       { session := ()
         timeoutMs := 15000
         now := 85501
         lastHeartbeat := 70500
         connectedAt := 70000
         acceptedAt := 70500 }] := by
    apply Machine.view_of_run replayed
    decide +kernel
  have disconnected : (final.sessions ()).connected = false := by
    apply Machine.view_of_run replayed
    decide +kernel
  have justified : ChecksJustified final := by
    unfold ChecksJustified
    rw [checks, List.forall_mem_cons, List.forall_mem_singleton]
    refine ⟨⟨?_, ?_⟩, ?_, ?_⟩ <;> decide
  refine ⟨(run_checksJustified_iff replayed).2.mp justified, final, replayed,
    justified, ?_, disconnected⟩
  rw [checks]
  rfl

/-- The accept slot has been armed for 100 seconds when the client connects, and
a watchdog gets there before `OnConnected`. -/
def lateClient : List (AbuseAction Unit Unit) :=
  [.create (), .tick 100000, .accept () ⟨literal "127.0.0.1", 7777⟩,
    .advance (), .advance (), .checkHeartbeatTimeouts () 15000,
    .snapshot () [()], .watch (), .watch (), .watch (), .watch ()]

theorem lateClient_punished :
    ∃ final, (machine Unit Unit).run (initial 1) lateClient = some final ∧
      final.monitor.logs.map AbuseLogEntry.reason =
        ["Heartbeat Timeout (Keep-alive Failed)"] ∧
      (final.sessions ()).connected = false ∧ ¬ChecksJustified final := by
  obtain ⟨final, replayed⟩ :
      ∃ final, (machine Unit Unit).run (initial 1) lateClient = some final :=
    Option.isSome_iff_exists.mp (by decide +kernel)
  have checks : final.checks =
      [{ session := ()
         timeoutMs := 15000
         now := 100000
         lastHeartbeat := 1
         connectedAt := 100000
         acceptedAt := 0 }] := by
    apply Machine.view_of_run replayed
    decide +kernel
  have reported : final.monitor.logs.map AbuseLogEntry.reason =
      ["Heartbeat Timeout (Keep-alive Failed)"] := by
    apply Machine.view_of_run replayed
    decide +kernel
  have disconnected : (final.sessions ()).connected = false := by
    apply Machine.view_of_run replayed
    decide +kernel
  refine ⟨final, replayed, reported, disconnected, ?_⟩
  unfold ChecksJustified
  rw [checks, List.forall_mem_singleton]
  intro justified
  obtain ⟨silent, _⟩ := justified.2 rfl
  revert silent
  decide

end AbuseSystem

end IocpChat
