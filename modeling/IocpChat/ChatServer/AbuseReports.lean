import IocpChat.ChatServer.AbuseMonitor
import IocpChat.Lib.Threads
import Mathlib.Data.Fintype.Basic

/-!
# Abuse reports

`ReportAbuse` is called at three places.  `_isAbuseReported` guards one of
them, so a session is reported once for flooding, but again for each malformed
packet and for each watchdog that finds it timed out.  The calls that have been
made or are about to be made are counted against these offences.
-/

namespace IocpChat

open TransitionSystem

/-- The session is about to call `ReportAbuse`. -/
def MonitoredPc.reports : MonitoredPc → Bool
  | reportFlooding _ => true
  | reportMalformed _ => true
  | _ => false

/-- The watchdog is about to call `ReportAbuse` for this session. -/
def WatchdogPc.reports {Session : Type} [DecidableEq Session]
    (session : Session) : WatchdogPc Session → Bool
  | reportTimeout _ _ punished _ => punished = session
  | _ => false

namespace AbuseSystem

variable {Session Watchdog : Type} [DecidableEq Session]

/-- The log entries of a session. -/
def reported (system : AbuseSystem Session Watchdog) (session : Session) :
    Nat :=
  system.monitor.logs.countP (·.sessionId = session)

/-- The calls of `ReportAbuse` for a session, those included that are about to
be made. -/
def reportCalls [Fintype Watchdog] (system : AbuseSystem Session Watchdog)
    (session : Session) : Nat :=
  system.reported session + (system.sessions session).pc.reports.toNat +
    Threads.count (WatchdogPc.reports session) system.watchdogs

/-- Flooding, which counts once, each packet that `HandlePacket` refused, and
each subtraction that found the session timed out. -/
def offences (system : AbuseSystem Session Watchdog) (session : Session) :
    Nat :=
  (system.sessions session).isAbuseReported.toNat +
    system.refused.count session +
    system.checks.countP fun check => check.session = session ∧ check.timedOut

/-- The step is an offence of the session. -/
def offends (system : AbuseSystem Session Watchdog) (session : Session) :
    AbuseAction Session Watchdog → Bool
  | .advance other =>
      other = session &&
        match (system.sessions session).pc with
        | .flooding _ => !(system.sessions session).isAbuseReported
        | .handlePacket packet _ => (readPacket packet).isNone
        | _ => false
  | .watch watchdog =>
      match system.watchdogs watchdog with
      | .readHeartbeat timeoutMs now other _ =>
          let lastHeartbeat := (system.sessions session).lastHeartbeatTick
          decide (other = session ∧ lastHeartbeat ≠ 0 ∧ lastHeartbeat < now ∧
            timeoutMs < now - lastHeartbeat)
      | _ => false
  | _ => false

/-- The session commits no offence after its first. -/
def FirstOffence (session : Session) (system : AbuseSystem Session Watchdog)
    (action : AbuseAction Session Watchdog) : Prop :=
  system.offends session action = true → system.offences session = 0

instance (session : Session) (system : AbuseSystem Session Watchdog)
    (action : AbuseAction Session Watchdog) :
    Decidable (FirstOffence session system action) :=
  inferInstanceAs (Decidable (_ → _))

variable [Fintype Watchdog]

/-- So many offences, and as many calls of `ReportAbuse`, are new. -/
def Adds (observed : Session) (system next : AbuseSystem Session Watchdog)
    (added : Nat) : Prop :=
  next.offences observed = system.offences observed + added ∧
    next.reportCalls observed = system.reportCalls observed + added

theorem Adds.trans {observed : Session}
    {system middle next : AbuseSystem Session Watchdog} {first second : Nat}
    (before : Adds observed system middle first)
    (after : Adds observed middle next second) :
    Adds observed system next (first + second) := by
  unfold Adds at *
  omega

/-- Nothing that is counted changes. -/
theorem Adds.of_same {observed : Session}
    {system next : AbuseSystem Session Watchdog}
    (watchdogs : next.watchdogs = system.watchdogs)
    (checks : next.checks = system.checks)
    (refused : next.refused.count observed = system.refused.count observed)
    (logs : next.reported observed = system.reported observed)
    (reports : (next.sessions observed).pc.reports =
      (system.sessions observed).pc.reports)
    (flag : (next.sessions observed).isAbuseReported =
      (system.sessions observed).isAbuseReported) :
    Adds observed system next 0 := by
  constructor
  · simp only [offences, flag, refused, checks, Nat.add_zero]
  · simp only [reportCalls, logs, reports, watchdogs, Nat.add_zero]

/-- The session moves between two places where it does not report. -/
theorem Adds.setSession {observed session : Session}
    {system : AbuseSystem Session Watchdog} {state : MonitoredSession}
    (reports : state.pc.reports = (system.sessions session).pc.reports)
    (flag : state.isAbuseReported =
      (system.sessions session).isAbuseReported) :
    Adds observed system (system.setSession session state) 0 := by
  refine Adds.of_same rfl rfl rfl rfl ?_ ?_
  · by_cases own : observed = session
    · subst own
      simpa [AbuseSystem.setSession] using reports
    · simp [AbuseSystem.setSession, own]
  · by_cases own : observed = session
    · subst own
      simpa [AbuseSystem.setSession] using flag
    · simp [AbuseSystem.setSession, own]

/-- What a session does is not charged to another. -/
theorem advance_other {observed session : Session}
    {system next : AbuseSystem Session Watchdog}
    (other : session ≠ observed)
    (stepped : system.advance session = some next) :
    Adds observed system next 0 := by
  simp only [advance] at stepped
  repeat' split at stepped
  all_goals cases stepped
  all_goals
    refine Adds.of_same rfl rfl ?_ ?_ ?_ ?_ <;>
      simp [AbuseSystem.setSession, reported, AbuseMonitor.reportAbuse, other,
        other.symm]

theorem advance_adds_own {session : Session}
    {system next : AbuseSystem Session Watchdog}
    (stepped : system.advance session = some next) :
    Adds session system next
      (system.offends session (.advance session)).toNat := by
  simp only [advance] at stepped
  simp only [offends, decide_true, Bool.true_and]
  cases at_ : (system.sessions session).pc with
  | unborn => simp [at_] at stepped
  | accepting => simp [at_] at stepped
  | receiving => simp [at_] at stepped
  | stopped => simp [at_] at stepped
  | onRecv batch =>
      obtain ⟨packets, processedLen⟩ := batch
      cases packets with
      | nil =>
          simp only [at_] at stepped
          split at stepped <;> cases stepped
          · exact Adds.setSession (by rw [at_]; rfl) rfl
          · exact Adds.setSession (by rw [at_]; rfl) rfl
      | cons packet packets =>
          simp only [at_] at stepped
          cases stepped
          refine Adds.setSession ?_ rfl
          rw [at_]
          dsimp only
          split <;> rfl
  | registerRecv =>
      simp only [at_] at stepped
      cases stepped
      refine Adds.setSession ?_ rfl
      rw [at_]
      dsimp only
      split <;> rfl
  | flooding batch =>
      simp only [at_] at stepped
      cases stepped
      cases flag : (system.sessions session).isAbuseReported with
      | true => exact Adds.setSession (by rw [at_]; rfl) flag.symm
      | false =>
          constructor
          · simp only [offences, AbuseSystem.setSession, Function.update_self,
              flag]
            simp only [Bool.toNat_true, Bool.toNat_false, Bool.not_false]
            omega
          · simp only [reportCalls, reported, AbuseSystem.setSession,
              Function.update_self, at_, Bool.false_eq_true, if_false]
            simp only [MonitoredPc.reports, Bool.toNat_true, Bool.toNat_false,
              Bool.not_false]
            omega
  | reportFlooding batch =>
      simp only [at_] at stepped
      cases stepped
      constructor
      · simp [offences, AbuseSystem.setSession]
      · simp [reportCalls, reported, AbuseSystem.setSession, at_,
          MonitoredPc.reports, AbuseMonitor.reportAbuse]
  | handlePacket packet batch =>
      simp only [at_] at stepped
      split at stepped
      · rename_i refused
        cases stepped
        simp only [refused, Option.isNone_none, Bool.toNat_true]
        constructor
        · simp only [offences, AbuseSystem.setSession, Function.update_self,
            List.count_append, List.count_singleton_self]
          omega
        · simp only [reportCalls, reported, AbuseSystem.setSession,
            Function.update_self, at_, MonitoredPc.reports]
          simp only [Bool.toNat_true, Bool.toNat_false]
          omega
      · rename_i handled
        cases stepped
        simp only [handled, Option.isNone_some, Bool.toNat_false]
        refine Adds.setSession ?_ rfl
        rw [at_]
        dsimp only
        split <;> rfl
  | reportMalformed batch =>
      simp only [at_] at stepped
      cases stepped
      constructor
      · simp [offences, AbuseSystem.setSession]
      · simp [reportCalls, reported, AbuseSystem.setSession, at_,
          MonitoredPc.reports, AbuseMonitor.reportAbuse]
  | _ =>
      simp only [at_] at stepped
      cases stepped
      exact Adds.setSession (by rw [at_]; rfl) rfl

theorem advance_adds {observed session : Session}
    {system next : AbuseSystem Session Watchdog}
    (stepped : system.advance session = some next) :
    Adds observed system next
      (system.offends observed (.advance session)).toNat := by
  by_cases own : session = observed
  · subst own
    exact advance_adds_own stepped
  · have innocent : system.offends observed (.advance session) = false := by
      simp [offends, own]
    rw [innocent]
    exact advance_other own stepped

variable [DecidableEq Watchdog]

/-- A watchdog moves without reporting. -/
theorem Adds.setWatchdog {observed : Session}
    {system : AbuseSystem Session Watchdog} {watchdog : Watchdog}
    {pc : WatchdogPc Session}
    (same : pc.reports observed =
      (system.watchdogs watchdog).reports observed) :
    Adds observed system (system.setWatchdog watchdog pc) 0 := by
  constructor
  · rfl
  · simp only [reportCalls, reported, AbuseSystem.setWatchdog, Nat.add_zero]
    rw [Threads.count_update_same same]

/-- A watchdog that was not reporting records a subtraction. -/
theorem Adds.subtract {observed : Session}
    {system : AbuseSystem Session Watchdog} {watchdog : Watchdog}
    {check : HeartbeatCheck Session} {pc : WatchdogPc Session} {offence : Bool}
    (quiet : (system.watchdogs watchdog).reports observed = false)
    (counts : decide (check.session = observed ∧ check.timedOut = true) =
      offence)
    (reports : pc.reports observed = offence) :
    Adds observed system
      ({ system with checks := system.checks ++ [check] }.setWatchdog
        watchdog pc) offence.toNat := by
  have moved := @Threads.count_update _ _ _ _
    (WatchdogPc.reports observed) system.watchdogs watchdog pc
  rw [quiet, reports] at moved
  constructor
  · rw [← counts]
    simp only [offences, AbuseSystem.setWatchdog, List.countP_append,
      List.countP_singleton, Bool.toNat, cond_eq_ite]
    omega
  · simp only [reportCalls, reported, AbuseSystem.setWatchdog,
      Bool.toNat_false] at moved ⊢
    omega

theorem watch_adds {observed : Session}
    {system next : AbuseSystem Session Watchdog} {watchdog : Watchdog}
    (stepped : system.watch watchdog = some next) :
    Adds observed system next
      (system.offends observed (.watch watchdog)).toNat := by
  simp only [watch] at stepped
  simp only [offends]
  cases at_ : system.watchdogs watchdog with
  | idle => simp [at_] at stepped
  | snapshot timeoutMs now => simp [at_] at stepped
  | check timeoutMs now sessions =>
      cases sessions with
      | nil =>
          simp only [at_] at stepped
          cases stepped
          exact Adds.setWatchdog (by rw [at_]; rfl)
      | cons session sessions =>
          simp only [at_] at stepped
          cases stepped
          refine Adds.setWatchdog ?_
          rw [at_]
          split <;> rfl
  | readHeartbeat timeoutMs now session sessions =>
      simp only [at_] at stepped
      split at stepped
      · rename_i skipped
        cases stepped
        have innocent : ¬(session = observed ∧
            (system.sessions observed).lastHeartbeatTick ≠ 0 ∧
            (system.sessions observed).lastHeartbeatTick < now ∧
            timeoutMs < now -
              (system.sessions observed).lastHeartbeatTick) := by
          rintro ⟨rfl, nonzero, past, _⟩
          rcases skipped with zero | early
          · exact nonzero zero
          · exact UInt64.not_le.mpr past early
        simp only [innocent, decide_false, Bool.toNat_false]
        exact Adds.setWatchdog (by rw [at_]; rfl)
      · rename_i subtracts
        rw [not_or, UInt64.not_le] at subtracts
        cases stepped
        refine Adds.subtract (by rw [at_]; rfl) ?_ ?_
        · rw [decide_eq_decide]
          simp only [HeartbeatCheck.timedOut, decide_eq_true_eq]
          constructor
          · rintro ⟨rfl, late⟩
            exact ⟨rfl, subtracts.1, subtracts.2, late⟩
          · rintro ⟨rfl, _, _, late⟩
            exact ⟨rfl, late⟩
        · rw [Bool.eq_iff_iff, decide_eq_true_eq]
          split
          · rename_i late
            simp only [HeartbeatCheck.timedOut, decide_eq_true_eq] at late
            simp only [WatchdogPc.reports, decide_eq_true_eq]
            constructor
            · rintro rfl
              exact ⟨rfl, subtracts.1, subtracts.2, late⟩
            · exact fun offence => offence.1
          · rename_i inTime
            simp only [HeartbeatCheck.timedOut, decide_eq_true_eq] at inTime
            refine iff_of_false Bool.false_ne_true ?_
            rintro ⟨rfl, _, _, late⟩
            exact inTime late
  | reportTimeout timeoutMs now session sessions =>
      simp only [at_] at stepped
      cases stepped
      constructor
      · rfl
      · have moved := @Threads.count_update _ _ _ _
          (WatchdogPc.reports observed) system.watchdogs watchdog
          (.disconnect timeoutMs now session sessions)
        rw [at_] at moved
        by_cases own : session = observed
        · simp [reportCalls, reported, AbuseSystem.setWatchdog,
            AbuseMonitor.reportAbuse, own, WatchdogPc.reports] at moved ⊢
          omega
        · simp [reportCalls, reported, AbuseSystem.setWatchdog,
            AbuseMonitor.reportAbuse, own, WatchdogPc.reports] at moved ⊢
          omega
  | disconnect timeoutMs now session sessions =>
      simp only [at_] at stepped
      cases stepped
      have cleared : Adds observed system
          (system.setSession session
            { system.sessions session with connected := false }) 0 :=
        Adds.setSession rfl rfl
      refine cleared.trans (Adds.setWatchdog ?_)
      simp only [AbuseSystem.setSession, at_]
      rfl

/-- A step adds an offence and a call of `ReportAbuse`, or neither. -/
theorem step_adds {observed : Session}
    {system next : AbuseSystem Session Watchdog}
    {action : AbuseAction Session Watchdog}
    (stepped : system.step action = some next) :
    Adds observed system next (system.offends observed action).toNat := by
  cases action with
  | tick now =>
      simp only [step] at stepped
      split at stepped <;> cases stepped
      exact Adds.of_same rfl rfl rfl rfl rfl rfl
  | create session =>
      simp only [step, create] at stepped
      split at stepped <;> cases stepped
      rename_i at_
      exact Adds.setSession (by rw [at_]; rfl) rfl
  | accept session address =>
      simp only [step] at stepped
      split at stepped <;> cases stepped
      rename_i at_
      exact Adds.setSession (by rw [at_]; rfl) rfl
  | receive session buffer =>
      simp only [step, receive] at stepped
      split at stepped
      · rename_i at_
        split at stepped <;> cases stepped
        · exact Adds.setSession (by rw [at_]; rfl) rfl
        · exact Adds.setSession (by rw [at_]; rfl) rfl
      · cases stepped
  | advance session => exact advance_adds stepped
  | disconnect session =>
      cases stepped
      exact Adds.setSession rfl rfl
  | releaseSession session =>
      simp only [step] at stepped
      split at stepped <;> cases stepped
      exact Adds.of_same rfl rfl rfl rfl rfl rfl
  | checkHeartbeatTimeouts watchdog timeoutMs =>
      simp only [step] at stepped
      split at stepped <;> cases stepped
      rename_i at_
      exact Adds.setWatchdog (by rw [at_]; rfl)
  | snapshot watchdog sessions =>
      simp only [step] at stepped
      split at stepped
      · rename_i at_
        split at stepped <;> cases stepped
        exact Adds.setWatchdog (by rw [at_]; rfl)
      · cases stepped
  | watch watchdog => exact watch_adds stepped

/-- Each offence has its call. -/
def Accounted (session : Session) (system : AbuseSystem Session Watchdog) :
    Prop :=
  system.reportCalls session = system.offences session

theorem step_accounted {session : Session}
    {system next : AbuseSystem Session Watchdog}
    {action : AbuseAction Session Watchdog}
    (accounted : Accounted session system)
    (stepped : system.step action = some next) : Accounted session next := by
  have added := @step_adds _ _ _ _ _ session _ _ _ stepped
  unfold Accounted Adds at *
  omega

/-- A second call comes from a second offence. -/
theorem step_reportCalls_iff {session : Session}
    {system next : AbuseSystem Session Watchdog}
    {action : AbuseAction Session Watchdog}
    (accounted : Accounted session system)
    (stepped : system.step action = some next) :
    next.reportCalls session ≤ 1 ↔
      system.reportCalls session ≤ 1 ∧ FirstOffence session system action := by
  have added := (@step_adds _ _ _ _ _ session _ _ _ stepped).2
  unfold Accounted at accounted
  unfold FirstOffence
  cases offence : system.offends session action with
  | true =>
      rw [offence, Bool.toNat_true] at added
      simp only [true_implies]
      omega
  | false =>
      rw [offence, Bool.toNat_false] at added
      simp only [Bool.false_eq_true, false_implies, and_true]
      omega

omit [Fintype Watchdog] in
/-- `_abuseCount` is the number of log entries, modulo 2^32. -/
def Counted (system : AbuseSystem Session Watchdog) : Prop :=
  system.monitor.abuseCount = .ofNat system.monitor.logs.length

omit [Fintype Watchdog] in
theorem step_counted {system next : AbuseSystem Session Watchdog}
    {action : AbuseAction Session Watchdog} (counted : Counted system)
    (stepped : system.step action = some next) : Counted next := by
  have reports : ∀ session playerName address reason tick,
      (system.monitor.reportAbuse session playerName address reason
          tick).abuseCount =
        .ofNat (system.monitor.reportAbuse session playerName address reason
          tick).logs.length := by
    intro session playerName address reason tick
    unfold Counted at counted
    simp only [AbuseMonitor.reportAbuse, List.length_append,
      List.length_singleton, UInt32.ofNat_add, counted]
    rfl
  cases action <;>
    simp only [step, create, receive, advance, watch] at stepped
  all_goals
    repeat' split at stepped
    all_goals cases stepped
    all_goals first
      | exact counted
      | exact reports ..

/-- In every run a session is reported at most once exactly if it commits no
offence after its first; each report is one log entry and counts one. -/
theorem run_reportCalls_iff {session : Session} {tickCount : UInt64}
    {final : AbuseSystem Session Watchdog}
    {actions : List (AbuseAction Session Watchdog)}
    (replayed : (machine Session Watchdog).run (initial tickCount) actions =
      some final) :
    (final.reportCalls session ≤ 1 ↔
        (machine Session Watchdog).RunMeets (FirstOffence session)
          (initial tickCount) actions) ∧
      final.reported session ≤ final.reportCalls session ∧
      Counted final := by
  have nothing : (initial tickCount :
      AbuseSystem Session Watchdog).reportCalls session = 0 := by
    simp [reportCalls, reported, initial, Threads.count, WatchdogPc.reports,
      MonitoredPc.reports]
  have accounted : Accounted session
      (initial tickCount : AbuseSystem Session Watchdog) := by
    unfold Accounted
    rw [nothing]
    rfl
  refine ⟨?_, ?_, ?_⟩
  · rw [Machine.run_iff_runMeets step_accounted step_reportCalls_iff accounted
      replayed, nothing]
    exact and_iff_right (Nat.zero_le 1)
  · unfold reportCalls
    omega
  · have counted : Counted
        (initial tickCount : AbuseSystem Session Watchdog) := rfl
    exact Machine.run_invariant step_counted counted replayed

/-- A session has connected and sends these bytes. -/
def sending (buffer : List UInt8) (steps : Nat) :
    List (AbuseAction Unit Unit) :=
  [.create (), .accept () ⟨literal "127.0.0.1", 7777⟩, .advance (),
    .advance (), .advance (), .advance (), .advance (), .advance (),
    .receive () buffer] ++ List.replicate steps (.advance ())

/-- One packet with an unknown id. -/
theorem malformed_reported :
    ∃ final, (machine Unit Unit).run (initial 1) (sending [4, 0, 0, 0] 6) =
        some final ∧
      final.reportCalls () ≤ 1 ∧ final.reported () = 1 ∧
      final.monitor.abuseCount = 1 := by
  obtain ⟨final, replayed⟩ :
      ∃ final, (machine Unit Unit).run (initial 1)
        (sending [4, 0, 0, 0] 6) = some final :=
    Option.isSome_iff_exists.mp (by decide +kernel)
  have entries : final.monitor.logs.map AbuseLogEntry.reason =
      ["Invalid Packet Framing / Malformed Data"] := by
    apply Machine.view_of_run replayed
    decide +kernel
  have reported : final.reported () = 1 := by
    apply Machine.view_of_run replayed
    decide +kernel
  obtain ⟨once, _, counted⟩ :=
    @run_reportCalls_iff Unit Unit _ _ _ () _ _ _ replayed
  refine ⟨final, replayed, once.mpr (by decide +kernel), reported, ?_⟩
  unfold Counted at counted
  rw [counted, ← List.length_map, entries]
  rfl

/-- Two packets with an unknown id in one batch. -/
theorem malformedTwice_reportedTwice :
    ∃ final, (machine Unit Unit).run (initial 1)
        (sending [4, 0, 0, 0, 4, 0, 0, 0] 12) = some final ∧
      final.monitor.logs.map AbuseLogEntry.reason =
        ["Invalid Packet Framing / Malformed Data",
          "Invalid Packet Framing / Malformed Data"] ∧
      final.reported () = 2 ∧ final.monitor.abuseCount = 2 := by
  obtain ⟨final, replayed⟩ :
      ∃ final, (machine Unit Unit).run (initial 1)
        (sending [4, 0, 0, 0, 4, 0, 0, 0] 12) = some final :=
    Option.isSome_iff_exists.mp (by decide +kernel)
  refine ⟨final, replayed, ?_, ?_, ?_⟩
  · apply Machine.view_of_run replayed
    decide +kernel
  · apply Machine.view_of_run replayed
    decide +kernel
  · apply Machine.view_of_run replayed
    decide +kernel

end AbuseSystem

end IocpChat
