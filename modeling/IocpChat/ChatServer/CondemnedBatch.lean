import IocpChat.ChatServer.AbuseMonitor
import IocpChat.Utility.RateLimit

/-!
# The packets behind a disconnect

`OnRecvPacket` returns nothing, so the loop of `OnRecv` does not learn that the
session was disconnected and hands over the rest of the batch.  A packet that
still finds a token is executed.
-/

namespace IocpChat

open TransitionSystem

/-- What `GetTickCount64` returns while a packet is handled. -/
structure PacketTicks where
  consume : UInt64
  updateHeartbeat : UInt64
  deriving DecidableEq, Repr

/-- The calls that `OnRecvPacket` makes. -/
inductive PacketCall where
  | reportAbuse (reason : String)
  | disconnect (reason : String)
  | updateHeartbeat (tick : UInt64)
  | handlePacket (buffer : List UInt8)
  deriving DecidableEq, Repr

def PacketCall.IsDisconnect : PacketCall → Prop
  | disconnect _ => True
  | _ => False

def PacketCall.IsHandlePacket : PacketCall → Prop
  | handlePacket _ => True
  | _ => False

/-- Nothing is executed for a session that has been disconnected. -/
def NothingAfterDisconnect (calls : List PacketCall) : Prop :=
  calls.Pairwise fun earlier later =>
    earlier.IsDisconnect → ¬later.IsHandlePacket

/-- What decides over the packets of a session. -/
structure FloodGuard where
  rateLimiter : TokenBucket
  isAbuseReported : Bool
  deriving DecidableEq, Repr

namespace FloodGuard

/-- `ClientSession::OnRecvPacket`. -/
def onRecvPacket (guard : FloodGuard) (ticks : PacketTicks)
    (buffer : List UInt8) : List PacketCall × FloodGuard :=
  let (admitted, rateLimiter) := guard.rateLimiter.consume 1 ticks.consume
  if admitted then
    (.updateHeartbeat ticks.updateHeartbeat :: .handlePacket buffer ::
      (if (readPacket buffer).isNone then
        [.reportAbuse "Invalid Packet Framing / Malformed Data",
          .disconnect "Invalid Packet Format"]
      else []),
      { guard with rateLimiter := rateLimiter })
  else
    ((if guard.isAbuseReported then []
      else [.reportAbuse "Packet Flooding Detected"]) ++
        [.disconnect "Packet Flooding Detected"],
      { rateLimiter := rateLimiter
        isAbuseReported := true })

/-- The calls for each of these packets in turn. -/
def onRecvPackets : FloodGuard → (Nat → PacketTicks) → List (List UInt8) →
    List (List PacketCall)
  | _, _, [] => []
  | guard, clock, packet :: rest =>
      let (calls, next) := guard.onRecvPacket (clock 0) packet
      calls :: next.onRecvPackets (fun place => clock (place + 1)) rest

/-- The calls of the whole batch.  The loop of `OnRecv` works on a copy of the
received bytes, which no call changes. -/
def onRecv (guard : FloodGuard) (clock : Nat → PacketTicks)
    (buffer : List UInt8) : List PacketCall :=
  (guard.onRecvPackets clock (PacketSession.onRecv buffer).1).flatten

/-- The packet at this place of a batch finds a token. -/
def Admits (bucket : TokenBucket) (clock : Nat → PacketTicks) (place : Nat) :
    Prop :=
  let earlier := (List.range place).map fun other => (clock other).consume
  ((bucket.after earlier).consume 1 (clock place).consume).1 = true

/-- A packet with one behind it that finds a token finds one itself, and is
accepted. -/
def RefusesLast (bucket : TokenBucket) (clock : Nat → PacketTicks)
    (packets : List (List UInt8)) : Prop :=
  ∀ place later packet, place < later → later < packets.length →
    packets[place]? = some packet → Admits bucket clock later →
    Admits bucket clock place ∧ (readPacket packet).isSome

section Packet

variable (guard : FloodGuard) (ticks : PacketTicks) (packet : List UInt8)

/-- The packet finds a token now. -/
def Admitted : Prop :=
  (guard.rateLimiter.consume 1 ticks.consume).1 = true

theorem onRecvPacket_admitted (admitted : guard.Admitted ticks) :
    (guard.onRecvPacket ticks packet).1 =
      .updateHeartbeat ticks.updateHeartbeat :: .handlePacket packet ::
        (if (readPacket packet).isNone then
          [.reportAbuse "Invalid Packet Framing / Malformed Data",
            .disconnect "Invalid Packet Format"]
        else []) := by
  have found : (guard.rateLimiter.consume 1 ticks.consume).1 = true := admitted
  simp only [onRecvPacket, found, if_true]

theorem onRecvPacket_flooding (noToken : ¬guard.Admitted ticks) :
    (guard.onRecvPacket ticks packet).1 =
      (if guard.isAbuseReported then []
        else [.reportAbuse "Packet Flooding Detected"]) ++
          [.disconnect "Packet Flooding Detected"] := by
  have missing : ¬(guard.rateLimiter.consume 1 ticks.consume).1 = true :=
    noToken
  simp only [onRecvPacket, missing]
  rfl

/-- Each call takes its token from the bucket that the last call left. -/
theorem onRecvPacket_rateLimiter :
    (guard.onRecvPacket ticks packet).2.rateLimiter =
      (guard.rateLimiter.consume 1 ticks.consume).2 := by
  simp only [onRecvPacket]
  split <;> rfl

theorem executes_iff :
    (∃ call ∈ (guard.onRecvPacket ticks packet).1, call.IsHandlePacket) ↔
      guard.Admitted ticks := by
  by_cases admitted : guard.Admitted ticks
  · rw [onRecvPacket_admitted _ _ _ admitted]
    apply iff_of_true _ admitted
    refine ⟨.handlePacket packet, ?_, trivial⟩
    exact List.mem_cons_of_mem _ (List.mem_cons_self ..)
  · rw [onRecvPacket_flooding _ _ _ admitted]
    apply iff_of_false _ admitted
    cases guard.isAbuseReported with
    | false => simp [PacketCall.IsHandlePacket]
    | true => simp [PacketCall.IsHandlePacket]

theorem spares_iff :
    (¬∃ call ∈ (guard.onRecvPacket ticks packet).1, call.IsDisconnect) ↔
      guard.Admitted ticks ∧ (readPacket packet).isSome := by
  by_cases admitted : guard.Admitted ticks
  · rw [onRecvPacket_admitted _ _ _ admitted]
    cases read : readPacket packet with
    | none => simp [PacketCall.IsDisconnect]
    | some accepted => simp [PacketCall.IsDisconnect, admitted]
  · rw [onRecvPacket_flooding _ _ _ admitted]
    apply iff_of_false _ fun both => admitted both.1
    apply not_not.mpr
    refine ⟨.disconnect "Packet Flooding Detected", ?_, trivial⟩
    exact List.mem_append_right _ (List.mem_singleton_self _)

/-- A packet of its own is handled before it is held against the session. -/
theorem onRecvPacket_ordered :
    NothingAfterDisconnect (guard.onRecvPacket ticks packet).1 := by
  by_cases admitted : guard.Admitted ticks
  · rw [onRecvPacket_admitted _ _ _ admitted]
    cases read : readPacket packet with
    | none => simp [NothingAfterDisconnect, PacketCall.IsDisconnect,
        PacketCall.IsHandlePacket]
    | some accepted => simp [NothingAfterDisconnect, PacketCall.IsDisconnect]
  · rw [onRecvPacket_flooding _ _ _ admitted]
    cases guard.isAbuseReported with
    | false => simp [NothingAfterDisconnect, PacketCall.IsDisconnect]
    | true => simp [NothingAfterDisconnect]

end Packet

theorem admits_succ (bucket : TokenBucket) (clock : Nat → PacketTicks)
    (place : Nat) :
    Admits bucket clock (place + 1) ↔
      Admits (bucket.consume 1 (clock 0).consume).2
        (fun other => clock (other + 1)) place := by
  unfold Admits
  rw [List.range_succ_eq_map, List.map_cons, List.map_map]
  rfl

section Batch

variable {guard : FloodGuard} {clock : Nat → PacketTicks}
  {packets : List (List UInt8)}

theorem executesLater_iff :
    (∃ call ∈ (guard.onRecvPackets clock packets).flatten,
      call.IsHandlePacket) ↔
      ∃ place < packets.length, Admits guard.rateLimiter clock place := by
  induction packets generalizing guard clock with
  | nil => simp [onRecvPackets]
  | cons packet rest induction =>
      let next := (guard.onRecvPacket (clock 0) packet).2
      have later := @induction next fun place => clock (place + 1)
      simp only [next, onRecvPacket_rateLimiter, ← admits_succ] at later
      have first := executes_iff guard (clock 0) packet
      simp only [onRecvPackets, List.flatten_cons, List.mem_append,
        or_and_right, exists_or, first, later]
      constructor
      · intro executes
        rcases executes with admitted | ⟨place, inside, admitted⟩
        · exact ⟨0, Nat.zero_lt_succ _, admitted⟩
        · exact ⟨place + 1, Nat.succ_lt_succ inside, admitted⟩
      · intro ⟨place, inside, admitted⟩
        cases place with
        | zero => exact Or.inl admitted
        | succ place =>
            exact Or.inr ⟨place, Nat.lt_of_succ_lt_succ inside, admitted⟩

theorem refusesLast_cons {packet : List UInt8} {rest : List (List UInt8)} :
    RefusesLast guard.rateLimiter clock (packet :: rest) ↔
      ((∃ place < rest.length,
          Admits guard.rateLimiter clock (place + 1)) →
        guard.Admitted (clock 0) ∧ (readPacket packet).isSome) ∧
        RefusesLast (guard.onRecvPacket (clock 0) packet).2.rateLimiter
          (fun place => clock (place + 1)) rest := by
  unfold RefusesLast
  simp only [onRecvPacket_rateLimiter, ← admits_succ]
  constructor
  · intro last
    constructor
    · intro ⟨place, inside, admitted⟩
      exact last 0 (place + 1) packet (Nat.zero_lt_succ _)
        (Nat.succ_lt_succ inside) rfl admitted
    · intro place later other before inside at_ admitted
      exact last (place + 1) (later + 1) other (Nat.succ_lt_succ before)
        (Nat.succ_lt_succ inside) at_ admitted
  · intro ⟨first, last⟩ place later other before inside at_ admitted
    cases later with
    | zero => cases before
    | succ later =>
        have insideRest := Nat.lt_of_succ_lt_succ inside
        cases place with
        | zero =>
            cases at_
            exact first ⟨later, insideRest, admitted⟩
        | succ place =>
            exact last place later other (Nat.lt_of_succ_lt_succ before)
              insideRest at_ admitted

theorem onRecvPackets_nothingAfterDisconnect_iff :
    NothingAfterDisconnect (guard.onRecvPackets clock packets).flatten ↔
      RefusesLast guard.rateLimiter clock packets := by
  induction packets generalizing guard clock with
  | nil =>
      apply iff_of_true List.Pairwise.nil
      intro place later packet before inside
      cases inside
  | cons packet rest induction =>
      have ordered := onRecvPacket_ordered guard (clock 0) packet
      have behind := @executesLater_iff
        (guard.onRecvPacket (clock 0) packet).2
        (fun place => clock (place + 1)) rest
      simp only [onRecvPacket_rateLimiter, ← admits_succ] at behind
      rw [refusesLast_cons, ← induction, ← behind, ← spares_iff]
      unfold NothingAfterDisconnect at ordered ⊢
      simp only [onRecvPackets, List.flatten_cons, List.pairwise_append,
        and_iff_right ordered]
      rw [and_comm]
      apply and_congr_left
      intro _
      constructor
      · intro apart ⟨other, later, executes⟩ ⟨call, member, disconnects⟩
        exact apart call member other later disconnects executes
      · intro apart call member other later disconnects executes
        exact apart ⟨other, later, executes⟩ ⟨call, member, disconnects⟩

end Batch

/-- No packet of the batch reaches `HandlePacket` after a `Disconnect`, exactly
if no packet that is refused has one behind it that finds a token. -/
theorem onRecv_nothingAfterDisconnect_iff (guard : FloodGuard)
    (clock : Nat → PacketTicks) (buffer : List UInt8) :
    NothingAfterDisconnect (guard.onRecv clock buffer) ↔
      RefusesLast guard.rateLimiter clock (PacketSession.onRecv buffer).1 :=
  onRecvPackets_nothingAfterDisconnect_iff

/-- A packet whose id no case of the `switch` has and a `C_ROOM_LIST` behind it:
the session is disconnected for the first, and the second is executed all the
same. -/
theorem malformedThenRoomList_executed :
    let guard : FloodGuard :=
      { rateLimiter := .full 40 20 0
        isAbuseReported := false }
    let calls := guard.onRecv (fun _ => ⟨0, 0⟩) [4, 0, 255, 255, 4, 0, 237, 3]
    calls =
        [.updateHeartbeat 0,
          .handlePacket [4, 0, 255, 255],
          .reportAbuse "Invalid Packet Framing / Malformed Data",
          .disconnect "Invalid Packet Format",
          .updateHeartbeat 0,
          .handlePacket [4, 0, 237, 3]] ∧
      ¬NothingAfterDisconnect calls := by
  intro guard calls
  have parsed : (PacketSession.onRecv [4, 0, 255, 255, 4, 0, 237, 3]).1 =
      [[4, 0, 255, 255], [4, 0, 237, 3]] := by
    have malformed :
        PacketSession.framing.IsFrame ([4, 0, 255, 255] : List UInt8) := rfl
    have roomList :
        PacketSession.framing.IsFrame ([4, 0, 237, 3] : List UInt8) := rfl
    have first := Framing.Rule.parse_frame_append malformed [4, 0, 237, 3]
    have second := Framing.Rule.parse_frame_append roomList []
    have rest := Framing.Rule.parse_incomplete PacketSession.framing.nothing
    rw [List.append_nil] at second
    rw [second, rest] at first
    rw [PacketSession.onRecv_eq]
    exact congrArg Framing.Parsed.frames first
  have made : calls =
      [.updateHeartbeat 0,
        .handlePacket [4, 0, 255, 255],
        .reportAbuse "Invalid Packet Framing / Malformed Data",
        .disconnect "Invalid Packet Format",
        .updateHeartbeat 0,
        .handlePacket [4, 0, 237, 3]] := by
    change (guard.onRecvPackets _ _).flatten = _
    rw [parsed]
    decide +kernel
  refine ⟨made, ?_⟩
  rw [made]
  simp [NothingAfterDisconnect, PacketCall.IsDisconnect,
    PacketCall.IsHandlePacket]

end FloodGuard

/-- What `OnRecvPacket` goes by, in the session of the whole system. -/
def MonitoredSession.guard (state : MonitoredSession) : FloodGuard :=
  { rateLimiter := state.rateLimiter
    isAbuseReported := state.isAbuseReported }

namespace AbuseSystem

variable {Session Watchdog : Type} [DecidableEq Session]
  [DecidableEq Watchdog]

/-- The steps of `OnRecvPacket` that have nothing to do with the guard. -/
def nextPc (tick : UInt64) : MonitoredPc → Option MonitoredPc
  | .reportFlooding batch => some (.disconnect batch)
  | .acceptPacket packet batch => some (.updateHeartbeat packet tick batch)
  | .updateHeartbeat packet _ batch => some (.handlePacket packet batch)
  | .handlePacket packet batch =>
      some (match readPacket packet with
        | none => .reportMalformed batch
        | some packet =>
            if packet.id = .cHeartbeat then .handleHeartbeat tick batch
            else .onRecv batch)
  | .handleHeartbeat _ batch => some (.onRecv batch)
  | .reportMalformed batch => some (.disconnect batch)
  | .disconnect batch => some (.onRecv batch)
  | _ => none

/-- The session takes some steps of its own, to where its program counter and
its guard are these. -/
def Turns (system : AbuseSystem Session Watchdog) (session : Session)
    (pc : MonitoredPc) (guard : FloodGuard) : Prop :=
  ∃ count next, (machine Session Watchdog).run system
      (List.replicate count (.advance session)) = some next ∧
    (next.sessions session).pc = pc ∧ (next.sessions session).guard = guard

section Turns

variable {system next : AbuseSystem Session Watchdog} {session : Session}
  {pc : MonitoredPc} {guard : FloodGuard}

theorem Turns.refl (at_ : (system.sessions session).pc = pc)
    (same : (system.sessions session).guard = guard) :
    Turns system session pc guard :=
  ⟨0, system, rfl, at_, same⟩

theorem Turns.step (advanced : system.advance session = some next)
    (turns : Turns next session pc guard) : Turns system session pc guard := by
  obtain ⟨count, final, replayed, there⟩ := turns
  refine ⟨count + 1, final, ?_, there⟩
  rw [List.replicate_succ, Machine.run]
  exact (congrArg (Option.bind · _) advanced).trans replayed

omit [DecidableEq Watchdog] in
theorem advance_nextPc
    (at_ : nextPc system.tickCount (system.sessions session).pc = some pc) :
    ∃ next, system.advance session = some next ∧
      next.tickCount = system.tickCount ∧ (next.sessions session).pc = pc ∧
      (next.sessions session).guard = (system.sessions session).guard := by
  cases here : (system.sessions session).pc with
  | handlePacket packet batch =>
      rw [here] at at_
      obtain rfl := Option.some.inj at_
      cases read : readPacket packet with
      | none =>
          simp [advance, here, read, setSession, MonitoredSession.guard]
      | some accepted =>
          simp [advance, here, read, setSession, MonitoredSession.guard]
  | reportFlooding batch =>
      rw [here] at at_
      obtain rfl := Option.some.inj at_
      simp [advance, here, setSession, MonitoredSession.guard]
  | acceptPacket packet batch =>
      rw [here] at at_
      obtain rfl := Option.some.inj at_
      simp [advance, here, setSession, MonitoredSession.guard]
  | updateHeartbeat packet tick batch =>
      rw [here] at at_
      obtain rfl := Option.some.inj at_
      simp [advance, here, setSession, MonitoredSession.guard]
  | handleHeartbeat tick batch =>
      rw [here] at at_
      obtain rfl := Option.some.inj at_
      simp [advance, here, setSession, MonitoredSession.guard]
  | reportMalformed batch =>
      rw [here] at at_
      obtain rfl := Option.some.inj at_
      simp [advance, here, setSession, MonitoredSession.guard]
  | disconnect batch =>
      rw [here] at at_
      obtain rfl := Option.some.inj at_
      simp [advance, here, setSession, MonitoredSession.guard]
  | _ =>
      rw [here] at at_
      cases at_

theorem Turns.follow
    (path : Relation.ReflTransGen
      (fun here there => nextPc system.tickCount here = some there)
      (system.sessions session).pc pc) :
    Turns system session pc (system.sessions session).guard := by
  generalize started : (system.sessions session).pc = start at path
  generalize told : system.tickCount = tick at path
  induction path using Relation.ReflTransGen.head_induction_on
    generalizing system with
  | refl => exact .refl started rfl
  | head leads _ induction =>
      rw [← started, ← told] at leads
      obtain ⟨next, advanced, sameTick, there, sameGuard⟩ :=
        advance_nextPc leads
      rw [← sameGuard]
      exact .step advanced (induction there (sameTick.trans told))

end Turns

/-- From a packet that has found a token back to the loop of `OnRecv`. -/
theorem accepted_path (tick : UInt64) (packet : List UInt8) (batch : Batch) :
    Relation.ReflTransGen (fun here there => nextPc tick here = some there)
      (.acceptPacket packet batch) (.onRecv batch) := by
  refine .head rfl (.head rfl ?_)
  cases read : readPacket packet with
  | none =>
      have refused : nextPc tick (.handlePacket packet batch) =
          some (.reportMalformed batch) := by
        rw [nextPc, read]
      exact .head refused (.head rfl (.head rfl .refl))
  | some accepted =>
      by_cases isHeartbeat : accepted.id = .cHeartbeat
      · have handled : nextPc tick (.handlePacket packet batch) =
            some (.handleHeartbeat tick batch) := by
          simp only [nextPc, read, isHeartbeat, if_true]
        exact .head handled (.head rfl .refl)
      · have handled : nextPc tick (.handlePacket packet batch) =
            some (.onRecv batch) := by
          simp only [nextPc, read, isHeartbeat, if_false]
        exact .head handled .refl

/-- `OnRecvPacket`, when nothing else happens in the meantime. -/
theorem turns_onRecvPacket {system : AbuseSystem Session Watchdog}
    {session : Session} {packet : List UInt8} {rest : List (List UInt8)}
    {processedLen : Int}
    (at_ : (system.sessions session).pc =
      .onRecv { packets := packet :: rest, processedLen := processedLen }) :
    Turns system session
      (.onRecv { packets := rest, processedLen := processedLen })
      ((system.sessions session).guard.onRecvPacket
        ⟨system.tickCount, system.tickCount⟩ packet).2 := by
  let batch : Batch :=
    { packets := rest
      processedLen := processedLen }
  let state := system.sessions session
  cases taken : state.rateLimiter.consume 1 system.tickCount with
  | mk admitted rateLimiter =>
  cases admitted with
  | true =>
      let next := system.setSession session
        { state with
          pc := .acceptPacket packet batch
          rateLimiter := rateLimiter }
      have advanced : system.advance session = some next := by
        simp only [advance, at_]
        rw [taken]
        rfl
      have here : next.sessions session = _ := Function.update_self ..
      have guarded : (next.sessions session).guard =
          (state.guard.onRecvPacket ⟨system.tickCount, system.tickCount⟩
            packet).2 := by
        rw [here]
        simp only [FloodGuard.onRecvPacket, MonitoredSession.guard, taken,
          if_true]
      apply Turns.step advanced
      rw [← guarded]
      apply Turns.follow
      rw [here]
      exact accepted_path _ packet batch
  | false =>
      let flooded := system.setSession session
        { state with
          pc := .flooding batch
          rateLimiter := rateLimiter }
      let next := flooded.setSession session
        { flooded.sessions session with
          pc := if state.isAbuseReported then .disconnect batch
            else .reportFlooding batch
          isAbuseReported := true }
      have advanced : system.advance session = some flooded := by
        simp only [advance, at_]
        rw [taken]
        rfl
      have flooding : flooded.sessions session = _ := Function.update_self ..
      have floodingAdvanced : flooded.advance session = some next := by
        simp only [advance, flooding]
        simp only [next, flooding]
      have here : next.sessions session = _ := Function.update_self ..
      have guarded : (next.sessions session).guard =
          (state.guard.onRecvPacket ⟨system.tickCount, system.tickCount⟩
            packet).2 := by
        rw [here]
        simp only [FloodGuard.onRecvPacket, MonitoredSession.guard, taken,
          flooding]
        rfl
      apply Turns.step advanced
      apply Turns.step floodingAdvanced
      rw [← guarded]
      apply Turns.follow
      rw [here]
      cases state.isAbuseReported with
      | true => exact .head rfl .refl
      | false => exact .head rfl (.head rfl .refl)

end AbuseSystem

end IocpChat
