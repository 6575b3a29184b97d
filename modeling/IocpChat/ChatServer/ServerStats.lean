import IocpChat.Common.Types
import IocpChat.Network.HookCalls

/-!
# Statistics of the server

`ClientSession` counts in its hooks: connections in `OnConnected` and
`OnDisconnected`, packets in `OnRecvPacket`.  `OnPacketSent` has no caller,
since `ClientSession` leaves `OnSend` to `Session`, where it does nothing.
-/

namespace IocpChat

open TransitionSystem

/-- The counters that the hooks of sessions change; the rates are computed from
them. -/
structure ServerStats where
  totalAccepted : UInt64
  currentCcu : Int
  totalRecvPackets : UInt64
  totalRecvBytes : UInt64
  totalSendBytes : UInt64

namespace ServerStats

def init : ServerStats :=
  { totalAccepted := 0
    currentCcu := 0
    totalRecvPackets := 0
    totalRecvBytes := 0
    totalSendBytes := 0 }

def onSessionConnected (stats : ServerStats) : ServerStats :=
  { stats with
    totalAccepted := stats.totalAccepted + 1
    currentCcu := int32 (stats.currentCcu + 1) }

def onSessionDisconnected (stats : ServerStats) : ServerStats :=
  { stats with currentCcu := int32 (stats.currentCcu - 1) }

def onPacketReceived (stats : ServerStats) (bytes : Nat) : ServerStats :=
  { stats with
    totalRecvPackets := stats.totalRecvPackets + 1
    totalRecvBytes := stats.totalRecvBytes + UInt64.ofNat bytes }

def onPacketSent (stats : ServerStats) (bytes : Nat) : ServerStats :=
  { stats with totalSendBytes := stats.totalSendBytes + UInt64.ofNat bytes }

/-- The hooks of `ClientSession`, as far as they touch the statistics. -/
def clientSession (stats : ServerStats) : Callback → ServerStats
  | .connectedStarts => stats.onSessionConnected
  | .connectedReturns => stats
  | .recvPacket packet => stats.onPacketReceived packet.length
  | .disconnectedStarts => stats.onSessionDisconnected
  | .disconnectedReturns => stats

/-- `Session::OnSend`; `ClientSession` does not override it. -/
def onSend (stats : ServerStats) (_len : Nat) : ServerStats :=
  stats

/-- The hooks that a step calls. -/
def hooks (stats : ServerStats) (called : List Callback)
    (reported : List UInt8) : ServerStats :=
  let stats := called.foldl clientSession stats
  if reported = [] then stats else stats.onSend reported.length

end ServerStats

namespace Callback

def connects : Callback → Nat
  | connectedStarts => 1
  | _ => 0

def disconnects : Callback → Nat
  | disconnectedStarts => 1
  | _ => 0

def packets : Callback → Nat
  | recvPacket _ => 1
  | _ => 0

def packetBytes : Callback → Nat
  | recvPacket packet => packet.length
  | _ => 0

end Callback

namespace ServerStats

theorem hooks_eq (stats : ServerStats) (called : List Callback)
    (reported : List UInt8) :
    stats.hooks called reported = called.foldl clientSession stats := by
  unfold hooks
  split <;> rfl

/-- The counters of receipt are these numbers, as far as they hold them. -/
structure Counts (stats : ServerStats)
    (connects disconnects packets bytes : Nat) : Prop where
  accepted : stats.totalAccepted = UInt64.ofNat connects
  ccu : stats.currentCcu = int32 (connects - disconnects)
  packets : stats.totalRecvPackets = UInt64.ofNat packets
  bytes : stats.totalRecvBytes = UInt64.ofNat bytes

theorem Counts.clientSession {stats : ServerStats}
    {connects disconnects packets bytes : Nat}
    (counts : stats.Counts connects disconnects packets bytes)
    (callback : Callback) :
    (stats.clientSession callback).Counts (connects + callback.connects)
      (disconnects + callback.disconnects) (packets + callback.packets)
      (bytes + callback.packetBytes) := by
  cases callback with
  | connectedStarts =>
      constructor
      · change stats.totalAccepted + 1 = UInt64.ofNat (connects + 1)
        rw [counts.accepted, UInt64.ofNat_add]
        rfl
      · change int32 (stats.currentCcu + 1) =
          int32 ((connects + 1 : Nat) - (disconnects + 0 : Nat))
        rw [counts.ccu, int32_add_int32]
        congr 1
        omega
      · exact counts.packets
      · exact counts.bytes
  | connectedReturns => exact counts
  | recvPacket packet =>
      constructor
      · exact counts.accepted
      · exact counts.ccu
      · change stats.totalRecvPackets + 1 = UInt64.ofNat (packets + 1)
        rw [counts.packets, UInt64.ofNat_add]
        rfl
      · change stats.totalRecvBytes + UInt64.ofNat packet.length =
          UInt64.ofNat (bytes + packet.length)
        rw [counts.bytes, UInt64.ofNat_add]
  | disconnectedStarts =>
      constructor
      · exact counts.accepted
      · change int32 (stats.currentCcu - 1) =
          int32 ((connects + 0 : Nat) - (disconnects + 1 : Nat))
        rw [counts.ccu, Int.sub_eq_add_neg, int32_add_int32]
        congr 1
        omega
      · exact counts.packets
      · exact counts.bytes
  | disconnectedReturns => exact counts

theorem Counts.hooks {stats : ServerStats}
    {connects disconnects packets bytes : Nat}
    (counts : stats.Counts connects disconnects packets bytes)
    (called : List Callback) (reported : List UInt8) :
    (stats.hooks called reported).Counts
      (connects + (called.map Callback.connects).sum)
      (disconnects + (called.map Callback.disconnects).sum)
      (packets + (called.map Callback.packets).sum)
      (bytes + (called.map Callback.packetBytes).sum) := by
  rw [hooks_eq]
  induction called generalizing stats connects disconnects packets bytes with
  | nil => exact counts
  | cons callback called induction =>
      simp only [List.foldl_cons, List.map_cons, List.sum_cons,
        ← Nat.add_assoc]
      exact induction (counts.clientSession callback)

theorem hooks_totalSendBytes (stats : ServerStats) (called : List Callback)
    (reported : List UInt8) :
    (stats.hooks called reported).totalSendBytes = stats.totalSendBytes := by
  rw [hooks_eq]
  induction called generalizing stats with
  | nil => rfl
  | cons callback called induction =>
      rw [List.foldl_cons, induction]
      cases callback <;> rfl

end ServerStats

structure MonitoredServer (Thread Slot : Type) where
  system : IocpSystem Thread Slot
  stats : ServerStats

namespace MonitoredServer

variable {Thread Slot : Type}

/-- What the calls of the sessions' hooks weigh together. -/
def callbackTotal (weight : Callback → Nat)
    (server : MonitoredServer Thread Slot) : Nat :=
  IocpSystem.total (fun state => (state.callbacks.map weight).sum)
    server.system

/-- The bytes that the send completions have reported. -/
def sentBytes (server : MonitoredServer Thread Slot) : Nat :=
  IocpSystem.total (fun state => state.send.acknowledged.length)
    server.system

/-- `main` calls `ServerStats::Init` before it starts the service. -/
def initial (recvBuffer : RingBuffer) : MonitoredServer Thread Slot :=
  { system := .initial recvBuffer
    stats := .init }

section Step

variable [DecidableEq Thread] [DecidableEq Slot]

def step (server : MonitoredServer Thread Slot)
    (action : IocpAction Thread Slot) :
    Option (MonitoredServer Thread Slot) :=
  (server.system.step action).map fun system =>
    { system := system
      stats := server.stats.hooks (server.system.called action)
        (server.system.reported action) }

def machine (Thread Slot : Type) [DecidableEq Thread] [DecidableEq Slot] :
    Machine (MonitoredServer Thread Slot) (IocpAction Thread Slot) where
  initial server := ∃ recvBuffer, server = initial recvBuffer
  step := step

end Step

/-- What is received and who is connected is counted. -/
def ReceiptAccount (server : MonitoredServer Thread Slot) : Prop :=
  server.stats.Counts (callbackTotal Callback.connects server)
    (callbackTotal Callback.disconnects server)
    (callbackTotal Callback.packets server)
    (callbackTotal Callback.packetBytes server)

/-- And so is what is sent. -/
structure TrafficAccount (server : MonitoredServer Thread Slot) : Prop where
  received : ReceiptAccount server
  sent : server.stats.totalSendBytes = UInt64.ofNat (sentBytes server)

/-- No send completion with bytes is processed; counters count modulo
`2 ^ 64`. -/
def NothingSent (server : MonitoredServer Thread Slot)
    (action : IocpAction Thread Slot) : Prop :=
  (server.system.reported action).length % 2 ^ 64 = 0

instance (server : MonitoredServer Thread Slot)
    (action : IocpAction Thread Slot) :
    Decidable (NothingSent server action) :=
  inferInstanceAs (Decidable (_ = 0))

/-- What holds in every run. -/
structure Monitored (server : MonitoredServer Thread Slot) : Prop where
  unrecorded : server.system.Unrecorded
  received : ReceiptAccount server
  unsent : server.stats.totalSendBytes = 0

variable [DecidableEq Thread] [DecidableEq Slot]

theorem callbackTotal_step {server next : MonitoredServer Thread Slot}
    {action : IocpAction Thread Slot}
    (unrecorded : server.system.Unrecorded)
    (stepped : server.step action = some next) (weight : Callback → Nat) :
    callbackTotal weight next = callbackTotal weight server +
      ((server.system.called action).map weight).sum := by
  simp only [step, Option.map_eq_some_iff] at stepped
  obtain ⟨system, moved, rfl⟩ := stepped
  rcases IocpSystem.step_records moved with
    ⟨calls, _, same⟩ | ⟨session, exists_, state, rfl, records⟩
  · rw [calls]
    apply IocpSystem.total_same same.created
    · intro session
      rw [same.callbacks]
    · intro session later
      rw [(unrecorded session later).1]
      rfl
  · apply IocpSystem.total_setSession exists_
    rw [records.callbacks, List.map_append, List.sum_append]

theorem sentBytes_step {server next : MonitoredServer Thread Slot}
    {action : IocpAction Thread Slot}
    (unrecorded : server.system.Unrecorded)
    (stepped : server.step action = some next) :
    sentBytes next =
      sentBytes server + (server.system.reported action).length := by
  simp only [step, Option.map_eq_some_iff] at stepped
  obtain ⟨system, moved, rfl⟩ := stepped
  rcases IocpSystem.step_records moved with
    ⟨_, reports, same⟩ | ⟨session, exists_, state, rfl, records⟩
  · rw [reports]
    apply IocpSystem.total_same same.created
    · intro session
      rw [same.acknowledged]
    · intro session later
      rw [(unrecorded session later).2]
      rfl
  · apply IocpSystem.total_setSession exists_
    rw [records.acknowledged, List.length_append]

theorem unrecorded_step {system next : IocpSystem Thread Slot}
    {action : IocpAction Thread Slot} (unrecorded : system.Unrecorded)
    (stepped : system.step action = some next) : next.Unrecorded := by
  rcases IocpSystem.step_records stepped with
    ⟨_, _, same⟩ | ⟨session, exists_, state, rfl, _⟩
  · exact unrecorded.same same
  · intro other later
    have different : other ≠ session :=
      Nat.ne_of_gt (Nat.lt_of_lt_of_le exists_ later)
    change (Function.update system.sessions session state other).callbacks =
      [] ∧ (Function.update system.sessions session state
        other).send.acknowledged = []
    rw [Function.update_of_ne different]
    exact unrecorded other later

theorem Monitored.step {server next : MonitoredServer Thread Slot}
    {action : IocpAction Thread Slot} (monitored : Monitored server)
    (stepped : server.step action = some next) : Monitored next := by
  have totals := callbackTotal_step monitored.unrecorded stepped
  simp only [MonitoredServer.step, Option.map_eq_some_iff] at stepped
  obtain ⟨system, moved, rfl⟩ := stepped
  constructor
  · exact unrecorded_step monitored.unrecorded moved
  · unfold ReceiptAccount
    simp only [totals]
    exact monitored.received.hooks _ _
  · exact (ServerStats.hooks_totalSendBytes ..).trans monitored.unsent

omit [DecidableEq Thread] [DecidableEq Slot] in
theorem initial_monitored (recvBuffer : RingBuffer) :
    Monitored (initial recvBuffer : MonitoredServer Thread Slot) where
  unrecorded := fun _ _ => ⟨rfl, rfl⟩
  received := by
    have zero : ∀ weight, callbackTotal weight
        (initial recvBuffer : MonitoredServer Thread Slot) = 0 :=
      fun _ => IocpSystem.total_initial ..
    unfold ReceiptAccount
    simp only [zero]
    exact ⟨rfl, rfl, rfl, rfl⟩
  unsent := rfl

/-- What is received and who is connected is counted in every run. -/
theorem reachable_receiptAccount {server : MonitoredServer Thread Slot}
    (reached : (machine Thread Slot).Reachable server) :
    ReceiptAccount server := by
  have monitored : Monitored server := by
    apply Machine.Reachable.invariant _ _ reached
    · rintro _ ⟨recvBuffer, rfl⟩
      exact initial_monitored recvBuffer
    · exact fun _ _ _ monitored stepped => monitored.step stepped
  exact monitored.received

omit [DecidableEq Thread] [DecidableEq Slot] in
theorem Monitored.account_iff {server : MonitoredServer Thread Slot}
    (monitored : Monitored server) :
    TrafficAccount server ↔ sentBytes server % 2 ^ 64 = 0 := by
  have sent : server.stats.totalSendBytes = UInt64.ofNat (sentBytes server) ↔
      sentBytes server % 2 ^ 64 = 0 := by
    rw [monitored.unsent, eq_comm, ← UInt64.toNat_inj, UInt64.toNat_ofNat']
    rfl
  rw [← sent]
  constructor
  · exact TrafficAccount.sent
  · exact fun sent => ⟨monitored.received, sent⟩

/-- Nothing has been sent that would have to be counted. -/
structure Balanced (server : MonitoredServer Thread Slot) : Prop
    extends Monitored server where
  account : TrafficAccount server

theorem Balanced.step_iff {server next : MonitoredServer Thread Slot}
    {action : IocpAction Thread Slot} (balanced : Balanced server)
    (stepped : server.step action = some next) :
    Balanced next ↔ NothingSent server action := by
  have monitored := balanced.toMonitored.step stepped
  have before := balanced.toMonitored.account_iff.mp balanced.account
  have exactly : TrafficAccount next ↔ NothingSent server action := by
    rw [monitored.account_iff,
      sentBytes_step balanced.unrecorded stepped, NothingSent]
    omega
  rw [← exactly]
  constructor
  · exact Balanced.account
  · exact fun account => ⟨monitored, account⟩

/-- The statistics account for the traffic throughout a run exactly if no send
completion with bytes is processed in it. -/
theorem trafficAccount_iff {server final : MonitoredServer Thread Slot}
    {actions : List (IocpAction Thread Slot)}
    (starts : (machine Thread Slot).initial server)
    (replayed : (machine Thread Slot).run server actions = some final) :
    (machine Thread Slot).RunMeets NothingSent server actions ↔
      ∀ before, before <+: actions → ∀ reached,
        (machine Thread Slot).run server before = some reached →
          TrafficAccount reached := by
  obtain ⟨recvBuffer, rfl⟩ := starts
  have monitored : Monitored
      (initial recvBuffer : MonitoredServer Thread Slot) :=
    initial_monitored recvBuffer
  have unsent : sentBytes
      (initial recvBuffer : MonitoredServer Thread Slot) = 0 :=
    IocpSystem.total_initial ..
  have balanced : Balanced _ :=
    ⟨monitored, monitored.account_iff.mpr (by simp [unsent])⟩
  rw [Machine.runMeets_iff_always Balanced.step_iff balanced replayed]
  constructor
  · intro always before isPrefix reached earlier
    exact (always before isPrefix reached earlier).account
  · intro always before isPrefix reached earlier
    refine ⟨?_, always before isPrefix reached earlier⟩
    apply Machine.run_invariant _ monitored earlier
    exact Monitored.step

/-- The calls in `ProcessAccept` succeed. -/
def connectedPeer : AcceptCalls :=
  { setUpdateAcceptSocket := true
    getpeername := true
    register := true }

/-- The thread that is in session 0 takes some steps. -/
def goesOn (steps : Nat) : List (IocpAction Unit Unit) :=
  List.replicate steps (.session 0 (.advance () .accepted))

def completes (event : IocpEvent Unit) : IocpAction Unit Unit :=
  .dispatch () (.succeeded (some event)) connectedPeer

/-- A client connects. -/
def connectOne : List (IocpAction Unit Unit) :=
  .startAccept () [.accepted] :: completes (.accept ()) :: goesOn 6 ++
    [.registerAccept () [.accepted]]

/-- It sends a packet of four bytes and closes the connection. -/
def receiveOne : List (IocpAction Unit Unit) :=
  connectOne ++
    completes (.recv 0 0 [4, 0, 1, 0]) :: goesOn 6 ++
    completes (.recv 0 0 []) :: goesOn 4 ++
    completes (.disconnect 0) :: goesOn 4

theorem receiveOne_accounted :
    ∃ final, (machine Unit Unit).run (initial SessionRecv.serverRing)
        receiveOne = some final ∧
      final.stats.totalRecvPackets = 1 ∧ final.stats.totalRecvBytes = 4 ∧
      final.stats.totalAccepted = 1 ∧ final.stats.currentCcu = 0 ∧
      ∀ before, before <+: receiveOne → ∀ reached,
        (machine Unit Unit).run (initial SessionRecv.serverRing) before =
          some reached → TrafficAccount reached := by
  obtain ⟨final, replayed⟩ : ∃ final,
      (machine Unit Unit).run (initial SessionRecv.serverRing) receiveOne =
        some final :=
    Option.isSome_iff_exists.mp (by decide +kernel)
  have view : (final.stats.totalRecvPackets, final.stats.totalRecvBytes,
      final.stats.totalAccepted, final.stats.currentCcu) = (1, 4, 1, 0) := by
    apply Machine.view_of_run replayed
    decide +kernel
  obtain ⟨packets, bytes, accepted, ccu⟩ := by
    simpa only [Prod.mk.injEq] using view
  refine ⟨final, replayed, packets, bytes, accepted, ccu, ?_⟩
  apply (trafficAccount_iff ⟨_, rfl⟩ replayed).mp
  decide +kernel

/-- The server sends one byte, and its completion is processed. -/
def sendOne : List (IocpAction Unit Unit) :=
  connectOne ++
    .session 0 (.callSend () (.single (some [7]))) :: goesOn 5 ++
    completes (.send 0 0 1) :: goesOn 2

/-- The byte is not counted. -/
theorem sendOne_unaccounted :
    ∃ final, (machine Unit Unit).run (initial SessionRecv.serverRing)
        sendOne = some final ∧
      sentBytes final = 1 ∧ final.stats.totalSendBytes = 0 ∧
      ¬TrafficAccount final := by
  obtain ⟨final, replayed⟩ : ∃ final,
      (machine Unit Unit).run (initial SessionRecv.serverRing) sendOne =
        some final :=
    Option.isSome_iff_exists.mp (by decide +kernel)
  have view : (sentBytes final, final.stats.totalSendBytes) = (1, 0) := by
    apply Machine.view_of_run replayed
    decide +kernel
  obtain ⟨one, none_⟩ := by
    simpa only [Prod.mk.injEq] using view
  refine ⟨final, replayed, one, none_, fun account => ?_⟩
  have sent := account.sent
  rw [one, none_] at sent
  cases sent

end MonitoredServer

end IocpChat
