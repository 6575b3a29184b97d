import Mathlib.Algebra.BigOperators.Group.Finset.Piecewise
import IocpChat.Network.Listener

/-!
# The hooks a step calls

Each step of a thread calls at most one hook, and the frame it stands at says
which.  `callbacks` and `acknowledged` are the records of all of them, and no
step outside a session adds to either.
-/

namespace IocpChat

open TransitionSystem

/-- The bytes that `ProcessSend` reports to `OnSend`. -/
def SendPc.reports : SendPc → List UInt8
  | consume request numOfBytes => request.take numOfBytes
  | _ => []

theorem SendPc.reports_of_disconnects {pc : SendPc}
    (disconnects : pc.disconnects = true) : pc.reports = [] := by
  cases pc <;> first | rfl | cases disconnects

/-- The hook that is called, or returns, at a frame. -/
def SessionFrame.calls : SessionFrame → List Callback
  | onConnected => [.connectedStarts]
  | inOnConnected => [.connectedReturns]
  | onRecv (packet :: _) _ _ => [.recvPacket packet]
  | onDisconnected => [.disconnectedStarts]
  | inOnDisconnected => [.disconnectedReturns]
  | _ => []

/-- The frames in which a thread goes on in the send path. -/
def SessionFrame.sends : SessionFrame → Bool
  | send => true
  | sendDisconnected => true
  | _ => false

theorem advance_acknowledged {Thread : Type} [DecidableEq Thread]
    {send next : SessionSend Thread} {thread : Thread}
    {result : WSASendResult}
    (stepped : send.advance thread result = some next) :
    next.acknowledged = send.acknowledged ++ (send.pcs thread).reports := by
  simp only [SessionSend.advance] at stepped
  split at stepped
  all_goals
    rename_i at_
    simp only [at_, SendPc.reports, List.append_nil]
  all_goals repeat' split at stepped
  all_goals cases stepped
  all_goals rfl

theorem complete_acknowledged {Thread : Type} [DecidableEq Thread]
    {send next : SessionSend Thread} {thread : Thread}
    {index numOfBytes : Nat}
    (stepped : send.complete thread index numOfBytes = some next) :
    next.acknowledged = send.acknowledged := by
  simp only [SessionSend.complete] at stepped
  repeat' split at stepped
  all_goals cases stepped
  all_goals rfl

namespace SessionThreads

variable {Thread : Type}

/-- The hooks that an action calls. -/
def called (state : SessionThreads Thread) :
    ThreadAction Thread → List Callback
  | .advance thread _ =>
      match state.frames thread with
      | [] => []
      | frame :: _ => frame.calls
  | _ => []

/-- The bytes that an action reports to `OnSend`. -/
def reported (state : SessionThreads Thread) :
    ThreadAction Thread → List UInt8
  | .advance thread _ =>
      match state.frames thread with
      | [] => []
      | frame :: _ =>
          if frame.sends then (state.send.pcs thread).reports else []
  | _ => []

/-- What a step adds to the records of a session. -/
structure Records (state next : SessionThreads Thread)
    (calls : List Callback) (bytes : List UInt8) : Prop where
  callbacks : next.callbacks = state.callbacks ++ calls
  acknowledged : next.send.acknowledged = state.send.acknowledged ++ bytes

theorem Records.nothing {state next : SessionThreads Thread}
    (callbacks : next.callbacks = state.callbacks)
    (acknowledged : next.send.acknowledged = state.send.acknowledged) :
    Records state next [] [] where
  callbacks := by rw [callbacks, List.append_nil]
  acknowledged := by rw [acknowledged, List.append_nil]

variable [DecidableEq Thread]

theorem processRecv_records (state : SessionThreads Thread) (thread : Thread)
    (rest : List SessionFrame) (numOfBytes : Nat) :
    Records state (state.processRecv thread rest numOfBytes) [] [] := by
  unfold processRecv
  split
  · exact .nothing rfl rfl
  · dsimp only
    split <;> exact .nothing rfl rfl

theorem afterOnRecv_records (state : SessionThreads Thread) (thread : Thread)
    (rest : List SessionFrame) (dataSize processedLen : Int) :
    Records state (state.afterOnRecv thread rest dataSize processedLen) []
      [] := by
  unfold afterOnRecv
  split
  · exact .nothing rfl rfl
  · dsimp only
    split <;> exact .nothing rfl rfl

theorem wsaRecv_records (state : SessionThreads Thread) (thread : Thread)
    (rest : List SessionFrame) (result : WSASendResult) :
    Records state (state.wsaRecv thread rest result) [] [] := by
  unfold wsaRecv
  dsimp only
  split
  · exact .nothing rfl rfl
  · cases result <;> exact .nothing rfl rfl

theorem advanceSend_records {state next : SessionThreads Thread}
    {thread : Thread} {rest : List SessionFrame} {result : WSASendResult}
    (stepped : state.advanceSend thread rest result = some next) :
    Records state next [] (state.send.pcs thread).reports := by
  simp only [advanceSend] at stepped
  split at stepped
  · rename_i disconnects
    cases stepped
    rw [SendPc.reports_of_disconnects disconnects]
    exact .nothing rfl rfl
  · simp only [Option.map_eq_some_iff] at stepped
    obtain ⟨send, advanced, rfl⟩ := stepped
    exact
      { callbacks := (List.append_nil _).symm
        acknowledged := advance_acknowledged advanced }

theorem returnToSend_records {state next : SessionThreads Thread}
    {thread : Thread} {rest : List SessionFrame} {result : WSASendResult}
    (stepped : state.returnToSend thread rest result = some next) :
    Records state next [] (state.send.pcs thread).reports := by
  simp only [returnToSend, Option.map_eq_some_iff] at stepped
  obtain ⟨send, advanced, rfl⟩ := stepped
  have acknowledged := advance_acknowledged advanced
  exact
    { callbacks := (List.append_nil _).symm
      acknowledged := acknowledged }

theorem runFrame_records {state next : SessionThreads Thread}
    {thread : Thread} {rest : List SessionFrame} {result : WSASendResult}
    {frame : SessionFrame}
    (stepped : state.runFrame thread rest result frame = some next) :
    Records state next frame.calls
      (if frame.sends then (state.send.pcs thread).reports else []) := by
  have calls {callback : Callback} {next : SessionThreads Thread}
      (callbacks : next.callbacks = state.callbacks ++ [callback])
      (acknowledged : next.send.acknowledged = state.send.acknowledged) :
      Records state next [callback] [] :=
    { callbacks := callbacks
      acknowledged := acknowledged.trans (List.append_nil _).symm }
  cases frame with
  | processConnect =>
      cases stepped
      exact .nothing rfl rfl
  | addSession =>
      simp only [runFrame] at stepped
      split at stepped <;> cases stepped
      exact .nothing rfl rfl
  | onConnected =>
      cases stepped
      exact calls rfl rfl
  | inOnConnected =>
      cases stepped
      exact calls rfl rfl
  | disconnect =>
      simp only [runFrame] at stepped
      split at stepped <;> cases stepped
      · exact .nothing rfl rfl
      · exact .nothing rfl rfl
  | registerDisconnect =>
      cases stepped
      exact .nothing rfl rfl
  | disconnectEx =>
      cases result <;> cases stepped <;> exact .nothing rfl rfl
  | disconnectExFailed =>
      cases stepped
      exact .nothing rfl rfl
  | processDisconnect =>
      cases stepped
      exact .nothing rfl rfl
  | onDisconnected =>
      cases stepped
      exact calls rfl rfl
  | inOnDisconnected =>
      cases stepped
      exact calls rfl rfl
  | releaseSession =>
      simp only [runFrame] at stepped
      split at stepped <;> cases stepped
      exact .nothing rfl rfl
  | registerRecv =>
      simp only [runFrame] at stepped
      split at stepped <;> cases stepped
      · exact .nothing rfl rfl
      · exact .nothing rfl rfl
  | wsaRecv =>
      cases stepped
      exact wsaRecv_records state thread rest result
  | wsaRecvFailed =>
      cases stepped
      exact .nothing rfl rfl
  | processRecv numOfBytes =>
      cases stepped
      have taken := processRecv_records { state with recvOwner := false }
        thread rest numOfBytes
      exact { taken with }
  | onRecv packets dataSize processedLen =>
      cases packets with
      | nil =>
          cases stepped
          exact afterOnRecv_records state thread rest dataSize processedLen
      | cons packet packets =>
          cases stepped
          exact calls rfl rfl
  | inOnRecvPacket =>
      cases stepped
      exact .nothing rfl rfl
  | send => exact advanceSend_records stepped
  | sendDisconnected => exact returnToSend_records stepped
  | clearSessions =>
      cases stepped
      exact .nothing rfl rfl

/-- A step records the hooks it calls and the bytes it reports. -/
theorem step_records {state next : SessionThreads Thread}
    {action : ThreadAction Thread} (stepped : state.step action = some next) :
    Records state next (state.called action) (state.reported action) := by
  cases action with
  | connect thread =>
      simp only [step] at stepped
      split at stepped <;> cases stepped
      exact .nothing rfl rfl
  | callDisconnect thread =>
      simp only [step] at stepped
      split at stepped <;> cases stepped
      exact .nothing rfl rfl
  | callSend thread call =>
      simp only [step] at stepped
      split at stepped
      · simp only [SessionSend.step, Option.map_eq_some_iff] at stepped
        obtain ⟨send, called, rfl⟩ := stepped
        split at called <;> cases called
        exact .nothing rfl rfl
      · cases stepped
  | stop thread =>
      simp only [step] at stepped
      split at stepped <;> cases stepped
      exact .nothing rfl rfl
  | completeDisconnect thread =>
      simp only [step, completeDisconnect] at stepped
      repeat' split at stepped
      all_goals cases stepped
      all_goals exact .nothing rfl rfl
  | completeRecv thread index chunk =>
      simp only [step, completeRecv] at stepped
      repeat' split at stepped
      all_goals cases stepped
      all_goals exact .nothing rfl rfl
  | completeSend thread index numOfBytes =>
      simp only [step] at stepped
      split at stepped
      · simp only [Option.map_eq_some_iff] at stepped
        obtain ⟨send, completed, rfl⟩ := stepped
        exact .nothing rfl (complete_acknowledged completed)
      · cases stepped
  | advance thread result =>
      simp only [step] at stepped
      split at stepped
      · cases stepped
      · rename_i frame rest at_
        simp only [called, reported, at_]
        exact runFrame_records stepped

end SessionThreads

namespace IocpSystem

variable {Thread Slot : Type}

/-- The hooks that an action calls in the session it is about. -/
def called (system : IocpSystem Thread Slot) :
    IocpAction Thread Slot → List Callback
  | .session session action => (system.sessions session).called action
  | _ => []

def reported (system : IocpSystem Thread Slot) :
    IocpAction Thread Slot → List UInt8
  | .session session action => (system.sessions session).reported action
  | _ => []

/-- The sessions to come have no records. -/
def Unrecorded (system : IocpSystem Thread Slot) : Prop :=
  ∀ session, system.created ≤ session →
    (system.sessions session).callbacks = [] ∧
      (system.sessions session).send.acknowledged = []

/-- No session's records change. -/
structure SameRecords (system next : IocpSystem Thread Slot) : Prop where
  created : system.created ≤ next.created
  callbacks : ∀ session, (next.sessions session).callbacks =
    (system.sessions session).callbacks
  acknowledged : ∀ session, (next.sessions session).send.acknowledged =
    (system.sessions session).send.acknowledged

theorem SameRecords.refl (system : IocpSystem Thread Slot) :
    SameRecords system system :=
  ⟨le_rfl, fun _ => rfl, fun _ => rfl⟩

theorem SameRecords.trans {system middle next : IocpSystem Thread Slot}
    (first : SameRecords system middle) (second : SameRecords middle next) :
    SameRecords system next where
  created := first.created.trans second.created
  callbacks := fun session =>
    (second.callbacks session).trans (first.callbacks session)
  acknowledged := fun session =>
    (second.acknowledged session).trans (first.acknowledged session)

/-- A session is replaced by one with the same records. -/
theorem SameRecords.update {system next : IocpSystem Thread Slot}
    {session : Nat} {state : SessionThreads Thread}
    (sessions : next.sessions =
      Function.update system.sessions session state)
    (created : system.created ≤ next.created)
    (same : (system.sessions session).Records state [] []) :
    SameRecords system next where
  created := created
  callbacks := by
    rw [sessions]
    apply (Function.forall_update_iff system.sessions fun other state =>
      state.callbacks = (system.sessions other).callbacks).mpr
    exact ⟨same.callbacks.trans (List.append_nil _), fun _ _ => rfl⟩
  acknowledged := by
    rw [sessions]
    apply (Function.forall_update_iff system.sessions fun other state =>
      state.send.acknowledged =
        (system.sessions other).send.acknowledged).mpr
    exact ⟨same.acknowledged.trans (List.append_nil _), fun _ _ => rfl⟩

theorem Unrecorded.same {system next : IocpSystem Thread Slot}
    (unrecorded : Unrecorded system) (same : SameRecords system next) :
    Unrecorded next := by
  intro session later
  rw [same.callbacks, same.acknowledged]
  exact unrecorded session (same.created.trans later)

theorem establish_records (system : IocpSystem Thread Slot)
    (status : QueuedStatus Slot) :
    SameRecords system (system.establish status) := by
  unfold establish
  split
  · exact ⟨le_rfl, fun _ => rfl, fun _ => rfl⟩
  · split
    · exact ⟨le_rfl, fun _ => rfl, fun _ => rfl⟩
    · exact ⟨le_rfl, fun _ => rfl, fun _ => rfl⟩
  · exact ⟨le_rfl, fun _ => rfl, fun _ => rfl⟩

theorem registerConnect_records (system : IocpSystem Thread Slot)
    (bindAnyAddress register connectEx : Bool) :
    SameRecords system
      (system.registerConnect bindAnyAddress register connectEx) := by
  unfold registerConnect
  dsimp only
  split
  · exact ⟨Nat.le_succ _, fun _ => rfl, fun _ => rfl⟩
  · split
    · exact ⟨Nat.le_succ _, fun _ => rfl, fun _ => rfl⟩
    · split
      · exact ⟨Nat.le_succ _, fun _ => rfl, fun _ => rfl⟩
      · exact .update rfl (Nat.le_succ _) (.nothing rfl rfl)

theorem registerAccept_records [DecidableEq Slot]
    {system next : IocpSystem Thread Slot} {slot : Slot}
    {results : List AcceptExResult}
    (stepped : system.registerAccept slot results = some next) :
    SameRecords system next := by
  induction results generalizing system with
  | nil =>
      simp only [registerAccept] at stepped
      split at stepped <;> cases stepped
      exact .refl _
  | cons result results induction =>
      have armed (pending : Bool) : SameRecords system
          { system with
            created := system.created + 1
            acceptEvents := Function.update system.acceptEvents slot
              { owner := true
                session := some system.created
                pending := pending } } :=
        ⟨Nat.le_succ _, fun _ => rfl, fun _ => rfl⟩
      simp only [registerAccept] at stepped
      split at stepped
      · cases stepped
        exact .refl _
      · cases result with
        | accepted =>
            cases stepped
            exact armed true
        | closed =>
            cases stepped
            exact armed false
        | error => exact (armed false).trans (induction stepped)

section Step

variable [DecidableEq Thread]

/-- A completion brings a thread into a session, where it calls no hook yet. -/
theorem stepSession_records {system next : IocpSystem Thread Slot}
    {session : Nat} {action : ThreadAction Thread}
    (calls : (system.sessions session).called action = [])
    (reports : (system.sessions session).reported action = [])
    (stepped : system.stepSession session action = some next) :
    SameRecords system next := by
  simp only [stepSession, Option.map_eq_some_iff] at stepped
  obtain ⟨state, moved, rfl⟩ := stepped
  have records := SessionThreads.step_records moved
  rw [calls, reports] at records
  exact .update rfl le_rfl records

theorem processAccept_records {system next : IocpSystem Thread Slot}
    {thread : Thread} {slot : Slot} {calls : AcceptCalls}
    (stepped : system.processAccept thread slot calls = some next) :
    SameRecords system next := by
  simp only [processAccept] at stepped
  split at stepped
  · cases stepped
    exact .refl _
  · split at stepped
    · cases stepped
    · repeat' split at stepped
      all_goals cases stepped
      · exact ⟨le_rfl, fun _ => rfl, fun _ => rfl⟩
      · exact ⟨le_rfl, fun _ => rfl, fun _ => rfl⟩
      · exact ⟨le_rfl, fun _ => rfl, fun _ => rfl⟩
      · exact .update rfl le_rfl (.nothing rfl rfl)

variable [DecidableEq Slot]

theorem dispatchEvent_records {system next : IocpSystem Thread Slot}
    {thread : Thread} {calls : AcceptCalls} {event : IocpEvent Slot}
    (stepped : system.dispatchEvent thread calls event = some next) :
    SameRecords system next := by
  cases event with
  | connect session =>
      simp only [dispatchEvent] at stepped
      split at stepped
      · cases stepped
      · split at stepped
        · cases stepped
          exact .update rfl le_rfl (.nothing rfl rfl)
        · have records := stepSession_records rfl rfl stepped
          exact { records with }
  | disconnect session => exact stepSession_records rfl rfl stepped
  | recv session index chunk => exact stepSession_records rfl rfl stepped
  | send session index numOfBytes =>
      exact stepSession_records rfl rfl stepped
  | accept slot =>
      simp only [dispatchEvent] at stepped
      split at stepped
      · cases stepped
      · split at stepped
        · cases stepped
          exact ⟨le_rfl, fun _ => rfl, fun _ => rfl⟩
        · have records := processAccept_records stepped
          exact { records with }

/-- Only a thread inside a session that exists calls hooks. -/
theorem step_records {system next : IocpSystem Thread Slot}
    {action : IocpAction Thread Slot}
    (stepped : system.step action = some next) :
    (system.called action = [] ∧ system.reported action = [] ∧
        SameRecords system next) ∨
      ∃ session < system.created, ∃ state,
        next = system.setSession session state ∧
          (system.sessions session).Records state (system.called action)
            (system.reported action) := by
  cases action with
  | connect bindAnyAddress register connectEx =>
      cases stepped
      exact Or.inl ⟨rfl, rfl, registerConnect_records ..⟩
  | startAccept slot results =>
      simp only [step] at stepped
      split at stepped
      · exact Or.inl ⟨rfl, rfl, registerAccept_records stepped⟩
      · cases stepped
  | closeSocket =>
      cases stepped
      exact Or.inl ⟨rfl, rfl, le_rfl, fun _ => rfl, fun _ => rfl⟩
  | dispatch thread status calls =>
      simp only [step] at stepped
      split at stepped
      · split at stepped
        · cases stepped
          exact Or.inl ⟨rfl, rfl, .refl _⟩
        · have established := establish_records system status
          exact Or.inl ⟨rfl, rfl,
            established.trans (dispatchEvent_records stepped)⟩
      · cases stepped
  | registerAccept thread results =>
      simp only [step] at stepped
      split at stepped
      · cases stepped
      · split at stepped
        · have records := registerAccept_records stepped
          exact Or.inl ⟨rfl, rfl, { records with }⟩
        · cases stepped
  | session session action =>
      simp only [step] at stepped
      split at stepped
      · rename_i enabled
        simp only [stepSession, Option.map_eq_some_iff] at stepped
        obtain ⟨state, moved, rfl⟩ := stepped
        exact Or.inr ⟨session, enabled.1, state, rfl,
          SessionThreads.step_records moved⟩
      · cases stepped

end Step

/-- What the sessions weigh together. -/
def total (weight : SessionThreads Thread → Nat)
    (system : IocpSystem Thread Slot) : Nat :=
  ∑ session ∈ Finset.range system.created, weight (system.sessions session)

theorem total_initial (weight : SessionThreads Thread → Nat)
    (recvBuffer : RingBuffer) :
    total weight (initial recvBuffer : IocpSystem Thread Slot) = 0 := by
  simp [total, initial]

/-- New sessions without weight do not change the total. -/
theorem total_same {weight : SessionThreads Thread → Nat}
    {system next : IocpSystem Thread Slot}
    (created : system.created ≤ next.created)
    (same : ∀ session, weight (next.sessions session) =
      weight (system.sessions session))
    (fresh : ∀ session, system.created ≤ session →
      weight (system.sessions session) = 0) :
    total weight next = total weight system := by
  simp only [total, same]
  apply (Finset.sum_subset (Finset.range_mono created) _).symm
  intro session _ outside
  exact fresh session (Nat.le_of_not_lt fun before =>
    outside (Finset.mem_range.mpr before))

theorem total_setSession {weight : SessionThreads Thread → Nat}
    {system : IocpSystem Thread Slot} {session more : Nat}
    {state : SessionThreads Thread} (exists_ : session < system.created)
    (grows : weight state = weight (system.sessions session) + more) :
    total weight (system.setSession session state) =
      total weight system + more := by
  have member : session ∈ Finset.range system.created :=
    Finset.mem_range.mpr exists_
  have moved : ∀ other, weight ((system.setSession session state).sessions
      other) = Function.update (fun other => weight (system.sessions other))
        session (weight state) other :=
    fun other => Function.apply_update (fun _ state => weight state) ..
  have rest := Finset.add_sum_erase _
    (fun other => weight (system.sessions other)) member
  simp only [total, moved]
  change ∑ other ∈ Finset.range system.created, _ = _
  rw [Finset.sum_update_of_mem member, Finset.sdiff_singleton_eq_erase,
    ← rest, grows]
  omega

end IocpSystem

end IocpChat
