import IocpChat.Network.SendFront
import IocpChat.Network.SessionPhase

/-!
# The send path among the threads of a session

A step of a session's threads is a step of its send path, or leaves it alone,
or is the store to `_connected` in `ProcessConnect`.  Before that store every
`Send` returns at its first test; after it the session is never connected again,
so a thread that comes back from `Disconnect` in the send path finds
`_connected` cleared.
-/

namespace IocpChat

open TransitionSystem Threads

namespace SessionThreads

variable {Thread : Type}

/-- What the network has taken after an action. -/
def takenBy (state : SessionThreads Thread) (taken : List UInt8) :
    ThreadAction Thread → List UInt8
  | .completeSend thread index numOfBytes =>
      state.send.takenBy taken (.complete thread index numOfBytes)
  | _ => taken

/-- What a step does to the send path. -/
inductive SendMove [DecidableEq Thread] (state next : SessionThreads Thread)
    (action : ThreadAction Thread) : Prop where
  | rests : next.send = state.send →
      (∀ taken, state.takenBy taken action = taken) →
      SendMove state next action
  | connects {thread : Thread} {rest : List SessionFrame} :
      state.frames thread = .processConnect :: rest →
      next.send = { state.send with connected := true } →
      (∀ taken, state.takenBy taken action = taken) →
      SendMove state next action
  | moves {sendAction : SendAction Thread} :
      state.send.step sendAction = some next.send →
      (∀ taken, state.send.takenBy taken sendAction =
        state.takenBy taken action) →
      (∀ thread call, sendAction = .call thread call →
        action = .callSend thread call) →
      SendMove state next action
  | returns {thread : Thread} {rest : List SessionFrame}
      {result : WSASendResult} {send : SessionSend Thread} :
      state.frames thread = .sendDisconnected :: rest →
      state.send.advance thread result = some send →
      next.send = { send with connected := state.send.connected } →
      (∀ taken, state.takenBy taken action = taken) →
      SendMove state next action

/-- What it does to the stack of its thread. -/
inductive StackMove (state next : SessionThreads Thread) (thread : Thread) :
    List SessionFrame → Prop where
  | plain {popped pushed rest : List SessionFrame} :
      state.frames thread = popped ++ rest →
      (popped = [] → state.mayCall thread = true) →
      (popped.head? = some .disconnect → next.send.connected = false) →
      .sendDisconnected ∉ pushed →
      (.processConnect ∈ pushed → state.connects ≠ 0) →
      StackMove state next thread (pushed ++ rest)
  | disconnects {rest : List SessionFrame} :
      state.frames thread = .send :: rest →
      (state.send.pcs thread).disconnects = true →
      StackMove state next thread (.disconnect :: .sendDisconnected :: rest)

structure Moves [DecidableEq Thread] (state next : SessionThreads Thread)
    (action : ThreadAction Thread) : Prop where
  send : SendMove state next action
  frames : next.frames = state.frames ∨
    ∃ thread stack, next.frames = Function.update state.frames thread stack ∧
      StackMove state next thread stack
  connects : next.connects ≤ state.connects

/-- `ProcessConnect` has not stored `_connected` yet. -/
def Unconnected (state : SessionThreads Thread) : Prop :=
  state.connects ≠ 0 ∨ ∃ thread, .processConnect ∈ state.frames thread

/-- Every `Send` so far has returned, or is about to. -/
structure Unsent (state : SessionThreads Thread) : Prop where
  lost : state.send.connected = false
  nothing : state.send.accepted = []
  inv : SessionSend.Inv state.send .free
  calling : ∀ thread, state.send.pcs thread = .idle ∨
    ∃ call, state.send.pcs thread = .send call
  nobody : ∀ thread, .sendDisconnected ∉ state.frames thread

/-- The send path is as it would be on its own. -/
structure SendsAlone (state : SessionThreads Thread) (taken : List UInt8) :
    Prop where
  sends : SessionSend.Sends state.send taken
  disconnecting : state.send.connected = true → ∀ thread,
    .sendDisconnected ∈ state.frames thread →
      (state.frames thread).head? = some .disconnect
  before : Unconnected state → Unsent state

variable [DecidableEq Thread]

/-- A thread pops the frame it is at. -/
theorem Moves.pops {state shared : SessionThreads Thread} {thread : Thread}
    {frame : SessionFrame} {rest : List SessionFrame}
    {action : ThreadAction Thread}
    (at_ : state.frames thread = frame :: rest) (pushed : List SessionFrame)
    (same : shared.frames = state.frames)
    (connects : shared.connects = state.connects)
    (send : SendMove state (shared.goto thread (pushed ++ rest)) action)
    (disconnects : frame = .disconnect → shared.send.connected = false)
    (none_ : .sendDisconnected ∉ pushed ∧ .processConnect ∉ pushed) :
    Moves state (shared.goto thread (pushed ++ rest)) action where
  send := send
  frames := by
    refine Or.inr ⟨thread, pushed ++ rest, ?_, ?_⟩
    · rw [← same]
      rfl
    · have popped : state.frames thread = [frame] ++ rest := at_
      apply StackMove.plain popped
      · rintro ⟨⟩
      · intro head
        exact disconnects (Option.some.inj head)
      · exact none_.1
      · exact fun member => absurd member none_.2
  connects := Nat.le_of_eq connects

/-- The same beside the send path. -/
theorem Moves.beside {state shared : SessionThreads Thread} {thread : Thread}
    {frame : SessionFrame} {rest : List SessionFrame}
    {result : WSASendResult}
    (at_ : state.frames thread = frame :: rest) (pushed : List SessionFrame)
    (same : shared.frames = state.frames)
    (connects : shared.connects = state.connects)
    (send : shared.send = state.send)
    (disconnects : frame = .disconnect → shared.send.connected = false)
    (none_ : .sendDisconnected ∉ pushed ∧ .processConnect ∉ pushed) :
    Moves state (shared.goto thread (pushed ++ rest))
      (.advance thread result) :=
  Moves.pops at_ pushed same connects (.rests send fun _ => rfl) disconnects
    none_

theorem processRecv_moves {state shared : SessionThreads Thread}
    {thread : Thread} {frame : SessionFrame} {rest : List SessionFrame}
    {result : WSASendResult} (at_ : state.frames thread = frame :: rest)
    (same : shared.frames = state.frames)
    (connects : shared.connects = state.connects)
    (send : shared.send = state.send) (other : frame ≠ .disconnect)
    (numOfBytes : Nat) :
    Moves state (shared.processRecv thread rest numOfBytes)
      (.advance thread result) := by
  unfold processRecv
  dsimp only
  repeat' split
  · exact Moves.beside at_ [.disconnect] same connects send
      (absurd · other) (by simp)
  · exact Moves.beside at_ [.disconnect] same connects send
      (absurd · other) (by simp)
  · exact Moves.beside at_ [.onRecv _ _ _] same connects send
      (absurd · other) (by simp)

theorem afterOnRecv_moves {state : SessionThreads Thread} {thread : Thread}
    {frame : SessionFrame} {rest : List SessionFrame}
    {result : WSASendResult} (at_ : state.frames thread = frame :: rest)
    (other : frame ≠ .disconnect) (dataSize processedLen : Int) :
    Moves state (state.afterOnRecv thread rest dataSize processedLen)
      (.advance thread result) := by
  unfold afterOnRecv
  dsimp only
  repeat' split
  · exact Moves.beside at_ [.disconnect] rfl rfl rfl (absurd · other)
      (by simp)
  · exact Moves.beside at_ [.disconnect] rfl rfl rfl (absurd · other)
      (by simp)
  · exact Moves.beside at_ [.registerRecv] rfl rfl rfl (absurd · other)
      (by simp)

theorem wsaRecv_moves {state : SessionThreads Thread} {thread : Thread}
    {frame : SessionFrame} {rest : List SessionFrame}
    (at_ : state.frames thread = frame :: rest)
    (other : frame ≠ .disconnect) (result : WSASendResult) :
    Moves state (state.wsaRecv thread rest result)
      (.advance thread result) := by
  unfold wsaRecv
  dsimp only
  split
  · exact Moves.beside at_ [.disconnect] rfl rfl rfl (absurd · other)
      (by simp)
  · cases result with
    | accepted =>
        exact Moves.beside at_ [] rfl rfl rfl (absurd · other) (by simp)
    | _ =>
        exact Moves.beside at_ [.disconnect, .wsaRecvFailed] rfl rfl rfl
          (absurd · other) (by simp)

/-- A thread goes on in the send path, or leaves it. -/
theorem Moves.sendStep {state : SessionThreads Thread} {thread : Thread}
    {frame : SessionFrame} {rest : List SessionFrame}
    {action : ThreadAction Thread}
    (at_ : state.frames thread = frame :: rest)
    (other : frame ≠ .disconnect) {send : SessionSend Thread}
    (move : ∀ next : SessionThreads Thread, next.send = send →
      SendMove state next action) :
    Moves state ({ state with send := send }.goto thread
      (if send.pcs thread = SendPc.idle then rest else .send :: rest))
      action := by
  split
  · exact Moves.pops at_ [] rfl rfl (move _ rfl) (absurd · other) (by simp)
  · exact Moves.pops at_ [.send] rfl rfl (move _ rfl) (absurd · other)
      (by simp)

theorem advanceSend_moves {state next : SessionThreads Thread}
    {thread : Thread} {rest : List SessionFrame} {result : WSASendResult}
    (at_ : state.frames thread = .send :: rest)
    (stepped : state.advanceSend thread rest result = some next) :
    Moves state next (.advance thread result) := by
  simp only [advanceSend] at stepped
  split at stepped
  · rename_i disconnects
    cases stepped
    exact
      { send := .rests rfl fun _ => rfl
        frames := Or.inr ⟨thread, _, rfl, .disconnects at_ disconnects⟩
        connects := Nat.le_refl _ }
  · simp only [Option.map_eq_some_iff] at stepped
    obtain ⟨send, advanced, rfl⟩ := stepped
    apply Moves.sendStep at_ (by simp)
    rintro next rfl
    have stepped : state.send.step (.advance thread result) =
        some next.send := advanced
    exact .moves stepped (fun _ => rfl) (by rintro _ _ ⟨⟩)

theorem returnToSend_moves {state next : SessionThreads Thread}
    {thread : Thread} {rest : List SessionFrame} {result : WSASendResult}
    (at_ : state.frames thread = .sendDisconnected :: rest)
    (stepped : state.returnToSend thread rest result = some next) :
    Moves state next (.advance thread result) := by
  simp only [returnToSend, Option.map_eq_some_iff] at stepped
  obtain ⟨send, advanced, rfl⟩ := stepped
  apply Moves.sendStep at_ (by simp)
  intro next same
  exact .returns at_ advanced same fun _ => rfl

theorem runFrame_moves {state next : SessionThreads Thread} {thread : Thread}
    {frame : SessionFrame} {rest : List SessionFrame}
    (at_ : state.frames thread = frame :: rest) {result : WSASendResult}
    (stepped : state.runFrame thread rest result frame = some next) :
    Moves state next (.advance thread result) := by
  cases frame with
  | processConnect =>
      cases stepped
      exact Moves.pops at_ [.addSession] rfl rfl
        (.connects at_ rfl fun _ => rfl) (by rintro ⟨⟩) (by simp)
  | addSession =>
      simp only [runFrame] at stepped
      split at stepped <;> cases stepped
      exact Moves.beside at_ [.onConnected] rfl rfl rfl (by rintro ⟨⟩)
        (by simp)
  | onConnected =>
      cases stepped
      exact Moves.beside at_ [.inOnConnected] rfl rfl rfl (by rintro ⟨⟩)
        (by simp)
  | inOnConnected =>
      cases stepped
      exact Moves.beside at_ [.registerRecv] rfl rfl rfl (by rintro ⟨⟩)
        (by simp)
  | disconnect =>
      simp only [runFrame] at stepped
      split at stepped <;> cases stepped
      · rename_i lost
        exact Moves.beside at_ [] rfl rfl rfl (fun _ => lost) (by simp)
      · have cleared : state.send.step .disconnect =
            some { state.send with connected := false } := rfl
        exact Moves.pops at_ [.registerDisconnect] rfl rfl
          (.moves cleared (fun _ => rfl) (by rintro _ _ ⟨⟩)) (fun _ => rfl)
          (by simp)
  | registerDisconnect =>
      cases stepped
      exact Moves.beside at_ [.disconnectEx] rfl rfl rfl (by rintro ⟨⟩)
        (by simp)
  | disconnectEx =>
      cases result <;> cases stepped
      · exact Moves.beside at_ [] rfl rfl rfl (by rintro ⟨⟩) (by simp)
      · exact Moves.beside at_ [.disconnect, .disconnectExFailed] rfl rfl rfl
          (by rintro ⟨⟩) (by simp)
      · exact Moves.beside at_ [.disconnect, .disconnectExFailed] rfl rfl rfl
          (by rintro ⟨⟩) (by simp)
  | disconnectExFailed =>
      cases stepped
      exact Moves.beside at_ [] rfl rfl rfl (by rintro ⟨⟩) (by simp)
  | processDisconnect =>
      cases stepped
      exact Moves.beside at_ [.onDisconnected] rfl rfl rfl (by rintro ⟨⟩)
        (by simp)
  | onDisconnected =>
      cases stepped
      exact Moves.beside at_ [.inOnDisconnected] rfl rfl rfl (by rintro ⟨⟩)
        (by simp)
  | inOnDisconnected =>
      cases stepped
      exact Moves.beside at_ [.releaseSession] rfl rfl rfl (by rintro ⟨⟩)
        (by simp)
  | releaseSession =>
      simp only [runFrame] at stepped
      split at stepped <;> cases stepped
      exact Moves.beside at_ [] rfl rfl rfl (by rintro ⟨⟩) (by simp)
  | registerRecv =>
      simp only [runFrame] at stepped
      split at stepped <;> cases stepped
      · exact Moves.beside at_ [] rfl rfl rfl (by rintro ⟨⟩) (by simp)
      · exact Moves.beside at_ [.wsaRecv] rfl rfl rfl (by rintro ⟨⟩)
          (by simp)
  | wsaRecv =>
      cases stepped
      exact wsaRecv_moves at_ (by simp) result
  | wsaRecvFailed =>
      cases stepped
      exact Moves.beside at_ [] rfl rfl rfl (by rintro ⟨⟩) (by simp)
  | processRecv numOfBytes =>
      cases stepped
      apply processRecv_moves at_
      · rfl
      · rfl
      · rfl
      · simp
  | onRecv packets dataSize processedLen =>
      cases packets with
      | nil =>
          cases stepped
          exact afterOnRecv_moves at_ (by simp) dataSize processedLen
      | cons packet packets =>
          cases stepped
          exact Moves.beside at_ [.inOnRecvPacket, .onRecv packets _ _] rfl
            rfl rfl (by rintro ⟨⟩) (by simp)
  | inOnRecvPacket =>
      cases stepped
      exact Moves.beside at_ [] rfl rfl rfl (by rintro ⟨⟩) (by simp)
  | send => exact advanceSend_moves at_ stepped
  | sendDisconnected => exact returnToSend_moves at_ stepped
  | clearSessions =>
      cases stepped
      exact Moves.beside at_ [] rfl rfl rfl (by rintro ⟨⟩) (by simp)

/-- A thread that may call a method of the session does. -/
theorem Moves.calls {state shared : SessionThreads Thread} {thread : Thread}
    {action : ThreadAction Thread} (may : state.mayCall thread = true)
    (pushed : List SessionFrame) (same : shared.frames = state.frames)
    (connects : shared.connects ≤ state.connects)
    (send : SendMove state
      (shared.goto thread (pushed ++ state.frames thread)) action)
    (none_ : .sendDisconnected ∉ pushed)
    (arrives : .processConnect ∈ pushed → state.connects ≠ 0) :
    Moves state (shared.goto thread (pushed ++ state.frames thread))
      action where
  send := send
  frames := by
    refine Or.inr ⟨thread, pushed ++ state.frames thread, ?_, ?_⟩
    · rw [← same]
      rfl
    · have popped : state.frames thread = [] ++ state.frames thread := rfl
      apply StackMove.plain popped
      · exact fun _ => may
      · rintro ⟨⟩
      · exact none_
      · exact arrives
  connects := connects

/-- A worker that is not inside the session enters it. -/
theorem Moves.enters {state shared : SessionThreads Thread} {thread : Thread}
    {action : ThreadAction Thread} (outside : state.frames thread = [])
    (pushed : List SessionFrame) (same : shared.frames = state.frames)
    (connects : shared.connects ≤ state.connects)
    (send : SendMove state (shared.goto thread pushed) action)
    (none_ : .sendDisconnected ∉ pushed)
    (arrives : .processConnect ∈ pushed → state.connects ≠ 0) :
    Moves state (shared.goto thread pushed) action := by
  have may : state.mayCall thread = true := by
    simp only [mayCall, outside]
  have called : ∀ stack, stack = pushed ++ state.frames thread →
      SendMove state (shared.goto thread stack) action →
      Moves state (shared.goto thread stack) action := by
    rintro _ rfl send
    exact Moves.calls may pushed same connects send none_ arrives
  apply called pushed _ send
  rw [outside, List.append_nil]

/-- What any action does to the send path. -/
theorem step_moves {state next : SessionThreads Thread}
    {action : ThreadAction Thread} (stepped : state.step action = some next) :
    Moves state next action := by
  cases action with
  | connect thread =>
      simp only [step] at stepped
      split at stepped <;> cases stepped
      rename_i enabled
      apply Moves.enters enabled.1 [.processConnect]
      · rfl
      · exact Nat.sub_le _ _
      · exact .rests rfl fun _ => rfl
      · simp
      · exact fun _ => enabled.2
  | callDisconnect thread =>
      simp only [step] at stepped
      split at stepped <;> cases stepped
      rename_i may
      apply Moves.calls may [.disconnect]
      · rfl
      · exact Nat.le_refl _
      · exact .rests rfl fun _ => rfl
      · simp
      · simp
  | callSend thread call =>
      simp only [step] at stepped
      split at stepped
      · rename_i may
        simp only [Option.map_eq_some_iff] at stepped
        obtain ⟨send, called, rfl⟩ := stepped
        apply Moves.calls may [.send]
        · rfl
        · exact Nat.le_refl _
        · refine .moves called (fun _ => rfl) ?_
          rintro _ _ ⟨⟩
          rfl
        · simp
        · simp
      · cases stepped
  | stop thread =>
      simp only [step] at stepped
      split at stepped <;> cases stepped
      rename_i enabled
      apply Moves.enters enabled.1 [.disconnect, .clearSessions]
      · rfl
      · exact Nat.le_refl _
      · exact .rests rfl fun _ => rfl
      · simp
      · simp
  | completeDisconnect thread =>
      simp only [step, completeDisconnect] at stepped
      repeat' split at stepped
      all_goals cases stepped
      · exact ⟨.rests rfl fun _ => rfl, Or.inl rfl, Nat.le_refl _⟩
      · rename_i outside _ _
        apply Moves.enters outside [.processDisconnect]
        · rfl
        · exact Nat.le_refl _
        · exact .rests rfl fun _ => rfl
        · simp
        · simp
  | completeRecv thread index chunk =>
      simp only [step, completeRecv] at stepped
      repeat' split at stepped
      all_goals cases stepped
      · exact ⟨.rests rfl fun _ => rfl, Or.inl rfl, Nat.le_refl _⟩
      · rename_i outside _ _ _ _
        apply Moves.enters outside [.processRecv chunk.length]
        · rfl
        · exact Nat.le_refl _
        · exact .rests rfl fun _ => rfl
        · simp
        · simp
  | completeSend thread index numOfBytes =>
      simp only [step] at stepped
      split at stepped
      · rename_i outside
        simp only [Option.map_eq_some_iff] at stepped
        obtain ⟨send, completed, rfl⟩ := stepped
        have moved : state.send.step (.complete thread index numOfBytes) =
            some send := completed
        split
        · apply Moves.enters outside []
          · rfl
          · exact Nat.le_refl _
          · exact .moves moved (fun _ => rfl) (by rintro _ _ ⟨⟩)
          · simp
          · simp
        · apply Moves.enters outside [.send]
          · rfl
          · exact Nat.le_refl _
          · exact .moves moved (fun _ => rfl) (by rintro _ _ ⟨⟩)
          · simp
          · simp
      · cases stepped
  | advance thread result =>
      simp only [step] at stepped
      split at stepped
      · cases stepped
      · rename_i frame rest at_
        exact runFrame_moves at_ stepped

omit [DecidableEq Thread] in
/-- While the session is connected, only a thread that is about to call
`Disconnect` is in the send path without going on there. -/
theorem StackMove.disconnecting {state next : SessionThreads Thread}
    {thread : Thread} {stack : List SessionFrame}
    (move : StackMove state next thread stack)
    (before : .sendDisconnected ∈ state.frames thread →
      (state.frames thread).head? = some .disconnect)
    (connected : next.send.connected = true)
    (member : .sendDisconnected ∈ stack) :
    stack.head? = some .disconnect := by
  cases move with
  | disconnects at_ disconnects => rfl
  | @plain popped pushed rest cut calls clears none_ arrives =>
      have inRest := (List.mem_append.mp member).resolve_left none_
      have head := before (by rw [cut]; exact List.mem_append_right _ inRest)
      cases popped with
      | nil =>
          have may := calls rfl
          simp only [mayCall] at may
          rw [List.head?_eq_some_iff] at head
          obtain ⟨others, same⟩ := head
          rw [same] at may
          cases may
      | cons frame popped =>
          rw [cut] at head
          rw [clears head] at connected
          cases connected

omit [DecidableEq Thread] in
theorem Unsent.quiet {state : SessionThreads Thread} (unsent : Unsent state)
    (thread : Thread) :
    (state.send.pcs thread).disconnects = false ∧
      (state.send.pcs thread).reported = [] := by
  rcases unsent.calling thread with idle | ⟨call, calling⟩
  · rw [idle]
    exact ⟨rfl, rfl⟩
  · rw [calling]
    exact ⟨rfl, rfl⟩

omit [DecidableEq Thread] in
theorem StackMove.nobody {state next : SessionThreads Thread}
    {thread : Thread} {stack : List SessionFrame}
    (move : StackMove state next thread stack) (unsent : Unsent state) :
    .sendDisconnected ∉ stack := by
  cases move with
  | disconnects at_ disconnects =>
      rw [(unsent.quiet thread).1] at disconnects
      cases disconnects
  | plain cut calls clears none_ arrives =>
      intro member
      have inRest := (List.mem_append.mp member).resolve_left none_
      apply unsent.nobody thread
      rw [cut]
      exact List.mem_append_right _ inRest

/-- `ProcessConnect` is not started a second time. -/
theorem Moves.unconnected {state next : SessionThreads Thread}
    {action : ThreadAction Thread} (moves : Moves state next action)
    (unconnected : Unconnected next) : Unconnected state := by
  rcases unconnected with outstanding | ⟨thread, member⟩
  · exact Or.inl (Nat.ne_of_gt
      (Nat.lt_of_lt_of_le (Nat.pos_of_ne_zero outstanding) moves.connects))
  · rcases moves.frames with same | ⟨mover, stack, same, move⟩
    · rw [same] at member
      exact Or.inr ⟨thread, member⟩
    · rw [same] at member
      by_cases own : thread = mover
      · subst own
        rw [Function.update_self] at member
        cases move with
        | plain cut calls clears none_ arrives =>
            rcases List.mem_append.mp member with new | old
            · exact Or.inl (arrives new)
            · refine Or.inr ⟨thread, ?_⟩
              rw [cut]
              exact List.mem_append_right _ old
        | disconnects at_ disconnects =>
            refine Or.inr ⟨thread, ?_⟩
            rw [at_]
            simpa using member
      · rw [Function.update_of_ne own] at member
        exact Or.inr ⟨thread, member⟩

theorem Moves.disconnecting {state next : SessionThreads Thread}
    {action : ThreadAction Thread} (moves : Moves state next action)
    (before : ∀ thread, .sendDisconnected ∈ state.frames thread →
      (state.frames thread).head? = some .disconnect)
    (connected : next.send.connected = true) (thread : Thread)
    (member : .sendDisconnected ∈ next.frames thread) :
    (next.frames thread).head? = some .disconnect := by
  rcases moves.frames with same | ⟨mover, stack, same, move⟩
  · rw [same] at member ⊢
    exact before thread member
  · rw [same] at member ⊢
    by_cases own : thread = mover
    · subst own
      rw [Function.update_self] at member ⊢
      exact move.disconnecting (before thread) connected member
    · rw [Function.update_of_ne own] at member ⊢
      exact before thread member

theorem Moves.nobody {state next : SessionThreads Thread}
    {action : ThreadAction Thread} (moves : Moves state next action)
    (unsent : Unsent state) (thread : Thread) :
    .sendDisconnected ∉ next.frames thread := by
  rcases moves.frames with same | ⟨mover, stack, same, move⟩
  · rw [same]
    exact unsent.nobody thread
  · rw [same]
    by_cases own : thread = mover
    · subst own
      rw [Function.update_self]
      exact move.nobody unsent
    · rw [Function.update_of_ne own]
      exact unsent.nobody thread

/-- A step of the send path before the session is connected. -/
theorem Unsent.step {state next : SessionThreads Thread}
    (unsent : Unsent state)
    (nobody : ∀ thread, .sendDisconnected ∉ next.frames thread)
    {action : SendAction Thread}
    (stepped : state.send.step action = some next.send) : Unsent next := by
  have outstanding : state.send.outstanding = [] := unsent.inv.owned.2.1
  have outside (thread : Thread) :
      ¬SessionSend.Pumps (state.send.pcs thread) := by
    intro pumps
    cases (unsent.inv.pumps_iff thread).mp pumps
  have moved {shared : SessionSend Thread} {thread : Thread} {pc : SendPc}
      (becomes : shared.goto thread pc = next.send)
      (same : shared = state.send)
      (calling : pc = .idle ∨ ∃ call, pc = .send call) : Unsent next := by
    subst same
    have quiet : ¬SessionSend.Pumps pc ∧ SessionSend.Expected pc := by
      rcases calling with rfl | ⟨call, rfl⟩
      · exact ⟨id, trivial⟩
      · exact ⟨id, trivial⟩
    constructor
    · rw [← becomes]
      exact unsent.lost
    · rw [← becomes]
      exact unsent.nothing
    · rw [← becomes]
      exact unsent.inv.bystander rfl (outside thread) quiet.1 quiet.2
        fun _ owned => owned
    · intro other
      rw [← becomes]
      by_cases own : other = thread
      · subst own
        rw [SessionSend.goto_pcs_self]
        exact calling
      · rw [SessionSend.goto_pcs_other own]
        exact unsent.calling other
    · exact nobody
  cases action with
  | call thread call =>
      simp only [SessionSend.step] at stepped
      split at stepped
      · exact moved (Option.some.inj stepped) rfl (Or.inr ⟨call, rfl⟩)
      · cases stepped
  | disconnect =>
      have same := Option.some.inj stepped
      constructor
      · rw [← same]
      · rw [← same]
        exact unsent.nothing
      · rw [← same]
        exact unsent.inv.disconnect
      · rw [← same]
        exact unsent.calling
      · exact nobody
  | complete thread index numOfBytes =>
      simp [SessionSend.step, SessionSend.complete, outstanding] at stepped
  | advance thread result =>
      simp only [SessionSend.step] at stepped
      rcases unsent.calling thread with idle | ⟨call, calling⟩
      · simp [SessionSend.advance, idle] at stepped
      · simp only [SessionSend.advance, calling, unsent.lost, or_true,
          if_true] at stepped
        exact moved (Option.some.inj stepped) rfl (Or.inl rfl)

omit [DecidableEq Thread] in
/-- `ProcessConnect` connects a session that has sent nothing. -/
theorem Unsent.connect {state : SessionThreads Thread}
    (unsent : Unsent state) {taken : List UInt8}
    (sends : SessionSend.Sends state.send taken) :
    SessionSend.Sends { state.send with connected := true } taken := by
  have nothing : taken = [] := by
    have front := sends.front
    rw [unsent.nothing] at front
    exact List.prefix_nil.mp front
  have acknowledged : state.send.acknowledged = [] := by
    have front := unsent.inv.acknowledged_front
    rw [unsent.nothing] at front
    exact List.prefix_nil.mp front
  refine Or.inl ⟨⟨.free, ?_, nofun⟩, ?_⟩
  · exact ⟨unsent.inv.pumps_iff, unsent.inv.expected, unsent.inv.owned⟩
  · constructor
    · change state.send.acknowledged <+: taken
      rw [acknowledged]
      exact List.nil_prefix
    · intro request member
      change request ∈ state.send.outstanding at member
      rw [unsent.inv.owned.2.1] at member
      cases member
    · intro thread reports
      exact absurd (unsent.quiet thread).2 reports
    · intro _ _
      change taken = state.send.acknowledged
      rw [nothing, acknowledged]

/-- After the store to `_connected` nobody is at it again. -/
theorem InPhase.connected_once {state : SessionThreads Thread}
    {phase : Phase Thread} (inPhase : InPhase state phase)
    (connected : state.send.connected = true) : ¬Unconnected state := by
  rw [inPhase.connected] at connected
  cases phase with
  | connected =>
      rintro (outstanding | ⟨thread, member⟩)
      · exact outstanding inPhase.connects
      · have found : .processConnect ∈
            marked SessionFrame.sole state.frames thread :=
          List.mem_filter.mpr ⟨member, rfl⟩
        rw [inPhase.frames] at found
        cases found
  | _ => cases connected

/-- A step of the send path, whichever thread takes it. -/
theorem SendsAlone.moves {state next : SessionThreads Thread}
    {taken : List UInt8} {action : ThreadAction Thread}
    {sendAction : SendAction Thread} (alone : SendsAlone state taken)
    (moves : Moves state next action)
    (stepped : state.send.step sendAction = some next.send)
    (same : state.send.takenBy taken sendAction =
      state.takenBy taken action) :
    SendsAlone next (state.takenBy taken action) where
  sends := by
    rw [← same]
    exact SessionSend.step_sends alone.sends stepped
  disconnecting := by
    intro connected
    exact moves.disconnecting
      (alone.disconnecting (SessionSend.connected_before stepped connected))
      connected
  before := by
    intro unconnected
    have unsent := alone.before (moves.unconnected unconnected)
    exact unsent.step (moves.nobody unsent) stepped

theorem step_sendsAlone {state next : SessionThreads Thread}
    {taken : List UInt8} {phase : Phase Thread}
    {action : ThreadAction Thread} (inPhase : InPhase state phase)
    (alone : SendsAlone state taken)
    (stepped : state.step action = some next) :
    SendsAlone next (state.takenBy taken action) := by
  have moves := step_moves stepped
  cases moves.send with
  | rests same unchanged =>
      rw [unchanged]
      constructor
      · rw [same]
        exact alone.sends
      · intro connected
        apply moves.disconnecting _ connected
        rw [same] at connected
        exact alone.disconnecting connected
      · intro unconnected
        have unsent := alone.before (moves.unconnected unconnected)
        constructor
        · rw [same]
          exact unsent.lost
        · rw [same]
          exact unsent.nothing
        · rw [same]
          exact unsent.inv
        · rw [same]
          exact unsent.calling
        · exact moves.nobody unsent
  | @connects thread rest at_ same unchanged =>
      have unsent := alone.before (Or.inr ⟨thread, by
        rw [at_]
        exact List.mem_cons_self⟩)
      obtain ⟨nextPhase, nextInPhase, _⟩ := step_phase inPhase stepped
      rw [unchanged]
      constructor
      · rw [same]
        exact unsent.connect alone.sends
      · intro _ other member
        exact absurd member (moves.nobody unsent other)
      · intro unconnected
        refine absurd unconnected (nextInPhase.connected_once ?_)
        rw [same]
  | moves sendStepped same called =>
      exact alone.moves moves sendStepped (same taken)
  | @returns thread rest result send at_ advanced same unchanged =>
      have lost : state.send.connected = false := by
        by_contra connected
        have head := alone.disconnecting (Bool.not_eq_false _ ▸ connected)
          thread (by rw [at_]; exact List.mem_cons_self)
        rw [at_] at head
        cases head
      have stillLost : send.connected = false := by
        by_contra connected
        have stepped : state.send.step (.advance thread result) =
            some send := advanced
        have before := SessionSend.connected_before stepped
          (Bool.not_eq_false _ ▸ connected)
        rw [lost] at before
        cases before
      have sendStepped : state.send.step (.advance thread result) =
          some next.send := by
        rw [same, lost, ← stillLost]
        exact advanced
      apply alone.moves moves sendStepped
      rw [unchanged]
      rfl

omit [DecidableEq Thread] in
theorem initial_sendsAlone (recvBuffer : RingBuffer) :
    SendsAlone (initial recvBuffer : SessionThreads Thread) [] := by
  have inv : SessionSend.Inv
      (initial recvBuffer : SessionThreads Thread).send .free :=
    SessionSend.initial_inv.disconnect
  constructor
  · refine Or.inl ⟨⟨.free, inv, nofun⟩, ?_⟩
    constructor
    · exact List.prefix_rfl
    · rintro request ⟨⟩
    · exact fun thread reports => absurd rfl reports
    · exact fun _ _ => rfl
  · rintro ⟨⟩
  · intro _
    exact ⟨rfl, rfl, inv, fun _ => Or.inl rfl, fun _ => List.not_mem_nil⟩

/-- The buffers of the calls that this step starts. -/
def calledWith : ThreadAction Thread → List SendBufferRef
  | .callSend _ call => call.sendBuffers
  | _ => []

/-- What every call of `Send` passes on is all that is accepted. -/
theorem step_callsOnly {state next : SessionThreads Thread}
    {passes : SendBufferRef → Prop} {action : ThreadAction Thread}
    (only : SessionSend.CallsOnly passes state.send)
    (called : ∀ sendBuffer ∈ calledWith action, passes sendBuffer)
    (stepped : state.step action = some next) :
    SessionSend.CallsOnly passes next.send := by
  have moves := step_moves stepped
  cases moves.send with
  | rests same unchanged =>
      rw [same]
      exact only
  | connects at_ same unchanged =>
      rw [same]
      exact ⟨only.accepted, only.pending⟩
  | @moves sendAction sendStepped same calls =>
      apply SessionSend.step_callsOnly only _ sendStepped
      rintro thread call rfl sendBuffer member
      apply called
      rw [calls thread call rfl]
      exact member
  | @returns thread rest result send at_ advanced same unchanged =>
      have sendStepped : state.send.step (.advance thread result) =
          some send := advanced
      have after := SessionSend.step_callsOnly only (by rintro _ _ ⟨⟩)
        sendStepped
      rw [same]
      exact ⟨after.accepted, after.pending⟩

end SessionThreads

end IocpChat
