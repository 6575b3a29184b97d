import IocpChat.Network.Teardown

/-!
# The order of a session's callbacks

Room clean-up relies on `OnConnected` having returned before `OnDisconnected`
starts, and on no `OnRecvPacket` starting after it.  `Disconnect` may win as
soon as `ProcessConnect` has stored `_connected`, and neither the packet loop of
`ProcessRecv` nor a receive that has completed asks whether the session has been
disconnected.  The order holds in the runs in which nobody is caught so.
-/

namespace IocpChat

open TransitionSystem Threads

/-- The frames of `ProcessConnect` up to the return of `OnConnected`. -/
def SessionFrame.connects : SessionFrame → Bool
  | processConnect => true
  | addSession => true
  | onConnected => true
  | inOnConnected => true
  | _ => false

/-- A packet loop with packets left. -/
def SessionFrame.delivers : SessionFrame → Bool
  | onRecv (_ :: _) _ _ => true
  | _ => false

/-- `OnConnected` returns before `OnDisconnected` starts, and no `OnRecvPacket`
starts after it. -/
def Serialized (callbacks : List Callback) : Prop :=
  ∀ before after, callbacks = before ++ .disconnectedStarts :: after →
    .connectedReturns ∈ before ∧ ∀ packet, .recvPacket packet ∉ after

theorem serialized_nil : Serialized [] := by
  intro before after cut
  cases before <;> cases cut

theorem serialized_append_singleton {callbacks : List Callback}
    {callback : Callback} :
    Serialized (callbacks ++ [callback]) ↔
      Serialized callbacks ∧
        (callback = .disconnectedStarts → .connectedReturns ∈ callbacks) ∧
        (∀ packet, callback = .recvPacket packet →
          .disconnectedStarts ∉ callbacks) := by
  constructor
  · intro serialized
    refine ⟨?_, ?_, ?_⟩
    · rintro before after rfl
      obtain ⟨returned, none_⟩ := serialized before (after ++ [callback])
        (by simp)
      exact ⟨returned, fun packet member =>
        none_ packet (List.mem_append_left _ member)⟩
    · rintro rfl
      exact (serialized callbacks [] rfl).1
    · rintro packet rfl started
      obtain ⟨before, after, rfl⟩ := List.append_of_mem started
      obtain ⟨_, none_⟩ := serialized before (after ++ [.recvPacket packet])
        (by simp)
      exact none_ packet (List.mem_append_right _ List.mem_cons_self)
  · rintro ⟨serialized, starts, receives⟩ before after cut
    rcases List.eq_nil_or_concat after with rfl | ⟨after, last, rfl⟩
    · obtain ⟨rfl, same⟩ := List.append_inj' cut rfl
      cases same
      exact ⟨starts rfl, fun _ => List.not_mem_nil⟩
    · rw [List.concat_eq_append, ← List.cons_append, ← List.append_assoc]
        at cut
      obtain ⟨rfl, same⟩ := List.append_inj' cut rfl
      cases same
      obtain ⟨returned, none_⟩ := serialized before after rfl
      refine ⟨returned, fun packet member => ?_⟩
      rw [List.concat_eq_append] at member
      rcases List.mem_append.mp member with old | new
      · exact none_ packet old
      · refine receives packet (List.mem_singleton.mp new).symm ?_
        exact List.mem_append_right _ List.mem_cons_self

namespace SessionThreads

variable {Thread : Type}

/-- The packets that `ProcessRecv` finds complete. -/
def packetsIn (recvBuffer : RingBuffer) (numOfBytes : Nat) :
    List (List UInt8) :=
  let (moved, ring) := recvBuffer.moveWritePos numOfBytes
  if numOfBytes = 0 ∨ moved = false then []
  else
    let dataSize := ring.getDataSize
    (PacketSession.onRecv
      ((ring.peek dataSize).getD (List.replicate dataSize.toNat 0))).1

def completes (recvBuffer : RingBuffer) : SessionFrame → List (List UInt8)
  | .processRecv numOfBytes => packetsIn recvBuffer numOfBytes
  | _ => []

/-- When `OnDisconnected` starts, nobody is between `_connected.store(true)` and
the return of `OnConnected`, and no packet loop has packets left; and no receive
that completes a packet is processed after that. -/
def CallbacksRegular (state : SessionThreads Thread) :
    ThreadAction Thread → Prop
  | .advance thread _ =>
      ((state.frames thread).head? = some .onDisconnected →
        ∀ other, ∀ frame ∈ state.frames other,
          frame.connects = false ∧ frame.delivers = false) ∧
      (∀ frame ∈ (state.frames thread).head?,
        .disconnectedStarts ∈ state.callbacks →
          completes state.recvBuffer frame = [])
  | _ => True

instance [Fintype Thread] (state : SessionThreads Thread) :
    ∀ action, Decidable (CallbacksRegular state action)
  | .advance _ _ => inferInstanceAs (Decidable (_ ∧ _))
  | .connect _ => .isTrue trivial
  | .callDisconnect _ => .isTrue trivial
  | .callSend _ _ => .isTrue trivial
  | .stop _ => .isTrue trivial
  | .completeDisconnect _ => .isTrue trivial
  | .completeRecv _ _ _ => .isTrue trivial
  | .completeSend _ _ _ => .isTrue trivial

structure InOrder (state : SessionThreads Thread) : Prop where
  serialized : Serialized state.callbacks
  connecting : state.connects = 0 →
    .connectedReturns ∈ state.callbacks ∨
      ∃ thread, ∃ frame ∈ state.frames thread, frame.connects = true
  drained : .disconnectedStarts ∈ state.callbacks →
    ∀ thread, ∀ frame ∈ state.frames thread, frame.delivers = false

variable [DecidableEq Thread]

/-- A thread pops some frames, pushes others and calls hooks. -/
theorem InOrder.goes {state shared : SessionThreads Thread}
    (inOrder : InOrder state) {thread : Thread}
    {popped rest : List SessionFrame} (pushed : List SessionFrame)
    (at_ : state.frames thread = popped ++ rest)
    (same : shared.frames = state.frames)
    (connects : shared.connects = state.connects)
    (keeps : ∀ callback ∈ state.callbacks, callback ∈ shared.callbacks)
    (serialized : Serialized shared.callbacks)
    (hands : ∀ frame ∈ popped, frame.connects = true →
      .connectedReturns ∈ shared.callbacks ∨
        ∃ frame ∈ pushed, frame.connects = true)
    (drained : .disconnectedStarts ∈ shared.callbacks →
      (∀ other, ∀ frame ∈ state.frames other, frame.delivers = false) ∧
        ∀ frame ∈ pushed, frame.delivers = false) :
    InOrder (shared.goto thread (pushed ++ rest)) where
  serialized := serialized
  connecting := by
    intro none_
    change shared.connects = 0 at none_
    rcases inOrder.connecting (connects ▸ none_) with
      returned | ⟨other, frame, member, connecting⟩
    · exact Or.inl (keeps _ returned)
    · by_cases own : other = thread
      · subst own
        rw [at_] at member
        rcases List.mem_append.mp member with old | below
        · rcases hands frame old connecting with
            returned | ⟨next, added, connecting⟩
          · exact Or.inl returned
          · refine Or.inr ⟨other, next, ?_, connecting⟩
            rw [goto_frames_self]
            exact List.mem_append_left _ added
        · refine Or.inr ⟨other, frame, ?_, connecting⟩
          rw [goto_frames_self]
          exact List.mem_append_right _ below
      · refine Or.inr ⟨other, frame, ?_, connecting⟩
        rw [goto_frames_other _ own, same]
        exact member
  drained := by
    intro started
    obtain ⟨others, new⟩ := drained started
    change ∀ other, ∀ frame ∈
      Function.update shared.frames thread (pushed ++ rest) other, _
    rw [same]
    apply forall_update (fun (_ : Thread) (frames : List SessionFrame) =>
      ∀ frame ∈ frames, frame.delivers = false) others
    intro frame member
    rcases List.mem_append.mp member with added | below
    · exact new frame added
    · apply others thread frame
      rw [at_]
      exact List.mem_append_right _ below

/-- A thread goes on without calling a hook. -/
theorem InOrder.beside {state shared : SessionThreads Thread}
    (inOrder : InOrder state) {thread : Thread}
    {popped rest : List SessionFrame} (pushed : List SessionFrame)
    (at_ : state.frames thread = popped ++ rest)
    (same : shared.frames = state.frames)
    (connects : shared.connects = state.connects)
    (callbacks : shared.callbacks = state.callbacks)
    (outside : ∀ frame ∈ popped, frame.connects = false)
    (empty : .disconnectedStarts ∈ state.callbacks →
      ∀ frame ∈ pushed, frame.delivers = false) :
    InOrder (shared.goto thread (pushed ++ rest)) := by
  apply inOrder.goes pushed at_ same connects
  · intro callback member
    rw [callbacks]
    exact member
  · rw [callbacks]
    exact inOrder.serialized
  · intro frame member connecting
    rw [outside frame member] at connecting
    cases connecting
  · rw [callbacks]
    exact fun started => ⟨inOrder.drained started, empty started⟩

theorem processRecv_inOrder {state shared : SessionThreads Thread}
    (inOrder : InOrder state) {thread : Thread} {rest : List SessionFrame}
    {numOfBytes : Nat}
    (at_ : state.frames thread = .processRecv numOfBytes :: rest)
    (same : shared.frames = state.frames)
    (connects : shared.connects = state.connects)
    (callbacks : shared.callbacks = state.callbacks)
    (recvBuffer : shared.recvBuffer = state.recvBuffer)
    (regular : .disconnectedStarts ∈ state.callbacks →
      packetsIn state.recvBuffer numOfBytes = []) :
    InOrder (shared.processRecv thread rest numOfBytes) := by
  have outside : ∀ frame ∈ [SessionFrame.processRecv numOfBytes],
      frame.connects = false := by simp [SessionFrame.connects]
  rw [← recvBuffer] at regular
  unfold processRecv
  unfold packetsIn at regular
  split
  · exact inOrder.beside [.disconnect] at_ same connects callbacks outside
      (by simp [SessionFrame.delivers])
  · rename_i some_
    dsimp only at regular ⊢
    split
    · exact inOrder.beside [.disconnect] at_ same connects callbacks outside
        (by simp [SessionFrame.delivers])
    · rename_i moved
      rw [if_neg (by simp [some_, moved])] at regular
      refine inOrder.beside [.onRecv _ _ _] at_ same connects callbacks
        outside ?_
      intro started frame member
      rw [List.mem_singleton.mp member, regular started]
      rfl

/-- Frames that neither belong to `OnConnected` nor hold packets. -/
theorem InOrder.plain {state shared : SessionThreads Thread}
    (inOrder : InOrder state) {thread : Thread} {frame : SessionFrame}
    {rest : List SessionFrame} (pushed : List SessionFrame)
    (at_ : state.frames thread = frame :: rest)
    (same : shared.frames = state.frames)
    (connects : shared.connects = state.connects)
    (callbacks : shared.callbacks = state.callbacks)
    (outside : frame.connects = false)
    (empty : ∀ frame ∈ pushed, frame.delivers = false) :
    InOrder (shared.goto thread (pushed ++ rest)) := by
  have popped : ∀ other ∈ [frame], other.connects = false := by
    intro other member
    rw [List.mem_singleton.mp member]
    exact outside
  exact inOrder.beside pushed at_ same connects callbacks popped
    fun _ => empty

theorem afterOnRecv_inOrder {state : SessionThreads Thread}
    (inOrder : InOrder state) {thread : Thread} {frame : SessionFrame}
    {rest : List SessionFrame} (at_ : state.frames thread = frame :: rest)
    (outside : frame.connects = false) (dataSize processedLen : Int) :
    InOrder (state.afterOnRecv thread rest dataSize processedLen) := by
  unfold afterOnRecv
  split
  · exact inOrder.plain [.disconnect] at_ rfl rfl rfl outside
      (by simp [SessionFrame.delivers])
  · dsimp only
    split
    · exact inOrder.plain [.disconnect] at_ rfl rfl rfl outside
        (by simp [SessionFrame.delivers])
    · exact inOrder.plain [.registerRecv] at_ rfl rfl rfl outside
        (by simp [SessionFrame.delivers])

theorem wsaRecv_inOrder {state : SessionThreads Thread}
    (inOrder : InOrder state) {thread : Thread} {frame : SessionFrame}
    {rest : List SessionFrame} (at_ : state.frames thread = frame :: rest)
    (outside : frame.connects = false) (result : WSASendResult) :
    InOrder (state.wsaRecv thread rest result) := by
  unfold wsaRecv
  dsimp only
  split
  · exact inOrder.plain [.disconnect] at_ rfl rfl rfl outside
      (by simp [SessionFrame.delivers])
  · cases result with
    | accepted =>
        exact inOrder.plain [] at_ rfl rfl rfl outside (by simp)
    | _ =>
        exact inOrder.plain [.disconnect, .wsaRecvFailed] at_ rfl rfl rfl
          outside (by simp [SessionFrame.delivers])

theorem sendStep_inOrder {state : SessionThreads Thread}
    (inOrder : InOrder state) {thread : Thread} {frame : SessionFrame}
    {rest : List SessionFrame} (at_ : state.frames thread = frame :: rest)
    (outside : frame.connects = false) (send : SessionSend Thread) :
    InOrder ({ state with send := send }.goto thread
      (if send.pcs thread = SendPc.idle then rest else .send :: rest)) := by
  split
  · exact inOrder.plain [] at_ rfl rfl rfl outside (by simp)
  · exact inOrder.plain [.send] at_ rfl rfl rfl outside
      (by simp [SessionFrame.delivers])

/-- A thread goes on and calls a hook other than `OnDisconnected`. -/
theorem InOrder.hook {state : SessionThreads Thread}
    (inOrder : InOrder state) {thread : Thread} {frame : SessionFrame}
    {rest : List SessionFrame} (callback : Callback)
    (pushed : List SessionFrame)
    (at_ : state.frames thread = frame :: rest)
    (other : callback ≠ .disconnectedStarts)
    (received : ∀ packet, callback = .recvPacket packet →
      .disconnectedStarts ∉ state.callbacks)
    (hands : frame.connects = true → callback = .connectedReturns ∨
      ∃ frame ∈ pushed, frame.connects = true)
    (empty : .disconnectedStarts ∈ state.callbacks →
      ∀ frame ∈ pushed, frame.delivers = false) :
    InOrder ((state.callback callback).goto thread (pushed ++ rest)) := by
  have popped : state.frames thread = [frame] ++ rest := at_
  have started : .disconnectedStarts ∈ (state.callback callback).callbacks →
      .disconnectedStarts ∈ state.callbacks := by
    intro member
    rcases List.mem_append.mp member with old | new
    · exact old
    · exact absurd (List.mem_singleton.mp new).symm other
  refine inOrder.goes pushed popped rfl rfl ?_ ?_ ?_ ?_
  · exact fun _ member => List.mem_append_left _ member
  · exact serialized_append_singleton.mpr
      ⟨inOrder.serialized, fun same => absurd same other, received⟩
  · intro head member connecting
    rw [List.mem_singleton.mp member] at connecting
    rcases hands connecting with rfl | stays
    · exact Or.inl (List.mem_append_right _ List.mem_cons_self)
    · exact Or.inr stays
  · exact fun member =>
      ⟨inOrder.drained (started member), empty (started member)⟩

/-- `ProcessConnect` before it calls the hook. -/
theorem InOrder.connecting_goes {state shared : SessionThreads Thread}
    (inOrder : InOrder state) {thread : Thread} {frame pushed : SessionFrame}
    {rest : List SessionFrame} (at_ : state.frames thread = frame :: rest)
    (same : shared.frames = state.frames)
    (connects : shared.connects = state.connects)
    (callbacks : shared.callbacks = state.callbacks)
    (stays : pushed.connects = true) (empty : pushed.delivers = false) :
    InOrder (shared.goto thread (pushed :: rest)) := by
  have popped : state.frames thread = [frame] ++ rest := at_
  apply inOrder.goes [pushed] popped same connects
  · intro callback member
    rw [callbacks]
    exact member
  · rw [callbacks]
    exact inOrder.serialized
  · exact fun _ _ _ => Or.inr ⟨pushed, List.mem_cons_self, stays⟩
  · intro started
    rw [callbacks] at started
    refine ⟨inOrder.drained started, ?_⟩
    intro frame member
    rw [List.mem_singleton.mp member]
    exact empty

/-- `OnDisconnected` starts when nobody connects and no packet is left. -/
theorem onDisconnected_inOrder {state : SessionThreads Thread}
    (inOrder : InOrder state) {thread : Thread} {rest : List SessionFrame}
    (at_ : state.frames thread = .onDisconnected :: rest)
    (connected : state.connects = 0)
    (regular : ∀ other, ∀ frame ∈ state.frames other,
      frame.connects = false ∧ frame.delivers = false) :
    InOrder ((state.callback .disconnectedStarts).goto thread
      (.inOnDisconnected :: rest)) := by
  have popped : state.frames thread = [.onDisconnected] ++ rest := at_
  have returned : .connectedReturns ∈ state.callbacks := by
    rcases inOrder.connecting connected with
      returned | ⟨other, frame, member, connecting⟩
    · exact returned
    · rw [(regular other frame member).1] at connecting
      cases connecting
  refine inOrder.goes [.inOnDisconnected] popped rfl rfl ?_ ?_ ?_ ?_
  · exact fun _ member => List.mem_append_left _ member
  · apply serialized_append_singleton.mpr
    exact ⟨inOrder.serialized, fun _ => returned, nofun⟩
  · exact fun _ _ _ => Or.inl (List.mem_append_left _ returned)
  · intro _
    constructor
    · exact fun other frame member => (regular other frame member).2
    · simp [SessionFrame.delivers]

theorem runFrame_inOrder {state next : SessionThreads Thread}
    {phase : Phase Thread} (inPhase : InPhase state phase)
    (inOrder : InOrder state) {thread : Thread} {frame : SessionFrame}
    {rest : List SessionFrame} (at_ : state.frames thread = frame :: rest)
    {result : WSASendResult}
    (regular : CallbacksRegular state (.advance thread result))
    (stepped : state.runFrame thread rest result frame = some next) :
    InOrder next := by
  obtain ⟨starts, processes⟩ := regular
  simp only [at_, List.head?_cons] at starts processes
  cases frame with
  | processConnect =>
      cases stepped
      exact inOrder.connecting_goes at_ rfl rfl rfl rfl rfl
  | addSession =>
      simp only [runFrame] at stepped
      split at stepped <;> cases stepped
      exact inOrder.connecting_goes at_ rfl rfl rfl rfl rfl
  | onConnected =>
      cases stepped
      refine inOrder.hook .connectedStarts [.inOnConnected] at_
        (by simp) (by simp) (fun _ => Or.inr ⟨_, List.mem_cons_self, rfl⟩) ?_
      simp [SessionFrame.delivers]
  | inOnConnected =>
      cases stepped
      refine inOrder.hook .connectedReturns [.registerRecv] at_
        (by simp) (by simp) (fun _ => Or.inl rfl) ?_
      simp [SessionFrame.delivers]
  | disconnect =>
      simp only [runFrame] at stepped
      split at stepped <;> cases stepped
      · exact inOrder.plain [] at_ rfl rfl rfl rfl (by simp)
      · exact inOrder.plain [.registerDisconnect] at_ rfl rfl rfl rfl
          (by simp [SessionFrame.delivers])
  | registerDisconnect =>
      cases stepped
      exact inOrder.plain [.disconnectEx] at_ rfl rfl rfl rfl
        (by simp [SessionFrame.delivers])
  | disconnectEx =>
      cases result with
      | accepted =>
          cases stepped
          exact inOrder.plain [] at_ rfl rfl rfl rfl (by simp)
      | _ =>
          cases stepped
          exact inOrder.plain [.disconnect, .disconnectExFailed] at_ rfl rfl
            rfl rfl (by simp [SessionFrame.delivers])
  | disconnectExFailed =>
      cases stepped
      exact inOrder.plain [] at_ rfl rfl rfl rfl (by simp)
  | processDisconnect =>
      cases stepped
      exact inOrder.plain [.onDisconnected] at_ rfl rfl rfl rfl
        (by simp [SessionFrame.delivers])
  | onDisconnected =>
      cases stepped
      obtain ⟨rfl, _⟩ := inPhase.closer at_ rfl
      exact onDisconnected_inOrder inOrder at_ inPhase.connects (starts rfl)
  | inOnDisconnected =>
      cases stepped
      refine inOrder.hook .disconnectedReturns [.releaseSession] at_ (by simp)
        (by simp) (by rintro ⟨⟩) ?_
      simp [SessionFrame.delivers]
  | releaseSession =>
      simp only [runFrame] at stepped
      split at stepped <;> cases stepped
      exact inOrder.plain [] at_ rfl rfl rfl rfl (by simp)
  | registerRecv =>
      simp only [runFrame] at stepped
      split at stepped <;> cases stepped
      · exact inOrder.plain [] at_ rfl rfl rfl rfl (by simp)
      · exact inOrder.plain [.wsaRecv] at_ rfl rfl rfl rfl
          (by simp [SessionFrame.delivers])
  | wsaRecv =>
      cases stepped
      exact wsaRecv_inOrder inOrder at_ rfl result
  | wsaRecvFailed =>
      cases stepped
      exact inOrder.plain [] at_ rfl rfl rfl rfl (by simp)
  | processRecv numOfBytes =>
      cases stepped
      exact processRecv_inOrder inOrder at_ rfl rfl rfl rfl (processes _ rfl)
  | onRecv packets dataSize processedLen =>
      cases packets with
      | nil =>
          cases stepped
          exact afterOnRecv_inOrder inOrder at_ rfl dataSize processedLen
      | cons packet packets =>
          cases stepped
          have before : .disconnectedStarts ∉ state.callbacks := by
            intro started
            have member : SessionFrame.onRecv (packet :: packets) dataSize
                processedLen ∈ state.frames thread := by
              rw [at_]
              exact List.mem_cons_self
            cases inOrder.drained started thread _ member
          exact inOrder.hook (.recvPacket packet)
            [.inOnRecvPacket, .onRecv packets _ _] at_ (by simp)
            (fun _ _ => before) (by rintro ⟨⟩)
            (fun started => absurd started before)
  | inOnRecvPacket =>
      cases stepped
      exact inOrder.plain [] at_ rfl rfl rfl rfl (by simp)
  | send =>
      simp only [runFrame, advanceSend] at stepped
      split at stepped
      · cases stepped
        exact inOrder.plain [.disconnect, .sendDisconnected] at_ rfl rfl rfl
          rfl (by simp [SessionFrame.delivers])
      · simp only [Option.map_eq_some_iff] at stepped
        obtain ⟨send, _, rfl⟩ := stepped
        exact sendStep_inOrder inOrder at_ rfl send
  | sendDisconnected =>
      simp only [runFrame, returnToSend, Option.map_eq_some_iff] at stepped
      obtain ⟨send, _, rfl⟩ := stepped
      exact sendStep_inOrder inOrder at_ rfl _
  | clearSessions =>
      cases stepped
      exact inOrder.plain [] at_ rfl rfl rfl rfl (by simp)

/-- A thread calls a method, or takes a completion. -/
theorem InOrder.calls {state shared : SessionThreads Thread}
    (inOrder : InOrder state) {thread : Thread} (pushed : List SessionFrame)
    (same : shared.frames = state.frames)
    (connects : shared.connects = state.connects)
    (callbacks : shared.callbacks = state.callbacks)
    (empty : ∀ frame ∈ pushed, frame.delivers = false) :
    InOrder (shared.goto thread (pushed ++ state.frames thread)) :=
  inOrder.beside pushed (List.nil_append _).symm same connects callbacks
    (fun _ member => absurd member List.not_mem_nil) fun _ => empty

theorem InOrder.enters {state shared : SessionThreads Thread}
    (inOrder : InOrder state) {thread : Thread}
    (outside : state.frames thread = []) (pushed : List SessionFrame)
    (same : shared.frames = state.frames)
    (connects : shared.connects = state.connects)
    (callbacks : shared.callbacks = state.callbacks)
    (empty : ∀ frame ∈ pushed, frame.delivers = false) :
    InOrder (shared.goto thread pushed) := by
  have called : InOrder
      (shared.goto thread (pushed ++ state.frames thread)) :=
    inOrder.calls pushed same connects callbacks empty
  rw [outside, List.append_nil] at called
  exact called

theorem connect_inOrder {state : SessionThreads Thread}
    (inOrder : InOrder state) (thread : Thread) :
    InOrder ({ state with connects := state.connects - 1 }.goto thread
      [.processConnect]) where
  serialized := inOrder.serialized
  connecting := by
    intro _
    refine Or.inr ⟨thread, .processConnect, ?_, rfl⟩
    rw [goto_frames_self]
    exact List.mem_cons_self
  drained := by
    intro started
    apply forall_update (fun (_ : Thread) (frames : List SessionFrame) =>
      ∀ frame ∈ frames, frame.delivers = false) (inOrder.drained started)
    simp [SessionFrame.delivers]

theorem step_inOrder {state next : SessionThreads Thread}
    {phase : Phase Thread} (inPhase : InPhase state phase)
    (inOrder : InOrder state) {action : ThreadAction Thread}
    (regular : CallbacksRegular state action)
    (stepped : state.step action = some next) : InOrder next := by
  cases action with
  | connect thread =>
      simp only [step] at stepped
      split at stepped <;> cases stepped
      exact connect_inOrder inOrder thread
  | callDisconnect thread =>
      simp only [step] at stepped
      split at stepped <;> cases stepped
      exact inOrder.calls [.disconnect] rfl rfl rfl
        (by simp [SessionFrame.delivers])
  | callSend thread call =>
      simp only [step] at stepped
      split at stepped
      · simp only [Option.map_eq_some_iff] at stepped
        obtain ⟨send, _, rfl⟩ := stepped
        exact inOrder.calls [.send] rfl rfl rfl
          (by simp [SessionFrame.delivers])
      · cases stepped
  | stop thread =>
      simp only [step] at stepped
      split at stepped <;> cases stepped
      rename_i enabled
      exact inOrder.enters enabled.1 [.disconnect, .clearSessions] rfl rfl rfl
        (by simp [SessionFrame.delivers])
  | completeDisconnect thread =>
      simp only [step, completeDisconnect] at stepped
      split at stepped
      · rename_i outside
        repeat' split at stepped
        all_goals cases stepped
        · exact { inOrder with }
        · exact inOrder.enters outside [.processDisconnect] rfl rfl rfl
            (by simp [SessionFrame.delivers])
      · cases stepped
  | completeRecv thread index chunk =>
      simp only [step, completeRecv] at stepped
      split at stepped
      · rename_i outside
        repeat' split at stepped
        all_goals cases stepped
        · exact { inOrder with }
        · exact inOrder.enters outside [.processRecv chunk.length] rfl rfl rfl
            (by simp [SessionFrame.delivers])
      · cases stepped
  | completeSend thread index numOfBytes =>
      simp only [step] at stepped
      split at stepped
      · rename_i outside
        simp only [Option.map_eq_some_iff] at stepped
        obtain ⟨send, _, rfl⟩ := stepped
        split
        · exact inOrder.enters outside [] rfl rfl rfl (by simp)
        · exact inOrder.enters outside [.send] rfl rfl rfl
            (by simp [SessionFrame.delivers])
      · cases stepped
  | advance thread result =>
      simp only [step] at stepped
      split at stepped
      · cases stepped
      · rename_i frame rest at_
        exact runFrame_inOrder inPhase inOrder at_ regular stepped

/-- In every run in which `OnDisconnected` starts after `ProcessConnect` and
finds no packet on its way to `OnRecvPacket`, the callbacks are serialised. -/
theorem callbacks_serialized {state : SessionThreads Thread}
    (reached : (machine Thread).Reaches CallbacksRegular state) :
    Serialized state.callbacks := by
  have all : (∃ phase, InPhase state phase) ∧ InOrder state := by
    apply Machine.Reaches.invariant _ _ reached
    · rintro _ ⟨recvBuffer, rfl⟩
      refine ⟨⟨.arriving, initial_phase recvBuffer⟩, ?_⟩
      exact
        { serialized := serialized_nil
          connecting := nofun
          drained := fun started => absurd started List.not_mem_nil }
    · rintro state action next ⟨⟨phase, inPhase⟩, inOrder⟩ regular stepped
      obtain ⟨nextPhase, nextInPhase, _⟩ := step_phase inPhase stepped
      exact ⟨⟨nextPhase, nextInPhase⟩,
        step_inOrder inPhase inOrder regular stepped⟩
  exact all.2.serialized

/-- The session connects, a packet arrives in one piece, and the peer
closes. -/
def onePacket : List (ThreadAction Bool) :=
  List.flatten [[.connect true], List.replicate 6 (.advance true .accepted),
    [.completeRecv true 0 [4, 0, 237, 3]],
    List.replicate 6 (.advance true .accepted),
    [.completeRecv true 0 []], List.replicate 4 (.advance true .accepted),
    finishDisconnect]

theorem onePacket_serialized :
    ∃ state, (machine Bool).run (initial SessionRecv.serverRing) onePacket =
        some state ∧
      state.callbacks = [.connectedStarts, .connectedReturns,
        .recvPacket [4, 0, 237, 3], .disconnectedStarts,
        .disconnectedReturns] ∧
      Serialized state.callbacks := by
  obtain ⟨state, replayed⟩ :
      ∃ state, (machine Bool).run (initial SessionRecv.serverRing) onePacket =
        some state :=
    Option.isSome_iff_exists.mp (by decide +kernel)
  have callbacks : state.callbacks = [.connectedStarts, .connectedReturns,
      .recvPacket [4, 0, 237, 3], .disconnectedStarts,
      .disconnectedReturns] := by
    apply Machine.view_of_run replayed
    decide +kernel
  have starts : (machine Bool).Reaches CallbacksRegular
      (initial SessionRecv.serverRing) := .start ⟨_, rfl⟩
  refine ⟨state, replayed, callbacks, ?_⟩
  apply callbacks_serialized
  apply starts.of_run _ replayed
  decide +kernel

/-- The other thread calls `Disconnect` and takes the completion, up to the
call of `OnDisconnected`. -/
def disconnectAside : List (ThreadAction Bool) :=
  [.callDisconnect false,
    .advance false .accepted,
    .advance false .accepted,
    .advance false .accepted,
    .completeDisconnect false,
    .advance false .accepted,
    .advance false .accepted]

/-- A `Disconnect` between `AddSession` and `OnConnected`. -/
theorem disconnectWhileConnecting_notSerialized :
    ∃ state, (machine Bool).run (initial SessionRecv.serverRing)
        (List.flatten [[.connect true],
          List.replicate 2 (.advance true .accepted), disconnectAside]) =
        some state ∧
      state.callbacks = [.disconnectedStarts] ∧
      ¬Serialized state.callbacks := by
  obtain ⟨state, replayed⟩ :
      ∃ state, (machine Bool).run (initial SessionRecv.serverRing)
        (List.flatten [[.connect true],
          List.replicate 2 (.advance true .accepted), disconnectAside]) =
        some state :=
    Option.isSome_iff_exists.mp (by decide +kernel)
  have callbacks : state.callbacks = [.disconnectedStarts] := by
    apply Machine.view_of_run replayed
    decide +kernel
  refine ⟨state, replayed, callbacks, fun serialized => ?_⟩
  obtain ⟨returned, _⟩ := serialized [] [] callbacks
  cases returned

/-- A `Disconnect` while the packet loop has one more packet. -/
theorem disconnectWhileReceiving_notSerialized :
    ∃ state, (machine Bool).run (initial SessionRecv.serverRing)
        (List.flatten [[.connect true],
          List.replicate 6 (.advance true .accepted),
          [.completeRecv true 0 [4, 0, 237, 3, 4, 0, 237, 3]],
          List.replicate 2 (.advance true .accepted), disconnectAside,
          List.replicate 2 (.advance true .accepted)]) = some state ∧
      state.callbacks = [.connectedStarts, .connectedReturns,
        .recvPacket [4, 0, 237, 3], .disconnectedStarts,
        .recvPacket [4, 0, 237, 3]] ∧
      ¬Serialized state.callbacks := by
  obtain ⟨state, replayed⟩ :
      ∃ state, (machine Bool).run (initial SessionRecv.serverRing)
        (List.flatten [[.connect true],
          List.replicate 6 (.advance true .accepted),
          [.completeRecv true 0 [4, 0, 237, 3, 4, 0, 237, 3]],
          List.replicate 2 (.advance true .accepted), disconnectAside,
          List.replicate 2 (.advance true .accepted)]) = some state :=
    Option.isSome_iff_exists.mp (by decide +kernel)
  have callbacks : state.callbacks = [.connectedStarts, .connectedReturns,
      .recvPacket [4, 0, 237, 3], .disconnectedStarts,
      .recvPacket [4, 0, 237, 3]] := by
    apply Machine.view_of_run replayed
    decide +kernel
  refine ⟨state, replayed, callbacks, fun serialized => ?_⟩
  obtain ⟨_, received⟩ := serialized [.connectedStarts, .connectedReturns,
    .recvPacket [4, 0, 237, 3]] [.recvPacket [4, 0, 237, 3]] callbacks
  exact received _ List.mem_cons_self

end SessionThreads

end IocpChat
