import Mathlib.Data.Fintype.Basic
import IocpChat.Lib.Threads
import IocpChat.Network.SessionThreads

/-!
# The life of a session

`ProcessConnect` up to the store to `_connected`, and the way from a won
exchange in `Disconnect` to `ReleaseSession`, are taken at most once.  The phase
of a session says who is on that way, or which request stands for the rest of
it.  `step_phase` is all that the later proofs need to know about a step.
-/

namespace IocpChat

open TransitionSystem Threads

/-- The frames of the thread that tears the session down. -/
def SessionFrame.tears : SessionFrame → Bool
  | registerDisconnect => true
  | disconnectEx => true
  | disconnectExFailed => true
  | processDisconnect => true
  | onDisconnected => true
  | inOnDisconnected => true
  | releaseSession => true
  | _ => false

/-- The frames of which there is at most one. -/
def SessionFrame.sole (frame : SessionFrame) : Bool :=
  frame == .processConnect || frame.tears

/-- In `abandoned`, `DisconnectEx` has failed; in `overtaken`, `AddSession` is
still to come when the session has been released. -/
inductive Phase (Thread : Type) where
  | arriving
  | connecting (thread : Thread)
  | connected
  | closing (thread : Thread) (frame : SessionFrame)
  | requested
  | abandoned
  | closed
  | overtaken

namespace Phase

variable {Thread : Type}

def frames [DecidableEq Thread] : Phase Thread → Thread → List SessionFrame
  | connecting thread => only thread [.processConnect]
  | closing thread frame => only thread [frame]
  | _ => fun _ => []

def connects : Phase Thread → Nat
  | arriving => 1
  | _ => 0

def isConnected : Phase Thread → Bool
  | connected => true
  | _ => false

def disconnects : Phase Thread → Nat
  | requested => 1
  | _ => 0

/-- How often `OnDisconnected` has been called. -/
def announcements : Phase Thread → Nat
  | closing _ .inOnDisconnected => 1
  | closing _ .releaseSession => 1
  | closed => 1
  | overtaken => 1
  | _ => 0

/-- `_disconnectEvent` has an owner. -/
def ownsEvent : Phase Thread → Bool
  | closing _ .disconnectEx => true
  | requested => true
  | _ => false

/-- Teardown runs as it should. -/
def regular : Phase Thread → Bool
  | closing _ .disconnectExFailed => false
  | abandoned => false
  | overtaken => false
  | _ => true

end Phase

namespace SessionThreads

variable {Thread : Type} [DecidableEq Thread]

structure InPhase (state : SessionThreads Thread) (phase : Phase Thread) :
    Prop where
  frames : marked SessionFrame.sole state.frames = phase.frames
  tears : ∀ thread frame, phase = .closing thread frame → frame.tears = true
  connects : state.connects = phase.connects
  connected : state.send.connected = phase.isConnected
  disconnects : state.disconnects = phase.disconnects
  owner : phase.ownsEvent = true → state.disconnectOwner = true
  announced : state.callbacks.count .disconnectedStarts = phase.announcements
  removed : phase = .closed →
    state.inService = false ∧ ∀ thread, .addSession ∉ state.frames thread

omit [DecidableEq Thread] in
/-- What the phase depends on, the frames apart. -/
structure SameLife (state next : SessionThreads Thread) : Prop where
  connects : next.connects = state.connects
  connected : next.send.connected = state.send.connected
  disconnects : next.disconnects = state.disconnects
  owner : next.disconnectOwner = state.disconnectOwner
  announced : next.callbacks.count .disconnectedStarts =
    state.callbacks.count .disconnectedStarts
  service : next.inService = true →
    state.inService = true ∨ ∃ thread, .addSession ∈ state.frames thread

/-- A thread moves beside the life of the session. -/
theorem InPhase.aside {state shared : SessionThreads Thread}
    {phase : Phase Thread} (inPhase : InPhase state phase)
    {thread : Thread} {pushed : List SessionFrame}
    (same : shared.frames = state.frames) (life : SameLife state shared)
    (sole : pushed.filter SessionFrame.sole =
      (state.frames thread).filter SessionFrame.sole)
    (adds : .addSession ∈ pushed → .addSession ∈ state.frames thread) :
    InPhase (shared.goto thread pushed) phase where
  frames := by
    change marked _ (Function.update shared.frames thread pushed) = _
    rw [marked_update, same, sole, ← inPhase.frames]
    exact Function.update_eq_self thread _
  tears := inPhase.tears
  connects := life.connects.trans inPhase.connects
  connected := life.connected.trans inPhase.connected
  disconnects := life.disconnects.trans inPhase.disconnects
  owner := fun owns => life.owner.trans (inPhase.owner owns)
  announced := life.announced.trans inPhase.announced
  removed := by
    intro closed
    obtain ⟨outside, nobody⟩ := inPhase.removed closed
    constructor
    · by_contra inside
      rcases life.service (Bool.not_eq_false _ ▸ inside) with
        before | ⟨other, adding⟩
      · rw [outside] at before
        cases before
      · exact nobody other adding
    · intro other
      by_cases own : other = thread
      · subst own
        rw [goto_frames_self]
        exact fun member => nobody other (adds member)
      · rw [goto_frames_other _ own, same]
        exact nobody other

/-- A thread with a sole frame is the one of the phase. -/
theorem InPhase.holder {state : SessionThreads Thread} {phase : Phase Thread}
    (inPhase : InPhase state phase) {thread : Thread} {frame : SessionFrame}
    {rest : List SessionFrame} (at_ : state.frames thread = frame :: rest)
    (sole : frame.sole = true) :
    (phase = .connecting thread ∧ frame = .processConnect ∨
        phase = .closing thread frame) ∧
      rest.filter SessionFrame.sole = [] := by
  have found : phase.frames thread =
      frame :: rest.filter SessionFrame.sole := by
    rw [← inPhase.frames, marked, at_, List.filter_cons_of_pos sole]
  cases phase with
  | connecting holder =>
      obtain ⟨rfl, same⟩ := only_eq_cons found
      obtain ⟨rfl, nothing⟩ := List.cons.inj same
      exact ⟨Or.inl ⟨rfl, rfl⟩, nothing.symm⟩
  | closing holder held =>
      obtain ⟨rfl, same⟩ := only_eq_cons found
      obtain ⟨rfl, nothing⟩ := List.cons.inj same
      exact ⟨Or.inr rfl, nothing.symm⟩
  | _ => cases found

/-- The thread that tears the session down. -/
theorem InPhase.closer {state : SessionThreads Thread} {phase : Phase Thread}
    (inPhase : InPhase state phase) {thread : Thread} {frame : SessionFrame}
    {rest : List SessionFrame} (at_ : state.frames thread = frame :: rest)
    (tears : frame.tears = true) :
    phase = .closing thread frame ∧ rest.filter SessionFrame.sole = [] := by
  have sole : frame.sole = true := by simp [SessionFrame.sole, tears]
  obtain ⟨⟨_, rfl⟩ | closing, nothing⟩ := inPhase.holder at_ sole
  · cases tears
  · exact ⟨closing, nothing⟩

/-- The frames of a phase that has its sole frame, if any, in this thread. -/
theorem InPhase.goto_frames {state shared : SessionThreads Thread}
    {phase : Phase Thread} (inPhase : InPhase state phase)
    {thread : Thread} {held pushed : List SessionFrame}
    (holds : phase.frames = only thread held)
    (same : shared.frames = state.frames) :
    marked SessionFrame.sole (shared.goto thread pushed).frames =
      only thread (pushed.filter SessionFrame.sole) := by
  change marked _ (Function.update shared.frames thread pushed) = _
  rw [marked_update, same, inPhase.frames, holds, update_only]

/-- The send path disconnects the session only where it calls `Disconnect`. -/
theorem advance_connected {send next : SessionSend Thread} {thread : Thread}
    {result : WSASendResult} (goesOn : (send.pcs thread).disconnects = false)
    (stepped : send.advance thread result = some next) :
    next.connected = send.connected := by
  simp only [SessionSend.advance] at stepped
  repeat' split at stepped
  all_goals cases stepped
  all_goals first
    | rfl
    | simp_all [SendPc.disconnects]

theorem complete_connected {send next : SessionSend Thread} {thread : Thread}
    {index numOfBytes : Nat}
    (stepped : send.complete thread index numOfBytes = some next) :
    next.connected = send.connected := by
  simp only [SessionSend.complete] at stepped
  repeat' split at stepped
  all_goals cases stepped
  all_goals rfl

/-- `DisconnectEx` does not fail at once, and when `ReleaseSession` removes the
session, `AddSession` has inserted it. -/
def TeardownRegular (state : SessionThreads Thread) :
    ThreadAction Thread → Prop
  | .advance thread result =>
      ((state.frames thread).head? = some .disconnectEx →
        result = .accepted) ∧
      ((state.frames thread).head? = some .releaseSession →
        ∀ other, .addSession ∉ state.frames other)
  | _ => True

instance [Fintype Thread] (state : SessionThreads Thread) :
    ∀ action, Decidable (TeardownRegular state action)
  | .advance _ _ => inferInstanceAs (Decidable (_ ∧ _))
  | .connect _ => .isTrue trivial
  | .callDisconnect _ => .isTrue trivial
  | .callSend _ _ => .isTrue trivial
  | .stop _ => .isTrue trivial
  | .completeDisconnect _ => .isTrue trivial
  | .completeRecv _ _ _ => .isTrue trivial
  | .completeSend _ _ _ => .isTrue trivial

/-- A step that pushes nothing the phase depends on. -/
theorem InPhase.goesOn {state shared : SessionThreads Thread}
    {phase : Phase Thread} (inPhase : InPhase state phase)
    {thread : Thread} {frame : SessionFrame} {rest : List SessionFrame}
    (at_ : state.frames thread = frame :: rest) (beside : frame.sole = false)
    (pushed : List SessionFrame)
    (same : shared.frames = state.frames) (life : SameLife state shared)
    (none_ : pushed.filter SessionFrame.sole = [])
    (adds : .addSession ∉ pushed) :
    InPhase (shared.goto thread (pushed ++ rest)) phase := by
  apply inPhase.aside same life
  · rw [List.filter_append, none_, at_, List.nil_append,
      List.filter_cons_of_neg (by simp [beside])]
  · intro member
    rw [at_]
    rcases List.mem_append.mp member with new | old
    · exact absurd new adds
    · exact List.mem_cons_of_mem _ old

/-- The thread with the sole frame leaves it. -/
theorem InPhase.leaves {state shared : SessionThreads Thread}
    {phase next : Phase Thread} (inPhase : InPhase state phase)
    {thread : Thread} {held pushed : List SessionFrame}
    (holds : phase.frames = only thread held)
    (same : shared.frames = state.frames)
    (found : pushed.filter SessionFrame.sole = [])
    (frames : next.frames = fun _ => [])
    (connects : shared.connects = next.connects)
    (connected : shared.send.connected = next.isConnected)
    (disconnects : shared.disconnects = next.disconnects)
    (owner : next.ownsEvent = true → shared.disconnectOwner = true)
    (announced : shared.callbacks.count .disconnectedStarts =
      next.announcements)
    (removed : next = .closed → shared.inService = false ∧
      .addSession ∉ pushed ∧ ∀ other, .addSession ∉ state.frames other) :
    InPhase (shared.goto thread pushed) next where
  frames := by
    rw [inPhase.goto_frames holds same, found, frames, only_nil]
  tears := by
    rintro other frame rfl
    have nothing := congrFun frames other
    rw [Phase.frames, only_self] at nothing
    cases nothing
  connects := connects
  connected := connected
  disconnects := disconnects
  owner := owner
  announced := announced
  removed := by
    intro closed
    obtain ⟨outside, notPushed, nobody⟩ := removed closed
    refine ⟨outside, fun other => ?_⟩
    by_cases own : other = thread
    · subst own
      rw [goto_frames_self]
      exact notPushed
    · rw [goto_frames_other _ own, same]
      exact nobody other

/-- The thread that tears the session down goes on. -/
theorem InPhase.closing {state shared : SessionThreads Thread}
    {phase : Phase Thread} (inPhase : InPhase state phase)
    {thread : Thread} {held pushed : List SessionFrame} {frame : SessionFrame}
    (holds : phase.frames = only thread held)
    (same : shared.frames = state.frames)
    (found : pushed.filter SessionFrame.sole = [frame])
    (tears : frame.tears = true)
    (connects : shared.connects = 0)
    (connected : shared.send.connected = false)
    (disconnects : shared.disconnects = 0)
    (owner : frame = .disconnectEx → shared.disconnectOwner = true)
    (announced : shared.callbacks.count .disconnectedStarts =
      (Phase.closing thread frame).announcements) :
    InPhase (shared.goto thread pushed) (.closing thread frame) where
  frames := by
    rw [inPhase.goto_frames holds same, found]
    rfl
  tears := by
    rintro _ _ ⟨⟩
    exact tears
  connects := connects
  connected := connected
  disconnects := disconnects
  owner := by
    intro owns
    cases frame <;> first | exact owner rfl | cases owns
  announced := announced
  removed := nofun

/-- The thread that tears the session down comes to its next frame. -/
theorem InPhase.tearsOn {state shared : SessionThreads Thread}
    {thread : Thread} {frame next : SessionFrame} {rest : List SessionFrame}
    (inPhase : InPhase state (.closing thread frame))
    (nothing : rest.filter SessionFrame.sole = [])
    (same : shared.frames = state.frames) (tears : next.tears = true)
    (connects : shared.connects = state.connects)
    (connected : shared.send.connected = state.send.connected)
    (disconnects : shared.disconnects = state.disconnects)
    (owner : next = .disconnectEx → shared.disconnectOwner = true)
    (announced : shared.callbacks.count .disconnectedStarts =
      (Phase.closing thread next).announcements) :
    InPhase (shared.goto thread (next :: rest)) (.closing thread next) := by
  have sole : next.sole = true := by simp [SessionFrame.sole, tears]
  apply inPhase.closing rfl same
  · rw [List.filter_cons_of_pos sole, nothing]
  · exact tears
  · exact connects.trans inPhase.connects
  · exact connected.trans inPhase.connected
  · exact disconnects.trans inPhase.disconnects
  · exact owner
  · exact announced

omit [DecidableEq Thread] in
theorem SameLife.refl {state : SessionThreads Thread} :
    SameLife state state :=
  ⟨rfl, rfl, rfl, rfl, rfl, Or.inl⟩

/-- `ProcessRecv` and `RegisterRecv` leave the phase alone. -/
theorem processRecv_phase {state shared : SessionThreads Thread}
    {phase : Phase Thread} (inPhase : InPhase state phase)
    {thread : Thread} {frame : SessionFrame} {rest : List SessionFrame}
    (at_ : state.frames thread = frame :: rest) (beside : frame.sole = false)
    (same : shared.frames = state.frames) (life : SameLife state shared)
    (numOfBytes : Nat) :
    InPhase (shared.processRecv thread rest numOfBytes) phase := by
  have disconnects {shared : SessionThreads Thread}
      (same : shared.frames = state.frames) (life : SameLife state shared) :
      InPhase (shared.goto thread (.disconnect :: rest)) phase :=
    inPhase.goesOn at_ beside [.disconnect] same life rfl (by simp)
  unfold processRecv
  split
  · exact disconnects same life
  · dsimp only
    split
    · exact disconnects same { life with }
    · exact inPhase.goesOn at_ beside [.onRecv _ _ _] same { life with } rfl
        (by simp)

theorem afterOnRecv_phase {state : SessionThreads Thread}
    {phase : Phase Thread} (inPhase : InPhase state phase)
    {thread : Thread} {frame : SessionFrame} {rest : List SessionFrame}
    (at_ : state.frames thread = frame :: rest) (beside : frame.sole = false)
    (dataSize processedLen : Int) :
    InPhase (state.afterOnRecv thread rest dataSize processedLen) phase := by
  have disconnects {shared : SessionThreads Thread}
      (same : shared.frames = state.frames) (life : SameLife state shared) :
      InPhase (shared.goto thread (.disconnect :: rest)) phase :=
    inPhase.goesOn at_ beside [.disconnect] same life rfl (by simp)
  unfold afterOnRecv
  split
  · exact disconnects rfl .refl
  · dsimp only
    split
    · exact disconnects rfl { SameLife.refl with }
    · exact inPhase.goesOn at_ beside [.registerRecv] rfl
        { SameLife.refl with } rfl (by simp)

theorem wsaRecv_phase {state : SessionThreads Thread}
    {phase : Phase Thread} (inPhase : InPhase state phase)
    {thread : Thread} {frame : SessionFrame} {rest : List SessionFrame}
    (at_ : state.frames thread = frame :: rest) (beside : frame.sole = false)
    (result : WSASendResult) :
    InPhase (state.wsaRecv thread rest result) phase := by
  unfold wsaRecv
  dsimp only
  split
  · exact inPhase.goesOn at_ beside [.disconnect] rfl .refl rfl (by simp)
  · cases result with
    | accepted =>
        exact inPhase.goesOn at_ beside [] rfl { SameLife.refl with } rfl
          (by simp)
    | _ =>
        exact inPhase.goesOn at_ beside [.disconnect, .wsaRecvFailed] rfl
          .refl rfl (by simp)

/-- A step of the send path that leaves `_connected` alone. -/
theorem sendStep_phase {state : SessionThreads Thread}
    {phase : Phase Thread} (inPhase : InPhase state phase)
    {thread : Thread} {frame : SessionFrame} {rest : List SessionFrame}
    (at_ : state.frames thread = frame :: rest) (beside : frame.sole = false)
    {send : SessionSend Thread}
    (connected : send.connected = state.send.connected) :
    InPhase ({ state with send := send }.goto thread
      (if send.pcs thread = SendPc.idle then rest else .send :: rest))
      phase := by
  have life : SameLife state { state with send := send } :=
    { SameLife.refl with connected := connected }
  split
  · exact inPhase.goesOn at_ beside [] rfl life rfl (by simp)
  · exact inPhase.goesOn at_ beside [.send] rfl life rfl (by simp)

theorem advanceSend_phase {state next : SessionThreads Thread}
    {phase : Phase Thread} (inPhase : InPhase state phase)
    {thread : Thread} {frame : SessionFrame} {rest : List SessionFrame}
    (at_ : state.frames thread = frame :: rest) (beside : frame.sole = false)
    {result : WSASendResult}
    (stepped : state.advanceSend thread rest result = some next) :
    InPhase next phase := by
  simp only [advanceSend] at stepped
  split at stepped
  · cases stepped
    exact inPhase.goesOn at_ beside [.disconnect, .sendDisconnected] rfl .refl
      rfl (by simp)
  · rename_i goesOn
    simp only [Option.map_eq_some_iff] at stepped
    obtain ⟨send, advanced, rfl⟩ := stepped
    apply sendStep_phase inPhase at_ beside
    exact advance_connected (Bool.not_eq_true _ ▸ goesOn) advanced

theorem returnToSend_phase {state next : SessionThreads Thread}
    {phase : Phase Thread} (inPhase : InPhase state phase)
    {thread : Thread} {frame : SessionFrame} {rest : List SessionFrame}
    (at_ : state.frames thread = frame :: rest) (beside : frame.sole = false)
    {result : WSASendResult}
    (stepped : state.returnToSend thread rest result = some next) :
    InPhase next phase := by
  simp only [returnToSend, Option.map_eq_some_iff] at stepped
  obtain ⟨send, _, rfl⟩ := stepped
  exact sendStep_phase inPhase at_ beside rfl

/-- A step of a thread inside the session; only where it fails the guard does
teardown leave its regular way. -/
theorem runFrame_phase {state next : SessionThreads Thread}
    {phase : Phase Thread} (inPhase : InPhase state phase)
    {thread : Thread} {frame : SessionFrame} {rest : List SessionFrame}
    (at_ : state.frames thread = frame :: rest) {result : WSASendResult}
    (stepped : state.runFrame thread rest result frame = some next) :
    ∃ nextPhase, InPhase next nextPhase ∧
      (phase.regular = true →
        TeardownRegular state (.advance thread result) →
        nextPhase.regular = true) := by
  have same {next : SessionThreads Thread} (stays : InPhase next phase) :
      ∃ nextPhase, InPhase next nextPhase ∧
        (phase.regular = true →
          TeardownRegular state (.advance thread result) →
          nextPhase.regular = true) :=
    ⟨phase, stays, fun regular _ => regular⟩
  cases frame with
  | processConnect =>
      cases stepped
      obtain ⟨⟨rfl, _⟩ | rfl, nothing⟩ := inPhase.holder at_ rfl
      · refine ⟨.connected, ?_, fun _ _ => rfl⟩
        have plain : SessionFrame.sole .addSession = false := rfl
        refine inPhase.leaves rfl rfl ?_ rfl inPhase.connects rfl
          inPhase.disconnects (by rintro ⟨⟩) inPhase.announced (by rintro ⟨⟩)
        rw [List.filter_cons_of_neg (by simp [plain]), nothing]
      · cases inPhase.tears _ _ rfl
  | addSession =>
      simp only [runFrame] at stepped
      split at stepped
      · cases stepped
      · cases stepped
        apply same
        refine inPhase.goesOn at_ rfl [.onConnected] rfl ?_ rfl (by simp)
        refine { SameLife.refl with service := fun _ => Or.inr ⟨thread, ?_⟩ }
        rw [at_]
        exact List.mem_cons_self
  | onConnected =>
      cases stepped
      apply same
      refine inPhase.goesOn at_ rfl [.inOnConnected] rfl ?_ rfl (by simp)
      exact { SameLife.refl with announced := by simp [callback] }
  | inOnConnected =>
      cases stepped
      apply same
      refine inPhase.goesOn at_ rfl [.registerRecv] rfl ?_ rfl (by simp)
      exact { SameLife.refl with announced := by simp [callback] }
  | disconnect =>
      simp only [runFrame] at stepped
      split at stepped
      · cases stepped
        exact same (inPhase.goesOn at_ rfl [] rfl .refl rfl (by simp))
      · rename_i connected
        cases stepped
        rw [inPhase.connected] at connected
        cases phase with
        | connected =>
            refine ⟨.closing thread .registerDisconnect, ?_, fun _ _ => rfl⟩
            have nothing : rest.filter SessionFrame.sole = [] := by
              have all := congrFun inPhase.frames thread
              rw [marked, at_, List.filter_cons_of_neg Bool.false_ne_true]
                at all
              exact all
            refine inPhase.closing only_nil.symm rfl ?_ rfl inPhase.connects
              rfl inPhase.disconnects (by rintro ⟨⟩) inPhase.announced
            rw [List.filter_cons_of_pos rfl, nothing]
        | _ => exact absurd rfl connected
  | registerDisconnect =>
      cases stepped
      obtain ⟨rfl, nothing⟩ := inPhase.closer at_ rfl
      refine ⟨.closing thread .disconnectEx, ?_, fun _ _ => rfl⟩
      exact inPhase.tearsOn nothing rfl rfl rfl rfl rfl (fun _ => rfl)
        inPhase.announced
  | disconnectEx =>
      obtain ⟨rfl, nothing⟩ := inPhase.closer at_ rfl
      cases result with
      | accepted =>
          cases stepped
          refine ⟨.requested, ?_, fun _ _ => rfl⟩
          have one : state.disconnects + 1 = 1 := by
            rw [inPhase.disconnects]
            rfl
          exact inPhase.leaves rfl rfl nothing rfl inPhase.connects
            inPhase.connected one (fun _ => inPhase.owner rfl)
            inPhase.announced (by rintro ⟨⟩)
      | _ =>
          cases stepped
          refine ⟨.closing thread .disconnectExFailed, ?_, ?_⟩
          · refine inPhase.closing rfl rfl ?_ rfl inPhase.connects
              inPhase.connected inPhase.disconnects (by rintro ⟨⟩)
              inPhase.announced
            rw [List.filter_cons_of_neg Bool.false_ne_true,
              List.filter_cons_of_pos rfl, nothing]
          · intro _ permitted
            cases permitted.1 (by rw [at_]; rfl)
  | disconnectExFailed =>
      cases stepped
      obtain ⟨rfl, nothing⟩ := inPhase.closer at_ rfl
      refine ⟨.abandoned, ?_, (by rintro ⟨⟩)⟩
      exact inPhase.leaves rfl rfl nothing rfl inPhase.connects
        inPhase.connected inPhase.disconnects (by rintro ⟨⟩)
        inPhase.announced (by rintro ⟨⟩)
  | processDisconnect =>
      cases stepped
      obtain ⟨rfl, nothing⟩ := inPhase.closer at_ rfl
      refine ⟨.closing thread .onDisconnected, ?_, fun _ _ => rfl⟩
      exact inPhase.tearsOn nothing rfl rfl rfl rfl rfl (by simp)
        inPhase.announced
  | onDisconnected =>
      cases stepped
      obtain ⟨rfl, nothing⟩ := inPhase.closer at_ rfl
      refine ⟨.closing thread .inOnDisconnected, ?_, fun _ _ => rfl⟩
      refine inPhase.tearsOn nothing rfl rfl rfl rfl rfl (by simp) ?_
      change (state.callbacks ++ [Callback.disconnectedStarts]).count _ = 1
      rw [List.count_append, inPhase.announced]
      rfl
  | inOnDisconnected =>
      cases stepped
      obtain ⟨rfl, nothing⟩ := inPhase.closer at_ rfl
      refine ⟨.closing thread .releaseSession, ?_, fun _ _ => rfl⟩
      refine inPhase.tearsOn nothing rfl rfl rfl rfl rfl (by simp) ?_
      change (state.callbacks ++ [Callback.disconnectedReturns]).count _ = 1
      rw [List.count_append, inPhase.announced]
      rfl
  | releaseSession =>
      obtain ⟨rfl, nothing⟩ := inPhase.closer at_ rfl
      simp only [runFrame] at stepped
      split at stepped
      · cases stepped
      · cases stepped
        by_cases adding : ∃ other, .addSession ∈ state.frames other
        · refine ⟨.overtaken, ?_, ?_⟩
          · exact inPhase.leaves rfl rfl nothing rfl inPhase.connects
              inPhase.connected inPhase.disconnects (by rintro ⟨⟩)
              inPhase.announced (by rintro ⟨⟩)
          · intro _ permitted
            obtain ⟨other, member⟩ := adding
            have removes : (state.frames thread).head? =
                some .releaseSession := by
              rw [at_]
              rfl
            exact absurd member (permitted.2 removes other)
        · refine ⟨.closed, ?_, fun _ _ => rfl⟩
          simp only [not_exists] at adding
          refine inPhase.leaves rfl rfl nothing rfl inPhase.connects
            inPhase.connected inPhase.disconnects (by rintro ⟨⟩)
            inPhase.announced fun _ => ⟨rfl, ?_, adding⟩
          have none_ := adding thread
          rw [at_] at none_
          exact fun member => none_ (List.mem_cons_of_mem _ member)
  | registerRecv =>
      simp only [runFrame] at stepped
      split at stepped
      · cases stepped
        exact same (inPhase.goesOn at_ rfl [] rfl .refl rfl (by simp))
      · cases stepped
        exact same (inPhase.goesOn at_ rfl [.wsaRecv] rfl
          { SameLife.refl with } rfl (by simp))
  | wsaRecv =>
      cases stepped
      exact same (wsaRecv_phase inPhase at_ rfl result)
  | wsaRecvFailed =>
      cases stepped
      exact same (inPhase.goesOn at_ rfl [] rfl { SameLife.refl with } rfl
        (by simp))
  | processRecv numOfBytes =>
      cases stepped
      apply same
      apply processRecv_phase inPhase at_ rfl
      · rfl
      · exact { SameLife.refl with }
  | onRecv packets dataSize processedLen =>
      cases packets with
      | nil =>
          cases stepped
          exact same (afterOnRecv_phase inPhase at_ rfl dataSize processedLen)
      | cons packet packets =>
          cases stepped
          apply same
          refine inPhase.goesOn at_ rfl [.inOnRecvPacket, .onRecv packets _ _]
            rfl ?_ rfl (by simp)
          exact { SameLife.refl with announced := by simp [callback] }
  | inOnRecvPacket =>
      cases stepped
      exact same (inPhase.goesOn at_ rfl [] rfl .refl rfl (by simp))
  | send => exact same (advanceSend_phase inPhase at_ rfl stepped)
  | sendDisconnected => exact same (returnToSend_phase inPhase at_ rfl stepped)
  | clearSessions =>
      cases stepped
      exact same (inPhase.goesOn at_ rfl [] rfl
        { SameLife.refl with service := (by rintro ⟨⟩) } rfl (by simp))

/-- A thread calls a method, or takes a completion, beside the life of the
session. -/
theorem InPhase.calls {state shared : SessionThreads Thread}
    {phase : Phase Thread} (inPhase : InPhase state phase)
    {thread : Thread} (pushed : List SessionFrame)
    (same : shared.frames = state.frames) (life : SameLife state shared)
    (none_ : pushed.filter SessionFrame.sole = [])
    (adds : .addSession ∉ pushed) :
    InPhase (shared.goto thread (pushed ++ state.frames thread)) phase := by
  apply inPhase.aside same life
  · rw [List.filter_append, none_, List.nil_append]
  · intro member
    rcases List.mem_append.mp member with new | old
    · exact absurd new adds
    · exact old

/-- The same for a thread that is not inside the session. -/
theorem InPhase.enters {state shared : SessionThreads Thread}
    {phase : Phase Thread} (inPhase : InPhase state phase)
    {thread : Thread} (outside : state.frames thread = [])
    {pushed : List SessionFrame}
    (same : shared.frames = state.frames) (life : SameLife state shared)
    (none_ : pushed.filter SessionFrame.sole = [])
    (adds : .addSession ∉ pushed) :
    InPhase (shared.goto thread pushed) phase := by
  have called : InPhase
      (shared.goto thread (pushed ++ state.frames thread)) phase :=
    inPhase.calls pushed same life none_ adds
  rw [outside, List.append_nil] at called
  exact called

theorem connect_phase {state : SessionThreads Thread} {phase : Phase Thread}
    (inPhase : InPhase state phase) {thread : Thread}
    (outstanding : state.connects ≠ 0) :
    phase = .arriving ∧
      InPhase ({ state with connects := state.connects - 1 }.goto thread
        [.processConnect]) (.connecting thread) := by
  rw [inPhase.connects] at outstanding
  cases phase with
  | arriving =>
      refine ⟨rfl, ?_⟩
      exact
        { frames := inPhase.goto_frames only_nil.symm rfl
          tears := nofun
          connects := by
            change state.connects - 1 = 0
            rw [inPhase.connects]
            rfl
          connected := inPhase.connected
          disconnects := inPhase.disconnects
          owner := nofun
          announced := inPhase.announced
          removed := nofun }
  | _ => exact absurd rfl outstanding

theorem completeDisconnect_phase {state next : SessionThreads Thread}
    {phase : Phase Thread} (inPhase : InPhase state phase) {thread : Thread}
    (stepped : state.completeDisconnect thread = some next) :
    phase = .requested ∧
      InPhase next (.closing thread .processDisconnect) := by
  simp only [completeDisconnect] at stepped
  split at stepped
  · cases stepped
  · rename_i outstanding
    rw [inPhase.disconnects] at outstanding
    cases phase with
    | requested =>
        refine ⟨rfl, ?_⟩
        rw [if_neg (by simp [inPhase.owner rfl])] at stepped
        cases stepped
        refine inPhase.closing only_nil.symm rfl rfl rfl inPhase.connects
          inPhase.connected ?_ nofun inPhase.announced
        change state.disconnects - 1 = 0
        rw [inPhase.disconnects]
        rfl
    | _ => exact absurd rfl outstanding

theorem step_phase {state next : SessionThreads Thread}
    {phase : Phase Thread} (inPhase : InPhase state phase)
    {action : ThreadAction Thread} (stepped : state.step action = some next) :
    ∃ nextPhase, InPhase next nextPhase ∧
      (phase.regular = true → TeardownRegular state action →
        nextPhase.regular = true) := by
  have same {next : SessionThreads Thread} (stays : InPhase next phase) :
      ∃ nextPhase, InPhase next nextPhase ∧
        (phase.regular = true → TeardownRegular state action →
          nextPhase.regular = true) :=
    ⟨phase, stays, fun regular _ => regular⟩
  cases action with
  | connect thread =>
      simp only [step] at stepped
      split at stepped <;> cases stepped
      rename_i enabled
      exact ⟨_, (connect_phase inPhase enabled.2).2, fun _ _ => rfl⟩
  | callDisconnect thread =>
      simp only [step] at stepped
      split at stepped <;> cases stepped
      exact same (inPhase.calls [.disconnect] rfl .refl rfl (by simp))
  | callSend thread call =>
      simp only [step] at stepped
      split at stepped
      · simp only [SessionSend.step, Option.map_eq_some_iff] at stepped
        obtain ⟨send, called, rfl⟩ := stepped
        split at called <;> cases called
        exact same (inPhase.calls [.send] rfl { SameLife.refl with } rfl
          (by simp))
      · cases stepped
  | stop thread =>
      simp only [step] at stepped
      split at stepped <;> cases stepped
      rename_i enabled
      apply same
      apply inPhase.enters enabled.1
      · rfl
      · exact { SameLife.refl with }
      · rfl
      · simp
  | completeDisconnect thread =>
      simp only [step] at stepped
      split at stepped
      · exact ⟨_, (completeDisconnect_phase inPhase stepped).2,
          fun _ _ => rfl⟩
      · cases stepped
  | completeRecv thread index chunk =>
      simp only [step] at stepped
      split at stepped
      · rename_i outside
        simp only [completeRecv] at stepped
        split at stepped
        · cases stepped
        · split at stepped <;> cases stepped
          · exact same { inPhase with }
          · apply same
            apply inPhase.enters outside
            · rfl
            · exact { SameLife.refl with }
            · rfl
            · simp
      · cases stepped
  | completeSend thread index numOfBytes =>
      simp only [step] at stepped
      split at stepped
      · rename_i outside
        simp only [Option.map_eq_some_iff] at stepped
        obtain ⟨send, completed, rfl⟩ := stepped
        have connected := complete_connected completed
        apply same
        apply inPhase.enters outside
        · rfl
        · exact { SameLife.refl with connected := connected }
        · split <;> rfl
        · split <;> simp
      · cases stepped
  | advance thread result =>
      simp only [step] at stepped
      split at stepped
      · cases stepped
      · rename_i frame rest at_
        exact runFrame_phase inPhase at_ stepped

theorem initial_phase (recvBuffer : RingBuffer) :
    InPhase (initial recvBuffer : SessionThreads Thread) .arriving where
  frames := rfl
  tears := nofun
  connects := rfl
  connected := rfl
  disconnects := rfl
  owner := nofun
  announced := rfl
  removed := nofun

/-- Every reachable state is in a phase. -/
theorem reachable_phase {state : SessionThreads Thread}
    (reached : (machine Thread).Reachable state) :
    ∃ phase, InPhase state phase := by
  apply Machine.Reachable.invariant _ _ reached
  · rintro _ ⟨recvBuffer, rfl⟩
    exact ⟨.arriving, initial_phase recvBuffer⟩
  · rintro state action next ⟨phase, inPhase⟩ stepped
    obtain ⟨nextPhase, nextInPhase, _⟩ := step_phase inPhase stepped
    exact ⟨nextPhase, nextInPhase⟩

end SessionThreads

end IocpChat
