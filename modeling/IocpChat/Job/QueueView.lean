import IocpChat.Job.JobQueue

/-!
# What one queue sees

`QueueView` is one queue's part of the system: its own state, its entries in the
`GlobalQueue` and the threads that are inside its own functions.  A step of the
system is a step of at most one view, so an invariant of a queue only has to be
looked at in `QueueView.Step`.
-/

namespace IocpChat

open TransitionSystem

/-- The phase of a thread in the functions of one queue. -/
def phaseAt {Queue Phase : Type} [DecidableEq Queue] (queue : Queue) :
    Option (Queue × Phase) → Option Phase
  | some (at_, phase) => if at_ = queue then some phase else none
  | none => none

@[simp] theorem phaseAt_none {Queue Phase : Type} [DecidableEq Queue]
    (queue : Queue) : phaseAt queue (none : Option (Queue × Phase)) = none :=
  rfl

@[simp] theorem phaseAt_self {Queue Phase : Type} [DecidableEq Queue]
    (queue : Queue) (phase : Phase) :
    phaseAt queue (some (queue, phase)) = some phase :=
  if_pos rfl

theorem phaseAt_other {Queue Phase : Type} [DecidableEq Queue]
    {queue other : Queue} (different : other ≠ queue) (phase : Phase) :
    phaseAt queue (some (other, phase)) = none :=
  if_neg different

theorem phaseAt_eq_some_iff {Queue Phase : Type} [DecidableEq Queue]
    {queue : Queue} {at_ : Option (Queue × Phase)} {phase : Phase} :
    phaseAt queue at_ = some phase ↔ at_ = some (queue, phase) := by
  constructor
  · intro found
    cases at_ with
    | none => cases found
    | some pair =>
        obtain ⟨other, own⟩ := pair
        by_cases same : other = queue
        · subst same
          rw [phaseAt_self] at found
          rw [Option.some.inj found]
        · rw [phaseAt_other same] at found
          cases found
  · intro found
    rw [found, phaseAt_self]

structure QueueView (Thread Job : Type) where
  entries : Nat
  queue : JobQueue Thread Job
  call : Thread → Option (CallPhase Job)
  execute : Thread → Option (ExecutePhase Job)

namespace QueueView

variable {Thread Queue Job : Type} [DecidableEq Thread] [DecidableEq Queue]

def setCall (view : QueueView Thread Job) (thread : Thread)
    (phase : Option (CallPhase Job)) : QueueView Thread Job :=
  { view with call := Function.update view.call thread phase }

def setExecute (view : QueueView Thread Job) (thread : Thread)
    (phase : Option (ExecutePhase Job)) : QueueView Thread Job :=
  { view with execute := Function.update view.execute thread phase }

/-- The steps of one queue when nobody calls `Clear` and every `Push` may
register the queue. -/
inductive Step : QueueView Thread Job → QueueView Thread Job → Prop where
  | elsewhere (view : QueueView Thread Job) : Step view view
  | push {view : QueueView Thread Job} (thread : Thread) (job : Job) :
      view.call thread = none →
      view.queue.jobCount < JobQueue.maxPendingJobs →
      Step view
        ({ view with queue := view.queue.fetchAdd thread job }.setCall thread
          (some (.enqueue job view.queue.jobCount false)))
  | enqueue {view : QueueView Thread Job} {thread : Thread} {job : Job}
      {prevCount : Int} :
      view.call thread = some (.enqueue job prevCount false) →
      Step view
        ({ view with queue := view.queue.enqueue thread job }.setCall thread
          (if prevCount = 0 then some .register else none))
  | registerNew {view : QueueView Thread Job} {thread : Thread} :
      view.call thread = some .register →
      Step view ({ view with entries := view.entries + 1 }.setCall thread none)
  | pop {view : QueueView Thread Job} {thread : Thread} {entries : Nat} :
      view.entries = entries + 1 →
      view.execute thread = none →
      Step view
        ({ view with entries := entries }.setExecute thread (some .takeBatch))
  | takeBatch {view : QueueView Thread Job} {thread : Thread} :
      view.execute thread = some .takeBatch →
      Step view
        ({ view with queue := view.queue.takeBatch }.setExecute thread
          (some (.loop (view.queue.jobs.take JobQueue.maxExecuteCount)
            (view.queue.jobs.take JobQueue.maxExecuteCount).length)))
  | start {view : QueueView Thread Job} {thread : Thread} {job : Job}
      {rest : List Job} {executedCount : Nat} :
      view.execute thread = some (.loop (job :: rest) executedCount) →
      Step view
        ({ view with queue := view.queue.start job }.setExecute thread
          (some (.job rest executedCount)))
  | finish {view : QueueView Thread Job} {thread : Thread} {rest : List Job}
      {executedCount : Nat} :
      view.execute thread = some (.job rest executedCount) →
      Step view (view.setExecute thread (some (.loop rest executedCount)))
  | fetchSub {view : QueueView Thread Job} {thread : Thread}
      {executedCount : Nat} :
      view.execute thread = some (.loop [] executedCount) →
      Step view
        ({ view with queue := view.queue.fetchSub executedCount }.setExecute
          thread
          (if 0 < int32 (view.queue.jobCount - executedCount) then
              some .register
            else none))
  | registerAgain {view : QueueView Thread Job} {thread : Thread} :
      view.execute thread = some .register →
      Step view
        ({ view with entries := view.entries + 1 }.setExecute thread none)

end QueueView

namespace JobSystem

variable {Thread Queue Job : Type} [DecidableEq Queue]

def view (state : JobSystem Thread Queue Job) (queue : Queue) :
    QueueView Thread Job :=
  { entries := state.globalQueue.count queue
    queue := state.queues queue
    call := fun thread => phaseAt queue (state.calls thread)
    execute := fun thread => phaseAt queue (state.executes thread) }

@[simp] theorem view_setQueue_self (state : JobSystem Thread Queue Job)
    (queue : Queue) (value : JobQueue Thread Job) :
    (state.setQueue queue value).view queue =
      { state.view queue with queue := value } := by
  simp [view, setQueue]

theorem view_setQueue_other (state : JobSystem Thread Queue Job)
    {queue other : Queue} (different : other ≠ queue)
    (value : JobQueue Thread Job) :
    (state.setQueue other value).view queue = state.view queue := by
  simp [view, setQueue, different.symm]

@[simp] theorem view_register_self (state : JobSystem Thread Queue Job)
    (queue : Queue) :
    (state.register queue).view queue =
      { state.view queue with entries := (state.view queue).entries + 1 } := by
  simp [view, register]

theorem view_register_other (state : JobSystem Thread Queue Job)
    {queue other : Queue} (different : other ≠ queue) :
    (state.register other).view queue = state.view queue := by
  simp [view, register, different]

variable [DecidableEq Thread]

@[simp] theorem view_setCall (state : JobSystem Thread Queue Job)
    (queue : Queue) (thread : Thread) (call : Option (Queue × CallPhase Job)) :
    (state.setCall thread call).view queue =
      (state.view queue).setCall thread (phaseAt queue call) := by
  have moved := Function.comp_update (phaseAt queue) state.calls thread call
  simp only [view, setCall, QueueView.setCall, QueueView.mk.injEq, true_and,
    and_true]
  exact moved

@[simp] theorem view_setExecute (state : JobSystem Thread Queue Job)
    (queue : Queue) (thread : Thread)
    (execute : Option (Queue × ExecutePhase Job)) :
    (state.setExecute thread execute).view queue =
      (state.view queue).setExecute thread (phaseAt queue execute) := by
  have moved :=
    Function.comp_update (phaseAt queue) state.executes thread execute
  simp only [view, setExecute, QueueView.setExecute, QueueView.mk.injEq,
    true_and]
  exact moved

/-- A thread that is in none of the functions of a queue stays outside. -/
theorem setCall_none (view : QueueView Thread Job) {thread : Thread}
    (outside : view.call thread = none) : view.setCall thread none = view := by
  rw [QueueView.setCall, ← outside, Function.update_eq_self]

theorem setExecute_none (view : QueueView Thread Job) {thread : Thread}
    (outside : view.execute thread = none) :
    view.setExecute thread none = view := by
  rw [QueueView.setExecute, ← outside, Function.update_eq_self]

/-- The steps the guarantee is about: `Push` with `pushOnly = false`, no
`Clear`. -/
def PushesOnly (_ : JobSystem Thread Queue Job) :
    JobAction Thread Queue Job → Prop
  | .push _ _ _ pushOnly => pushOnly = false
  | .clear _ _ => False
  | .pop _ => True
  | .advance _ => True

/-- No thread is inside `Clear` or a `Push` that must not register. -/
def Registers (state : JobSystem Thread Queue Job) : Prop :=
  ∀ thread queue phase, state.calls thread = some (queue, phase) →
    phase ≠ .clear ∧ ∀ job prevCount, phase ≠ .enqueue job prevCount true

omit [DecidableEq Queue] in
theorem phases_setCall {allowed : CallPhase Job → Prop}
    {state shared : JobSystem Thread Queue Job} {thread : Thread}
    {call : Option (Queue × CallPhase Job)}
    (before : ∀ thread queue phase,
      state.calls thread = some (queue, phase) → allowed phase)
    (same : shared.calls = state.calls)
    (new : ∀ queue phase, call = some (queue, phase) → allowed phase)
    (other : Thread) (queue : Queue) (phase : CallPhase Job)
    (at_ : (shared.setCall thread call).calls other = some (queue, phase)) :
    allowed phase := by
  by_cases own : other = thread
  · subst own
    apply new queue phase
    simpa [setCall] using at_
  · apply before other queue phase
    simpa [setCall, own, same] using at_

theorem advanceExecute_calls {state next : JobSystem Thread Queue Job}
    {thread : Thread} {queue : Queue} {phase : ExecutePhase Job}
    (stepped : state.advanceExecute thread queue phase = some next) :
    next.calls = state.calls := by
  revert stepped
  fun_cases advanceExecute state thread queue phase <;> intro stepped <;>
    cases stepped <;> rfl

/-- The calls in progress are in allowed phases, if all calls start in one. -/
theorem phases_step {allowed : CallPhase Job → Prop}
    {state next : JobSystem Thread Queue Job}
    {action : JobAction Thread Queue Job}
    (before : ∀ thread queue phase,
      state.calls thread = some (queue, phase) → allowed phase)
    (register : allowed .register)
    (pushes : ∀ thread queue job pushOnly,
      action = .push thread queue job pushOnly →
      ∀ prevCount, allowed (.enqueue job prevCount pushOnly))
    (clears : ∀ thread queue, action = .clear thread queue → allowed .clear)
    (stepped : state.step action = some next) :
    ∀ thread queue phase, next.calls thread = some (queue, phase) →
      allowed phase := by
  cases action with
  | clear thread queue =>
      simp only [step] at stepped
      split at stepped
      · obtain rfl := Option.some.inj stepped
        apply phases_setCall before rfl
        intro other phase new
        obtain ⟨rfl, rfl⟩ := Prod.mk.inj (Option.some.inj new)
        exact clears _ _ rfl
      · cases stepped
  | push thread queue job pushOnly =>
      simp only [step] at stepped
      split at stepped
      · obtain rfl := Option.some.inj stepped
        apply phases_setCall before rfl
        intro other phase new
        obtain ⟨rfl, rfl⟩ := Prod.mk.inj (Option.some.inj new)
        exact pushes _ _ _ _ rfl _
      · cases stepped
  | pop thread =>
      simp only [step] at stepped
      split at stepped
      · split at stepped <;> obtain rfl := Option.some.inj stepped <;>
          exact before
      · cases stepped
  | advance thread =>
      simp only [step] at stepped
      split at stepped
      · rename_i queue phase at_
        cases phase with
        | clear =>
            obtain rfl := Option.some.inj stepped
            exact phases_setCall before rfl nofun
        | register =>
            obtain rfl := Option.some.inj stepped
            exact phases_setCall before rfl nofun
        | enqueue job prevCount pushOnly =>
            simp only [advanceCall] at stepped
            split at stepped
            · cases stepped
            · obtain rfl := Option.some.inj stepped
              apply phases_setCall before rfl
              intro other phase new
              split at new
              · obtain ⟨rfl, rfl⟩ := Prod.mk.inj (Option.some.inj new)
                exact register
              · cases new
      · split at stepped
        · rw [advanceExecute_calls stepped]
          exact before
        · cases stepped

theorem registers_step {state next : JobSystem Thread Queue Job}
    {action : JobAction Thread Queue Job} (registers : Registers state)
    (pushes : PushesOnly state action)
    (stepped : state.step action = some next) : Registers next := by
  apply phases_step registers ⟨nofun, fun _ _ => nofun⟩ _ _ stepped
  · intro thread queue job pushOnly same prevCount
    subst same
    obtain rfl : pushOnly = false := pushes
    exact ⟨nofun, fun _ _ => nofun⟩
  · intro thread queue same
    subst same
    exact pushes.elim

theorem call_view {state next : JobSystem Thread Queue Job} {thread : Thread}
    {other : Queue} {phase : CallPhase Job}
    (at_ : state.calls thread = some (other, phase)) (noClear : phase ≠ .clear)
    (registering : ∀ job prevCount, phase ≠ .enqueue job prevCount true)
    (stepped : state.advanceCall thread other phase = some next)
    (queue : Queue) : (state.view queue).Step (next.view queue) := by
  have seen : (state.view queue).call thread =
      phaseAt queue (some (other, phase)) := by
    simp [view, at_]
  cases phase with
  | clear => exact absurd rfl noClear
  | register =>
      obtain rfl := Option.some.inj stepped
      rw [view_setCall]
      by_cases same : other = queue
      · subst same
        rw [phaseAt_self] at seen
        rw [view_register_self]
        exact .registerNew seen
      · rw [phaseAt_other same] at seen
        rw [view_register_other state same, phaseAt_none,
          setCall_none _ seen]
        exact .elsewhere _
  | enqueue job prevCount pushOnly =>
      obtain rfl : pushOnly = false := by
        cases pushOnly with
        | false => rfl
        | true => exact absurd rfl (registering job prevCount)
      simp only [advanceCall, and_true] at stepped
      split at stepped
      · cases stepped
      · obtain rfl := Option.some.inj stepped
        rw [view_setCall, apply_ite (phaseAt queue), phaseAt_none]
        by_cases same : other = queue
        · subst same
          rw [phaseAt_self] at seen
          rw [view_setQueue_self, phaseAt_self]
          exact .enqueue seen
        · rw [phaseAt_other same] at seen
          rw [view_setQueue_other state same, phaseAt_other same, ite_self,
            setCall_none _ seen]
          exact .elsewhere _

theorem advanceExecute_elsewhere {state next : JobSystem Thread Queue Job}
    {thread : Thread} {queue other : Queue} {phase : ExecutePhase Job}
    (different : other ≠ queue)
    (outside : (state.view queue).execute thread = none)
    (stepped : state.advanceExecute thread other phase = some next) :
    next.view queue = state.view queue := by
  have stays : ∀ phase : ExecutePhase Job,
      phaseAt queue (some (other, phase)) = none :=
    phaseAt_other different
  cases phase with
  | takeBatch =>
      simp only [advanceExecute] at stepped
      split at stepped
      · cases stepped
      · obtain rfl := Option.some.inj stepped
        rw [view_setExecute, view_setQueue_other state different, stays,
          setExecute_none _ outside]
  | loop executeList executedCount =>
      cases executeList with
      | nil =>
          obtain rfl := Option.some.inj stepped
          rw [view_setExecute, view_setQueue_other state different,
            apply_ite (phaseAt queue), stays, phaseAt_none, ite_self,
            setExecute_none _ outside]
      | cons job rest =>
          obtain rfl := Option.some.inj stepped
          rw [view_setExecute, view_setQueue_other state different, stays,
            setExecute_none _ outside]
  | job executeList executedCount =>
      obtain rfl := Option.some.inj stepped
      rw [view_setExecute, stays, setExecute_none _ outside]
  | register =>
      obtain rfl := Option.some.inj stepped
      rw [view_setExecute, view_register_other state different, phaseAt_none,
        setExecute_none _ outside]

theorem execute_view {state next : JobSystem Thread Queue Job}
    {thread : Thread} {other : Queue} {phase : ExecutePhase Job}
    (at_ : state.executes thread = some (other, phase))
    (stepped : state.advanceExecute thread other phase = some next)
    (queue : Queue) : (state.view queue).Step (next.view queue) := by
  have seen : (state.view queue).execute thread =
      phaseAt queue (some (other, phase)) := by
    simp [view, at_]
  by_cases same : other = queue
  · subst same
    rw [phaseAt_self] at seen
    cases phase with
    | takeBatch =>
        simp only [advanceExecute] at stepped
        split at stepped
        · cases stepped
        · obtain rfl := Option.some.inj stepped
          rw [view_setExecute, view_setQueue_self, phaseAt_self]
          exact .takeBatch seen
    | loop executeList executedCount =>
        cases executeList with
        | nil =>
            obtain rfl := Option.some.inj stepped
            rw [view_setExecute, view_setQueue_self, apply_ite (phaseAt other),
              phaseAt_self, phaseAt_none]
            exact .fetchSub seen
        | cons job rest =>
            obtain rfl := Option.some.inj stepped
            rw [view_setExecute, view_setQueue_self, phaseAt_self]
            exact .start seen
    | job executeList executedCount =>
        obtain rfl := Option.some.inj stepped
        rw [view_setExecute, phaseAt_self]
        exact .finish seen
    | register =>
        obtain rfl := Option.some.inj stepped
        rw [view_setExecute, view_register_self, phaseAt_none]
        exact .registerAgain seen
  · rw [phaseAt_other same] at seen
    rw [advanceExecute_elsewhere same seen stepped]
    exact .elsewhere _

omit [DecidableEq Queue] [DecidableEq Thread] in
theorem mayCall_calls {state : JobSystem Thread Queue Job} {thread : Thread}
    (may : state.mayCall thread = true) : state.calls thread = none := by
  simp only [mayCall, Bool.and_eq_true] at may
  exact Option.isNone_iff_eq_none.mp may.1

theorem push_view {state next : JobSystem Thread Queue Job} {thread : Thread}
    {other : Queue} {job : Job}
    (stepped : state.step (.push thread other job false) = some next)
    (queue : Queue) : (state.view queue).Step (next.view queue) := by
  simp only [step] at stepped
  split at stepped
  · rename_i may
    obtain ⟨may, notFull⟩ := may
    have notInside : (state.view queue).call thread = none := by
      simp [view, mayCall_calls may]
    obtain rfl := Option.some.inj stepped
    by_cases same : other = queue
    · subst same
      rw [view_setCall, view_setQueue_self, phaseAt_self]
      exact .push thread job notInside notFull
    · rw [view_setCall, view_setQueue_other state same, phaseAt_other same,
        setCall_none _ notInside]
      exact .elsewhere _
  · cases stepped

theorem pop_view {state next : JobSystem Thread Queue Job} {thread : Thread}
    (stepped : state.step (.pop thread) = some next) (queue : Queue) :
    (state.view queue).Step (next.view queue) := by
  simp only [step] at stepped
  split at stepped
  · rename_i idle
    have notInside : (state.view queue).execute thread = none := by
      simp [view, Option.isNone_iff_eq_none.mp idle.2]
    split at stepped
    · obtain rfl := Option.some.inj stepped
      exact .elsewhere _
    · rename_i other rest entries
      obtain rfl := Option.some.inj stepped
      rw [view_setExecute]
      by_cases same : other = queue
      · subst same
        rw [phaseAt_self]
        refine QueueView.Step.pop ?_ notInside
        simp [view, entries]
      · have unchanged : ({ state with globalQueue := rest } :
            JobSystem Thread Queue Job).view queue = state.view queue := by
          simp [view, entries, same]
        rw [phaseAt_other same, unchanged, setExecute_none _ notInside]
        exact .elsewhere _
  · cases stepped

/-- A step of the system is a step of one view; the others do not move. -/
theorem step_view {state next : JobSystem Thread Queue Job}
    {action : JobAction Thread Queue Job} (registers : Registers state)
    (pushes : PushesOnly state action)
    (stepped : state.step action = some next) (queue : Queue) :
    (state.view queue).Step (next.view queue) := by
  cases action with
  | clear thread other => exact pushes.elim
  | push thread other job pushOnly =>
      obtain rfl : pushOnly = false := pushes
      exact push_view stepped queue
  | pop thread => exact pop_view stepped queue
  | advance thread =>
      simp only [step] at stepped
      split at stepped
      · rename_i other phase at_
        obtain ⟨noClear, registering⟩ := registers thread other phase at_
        exact call_view at_ noClear registering stepped queue
      · split at stepped
        · rename_i other phase at_
          exact execute_view at_ stepped queue
        · cases stepped

/-- The thread that moves. -/
def mover : JobAction Thread Queue Job → Thread
  | .push thread _ _ _ => thread
  | .clear thread _ => thread
  | .pop thread => thread
  | .advance thread => thread

omit [DecidableEq Queue] in
theorem setCall_other {state shared : JobSystem Thread Queue Job}
    {thread other : Thread} {call : Option (Queue × CallPhase Job)}
    (different : other ≠ thread) (calls : shared.calls = state.calls)
    (executes : shared.executes = state.executes) :
    (shared.setCall thread call).calls other = state.calls other ∧
      (shared.setCall thread call).executes other = state.executes other := by
  rw [← calls, ← executes]
  exact ⟨Function.update_of_ne different .., rfl⟩

omit [DecidableEq Queue] in
theorem setExecute_other {state shared : JobSystem Thread Queue Job}
    {thread other : Thread} {execute : Option (Queue × ExecutePhase Job)}
    (different : other ≠ thread) (calls : shared.calls = state.calls)
    (executes : shared.executes = state.executes) :
    (shared.setExecute thread execute).calls other = state.calls other ∧
      (shared.setExecute thread execute).executes other =
        state.executes other := by
  rw [← calls, ← executes]
  exact ⟨rfl, Function.update_of_ne different ..⟩

/-- The program counters of the other threads do not move. -/
theorem step_other {state next : JobSystem Thread Queue Job}
    {action : JobAction Thread Queue Job} {other : Thread}
    (different : other ≠ mover action)
    (stepped : state.step action = some next) :
    next.calls other = state.calls other ∧
      next.executes other = state.executes other := by
  cases action with
  | push mover queue job pushOnly =>
      simp only [step] at stepped
      split at stepped <;> cases stepped
      exact setCall_other different rfl rfl
  | clear mover queue =>
      simp only [step] at stepped
      split at stepped <;> cases stepped
      exact setCall_other different rfl rfl
  | pop mover =>
      simp only [step] at stepped
      repeat' split at stepped
      all_goals cases stepped
      · exact ⟨rfl, rfl⟩
      · exact setExecute_other different rfl rfl
  | advance mover =>
      simp only [step] at stepped
      split at stepped
      · rename_i queue phase at_
        revert stepped
        fun_cases advanceCall state mover queue phase <;> intro stepped <;>
          cases stepped <;> exact setCall_other different rfl rfl
      · split at stepped
        · rename_i queue phase at_
          revert stepped
          fun_cases advanceExecute state mover queue phase <;>
            intro stepped <;> cases stepped <;>
            exact setExecute_other different rfl rfl
        · cases stepped

end JobSystem

end IocpChat
