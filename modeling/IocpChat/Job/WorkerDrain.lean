import IocpChat.Job.ActorGuarantee
import Mathlib.Algebra.BigOperators.Group.Finset.Piecewise
import Mathlib.Algebra.Order.BigOperators.Group.Finset

/-!
# Workers empty the queues

A worker pops queues from the `GlobalQueue` and executes each of them, up to 64
jobs at a time.  When nobody pushes any more, the workers cannot go on for ever,
however they interleave, and they cannot stop before every job that was pushed
has run.

What is left to do is counted queue by queue.  A job in the list costs more than
it takes to run it, since the last batch may be followed by another round.
-/

namespace IocpChat

open TransitionSystem

/-- What a worker still does in its round. -/
def ExecutePhase.effort {Job : Type} : Option (ExecutePhase Job) → Nat
  | none => 0
  | some .takeBatch => 0
  | some (.loop executeList _) => 2 * executeList.length + 3
  | some (.job executeList _) => 2 * executeList.length + 4
  | some .register => 2

namespace QueueView

variable {Thread Job : Type} [DecidableEq Thread]

/-- What is left to do for a queue whose token is here. -/
def effort (view : QueueView Thread Job) (token : JobToken Thread) : Nat :=
  6 * view.queue.jobs.length + token.entries +
    ExecutePhase.effort (token.phase view.execute)

/-- No thread is inside `Push`. -/
def Quiet (view : QueueView Thread Job) : Prop :=
  ∀ thread, view.call thread = none

theorem Inv.noProducers {view : QueueView Thread Job}
    {token : JobToken Thread} {producers : Finset Thread}
    (inv : Inv view token producers) (quiet : view.Quiet) :
    producers.card = 0 := by
  rw [Finset.card_eq_zero, Finset.eq_empty_iff_forall_notMem]
  intro thread member
  have enqueues := (inv.enqueues thread).mpr member
  rw [quiet thread] at enqueues
  exact enqueues

/-- A queue that was registered has a job to take. -/
theorem Inv.someJobs {view : QueueView Thread Job}
    {token : JobToken Thread} {producers : Finset Thread}
    (inv : Inv view token producers) (quiet : view.Quiet) {thread : Thread}
    (at_ : view.execute thread = some .takeBatch) :
    0 < view.queue.jobs.length := by
  obtain ⟨_, positive, count, _⟩ := inv.worker at_
  have nobody := inv.noProducers quiet
  simp only [taken] at count
  omega

/-- While a worker has the token the rest of its round is to do. -/
theorem Inv.effort_worker {view : QueueView Thread Job}
    {token : JobToken Thread} {producers : Finset Thread}
    (inv : Inv view token producers) {thread : Thread}
    {phase : ExecutePhase Job} (at_ : view.execute thread = some phase) :
    view.effort token =
      6 * view.queue.jobs.length + ExecutePhase.effort (some phase) := by
  obtain ⟨rfl, _⟩ := inv.worker at_
  simp [effort, JobToken.entries, JobToken.phase, at_]

/-- Every step of a worker leaves less to do. -/
theorem Step.effort_lt {view next : QueueView Thread Job}
    {token : JobToken Thread} {producers : Finset Thread}
    (inv : Inv view token producers) (quiet : view.Quiet)
    (nextQuiet : next.Quiet) (moved : next.execute ≠ view.execute)
    (stepped : view.Step next) :
    ∃ nextToken nextProducers, Inv next nextToken nextProducers ∧
      next.effort nextToken < view.effort token := by
  obtain ⟨nextToken, nextProducers, nextInv⟩ := step_inv inv stepped
  refine ⟨nextToken, nextProducers, nextInv, ?_⟩
  cases stepped with
  | elsewhere => exact absurd rfl moved
  | push thread job outside _ =>
      have inside := nextQuiet thread
      simp [setCall] at inside
  | enqueue at_ =>
      rw [quiet _] at at_
      cases at_
  | registerNew at_ =>
      rw [quiet _] at at_
      cases at_
  | @pop thread entries queued outside =>
      have after := nextInv.effort_worker (Function.update_self ..)
      have registered : token.entries = entries + 1 :=
        inv.entries.symm.trans queued
      rw [after]
      simp only [effort, setExecute, ExecutePhase.effort]
      omega
  | @takeBatch thread at_ =>
      have before := inv.effort_worker at_
      have after := nextInv.effort_worker (Function.update_self ..)
      have some_ := inv.someJobs quiet at_
      rw [before, after]
      simp only [setExecute, JobQueue.takeBatch, ExecutePhase.effort,
        List.length_take, List.length_drop, JobQueue.maxExecuteCount]
      omega
  | @start thread job rest executedCount at_ =>
      have before := inv.effort_worker at_
      have after := nextInv.effort_worker (Function.update_self ..)
      rw [before, after]
      simp only [setExecute, JobQueue.start, ExecutePhase.effort,
        List.length_cons]
      omega
  | @finish thread rest executedCount at_ =>
      have before := inv.effort_worker at_
      have after := nextInv.effort_worker (Function.update_self ..)
      rw [before, after]
      simp only [setExecute, ExecutePhase.effort]
      omega
  | @fetchSub thread executedCount at_ =>
      have before := inv.effort_worker at_
      rw [before]
      by_cases left : 0 < int32 (view.queue.jobCount - executedCount)
      · simp only [left, ↓reduceIte] at nextInv ⊢
        have after := nextInv.effort_worker (Function.update_self ..)
        rw [after]
        simp only [setExecute, JobQueue.fetchSub, ExecutePhase.effort,
          List.length_nil]
        omega
      · simp only [left, ↓reduceIte] at nextInv ⊢
        -- the counter is 0, so nobody holds the token
        have nonneg : 0 ≤ int32 (view.queue.jobCount - executedCount) :=
          nextInv.count_nonneg
        have zero : int32 (view.queue.jobCount - executedCount) = 0 := by omega
        obtain rfl : nextToken = .nobody := nextInv.free.mp zero
        simp only [effort, setExecute, JobQueue.fetchSub, ExecutePhase.effort,
          JobToken.entries, JobToken.phase, List.length_nil]
        omega
  | @registerAgain thread at_ =>
      have before := inv.effort_worker at_
      have registered : view.entries + 1 = nextToken.entries :=
        nextInv.entries
      rw [before]
      cases nextToken with
      | globalQueue =>
          simp only [effort, setExecute, JobToken.entries, JobToken.phase,
            ExecutePhase.effort]
          omega
      | _ => simp [JobToken.entries] at registered

/-- Only `Clear` takes the lock for longer than a step. -/
theorem Step.locked {view next : QueueView Thread Job}
    (stepped : view.Step next) :
    next.queue.locked = view.queue.locked := by
  cases stepped with
  | _ => rfl

/-- Only `Push` adds to what was pushed. -/
theorem Step.called {view next : QueueView Thread Job}
    (stepped : view.Step next) (nextQuiet : next.Quiet) :
    next.queue.called = view.queue.called := by
  cases stepped with
  | push thread job outside _ =>
      have inside := nextQuiet thread
      simp [setCall] at inside
  | _ => rfl

end QueueView

namespace JobSystem

variable {Thread Queue Job : Type} [DecidableEq Thread] [DecidableEq Queue]

/-- The steps of the workers: to execute what a `Pop` returned, and a `Pop` that
returns something. -/
def Works (state : JobSystem Thread Queue Job) :
    JobAction Thread Queue Job → Prop
  | .pop _ => state.globalQueue ≠ []
  | .advance _ => True
  | .push _ _ _ _ => False
  | .clear _ _ => False

theorem setCall_elsewhere {state shared : JobSystem Thread Queue Job}
    {thread : Thread} {queue other : Queue} {old new : Option (CallPhase Job)}
    (different : queue ≠ other)
    (before : state.calls thread = old.map fun phase => (queue, phase))
    (same : shared.view other = state.view other) :
    (shared.setCall thread (new.map fun phase => (queue, phase))).view other =
      state.view other := by
  have outside : (state.view other).call thread = none := by
    cases old with
    | none => simp [view, before]
    | some phase => simp [view, before, phaseAt_other different]
  have stays : phaseAt other (new.map fun phase => (queue, phase)) = none := by
    cases new with
    | none => rfl
    | some phase => exact phaseAt_other different phase
  rw [view_setCall, same, stays, setCall_none _ outside]

theorem advanceCall_elsewhere {state next : JobSystem Thread Queue Job}
    {thread : Thread} {queue other : Queue} {phase : CallPhase Job}
    (different : queue ≠ other)
    (at_ : state.calls thread = some (queue, phase))
    (stepped : state.advanceCall thread queue phase = some next) :
    next.view other = state.view other := by
  have before : state.calls thread =
      (some phase).map fun phase => (queue, phase) := at_
  cases phase with
  | clear =>
      obtain rfl := Option.some.inj stepped
      exact @setCall_elsewhere _ _ _ _ _ _ _ _ _ _ _ none different before
        (view_setQueue_other state different _)
  | register =>
      obtain rfl := Option.some.inj stepped
      exact @setCall_elsewhere _ _ _ _ _ _ _ _ _ _ _ none different before
        (view_register_other state different)
  | enqueue job prevCount pushOnly =>
      simp only [advanceCall] at stepped
      split at stepped
      · cases stepped
      · obtain rfl := Option.some.inj stepped
        have same := view_setQueue_other state different
          ((state.queues queue).enqueue thread job)
        split
        · exact @setCall_elsewhere _ _ _ _ _ _ _ _ _ _ _ (some .register)
            different before same
        · exact @setCall_elsewhere _ _ _ _ _ _ _ _ _ _ _ none different
            before same

/-- A step is about one queue at most. -/
theorem step_elsewhere {state next : JobSystem Thread Queue Job}
    {action : JobAction Thread Queue Job}
    (stepped : state.step action = some next) :
    ∃ queue : Option Queue, ∀ other, queue ≠ some other →
      next.view other = state.view other := by
  cases action with
  | push thread queue job pushOnly =>
      simp only [step] at stepped
      split at stepped
      · rename_i may
        obtain rfl := Option.some.inj stepped
        refine ⟨some queue, fun other different => ?_⟩
        have different : queue ≠ other := fun same =>
          different (congrArg some same)
        exact @setCall_elsewhere _ _ _ _ _ _ _ _ _ _ none (some _) different
          (mayCall_calls may.1) (view_setQueue_other state different _)
      · cases stepped
  | clear thread queue =>
      simp only [step] at stepped
      split at stepped
      · rename_i may
        obtain rfl := Option.some.inj stepped
        refine ⟨some queue, fun other different => ?_⟩
        have different : queue ≠ other := fun same =>
          different (congrArg some same)
        exact @setCall_elsewhere _ _ _ _ _ _ _ _ _ _ none (some _) different
          (mayCall_calls may.1) (view_setQueue_other state different _)
      · cases stepped
  | pop thread =>
      simp only [step] at stepped
      split at stepped
      · rename_i idle
        split at stepped
        · obtain rfl := Option.some.inj stepped
          exact ⟨none, fun _ _ => rfl⟩
        · rename_i queue rest entries
          obtain rfl := Option.some.inj stepped
          refine ⟨some queue, fun other different => ?_⟩
          have different : queue ≠ other := fun same =>
            different (congrArg some same)
          have outside : (state.view other).execute thread = none := by
            simp [view, Option.isNone_iff_eq_none.mp idle.2]
          have unchanged : ({ state with globalQueue := rest } :
              JobSystem Thread Queue Job).view other = state.view other := by
            simp [view, entries, different]
          rw [view_setExecute, phaseAt_other different, unchanged,
            setExecute_none _ outside]
      · cases stepped
  | advance thread =>
      simp only [step] at stepped
      split at stepped
      · rename_i queue phase at_
        refine ⟨some queue, fun other different => ?_⟩
        exact advanceCall_elsewhere
          (fun same => different (congrArg some same)) at_ stepped
      · split at stepped
        · rename_i queue phase at_
          refine ⟨some queue, fun other different => ?_⟩
          have different : queue ≠ other := fun same =>
            different (congrArg some same)
          have outside : (state.view other).execute thread = none := by
            simp [view, at_, phaseAt_other different]
          exact advanceExecute_elsewhere different outside stepped
        · cases stepped

/-- A step of a worker moves it inside the `Execute` of some queue. -/
theorem worker_moves {state next : JobSystem Thread Queue Job}
    {action : JobAction Thread Queue Job}
    (quiet : ∀ thread, state.calls thread = none)
    (works : state.Works action) (stepped : state.step action = some next) :
    next.calls = state.calls ∧
      ∃ queue, (next.view queue).execute ≠ (state.view queue).execute := by
  cases action with
  | push thread queue job pushOnly => exact works.elim
  | clear thread queue => exact works.elim
  | pop thread =>
      simp only [step] at stepped
      split at stepped
      · rename_i idle
        split at stepped
        · rename_i empty
          exact absurd empty works
        · rename_i queue rest entries
          obtain rfl := Option.some.inj stepped
          refine ⟨rfl, queue, fun same => ?_⟩
          have moved := congrFun same thread
          simp [view, setExecute, Option.isNone_iff_eq_none.mp idle.2]
            at moved
      · cases stepped
  | advance thread =>
      simp only [step, quiet thread] at stepped
      split at stepped
      · rename_i queue phase at_
        refine ⟨advanceExecute_calls stepped, queue, fun same => ?_⟩
        have moved := congrFun same thread
        simp only [view, at_, phaseAt_self] at moved
        revert stepped moved
        fun_cases advanceExecute state thread queue phase <;>
          intro stepped moved <;> cases stepped <;>
          simp [setExecute] at moved
        split at moved
        · rw [phaseAt_self] at moved
          cases moved
        · cases moved
      · cases stepped

/-- What is left to do for all the queues, while `called` was pushed and nobody
pushes any more. -/
def Effort (called : Queue → List (Thread × Job))
    (state : JobSystem Thread Queue Job) (left : Nat) : Prop :=
  (∀ thread, state.calls thread = none) ∧
    (∀ queue, (state.queues queue).locked = false) ∧
    (∀ queue, (state.queues queue).called = called queue) ∧
    ∃ (touched : Finset Queue) (effort : Queue → Nat),
      (∀ queue, ∃ token producers,
        QueueView.Inv (state.view queue) token producers ∧
          (state.view queue).effort token = effort queue) ∧
      (∀ queue, queue ∉ touched → effort queue = 0) ∧
      left = ∑ queue ∈ touched, effort queue

omit [DecidableEq Thread] in
theorem quiet_view {state : JobSystem Thread Queue Job}
    (quiet : ∀ thread, state.calls thread = none) (queue : Queue) :
    (state.view queue).Quiet := by
  intro thread
  simp [view, quiet thread]

theorem effort_decreases {called : Queue → List (Thread × Job)}
    {state next : JobSystem Thread Queue Job} {left : Nat}
    {action : JobAction Thread Queue Job} (before : Effort called state left)
    (works : state.Works action) (stepped : state.step action = some next) :
    ∃ less, less < left ∧ Effort called next less := by
  obtain ⟨quiet, unlocked, pushed, touched, effort, counted, nothing, rfl⟩ :=
    before
  obtain ⟨calls, queue, moved⟩ := worker_moves quiet works stepped
  have nextQuiet : ∀ thread, next.calls thread = none := by
    intro thread
    rw [calls, quiet thread]
  have viewStep : ∀ other, (state.view other).Step (next.view other) := by
    have registers : Registers state := by
      intro thread other phase at_
      rw [quiet thread] at at_
      cases at_
    apply step_view registers _ stepped
    cases action with
    | push thread queue job pushOnly => exact works.elim
    | clear thread queue => exact works.elim
    | _ => trivial
  have elsewhere : ∀ other, other ≠ queue →
      next.view other = state.view other := by
    obtain ⟨there, elsewhere⟩ := step_elsewhere stepped
    have same : there = some queue := by
      by_contra different
      apply moved
      rw [elsewhere queue different]
    intro other different
    apply elsewhere other
    rw [same]
    intro equal
    exact different (Option.some.inj equal).symm
  obtain ⟨token, producers, inv, spent⟩ := counted queue
  obtain ⟨nextToken, nextProducers, nextInv, less⟩ :=
    (viewStep queue).effort_lt inv (quiet_view quiet queue)
      (quiet_view nextQuiet queue) moved
  have inTouched : queue ∈ touched := by
    by_contra outside
    have zero := nothing queue outside
    omega
  refine ⟨∑ other ∈ touched,
    Function.update effort queue ((next.view queue).effort nextToken) other,
    ?_, nextQuiet, ?_, ?_, touched, _, ?_, ?_, rfl⟩
  · apply Finset.sum_lt_sum
    · intro other _
      by_cases same : other = queue
      · subst same
        rw [Function.update_self]
        omega
      · rw [Function.update_of_ne same]
    · refine ⟨queue, inTouched, ?_⟩
      rw [Function.update_self]
      omega
  · intro other
    have same : (next.queues other).locked = (state.queues other).locked :=
      (viewStep other).locked
    rw [same, unlocked other]
  · intro other
    have same : (next.queues other).called = (state.queues other).called :=
      (viewStep other).called (quiet_view nextQuiet other)
    rw [same, pushed other]
  · intro other
    by_cases same : other = queue
    · subst same
      refine ⟨nextToken, nextProducers, nextInv, ?_⟩
      rw [Function.update_self]
    · rw [elsewhere other same, Function.update_of_ne same]
      exact counted other
  · intro other outside
    have different : other ≠ queue := by
      intro same
      exact outside (same ▸ inTouched)
    rw [Function.update_of_ne different]
    exact nothing other outside

/-- So far only some of the queues have been used. -/
theorem reaches_touched {state : JobSystem Thread Queue Job}
    (reached : (machine Thread Queue Job).Reaches PushesOnly state) :
    ∃ touched : Finset Queue, ∀ queue, queue ∉ touched →
      state.view queue = (initial : JobSystem Thread Queue Job).view queue := by
  apply Machine.Reaches.invariant _ _ reached
  · intro state initially
    obtain rfl : state = initial := initially
    exact ⟨∅, fun _ _ => rfl⟩
  · intro state action next ⟨touched, untouched⟩ pushes stepped
    obtain ⟨queue, elsewhere⟩ := step_elsewhere stepped
    refine ⟨touched ∪ queue.toFinset, fun other outside => ?_⟩
    rw [Finset.mem_union, not_or] at outside
    rw [elsewhere other, untouched other outside.1]
    intro same
    exact outside.2 (Option.mem_toFinset.mpr same)

theorem reaches_unlocked {state : JobSystem Thread Queue Job}
    (reached : (machine Thread Queue Job).Reaches PushesOnly state)
    (queue : Queue) : (state.queues queue).locked = false := by
  have both : Registers state ∧
      ∀ queue, (state.queues queue).locked = false := by
    apply Machine.Reaches.invariant _ _ reached
    · intro state initially
      obtain rfl : state = initial := initially
      exact ⟨nofun, fun _ => rfl⟩
    · intro state action next ⟨registers, unlocked⟩ pushes stepped
      refine ⟨registers_step registers pushes stepped, fun queue => ?_⟩
      have same : (next.queues queue).locked = (state.queues queue).locked :=
        (step_view registers pushes stepped queue).locked
      rw [same, unlocked queue]
  exact both.2 queue

theorem reaches_effort {state : JobSystem Thread Queue Job}
    (reached : (machine Thread Queue Job).Reaches PushesOnly state)
    (quiet : ∀ thread, state.calls thread = none) :
    ∃ left, Effort (fun queue => (state.queues queue).called) state left := by
  obtain ⟨touched, untouched⟩ := reaches_touched reached
  have counted : ∀ queue, ∃ effort token producers,
      QueueView.Inv (state.view queue) token producers ∧
        (state.view queue).effort token = effort := by
    intro queue
    obtain ⟨token, producers, inv⟩ := (reaches_inv reached).2 queue
    exact ⟨_, token, producers, inv, rfl⟩
  choose effort counted using counted
  refine ⟨_, quiet, reaches_unlocked reached, fun _ => rfl, touched, effort,
    counted, ?_, rfl⟩
  intro queue outside
  obtain ⟨token, producers, inv, spent⟩ := counted queue
  rw [untouched queue outside] at inv spent
  obtain rfl : token = .nobody := inv.free.mp rfl
  exact spent.symm

/-- Every job that was pushed has run, in the order it came into its queue. -/
structure Drained (called : Queue → List (Thread × Job))
    (state : JobSystem Thread Queue Job) : Prop where
  globalQueue : state.globalQueue = []
  executes : ∀ thread, state.executes thread = none
  jobs : ∀ queue, (state.queues queue).jobs = []
  jobCount : ∀ queue, (state.queues queue).jobCount = 0
  executed : ∀ queue, (state.queues queue).executed =
    (state.queues queue).enqueued.map Prod.snd
  order : ∀ queue thread, (called queue).filter (·.1 = thread) =
    (state.queues queue).enqueued.filter (·.1 = thread)

/-- Workers that cannot go on have nothing to do. -/
theorem Effort.drained [Nonempty Thread]
    {called : Queue → List (Thread × Job)}
    {state : JobSystem Thread Queue Job} {left : Nat}
    (effort : Effort called state left)
    (stuck : ∀ action next, state.Works action →
      state.step action ≠ some next) :
    Drained called state := by
  obtain ⟨quiet, unlocked, pushed, touched, effort, counted, _⟩ := effort
  have executes : ∀ thread, state.executes thread = none := by
    intro thread
    cases at_ : state.executes thread with
    | none => rfl
    | some inside =>
        obtain ⟨queue, phase⟩ := inside
        have goesOn : (state.step (.advance thread)).isSome = true := by
          simp only [step, quiet thread, at_]
          cases phase with
          | takeBatch =>
              simp only [advanceExecute, unlocked queue]
              rfl
          | loop executeList executedCount =>
              cases executeList with
              | nil => rfl
              | cons job rest => rfl
          | job executeList executedCount => rfl
          | register => rfl
        obtain ⟨next, stepped⟩ := Option.isSome_iff_exists.mp goesOn
        exact absurd stepped (stuck (.advance thread) next trivial)
  have empty : state.globalQueue = [] := by
    by_contra some_
    obtain ⟨thread⟩ := ‹Nonempty Thread›
    have goesOn : (state.step (.pop thread)).isSome = true := by
      simp only [step, quiet thread, executes thread]
      cases entries : state.globalQueue with
      | nil => exact absurd entries some_
      | cons queue rest => rfl
    obtain ⟨next, stepped⟩ := Option.isSome_iff_exists.mp goesOn
    exact stuck (.pop thread) next some_ stepped
  have free : ∀ queue, ∃ producers,
      QueueView.Inv (state.view queue) .nobody producers := by
    intro queue
    obtain ⟨token, producers, inv, _⟩ := counted queue
    have entries := inv.entries
    cases token with
    | nobody => exact ⟨producers, inv⟩
    | globalQueue => simp [view, empty, JobToken.entries] at entries
    | producer thread =>
        have owes := (inv.owes thread).mpr rfl
        simp [view, quiet thread, Owes] at owes
    | worker thread =>
        have works := (inv.executes thread).mpr rfl
        simp only [view, executes thread, phaseAt_none] at works
        exact works.elim
  have idle : ∀ queue, (state.queues queue).jobCount = 0 ∧
      (state.queues queue).jobs = [] := by
    intro queue
    obtain ⟨producers, inv⟩ := free queue
    have zero := inv.free.mpr rfl
    have count := inv.count
    refine ⟨zero, List.eq_nil_of_length_eq_zero ?_⟩
    change (state.view queue).queue.jobs.length = 0
    omega
  refine
    { globalQueue := empty
      executes := executes
      jobs := fun queue => (idle queue).2
      jobCount := fun queue => (idle queue).1
      executed := ?_
      order := ?_ }
  · intro queue
    obtain ⟨producers, inv⟩ := free queue
    have order := inv.order
    change (state.queues queue).executed ++ [] ++ (state.queues queue).jobs =
      _ at order
    rw [(idle queue).2, List.append_nil, List.append_nil] at order
    exact order
  · intro queue thread
    obtain ⟨producers, inv⟩ := free queue
    have callers := inv.callers thread
    have outside : (state.view queue).call thread = none :=
      quiet_view quiet queue thread
    rw [InCallOrder, outside] at callers
    simp only [pendingCall, List.append_nil] at callers
    rw [← pushed queue]
    exact callers

/-- Two threads push to two queues, and one of them starts on the first. -/
def twoQueues : List (JobAction Bool Bool Nat) :=
  [.push true true 1 false,
    .push false false 2 false,
    .advance true,
    .advance true,
    .advance false,
    .push true true 3 false,
    .advance true,
    .advance false,
    .pop true,
    .advance true]

end JobSystem

end IocpChat
