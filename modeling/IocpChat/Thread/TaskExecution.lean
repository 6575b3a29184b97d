import Mathlib.Algebra.Order.BigOperators.Group.Finset
import Mathlib.Data.Fintype.Card
import IocpChat.Lib.Threads
import IocpChat.Thread.ThreadPool

/-!
# Every accepted task is executed once

A worker returns only when it finds `_stop` set and the queue empty, and nothing
enters the queue after `_stop`.  Before that a queue with tasks in it has a
worker that is going to look at it: one that is not waiting, or one that the
`notify_one` still to come will wake.
-/

namespace IocpChat

open TransitionSystem Threads

namespace WorkerPc

variable {Task : Type}

/-- The worker goes on by itself. -/
def active (pc : WorkerPc Task) : Bool :=
  !pc.waits && !pc.hasReturned

/-- It has taken this task, and has not called it. -/
def holds [DecidableEq Task] (task : Task) : WorkerPc Task → Bool
  | taken held => held = task
  | _ => false

/-- It is executing this task. -/
def executes [DecidableEq Task] (task : Task) : WorkerPc Task → Bool
  | running executed => executed = task
  | _ => false

/-- The steps to the next test of the predicate, and that test. -/
def weight : WorkerPc Task → Nat
  | checking => 1
  | waiting => 0
  | taken _ => 4
  | running _ => 3
  | ran => 2
  | returned => 0

theorem of_active {pc : WorkerPc Task} (active : pc.active = true) :
    pc.waits = false ∧ pc.hasReturned = false := by
  simpa [WorkerPc.active] using active

theorem active_of {pc : WorkerPc Task} (waits : pc.waits = false)
    (returned : pc.hasReturned = false) : pc.active = true := by
  simp [WorkerPc.active, waits, returned]

theorem hasReturned_notified {pc : WorkerPc Task} :
    pc.notified.hasReturned = pc.hasReturned := by
  cases pc <;> rfl

theorem waits_notified {pc : WorkerPc Task} : pc.notified.waits = false := by
  cases pc <;> rfl

theorem eq_waiting {pc : WorkerPc Task} (waits : pc.waits = true) :
    pc = .waiting := by
  cases pc with
  | waiting => rfl
  | _ => cases waits

end WorkerPc

namespace ThreadPool

variable {Task : Type} {threadCount : Nat}

/-- Nothing happens unless somebody calls the pool or wakes a worker. -/
def Settled (pool : ThreadPool Task threadCount) : Prop :=
  ∀ action : PoolAction Task threadCount, action.internal = true →
    pool.step action = none

/-- Every accepted task has been executed once, and no other. -/
structure AllExecuted (pool : ThreadPool Task threadCount) : Prop where
  empty : pool.tasks = []
  started : pool.started.Perm pool.accepted
  finished : pool.finished.Perm pool.accepted

/-- The steps that the pool can take by itself are bounded by this. -/
def work (pool : ThreadPool Task threadCount) : Nat :=
  4 * pool.tasks.length + 2 * pool.notifying +
    total WorkerPc.weight pool.workers +
    match pool.stopPc with
    | .notCalled => 0
    | .notifyAll => 2 * threadCount + 2
    | .joining index => threadCount - index + 1
    | .returned => 0

theorem weight_goto (pool : ThreadPool Task threadCount)
    (worker : Fin threadCount) (pc : WorkerPc Task) :
    total WorkerPc.weight (pool.goto worker pc).workers +
        (pool.workers worker).weight =
      total WorkerPc.weight pool.workers + pc.weight :=
  total_update

theorem check_work {pool : ThreadPool Task threadCount}
    {worker : Fin threadCount} (at_ : pool.workers worker = .checking) :
    (pool.check worker).work < pool.work := by
  have moved := weight_goto pool worker
  rw [at_] at moved
  unfold check
  split
  · rename_i empty
    have lighter := moved (if pool.stop then .returned else .waiting)
    have nothing : (if pool.stop then WorkerPc.returned
        else (.waiting : WorkerPc Task)).weight = 0 := by
      split <;> rfl
    rw [nothing] at lighter
    simp only [work, goto, WorkerPc.weight] at lighter ⊢
    omega
  · rename_i task rest some_
    have heavier := moved (.taken task)
    simp only [work, goto, some_, List.length_cons, WorkerPc.weight]
      at heavier ⊢
    omega

theorem total_notified (workers : Fin threadCount → WorkerPc Task) :
    total WorkerPc.weight (fun worker => (workers worker).notified) ≤
      total WorkerPc.weight workers + threadCount := by
  have each : ∀ pc : WorkerPc Task, pc.notified.weight ≤ pc.weight + 1 := by
    intro pc
    cases pc <;> simp [WorkerPc.notified, WorkerPc.weight]
  calc
    total WorkerPc.weight (fun worker => (workers worker).notified) ≤
        ∑ worker, ((workers worker).weight + 1) :=
      Finset.sum_le_sum fun worker _ => each (workers worker)
    _ = total WorkerPc.weight workers + threadCount := by
      simp [total, Finset.sum_add_distrib]

theorem advanceStop_work {pool next : ThreadPool Task threadCount}
    (stepped : pool.advanceStop = some next) : next.work < pool.work := by
  simp only [advanceStop] at stepped
  split at stepped
  · cases stepped
  · rename_i at_
    cases stepped
    have heavier := total_notified pool.workers
    simp only [work, at_]
    omega
  · rename_i index at_
    split at stepped
    · split at stepped <;> cases stepped
      simp only [work, at_]
      omega
    · cases stepped
      simp only [work, at_]
      omega
  · cases stepped

/-- A step that the pool takes by itself uses up some of its work. -/
theorem step_work {pool next : ThreadPool Task threadCount}
    {action : PoolAction Task threadCount} (internal : action.internal = true)
    (stepped : pool.step action = some next) : next.work < pool.work := by
  cases action with
  | enqueue task => cases internal
  | wake worker => cases internal
  | callStop => cases internal
  | notifyOne woken =>
      cases woken with
      | none =>
          simp only [step, notifyOne] at stepped
          split at stepped <;> cases stepped
          rename_i enabled
          have fewer : pool.notifying - 1 < pool.notifying :=
            Nat.pred_lt enabled.1
          simp only [work]
          omega
      | some worker =>
          simp only [step, notifyOne] at stepped
          split at stepped <;> cases stepped
          rename_i enabled
          have moved := weight_goto pool worker .checking
          simp only [work, goto, WorkerPc.weight] at moved ⊢
          omega
  | advance worker =>
      have moved := weight_goto pool worker
      simp only [step, advance] at stepped
      cases at_ : pool.workers worker with
      | checking =>
          rw [at_] at stepped moved
          cases stepped
          exact check_work at_
      | waiting =>
          rw [at_] at stepped
          cases stepped
      | taken task =>
          rw [at_] at stepped moved
          cases stepped
          have lighter := moved (.running task)
          simp only [work, goto, WorkerPc.weight] at lighter ⊢
          omega
      | running task =>
          rw [at_] at stepped moved
          cases stepped
          have lighter := moved .ran
          simp only [work, goto, WorkerPc.weight] at lighter ⊢
          omega
      | ran =>
          rw [at_] at stepped moved
          cases stepped
          have lighter := moved .checking
          simp only [work, goto, WorkerPc.weight] at lighter ⊢
          omega
      | returned =>
          rw [at_] at stepped
          cases stepped
  | advanceStop => exact advanceStop_work stepped

theorem count_goto (pool : ThreadPool Task threadCount)
    (worker : Fin threadCount) (pc : WorkerPc Task)
    (stands : WorkerPc Task → Bool) :
    count stands (pool.goto worker pc).workers +
        (stands (pool.workers worker)).toNat =
      count stands pool.workers + (stands pc).toNat :=
  count_update

section Accounts

variable [DecidableEq Task]

/-- Where each accepted task is. -/
structure Accounts (pool : ThreadPool Task threadCount) : Prop where
  fifo : pool.accepted = pool.taken ++ pool.tasks
  begun : ∀ task, pool.taken.count task =
    pool.started.count task + count (WorkerPc.holds task) pool.workers
  ended : ∀ task, pool.started.count task =
    pool.finished.count task + count (WorkerPc.executes task) pool.workers

/-- A worker moves from a place without a task to another. -/
theorem Accounts.beside {pool : ThreadPool Task threadCount}
    (accounts : Accounts pool) {worker : Fin threadCount} {pc : WorkerPc Task}
    (holds : ∀ task, pc.holds task = (pool.workers worker).holds task)
    (executes : ∀ task,
      pc.executes task = (pool.workers worker).executes task) :
    Accounts (pool.goto worker pc) where
  fifo := accounts.fifo
  begun := by
    intro task
    simp only [goto, count_update_same (holds task)]
    exact accounts.begun task
  ended := by
    intro task
    simp only [goto, count_update_same (executes task)]
    exact accounts.ended task

theorem Accounts.wake {pool : ThreadPool Task threadCount}
    (accounts : Accounts pool) {worker : Fin threadCount}
    (waits : (pool.workers worker).waits = true) :
    Accounts (pool.goto worker .checking) := by
  have at_ := WorkerPc.eq_waiting waits
  apply accounts.beside
  all_goals
    intro task
    rw [at_]
    rfl

theorem count_singleton_toNat (task other : Task) :
    [task].count other = (decide (task = other)).toNat := by
  by_cases same : task = other
  · simp [same]
  · simp [same]

theorem Accounts.check {pool : ThreadPool Task threadCount}
    (accounts : Accounts pool) {worker : Fin threadCount}
    (at_ : pool.workers worker = .checking) :
    Accounts (pool.check worker) := by
  unfold ThreadPool.check
  split
  · apply accounts.beside
    all_goals
      intro task
      rw [at_]
      split <;> rfl
  · rename_i task rest some_
    constructor
    · simp only [goto, accounts.fifo, some_, List.append_assoc,
        List.singleton_append]
    · intro other
      have moved := count_goto pool worker (.taken task) (WorkerPc.holds other)
      have before := accounts.begun other
      rw [at_] at moved
      simp only [goto, List.count_append, count_singleton_toNat,
        WorkerPc.holds, Bool.toNat_false] at moved ⊢
      omega
    · intro other
      have moved := count_goto pool worker (.taken task)
        (WorkerPc.executes other)
      have before := accounts.ended other
      rw [at_] at moved
      simp only [goto, WorkerPc.executes, Bool.toNat_false] at moved ⊢
      omega

/-- The worker calls its task. -/
theorem Accounts.start {pool : ThreadPool Task threadCount}
    (accounts : Accounts pool) {worker : Fin threadCount} {task : Task}
    (at_ : pool.workers worker = .taken task) (busyThreads : UInt32) :
    Accounts ({ pool with
      busyThreads := busyThreads
      started := pool.started ++ [task] }.goto worker (.running task)) where
  fifo := accounts.fifo
  begun := by
    intro other
    have moved := count_goto pool worker (.running task)
      (WorkerPc.holds other)
    have before := accounts.begun other
    rw [at_] at moved
    simp only [goto, List.count_append, count_singleton_toNat,
      WorkerPc.holds, Bool.toNat_false] at moved ⊢
    omega
  ended := by
    intro other
    have moved := count_goto pool worker (.running task)
      (WorkerPc.executes other)
    have before := accounts.ended other
    rw [at_] at moved
    simp only [goto, List.count_append, count_singleton_toNat,
      WorkerPc.executes, Bool.toNat_false] at moved ⊢
    omega

/-- The task returns. -/
theorem Accounts.finish {pool : ThreadPool Task threadCount}
    (accounts : Accounts pool) {worker : Fin threadCount} {task : Task}
    (at_ : pool.workers worker = .running task) :
    Accounts
      ({ pool with finished := pool.finished ++ [task] }.goto worker
        .ran) where
  fifo := accounts.fifo
  begun := by
    intro other
    have moved := count_goto pool worker .ran (WorkerPc.holds other)
    have before := accounts.begun other
    rw [at_] at moved
    simp only [goto, WorkerPc.holds, Bool.toNat_false] at moved ⊢
    omega
  ended := by
    intro other
    have moved := count_goto pool worker .ran (WorkerPc.executes other)
    have before := accounts.ended other
    rw [at_] at moved
    simp only [goto, List.count_append, count_singleton_toNat,
      WorkerPc.executes, Bool.toNat_false] at moved ⊢
    omega

theorem Accounts.advanceStop {pool next : ThreadPool Task threadCount}
    (accounts : Accounts pool) (stepped : pool.advanceStop = some next) :
    Accounts next := by
  simp only [ThreadPool.advanceStop] at stepped
  split at stepped
  · cases stepped
  · cases stepped
    have same (stands : WorkerPc Task → Bool)
        (kept : ∀ pc : WorkerPc Task, stands pc.notified = stands pc) :
        count stands (fun worker => (pool.workers worker).notified) =
          count stands pool.workers := by
      simp only [count, kept]
    constructor
    · exact accounts.fifo
    · intro task
      rw [same (WorkerPc.holds task) (fun pc => by cases pc <;> rfl)]
      exact accounts.begun task
    · intro task
      rw [same (WorkerPc.executes task) (fun pc => by cases pc <;> rfl)]
      exact accounts.ended task
  · split at stepped
    · split at stepped <;> cases stepped
      exact { accounts with }
    · cases stepped
      exact { accounts with }
  · cases stepped

theorem Accounts.step {pool next : ThreadPool Task threadCount}
    {action : PoolAction Task threadCount} (accounts : Accounts pool)
    (stepped : pool.step action = some next) : Accounts next := by
  cases action with
  | enqueue task =>
      cases stepped
      unfold enqueue
      split
      · exact accounts
      · exact
          { accounts with
            fifo := by
              rw [accounts.fifo, List.append_assoc] }
  | notifyOne woken =>
      cases woken with
      | none =>
          simp only [ThreadPool.step, notifyOne] at stepped
          split at stepped <;> cases stepped
          exact { accounts with }
      | some worker =>
          simp only [ThreadPool.step, notifyOne] at stepped
          split at stepped <;> cases stepped
          rename_i enabled
          have notified :
              Accounts { pool with notifying := pool.notifying - 1 } :=
            { accounts with }
          exact notified.wake enabled.2
  | wake worker =>
      simp only [ThreadPool.step] at stepped
      split at stepped <;> cases stepped
      rename_i waits
      exact accounts.wake waits
  | advance worker =>
      simp only [ThreadPool.step, advance] at stepped
      split at stepped
      · rename_i at_
        cases stepped
        exact accounts.check at_
      · cases stepped
      · rename_i task at_
        cases stepped
        exact accounts.start at_ _
      · rename_i task at_
        cases stepped
        exact accounts.finish at_
      · rename_i at_
        cases stepped
        have idle :
            Accounts { pool with busyThreads := pool.busyThreads - 1 } :=
          { accounts with }
        apply idle.beside
        all_goals
          intro task
          rw [at_]
          rfl
      · cases stepped
  | callStop =>
      cases stepped
      unfold callStop
      split
      · exact accounts
      · exact { accounts with }
  | advanceStop => exact accounts.advanceStop stepped

end Accounts

/-- Nobody leaves while there are tasks, and nobody sleeps over them. -/
structure Attended (pool : ThreadPool Task threadCount) : Prop where
  watched : pool.stop = false → pool.tasks ≠ [] →
    pool.notifying ≠ 0 ∨ ∃ worker, (pool.workers worker).active = true
  drained : ∀ worker, (pool.workers worker).hasReturned = true →
    pool.stop = true ∧ pool.tasks = []
  called : pool.stop = true ↔ pool.stopPc ≠ .notCalled
  notified : pool.stop = true → pool.stopPc ≠ .notifyAll →
    ∀ worker, (pool.workers worker).waits = false
  joined : ∀ index, pool.stopPc = .joining index →
    ∀ worker : Fin threadCount, worker < index →
      (pool.workers worker).hasReturned = true
  allJoined : pool.stopPc = .returned →
    ∀ worker, (pool.workers worker).hasReturned = true

theorem Attended.enqueue {pool : ThreadPool Task threadCount}
    (attended : Attended pool) (task : Task) :
    Attended (pool.enqueue task) := by
  unfold ThreadPool.enqueue
  split
  · exact attended
  · rename_i open_
    refine { attended with watched := ?_, drained := ?_ }
    · exact fun _ _ => Or.inl (Nat.succ_ne_zero _)
    · intro worker returned
      exact absurd (attended.drained worker returned).1 open_

/-- Who has returned stays so when another worker moves. -/
theorem hasReturned_goto {pool : ThreadPool Task threadCount}
    {worker returned : Fin threadCount} {pc : WorkerPc Task}
    (inside : (pool.workers worker).hasReturned = false)
    (holds : (pool.workers returned).hasReturned = true) :
    ((pool.goto worker pc).workers returned).hasReturned = true := by
  have different : returned ≠ worker := by
    rintro rfl
    rw [inside] at holds
    cases holds
  change (Function.update pool.workers worker pc returned).hasReturned = true
  rw [Function.update_of_ne different]
  exact holds

/-- A worker that has not returned goes to where it is active. -/
theorem Attended.activate {pool shared : ThreadPool Task threadCount}
    (attended : Attended pool) {worker : Fin threadCount} {pc : WorkerPc Task}
    (inside : (pool.workers worker).hasReturned = false)
    (active : pc.active = true)
    (same : shared.workers = pool.workers ∧ shared.stop = pool.stop ∧
      shared.stopPc = pool.stopPc)
    (fewer : pool.tasks = [] → shared.tasks = []) :
    Attended (shared.goto worker pc) := by
  obtain ⟨workers, stop, stopPc⟩ := same
  have awake := WorkerPc.of_active active
  constructor
  · intro _ _
    refine Or.inr ⟨worker, ?_⟩
    change (Function.update shared.workers worker pc worker).active = true
    rw [Function.update_self]
    exact active
  · change ∀ other,
      (Function.update shared.workers worker pc other).hasReturned = true →
        shared.stop = true ∧ shared.tasks = []
    rw [workers, stop]
    apply (Function.forall_update_iff pool.workers fun _ pc =>
      pc.hasReturned = true → pool.stop = true ∧ shared.tasks = []).mpr
    constructor
    · intro returned
      rw [awake.2] at returned
      cases returned
    · intro other _ returned
      obtain ⟨stopped, empty⟩ := attended.drained other returned
      exact ⟨stopped, fewer empty⟩
  · change shared.stop = true ↔ shared.stopPc ≠ .notCalled
    rw [stop, stopPc]
    exact attended.called
  · change shared.stop = true → shared.stopPc ≠ .notifyAll → ∀ other,
      (Function.update shared.workers worker pc other).waits = false
    rw [workers, stop, stopPc]
    intro stopped past
    apply (Function.forall_update_iff pool.workers fun _ pc =>
      pc.waits = false).mpr
    exact ⟨awake.1, fun other _ => attended.notified stopped past other⟩
  · intro index joining earlier before
    apply hasReturned_goto (workers ▸ inside)
    rw [workers]
    exact attended.joined index (stopPc ▸ joining) earlier before
  · intro joined earlier
    apply hasReturned_goto (workers ▸ inside)
    rw [workers]
    exact attended.allJoined (stopPc ▸ joined) earlier

/-- A worker that finds the queue empty waits, or returns after `_stop`. -/
theorem Attended.leave {pool : ThreadPool Task threadCount}
    (attended : Attended pool) {worker : Fin threadCount}
    (inside : (pool.workers worker).hasReturned = false)
    (empty : pool.tasks = []) :
    Attended
      (pool.goto worker (if pool.stop then .returned else .waiting)) where
  watched := fun _ some_ => absurd empty some_
  drained := by
    apply (Function.forall_update_iff pool.workers fun _ pc =>
      pc.hasReturned = true → pool.stop = true ∧ pool.tasks = []).mpr
    refine ⟨fun returned => ⟨?_, empty⟩, fun other _ =>
      attended.drained other⟩
    split at returned
    · assumption
    · cases returned
  called := attended.called
  notified := by
    intro stopped past
    apply (Function.forall_update_iff pool.workers fun _ pc =>
      pc.waits = false).mpr
    constructor
    · have ended : pool.stop = true := stopped
      rw [if_pos ended]
      rfl
    · exact fun other _ => attended.notified stopped past other
  joined := by
    intro index joining earlier before
    apply hasReturned_goto inside
    exact attended.joined index joining earlier before
  allJoined := by
    intro joined earlier
    apply hasReturned_goto inside
    exact attended.allJoined joined earlier

theorem Attended.advanceStop {pool next : ThreadPool Task threadCount}
    (attended : Attended pool) (stepped : pool.advanceStop = some next) :
    Attended next := by
  simp only [ThreadPool.advanceStop] at stepped
  split at stepped
  · cases stepped
  · rename_i at_
    cases stepped
    have stopped : pool.stop = true := attended.called.mpr (by simp [at_])
    constructor
    · intro running
      exact absurd stopped (Bool.not_eq_true _ ▸ running)
    · intro worker returned
      exact attended.drained worker (WorkerPc.hasReturned_notified ▸ returned)
    · exact iff_of_true stopped nofun
    · exact fun _ _ worker => WorkerPc.waits_notified
    · rintro _ ⟨⟩ worker before
      cases before
    · exact nofun
  · rename_i index at_
    split at stepped
    · split at stepped <;> cases stepped
      rename_i inRange returned
      constructor
      · exact attended.watched
      · exact attended.drained
      · exact iff_of_true (attended.called.mpr (by simp [at_])) nofun
      · exact fun stopped _ => attended.notified stopped (by simp [at_])
      · rintro _ ⟨⟩ worker before
        rcases Nat.lt_succ_iff_lt_or_eq.mp before with earlier | same
        · exact attended.joined index at_ worker earlier
        · have joins : worker = ⟨index, inRange⟩ := Fin.ext same
          rw [joins]
          exact returned
      · exact nofun
    · cases stepped
      rename_i past
      constructor
      · exact attended.watched
      · exact attended.drained
      · exact iff_of_true (attended.called.mpr (by simp [at_])) nofun
      · exact fun stopped _ => attended.notified stopped (by simp [at_])
      · exact nofun
      · intro _ worker
        apply attended.joined index at_ worker
        exact worker.isLt.trans_le (Nat.le_of_not_lt past)
  · cases stepped

theorem Attended.step {pool next : ThreadPool Task threadCount}
    {action : PoolAction Task threadCount} (started : 0 < threadCount)
    (attended : Attended pool) (stepped : pool.step action = some next) :
    Attended next := by
  cases action with
  | enqueue task =>
      cases stepped
      exact attended.enqueue task
  | notifyOne woken =>
      cases woken with
      | none =>
          simp only [ThreadPool.step, notifyOne] at stepped
          split at stepped <;> cases stepped
          rename_i enabled
          refine { attended with watched := ?_ }
          intro running _
          refine Or.inr ⟨⟨0, started⟩, ?_⟩
          apply WorkerPc.active_of (enabled.2 _)
          by_contra returned
          rw [Bool.not_eq_false] at returned
          have stopped := (attended.drained _ returned).1
          rw [running] at stopped
          cases stopped
      | some worker =>
          simp only [ThreadPool.step, notifyOne] at stepped
          split at stepped <;> cases stepped
          rename_i enabled
          refine attended.activate ?_ rfl ⟨rfl, rfl, rfl⟩ id
          rw [WorkerPc.eq_waiting enabled.2]
          rfl
  | wake worker =>
      simp only [ThreadPool.step] at stepped
      split at stepped <;> cases stepped
      rename_i waits
      refine attended.activate ?_ rfl ⟨rfl, rfl, rfl⟩ id
      rw [WorkerPc.eq_waiting waits]
      rfl
  | advance worker =>
      simp only [ThreadPool.step, advance] at stepped
      split at stepped
      all_goals
        rename_i at_
        cases stepped
      all_goals
        have inside : (pool.workers worker).hasReturned = false := by
          rw [at_]
          rfl
      · unfold check
        split
        · rename_i empty
          exact attended.leave inside empty
        · rename_i some_
          refine attended.activate inside rfl ⟨rfl, rfl, rfl⟩ ?_
          intro empty
          rw [some_] at empty
          cases empty
      · exact attended.activate inside rfl ⟨rfl, rfl, rfl⟩ id
      · exact attended.activate inside rfl ⟨rfl, rfl, rfl⟩ id
      · exact attended.activate inside rfl ⟨rfl, rfl, rfl⟩ id
  | callStop =>
      cases stepped
      unfold callStop
      split
      · exact attended
      · rename_i running
        constructor
        · exact nofun
        · intro worker returned
          exact absurd (attended.drained worker returned).1 running
        · exact iff_of_true rfl nofun
        · exact fun _ past => absurd rfl past
        · exact nofun
        · exact nofun
  | advanceStop => exact attended.advanceStop stepped

/-- Tasks are taken first in, first out, and each is executed once. -/
structure RunsTasks [DecidableEq Task] (pool : ThreadPool Task threadCount) :
    Prop extends Accounts pool where
  closed : pool.stop = true → ∀ action next, pool.step action = some next →
    next.stop = true ∧ next.accepted = pool.accepted
  returned : pool.stopPc = .returned → AllExecuted pool
  settled : Settled pool → AllExecuted pool ∧
    (pool.stop = true → pool.stopPc = .returned)
  bounded : ∀ actions final, (∀ action ∈ actions, action.internal = true) →
    (machine Task threadCount).run pool actions = some final →
      actions.length ≤ pool.work

/-- When all workers have returned, everything has been executed. -/
theorem allExecuted_of_idle [DecidableEq Task]
    {pool : ThreadPool Task threadCount} (accounts : Accounts pool)
    (idle : ∀ worker, (pool.workers worker).active = false)
    (empty : pool.tasks = []) : AllExecuted pool := by
  have nobody (stands : WorkerPc Task → Bool)
      (activeOnly : ∀ pc, pc.active = false → stands pc = false) :
      count stands pool.workers = 0 := by
    simp [count, fun worker => activeOnly _ (idle worker)]
  have all : pool.accepted = pool.taken := by
    rw [accounts.fifo, empty, List.append_nil]
  have begun : ∀ task,
      pool.started.count task = pool.accepted.count task := by
    intro task
    rw [all, accounts.begun task, nobody, Nat.add_zero]
    intro pc stands
    cases pc <;> first | rfl | cases stands
  have ended : ∀ task,
      pool.finished.count task = pool.started.count task := by
    intro task
    rw [accounts.ended task, nobody, Nat.add_zero]
    intro pc stands
    cases pc <;> first | rfl | cases stands
  constructor
  · exact empty
  · exact List.perm_iff_count.mpr begun
  · exact List.perm_iff_count.mpr fun task => (ended task).trans (begun task)

/-- When `Stop` has joined the workers, there is nothing left to do. -/
theorem allJoined_allExecuted [DecidableEq Task]
    {pool : ThreadPool Task threadCount} (started : 0 < threadCount)
    (accounts : Accounts pool) (attended : Attended pool)
    (returned : pool.stopPc = .returned) : AllExecuted pool := by
  have joined := attended.allJoined returned
  apply allExecuted_of_idle accounts
  · intro worker
    simp [WorkerPc.active, joined worker]
  · exact (attended.drained ⟨0, started⟩ (joined _)).2

/-- In a settled pool every worker waits or has returned. -/
theorem Settled.idle {pool : ThreadPool Task threadCount}
    (settled : Settled pool) (worker : Fin threadCount) :
    (pool.workers worker).active = false := by
  have stuck := settled (.advance worker) rfl
  simp only [step, advance] at stuck
  split at stuck
  all_goals
    rename_i at_
    first
    | rw [at_]
      rfl
    | cases stuck

/-- Nobody is about to call `notify_one` in a settled pool. -/
theorem Settled.notified {pool : ThreadPool Task threadCount}
    (settled : Settled pool) : pool.notifying = 0 := by
  by_contra notifying
  by_cases nobody : ∀ worker, (pool.workers worker).waits = false
  · have stuck := settled (.notifyOne none) rfl
    rw [step, notifyOne, if_pos ⟨notifying, nobody⟩] at stuck
    cases stuck
  · push Not at nobody
    obtain ⟨worker, waits⟩ := nobody
    have stuck := settled (.notifyOne (some worker)) rfl
    rw [step, notifyOne, if_pos ⟨notifying, Bool.not_eq_false _ ▸ waits⟩]
      at stuck
    cases stuck

/-- A `Stop` that has set `_stop` does not stay on its way. -/
theorem Settled.stopped {pool : ThreadPool Task threadCount}
    (settled : Settled pool) (attended : Attended pool)
    (stop : pool.stop = true) : pool.stopPc = .returned := by
  have stuck := settled .advanceStop rfl
  simp only [step, advanceStop] at stuck
  split at stuck
  · rename_i at_
    exact absurd at_ (attended.called.mp stop)
  · cases stuck
  · rename_i index at_
    split at stuck
    · rename_i inRange
      have awake := attended.notified stop (by simp [at_]) ⟨index, inRange⟩
      have idle := settled.idle ⟨index, inRange⟩
      rw [if_pos (by simpa [WorkerPc.active, awake] using idle)] at stuck
      cases stuck
    · cases stuck
  · assumption

/-- After `_stop` no task is accepted. -/
theorem step_closed {pool next : ThreadPool Task threadCount}
    {action : PoolAction Task threadCount} (stop : pool.stop = true)
    (stepped : pool.step action = some next) :
    next.stop = true ∧ next.accepted = pool.accepted := by
  cases action with
  | enqueue task =>
      simp only [step, enqueue, stop, if_true] at stepped
      cases stepped
      exact ⟨stop, rfl⟩
  | notifyOne woken =>
      cases woken with
      | none =>
          simp only [step, notifyOne] at stepped
          split at stepped <;> cases stepped
          exact ⟨stop, rfl⟩
      | some worker =>
          simp only [step, notifyOne] at stepped
          split at stepped <;> cases stepped
          exact ⟨stop, rfl⟩
  | wake worker =>
      simp only [step] at stepped
      split at stepped <;> cases stepped
      exact ⟨stop, rfl⟩
  | advance worker =>
      simp only [step, advance] at stepped
      split at stepped <;> cases stepped
      · unfold check
        split <;> exact ⟨stop, rfl⟩
      · exact ⟨stop, rfl⟩
      · exact ⟨stop, rfl⟩
      · exact ⟨stop, rfl⟩
  | callStop =>
      simp only [step, callStop, stop, if_true] at stepped
      cases stepped
      exact ⟨stop, rfl⟩
  | advanceStop =>
      simp only [step, advanceStop] at stepped
      repeat' split at stepped
      all_goals cases stepped
      all_goals exact ⟨stop, rfl⟩

theorem initial_accounts [DecidableEq Task] (tasks : List Task) :
    Accounts (initial tasks : ThreadPool Task threadCount) where
  fifo := rfl
  begun := by
    intro task
    simp [initial, count, WorkerPc.holds]
  ended := by
    intro task
    simp [initial, count, WorkerPc.executes]

theorem initial_attended (started : 0 < threadCount) (tasks : List Task) :
    Attended (initial tasks : ThreadPool Task threadCount) where
  watched := fun _ _ => Or.inr ⟨⟨0, started⟩, rfl⟩
  drained := nofun
  called := iff_of_false nofun fun past => past rfl
  notified := nofun
  joined := nofun
  allJoined := nofun

/-- What every reachable state of a pool with a worker keeps to. -/
theorem reachable_runsTasks [DecidableEq Task] (started : 0 < threadCount)
    {pool : ThreadPool Task threadCount}
    (reached : (machine Task threadCount).Reachable pool) :
    RunsTasks pool := by
  have invariant : Accounts pool ∧ Attended pool := by
    apply Machine.Reachable.invariant _ _ reached
    · rintro _ ⟨tasks, rfl⟩
      exact ⟨initial_accounts tasks, initial_attended started tasks⟩
    · intro state action next ⟨accounts, attended⟩ stepped
      exact ⟨accounts.step stepped, attended.step started stepped⟩
  obtain ⟨accounts, attended⟩ := invariant
  constructor
  · exact accounts
  · exact fun stop action next => step_closed stop
  · exact allJoined_allExecuted started accounts attended
  · intro settled
    refine ⟨?_, settled.stopped attended⟩
    by_cases stop : pool.stop = true
    · exact allJoined_allExecuted started accounts attended
        (settled.stopped attended stop)
    · apply allExecuted_of_idle accounts settled.idle
      by_contra some_
      rcases attended.watched (Bool.not_eq_true _ ▸ stop) some_ with
        notifying | ⟨worker, active⟩
      · exact notifying settled.notified
      · rw [settled.idle worker] at active
        cases active
  · intro actions final internal replayed
    apply Machine.run_length_le _ internal replayed
    exact step_work

/-- A worker waits when the first task comes, the other one is quicker; `Stop`
is called while both tasks are being executed. -/
def stopWhileBusy : List (PoolAction Nat 2) :=
  let first : Fin 2 := ⟨0, Nat.two_pos⟩
  let second : Fin 2 := ⟨1, Nat.one_lt_two⟩
  [.advance first, .enqueue 7, .advance second, .notifyOne (some first),
    .enqueue 8, .advance first, .advance first, .advance second, .callStop,
    .notifyOne none, .enqueue 9, .advanceStop] ++
    (List.replicate 3 [.advance second, .advance first]).flatten ++
    List.replicate 3 .advanceStop

theorem stopWhileBusy_runsTasks :
    ∃ pool, (machine Nat 2).run (initial []) stopWhileBusy = some pool ∧
      pool.stopPc = .returned ∧ pool.taken = [7, 8] ∧ RunsTasks pool := by
  obtain ⟨pool, replayed⟩ : ∃ pool,
      (machine Nat 2).run (initial []) stopWhileBusy = some pool :=
    Option.isSome_iff_exists.mp (by decide +kernel)
  have view : (pool.stopPc, pool.taken) = (.returned, [7, 8]) := by
    apply Machine.view_of_run replayed
    decide +kernel
  obtain ⟨returned, taken⟩ := by
    simpa only [Prod.mk.injEq] using view
  have starts : (machine Nat 2).Reachable (initial []) := .start ⟨[], rfl⟩
  exact ⟨pool, replayed, returned, taken,
    reachable_runsTasks (by decide) (starts.of_run replayed)⟩

end ThreadPool

end IocpChat
