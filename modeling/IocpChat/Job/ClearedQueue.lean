import Mathlib.Data.Fintype.Pi
import IocpChat.Job.ActorGuarantee

/-!
# Clear and the right to execute

`Clear` empties the list and stores 0 in the counter, whoever holds the right to
execute the queue.  The counter stays true to the token in the runs in which
`Clear` stores 0 while the counter covers nothing but the list, and a producer
reads 0 only while nobody holds the token.
-/

namespace IocpChat

open TransitionSystem

/-- A thread that has emptied the list and not yet stored 0. -/
def Clears {Job : Type} : Option (CallPhase Job) → Prop
  | some .clear => True
  | _ => False

instance Owes.decidable {Job : Type} :
    ∀ call : Option (CallPhase Job), Decidable (Owes call)
  | some (.enqueue _ prevCount _) =>
      inferInstanceAs (Decidable (prevCount = 0))
  | some .register => .isTrue trivial
  | some .clear => .isFalse id
  | none => .isFalse id

instance Enqueues.decidable {Job : Type} :
    ∀ call : Option (CallPhase Job), Decidable (Enqueues call)
  | some (.enqueue _ _ _) => .isTrue trivial
  | some .register => .isFalse id
  | some .clear => .isFalse id
  | none => .isFalse id

instance Works.decidable {Job : Type} :
    ∀ execute : Option (ExecutePhase Job), Decidable (Works execute)
  | some _ => .isTrue trivial
  | none => .isFalse id

namespace QueueView

variable {Thread Job : Type}

/-- Nobody has the right to execute the queue. -/
def Unclaimed (view : QueueView Thread Job) : Prop :=
  view.entries = 0 ∧ ∀ thread,
    ¬Owes (view.call thread) ∧ ¬Works (view.execute thread)

/-- The counter covers nothing but the list. -/
def Settled (view : QueueView Thread Job) : Prop :=
  ∀ thread, ¬Enqueues (view.call thread) ∧ taken (view.execute thread) = 0

instance [Fintype Thread] (view : QueueView Thread Job) :
    Decidable view.Unclaimed :=
  inferInstanceAs (Decidable (view.entries = 0 ∧ ∀ thread,
    ¬Owes (view.call thread) ∧ ¬Works (view.execute thread)))

instance [Fintype Thread] (view : QueueView Thread Job) :
    Decidable view.Settled :=
  inferInstanceAs (Decidable (∀ thread,
    ¬Enqueues (view.call thread) ∧ taken (view.execute thread) = 0))

/-- The counter covers the list, the batch that was taken out and the jobs that
are about to be enqueued.  While a thread is inside `Clear`, the list is empty
and the counter may be too high. -/
structure ClearingInv (view : QueueView Thread Job) (token : JobToken Thread)
    (producers : Finset Thread) (clearing : Option Thread) : Prop
    extends Placed view token producers where
  clears : ∀ thread, Clears (view.call thread) ↔ clearing = some thread
  locked : view.queue.locked = clearing.isSome
  covers : (view.queue.jobs.length : Int) +
    taken (token.phase view.execute) + producers.card ≤ view.queue.jobCount
  counted : view.queue.locked = false → view.queue.jobCount ≤
    view.queue.jobs.length + taken (token.phase view.execute) + producers.card
  inRange : view.queue.jobCount ≤ JobQueue.maxPendingJobs
  cleared : view.queue.locked = true → view.queue.jobs = []
  unheld : token = .nobody → view.queue.jobCount = 0

theorem ClearingInv.count_nonneg {view : QueueView Thread Job}
    {token : JobToken Thread} {producers : Finset Thread}
    {clearing : Option Thread}
    (inv : ClearingInv view token producers clearing) :
    0 ≤ view.queue.jobCount := by
  have covers := inv.covers
  omega

/-- Some party holds the token, and the counter is true to it. -/
def Cleared (view : QueueView Thread Job) : Prop :=
  ∃ token producers clearing, ClearingInv view token producers clearing

/-- A token that no thread and no entry accounts for. -/
theorem Unclaimed.nobody {view : QueueView Thread Job}
    {token : JobToken Thread} {producers : Finset Thread}
    (unclaimed : view.Unclaimed) (placed : Placed view token producers) :
    token = .nobody := by
  obtain ⟨noEntry, nobody⟩ := unclaimed
  cases token with
  | nobody => rfl
  | globalQueue =>
      have entry := placed.entries
      rw [noEntry] at entry
      cases entry
  | producer thread =>
      exact absurd ((placed.owes thread).mpr rfl) (nobody thread).1
  | worker thread =>
      exact absurd ((placed.executes thread).mpr rfl) (nobody thread).2

variable [DecidableEq Thread]

namespace ClearingInv

variable {view : QueueView Thread Job} {token : JobToken Thread}
  {producers : Finset Thread} {clearing : Option Thread}

theorem push_inv (inv : ClearingInv view token producers clearing)
    {thread : Thread} {job : Job} (outside : view.call thread = none)
    (notFull : view.queue.jobCount < JobQueue.maxPendingJobs)
    (first : view.queue.jobCount = 0 → view.Unclaimed) :
    ClearingInv ({ view with queue := view.queue.fetchAdd thread job }.setCall
        thread (some (.enqueue job view.queue.jobCount false)))
      (token.raise thread view.queue.jobCount) (insert thread producers)
      clearing := by
  have free : view.queue.jobCount = 0 ↔ token = .nobody :=
    ⟨fun zero => (first zero).nobody inv.toPlaced, inv.unheld⟩
  have raisedCount : (view.queue.fetchAdd thread job).jobCount =
      view.queue.jobCount + 1 :=
    JobQueue.fetchAdd_jobCount inv.count_nonneg notFull
  obtain ⟨_, fresh⟩ := inv.notProducer outside
  have raised := raise_cases free thread
  have samePhase : (token.raise thread view.queue.jobCount).phase view.execute =
      token.phase view.execute := by
    rcases raised with ⟨same, _⟩ | ⟨taken, _, rfl⟩
    · rw [same]
    · rw [taken]
      rfl
  have card : ((insert thread producers).card : Int) = producers.card + 1 := by
    rw [Finset.card_insert_of_notMem fresh]
    rfl
  exact
    { (inv.push outside free job).setQueue (view.queue.fetchAdd thread job) with
      clears := by
        apply Threads.forall_iff_update_outside inv.clears
        rw [outside]
        exact Iff.rfl
      locked := inv.locked
      covers := by
        have covers := inv.covers
        change (view.queue.jobs.length : Int) +
          taken (JobToken.phase view.execute _) + _ ≤
            (view.queue.fetchAdd thread job).jobCount
        rw [raisedCount, samePhase, card]
        omega
      counted := by
        intro unlocked
        have counted := inv.counted unlocked
        change (view.queue.fetchAdd thread job).jobCount ≤
          (view.queue.jobs.length : Int) +
            taken (JobToken.phase view.execute _) + _
        rw [raisedCount, samePhase, card]
        omega
      inRange := raisedCount.trans_le (Int.add_one_le_of_lt notFull)
      cleared := inv.cleared
      unheld := by
        intro unheld
        rcases raised with ⟨same, _, held⟩ | ⟨taken, _, _⟩
        · exact absurd (same.symm.trans unheld) held
        · rw [taken] at unheld
          cases unheld }

theorem enqueue_inv (inv : ClearingInv view token producers clearing)
    {thread : Thread} {job : Job} {prevCount : Int}
    (at_ : view.call thread = some (.enqueue job prevCount false))
    (unlocked : view.queue.locked = false) :
    ClearingInv ({ view with queue := view.queue.enqueue thread job }.setCall
        thread (if prevCount = 0 then some .register else none)) token
      (producers.erase thread) clearing := by
  have smaller := Finset.card_erase_add_one (inv.mem_producers at_)
  have length : ((view.queue.jobs ++ [job]).length : Int) =
      view.queue.jobs.length + 1 := by
    rw [List.length_append]
    rfl
  exact
    { (inv.enqueue at_).setQueue (view.queue.enqueue thread job) with
      clears := by
        apply Threads.forall_iff_update_outside inv.clears
        rw [at_]
        split <;> exact Iff.rfl
      locked := inv.locked
      covers := by
        have covers := inv.covers
        change ((view.queue.jobs ++ [job]).length : Int) +
          taken (token.phase view.execute) + _ ≤ view.queue.jobCount
        omega
      counted := by
        intro _
        have counted := inv.counted unlocked
        change view.queue.jobCount ≤ ((view.queue.jobs ++ [job]).length : Int) +
          taken (token.phase view.execute) + _
        omega
      inRange := inv.inRange
      cleared := by
        intro locked
        exact absurd (unlocked.symm.trans locked) Bool.false_ne_true
      unheld := inv.unheld }

theorem registerNew_inv (inv : ClearingInv view token producers clearing)
    {thread : Thread} (at_ : view.call thread = some .register) :
    ClearingInv ({ view with entries := view.entries + 1 }.setCall thread none)
      .globalQueue producers clearing := by
  obtain ⟨rfl, placed⟩ := inv.registerNew at_
  exact
    { placed with
      clears := by
        apply Threads.forall_iff_update_outside inv.clears
        rw [at_]
        exact Iff.rfl
      locked := inv.locked
      covers := inv.covers
      counted := inv.counted
      inRange := inv.inRange
      cleared := inv.cleared
      unheld := nofun }

theorem pop_inv (inv : ClearingInv view token producers clearing)
    {thread : Thread} {entries : Nat} (queued : view.entries = entries + 1) :
    ClearingInv ({ view with entries := entries }.setExecute thread
      (some .takeBatch)) (.worker thread) producers clearing := by
  obtain ⟨rfl, placed⟩ :=
    @Placed.pop _ _ _ _ _ _ inv.toPlaced thread _ queued
  exact
    { placed with
      clears := inv.clears
      locked := inv.locked
      covers := by
        have covers := inv.covers
        simpa [JobToken.phase, setExecute, taken] using covers
      counted := by
        have counted := inv.counted
        simpa [JobToken.phase, setExecute, taken] using counted
      inRange := inv.inRange
      cleared := inv.cleared
      unheld := nofun }

omit [DecidableEq Thread] in
/-- What the invariant says about a worker. -/
theorem worker (inv : ClearingInv view token producers clearing)
    {thread : Thread} {phase : ExecutePhase Job}
    (at_ : view.execute thread = some phase) :
    token = .worker thread ∧
      (view.queue.jobs.length : Int) + taken (some phase) + producers.card ≤
        view.queue.jobCount ∧
      (view.queue.locked = false → view.queue.jobCount ≤
        view.queue.jobs.length + taken (some phase) + producers.card) := by
  obtain rfl := inv.holds_worker at_
  have held : (JobToken.worker thread).phase view.execute = some phase := at_
  have covers := inv.covers
  have counted := inv.counted
  rw [held] at covers counted
  exact ⟨rfl, covers, counted⟩

/-- The worker goes on and keeps the token. -/
theorem work_inv (inv : ClearingInv view token producers clearing)
    {thread : Thread} {old new : ExecutePhase Job}
    {queue : JobQueue Thread Job} (at_ : view.execute thread = some old)
    (locked : queue.locked = view.queue.locked)
    (lower : queue.jobCount ≤ view.queue.jobCount)
    (covers : (queue.jobs.length : Int) + taken (some new) + producers.card ≤
      queue.jobCount)
    (counted : queue.locked = false → queue.jobCount ≤
      queue.jobs.length + taken (some new) + producers.card)
    (cleared : queue.locked = true → queue.jobs = []) :
    ClearingInv ({ view with queue := queue }.setExecute thread (some new))
      token producers clearing := by
  obtain ⟨rfl, _⟩ := inv.worker at_
  have after : (JobToken.worker thread).phase
      (Function.update view.execute thread (some new)) = some new :=
    Function.update_self ..
  exact
    { (inv.work at_ new).setQueue queue with
      clears := inv.clears
      locked := locked.trans inv.locked
      covers := by
        change (queue.jobs.length : Int) +
          taken (JobToken.phase (Function.update view.execute _ _) _) + _ ≤ _
        rw [after]
        exact covers
      counted := by
        change _ → queue.jobCount ≤ (queue.jobs.length : Int) +
          taken (JobToken.phase (Function.update view.execute _ _) _) + _
        rw [after]
        exact counted
      inRange := lower.trans inv.inRange
      cleared := cleared
      unheld := nofun }

omit [DecidableEq Thread] in
/-- A worker subtracts no more than is counted. -/
theorem fetchSub_jobCount (inv : ClearingInv view token producers clearing)
    {thread : Thread} {executedCount : Nat}
    (at_ : view.execute thread = some (.loop [] executedCount)) :
    int32 (view.queue.jobCount - executedCount) =
      view.queue.jobCount - executedCount := by
  obtain ⟨_, covers, _⟩ := inv.worker at_
  change (view.queue.jobs.length : Int) + executedCount + producers.card ≤ _
    at covers
  exact JobQueue.int32_remain (by omega) inv.inRange

/-- The worker subtracts its batch; the counter stays above the list. -/
theorem fetchSub_inv (inv : ClearingInv view token producers clearing)
    {thread : Thread} {executedCount : Nat}
    (at_ : view.execute thread = some (.loop [] executedCount)) :
    ClearingInv ({ view with
        queue := view.queue.fetchSub executedCount }.setExecute thread
        (if 0 < int32 (view.queue.jobCount - executedCount) then some .register
          else none))
      (.lower thread (int32 (view.queue.jobCount - executedCount))) producers
      clearing := by
  have remain := inv.fetchSub_jobCount at_
  obtain ⟨rfl, covers, counted⟩ := inv.worker at_
  change (view.queue.jobs.length : Int) + executedCount + producers.card ≤ _
    at covers
  change _ → _ ≤ (view.queue.jobs.length : Int) + executedCount +
    producers.card at counted
  have lower : (view.queue.fetchSub executedCount).jobCount ≤
      view.queue.jobCount := JobQueue.fetchSub_le remain
  have stillCovers : (view.queue.jobs.length : Int) + (0 : Nat) +
      producers.card ≤ (view.queue.fetchSub executedCount).jobCount := by
    change _ ≤ int32 (view.queue.jobCount - executedCount)
    omega
  have stillCounted : view.queue.locked = false →
      (view.queue.fetchSub executedCount).jobCount ≤
        (view.queue.jobs.length : Int) + (0 : Nat) + producers.card := by
    intro unlocked
    have counted := counted unlocked
    change int32 (view.queue.jobCount - executedCount) ≤ _
    omega
  by_cases left : 0 < int32 (view.queue.jobCount - executedCount)
  · rw [JobToken.lower, if_pos left, if_pos left]
    exact inv.work_inv at_ rfl lower stillCovers stillCounted inv.cleared
  · rw [JobToken.lower, if_neg left, if_neg left]
    have placed := (inv.leave (Or.inl rfl)).setQueue
      (view.queue.fetchSub executedCount)
    exact
      { placed with
        entries := inv.entries
        clears := inv.clears
        locked := inv.locked
        covers := stillCovers
        counted := stillCounted
        inRange := lower.trans inv.inRange
        cleared := inv.cleared
        unheld := by
          intro _
          change int32 (view.queue.jobCount - executedCount) = 0
          omega }

theorem registerAgain_inv (inv : ClearingInv view token producers clearing)
    {thread : Thread} (at_ : view.execute thread = some .register) :
    ClearingInv ({ view with entries := view.entries + 1 }.setExecute thread
      none) .globalQueue producers clearing := by
  obtain ⟨rfl, covers, counted⟩ := inv.worker at_
  exact
    { inv.leave (Or.inr rfl) with
      entries := by
        change view.entries + 1 = 1
        rw [inv.entries]
        rfl
      clears := inv.clears
      locked := inv.locked
      covers := covers
      counted := counted
      inRange := inv.inRange
      cleared := inv.cleared
      unheld := nofun }

/-- `Clear` takes the lock and empties the list. -/
theorem clear_inv (inv : ClearingInv view token producers clearing)
    {thread : Thread} (outside : view.call thread = none)
    (unlocked : view.queue.locked = false) :
    ClearingInv ({ view with queue := view.queue.clearJobs }.setCall thread
      (some .clear)) token producers (some thread) := by
  have nobody : clearing = none := by
    have locked := inv.locked
    rw [unlocked] at locked
    exact Option.isNone_iff_eq_none.mp
      (Option.isSome_eq_false_iff.mp locked.symm)
  subst nobody
  have placed : Placed (view.setCall thread (some .clear)) token producers := by
    apply inv.setCall
    · rw [outside]
      exact Iff.rfl
    · rw [outside]
      exact Iff.rfl
  exact
    { placed.setQueue view.queue.clearJobs with
      clears := by
        apply Threads.forall_iff_update inv.clears
        · exact ⟨fun _ => rfl, fun _ => trivial⟩
        · intro other different
          rw [Option.some.injEq]
          exact ⟨fun same => absurd same.symm different, nofun⟩
      locked := rfl
      covers := by
        have covers := inv.covers
        change ((0 : Nat) : Int) + taken (token.phase view.execute) + _ ≤
          view.queue.jobCount
        omega
      counted := nofun
      inRange := inv.inRange
      cleared := fun _ => rfl
      unheld := inv.unheld }

/-- The counter is reset while it covers only the empty list. -/
theorem reset_inv (inv : ClearingInv view token producers clearing)
    {thread : Thread} (at_ : view.call thread = some .clear)
    (settled : view.Settled) :
    ClearingInv ({ view with queue := view.queue.resetCount }.setCall thread
      none) token producers none := by
  have own : clearing = some thread := by
    apply (inv.clears thread).mp
    rw [at_]
    trivial
  subst own
  have empty : view.queue.jobs = [] := inv.cleared inv.locked
  have noProducers : producers = ∅ := by
    apply Finset.eq_empty_of_forall_notMem
    intro other member
    exact (settled other).1 ((inv.enqueues other).mpr member)
  have nothingTaken : taken (token.phase view.execute) = 0 := by
    cases token with
    | worker other => exact (settled other).2
    | _ => rfl
  have placed : Placed (view.setCall thread none) token producers := by
    apply inv.setCall
    · rw [at_]
      exact Iff.rfl
    · rw [at_]
      exact Iff.rfl
  have counts : (view.queue.jobs.length : Int) +
      taken (token.phase view.execute) + producers.card = 0 := by
    rw [empty, nothingTaken, noProducers]
    rfl
  exact
    { placed.setQueue view.queue.resetCount with
      clears := by
        apply Threads.forall_iff_update inv.clears
        · exact ⟨False.elim, nofun⟩
        · intro other different
          rw [Option.some.injEq]
          exact ⟨nofun, fun same => absurd same.symm different⟩
      locked := rfl
      covers := Int.le_of_eq counts
      counted := fun _ => Int.le_of_eq counts.symm
      inRange := JobQueue.zero_le_maxPendingJobs
      cleared := nofun
      unheld := fun _ => rfl }

/-- A step that is not `Clear`, by a producer that takes only a free token and
under a lock that is respected. -/
theorem step_inv {next : QueueView Thread Job}
    (inv : ClearingInv view token producers clearing)
    (stepped : view.Step next)
    (first : view.queue.jobCount = 0 →
      view.queue.jobCount < next.queue.jobCount → view.Unclaimed)
    (guarded : view.queue.locked = true →
      next.queue.jobs = view.queue.jobs) :
    next.Cleared := by
  cases stepped with
  | elsewhere => exact ⟨_, _, _, inv⟩
  | push thread job outside notFull =>
      refine ⟨_, _, _, inv.push_inv outside notFull fun zero => first zero ?_⟩
      change _ < (view.queue.fetchAdd thread job).jobCount
      rw [JobQueue.fetchAdd_jobCount inv.count_nonneg notFull]
      exact Int.lt_succ _
  | enqueue at_ =>
      refine ⟨_, _, _, inv.enqueue_inv at_ ?_⟩
      rw [← Bool.not_eq_true]
      intro locked
      have same := congrArg List.length (guarded locked)
      change (view.queue.jobs ++ [_]).length = _ at same
      rw [List.length_append, List.length_singleton] at same
      omega
  | registerNew at_ => exact ⟨_, _, _, inv.registerNew_inv at_⟩
  | pop queued _ => exact ⟨_, _, _, inv.pop_inv queued⟩
  | takeBatch at_ =>
      obtain ⟨_, covers, counted⟩ := inv.worker at_
      have parts :
          ((view.queue.jobs.drop JobQueue.maxExecuteCount).length : Int) +
            (view.queue.jobs.take JobQueue.maxExecuteCount).length =
          view.queue.jobs.length + (0 : Nat) := by
        rw [List.length_take, List.length_drop]
        omega
      refine ⟨_, _, _, inv.work_inv at_ rfl (Int.le_refl _) ?_ ?_ ?_⟩
      · exact (congrArg (· + (producers.card : Int)) parts).trans_le covers
      · intro unlocked
        exact (counted unlocked).trans_eq
          (congrArg (· + (producers.card : Int)) parts.symm)
      · intro locked
        change view.queue.jobs.drop _ = []
        rw [inv.cleared locked]
        rfl
  | start at_ =>
      obtain ⟨_, covers, counted⟩ := inv.worker at_
      exact ⟨_, _, _,
        inv.work_inv at_ rfl (Int.le_refl _) covers counted inv.cleared⟩
  | finish at_ =>
      obtain ⟨_, covers, counted⟩ := inv.worker at_
      exact ⟨_, _, _,
        inv.work_inv at_ rfl (Int.le_refl _) covers counted inv.cleared⟩
  | fetchSub at_ => exact ⟨_, _, _, inv.fetchSub_inv at_⟩
  | registerAgain at_ => exact ⟨_, _, _, inv.registerAgain_inv at_⟩

end ClearingInv

end QueueView

namespace JobSystem

variable {Thread Queue Job : Type} [DecidableEq Thread] [DecidableEq Queue]

/-- Every `Push` may register the queue. -/
def RegistersPushes : JobAction Thread Queue Job → Prop
  | .push _ _ _ pushOnly => pushOnly = false
  | _ => True

/-- `Clear` stores 0 over a counter that covers nothing but the list. -/
def ResetsAtRest (state : JobSystem Thread Queue Job) :
    Option (Queue × CallPhase Job) → Prop
  | some (queue, .clear) => (state.view queue).Settled
  | _ => True

/-- A producer reads 0 only while nobody can execute the queue, and `Clear`
resets the counter at rest. -/
def ClearsAtRest (state : JobSystem Thread Queue Job) :
    JobAction Thread Queue Job → Prop
  | .push _ queue _ _ =>
      (state.queues queue).jobCount = 0 → (state.view queue).Unclaimed
  | .advance thread => state.ResetsAtRest (state.calls thread)
  | _ => True

instance RegistersPushes.decidable :
    ∀ action : JobAction Thread Queue Job, Decidable (RegistersPushes action)
  | .push _ _ _ pushOnly => inferInstanceAs (Decidable (pushOnly = false))
  | .clear _ _ => .isTrue trivial
  | .pop _ => .isTrue trivial
  | .advance _ => .isTrue trivial

instance ResetsAtRest.decidable [Fintype Thread]
    (state : JobSystem Thread Queue Job) :
    ∀ call, Decidable (state.ResetsAtRest call)
  | some (queue, .clear) =>
      inferInstanceAs (Decidable (state.view queue).Settled)
  | some (_, .register) => .isTrue trivial
  | some (_, .enqueue _ _ _) => .isTrue trivial
  | none => .isTrue trivial

instance ClearsAtRest.decidable [Fintype Thread]
    (state : JobSystem Thread Queue Job) :
    ∀ action, Decidable (ClearsAtRest state action)
  | .push _ queue _ _ =>
      inferInstanceAs (Decidable ((state.queues queue).jobCount = 0 →
        (state.view queue).Unclaimed))
  | .clear _ _ => .isTrue trivial
  | .pop _ => .isTrue trivial
  | .advance thread =>
      inferInstanceAs (Decidable (state.ResetsAtRest (state.calls thread)))

/-- A thread is in the job loop of `Execute`. -/
def InJobLoop (state : JobSystem Thread Queue Job) (thread : Thread)
    (queue : Queue) : Prop :=
  ∃ executeList executedCount,
    state.executes thread = some (queue, .loop executeList executedCount) ∨
    state.executes thread = some (queue, .job executeList executedCount)

/-- What `Clear` must not break. -/
structure Schedulable (state : JobSystem Thread Queue Job) (queue : Queue) :
    Prop where
  exclusive : ∀ thread other, state.InJobLoop thread queue →
    state.InJobLoop other queue → thread = other
  nonneg : 0 ≤ (state.queues queue).jobCount
  scheduled : (∀ thread phase, state.calls thread ≠ some (queue, phase)) →
    (∀ thread, ¬state.Executing thread queue) →
    (state.queues queue).jobs ≠ [] → queue ∈ state.globalQueue

/-- No call is inside a `Push` that must not register. -/
def CallsRegister (state : JobSystem Thread Queue Job) : Prop :=
  ∀ thread queue phase, state.calls thread = some (queue, phase) →
    ∀ job prevCount, phase ≠ .enqueue job prevCount true

/-- The counter does not rise, and a locked list stays as it is. -/
def NotRaised (before after : JobQueue Thread Job) : Prop :=
  after.jobCount ≤ before.jobCount ∧
    (before.locked = true → after.jobs = before.jobs)

omit [DecidableEq Thread] in
theorem NotRaised.refl (queue : JobQueue Thread Job) : NotRaised queue queue :=
  ⟨Int.le_refl _, fun _ => rfl⟩

omit [DecidableEq Thread] in
theorem setQueue_notRaised {state : JobSystem Thread Queue Job} {other : Queue}
    {value : JobQueue Thread Job}
    (changed : NotRaised (state.queues other) value) (queue : Queue) :
    NotRaised (state.queues queue) ((state.setQueue other value).queues queue)
    := by
  apply (Function.forall_update_iff state.queues
    fun queue value => NotRaised (state.queues queue) value).mpr
  exact ⟨changed, fun queue _ => NotRaised.refl _⟩

theorem advanceCall_notRaised {state next : JobSystem Thread Queue Job}
    {thread : Thread} {other : Queue} {phase : CallPhase Job}
    (noClear : phase ≠ .clear)
    (stepped : state.advanceCall thread other phase = some next)
    (queue : Queue) : NotRaised (state.queues queue) (next.queues queue) := by
  cases phase with
  | clear => exact absurd rfl noClear
  | register =>
      obtain rfl := Option.some.inj stepped
      exact NotRaised.refl _
  | enqueue job prevCount pushOnly =>
      simp only [advanceCall] at stepped
      split at stepped
      · cases stepped
      · rename_i unlocked
        obtain rfl := Option.some.inj stepped
        apply setQueue_notRaised
        exact ⟨Int.le_refl _, fun locked => absurd locked unlocked⟩

theorem advanceExecute_notRaised {state next : JobSystem Thread Queue Job}
    {thread : Thread} {other : Queue} {phase : ExecutePhase Job}
    (remain : ∀ executedCount, phase = .loop [] executedCount →
      int32 ((state.queues other).jobCount - executedCount) =
        (state.queues other).jobCount - executedCount)
    (stepped : state.advanceExecute thread other phase = some next)
    (queue : Queue) : NotRaised (state.queues queue) (next.queues queue) := by
  cases phase with
  | takeBatch =>
      simp only [advanceExecute] at stepped
      split at stepped
      · cases stepped
      · rename_i unlocked
        obtain rfl := Option.some.inj stepped
        apply setQueue_notRaised
        exact ⟨Int.le_refl _, fun locked => absurd locked unlocked⟩
  | loop executeList executedCount =>
      cases executeList with
      | nil =>
          obtain rfl := Option.some.inj stepped
          apply setQueue_notRaised
          exact ⟨JobQueue.fetchSub_le (remain executedCount rfl),
            fun _ => rfl⟩
      | cons job rest =>
          obtain rfl := Option.some.inj stepped
          apply setQueue_notRaised
          exact NotRaised.refl _
  | job executeList executedCount =>
      obtain rfl := Option.some.inj stepped
      exact NotRaised.refl _
  | register =>
      obtain rfl := Option.some.inj stepped
      exact NotRaised.refl _

theorem callsRegister_step {state next : JobSystem Thread Queue Job}
    {action : JobAction Thread Queue Job} (before : CallsRegister state)
    (pushes : RegistersPushes action)
    (stepped : state.step action = some next) : CallsRegister next := by
  apply phases_step before (fun _ _ => nofun) _ _ stepped
  · intro thread queue job pushOnly same prevCount
    subst same
    obtain rfl : pushOnly = false := pushes
    exact fun _ _ => nofun
  · exact fun _ _ _ _ _ => nofun

/-- A step outside `Clear` that does not raise the counter. -/
theorem notRaised_cleared {state next : JobSystem Thread Queue Job}
    {queue : Queue} (before : (state.view queue).Cleared)
    (stepped : (state.view queue).Step (next.view queue))
    (notRaised : NotRaised (state.queues queue) (next.queues queue)) :
    (next.view queue).Cleared := by
  obtain ⟨token, producers, clearing, inv⟩ := before
  apply inv.step_inv stepped
  · intro _ raised
    exact absurd notRaised.1 (Int.not_le.mpr raised)
  · exact notRaised.2

theorem push_cleared {state next : JobSystem Thread Queue Job}
    {thread : Thread} {other : Queue} {job : Job}
    (before : ∀ queue, (state.view queue).Cleared)
    (first : (state.queues other).jobCount = 0 →
      (state.view other).Unclaimed)
    (stepped : state.step (.push thread other job false) = some next)
    (queue : Queue) : (next.view queue).Cleared := by
  obtain ⟨token, producers, clearing, inv⟩ := before queue
  have viewed := push_view stepped queue
  simp only [step] at stepped
  split at stepped
  · obtain rfl := Option.some.inj stepped
    by_cases same : queue = other
    · subst same
      apply inv.step_inv viewed (fun zero _ => first zero)
      intro _
      rw [view_setCall, view_setQueue_self]
      rfl
    · apply inv.step_inv viewed
      · intro _ raised
        rw [view_setCall, view_setQueue_other _ (Ne.symm same)] at raised
        exact absurd raised (Int.lt_irrefl _)
      · intro _
        rw [view_setCall, view_setQueue_other _ (Ne.symm same)]
        rfl
  · cases stepped

theorem clear_cleared {state next : JobSystem Thread Queue Job}
    {thread : Thread} {other : Queue}
    (before : ∀ queue, (state.view queue).Cleared)
    (stepped : state.step (.clear thread other) = some next)
    (queue : Queue) : (next.view queue).Cleared := by
  obtain ⟨token, producers, clearing, inv⟩ := before queue
  simp only [step] at stepped
  split at stepped
  · rename_i may
    obtain ⟨may, unlocked⟩ := may
    obtain rfl := Option.some.inj stepped
    have outside : (state.view queue).call thread = none := by
      simp [view, mayCall_calls may]
    by_cases same : other = queue
    · subst same
      rw [view_setCall, view_setQueue_self, phaseAt_self]
      exact ⟨_, _, _, inv.clear_inv outside unlocked⟩
    · rw [view_setCall, view_setQueue_other state same, phaseAt_other same,
        setCall_none _ outside]
      exact ⟨_, _, _, inv⟩
  · cases stepped

theorem reset_cleared {state next : JobSystem Thread Queue Job}
    {thread : Thread} {other : Queue}
    (before : ∀ queue, (state.view queue).Cleared)
    (at_ : state.calls thread = some (other, .clear))
    (settled : (state.view other).Settled)
    (stepped : state.advanceCall thread other .clear = some next)
    (queue : Queue) : (next.view queue).Cleared := by
  obtain ⟨token, producers, clearing, inv⟩ := before queue
  obtain rfl := Option.some.inj stepped
  have seen : (state.view queue).call thread =
      phaseAt queue (some (other, .clear)) := by
    simp [view, at_]
  by_cases same : other = queue
  · subst same
    rw [phaseAt_self] at seen
    rw [view_setCall, view_setQueue_self, phaseAt_none]
    exact ⟨_, _, _, inv.reset_inv seen settled⟩
  · rw [phaseAt_other same] at seen
    rw [view_setCall, view_setQueue_other state same, phaseAt_none,
      setCall_none _ seen]
    exact ⟨_, _, _, inv⟩

theorem step_cleared {state next : JobSystem Thread Queue Job}
    {action : JobAction Thread Queue Job}
    (calls : CallsRegister state)
    (before : ∀ queue, (state.view queue).Cleared)
    (pushes : RegistersPushes action) (atRest : ClearsAtRest state action)
    (stepped : state.step action = some next) (queue : Queue) :
    (next.view queue).Cleared := by
  cases action with
  | push thread other job pushOnly =>
      obtain rfl : pushOnly = false := pushes
      exact push_cleared before atRest stepped queue
  | clear thread other => exact clear_cleared before stepped queue
  | pop thread =>
      apply notRaised_cleared (before queue) (pop_view stepped queue)
      simp only [step] at stepped
      split at stepped
      · split at stepped <;> obtain rfl := Option.some.inj stepped <;>
          exact NotRaised.refl _
      · cases stepped
  | advance thread =>
      simp only [step] at stepped
      split at stepped
      · rename_i other phase at_
        by_cases clears : phase = .clear
        · subst clears
          simp only [ClearsAtRest, at_] at atRest
          exact reset_cleared before at_ atRest stepped queue
        · apply notRaised_cleared (before queue)
          · exact call_view at_ clears (calls thread other phase at_) stepped
              queue
          · exact advanceCall_notRaised clears stepped queue
      · split at stepped
        · rename_i other phase at_
          apply notRaised_cleared (before queue)
          · exact execute_view at_ stepped queue
          · apply advanceExecute_notRaised _ stepped queue
            intro executedCount same
            obtain ⟨_, _, _, inv⟩ := before other
            apply inv.fetchSub_jobCount
            exact phaseAt_eq_some_iff.mpr (same ▸ at_)
        · cases stepped

theorem initial_cleared (queue : Queue) :
    ((initial : JobSystem Thread Queue Job).view queue).Cleared := by
  refine ⟨.nobody, ∅, none, ?_⟩
  exact
    { (initial_inv queue).placed with
      clears := fun _ => ⟨False.elim, nofun⟩
      locked := rfl
      covers := Int.le_refl 0
      counted := fun _ => Int.le_refl 0
      inRange := JobQueue.zero_le_maxPendingJobs
      cleared := nofun
      unheld := fun _ => rfl }

theorem reaches_cleared {state : JobSystem Thread Queue Job}
    (reached : (machine Thread Queue Job).Reaches (fun state action =>
      RegistersPushes action ∧ ClearsAtRest state action) state) :
    CallsRegister state ∧ ∀ queue, (state.view queue).Cleared := by
  apply Machine.Reaches.invariant _ _ reached
  · intro state initially
    obtain rfl : state = initial := initially
    exact ⟨nofun, initial_cleared⟩
  · intro state action next ⟨calls, before⟩ ⟨pushes, atRest⟩ stepped
    exact ⟨callsRegister_step calls pushes stepped,
      step_cleared calls before pushes atRest stepped⟩

omit [DecidableEq Thread] [DecidableEq Queue] in
theorem InJobLoop.executing {state : JobSystem Thread Queue Job}
    {thread : Thread} {queue : Queue} (inLoop : state.InJobLoop thread queue) :
    state.Executing thread queue := by
  obtain ⟨executeList, executedCount, loop | job⟩ := inLoop
  · exact ⟨_, loop⟩
  · exact ⟨_, job⟩

/-- While `Clear` resets the counter at rest, the queue stays schedulable and
exclusive. -/
theorem reaches_schedulable {state : JobSystem Thread Queue Job}
    (reached : (machine Thread Queue Job).Reaches (fun state action =>
      RegistersPushes action ∧ ClearsAtRest state action) state)
    (queue : Queue) : state.Schedulable queue := by
  obtain ⟨token, producers, clearing, inv⟩ := (reaches_cleared reached).2 queue
  refine ⟨?_, inv.count_nonneg, ?_⟩
  · intro thread other inLoop otherInLoop
    have holds := (inv.executes thread).mp (works_iff.mpr inLoop.executing)
    have otherHolds :=
      (inv.executes other).mp (works_iff.mpr otherInLoop.executing)
    exact JobToken.worker.inj (holds.symm.trans otherHolds)
  · intro noCall noExecute waiting
    have outside : ∀ thread, (state.view queue).call thread = none := by
      intro thread
      cases found : (state.view queue).call thread with
      | none => rfl
      | some phase =>
          exact absurd (phaseAt_eq_some_iff.mp found) (noCall thread phase)
    have covers := inv.covers
    have positive := List.length_pos_iff.mpr waiting
    cases token with
    | nobody =>
        have zero := inv.unheld rfl
        change ((state.queues queue).jobs.length : Int) + _ + _ ≤ _ at covers
        omega
    | globalQueue =>
        have entry : state.globalQueue.count queue = 1 := inv.entries
        apply List.count_pos_iff.mp
        rw [entry]
        exact Nat.one_pos
    | producer thread =>
        have owes := (inv.owes thread).mpr rfl
        rw [outside] at owes
        exact owes.elim
    | worker thread =>
        exact absurd (works_iff.mp ((inv.executes thread).mpr rfl))
          (noExecute thread)

/-- The queue is cleared while its entry waits.  The worker that gets it finds
nothing, and the queue can be registered again. -/
def clearedEntry : List (JobAction (Fin 2) Unit Nat) :=
  [.push 0 () 1 false,
    .advance 0,
    .advance 0,
    .clear 0 (),
    .advance 0,
    .pop 1,
    .advance 1,
    .advance 1,
    .push 0 () 2 false,
    .advance 0,
    .advance 0]

theorem clearedEntry_schedulable :
    ∃ state, (machine (Fin 2) Unit Nat).run initial clearedEntry =
        some state ∧
      (state.queues ()).jobs = [2] ∧ state.globalQueue = [()] ∧
      state.Schedulable () := by
  obtain ⟨state, replayed⟩ : ∃ state,
      (machine (Fin 2) Unit Nat).run initial clearedEntry = some state :=
    Option.isSome_iff_exists.mp (by decide +kernel)
  have meets : (machine (Fin 2) Unit Nat).RunMeets (fun state action =>
      RegistersPushes action ∧ ClearsAtRest state action) initial
      clearedEntry := by
    decide +kernel
  have view : ((state.queues ()).jobs, state.globalQueue) = ([2], [()]) := by
    apply Machine.view_of_run replayed
    decide +kernel
  obtain ⟨jobs, entries⟩ := Prod.mk.inj view
  exact ⟨state, replayed, jobs, entries, reaches_schedulable
    (Machine.Reaches.of_run (.start rfl) meets replayed) ()⟩

/-- The queue is registered for the job that was cleared and for the next one.
Two workers run its jobs at the same time. -/
def clearedTwice : List (JobAction (Fin 3) Unit Nat) :=
  [.push 0 () 1 false,
    .advance 0,
    .advance 0,
    .clear 0 (),
    .advance 0,
    .push 0 () 2 false,
    .advance 0,
    .advance 0,
    .pop 1,
    .advance 1,
    .advance 1,
    .push 0 () 3 false,
    .advance 0,
    .pop 2,
    .advance 2,
    .advance 2]

theorem clearedTwice_notExclusive :
    ∃ state, (machine (Fin 3) Unit Nat).run initial clearedTwice =
        some state ∧
      (∀ action ∈ clearedTwice, RegistersPushes action) ∧
      ¬state.Schedulable () := by
  obtain ⟨state, replayed⟩ : ∃ state,
      (machine (Fin 3) Unit Nat).run initial clearedTwice = some state :=
    Option.isSome_iff_exists.mp (by decide +kernel)
  have view : (state.executes 1, state.executes 2) =
      (some ((), .job [] 1), some ((), .job [] 1)) := by
    apply Machine.view_of_run replayed
    decide +kernel
  obtain ⟨first, second⟩ := Prod.mk.inj view
  refine ⟨state, replayed, by simp [clearedTwice, RegistersPushes], ?_⟩
  intro schedulable
  have same := schedulable.exclusive 1 2 ⟨_, _, Or.inr first⟩
    ⟨_, _, Or.inr second⟩
  exact absurd same (by decide)

end JobSystem

end IocpChat
