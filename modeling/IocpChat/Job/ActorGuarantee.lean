import Mathlib.Data.Finset.Card
import IocpChat.Job.QueueView
import IocpChat.Lib.Threads

/-!
# The actor guarantee of JobQueue

The right to execute a queue is held by one party: the producer that raised the
counter from 0, the entry in the `GlobalQueue`, or the worker that popped it.
The counter is 0 exactly when nobody holds it.
-/

namespace IocpChat

open TransitionSystem

/-- Who has the right to execute a queue, or to register it for that. -/
inductive JobToken (Thread : Type) where
  | nobody
  | globalQueue
  | producer (thread : Thread)
  | worker (thread : Thread)

def JobToken.entries {Thread : Type} : JobToken Thread → Nat
  | .globalQueue => 1
  | _ => 0

theorem JobToken.entries_le_one {Thread : Type} (token : JobToken Thread) :
    token.entries ≤ 1 := by
  cases token with
  | globalQueue => exact Nat.le_refl 1
  | _ => exact Nat.zero_le 1

/-- A producer that found the counter at 0 registers the queue. -/
def Owes {Job : Type} : Option (CallPhase Job) → Prop
  | some (.enqueue _ prevCount _) => prevCount = 0
  | some .register => True
  | _ => False

/-- A producer that has raised the counter and not yet enqueued its job. -/
def Enqueues {Job : Type} : Option (CallPhase Job) → Prop
  | some (.enqueue _ _ _) => True
  | _ => False

/-- A worker that is inside `Execute`. -/
def Works {Job : Type} : Option (ExecutePhase Job) → Prop
  | some _ => True
  | none => False

/-- The call that is in `called` and not yet in `enqueued`. -/
def pendingCall {Thread Job : Type} (thread : Thread) :
    Option (CallPhase Job) → List (Thread × Job)
  | some (.enqueue job _ _) => [(thread, job)]
  | _ => []

/-- The jobs of the batch that have not been started. -/
def unstarted {Job : Type} : Option (ExecutePhase Job) → List Job
  | some (.loop executeList _) => executeList
  | some (.job executeList _) => executeList
  | _ => []

/-- What the batch still counts for in `_jobCount`. -/
def taken {Job : Type} : Option (ExecutePhase Job) → Nat
  | some (.loop _ executedCount) => executedCount
  | some (.job _ executedCount) => executedCount
  | _ => 0

/-- What a thread has pushed, and in which order, is what it has enqueued, but
for the call in progress. -/
def InCallOrder {Thread Job : Type} [DecidableEq Thread]
    (queue : JobQueue Thread Job) (thread : Thread)
    (call : Option (CallPhase Job)) : Prop :=
  queue.called.filter (·.1 = thread) =
    queue.enqueued.filter (·.1 = thread) ++ pendingCall thread call

/-- The phase of the worker that holds the token. -/
def JobToken.phase {Thread Job : Type}
    (execute : Thread → Option (ExecutePhase Job)) :
    JobToken Thread → Option (ExecutePhase Job)
  | .worker thread => execute thread
  | _ => none

/-- The token after a producer has read the counter. -/
def JobToken.raise {Thread : Type} (token : JobToken Thread) (thread : Thread)
    (prevCount : Int) : JobToken Thread :=
  if prevCount = 0 then .producer thread else token

/-- The token after a worker has lowered the counter to `remain`. -/
def JobToken.lower {Thread : Type} (thread : Thread) (remain : Int) :
    JobToken Thread :=
  if 0 < remain then .worker thread else .nobody

namespace QueueView

variable {Thread Job : Type} [DecidableEq Thread]

/-- The token is where `token` says, and the producers are on their way to
the list. -/
structure Placed (view : QueueView Thread Job) (token : JobToken Thread)
    (producers : Finset Thread) : Prop where
  entries : view.entries = token.entries
  owes : ∀ thread, Owes (view.call thread) ↔ token = .producer thread
  executes : ∀ thread, Works (view.execute thread) ↔ token = .worker thread
  enqueues : ∀ thread, Enqueues (view.call thread) ↔ thread ∈ producers

omit [DecidableEq Thread] in
/-- A producer that reads 0 takes the token, which nobody holds. -/
theorem raise_cases {token : JobToken Thread} {prevCount : Int}
    (free : prevCount = 0 ↔ token = .nobody) (thread : Thread) :
    token.raise thread prevCount = token ∧ prevCount ≠ 0 ∧
        token ≠ .nobody ∨
      token.raise thread prevCount = .producer thread ∧ prevCount = 0 ∧
        token = .nobody := by
  by_cases zero : prevCount = 0
  · exact Or.inr ⟨if_pos zero, zero, free.mp zero⟩
  · exact Or.inl ⟨if_neg zero, zero, mt free.mpr zero⟩

namespace Placed

variable {view : QueueView Thread Job} {token : JobToken Thread}
  {producers : Finset Thread}

omit [DecidableEq Thread] in
theorem notProducer (placed : Placed view token producers) {thread : Thread}
    (outside : view.call thread = none) :
    token ≠ .producer thread ∧ thread ∉ producers := by
  constructor
  · intro owner
    have owes := (placed.owes thread).mpr owner
    rw [outside] at owes
    exact owes
  · intro member
    have enqueues := (placed.enqueues thread).mpr member
    rw [outside] at enqueues
    exact enqueues

omit [DecidableEq Thread] in
theorem holds_worker (placed : Placed view token producers) {thread : Thread}
    {phase : ExecutePhase Job} (at_ : view.execute thread = some phase) :
    token = .worker thread := by
  apply (placed.executes thread).mp
  rw [at_]
  trivial

omit [DecidableEq Thread] in
theorem mem_producers (placed : Placed view token producers) {thread : Thread}
    {job : Job} {prevCount : Int} {pushOnly : Bool}
    (at_ : view.call thread = some (.enqueue job prevCount pushOnly)) :
    thread ∈ producers := by
  apply (placed.enqueues thread).mp
  rw [at_]
  trivial

omit [DecidableEq Thread] in
/-- The queue itself does not say where the token is. -/
theorem setQueue (placed : Placed view token producers)
    (queue : JobQueue Thread Job) :
    Placed { view with queue := queue } token producers :=
  { placed with }

/-- A thread moves between calls that neither owe nor enqueue. -/
theorem setCall (placed : Placed view token producers) {thread : Thread}
    {phase : Option (CallPhase Job)}
    (owes : Owes phase ↔ Owes (view.call thread))
    (enqueues : Enqueues phase ↔ Enqueues (view.call thread)) :
    Placed (view.setCall thread phase) token producers :=
  { placed with
    owes := Threads.forall_iff_update_outside placed.owes owes
    enqueues := Threads.forall_iff_update_outside placed.enqueues enqueues }

theorem push (placed : Placed view token producers) {thread : Thread}
    (outside : view.call thread = none)
    (free : view.queue.jobCount = 0 ↔ token = .nobody) (job : Job) :
    Placed (view.setCall thread
        (some (.enqueue job view.queue.jobCount false)))
      (token.raise thread view.queue.jobCount) (insert thread producers) := by
  obtain ⟨noOwner, _⟩ := placed.notProducer outside
  have raised := raise_cases free thread
  exact
    { entries := by
        change view.entries = _
        rw [placed.entries]
        rcases raised with ⟨same, _⟩ | ⟨taken, _, rfl⟩
        · rw [same]
        · rw [taken]
          rfl
      owes := by
        apply Threads.forall_iff_update placed.owes
        · change view.queue.jobCount = 0 ↔ _
          rcases raised with ⟨same, positive, _⟩ | ⟨taken, zero, rfl⟩
          · rw [same]
            exact ⟨fun zero => absurd zero positive,
              fun owner => absurd owner noOwner⟩
          · exact ⟨fun _ => taken, fun _ => zero⟩
        · intro other different
          rcases raised with ⟨same, _⟩ | ⟨taken, _, rfl⟩
          · rw [same]
          · rw [taken, JobToken.producer.injEq]
            exact ⟨fun same => absurd same.symm different, nofun⟩
      executes := by
        intro other
        change Works (view.execute other) ↔ _
        rw [placed.executes other]
        rcases raised with ⟨same, _⟩ | ⟨taken, _, rfl⟩
        · rw [same]
        · rw [taken]
          exact ⟨nofun, nofun⟩
      enqueues := by
        apply Threads.forall_iff_update placed.enqueues
        · exact ⟨fun _ => Finset.mem_insert_self _ _, fun _ => trivial⟩
        · intro other different
          rw [Finset.mem_insert, or_iff_right different] }

theorem enqueue (placed : Placed view token producers) {thread : Thread}
    {job : Job} {prevCount : Int}
    (at_ : view.call thread = some (.enqueue job prevCount false)) :
    Placed (view.setCall thread
        (if prevCount = 0 then some .register else none)) token
      (producers.erase thread) where
  entries := placed.entries
  owes := by
    apply Threads.forall_iff_update_outside placed.owes
    rw [at_]
    change _ ↔ prevCount = 0
    by_cases zero : prevCount = 0
    · rw [if_pos zero]
      exact ⟨fun _ => zero, fun _ => trivial⟩
    · rw [if_neg zero]
      exact ⟨False.elim, fun first => absurd first zero⟩
  executes := placed.executes
  enqueues := by
    apply Threads.forall_iff_update placed.enqueues
    · constructor
      · intro enqueues
        split at enqueues <;> exact enqueues.elim
      · exact fun member => absurd member (Finset.notMem_erase _ _)
    · intro other different
      rw [Finset.mem_erase, and_iff_right different]

theorem registerNew (placed : Placed view token producers) {thread : Thread}
    (at_ : view.call thread = some .register) :
    token = .producer thread ∧
      Placed ({ view with entries := view.entries + 1 }.setCall thread none)
        .globalQueue producers := by
  obtain rfl : token = .producer thread := by
    apply (placed.owes thread).mp
    rw [at_]
    trivial
  refine ⟨rfl, ⟨?_, ?_, ?_, ?_⟩⟩
  · change view.entries + 1 = 1
    rw [placed.entries]
    rfl
  · apply Threads.forall_iff_update placed.owes
    · exact ⟨False.elim, nofun⟩
    · intro other different
      rw [JobToken.producer.injEq]
      exact ⟨nofun, fun same => absurd same.symm different⟩
  · intro other
    change Works (view.execute other) ↔ _
    rw [placed.executes other]
    exact ⟨nofun, nofun⟩
  · apply Threads.forall_iff_update_outside placed.enqueues
    rw [at_]
    exact Iff.rfl

theorem pop (placed : Placed view token producers) {thread : Thread}
    {entries : Nat} (queued : view.entries = entries + 1) :
    token = .globalQueue ∧
      Placed ({ view with entries := entries }.setExecute thread
        (some .takeBatch)) (.worker thread) producers := by
  have one := placed.entries
  rw [queued] at one
  obtain rfl : token = .globalQueue := by
    cases token with
    | globalQueue => rfl
    | _ => cases one
  refine ⟨rfl, ⟨Nat.succ.inj one, ?_, ?_, placed.enqueues⟩⟩
  · intro other
    change Owes (view.call other) ↔ _
    rw [placed.owes other]
    exact ⟨nofun, nofun⟩
  · apply Threads.forall_iff_update placed.executes
    · exact ⟨fun _ => rfl, fun _ => trivial⟩
    · intro other different
      rw [JobToken.worker.injEq]
      exact ⟨fun same => absurd same.symm different, nofun⟩

/-- The worker goes on inside `Execute`. -/
theorem work (placed : Placed view token producers) {thread : Thread}
    {old : ExecutePhase Job} (at_ : view.execute thread = some old)
    (new : ExecutePhase Job) :
    Placed (view.setExecute thread (some new)) token producers :=
  { placed with
    executes := by
      apply Threads.forall_iff_update_outside placed.executes
      rw [at_]
      exact Iff.rfl }

/-- The worker leaves `Execute`, with or without registering the queue. -/
theorem leave {thread : Thread}
    (placed : Placed view (.worker thread) producers)
    {next : JobToken Thread} (still : next = .nobody ∨ next = .globalQueue) :
    Placed ({ view with entries := next.entries }.setExecute thread none) next
      producers := by
  have unowned : ∀ other, next ≠ .producer other ∧ next ≠ .worker other := by
    rcases still with rfl | rfl <;> exact fun _ => ⟨nofun, nofun⟩
  refine ⟨rfl, ?_, ?_, placed.enqueues⟩
  · intro other
    change Owes (view.call other) ↔ _
    rw [placed.owes other]
    exact ⟨nofun, fun owner => absurd owner (unowned other).1⟩
  · apply Threads.forall_iff_update placed.executes
    · exact ⟨False.elim, fun owner => absurd owner (unowned thread).2⟩
    · intro other different
      rw [JobToken.worker.injEq]
      exact ⟨fun owner => absurd owner (unowned other).2,
        fun same => absurd same.symm different⟩

end Placed

/-- The counter covers the list, the batch that was taken out and the jobs that
are about to be enqueued; it is 0 exactly when nobody holds the token. -/
structure Inv (view : QueueView Thread Job) (token : JobToken Thread)
    (producers : Finset Thread) : Prop where
  entries : view.entries = token.entries
  owes : ∀ thread, Owes (view.call thread) ↔ token = .producer thread
  executes : ∀ thread, Works (view.execute thread) ↔ token = .worker thread
  enqueues : ∀ thread, Enqueues (view.call thread) ↔ thread ∈ producers
  count : view.queue.jobCount =
    view.queue.jobs.length + taken (token.phase view.execute) + producers.card
  inRange : view.queue.jobCount ≤ JobQueue.maxPendingJobs
  free : view.queue.jobCount = 0 ↔ token = .nobody
  order : view.queue.executed ++ unstarted (token.phase view.execute) ++
    view.queue.jobs = view.queue.enqueued.map Prod.snd
  callers : ∀ thread, InCallOrder view.queue thread (view.call thread)

theorem Inv.count_nonneg {view : QueueView Thread Job}
    {token : JobToken Thread} {producers : Finset Thread}
    (inv : Inv view token producers) : 0 ≤ view.queue.jobCount := by
  have count := inv.count
  omega

theorem Inv.placed {view : QueueView Thread Job} {token : JobToken Thread}
    {producers : Finset Thread} (inv : Inv view token producers) :
    Placed view token producers :=
  { inv with }

/-- Raising the counter from 0 takes the token. -/
theorem push_inv {view : QueueView Thread Job} {token : JobToken Thread}
    {producers : Finset Thread} (inv : Inv view token producers)
    {thread : Thread} {job : Job} (outside : view.call thread = none)
    (notFull : view.queue.jobCount < JobQueue.maxPendingJobs) :
    Inv ({ view with queue := view.queue.fetchAdd thread job }.setCall thread
        (some (.enqueue job view.queue.jobCount false)))
      (token.raise thread view.queue.jobCount) (insert thread producers) := by
  have nonneg := inv.count_nonneg
  have raisedCount : (view.queue.fetchAdd thread job).jobCount =
      view.queue.jobCount + 1 := JobQueue.fetchAdd_jobCount nonneg notFull
  have placed := (inv.placed.push outside inv.free job).setQueue
    (view.queue.fetchAdd thread job)
  obtain ⟨_, fresh⟩ := inv.placed.notProducer outside
  have raised := raise_cases inv.free thread
  have samePhase : (token.raise thread view.queue.jobCount).phase view.execute =
      token.phase view.execute := by
    rcases raised with ⟨same, _⟩ | ⟨taken, _, rfl⟩
    · rw [same]
    · rw [taken]
      rfl
  exact
    { placed with
      count := by
        have count := inv.count
        change (view.queue.fetchAdd thread job).jobCount =
          view.queue.jobs.length + taken (JobToken.phase view.execute _) + _
        rw [raisedCount, samePhase, Finset.card_insert_of_notMem fresh]
        omega
      inRange := raisedCount.trans_le (Int.add_one_le_of_lt notFull)
      free := by
        change (view.queue.fetchAdd thread job).jobCount = 0 ↔ _
        rw [raisedCount]
        rcases raised with ⟨same, _, held⟩ | ⟨taken, _, _⟩
        · rw [same]
          exact ⟨fun nothing => by omega, fun free => absurd free held⟩
        · rw [taken]
          exact ⟨fun nothing => by omega, nofun⟩
      order := by
        change view.queue.executed ++
          unstarted (JobToken.phase view.execute _) ++ view.queue.jobs = _
        rw [samePhase]
        exact inv.order
      callers := by
        intro other
        have before : InCallOrder _ _ _ := inv.callers other
        unfold InCallOrder at before ⊢
        by_cases own : other = thread
        · subst own
          rw [outside] at before
          simp [setCall, JobQueue.fetchAdd, before, pendingCall]
        · have notOwn : ¬thread = other := fun same => own same.symm
          simp [setCall, JobQueue.fetchAdd, before, own, notOwn] }

/-- The job is in the list; the producer still owes the registration if it
raised the counter from 0. -/
theorem enqueue_inv {view : QueueView Thread Job} {token : JobToken Thread}
    {producers : Finset Thread} (inv : Inv view token producers)
    {thread : Thread} {job : Job} {prevCount : Int}
    (at_ : view.call thread = some (.enqueue job prevCount false)) :
    Inv ({ view with queue := view.queue.enqueue thread job }.setCall thread
      (if prevCount = 0 then some .register else none)) token
      (producers.erase thread) :=
  { (inv.placed.enqueue at_).setQueue (view.queue.enqueue thread job) with
    count := by
      have count := inv.count
      have smaller :=
        Finset.card_erase_add_one (inv.placed.mem_producers at_)
      change view.queue.jobCount = ((view.queue.jobs ++ [job]).length : Int) +
        taken (token.phase view.execute) + _
      rw [List.length_append, List.length_singleton]
      omega
    inRange := inv.inRange
    free := inv.free
    order := by
      change view.queue.executed ++ unstarted (token.phase view.execute) ++
        (view.queue.jobs ++ [job]) =
          (view.queue.enqueued ++ [(thread, job)]).map Prod.snd
      rw [← List.append_assoc, inv.order, List.map_append]
      rfl
    callers := by
      intro other
      have before : InCallOrder _ _ _ := inv.callers other
      unfold InCallOrder at before ⊢
      by_cases own : other = thread
      · subst own
        rw [at_] at before
        simp [setCall, JobQueue.enqueue, before, pendingCall]
      · have notOwn : ¬thread = other := fun same => own same.symm
        simp [setCall, JobQueue.enqueue, before, own, notOwn] }

/-- The producer hands the token to the `GlobalQueue`. -/
theorem registerNew_inv {view : QueueView Thread Job}
    {token : JobToken Thread} {producers : Finset Thread}
    (inv : Inv view token producers) {thread : Thread}
    (at_ : view.call thread = some .register) :
    Inv ({ view with entries := view.entries + 1 }.setCall thread none)
      .globalQueue producers := by
  obtain ⟨rfl, placed⟩ := inv.placed.registerNew at_
  exact
    { placed with
      count := inv.count
      inRange := inv.inRange
      free := by
        change view.queue.jobCount = 0 ↔ _
        rw [inv.free]
        exact ⟨nofun, nofun⟩
      order := inv.order
      callers := by
        apply Threads.forall_update (InCallOrder view.queue) inv.callers
        have before := inv.callers thread
        rw [at_] at before
        exact before }

/-- A worker takes the token from the `GlobalQueue`. -/
theorem pop_inv {view : QueueView Thread Job} {token : JobToken Thread}
    {producers : Finset Thread} (inv : Inv view token producers)
    {thread : Thread} {entries : Nat} (queued : view.entries = entries + 1) :
    Inv ({ view with entries := entries }.setExecute thread (some .takeBatch))
      (.worker thread) producers := by
  obtain ⟨rfl, placed⟩ := @Placed.pop _ _ _ _ _ _ inv.placed thread _ queued
  exact
    { placed with
      count := by
        have count := inv.count
        simpa [JobToken.phase, setExecute, taken] using count
      inRange := inv.inRange
      free := by
        change view.queue.jobCount = 0 ↔ _
        rw [inv.free]
        exact ⟨(by simp), (by simp)⟩
      order := by
        have order := inv.order
        simpa [JobToken.phase, setExecute, unstarted] using order
      callers := inv.callers }

/-- What the invariant says about a worker. -/
theorem Inv.worker {view : QueueView Thread Job} {token : JobToken Thread}
    {producers : Finset Thread} (inv : Inv view token producers)
    {thread : Thread} {phase : ExecutePhase Job}
    (at_ : view.execute thread = some phase) :
    token = .worker thread ∧ view.queue.jobCount ≠ 0 ∧
      view.queue.jobCount = view.queue.jobs.length + taken (some phase) +
        producers.card ∧
      view.queue.executed ++ unstarted (some phase) ++ view.queue.jobs =
        view.queue.enqueued.map Prod.snd := by
  obtain rfl := inv.placed.holds_worker at_
  have held : (JobToken.worker thread).phase view.execute = some phase := at_
  have count := inv.count
  have order := inv.order
  rw [held] at count order
  have positive : view.queue.jobCount ≠ 0 := by
    intro zero
    cases inv.free.mp zero
  exact ⟨rfl, positive, count, order⟩

/-- The worker goes on and keeps the token. -/
theorem Inv.work {view : QueueView Thread Job} {token : JobToken Thread}
    {producers : Finset Thread} (inv : Inv view token producers)
    {thread : Thread} {old new : ExecutePhase Job}
    {queue : JobQueue Thread Job} (at_ : view.execute thread = some old)
    (called : queue.called = view.queue.called)
    (enqueued : queue.enqueued = view.queue.enqueued)
    (positive : queue.jobCount ≠ 0)
    (lower : queue.jobCount ≤ view.queue.jobCount)
    (count : queue.jobCount =
      queue.jobs.length + taken (some new) + producers.card)
    (order : queue.executed ++ unstarted (some new) ++ queue.jobs =
      queue.enqueued.map Prod.snd) :
    Inv ({ view with queue := queue }.setExecute thread (some new)) token
      producers := by
  obtain ⟨rfl, _⟩ := inv.worker at_
  have after : (JobToken.worker thread).phase
      (Function.update view.execute thread (some new)) = some new :=
    Function.update_self ..
  exact
    { (inv.placed.work at_ new).setQueue queue with
      count := by
        change queue.jobCount = queue.jobs.length +
          taken (JobToken.phase (Function.update view.execute _ _) _) + _
        rw [after]
        exact count
      inRange := lower.trans inv.inRange
      free := ⟨fun zero => absurd zero positive, nofun⟩
      order := by
        change queue.executed ++
          unstarted (JobToken.phase (Function.update view.execute _ _) _) ++
            queue.jobs = _
        rw [after]
        exact order
      callers := by
        intro other
        change queue.called.filter _ = queue.enqueued.filter _ ++ _
        rw [called, enqueued]
        exact inv.callers other }

/-- The worker subtracts its batch; without jobs left the token is free. -/
theorem fetchSub_inv {view : QueueView Thread Job} {token : JobToken Thread}
    {producers : Finset Thread} (inv : Inv view token producers)
    {thread : Thread} {executedCount : Nat}
    (at_ : view.execute thread = some (.loop [] executedCount)) :
    Inv ({ view with queue := view.queue.fetchSub executedCount }.setExecute
        thread
        (if 0 < int32 (view.queue.jobCount - executedCount) then some .register
          else none))
      (.lower thread (int32 (view.queue.jobCount - executedCount)))
      producers := by
  obtain ⟨rfl, _, count, order⟩ := inv.worker at_
  change view.queue.jobCount = view.queue.jobs.length + executedCount +
    producers.card at count
  have remain : int32 (view.queue.jobCount - executedCount) =
      view.queue.jobCount - executedCount :=
    JobQueue.int32_remain (by omega) inv.inRange
  have lower : (view.queue.fetchSub executedCount).jobCount ≤
      view.queue.jobCount := JobQueue.fetchSub_le remain
  have remaining : (view.queue.fetchSub executedCount).jobCount =
      view.queue.jobs.length + 0 + producers.card := by
    change int32 (view.queue.jobCount - executedCount) = _
    omega
  by_cases left : 0 < int32 (view.queue.jobCount - executedCount)
  · rw [JobToken.lower, if_pos left, if_pos left]
    exact inv.work at_ rfl rfl (Int.ne_of_gt left) lower remaining order
  · rw [JobToken.lower, if_neg left, if_neg left]
    have zero : (view.queue.fetchSub executedCount).jobCount = 0 := by
      change ¬0 < (view.queue.fetchSub executedCount).jobCount at left
      omega
    have placed := (inv.placed.leave (Or.inl rfl)).setQueue
      (view.queue.fetchSub executedCount)
    exact
      { placed with
        entries := inv.entries
        count := remaining
        inRange := lower.trans inv.inRange
        free := ⟨fun _ => rfl, fun _ => zero⟩
        order := order
        callers := inv.callers }

/-- The worker hands the token back to the `GlobalQueue`. -/
theorem registerAgain_inv {view : QueueView Thread Job}
    {token : JobToken Thread} {producers : Finset Thread}
    (inv : Inv view token producers) {thread : Thread}
    (at_ : view.execute thread = some .register) :
    Inv ({ view with entries := view.entries + 1 }.setExecute thread none)
      .globalQueue producers := by
  obtain ⟨rfl, _, count, order⟩ := inv.worker at_
  exact
    { inv.placed.leave (Or.inr rfl) with
      entries := by
        change view.entries + 1 = 1
        rw [inv.entries]
        rfl
      count := count
      inRange := inv.inRange
      free := by
        change view.queue.jobCount = 0 ↔ _
        rw [inv.free]
        exact ⟨nofun, nofun⟩
      order := order
      callers := inv.callers }

/-- Every step of a queue keeps its token in one place. -/
theorem step_inv {view next : QueueView Thread Job} {token : JobToken Thread}
    {producers : Finset Thread} (inv : Inv view token producers)
    (stepped : view.Step next) :
    ∃ token producers, Inv next token producers := by
  cases stepped with
  | elsewhere => exact ⟨token, producers, inv⟩
  | push thread job outside notFull =>
      exact ⟨_, _, push_inv inv outside notFull⟩
  | enqueue at_ => exact ⟨_, _, enqueue_inv inv at_⟩
  | registerNew at_ => exact ⟨_, _, registerNew_inv inv at_⟩
  | pop queued outside => exact ⟨_, _, pop_inv inv queued⟩
  | takeBatch at_ =>
      obtain ⟨_, positive, count, order⟩ := inv.worker at_
      refine ⟨_, _, inv.work at_ rfl rfl positive (Int.le_refl _) ?_ ?_⟩
      · change view.queue.jobCount = ((view.queue.jobs.drop _).length : Int) +
          (view.queue.jobs.take _).length + _
        rw [count, List.length_take, List.length_drop]
        change _ + ((0 : Nat) : Int) + _ = _
        omega
      · change view.queue.executed ++ view.queue.jobs.take _ ++
          view.queue.jobs.drop _ = _
        rw [List.append_assoc, List.take_append_drop]
        rw [show unstarted _ = ([] : List Job) from rfl, List.append_nil]
          at order
        exact order
  | start at_ =>
      obtain ⟨_, positive, count, order⟩ := inv.worker at_
      refine ⟨_, _, inv.work at_ rfl rfl positive (Int.le_refl _) count ?_⟩
      change (view.queue.executed ++ [_]) ++ _ ++ _ = _
      rw [List.append_assoc view.queue.executed]
      exact order
  | finish at_ =>
      obtain ⟨_, positive, count, order⟩ := inv.worker at_
      exact ⟨_, _,
        inv.work at_ rfl rfl positive (Int.le_refl _) count order⟩
  | fetchSub at_ =>
      exact ⟨_, _, fetchSub_inv inv at_⟩
  | registerAgain at_ => exact ⟨_, _, registerAgain_inv inv at_⟩

/-- Nobody pushes or executes: the token is in the `GlobalQueue` or nowhere,
and the counter is the length of the list. -/
theorem Inv.wakeUp {view : QueueView Thread Job} {token : JobToken Thread}
    {producers : Finset Thread} (inv : Inv view token producers)
    (noPush : ∀ thread, ¬Owes (view.call thread) ∧
      ¬Enqueues (view.call thread))
    (noExecute : ∀ thread, ¬Works (view.execute thread)) :
    view.queue.jobs ≠ [] ↔ view.entries = 1 := by
  have noProducers : producers.card = 0 := by
    rw [Finset.card_eq_zero, Finset.eq_empty_iff_forall_notMem]
    intro thread member
    exact (noPush thread).2 ((inv.enqueues thread).mpr member)
  have count := inv.count
  have free := inv.free
  have entries := inv.entries
  cases token with
  | producer thread =>
      exact absurd ((inv.owes thread).mpr rfl) (noPush thread).1
  | worker thread =>
      exact absurd ((inv.executes thread).mpr rfl) (noExecute thread)
  | nobody =>
      have zero := free.mpr rfl
      have empty : view.queue.jobs = [] := by
        apply List.eq_nil_of_length_eq_zero
        omega
      rw [entries]
      exact ⟨fun some_ => absurd empty some_, nofun⟩
  | globalQueue =>
      have positive : view.queue.jobCount ≠ 0 := by
        intro zero
        cases free.mp zero
      rw [entries]
      refine ⟨fun _ => rfl, fun _ empty => positive ?_⟩
      rw [count, noProducers, empty]
      rfl

end QueueView

namespace JobSystem

variable {Thread Queue Job : Type} [DecidableEq Thread] [DecidableEq Queue]

/-- A thread is between the start and the end of `Push` for a queue. -/
def Pushing (state : JobSystem Thread Queue Job) (thread : Thread)
    (queue : Queue) : Prop :=
  ∃ phase, phase ≠ .clear ∧ state.calls thread = some (queue, phase)

/-- A thread has been given a queue and has not returned from `Execute`. -/
def Executing (state : JobSystem Thread Queue Job) (thread : Thread)
    (queue : Queue) : Prop :=
  ∃ phase, state.executes thread = some (queue, phase)

/-- What the job queues promise to actors. -/
structure ActorGuarantee (state : JobSystem Thread Queue Job) : Prop where
  exclusive : ∀ queue thread other, state.Executing thread queue →
    state.Executing other queue → thread = other
  oneEntry : ∀ queue, state.globalQueue.count queue ≤ 1
  idleOrder : ∀ queue, (∀ thread, ¬state.Executing thread queue) →
    (state.queues queue).executed ++ (state.queues queue).jobs =
      (state.queues queue).enqueued.map Prod.snd
  batchOrder : ∀ queue thread phase,
    state.executes thread = some (queue, phase) →
    (state.queues queue).executed ++ unstarted (some phase) ++
        (state.queues queue).jobs =
      (state.queues queue).enqueued.map Prod.snd
  callOrder : ∀ queue thread,
    (state.queues queue).called.filter (·.1 = thread) =
      (state.queues queue).enqueued.filter (·.1 = thread) ++
        pendingCall thread (phaseAt queue (state.calls thread))
  wakeUp : ∀ queue, (∀ thread, ¬state.Pushing thread queue) →
    (∀ thread, ¬state.Executing thread queue) →
    ((state.queues queue).jobs ≠ [] ↔ state.globalQueue.count queue = 1)

omit [DecidableEq Thread] in
theorem works_iff {state : JobSystem Thread Queue Job} {thread : Thread}
    {queue : Queue} :
    Works ((state.view queue).execute thread) ↔
      state.Executing thread queue := by
  constructor
  · intro works
    change Works (phaseAt queue (state.executes thread)) at works
    cases found : phaseAt queue (state.executes thread) with
    | none =>
        rw [found] at works
        exact works.elim
    | some phase => exact ⟨phase, phaseAt_eq_some_iff.mp found⟩
  · rintro ⟨phase, at_⟩
    change Works (phaseAt queue (state.executes thread))
    rw [at_, phaseAt_self]
    trivial

theorem initial_inv (queue : Queue) :
    QueueView.Inv ((initial : JobSystem Thread Queue Job).view queue) .nobody
      ∅ where
  entries := rfl
  owes := fun _ => ⟨False.elim, nofun⟩
  executes := fun _ => ⟨False.elim, nofun⟩
  enqueues := fun _ => ⟨False.elim, fun member => absurd member (by simp)⟩
  count := rfl
  inRange := JobQueue.zero_le_maxPendingJobs
  free := ⟨fun _ => rfl, fun _ => rfl⟩
  order := rfl
  callers := fun _ => rfl

theorem reaches_inv {state : JobSystem Thread Queue Job}
    (reached : (machine Thread Queue Job).Reaches PushesOnly state) :
    Registers state ∧
      ∀ queue, ∃ token producers,
        QueueView.Inv (state.view queue) token producers := by
  apply Machine.Reaches.invariant _ _ reached
  · intro state initially
    obtain rfl : state = initial := initially
    exact ⟨nofun, fun queue => ⟨_, _, initial_inv queue⟩⟩
  · intro state action next ⟨registers, inv⟩ pushes stepped
    refine ⟨registers_step registers pushes stepped, fun queue => ?_⟩
    obtain ⟨token, producers, before⟩ := inv queue
    exact QueueView.step_inv before (step_view registers pushes stepped queue)

/-- One thread at a time is inside the queue's `Execute`. -/
theorem reaches_exclusive {state : JobSystem Thread Queue Job}
    (reached : (machine Thread Queue Job).Reaches PushesOnly state)
    {queue : Queue} {thread other : Thread}
    (executes : state.Executing thread queue)
    (otherExecutes : state.Executing other queue) : thread = other := by
  obtain ⟨token, producers, view⟩ := (reaches_inv reached).2 queue
  have holds := (view.executes thread).mp (works_iff.mpr executes)
  have otherHolds := (view.executes other).mp (works_iff.mpr otherExecutes)
  exact JobToken.worker.inj (holds.symm.trans otherHolds)

theorem reaches_actorGuarantee {state : JobSystem Thread Queue Job}
    (reached : (machine Thread Queue Job).Reaches PushesOnly state) :
    ActorGuarantee state := by
  obtain ⟨registers, inv⟩ := reaches_inv reached
  refine
    { exclusive := ?_
      oneEntry := ?_
      idleOrder := ?_
      batchOrder := ?_
      callOrder := ?_
      wakeUp := ?_ }
  · exact fun _ _ _ => reaches_exclusive reached
  · intro queue
    obtain ⟨token, producers, view⟩ := inv queue
    have entries : state.globalQueue.count queue = token.entries := view.entries
    rw [entries]
    exact token.entries_le_one
  · intro queue nobody
    obtain ⟨token, producers, view⟩ := inv queue
    have order := view.order
    cases token with
    | worker thread =>
        exact absurd (works_iff.mp ((view.executes thread).mpr rfl))
          (nobody thread)
    | _ =>
        rw [show unstarted (JobToken.phase _ _) = ([] : List Job) from rfl,
          List.append_nil] at order
        exact order
  · intro queue thread phase at_
    obtain ⟨token, producers, view⟩ := inv queue
    have seen : (state.view queue).execute thread = some phase :=
      phaseAt_eq_some_iff.mpr at_
    exact (view.worker seen).2.2.2
  · intro queue thread
    obtain ⟨token, producers, view⟩ := inv queue
    exact view.callers thread
  · intro queue noPush noExecute
    obtain ⟨token, producers, view⟩ := inv queue
    apply view.wakeUp
    · intro thread
      have outside : (state.view queue).call thread = none := by
        cases found : (state.view queue).call thread with
        | none => rfl
        | some phase =>
            have at_ := phaseAt_eq_some_iff.mp found
            obtain ⟨noClear, _⟩ := registers thread queue phase at_
            exact absurd ⟨phase, noClear, at_⟩ (noPush thread)
      rw [outside]
      exact ⟨id, id⟩
    · exact fun thread works => noExecute thread (works_iff.mp works)

/-- Two producers and a job that pushes another one to its own queue. -/
def nestedPush : List (JobAction Bool Unit Nat) :=
  [.push true () 1 false,
    .advance true,
    .push false () 2 false,
    .advance true,
    .pop true,
    .advance true,
    .advance true,
    .push true () 3 false,
    .advance true,
    .advance false,
    .advance true,
    .advance true]

theorem nestedPush_actorGuarantee :
    ∃ state, (machine Bool Unit Nat).run initial nestedPush = some state ∧
      (state.queues ()).executed = [1] ∧ (state.queues ()).jobs = [3, 2] ∧
      state.executes true = some ((), .register) ∧ ActorGuarantee state := by
  have meets : ∀ action ∈ nestedPush, ∀ state : JobSystem Bool Unit Nat,
      PushesOnly state action := by
    simp [nestedPush, PushesOnly]
  obtain ⟨state, replayed⟩ :
      ∃ state, (machine Bool Unit Nat).run initial nestedPush = some state :=
    Option.isSome_iff_exists.mp rfl
  have facts : ((machine Bool Unit Nat).run initial nestedPush).map
      (fun state => ((state.queues ()).executed, (state.queues ()).jobs,
        state.executes true)) =
      some ([1], [3, 2], some ((), .register)) := rfl
  rw [replayed] at facts
  simp only [Option.map_some, Option.some.injEq, Prod.mk.injEq] at facts
  obtain ⟨executed, jobs, at_⟩ := facts
  exact ⟨state, replayed, executed, jobs, at_,
    reaches_actorGuarantee
      (Machine.Reaches.of_run (.start rfl) (Machine.RunMeets.of_forall meets)
        replayed)⟩

end JobSystem

end IocpChat
