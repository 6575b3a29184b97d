import Mathlib.Data.List.Perm.Subperm
import IocpChat.Job.JobTimer
import IocpChat.Lib.Threads

/-!
# Timers fire once, not early and in order

What was reserved is waiting, in the hands of the one thread inside the gate,
pushed or dropped.  A round drains the expired items in the order of their
deadlines and leaves the others.
-/

namespace IocpChat

open TransitionSystem

namespace TimerPc

variable {Queue Job : Type}

/-- The thread has passed the gate. -/
def Distributes : TimerPc Queue Job → Prop
  | .distribute _ => True
  | .popItems _ _ => True
  | .pushItems _ _ => True
  | _ => False

def HoldsLock : TimerPc Queue Job → Prop
  | .popItems _ _ => True
  | _ => False

/-- The items that are out of the queue and not yet pushed. -/
def inFlight : TimerPc Queue Job → List (TimerItem Queue Job)
  | .popItems _ expiredItems => expiredItems
  | .pushItems _ expiredItems => expiredItems
  | _ => []

end TimerPc

namespace Round

variable {Queue Job : Type}

def expires (now : UInt64) (item : TimerItem Queue Job) : Bool :=
  item.executeTick ≤ now

/-- What a round has pushed, and when. -/
def log (round : Round Queue Job) : List (TimerItem Queue Job × UInt64) :=
  round.pushed.map fun item => (item, round.now)

/-- A round that has handled what had expired, but for some items. -/
structure Pending (round : Round Queue Job)
    (expiredItems : List (TimerItem Queue Job)) (destroyed : List Queue) :
    Prop where
  reserved : (round.reserved.map Reservation.item).Perm
    (round.handled ++ round.before)
  expired : (round.pushed ++ round.dropped ++ expiredItems).Perm
    (round.before.filter (expires round.now))
  rest : round.rest.Perm
    (round.before.filter fun item => !expires round.now item)
  ordered : (round.pushed ++ expiredItems).Pairwise fun earlier later =>
    earlier.executeTick ≤ later.executeTick
  dropped : ∀ item ∈ round.dropped, item.owner ∈ destroyed

/-- A round pushes the expired items in the order of their deadlines, but for
those whose owner is gone, and leaves the others. -/
structure Correct (round : Round Queue Job) (destroyed : List Queue) :
    Prop where
  reserved : (round.reserved.map Reservation.item).Perm
    (round.handled ++ round.before)
  expired : (round.pushed ++ round.dropped).Perm
    (round.before.filter fun item => item.executeTick ≤ round.now)
  rest : round.rest.Perm
    (round.before.filter fun item => round.now < item.executeTick)
  ordered : round.pushed.Pairwise fun earlier later =>
    earlier.executeTick ≤ later.executeTick
  dropped : ∀ item ∈ round.dropped, item.owner ∈ destroyed

/-- A round that is still draining the queue. -/
structure Draining (round : Round Queue Job)
    (expiredItems items : List (TimerItem Queue Job)) : Prop where
  reserved : (round.reserved.map Reservation.item).Perm
    (round.handled ++ round.before)
  split : (expiredItems ++ items).Perm round.before
  drained : PriorityQueue.Drained TimerItem.less expiredItems items
  expired : ∀ item ∈ expiredItems, item.executeTick ≤ round.now
  fresh : round.pushed = [] ∧ round.dropped = []

theorem Pending.correct {round : Round Queue Job} {destroyed : List Queue}
    (pending : round.Pending [] destroyed) : round.Correct destroyed where
  reserved := pending.reserved
  expired := by
    have expired := pending.expired
    rw [List.append_nil] at expired
    exact expired
  rest := by
    have later : (fun item : TimerItem Queue Job =>
        !expires round.now item) =
        fun item => decide (round.now < item.executeTick) := by
      funext item
      simp only [expires, ← UInt64.not_le, decide_not]
    rw [← later]
    exact pending.rest
  ordered := by
    have ordered := pending.ordered
    rw [List.append_nil] at ordered
    exact ordered
  dropped := pending.dropped

theorem less_eq_false_iff {item other : TimerItem Queue Job} :
    item.less other = false ↔ item.executeTick ≤ other.executeTick := by
  rw [TimerItem.less, decide_eq_false_iff_not, UInt64.not_lt]

theorem Draining.pop {round : Round Queue Job}
    {expiredItems items : List (TimerItem Queue Job)}
    {item : TimerItem Queue Job} {top : Nat}
    (draining : round.Draining expiredItems items)
    (found : items[top]? = some item)
    (isTop : PriorityQueue.isTop TimerItem.less items item = true)
    (due : item.executeTick ≤ round.now) :
    round.Draining (expiredItems ++ [item]) (items.eraseIdx top) where
  reserved := draining.reserved
  split := (PriorityQueue.perm_pop found).trans draining.split
  drained := draining.drained.pop found isTop
  expired := by
    intro other member
    rcases List.mem_append.mp member with before | last
    · exact draining.expired other before
    · rw [List.mem_singleton.mp last]
      exact due
  fresh := draining.fresh

/-- When nothing is due any more, the round has what it has to push. -/
theorem Draining.leave {round : Round Queue Job}
    {expiredItems items : List (TimerItem Queue Job)}
    (draining : round.Draining expiredItems items)
    (later : ∀ item ∈ items, round.now < item.executeTick)
    (destroyed : List Queue) :
    Pending { round with rest := items } expiredItems destroyed := by
  obtain ⟨noPushed, noDropped⟩ := draining.fresh
  have passes : ∀ item ∈ expiredItems, expires round.now item = true :=
    fun item member => decide_eq_true (draining.expired item member)
  have fails : ∀ item ∈ items, expires round.now item = false :=
    fun item member =>
      decide_eq_false (UInt64.not_le.mpr (later item member))
  obtain ⟨expired, rest⟩ :=
    PriorityQueue.perm_filter_of_split draining.split passes fails
  refine ⟨draining.reserved, ?_, rest, ?_, ?_⟩
  · change (round.pushed ++ round.dropped ++ expiredItems).Perm _
    rw [noPushed, noDropped]
    exact expired
  · change (round.pushed ++ expiredItems).Pairwise _
    rw [noPushed]
    exact draining.drained.ordered.imp less_eq_false_iff.mp
  · change ∀ item ∈ round.dropped, _
    rw [noDropped]
    exact nofun

theorem Pending.push {round : Round Queue Job} {item : TimerItem Queue Job}
    {expiredItems : List (TimerItem Queue Job)} {destroyed : List Queue}
    (pending : round.Pending (item :: expiredItems) destroyed) :
    Pending { round with pushed := round.pushed ++ [item] } expiredItems
      destroyed where
  reserved := pending.reserved
  expired := by
    refine List.Perm.trans ?_ pending.expired
    change (round.pushed ++ [item] ++ round.dropped ++ expiredItems).Perm _
    simp only [List.append_assoc]
    apply List.Perm.append_left
    exact (@List.perm_middle _ item round.dropped expiredItems).symm
  rest := pending.rest
  ordered := by
    have ordered := pending.ordered
    rw [List.append_cons] at ordered
    exact ordered
  dropped := pending.dropped

theorem Pending.drop {round : Round Queue Job} {item : TimerItem Queue Job}
    {expiredItems : List (TimerItem Queue Job)} {destroyed : List Queue}
    (pending : round.Pending (item :: expiredItems) destroyed)
    (gone : item.owner ∈ destroyed) :
    Pending { round with dropped := round.dropped ++ [item] } expiredItems
      destroyed where
  reserved := pending.reserved
  expired := by
    have expired := pending.expired
    rw [List.append_cons, List.append_assoc round.pushed] at expired
    exact expired
  rest := pending.rest
  ordered := by
    apply List.Pairwise.sublist _ pending.ordered
    exact (List.sublist_cons_self ..).append_left _
  dropped := by
    intro other member
    rcases List.mem_append.mp member with before | last
    · exact pending.dropped other before
    · rw [List.mem_singleton.mp last]
      exact gone

theorem Pending.destroy {round : Round Queue Job}
    {expiredItems : List (TimerItem Queue Job)} {destroyed : List Queue}
    (pending : round.Pending expiredItems destroyed) (owner : Queue) :
    round.Pending expiredItems (owner :: destroyed) :=
  { pending with
    dropped := fun item member =>
      List.mem_cons_of_mem _ (pending.dropped item member) }

theorem Correct.destroy {round : Round Queue Job} {destroyed : List Queue}
    (correct : round.Correct destroyed) (owner : Queue) :
    round.Correct (owner :: destroyed) :=
  { correct with
    dropped := fun item member =>
      List.mem_cons_of_mem _ (correct.dropped item member) }

end Round

namespace JobTimer

variable {Thread Queue Job : Type}

/-- What a round that is under way has pushed. -/
def logged : TimerPc Queue Job → List (TimerItem Queue Job × UInt64)
  | .popItems round _ => round.log
  | .pushItems round _ => round.log
  | _ => []

/-- The round in progress is as far as its thread. -/
def UnderWay (state : JobTimer Thread Queue Job) : TimerPc Queue Job → Prop
  | .popItems round expiredItems => round.Draining expiredItems state.items
  | .pushItems round expiredItems =>
      round.Pending expiredItems state.destroyed
  | _ => True

/-- Where the thread stands that has passed the gate. -/
def current (state : JobTimer Thread Queue Job) :
    Option Thread → TimerPc Queue Job
  | some thread => state.pcs thread
  | none => .idle

/-- One thread at most has passed the gate. -/
structure Gated (state : JobTimer Thread Queue Job)
    (distributor : Option Thread) : Prop where
  distributes : ∀ thread, (state.pcs thread).Distributes ↔
    distributor = some thread
  gate : state.distributing = distributor.isSome

/-- What was reserved is waiting, in flight, pushed or dropped. -/
structure Accounts [DecidableEq Queue] (state : JobTimer Thread Queue Job)
    (pc : TimerPc Queue Job) : Prop where
  locked : state.locked = true ↔ pc.HoldsLock
  underWay : state.UnderWay pc
  conserved : (state.reserved.map Reservation.item).Perm
    (state.items ++ pc.inFlight ++
      (state.pushed.map Prod.fst ++ state.dropped))
  notEarly : ∀ entry ∈ state.pushed, entry.1.executeTick ≤ entry.2
  dropped : ∀ item ∈ state.dropped, item.owner ∈ state.destroyed
  rounds : ∀ round ∈ state.rounds, round.Correct state.destroyed
  logged : state.pushed = state.rounds.flatMap Round.log ++ logged pc
  delivered : ∀ owner,
    ((state.pushed.filter (·.1.owner = owner)).map (·.1.job)).Sublist
      ((state.queues.queues owner).called.map Prod.snd)

variable [DecidableEq Thread] [DecidableEq Queue]

omit [DecidableEq Queue] in
@[simp] theorem goto_pcs_self {state : JobTimer Thread Queue Job}
    {thread : Thread} {pc : TimerPc Queue Job} :
    (state.goto thread pc).pcs thread = pc :=
  Function.update_self ..

omit [DecidableEq Queue] in
theorem current_goto_other {state : JobTimer Thread Queue Job}
    {distributor : Option Thread} {thread : Thread} {pc : TimerPc Queue Job}
    (different : distributor ≠ some thread) :
    (state.goto thread pc).current distributor = state.current distributor := by
  cases distributor with
  | none => rfl
  | some other =>
      apply Function.update_of_ne
      intro same
      exact different (congrArg some same)

omit [DecidableEq Queue] in
/-- A thread stays inside the gate or outside. -/
theorem Gated.move {state : JobTimer Thread Queue Job}
    {distributor : Option Thread} (gated : Gated state distributor)
    {thread : Thread} {pc : TimerPc Queue Job}
    (same : pc.Distributes ↔ (state.pcs thread).Distributes) :
    Gated (state.goto thread pc) distributor where
  distributes := Threads.forall_iff_update_outside gated.distributes same
  gate := gated.gate

omit [DecidableEq Thread] [DecidableEq Queue] in
theorem Gated.outside {state : JobTimer Thread Queue Job}
    {distributor : Option Thread} (gated : Gated state distributor)
    {thread : Thread} (outside : ¬(state.pcs thread).Distributes) :
    distributor ≠ some thread :=
  mt (gated.distributes thread).mpr outside

omit [DecidableEq Queue] in
theorem Gated.enter {state : JobTimer Thread Queue Job}
    {distributor : Option Thread} (gated : Gated state distributor)
    (isOpen : state.distributing = false) {thread : Thread}
    {pc : TimerPc Queue Job} (inside : pc.Distributes) :
    distributor = none ∧
      Gated ({ state with distributing := true }.goto thread pc)
        (some thread) := by
  have nobody : distributor = none := by
    have gate := gated.gate
    rw [isOpen] at gate
    exact Option.isNone_iff_eq_none.mp (Option.isSome_eq_false_iff.mp gate.symm)
  subst nobody
  refine ⟨rfl, ⟨?_, rfl⟩⟩
  apply Threads.forall_iff_update gated.distributes
  · exact ⟨fun _ => rfl, fun _ => inside⟩
  · intro other different
    rw [Option.some.injEq]
    exact ⟨fun same => absurd same.symm different, nofun⟩

omit [DecidableEq Queue] in
theorem Gated.leave {state : JobTimer Thread Queue Job} {thread : Thread}
    (gated : Gated state (some thread)) :
    Gated ({ state with distributing := false }.goto thread .idle) none := by
  refine ⟨?_, rfl⟩
  apply Threads.forall_iff_update gated.distributes
  · exact ⟨False.elim, nofun⟩
  · intro other different
    rw [Option.some.injEq]
    exact ⟨nofun, fun same => absurd same.symm different⟩

/-- Some thread, or none, has passed the gate, and nothing is lost. -/
def Timed (state : JobTimer Thread Queue Job) : Prop :=
  ∃ distributor, Gated state distributor ∧
    Accounts state (state.current distributor)

omit [DecidableEq Thread] [DecidableEq Queue] in
theorem Gated.of_pc {state : JobTimer Thread Queue Job}
    {distributor : Option Thread} (gated : Gated state distributor)
    {thread : Thread} {pc : TimerPc Queue Job} (at_ : state.pcs thread = pc)
    (inside : pc.Distributes) : distributor = some thread := by
  apply (gated.distributes thread).mp
  rw [at_]
  exact inside

/-- The calls of `Push` are recorded in the order they come in. -/
theorem called_grows {queues next : JobSystem Thread Queue Job}
    {action : JobAction Thread Queue Job}
    (stepped : queues.step action = some next) (owner : Queue) :
    (queues.queues owner).called <+: (next.queues owner).called := by
  have changed : ∀ (other : Queue) (value : JobQueue Thread Job),
      (queues.queues other).called <+: value.called →
      (queues.queues owner).called <+:
        (Function.update queues.queues other value owner).called := by
    intro other value grows
    by_cases same : owner = other
    · subst same
      rw [Function.update_self]
      exact grows
    · rw [Function.update_of_ne same]
  cases action with
  | push thread other job pushOnly =>
      simp only [JobSystem.step] at stepped
      split at stepped <;> cases stepped
      exact changed other _ (List.prefix_append _ _)
  | clear thread other =>
      simp only [JobSystem.step] at stepped
      split at stepped <;> cases stepped
      exact changed other _ List.prefix_rfl
  | pop thread =>
      simp only [JobSystem.step] at stepped
      split at stepped
      · split at stepped <;> cases stepped <;> exact List.prefix_rfl
      · cases stepped
  | advance thread =>
      simp only [JobSystem.step] at stepped
      split at stepped
      · rename_i other phase _
        revert stepped
        fun_cases JobSystem.advanceCall queues thread other phase <;>
          intro stepped <;> cases stepped
        · exact changed other _ List.prefix_rfl
        · exact List.prefix_rfl
        · exact changed other _ List.prefix_rfl
      · split at stepped
        · rename_i other phase _
          revert stepped
          fun_cases JobSystem.advanceExecute queues thread other phase <;>
            intro stepped <;> cases stepped
          · exact changed other _ List.prefix_rfl
          · exact changed other _ List.prefix_rfl
          · exact changed other _ List.prefix_rfl
          · exact List.prefix_rfl
          · exact List.prefix_rfl
        · cases stepped

/-- `Push` records its call. -/
theorem push_called {queues next : JobSystem Thread Queue Job}
    {thread : Thread} {owner : Queue} {job : Job} {pushOnly : Bool}
    (stepped : queues.step (.push thread owner job pushOnly) = some next) :
    (next.queues owner).called =
      (queues.queues owner).called ++ [(thread, job)] := by
  simp only [JobSystem.step] at stepped
  split at stepped
  · obtain rfl := Option.some.inj stepped
    simp [JobSystem.setCall, JobSystem.setQueue, JobQueue.fetchAdd]
  · cases stepped

/-- The queues go on by themselves. -/
theorem Accounts.setQueues {state : JobTimer Thread Queue Job}
    {pc : TimerPc Queue Job} (accounts : Accounts state pc)
    {action : JobAction Thread Queue Job}
    {queues : JobSystem Thread Queue Job}
    (stepped : state.queues.step action = some queues) :
    Accounts { state with queues := queues } pc :=
  { accounts with
    delivered := by
      intro owner
      apply (accounts.delivered owner).trans
      exact ((called_grows stepped owner).sublist).map _ }

/-- A job is reserved while nobody holds the lock. -/
theorem reserve_timed {state : JobTimer Thread Queue Job} {thread : Thread}
    {reservation : Reservation Queue Job} (timed : Timed state)
    (at_ : state.pcs thread = .reserve reservation)
    (unlocked : state.locked = false) :
    Timed ((state.reserve reservation).goto thread .idle) := by
  obtain ⟨distributor, gated, accounts⟩ := timed
  have outside : ¬(state.pcs thread).Distributes := by
    rw [at_]
    exact id
  refine ⟨distributor, ?_, ?_⟩
  · exact @Gated.move _ _ _ _ (state.reserve reservation) _
      ⟨gated.distributes, gated.gate⟩ _ _ ⟨False.elim, outside⟩
  · rw [current_goto_other (gated.outside outside)]
    have notHeld : ¬(state.current distributor).HoldsLock := by
      rw [← accounts.locked, unlocked]
      exact Bool.false_ne_true
    exact
      { accounts with
        underWay := by
          have underWay := accounts.underWay
          change (state.reserve reservation).UnderWay
            (state.current distributor)
          revert underWay notHeld
          cases state.current distributor with
          | popItems round expiredItems =>
              intro notHeld
              exact absurd trivial notHeld
          | _ => exact fun _ => id
        conserved := by
          have conserved := accounts.conserved
          change ((state.reserved ++ [reservation]).map _).Perm
            (state.items ++ [reservation.item] ++ _ ++ _)
          rw [List.append_assoc] at conserved
          rw [List.map_append, List.append_assoc, List.append_assoc]
          apply (conserved.append_right _).trans
          rw [List.append_assoc]
          exact List.perm_append_comm.append_left _ }

/-- The thread inside the gate has moved on. -/
theorem Timed.at {state : JobTimer Thread Queue Job} {thread : Thread}
    {pc : TimerPc Queue Job} (gated : Gated state (some thread))
    (inside : pc.Distributes) (accounts : Accounts state pc) :
    Timed (state.goto thread pc) := by
  refine ⟨some thread, gated.move ?_, ?_⟩
  · exact iff_of_true inside ((gated.distributes thread).mpr rfl)
  · rw [current, goto_pcs_self]
    exact { accounts with }

/-- The lock is taken, and a round is opened. -/
theorem distribute_timed {state : JobTimer Thread Queue Job} {thread : Thread}
    {now : UInt64} (gated : Gated state (some thread))
    (accounts : Accounts state (.distribute now)) :
    Timed ({ state with locked := true }.goto thread
      (.popItems (state.openRound now) [])) := by
  have stillGated : Gated { state with locked := true } (some thread) :=
    ⟨gated.distributes, gated.gate⟩
  have conserved := accounts.conserved
  rw [show TimerPc.inFlight _ = ([] : List (TimerItem Queue Job)) from rfl,
    List.append_nil] at conserved
  refine Timed.at stillGated (by trivial) ?_
  exact
    { accounts with
      locked := iff_of_true rfl trivial
      underWay :=
        { reserved := conserved.trans List.perm_append_comm
          split := List.Perm.refl _
          drained := .start _
          expired := nofun
          fresh := ⟨rfl, rfl⟩ }
      conserved := accounts.conserved
      logged := accounts.logged }

/-- Nothing is due any more, and the lock is released. -/
theorem unlock_timed {state : JobTimer Thread Queue Job} {thread : Thread}
    {round : Round Queue Job} {expiredItems : List (TimerItem Queue Job)}
    (gated : Gated state (some thread))
    (accounts : Accounts state (.popItems round expiredItems))
    (later : ∀ item ∈ state.items, round.now < item.executeTick) :
    Timed ({ state with locked := false }.goto thread
      (.pushItems { round with rest := state.items } expiredItems)) := by
  have stillGated : Gated { state with locked := false } (some thread) :=
    ⟨gated.distributes, gated.gate⟩
  refine Timed.at stillGated (by trivial) ?_
  exact
    { accounts with
      locked := iff_of_false Bool.false_ne_true id
      underWay := accounts.underWay.leave later state.destroyed }

/-- One turn of the loop under the lock. -/
theorem popItem_timed {state next : JobTimer Thread Queue Job}
    {thread : Thread} {round : Round Queue Job}
    {expiredItems : List (TimerItem Queue Job)} {top : Nat}
    (gated : Gated state (some thread))
    (accounts : Accounts state (.popItems round expiredItems))
    (stepped : state.popItem thread round expiredItems top = some next) :
    Timed next := by
  simp only [popItem] at stepped
  split at stepped
  · rename_i empty
    obtain rfl := Option.some.inj stepped
    apply unlock_timed gated accounts
    rw [empty]
    exact nofun
  · split at stepped
    · cases stepped
    · rename_i item found
      split at stepped
      · cases stepped
      · rename_i isTop
        rw [Bool.not_eq_false] at isTop
        split at stepped
        · rename_i early
          obtain rfl := Option.some.inj stepped
          apply unlock_timed gated accounts
          intro other member
          have least := PriorityQueue.isTop_iff.mp isTop other member
          exact UInt64.lt_of_lt_of_le early
            (Round.less_eq_false_iff.mp least)
        · rename_i due
          obtain rfl := Option.some.inj stepped
          have stillGated : Gated
              { state with items := state.items.eraseIdx top }
              (some thread) := ⟨gated.distributes, gated.gate⟩
          refine Timed.at stillGated (by trivial) ?_
          have moved := @PriorityQueue.perm_pop _ expiredItems _ _ _ found
          exact
            { accounts with
              underWay :=
                accounts.underWay.pop found isTop (UInt64.not_lt.mp due)
              conserved := by
                apply accounts.conserved.trans
                apply List.Perm.append_right
                change (state.items ++ expiredItems).Perm
                  (state.items.eraseIdx top ++ (expiredItems ++ [item]))
                exact List.perm_append_comm.trans
                  (moved.symm.trans List.perm_append_comm) }

/-- The round is over, and the gate is open again. -/
theorem finish_timed {state : JobTimer Thread Queue Job} {thread : Thread}
    {round : Round Queue Job} (gated : Gated state (some thread))
    (accounts : Accounts state (.pushItems round [])) :
    Timed ({ state with
      distributing := false
      rounds := state.rounds ++ [round] }.goto thread .idle) := by
  have stillGated :
      Gated { state with rounds := state.rounds ++ [round] } (some thread) :=
    ⟨gated.distributes, gated.gate⟩
  refine ⟨none, stillGated.leave, ?_⟩
  exact
    { accounts with
      underWay := trivial
      rounds := by
        intro other member
        rcases List.mem_append.mp member with before | last
        · exact accounts.rounds other before
        · rw [List.mem_singleton.mp last]
          exact accounts.underWay.correct
      logged := by
        have logged : state.pushed = _ ++ round.log := accounts.logged
        change state.pushed = (state.rounds ++ [round]).flatMap _ ++ []
        rw [List.append_nil, List.flatMap_append, List.flatMap_singleton,
          logged] }

/-- The owner is gone, and so is the job. -/
theorem drop_timed {state : JobTimer Thread Queue Job} {thread : Thread}
    {round : Round Queue Job} {item : TimerItem Queue Job}
    {expiredItems : List (TimerItem Queue Job)}
    (gated : Gated state (some thread))
    (accounts : Accounts state (.pushItems round (item :: expiredItems)))
    (gone : item.owner ∈ state.destroyed) :
    Timed ({ state with dropped := state.dropped ++ [item] }.goto thread
      (.pushItems { round with dropped := round.dropped ++ [item] }
        expiredItems)) := by
  have stillGated : Gated { state with dropped := state.dropped ++ [item] }
      (some thread) := ⟨gated.distributes, gated.gate⟩
  refine Timed.at stillGated (by trivial) ?_
  exact
    { accounts with
      underWay := accounts.underWay.drop gone
      conserved := by
        apply accounts.conserved.trans
        change (state.items ++ item :: expiredItems ++
          (state.pushed.map Prod.fst ++ state.dropped)).Perm
            (state.items ++ expiredItems ++
              (state.pushed.map Prod.fst ++ (state.dropped ++ [item])))
        rw [← List.append_assoc (state.pushed.map Prod.fst),
          ← List.append_assoc (state.items ++ expiredItems),
          List.append_assoc state.items, List.append_assoc state.items]
        refine List.perm_middle.trans ?_
        exact (List.perm_append_singleton item _).symm
      dropped := by
        intro other member
        rcases List.mem_append.mp member with before | last
        · exact accounts.dropped other before
        · rw [List.mem_singleton.mp last]
          exact gone }

/-- The job is pushed to its owner. -/
theorem push_timed {state : JobTimer Thread Queue Job} {thread : Thread}
    {round : Round Queue Job} {item : TimerItem Queue Job}
    {expiredItems : List (TimerItem Queue Job)}
    {queues : JobSystem Thread Queue Job}
    (gated : Gated state (some thread))
    (accounts : Accounts state (.pushItems round (item :: expiredItems)))
    (stepped : state.queues.step (.push thread item.owner item.job false) =
      some queues) :
    Timed ({ state with
      queues := queues
      pushed := state.pushed ++ [(item, round.now)] }.goto thread
        (.pushItems { round with pushed := round.pushed ++ [item] }
          expiredItems)) := by
  have stillGated : Gated { state with
      queues := queues
      pushed := state.pushed ++ [(item, round.now)] } (some thread) :=
    ⟨gated.distributes, gated.gate⟩
  have due : item.executeTick ≤ round.now := by
    have expired := accounts.underWay.expired.subset (List.mem_append_right _
      (List.mem_cons_self ..))
    exact of_decide_eq_true (List.mem_filter.mp expired).2
  refine Timed.at stillGated (by trivial) ?_
  exact
    { accounts with
      underWay := accounts.underWay.push
      conserved := by
        apply accounts.conserved.trans
        change (state.items ++ item :: expiredItems ++
          (state.pushed.map Prod.fst ++ state.dropped)).Perm
            (state.items ++ expiredItems ++
              ((state.pushed ++ [(item, round.now)]).map Prod.fst ++
                state.dropped))
        have moved : (expiredItems ++ state.pushed.map Prod.fst ++
            item :: state.dropped).Perm (item :: (expiredItems ++
              state.pushed.map Prod.fst ++ state.dropped)) :=
          List.perm_middle
        rw [List.append_assoc state.items, List.append_assoc state.items]
        apply List.Perm.append_left
        simpa using moved.symm
      notEarly := by
        intro entry member
        rcases List.mem_append.mp member with before | last
        · exact accounts.notEarly entry before
        · rw [List.mem_singleton.mp last]
          exact due
      logged := by
        have logged : state.pushed = _ ++ round.log := accounts.logged
        change state.pushed ++ [(item, round.now)] = _ ++
          (round.pushed ++ [item]).map fun item => (item, round.now)
        rw [logged, List.append_assoc, List.map_append]
        rfl
      delivered := by
        intro owner
        change
          (((state.pushed ++ [(item, round.now)]).filter _).map _).Sublist _
        rw [List.filter_append, List.map_append]
        by_cases own : item.owner = owner
        · subst own
          have last : ([(item, round.now)].filter
              (·.1.owner = item.owner)).map (·.1.job) = [item.job] := by
            simp
          rw [push_called stepped, List.map_append, last]
          exact (accounts.delivered item.owner).append (List.Sublist.refl _)
        · rw [List.filter_cons_of_neg (by simpa using own), List.filter_nil,
            List.map_nil, List.append_nil]
          exact (accounts.setQueues stepped).delivered owner }

theorem Timed.setQueues {state : JobTimer Thread Queue Job}
    (timed : Timed state) {action : JobAction Thread Queue Job}
    {queues : JobSystem Thread Queue Job}
    (stepped : state.queues.step action = some queues) :
    Timed { state with queues := queues } := by
  obtain ⟨distributor, gated, accounts⟩ := timed
  exact ⟨distributor, ⟨gated.distributes, gated.gate⟩,
    accounts.setQueues stepped⟩

omit [DecidableEq Thread] in
theorem Timed.destroy {state : JobTimer Thread Queue Job}
    (timed : Timed state) (owner : Queue) :
    Timed { state with destroyed := owner :: state.destroyed } := by
  obtain ⟨distributor, gated, accounts⟩ := timed
  refine ⟨distributor, ⟨gated.distributes, gated.gate⟩, ?_⟩
  change Accounts _ (state.current distributor)
  exact
    { accounts with
      underWay := by
        have underWay := accounts.underWay
        revert underWay
        cases state.current distributor with
        | pushItems round expiredItems =>
            exact fun pending => pending.destroy owner
        | _ => exact id
      dropped := fun item member =>
        List.mem_cons_of_mem _ (accounts.dropped item member)
      rounds := fun round member =>
        (accounts.rounds round member).destroy owner }

omit [DecidableEq Thread] in
/-- The thread that has passed the gate is the one that moves. -/
theorem Timed.inside {state : JobTimer Thread Queue Job} (timed : Timed state)
    {thread : Thread} {pc : TimerPc Queue Job} (at_ : state.pcs thread = pc)
    (inside : pc.Distributes) :
    Gated state (some thread) ∧ Accounts state pc := by
  obtain ⟨distributor, gated, accounts⟩ := timed
  obtain rfl := gated.of_pc at_ inside
  rw [current, at_] at accounts
  exact ⟨gated, accounts⟩

theorem advance_timed {state next : JobTimer Thread Queue Job}
    {thread : Thread} {top : Nat} (timed : Timed state)
    (stepped : state.advance thread top = some next) : Timed next := by
  cases at_ : state.pcs thread with
  | idle => simp [advance, at_] at stepped
  | reserve reservation =>
      simp only [advance, at_] at stepped
      split at stepped
      · cases stepped
      · rename_i unlocked
        obtain rfl := Option.some.inj stepped
        exact reserve_timed timed at_ (Bool.eq_false_iff.mpr unlocked)
  | distribute now =>
      obtain ⟨gated, accounts⟩ := timed.inside at_ (by trivial)
      simp only [advance, at_] at stepped
      split at stepped
      · cases stepped
      · obtain rfl := Option.some.inj stepped
        exact distribute_timed gated accounts
  | popItems round expiredItems =>
      obtain ⟨gated, accounts⟩ := timed.inside at_ (by trivial)
      simp only [advance, at_] at stepped
      exact popItem_timed gated accounts stepped
  | pushItems round expiredItems =>
      simp only [advance, at_] at stepped
      split at stepped
      · obtain ⟨queues, moved, rfl⟩ := Option.map_eq_some_iff.mp stepped
        exact timed.setQueues moved
      · obtain ⟨gated, accounts⟩ := timed.inside at_ (by trivial)
        cases expiredItems with
        | nil =>
            obtain rfl := Option.some.inj stepped
            exact finish_timed gated accounts
        | cons item expiredItems =>
            simp only [pushItem] at stepped
            split at stepped
            · rename_i gone
              obtain rfl := Option.some.inj stepped
              exact drop_timed gated accounts gone
            · obtain ⟨queues, pushed, rfl⟩ := Option.map_eq_some_iff.mp stepped
              exact push_timed gated accounts pushed

omit [DecidableEq Thread] [DecidableEq Queue] in
theorem isIdle_iff {state : JobTimer Thread Queue Job} {thread : Thread} :
    state.isIdle thread = true ↔ state.pcs thread = .idle := by
  unfold isIdle
  cases state.pcs thread <;> simp

/-- Every step keeps account of what was reserved. -/
theorem step_timed {state next : JobTimer Thread Queue Job}
    {action : TimerAction Thread Queue Job} (timed : Timed state)
    (stepped : state.step action = some next) : Timed next := by
  cases action with
  | reserve thread reservation =>
      simp only [step] at stepped
      split at stepped
      · rename_i may
        obtain rfl := Option.some.inj stepped
        have idle := isIdle_iff.mp may.1
        obtain ⟨distributor, gated, accounts⟩ := timed
        have outside : ¬(state.pcs thread).Distributes := by
          rw [idle]
          exact id
        refine ⟨distributor, gated.move ⟨False.elim, outside⟩, ?_⟩
        rw [current_goto_other (gated.outside outside)]
        exact { accounts with }
      · cases stepped
  | distribute thread now =>
      simp only [step] at stepped
      split at stepped
      · split at stepped
        · obtain rfl := Option.some.inj stepped
          exact timed
        · rename_i isOpen
          obtain rfl := Option.some.inj stepped
          obtain ⟨distributor, gated, accounts⟩ := timed
          obtain ⟨rfl, entered⟩ := @Gated.enter _ _ _ _ _ _ gated
            (Bool.eq_false_iff.mpr isOpen) thread (.distribute now) trivial
          refine ⟨some thread, entered, ?_⟩
          rw [current, goto_pcs_self]
          exact { accounts with }
      · cases stepped
  | advance thread top => exact advance_timed timed stepped
  | destroy owner =>
      obtain rfl := Option.some.inj stepped
      exact timed.destroy owner
  | jobs action =>
      simp only [step] at stepped
      split at stepped
      · obtain ⟨queues, moved, rfl⟩ := Option.map_eq_some_iff.mp stepped
        exact timed.setQueues moved
      · cases stepped

omit [DecidableEq Thread] in
theorem initial_timed : Timed (initial : JobTimer Thread Queue Job) := by
  refine ⟨none, ⟨fun _ => ⟨False.elim, nofun⟩, rfl⟩, ?_⟩
  exact
    { locked := iff_of_false Bool.false_ne_true id
      underWay := trivial
      conserved := List.Perm.refl _
      notEarly := nofun
      dropped := nofun
      rounds := nofun
      logged := rfl
      delivered := fun _ => List.nil_sublist _ }

/-- Whoever holds the lock can go on. -/
theorem popItems_advances {state : JobTimer Thread Queue Job}
    {thread : Thread} {round : Round Queue Job}
    {expiredItems : List (TimerItem Queue Job)}
    (at_ : state.pcs thread = .popItems round expiredItems) :
    ∃ top next, state.advance thread top = some next := by
  simp only [advance, at_, popItem]
  by_cases empty : state.items = []
  · exact ⟨0, _, if_pos empty⟩
  · have irreflexive : ∀ item : TimerItem Queue Job,
        item.less item = false :=
      fun _ => decide_eq_false (UInt64.lt_irrefl _)
    have transitive : ∀ {low middle high : TimerItem Queue Job},
        low.less middle = true → middle.less high = true →
        low.less high = true := by
      intro low middle high first second
      exact decide_eq_true (UInt64.lt_trans (of_decide_eq_true second)
        (of_decide_eq_true first))
    obtain ⟨top, item, found, isTop⟩ :=
      PriorityQueue.exists_isTop irreflexive transitive empty
    refine ⟨top, ?_⟩
    simp only [empty, if_false, found, isTop, Bool.true_eq_false]
    split <;> exact ⟨_, rfl⟩

end JobTimer

namespace Reservation

variable {Queue Job : Type}

/-- The deadline does not wrap around. -/
def Fits (reservation : Reservation Queue Job) : Prop :=
  reservation.tick.toNat + reservation.afterMs.toNat < 2 ^ 64

theorem Fits.executeTick {reservation : Reservation Queue Job}
    (fits : reservation.Fits) : reservation.item.executeTick.toNat =
      reservation.tick.toNat + reservation.afterMs.toNat := by
  change (reservation.tick + reservation.afterMs).toNat = _
  rw [UInt64.toNat_add]
  exact Nat.mod_eq_of_lt fits

end Reservation

namespace JobTimer

variable {Thread Queue Job : Type} [DecidableEq Thread] [DecidableEq Queue]

/-- The reservations that are made and about to be made have deadlines. -/
structure Fitting (state : JobTimer Thread Queue Job) : Prop where
  reserved : ∀ reservation ∈ state.reserved, reservation.Fits
  reserving : ∀ thread reservation,
    state.pcs thread = .reserve reservation → reservation.Fits

/-- Deadlines are `tick + afterMs`. -/
def DeadlineFits (_ : JobTimer Thread Queue Job) :
    TimerAction Thread Queue Job → Prop
  | .reserve _ reservation => reservation.Fits
  | _ => True

omit [DecidableEq Queue] in
theorem Fitting.goto {state : JobTimer Thread Queue Job}
    (fitting : Fitting state) {thread : Thread} {pc : TimerPc Queue Job}
    (fits : ∀ reservation, pc = .reserve reservation → reservation.Fits) :
    Fitting (state.goto thread pc) where
  reserved := fitting.reserved
  reserving := Threads.forall_update
    (fun (_ : Thread) (pc : TimerPc Queue Job) =>
      ∀ reservation, pc = .reserve reservation → reservation.Fits)
    fitting.reserving fits

theorem advance_fitting {state next : JobTimer Thread Queue Job}
    {thread : Thread} {top : Nat} (fitting : Fitting state)
    (stepped : state.advance thread top = some next) : Fitting next := by
  have moves : ∀ {shared : JobTimer Thread Queue Job}
      {pc : TimerPc Queue Job}, shared.reserved = state.reserved →
      shared.pcs = state.pcs → (∀ reservation, pc ≠ .reserve reservation) →
      Fitting (shared.goto thread pc) := by
    intro shared pc reserved pcs other
    apply Fitting.goto ⟨reserved ▸ fitting.reserved, pcs ▸ fitting.reserving⟩
    exact fun reservation same => absurd same (other reservation)
  revert stepped
  fun_cases advance state thread top with
  | case1 => exact nofun
  | case2 => exact nofun
  | case3 reservation at_ unlocked =>
      intro stepped
      obtain rfl := Option.some.inj stepped
      have reserves : Fitting (state.reserve reservation) := by
        refine ⟨?_, fitting.reserving⟩
        intro other member
        rcases List.mem_append.mp member with before | last
        · exact fitting.reserved other before
        · rw [List.mem_singleton.mp last]
          exact fitting.reserving thread reservation at_
      exact reserves.goto nofun
  | case4 => exact nofun
  | case5 =>
      intro stepped
      obtain rfl := Option.some.inj stepped
      exact moves rfl rfl nofun
  | case6 round expiredItems at_ =>
      intro stepped
      simp only [popItem] at stepped
      repeat' split at stepped
      all_goals cases stepped
      all_goals exact moves rfl rfl nofun
  | case7 =>
      intro stepped
      obtain ⟨queues, _, rfl⟩ := Option.map_eq_some_iff.mp stepped
      exact ⟨fitting.reserved, fitting.reserving⟩
  | case8 round expiredItems at_ =>
      fun_cases pushItem state thread round expiredItems with
      | case1 =>
          intro stepped
          obtain rfl := Option.some.inj stepped
          exact moves rfl rfl nofun
      | case2 =>
          intro stepped
          obtain rfl := Option.some.inj stepped
          exact moves rfl rfl nofun
      | case3 =>
          intro stepped
          obtain ⟨queues, _, rfl⟩ := Option.map_eq_some_iff.mp stepped
          exact moves rfl rfl nofun

theorem step_fitting {state next : JobTimer Thread Queue Job}
    {action : TimerAction Thread Queue Job} (fitting : Fitting state)
    (fits : DeadlineFits state action)
    (stepped : state.step action = some next) : Fitting next := by
  cases action with
  | reserve thread reservation =>
      simp only [step] at stepped
      split at stepped
      · obtain rfl := Option.some.inj stepped
        apply fitting.goto
        intro other same
        obtain rfl := TimerPc.reserve.inj same
        exact fits
      · cases stepped
  | distribute thread now =>
      simp only [step] at stepped
      split at stepped
      · split at stepped
        · obtain rfl := Option.some.inj stepped
          exact fitting
        · obtain rfl := Option.some.inj stepped
          have closed : Fitting { state with distributing := true } :=
            ⟨fitting.reserved, fitting.reserving⟩
          exact closed.goto nofun
      · cases stepped
  | advance thread top => exact advance_fitting fitting stepped
  | destroy owner =>
      obtain rfl := Option.some.inj stepped
      exact ⟨fitting.reserved, fitting.reserving⟩
  | jobs action =>
      simp only [step] at stepped
      split at stepped
      · obtain ⟨queues, _, rfl⟩ := Option.map_eq_some_iff.mp stepped
        exact ⟨fitting.reserved, fitting.reserving⟩
      · cases stepped

/-- What the timer promises. -/
structure TimerGuarantee (state : JobTimer Thread Queue Job) : Prop where
  conserved : ∃ inFlight, (state.distributing = false → inFlight = []) ∧
    (state.reserved.map Reservation.item).Perm (state.items ++ inFlight ++
      (state.pushed.map Prod.fst ++ state.dropped))
  atMostOnce : (state.pushed.map Prod.fst).Subperm
    (state.reserved.map Reservation.item)
  notEarly : ∀ entry ∈ state.pushed, ∃ reservation ∈ state.reserved,
    entry.1 = reservation.item ∧
      reservation.tick.toNat + reservation.afterMs.toNat ≤ entry.2.toNat
  gate : ∀ thread other, (state.pcs thread).Distributes →
    (state.pcs other).Distributes → thread = other
  rounds : ∀ round ∈ state.rounds, round.Correct state.destroyed
  logged : ∃ underWay, (state.distributing = false → underWay = []) ∧
    state.pushed = state.rounds.flatMap Round.log ++ underWay
  dropped : ∀ item ∈ state.dropped, item.owner ∈ state.destroyed
  delivered : ∀ owner,
    ((state.pushed.filter (·.1.owner = owner)).map (·.1.job)).Sublist
      ((state.queues.queues owner).called.map Prod.snd)

theorem reaches_timed {state : JobTimer Thread Queue Job}
    (reached : (machine Thread Queue Job).Reaches DeadlineFits state) :
    Timed state ∧ Fitting state := by
  apply Machine.Reaches.invariant _ _ reached
  · intro state initially
    obtain rfl : state = initial := initially
    exact ⟨initial_timed, ⟨nofun, nofun⟩⟩
  · intro state action next ⟨timed, fitting⟩ fits stepped
    exact ⟨step_timed timed stepped, step_fitting fitting fits stepped⟩

/-- Timers fire at most once, not early, in the order of their deadlines and
for every owner that still exists. -/
theorem reaches_timerGuarantee {state : JobTimer Thread Queue Job}
    (reached : (machine Thread Queue Job).Reaches DeadlineFits state) :
    TimerGuarantee state := by
  obtain ⟨⟨distributor, gated, accounts⟩, fitting⟩ := reaches_timed reached
  have nobody : state.distributing = false → distributor = none := by
    intro isOpen
    have gate := gated.gate
    rw [isOpen] at gate
    exact Option.isNone_iff_eq_none.mp (Option.isSome_eq_false_iff.mp gate.symm)
  refine
    { conserved := ⟨_, ?_, accounts.conserved⟩
      atMostOnce := ?_
      notEarly := ?_
      gate := ?_
      rounds := accounts.rounds
      logged := ⟨_, ?_, accounts.logged⟩
      dropped := accounts.dropped
      delivered := accounts.delivered }
  · intro isOpen
    rw [nobody isOpen]
    rfl
  · apply List.Subperm.trans _ accounts.conserved.symm.subperm
    apply List.Sublist.subperm
    exact (List.sublist_append_left ..).trans (List.sublist_append_right ..)
  · intro entry member
    have out : entry.1 ∈ state.items ++ (state.current distributor).inFlight ++
        (state.pushed.map Prod.fst ++ state.dropped) :=
      List.mem_append_right _ (List.mem_append_left _
        (List.mem_map_of_mem member))
    obtain ⟨reservation, reserved, same⟩ :=
      List.mem_map.mp (accounts.conserved.mem_iff.mpr out)
    refine ⟨reservation, reserved, same.symm, ?_⟩
    rw [← (fitting.reserved reservation reserved).executeTick, same]
    exact UInt64.le_iff_toNat_le.mp (accounts.notEarly entry member)
  · intro thread other inside otherInside
    have first := (gated.distributes thread).mp inside
    have second := (gated.distributes other).mp otherInside
    exact Option.some.inj (first.symm.trans second)
  · intro isOpen
    rw [nobody isOpen]
    rfl

def reservation (afterMs : UInt64) (owner : Bool) (job : Nat) :
    Reservation Bool Nat :=
  { tick := 0
    afterMs := afterMs
    owner := owner
    job := job }

/-- Two threads reserve four jobs, one of them for an owner that goes away.  One
thread distributes at tick 20 while the other gives up at the gate. -/
def fourTimers : List (TimerAction Bool Bool Nat) :=
  [.reserve true (reservation 20 true 1),
    .advance true 0,
    .reserve true (reservation 10 true 2),
    .advance true 0,
    .reserve false (reservation 30 true 3),
    .advance false 0,
    .reserve false (reservation 5 false 4),
    .advance false 0,
    .destroy false,
    .distribute true 20,
    .distribute false 100,
    .advance true 0,
    .advance true 3,
    .advance true 1,
    .advance true 0] ++
    List.replicate 8 (.advance true 0)

theorem fourTimers_timerGuarantee :
    ∃ state, (machine Bool Bool Nat).run initial fourTimers = some state ∧
      state.pushed.map (·.1.job) = [2, 1] ∧
      state.dropped.map (·.job) = [4] ∧ state.items.map (·.job) = [3] ∧
      state.rounds.length = 1 ∧ TimerGuarantee state := by
  have meets : ∀ action ∈ fourTimers, ∀ state : JobTimer Bool Bool Nat,
      DeadlineFits state action := by
    simp [fourTimers, DeadlineFits, Reservation.Fits, reservation]
  obtain ⟨state, replayed⟩ : ∃ state,
      (machine Bool Bool Nat).run initial fourTimers = some state :=
    Option.isSome_iff_exists.mp (by decide +kernel)
  have view : (state.pushed.map (·.1.job), state.dropped.map (·.job),
      state.items.map (·.job), state.rounds.length) =
      ([2, 1], [4], [3], 1) := by
    apply Machine.view_of_run replayed
    decide +kernel
  simp only [Prod.mk.injEq] at view
  obtain ⟨pushed, dropped, waiting, rounds⟩ := view
  exact ⟨state, replayed, pushed, dropped, waiting, rounds,
    reaches_timerGuarantee (Machine.Reaches.of_run (.start rfl)
      (Machine.RunMeets.of_forall meets) replayed)⟩

end JobTimer

end IocpChat
