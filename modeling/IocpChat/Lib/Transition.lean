import Mathlib.Logic.Function.Basic

/-!
# Executable transition systems

A machine is a partial step function: an action that is not enabled has no
successor.  All nondeterminism lives in the action, so a run is a list of
actions and can be replayed.  `Reaches guard` collects the states reached by
runs whose every step meets `guard`; `Reachable` drops the guard.
-/

namespace TransitionSystem

/-- Initial states and an executable step. -/
structure Machine (State : Type u) (Action : Type v) where
  initial : State → Prop
  step : State → Action → Option State

namespace Machine

variable {State : Type u} {Action : Type v}

/-- Replay a list of actions, stopping at the first one that is not enabled. -/
def run (machine : Machine State Action) : State → List Action → Option State
  | state, [] => some state
  | state, action :: rest =>
      (machine.step state action).bind fun next => machine.run next rest

/-- The states reached by runs whose every step meets `guard` in the state it
starts from. -/
inductive Reaches (machine : Machine State Action)
    (guard : State → Action → Prop) : State → Prop where
  | start {state : State} :
      machine.initial state → Reaches machine guard state
  | step {state next : State} {action : Action} :
      Reaches machine guard state → guard state action →
      machine.step state action = some next →
      Reaches machine guard next

/-- The states of unrestricted runs. -/
def Reachable (machine : Machine State Action) : State → Prop :=
  machine.Reaches fun _ _ => True

/-- An invariant only has to hold initially and survive one guarded step. -/
theorem Reaches.invariant {machine : Machine State Action}
    {guard : State → Action → Prop} {invariant : State → Prop}
    (initially : ∀ state, machine.initial state → invariant state)
    (preserved : ∀ state action next, invariant state → guard state action →
      machine.step state action = some next → invariant next)
    {state : State} (reached : machine.Reaches guard state) :
    invariant state := by
  induction reached with
  | start initial => exact initially _ initial
  | step _ permitted stepped induction =>
      exact preserved _ _ _ induction permitted stepped

/-- A weaker guard permits more runs. -/
theorem Reaches.mono {machine : Machine State Action}
    {strong weak : State → Action → Prop}
    (weaker : ∀ state action, strong state action → weak state action)
    {state : State} (reached : machine.Reaches strong state) :
    machine.Reaches weak state := by
  induction reached with
  | start initial => exact .start initial
  | step _ permitted stepped induction =>
      exact .step induction (weaker _ _ permitted) stepped

theorem Reaches.reachable {machine : Machine State Action}
    {guard : State → Action → Prop} {state : State}
    (reached : machine.Reaches guard state) : machine.Reachable state :=
  reached.mono fun _ _ _ => trivial

/-- Unrestricted version of `Reaches.invariant`. -/
theorem Reachable.invariant {machine : Machine State Action}
    {invariant : State → Prop}
    (initially : ∀ state, machine.initial state → invariant state)
    (preserved : ∀ state action next, invariant state →
      machine.step state action = some next → invariant next)
    {state : State} (reached : machine.Reachable state) :
    invariant state :=
  Reaches.invariant initially
    (fun state action next holds _ stepped =>
      preserved state action next holds stepped) reached

/-- Every action of the list meets the guard where the replay takes it. -/
def RunMeets (machine : Machine State Action)
    (guard : State → Action → Prop) : State → List Action → Prop
  | _, [] => True
  | state, action :: rest =>
      guard state action ∧
        ∀ next ∈ machine.step state action, machine.RunMeets guard next rest

theorem runMeets_cons {machine : Machine State Action}
    {guard : State → Action → Prop} {state next : State} {action : Action}
    {rest : List Action} (stepped : machine.step state action = some next) :
    machine.RunMeets guard state (action :: rest) ↔
      guard state action ∧ machine.RunMeets guard next rest := by
  simp only [RunMeets, stepped, Option.mem_some, forall_eq']

instance RunMeets.decidable {machine : Machine State Action}
    {guard : State → Action → Prop}
    [decides : ∀ state action, Decidable (guard state action)] :
    ∀ state actions, Decidable (machine.RunMeets guard state actions)
  | _, [] => .isTrue trivial
  | state, action :: rest =>
      have : DecidablePred fun next => machine.RunMeets guard next rest :=
        fun next => RunMeets.decidable next rest
      inferInstanceAs (Decidable (guard state action ∧
        ∀ next ∈ machine.step state action, machine.RunMeets guard next rest))

/-- A guard that looks only at the action is met wherever the replay goes. -/
theorem RunMeets.of_forall {machine : Machine State Action}
    {guard : State → Action → Prop} {state : State} {actions : List Action}
    (meets : ∀ action ∈ actions, ∀ state, guard state action) :
    machine.RunMeets guard state actions := by
  induction actions generalizing state with
  | nil => trivial
  | cons action rest induction =>
      refine ⟨meets action (List.mem_cons_self ..) state, fun next _ => ?_⟩
      apply induction
      exact fun other member => meets other (List.mem_cons_of_mem _ member)

theorem run_invariant {machine : Machine State Action}
    {invariant : State → Prop}
    (preserved : ∀ {state action next}, invariant state →
      machine.step state action = some next → invariant next)
    {state final : State} {actions : List Action} (holds : invariant state)
    (replayed : machine.run state actions = some final) :
    invariant final := by
  induction actions generalizing state with
  | nil =>
      cases replayed
      exact holds
  | cons action rest induction =>
      simp only [run, Option.bind_eq_some_iff] at replayed
      obtain ⟨next, stepped, restReplayed⟩ := replayed
      exact induction (preserved holds stepped) restReplayed

/-- The actions of a run are those of a list that holds them all. -/
theorem run_invariant_of_mem {machine : Machine State Action}
    {invariant : State → Prop} {permitted : List Action}
    (preserved : ∀ {state action next}, invariant state →
      action ∈ permitted → machine.step state action = some next →
      invariant next)
    {state final : State} {actions : List Action} (holds : invariant state)
    (subset : actions ⊆ permitted)
    (replayed : machine.run state actions = some final) :
    invariant final := by
  induction actions generalizing state with
  | nil =>
      cases replayed
      exact holds
  | cons action rest induction =>
      simp only [run, Option.bind_eq_some_iff] at replayed
      obtain ⟨next, stepped, restReplayed⟩ := replayed
      obtain ⟨member, restSubset⟩ := List.cons_subset.mp subset
      exact induction (preserved holds member stepped) restSubset restReplayed

/-- Where every action of a kind uses up some work, a run of such actions is
bounded by the work there is. -/
theorem run_length_le {machine : Machine State Action} {work : State → Nat}
    {kind : Action → Prop}
    (decreases : ∀ {state action next}, kind action →
      machine.step state action = some next → work next < work state)
    {state final : State} {actions : List Action}
    (all : ∀ action ∈ actions, kind action)
    (replayed : machine.run state actions = some final) :
    actions.length ≤ work state := by
  induction actions generalizing state with
  | nil => exact Nat.zero_le _
  | cons action rest induction =>
      simp only [run, Option.bind_eq_some_iff] at replayed
      obtain ⟨next, stepped, restReplayed⟩ := replayed
      obtain ⟨first, others⟩ := List.forall_mem_cons.mp all
      calc
        rest.length + 1 ≤ work next + 1 :=
          Nat.succ_le_succ (induction others restReplayed)
        _ ≤ work state := decreases first stepped

theorem RunMeets.and {machine : Machine State Action}
    {first second : State → Action → Prop} {state : State}
    {actions : List Action} (meetsFirst : machine.RunMeets first state actions)
    (meetsSecond : machine.RunMeets second state actions) :
    machine.RunMeets (fun state action => first state action ∧
      second state action) state actions := by
  induction actions generalizing state with
  | nil => trivial
  | cons action rest induction =>
      refine ⟨⟨meetsFirst.1, meetsSecond.1⟩, fun next stepped => ?_⟩
      exact induction (meetsFirst.2 next stepped)
        (meetsSecond.2 next stepped)

/-- Where every guarded step uses up some of the effort that is left, a run is
bounded by the effort, and its end has some effort again. -/
theorem run_effort {machine : Machine State Action}
    {guard : State → Action → Prop} {effort : State → Nat → Prop}
    (decreases : ∀ {state left action next}, effort state left →
      guard state action → machine.step state action = some next →
      ∃ less, less < left ∧ effort next less)
    {state final : State} {left : Nat} {actions : List Action}
    (holds : effort state left) (meets : machine.RunMeets guard state actions)
    (replayed : machine.run state actions = some final) :
    ∃ rest, actions.length + rest ≤ left ∧ effort final rest := by
  induction actions generalizing state left with
  | nil =>
      cases replayed
      exact ⟨left, Nat.le_of_eq (Nat.zero_add left), holds⟩
  | cons action others induction =>
      simp only [run, Option.bind_eq_some_iff] at replayed
      obtain ⟨next, stepped, othersReplayed⟩ := replayed
      obtain ⟨permitted, othersMeet⟩ := (runMeets_cons stepped).mp meets
      obtain ⟨less, fewer, nextHolds⟩ := decreases holds permitted stepped
      obtain ⟨rest, bound, finalHolds⟩ :=
        induction nextHolds othersMeet othersReplayed
      refine ⟨rest, ?_, finalHolds⟩
      rw [List.length_cons]
      omega

/-- Where a step keeps `good` exactly if it meets the guard, a run does. -/
theorem run_iff_runMeets {machine : Machine State Action}
    {guard : State → Action → Prop} {invariant good : State → Prop}
    (preserved : ∀ {state action next}, invariant state →
      machine.step state action = some next → invariant next)
    (exactly : ∀ {state action next}, invariant state →
      machine.step state action = some next →
      (good next ↔ good state ∧ guard state action))
    {state final : State} {actions : List Action} (holds : invariant state)
    (replayed : machine.run state actions = some final) :
    good final ↔ good state ∧ machine.RunMeets guard state actions := by
  induction actions generalizing state with
  | nil =>
      cases replayed
      exact (and_iff_left trivial).symm
  | cons action rest induction =>
      simp only [run, Option.bind_eq_some_iff] at replayed
      obtain ⟨next, stepped, restReplayed⟩ := replayed
      rw [induction (preserved holds stepped) restReplayed,
        runMeets_cons stepped, exactly holds stepped, and_assoc]

/-- Where a step from a good state leads to a good state exactly if it meets the
guard, a replay meets the guard exactly if all its states are good. -/
theorem runMeets_iff_always {machine : Machine State Action}
    {guard : State → Action → Prop} {good : State → Prop}
    (exactly : ∀ {state action next}, good state →
      machine.step state action = some next →
      (good next ↔ guard state action))
    {state final : State} {actions : List Action} (holds : good state)
    (replayed : machine.run state actions = some final) :
    machine.RunMeets guard state actions ↔
      ∀ before, before <+: actions → ∀ reached,
        machine.run state before = some reached → good reached := by
  induction actions generalizing state with
  | nil =>
      apply iff_of_true trivial
      intro before isPrefix reached earlier
      rw [List.prefix_nil.mp isPrefix] at earlier
      cases earlier
      exact holds
  | cons action rest induction =>
      simp only [run, Option.bind_eq_some_iff] at replayed
      obtain ⟨next, stepped, restReplayed⟩ := replayed
      have onwards : ∀ before, machine.run state (action :: before) =
          machine.run next before := by
        intro before
        rw [run, stepped, Option.bind_some]
      rw [runMeets_cons stepped, ← exactly holds stepped]
      constructor
      · intro meets before isPrefix reached earlier
        obtain ⟨nextGood, restMeets⟩ := meets
        cases before with
        | nil =>
            cases earlier
            exact holds
        | cons first before =>
            obtain ⟨rfl, restPrefix⟩ := List.cons_prefix_cons.mp isPrefix
            rw [onwards] at earlier
            exact (induction nextGood restReplayed).mp restMeets before
              restPrefix reached earlier
      · intro always
        have nextGood : good next :=
          always [action] (List.prefix_append [action] rest) next (onwards [])
        refine ⟨nextGood, (induction nextGood restReplayed).mpr ?_⟩
        intro before isPrefix reached earlier
        apply always (action :: before)
        · exact List.cons_prefix_cons.mpr ⟨rfl, isPrefix⟩
        · rw [onwards]
          exact earlier

/-- Steps into states that are not visible keep `good`, so it is enough to look
at the visible ones. -/
theorem always_of_visible {machine : Machine State Action}
    {good visible : State → Prop}
    (hidden : ∀ {state action next}, good state →
      machine.step state action = some next → ¬visible next → good next)
    {state reached : State} {actions before : List Action}
    (holds : good state)
    (seen : ∀ before, before <+: actions → ∀ reached,
      machine.run state before = some reached → visible reached →
        good reached)
    (isPrefix : before <+: actions)
    (earlier : machine.run state before = some reached) : good reached := by
  induction before generalizing state actions with
  | nil =>
      cases earlier
      exact holds
  | cons action rest induction =>
      obtain ⟨suffix, rfl⟩ := isPrefix
      simp only [run, Option.bind_eq_some_iff] at earlier
      obtain ⟨next, stepped, restEarlier⟩ := earlier
      have onwards : ∀ before, machine.run state (action :: before) =
          machine.run next before := by
        intro before
        rw [run, stepped, Option.bind_some]
      have nextGood : good next := by
        by_cases visible_ : visible next
        · exact seen [action] (List.prefix_append [action] (rest ++ suffix))
            next (onwards []) visible_
        · exact hidden holds stepped visible_
      apply induction nextGood _ (List.prefix_append rest suffix) restEarlier
      intro before isPrefix reached replayed
      apply seen (action :: before)
      · exact List.cons_prefix_cons.mpr ⟨rfl, isPrefix⟩
      · rw [onwards]
        exact replayed

/-- A replay whose steps meet the guard keeps what such steps keep. -/
theorem run_guarded_invariant {machine : Machine State Action}
    {guard : State → Action → Prop} {invariant : State → Prop}
    (preserved : ∀ {state action next}, invariant state →
      guard state action → machine.step state action = some next →
      invariant next)
    {state final : State} {actions : List Action} (holds : invariant state)
    (meets : machine.RunMeets guard state actions)
    (replayed : machine.run state actions = some final) :
    invariant final := by
  induction actions generalizing state with
  | nil =>
      cases replayed
      exact holds
  | cons action rest induction =>
      simp only [run, Option.bind_eq_some_iff] at replayed
      obtain ⟨next, stepped, restReplayed⟩ := replayed
      obtain ⟨permitted, restMeets⟩ := (runMeets_cons stepped).mp meets
      exact induction (preserved holds permitted stepped) restMeets
        restReplayed

theorem run_append {machine : Machine State Action} {state between : State}
    {before after : List Action}
    (replayed : machine.run state before = some between) :
    machine.run state (before ++ after) = machine.run between after := by
  induction before generalizing state with
  | nil =>
      cases replayed
      rfl
  | cons action rest induction =>
      simp only [run, Option.bind_eq_some_iff] at replayed
      obtain ⟨next, stepped, restReplayed⟩ := replayed
      rw [List.cons_append, run, stepped]
      exact induction restReplayed

/-- A replay of a list starts with a replay of each of its prefixes. -/
theorem runMeets_append {machine : Machine State Action}
    {guard : State → Action → Prop} {state between : State}
    {before after : List Action}
    (replayed : machine.run state before = some between) :
    machine.RunMeets guard state (before ++ after) ↔
      machine.RunMeets guard state before ∧
        machine.RunMeets guard between after := by
  induction before generalizing state with
  | nil =>
      cases replayed
      exact (and_iff_right trivial).symm
  | cons action rest induction =>
      simp only [run, Option.bind_eq_some_iff] at replayed
      obtain ⟨next, stepped, restReplayed⟩ := replayed
      rw [List.cons_append, runMeets_cons stepped, runMeets_cons stepped,
        induction restReplayed, and_assoc]

/-- Where a step meets the guard exactly if it leads to a good state that is
`later` than the one before, a replay meets the guard exactly if all its states
are good and each is later than those before it. -/
theorem runMeets_iff_ordered {machine : Machine State Action}
    {guard : State → Action → Prop} {invariant good : State → Prop}
    {later : State → State → Prop} (reflexive : ∀ state, later state state)
    (transitive : ∀ {first second third}, later first second →
      later second third → later first third)
    (shows : ∀ {state}, invariant state → good state)
    (preserved : ∀ {state action next}, invariant state →
      guard state action → machine.step state action = some next →
      invariant next ∧ later state next)
    (needed : ∀ {state action next}, invariant state →
      machine.step state action = some next → good next → later state next →
      guard state action)
    {state final : State} {actions : List Action} (holds : invariant state)
    (replayed : machine.run state actions = some final) :
    machine.RunMeets guard state actions ↔
      ∀ before between, before ++ between <+: actions → ∀ first second,
        machine.run state before = some first →
        machine.run first between = some second →
          good second ∧ later first second := by
  constructor
  · intro meets before between isPrefix first second toFirst toSecond
    obtain ⟨after, rfl⟩ := isPrefix
    rw [List.append_assoc] at meets
    obtain ⟨meetsBefore, meetsRest⟩ := (runMeets_append toFirst).mp meets
    have meetsBetween := ((runMeets_append toSecond).mp meetsRest).1
    have firstHolds : invariant first :=
      run_guarded_invariant
        (fun holds permitted stepped =>
          (preserved holds permitted stepped).1)
        holds meetsBefore toFirst
    have both : invariant second ∧ later first second := by
      apply @run_guarded_invariant _ _ machine guard
        (fun state => invariant state ∧ later first state) _ _ _ _
        ⟨firstHolds, reflexive first⟩ meetsBetween toSecond
      intro state action next holds permitted stepped
      have after := preserved holds.1 permitted stepped
      exact ⟨after.1, transitive holds.2 after.2⟩
    exact ⟨shows both.1, both.2⟩
  · intro ordered
    induction actions generalizing state with
    | nil => trivial
    | cons action rest induction =>
        simp only [run, Option.bind_eq_some_iff] at replayed
        obtain ⟨next, stepped, restReplayed⟩ := replayed
        have onwards : ∀ before, machine.run state (action :: before) =
            machine.run next before := by
          intro before
          rw [run, stepped, Option.bind_some]
        have nextOrdered : good next ∧ later state next :=
          ordered [] [action] (List.prefix_append [action] rest) state next
            rfl (onwards [])
        have permitted : guard state action :=
          needed holds stepped nextOrdered.1 nextOrdered.2
        apply (runMeets_cons stepped).mpr
        refine ⟨permitted, ?_⟩
        apply induction (preserved holds permitted stepped).1 restReplayed
        intro before between isPrefix first second toFirst toSecond
        apply ordered (action :: before) between
        · exact List.cons_prefix_cons.mpr ⟨rfl, isPrefix⟩
        · exact (onwards before).trans toFirst
        · exact toSecond

/-- A replay that meets the guard extends a guarded run. -/
theorem Reaches.of_run {machine : Machine State Action}
    {guard : State → Action → Prop} {state final : State}
    {actions : List Action} (reached : machine.Reaches guard state)
    (meets : machine.RunMeets guard state actions)
    (replayed : machine.run state actions = some final) :
    machine.Reaches guard final := by
  induction actions generalizing state with
  | nil =>
      simp only [run, Option.some.injEq] at replayed
      exact replayed ▸ reached
  | cons action rest induction =>
      obtain ⟨permitted, restMeets⟩ := meets
      simp only [run, Option.bind_eq_some_iff] at replayed
      obtain ⟨next, stepped, restReplayed⟩ := replayed
      exact induction (.step reached permitted stepped)
        (restMeets next stepped) restReplayed

theorem Reachable.of_run {machine : Machine State Action}
    {state final : State} {actions : List Action}
    (reached : machine.Reachable state)
    (replayed : machine.run state actions = some final) :
    machine.Reachable final := by
  refine Reaches.of_run reached ?_ replayed
  clear replayed
  induction actions generalizing state with
  | nil => trivial
  | cons action rest induction =>
      exact ⟨trivial, fun next stepped =>
        induction (.step reached trivial stepped)⟩

/-- What a replay computes holds of the state it ends in. -/
theorem view_of_run {machine : Machine State Action} {start final : State}
    {actions : List Action} {View : Type w} {view : State → View}
    {value : View} (replayed : machine.run start actions = some final)
    (computed : (machine.run start actions).map view = some value) :
    view final = value := by
  rw [replayed] at computed
  exact Option.some.inj computed

/-- The machine with a history of the run beside its state. -/
def recording (machine : Machine State Action) {History : Type w}
    (start : History) (record : State → Action → History → History) :
    Machine (State × History) Action where
  initial pair := machine.initial pair.1 ∧ pair.2 = start
  step pair action :=
    (machine.step pair.1 action).map fun next =>
      (next, record pair.1 action pair.2)

theorem recording_step_eq_some_iff {machine : Machine State Action}
    {History : Type w} {start : History}
    {record : State → Action → History → History} {state next : State}
    {history nextHistory : History} {action : Action} :
    (machine.recording start record).step (state, history) action =
        some (next, nextHistory) ↔
      machine.step state action = some next ∧
        record state action history = nextHistory := by
  simp only [recording, Option.map_eq_some_iff, Prod.mk.injEq]
  constructor
  · rintro ⟨_, stepped, rfl, same⟩
    exact ⟨stepped, same⟩
  · rintro ⟨stepped, same⟩
    exact ⟨next, stepped, rfl, same⟩

end Machine

end TransitionSystem
