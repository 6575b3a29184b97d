import Mathlib.Data.List.Basic
import Mathlib.Data.List.Perm.Basic

/-!
# Draining a priority queue

A priority queue is the list of its items; which of them comes out is any one
that no other is greater than.  `Drained` is what a loop of pops leaves: items
that came out in order, and nothing above them among the rest.
-/

namespace PriorityQueue

variable {Item : Type u} {less : Item → Item → Bool}

/-- The item may be on top: nothing is greater. -/
def isTop (less : Item → Item → Bool) (items : List Item) (item : Item) :
    Bool :=
  items.all fun other => !less item other

theorem isTop_iff {items : List Item} {item : Item} :
    isTop less items item = true ↔
      ∀ other ∈ items, less item other = false := by
  simp only [isTop, List.all_eq_true, Bool.not_eq_true']

/-- Among any items, one may be on top. -/
theorem exists_isTop (irreflexive : ∀ item, less item item = false)
    (transitive : ∀ {low middle high}, less low middle = true →
      less middle high = true → less low high = true)
    {items : List Item} (nonempty : items ≠ []) :
    ∃ (index : Nat) (item : Item), items[index]? = some item ∧
      isTop less items item = true := by
  induction items with
  | nil => exact absurd rfl nonempty
  | cons first rest induction =>
      by_cases firstTop : isTop less (first :: rest) first = true
      · exact ⟨0, first, rfl, firstTop⟩
      have some_ : rest ≠ [] := by
        intro none_
        subst none_
        apply firstTop
        simp [isTop, irreflexive]
      obtain ⟨index, item, found, top⟩ := induction some_
      rw [isTop_iff] at top
      by_cases below : less item first = true
      · -- `first` is then on top itself
        exfalso
        apply firstTop
        rw [isTop_iff]
        intro other member
        rcases List.mem_cons.mp member with rfl | member
        · exact irreflexive _
        · cases above : less first other with
          | false => rfl
          | true =>
              have higher := transitive below above
              rw [top other member] at higher
              cases higher
      · refine ⟨index + 1, item, found, ?_⟩
        rw [isTop_iff]
        intro other member
        rcases List.mem_cons.mp member with rfl | member
        · exact Bool.eq_false_iff.mpr below
        · exact top other member

/-- What came out, in order, and what is left. -/
structure Drained (less : Item → Item → Bool) (popped rest : List Item) :
    Prop where
  ordered : popped.Pairwise fun earlier later => less earlier later = false
  above : ∀ item ∈ popped, ∀ other ∈ rest, less item other = false

theorem Drained.start (items : List Item) : Drained less [] items :=
  ⟨List.Pairwise.nil, nofun⟩

/-- The top comes out behind what is out already. -/
theorem Drained.pop {popped rest : List Item} {item : Item} {index : Nat}
    (drained : Drained less popped rest) (found : rest[index]? = some item)
    (top : isTop less rest item = true) :
    Drained less (popped ++ [item]) (rest.eraseIdx index) := by
  have member : item ∈ rest := List.mem_of_getElem? found
  constructor
  · rw [List.pairwise_append]
    refine ⟨drained.ordered, List.pairwise_singleton _ _, ?_⟩
    intro earlier out later last
    rw [List.mem_singleton.mp last]
    exact drained.above earlier out item member
  · intro other out later left
    have still : later ∈ rest := List.mem_of_mem_eraseIdx left
    rcases List.mem_append.mp out with before | last
    · exact drained.above other before later still
    · rw [List.mem_singleton.mp last]
      exact isTop_iff.mp top later still

/-- Popping moves the item from one list to the other. -/
theorem perm_pop {popped rest : List Item} {item : Item} {index : Nat}
    (found : rest[index]? = some item) :
    ((popped ++ [item]) ++ rest.eraseIdx index).Perm (popped ++ rest) := by
  obtain ⟨within, rfl⟩ := List.getElem?_eq_some_iff.mp found
  rw [List.append_assoc]
  exact (List.getElem_cons_eraseIdx_perm within).append_left popped

/-- A list that is split by a test consists of what passes and what does
not. -/
theorem perm_filter_of_split {test : Item → Bool}
    {passing failing items : List Item}
    (split : (passing ++ failing).Perm items)
    (passes : ∀ item ∈ passing, test item = true)
    (fails : ∀ item ∈ failing, test item = false) :
    passing.Perm (items.filter test) ∧
      failing.Perm (items.filter fun item => !test item) := by
  have none_ : failing.filter test = [] := by
    rw [List.filter_eq_nil_iff]
    intro item member
    rw [fails item member]
    exact Bool.false_ne_true
  have all : failing.filter (fun item => !test item) = failing := by
    rw [List.filter_eq_self]
    intro item member
    rw [fails item member]
    rfl
  have nothing : passing.filter (fun item => !test item) = [] := by
    rw [List.filter_eq_nil_iff]
    intro item member
    rw [passes item member]
    exact Bool.false_ne_true
  constructor
  · have parts := split.filter test
    rwa [List.filter_append, List.filter_eq_self.mpr passes, none_,
      List.append_nil] at parts
  · have parts := split.filter fun item => !test item
    rwa [List.filter_append, nothing, all, List.nil_append] at parts

end PriorityQueue
