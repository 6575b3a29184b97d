import Mathlib.Data.List.Nodup
import Mathlib.Logic.Function.Basic

/-!
# Items in places

A file lists the items of every place.  Where no item stands in it twice, an
item can leave its place, enter a place, or do both and move, and still no item
stands in it twice.
-/

namespace Filing

variable {Place : Type u} {Item : Type v}

/-- No item is listed twice, neither in one place nor in two. -/
structure Exclusive (file : Place → List Item) : Prop where
  nodup : ∀ place, (file place).Nodup
  unique : ∀ {first second item}, item ∈ file first → item ∈ file second →
    first = second

def Filed (file : Place → List Item) (item : Item) : Prop :=
  ∃ place, item ∈ file place

theorem Exclusive.existsUnique {file : Place → List Item}
    (exclusive : Exclusive file) {item : Item} (filed : Filed file item) :
    ∃! place, item ∈ file place := by
  obtain ⟨place, member⟩ := filed
  exact ⟨place, member, fun other found => exclusive.unique found member⟩

variable [DecidableEq Place] {file : Place → List Item}

theorem mem_update_self {place : Place} {list : List Item} {item : Item} :
    item ∈ Function.update file place list place ↔ item ∈ list := by
  rw [Function.update_self]

theorem mem_update_other {place other : Place} (different : other ≠ place)
    {list : List Item} {item : Item} :
    item ∈ Function.update file place list other ↔ item ∈ file other := by
  rw [Function.update_of_ne different]

section Leave

variable {source : Place} {item : Item} {rest : List Item}

theorem mem_of_mem_leave (leaves : (file source).Perm (item :: rest))
    {place : Place} {other : Item}
    (member : other ∈ Function.update file source rest place) :
    other ∈ file place := by
  by_cases here : place = source
  · subst here
    rw [mem_update_self] at member
    exact leaves.mem_iff.mpr (List.mem_cons_of_mem _ member)
  · exact (mem_update_other here).mp member

theorem Exclusive.leave (exclusive : Exclusive file)
    (leaves : (file source).Perm (item :: rest)) :
    Exclusive (Function.update file source rest) where
  nodup := by
    intro place
    by_cases here : place = source
    · subst here
      rw [Function.update_self]
      exact (leaves.nodup_iff.mp (exclusive.nodup place)).of_cons
    · rw [Function.update_of_ne here]
      exact exclusive.nodup place
  unique := by
    intro first second other inFirst inSecond
    apply exclusive.unique
    · exact mem_of_mem_leave leaves inFirst
    · exact mem_of_mem_leave leaves inSecond

/-- The others stay filed. -/
theorem Exclusive.filed_leave_iff (exclusive : Exclusive file)
    (leaves : (file source).Perm (item :: rest)) {other : Item} :
    Filed (Function.update file source rest) other ↔
      other ≠ item ∧ Filed file other := by
  constructor
  · intro ⟨place, member⟩
    refine ⟨?_, place, mem_of_mem_leave leaves member⟩
    intro same
    subst same
    have inSource : other ∈ file source :=
      leaves.mem_iff.mpr (List.mem_cons_self ..)
    obtain rfl :=
      exclusive.unique (mem_of_mem_leave leaves member) inSource
    rw [mem_update_self] at member
    have distinct := leaves.nodup_iff.mp (exclusive.nodup place)
    exact distinct.notMem member
  · intro ⟨different, place, member⟩
    by_cases here : place = source
    · subst here
      refine ⟨place, mem_update_self.mpr ?_⟩
      exact List.mem_of_ne_of_mem different (leaves.mem_iff.mp member)
    · exact ⟨place, (mem_update_other here).mpr member⟩

end Leave

section Enter

variable {target : Place} {item : Item} {list : List Item}

theorem Exclusive.enter (exclusive : Exclusive file)
    (absent : ¬Filed file item) (enters : list.Perm (item :: file target)) :
    Exclusive (Function.update file target list) where
  nodup := by
    intro place
    by_cases here : place = target
    · subst here
      rw [Function.update_self]
      apply enters.nodup_iff.mpr
      exact (exclusive.nodup place).cons fun member => absent ⟨place, member⟩
    · rw [Function.update_of_ne here]
      exact exclusive.nodup place
  unique := by
    have found : ∀ {place other},
        other ∈ Function.update file target list place →
        other = item ∧ place = target ∨ other ∈ file place := by
      intro place other member
      by_cases here : place = target
      · subst here
        rw [mem_update_self, enters.mem_iff, List.mem_cons] at member
        exact member.imp_left fun same => ⟨same, rfl⟩
      · exact Or.inr ((mem_update_other here).mp member)
    intro first second other inFirst inSecond
    rcases found inFirst with ⟨rfl, rfl⟩ | oldFirst
    · rcases found inSecond with ⟨_, rfl⟩ | oldSecond
      · rfl
      · exact absurd ⟨second, oldSecond⟩ absent
    · rcases found inSecond with ⟨rfl, rfl⟩ | oldSecond
      · exact absurd ⟨first, oldFirst⟩ absent
      · exact exclusive.unique oldFirst oldSecond

theorem filed_enter_iff (enters : list.Perm (item :: file target))
    {other : Item} :
    Filed (Function.update file target list) other ↔
      other = item ∨ Filed file other := by
  constructor
  · intro ⟨place, member⟩
    by_cases here : place = target
    · subst here
      rw [mem_update_self, enters.mem_iff, List.mem_cons] at member
      exact member.imp_right fun old => ⟨place, old⟩
    · exact Or.inr ⟨place, (mem_update_other here).mp member⟩
  · intro either
    have entered : ∀ {candidate}, candidate ∈ item :: file target →
        candidate ∈ Function.update file target list target :=
      fun member => mem_update_self.mpr (enters.mem_iff.mpr member)
    rcases either with rfl | ⟨place, member⟩
    · exact ⟨target, entered (List.mem_cons_self ..)⟩
    · by_cases here : place = target
      · subst here
        exact ⟨place, entered (List.mem_cons_of_mem _ member)⟩
      · exact ⟨place, (mem_update_other here).mpr member⟩

end Enter

section Move

variable {source target : Place} {item : Item} {rest list : List Item}

/-- An item leaves one place and enters another. -/
theorem Exclusive.move (exclusive : Exclusive file)
    (different : source ≠ target)
    (leaves : (file source).Perm (item :: rest))
    (enters : list.Perm (item :: file target)) :
    Exclusive
        (Function.update (Function.update file source rest) target list) ∧
      ∀ other, Filed
          (Function.update (Function.update file source rest) target list)
          other ↔ Filed file other := by
  have gone : ¬Filed (Function.update file source rest) item := by
    intro filed
    exact ((exclusive.filed_leave_iff leaves).mp filed).1 rfl
  have same : Function.update file source rest target = file target :=
    Function.update_of_ne (Ne.symm different) ..
  rw [← same] at enters
  refine ⟨(exclusive.leave leaves).enter gone enters, fun other => ?_⟩
  rw [filed_enter_iff enters, exclusive.filed_leave_iff leaves]
  constructor
  · intro either
    rcases either with rfl | ⟨_, filed⟩
    · exact ⟨source, leaves.mem_iff.mpr (List.mem_cons_self ..)⟩
    · exact filed
  · intro filed
    by_cases isItem : other = item
    · exact Or.inl isItem
    · exact Or.inr ⟨isItem, filed⟩

end Move

end Filing
