import Mathlib.Algebra.BigOperators.Group.List.Basic
import Mathlib.Algebra.GroupWithZero.Nat
import Mathlib.Order.Lattice
import Mathlib.Order.Monotone.Defs

/-!
# Order statistics of a histogram

A histogram has lost the order of its samples.  Its running sums still find the
cell of the sample of any rank: they count the samples that are not above the
cell, and in a sorted list those are the first ones.
-/

namespace OrderStatistics

variable {Sample : Type u} {Cell : Type v}

section Sorted

variable [Preorder Sample] {sorted : List Sample}

/-- Of a sorted list a downward closed predicate holds as far as it counts. -/
theorem getElem_iff_lt_countP (ordered : sorted.Pairwise (· ≤ ·))
    {holds : Sample → Bool}
    (downward : ∀ {low high}, low ≤ high → holds high → holds low)
    {position : Nat} (within : position < sorted.length) :
    holds sorted[position] ↔ position < sorted.countP holds := by
  induction sorted generalizing position with
  | nil => cases within
  | cons least rest induction =>
      obtain ⟨first, restOrdered⟩ := List.pairwise_cons.mp ordered
      by_cases leastHolds : holds least
      · rw [List.countP_cons_of_pos leastHolds]
        cases position with
        | zero => exact iff_of_true leastHolds (Nat.succ_pos _)
        | succ position =>
            rw [List.getElem_cons_succ, Nat.succ_lt_succ_iff]
            exact induction restOrdered (Nat.lt_of_succ_lt_succ within)
      · have none : (least :: rest).countP holds = 0 := by
          apply List.countP_eq_zero.mpr
          intro sample member high
          rcases List.mem_cons.mp member with rfl | later
          · exact leastHolds high
          · exact leastHolds (downward (first sample later) high)
        rw [none]
        apply iff_of_false _ (Nat.not_lt_zero _)
        exact List.countP_eq_zero.mp none _ (List.getElem_mem within)

theorem getElem_mono (ordered : sorted.Pairwise (· ≤ ·)) {low high : Nat}
    (le : low ≤ high) (within : high < sorted.length) :
    sorted[low] ≤ sorted[high] := by
  rcases Nat.lt_or_eq_of_le le with less | rfl
  · exact List.pairwise_iff_getElem.mp ordered low high _ within less
  · exact le_refl _

end Sorted

/-- The first cell at which the running sum reaches the rank. -/
def scan (weight : Cell → Nat) (rank : Nat) : Nat → List Cell → Option Cell
  | _, [] => none
  | accumulated, cell :: rest =>
      if rank ≤ accumulated + weight cell then some cell
      else scan weight rank (accumulated + weight cell) rest

/-- Where the running sums reach the rank from a cell on, the scan finds it. -/
theorem scan_eq_some [Preorder Cell] {weight : Cell → Nat} {rank : Nat}
    {accumulated : Nat} {cells : List Cell} {target : Cell}
    (increasing : cells.Pairwise (· < ·)) (member : target ∈ cells)
    (reaches : ∀ before cell after, cells = before ++ cell :: after →
      (rank ≤ accumulated + ((before ++ [cell]).map weight).sum ↔
        target ≤ cell)) :
    scan weight rank accumulated cells = some target := by
  induction cells generalizing accumulated with
  | nil => cases member
  | cons cell rest induction =>
      obtain ⟨first, restIncreasing⟩ := List.pairwise_cons.mp increasing
      have reachesFirst : rank ≤ accumulated + weight cell ↔ target ≤ cell := by
        simpa using reaches [] cell rest rfl
      unfold scan
      rcases List.mem_cons.mp member with rfl | later
      · exact if_pos (reachesFirst.mpr (le_refl _))
      · have above : cell < target := first target later
        rw [if_neg fun enough =>
          absurd (reachesFirst.mp enough) (not_le_of_gt above)]
        apply induction restIncreasing later
        intro before other after split
        have onwards := reaches (cell :: before) other after
          (congrArg (cell :: ·) split)
        rw [List.cons_append, List.map_cons, List.sum_cons,
          ← Nat.add_assoc] at onwards
        exact onwards

section Histogram

variable [DecidableEq Cell]

/-- A sample is in one of distinct cells, or in none. -/
theorem sum_indicator_eq {sampleCell : Cell} {cells : List Cell}
    (distinct : cells.Nodup) :
    (cells.map fun cell => if sampleCell = cell then 1 else 0).sum =
      if sampleCell ∈ cells then 1 else 0 := by
  induction cells with
  | nil => rfl
  | cons cell cells induction =>
      obtain ⟨absent, distinct⟩ := List.nodup_cons.mp distinct
      rw [List.map_cons, List.sum_cons, induction distinct]
      by_cases own : sampleCell = cell
      · subst own
        simp [absent]
      · simp [own]

/-- Distinct cells have the samples that are in one of them. -/
theorem sum_countP_eq {cellOf : Sample → Cell} {samples : List Sample}
    {cells : List Cell} (distinct : cells.Nodup) :
    (cells.map fun cell =>
        samples.countP fun sample => cellOf sample = cell).sum =
      samples.countP fun sample => cellOf sample ∈ cells := by
  induction samples with
  | nil => simp
  | cons sample samples induction =>
      simp only [List.countP_cons, decide_eq_true_eq, List.sum_map_add,
        induction, sum_indicator_eq distinct]

end Histogram

/-- The scan of a histogram ends in the cell of the sample of the rank. -/
theorem scan_sorted [Preorder Sample] [LinearOrder Cell]
    {cellOf : Sample → Cell} (monotone : Monotone cellOf)
    {sorted : List Sample} (ordered : sorted.Pairwise (· ≤ ·))
    {cells : List Cell} (increasing : cells.Pairwise (· < ·))
    (covered : ∀ sample ∈ sorted, cellOf sample ∈ cells) {rank : Nat}
    (positive : 0 < rank) {sample : Sample}
    (ranked : sorted[rank - 1]? = some sample) :
    scan (fun cell => sorted.countP fun sample => cellOf sample = cell) rank 0
      cells = some (cellOf sample) := by
  obtain ⟨within, rfl⟩ := List.getElem?_eq_some_iff.mp ranked
  apply scan_eq_some increasing (covered _ (List.getElem_mem within))
  intro before cell after split
  have distinct : cells.Nodup := increasing.imp ne_of_lt
  have upTo : ∀ other ∈ cells, other ∈ before ++ [cell] ↔ other ≤ cell := by
    intro other member
    rw [split] at increasing member
    obtain ⟨_, fromCell, across⟩ := List.pairwise_append.mp increasing
    have above := (List.pairwise_cons.mp fromCell).1
    constructor
    · intro among
      rcases List.mem_append.mp among with earlier | own
      · exact le_of_lt (across other earlier cell List.mem_cons_self)
      · exact le_of_eq (List.mem_singleton.mp own)
    · intro notAbove
      rcases List.mem_append.mp member with earlier | fromHere
      · exact List.mem_append_left _ earlier
      · rcases List.mem_cons.mp fromHere with own | later
        · exact List.mem_append_right _ (List.mem_singleton.mpr own)
        · exact absurd (above other later) (not_lt_of_ge notAbove)
  have prefixDistinct : (before ++ [cell]).Nodup := by
    apply List.Nodup.sublist _ distinct
    rw [split]
    apply List.Sublist.append_left
    exact List.singleton_sublist.mpr List.mem_cons_self
  have running :
      (sorted.countP fun sample => cellOf sample ∈ before ++ [cell]) =
        sorted.countP fun sample => cellOf sample ≤ cell := by
    apply List.countP_congr
    intro sample member
    simpa using upTo (cellOf sample) (covered sample member)
  rw [Nat.zero_add, sum_countP_eq prefixDistinct, running]
  have first := @getElem_iff_lt_countP _ _ sorted ordered
    (fun sample => cellOf sample ≤ cell) ?_ (rank - 1) within
  · rw [decide_eq_true_eq] at first
    rw [first]
    omega
  · intro low high le highHolds
    simp only [decide_eq_true_eq] at highHolds ⊢
    exact (monotone le).trans highHolds

end OrderStatistics
