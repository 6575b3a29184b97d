import Mathlib.Algebra.Order.BigOperators.Group.List
import Mathlib.Algebra.Order.Floor.Semiring
import Mathlib.Data.List.FinRange
import Mathlib.Data.Multiset.Sort
import Mathlib.Tactic.NormNum
import IocpChat.Common.Double
import IocpChat.DummyClient.SampleRange

/-!
# Percentiles

`GetPercentileMs` adds the buckets up until it has as many samples as the rank
asks for.  The statistics are read when the test is over, so nobody records.
The rank is computed in `double`: it can be one off the exact one.
-/

namespace IocpChat

open TransitionSystem

/-- The bucket of a sample, with one bucket for all that take a second. -/
def bucketOf (rttUs : Nat) : Fin numBuckets :=
  ⟨min (rttUs / bucketResolutionUs) (numBuckets - 1),
    Nat.lt_of_le_of_lt (Nat.min_le_right ..) (Nat.lt_succ_self _)⟩

/-- The value that stands for the samples of a bucket.  Both summands are
integers that a `double` has. -/
def bucketMiddleMs (bucket : Fin numBuckets) : ℚ :=
  binary64.round (binary64.round
    (((bucket.val * bucketResolutionUs : Nat) : ℚ) +
      (bucketResolutionUs : ℚ) / 2) / 1000)

/-- `total * (percentile / 100.0)`, where the conversion, the quotient and the
product are rounded. -/
def scaledRank (count : Nat) (percentile : Double) : ℚ :=
  binary64.round
    (binary64.round (count : ℚ) * binary64.round (percentile.value / 100))

/-- The rank of a percentile among so many samples. -/
def percentileRank (count : Nat) (percentile : Double) : Nat :=
  max 1 ⌊scaledRank count percentile⌋₊

/-- The rank without rounding. -/
def exactRank (count : Nat) (percentile : Double) : Nat :=
  max 1 ⌊(count : ℚ) * percentile.value / 100⌋₊

section Rank

variable {count : Nat} {percentile : Double}

theorem roundedQuotient_nonneg (atLeast : 0 ≤ percentile.value) :
    0 ≤ binary64.round (percentile.value / 100) := by
  apply binary64.round_nonneg
  exact div_nonneg atLeast (by norm_num)

theorem roundedQuotient_le (atLeast : 0 ≤ percentile.value)
    (within : percentile.value ≤ 100) :
    binary64.round (percentile.value / 100) ≤ 1 := by
  have one : binary64.round (1 : ℚ) = 1 := by
    have same := @Double.round_natCast 1 (by norm_num)
    rw [Nat.cast_one] at same
    exact same
  calc
    binary64.round (percentile.value / 100) ≤ binary64.round 1 := by
      apply binary64.round_mono
      · exact div_nonneg atLeast (by norm_num)
      · linarith
    _ = 1 := one

theorem scaledRank_le (few : count < 2 ^ 53)
    (atLeast : 0 ≤ percentile.value) (within : percentile.value ≤ 100) :
    scaledRank count percentile ≤ count := by
  have same := Double.round_natCast few
  have quotient := roundedQuotient_nonneg atLeast
  rw [scaledRank, same]
  calc
    binary64.round ((count : ℚ) * binary64.round (percentile.value / 100)) ≤
        binary64.round (count : ℚ) := by
      apply binary64.round_mono
      · exact mul_nonneg (Nat.cast_nonneg count) quotient
      · exact mul_le_of_le_one_right (Nat.cast_nonneg count)
          (roundedQuotient_le atLeast within)
    _ = count := same

theorem percentileRank_le (some : 0 < count) (few : count < 2 ^ 53)
    (atLeast : 0 ≤ percentile.value) (within : percentile.value ≤ 100) :
    percentileRank count percentile ≤ count :=
  max_le some (Nat.floor_le_of_le (scaledRank_le few atLeast within))

theorem percentileRank_mono (count : Nat) {low high : Double}
    (atLeast : 0 ≤ low.value) (le : low.value ≤ high.value) :
    percentileRank count low ≤ percentileRank count high := by
  have factor : (0 : ℚ) ≤ binary64.round (count : ℚ) :=
    binary64.round_nonneg (Nat.cast_nonneg count)
  have quotients : binary64.round (low.value / 100) ≤
      binary64.round (high.value / 100) := by
    apply binary64.round_mono
    · exact div_nonneg atLeast (by norm_num)
    · exact div_le_div_of_nonneg_right le (by norm_num)
  apply max_le_max_left
  apply Nat.floor_mono
  apply binary64.round_mono
  · exact mul_nonneg factor (roundedQuotient_nonneg atLeast)
  · exact mul_le_mul_of_nonneg_left quotients factor

/-- Rounding moves the rank by less than one. -/
theorem abs_scaledRank_sub_lt (few : count < 2 ^ 50)
    (atLeast : 0 ≤ percentile.value) (within : percentile.value ≤ 100) :
    |scaledRank count percentile - count * percentile.value / 100| < 1 := by
  have small : (count : ℚ) < 2 ^ (50 : Int) := by exact_mod_cast few
  have positive : (0 : ℚ) ≤ count := Nat.cast_nonneg count
  have quotient := roundedQuotient_nonneg atLeast
  have atMost := roundedQuotient_le atLeast within
  have same : binary64.round (count : ℚ) = count :=
    Double.round_natCast (few.trans (by norm_num))
  -- the quotient is below 2, and the product is below 2 ^ 50
  have first := @Double.abs_round_sub_le (percentile.value / 100) 1
    (div_nonneg atLeast (by norm_num)) (by norm_num; linarith) (by norm_num)
  have second := @Double.abs_round_sub_le
    (count * binary64.round (percentile.value / 100)) 50
    (mul_nonneg positive quotient)
    ((mul_le_of_le_one_right positive atMost).trans_lt small) (by norm_num)
  rw [scaledRank, same]
  rw [abs_le] at first second
  norm_num at first second
  have bound : (count : ℚ) < 1125899906842624 := by
    norm_num at few
    exact_mod_cast few
  have above : (count : ℚ) * (binary64.round (percentile.value / 100) -
      percentile.value / 100) ≤ count * (1 / 9007199254740992) :=
    mul_le_mul_of_nonneg_left (by linarith) positive
  have below : (count : ℚ) * -(1 / 9007199254740992) ≤
      count * (binary64.round (percentile.value / 100) -
        percentile.value / 100) :=
    mul_le_mul_of_nonneg_left (by linarith) positive
  rw [abs_lt]
  constructor <;> linarith

/-- The rank is the exact one, or one next to it. -/
theorem percentileRank_near (few : count < 2 ^ 50)
    (atLeast : 0 ≤ percentile.value) (within : percentile.value ≤ 100) :
    percentileRank count percentile ≤ exactRank count percentile + 1 ∧
      exactRank count percentile ≤ percentileRank count percentile + 1 := by
  have near := abs_lt.mp (abs_scaledRank_sub_lt few atLeast within)
  have exactNonneg : (0 : ℚ) ≤ count * percentile.value / 100 := by positivity
  have scaledNonneg : 0 ≤ scaledRank count percentile := by
    apply binary64.round_nonneg
    exact mul_nonneg (binary64.round_nonneg (Nat.cast_nonneg count))
      (roundedQuotient_nonneg atLeast)
  have first : ⌊scaledRank count percentile⌋₊ ≤
      ⌊(count : ℚ) * percentile.value / 100⌋₊ + 1 := by
    rw [← Nat.floor_add_one exactNonneg]
    apply Nat.floor_mono
    linarith
  have second : ⌊(count : ℚ) * percentile.value / 100⌋₊ ≤
      ⌊scaledRank count percentile⌋₊ + 1 := by
    rw [← Nat.floor_add_one scaledNonneg]
    apply Nat.floor_mono
    linarith
  rw [percentileRank, exactRank]
  omega

end Rank

theorem bucketOf_mono : Monotone bucketOf := by
  intro low high le
  apply Fin.le_iff_val_le_val.mpr
  exact min_le_min_right _ (Nat.div_le_div_right le)

theorem bucketMiddleMs_mono : Monotone bucketMiddleMs := by
  intro low high le
  have scaled : ((low.val * bucketResolutionUs : Nat) : ℚ) ≤
      ((high.val * bucketResolutionUs : Nat) : ℚ) :=
    Nat.cast_le.mpr (Nat.mul_le_mul_right _ le)
  have nonneg : (0 : ℚ) ≤ ((low.val * bucketResolutionUs : Nat) : ℚ) +
      (bucketResolutionUs : ℚ) / 2 := by
    positivity
  apply binary64.round_mono
  · exact div_nonneg (binary64.round_nonneg nonneg) (by norm_num)
  · apply div_le_div_of_nonneg_right _ (by norm_num)
    apply binary64.round_mono nonneg
    exact add_le_add_left scaled _

namespace LatencyMonitor

variable {Thread : Type}

def getMaxMs (monitor : LatencyMonitor Thread) : ℚ :=
  binary64.round ((monitor.maxLatencyUs.toNat : ℚ) / 1000)

/-- The rank of a percentile among all samples; the cast rounds down. -/
def targetRank (monitor : LatencyMonitor Thread) (percentile : Double) :
    UInt64 :=
  let targetRank := UInt64.ofNat
    ⌊scaledRank monitor.totalCount.toNat percentile⌋₊
  if targetRank = 0 then 1 else targetRank

/-- The loop of `GetPercentileMs`, with the buckets that are left. -/
def scan (monitor : LatencyMonitor Thread) (targetRank : UInt64) :
    UInt64 → List (Fin numBuckets) → Option (Fin numBuckets)
  | _, [] => none
  | accumulated, bucket :: rest =>
      let accumulated := accumulated + (monitor.buckets bucket).toUInt64
      if accumulated ≥ targetRank then some bucket
      else monitor.scan targetRank accumulated rest

def getPercentileMs (monitor : LatencyMonitor Thread) (percentile : Double) :
    ℚ :=
  if monitor.totalCount = 0 then 0
  else
    match monitor.scan (monitor.targetRank percentile) 0
        (List.finRange numBuckets) with
    | some bucket => bucketMiddleMs bucket
    | none => monitor.getMaxMs

/-- Sums of the buckets that are in the range of the accumulator are exact. -/
theorem scan_eq {monitor : LatencyMonitor Thread}
    {targetRank accumulated : UInt64} {buckets : List (Fin numBuckets)}
    (fits : accumulated.toNat +
      (buckets.map fun bucket => (monitor.buckets bucket).toNat).sum <
        2 ^ 64) :
    monitor.scan targetRank accumulated buckets =
      OrderStatistics.scan (fun bucket => (monitor.buckets bucket).toNat)
        targetRank.toNat accumulated.toNat buckets := by
  induction buckets generalizing accumulated with
  | nil => rfl
  | cons bucket rest induction =>
      rw [List.map_cons, List.sum_cons, ← Nat.add_assoc] at fits
      have added : (accumulated + (monitor.buckets bucket).toUInt64).toNat =
          accumulated.toNat + (monitor.buckets bucket).toNat := by
        rw [UInt64.toNat_add, UInt32.toNat_toUInt64]
        exact Nat.mod_eq_of_lt (Nat.lt_of_le_of_lt (Nat.le_add_right ..) fits)
      rw [← added] at fits
      unfold scan OrderStatistics.scan
      simp only [ge_iff_le, UInt64.le_iff_toNat_le, added, induction fits]

section Calls

variable [DecidableEq Thread] {monitor updated : LatencyMonitor Thread}
  {worker : Thread} {current other : RecordSamplePc}
  {recorded : List RecordedSample} {rttUs : UInt64}

/-- One thread is at work, and the others have left `RecordSample`. -/
structure OnlyAt (monitor : LatencyMonitor Thread) (worker : Thread)
    (pc : RecordSamplePc) (recorded : List RecordedSample) : Prop where
  reachable : (machine Thread).Reachable monitor
  pcs : monitor.pcs = Function.update (fun _ => .idle) worker pc
  recorded : monitor.recorded = recorded

theorem OnlyAt.pc (at_ : OnlyAt monitor worker current recorded) :
    monitor.pcs worker = current := by
  rw [at_.pcs, Function.update_self]

/-- The worker goes on, whatever the step does to the counters. -/
theorem OnlyAt.goto (at_ : OnlyAt monitor worker current recorded)
    {action : LatencyAction Thread}
    (stepped : monitor.step action = some (updated.goto worker other))
    (pcs : updated.pcs = monitor.pcs) :
    OnlyAt (updated.goto worker other) worker other updated.recorded where
  reachable := .step at_.reachable trivial stepped
  pcs := by
    change Function.update updated.pcs worker other = _
    rw [pcs, at_.pcs, Function.update_idem]
  recorded := rfl

/-- A step that does not use a bucket. -/
theorem OnlyAt.next (at_ : OnlyAt monitor worker current recorded)
    (steps : Steps monitor (.advance worker false)
      (updated.goto worker other))
    (pcs : updated.pcs = monitor.pcs)
    (same : updated.recorded = monitor.recorded) :
    OnlyAt (updated.goto worker other) worker other recorded := by
  have stepped := at_.goto (step_eq_some_iff.mpr steps) pcs
  rw [same, at_.recorded] at stepped
  exact stepped

theorem OnlyAt.addCount
    (at_ : OnlyAt monitor worker (.addCount rttUs) recorded) :
    ∃ next, OnlyAt next worker (.addLatency rttUs) recorded :=
  ⟨_, at_.next (.addCount at_.pc) rfl rfl⟩

theorem OnlyAt.addLatency
    (at_ : OnlyAt monitor worker (.addLatency rttUs) recorded) :
    ∃ next, OnlyAt next worker (.loadMin rttUs) recorded :=
  ⟨_, at_.next (.addLatency at_.pc) rfl rfl⟩

/-- The minimum that is loaded is the minimum until the worker goes on. -/
theorem OnlyAt.loadMin
    (at_ : OnlyAt monitor worker (.loadMin rttUs) recorded) :
    ∃ next : LatencyMonitor Thread,
      OnlyAt next worker (.exchangeMin rttUs next.minLatencyUs) recorded :=
  ⟨_, at_.next (.loadMin at_.pc) rfl rfl⟩

theorem OnlyAt.exchangeMin
    (at_ : OnlyAt monitor worker (.exchangeMin rttUs monitor.minLatencyUs)
      recorded) :
    ∃ next, OnlyAt next worker (.loadMax rttUs) recorded := by
  have exchanges : Steps monitor (.advance worker false) _ :=
    .exchangeMin at_.pc
  unfold LatencyMonitor.exchangeMin at exchanges
  split at exchanges
  · rw [if_pos ⟨rfl, rfl⟩] at exchanges
    exact ⟨_, at_.next exchanges rfl rfl⟩
  · exact ⟨_, at_.next exchanges rfl rfl⟩

theorem OnlyAt.loadMax
    (at_ : OnlyAt monitor worker (.loadMax rttUs) recorded) :
    ∃ next : LatencyMonitor Thread,
      OnlyAt next worker (.exchangeMax rttUs next.maxLatencyUs) recorded :=
  ⟨_, at_.next (.loadMax at_.pc) rfl rfl⟩

theorem OnlyAt.exchangeMax
    (at_ : OnlyAt monitor worker (.exchangeMax rttUs monitor.maxLatencyUs)
      recorded) :
    ∃ next, OnlyAt next worker (.addBucket rttUs) recorded := by
  have exchanges : Steps monitor (.advance worker false) _ :=
    .exchangeMax at_.pc
  unfold LatencyMonitor.exchangeMax at exchanges
  split at exchanges
  · rw [if_pos ⟨rfl, rfl⟩] at exchanges
    exact ⟨_, at_.next exchanges rfl rfl⟩
  · exact ⟨_, at_.next exchanges rfl rfl⟩

omit [DecidableEq Thread] in
@[simp] theorem pcs_addBucket {sample : RecordedSample} :
    (monitor.addBucket sample).pcs = monitor.pcs :=
  rfl

theorem OnlyAt.addBucket
    (at_ : OnlyAt monitor worker (.addBucket rttUs) recorded) :
    ∃ next, OnlyAt next worker .idle (recorded ++ [.record rttUs]) := by
  have adds : Steps monitor (.advance worker false) _ := .addBucket at_.pc
  have added := at_.goto (step_eq_some_iff.mpr adds) pcs_addBucket
  change OnlyAt _ worker .idle (monitor.recorded ++ [.record rttUs]) at added
  rw [at_.recorded] at added
  exact ⟨_, added⟩

/-- A call of `RecordSample` from its start to its end. -/
theorem OnlyAt.recordSample (at_ : OnlyAt monitor worker .idle recorded)
    (rttUs : UInt64) : ∃ next : LatencyMonitor Thread,
      OnlyAt next worker .idle (recorded ++ [.record rttUs]) := by
  have starts : Steps monitor (.recordSample worker rttUs) _ :=
    .recordSample at_.pc
  have started := at_.goto (step_eq_some_iff.mpr starts) rfl
  rw [at_.recorded] at started
  obtain ⟨_, counted⟩ := started.addCount
  obtain ⟨_, summed⟩ := counted.addLatency
  obtain ⟨_, loadedMin⟩ := summed.loadMin
  obtain ⟨_, minimal⟩ := loadedMin.exchangeMin
  obtain ⟨_, loadedMax⟩ := minimal.loadMax
  obtain ⟨_, maximal⟩ := loadedMax.exchangeMax
  exact maximal.addBucket

end Calls

/-- The samples of the calls that have returned. -/
def values (monitor : LatencyMonitor Thread) : List Nat :=
  monitor.recorded.map fun sample => sample.rttUs.toNat

section Recorded

variable [DecidableEq Thread] {monitor : LatencyMonitor Thread}
  {samples : Multiset Nat}

/-- The samples have been recorded, in some order and perhaps at the same time,
and no call is in progress. -/
structure Recorded (monitor : LatencyMonitor Thread)
    (samples : Multiset Nat) : Prop where
  reachable : (machine Thread).Reachable monitor
  idle : ∀ thread, monitor.pcs thread = .idle
  values : monitor.values = samples

/-- Whatever the samples, one thread can record them. -/
theorem exists_recorded (worker : Thread)
    (small : ∀ sample ∈ samples, sample < 2 ^ 31) :
    ∃ monitor : LatencyMonitor Thread, Recorded monitor samples := by
  have alone : ∃ (monitor : LatencyMonitor Thread) (recorded : _),
      OnlyAt monitor worker .idle recorded ∧
        (recorded.map fun sample => sample.rttUs.toNat : Multiset Nat) =
          samples := by
    induction samples using Multiset.induction with
    | empty =>
        refine ⟨reset, [], ⟨.start rfl, ?_, rfl⟩, rfl⟩
        exact (Function.update_eq_self_iff.mpr rfl).symm
    | cons sample samples induction =>
        obtain ⟨first, others⟩ := Multiset.forall_mem_cons.mp small
        obtain ⟨monitor, recorded, at_, same⟩ := induction others
        obtain ⟨next, nextAt⟩ := at_.recordSample (UInt64.ofNat sample)
        refine ⟨next, _, nextAt, ?_⟩
        have value : (UInt64.ofNat sample).toNat = sample :=
          UInt64.toNat_ofNat_of_lt' (first.trans (by decide))
        rw [List.map_append, ← same, ← Multiset.coe_add, add_comm]
        change (([(UInt64.ofNat sample).toNat] : List Nat) : Multiset Nat) +
          _ = _
        rw [value]
        exact Multiset.singleton_add ..
  obtain ⟨monitor, recorded, at_, same⟩ := alone
  refine ⟨monitor, at_.reachable, fun thread => ?_, ?_⟩
  · rw [at_.pcs, Function.update_eq_self_iff.mpr rfl]
  · rw [LatencyMonitor.values, at_.recorded]
    exact same

theorem reachable_records (reachable : (machine Thread).Reachable monitor) :
    ∀ sample ∈ monitor.recorded, sample = .record sample.rttUs := by
  apply Machine.Reachable.invariant _ _ reachable
  · intro monitor start sample member
    rw [start] at member
    cases member
  · intro monitor action next records stepped sample member
    rcases step_recorded stepped with same | used
    · exact records sample (same ▸ member)
    · obtain ⟨thread, fails, rttUs, _, _, added⟩ := used
      rw [added] at member
      rcases List.mem_append.mp member with old | new
      · exact records sample old
      · rw [List.mem_singleton.mp new]
        rfl

variable [Fintype Thread]

theorem reachable_counted (reachable : (machine Thread).Reachable monitor) :
    Counted monitor := by
  apply Machine.Reachable.invariant _ _ reachable
  · intro monitor start
    rw [start]
    exact .reset
  · exact fun _ _ _ => Counted.step

omit [DecidableEq Thread] [Fintype Thread] in
/-- A small sample uses the index of its bucket. -/
theorem bucketIdx_eq {sample : RecordedSample}
    (own : sample = .record sample.rttUs)
    (small : sample.rttUs.toNat < 2 ^ 31) :
    sample.bucketIdx = (bucketOf sample.rttUs.toNat).val := by
  have placed : sample.Placed := by
    rw [own]
    apply (RecordedSample.placed_record_iff _).mpr
    exact .inl (Nat.lt_of_le_of_lt (Nat.div_le_self ..) small)
  rw [placed.eq_min, bucketOf, Nat.cast_min, Int.natCast_div]

/-- How many of the samples belong to a bucket. -/
def cellCount (samples : Multiset Nat) (bucket : Fin numBuckets) : Nat :=
  samples.countP fun sample => bucketOf sample = bucket

omit [DecidableEq Thread] [Fintype Thread] in
theorem countP_sort (bucket : Fin numBuckets) :
    (samples.sort.countP fun sample => bucketOf sample = bucket) =
      cellCount samples bucket := by
  rw [cellCount, ← Multiset.coe_countP, Multiset.sort_eq]

omit [DecidableEq Thread] [Fintype Thread] in
/-- All samples are in the buckets. -/
theorem sum_cellCount :
    ((List.finRange numBuckets).map (cellCount samples)).sum =
      samples.card := by
  have counts := @OrderStatistics.sum_countP_eq _ _ _ bucketOf samples.sort _
    (List.nodup_finRange numBuckets)
  simp only [countP_sort] at counts
  rw [← samples.length_sort (· ≤ ·)]
  apply counts.trans
  apply List.countP_eq_length.mpr
  intro sample _
  exact decide_eq_true (List.mem_finRange _)

theorem Recorded.toNat_bucket (recorded : Recorded monitor samples)
    (small : ∀ sample ∈ samples, sample < 2 ^ 31)
    (few : ∀ bucket, cellCount samples bucket < 2 ^ 32)
    (bucket : Fin numBuckets) :
    (monitor.buckets bucket).toNat = cellCount samples bucket := by
  have same : (monitor.recorded.countP fun sample =>
      (bucket.val : Int) = sample.bucketIdx) = cellCount samples bucket := by
    rw [cellCount, ← recorded.values, Multiset.coe_countP,
      LatencyMonitor.values,
      List.countP_map]
    apply List.countP_congr
    intro sample member
    have own := reachable_records recorded.reachable sample member
    have among : sample.rttUs.toNat ∈ samples := by
      rw [← recorded.values]
      exact Multiset.mem_coe.mpr (List.mem_map.mpr ⟨sample, member, rfl⟩)
    have index := bucketIdx_eq own (small _ among)
    simp only [index, Function.comp_apply, Nat.cast_inj, eq_comm,
      Fin.ext_iff]
  rw [(reachable_counted recorded.reachable).buckets, same,
    UInt32.toNat_ofNat_of_lt' (few bucket)]

omit [DecidableEq Thread] [Fintype Thread] in
theorem card_lt (few : ∀ bucket, cellCount samples bucket < 2 ^ 32) :
    samples.card < 2 ^ 50 := by
  have bound := List.sum_le_card_nsmul
    ((List.finRange numBuckets).map (cellCount samples)) (2 ^ 32)
    (by
      intro count member
      obtain ⟨bucket, _, rfl⟩ := List.mem_map.mp member
      exact Nat.le_of_lt (few bucket))
  rw [sum_cellCount, List.length_map, List.length_finRange] at bound
  apply bound.trans_lt
  decide

theorem Recorded.toNat_totalCount (recorded : Recorded monitor samples)
    (few : ∀ bucket, cellCount samples bucket < 2 ^ 32) :
    monitor.totalCount.toNat = samples.card := by
  have all : monitor.recorded.length = samples.card := by
    rw [← recorded.values, Multiset.coe_card, LatencyMonitor.values,
      List.length_map]
  rw [← all]
  apply (reachable_counted recorded.reachable).toNat_totalCount recorded.idle
  rw [all]
  exact (card_lt few).trans (by decide)

omit [DecidableEq Thread] [Fintype Thread] in
theorem toNat_targetRank {percentile : Double}
    (few : monitor.totalCount.toNat < 2 ^ 53)
    (atLeast : 0 ≤ percentile.value) (within : percentile.value ≤ 100) :
    (monitor.targetRank percentile).toNat =
      percentileRank monitor.totalCount.toNat percentile := by
  have below : ⌊scaledRank monitor.totalCount.toNat percentile⌋₊ ≤
      monitor.totalCount.toNat :=
    Nat.floor_le_of_le (scaledRank_le few atLeast within)
  have exactly := UInt64.toNat_ofNat_of_lt'
    (below.trans_lt monitor.totalCount.toNat_lt)
  unfold targetRank percentileRank
  generalize ⌊scaledRank monitor.totalCount.toNat percentile⌋₊ = rank
    at exactly ⊢
  simp only [← UInt64.toNat_inj, exactly]
  split
  · rename_i zero
    have zero : rank = 0 := zero
    rw [zero]
    rfl
  · rename_i positive
    have positive : rank ≠ 0 := positive
    rw [exactly]
    omega

/-- With a rank for every percentile: the scan ends in the bucket of the sample
of the rank, and a higher percentile is not lower. -/
structure OrderStatistic (rank : Nat → Double → Nat)
    (monitor : LatencyMonitor Thread) (samples : Multiset Nat) : Prop where
  found : ∀ percentile : Double,
    0 ≤ percentile.value → percentile.value ≤ 100 →
    ∃ sample, samples.sort[rank samples.card percentile - 1]? = some sample ∧
      monitor.scan (monitor.targetRank percentile) 0
        (List.finRange numBuckets) = some (bucketOf sample) ∧
      monitor.getPercentileMs percentile = bucketMiddleMs (bucketOf sample)
  mono : ∀ low high : Double, 0 ≤ low.value → low.value ≤ high.value →
    high.value ≤ 100 →
    monitor.getPercentileMs low ≤ monitor.getPercentileMs high

/-- The sample of the rank of a percentile is there. -/
theorem Recorded.found (recorded : Recorded monitor samples)
    (nonempty : samples ≠ 0) (small : ∀ sample ∈ samples, sample < 2 ^ 31)
    (few : ∀ bucket, cellCount samples bucket < 2 ^ 32)
    {percentile : Double} (atLeast : 0 ≤ percentile.value)
    (within : percentile.value ≤ 100) {sample : Nat}
    (ranked : samples.sort[percentileRank samples.card percentile - 1]? =
      some sample) :
    monitor.scan (monitor.targetRank percentile) 0
        (List.finRange numBuckets) = some (bucketOf sample) ∧
      monitor.getPercentileMs percentile =
        bucketMiddleMs (bucketOf sample) := by
  have total := recorded.toNat_totalCount few
  have fits : monitor.totalCount.toNat < 2 ^ 53 := by
    rw [total]
    exact (card_lt few).trans (by decide)
  have weights : (fun bucket => (monitor.buckets bucket).toNat) =
      cellCount samples :=
    funext fun bucket => recorded.toNat_bucket small few bucket
  have scanned : monitor.scan (monitor.targetRank percentile) 0
      (List.finRange numBuckets) = some (bucketOf sample) := by
    rw [scan_eq, toNat_targetRank fits atLeast within, total, weights]
    · have ends := OrderStatistics.scan_sorted bucketOf_mono
        (samples.pairwise_sort (· ≤ ·))
        (List.pairwise_lt_finRange numBuckets)
        (fun _ _ => List.mem_finRange _)
        (Nat.lt_of_lt_of_le Nat.zero_lt_one (Nat.le_max_left ..)) ranked
      simp only [countP_sort] at ends
      exact ends
    · rw [weights, sum_cellCount]
      exact (Nat.zero_add _).trans_lt ((card_lt few).trans (by decide))
  refine ⟨scanned, ?_⟩
  have counted : monitor.totalCount ≠ 0 := by
    intro none
    rw [none] at total
    exact nonempty (Multiset.card_eq_zero.mp total.symm)
  rw [getPercentileMs, if_neg counted, scanned]

theorem Recorded.orderStatistic (recorded : Recorded monitor samples)
    (nonempty : samples ≠ 0) (small : ∀ sample ∈ samples, sample < 2 ^ 31)
    (few : ∀ bucket, cellCount samples bucket < 2 ^ 32) :
    OrderStatistic percentileRank monitor samples := by
  have card : 0 < samples.card := Multiset.card_pos.mpr nonempty
  have inside : ∀ percentile : Double, 0 ≤ percentile.value →
      percentile.value ≤ 100 →
      percentileRank samples.card percentile - 1 < samples.sort.length := by
    intro percentile atLeast within
    have rank := percentileRank_le card ((card_lt few).trans (by decide))
      atLeast within
    rw [Multiset.length_sort]
    omega
  constructor
  · intro percentile atLeast within
    have ranked :=
      List.getElem?_eq_getElem (inside percentile atLeast within)
    exact ⟨_, ranked,
      recorded.found nonempty small few atLeast within ranked⟩
  · intro low high atLeast le within
    have lowRanked :=
      List.getElem?_eq_getElem (inside low atLeast (le.trans within))
    have highRanked :=
      List.getElem?_eq_getElem (inside high (atLeast.trans le) within)
    rw [(recorded.found nonempty small few atLeast (le.trans within)
        lowRanked).2,
      (recorded.found nonempty small few (atLeast.trans le) within
        highRanked).2]
    apply bucketMiddleMs_mono
    apply bucketOf_mono
    apply OrderStatistics.getElem_mono (samples.pairwise_sort (· ≤ ·))
    exact Nat.sub_le_sub_right (percentileRank_mono _ atLeast le) 1

end Recorded

/-- Percentiles are order statistics of the computed rank, of whatever samples
one can record, and that rank is at most one off. -/
theorem percentiles_orderStatistic [DecidableEq Thread] [Fintype Thread]
    (worker : Thread) {samples : Multiset Nat} (nonempty : samples ≠ 0)
    (small : ∀ sample ∈ samples, sample < 2 ^ 31)
    (few : ∀ bucket, cellCount samples bucket < 2 ^ 32) :
    (∃ monitor : LatencyMonitor Thread, Recorded monitor samples) ∧
      (∀ monitor : LatencyMonitor Thread, Recorded monitor samples →
        OrderStatistic percentileRank monitor samples) ∧
      ∀ percentile : Double,
        0 ≤ percentile.value → percentile.value ≤ 100 →
        percentileRank samples.card percentile ≤
            exactRank samples.card percentile + 1 ∧
          exactRank samples.card percentile ≤
            percentileRank samples.card percentile + 1 :=
  ⟨exists_recorded worker small,
    fun _ recorded => recorded.orderStatistic nonempty small few,
    fun _ atLeast within => percentileRank_near (card_lt few) atLeast within⟩

theorem percentiles_orderStatistic_threeSamples :
    (∃ monitor : LatencyMonitor Unit,
        Recorded monitor {250, 1700000, 42}) ∧
      (∀ monitor : LatencyMonitor Unit, Recorded monitor {250, 1700000, 42} →
        OrderStatistic percentileRank monitor {250, 1700000, 42}) ∧
      ∀ percentile : Double,
        0 ≤ percentile.value → percentile.value ≤ 100 →
        percentileRank 3 percentile ≤ exactRank 3 percentile + 1 ∧
          exactRank 3 percentile ≤ percentileRank 3 percentile + 1 := by
  apply percentiles_orderStatistic ()
  · decide
  · decide
  · intro bucket
    exact Nat.lt_of_le_of_lt (Multiset.countP_le_card ..) (by decide)

/-- One sample in each of the first hundred buckets. -/
def hundredSamples : Multiset Nat :=
  ((List.range 100).map (· * 100) : List Nat)

/-- The percentile 29. -/
def twentyNine : Double :=
  .ofNat 29 (by norm_num)

/-- `29 / 100.0` is below 0.29, and a hundred times that is below 29. -/
theorem percentileRank_twentyNine : percentileRank 100 twentyNine = 28 := by
  have count : binary64.round ((100 : Nat) : ℚ) = 100 :=
    @Double.round_natCast 100 (by norm_num)
  have quotient : binary64.round (twentyNine.value / 100) =
      (5224175567749775 : Int) * 2 ^ (-54 : Int) := by
    apply @FloatingPoint.Format.round_eq ℚ _ _ _ _ binary64 _ (-2) <;>
      norm_num [binary64, twentyNine, Double.ofNat, abs_lt]
  have product : binary64.round
      ((100 : ℚ) * ((5224175567749775 : Int) * 2 ^ (-54 : Int))) =
      (8162774324609023 : Int) * 2 ^ (-48 : Int) := by
    apply @FloatingPoint.Format.round_eq ℚ _ _ _ _ binary64 _ 4 <;>
      norm_num [binary64, abs_lt]
  have floor : ⌊scaledRank 100 twentyNine⌋₊ = 28 := by
    rw [scaledRank, count, quotient, product]
    norm_num [Nat.floor_eq_iff]
  rw [percentileRank, floor]
  rfl

example : ((100 : Float) * (29 / 100)).toUInt64 = 28 := by
  decide +kernel

theorem exactRank_twentyNine : exactRank 100 twentyNine = 29 := by
  have floor : ⌊((100 : Nat) : ℚ) * twentyNine.value / 100⌋₊ = 29 := by
    norm_num [twentyNine, Double.ofNat]
  rw [exactRank, floor]
  rfl

/-- The scan ends in the bucket of the 28th of a hundred samples, not in that of
the 29th. -/
theorem hundredSamples_notExact :
    hundredSamples ≠ 0 ∧ (∀ sample ∈ hundredSamples, sample < 2 ^ 31) ∧
      (∀ bucket, cellCount hundredSamples bucket < 2 ^ 32) ∧
      ∃ monitor : LatencyMonitor Unit, Recorded monitor hundredSamples ∧
        ¬OrderStatistic exactRank monitor hundredSamples := by
  have card : hundredSamples.card = 100 := rfl
  have nonempty : hundredSamples ≠ 0 := by
    rw [← Multiset.card_pos, card]
    decide
  have small : ∀ sample ∈ hundredSamples, sample < 2 ^ 31 := by decide
  have few : ∀ bucket, cellCount hundredSamples bucket < 2 ^ 32 := by
    intro bucket
    exact Nat.lt_of_le_of_lt (Multiset.countP_le_card ..) (by decide)
  have sorted : hundredSamples.sort = (List.range 100).map (· * 100) := by
    have scales : ∀ first ∈ Multiset.range 100,
        ∀ second ∈ Multiset.range 100,
          first ≤ second ↔ first * 100 ≤ second * 100 := by
      intro first _ second _
      omega
    rw [← Multiset.sort_range 100]
    exact (Multiset.map_sort _ _ _ _ scales).symm
  obtain ⟨monitor, recorded⟩ := exists_recorded () small
  refine ⟨nonempty, small, few, monitor, recorded, ?_⟩
  intro exactly
  have atLeast : 0 ≤ twentyNine.value := by
    norm_num [twentyNine, Double.ofNat]
  have within : twentyNine.value ≤ 100 := by
    norm_num [twentyNine, Double.ofNat]
  obtain ⟨sample, ranked, claimed, _⟩ :=
    exactly.found twentyNine atLeast within
  obtain ⟨other, otherRanked, scanned, _⟩ :=
    (recorded.orderStatistic nonempty small few).found twentyNine atLeast
      within
  rw [sorted, card, exactRank_twentyNine] at ranked
  rw [sorted, card, percentileRank_twentyNine] at otherRanked
  obtain rfl := Option.some.inj ranked
  obtain rfl := Option.some.inj otherRanked
  have same := Option.some.inj (claimed.symm.trans scanned)
  revert same
  decide

end LatencyMonitor

end IocpChat
