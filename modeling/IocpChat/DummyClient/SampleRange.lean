import IocpChat.DummyClient.LatencyMonitor
import IocpChat.DummyClient.LatencyPing
import IocpChat.Lib.OrderStatistics

/-!
# The range of samples

A sample is narrowed twice: its quotient for the index of a bucket, and its
value for the extremes.  A sample that replaces the minimum is below another
value of 32 bits, so nothing is lost there.
-/

namespace IocpChat

open Protocol TransitionSystem

/-- The index that was used is that of the bucket of the sample. -/
structure RecordedSample.Placed (sample : RecordedSample) : Prop where
  nonneg : 0 ≤ sample.bucketIdx
  lt_numBuckets : sample.bucketIdx < numBuckets
  eq_min : sample.bucketIdx =
    min (sample.rttUs.toNat / bucketResolutionUs) (numBuckets - 1 : Nat)

/-- The quotient is a 32-bit integer, or its low bits are those of a quotient
that belongs to the last bucket as well. -/
def IndexFits (rttUs : UInt64) : Prop :=
  rttUs.toNat / bucketResolutionUs < 2 ^ 31 ∨
    numBuckets - 1 ≤ rttUs.toNat / bucketResolutionUs % 2 ^ 32 ∧
      rttUs.toNat / bucketResolutionUs % 2 ^ 32 < 2 ^ 31

instance (rttUs : UInt64) : Decidable (IndexFits rttUs) :=
  inferInstanceAs (Decidable (_ ∨ _ ∧ _))

theorem int32_natCast (value : Nat) :
    int32 value =
      if value % 2 ^ 32 < 2 ^ 31 then ((value % 2 ^ 32 : Nat) : Int)
      else (value % 2 ^ 32 : Nat) - (2 ^ 32 : Int) := by
  unfold int32
  rw [Int.bmod_def]
  split <;> split <;> omega

theorem RecordedSample.placed_record_iff (rttUs : UInt64) :
    (record rttUs).Placed ↔ IndexFits rttUs := by
  have quotient : (rttUs / UInt64.ofNat bucketResolutionUs).toNat =
      rttUs.toNat / bucketResolutionUs := UInt64.toNat_div ..
  have last : numBuckets = 10001 := rfl
  unfold IndexFits
  constructor
  · intro placed
    obtain ⟨nonneg, below, same⟩ := placed
    simp only [record, IocpChat.bucketIdx, quotient, int32_natCast,
      last] at nonneg same ⊢
    omega
  · intro fits
    constructor
    all_goals
      simp only [record, IocpChat.bucketIdx, quotient, int32_natCast, last]
    all_goals omega

/-- The extremes of the samples. -/
structure Extremes where
  min : UInt32
  max : UInt32

namespace Extremes

/-- The extremes take a sample into account. -/
structure Covers (extremes : Extremes) (rttUs : UInt64) : Prop where
  min : extremes.min.toNat ≤ rttUs.toNat
  max : rttUs.toNat < 2 ^ 32 → rttUs.toNat ≤ extremes.max.toNat

/-- The extremes have only moved apart. -/
structure Widens (first second : Extremes) : Prop where
  max : first.max ≤ second.max
  min : second.min ≤ first.min

variable {first second third : Extremes} {rttUs : UInt64}
  {pc : RecordSamplePc}

theorem Widens.refl (extremes : Extremes) : Widens extremes extremes where
  max := UInt32.le_refl _
  min := UInt32.le_refl _

theorem Widens.trans (earlier : Widens first second)
    (later : Widens second third) : Widens first third where
  max := UInt32.le_trans earlier.max later.max
  min := UInt32.le_trans later.min earlier.min

theorem Covers.widens (covers : first.Covers rttUs)
    (later : Widens first second) : second.Covers rttUs where
  min := Nat.le_trans (UInt32.le_iff_toNat_le.mp later.min) covers.min
  max := fun small =>
    Nat.le_trans (covers.max small) (UInt32.le_iff_toNat_le.mp later.max)

/-- What a thread has found out about the extremes. -/
def Known (extremes : Extremes) : RecordSamplePc → Prop
  | .exchangeMin _ currentMin => extremes.min ≤ currentMin
  | .loadMax rttUs => extremes.min.toNat ≤ rttUs.toNat
  | .exchangeMax rttUs currentMax =>
      extremes.min.toNat ≤ rttUs.toNat ∧ currentMax ≤ extremes.max
  | .addBucket rttUs => extremes.Covers rttUs
  | _ => True

theorem Known.widens (known : first.Known pc) (later : Widens first second) :
    second.Known pc := by
  have minLater := UInt32.le_iff_toNat_le.mp later.min
  cases pc with
  | exchangeMin _ currentMin => exact UInt32.le_trans later.min known
  | loadMax rttUs => exact Nat.le_trans minLater known
  | exchangeMax rttUs currentMax =>
      exact ⟨Nat.le_trans minLater known.1,
        UInt32.le_trans known.2 later.max⟩
  | addBucket rttUs => exact Covers.widens known later
  | _ => trivial

end Extremes

open Extremes

namespace LatencyMonitor

variable {Thread : Type}

def extremes (monitor : LatencyMonitor Thread) : Extremes :=
  { min := monitor.minLatencyUs
    max := monitor.maxLatencyUs }

/-- Every sample is in its bucket and between the extremes, and the buckets have
all samples while nobody records. -/
structure InRange (monitor : LatencyMonitor Thread) : Prop where
  placed : ∀ sample ∈ monitor.recorded, sample.Placed
  total : (∀ thread, monitor.pcs thread = .idle) →
    monitor.recorded.length < 2 ^ 32 →
    ∑ bucket, (monitor.buckets bucket).toNat = monitor.totalCount.toNat
  covers : ∀ sample ∈ monitor.recorded, monitor.extremes.Covers sample.rttUs

/-- The sample that replaces the maximum does not lose its high bits to a value
below it, and the index of a sample fits. -/
def Narrows (monitor : LatencyMonitor Thread) :
    LatencyAction Thread → Prop
  | .recordSample .. => True
  | .advance thread fails =>
      match monitor.pcs thread with
      | .exchangeMax rttUs currentMax =>
          rttUs > currentMax.toUInt64 →
            monitor.maxLatencyUs = currentMax ∧ fails = false →
              monitor.maxLatencyUs.toNat ≤ rttUs.toNat % 2 ^ 32
      | .addBucket rttUs => IndexFits rttUs
      | _ => True

instance [DecidableEq Thread] (monitor : LatencyMonitor Thread) :
    ∀ action, Decidable (monitor.Narrows action)
  | .recordSample .. => .isTrue trivial
  | .advance thread fails => by
      simp only [Narrows]
      split <;> infer_instance

/-- The extremes cover the samples that are recorded, and every thread is right
about them. -/
structure Bounded (monitor : LatencyMonitor Thread) : Prop where
  known : ∀ thread, monitor.extremes.Known (monitor.pcs thread)
  covers : ∀ sample ∈ monitor.recorded, monitor.extremes.Covers sample.rttUs

section Steps

variable [DecidableEq Thread] {monitor updated next : LatencyMonitor Thread}
  {action : LatencyAction Thread} {thread : Thread} {pc : RecordSamplePc}
  {rttUs : UInt64}

/-- A step that only widens the extremes, apart from where the thread is. -/
theorem Bounded.goto (bounded : Bounded monitor)
    (later : Widens monitor.extremes updated.extremes)
    (pcs : updated.pcs = monitor.pcs)
    (recorded : updated.recorded = monitor.recorded)
    (self : updated.extremes.Known pc) : Bounded (updated.goto thread pc) where
  known := by
    apply Threads.forall_update (fun _ pc => updated.extremes.Known pc) _ self
    intro other
    rw [pcs]
    exact (bounded.known other).widens later
  covers := by
    intro sample member
    change sample ∈ updated.recorded at member
    rw [recorded] at member
    exact (bounded.covers sample member).widens later

@[simp] theorem extremes_goto :
    (monitor.goto thread pc).extremes = monitor.extremes :=
  rfl

omit [DecidableEq Thread] in
@[simp] theorem extremes_addBucket {sample : RecordedSample} :
    (monitor.addBucket sample).extremes = monitor.extremes :=
  rfl

theorem Bounded.addBucket (bounded : Bounded monitor)
    {sample : RecordedSample}
    (covers : monitor.extremes.Covers sample.rttUs) :
    Bounded ((monitor.addBucket sample).goto thread .idle) where
  known := by
    apply Threads.forall_update (fun _ pc => monitor.extremes.Known pc)
    · exact bounded.known
    · exact trivial
  covers := by
    intro other member
    rcases List.mem_append.mp member with old | new
    · exact bounded.covers other old
    · rw [List.mem_singleton.mp new]
      exact covers

omit [DecidableEq Thread] in
theorem Bounded.known_of (bounded : Bounded monitor)
    (at_ : monitor.pcs thread = pc) : monitor.extremes.Known pc :=
  at_ ▸ bounded.known thread

/-- A sample that is below a value of 32 bits is such a value. -/
theorem toNat_toUInt32_of_lt {rttUs : UInt64} {current : UInt32}
    (less : rttUs < current.toUInt64) :
    rttUs.toUInt32.toNat = rttUs.toNat := by
  have below : rttUs.toNat < current.toNat := UInt64.lt_iff_toNat_lt.mp less
  rw [UInt64.toNat_toUInt32]
  exact Nat.mod_eq_of_lt (below.trans current.toNat_lt)

theorem Bounded.exchangeMin (bounded : Bounded monitor)
    {currentMin : UInt32} (fails : Bool)
    (knows : monitor.minLatencyUs ≤ currentMin) :
    Bounded (monitor.exchangeMin thread rttUs currentMin fails) ∧
      Widens monitor.extremes
        (monitor.exchangeMin thread rttUs currentMin fails).extremes := by
  unfold LatencyMonitor.exchangeMin
  split
  · rename_i less
    split
    · rename_i agrees
      obtain ⟨agrees, _⟩ := agrees
      have kept : rttUs.toUInt32.toNat = rttUs.toNat :=
        toNat_toUInt32_of_lt less
      have later : Widens monitor.extremes
          { monitor.extremes with min := rttUs.toUInt32 } := by
        refine ⟨UInt32.le_refl _, UInt32.le_iff_toNat_le.mpr ?_⟩
        change rttUs.toUInt32.toNat ≤ monitor.minLatencyUs.toNat
        rw [kept, agrees]
        exact Nat.le_of_lt (UInt64.lt_iff_toNat_lt.mp less)
      refine ⟨bounded.goto later rfl rfl ?_, later⟩
      exact Nat.le_of_eq kept
    · refine ⟨bounded.goto (.refl _) rfl rfl ?_, .refl _⟩
      exact UInt32.le_refl _
  · rename_i notLess
    refine ⟨bounded.goto (.refl _) rfl rfl ?_, .refl _⟩
    exact Nat.le_trans (UInt32.le_iff_toNat_le.mp knows)
      (Nat.le_of_not_lt fun less => notLess (UInt64.lt_iff_toNat_lt.mpr less))

theorem Bounded.exchangeMax (bounded : Bounded monitor)
    {currentMax : UInt32} {fails : Bool}
    (atLeast : monitor.minLatencyUs.toNat ≤ rttUs.toNat)
    (knows : currentMax ≤ monitor.maxLatencyUs)
    (narrows : rttUs > currentMax.toUInt64 →
      monitor.maxLatencyUs = currentMax ∧ fails = false →
        monitor.maxLatencyUs.toNat ≤ rttUs.toNat % 2 ^ 32) :
    Bounded (monitor.exchangeMax thread rttUs currentMax fails) ∧
      Widens monitor.extremes
        (monitor.exchangeMax thread rttUs currentMax fails).extremes := by
  unfold LatencyMonitor.exchangeMax
  split
  · rename_i greater
    split
    · rename_i agrees
      have later : Widens monitor.extremes
          { monitor.extremes with max := rttUs.toUInt32 } := by
        refine ⟨UInt32.le_iff_toNat_le.mpr ?_, UInt32.le_refl _⟩
        change _ ≤ rttUs.toUInt32.toNat
        rw [UInt64.toNat_toUInt32]
        exact narrows greater agrees
      refine ⟨bounded.goto later rfl rfl ⟨atLeast, ?_⟩, later⟩
      intro small
      change _ ≤ rttUs.toUInt32.toNat
      rw [UInt64.toNat_toUInt32, Nat.mod_eq_of_lt small]
    · refine ⟨bounded.goto (.refl _) rfl rfl ?_, .refl _⟩
      exact ⟨atLeast, UInt32.le_refl _⟩
  · rename_i notGreater
    refine ⟨bounded.goto (.refl _) rfl rfl ⟨atLeast, ?_⟩, .refl _⟩
    intro small
    exact Nat.le_trans
      (Nat.le_of_not_lt fun greater =>
        notGreater (UInt64.lt_iff_toNat_lt.mpr greater))
      (UInt32.le_iff_toNat_le.mp knows)

theorem Bounded.step (bounded : Bounded monitor)
    (narrows : monitor.Narrows action)
    (stepped : monitor.step action = some next) :
    Bounded next ∧ Widens monitor.extremes next.extremes := by
  cases step_eq_some_iff.mp stepped with
  | recordSample idle =>
      exact ⟨bounded.goto (.refl _) rfl rfl trivial, .refl _⟩
  | addCount at_ =>
      exact ⟨bounded.goto (.refl _) rfl rfl trivial, .refl _⟩
  | addLatency at_ =>
      exact ⟨bounded.goto (.refl _) rfl rfl trivial, .refl _⟩
  | loadMin at_ =>
      have self : monitor.minLatencyUs ≤ monitor.minLatencyUs :=
        UInt32.le_refl _
      exact ⟨bounded.goto (.refl _) rfl rfl self, .refl _⟩
  | exchangeMin at_ =>
      exact bounded.exchangeMin _ (bounded.known_of at_)
  | @loadMax thread _ rttUs at_ =>
      have self : monitor.extremes.Known
          (.exchangeMax rttUs monitor.maxLatencyUs) :=
        ⟨bounded.known_of at_, UInt32.le_refl _⟩
      exact ⟨bounded.goto (.refl _) rfl rfl self, .refl _⟩
  | exchangeMax at_ =>
      simp only [Narrows, at_] at narrows
      have known := bounded.known_of at_
      exact bounded.exchangeMax known.1 known.2 narrows
  | addBucket at_ =>
      refine ⟨bounded.addBucket (bounded.known_of at_), ?_⟩
      rw [extremes_goto, extremes_addBucket]
      exact .refl _

/-- The counters, as far as they can count. -/
structure Counted [Fintype Thread] (monitor : LatencyMonitor Thread) :
    Prop where
  total : monitor.totalCount = UInt64.ofNat (monitor.recorded.length +
    Threads.count RecordSamplePc.counted monitor.pcs)
  buckets : ∀ bucket, monitor.buckets bucket =
    UInt32.ofNat (monitor.recorded.countP fun sample =>
      (bucket.val : Int) = sample.bucketIdx)

section Counts

variable [Fintype Thread]

omit [DecidableEq Thread] in
theorem Counted.reset : Counted (reset : LatencyMonitor Thread) where
  total := by
    rw [Threads.count_eq_zero fun _ => rfl]
    rfl
  buckets := fun _ => rfl

/-- A step that touches none of the counters. -/
theorem Counted.goto (counted : Counted monitor)
    (totalCount : updated.totalCount = monitor.totalCount)
    (buckets : updated.buckets = monitor.buckets)
    (recorded : updated.recorded = monitor.recorded)
    (pcs : updated.pcs = monitor.pcs)
    (same : pc.counted = (monitor.pcs thread).counted) :
    Counted (updated.goto thread pc) where
  total := by
    change updated.totalCount = UInt64.ofNat (updated.recorded.length +
      Threads.count _ (Function.update updated.pcs thread pc))
    rw [totalCount, recorded, pcs, Threads.count_update_same same]
    exact counted.total
  buckets := by
    change ∀ bucket, updated.buckets bucket =
      UInt32.ofNat (updated.recorded.countP _)
    rw [buckets, recorded]
    exact counted.buckets

theorem Counted.addCount (counted : Counted monitor)
    (at_ : monitor.pcs thread = .addCount rttUs) :
    Counted ({ monitor with totalCount := monitor.totalCount + 1 }.goto
      thread (.addLatency rttUs)) where
  total := by
    have moved := @Threads.count_update _ _ _ _ RecordSamplePc.counted
      monitor.pcs thread (.addLatency rttUs)
    rw [at_] at moved
    change Threads.count _ (Function.update monitor.pcs thread _) = _ + 1
      at moved
    change monitor.totalCount + 1 = UInt64.ofNat (monitor.recorded.length +
      Threads.count _ (Function.update monitor.pcs thread _))
    rw [counted.total, moved, ← Nat.add_assoc, UInt64.ofNat_add _ 1]
    rfl
  buckets := counted.buckets

theorem Counted.addBucket (counted : Counted monitor)
    {sample : RecordedSample}
    (at_ : monitor.pcs thread = .addBucket sample.rttUs) :
    Counted ((monitor.addBucket sample).goto thread .idle) where
  total := by
    have moved := @Threads.count_update _ _ _ _ RecordSamplePc.counted
      monitor.pcs thread .idle
    rw [at_] at moved
    change monitor.totalCount = UInt64.ofNat
      ((monitor.recorded ++ [sample]).length +
        Threads.count _ (Function.update monitor.pcs thread .idle))
    change _ + 1 = _ + 0 at moved
    rw [counted.total, List.length_append, List.length_singleton,
      Nat.add_assoc, Nat.add_comm 1, moved]
    rfl
  buckets := by
    intro bucket
    change (if _ then _ else _) = UInt32.ofNat
      ((monitor.recorded ++ [sample]).countP _)
    rw [List.countP_append, List.countP_singleton]
    by_cases own : (bucket.val : Int) = sample.bucketIdx
    · rw [if_pos own, if_pos (decide_eq_true own), counted.buckets,
        UInt32.ofNat_add]
      rfl
    · rw [if_neg own, if_neg (by simpa using own), counted.buckets]
      rfl

theorem Counted.step (counted : Counted monitor)
    (stepped : monitor.step action = some next) : Counted next := by
  cases step_eq_some_iff.mp stepped with
  | recordSample idle =>
      exact counted.goto rfl rfl rfl rfl (by rw [idle]; rfl)
  | addCount at_ => exact counted.addCount at_
  | exchangeMin at_ =>
      have busy := congrArg RecordSamplePc.counted at_.symm
      unfold exchangeMin
      split
      · split <;> exact counted.goto rfl rfl rfl rfl busy
      · exact counted.goto rfl rfl rfl rfl busy
  | exchangeMax at_ =>
      have busy := congrArg RecordSamplePc.counted at_.symm
      unfold exchangeMax
      split
      · split <;> exact counted.goto rfl rfl rfl rfl busy
      · exact counted.goto rfl rfl rfl rfl busy
  | addBucket at_ => exact counted.addBucket at_
  | addLatency at_ | loadMin at_ | loadMax at_ =>
      have busy := congrArg RecordSamplePc.counted at_.symm
      exact counted.goto rfl rfl rfl rfl busy

omit [DecidableEq Thread] in
/-- Samples in their buckets are in one bucket each. -/
theorem sum_countP_placed {samples : List RecordedSample}
    (placed : ∀ sample ∈ samples, sample.Placed) :
    ∑ bucket : Fin numBuckets, samples.countP (fun sample =>
      (bucket.val : Int) = sample.bucketIdx) = samples.length := by
  let cells : List Int := (List.finRange numBuckets).map fun bucket =>
    (bucket.val : Int)
  have distinct : cells.Nodup := by
    apply (List.nodup_finRange numBuckets).map
    intro first second same
    exact Fin.ext (Int.ofNat.inj same)
  calc
    ∑ bucket : Fin numBuckets, samples.countP (fun sample =>
        (bucket.val : Int) = sample.bucketIdx)
    _ = (cells.map fun cell =>
        samples.countP fun sample => sample.bucketIdx = cell).sum := by
      simp only [Fin.sum_univ_def, cells, List.map_map, Function.comp_def,
        eq_comm]
    _ = samples.countP fun sample => sample.bucketIdx ∈ cells :=
      OrderStatistics.sum_countP_eq distinct
    _ = samples.length := by
      apply List.countP_eq_length.mpr
      intro sample member
      obtain ⟨nonneg, below, _⟩ := placed sample member
      apply decide_eq_true
      apply List.mem_map.mpr
      exact ⟨⟨_, (Int.toNat_lt nonneg).mpr below⟩, List.mem_finRange _,
        Int.toNat_of_nonneg nonneg⟩

omit [DecidableEq Thread] in
/-- While nobody records, every sample that is counted has been recorded. -/
theorem Counted.toNat_totalCount (counted : Counted monitor)
    (idle : ∀ thread, monitor.pcs thread = .idle)
    (few : monitor.recorded.length < 2 ^ 64) :
    monitor.totalCount.toNat = monitor.recorded.length := by
  have nobody : Threads.count RecordSamplePc.counted monitor.pcs = 0 := by
    apply Threads.count_eq_zero
    intro thread
    rw [idle]
    rfl
  rw [counted.total, nobody]
  exact UInt64.toNat_ofNat_of_lt' few

omit [DecidableEq Thread] in
/-- The buckets have all samples once nobody records. -/
theorem Counted.sum_eq (counted : Counted monitor)
    (placed : ∀ sample ∈ monitor.recorded, sample.Placed)
    (idle : ∀ thread, monitor.pcs thread = .idle)
    (few : monitor.recorded.length < 2 ^ 32) :
    ∑ bucket, (monitor.buckets bucket).toNat = monitor.totalCount.toNat := by
  have bucket_eq : ∀ bucket, (monitor.buckets bucket).toNat =
      monitor.recorded.countP fun sample =>
        (bucket.val : Int) = sample.bucketIdx := by
    intro bucket
    rw [counted.buckets, UInt32.toNat_ofNat_of_lt']
    exact Nat.lt_of_le_of_lt List.countP_le_length few
  calc
    ∑ bucket, (monitor.buckets bucket).toNat
    _ = monitor.recorded.length := by
      simp only [bucket_eq]
      exact sum_countP_placed placed
    _ = monitor.totalCount.toNat :=
      (counted.toNat_totalCount idle (few.trans (by decide))).symm

end Counts

/-- A step that uses no bucket records nothing. -/
theorem step_recorded (stepped : monitor.step action = some next) :
    next.recorded = monitor.recorded ∨
      ∃ thread fails rttUs, action = .advance thread fails ∧
        monitor.pcs thread = .addBucket rttUs ∧
        next.recorded = monitor.recorded ++ [.record rttUs] := by
  cases step_eq_some_iff.mp stepped with
  | exchangeMin at_ =>
      left
      unfold exchangeMin
      split
      · split <;> rfl
      · rfl
  | exchangeMax at_ =>
      left
      unfold exchangeMax
      split
      · split <;> rfl
      · rfl
  | addBucket at_ => exact .inr ⟨_, _, _, rfl, at_, rfl⟩
  | _ => exact .inl rfl

/-- The extremes have only moved apart, and the samples are in their buckets:
then the step narrowed nothing it should not have. -/
theorem narrows_of_step (stepped : monitor.step action = some next)
    (placed : ∀ sample ∈ next.recorded, sample.Placed)
    (later : Widens monitor.extremes next.extremes) :
    monitor.Narrows action := by
  cases step_eq_some_iff.mp stepped with
  | recordSample idle => trivial
  | @exchangeMax thread fails rttUs currentMax at_ =>
      simp only [Narrows, at_]
      intro greater agrees
      have max := UInt32.le_iff_toNat_le.mp later.max
      unfold exchangeMax at max
      rw [if_pos greater, if_pos agrees] at max
      change _ ≤ rttUs.toUInt32.toNat at max
      rw [UInt64.toNat_toUInt32] at max
      exact max
  | @addBucket thread fails rttUs at_ =>
      simp only [Narrows, at_]
      apply (RecordedSample.placed_record_iff rttUs).mp
      apply placed
      exact List.mem_append_right _ (List.mem_singleton_self _)
  | _ at_ => simp only [Narrows, at_]

/-- What holds of a monitor that has narrowed no sample wrongly. -/
structure Sound [Fintype Thread] (monitor : LatencyMonitor Thread) :
    Prop where
  counted : Counted monitor
  bounded : Bounded monitor
  placed : ∀ sample ∈ monitor.recorded, sample.Placed

section Runs

variable [Fintype Thread]

omit [DecidableEq Thread] in
theorem Sound.reset : Sound (reset : LatencyMonitor Thread) where
  counted := .reset
  bounded := ⟨fun _ => trivial, fun _ member => nomatch member⟩
  placed := fun _ member => nomatch member

omit [DecidableEq Thread] in
theorem Sound.inRange (sound : Sound monitor) : InRange monitor where
  placed := sound.placed
  total := sound.counted.sum_eq sound.placed
  covers := sound.bounded.covers

theorem Sound.step (sound : Sound monitor) (narrows : monitor.Narrows action)
    (stepped : (machine Thread).step monitor action = some next) :
    Sound next ∧ Widens monitor.extremes next.extremes := by
  obtain ⟨bounded, later⟩ := sound.bounded.step narrows stepped
  refine ⟨⟨sound.counted.step stepped, bounded, ?_⟩, later⟩
  rcases step_recorded stepped with same | used
  · rw [same]
    exact sound.placed
  · obtain ⟨thread, fails, rttUs, rfl, at_, added⟩ := used
    simp only [Narrows, at_] at narrows
    rw [added]
    intro sample member
    rcases List.mem_append.mp member with old | new
    · exact sound.placed sample old
    · rw [List.mem_singleton.mp new]
      exact (RecordedSample.placed_record_iff rttUs).mpr narrows

/-- A run records every sample in range and never moves the extremes together,
exactly if it narrows no sample wrongly. -/
theorem inRange_iff_narrows {final : LatencyMonitor Thread}
    {actions : List (LatencyAction Thread)}
    (replayed : (machine Thread).run reset actions = some final) :
    (machine Thread).RunMeets Narrows reset actions ↔
      ∀ before between, before ++ between <+: actions → ∀ first second,
        (machine Thread).run reset before = some first →
        (machine Thread).run first between = some second →
          InRange second ∧ Widens first.extremes second.extremes := by
  have exactly := @Machine.runMeets_iff_ordered _ _ (machine Thread) Narrows
    Sound InRange fun first second => Widens first.extremes second.extremes
  apply exactly _ Widens.trans Sound.inRange Sound.step _ Sound.reset replayed
  · exact fun monitor => .refl monitor.extremes
  · intro monitor action next _ stepped inRange later
    exact narrows_of_step stepped inRange.placed later

end Runs

end Steps

/-- A call that nobody interferes with. -/
def call (rttUs : UInt64) : List (LatencyAction Unit) :=
  .recordSample () rttUs :: List.replicate 7 (.advance () false)

/-- Two threads record at once: the first one finds that the second has changed
the maximum since it loaded it. -/
def recordTwo : List (LatencyAction Bool) :=
  .recordSample true 250 :: List.replicate 5 (.advance true false) ++
    .recordSample false 1700000 :: List.replicate 7 (.advance false false) ++
    List.replicate 3 (.advance true false)

theorem inRange_iff_narrows_recordTwo :
    ∃ final, (machine Bool).run reset recordTwo = some final ∧
      final.maxLatencyUs = 1700000 ∧
      ∀ before between, before ++ between <+: recordTwo → ∀ first second,
        (machine Bool).run reset before = some first →
        (machine Bool).run first between = some second →
          InRange second ∧ Widens first.extremes second.extremes := by
  obtain ⟨final, replayed⟩ : ∃ final,
      (machine Bool).run reset recordTwo = some final :=
    Option.isSome_iff_exists.mp (by decide +kernel)
  have meets : (machine Bool).RunMeets Narrows reset recordTwo := by
    decide +kernel
  refine ⟨final, replayed, ?_, (inRange_iff_narrows replayed).mp meets⟩
  apply Machine.view_of_run replayed
  decide +kernel

/-- An answer with the timestamp zero is timed by the clock alone.  Within three
days of uptime the maximum falls back to zero, and the index is negative. -/
theorem timestampZero_outOfRange :
    let bot := literal "Bot_1"
    let answer : SRoomChat :=
      { senderName := bot
        message := literal "LAT:0:0" }
    (handleSRoomChat bot answer 4294967296 = some 4294967296 ∧
      ∃ first second, (machine Unit).run reset (call 1000) = some first ∧
        (machine Unit).run first (call 4294967296) = some second ∧
        first.maxLatencyUs = 1000 ∧ second.maxLatencyUs = 0 ∧
        ¬Widens first.extremes second.extremes) ∧
      handleSRoomChat bot answer 214748364800 = some 214748364800 ∧
      ∃ final, (machine Unit).run reset (call 214748364800) = some final ∧
        final.recorded.map RecordedSample.bucketIdx = [-2147483648] ∧
        ¬InRange final := by
  refine ⟨⟨by decide +kernel, ?_⟩, by decide +kernel, ?_⟩
  · obtain ⟨first, toFirst⟩ : ∃ first,
        (machine Unit).run reset (call 1000) = some first :=
      Option.isSome_iff_exists.mp (by decide +kernel)
    obtain ⟨second, toSecond⟩ : ∃ second,
        (machine Unit).run first (call 4294967296) = some second := by
      apply Option.isSome_iff_exists.mp
      apply Machine.view_of_run toFirst
      decide +kernel
    have firstMax : first.maxLatencyUs = 1000 := by
      apply Machine.view_of_run toFirst
      decide +kernel
    have secondMax : second.maxLatencyUs = 0 := by
      apply Machine.view_of_run toSecond
      apply Machine.view_of_run toFirst
      decide +kernel
    refine ⟨first, second, toFirst, toSecond, firstMax, secondMax, ?_⟩
    intro widens
    have later : first.maxLatencyUs ≤ second.maxLatencyUs := widens.max
    rw [firstMax, secondMax] at later
    exact absurd later (by decide)
  · obtain ⟨final, replayed⟩ : ∃ final,
        (machine Unit).run reset (call 214748364800) = some final :=
      Option.isSome_iff_exists.mp (by decide +kernel)
    have used : final.recorded =
        [{ rttUs := 214748364800
           bucketIdx := -2147483648 }] := by
      apply Machine.view_of_run replayed
      decide +kernel
    refine ⟨final, replayed, congrArg (List.map _) used, fun inRange => ?_⟩
    have placed := inRange.placed _ (used ▸ List.mem_cons_self)
    exact absurd placed.nonneg (by decide)

end LatencyMonitor

end IocpChat
