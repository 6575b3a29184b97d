import IocpChat.Lib.Meter
import IocpChat.Utility.TokenBucket

/-!
# What the rate limiter admits

As long as no sum of a refill leaves the range of `int32`, a `TokenBucket` is a
meter whose credits are the whole tokens of the elapsed time, and whose pause is
50 ms.  `Reset` makes it a new bucket.
-/

namespace IocpChat

namespace TokenBucket

/-- The tokens that `Refill` adds for the elapsed time. -/
def addTokens (refillRatePerSec : Int) (elapsedMs : UInt64) : Int :=
  int32 (elapsedMs * .ofInt refillRatePerSec / 1000).toNat

def meter (bucket : TokenBucket) : Meter where
  capacity := bucket.capacity.toNat
  pause := 50
  credit elapsedMs :=
    (addTokens bucket.refillRatePerSec (.ofNat elapsedMs)).toNat

def level (bucket : TokenBucket) : Meter.Level where
  tokens := bucket.tokens.toNat
  last := bucket.lastRefillTick.toNat

/-- A call of `Consume(1)` at each tick: the ticks, and what the calls
returned. -/
def calls : TokenBucket → List UInt64 → List (UInt64 × Bool)
  | _, [] => []
  | bucket, now :: rest =>
      let (admitted, next) := bucket.consume 1 now
      (now, admitted) :: next.calls rest

/-- The bucket after these calls. -/
def after (bucket : TokenBucket) (ticks : List UInt64) : TokenBucket :=
  ticks.foldl (fun bucket now => (bucket.consume 1 now).2) bucket

/-- The number of calls from `start` to `stop` that returned true. -/
def admittedIn (start stop : UInt64) (made : List (UInt64 × Bool)) : Nat :=
  made.countP fun call => start ≤ call.1 && call.1 ≤ stop && call.2

/-- The sum of a refill at this tick is an `int32`. -/
def RefillFits (bucket : TokenBucket) (now : UInt64) : Prop :=
  bucket.lastRefillTick.toNat + 50 ≤ now.toNat →
    bucket.tokens +
      addTokens bucket.refillRatePerSec (now - bucket.lastRefillTick) < 2 ^ 31

/-- No call at these ticks overflows. -/
def NoOverflow : TokenBucket → List UInt64 → Prop
  | _, [] => True
  | bucket, now :: rest =>
      bucket.RefillFits now ∧ (bucket.consume 1 now).2.NoOverflow rest

/-- The gaps from one refill to the next are small enough for a full bucket and
their tokens to be an `int32`. -/
def GapsFit (capacity refillRatePerSec : Int) : Nat → List UInt64 → Prop
  | _, [] => True
  | last, now :: rest =>
      if now.toNat < last + 50 then GapsFit capacity refillRatePerSec last rest
      else
        let gap : Int := now.toNat - last
        capacity + gap * refillRatePerSec / 1000 < 2 ^ 31 ∧
          GapsFit capacity refillRatePerSec now.toNat rest

/-- Every window of time holds at most the calls that a full bucket and the rate
pay for. -/
def Conforming (capacity refillRatePerSec : Int) (ticks : List UInt64) : Prop :=
  ∀ start stop : UInt64, start ≤ stop →
    (ticks.countP (fun now => start ≤ now && now ≤ stop) : Int) ≤
      capacity + refillRatePerSec * (stop.toNat - start.toNat) / 1000

/-- The calls from the construction on, and from each refill on, are covered by
a full bucket and the refills among them. -/
def CoveredByRefills (bucket : TokenBucket) (ticks : List UInt64) : Prop :=
  let times := ticks.map UInt64.toNat
  let created := bucket.lastRefillTick.toNat
  bucket.meter.Covered bucket.capacity.toNat created times ∧
    bucket.meter.CreditsCovered created times

theorem reset_eq_full (bucket : TokenBucket) (now : UInt64) :
    bucket.reset now =
      full bucket.capacity bucket.refillRatePerSec now :=
  rfl

/-- The tokens never exceed the capacity and are never negative. -/
structure Valid (bucket : TokenBucket) : Prop where
  tokens_nonneg : 0 ≤ bucket.tokens
  tokens_le : bucket.tokens ≤ bucket.capacity
  capacity_lt : bucket.capacity < 2 ^ 31

theorem full_valid {capacity refillRatePerSec : Int} (nonneg : 0 ≤ capacity)
    (small : capacity < 2 ^ 31) (created : UInt64) :
    (full capacity refillRatePerSec created).Valid where
  tokens_nonneg := nonneg
  tokens_le := Int.le_refl _
  capacity_lt := small

section Refills

variable {bucket : TokenBucket} {now : UInt64}

theorem refill_of_early
    (early : now.toNat < bucket.lastRefillTick.toNat + 50) :
    bucket.refill now = bucket := by
  unfold refill
  by_cases past : now ≤ bucket.lastRefillTick
  · rw [if_pos past]
  · have later : bucket.lastRefillTick.toNat ≤ now.toNat := by
      rw [UInt64.le_iff_toNat_le] at past
      omega
    have short : now - bucket.lastRefillTick < 50 := by
      rw [UInt64.lt_iff_toNat_lt,
        UInt64.toNat_sub_of_le _ _ (UInt64.le_iff_toNat_le.mpr later)]
      change now.toNat - bucket.lastRefillTick.toNat < 50
      omega
    rw [if_neg past, if_pos short]

theorem refill_of_due (valid : bucket.Valid)
    (due : bucket.lastRefillTick.toNat + 50 ≤ now.toNat)
    (fits : bucket.RefillFits now) :
    bucket.refill now =
      { bucket with
        tokens := min bucket.capacity
          (bucket.tokens + max 0 (addTokens bucket.refillRatePerSec
            (now - bucket.lastRefillTick)))
        lastRefillTick := now } := by
  have past : ¬now ≤ bucket.lastRefillTick := by
    rw [UInt64.le_iff_toNat_le]
    omega
  have long : ¬now - bucket.lastRefillTick < 50 := by
    have ordered : bucket.lastRefillTick ≤ now :=
      UInt64.le_iff_toNat_le.mpr (by omega)
    rw [UInt64.lt_iff_toNat_lt, UInt64.toNat_sub_of_le _ _ ordered]
    change ¬now.toNat - bucket.lastRefillTick.toNat < 50
    omega
  have sum := fits due
  obtain ⟨nonneg, atMost, small⟩ := valid
  rw [refill, if_neg past]
  simp only [if_neg long]
  unfold addTokens at sum ⊢
  generalize int32 ((now - bucket.lastRefillTick) *
    .ofInt bucket.refillRatePerSec / 1000).toNat = added at sum ⊢
  by_cases positive : 0 < added
  · rw [if_pos positive, int32_of_range (by omega) sum,
      max_eq_right (Int.le_of_lt positive)]
  · rw [if_neg positive, max_eq_left (Int.not_lt.mp positive), Int.add_zero,
      min_eq_right atMost]

theorem toNat_min_add {capacity tokens added : Int} (nonneg : 0 ≤ tokens) :
    (min capacity (tokens + max 0 added)).toNat =
      min capacity.toNat (tokens.toNat + added.toNat) := by
  omega

/-- A refill of the bucket is a refill of the meter. -/
theorem refill_level (valid : bucket.Valid) (fits : bucket.RefillFits now) :
    (bucket.refill now).Valid ∧ (bucket.refill now).meter = bucket.meter ∧
      (bucket.refill now).level =
        bucket.meter.refill bucket.level now.toNat := by
  by_cases early : now.toNat < bucket.lastRefillTick.toNat + 50
  · rw [refill_of_early early]
    exact ⟨valid, rfl, (if_pos early).symm⟩
  · have due := Nat.le_of_not_lt early
    rw [refill_of_due valid due fits]
    obtain ⟨nonneg, atMost, small⟩ := valid
    have elapsed : UInt64.ofNat
        (now.toNat - bucket.lastRefillTick.toNat) =
        now - bucket.lastRefillTick := by
      have ordered : bucket.lastRefillTick ≤ now :=
        UInt64.le_iff_toNat_le.mpr (by omega)
      apply UInt64.toNat_inj.mp
      rw [UInt64.toNat_sub_of_le _ _ ordered]
      apply UInt64.toNat_ofNat_of_lt'
      exact Nat.lt_of_le_of_lt (Nat.sub_le _ _) now.toNat_lt_size
    refine ⟨⟨?_, min_le_left _ _, small⟩, rfl, ?_⟩
    · apply le_min
      · exact nonneg.trans atMost
      · exact Int.add_nonneg nonneg (le_max_left _ _)
    · rw [Meter.refill]
      refine Eq.trans ?_ (if_neg early).symm
      simp only [level, meter, elapsed, toNat_min_add nonneg]

/-- A call of `Consume(1)` is a request to the meter. -/
theorem consume_level (valid : bucket.Valid) (fits : bucket.RefillFits now) :
    (bucket.consume 1 now).2.Valid ∧
      (bucket.consume 1 now).2.meter = bucket.meter ∧
      ((bucket.consume 1 now).1, (bucket.consume 1 now).2.level) =
        bucket.meter.take bucket.level now.toNat := by
  obtain ⟨refilled, sameMeter, sameLevel⟩ := refill_level valid fits
  rw [consume, Meter.take, ← sameLevel]
  obtain ⟨nonneg, atMost, small⟩ := refilled
  by_cases empty : (bucket.refill now).tokens < 1
  · have none : (bucket.refill now).level.tokens = 0 := by
      change (bucket.refill now).tokens.toNat = 0
      omega
    rw [if_pos empty, if_pos none]
    exact ⟨⟨nonneg, atMost, small⟩, sameMeter, rfl⟩
  · have some : ¬(bucket.refill now).level.tokens = 0 := by
      change ¬(bucket.refill now).tokens.toNat = 0
      omega
    have fewer : int32 ((bucket.refill now).tokens - 1) =
        (bucket.refill now).tokens - 1 :=
      int32_of_range (by omega) (by omega)
    have left : ((bucket.refill now).tokens - 1).toNat =
        (bucket.refill now).tokens.toNat - 1 := by omega
    rw [if_neg empty, if_neg some, fewer]
    refine ⟨⟨?_, ?_, small⟩, sameMeter, ?_⟩
    · change 0 ≤ (bucket.refill now).tokens - 1
      omega
    · change (bucket.refill now).tokens - 1 ≤ (bucket.refill now).capacity
      omega
    · simp only [level, left]

end Refills

section Runs

variable {bucket : TokenBucket}

/-- The calls of a bucket are the requests to its meter. -/
theorem calls_requests {ticks : List UInt64} (valid : bucket.Valid)
    (fits : bucket.NoOverflow ticks) :
    (bucket.calls ticks).map (fun call => (call.1.toNat, call.2)) =
      bucket.meter.requests bucket.level (ticks.map UInt64.toNat) := by
  induction ticks generalizing bucket with
  | nil => rfl
  | cons now rest induction =>
      obtain ⟨nowFits, restFits⟩ := fits
      obtain ⟨nextValid, sameMeter, taken⟩ := consume_level valid nowFits
      have later := induction nextValid restFits
      rw [sameMeter] at later
      rw [calls, List.map_cons, List.map_cons, Meter.requests, ← taken]
      simp only [later]

theorem admittedIn_eq (start stop : UInt64) (made : List (UInt64 × Bool)) :
    admittedIn start stop made =
      Meter.admittedIn start.toNat stop.toNat
        (made.map fun call => (call.1.toNat, call.2)) := by
  rw [admittedIn, Meter.admittedIn, List.countP_map]
  rfl

/-- What a refill adds is at most what the time is worth. -/
theorem addTokens_le {rate : Nat} (small : rate < 2 ^ 31)
    (elapsedMs : UInt64) :
    addTokens rate elapsedMs ≤ (elapsedMs.toNat * rate / 1000 : Nat) := by
  have converted : (UInt64.ofInt rate).toNat = rate := by
    rw [UInt64.ofInt]
    simp
    omega
  have wraps : ∀ value : Nat, int32 value ≤ value := by
    intro value
    rw [int32, Int.bmod_def]
    split <;> omega
  have product : elapsedMs.toNat * rate % 2 ^ 64 / 1000 ≤
      elapsedMs.toNat * rate / 1000 :=
    Nat.div_le_div_right (Nat.mod_le _ _)
  apply (wraps _).trans
  rw [UInt64.toNat_div, UInt64.toNat_mul, converted]
  exact Int.ofNat_le.mpr product

theorem meter_credit (elapsedMs : Nat) :
    bucket.meter.credit elapsedMs =
      (addTokens bucket.refillRatePerSec (.ofNat elapsedMs)).toNat := by
  rw [meter]

/-- Credits for parts of a time add up to no more than the whole is worth. -/
theorem credit_add_le {rate : Nat} (small : rate < 2 ^ 31)
    (sameRate : bucket.refillRatePerSec = rate) (first second : Nat) :
    bucket.meter.credit first + second * rate / 1000 ≤
      (first + second) * rate / 1000 := by
  have added := addTokens_le small (.ofNat first)
  have elapsed : (UInt64.ofNat first).toNat * rate / 1000 ≤
      first * rate / 1000 := by
    apply Nat.div_le_div_right
    apply Nat.mul_le_mul_right
    rw [UInt64.toNat_ofNat']
    exact Nat.mod_le _ _
  have credit : bucket.meter.credit first ≤ first * rate / 1000 := by
    rw [meter_credit, sameRate]
    exact Int.toNat_le.mpr (added.trans (Int.ofNat_le.mpr elapsed))
  rw [Nat.add_mul]
  exact (Nat.add_le_add_right credit _).trans Nat.div_add_div_le_add_div

/-- A refill changes neither parameter. -/
theorem refill_parameters (bucket : TokenBucket) (now : UInt64) :
    (bucket.refill now).capacity = bucket.capacity ∧
      (bucket.refill now).refillRatePerSec = bucket.refillRatePerSec := by
  simp only [refill]
  split
  · exact ⟨rfl, rfl⟩
  · split
    · exact ⟨rfl, rfl⟩
    · split <;> exact ⟨rfl, rfl⟩

theorem consume_parameters (bucket : TokenBucket) (now : UInt64) :
    (bucket.consume 1 now).2.capacity = bucket.capacity ∧
      (bucket.consume 1 now).2.refillRatePerSec =
        bucket.refillRatePerSec := by
  have refilled := refill_parameters bucket now
  simp only [consume]
  split <;> exact refilled

/-- Small gaps do not overflow. -/
theorem noOverflow_of_gapsFit {rate : Nat} (small : rate < 2 ^ 31)
    (sameRate : bucket.refillRatePerSec = rate) (valid : bucket.Valid)
    {ticks : List UInt64}
    (gapsFit : GapsFit bucket.capacity rate bucket.lastRefillTick.toNat
      ticks) :
    bucket.NoOverflow ticks := by
  induction ticks generalizing bucket with
  | nil => trivial
  | cons now rest induction =>
      obtain ⟨sameCapacity, keepsRate⟩ := consume_parameters bucket now
      have fits : bucket.RefillFits now := by
        intro due
        rw [GapsFit, if_neg (by omega)] at gapsFit
        have added := addTokens_le small (now - bucket.lastRefillTick)
        have ordered : bucket.lastRefillTick ≤ now :=
          UInt64.le_iff_toNat_le.mpr (by omega)
        rw [UInt64.toNat_sub_of_le _ _ ordered, Int.natCast_ediv, Nat.cast_mul,
          Nat.cast_sub (by omega)] at added
        rw [sameRate]
        exact Int.lt_of_le_of_lt (Int.add_le_add valid.tokens_le added)
          gapsFit.1
      obtain ⟨nextValid, _, taken⟩ := consume_level valid fits
      have last : (bucket.consume 1 now).2.lastRefillTick.toNat =
          (bucket.meter.refill bucket.level now.toNat).last := by
        rw [← Meter.take_last, ← taken]
        rfl
      refine ⟨fits, induction (keepsRate.trans sameRate) nextValid ?_⟩
      rw [sameCapacity, last]
      by_cases early : now.toNat < bucket.lastRefillTick.toNat + 50
      · have same : bucket.meter.refill bucket.level now.toNat =
            bucket.level := if_pos early
        rw [GapsFit, if_pos early] at gapsFit
        rw [same]
        exact gapsFit
      · have moved : (bucket.meter.refill bucket.level now.toNat).last =
            now.toNat := congrArg Meter.Level.last (if_neg early)
        rw [GapsFit, if_neg early] at gapsFit
        rw [moved]
        exact gapsFit.2

theorem after_valid {ticks earlier : List UInt64} (valid : bucket.Valid)
    (fits : bucket.NoOverflow ticks) (isPrefix : earlier <+: ticks) :
    (bucket.after earlier).Valid ∧
      (bucket.after earlier).capacity = bucket.capacity ∧
      ∀ now, earlier ++ [now] <+: ticks →
        (bucket.after earlier).RefillFits now := by
  induction earlier generalizing bucket ticks with
  | nil =>
      refine ⟨valid, rfl, ?_⟩
      intro now first
      obtain ⟨rest, rfl⟩ := first
      exact fits.1
  | cons tick earlier induction =>
      obtain ⟨rest, rfl⟩ := isPrefix
      obtain ⟨tickFits, restFits⟩ := fits
      obtain ⟨nextValid, _, _⟩ := consume_level valid tickFits
      obtain ⟨laterValid, sameCapacity, laterFits⟩ :=
        induction nextValid restFits ⟨rest, rfl⟩
      refine ⟨laterValid,
        sameCapacity.trans (consume_parameters bucket tick).1, ?_⟩
      intro now next
      apply laterFits now
      exact (List.cons_prefix_cons.mp next).2

/-- A bucket whose gaps are small enough never leaves its bounds, and no window
of time gets more than a full bucket and 49 ms beyond its length pay for. -/
theorem consume_limited {capacity refillRatePerSec : Int}
    (capacityNonneg : 0 ≤ capacity) (capacitySmall : capacity < 2 ^ 31)
    (rateNonneg : 0 ≤ refillRatePerSec) (rateSmall : refillRatePerSec < 2 ^ 31)
    (created : UInt64) {ticks : List UInt64}
    (sorted : ticks.Pairwise (· ≤ ·))
    (gapsFit : GapsFit capacity refillRatePerSec created.toNat ticks) :
    let bucket := full capacity refillRatePerSec created
    (∀ earlier, earlier <+: ticks →
      0 ≤ (bucket.after earlier).tokens ∧
        (bucket.after earlier).tokens ≤ capacity) ∧
    (∀ earlier now, earlier ++ [now] <+: ticks →
      0 ≤ ((bucket.after earlier).refill now).tokens ∧
        ((bucket.after earlier).refill now).tokens ≤ capacity) ∧
    ∀ start stop : UInt64, start ≤ stop →
      (admittedIn start stop (bucket.calls ticks) : Int) ≤
        capacity +
          refillRatePerSec * (stop.toNat - start.toNat + 49) / 1000 := by
  intro bucket
  have valid : bucket.Valid :=
    full_valid capacityNonneg capacitySmall created
  obtain ⟨rate, rfl⟩ := Int.eq_ofNat_of_zero_le rateNonneg
  have small : rate < 2 ^ 31 := by exact_mod_cast rateSmall
  have fits : bucket.NoOverflow ticks :=
    noOverflow_of_gapsFit small rfl valid gapsFit
  refine ⟨?_, ?_, ?_⟩
  · intro earlier isPrefix
    obtain ⟨laterValid, sameCapacity, _⟩ := after_valid valid fits isPrefix
    refine ⟨laterValid.tokens_nonneg, ?_⟩
    exact laterValid.tokens_le.trans (Int.le_of_eq sameCapacity)
  · intro earlier now isPrefix
    have earlierPrefix := (List.prefix_append earlier [now]).trans isPrefix
    obtain ⟨laterValid, sameCapacity, laterFits⟩ :=
      after_valid valid fits earlierPrefix
    obtain ⟨refilled, _, _⟩ := refill_level laterValid (laterFits now isPrefix)
    have keeps := (refill_parameters (bucket.after earlier) now).1
    refine ⟨refilled.tokens_nonneg, ?_⟩
    exact refilled.tokens_le.trans (Int.le_of_eq (keeps.trans sameCapacity))
  · intro start stop ordered
    have times : (ticks.map UInt64.toNat).Pairwise (· ≤ ·) := by
      apply List.pairwise_map.mpr
      exact sorted.imp fun le => UInt64.le_iff_toNat_le.mp le
    have credits := @credit_add_le bucket _ small rfl
    have limited := @Meter.admittedIn_le _ _ credits start.toNat stop.toNat
      bucket.level _ (Nat.le_refl capacity.toNat) times
    rw [← calls_requests valid fits, ← admittedIn_eq] at limited
    have window : (((stop.toNat - start.toNat + 49) * rate / 1000 : Nat) : Int)
        = rate * (stop.toNat - start.toNat + 49) / 1000 := by
      rw [Int.natCast_ediv, Nat.cast_mul, Nat.cast_add,
        Nat.cast_sub (UInt64.le_iff_toNat_le.mp ordered), Int.mul_comm]
      rfl
    have full : (bucket.meter.capacity : Int) = capacity :=
      Int.toNat_of_nonneg capacityNonneg
    rw [← window, ← full]
    exact Int.ofNat_le.mpr limited

/-- The server's bucket: a burst of 40 packets, and two more later. -/
theorem consume_limited_burst :
    let ticks := List.replicate 40 1000 ++ [1075, 1100]
    let bucket := full 40 20 1000
    (∀ earlier, earlier <+: ticks →
      0 ≤ (bucket.after earlier).tokens ∧
        (bucket.after earlier).tokens ≤ 40) ∧
    (∀ earlier now, earlier ++ [now] <+: ticks →
      0 ≤ ((bucket.after earlier).refill now).tokens ∧
        ((bucket.after earlier).refill now).tokens ≤ 40) ∧
    ∀ start stop : UInt64, start ≤ stop →
      (admittedIn start stop (bucket.calls ticks) : Int) ≤
        40 + 20 * (stop.toNat - start.toNat + 49) / 1000 :=
  consume_limited (by decide) (by decide) (by decide) (by decide) 1000
    (by decide) (by simp [GapsFit])

/-- `Consume(1)` returns true at each of these ticks exactly when the calls are
covered from the construction on and from each refill on. -/
theorem allConsumed_iff {capacity refillRatePerSec : Int}
    (capacityNonneg : 0 ≤ capacity) (capacitySmall : capacity < 2 ^ 31)
    (created : UInt64) {ticks : List UInt64}
    (fits : (full capacity refillRatePerSec created).NoOverflow ticks) :
    (∀ call ∈ (full capacity refillRatePerSec created).calls ticks,
      call.2 = true) ↔
      (full capacity refillRatePerSec created).CoveredByRefills ticks := by
  let bucket := full capacity refillRatePerSec created
  have valid : bucket.Valid := full_valid capacityNonneg capacitySmall created
  have pause : 0 < bucket.meter.pause := by
    change 0 < 50
    decide
  have exactly := @Meter.allAdmitted_iff _ bucket.level
    (ticks.map UInt64.toNat) pause
  rw [← calls_requests valid fits, List.forall_mem_map] at exactly
  exact exactly

/-- A burst of 40 packets empties the bucket, and then each 50 ms bring the
token that the next packet takes. -/
theorem allConsumed_iff_steady :
    let ticks : List UInt64 := List.replicate 40 1000 ++ [1050, 1100, 1150]
    (∀ call ∈ (full 40 20 1000).calls ticks, call.2 = true) ∧
      (full 40 20 1000).CoveredByRefills ticks := by
  intro ticks
  have small : 20 < 2 ^ 31 := by decide
  have valid : (full 40 20 1000).Valid :=
    full_valid (by decide) (by decide) 1000
  have all : ((full 40 20 1000).calls ticks).all (·.2) = true := by
    decide +kernel
  have consumed : ∀ call ∈ (full 40 20 1000).calls ticks, call.2 = true :=
    List.all_eq_true.mp all
  have covered := (allConsumed_iff (by decide) (by decide) 1000
    (noOverflow_of_gapsFit small rfl valid (by simp [ticks, GapsFit, full]))).mp
      consumed
  exact ⟨consumed, covered⟩

/-- A client of the server that sends 40 packets at once and one more after 75
and after 100 ms keeps to the limit and is refused: the refill after 75 ms drops
half a token, and the one that is due after 100 ms is skipped. -/
theorem conformingBurst_refused :
    let ticks : List UInt64 := List.replicate 40 1000 ++ [1075, 1100]
    ticks.Pairwise (· ≤ ·) ∧ Conforming 40 20 ticks ∧
      ¬∀ call ∈ (full 40 20 1000).calls ticks, call.2 = true := by
  intro ticks
  refine ⟨by decide, ?_, ?_⟩
  · intro start stop ordered
    rw [UInt64.le_iff_toNat_le] at ordered
    rw [List.countP_append, List.countP_replicate, List.countP_cons,
      List.countP_singleton]
    simp only [Bool.and_eq_true, decide_eq_true_eq, UInt64.le_iff_toNat_le,
      UInt64.reduceToNat]
    split <;> split <;> split <;> omega
  · intro admitted
    have refused : (1100, false) ∈ (full 40 20 1000).calls ticks := by
      decide +kernel
    exact absurd (admitted _ refused) Bool.false_ne_true

end Runs

end TokenBucket

end IocpChat
