import Mathlib.Algebra.Order.Floor.Ring
import Mathlib.Algebra.Order.Floor.Semiring
import Mathlib.Data.Int.Log
import Mathlib.Tactic.FieldSimp
import Mathlib.Tactic.Linarith
import Mathlib.Tactic.Positivity
import Mathlib.Tactic.Ring

/-!
# Floating-point rounding

A format has so many binary digits and a smallest exponent.  Rounding takes a
number to the nearest multiple of the unit in its last place, and a tie to the
even one.  On the numbers that are not negative it is monotone, leaves integers
alone that have few enough digits, and is off by half a unit at most.
-/

namespace FloatingPoint

/-- Digits of the significand, and the exponent of the smallest number. -/
structure Format where
  precision : Nat
  minExponent : Int
  precision_pos : 0 < precision
  deriving DecidableEq

section Integers

variable {K : Type u} [Field K] [LinearOrder K] [IsStrictOrderedRing K]
  [FloorRing K]

/-- The nearest integer, the even one of two. -/
def roundHalfEven (value : K) : Int :=
  if Int.fract value < 1 / 2 then ⌊value⌋
  else if 1 / 2 < Int.fract value then ⌊value⌋ + 1
  else if ⌊value⌋ % 2 = 0 then ⌊value⌋
  else ⌊value⌋ + 1

theorem roundHalfEven_intCast (number : Int) :
    roundHalfEven (number : K) = number := by
  have none : Int.fract (number : K) < 1 / 2 := by
    rw [Int.fract_intCast]
    positivity
  rw [roundHalfEven, if_pos none, Int.floor_intCast]

omit [IsStrictOrderedRing K] in
theorem floor_le_roundHalfEven (value : K) :
    ⌊value⌋ ≤ roundHalfEven value := by
  rw [roundHalfEven]
  split
  · exact le_rfl
  · split
    · exact Int.le_add_one le_rfl
    · split
      · exact le_rfl
      · exact Int.le_add_one le_rfl

omit [IsStrictOrderedRing K] in
theorem roundHalfEven_le (value : K) : roundHalfEven value ≤ ⌊value⌋ + 1 := by
  rw [roundHalfEven]
  split
  · exact Int.le_add_one le_rfl
  · split
    · exact le_rfl
    · split
      · exact Int.le_add_one le_rfl
      · exact le_rfl

theorem roundHalfEven_mono {low high : K} (le : low ≤ high) :
    roundHalfEven low ≤ roundHalfEven high := by
  rcases (Int.floor_mono le).lt_or_eq with below | same
  · calc
      roundHalfEven low ≤ ⌊low⌋ + 1 := roundHalfEven_le low
      _ ≤ ⌊high⌋ := below
      _ ≤ roundHalfEven high := floor_le_roundHalfEven high
  · -- in one unit interval only the fraction decides
    have fract : Int.fract low ≤ Int.fract high := by
      rw [Int.fract, Int.fract, same]
      exact sub_le_sub_right le _
    by_cases lowBelow : Int.fract low < 1 / 2
    · rw [roundHalfEven, if_pos lowBelow, same]
      exact floor_le_roundHalfEven high
    · have highNot : ¬Int.fract high < 1 / 2 :=
        fun below => lowBelow (fract.trans_lt below)
      by_cases highAbove : 1 / 2 < Int.fract high
      · calc
          roundHalfEven low ≤ ⌊low⌋ + 1 := roundHalfEven_le low
          _ = roundHalfEven high := by
            rw [roundHalfEven, if_neg highNot, if_pos highAbove, same]
      · have lowNotAbove : ¬1 / 2 < Int.fract low :=
          fun above => highAbove (above.trans_le fract)
        rw [roundHalfEven, roundHalfEven, if_neg lowBelow, if_neg lowNotAbove,
          if_neg highNot, if_neg highAbove, same]

theorem abs_roundHalfEven_sub (value : K) :
    |(roundHalfEven value : K) - value| ≤ 1 / 2 := by
  have split := Int.floor_add_fract value
  have atLeast := Int.fract_nonneg value
  have below := Int.fract_lt_one value
  rw [abs_le, roundHalfEven]
  split_ifs with small large <;> push_cast <;> constructor <;> linarith

/-- What is nearer to an integer than half is rounded to it. -/
theorem roundHalfEven_eq {value : K} {number : Int}
    (near : |value - number| < 1 / 2) : roundHalfEven value = number := by
  have error := abs_roundHalfEven_sub value
  rw [abs_lt] at near
  rw [abs_le] at error
  have below : (roundHalfEven value : K) < (number + 1 : Int) := by
    push_cast
    linarith
  have above : ((number - 1 : Int) : K) < roundHalfEven value := by
    push_cast
    linarith
  have first := Int.cast_lt.mp below
  have second := Int.cast_lt.mp above
  omega

end Integers

namespace Format

variable {K : Type u} [Field K] [LinearOrder K] [IsStrictOrderedRing K]
  [FloorRing K] (format : Format)

/-- The exponent of the last digit of a number. -/
def exponent (value : K) : Int :=
  max (Int.log 2 |value| + 1 - format.precision) format.minExponent

/-- The unit in the last place. -/
def unit (value : K) : K :=
  2 ^ format.exponent value

def round (value : K) : K :=
  roundHalfEven (value / format.unit value) * format.unit value

theorem unit_pos (value : K) : 0 < format.unit value := by
  exact zpow_pos two_pos _

theorem exponent_mono {low high : K} (positive : 0 < low) (le : low ≤ high) :
    format.exponent low ≤ format.exponent high := by
  have logs : Int.log 2 |low| ≤ Int.log 2 |high| := by
    rw [abs_of_pos positive, abs_of_pos (positive.trans_le le)]
    exact Int.log_mono_right positive le
  rw [exponent, exponent]
  exact max_le_max_right _ (by omega)

omit [FloorRing K] in
/-- A multiple of a unit is one of every smaller unit. -/
theorem exists_multiple {small large : Int} (le : small ≤ large)
    (number : Int) :
    ∃ multiple : Int, (number : K) * 2 ^ large = multiple * 2 ^ small := by
  obtain ⟨digits, rfl⟩ := Int.le.dest le
  refine ⟨number * 2 ^ digits, ?_⟩
  have split : (2 : K) ^ (small + (digits : Int)) = 2 ^ digits * 2 ^ small := by
    rw [zpow_add₀ two_ne_zero, zpow_natCast, mul_comm]
  push_cast
  rw [split, mul_assoc]

/-- A multiple of the unit stays as it is. -/
theorem round_of_multiple {value : K} {number exponent : Int}
    (multiple : value = number * 2 ^ exponent)
    (coarse : format.exponent value ≤ exponent) :
    format.round value = value := by
  obtain ⟨units, same⟩ := @exists_multiple K _ _ _ _ _ coarse number
  have ratio : value / format.unit value = (units : K) := by
    rw [div_eq_iff (format.unit_pos value).ne', unit, ← same]
    exact multiple
  rw [round, ratio, roundHalfEven_intCast, ← ratio,
    div_mul_cancel₀ _ (format.unit_pos value).ne']

theorem round_zero : format.round (0 : K) = 0 := by
  have none := @roundHalfEven_intCast K _ _ _ _ 0
  rw [Int.cast_zero] at none
  rw [round, zero_div, none, Int.cast_zero, zero_mul]

/-- An integer with few enough digits is a number of the format. -/
theorem round_natCast {number : Nat} (small : number < 2 ^ format.precision)
    (integers : format.minExponent ≤ 0) :
    format.round (number : K) = number := by
  rcases Nat.eq_zero_or_pos number with rfl | positive
  · rw [Nat.cast_zero]
    exact format.round_zero
  · have multiple : (number : K) = (number : Int) * 2 ^ (0 : Int) := by
      rw [zpow_zero, mul_one, Int.cast_natCast]
    apply format.round_of_multiple multiple
    have digits : Int.log 2 |(number : K)| < format.precision := by
      rw [abs_of_nonneg (Nat.cast_nonneg number), Int.log_natCast]
      exact_mod_cast Nat.log_lt_of_lt_pow positive.ne' small
    exact max_le (by omega) integers

theorem round_nonneg {value : K} (nonneg : 0 ≤ value) :
    0 ≤ format.round value := by
  have ratio : 0 ≤ value / format.unit value :=
    div_nonneg nonneg (format.unit_pos value).le
  have digits : 0 ≤ roundHalfEven (value / format.unit value) :=
    (Int.floor_nonneg.mpr ratio).trans (floor_le_roundHalfEven _)
  exact mul_nonneg (Int.cast_nonneg digits) (format.unit_pos value).le

/-- Below a multiple of its unit a number is rounded to at most that. -/
theorem round_le {value bound : K} {units : Int}
    (multiple : bound = units * format.unit value) (le : value ≤ bound) :
    format.round value ≤ bound := by
  have positive := format.unit_pos value
  have ratio : value / format.unit value ≤ (units : K) := by
    rw [div_le_iff₀ positive, ← multiple]
    exact le
  have digits := roundHalfEven_mono ratio
  rw [roundHalfEven_intCast] at digits
  rw [round, multiple]
  exact mul_le_mul_of_nonneg_right (Int.cast_le.mpr digits) positive.le

theorem le_round {value bound : K} {units : Int}
    (multiple : bound = units * format.unit value) (le : bound ≤ value) :
    bound ≤ format.round value := by
  have positive := format.unit_pos value
  have ratio : (units : K) ≤ value / format.unit value := by
    rw [le_div_iff₀ positive, ← multiple]
    exact le
  have digits := roundHalfEven_mono ratio
  rw [roundHalfEven_intCast] at digits
  rw [round, multiple]
  exact mul_le_mul_of_nonneg_right (Int.cast_le.mpr digits) positive.le

theorem round_mono {low high : K} (nonneg : 0 ≤ low) (le : low ≤ high) :
    format.round low ≤ format.round high := by
  rcases nonneg.eq_or_lt with rfl | positive
  · rw [round_zero]
    exact format.round_nonneg le
  have highPositive := positive.trans_le le
  rcases (format.exponent_mono positive le).lt_or_eq with below | same
  · -- a power of two lies between them, which both formats have
    have atLow : Int.log 2 |low| + 1 - format.precision ≤
        format.exponent low := le_max_left ..
    have atHigh : format.exponent high =
        Int.log 2 |high| + 1 - format.precision := by
      apply max_eq_left
      by_contra small
      have least : format.exponent high = format.minExponent :=
        max_eq_right (le_of_not_ge small)
      have atLeast : format.minExponent ≤ format.exponent low :=
        le_max_right ..
      omega
    have digits := format.precision_pos
    rw [abs_of_pos highPositive] at atHigh
    rw [abs_of_pos positive] at atLow
    have power : (2 : K) ^ Int.log 2 high ≤ high :=
      Int.zpow_log_le_self one_lt_two highPositive
    have between : low ≤ (2 : K) ^ Int.log 2 high := by
      calc
        low ≤ (2 : K) ^ (Int.log 2 low + 1) :=
          (Int.lt_zpow_succ_log_self one_lt_two low).le
        _ ≤ (2 : K) ^ Int.log 2 high :=
          zpow_le_zpow_right₀ one_le_two (by omega)
    obtain ⟨lowUnits, lowMultiple⟩ := @exists_multiple K _ _ _
      (format.exponent low) (Int.log 2 high) (by omega) 1
    obtain ⟨highUnits, highMultiple⟩ := @exists_multiple K _ _ _
      (format.exponent high) (Int.log 2 high) (by omega) 1
    rw [Int.cast_one, one_mul] at lowMultiple highMultiple
    calc
      format.round low ≤ (2 : K) ^ Int.log 2 high :=
        format.round_le lowMultiple between
      _ ≤ format.round high := format.le_round highMultiple power
  · have units : format.unit low = format.unit high := by
      rw [unit, unit, same]
    rw [round, round, units]
    have ratio : low / format.unit high ≤ high / format.unit high :=
      div_le_div_of_nonneg_right le (format.unit_pos high).le
    exact mul_le_mul_of_nonneg_right
      (Int.cast_le.mpr (roundHalfEven_mono ratio)) (format.unit_pos high).le

/-- Rounding is off by half a unit at most. -/
theorem abs_round_sub (value : K) :
    |format.round value - value| ≤ format.unit value / 2 := by
  have positive := format.unit_pos value
  have error := abs_roundHalfEven_sub (value / format.unit value)
  have scaled : format.round value - value =
      ((roundHalfEven (value / format.unit value) : K) -
        value / format.unit value) * format.unit value := by
    rw [sub_mul, div_mul_cancel₀ _ positive.ne', round]
  rw [scaled, abs_mul, abs_of_pos positive]
  calc
    _ ≤ 1 / 2 * format.unit value :=
      mul_le_mul_of_nonneg_right error positive.le
    _ = format.unit value / 2 := by ring

/-- Below a power of two the unit is at most that of the power. -/
theorem unit_le {value : K} {power : Int} (positive : 0 < value)
    (below : value < 2 ^ power)
    (least : format.minExponent ≤ power - format.precision) :
    format.unit value ≤ 2 ^ (power - format.precision) := by
  have log : Int.log 2 value < power :=
    (Int.lt_zpow_iff_log_lt one_lt_two positive).mp below
  apply zpow_le_zpow_right₀ one_le_two
  rw [exponent, abs_of_pos positive]
  exact max_le (by omega) least

/-- Between two powers of two the nearest multiple of the unit counts. -/
theorem round_eq {value : K} {power number : Int}
    (atLeast : 2 ^ power ≤ value) (below : value < 2 ^ (power + 1))
    (least : format.minExponent ≤ power + 1 - format.precision)
    (near : |value / 2 ^ (power + 1 - (format.precision : Int)) - number| <
      1 / 2) :
    format.round value =
      number * 2 ^ (power + 1 - (format.precision : Int)) := by
  have positive : 0 < value := (zpow_pos two_pos power).trans_le atLeast
  have log : Int.log 2 value = power := by
    have lower := (Int.zpow_le_iff_le_log one_lt_two positive).mp atLeast
    have upper := (Int.lt_zpow_iff_log_lt one_lt_two positive).mp below
    omega
  have units : format.unit value =
      2 ^ (power + 1 - (format.precision : Int)) := by
    rw [unit, exponent, abs_of_pos positive, log, max_eq_left least]
  rw [round, units, roundHalfEven_eq near]

end Format

end FloatingPoint
