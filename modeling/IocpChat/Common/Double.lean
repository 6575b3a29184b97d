import Mathlib.Data.Rat.Floor
import IocpChat.Lib.FloatingPoint

/-!
# double

A `double` that is neither infinite nor not a number is a rational number of the
binary64 format.  The result of an operation is the exact one, rounded.
-/

namespace IocpChat

/-- The rounding of `double`. -/
def binary64 : FloatingPoint.Format where
  precision := 53
  minExponent := -1074
  precision_pos := by decide

/-- A finite `double`. -/
structure Double where
  value : ℚ
  representable : binary64.round value = value
  finite : |value| < 2 ^ 1024

namespace Double

theorem round_natCast {number : Nat} (small : number < 2 ^ 53) :
    binary64.round (number : ℚ) = number :=
  binary64.round_natCast small (by decide)

/-- An integer of at most 53 binary digits. -/
def ofNat (number : Nat) (small : number < 2 ^ 53) : Double where
  value := number
  representable := round_natCast small
  finite := by
    rw [abs_of_nonneg (Nat.cast_nonneg number)]
    calc
      (number : ℚ) < 2 ^ 53 := by exact_mod_cast small
      _ < 2 ^ 1024 := pow_lt_pow_right₀ one_lt_two (by decide)

/-- Up to a power of two the rounding is off by half the unit of the power. -/
theorem abs_round_sub_le {value : ℚ} {power : Int} (nonneg : 0 ≤ value)
    (below : value < 2 ^ power) (least : -1074 ≤ power - 53) :
    |binary64.round value - value| ≤ 2 ^ (power - 53) / 2 := by
  rcases nonneg.eq_or_lt with rfl | positive
  · rw [binary64.round_zero, sub_zero, abs_zero]
    exact (half_pos (zpow_pos two_pos _)).le
  · calc
      |binary64.round value - value| ≤ binary64.unit value / 2 :=
        binary64.abs_round_sub value
      _ ≤ 2 ^ (power - 53) / 2 := by
        have units := binary64.unit_le positive below least
        exact div_le_div_of_nonneg_right units two_pos.le

end Double

end IocpChat
