import Mathlib.Data.Int.Basic
import Mathlib.Tactic.Ring

/-!
# Basic types of the engine

`int32` is the value an `int32` expression takes: sums are computed in the
integers and wrapped.  A `std::string` is its bytes.
-/

namespace IocpChat

/-- `std::string`. -/
abbrev StdString := List UInt8

/-- The bytes of a string literal; every literal of the source is ASCII. -/
def literal (text : String) : StdString :=
  text.toList.map fun character => UInt8.ofNat character.toNat

@[simp] theorem length_literal (text : String) :
    (literal text).length = text.length := by
  simp [literal, String.length_toList]

/-- Wrap an integer to the range of `int32`. -/
def int32 (value : Int) : Int :=
  value.bmod (2 ^ 32)

/-- Inside the range nothing wraps. -/
theorem int32_of_range {value : Int} (lower : -(2 ^ 31) ≤ value)
    (upper : value < 2 ^ 31) : int32 value = value := by
  apply Int.bmod_eq_of_le <;> omega

/-- A sum may be wrapped on the way. -/
theorem int32_add_int32 (left right : Int) :
    int32 (int32 left + right) = int32 (left + right) :=
  Int.bmod_add_bmod

end IocpChat
