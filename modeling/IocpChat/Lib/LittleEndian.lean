import Mathlib.Data.Nat.Basic
import Mathlib.Tactic.Ring

/-!
# Little-endian object representations

`toLE` and `ofLE` convert between numbers and fixed-width byte strings.  A
`Scalar` is a type whose objects are copied byte by byte: its values have a
representation of a fixed size, and every canonical byte string of that size
represents exactly one value.
-/

namespace LittleEndian

/-- The lowest `width` bytes of a number, least significant first. -/
def toLE : Nat → Nat → List UInt8
  | 0, _ => []
  | width + 1, number =>
      UInt8.ofNat (number % 256) :: toLE width (number / 256)

/-- The number a byte string represents. -/
def ofLE : List UInt8 → Nat
  | [] => 0
  | byte :: bytes => byte.toNat + 256 * ofLE bytes

@[simp] theorem length_toLE (width number : Nat) :
    (toLE width number).length = width := by
  induction width generalizing number with
  | zero => rfl
  | succ width induction => simp [toLE, induction]

theorem ofLE_lt (bytes : List UInt8) : ofLE bytes < 256 ^ bytes.length := by
  induction bytes with
  | nil => simp [ofLE]
  | cons byte bytes induction =>
      have byteBound : byte.toNat < 256 := byte.toNat_lt
      simp only [ofLE, List.length_cons, Nat.pow_succ]
      omega

/-- A number survives the round trip modulo the width. -/
theorem ofLE_toLE (width number : Nat) :
    ofLE (toLE width number) = number % 256 ^ width := by
  induction width generalizing number with
  | zero => simp [toLE, ofLE, Nat.mod_one]
  | succ width induction =>
      have low : (UInt8.ofNat (number % 256)).toNat = number % 256 := by
        simp
      rw [toLE, ofLE, induction, low, Nat.pow_succ, Nat.mul_comm (256 ^ width),
        Nat.mod_mul]

theorem ofLE_toLE_of_lt {width number : Nat} (fits : number < 256 ^ width) :
    ofLE (toLE width number) = number := by
  rw [ofLE_toLE, Nat.mod_eq_of_lt fits]

/-- Every byte string is the representation of the number it stands for. -/
theorem toLE_ofLE (bytes : List UInt8) :
    toLE bytes.length (ofLE bytes) = bytes := by
  induction bytes with
  | nil => rfl
  | cons byte bytes induction =>
      have byteBound : byte.toNat < 256 := byte.toNat_lt
      have low : (byte.toNat + 256 * ofLE bytes) % 256 = byte.toNat := by
        omega
      have high : (byte.toNat + 256 * ofLE bytes) / 256 = ofLE bytes := by
        omega
      simp only [List.length_cons, toLE, ofLE, low, high, induction]
      simp

/-- A type whose objects are copied as `size` bytes.  `Canonical` holds of the
byte strings that are the representation of some value. -/
class Scalar (Value : Type) where
  size : Nat
  bytes : Value → List UInt8
  ofBytes : List UInt8 → Value
  Canonical : List UInt8 → Prop
  length_bytes : ∀ value, (bytes value).length = size
  ofBytes_bytes : ∀ value, ofBytes (bytes value) = value
  canonical_bytes : ∀ value, Canonical (bytes value)
  bytes_ofBytes : ∀ block, block.length = size → Canonical block →
    bytes (ofBytes block) = block

/-- A fixed-width integer type, given as numbers below `256 ^ size`. -/
@[reducible] def Scalar.ofFixedWidth {Value : Type} (size : Nat)
    (toNat : Value → Nat) (ofNat : Nat → Value)
    (bounded : ∀ value, toNat value < 256 ^ size)
    (ofNat_toNat : ∀ value, ofNat (toNat value) = value)
    (toNat_ofNat : ∀ number, number < 256 ^ size →
      toNat (ofNat number) = number) : Scalar Value where
  size := size
  bytes value := toLE size (toNat value)
  ofBytes block := ofNat (ofLE block)
  Canonical _ := True
  length_bytes value := length_toLE size (toNat value)
  ofBytes_bytes value := by
    rw [ofLE_toLE_of_lt (bounded value), ofNat_toNat]
  canonical_bytes _ := trivial
  bytes_ofBytes block length _ := by
    have blockBound : ofLE block < 256 ^ size := length ▸ ofLE_lt block
    rw [toNat_ofNat _ blockBound]
    exact length ▸ toLE_ofLE block

/-- A truth value is one byte, 0 or 1. -/
instance : Scalar Bool where
  size := 1
  bytes value := [if value then 1 else 0]
  ofBytes block := block.headD 0 != 0
  Canonical block := block = [0] ∨ block = [1]
  length_bytes _ := rfl
  ofBytes_bytes value := by cases value <;> rfl
  canonical_bytes value := by cases value <;> simp
  bytes_ofBytes block _ canonical := by
    rcases canonical with rfl | rfl <;> rfl

instance : Scalar UInt8 :=
  .ofFixedWidth 1 UInt8.toNat UInt8.ofNat UInt8.toNat_lt
    (fun _ => UInt8.ofNat_toNat) (fun _ bound => UInt8.toNat_ofNat_of_lt' bound)

instance : Scalar UInt16 :=
  .ofFixedWidth 2 UInt16.toNat UInt16.ofNat UInt16.toNat_lt
    (fun _ => UInt16.ofNat_toNat)
    (fun _ bound => UInt16.toNat_ofNat_of_lt' bound)

instance : Scalar UInt32 :=
  .ofFixedWidth 4 UInt32.toNat UInt32.ofNat UInt32.toNat_lt
    (fun _ => UInt32.ofNat_toNat)
    (fun _ bound => UInt32.toNat_ofNat_of_lt' bound)

instance : Scalar UInt64 :=
  .ofFixedWidth 8 UInt64.toNat UInt64.ofNat UInt64.toNat_lt
    (fun _ => UInt64.ofNat_toNat)
    (fun _ bound => UInt64.toNat_ofNat_of_lt' bound)

/-- Signed integers are stored as their two's complement. -/
instance : Scalar Int8 :=
  .ofFixedWidth 1 (fun value => value.toUInt8.toNat)
    (fun number => (UInt8.ofNat number).toInt8)
    (fun value => value.toUInt8.toNat_lt)
    (fun value => by simp)
    (fun number bound => by
      simpa using UInt8.toNat_ofNat_of_lt' bound)

instance : Scalar Int16 :=
  .ofFixedWidth 2 (fun value => value.toUInt16.toNat)
    (fun number => (UInt16.ofNat number).toInt16)
    (fun value => value.toUInt16.toNat_lt)
    (fun value => by simp)
    (fun number bound => by
      simpa using UInt16.toNat_ofNat_of_lt' bound)

instance : Scalar Int32 :=
  .ofFixedWidth 4 (fun value => value.toUInt32.toNat)
    (fun number => (UInt32.ofNat number).toInt32)
    (fun value => value.toUInt32.toNat_lt)
    (fun value => by simp)
    (fun number bound => by
      simpa using UInt32.toNat_ofNat_of_lt' bound)

instance : Scalar Int64 :=
  .ofFixedWidth 8 (fun value => value.toUInt64.toNat)
    (fun number => (UInt64.ofNat number).toInt64)
    (fun value => value.toUInt64.toNat_lt)
    (fun value => by simp)
    (fun number bound => by
      simpa using UInt64.toNat_ofNat_of_lt' bound)

@[simp] theorem Scalar.size_bool : Scalar.size Bool = 1 := rfl

@[simp] theorem Scalar.size_uint16 : Scalar.size UInt16 = 2 := rfl

@[simp] theorem Scalar.size_uint64 : Scalar.size UInt64 = 8 := rfl

@[simp] theorem Scalar.size_int32 : Scalar.size Int32 = 4 := rfl

end LittleEndian
