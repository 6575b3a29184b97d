import Mathlib.Data.List.Basic
import Mathlib.Data.List.TakeWhile
import IocpChat.Common.Types

/-!
# Decimal numbers

`std::stoull` reads what `std::to_string` writes.  A minus sign is read as well:
the number is then negated in the range of the result.
-/

namespace IocpChat

/-- `std::isspace`. -/
def isSpace (character : UInt8) : Bool :=
  character = 32 ∨ 9 ≤ character ∧ character ≤ 13

/-- `std::isdigit`. -/
def isDigit (character : UInt8) : Bool :=
  48 ≤ character ∧ character ≤ 57

def ofDigits (digits : StdString) : Nat :=
  digits.foldl (fun value digit => 10 * value + (digit.toNat - 48)) 0

/-- `std::stoull` from its digits on. -/
def stoullDigits (negative : Bool) (text : StdString) : Option UInt64 :=
  let digits := text.takeWhile isDigit
  let value := ofDigits digits
  if digits = [] then none -- std::invalid_argument
  else if value ≥ 2 ^ 64 then none -- std::out_of_range
  else if negative then some (-UInt64.ofNat value)
  else some (UInt64.ofNat value)

/-- `std::stoull`, with no result where it throws. -/
def stoull (text : StdString) : Option UInt64 :=
  match text.dropWhile isSpace with
  | 45 :: text => stoullDigits true text
  | 43 :: text => stoullDigits false text
  | text => stoullDigits false text

@[simp] theorem literal_append (first second : String) :
    literal (first ++ second) = literal first ++ literal second := by
  simp [literal]

theorem ofDigits_map (characters : List Char)
    (digits : ∀ character ∈ characters, character.isDigit) :
    ofDigits (characters.map fun character => UInt8.ofNat character.toNat) =
      Nat.ofDigitChars 10 characters 0 := by
  rw [ofDigits, Nat.ofDigitChars_eq_foldl, List.foldl_map]
  apply List.foldl_ext
  intro value character member
  obtain ⟨_, upper⟩ := Char.isDigit_iff_toNat.mp (digits character member)
  have small : character.toNat < 256 := Nat.lt_of_le_of_lt upper (by decide)
  rw [UInt8.toNat_ofNat_of_lt' small]
  rfl

/-- The digits of a number. -/
structure IsDecimal (text : StdString) (value : Nat) : Prop where
  digits : ∀ character ∈ text, isDigit character
  nonempty : text ≠ []
  value : ofDigits text = value

theorem isDecimal_repr (value : Nat) :
    IsDecimal (literal value.repr) value := by
  have written : literal value.repr = (Nat.toDigits 10 value).map
      fun character => UInt8.ofNat character.toNat := by
    rw [literal, Nat.toList_repr]
  have digits : ∀ character ∈ Nat.toDigits 10 value, character.isDigit :=
    fun character member =>
      Nat.isDigit_of_mem_toDigits (by decide) (by decide) member
  constructor
  · rw [written]
    intro byte member
    obtain ⟨character, among, rfl⟩ := List.mem_map.mp member
    obtain ⟨lower, upper⟩ :=
      Char.isDigit_iff_toNat.mp (digits character among)
    have small : character.toNat < 256 := Nat.lt_of_le_of_lt upper (by decide)
    simp only [isDigit, decide_eq_true_eq, UInt8.le_iff_toNat_le,
      UInt8.toNat_ofNat_of_lt' small]
    exact ⟨lower, upper⟩
  · rw [written]
    intro empty
    exact Nat.toDigits_ne_nil (List.map_eq_nil_iff.mp empty)
  · rw [written, ofDigits_map _ digits]
    exact Nat.ofDigitChars_ten_toDigits

theorem IsDecimal.stoullDigits {text : StdString} {value : Nat}
    (decimal : IsDecimal text value) (small : value < 2 ^ 64)
    (negative : Bool) :
    stoullDigits negative text =
      some (if negative then -UInt64.ofNat value else UInt64.ofNat value) := by
  have all : text.takeWhile isDigit = text :=
    List.takeWhile_eq_self_iff.mpr decimal.digits
  simp only [IocpChat.stoullDigits, all, decimal.value]
  rw [if_neg decimal.nonempty, if_neg (Nat.not_le_of_lt small)]
  split <;> rfl

theorem isDigit_cases {character : UInt8} (digit : isDigit character) :
    ¬isSpace character ∧ character ≠ 45 ∧ character ≠ 43 := by
  simp only [isDigit, decide_eq_true_eq, UInt8.le_iff_toNat_le] at digit
  have bounds : 48 ≤ character.toNat ∧ character.toNat ≤ 57 := digit
  simp only [isSpace, decide_eq_true_eq, UInt8.le_iff_toNat_le,
    ← UInt8.toNat_inj, ne_eq]
  change ¬(character.toNat = 32 ∨ 9 ≤ character.toNat ∧ character.toNat ≤ 13) ∧
    ¬character.toNat = 45 ∧ ¬character.toNat = 43
  omega

theorem IsDecimal.stoull {text : StdString} {value : Nat}
    (decimal : IsDecimal text value) (small : value < 2 ^ 64) :
    stoull text = some (UInt64.ofNat value) := by
  have read := decimal.stoullDigits small false
  cases text with
  | nil => exact absurd rfl decimal.nonempty
  | cons character text =>
      have digit := decimal.digits character List.mem_cons_self
      obtain ⟨visible, noMinus, noPlus⟩ := isDigit_cases digit
      unfold IocpChat.stoull
      rw [List.dropWhile_cons_of_neg visible]
      split
      · rename_i minus
        exact absurd (List.cons.inj minus).1 noMinus
      · rename_i plus
        exact absurd (List.cons.inj plus).1 noPlus
      · exact read

/-- What `std::to_string` writes of a 64-bit integer is read as its unsigned
value. -/
theorem stoull_toString (number : Int64) :
    stoull (literal (toString number.toInt)) = some number.toUInt64 := by
  have lower := Int64.le_toInt number
  have upper := Int64.toInt_lt number
  have same := Int64.ofInt_toInt number
  generalize number.toInt = value at lower upper same ⊢
  cases value with
  | ofNat value =>
      have small : value < 2 ^ 64 := by
        change (value : Int) < 2 ^ 63 at upper
        omega
      have unsigned : number.toUInt64 = UInt64.ofNat value := by
        rw [← same]
        exact congrArg Int64.toUInt64 Int64.ofInt_eq_ofNat
      rw [unsigned]
      exact (isDecimal_repr value).stoull small
  | negSucc value =>
      have small : value + 1 < 2 ^ 64 := by
        rw [Int.negSucc_eq] at lower
        omega
      have unsigned : number.toUInt64 = -UInt64.ofNat (value + 1) := by
        rw [← same, Int.negSucc_eq, Int64.ofInt_neg, Int64.toUInt64_neg]
        exact congrArg (fun number => -Int64.toUInt64 number)
          Int64.ofInt_eq_ofNat
      rw [unsigned]
      change stoull (literal ("-" ++ (value + 1).repr)) = _
      rw [literal_append]
      exact (isDecimal_repr (value + 1)).stoullDigits small true

end IocpChat
