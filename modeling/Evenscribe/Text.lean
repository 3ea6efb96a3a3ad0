import Mathlib.Algebra.Order.Group.Nat
import Mathlib.Data.List.TakeWhile
import Mathlib.Tactic.Common

/-!
# Bytes, strings and decimal numbers

A `std::string` is its list of bytes. A `char *` is read up to its first NUL.
-/

namespace Evenscribe

/-- The bytes of a `std::string`. -/
abbrev Text := List UInt8

/-- The bytes of an ASCII literal of the source. -/
def text (literal : String) : Text := literal.toList.map Char.toUInt8

/-- `'`. -/
def quote : UInt8 := 39

/-- `"`. -/
def doubleQuote : UInt8 := 34

/-- `\`. -/
def backslash : UInt8 := 92

/-- `%`. -/
def percent : UInt8 := 37

/-- `/`. -/
def slash : UInt8 := 47

/-- The string a `char *` to these bytes denotes. -/
def cString (bytes : Text) : Text := bytes.takeWhile (· ≠ 0)

/-- The ASCII digits. -/
def isDigit (byte : UInt8) : Bool := decide (48 ≤ byte ∧ byte ≤ 57)

/-- The number a run of decimal digits denotes. -/
def digitsValue (digits : Text) : ℕ :=
  digits.foldl (fun value digit => 10 * value + (digit.toNat - 48)) 0

/-- The decimal digits of a number. -/
def decimal (number : ℕ) : Text := (Nat.toDigits 10 number).map Char.toUInt8

/-- `std::to_string`. -/
def stdToString : ℤ → Text
  | .ofNat number => decimal number
  | .negSucc number => text "-" ++ decimal (number + 1)

/-- A string ends at its first zero byte. -/
theorem cString_append_zero {bytes : Text} (terminated : 0 ∉ bytes) (rest : Text) :
    cString (bytes ++ 0 :: rest) = bytes := by
  unfold cString
  rw [List.takeWhile_append_of_pos, List.takeWhile_cons_of_neg (by decide), List.append_nil]
  intro byte member
  exact decide_eq_true fun zero => terminated (zero ▸ member)

/-- A text without a zero byte is all string. -/
theorem cString_eq_self {bytes : Text} (terminated : 0 ∉ bytes) : cString bytes = bytes := by
  refine List.takeWhile_eq_self_iff.mpr fun byte member => ?_
  exact decide_eq_true fun zero => terminated (zero ▸ member)

theorem toNat_toUInt8_of_isDigit {char : Char} (digit : char.isDigit = true) :
    char.toUInt8.toNat = char.toNat := by
  simp only [Char.isDigit, Bool.and_eq_true, decide_eq_true_eq] at digit
  have bound : char.val.toNat ≤ 57 := UInt32.le_iff_toNat_le.mp digit.2
  change char.val.toUInt8.toNat = char.val.toNat
  rw [UInt32.toNat_toUInt8]
  omega

theorem isDigit_toUInt8 {char : Char} (digit : char.isDigit = true) :
    isDigit char.toUInt8 = true := by
  have same := toNat_toUInt8_of_isDigit digit
  simp only [Char.isDigit, Bool.and_eq_true, decide_eq_true_eq] at digit
  have lower : 48 ≤ char.toNat := UInt32.le_iff_toNat_le.mp digit.1
  have upper : char.toNat ≤ 57 := UInt32.le_iff_toNat_le.mp digit.2
  simp only [isDigit, decide_eq_true_eq, UInt8.le_iff_toNat_le, same]
  exact ⟨lower, upper⟩

/-- Every number has a digit. -/
theorem decimal_ne_nil (number : ℕ) : decimal number ≠ [] := by
  simp [decimal, Nat.toDigits_ne_nil]

/-- A number is written in digits. -/
theorem isDigit_of_mem_decimal {number : ℕ} {byte : UInt8} (member : byte ∈ decimal number) :
    isDigit byte = true := by
  obtain ⟨char, inside, rfl⟩ := List.mem_map.mp member
  exact isDigit_toUInt8 (Nat.isDigit_of_mem_toDigits (by decide) (by decide) inside)

/-- A number is read back from its decimal digits. -/
theorem digitsValue_decimal (number : ℕ) : digitsValue (decimal number) = number := by
  have bytes : ∀ (chars : List Char) (start : ℕ), (∀ char ∈ chars, char.isDigit = true) →
      (chars.map Char.toUInt8).foldl (fun value digit => 10 * value + (digit.toNat - 48)) start =
        Nat.ofDigitChars 10 chars start := by
    intro chars
    induction chars with
    | nil => intro start _; rfl
    | cons char rest ih =>
        intro start digits
        have head := toNat_toUInt8_of_isDigit (digits char (List.mem_cons_self ..))
        rw [List.map_cons, List.foldl_cons, head, Nat.ofDigitChars_cons]
        exact ih _ fun other member => digits other (List.mem_cons_of_mem _ member)
  unfold digitsValue decimal
  rw [bytes _ 0 fun char member => Nat.isDigit_of_mem_toDigits (by decide) (by decide) member]
  exact Nat.ofDigitChars_ten_toDigits

end Evenscribe
