import Evenscribe.Text
import Mathlib.Data.Rat.Floor
import Mathlib.Algebra.Order.Field.Rat

/-!
# Numbers of the C library

The value of a `double` is kept as the rational it is exactly, or as the
infinity that overflow gives. A zero has no sign here: `-0` gives a negative zero, which
compares equal to zero, is converted like it and printed like it. The not-a-number
values, which no numeral of JSON denotes, are left out.
-/

namespace Evenscribe

/-- A `double`. -/
inductive Double where
  | finite (value : ℚ)
  | infinite (negative : Bool)
  deriving DecidableEq

namespace Double

/-- The exponent of the largest power of two that is at most a positive rational. -/
def binaryExponent (magnitude : ℚ) : ℤ :=
  let guess : ℤ := magnitude.num.natAbs.log2 - magnitude.den.log2
  if (2 : ℚ) ^ guess ≤ magnitude then guess else guess - 1

/-- The nearest integer, and of two equally near ones the even one. -/
def nearestInteger (value : ℚ) : ℤ :=
  let below := value.floor
  let excess := value - below
  if excess < 1 / 2 ∨ (excess = 1 / 2 ∧ below % 2 = 0) then below else below + 1

/-- The `double` nearest to a rational: 53 significant bits, no unit below
`2 ^ (-1074)`, and infinity from `2 ^ 1024` on. -/
def nearest (value : ℚ) : Double :=
  let unit : ℚ := 2 ^ max (binaryExponent |value| - 52) (-1074)
  let rounded : ℚ := nearestInteger (value / unit) * unit
  if 2 ^ 1024 ≤ |rounded| then .infinite (decide (value < 0)) else .finite rounded

end Double

/-- The integral part of a rational, towards zero. -/
def integralPart (value : ℚ) : ℤ := value.num.tdiv value.den

/-- An optional sign, and whether it is a minus. -/
def readSign : Text → Bool × Text
  | [] => (false, [])
  | first :: rest =>
      if first = 45 then (true, rest)
      else if first = 43 then (false, rest)
      else (false, first :: rest)

/-- A decimal point and the digits after it, if there is one. -/
def readFraction : Text → Text × Text
  | [] => ([], [])
  | first :: rest =>
      if first = 46 then (rest.takeWhile isDigit, rest.dropWhile isDigit)
      else ([], first :: rest)

/-- An exponent, if its mark is followed by a number; otherwise the mark is not
part of the numeral. -/
def readExponent : Text → ℤ × Text
  | [] => (0, [])
  | first :: rest =>
      let (negative, digits) := readSign rest
      if (first = 101 ∨ first = 69) ∧ digits.takeWhile isDigit ≠ [] then
        let number : ℤ := digitsValue (digits.takeWhile isDigit)
        (if negative then -number else number, digits.dropWhile isDigit)
      else (0, first :: rest)

/-- `strtod` on a string of signs, digits, points and exponent marks: the value of
the longest numeral in front, and `endptr`. Nothing is returned when no numeral
stands there, where C returns zero and an `endptr` that has not moved. -/
def strtod (nptr : Text) : Option (Double × Text) :=
  let (negative, unsigned) := readSign nptr
  let whole := unsigned.takeWhile isDigit
  let (fraction, rest) := readFraction (unsigned.dropWhile isDigit)
  let (exponent, endptr) := readExponent rest
  if whole ++ fraction = [] then none
  else
    let magnitude : ℚ := digitsValue (whole ++ fraction) * 10 ^ (exponent - fraction.length)
    some (Double.nearest (if negative then -magnitude else magnitude), endptr)

theorem readSign_suffix (input : Text) : (readSign input).2 <:+ input := by
  cases input with
  | nil => exact List.suffix_rfl
  | cons first rest =>
      simp only [readSign]
      split
      · exact List.suffix_cons ..
      · split
        · exact List.suffix_cons ..
        · exact List.suffix_rfl

theorem readFraction_suffix (input : Text) : (readFraction input).2 <:+ input := by
  cases input with
  | nil => exact List.suffix_rfl
  | cons first rest =>
      simp only [readFraction]
      split
      · exact (List.dropWhile_suffix _).trans (List.suffix_cons ..)
      · exact List.suffix_rfl

/-- A fraction with digits is not empty text. -/
theorem readFraction_shorter {input : Text} (digits : (readFraction input).1 ≠ []) :
    (readFraction input).2.length < input.length := by
  cases input with
  | nil => exact (digits rfl).elim
  | cons first rest =>
      simp only [readFraction] at digits ⊢
      split
      · exact Nat.lt_succ_of_le (List.dropWhile_suffix _).length_le
      · next other => simp [other] at digits

theorem readExponent_suffix (input : Text) : (readExponent input).2 <:+ input := by
  cases input with
  | nil => exact List.suffix_rfl
  | cons first rest =>
      simp only [readExponent]
      split
      · exact ((List.dropWhile_suffix _).trans (readSign_suffix rest)).trans (List.suffix_cons ..)
      · exact List.suffix_rfl

/-- `strtod` moves `endptr` forward, to an end of its string. -/
theorem strtod_advances {nptr endptr : Text} {number : Double}
    (result : strtod nptr = some (number, endptr)) :
    endptr <:+ nptr ∧ endptr.length < nptr.length := by
  simp only [strtod] at result
  split at result
  · simp at result
  · next digits =>
      obtain ⟨rfl, rfl⟩ := Prod.mk.inj (Option.some.inj result)
      have sign := readSign_suffix nptr
      have whole := List.dropWhile_suffix isDigit (l := (readSign nptr).2)
      have fraction := readFraction_suffix ((readSign nptr).2.dropWhile isDigit)
      have exponent :=
        readExponent_suffix (readFraction ((readSign nptr).2.dropWhile isDigit)).2
      refine ⟨((exponent.trans fraction).trans whole).trans sign, ?_⟩
      by_cases point : (readFraction ((readSign nptr).2.dropWhile isDigit)).1 = []
      · rw [point, List.append_nil] at digits
        have taken := List.length_pos_iff.mpr digits
        have parts := congrArg List.length
          (List.takeWhile_append_dropWhile (p := isDigit) (l := (readSign nptr).2))
        rw [List.length_append] at parts
        have := exponent.length_le
        have := fraction.length_le
        have := sign.length_le
        omega
      · have := readFraction_shorter point
        have := exponent.length_le
        have := whole.length_le
        have := sign.length_le
        omega

example : strtod (text "-12.5e1,") = some (.finite (-125), text ",") := by decide +kernel

end Evenscribe
