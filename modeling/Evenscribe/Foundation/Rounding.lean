import Mathlib.Algebra.Order.Floor.Ring
import Mathlib.Algebra.Order.Ring.Abs
import Mathlib.Algebra.Order.Field.Basic
import Mathlib.Data.Int.Log
import Mathlib.Tactic.FieldSimp
import Mathlib.Tactic.Linarith
import Mathlib.Tactic.Ring

/-!
# Rounding to a number of digits

A format is given by its base and by the exponent of the unit that it has for each
magnitude: a value is rounded to the nearest multiple of that unit (`roundTo`). A
representable value is what every value close to it is rounded to
(`roundTo_eq_of_close`), and so it survives a conversion to a format with enough
digits and back (`roundTo_roundTo_of_precise`).
-/

namespace Rounding

universe u

variable {K : Type u} [Field K] [LinearOrder K] [FloorRing K]

/-- The nearest integer, and of two equally near ones the even one. -/
def nearestEven (value : K) : ℤ :=
  if value - ⌊value⌋ < 1 / 2 ∨ (value - ⌊value⌋ = 1 / 2 ∧ ⌊value⌋ % 2 = 0) then ⌊value⌋
  else ⌊value⌋ + 1

section Nearest

variable [IsStrictOrderedRing K] {value : K}

/-- The nearest integer is at most one half away. -/
theorem abs_sub_nearestEven_le (value : K) : |value - nearestEven value| ≤ 1 / 2 := by
  have lower := Int.floor_le value
  have upper := Int.lt_floor_add_one value
  unfold nearestEven
  split
  · next below =>
      have half : value - ⌊value⌋ ≤ 1 / 2 := by
        rcases below with less | ⟨equal, _⟩
        · exact less.le
        · exact equal.le
      rw [abs_of_nonneg (by linarith)]
      exact half
  · next above =>
      have half : 1 / 2 ≤ value - ⌊value⌋ := not_lt.mp fun less => above (.inl less)
      push_cast
      rw [abs_of_nonpos (by linarith)]
      linarith

/-- An integer is the nearest one to every value less than a half away. -/
theorem nearestEven_eq {number : ℤ} (close : |value - number| < 1 / 2) :
    nearestEven value = number := by
  have near := abs_sub_nearestEven_le value
  have apart : |((nearestEven value - number : ℤ) : K)| < 1 := by
    calc |((nearestEven value - number : ℤ) : K)|
        = |(value - number) - (value - nearestEven value)| := by push_cast; congr 1; ring
      _ ≤ |value - number| + |value - nearestEven value| := abs_sub ..
      _ < 1 := by linarith
  have less : |nearestEven value - number| < 1 := by exact_mod_cast apart
  exact sub_eq_zero.mp (Int.abs_lt_one_iff.mp less)

/-- Of two equally near integers the even one is taken. -/
theorem nearestEven_eq_of_tie {number : ℤ} (tie : |value - number| = 1 / 2)
    (even : number % 2 = 0) : nearestEven value = number := by
  have lower := Int.floor_le value
  have upper := Int.lt_floor_add_one value
  rcases abs_choice (value - number) with above | below
  · have here : ⌊value⌋ = number := by
      rw [Int.floor_eq_iff]
      constructor <;> linarith
    exact (if_pos (.inr ⟨by rw [here]; linarith, by rw [here, even]⟩)).trans here
  · have here : ⌊value⌋ = number - 1 := by
      rw [Int.floor_eq_iff]
      push_cast
      constructor <;> linarith
    have excess : value - ⌊value⌋ = 1 / 2 := by
      rw [here]
      push_cast
      linarith
    have odd : ⌊value⌋ % 2 ≠ 0 := by omega
    rw [nearestEven, if_neg (by simp [excess, odd]), here, sub_add_cancel]

/-- Of two integers that are equally near the even one is taken. -/
theorem even_of_tie (tie : |value - nearestEven value| = 1 / 2) : nearestEven value % 2 = 0 := by
  have lower := Int.floor_le value
  by_contra odd
  have kept : nearestEven value = ⌊value⌋ ∨ nearestEven value = ⌊value⌋ + 1 := by
    unfold nearestEven
    split
    · exact .inl rfl
    · exact .inr rfl
  have excess : value - ⌊value⌋ = 1 / 2 := by
    rcases kept with same | next
    · rwa [same, abs_of_nonneg (by linarith)] at tie
    · have upper := Int.lt_floor_add_one value
      rw [next] at tie
      push_cast at tie
      rw [abs_of_nonpos (by linarith)] at tie
      linarith
  unfold nearestEven at odd
  by_cases even : ⌊value⌋ % 2 = 0
  · rw [if_pos (.inr ⟨excess, even⟩)] at odd
    exact odd even
  · rw [if_neg (by simp [excess, even])] at odd
    omega

/-- Rounding does not look at the sign. -/
theorem nearestEven_neg (value : K) : nearestEven (-value) = -nearestEven value := by
  have near := abs_sub_nearestEven_le value
  have mirrored : |-value - ((-nearestEven value : ℤ) : K)| = |value - nearestEven value| := by
    rw [Int.cast_neg, neg_sub_neg, abs_sub_comm]
  by_cases tie : |value - nearestEven value| = 1 / 2
  · have even := even_of_tie tie
    exact nearestEven_eq_of_tie (mirrored.trans tie) (by omega)
  · exact nearestEven_eq (mirrored.trans_lt (lt_of_le_of_ne near tie))

theorem le_nearestEven {bound : ℤ} (within : bound ≤ value) : bound ≤ nearestEven value := by
  have near := (abs_le.mp (abs_sub_nearestEven_le value)).2
  by_contra beyond
  have less : (nearestEven value : K) + 1 ≤ bound := by exact_mod_cast not_le.mp beyond
  linarith

theorem nearestEven_le {bound : ℤ} (within : value ≤ bound) : nearestEven value ≤ bound := by
  have near := (abs_le.mp (abs_sub_nearestEven_le value)).1
  by_contra beyond
  have more : (bound : K) + 1 ≤ nearestEven value := by exact_mod_cast not_le.mp beyond
  linarith

/-- A bound on the size that is an integer is one for the nearest integer too. -/
theorem abs_nearestEven_le {bound : ℤ} (within : |value| ≤ bound) :
    |nearestEven value| ≤ bound := by
  obtain ⟨lower, upper⟩ := abs_le.mp within
  rw [← Int.cast_neg] at lower
  exact abs_le.mpr ⟨le_nearestEven lower, nearestEven_le upper⟩

end Nearest

/-- A value rounded to a multiple of the unit for its magnitude. -/
def roundTo (base : ℕ) (unit : ℤ → ℤ) (value : K) : K :=
  nearestEven (value / base ^ unit (Int.log base |value|)) * base ^ unit (Int.log base |value|)

/-- The value is one of the format's own. -/
def Representable (base : ℕ) (unit : ℤ → ℤ) (value : K) : Prop := roundTo base unit value = value

/-- The units of a format with a number of digits and a least unit. -/
def floating (precision : ℕ) (least : ℤ) (magnitude : ℤ) : ℤ :=
  max (magnitude - (precision - 1)) least

/-- The units of a format with a number of digits, and however small ones. -/
def unbounded (precision : ℕ) (magnitude : ℤ) : ℤ := magnitude - (precision - 1)

section RoundTo

variable [IsStrictOrderedRing K] {base : ℕ} (radix : 1 < base) {unit : ℤ → ℤ} {value target : K}

omit [FloorRing K] in
include radix in
theorem unit_pos (exponent : ℤ) : (0 : K) < (base : K) ^ exponent :=
  zpow_pos (Nat.cast_pos.mpr (Nat.zero_lt_of_lt radix)) exponent

omit [FloorRing K] in
include radix in
theorem one_lt_base : (1 : K) < base := Nat.one_lt_cast.mpr radix

include radix in
/-- A multiple of the unit is what every value within half a unit is rounded to. -/
theorem roundTo_eq_of_grid {exponent : ℤ} (scale : unit (Int.log base |value|) = exponent)
    {multiple : ℤ} (grid : target = multiple * (base : K) ^ exponent)
    (close : |value - target| < (base : K) ^ exponent / 2) : roundTo base unit value = target := by
  have positive : (0 : K) < (base : K) ^ exponent := unit_pos radix exponent
  have scaled : value / (base : K) ^ exponent - multiple =
      (value - target) / (base : K) ^ exponent := by
    rw [grid]
    field_simp
  have near : |value / (base : K) ^ exponent - multiple| < 1 / 2 := by
    rw [scaled, abs_div, abs_of_pos positive, div_lt_iff₀ positive]
    linarith
  rw [roundTo, scale, nearestEven_eq near, grid]

include radix in
/-- An integer is one of a format's own where the unit is no more than one. -/
theorem representable_intCast {number : ℤ}
    (fine : unit (Int.log base |(number : K)|) ≤ 0) : Representable base unit (number : K) := by
  obtain ⟨steps, scale⟩ : ∃ steps : ℕ, unit (Int.log base |(number : K)|) = -steps :=
    ⟨(-unit (Int.log base |(number : K)|)).toNat, by omega⟩
  have nonzero : (base : K) ≠ 0 := (zero_lt_one.trans (one_lt_base radix)).ne'
  have grid : (number : K) =
      ((number * (base : ℤ) ^ steps : ℤ) : K) * (base : K) ^ (-(steps : ℤ)) := by
    rw [zpow_neg, zpow_natCast, Int.cast_mul, Int.cast_pow, Int.cast_natCast,
      mul_inv_cancel_right₀ (pow_ne_zero steps nonzero)]
  apply roundTo_eq_of_grid radix scale grid
  rw [sub_self, abs_zero]
  exact half_pos (unit_pos radix _)

omit radix in
theorem roundTo_zero (base : ℕ) (unit : ℤ → ℤ) : roundTo base unit (0 : K) = 0 := by
  have close : |(0 : K) - ((0 : ℤ) : K)| < 1 / 2 := by
    rw [Int.cast_zero, sub_zero, abs_zero]
    exact one_half_pos
  rw [roundTo, zero_div, nearestEven_eq close, Int.cast_zero, zero_mul]

omit radix in
/-- Rounding is the same on both sides of zero. -/
theorem roundTo_neg (value : K) : roundTo base unit (-value) = -roundTo base unit value := by
  rw [roundTo, roundTo, abs_neg, neg_div, nearestEven_neg, Int.cast_neg, neg_mul]

include radix in
/-- Rounding moves a value by half a unit at most. -/
theorem abs_sub_roundTo_le (value : K) :
    |value - roundTo base unit value| ≤ (base : K) ^ unit (Int.log base |value|) / 2 := by
  have positive : (0 : K) < (base : K) ^ unit (Int.log base |value|) := unit_pos radix _
  have near := abs_sub_nearestEven_le (value / (base : K) ^ unit (Int.log base |value|))
  have scaled : value - roundTo base unit value =
      (value / (base : K) ^ unit (Int.log base |value|) -
        nearestEven (value / (base : K) ^ unit (Int.log base |value|))) *
          (base : K) ^ unit (Int.log base |value|) := by
    rw [roundTo, sub_mul, div_mul_cancel₀ _ positive.ne']
  rw [scaled, abs_mul, abs_of_pos positive]
  calc _ ≤ 1 / 2 * (base : K) ^ unit (Int.log base |value|) :=
        mul_le_mul_of_nonneg_right near positive.le
    _ = (base : K) ^ unit (Int.log base |value|) / 2 := by ring

omit [FloorRing K] in
include radix in
/-- The next power of the base is at least twice as large. -/
theorem two_mul_zpow_le (exponent : ℤ) :
    (base : K) ^ exponent * 2 ≤ (base : K) ^ (exponent + 1) := by
  have nonzero : (base : K) ≠ 0 := (zero_lt_one.trans (one_lt_base radix)).ne'
  have least : (2 : K) ≤ base := by exact_mod_cast radix
  rw [zpow_add_one₀ nonzero]
  exact mul_le_mul_of_nonneg_left least (unit_pos radix _).le

include radix in
/-- A number is below the power behind its magnitude. -/
theorem lt_magnitude_succ (value : K) : |value| < (base : K) ^ (Int.log base |value| + 1) :=
  Int.lt_zpow_succ_log_self radix _

include radix in
/-- A number other than zero reaches its magnitude. -/
theorem magnitude_le (other : value ≠ 0) : (base : K) ^ Int.log base |value| ≤ |value| :=
  Int.zpow_log_le_self radix (abs_pos.mpr other)

include radix in
/-- The magnitude is the power that the number lies above and next to. -/
theorem log_eq {magnitude : ℤ} (lower : (base : K) ^ magnitude ≤ |value|)
    (upper : |value| < (base : K) ^ (magnitude + 1)) : Int.log base |value| = magnitude := by
  have positive : 0 < |value| := (unit_pos radix magnitude).trans_le lower
  have least := (Int.zpow_le_iff_le_log radix positive).mp lower
  have greatest := (Int.lt_zpow_iff_log_lt radix positive).mp upper
  omega

omit [FloorRing K] in
include radix in
/-- A power of the base is a multiple of every smaller one. -/
theorem exists_multiple {small large : ℤ} (le : small ≤ large) :
    ∃ multiple : ℤ, (base : K) ^ large = multiple * (base : K) ^ small := by
  have nonzero : (base : K) ≠ 0 := (zero_lt_one.trans (one_lt_base radix)).ne'
  obtain ⟨steps, rfl⟩ := Int.le.dest le
  refine ⟨(base : ℤ) ^ steps, ?_⟩
  rw [zpow_add₀ nonzero, zpow_natCast, mul_comm]
  push_cast
  rfl

omit [FloorRing K] in
include radix in
/-- Between neighbouring multiples of a unit lies the unit. -/
theorem add_unit_le_of_lt {exponent first second : ℤ} {lower upper : K}
    (small : lower = first * (base : K) ^ exponent) (large : upper = second * (base : K) ^ exponent)
    (less : lower < upper) : lower + (base : K) ^ exponent ≤ upper := by
  have positive : (0 : K) < (base : K) ^ exponent := unit_pos radix exponent
  rw [small, large] at less
  have below : first + 1 ≤ second := by exact_mod_cast lt_of_mul_lt_mul_right less positive.le
  calc lower + (base : K) ^ exponent = ((first + 1 : ℤ) : K) * (base : K) ^ exponent := by
        rw [small]; push_cast; ring
    _ ≤ second * (base : K) ^ exponent :=
        mul_le_mul_of_nonneg_right (Int.cast_le.mpr below) positive.le
    _ = upper := large.symm

omit [FloorRing K] [IsStrictOrderedRing K] radix in
/-- A number is on a grid if its size is. -/
theorem grid_of_abs {exponent multiple : ℤ} (grid : |value| = multiple * (base : K) ^ exponent) :
    ∃ signed : ℤ, value = signed * (base : K) ^ exponent := by
  rcases abs_choice value with plus | minus
  · exact ⟨multiple, by rw [← grid, plus]⟩
  · exact ⟨-multiple, by rw [Int.cast_neg, neg_mul, ← grid, minus, neg_neg]⟩

include radix in
/-- A multiple of a unit that is not zero is as large as the unit. -/
theorem unit_le_abs {exponent multiple : ℤ} (grid : value = multiple * (base : K) ^ exponent)
    (other : value ≠ 0) : (base : K) ^ exponent ≤ |value| := by
  have positive : (0 : K) < (base : K) ^ exponent := unit_pos radix exponent
  have nonzero : multiple ≠ 0 := fun zero => other (by rw [grid, zero, Int.cast_zero, zero_mul])
  have least : (1 : K) ≤ |(multiple : K)| := by exact_mod_cast Int.one_le_abs nonzero
  rw [grid, abs_mul, abs_of_pos positive]
  exact le_mul_of_one_le_left positive.le least

section Floating

variable {precision : ℕ} {least : ℤ}

omit [IsStrictOrderedRing K] radix in
/-- What a representable value is a multiple of. -/
theorem Representable.grid (own : Representable base unit value) :
    ∃ multiple : ℤ, value = multiple * (base : K) ^ unit (Int.log base |value|) :=
  ⟨_, own.symm⟩

include radix in
/-- The size of a representable number is a multiple of its unit. -/
theorem Representable.abs_grid (own : Representable base unit value) :
    ∃ multiple : ℤ, |value| = multiple * (base : K) ^ unit (Int.log base |value|) := by
  obtain ⟨multiple, grid⟩ := own.grid
  have positive : (0 : K) < (base : K) ^ unit (Int.log base |value|) := unit_pos radix _
  refine ⟨|multiple|, ?_⟩
  calc |value| = |(multiple : K) * (base : K) ^ unit (Int.log base |value|)| := congrArg _ grid
    _ = _ := by rw [abs_mul, abs_of_pos positive, Int.cast_abs]

include radix in
/-- The unit of a representable value is no larger than the value. -/
theorem unit_le_magnitude (own : Representable base unit value) (other : value ≠ 0) :
    unit (Int.log base |value|) ≤ Int.log base |value| := by
  obtain ⟨multiple, grid⟩ := own.grid
  have small := (unit_le_abs radix grid other).trans_lt (lt_magnitude_succ radix value)
  exact Int.lt_add_one_iff.mp ((zpow_lt_zpow_iff_right₀ (one_lt_base radix)).mp small)

include radix in
theorem pow_pos_of_radix (count : ℕ) : (0 : K) < (base : K) ^ count :=
  pow_pos (zero_lt_one.trans (one_lt_base radix)) count

include radix in
/-- A value that differs from another in no digit is less than half of its unit away. -/
theorem abs_sub_lt_of_close
    (close : |value - target| * (2 * (base : K) ^ precision) < |target|) :
    |value - target| < (base : K) ^ (Int.log base |target| + 1 - precision) / 2 := by
  have nonzero : (base : K) ≠ 0 := (zero_lt_one.trans (one_lt_base radix)).ne'
  have positive : (0 : K) < (base : K) ^ precision := pow_pos_of_radix radix precision
  have upper := close.trans (lt_magnitude_succ radix target)
  have split : (base : K) ^ (Int.log base |target| + 1) =
      (base : K) ^ (Int.log base |target| + 1 - precision) * (base : K) ^ precision := by
    rw [← zpow_natCast, ← zpow_add₀ nonzero, sub_add_cancel]
  have bound : |value - target| * 2 < (base : K) ^ (Int.log base |target| + 1 - precision) := by
    refine lt_of_mul_lt_mul_right ?_ positive.le
    calc |value - target| * 2 * (base : K) ^ precision
        = |value - target| * (2 * (base : K) ^ precision) := by ring
      _ < _ := split ▸ upper
  linarith

include radix in
/-- Half a unit above a representable value is still below the next power of the base. -/
theorem lt_magnitude_of_close (own : Representable base unit target) (other : target ≠ 0)
    (close : |value - target| < (base : K) ^ unit (Int.log base |target|) / 2) :
    |value| < (base : K) ^ (Int.log base |target| + 1) := by
  have positive : (0 : K) < (base : K) ^ unit (Int.log base |target|) := unit_pos radix _
  obtain ⟨multiple, size⟩ := own.abs_grid radix
  have within := unit_le_magnitude radix own other
  obtain ⟨next, power⟩ := exists_multiple (K := K) radix
    (show unit (Int.log base |target|) ≤ Int.log base |target| + 1 by omega)
  have gap := add_unit_le_of_lt radix size power (lt_magnitude_succ radix target)
  have reach : |value| ≤ |target| + |value - target| := by
    calc |value| = |target + (value - target)| := by congr 1; ring
      _ ≤ |target| + |value - target| := abs_add_le ..
  linarith

include radix in
/-- Below a power of the base there is a smaller unit: a representable value that has
another value close below its magnitude is that power. -/
theorem abs_eq_of_below (own : Representable base unit target) (other : target ≠ 0)
    (close : |value - target| < (base : K) ^ unit (Int.log base |target|) / 2)
    (below : |value| < (base : K) ^ Int.log base |target|) :
    |target| = (base : K) ^ Int.log base |target| := by
  have positive : (0 : K) < (base : K) ^ unit (Int.log base |target|) := unit_pos radix _
  obtain ⟨multiple, size⟩ := own.abs_grid radix
  obtain ⟨next, power⟩ := exists_multiple (K := K) radix (unit_le_magnitude radix own other)
  refine le_antisymm (not_lt.mp fun above => ?_) (magnitude_le radix other)
  have gap := add_unit_le_of_lt radix power size above
  have reach : |target| ≤ |value| + |value - target| := by
    calc |target| = |value - (value - target)| := by congr 1; ring
      _ ≤ |value| + |value - target| := abs_sub ..
  linarith

include radix in
/-- **Rounding to a representable value.** A value that is closer to a representable
one than half of its last digit is rounded to it, also below a power of the base, where
the unit is smaller. -/
theorem roundTo_eq_of_close (digits : 0 < precision)
    (own : Representable base (floating precision least) target) (other : target ≠ 0)
    (close : |value - target| * (2 * (base : K) ^ precision) < |target|) :
    roundTo base (floating precision least) value = target := by
  have near := abs_sub_lt_of_close radix close
  have finest : Int.log base |target| + 1 - precision ≤
      floating precision least (Int.log base |target|) := by
    unfold floating
    omega
  have fine := zpow_le_zpow_right₀ (one_lt_base (K := K) radix).le finest
  have half : |value - target| <
      (base : K) ^ floating precision least (Int.log base |target|) / 2 := by linarith
  have upper := lt_magnitude_of_close radix own other half
  obtain ⟨multiple, grid⟩ := own.grid
  by_cases same : (base : K) ^ Int.log base |target| ≤ |value|
  · apply roundTo_eq_of_grid radix _ grid half
    rw [log_eq radix same upper]
  · have below := not_le.mp same
    have power := abs_eq_of_below radix own other half below
    -- the value lies in the magnitude just below the target
    have lower : (base : K) ^ (Int.log base |target| - 1) ≤ |value| := by
      have coarse : (base : K) ^ (Int.log base |target| + 1 - precision) ≤
          (base : K) ^ Int.log base |target| :=
        zpow_le_zpow_right₀ (one_lt_base radix).le (by omega)
      have two : (base : K) ^ (Int.log base |target| - 1) * 2 ≤
          (base : K) ^ Int.log base |target| := by
        simpa only [sub_add_cancel] using
          two_mul_zpow_le (K := K) radix (Int.log base |target| - 1)
      have reach : |target| ≤ |value| + |value - target| := by
        calc |target| = |value - (value - target)| := by congr 1; ring
          _ ≤ |value| + |value - target| := abs_sub ..
      linarith
    have magnitude := log_eq radix lower (by rwa [sub_add_cancel])
    by_cases deep : floating precision least (Int.log base |target|) = least
    · have scale : floating precision least (Int.log base |value|) =
          floating precision least (Int.log base |target|) := by
        rw [magnitude]
        unfold floating at deep ⊢
        omega
      exact roundTo_eq_of_grid radix scale grid half
    · have scale : floating precision least (Int.log base |value|) =
          Int.log base |target| - precision := by
        rw [magnitude]
        unfold floating at deep ⊢
        omega
      have closer : |value - target| <
          (base : K) ^ (Int.log base |target| - precision) / 2 := by
        rw [power] at close
        have nonzero : (base : K) ≠ 0 := (zero_lt_one.trans (one_lt_base radix)).ne'
        have positive : (0 : K) < (base : K) ^ precision := pow_pos_of_radix radix precision
        have split : (base : K) ^ Int.log base |target| =
            (base : K) ^ (Int.log base |target| - precision) * (base : K) ^ precision := by
          rw [← zpow_natCast, ← zpow_add₀ nonzero, sub_add_cancel]
        have bound : |value - target| * 2 <
            (base : K) ^ (Int.log base |target| - precision) := by
          refine lt_of_mul_lt_mul_right ?_ positive.le
          calc |value - target| * 2 * (base : K) ^ precision
              = |value - target| * (2 * (base : K) ^ precision) := by ring
            _ < _ := split ▸ close
        linarith
      obtain ⟨whole, powers⟩ := exists_multiple (K := K) radix
        (show Int.log base |target| - precision ≤ Int.log base |target| by omega)
      obtain ⟨signed, finer⟩ := grid_of_abs (power.trans powers)
      exact roundTo_eq_of_grid radix scale finer closer

include radix in
/-- What a value is rounded to is rounded no further. -/
theorem representable_roundTo (digits : 0 < precision) (value : K) :
    Representable base (floating precision least)
      (roundTo base (floating precision least) value) := by
  have positive : (0 : K) < (base : K) ^ floating precision least (Int.log base |value|) :=
    unit_pos radix _
  generalize rounded : roundTo base (floating precision least) value = target
  by_cases zero : target = 0
  · rw [Representable, zero, roundTo_zero]
  have grid : target = (nearestEven (value /
      (base : K) ^ floating precision least (Int.log base |value|)) : ℤ) *
        (base : K) ^ floating precision least (Int.log base |value|) := rounded.symm
  have least_le := unit_le_abs radix grid zero
  -- rounding does not leave the magnitude but for the next power of the base
  have size : |target| ≤ (base : K) ^ (Int.log base |value| + 1) := by
    by_cases within : floating precision least (Int.log base |value|) ≤ Int.log base |value| + 1
    · obtain ⟨next, power⟩ := exists_multiple (K := K) radix within
      have below : |value / (base : K) ^ floating precision least (Int.log base |value|)| ≤
          (next : K) := by
        rw [abs_div, abs_of_pos positive, div_le_iff₀ positive, ← power]
        exact (lt_magnitude_succ radix value).le
      have bounded := abs_nearestEven_le below
      rw [grid, abs_mul, abs_of_pos positive, power, ← Int.cast_abs]
      exact mul_le_mul_of_nonneg_right (Int.cast_le.mpr bounded) positive.le
    · have small : |value - 0| <
          (base : K) ^ floating precision least (Int.log base |value|) / 2 := by
        have tiny : (base : K) ^ (Int.log base |value| + 1) * 2 ≤
            (base : K) ^ floating precision least (Int.log base |value|) :=
          (two_mul_zpow_le radix _).trans
            (zpow_le_zpow_right₀ (one_lt_base radix).le (by omega))
        rw [sub_zero]
        linarith [lt_magnitude_succ radix value]
      have none := roundTo_eq_of_grid radix rfl
        (show (0 : K) = (0 : ℤ) * _ by rw [Int.cast_zero, zero_mul]) small
      exact (zero (rounded.symm.trans none)).elim
  have fits : ∃ multiple : ℤ,
      target = multiple * (base : K) ^ floating precision least (Int.log base |target|) := by
    have low := magnitude_le radix zero
    have top : Int.log base |target| ≤ Int.log base |value| + 1 :=
      (zpow_le_zpow_iff_right₀ (one_lt_base radix)).mp (low.trans size)
    by_cases next : Int.log base |target| = Int.log base |value| + 1
    · have power : |target| = (base : K) ^ Int.log base |target| :=
        le_antisymm (size.trans_eq (by rw [next])) low
      have within : floating precision least (Int.log base |value|) ≤ Int.log base |target| :=
        (zpow_le_zpow_iff_right₀ (one_lt_base radix)).mp (least_le.trans_eq power)
      obtain ⟨multiple, powers⟩ := exists_multiple (K := K) radix
        (show floating precision least (Int.log base |target|) ≤ Int.log base |target| by
          unfold floating at within ⊢
          omega)
      exact grid_of_abs (power.trans powers)
    · obtain ⟨multiple, powers⟩ := exists_multiple (K := K) radix
        (show floating precision least (Int.log base |target|) ≤
            floating precision least (Int.log base |value|) by
          unfold floating
          omega)
      exact ⟨_ * multiple, grid.trans (by rw [Int.cast_mul, mul_assoc, ← powers])⟩
  obtain ⟨multiple, own⟩ := fits
  apply roundTo_eq_of_grid radix rfl own
  rw [sub_self, abs_zero]
  exact half_pos (unit_pos radix _)

include radix in
/-- Rounding to a number of digits moves a value by half of its last digit at most. -/
theorem abs_sub_roundTo_unbounded_le (other : value ≠ 0) :
    |value - roundTo base (unbounded (precision + 1)) value| * (2 * (base : K) ^ precision) ≤
      |value| := by
  have nonzero : (base : K) ≠ 0 := (zero_lt_one.trans (one_lt_base radix)).ne'
  have positive : (0 : K) < (base : K) ^ precision := pow_pos_of_radix radix precision
  have moved : |value - roundTo base (unbounded (precision + 1)) value| ≤
      (base : K) ^ unbounded (precision + 1) (Int.log base |value|) / 2 :=
    abs_sub_roundTo_le radix value
  have scale : unbounded (precision + 1) (Int.log base |value|) =
      Int.log base |value| - precision := by
    unfold unbounded
    push_cast
    ring
  have split : (base : K) ^ Int.log base |value| =
      (base : K) ^ (Int.log base |value| - precision) * (base : K) ^ precision := by
    rw [← zpow_natCast, ← zpow_add₀ nonzero, sub_add_cancel]
  rw [scale] at moved
  calc |value - roundTo base (unbounded (precision + 1)) value| * (2 * (base : K) ^ precision)
      ≤ (base : K) ^ (Int.log base |value| - precision) / 2 * (2 * (base : K) ^ precision) :=
        mul_le_mul_of_nonneg_right moved (by linarith)
    _ = (base : K) ^ Int.log base |value| := by rw [split]; ring
    _ ≤ |value| := magnitude_le radix other

include radix in
/-- **There and back.** A representable value survives a conversion to another base and
back, when the last of the digits there is finer than the last of the digits here. -/
theorem roundTo_roundTo_of_precise {other : ℕ} (otherRadix : 1 < other) {count : ℕ}
    (digits : 0 < precision) (precise : base ^ precision < other ^ count)
    (own : Representable base (floating precision least) target) :
    roundTo base (floating precision least) (roundTo other (unbounded (count + 1)) target) =
      target := by
  by_cases zero : target = 0
  · rw [zero, roundTo_zero, roundTo_zero]
  · apply roundTo_eq_of_close radix digits own zero
    have finer : (base : K) ^ precision < (other : K) ^ count := by exact_mod_cast precise
    have moved : |roundTo other (unbounded (count + 1)) target - target| *
        (2 * (other : K) ^ count) ≤ |target| := by
      rw [abs_sub_comm]
      exact abs_sub_roundTo_unbounded_le otherRadix zero
    by_cases still : roundTo other (unbounded (count + 1)) target - target = 0
    · rw [still, abs_zero, zero_mul]
      exact abs_pos.mpr zero
    · refine lt_of_lt_of_le ?_ moved
      exact mul_lt_mul_of_pos_left (by linarith) (abs_pos.mpr still)

end Floating

end RoundTo

end Rounding
