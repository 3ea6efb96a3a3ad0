import Evenscribe.Json.Format
import Evenscribe.Json.Tree

/-!
# The text of a number

`print_number` writes an integer that an `int` holds with its digits, and any other
finite number with 15 significant digits where these compare equal to it, with 17
otherwise. Seventeen digits are read back as the same `double` (`nearest_seventeen`),
so that what is read back compares equal in any case (`strtod_numberText`).
-/

namespace Evenscribe

open Rounding

namespace Double

/-- The values of a `double`. -/
def Own : Double → Prop
  | .infinite _ => True
  | .finite value => nearest value = .finite value

/-- The binary logarithm bounds a number. -/
theorem log2_bounds {number : ℕ} (some : number ≠ 0) :
    (2 : ℚ) ^ (number.log2 : ℤ) ≤ number ∧ (number : ℚ) < 2 ^ ((number.log2 : ℤ) + 1) := by
  have lower := Nat.log2_self_le some
  have upper : number < 2 ^ (number.log2 + 1) := Nat.lt_log2_self
  rw [← Nat.cast_succ, zpow_natCast, zpow_natCast]
  exact ⟨by exact_mod_cast lower, by exact_mod_cast upper⟩

/-- The binary exponent is the binary logarithm, rounded down. -/
theorem binaryExponent_eq {magnitude : ℚ} (positive : 0 < magnitude) :
    binaryExponent magnitude = Int.log 2 magnitude := by
  have numerator : magnitude.num.natAbs ≠ 0 :=
    Int.natAbs_ne_zero.mpr (Rat.num_pos.mpr positive).ne'
  have ratio : magnitude = (magnitude.num.natAbs : ℚ) / magnitude.den := by
    have sign : ((magnitude.num.natAbs : ℤ) : ℚ) = magnitude.num := by
      rw [Int.natAbs_of_nonneg (Rat.num_pos.mpr positive).le]
    rw [← Int.cast_natCast, sign, Rat.num_div_den]
  obtain ⟨lowTop, highTop⟩ := log2_bounds numerator
  obtain ⟨lowBottom, highBottom⟩ := log2_bounds magnitude.den_ne_zero
  have bottom : (0 : ℚ) < magnitude.den := Nat.cast_pos.mpr magnitude.den_pos
  generalize top : magnitude.num.natAbs.log2 = high at lowTop highTop
  generalize under : magnitude.den.log2 = low at lowBottom highBottom
  have power (exponent : ℤ) : (0 : ℚ) < 2 ^ exponent := zpow_pos (by norm_num) exponent
  have upper : magnitude < 2 ^ ((high : ℤ) - low + 1) := by
    rw [ratio, div_lt_iff₀ bottom]
    calc (magnitude.num.natAbs : ℚ) < 2 ^ ((high : ℤ) + 1) := highTop
      _ = 2 ^ ((high : ℤ) - low + 1) * 2 ^ (low : ℤ) := by
          rw [← zpow_add₀ (by norm_num)]
          congr 1
          ring
      _ ≤ 2 ^ ((high : ℤ) - low + 1) * magnitude.den :=
          mul_le_mul_of_nonneg_left lowBottom (power _).le
  have lower : 2 ^ ((high : ℤ) - low - 1) ≤ magnitude := by
    rw [ratio, le_div_iff₀ bottom]
    calc (2 : ℚ) ^ ((high : ℤ) - low - 1) * magnitude.den
        ≤ 2 ^ ((high : ℤ) - low - 1) * 2 ^ ((low : ℤ) + 1) :=
          mul_le_mul_of_nonneg_left highBottom.le (power _).le
      _ = 2 ^ (high : ℤ) := by
          rw [← zpow_add₀ (by norm_num)]
          congr 1
          ring
      _ ≤ magnitude.num.natAbs := lowTop
  have greatest := (Int.lt_zpow_iff_log_lt (by decide : 1 < 2) positive).mp upper
  have least := (Int.zpow_le_iff_le_log (by decide : 1 < 2) positive).mp lower
  unfold binaryExponent
  rw [top, under]
  by_cases exact : (2 : ℚ) ^ ((high : ℤ) - low) ≤ magnitude
  · have reached := (Int.zpow_le_iff_le_log (by decide : 1 < 2) positive).mp exact
    simp only [if_pos exact]
    omega
  · have missed := (Int.lt_zpow_iff_log_lt (by decide : 1 < 2) positive).mp (not_le.mp exact)
    simp only [if_neg exact]
    omega

/-- A rational in the format of a `double`, before the bound on its size. -/
def rounded (value : ℚ) : ℚ := roundTo 2 (floating 53 (-1074)) value

/-- A rational too large for a `double` becomes infinite, and is rounded otherwise. -/
theorem nearest_eq (value : ℚ) :
    nearest value =
      if 2 ^ 1024 ≤ |rounded value| then .infinite (decide (value < 0))
      else .finite (rounded value) := by
  by_cases zero : value = 0
  · subst zero
    have nothing : rounded 0 = 0 := roundTo_zero 2 _
    rw [nothing]
    decide +kernel
  · have unit : max (binaryExponent |value| - 52) (-1074) =
        floating 53 (-1074) (Int.log 2 |value|) := by
      rw [binaryExponent_eq (abs_pos.mpr zero)]
      rfl
    have same : (nearestInteger (value / 2 ^ max (binaryExponent |value| - 52) (-1074)) : ℚ) *
        2 ^ max (binaryExponent |value| - 52) (-1074) = rounded value := by
      rw [unit]
      rfl
    simp only [nearest, same]

/-- The numbers that a `double` can hold. -/
theorem own_finite_iff {value : ℚ} :
    Own (.finite value) ↔ Representable 2 (floating 53 (-1074)) value ∧ |value| < 2 ^ 1024 := by
  rw [Own, nearest_eq]
  constructor
  · intro own
    split at own
    · simp at own
    · next small =>
        have same : rounded value = value := Double.finite.inj own
        exact ⟨same, same ▸ not_le.mp small⟩
  · rintro ⟨own, small⟩
    have same : rounded value = value := own
    rw [same, if_neg (not_le.mpr small)]

/-- What a rational is rounded to is a value of a `double`. -/
theorem own_nearest (value : ℚ) : Own (nearest value) := by
  rw [nearest_eq]
  split
  · trivial
  · next small =>
      exact own_finite_iff.mpr
        ⟨representable_roundTo (by decide) (by decide) value, not_le.mp small⟩

/-- **Seventeen digits are enough.** A `double` is the one nearest to itself rounded to
17 significant digits. -/
theorem nearest_seventeen {value : ℚ} (own : Own (.finite value)) :
    nearest (roundTo 10 (unbounded 17) value) = .finite value := by
  obtain ⟨represented, small⟩ := own_finite_iff.mp own
  have back : rounded (roundTo 10 (unbounded 17) value) = value :=
    roundTo_roundTo_of_precise (by decide) (by decide) (by decide)
      (by norm_num : 2 ^ 53 < 10 ^ 16) represented
  rw [nearest_eq, back, if_neg (not_le.mpr small)]

theorem rounded_nonneg {value : ℚ} (nonneg : 0 ≤ value) : 0 ≤ rounded value := by
  unfold rounded roundTo
  have unit : (0 : ℚ) < ((2 : ℕ) : ℚ) ^ floating 53 (-1074) (Int.log 2 |value|) :=
    unit_pos (by decide) _
  have scaled :
      ((0 : ℤ) : ℚ) ≤ value / ((2 : ℕ) : ℚ) ^ floating 53 (-1074) (Int.log 2 |value|) := by
    rw [Int.cast_zero]
    exact div_nonneg nonneg unit.le
  exact mul_nonneg (Int.cast_nonneg (le_nearestEven scaled)) unit.le

/-- `DBL_EPSILON`. -/
def epsilon : ℚ := 2 ^ (-52 : ℤ)

end Double

namespace CJSON

/-- `INT_MAX`. -/
def intMax : ℤ := 2147483647

/-- `INT_MIN`. -/
def intMin : ℤ := -2147483648

/-- The `valueint` that is written wherever a `valuedouble` is. -/
def valueint : Double → ℤ
  | .infinite negative => if negative then intMin else intMax
  | .finite number =>
      if intMax ≤ number then intMax
      else if number ≤ intMin then intMin
      else integralPart number

/-- `<=` on absolute values. -/
def noLarger : Double → Double → Bool
  | .finite a, .finite b => decide (a ≤ b)
  | .infinite _, .finite _ => false
  | _, .infinite _ => true

/-- `compare_double`. The difference of equal infinities is not a number. -/
def compareDouble : Double → Double → Bool
  | .finite a, .finite b =>
      noLarger (.nearest |a - b|) (.nearest (max |a| |b| * Double.epsilon))
  | .infinite a, .infinite b => decide (a ≠ b)
  | _, _ => true

/-- What `print_number` writes to its own buffer. -/
def numberText : Double → Text
  | .infinite _ => text "null"
  | .finite d =>
      if d = valueint (.finite d) then stdToString (valueint (.finite d))
      else
        match strtod (generalFormat 15 d) with
        | none => generalFormat 17 d
        | some (test, _) =>
            if compareDouble test (.finite d) then generalFormat 15 d else generalFormat 17 d

/-- A finite number compares equal to itself. -/
theorem compareDouble_self (value : ℚ) : compareDouble (.finite value) (.finite value) = true := by
  have none : Double.nearest |value - value| = .finite 0 := by
    rw [sub_self, abs_zero]
    decide +kernel
  have bound : (0 : ℚ) ≤ max |value| |value| * Double.epsilon :=
    mul_nonneg (le_max_of_le_left (abs_nonneg value)) (zpow_nonneg (by norm_num) _)
  have spread := Double.nearest_eq (max |value| |value| * Double.epsilon)
  split at spread
  · simp only [compareDouble, none, spread, noLarger]
  · simp only [compareDouble, none, spread, noLarger, Double.rounded_nonneg bound, decide_true]

/-- An integer is written as a numeral for itself. -/
theorem stdToString_numeral (number : ℤ) :
    ∃ numeral : Numeral, stdToString number = numeral.signed (decide (number < 0)) ∧
      numeral.value = |(number : ℚ)| := by
  have numeral (magnitude : ℕ) : ∃ numeral : Numeral,
      decimal magnitude = numeral.written ∧ numeral.value = magnitude := by
    refine ⟨⟨decimal magnitude, [], [], 0, List.forall_mem_append.mpr
      ⟨fun byte => isDigit_of_mem_decimal, nofun⟩, decimal_ne_nil magnitude, rfl, nofun, nofun⟩,
      ?_, ?_⟩
    · simp [Numeral.written, Numeral.pointed]
    · simp [Numeral.value, digitsValue_decimal]
  cases number with
  | ofNat magnitude =>
      obtain ⟨numeral, written, value⟩ := numeral magnitude
      have sign : ¬ Int.ofNat magnitude < 0 := Int.not_lt.mpr (Int.natCast_nonneg magnitude)
      refine ⟨numeral, ?_, by simp [value]⟩
      rw [Numeral.signed, decide_eq_false sign, ← written]
      rfl
  | negSucc magnitude =>
      obtain ⟨numeral, written, value⟩ := numeral (magnitude + 1)
      refine ⟨numeral, ?_, ?_⟩
      · rw [Numeral.signed, decide_eq_true (Int.negSucc_lt_zero magnitude), ← written]
        rfl
      · rw [value, Int.cast_negSucc, abs_neg, abs_of_nonneg (Nat.cast_nonneg _)]

/-- An integer is read back as the `double` nearest to it. -/
theorem strtod_stdToString (number : ℤ) :
    strtod (stdToString number) = some (.nearest number, []) := by
  obtain ⟨numeral, written, same⟩ := stdToString_numeral number
  rw [written, numeral.strtod_signed, same]
  by_cases negative : number < 0
  · rw [decide_eq_true negative, if_pos rfl, abs_of_neg (Int.cast_lt_zero.mpr negative), neg_neg]
  · rw [decide_eq_false negative, if_neg Bool.false_ne_true,
      abs_of_nonneg (Int.cast_nonneg (not_lt.mp negative))]

section NumberText

variable {value : ℚ}

/-- Zero is an integer that an `int` holds. -/
theorem ne_zero_of_printed (other : value ≠ valueint (.finite value)) : value ≠ 0 := by
  rintro rfl
  exact other (by decide +kernel)

/-- The three ways to print a number: as an integer, with 15 digits if these tell it, with 17. -/
theorem numberText_cases (value : ℚ) :
    (value = valueint (.finite value) ∧
        numberText (.finite value) = stdToString (valueint (.finite value))) ∨
      value ≠ 0 ∧
        ((numberText (.finite value) = generalFormat 15 value ∧
            compareDouble (.nearest (roundTo 10 (unbounded 15) value)) (.finite value) = true) ∨
          numberText (.finite value) = generalFormat 17 value) := by
  by_cases whole : value = valueint (.finite value)
  · exact .inl ⟨whole, if_pos whole⟩
  · have other := ne_zero_of_printed whole
    have shape : numberText (.finite value) =
        if compareDouble (.nearest (roundTo 10 (unbounded 15) value)) (.finite value)
        then generalFormat 15 value else generalFormat 17 value := by
      simp only [numberText, if_neg whole, strtod_generalFormat other 14]
    by_cases same :
        compareDouble (.nearest (roundTo 10 (unbounded 15) value)) (.finite value) = true
    · exact .inr ⟨other, .inl ⟨shape.trans (if_pos same), same⟩⟩
    · exact .inr ⟨other, .inr (shape.trans (if_neg same))⟩

/-- **What a printed number is read back as** compares equal to it: it is the same number
but for what `compare_double` lets pass with 15 digits. -/
theorem strtod_numberText (own : Double.Own (.finite value)) :
    ∃ read, strtod (numberText (.finite value)) = some (read, []) ∧
      compareDouble read (.finite value) = true ∧
      (read = .finite value ∨ numberText (.finite value) = generalFormat 15 value) := by
  obtain ⟨whole, written⟩ | ⟨other, ⟨written, same⟩ | written⟩ := numberText_cases value
  · refine ⟨.finite value, ?_, compareDouble_self value, .inl rfl⟩
    rw [written, strtod_stdToString, ← whole, own]
  · exact ⟨_, written ▸ strtod_generalFormat other 14, same, .inr written⟩
  · refine ⟨.finite value, ?_, compareDouble_self value, .inl rfl⟩
    rw [written, strtod_generalFormat other 16, Double.nearest_seventeen own]

/-- An integer of at most 15 digits is read back as it is. -/
theorem strtod_numberText_intCast {number : ℤ} (small : |number| < 10 ^ 15) :
    strtod (numberText (.finite number)) = some (.finite number, []) := by
  have magnitude {base digits : ℕ} (radix : 1 < base) (below : 10 ^ 15 ≤ base ^ digits)
      (positive : 0 < digits) : Int.log base |(number : ℚ)| - (digits - 1) ≤ 0 := by
    by_cases zero : number = 0
    · subst zero
      rw [Int.cast_zero, abs_zero, Int.log_of_right_le_zero base le_rfl]
      omega
    · have some : 0 < |(number : ℚ)| := abs_pos.mpr (Int.cast_ne_zero.mpr zero)
      have upper : |(number : ℚ)| < (base : ℚ) ^ (digits : ℤ) := by
        rw [zpow_natCast]
        calc |(number : ℚ)| = ((|number| : ℤ) : ℚ) := (Int.cast_abs).symm
          _ < ((10 ^ 15 : ℤ) : ℚ) := Int.cast_lt.mpr small
          _ ≤ (base : ℚ) ^ digits := by exact_mod_cast below
      have less := (Int.lt_zpow_iff_log_lt radix some).mp upper
      omega
  have decimal : roundTo 10 (unbounded 15) (number : ℚ) = number :=
    representable_intCast (by decide) (magnitude (by decide) (by norm_num) (by decide))
  have own : Double.nearest (number : ℚ) = .finite number := by
    apply Double.own_finite_iff.mpr
    refine ⟨representable_intCast (by decide) ?_, ?_⟩
    · exact max_le (magnitude (by decide) (by norm_num) (by decide)) (by decide)
    · calc |(number : ℚ)| = ((|number| : ℤ) : ℚ) := (Int.cast_abs).symm
        _ < ((10 ^ 15 : ℤ) : ℚ) := Int.cast_lt.mpr small
        _ < 2 ^ 64 := by norm_num
        _ ≤ 2 ^ 1024 := pow_le_pow_right₀ (by norm_num) (by decide)
  obtain ⟨read, found, _, same | written⟩ := strtod_numberText own
  · rw [found, same]
  · by_cases zero : (number : ℚ) = 0
    · rw [zero]
      decide +kernel
    · rw [written, strtod_generalFormat zero 14, decimal, own]

/-- A number that is written as an integer is one that an `int` holds. -/
theorem valueint_bounds (whole : value = valueint (.finite value)) :
    intMin ≤ valueint (.finite value) ∧ valueint (.finite value) ≤ intMax := by
  generalize same : valueint (.finite value) = number at whole
  unfold valueint at same
  dsimp only at same
  split at same
  · subst same
    decide
  · next small =>
      split at same
      · subst same
        decide
      · next large =>
          rw [whole] at small large
          have below : number < intMax := by exact_mod_cast not_le.mp small
          have above : intMin < number := by exact_mod_cast not_le.mp large
          exact ⟨above.le, below.le⟩

/-- An `int` has at most ten digits and a sign. -/
theorem length_stdToString_le {number : ℤ} (lower : intMin ≤ number) (upper : number ≤ intMax) :
    (stdToString number).length ≤ 11 := by
  have short (magnitude : ℕ) (below : magnitude < 10 ^ 10) : (decimal magnitude).length ≤ 10 :=
    decimal_length_le below
  unfold intMin at lower
  unfold intMax at upper
  cases number with
  | ofNat magnitude =>
      have size := short magnitude (by rw [Int.ofNat_eq_natCast] at upper; omega)
      exact size.trans (by decide)
  | negSucc magnitude =>
      have size := short (magnitude + 1) (by rw [Int.negSucc_eq] at lower; omega)
      have sign : (text "-").length = 1 := by decide
      rw [stdToString, List.length_append, sign]
      omega

/-- A finite `double` lies far inside the exponents of three digits. -/
theorem magnitude_bounds (own : Double.Own (.finite value)) (other : value ≠ 0) :
    (10 : ℚ) ^ (-999 : ℤ) ≤ |value| ∧ |value| < (10 : ℚ) ^ (998 : ℤ) := by
  obtain ⟨represented, small⟩ := Double.own_finite_iff.mp own
  obtain ⟨multiple, grid⟩ := represented.grid
  have least := unit_le_abs (by decide) grid other
  have lower : ((2 : ℕ) : ℚ) ^ (-1074 : ℤ) ≤
      ((2 : ℕ) : ℚ) ^ floating 53 (-1074) (Int.log 2 |value|) :=
    zpow_le_zpow_right₀ (by norm_num) (le_max_right ..)
  have tiny : (10 : ℚ) ^ (-999 : ℤ) ≤ ((2 : ℕ) : ℚ) ^ (-1074 : ℤ) := by
    rw [zpow_neg, zpow_neg, Nat.cast_ofNat]
    have natural : 2 ^ 1074 ≤ 10 ^ 999 := by decide +kernel
    exact inv_anti₀ (zpow_pos (by norm_num) _) (by exact_mod_cast natural)
  have large : (2 : ℚ) ^ 1024 < (10 : ℚ) ^ (998 : ℤ) := by
    have natural : 2 ^ 1024 < 10 ^ 998 := by decide +kernel
    exact_mod_cast natural
  exact ⟨(tiny.trans lower).trans least, small.trans large⟩

/-- The buffer of `print_number` is large enough. -/
theorem length_numberText_le (own : Double.Own (.finite value)) :
    (numberText (.finite value)).length ≤ 25 := by
  obtain ⟨whole, written⟩ | ⟨other, ⟨written, _⟩ | written⟩ := numberText_cases value
  · obtain ⟨lower, upper⟩ := valueint_bounds whole
    rw [written]
    exact (length_stdToString_le lower upper).trans (by decide)
  · obtain ⟨lower, upper⟩ := magnitude_bounds own other
    rw [written]
    exact (length_generalFormat_le other 14 lower upper).trans (by decide)
  · obtain ⟨lower, upper⟩ := magnitude_bounds own other
    rw [written]
    exact (length_generalFormat_le other 16 lower upper).trans (by decide)

/-- The text of a finite number is a numeral. -/
theorem numberText_numeral (value : ℚ) :
    ∃ (numeral : Numeral) (negative : Bool),
      numberText (.finite value) = numeral.signed negative := by
  obtain ⟨_, written⟩ | ⟨other, ⟨written, _⟩ | written⟩ := numberText_cases value
  · obtain ⟨numeral, same, _⟩ := stdToString_numeral (valueint (.finite value))
    exact ⟨numeral, _, written.trans same⟩
  · obtain ⟨numeral, same, _⟩ := generalFormat_numeral other 14
    exact ⟨numeral, _, written.trans same⟩
  · obtain ⟨numeral, same, _⟩ := generalFormat_numeral other 16
    exact ⟨numeral, _, written.trans same⟩

/-- **A number is printed and read.** What `print_number` prints for a finite `double` fits
its buffer of 26 bytes and is a numeral as a whole. It is read back as a number that
`compare_double` does not tell apart, and as the same number wherever 15 digits were not
taken to be enough. -/
theorem numberText_spec (own : Double.Own (.finite value)) :
    (numberText (.finite value)).length + 1 ≤ 26 ∧
      ∃ read, strtod (numberText (.finite value)) = some (read, []) ∧
        compareDouble read (.finite value) = true ∧
        (read = .finite value ∨ numberText (.finite value) = generalFormat 15 value) :=
  ⟨Nat.succ_le_succ (length_numberText_le own), strtod_numberText own⟩

/-- One half is printed and read back. -/
theorem numberText_spec_half :
    ∃ read, strtod (numberText (.finite (1 / 2))) = some (read, []) ∧
      compareDouble read (.finite (1 / 2)) = true :=
  have own : Double.Own (.finite (1 / 2)) := by
    unfold Double.Own
    decide +kernel
  let ⟨read, found, close, _⟩ := (numberText_spec own).2
  ⟨read, found, close⟩

/-- The sum of a tenth and two tenths is read back as three tenths. -/
example : numberText (.finite (5404319552844596 / 2 ^ 54)) = text "0.3" := by decide +kernel

/-- The largest `double` is read back as infinite. -/
example : strtod (numberText (.finite (2 ^ 1024 - 2 ^ 971))) = some (.infinite false, []) := by
  decide +kernel

end NumberText

end CJSON

end Evenscribe
