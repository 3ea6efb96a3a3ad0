import Evenscribe.Json.Number
import Evenscribe.Foundation.Rounding
import Mathlib.Data.List.DropRight

/-!
# Numbers as the C library prints them

`%d` is `stdToString`. The conversion `%.*g` writes the digits a value has when it is
rounded to a number of them, without the zeros at the end, in one of two styles.
-/

namespace Evenscribe

open Rounding

/-- The digits of a positive value rounded to a number of them, and the exponent of the
first one. -/
def significand (precision : ℕ) (magnitude : ℚ) : ℕ × ℤ :=
  let exponent := Int.log 10 magnitude
  let digits := (nearestEven (magnitude / 10 ^ unbounded precision exponent)).toNat
  if digits = 10 ^ precision then (10 ^ (precision - 1), exponent + 1) else (digits, exponent)

/-- Style `f`: digits around a decimal point. -/
def fixedStyle (shown : Text) (exponent : ℤ) : Text :=
  if exponent < 0 then text "0." ++ List.replicate (-exponent - 1).toNat 48 ++ shown
  else
    let whole := (exponent + 1).toNat
    if shown.length ≤ whole then shown ++ List.replicate (whole - shown.length) 48
    else shown.take whole ++ text "." ++ shown.drop whole

/-- Style `e`: a digit, a fraction and an exponent of two digits at least. -/
def exponentStyle (shown : Text) (exponent : ℤ) : Text :=
  let number := decimal exponent.natAbs
  shown.take 1 ++ (if shown.length ≤ 1 then [] else text "." ++ shown.drop 1) ++ text "e" ++
    (if exponent < 0 then text "-" else text "+") ++
    (if number.length < 2 then text "0" ++ number else number)

/-- `%.*g`. -/
def generalFormat (precision : ℕ) (value : ℚ) : Text :=
  let (digits, exponent) := significand precision |value|
  let shown := (decimal digits).rdropWhile (· = 48)
  (if value < 0 then text "-" else []) ++
    if -4 ≤ exponent ∧ exponent < precision then fixedStyle shown exponent
    else exponentStyle shown exponent

section Significand

variable {precision : ℕ} {magnitude : ℚ}

/-- The first digit of a rounded value stands for its magnitude, or for the next one. -/
theorem nearestEven_bounds (positive : 0 < magnitude) (precision : ℕ) :
    let exponent := Int.log 10 magnitude
    (10 ^ precision : ℤ) ≤ nearestEven (magnitude / 10 ^ unbounded (precision + 1) exponent) ∧
      nearestEven (magnitude / 10 ^ unbounded (precision + 1) exponent) ≤
        10 ^ (precision + 1) := by
  intro exponent
  have unit : (0 : ℚ) < 10 ^ unbounded (precision + 1) exponent := zpow_pos (by norm_num) _
  have lower : (10 : ℚ) ^ exponent ≤ magnitude := Int.zpow_log_le_self (by decide) positive
  have upper : magnitude < (10 : ℚ) ^ (exponent + 1) := Int.lt_zpow_succ_log_self (by decide) _
  constructor
  · apply le_nearestEven
    push_cast
    rw [le_div_iff₀ unit]
    calc (10 : ℚ) ^ precision * 10 ^ unbounded (precision + 1) exponent
        = 10 ^ exponent := by
          rw [← zpow_natCast, ← zpow_add₀ (by norm_num)]
          congr 1
          unfold unbounded
          push_cast
          ring
      _ ≤ magnitude := lower
  · apply nearestEven_le
    push_cast
    rw [div_le_iff₀ unit]
    calc magnitude ≤ (10 : ℚ) ^ (exponent + 1) := upper.le
      _ = 10 ^ (precision + 1) * 10 ^ unbounded (precision + 1) exponent := by
          rw [← zpow_natCast, ← zpow_add₀ (by norm_num)]
          congr 1
          unfold unbounded
          push_cast
          ring

/-- What `significand` returns is the value rounded to that number of digits. -/
theorem significand_spec (positive : 0 < magnitude) (precision : ℕ) :
    let (digits, exponent) := significand (precision + 1) magnitude
    10 ^ precision ≤ digits ∧ digits < 10 ^ (precision + 1) ∧
      (digits : ℚ) * 10 ^ (exponent - precision) =
        roundTo 10 (unbounded (precision + 1)) magnitude := by
  obtain ⟨lower, upper⟩ := nearestEven_bounds positive precision
  have rounded : roundTo 10 (unbounded (precision + 1)) magnitude =
      nearestEven (magnitude / 10 ^ unbounded (precision + 1) (Int.log 10 magnitude)) *
        10 ^ unbounded (precision + 1) (Int.log 10 magnitude) := by
    rw [roundTo, abs_of_pos positive, Nat.cast_ofNat]
  obtain ⟨count, nearest⟩ := Int.eq_ofNat_of_zero_le
    ((pow_nonneg (by decide : (0 : ℤ) ≤ 10) precision).trans lower)
  have unit : unbounded (precision + 1) (Int.log 10 magnitude) =
      Int.log 10 magnitude - precision := by
    unfold unbounded
    push_cast
    ring
  have shape : significand (precision + 1) magnitude =
      if count = 10 ^ (precision + 1) then (10 ^ precision, Int.log 10 magnitude + 1)
      else (count, Int.log 10 magnitude) := by
    simp only [significand, nearest, Int.toNat_natCast, Nat.add_sub_cancel]
  rw [nearest] at lower upper rounded
  rw [shape, rounded, unit]
  by_cases full : count = 10 ^ (precision + 1)
  · rw [if_pos full]
    refine ⟨le_rfl, Nat.pow_lt_pow_right (by decide) (Nat.lt_succ_self _), ?_⟩
    rw [full]
    push_cast
    rw [add_sub_right_comm, zpow_add_one₀ (by norm_num), pow_succ]
    ring
  · rw [if_neg full]
    have atMost : count ≤ 10 ^ (precision + 1) := by exact_mod_cast upper
    exact ⟨by exact_mod_cast lower, lt_of_le_of_ne atMost full, by push_cast; rfl⟩

end Significand

section Digits

/-- The value of digits that follow each other. -/
theorem digitsValue_append (front back : Text) :
    digitsValue (front ++ back) = digitsValue front * 10 ^ back.length + digitsValue back := by
  have start (digits : Text) : ∀ value : ℕ,
      digits.foldl (fun value digit => 10 * value + (digit.toNat - 48)) value =
        value * 10 ^ digits.length + digitsValue digits := by
    induction digits with
    | nil => intro value; simp [digitsValue]
    | cons digit rest ih =>
        intro value
        have head : digitsValue (digit :: rest) = _ := ih (10 * 0 + (digit.toNat - 48))
        rw [List.foldl_cons, ih, head, List.length_cons]
        ring
  rw [digitsValue, List.foldl_append, start back]
  rfl

theorem digitsValue_zeros (count : ℕ) : digitsValue (List.replicate count 48) = 0 := by
  induction count with
  | zero => rfl
  | succ count ih =>
      rw [List.replicate_succ', digitsValue_append, ih]
      rfl

/-- A number below a power of ten has no more digits than the power has zeros. -/
theorem decimal_length_le {number count : ℕ} (below : number < 10 ^ (count + 1)) :
    (decimal number).length ≤ count + 1 := by
  rw [decimal, List.length_map]
  exact (Nat.length_toDigits_le_iff (by decide) (Nat.succ_pos count)).mpr below

/-- A number from a power of ten on has more digits than the power has zeros. -/
theorem lt_decimal_length {number count : ℕ} (above : 10 ^ count ≤ number) :
    count < (decimal number).length := by
  rw [decimal, List.length_map]
  by_cases none : count = 0
  · exact none ▸ Nat.length_toDigits_pos
  · by_contra short
    have below := (Nat.length_toDigits_le_iff (by decide) (Nat.pos_of_ne_zero none)).mp
      (not_lt.mp short)
    omega

/-- The digits of a number without the zeros at their end. -/
theorem trimmed_spec {number count : ℕ} (above : 10 ^ count ≤ number)
    (below : number < 10 ^ (count + 1)) :
    let shown := (decimal number).rdropWhile (· = 48)
    shown ≠ [] ∧ shown.length ≤ count + 1 ∧ (∀ byte ∈ shown, isDigit byte = true) ∧
      number = digitsValue shown * 10 ^ (count + 1 - shown.length) := by
  intro shown
  obtain ⟨dropped, whole⟩ : ∃ dropped, decimal number = shown ++ List.replicate dropped 48 := by
    refine ⟨((decimal number).rtakeWhile (· = 48)).length, ?_⟩
    have zeros : (decimal number).rtakeWhile (· = 48) =
        List.replicate ((decimal number).rtakeWhile (· = 48)).length 48 :=
      List.eq_replicate_of_mem fun byte member => by
        simpa using List.mem_rtakeWhile_imp member
    rw [← zeros, List.rdropWhile_append_rtakeWhile]
  have size : shown.length + dropped = count + 1 := by
    have upper := decimal_length_le below
    have lower := lt_decimal_length above
    rw [whole, List.length_append, List.length_replicate] at upper lower
    omega
  have value : number = digitsValue shown * 10 ^ dropped := by
    have same := digitsValue_decimal number
    rw [whole, digitsValue_append, digitsValue_zeros, List.length_replicate, Nat.add_zero] at same
    exact same.symm
  refine ⟨?_, by omega, fun byte member => ?_, ?_⟩
  · intro empty
    have positive : 0 < number := (Nat.pow_pos (by decide)).trans_le above
    rw [value, empty] at positive
    simp [digitsValue] at positive
  · exact isDigit_of_mem_decimal (whole ▸ List.mem_append_left _ member)
  · rw [value]
    congr 2
    omega

end Digits

/-- A numeral without a sign, as `strtod` takes it apart. -/
structure Numeral where
  whole : Text
  fraction : Text
  /-- The exponent with its mark, or nothing. -/
  tail : Text
  exponent : ℤ
  digits : ∀ byte ∈ whole ++ fraction, isDigit byte = true
  starts : whole ≠ []
  ends : readExponent tail = (exponent, [])
  apart : ∀ byte ∈ tail.head?, isDigit byte = false ∧ byte ≠ 46
  marks : ∀ byte ∈ tail, isDigit byte = true ∨ byte ∈ text "+-e"

namespace Numeral

variable (numeral : Numeral)

/-- The decimal point and the fraction, if there is one. -/
def pointed : Text := if numeral.fraction = [] then [] else 46 :: numeral.fraction

/-- The numeral without its sign. -/
def written : Text := numeral.whole ++ numeral.pointed ++ numeral.tail

/-- The number that the numeral stands for. -/
def value : ℚ :=
  digitsValue (numeral.whole ++ numeral.fraction) *
    10 ^ (numeral.exponent - numeral.fraction.length)

/-- A numeral starts with a digit. -/
theorem readSign_written : readSign numeral.written = (false, numeral.written) := by
  obtain ⟨first, rest, shape⟩ := List.exists_cons_of_ne_nil numeral.starts
  have digit : isDigit first = true :=
    numeral.digits first (List.mem_append_left _ (shape ▸ List.mem_cons_self ..))
  have signs : first ≠ 45 ∧ first ≠ 43 := by
    constructor
    all_goals
      rintro rfl
      exact absurd digit (by decide)
  rw [written, shape, List.cons_append, List.cons_append, readSign, if_neg signs.1, if_neg signs.2]

/-- Text that does not go on with a digit ends a run of digits. -/
theorem span_digits {digits rest : Text} (all : ∀ byte ∈ digits, isDigit byte = true)
    (ends : ∀ byte ∈ rest.head?, isDigit byte = false) :
    (digits ++ rest).takeWhile isDigit = digits ∧ (digits ++ rest).dropWhile isDigit = rest := by
  rw [List.takeWhile_append_of_pos all, List.dropWhile_append_of_pos all]
  cases rest with
  | nil => exact ⟨List.append_nil _, rfl⟩
  | cons byte rest =>
      have other : ¬ isDigit byte = true := Bool.eq_false_iff.mp (ends byte rfl)
      rw [List.takeWhile_cons_of_neg other, List.dropWhile_cons_of_neg other, List.append_nil]
      exact ⟨rfl, rfl⟩

/-- The digits in front are the whole part. -/
theorem span_written : numeral.written.takeWhile isDigit = numeral.whole ∧
    numeral.written.dropWhile isDigit = numeral.pointed ++ numeral.tail := by
  rw [written, List.append_assoc]
  refine span_digits (fun byte member => numeral.digits byte (List.mem_append_left _ member)) ?_
  intro byte first
  unfold pointed at first
  split at first
  · exact (numeral.apart byte first).1
  · obtain rfl : 46 = byte := Option.some.inj first
    rfl

/-- The digits behind the point are the fraction. -/
theorem readFraction_pointed :
    readFraction (numeral.pointed ++ numeral.tail) = (numeral.fraction, numeral.tail) := by
  unfold pointed
  split
  · next none =>
      rw [none, List.nil_append]
      cases shape : numeral.tail with
      | nil => rfl
      | cons byte rest =>
          have apart := numeral.apart byte (shape ▸ rfl)
          rw [readFraction, if_neg apart.2]
  · obtain ⟨taken, dropped⟩ := span_digits
      (fun byte member => numeral.digits byte (List.mem_append_right _ member))
      (fun byte first => (numeral.apart byte first).1)
    rw [List.cons_append, readFraction, if_pos rfl, taken, dropped]

/-- The bytes of a numeral. -/
theorem written_marks : ∀ byte ∈ numeral.written, isDigit byte = true ∨ byte ∈ text "+-.e" := by
  obtain ⟨whole, fraction⟩ := List.forall_mem_append.mp numeral.digits
  refine List.forall_mem_append.mpr ⟨List.forall_mem_append.mpr ⟨?_, ?_⟩, ?_⟩
  · exact fun byte member => .inl (whole byte member)
  · unfold pointed
    split
    · nofun
    · exact List.forall_mem_cons.mpr
        ⟨.inr (by decide), fun byte member => .inl (fraction byte member)⟩
  · intro byte member
    rcases numeral.marks byte member with digit | mark
    · exact .inl digit
    · have known : ∀ byte ∈ text "+-e", byte ∈ text "+-.e" := by decide +kernel
      exact .inr (known byte mark)

/-- The sign in front of a numeral. -/
def signed (negative : Bool) : Text := (if negative then text "-" else []) ++ numeral.written

theorem readSign_signed (negative : Bool) :
    readSign (numeral.signed negative) = (negative, numeral.written) := by
  cases negative with
  | false => exact numeral.readSign_written
  | true => rfl

/-- `strtod` takes the whole numeral. -/
theorem strtod_signed (negative : Bool) :
    strtod (numeral.signed negative) =
      some (.nearest (if negative then -numeral.value else numeral.value), []) := by
  have some : numeral.whole ++ numeral.fraction ≠ [] := by simp [numeral.starts]
  simp only [strtod, numeral.readSign_signed, numeral.span_written, numeral.readFraction_pointed,
    numeral.ends, if_neg some, value]

end Numeral

section Styles

variable {shown : Text} (digits : ∀ byte ∈ shown, isDigit byte = true) (some : shown ≠ [])

theorem isDigit_zeros {count : ℕ} :
    ∀ byte ∈ List.replicate count (48 : UInt8), isDigit byte = true :=
  fun _ member => List.eq_of_mem_replicate member ▸ rfl

include digits some in
/-- Style `f` writes a numeral. -/
theorem fixedStyle_numeral (exponent : ℤ) :
    ∃ numeral : Numeral, numeral.written = fixedStyle shown exponent ∧
      numeral.value = digitsValue shown * 10 ^ (exponent + 1 - shown.length) := by
  unfold fixedStyle
  by_cases small : exponent < 0
  · obtain ⟨zeros, below⟩ : ∃ zeros : ℕ, exponent = -zeros - 1 := ⟨(-exponent - 1).toNat, by omega⟩
    have count : (-exponent - 1).toNat = zeros := by omega
    rw [if_pos small, count]
    have zeroDigit : ∀ byte ∈ text "0", isDigit byte = true := by decide +kernel
    refine ⟨⟨text "0", List.replicate zeros 48 ++ shown, [], 0,
      List.forall_mem_append.mpr ⟨zeroDigit, List.forall_mem_append.mpr ⟨isDigit_zeros, digits⟩⟩,
      by decide, rfl, nofun, nofun⟩, ?_, ?_⟩
    · have more : List.replicate zeros 48 ++ shown ≠ [] := by simp [some]
      rw [Numeral.written, Numeral.pointed, if_neg more]
      simp only [List.append_nil, List.append_assoc]
      rfl
    · have value : digitsValue (text "0" ++ (List.replicate zeros 48 ++ shown)) =
          digitsValue shown := by
        have zero : digitsValue (text "0") = 0 := by decide
        rw [digitsValue_append, digitsValue_append, digitsValue_zeros, zero]
        simp only [Nat.zero_mul, Nat.zero_add]
      change (digitsValue (text "0" ++ (List.replicate zeros 48 ++ shown)) : ℚ) *
        10 ^ ((0 : ℤ) - (List.replicate zeros 48 ++ shown).length) = _
      rw [value, List.length_append, List.length_replicate]
      congr 2
      push_cast
      omega
  · obtain ⟨front, above⟩ : ∃ front : ℕ, exponent = front :=
      ⟨exponent.toNat, by omega⟩
    have count : (exponent + 1).toNat = front + 1 := by omega
    rw [if_neg small, count]
    by_cases short : shown.length ≤ front + 1
    · generalize zeros : front + 1 - shown.length = missing
      refine ⟨⟨shown ++ List.replicate missing 48, [], [], 0,
        List.forall_mem_append.mpr ⟨List.forall_mem_append.mpr ⟨digits, isDigit_zeros⟩, nofun⟩,
        by simp [some], rfl, nofun, nofun⟩, ?_, ?_⟩
      · rw [if_pos short, zeros, Numeral.written, Numeral.pointed, if_pos rfl, List.append_nil,
          List.append_nil]
      · have scale : exponent + 1 - shown.length = (missing : ℕ) := by omega
        change (digitsValue (shown ++ List.replicate missing 48 ++ []) : ℚ) *
          10 ^ ((0 : ℤ) - ((0 : ℕ) : ℤ)) = _
        rw [List.append_nil, digitsValue_append, digitsValue_zeros, List.length_replicate, scale,
          zpow_natCast]
        simp
    · have more : shown.drop (front + 1) ≠ [] := by simpa using short
      refine ⟨⟨shown.take (front + 1), shown.drop (front + 1), [], 0,
        (List.take_append_drop (front + 1) shown).symm ▸ digits, by simp [some], rfl, nofun,
        nofun⟩, ?_, ?_⟩
      · rw [if_neg short, Numeral.written, Numeral.pointed, if_neg more]
        simp only [List.append_nil, List.append_assoc]
        rfl
      · change (digitsValue (shown.take (front + 1) ++ shown.drop (front + 1)) : ℚ) *
          10 ^ ((0 : ℤ) - (shown.drop (front + 1)).length) = _
        rw [List.take_append_drop, List.length_drop]
        congr 2
        omega

/-- The digits of an exponent, two at least. -/
theorem exponentDigits_spec (number : ℕ) :
    let digits := if (decimal number).length < 2 then text "0" ++ decimal number else decimal number
    digits ≠ [] ∧ (∀ byte ∈ digits, isDigit byte = true) ∧ digitsValue digits = number := by
  intro digits
  have own : ∀ byte ∈ decimal number, isDigit byte = true := fun byte => isDigit_of_mem_decimal
  have zeroDigit : ∀ byte ∈ text "0", isDigit byte = true := by decide +kernel
  by_cases short : (decimal number).length < 2
  · have shape : digits = text "0" ++ decimal number := if_pos short
    have zero : digitsValue (text "0") = 0 := by decide
    rw [shape, digitsValue_append, zero, digitsValue_decimal, Nat.zero_mul, Nat.zero_add]
    exact ⟨by simp [decimal_ne_nil], List.forall_mem_append.mpr ⟨zeroDigit, own⟩, rfl⟩
  · have shape : digits = decimal number := if_neg short
    rw [shape]
    exact ⟨decimal_ne_nil number, own, digitsValue_decimal number⟩

/-- An exponent is read back. -/
theorem readExponent_written {digits : Text} (some : digits ≠ [])
    (all : ∀ byte ∈ digits, isDigit byte = true) (negative : Bool) :
    readExponent (text "e" ++ ((if negative then text "-" else text "+") ++ digits)) =
      (if negative then -(digitsValue digits : ℤ) else digitsValue digits, []) := by
  have span : (digits ++ []).takeWhile isDigit = digits ∧ (digits ++ []).dropWhile isDigit = [] :=
    Numeral.span_digits all nofun
  rw [List.append_nil] at span
  have sign : readSign ((if negative then text "-" else text "+") ++ digits) =
      (negative, digits) := by
    cases negative with
    | false => rfl
    | true => rfl
  have mark : text "e" ++ ((if negative then text "-" else text "+") ++ digits) =
      101 :: ((if negative then text "-" else text "+") ++ digits) := rfl
  simp only [mark, readExponent, sign, span, true_or, ne_eq, some, not_false_eq_true, and_self,
    if_true]

include digits some in
/-- Style `e` writes a numeral. -/
theorem exponentStyle_numeral (exponent : ℤ) :
    ∃ numeral : Numeral, numeral.written = exponentStyle shown exponent ∧
      numeral.value = digitsValue shown * 10 ^ (exponent + 1 - shown.length) := by
  obtain ⟨nonempty, all, value⟩ := exponentDigits_spec exponent.natAbs
  generalize number : (if (decimal exponent.natAbs).length < 2 then
    text "0" ++ decimal exponent.natAbs else decimal exponent.natAbs) = written
    at nonempty all value
  have read := readExponent_written nonempty all (decide (exponent < 0))
  have signed : (if decide (exponent < 0) = true then -(digitsValue written : ℤ)
      else digitsValue written) = exponent := by
    rw [value]
    simp only [decide_eq_true_eq]
    split <;> omega
  rw [signed] at read
  refine ⟨⟨shown.take 1, shown.drop 1, _, exponent, ?_, by simp [some], read, ?_, ?_⟩, ?_, ?_⟩
  · rw [List.take_append_drop]
    exact digits
  · intro byte first
    obtain rfl : 101 = byte := Option.some.inj first
    exact ⟨rfl, by decide⟩
  · have mark : ∀ byte ∈ text "e", byte ∈ text "+-e" := by decide +kernel
    have minus : ∀ byte ∈ text "-", byte ∈ text "+-e" := by decide +kernel
    have plus : ∀ byte ∈ text "+", byte ∈ text "+-e" := by decide +kernel
    refine List.forall_mem_append.mpr ⟨fun byte member => .inr (mark byte member),
      List.forall_mem_append.mpr
        ⟨fun byte member => .inr ?_, fun byte member => .inl (all byte member)⟩⟩
    split at member
    · exact minus byte member
    · exact plus byte member
  · have empty : shown.drop 1 = [] ↔ shown.length ≤ 1 := List.drop_eq_nil_iff
    rw [Numeral.written, Numeral.pointed, exponentStyle, number]
    simp only [empty, decide_eq_true_eq, List.append_assoc]
    rfl
  · change (digitsValue (shown.take 1 ++ shown.drop 1) : ℚ) *
      10 ^ (exponent - (shown.drop 1).length) = _
    have size := List.length_pos_iff.mpr some
    rw [List.take_append_drop, List.length_drop]
    congr 2
    omega

/-- The fixed style adds at most a point and leading zeros. -/
theorem length_fixedStyle_le {exponent : ℤ} {count : ℕ} (short : shown.length ≤ count + 1)
    (style : -4 ≤ exponent ∧ exponent < ((count + 1 : ℕ) : ℤ)) :
    (fixedStyle shown exponent).length ≤ count + 6 := by
  unfold fixedStyle
  have zeroPoint : (text "0.").length = 2 := by decide
  have point : (text ".").length = 1 := by decide
  split
  · rw [List.length_append, List.length_append, List.length_replicate, zeroPoint]
    omega
  · dsimp only
    split
    · rw [List.length_append, List.length_replicate]
      omega
    · rw [List.length_append, List.length_append, List.length_take, List.length_drop, point]
      omega

/-- The exponent style adds at most a point and the exponent. -/
theorem length_exponentStyle_le {exponent : ℤ} {count : ℕ} (short : shown.length ≤ count + 1)
    (bounded : exponent.natAbs < 1000) : (exponentStyle shown exponent).length ≤ count + 7 := by
  have number : (decimal exponent.natAbs).length ≤ 3 := decimal_length_le bounded
  have one (literal : Text) (size : literal.length = 1) : literal.length ≤ 1 := size.le
  have sign : (if exponent < 0 then text "-" else text "+").length = 1 := by
    split
    · rfl
    · rfl
  have digits : (if (decimal exponent.natAbs).length < 2 then
      text "0" ++ decimal exponent.natAbs else decimal exponent.natAbs).length ≤ 3 := by
    split
    · next less =>
        rw [List.length_append]
        exact (Nat.add_le_add (one _ rfl) (Nat.le_of_lt_succ less)).trans (by decide)
    · exact number
  have fraction : (if shown.length ≤ 1 then [] else text "." ++ shown.drop 1).length ≤
      shown.length := by
    split
    · exact Nat.zero_le _
    · rw [List.length_append, List.length_drop]
      have point : (text ".").length = 1 := by decide
      omega
  have mark : (text "e").length = 1 := by decide
  simp only [exponentStyle, List.length_append, List.length_take, sign, mark]
  omega

end Styles

/-- `%.*g` writes a numeral for the value rounded to that number of digits. -/
theorem generalFormat_numeral {value : ℚ} (other : value ≠ 0) (precision : ℕ) :
    ∃ numeral : Numeral,
      generalFormat (precision + 1) value = numeral.signed (decide (value < 0)) ∧
        numeral.value = roundTo 10 (unbounded (precision + 1)) |value| := by
  have spec := significand_spec (abs_pos.mpr other) precision
  unfold generalFormat
  generalize significand (precision + 1) |value| = parts at spec
  obtain ⟨number, exponent⟩ := parts
  obtain ⟨above, below, rounded⟩ := spec
  obtain ⟨nonempty, short, digits, scaled⟩ := trimmed_spec above below
  simp only
  generalize (decimal number).rdropWhile (· = 48) = shown at nonempty short digits scaled
  have value_eq : (digitsValue shown : ℚ) * 10 ^ (exponent + 1 - shown.length) =
      roundTo 10 (unbounded (precision + 1)) |value| := by
    rw [← rounded, scaled]
    push_cast
    rw [mul_assoc, ← zpow_natCast, ← zpow_add₀ (by norm_num)]
    congr 2
    omega
  by_cases style : -4 ≤ exponent ∧ exponent < ((precision + 1 : ℕ) : ℤ)
  · obtain ⟨numeral, written, same⟩ := fixedStyle_numeral digits nonempty exponent
    rw [if_pos style, ← written]
    exact ⟨numeral, by simp [Numeral.signed], same.trans value_eq⟩
  · obtain ⟨numeral, written, same⟩ := exponentStyle_numeral digits nonempty exponent
    rw [if_neg style, ← written]
    exact ⟨numeral, by simp [Numeral.signed], same.trans value_eq⟩

/-- **Reading what `%.*g` wrote** gives the double nearest to the rounded value. -/
theorem strtod_generalFormat {value : ℚ} (other : value ≠ 0) (precision : ℕ) :
    strtod (generalFormat (precision + 1) value) =
      some (.nearest (roundTo 10 (unbounded (precision + 1)) value), []) := by
  obtain ⟨numeral, written, same⟩ := generalFormat_numeral other precision
  rw [written, numeral.strtod_signed, same]
  by_cases negative : value < 0
  · rw [decide_eq_true negative, if_pos rfl, abs_of_neg negative, roundTo_neg, neg_neg]
  · rw [decide_eq_false negative, if_neg Bool.false_ne_true, abs_of_nonneg (not_lt.mp negative)]

/-- The exponent that is shown is the magnitude of the value, or one more. -/
theorem significand_exponent (precision : ℕ) (magnitude : ℚ) :
    (significand precision magnitude).2 = Int.log 10 magnitude ∨
      (significand precision magnitude).2 = Int.log 10 magnitude + 1 := by
  simp only [significand]
  split
  · exact .inr rfl
  · exact .inl rfl

/-- A number of moderate size is written in seven bytes more than its digits. -/
theorem length_generalFormat_le {value : ℚ} (other : value ≠ 0) (precision : ℕ)
    (above : (10 : ℚ) ^ (-999 : ℤ) ≤ |value|) (below : |value| < (10 : ℚ) ^ (998 : ℤ)) :
    (generalFormat (precision + 1) value).length ≤ precision + 8 := by
  have positive := abs_pos.mpr other
  have bounded : (significand (precision + 1) |value|).2.natAbs < 1000 := by
    have lower := (Int.zpow_le_iff_le_log (by decide : 1 < 10) positive).mp above
    have upper := (Int.lt_zpow_iff_log_lt (by decide : 1 < 10) positive).mp below
    have near := significand_exponent (precision + 1) |value|
    omega
  have spec := significand_spec positive precision
  unfold generalFormat
  generalize significand (precision + 1) |value| = parts at spec bounded
  obtain ⟨number, exponent⟩ := parts
  obtain ⟨large, small, _⟩ := spec
  obtain ⟨_, short, _⟩ := trimmed_spec large small
  simp only
  generalize (decimal number).rdropWhile (· = 48) = shown at short
  have sign : (if value < 0 then text "-" else []).length ≤ 1 := by
    split
    · exact Nat.le_of_eq rfl
    · exact Nat.zero_le 1
  rw [List.length_append]
  by_cases style : -4 ≤ exponent ∧ exponent < ((precision + 1 : ℕ) : ℤ)
  · have size := length_fixedStyle_le short style
    rw [if_pos style]
    omega
  · have size : (exponentStyle shown exponent).length ≤ precision + 7 :=
      length_exponentStyle_le short bounded
    rw [if_neg style]
    omega

example : generalFormat 15 (-1 / 1024) = text "-0.0009765625" := by decide +kernel

example : generalFormat 17 (2 ^ 70) = text "1.1805916207174113e+21" := by decide +kernel

end Evenscribe
