import Evenscribe.Json.Parse

/-!
# What the parser reads of a buffer

Each parse function takes bytes from the front of its buffer and leaves the rest
alone. A value whose text ends inside the front of a buffer is parsed alike
whatever the buffer holds after that front (`parseValue_local`); only a number
has to be followed by a byte that cannot belong to it.
-/

namespace Evenscribe.CJSON

open Reading

/-- The bytes that are no blanks to the parser. -/
def Visible (byte : UInt8) : Prop := 32 < byte

instance : DecidablePred Visible := fun byte => inferInstanceAs (Decidable (32 < byte))

theorem not_blank_of_visible {byte : UInt8} (visible : Visible byte) :
    decide (byte ≤ 32) = false :=
  decide_eq_false (UInt8.not_le.mpr visible)

/-- Skipping ends at the first byte that is not blank. -/
theorem bufferSkipWhitespace_eq {buffer rest : Text} {first : UInt8}
    (dropped : buffer.dropWhile (· ≤ 32) = first :: rest) :
    bufferSkipWhitespace buffer = first :: rest := by
  simp only [bufferSkipWhitespace, dropped]

/-- What is left when no visible byte is found. -/
theorem bufferSkipWhitespace_blank {buffer rest : Text} {mark : UInt8}
    (dropped : buffer.dropWhile (· ≤ 32) = []) (left : bufferSkipWhitespace buffer = mark :: rest) :
    ¬ Visible mark ∧ rest = [] := by
  simp only [bufferSkipWhitespace, dropped] at left
  have member : mark ∈ buffer :=
    (List.drop_sublist _ _).subset (left ▸ List.mem_cons_self ..)
  have blank := List.dropWhile_eq_nil_iff.mp dropped mark member
  have size := congrArg List.length left
  simp only [List.length_drop, List.length_cons] at size
  refine ⟨fun visible => ?_, List.length_eq_zero_iff.mp (by omega)⟩
  rw [not_blank_of_visible visible] at blank
  exact Bool.noConfusion blank

/-- Skipping drops what is blank and stops at what is visible. -/
theorem bufferSkipWhitespace_skips : Skips Visible bufferSkipWhitespace where
  suffix buffer := by
    unfold bufferSkipWhitespace
    split
    · exact List.drop_suffix ..
    · next dropped => exact dropped ▸ List.dropWhile_suffix _
  last buffer mark rest left invisible := by
    cases dropped : buffer.dropWhile (· ≤ 32) with
    | nil => exact (bufferSkipWhitespace_blank dropped left).2
    | cons first tail =>
        rw [bufferSkipWhitespace_eq dropped] at left
        obtain ⟨rfl, rfl⟩ := List.cons.inj left
        have head := List.head?_dropWhile_not (fun byte : UInt8 => decide (byte ≤ 32)) buffer
        rw [dropped] at head
        exact (invisible (UInt8.not_le.mp (of_decide_eq_false (by simpa using head)))).elim
  finds front back mark rest visible found other := by
    cases dropped : (front ++ back).dropWhile (· ≤ 32) with
    | nil => exact ((bufferSkipWhitespace_blank dropped found).1 visible).elim
    | cons first tail =>
        rw [bufferSkipWhitespace_eq dropped] at found
        rw [found] at dropped
        cases inside : front.dropWhile (· ≤ 32) with
        | nil =>
            -- nothing visible in front: the mark would have to lie in `back`
            rw [List.dropWhile_append, inside, List.isEmpty_nil, if_pos rfl] at dropped
            have size := (List.dropWhile_suffix (fun byte : UInt8 => decide (byte ≤ 32))
              (l := back)).length_le
            rw [dropped, List.length_cons, List.length_append] at size
            omega
        | cons kept after =>
            have parts (tail : Text) :
                (front ++ tail).dropWhile (· ≤ 32) = kept :: (after ++ tail) := by
              rw [List.dropWhile_append, inside]
              rfl
            rw [parts back] at dropped
            obtain ⟨rfl, same⟩ := List.cons.inj dropped
            obtain rfl := List.append_cancel_right same
            exact bufferSkipWhitespace_eq (parts other)

/-- The scan takes the literal and its closing quote. -/
theorem scanLiteral_eq_some {escaped : Bool} {buffer literal rest : Text}
    (result : scanLiteral escaped buffer = some (literal, rest)) :
    buffer = literal ++ doubleQuote :: rest := by
  induction buffer generalizing escaped literal with
  | nil => simp [scanLiteral] at result
  | cons byte tail ih =>
      simp only [scanLiteral] at result
      by_cases closes : byte = doubleQuote ∧ escaped = false
      · rw [if_pos closes] at result
        obtain ⟨rfl, rfl⟩ := Prod.mk.inj (Option.some.inj result)
        rw [closes.1, List.nil_append]
      · rw [if_neg closes] at result
        obtain ⟨⟨inner, _⟩, scanned, equal⟩ := Option.map_eq_some_iff.mp result
        obtain ⟨rfl, rfl⟩ := Prod.mk.inj equal
        rw [ih scanned, List.cons_append]

/-- What stands behind a literal does not change where it ends. -/
theorem scanLiteral_append {escaped : Bool} {literal rest : Text}
    (result : scanLiteral escaped (literal ++ doubleQuote :: rest) = some (literal, rest))
    (other : Text) :
    scanLiteral escaped (literal ++ doubleQuote :: other) = some (literal, other) := by
  induction literal generalizing escaped with
  | nil =>
      by_cases closes : escaped = false
      · simp [scanLiteral, closes]
      · simp [scanLiteral, closes] at result
  | cons byte tail ih =>
      simp only [List.cons_append, scanLiteral] at result ⊢
      by_cases closes : byte = doubleQuote ∧ escaped = false
      · rw [if_pos closes] at result
        simp at result
      · rw [if_neg closes] at result ⊢
        obtain ⟨⟨inner, _⟩, scanned, equal⟩ := Option.map_eq_some_iff.mp result
        obtain ⟨same, rfl⟩ := Prod.mk.inj equal
        obtain ⟨_, rfl⟩ := List.cons.inj same
        rw [ih scanned, Option.map_some]

/-- A string is a literal between two quotes, up to a zero byte that it decodes to. -/
theorem parseString_eq_some {buffer value rest : Text}
    (result : parseString buffer = some (value, rest)) :
    ∃ literal output, buffer = doubleQuote :: (literal ++ doubleQuote :: rest) ∧
      scanLiteral false (literal ++ doubleQuote :: rest) = some (literal, rest) ∧
      decodeLiteral 0 literal = some output ∧ value = cString output := by
  unfold parseString at result
  split at result
  · simp at result
  · next first tail =>
      by_cases opens : first = doubleQuote
      · rw [if_neg (not_not.mpr opens)] at result
        split at result
        · simp at result
        · next literal after scanned =>
            obtain ⟨output, decoded, equal⟩ := Option.map_eq_some_iff.mp result
            obtain ⟨rfl, rfl⟩ := Prod.mk.inj equal
            obtain rfl := scanLiteral_eq_some scanned
            exact ⟨literal, output, by rw [opens], scanned, decoded, rfl⟩
      · rw [if_pos opens] at result
        simp at result

/-- A string uses up at least its opening quote. -/
theorem advances_parseString : Advances parseString := by
  intro buffer value rest result
  obtain ⟨literal, _, shape, _⟩ := parseString_eq_some result
  exact ⟨doubleQuote, literal ++ [doubleQuote], by simpa using shape⟩

/-- A string is settled by its closing quote. -/
theorem parseString_local : Local (fun _ _ => True) parseString := by
  intro front back value rest result _ other
  obtain ⟨literal, output, shape, scanned, decoded, rfl⟩ := parseString_eq_some result
  have inside : front = doubleQuote :: (literal ++ doubleQuote :: rest) :=
    (List.append_left_inj back).mp (by simpa using shape)
  subst inside
  simp only [List.cons_append, List.append_assoc, parseString, ne_eq, not_true_eq_false, if_false,
    scanLiteral_append scanned, decoded, Option.map_some]

/-- The text of a number takes no more than a run of number bytes. -/
theorem numberCString_append {front : Text} {byte : UInt8} (ends : isNumberByte byte = false)
    (tail : Text) :
    numberCString (front ++ byte :: tail) = (front.takeWhile isNumberByte).take 63 := by
  unfold numberCString
  rw [List.takeWhile_append]
  split
  · next all =>
      rw [List.takeWhile_cons_of_neg (by simp [ends]), List.append_nil,
        (List.takeWhile_prefix isNumberByte).eq_of_length all]
  · rfl

/-- A number is what `strtod` reads in front of the buffer. -/
theorem parseNumber_eq_some {buffer rest : Text} {value : CJSON}
    (result : parseNumber buffer = some (value, rest)) :
    ∃ number afterEnd, strtod (numberCString buffer) = some (number, afterEnd) ∧
      value = { kind := .number, valuedouble := number } ∧
      rest = buffer.drop ((numberCString buffer).length - afterEnd.length) := by
  unfold parseNumber at result
  split at result
  · simp at result
  · next number afterEnd read =>
      obtain ⟨rfl, rfl⟩ := Prod.mk.inj (Option.some.inj result)
      exact ⟨number, afterEnd, read, rfl, rfl⟩

theorem advances_parseNumber : Advances parseNumber := by
  intro buffer value rest result
  obtain ⟨number, afterEnd, read, _, rfl⟩ := parseNumber_eq_some result
  obtain ⟨_, shorter⟩ := strtod_advances read
  have within : (numberCString buffer).length ≤ buffer.length :=
    ((List.take_prefix _ _).trans (List.takeWhile_prefix _)).length_le
  obtain ⟨count, moved⟩ : ∃ count, (numberCString buffer).length - afterEnd.length = count + 1 :=
    ⟨(numberCString buffer).length - afterEnd.length - 1, by omega⟩
  cases buffer with
  | nil => simp only [List.length_nil] at within; omega
  | cons first tail =>
      rw [moved, List.drop_succ_cons]
      exact ⟨first, tail.take count, by rw [List.take_append_drop]⟩

/-- A number ends at the first byte that cannot belong to it. -/
def NumberEnds (value : CJSON) (rest : Text) : Prop :=
  value.kind = .number → ∃ byte tail, rest = byte :: tail ∧ isNumberByte byte = false

/-- A number is settled where no byte of a number follows. -/
theorem parseNumber_local : Local NumberEnds parseNumber := by
  intro front back value rest result settled other
  obtain ⟨number, afterEnd, read, rfl, left⟩ := parseNumber_eq_some result
  obtain ⟨byte, tail, rfl, ends⟩ := settled rfl
  generalize taken : (numberCString (front ++ back)).length - afterEnd.length = count at left
  have size := congrArg List.length left
  simp only [List.length_append, List.length_cons, List.length_drop] at size
  have inside : front.drop count = byte :: tail := by
    rw [List.drop_append_of_le_length (by omega)] at left
    exact (List.append_cancel_right left).symm
  obtain ⟨numeral, rfl⟩ : ∃ numeral, front = numeral ++ byte :: tail :=
    ⟨front.take count, by rw [← inside, List.take_append_drop]⟩
  have length : numeral.length = count := by
    simp only [List.length_append, List.length_cons] at size
    omega
  rw [List.append_assoc, List.cons_append, numberCString_append ends] at read taken
  simp only [parseNumber, List.append_assoc, List.cons_append, numberCString_append ends, read,
    taken, ← length, List.drop_left]

/-- The first bytes of the words. -/
def wordHeads : List UInt8 := [110, 102, 116]

/-- The words start with one of three letters. -/
theorem forall_wordHeads {property : UInt8 → Prop} (null : property 110) (no : property 102)
    (yes : property 116) : ∀ byte ∈ wordHeads, property byte := by
  intro byte member
  simp only [wordHeads, List.mem_cons, List.not_mem_nil, or_false] at member
  rcases member with rfl | rfl | rfl
  · exact null
  · exact no
  · exact yes

theorem words_head {word : Text × Kind} (member : word ∈ words) :
    ∃ first tail, word.1 = first :: tail ∧ first ∈ wordHeads := by
  simp only [words, List.mem_cons, List.not_mem_nil, or_false] at member
  rcases member with rfl | rfl | rfl
  · exact ⟨110, text "ull", rfl, by decide⟩
  · exact ⟨102, text "alse", rfl, by decide⟩
  · exact ⟨116, text "rue", rfl, by decide⟩

/-- A word is recognised by its text alone. -/
theorem find?_words_append {word : Text × Kind} (member : word ∈ words) (tail : Text) :
    words.find? (fun other => other.1 <+: word.1 ++ tail) = some word := by
  simp only [words, List.mem_cons, List.not_mem_nil, or_false] at member
  rcases member with rfl | rfl | rfl
  all_goals rfl

/-- A buffer that starts otherwise holds no word. -/
theorem find?_words_other {first : UInt8} (other : first ∉ wordHeads) (tail : Text) :
    words.find? (fun word => word.1 <+: first :: tail) = none := by
  refine List.find?_eq_none.mpr fun word member isPrefix => ?_
  obtain ⟨head, rest, shape, isHead⟩ := words_head member
  rw [shape, decide_eq_true_eq, List.cons_prefix_cons] at isPrefix
  exact other (isPrefix.1 ▸ isHead)

section Containers

variable {kind : Kind} {opening closing : UInt8} {entry : Reader UInt8 CJSON}

/-- A container is read from its opening to its closing bracket. -/
theorem parseContainer_eq_some {buffer rest : Text} {value : CJSON}
    (result : parseContainer kind opening closing entry buffer = some (value, rest)) :
    ∃ tail next after, buffer = opening :: tail ∧ bufferSkipWhitespace tail = next :: after ∧
      ((next = closing ∧ value = { kind := kind } ∧ after = rest) ∨
        (next ≠ closing ∧ ∃ child, value = { kind := kind, child := child } ∧
          delimited bufferSkipWhitespace entry 44 closing (after.length + 1) (next :: after) =
            some (child, rest))) := by
  unfold parseContainer at result
  split at result
  · simp at result
  · next first tail =>
      by_cases opens : first = opening
      · rw [if_neg (not_not.mpr opens)] at result
        split at result
        · simp at result
        · next second after skipped =>
            refine ⟨tail, second, after, by rw [opens], skipped, ?_⟩
            by_cases closes : second = closing
            · rw [if_pos closes] at result
              obtain ⟨rfl, rfl⟩ := Prod.mk.inj (Option.some.inj result)
              exact .inl ⟨closes, rfl, rfl⟩
            · rw [if_neg closes] at result
              obtain ⟨⟨child, _⟩, found, equal⟩ := Option.map_eq_some_iff.mp result
              obtain ⟨rfl, rfl⟩ := Prod.mk.inj equal
              exact .inr ⟨closes, child, rfl, found⟩
      · rw [if_pos opens] at result
        simp at result

/-- The text of a container ends in its closing bracket. -/
theorem parseContainer_ends (advances : Advances entry) {buffer rest : Text} {value : CJSON}
    (result : parseContainer kind opening closing entry buffer = some (value, rest)) :
    ∃ consumed, buffer = opening :: (consumed ++ closing :: rest) := by
  obtain ⟨tail, next, after, rfl, skipped, outcome⟩ := parseContainer_eq_some result
  obtain ⟨blanks, whole⟩ := bufferSkipWhitespace_skips.suffix tail
  rw [skipped] at whole
  subst whole
  obtain ⟨rfl, _, rfl⟩ | ⟨_, child, _, found⟩ := outcome
  · exact ⟨blanks, rfl⟩
  · obtain ⟨first, consumed, shape⟩ :=
      delimited_ends bufferSkipWhitespace_skips advances _ _ _ _ found
    exact ⟨blanks ++ first :: consumed, by rw [shape]; simp⟩

/-- A container uses up at least its bracket. -/
theorem advances_parseContainer (advances : Advances entry) :
    Advances (parseContainer kind opening closing entry) := by
  intro buffer value rest result
  obtain ⟨consumed, shape⟩ := parseContainer_ends advances result
  exact ⟨opening, consumed ++ [closing], by simpa using shape⟩

/-- A container whose entries are local is local, whatever stands behind it. -/
theorem parseContainer_local {settled : CJSON → Text → Prop} (advances : Advances entry)
    (isLocal : Local settled entry) (closes : Visible closing)
    (settles : ∀ value rest mark after, bufferSkipWhitespace rest = mark :: after →
      mark = 44 ∨ mark = closing → settled value rest) :
    Local (fun _ _ => True) (parseContainer kind opening closing entry) := by
  intro front back value rest result _ other
  obtain ⟨first, consumed, rfl⟩ := (advances_parseContainer advances).split result
  obtain ⟨tail, next, after, shape, skipped, outcome⟩ := parseContainer_eq_some result
  obtain ⟨rfl, rfl⟩ := List.cons.inj shape
  obtain ⟨inner, rfl⟩ : ∃ inner, after = inner ++ back := by
    obtain ⟨_, _, rfl⟩ | ⟨_, child, _, found⟩ := outcome
    · exact ⟨rest, rfl⟩
    · obtain ⟨head, taken, shape⟩ :=
        delimited_ends bufferSkipWhitespace_skips advances _ _ _ _ found
      exact ⟨taken ++ closing :: rest, by simpa using (List.cons.inj shape).2⟩
  have visible : Visible next := by
    obtain ⟨rfl, _⟩ | ⟨_, child, _, found⟩ := outcome
    · exact closes
    · -- a blank is only found at the end of the buffer, where no entry fits
      by_contra invisible
      obtain ⟨head, taken, shape⟩ :=
        delimited_ends bufferSkipWhitespace_skips advances _ _ _ _ found
      have last := bufferSkipWhitespace_skips.last _ _ _ skipped invisible
      simp [last] at shape
  have found := bufferSkipWhitespace_skips.finds (consumed ++ rest) back next inner visible skipped
  simp only [List.cons_append, parseContainer, ne_eq, not_true_eq_false, if_false, found other]
  obtain ⟨rfl, rfl, same⟩ | ⟨different, child, rfl, read⟩ := outcome
  · rw [if_pos rfl, List.append_cancel_right same]
  · have again := delimited_local bufferSkipWhitespace_skips advances isLocal (by decide) closes
      settles _ (next :: inner) back child rest read other ((inner ++ other).length + 1) (by simp)
    rw [if_neg different, ← List.cons_append, again, Option.map_some]

end Containers

/-! ## Values -/

theorem parseMemberValue_eq_some {value : Reader UInt8 CJSON} {buffer rest : Text} {item : CJSON}
    (result : parseMemberValue value buffer = some (item, rest)) :
    ∃ after, bufferSkipWhitespace buffer = 58 :: after ∧
      value (bufferSkipWhitespace after) = some (item, rest) := by
  unfold parseMemberValue at result
  split at result
  · simp at result
  · next mark after skipped =>
      by_cases colon : mark = 58
      · exact ⟨after, by rw [skipped, colon], by simpa [colon] using result⟩
      · simp [colon] at result

/-- A member is a name and a value. -/
theorem parseMember_eq_some {value : Reader UInt8 CJSON} {buffer rest : Text} {member : CJSON}
    (result : parseMember value buffer = some (member, rest)) :
    ∃ name after item, parseString (bufferSkipWhitespace buffer) = some (name, after) ∧
      parseMemberValue value after = some (item, rest) ∧
      member = { item with string := some name } := by
  unfold parseMember at result
  split at result
  · simp at result
  · split at result
    · simp at result
    · next name after read =>
        obtain ⟨⟨item, _⟩, found, equal⟩ := Option.map_eq_some_iff.mp result
        obtain ⟨rfl, rfl⟩ := Prod.mk.inj equal
        exact ⟨name, after, item, read, found, rfl⟩

section Nested

variable {value : Reader UInt8 CJSON} (advances : Advances value)

include advances

theorem advances_parseMemberValue : Advances (parseMemberValue value) := by
  intro buffer item rest result
  obtain ⟨after, skipped, read⟩ := parseMemberValue_eq_some result
  obtain ⟨first, consumed, shape⟩ :=
    (advances.afterSkip bufferSkipWhitespace_skips) _ _ _ read
  obtain ⟨blanks, whole⟩ := bufferSkipWhitespace_skips.suffix buffer
  rw [skipped, shape] at whole
  cases blanks with
  | nil => exact ⟨58, first :: consumed, by simpa using whole.symm⟩
  | cons blank blanks =>
      exact ⟨blank, blanks ++ 58 :: first :: consumed, by simpa using whole.symm⟩

theorem advances_parseMember : Advances (parseMember value) := by
  intro buffer member rest result
  obtain ⟨name, after, item, named, read, _⟩ := parseMember_eq_some result
  obtain ⟨first, consumed, shape⟩ :=
    (advances_parseString.afterSkip bufferSkipWhitespace_skips) _ _ _ named
  obtain ⟨next, more, rfl⟩ := advances_parseMemberValue advances _ _ _ read
  exact ⟨first, consumed ++ next :: more, by simpa using shape⟩

theorem advances_parseElement : Advances (parseElement value) :=
  fun _ _ _ result => advances.afterSkip bufferSkipWhitespace_skips _ _ _ result

variable {settled : CJSON → Text → Prop} (isLocal : Local settled value)
  (starts : ∀ first tail result, value (first :: tail) = some result → Visible first)

include isLocal starts

theorem parseElement_local : Local settled (parseElement value) :=
  fun _ _ _ _ result =>
    isLocal.afterSkip bufferSkipWhitespace_skips advances starts _ _ _ _ result

theorem parseMemberValue_local : Local settled (parseMemberValue value) := by
  intro front back item rest result isSettled other
  obtain ⟨after, skipped, read⟩ := parseMemberValue_eq_some result
  obtain ⟨first, consumed, rfl⟩ :=
    (advances.afterSkip bufferSkipWhitespace_skips) _ _ _ read
  have found := bufferSkipWhitespace_skips.finds front back 58 (first :: (consumed ++ rest))
    (by decide) (by simpa using skipped) other
  have again := (isLocal.afterSkip bufferSkipWhitespace_skips advances starts)
    (first :: (consumed ++ rest)) back item rest (by simpa using read) isSettled other
  simp only [parseMemberValue, found, ne_eq, not_true_eq_false, if_false]
  exact again

/-- A member is local as far as its value is. -/
theorem parseMember_local
    (forgets : ∀ item rest name,
      settled { item with string := some name } rest → settled item rest) :
    Local settled (parseMember value) := by
  intro front back member rest result isSettled other
  obtain ⟨name, after, item, named, read, rfl⟩ := parseMember_eq_some result
  obtain ⟨first, consumed, rfl⟩ := advances_parseMemberValue advances _ _ _ read
  have string := (parseString_local.afterSkip bufferSkipWhitespace_skips advances_parseString
    (fun first tail read opens => by
      obtain ⟨_, _, shape, _⟩ := parseString_eq_some opens
      exact (List.cons.inj shape).1 ▸ (by decide))) front back name (first :: (consumed ++ rest))
    (by simpa using named) trivial other
  have again := parseMemberValue_local advances isLocal starts (first :: (consumed ++ rest)) back
    item rest (by simpa using read) (forgets _ _ _ isSettled) other
  obtain ⟨head, taken, rfl⟩ := (advances_parseMember advances).split result
  simp only [List.cons_append] at string ⊢
  simp only [parseMember, string]
  rw [← List.cons_append, again, Option.map_some]

end Nested

/-- What the containers need of the parser of the values in them. -/
structure Parses (value : Reader UInt8 CJSON) : Prop where
  advances : Advances value
  isLocal : Local NumberEnds value
  starts : ∀ first tail result, value (first :: tail) = some result → Visible first

namespace Parses

variable {value : Reader UInt8 CJSON} (parses : Parses value)

include parses

theorem advances_parseArray : Advances (parseArray value) :=
  advances_parseContainer (advances_parseElement parses.advances)

theorem advances_parseObject : Advances (parseObject value) :=
  advances_parseContainer (advances_parseMember parses.advances)

omit parses in
/-- Blanks, commas and brackets end a number. -/
theorem numberEnds_of_skip {closing : UInt8} (ends : isNumberByte closing = false) (item : CJSON)
    (rest : Text) (mark : UInt8) (after : Text)
    (skipped : bufferSkipWhitespace rest = mark :: after)
    (isMark : mark = 44 ∨ mark = closing) : NumberEnds item rest := by
  intro _
  have markEnds : isNumberByte mark = false := by
    rcases isMark with rfl | rfl
    · decide
    · exact ends
  cases rest with
  | nil => simp [bufferSkipWhitespace] at skipped
  | cons byte tail =>
      refine ⟨byte, tail, rfl, ?_⟩
      by_cases blank : byte ≤ 32
      · simp only [isNumberByte, isDigit, Bool.or_eq_false_iff, decide_eq_false_iff_not]
        refine ⟨fun digit => absurd (UInt8.le_trans digit.1 blank) (by decide), ?_⟩
        refine Bool.eq_false_iff.mpr fun member => ?_
        have large : (text "+-eE.").all (fun other => !decide (other ≤ 32)) = true := by decide
        have visible := List.all_eq_true.mp large byte (List.contains_iff_mem.mp member)
        simp [blank] at visible
      · rw [bufferSkipWhitespace_eq (List.dropWhile_cons_of_neg (by simpa using blank))] at skipped
        exact (List.cons.inj skipped).1 ▸ markEnds

theorem parseArray_local : Local (fun _ _ => True) (parseArray value) :=
  parseContainer_local (advances_parseElement parses.advances)
    (parseElement_local parses.advances parses.isLocal parses.starts) (by decide)
    (numberEnds_of_skip (by decide))

theorem parseObject_local : Local (fun _ _ => True) (parseObject value) :=
  parseContainer_local (advances_parseMember parses.advances)
    (parseMember_local parses.advances parses.isLocal parses.starts fun _ _ _ settled => settled)
    (by decide) (numberEnds_of_skip (by decide))

end Parses

/-- The ways in which a value is parsed, by its first byte. -/
theorem parseValueWith_eq_some {nested : Option (Reader UInt8 CJSON)} {buffer rest : Text}
    {value : CJSON} (result : parseValueWith nested buffer = some (value, rest)) :
    (∃ word ∈ words, buffer = word.1 ++ rest ∧ value = { kind := word.2 }) ∨
      ∃ first tail, buffer = first :: tail ∧ first ∉ wordHeads ∧
        ((first = doubleQuote ∧ ∃ content, parseString buffer = some (content, rest) ∧
            value = { kind := .string, valuestring := some content }) ∨
          (first ≠ doubleQuote ∧ (first = 45 ∨ isDigit first) ∧
            parseNumber buffer = some (value, rest)) ∨
          (first = 91 ∧ ∃ inner, nested = some inner ∧
            parseArray inner buffer = some (value, rest)) ∨
          (first = 123 ∧ ∃ inner, nested = some inner ∧
            parseObject inner buffer = some (value, rest))) := by
  unfold parseValueWith at result
  split at result
  · next word kind found =>
      obtain ⟨rfl, rfl⟩ := Prod.mk.inj (Option.some.inj result)
      have isPrefix : word <+: buffer := by simpa using List.find?_some found
      obtain ⟨after, rfl⟩ := isPrefix
      exact .inl ⟨(word, kind), List.mem_of_find?_eq_some found, by rw [List.drop_left], rfl⟩
  · next missing =>
      split at result
      · simp at result
      · next first tail =>
          refine .inr ⟨first, tail, rfl, ?_⟩
          by_cases quoted : first = doubleQuote
          · rw [if_pos quoted] at result
            obtain ⟨⟨content, _⟩, read, equal⟩ := Option.map_eq_some_iff.mp result
            obtain ⟨rfl, rfl⟩ := Prod.mk.inj equal
            exact ⟨by rw [quoted]; decide, .inl ⟨quoted, content, read, rfl⟩⟩
          · rw [if_neg quoted] at result
            by_cases numeric : first = 45 ∨ isDigit first
            · rw [if_pos numeric] at result
              refine ⟨?_, .inr (.inl ⟨quoted, numeric, result⟩)⟩
              intro head
              have none : ∀ byte ∈ wordHeads, ¬ (byte = 45 ∨ isDigit byte) :=
                forall_wordHeads (by decide) (by decide) (by decide)
              exact none first head numeric
            · rw [if_neg numeric] at result
              by_cases array : first = 91
              · rw [if_pos array] at result
                obtain ⟨inner, some, read⟩ := Option.bind_eq_some_iff.mp result
                exact ⟨by rw [array]; decide, .inr (.inr (.inl ⟨array, inner, some, read⟩))⟩
              · rw [if_neg array] at result
                by_cases object : first = 123
                · rw [if_pos object] at result
                  obtain ⟨inner, some, read⟩ := Option.bind_eq_some_iff.mp result
                  exact ⟨by rw [object]; decide, .inr (.inr (.inr ⟨object, inner, some, read⟩))⟩
                · simp [object] at result

section Step

variable {nested : Option (Reader UInt8 CJSON)}

/-- A value starts with a visible byte. -/
theorem parseValueWith_starts (first : UInt8) (tail : Text) (result : CJSON × Text)
    (read : parseValueWith nested (first :: tail) = some result) : Visible first := by
  obtain ⟨word, member, shape, _⟩ | ⟨head, rest, shape, _, outcome⟩ := parseValueWith_eq_some read
  · obtain ⟨head, rest, word, isHead⟩ := words_head member
    rw [word] at shape
    have visible : ∀ byte ∈ wordHeads, Visible byte :=
      forall_wordHeads (by decide) (by decide) (by decide)
    exact (List.cons.inj shape).1 ▸ visible head isHead
  · obtain rfl := (List.cons.inj shape).1
    rcases outcome with ⟨rfl, _⟩ | ⟨_, rfl | digit, _⟩ | ⟨rfl, _⟩ | ⟨rfl, _⟩
    · decide
    · decide
    · simp only [isDigit, decide_eq_true_eq] at digit
      exact UInt8.lt_of_lt_of_le (by decide) digit.1
    · decide
    · decide

variable (parses : ∀ inner, nested = some inner → Parses inner)

include parses

/-- A value uses up at least a byte. -/
theorem advances_parseValueWith : Advances (parseValueWith nested) := by
  intro buffer value rest result
  obtain ⟨word, member, rfl, _⟩ | ⟨first, tail, rfl, _, outcome⟩ := parseValueWith_eq_some result
  · obtain ⟨head, more, shape, _⟩ := words_head member
    exact ⟨head, more, by rw [shape, List.cons_append]⟩
  · rcases outcome with ⟨_, content, read, _⟩ | ⟨_, _, read⟩ | ⟨_, inner, some, read⟩ |
      ⟨_, inner, some, read⟩
    · exact advances_parseString _ _ _ read
    · exact advances_parseNumber _ _ _ read
    · exact (parses inner some).advances_parseArray _ _ _ read
    · exact (parses inner some).advances_parseObject _ _ _ read

/-- A value is settled where a number in it ends. -/
theorem parseValueWith_local : Local NumberEnds (parseValueWith nested) := by
  intro front back value rest result settled other
  have started := (advances_parseValueWith parses).split result
  obtain ⟨word, member, shape, rfl⟩ | ⟨first, tail, shape, noWord, outcome⟩ :=
    parseValueWith_eq_some result
  · obtain rfl : front = word.1 ++ rest :=
      (List.append_left_inj back).mp (by simpa using shape)
    simp only [parseValueWith, List.append_assoc, find?_words_append member, List.drop_left]
  · obtain ⟨head, consumed, rfl⟩ := started
    obtain rfl : head = first := (List.cons.inj shape).1
    simp only [List.cons_append] at outcome ⊢
    simp only [parseValueWith, find?_words_other noWord]
    rcases outcome with ⟨quoted, content, read, rfl⟩ | ⟨unquoted, numeric, read⟩ |
      ⟨rfl, inner, rfl, read⟩ | ⟨rfl, inner, rfl, read⟩
    · have again := parseString_local (head :: (consumed ++ rest)) back content rest
        (by simpa using read) trivial other
      rw [if_pos quoted, ← List.cons_append, again, Option.map_some]
    · rw [if_neg unquoted, if_pos numeric]
      exact parseNumber_local (head :: (consumed ++ rest)) back value rest (by simpa using read)
        settled other
    · exact (parses inner rfl).parseArray_local (91 :: (consumed ++ rest)) back value rest
        (by simpa using read) trivial other
    · exact (parses inner rfl).parseObject_local (123 :: (consumed ++ rest)) back value rest
        (by simpa using read) trivial other

/-- One level more keeps what holds of the values one level down. -/
theorem parses_parseValueWith : Parses (parseValueWith nested) where
  advances := advances_parseValueWith parses
  isLocal := parseValueWith_local parses
  starts := parseValueWith_starts

end Step

/-- **Locality of parsing.** At every level, a value is parsed from its own bytes. -/
theorem parses_parseValue (levels : ℕ) : Parses (parseValue levels) := by
  induction levels with
  | zero =>
      exact parses_parseValueWith fun inner missing =>
        (Option.some_ne_none inner missing.symm).elim
  | succ levels ih =>
      exact parses_parseValueWith fun inner some => Option.some.inj some ▸ ih

end Evenscribe.CJSON
