import Evenscribe.Json.ParseShape
import Evenscribe.Json.PrintText

/-!
# What was printed is parsed again

The parser takes the text of a tree, formatted or not, and returns the tree with its
numbers as their texts give them (`reread`). It refuses no tree that the printer prints
but one with raw text in it or one that is nested too deeply.
-/

namespace Evenscribe.CJSON

open Reading

/-! ## Strings -/

section Strings

/-- The letters behind a backslash that stand for a byte of their own. -/
def escapeLetters : Text := text "\"\\bfnrt"

/-- What a byte is printed as: itself, a letter behind a backslash, or four digits. -/
theorem escaped_shape : ∀ byte,
    escaped byte = [byte] ∧ byte ≠ doubleQuote ∧ byte ≠ backslash ∨
      (∃ letter ∈ escapeLetters,
        escaped byte = [backslash, letter] ∧
          escapeSequence [backslash, letter] = some ([byte], 2)) ∨
      ∃ high ∈ text "01", ∃ low ∈ text "0123456789abcdef",
        escaped byte = [backslash, 117, 48, 48, high, low] ∧
          parseHex4 [48, 48, high, low] = byte.toNat ∧ byte.toNat < 32 := by
  apply forall_byte
  decide +kernel

/-- A control character is one byte of UTF-8. -/
theorem encodeUtf8_control : ∀ byte : UInt8, byte.toNat < 32 →
    encodeUtf8 byte.toNat = some [byte] := by
  apply forall_byte
  decide +kernel

/-- The escape sequence of a control character is read as that character. -/
theorem escapeSequence_control {byte high low : UInt8}
    (hex : parseHex4 [48, 48, high, low] = byte.toNat) (control : byte.toNat < 32) (rest : Text) :
    escapeSequence (backslash :: 117 :: 48 :: 48 :: high :: low :: rest) = some ([byte], 6) := by
  have code : parseHex4 (48 :: 48 :: high :: low :: rest) = byte.toNat := hex
  have size : ¬ (backslash :: 117 :: 48 :: 48 :: high :: low :: rest).length < 6 := by
    simp only [List.length_cons]
    omega
  change utf16LiteralToUtf8 _ = _
  unfold utf16LiteralToUtf8
  rw [if_neg size]
  simp only [List.drop_succ_cons, List.drop_zero, code]
  rw [if_neg (by omega), if_neg (by omega), encodeUtf8_control byte control, Option.map_some]

/-- A letter behind a backslash stands for the same byte whatever follows. -/
theorem escapeSequence_letter {letter : UInt8} (member : letter ∈ escapeLetters) (rest : Text) :
    escapeSequence (backslash :: letter :: rest) = escapeSequence [backslash, letter] := by
  have letters : escapeLetters = [34, 92, 98, 102, 110, 114, 116] := by decide
  rw [letters] at member
  simp only [List.mem_cons, List.not_mem_nil, or_false] at member
  rcases member with rfl | rfl | rfl | rfl | rfl | rfl | rfl
  all_goals rfl

/-- Bytes that are passed over are not decoded. -/
theorem decodeLiteral_length (passed rest : Text) :
    decodeLiteral passed.length (passed ++ rest) = decodeLiteral 0 rest := by
  induction passed with
  | nil => rfl
  | cons _ passed ih => exact ih

/-- One printed byte is decoded to itself. -/
theorem decodeLiteral_escaped (byte : UInt8) (rest : Text) :
    decodeLiteral 0 (escaped byte ++ rest) =
      (decodeLiteral 0 rest).map fun later => byte :: later := by
  have sequence {bytes : Text} (read : escapeSequence (backslash :: bytes ++ rest) =
      some ([byte], bytes.length + 1)) : decodeLiteral 0 (backslash :: bytes ++ rest) =
        (decodeLiteral 0 rest).map fun later => byte :: later := by
    rw [List.cons_append] at read ⊢
    simp only [decodeLiteral, ne_eq, not_true_eq_false, if_false, read, Nat.add_sub_cancel,
      decodeLiteral_length, List.singleton_append]
  obtain ⟨shape, _, plain⟩ | ⟨letter, member, shape, read⟩ |
    ⟨high, _, low, _, shape, hex, control⟩ := escaped_shape byte
  · rw [shape, List.singleton_append, decodeLiteral, if_pos plain]
  · rw [shape]
    exact sequence ((escapeSequence_letter member rest).trans read)
  · rw [shape]
    exact sequence (escapeSequence_control hex control rest)

/-- The printed string is decoded to the string. -/
theorem decodeLiteral_printed (input : Text) :
    decodeLiteral 0 (input.flatMap escaped) = some input := by
  induction input with
  | nil => rfl
  | cons byte rest ih => rw [List.flatMap_cons, decodeLiteral_escaped, ih, Option.map_some]

/-- Bytes that neither close a literal nor escape anything are passed one by one. -/
theorem scanLiteral_plain {bytes : Text}
    (plain : ∀ byte ∈ bytes, byte ≠ doubleQuote ∧ byte ≠ backslash) (rest : Text) :
    scanLiteral false (bytes ++ rest) =
      (scanLiteral false rest).map fun scanned => (bytes ++ scanned.1, scanned.2) := by
  induction bytes with
  | nil => simp
  | cons byte bytes ih =>
      obtain ⟨⟨noQuote, noEscape⟩, others⟩ := List.forall_mem_cons.mp plain
      rw [List.cons_append, scanLiteral, if_neg fun closes => noQuote closes.1]
      simp only [decide_eq_false noEscape, Bool.and_false, ih others, Option.map_map]
      rfl

/-- The closing quote is not found inside a printed byte. -/
theorem scanLiteral_escaped (byte : UInt8) (rest : Text) :
    scanLiteral false (escaped byte ++ rest) =
      (scanLiteral false rest).map fun scanned => (escaped byte ++ scanned.1, scanned.2) := by
  -- the byte behind the backslash is passed over, whatever it is
  have sequence {letter : UInt8} {bytes : Text}
      (plain : ∀ byte ∈ bytes, byte ≠ doubleQuote ∧ byte ≠ backslash) :
      scanLiteral false (backslash :: letter :: bytes ++ rest) =
        (scanLiteral false rest).map fun scanned =>
          (backslash :: letter :: bytes ++ scanned.1, scanned.2) := by
    rw [List.cons_append, scanLiteral, if_neg (by decide), List.cons_append, scanLiteral,
      if_neg (by simp)]
    simp only [decide_true, Bool.not_false, Bool.and_true, Bool.not_true, Bool.false_and,
      scanLiteral_plain plain, Option.map_map]
    rfl
  obtain ⟨shape, plain⟩ | ⟨letter, _, shape, _⟩ | ⟨high, one, low, digit, shape, _⟩ :=
    escaped_shape byte
  · rw [shape]
    exact scanLiteral_plain (List.forall_mem_singleton.mpr plain) rest
  · rw [shape]
    exact sequence (List.forall_mem_nil _)
  · rw [shape]
    have marks : ∀ byte ∈ text "0123456789abcdef", byte ≠ doubleQuote ∧ byte ≠ backslash := by
      decide +kernel
    have digits : ∀ byte ∈ text "01", byte ∈ text "0123456789abcdef" := by decide +kernel
    refine sequence fun byte member => marks byte ?_
    simp only [List.mem_cons, List.not_mem_nil, or_false] at member
    rcases member with rfl | rfl | rfl | rfl
    · decide
    · decide
    · exact digits _ one
    · exact digit

/-- A printed string ends at its closing quote. -/
theorem scanLiteral_printed (input rest : Text) :
    scanLiteral false (input.flatMap escaped ++ doubleQuote :: rest) =
      some (input.flatMap escaped, rest) := by
  induction input with
  | nil => rfl
  | cons byte bytes ih =>
      rw [List.flatMap_cons, List.append_assoc, scanLiteral_escaped, ih, Option.map_some]

/-- A printed string is parsed again, a null pointer as the empty string. -/
theorem parseString_stringText {string : Option Text} (terminated : ∀ bytes ∈ string, 0 ∉ bytes)
    (rest : Text) : parseString (stringText string ++ rest) = some (string.getD [], rest) := by
  have clean : 0 ∉ string.getD [] := by
    cases string with
    | none => exact List.not_mem_nil
    | some bytes => exact terminated bytes rfl
  simp only [stringText, List.append_assoc, List.cons_append, parseString, ne_eq,
    not_true_eq_false, if_false, List.nil_append, scanLiteral_printed,
    decodeLiteral_printed, Option.map_some, cString_eq_self clean]

end Strings

/-! ## Numbers -/

section Numbers

variable {value : ℚ}

/-- A printed number holds bytes of numbers only. -/
theorem numberText_bytes (value : ℚ) :
    ∀ byte ∈ numberText (.finite value), isNumberByte byte = true := by
  obtain ⟨numeral, negative, written⟩ := numberText_numeral value
  have marks : ∀ byte ∈ text "+-.e", isNumberByte byte = true := by decide +kernel
  rw [written, Numeral.signed]
  refine List.forall_mem_append.mpr ⟨?_, fun byte member => ?_⟩
  · cases negative <;> decide +kernel
  · rcases numeral.written_marks byte member with digit | mark
    · simp only [isNumberByte, digit, Bool.true_or]
    · exact marks byte mark

/-- A printed number starts with a sign or a digit. -/
theorem numberText_starts (value : ℚ) :
    ∃ first tail, numberText (.finite value) = first :: tail ∧ (first = 45 ∨ isDigit first) := by
  obtain ⟨numeral, negative, written⟩ := numberText_numeral value
  rw [written, Numeral.signed]
  cases negative with
  | true => exact ⟨45, numeral.written, rfl, .inl rfl⟩
  | false =>
      obtain ⟨first, rest, shape⟩ := List.exists_cons_of_ne_nil numeral.starts
      refine ⟨first, rest ++ numeral.pointed ++ numeral.tail, ?_, .inr ?_⟩
      · simp [Numeral.written, shape]
      · exact numeral.digits first (List.mem_append_left _ (shape ▸ List.mem_cons_self ..))

/-- What the text of a number is read back as. -/
def rereadNumber : Double → CJSON
  | .infinite _ => { kind := .null }
  | .finite value =>
      { kind := .number
        valuedouble := ((strtod (numberText (.finite value))).map Prod.fst).getD (.finite value) }

/-- `parse_number` takes the whole text of a number. -/
theorem parseNumber_numberText (own : Double.Own (.finite value)) {rest : Text}
    (ends : NumberEnds (rereadNumber (.finite value)) rest) :
    parseNumber (numberText (.finite value) ++ rest) =
      some (rereadNumber (.finite value), rest) := by
  obtain ⟨byte, tail, rfl, stops⟩ := ends rfl
  obtain ⟨read, found, _⟩ := strtod_numberText own
  have size := length_numberText_le own
  have taken : (numberText (.finite value)).takeWhile isNumberByte = numberText (.finite value) :=
    List.takeWhile_eq_self_iff.mpr (numberText_bytes value)
  have copied : numberCString (numberText (.finite value) ++ byte :: tail) =
      numberText (.finite value) := by
    rw [numberCString_append stops, taken, List.take_of_length_le (by omega)]
  simp only [parseNumber, copied, found, List.length_nil, Nat.sub_zero, List.drop_left,
    rereadNumber, Option.map_some, Option.getD_some]

end Numbers

/-! ## Trees -/

mutual

/-- What the text of a tree is read back as: null pointers as empty strings, infinite
numbers as null, and finite ones as their texts have them. -/
def reread : CJSON → CJSON
  | ⟨kind, valuestring, valuedouble, _, child⟩ =>
      match kind with
      | .number => rereadNumber valuedouble
      | .string => { kind := .string, valuestring := some (valuestring.getD []) }
      | .array => { kind := .array, child := rereadElements child }
      | .object => { kind := .object, child := rereadMembers child }
      | kind => { kind := kind }

/-- The elements as they are read again. -/
def rereadElements : List CJSON → List CJSON
  | [] => []
  | current :: next => reread current :: rereadElements next

/-- The members as they are read again, each with a name. -/
def rereadMembers : List CJSON → List CJSON
  | [] => []
  | current :: next =>
      { reread current with string := some (current.string.getD []) } :: rereadMembers next

end

/-- A tree that opens so many levels at most, of values that the parser can return. -/
inductive Parsable : ℕ → CJSON → Prop where
  | word {levels : ℕ} {node : CJSON} (kind : node.kind ∈ [.null, .false, .true]) :
      Parsable levels node
  | string {levels : ℕ} {node : CJSON} (kind : node.kind = .string) : Parsable levels node
  | number {levels : ℕ} {node : CJSON} (kind : node.kind = .number) (own : node.valuedouble.Own) :
      Parsable levels node
  | container {levels : ℕ} {node : CJSON} (kind : node.kind = .array ∨ node.kind = .object)
      (children : ∀ child ∈ node.child, Parsable levels child) : Parsable (levels + 1) node

/-- Blanks in front of a visible byte are skipped. -/
theorem bufferSkipWhitespace_blanks {blanks tail : Text} {first : UInt8}
    (blank : ∀ byte ∈ blanks, byte ≤ 32) (visible : Visible first) :
    bufferSkipWhitespace (blanks ++ first :: tail) = first :: tail := by
  apply bufferSkipWhitespace_eq
  rw [List.dropWhile_append_of_pos fun byte member => decide_eq_true (blank byte member),
    List.dropWhile_cons_of_neg (by simp [not_blank_of_visible visible])]

section Containers

variable {kind : Kind} {opening closing : UInt8} {entry : Reader UInt8 CJSON} {blanks rest : Text}
  (blank : ∀ byte ∈ blanks, byte ≤ 32)

include blank

theorem parseContainer_empty (closes : Visible closing) :
    parseContainer kind opening closing entry (opening :: (blanks ++ closing :: rest)) =
      some ({ kind := kind }, rest) := by
  simp only [parseContainer, ne_eq, not_true_eq_false, if_false,
    bufferSkipWhitespace_blanks blank closes, if_true]

/-- A container is read back if its entries are. -/
theorem parseContainer_written {first : UInt8} {more : Text} {child : List CJSON}
    (visible : Visible first) (other : first ≠ closing)
    (reads : delimited bufferSkipWhitespace entry 44 closing (more.length + 1) (first :: more) =
      some (child, rest)) :
    parseContainer kind opening closing entry (opening :: (blanks ++ first :: more)) =
      some ({ kind := kind, child := child }, rest) := by
  simp only [parseContainer, ne_eq, not_true_eq_false, if_false,
    bufferSkipWhitespace_blanks blank visible, if_neg other, reads, Option.map_some]

end Containers

section Entries

variable {levels : ℕ} {item : CJSON} {out : Text}
  (reads : ∀ rest, NumberEnds item rest → parseValue levels (out ++ rest) = some (item, rest))

include reads

/-- The text of a value starts with a visible byte. -/
theorem visible_of_reads : ∃ first consumed, out = first :: consumed ∧ Visible first := by
  have read := reads [0] fun _ => ⟨0, [], rfl, by decide⟩
  have parses := parses_parseValue levels
  obtain ⟨first, consumed, shape⟩ := parses.advances _ _ _ read
  have start : out = first :: consumed := List.append_cancel_right (by simpa using shape)
  refine ⟨first, consumed, start, ?_⟩
  rw [start, List.cons_append] at read
  exact parses.starts first _ _ read

theorem parseElement_written {lead rest : Text} (blank : ∀ byte ∈ lead, byte ≤ 32)
    (ends : NumberEnds item rest) :
    parseElement (parseValue levels) (lead ++ (out ++ rest)) = some (item, rest) := by
  obtain ⟨first, consumed, start, visible⟩ := visible_of_reads reads
  have read := reads rest ends
  rw [start, List.cons_append] at read ⊢
  rw [parseElement, bufferSkipWhitespace_blanks blank visible, read]

theorem parseMember_written {key : Option Text} (terminated : ∀ bytes ∈ key, 0 ∉ bytes)
    {lead gap rest : Text} (blank : ∀ byte ∈ lead, byte ≤ 32) (blankGap : ∀ byte ∈ gap, byte ≤ 32)
    (ends : NumberEnds item rest) :
    parseMember (parseValue levels) (lead ++ (stringText key ++ (58 :: gap ++ (out ++ rest)))) =
      some ({ item with string := some (key.getD []) }, rest) := by
  have value := parseElement_written reads blankGap ends
  have named := parseString_stringText terminated (58 :: gap ++ (out ++ rest))
  have member : parseMemberValue (parseValue levels) (58 :: gap ++ (out ++ rest)) =
      some (item, rest) := by
    have skipped : bufferSkipWhitespace (58 :: (gap ++ (out ++ rest))) =
        58 :: (gap ++ (out ++ rest)) := bufferSkipWhitespace_eq rfl
    simp only [List.cons_append, parseMemberValue, skipped, ne_eq, not_true_eq_false, if_false]
    exact value
  obtain ⟨after, start⟩ : ∃ after,
      stringText key ++ (58 :: gap ++ (out ++ rest)) = doubleQuote :: after := ⟨_, rfl⟩
  rw [start] at named ⊢
  have skipped : bufferSkipWhitespace (lead ++ doubleQuote :: after) = doubleQuote :: after :=
    bufferSkipWhitespace_blanks blank (by decide)
  unfold parseMember
  split
  · next none => exact absurd (congrArg List.length none) (by simp)
  · next first tail whole =>
      rw [← whole, skipped, named]
      simp only [member, Option.map_some]

end Entries

section Values

variable {levels : ℕ}

theorem parseValue_word {word : Text} {kind : Kind} (member : (word, kind) ∈ words) (rest : Text) :
    parseValue levels (word ++ rest) = some ({ kind := kind }, rest) := by
  have found := find?_words_append member rest
  cases levels <;> simp only [parseValue, parseValueWith, found, List.drop_left]

/-- No value starts with a closing bracket. -/
theorem parseValue_bracket (tail : Text) : parseValue levels (93 :: tail) = none := by
  have noWord : (93 : UInt8) ∉ wordHeads := by decide
  cases levels <;>
    simp only [parseValue, parseValueWith, find?_words_other noWord] <;> rfl

theorem parseValue_string {value : Option Text} (terminated : ∀ bytes ∈ value, 0 ∉ bytes)
    (rest : Text) :
    parseValue levels (stringText value ++ rest) =
      some ({ kind := .string, valuestring := some (value.getD []) }, rest) := by
  have read := parseString_stringText terminated rest
  obtain ⟨after, start⟩ : ∃ after, stringText value ++ rest = doubleQuote :: after := ⟨_, rfl⟩
  rw [start] at read ⊢
  have noWord : doubleQuote ∉ wordHeads := by decide
  cases levels <;>
    simp only [parseValue, parseValueWith, find?_words_other noWord, if_true, read, Option.map_some]

/-- A printed number is read as the number it is reread as. -/
theorem parseValue_number {value : ℚ} (own : Double.Own (.finite value)) {rest : Text}
    (ends : NumberEnds (rereadNumber (.finite value)) rest) :
    parseValue levels (numberText (.finite value) ++ rest) =
      some (rereadNumber (.finite value), rest) := by
  have read := parseNumber_numberText own ends
  obtain ⟨first, tail, start, numeric⟩ := numberText_starts value
  rw [start, List.cons_append] at read ⊢
  have noWord : first ∉ wordHeads := by
    intro head
    have none : ∀ byte ∈ wordHeads, ¬ (byte = 45 ∨ isDigit byte) :=
      forall_wordHeads (by decide) (by decide) (by decide)
    exact none first head numeric
  have noQuote : first ≠ doubleQuote := by
    rintro rfl
    exact absurd numeric (by decide)
  cases levels <;>
    simp only [parseValue, parseValueWith, find?_words_other noWord, if_neg noQuote,
      if_pos numeric, read]

theorem parseValue_openArray (rest : Text) :
    parseValue (levels + 1) (91 :: rest) = parseArray (parseValue levels) (91 :: rest) := by
  have noWord : (91 : UInt8) ∉ wordHeads := by decide
  simp only [parseValue, parseValueWith, find?_words_other noWord]
  rfl

theorem parseValue_openObject (rest : Text) :
    parseValue (levels + 1) (123 :: rest) = parseObject (parseValue levels) (123 :: rest) := by
  have noWord : (123 : UInt8) ∉ wordHeads := by decide
  simp only [parseValue, parseValueWith, find?_words_other noWord]
  rfl

end Values

theorem blank_tabs (format : Bool) (depth : ℕ) :
    ∀ byte ∈ (if format then List.replicate depth (9 : UInt8) else []), byte ≤ 32 := by
  cases format with
  | false => nofun
  | true => exact fun byte member => (List.eq_of_mem_replicate member).symm ▸ by decide

mutual

/-- The text of a tree is parsed to the tree that it gives. -/
theorem parseValue_printedValue (format : Bool) (depth levels : ℕ) (item : CJSON)
    (terminated : Terminated item) (parsable : Parsable levels item) :
    ∃ out, printedValue format depth item = some out ∧
      ∀ rest, NumberEnds (reread item) rest →
        parseValue levels (out ++ rest) = some (reread item, rest) := by
  obtain ⟨kind, valuestring, valuedouble, string, child⟩ := item
  obtain ⟨_, value, _, children⟩ := terminated
  cases parsable with
  | word isWord =>
      simp only [List.mem_cons, List.not_mem_nil, or_false] at isWord
      rcases isWord with rfl | rfl | rfl
      all_goals exact ⟨_, rfl, fun rest _ => parseValue_word (by simp [words]) rest⟩
  | string isString =>
      obtain rfl : kind = .string := isString
      exact ⟨_, rfl, fun rest _ => parseValue_string value rest⟩
  | number isNumber own =>
      obtain rfl : kind = .number := isNumber
      cases valuedouble with
      | infinite negative =>
          exact ⟨text "null", rfl, fun rest _ => parseValue_word (by simp [words]) rest⟩
      | finite number =>
          refine ⟨numberText (.finite number), if_neg ?_,
            fun rest ends => parseValue_number own ends⟩
          exact Nat.not_lt.mpr (length_numberText_le own)
  | @container levels _ isContainer parsables =>
      rcases isContainer with isArray | isObject
      · obtain rfl : kind = .array := isArray
        cases child with
        | nil =>
            refine ⟨text "[]", rfl, fun rest _ => (parseValue_openArray _).trans ?_⟩
            exact parseContainer_empty (List.forall_mem_nil _) (by decide)
        | cons current next =>
            obtain ⟨out, printed, size, ⟨first, tail, rfl, visible, other⟩, read⟩ :=
              delimited_printedElements format (depth + 1) levels (current :: next)
                (List.cons_ne_nil _ _) children parsables
            refine ⟨91 :: (first :: tail ++ [93]), ?_, fun rest _ => ?_⟩
            · simp only [printedValue, printed, Option.map_some]
              rfl
            · have elements := read [] (List.forall_mem_nil _) ((tail ++ 93 :: rest).length + 1)
                (size.trans (by simp only [List.length_cons, List.length_append]; omega)) rest
              have shape : 91 :: (first :: tail ++ [93]) ++ rest =
                  91 :: ([] ++ first :: (tail ++ 93 :: rest)) := by
                simp
              rw [shape, parseValue_openArray]
              exact parseContainer_written (List.forall_mem_nil _) visible other elements
      · obtain rfl : kind = .object := isObject
        have blankLine : ∀ byte ∈ (if format then text "\n" else []), byte ≤ 32 := by
          cases format <;> decide +kernel
        have opening : (if format then text "\x7b\n" else text "\x7b") =
            123 :: (if format then text "\n" else []) := by
          cases format <;> rfl
        have tabs := blank_tabs format depth
        generalize (if format then text "\n" else []) = line at blankLine opening
        generalize closing : (if format then List.replicate depth (9 : UInt8) else []) = close
          at tabs
        cases child with
        | nil =>
            refine ⟨123 :: line ++ (close ++ [125]), ?_, fun rest _ => ?_⟩
            · simp only [printedValue, printedMembers, Option.map_some, opening, closing,
                List.append_nil]
              rfl
            · have shape : 123 :: line ++ (close ++ [125]) ++ rest =
                  123 :: ((line ++ close) ++ 125 :: rest) := by
                simp
              rw [shape, parseValue_openObject]
              exact parseContainer_empty (List.forall_mem_append.mpr ⟨blankLine, tabs⟩) (by decide)
        | cons current next =>
            obtain ⟨tail, printed, size, read⟩ :=
              delimited_printedMembers format (depth + 1) levels (current :: next)
                (List.cons_ne_nil _ _) children parsables
            have inner := blank_tabs format (depth + 1)
            generalize (if format then List.replicate (depth + 1) (9 : UInt8) else []) = indent
              at printed inner
            refine ⟨123 :: line ++ (indent ++ doubleQuote :: tail) ++ (close ++ [125]), ?_,
              fun rest _ => ?_⟩
            · simp only [printedValue, printed, Option.map_some, opening, closing]
              rfl
            · have members := read [] (List.forall_mem_nil _)
                ((tail ++ (close ++ 125 :: rest)).length + 1)
                (size.trans (by simp only [List.length_append]; omega)) close tabs rest
              have shape :
                  123 :: line ++ (indent ++ doubleQuote :: tail) ++ (close ++ [125]) ++ rest =
                    123 :: ((line ++ indent) ++
                      doubleQuote :: (tail ++ (close ++ 125 :: rest))) := by
                simp
              rw [shape, parseValue_openObject]
              exact parseContainer_written (List.forall_mem_append.mpr ⟨blankLine, inner⟩)
                (by decide) (by decide) members

/-- The elements of an array are parsed one by one, with blanks in front. -/
theorem delimited_printedElements (format : Bool) (depth levels : ℕ) (items : List CJSON)
    (some_ : items ≠ []) (terminated : ∀ item ∈ items, Terminated item)
    (parsable : ∀ item ∈ items, Parsable levels item) :
    ∃ out, printedElements format depth items = some out ∧ items.length ≤ out.length ∧
      (∃ first tail, out = first :: tail ∧ Visible first ∧ first ≠ 93) ∧
      ∀ lead, (∀ byte ∈ lead, byte ≤ 32) → ∀ bound, items.length ≤ bound → ∀ rest,
        delimited bufferSkipWhitespace (parseElement (parseValue levels)) 44 93 bound
          (lead ++ (out ++ 93 :: rest)) = some (rereadElements items, rest) := by
  cases items with
  | nil => exact (some_ rfl).elim
  | cons current next =>
      obtain ⟨value, printed, reads⟩ := parseValue_printedValue format depth levels current
        (terminated current (List.mem_cons_self ..)) (parsable current (List.mem_cons_self ..))
      obtain ⟨first, consumed, start, visible⟩ := visible_of_reads reads
      have other : first ≠ 93 := by
        rintro rfl
        have read := reads [0] fun _ => ⟨0, [], rfl, by decide⟩
        rw [start, List.cons_append, parseValue_bracket] at read
        exact Option.some_ne_none _ read.symm
      have positive : 1 ≤ value.length := by
        rw [start, List.length_cons]
        omega
      by_cases last : next = []
      · subst last
        refine ⟨value, ?_, positive, ⟨first, consumed, start, visible, other⟩, ?_⟩
        · simp [printedElements, printed]
        · intro lead blank bound enough rest
          obtain ⟨bound, rfl⟩ : ∃ smaller, bound = smaller + 1 := Nat.exists_eq_add_of_le' enough
          have ends : NumberEnds (reread current) (93 :: rest) :=
            fun _ => ⟨93, rest, rfl, by decide⟩
          exact delimited_singleton (parseElement_written reads blank ends)
            (bufferSkipWhitespace_eq rfl) (by decide)
      · obtain ⟨out, others, size, _, delimits⟩ := delimited_printedElements format depth levels
          next last (fun item member => terminated item (List.mem_cons_of_mem _ member))
          fun item member => parsable item (List.mem_cons_of_mem _ member)
        refine ⟨value ++ (if format then text ", " else text ",") ++ out, ?_, ?_,
          ⟨first, _, by rw [start]; rfl, visible, other⟩, ?_⟩
        · simp [printedElements, printed, others, last]
        · simp only [List.length_append, List.length_cons]
          omega
        · intro lead blank bound enough rest
          obtain ⟨bound, rfl⟩ : ∃ smaller, bound = smaller + 1 :=
            ⟨bound - 1, by simp only [List.length_cons] at enough; omega⟩
          have later := delimits (if format then [32] else [])
            (by cases format <;> decide +kernel) bound (by simpa using enough) rest
          have comma : (if format then text ", " else text ",") =
              44 :: (if format then [32] else []) := by
            cases format <;> rfl
          generalize (if format then [(32 : UInt8)] else []) = gap at later comma
          have ends : NumberEnds (reread current) (44 :: (gap ++ (out ++ 93 :: rest))) :=
            fun _ => ⟨44, _, rfl, by decide⟩
          have element := parseElement_written reads blank ends
          have shape :
              lead ++ (value ++ (if format then text ", " else text ",") ++ out ++ 93 :: rest) =
                lead ++ (value ++ 44 :: (gap ++ (out ++ 93 :: rest))) := by
            simp [comma]
          rw [shape]
          exact delimited_cons element (bufferSkipWhitespace_eq rfl) later

/-- The members of an object are parsed one by one, with blanks in front and behind. -/
theorem delimited_printedMembers (format : Bool) (depth levels : ℕ) (items : List CJSON)
    (some_ : items ≠ []) (terminated : ∀ item ∈ items, Terminated item)
    (parsable : ∀ item ∈ items, Parsable levels item) :
    ∃ tail, printedMembers format depth items =
        some ((if format then List.replicate depth 9 else []) ++ doubleQuote :: tail) ∧
      items.length ≤ tail.length ∧
      ∀ lead, (∀ byte ∈ lead, byte ≤ 32) → ∀ bound, items.length ≤ bound →
        ∀ close, (∀ byte ∈ close, byte ≤ 32) → ∀ rest,
          delimited bufferSkipWhitespace (parseMember (parseValue levels)) 44 125 bound
            (lead ++ doubleQuote :: (tail ++ (close ++ 125 :: rest))) =
              some (rereadMembers items, rest) := by
  cases items with
  | nil => exact (some_ rfl).elim
  | cons current next =>
      have own := terminated current (List.mem_cons_self ..)
      obtain ⟨value, printed, reads⟩ := parseValue_printedValue format depth levels current
        own (parsable current (List.mem_cons_self ..))
      obtain ⟨_, _, key, _⟩ := own
      have colon : (if format then text ":\t" else text ":") =
          58 :: (if format then [9] else []) := by
        cases format <;> rfl
      have blankGap : ∀ byte ∈ (if format then [(9 : UInt8)] else []), byte ≤ 32 := by
        cases format <;> decide +kernel
      generalize (if format then [(9 : UInt8)] else []) = gap at colon blankGap
      obtain ⟨name, quoted⟩ : ∃ name, stringText current.string = doubleQuote :: name := ⟨_, rfl⟩
      have member {lead rest : Text} (blank : ∀ byte ∈ lead, byte ≤ 32)
          (ends : NumberEnds (reread current) rest) :
          parseMember (parseValue levels)
              (lead ++ doubleQuote :: (name ++ 58 :: gap ++ value ++ rest)) =
            some ({ reread current with string := some (current.string.getD []) }, rest) := by
        have read := parseMember_written reads key blank blankGap ends
        rw [quoted] at read
        simpa using read
      have blankLine : ∀ byte ∈ (if format then text "\n" else []), byte ≤ 32 := by
        cases format <;> decide +kernel
      by_cases last : next = []
      · subst last
        refine ⟨name ++ 58 :: gap ++ value ++ (if format then text "\n" else []), ?_, ?_, ?_⟩
        · simp only [printedMembers, printed, quoted, colon, Option.bind_some, Option.map_some,
            List.append_nil, List.append_assoc, List.cons_append, if_true, List.nil_append]
        · simp only [List.length_append, List.length_cons, List.length_nil]
          omega
        · intro lead blank bound enough close blankClose rest
          obtain ⟨bound, rfl⟩ : ∃ smaller, bound = smaller + 1 := Nat.exists_eq_add_of_le' enough
          have skipped : bufferSkipWhitespace
              ((if format then text "\n" else []) ++ close ++ 125 :: rest) = 125 :: rest :=
            bufferSkipWhitespace_blanks (List.forall_mem_append.mpr ⟨blankLine, blankClose⟩)
              (by decide)
          have ends : NumberEnds (reread current) _ :=
            Parses.numberEnds_of_skip (by decide) _ _ _ _ skipped (.inr rfl)
          have read := member blank ends
          have shape : lead ++ doubleQuote :: (name ++ 58 :: gap ++ value ++
              (if format then text "\n" else []) ++ (close ++ 125 :: rest)) =
                lead ++ doubleQuote :: (name ++ 58 :: gap ++ value ++
                  ((if format then text "\n" else []) ++ close ++ 125 :: rest)) := by
            simp only [List.append_assoc]
          rw [shape]
          exact delimited_singleton read skipped (by decide)
      · obtain ⟨tail, others, size, delimits⟩ := delimited_printedMembers format depth levels next
          last (fun item member => terminated item (List.mem_cons_of_mem _ member))
          fun item member => parsable item (List.mem_cons_of_mem _ member)
        have indent := blank_tabs format depth
        have comma : text "," = [44] := by decide
        have whole : printedMembers format depth (current :: next) =
            some ((if format then List.replicate depth 9 else []) ++ doubleQuote ::
              (name ++ 58 :: gap ++ value ++ 44 :: ((if format then text "\n" else []) ++
                ((if format then List.replicate depth 9 else []) ++ doubleQuote :: tail)))) := by
          simp only [printedMembers, printed, others, quoted, colon, comma, if_neg last,
            Option.bind_some, Option.map_some, List.append_assoc, List.cons_append,
            List.nil_append]
        generalize (if format then List.replicate depth (9 : UInt8) else []) = tabs
          at whole indent ⊢
        generalize (if format then text "\n" else []) = between at whole blankLine
        refine ⟨name ++ 58 :: gap ++ value ++ 44 :: (between ++ (tabs ++ doubleQuote :: tail)),
          whole, ?_, ?_⟩
        · simp only [List.length_append, List.length_cons]
          omega
        · intro lead blank bound enough close blankClose rest
          obtain ⟨bound, rfl⟩ : ∃ smaller, bound = smaller + 1 :=
            ⟨bound - 1, by simp only [List.length_cons] at enough; omega⟩
          have later := delimits (between ++ tabs) (List.forall_mem_append.mpr ⟨blankLine, indent⟩)
            bound (by simpa using enough) close blankClose rest
          have ends : NumberEnds (reread current)
              (44 :: (between ++ tabs ++ doubleQuote :: (tail ++ (close ++ 125 :: rest)))) :=
            fun _ => ⟨44, _, rfl, by decide⟩
          have read := member blank ends
          have shape : lead ++ doubleQuote :: (name ++ 58 :: gap ++ value ++
              44 :: (between ++ (tabs ++ doubleQuote :: tail)) ++ (close ++ 125 :: rest)) =
                lead ++ doubleQuote :: (name ++ 58 :: gap ++ value ++
                  44 :: (between ++ tabs ++ doubleQuote :: (tail ++ (close ++ 125 :: rest)))) := by
            simp
          rw [shape]
          exact delimited_cons read (bufferSkipWhitespace_eq rfl) later

end

/-! ## Whole texts -/

section Whole

variable {item : CJSON} (terminated : Terminated item) (parsable : Parsable nestingLimit item)

include terminated parsable

/-- The text of a tree in front of anything that ends a number. -/
theorem parseWithLength_printedValue (format : Bool) :
    ∃ out, printedValue format 0 item = some out ∧
      ∀ rest, NumberEnds (reread item) rest →
        parseWithLength (out ++ rest) = some (reread item) := by
  obtain ⟨out, printed, reads⟩ :=
    parseValue_printedValue format 0 nestingLimit item terminated parsable
  obtain ⟨first, consumed, start, visible⟩ := visible_of_reads reads
  refine ⟨out, printed, fun rest ends => ?_⟩
  have read := reads rest ends
  rw [start, List.cons_append] at read
  have noMark : (first :: (consumed ++ rest)).head? ≠ some 0xEF := by
    intro mark
    obtain rfl := Option.some.inj mark
    rw [parseValue_bom] at read
    exact Option.some_ne_none _ read.symm
  have skipped : bufferSkipWhitespace (first :: (consumed ++ rest)) = first :: (consumed ++ rest) :=
    bufferSkipWhitespace_blanks (List.forall_mem_nil _) visible
  rw [start, List.cons_append, parseWithLength, if_neg (List.cons_ne_nil _ _),
    skipUtf8Bom_of_head noMark, skipped, read, Option.map_some]

/-- The text of a tree, with whatever stands behind its terminator. -/
theorem parse_printedValue (format : Bool) :
    ∃ out, printedValue format 0 item = some out ∧
      ∀ rest, parse (out ++ 0 :: rest) = some (reread item) := by
  obtain ⟨out, printed, reads⟩ := parseWithLength_printedValue terminated parsable format
  have clean := terminated_printedValue format 0 item terminated out printed
  refine ⟨out, printed, fun rest => ?_⟩
  rw [parse, cString_append_zero clean]
  exact reads [0] fun _ => ⟨0, [], rfl, by decide⟩

end Whole

/-- A tree as `parse_value` returns it. -/
inductive Returned : ℕ → CJSON → Prop where
  | word {levels : ℕ} {kind : Kind} (isWord : kind ∈ [.null, .false, .true]) :
      Returned levels { kind := kind }
  | string {levels : ℕ} {bytes : Text} (terminated : 0 ∉ bytes) :
      Returned levels { kind := .string, valuestring := some bytes }
  | number {levels : ℕ} {number : Double} (own : number.Own) :
      Returned levels { kind := .number, valuedouble := number }
  | array {levels : ℕ} {child : List CJSON}
      (elements : ∀ element ∈ child, Returned levels element) :
      Returned (levels + 1) { kind := .array, child := child }
  | object {levels : ℕ} {child : List CJSON}
      (keys : ∀ member ∈ child, ∃ key, member.string = some key ∧ 0 ∉ key)
      (values : ∀ member ∈ child, Returned levels { member with string := none }) :
      Returned (levels + 1) { kind := .object, child := child }

/-- What `strtod` reads is a `double`. -/
theorem own_of_strtod {nptr endptr : Text} {number : Double}
    (result : strtod nptr = some (number, endptr)) : number.Own := by
  simp only [strtod] at result
  split at result
  · simp at result
  · exact (Prod.mk.inj (Option.some.inj result)).1 ▸ Double.own_nearest _

theorem cString_terminated (bytes : Text) : 0 ∉ cString bytes := by
  intro member
  have other := List.mem_takeWhile_imp member
  exact absurd other (by decide)

/-- A value on its own has no name. -/
theorem Returned.key {levels : ℕ} {value : CJSON} (returned : Returned levels value) :
    value.string = none := by
  cases returned <;> rfl

/-- A member is a returned value with its name. -/
theorem parseMember_returned {inner : Reader UInt8 CJSON} {levels : ℕ}
    (returned : ∀ input item rest, inner input = some (item, rest) → Returned levels item)
    {input rest : Text} {member : CJSON} (read : parseMember inner input = some (member, rest)) :
    (∃ key, member.string = some key ∧ 0 ∉ key) ∧
      Returned levels { member with string := none } := by
  obtain ⟨name, after, item, named, found, rfl⟩ := parseMember_eq_some read
  obtain ⟨_, output, _, _, _, same⟩ := parseString_eq_some named
  obtain ⟨_, _, found⟩ := parseMemberValue_eq_some found
  have value := returned _ _ _ found
  refine ⟨⟨name, rfl, same ▸ cString_terminated output⟩, ?_⟩
  have whole : ({ item with string := none } : CJSON) = item := by
    obtain ⟨_, _, _, _, _⟩ := item
    simpa using value.key.symm
  exact whole.symm ▸ value

/-- A value is as the parser returns them if those one level down are. -/
theorem returned_parseValueWith {nested : Option (Reader UInt8 CJSON)} {levels : ℕ}
    (returned : ∀ inner, nested = some inner → ∃ lower, levels = lower + 1 ∧
      ∀ input item rest, inner input = some (item, rest) → Returned lower item)
    {buffer rest : Text} {value : CJSON}
    (result : parseValueWith nested buffer = some (value, rest)) : Returned levels value := by
  obtain ⟨word, member, _, rfl⟩ | ⟨_, _, _, _, outcome⟩ := parseValueWith_eq_some result
  · have kinds : ∀ word ∈ words, word.2 ∈ [Kind.null, .false, .true] := by decide
    exact .word (kinds word member)
  · rcases outcome with ⟨_, content, read, rfl⟩ | ⟨_, _, read⟩ | ⟨_, inner, some, read⟩ |
      ⟨_, inner, some, read⟩
    · obtain ⟨_, output, _, _, _, rfl⟩ := parseString_eq_some read
      exact .string (cString_terminated output)
    · obtain ⟨number, _, found, rfl, _⟩ := parseNumber_eq_some read
      exact .number (own_of_strtod found)
    · obtain ⟨lower, rfl, inside⟩ := returned inner some
      obtain ⟨child, rfl, elements⟩ :=
        parseContainer_forall (fun _ _ _ read => inside _ _ _ read) read
      exact .array elements
    · obtain ⟨lower, rfl, inside⟩ := returned inner some
      obtain ⟨child, rfl, members⟩ :=
        parseContainer_forall (fun _ _ _ read => parseMember_returned inside read) read
      exact .object (fun member isMember => (members member isMember).1)
        fun member isMember => (members member isMember).2

/-- What is parsed at a level nests no deeper. -/
theorem returned_parseValue (levels : ℕ) :
    ∀ buffer value rest, parseValue levels buffer = some (value, rest) → Returned levels value := by
  induction levels with
  | zero =>
      exact fun _ _ _ result =>
        returned_parseValueWith (fun _ missing => by simp at missing) result
  | succ levels ih =>
      exact fun _ _ _ result =>
        returned_parseValueWith (fun _ some => ⟨levels, rfl, Option.some.inj some ▸ ih⟩) result

/-- What `cJSON_ParseWithLength` returns is within the nesting limit. -/
theorem returned_parseWithLength {buffer : Text} {json : CJSON}
    (parsed : parseWithLength buffer = some json) : Returned nestingLimit json := by
  obtain ⟨rest, result⟩ := parseWithLength_eq_some.mp parsed
  exact returned_parseValue _ _ _ _ result

/-- A tree that was returned can be printed and parsed. -/
theorem Returned.terminated {levels : ℕ} {value : CJSON} (returned : Returned levels value) :
    Terminated value := by
  induction returned with
  | word _ => exact ⟨_, nofun, nofun, nofun⟩
  | string terminated =>
      exact ⟨_, fun bytes same => Option.some.inj same ▸ terminated, nofun, nofun⟩
  | number _ => exact ⟨_, nofun, nofun, nofun⟩
  | array _ ih => exact ⟨_, nofun, nofun, ih⟩
  | object keys _ ih =>
      refine ⟨_, nofun, nofun, fun member isMember => ?_⟩
      obtain ⟨_, value, _, children⟩ := ih member isMember
      obtain ⟨key, named, clean⟩ := keys member isMember
      exact ⟨_, value, fun bytes same => Option.some.inj (named.symm.trans same) ▸ clean, children⟩

/-- What was returned can be parsed again. -/
theorem Returned.parsable {levels : ℕ} {value : CJSON} (returned : Returned levels value) :
    Parsable levels value := by
  induction returned with
  | word isWord => exact .word isWord
  | string _ => exact .string rfl
  | number own => exact .number rfl own
  | array _ ih => exact .container (.inl rfl) ih
  | object _ _ ih =>
      refine .container (.inr rfl) fun member isMember => ?_
      cases ih member isMember with
      | word isWord => exact .word isWord
      | string isString => exact .string isString
      | number isNumber own => exact .number isNumber own
      | container isContainer children => exact .container isContainer children

/-- Trees that agree but for their numbers: those compare equal, and where the one has an
infinite number the other has null. -/
inductive Alike : CJSON → CJSON → Prop where
  | intro {item other : CJSON} (key : other.string = item.string)
      (value : other.valuestring = item.valuestring)
      (kind : (other.kind = item.kind ∧
          (item.kind = .number → compareDouble other.valuedouble item.valuedouble = true)) ∨
        (item.kind = .number ∧ other.kind = .null ∧
          ∃ negative, item.valuedouble = .infinite negative))
      (child : List.Forall₂ Alike item.child other.child) : Alike item other

theorem rereadElements_eq (items : List CJSON) : rereadElements items = items.map reread := by
  induction items with
  | nil => rfl
  | cons current next ih => rw [rereadElements, ih, List.map_cons]

theorem rereadMembers_eq (items : List CJSON) :
    rereadMembers items =
      items.map fun item => { reread item with string := some (item.string.getD []) } := by
  induction items with
  | nil => rfl
  | cons current next ih => rw [rereadMembers, ih, List.map_cons]

/-- Lists agree if their items do. -/
theorem forall₂_map {items : List CJSON} {again : CJSON → CJSON}
    (alike : ∀ item ∈ items, Alike item (again item)) :
    List.Forall₂ Alike items (items.map again) :=
  List.forall₂_map_right_iff.mpr (List.forall₂_same.mpr alike)

/-- What was returned agrees with what is read again. -/
theorem alike_reread {levels : ℕ} {value : CJSON} (returned : Returned levels value) :
    Alike value (reread value) := by
  induction returned with
  | @word _ kind isWord =>
      simp only [List.mem_cons, List.not_mem_nil, or_false] at isWord
      rcases isWord with rfl | rfl | rfl
      all_goals exact ⟨rfl, rfl, .inl ⟨rfl, nofun⟩, .nil⟩
  | string _ => exact ⟨rfl, rfl, .inl ⟨rfl, nofun⟩, .nil⟩
  | @number _ number own =>
      cases number with
      | infinite negative => exact ⟨rfl, rfl, .inr ⟨rfl, rfl, negative, rfl⟩, .nil⟩
      | finite number =>
          obtain ⟨read, found, close, _⟩ := strtod_numberText own
          refine ⟨rfl, rfl, .inl ⟨rfl, fun _ => ?_⟩, .nil⟩
          simp only [reread, rereadNumber, found, Option.map_some, Option.getD_some]
          exact close
  | @array _ child _ ih =>
      have children : List.Forall₂ Alike child (rereadElements child) := by
        rw [rereadElements_eq]
        exact forall₂_map ih
      exact ⟨rfl, rfl, .inl ⟨rfl, nofun⟩, children⟩
  | @object _ child keys _ ih =>
      refine ⟨rfl, rfl, .inl ⟨rfl, nofun⟩, ?_⟩
      change List.Forall₂ Alike child (rereadMembers child)
      rw [rereadMembers_eq]
      apply forall₂_map
      intro member isMember
      obtain ⟨key, named, _⟩ := keys member isMember
      have same : reread { member with string := none } = reread member := by
        obtain ⟨_, _, _, _, _⟩ := member
        rfl
      have alike := ih member isMember
      rw [same] at alike
      obtain ⟨_, value, kind, child⟩ := alike
      exact ⟨by rw [named]; rfl, value, kind, child⟩

/-- **Parse, print, parse.** A tree that the parser returned has a text, and is printed by
hooks that refuse no call whenever that leaves two bytes of the largest buffer. The text,
formatted or not, is parsed to a tree that agrees with it but for numbers that
`compare_double` does not tell apart and for infinite numbers, which become null. -/
theorem parse_print_parse {buffer : Text} {json : CJSON}
    (parsed : parseWithLength buffer = some json) (format : Bool) (hooks : Hooks) :
    ∃ out again,
      hooks.Settle (if out.length + 2 ≤ intMax.toNat then .ok (out ++ [0]) else .error .refused)
          (print json format hooks) ∧
        parse (out ++ [0]) = some again ∧ Alike json again := by
  have returned := returned_parseWithLength parsed
  obtain ⟨out, text, read⟩ := parse_printedValue returned.terminated returned.parsable format
  have settle := settle_print returned.terminated format hooks
  rw [text] at settle
  exact ⟨out, reread json, settle, read [], alike_reread returned⟩

/-- The sample list is what the parser makes of its own text. -/
theorem parseWithLength_sampleList :
    parseWithLength (text "[\"a\\n\",12]") = some sampleList := by
  have number : strtod (numberText (.finite 12)) = some (.finite 12, []) := by
    exact_mod_cast strtod_numberText_intCast (show |(12 : ℤ)| < 10 ^ 15 by decide)
  have parsable : Parsable nestingLimit sampleList := by
    refine .container (.inl rfl) fun child member => ?_
    obtain rfl | rfl : child = _ ∨ child = _ := by
      simpa only [sampleList, List.mem_cons, List.not_mem_nil, or_false] using member
    · exact .string rfl
    · exact .number rfl (own_of_strtod number)
  obtain ⟨out, printed, reads⟩ :=
    parseWithLength_printedValue terminated_sampleList parsable false
  obtain rfl := Option.some.inj (printedValue_sampleList.symm.trans printed)
  have read := reads [] fun isNumber =>
    absurd isNumber (show Kind.array ≠ Kind.number by decide)
  simpa only [List.append_nil, sampleList, reread, rereadElements, rereadNumber, number,
    Option.map_some, Option.getD_some] using read

/-- A list with a string that is escaped and a number, printed by hooks that copy. -/
theorem parse_print_parse_sampleList :
    ∃ out again,
      (Hooks.zeroed (fun _ => true) false).Settle
          (if out.length + 2 ≤ intMax.toNat then .ok (out ++ [0]) else .error .refused)
          (print sampleList false (.zeroed (fun _ => true) false)) ∧
        parse (out ++ [0]) = some again ∧ Alike sampleList again :=
  parse_print_parse parseWithLength_sampleList false (.zeroed (fun _ => true) false)

end Evenscribe.CJSON
