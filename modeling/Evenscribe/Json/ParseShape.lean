import Evenscribe.Json.ParseLocality

/-!
# The trees the parser builds

Every tree the parser returns is well formed, a tree without keys unless it is an
object, and an object exactly when its text starts with a brace. An object that
closes inside the front of a buffer is the result for every buffer with that
front (`parseRoot_local`).
-/

namespace Evenscribe.CJSON

open Reading

/-- A node as `parse_value` leaves it, with its key not set yet. -/
structure ParsedValue (value : CJSON) : Prop where
  wellFormed : WellFormed value
  key : value.string = none

/-- Giving a node its name keeps it well formed. -/
theorem WellFormed.named {node : CJSON} (wellFormed : WellFormed node) (name : Text) :
    WellFormed { node with string := some name } := by
  cases wellFormed with
  | intro _ strings members elements children => exact ⟨_, strings, members, elements, children⟩

/-- A node without children is well formed if it has the string that its kind asks for. -/
theorem WellFormed.leaf {node : CJSON} (leaf : node.child = [])
    (strings : node.kind = .string → node.valuestring.isSome) : WellFormed node := by
  refine ⟨node, strings, ?_, ?_, ?_⟩ <;> simp [leaf]

/-- The children of a container are what its entry parser returned. -/
theorem parseContainer_forall {kind : Kind} {opening closing : UInt8} {entry : Reader UInt8 CJSON}
    {property : CJSON → Prop}
    (holds : ∀ input value rest, entry input = some (value, rest) → property value)
    {buffer rest : Text} {value : CJSON}
    (result : parseContainer kind opening closing entry buffer = some (value, rest)) :
    ∃ child, value = { kind := kind, child := child } ∧ ∀ item ∈ child, property item := by
  obtain ⟨_, _, _, _, _, outcome⟩ := parseContainer_eq_some result
  obtain ⟨_, rfl, _⟩ | ⟨_, child, rfl, found⟩ := outcome
  · exact ⟨[], rfl, fun item member => (List.not_mem_nil member).elim⟩
  · exact ⟨child, rfl, delimited_forall holds _ _ _ _ found⟩

/-- A container is of its kind. -/
theorem parseContainer_kind {kind : Kind} {opening closing : UInt8} {entry : Reader UInt8 CJSON}
    {buffer rest : Text} {value : CJSON}
    (result : parseContainer kind opening closing entry buffer = some (value, rest)) :
    value.kind = kind := by
  obtain ⟨_, _, _, _, _, outcome⟩ := parseContainer_eq_some result
  obtain ⟨_, rfl, _⟩ | ⟨_, child, rfl, _⟩ := outcome
  · rfl
  · rfl

theorem parsedValue_parseArray {value : Reader UInt8 CJSON}
    (parsed : ∀ input item rest, value input = some (item, rest) → ParsedValue item)
    {buffer rest : Text} {array : CJSON} (result : parseArray value buffer = some (array, rest)) :
    ParsedValue array := by
  obtain ⟨child, rfl, elements⟩ :=
    parseContainer_forall (fun _ _ _ read => parsed _ _ _ read) result
  exact ⟨⟨_, nofun, nofun, fun _ element member => (elements element member).key,
    fun element member => (elements element member).wellFormed⟩, rfl⟩

theorem parsedValue_parseObject {value : Reader UInt8 CJSON}
    (parsed : ∀ input item rest, value input = some (item, rest) → ParsedValue item)
    {buffer rest : Text} {object : CJSON}
    (result : parseObject value buffer = some (object, rest)) : ParsedValue object := by
  have entries : ∀ input member rest, parseMember value input = some (member, rest) →
      WellFormed member ∧ member.string.isSome := by
    intro input member rest read
    obtain ⟨name, after, item, _, found, rfl⟩ := parseMember_eq_some read
    obtain ⟨_, _, found⟩ := parseMemberValue_eq_some found
    exact ⟨(parsed _ _ _ found).wellFormed.named name, rfl⟩
  obtain ⟨child, rfl, members⟩ := parseContainer_forall entries result
  exact ⟨⟨_, nofun, fun _ member inside => (members member inside).2, fun other => (other rfl).elim,
    fun member inside => (members member inside).1⟩, rfl⟩

/-- A value is parsed if those one level down are. -/
theorem parsedValue_parseValueWith {nested : Option (Reader UInt8 CJSON)}
    (parsed : ∀ inner, nested = some inner →
      ∀ input item rest, inner input = some (item, rest) → ParsedValue item)
    {buffer rest : Text} {value : CJSON}
    (result : parseValueWith nested buffer = some (value, rest)) : ParsedValue value := by
  obtain ⟨word, member, _, rfl⟩ | ⟨_, _, _, _, outcome⟩ := parseValueWith_eq_some result
  · have kinds : ∀ word ∈ words, word.2 ≠ .string := by decide
    exact ⟨.leaf rfl fun string => (kinds word member string).elim, rfl⟩
  · rcases outcome with ⟨_, content, _, rfl⟩ | ⟨_, _, read⟩ | ⟨_, inner, some, read⟩ |
      ⟨_, inner, some, read⟩
    · exact ⟨.leaf rfl fun _ => rfl, rfl⟩
    · obtain ⟨number, _, _, rfl, _⟩ := parseNumber_eq_some read
      exact ⟨.leaf rfl nofun, rfl⟩
    · exact parsedValue_parseArray (parsed inner some) read
    · exact parsedValue_parseObject (parsed inner some) read

/-- What is parsed at any level is a parsed value. -/
theorem parsedValue_parseValue (levels : ℕ) :
    ∀ buffer value rest, parseValue levels buffer = some (value, rest) → ParsedValue value := by
  induction levels with
  | zero =>
      exact fun _ _ _ result =>
        parsedValue_parseValueWith (fun _ missing => by simp at missing) result
  | succ levels ih =>
      exact fun _ _ _ result =>
        parsedValue_parseValueWith (fun _ some => Option.some.inj some ▸ ih) result

/-- What `cJSON_ParseWithLength` returns, with the bytes it did not look at. -/
def parseRoot (buffer : Text) : Option (CJSON × Text) :=
  parseValue nestingLimit (bufferSkipWhitespace (skipUtf8Bom buffer))

/-- What `cJSON_ParseWithLength` returns is a parsed value. -/
theorem parsedValue_parseWithLength {buffer : Text} {json : CJSON}
    (parsed : parseWithLength buffer = some json) : ParsedValue json := by
  unfold parseWithLength at parsed
  split at parsed
  · simp at parsed
  · obtain ⟨⟨_, rest⟩, result, rfl⟩ := Option.map_eq_some_iff.mp parsed
    exact parsedValue_parseValue _ _ _ _ result

/-- An object stands between braces, and nothing else starts with one. -/
theorem parseValueWith_object {nested : Option (Reader UInt8 CJSON)}
    (parses : ∀ inner, nested = some inner → Parses inner) {buffer rest : Text} {value : CJSON}
    (result : parseValueWith nested buffer = some (value, rest)) :
    (value.kind = .object ∧ ∃ consumed, buffer = 123 :: (consumed ++ 125 :: rest)) ∨
      (value.kind ≠ .object ∧ buffer.head? ≠ some 123) := by
  obtain ⟨word, member, rfl, rfl⟩ | ⟨first, tail, rfl, _, outcome⟩ := parseValueWith_eq_some result
  · obtain ⟨head, more, shape, isHead⟩ := words_head member
    have kinds : ∀ word ∈ words, word.2 ≠ .object := by decide
    have heads : ∀ byte ∈ wordHeads, byte ≠ 123 :=
      forall_wordHeads (by decide) (by decide) (by decide)
    refine .inr ⟨kinds word member, ?_⟩
    rw [shape, List.cons_append, List.head?_cons]
    exact fun brace => heads head isHead (Option.some.inj brace)
  · rw [List.head?_cons]
    rcases outcome with ⟨rfl, content, _, rfl⟩ | ⟨_, numeric, read⟩ | ⟨rfl, inner, some, read⟩ |
      ⟨rfl, inner, some, read⟩
    · exact .inr ⟨nofun, by decide⟩
    · obtain ⟨number, _, _, rfl, _⟩ := parseNumber_eq_some read
      refine .inr ⟨nofun, fun brace => ?_⟩
      obtain rfl := Option.some.inj brace
      exact absurd numeric (by decide)
    · exact .inr ⟨fun object => by simp [parseContainer_kind read] at object, by decide⟩
    · exact .inl ⟨parseContainer_kind read,
        parseContainer_ends (advances_parseMember (parses inner some).advances) read⟩

/-- A value is an object when it starts with a brace, and ends with one then. -/
theorem parseValue_object {levels : ℕ} {buffer rest : Text} {value : CJSON}
    (result : parseValue levels buffer = some (value, rest)) :
    (value.kind = .object ∧ ∃ consumed, buffer = 123 :: (consumed ++ 125 :: rest)) ∨
      (value.kind ≠ .object ∧ buffer.head? ≠ some 123) := by
  cases levels with
  | zero => exact parseValueWith_object (fun _ missing => by simp at missing) result
  | succ levels =>
      exact parseValueWith_object (fun _ some => Option.some.inj some ▸ parses_parseValue levels)
        result

/-- No value starts with the first byte of a byte order mark. -/
theorem parseValue_bom (levels : ℕ) (tail : Text) : parseValue levels (0xEF :: tail) = none := by
  have noWord : (0xEF : UInt8) ∉ wordHeads := by decide
  have step : ∀ nested, parseValueWith nested (0xEF :: tail) = none := by
    intro nested
    simp only [parseValueWith, find?_words_other noWord tail]
    rw [if_neg (by decide), if_neg (by decide), if_neg (by decide), if_neg (by decide)]
  cases levels with
  | zero => exact step none
  | succ levels => exact step _

theorem skipUtf8Bom_of_head {buffer : Text} (head : buffer.head? ≠ some 0xEF) :
    skipUtf8Bom buffer = buffer := by
  refine if_neg fun mark => head ?_
  obtain ⟨rest, rfl⟩ := mark.2
  rfl

/-- A byte order mark is dropped if two more bytes follow. -/
theorem skipUtf8Bom_mark {rest : Text} (enough : 2 ≤ rest.length) :
    skipUtf8Bom ([0xEF, 0xBB, 0xBF] ++ rest) = rest := by
  have long : 4 < ([0xEF, 0xBB, 0xBF] ++ rest : Text).length := by
    simp only [List.length_append, List.length_cons, List.length_nil]
    omega
  exact if_pos ⟨long, List.prefix_append ..⟩

/-- When a value is parsed inside `front`, whether a byte order mark is skipped does
not depend on what follows, if the value is an object or nothing follows it. -/
theorem skipUtf8Bom_front {front back rest : Text} {value : CJSON}
    (result : parseRoot (front ++ back) = some (value, rest ++ back))
    (enough : value.kind = .object ∨ back = []) :
    ∃ inner, ∀ other, skipUtf8Bom (front ++ other) = inner ++ other := by
  obtain ⟨first, consumed, shape⟩ := (parses_parseValue nestingLimit).advances _ _ _ result
  by_cases mark : 4 < (front ++ back).length ∧ [0xEF, 0xBB, 0xBF] <+: front ++ back
  · obtain ⟨marked, whole⟩ := mark.2
    have skipped : skipUtf8Bom (front ++ back) = marked := by
      rw [skipUtf8Bom, if_pos mark, ← whole]
      rfl
    obtain ⟨blanks, kept⟩ := bufferSkipWhitespace_skips.suffix marked
    rw [skipped] at shape
    rw [shape] at kept
    have inside : front = [0xEF, 0xBB, 0xBF] ++ (blanks ++ first :: (consumed ++ rest)) := by
      refine (List.append_left_inj back).mp ?_
      rw [← whole, ← kept]
      simp only [List.append_assoc, List.cons_append]
    refine ⟨blanks ++ first :: (consumed ++ rest), fun other => ?_⟩
    rw [inside, List.append_assoc]
    refine skipUtf8Bom_mark ?_
    rcases enough with object | rfl
    · -- an object has two brackets
      obtain ⟨_, inner, text⟩ | ⟨other, _⟩ := parseValue_object result
      · rw [skipped, shape] at text
        have size := congrArg List.length text
        simp only [List.length_cons, List.length_append] at size ⊢
        omega
      · exact (other object).elim
    · have size := mark.1
      rw [List.append_nil, inside, List.length_append] at size
      simp only [List.length_append, List.length_cons, List.length_nil] at size ⊢
      omega
  · have kept : skipUtf8Bom (front ++ back) = front ++ back := if_neg mark
    refine ⟨front, fun other => skipUtf8Bom_of_head ?_⟩
    have inside : ∃ blanks, front = blanks ++ first :: (consumed ++ rest) := by
      obtain ⟨blanks, whole⟩ := bufferSkipWhitespace_skips.suffix (front ++ back)
      rw [kept] at shape
      rw [shape] at whole
      exact ⟨blanks, (List.append_left_inj back).mp (by simpa using whole.symm)⟩
    cases front with
    | nil => obtain ⟨blanks, absurd⟩ := inside; simp at absurd
    | cons head tail =>
        intro isMark
        obtain rfl := Option.some.inj isMark
        have visible : bufferSkipWhitespace (0xEF :: (tail ++ back)) = 0xEF :: (tail ++ back) :=
          bufferSkipWhitespace_eq (List.dropWhile_cons_of_neg (by decide))
        rw [parseRoot, kept, List.cons_append, visible, parseValue_bom] at result
        exact (Option.some_ne_none _ result.symm).elim

/-- An object that closes inside `front` is parsed whatever follows. -/
theorem parseRoot_local {front back rest : Text} {value : CJSON}
    (result : parseRoot (front ++ back) = some (value, rest ++ back))
    (object : value.kind = .object) (other : Text) :
    parseRoot (front ++ other) = some (value, rest ++ other) := by
  obtain ⟨inner, skipped⟩ := skipUtf8Bom_front result (.inl object)
  have parses := parses_parseValue nestingLimit
  unfold parseRoot at result ⊢
  rw [skipped] at result ⊢
  exact parses.isLocal.afterSkip bufferSkipWhitespace_skips parses.advances parses.starts
    inner back value rest result (fun number => by simp [object] at number) other

/-- The first value decides whether a longer buffer can be an object. -/
theorem parseRoot_kind {front rest after other : Text} {value longer : CJSON}
    (result : parseRoot front = some (value, rest))
    (extended : parseRoot (front ++ other) = some (longer, after)) :
    value.kind = .object ↔ longer.kind = .object := by
  have alone : parseRoot (front ++ []) = some (value, rest ++ []) := by simpa using result
  obtain ⟨inner, skipped⟩ := skipUtf8Bom_front alone (.inr rfl)
  have whole : skipUtf8Bom front = inner := by simpa using skipped []
  unfold parseRoot at result extended
  rw [whole] at result
  rw [skipped] at extended
  obtain ⟨first, consumed, shape⟩ := (parses_parseValue nestingLimit).advances _ _ _ result
  have visible : Visible first :=
    (parses_parseValue nestingLimit).starts first _ _ (shape ▸ result)
  have found := bufferSkipWhitespace_skips.finds inner [] first (consumed ++ rest) visible
    (by simpa using shape) other
  have head : ∀ (buffer : Text) (item : CJSON) (left : Text),
      parseValue nestingLimit buffer = some (item, left) →
        (item.kind = .object ↔ buffer.head? = some 123) := by
    intro buffer item left read
    obtain ⟨object, inside, rfl⟩ | ⟨object, brace⟩ := parseValue_object read
    · exact ⟨fun _ => rfl, fun _ => object⟩
    · exact ⟨fun isObject => (object isObject).elim, fun isBrace => (brace isBrace).elim⟩
  rw [head _ _ _ result, head _ _ _ extended, found, shape]
  rfl

/-- An object ends in its closing brace, so bytes without one cannot end it. -/
theorem parseRoot_ends {front back rest : Text} {value : CJSON}
    (result : parseRoot (front ++ back) = some (value, rest)) (object : value.kind = .object)
    (noBrace : 125 ∉ back) : ∃ inner, rest = inner ++ back := by
  obtain ⟨_, consumed, shape⟩ | ⟨other, _⟩ := parseValue_object result
  · obtain ⟨blanks, whole⟩ := bufferSkipWhitespace_skips.suffix (skipUtf8Bom (front ++ back))
    have suffix : skipUtf8Bom (front ++ back) <:+ front ++ back := by
      unfold skipUtf8Bom
      split
      · exact List.drop_suffix ..
      · exact List.suffix_rfl
    obtain ⟨mark, parts⟩ := suffix
    rw [← whole, shape] at parts
    have cut : (mark ++ blanks ++ 123 :: consumed) ++ 125 :: rest = front ++ back := by
      rw [← parts]
      simp only [List.append_assoc, List.cons_append]
    obtain ⟨inner, _, same⟩ | ⟨inner, _, same⟩ := List.append_eq_append_iff.mp cut
    · cases inner with
      | nil =>
          rw [List.nil_append] at same
          exact (noBrace (same ▸ List.mem_cons_self ..)).elim
      | cons brace inner => exact ⟨inner, (List.cons.inj same).2⟩
    · exact (noBrace (same ▸ List.mem_append_right _ (List.mem_cons_self ..))).elim
  · exact (other object).elim

/-- A buffer is parsed when its root is, whatever follows. -/
theorem parseWithLength_eq_some {buffer : Text} {json : CJSON} :
    parseWithLength buffer = some json ↔ ∃ rest, parseRoot buffer = some (json, rest) := by
  unfold parseWithLength
  split
  · next empty =>
      subst empty
      have nothing : parseRoot [] = none := by decide +kernel
      simp [nothing]
  · simp [parseRoot]

end Evenscribe.CJSON
