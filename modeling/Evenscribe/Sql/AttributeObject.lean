import Evenscribe.Sql.JsonReader
import Evenscribe.Sql.PostgresRoundTrip
import Mathlib.Data.List.Perm.Basic

/-!
# Attribute columns as JSON

The text between the outer quotes of a PostgreSQL attribute column is the map as a
JSON object exactly when every key and value stands for itself
(`carriesAttributes_iff`). Where one does not, an object that is read all the
same needs more ink than the text has: an escape costs at least one byte more
than it stands for, and the generator writes none.
-/

namespace Evenscribe.Sql

open Reading PostgresQueryGenerator

/-- The number of bytes other than spaces. -/
def ink (bytes : Text) : ℕ := bytes.countP fun byte => decide (byte ≠ 32)

/-- The byte that a string costs at least if it does not stand for itself. -/
def toll (content : Text) : ℕ := if Verbatim content then 0 else 1

section Ink

theorem ink_append (first second : Text) : ink (first ++ second) = ink first + ink second :=
  List.countP_append

theorem ink_cons (byte : UInt8) (rest : Text) (shown : byte ≠ 32) :
    ink (byte :: rest) = 1 + ink rest := by
  simp [ink, shown, Nat.add_comm]

theorem ink_le_length (bytes : Text) : ink bytes ≤ bytes.length := List.countP_le_length

/-- The end of a text takes no more ink than the text. -/
theorem ink_le_of_suffix (bytes suffix : Text) (ends : suffix <:+ bytes) :
    ink suffix ≤ ink bytes :=
  ends.sublist.countP_le

theorem verbatim_append {first second : Text} (verbatimFirst : Verbatim first)
    (verbatimSecond : Verbatim second) : Verbatim (first ++ second) := by
  intro byte member
  rcases List.mem_append.mp member with front | back
  · exact verbatimFirst byte front
  · exact verbatimSecond byte back

theorem toll_le_one (content : Text) : toll content ≤ 1 := by
  unfold toll
  split <;> omega

/-- Two texts pay no more together than apart. -/
theorem toll_append_le (first second : Text) :
    toll (first ++ second) ≤ toll first + toll second := by
  by_cases verbatimFirst : Verbatim first
  · by_cases verbatimSecond : Verbatim second
    · simp [toll, verbatim_append verbatimFirst verbatimSecond]
    · have bound := toll_le_one (first ++ second)
      simp only [toll, verbatimSecond, ↓reduceIte] at bound ⊢
      omega
  · have bound := toll_le_one (first ++ second)
    simp only [toll, verbatimFirst, ↓reduceIte] at bound ⊢
    omega

/-- The characters of a text pay for its toll. -/
theorem ink_flatten_add_toll_le (characters : List Text) :
    ink characters.flatten + toll characters.flatten ≤
      (characters.map fun character => ink character + toll character).sum := by
  induction characters with
  | nil => decide
  | cons character rest ih =>
      have bound := toll_append_le character rest.flatten
      rw [List.flatten_cons, ink_append, List.map_cons, List.sum_cons]
      omega

end Ink

section Spending

/-- No hexadecimal digit is a space. -/
theorem ne_space_of_hexValue {digit : UInt8} {value : ℕ} (read : hexValue digit = some value) :
    digit ≠ 32 := by
  rintro rfl
  simp [hexValue] at read

/-- Hexadecimal digits take their ink. -/
theorem spends_readHex (digits value : ℕ) : Spends ink (readHex digits value) fun _ => digits := by
  induction digits generalizing value with
  | zero =>
      intro input found rest read
      obtain ⟨rfl, rfl⟩ := Prod.mk.inj (Option.some.inj read)
      simp
  | succ digits ih =>
      intro input found rest read
      cases input with
      | nil => simp [readHex] at read
      | cons first after =>
          cases known : hexValue first with
          | none => simp [readHex, known] at read
          | some digit =>
              simp only [readHex, known] at read
              have spent := ih _ _ _ _ read
              rw [ink_cons first after (ne_space_of_hexValue known)]
              simp only at spent ⊢
              omega

theorem spends_readUnit : Spends ink readUnit fun _ => 4 := spends_readHex 4 0

/-- A character takes at most four bytes of ink. -/
theorem ink_utf8_le (scalar : ℕ) : ink (utf8 scalar) ≤ 4 := by
  have bound := ink_le_length (utf8 scalar)
  have size := Char.utf8Size_le_four (Char.ofNat scalar)
  rw [utf8, String.length_utf8EncodeChar] at bound
  exact bound.trans size

/-- An escape takes at least the ink of its character. -/
theorem spends_readScalar : Spends ink readScalar ink := by
  intro input value rest read
  unfold readScalar at read
  split at read
  · simp at read
  · next unit afterUnit unitRead =>
      have spent := spends_readUnit _ _ _ unitRead
      split at read
      · obtain ⟨rfl, rfl⟩ := Prod.mk.inj (Option.some.inj read)
        have bound := ink_utf8_le unit
        simp only at spent
        omega
      · split at read
        · simp at read
        · split at read
          · simp at read
          · next afterMark markRead =>
              have paid := charges_exactly [backslash, 117] (ink_append _) _ _ markRead
              split at read
              · simp at read
              · next low afterLow lowRead =>
                  have lowSpent := spends_readUnit _ _ _ lowRead
                  split at read
                  · obtain ⟨rfl, rfl⟩ := Prod.mk.inj (Option.some.inj read)
                    have bound := ink_utf8_le (0x10000 + (unit - 0xD800) * 0x400 + (low - 0xDC00))
                    simp only at spent lowSpent
                    omega
                  · simp at read

/-- Every escape costs more than what it stands for. -/
theorem spends_readCharacter :
    Spends ink readCharacter fun character => ink character + toll character := by
  intro input character rest read
  unfold readCharacter at read
  split at read
  · simp at read
  · next byte after =>
      split at read
      · next opens =>
          subst opens
          split at read
          · simp at read
          · next letter afterLetter =>
              have bound := toll_le_one character
              rw [ink_cons backslash _ (by decide)]
              split at read
              · next isUnicode =>
                  subst isUnicode
                  have spent := spends_readScalar _ _ _ read
                  rw [ink_cons 117 _ (by decide)]
                  simp only
                  omega
              · obtain ⟨escaped, found, same⟩ := Option.map_eq_some_iff.mp read
                obtain ⟨rfl, rfl⟩ := Prod.mk.inj same
                have shown : letter ≠ 32 := by
                  rintro rfl
                  simp [letterEscape, doubleQuote, backslash] at found
                have single := ink_le_length [escaped]
                rw [ink_cons letter _ shown]
                simp only [List.length_singleton] at single ⊢
                omega
      · next noEscape =>
          split at read
          · simp at read
          · next plain =>
              obtain ⟨rfl, rfl⟩ := Prod.mk.inj (Option.some.inj read)
              have verbatim : Verbatim [byte] := by
                intro other member
                obtain rfl := List.mem_singleton.mp member
                rw [not_or, UInt8.not_lt] at plain
                exact ⟨plain.1, noEscape, plain.2⟩
              have split := ink_append [byte] after
              rw [List.singleton_append] at split
              simp only [toll, verbatim, ↓reduceIte]
              omega

theorem charges_stringMark : Charges ink stringMark 1 :=
  charges_exactly [doubleQuote] (ink_append _)

theorem charges_jsonToken (mark : UInt8) (shown : mark ≠ 32) :
    Charges ink (token isJsonBlank mark) 1 :=
  charges_token isJsonBlank mark 1 ink_le_of_suffix fun rest => ink_cons mark rest shown

/-- A string takes the ink of its quotes, its content and its toll. -/
theorem spends_readJsonString :
    Spends ink readJsonString fun content => 2 + ink content + toll content := by
  intro input content rest read
  unfold readJsonString at read
  split at read
  · simp at read
  · next after opened =>
      obtain ⟨⟨characters, tail⟩, found, same⟩ := Option.map_eq_some_iff.mp read
      obtain ⟨rfl, rfl⟩ := Prod.mk.inj same
      have paid := charges_stringMark _ _ opened
      have spent := spends_upTo spends_readCharacter charges_stringMark _ _ _ _ found
      have bound := ink_flatten_add_toll_le characters
      simp only at spent ⊢
      omega

/-- What reading the members of an object costs. -/
def objectCost (members : List (Text × Text)) : ℕ :=
  2 + (members.map fun member =>
    5 + (ink member.1 + ink member.2) + (toll member.1 + toll member.2)).sum + (members.length - 1)

/-- An object that is read was written with enough ink. -/
theorem objectCost_le_ink {input : Text} {members : List (Text × Text)}
    (read : readJsonObject input = some members) : objectCost members ≤ ink input := by
  unfold readJsonObject at read
  split at read
  · next found braces =>
      obtain rfl := Option.some.inj read
      have pairs := spends_paired spends_readJsonString (charges_jsonToken 58 (by decide))
        spends_readJsonString
      have inside : Spends ink readMembers _ :=
        spends_listed pairs (charges_jsonToken 44 (by decide))
      have spent := spends_bracketed_charges (charges_jsonToken 123 (by decide)) inside
        (charges_jsonToken 125 (by decide)) _ _ _ braces
      have same : (found.map fun member =>
          5 + (ink member.1 + ink member.2) + (toll member.1 + toll member.2)) =
          found.map fun member => 2 + ink member.1 + toll member.1 + 1 +
            (2 + ink member.2 + toll member.2) := by
        apply List.map_congr_left
        intro member _
        omega
      simp only [objectCost, same] at spent ⊢
      omega
  · simp at read

end Spending

section Writing

/-- The ink of a text in double quotes. -/
theorem ink_wrap (content : Text) : ink (wrap content (text "\"")) = 2 + ink content := by
  simp only [wrap, ink_append, show ink (text "\"") = 1 from rfl]
  omega

/-- The ink of the entries and of the separators between them. -/
theorem ink_writeEntries (atBegin : Bool) (entries : List (Σ _ : Text, Text)) :
    ink (writeEntries (text "\"") atBegin entries) =
      (entries.map fun entry => 5 + (ink entry.1 + ink entry.2)).sum +
        (entries.length - if atBegin then 1 else 0) := by
  induction entries generalizing atBegin with
  | nil => simp [writeEntries, ink]
  | cons entry rest ih =>
      have entryInk : ink (writeEntry (text "\"") entry) = 5 + (ink entry.1 + ink entry.2) := by
        simp only [writeEntry, ink_append, ink_wrap, show ink (text ":") = 1 from rfl]
        omega
      have comma : ink (text ", ") = 1 := rfl
      have none : ink [] = 0 := rfl
      rw [writeEntries, ink_append, ink_append, entryInk, ih false]
      cases atBegin <;> simp [comma, none] <;> omega

/-- The ink that the writer spends on an object. -/
theorem ink_attributeText (map : Attributes) : ink (attributeText map) =
    2 + (map.pairs.map fun entry => 5 + (ink entry.1 + ink entry.2)).sum +
      (map.pairs.length - 1) := by
  rw [attributeText_eq, ink_cons 123 _ (by decide), ink_append, ink_writeEntries,
    show ink [125] = 1 from rfl, Attributes.pairs, List.map_map, List.length_map]
  simp only [↓reduceIte, Function.comp_def]
  omega

/-- A string that stands for itself is read back from between quotes. -/
theorem takesBack_readJsonString (content : Text) (verbatim : Verbatim content) :
    TakesBack readJsonString doubleQuote content := by
  intro tail _
  have opens : stringMark (wrap content [doubleQuote] ++ tail) =
      some (content ++ doubleQuote :: tail) := by
    simpa [wrap, stringMark] using exactly_append [doubleQuote] (content ++ doubleQuote :: tail)
  have reads : ∀ character ∈ content.map (fun byte => [byte]), ∀ after,
      stringMark (id character ++ after) = none ∧
        readCharacter (id character ++ after) = some (character, after) := by
    intro character member after
    obtain ⟨byte, inside, rfl⟩ := List.mem_map.mp member
    obtain ⟨noQuote, noEscape, printable⟩ := verbatim byte inside
    constructor
    · exact exactly_of_head_ne doubleQuote byte noQuote.symm [] after
    · simp [readCharacter, noQuote, noEscape, UInt8.not_lt.mpr printable]
  have closes : stringMark (doubleQuote :: tail) = some tail := exactly_append [doubleQuote] tail
  have enough : (content.map fun byte => [byte]).length <
      (content ++ doubleQuote :: tail).length + 1 := by
    simp only [List.length_map, List.length_append, List.length_cons]
    omega
  have found := upTo_written readCharacter stringMark id (content.map fun byte => [byte]) reads
    closes _ enough
  have back : (content.map fun byte => [byte]).flatten = content := by
    rw [← List.flatMap_def]
    exact List.flatMap_singleton' content
  rw [List.flatMap_id, back] at found
  simp only [readJsonString, opens, found, Option.map_some, back]

/-- A map of strings that stand for themselves is read back in its order. -/
theorem readJsonObject_attributeText (map : Attributes)
    (verbatim : ∀ entry ∈ map.pairs, Verbatim entry.1 ∧ Verbatim entry.2) :
    readJsonObject (attributeText map) = some map.pairs := by
  have marks : EntryMarks isJsonBlank doubleQuote :=
    ⟨by decide, by simp [isJsonBlank, doubleQuote], by simp [doubleQuote]⟩
  have inside := listed_writeEntries marks map.entries [] fun entry member =>
    have clean := verbatim (entry.1, entry.2) (List.mem_map.mpr ⟨entry, member, rfl⟩)
    ⟨takesBack_readJsonString _ clean.1, takesBack_readJsonString _ clean.2⟩
  have shown : (writeEntries (text "\"") true map.entries ++ [125]).dropWhile isJsonBlank =
      writeEntries (text "\"") true map.entries ++ [125] := by
    cases map.entries with
    | nil => rfl
    | cons entry rest => rfl
  have braces : bracketed (token isJsonBlank 123) readMembers (token isJsonBlank 125)
      (attributeText map) = some (map.pairs, []) := by
    rw [attributeText_eq]
    exact bracketed_written _ _ _ (token_cons isJsonBlank 123 (by decide) _ shown) inside
      (token_cons isJsonBlank 125 (by decide) [] rfl)
  rw [readJsonObject, braces]

end Writing

/-- The text of a map is a JSON object with exactly its pairs. -/
def CarriesAttributes (map : Attributes) : Prop :=
  ∃ members, readJsonObject (attributeText map) = some members ∧ members.Perm map.pairs

/-- An object with the pairs of the map leaves no ink for an escape. -/
theorem verbatim_of_carriesAttributes {map : Attributes} (carries : CarriesAttributes map) :
    ∀ entry ∈ map.pairs, Verbatim entry.1 ∧ Verbatim entry.2 := by
  obtain ⟨members, read, same⟩ := carries
  have cost := objectCost_le_ink read
  rw [objectCost, (same.map _).sum_eq, same.length_eq, List.sum_map_add, ink_attributeText] at cost
  have noToll : (map.pairs.map fun entry => toll entry.1 + toll entry.2).sum = 0 := by omega
  intro entry member
  have none := List.sum_eq_zero_iff.mp noToll _ (List.mem_map.mpr ⟨entry, member, rfl⟩)
  have free (content : Text) (paid : toll content = 0) : Verbatim content := by
    by_contra escaped
    simp [toll, escaped] at paid
  exact ⟨free _ (Nat.add_eq_zero_iff.mp none).1, free _ (Nat.add_eq_zero_iff.mp none).2⟩

/-- **Attributes as JSON.** The column carries a map exactly when no key and no value
contains a quote, a backslash or a control character. -/
theorem carriesAttributes_iff (map : Attributes) :
    CarriesAttributes map ↔ ∀ entry ∈ map.pairs, Verbatim entry.1 ∧ Verbatim entry.2 := by
  constructor
  · exact verbatim_of_carriesAttributes
  · intro verbatim
    exact ⟨_, readJsonObject_attributeText map verbatim, .refl _⟩

/-- One quote in a value ends its string early. -/
theorem not_carriesAttributes_quote : ¬ ∀ map : Attributes, CarriesAttributes map := by
  intro always
  obtain ⟨members, read, -⟩ := always (AList.singleton (text "size") (text "27\""))
  have stuck : readJsonObject (attributeText (AList.singleton (text "size") (text "27\""))) =
      none := by
    decide +kernel
  rw [stuck] at read
  cases read

end Evenscribe.Sql
