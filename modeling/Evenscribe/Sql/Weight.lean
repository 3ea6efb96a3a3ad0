import Evenscribe.Sql.Written

/-!
# Special bytes of a statement

However a server reads a statement, the values it finds cost at most the special
bytes of the text (`weight_readInsert`), while a generator pays for each special
byte of a record only once (`Log.weight`). A statement read as the records it was
written from therefore carries none.
-/

namespace Evenscribe

/-- No byte that is special in either dialect. -/
def Harmless (bytes : Text) : Prop := ∀ byte ∈ bytes, byte ≠ quote ∧ byte ≠ backslash

instance (bytes : Text) : Decidable (Harmless bytes) :=
  List.decidableBAll (fun byte => byte ≠ quote ∧ byte ≠ backslash) bytes

theorem harmless_decimal (number : ℕ) : Harmless (decimal number) := by
  intro byte member
  have digit := isDigit_of_mem_decimal member
  constructor <;> rintro rfl <;> exact absurd digit (by decide)

/-- An integer is harmless. -/
theorem harmless_stdToString (number : ℤ) : Harmless (stdToString number) := by
  cases number with
  | ofNat number => exact harmless_decimal number
  | negSucc number =>
      intro byte member
      rcases List.mem_append.mp member with minus | digit
      · exact (by decide : Harmless (text "-")) byte minus
      · exact harmless_decimal (number + 1) byte digit

namespace Sql

open Reading

variable (rules : Quoting.Rules UInt8)

/-- The special bytes are the quote and, in some dialects, the backslash. -/
def Within : Prop := ∀ byte, rules.Special byte → byte = quote ∨ byte = backslash

variable {rules}

/-- What is harmless weighs nothing. -/
theorem weight_harmless (within : Within rules) {bytes : Text} (harmless : Harmless bytes) :
    rules.weight bytes = 0 := by
  apply (rules.weight_eq_zero_iff bytes).mpr
  intro byte member special
  rcases within byte special with isQuote | isBackslash
  · exact (harmless byte member).1 isQuote
  · exact (harmless byte member).2 isBackslash

section Reading

variable (rules)

/-- The special bytes a text must have for a value to be found in it. -/
def cost : Value → ℕ
  | .string content => 2 + 2 * rules.weight content
  | .integer _ => 0
  | .timestamp _ => 0
  | .map entries => (entries.map fun entry =>
      4 + 2 * (rules.weight entry.1 + rules.weight entry.2)).sum

theorem keeps_punctuation (byte : UInt8) : Keeps rules.weight (punctuation byte) :=
  keeps_token isBlank byte fun _ _ => rules.weight_le_of_suffix

theorem spends_readNatural : Spends rules.weight readNatural fun _ => 0 := by
  intro input value rest read
  unfold readNatural at read
  split at read
  · simp at read
  · obtain ⟨rfl, rfl⟩ := Prod.mk.inj (Option.some.inj read)
    simpa using rules.weight_le_of_suffix (List.dropWhile_suffix isDigit)

theorem spends_readInteger : Spends rules.weight readInteger fun _ => 0 := by
  intro input value rest read
  unfold readInteger at read
  split at read
  · next after minus =>
      obtain ⟨⟨number, tail⟩, natural, same⟩ := Option.map_eq_some_iff.mp read
      obtain ⟨rfl, rfl⟩ := Prod.mk.inj same
      have kept := keeps_exactly _ (fun _ _ => rules.weight_le_of_suffix) _ _ minus
      have spent := spends_readNatural rules _ _ _ natural
      simp only at spent ⊢
      omega
  · obtain ⟨⟨number, tail⟩, natural, same⟩ := Option.map_eq_some_iff.mp read
    obtain ⟨rfl, rfl⟩ := Prod.mk.inj same
    exact spends_readNatural rules _ _ _ natural

/-- A value of PostgreSQL takes the weight of its literal. -/
theorem spends_readPostgresValue :
    Spends postgresRules.weight readPostgresValue (cost postgresRules) := by
  intro input value rest read
  unfold readPostgresValue at read
  split at read
  · obtain ⟨⟨content, tail⟩, literal, same⟩ := Option.map_eq_some_iff.mp read
    obtain ⟨rfl, rfl⟩ := Prod.mk.inj same
    exact postgresRules.weight_readLiteral literal
  · split at read
    · next after keyword =>
        obtain ⟨⟨number, tail⟩, call, same⟩ := Option.map_eq_some_iff.mp read
        obtain ⟨rfl, rfl⟩ := Prod.mk.inj same
        have kept := keeps_exactly _ (fun _ _ => postgresRules.weight_le_of_suffix) _ _ keyword
        have spent := spends_bracketed (keeps_punctuation postgresRules 40)
          (spends_readInteger postgresRules) (keeps_punctuation postgresRules 41) _ _ _ call
        simp only [cost] at spent ⊢
        omega
    · obtain ⟨⟨number, tail⟩, integer, same⟩ := Option.map_eq_some_iff.mp read
      obtain ⟨rfl, rfl⟩ := Prod.mk.inj same
      exact spends_readInteger postgresRules _ _ _ integer

/-- A pair takes the weight of its two literals. -/
theorem spends_readPair : Spends rules.weight (readPair rules)
    fun entry => 4 + 2 * (rules.weight entry.1 + rules.weight entry.2) := by
  have literal :
      Spends rules.weight rules.readLiteral fun content => 2 + 2 * rules.weight content :=
    fun _ _ _ read => rules.weight_readLiteral read
  intro input entry rest read
  have spent := spends_paired literal (keeps_punctuation rules 58).charges literal _ _ _
    (readPair_eq_paired rules ▸ read)
  simp only at spent ⊢
  omega

/-- A map takes the weight of its pairs. -/
theorem spends_readPairs : Spends rules.weight (readPairs rules) fun entries =>
    (entries.map fun entry => 4 + 2 * (rules.weight entry.1 + rules.weight entry.2)).sum := by
  intro input entries rest read
  have spent := spends_listed (spends_readPair rules) (keeps_punctuation rules 44).charges _ _ _
    (readPairs_eq_listed rules ▸ read)
  simpa using spent

/-- A value of ClickHouse takes the weight of its literals. -/
theorem spends_readClickhouseValue :
    Spends rules.weight (readClickhouseValue rules) (cost rules) := by
  intro input value rest read
  unfold readClickhouseValue at read
  split at read
  · obtain ⟨⟨content, tail⟩, literal, same⟩ := Option.map_eq_some_iff.mp read
    obtain ⟨rfl, rfl⟩ := Prod.mk.inj same
    exact rules.weight_readLiteral literal
  · split at read
    · next entries after braces =>
        obtain ⟨rfl, rfl⟩ := Prod.mk.inj (Option.some.inj read)
        exact spends_bracketed (keeps_punctuation rules 123) (spends_readPairs rules)
          (keeps_punctuation rules 125) _ _ _ braces
    · obtain ⟨⟨number, tail⟩, integer, same⟩ := Option.map_eq_some_iff.mp read
      obtain ⟨rfl, rfl⟩ := Prod.mk.inj same
      exact spends_readInteger rules _ _ _ integer

/-- The values of a statement cost no more special bytes than it has. -/
theorem weight_readInsert {value : Reader UInt8 Value}
    (spends : Spends rules.weight value (cost rules)) {input : Text} {tuples : List (List Value)}
    (read : readInsert value input = some tuples) :
    (tuples.map fun tuple => (tuple.map (cost rules)).sum).sum ≤ rules.weight input := by
  unfold readInsert at read
  split at read
  · simp at read
  · next afterHeader header =>
      split at read
      · simp at read
      · next found afterTuples tuplesRead =>
          split at read
          · obtain rfl := Option.some.inj read
            have tuple : Spends rules.weight (readTuple value)
                fun values => (values.map (cost rules)).sum := by
              intro text values rest bracketedRead
              exact spends_bracketed (keeps_punctuation rules 40)
                (spends_separated spends (keeps_punctuation rules 44) _)
                (keeps_punctuation rules 41) _ _ _ bracketedRead
            have kept := keeps_exactly _ (fun _ _ => rules.weight_le_of_suffix) _ _ header
            have spent := spends_separated tuple (keeps_punctuation rules 44) _ _ _ _ tuplesRead
            simp only at spent
            omega
          · simp at read

end Reading

section Writing

/-- A wrapped text weighs itself and the two wrappers. -/
theorem weight_wrap (content wrapper : Text) :
    rules.weight (wrap content wrapper) = rules.weight content + 2 * rules.weight wrapper := by
  simp only [wrap, Quoting.Rules.weight_append]
  omega

variable (within : Within rules)
include within

theorem weight_commaSeparate (values : List Text) :
    rules.weight (commaSeparate values) = (values.map rules.weight).sum := by
  induction values with
  | nil => rfl
  | cons first rest ih =>
      cases rest with
      | nil => simp [commaSeparate]
      | cons second rest =>
          rw [commaSeparate_cons_cons]
          simp only [Quoting.Rules.weight_append, ih,
            weight_harmless within (by decide : Harmless (text ",")), List.map_cons, List.sum_cons,
            Nat.add_zero]

theorem weight_bracketValues (values : Text) :
    rules.weight (bracketValues values) = rules.weight values := by
  simp only [bracketValues, between, Quoting.Rules.weight_append,
    weight_harmless within (by decide : Harmless (text "(")),
    weight_harmless within (by decide : Harmless (text ")"))]
  omega

/-- A statement weighs what its tuples do. -/
theorem weight_insertQuery (bucket : List Text) :
    rules.weight (insertQuery bucket) = (bucket.map rules.weight).sum := by
  have header : Harmless (between (text "INSERT INTO ") tableName (text " VALUES ")) := by decide
  simp only [insertQuery, Quoting.Rules.weight_append, weight_commaSeparate within,
    weight_harmless within header, weight_harmless within (by decide : Harmless (text ";"))]
  omega

/-- The loop over an attribute map pays for four wrappers an entry. -/
theorem weight_writeEntries (wrapper : Text) (atBegin : Bool) (entries : List (Σ _ : Text, Text)) :
    rules.weight (writeEntries wrapper atBegin entries) = (entries.map fun entry =>
      4 * rules.weight wrapper + (rules.weight entry.1 + rules.weight entry.2)).sum := by
  induction entries generalizing atBegin with
  | nil => rfl
  | cons entry rest ih =>
      have separator : rules.weight (if atBegin then [] else text ", ") = 0 := by
        cases atBegin
        · exact weight_harmless within (by decide)
        · rfl
      simp only [writeEntries, writeEntry, Quoting.Rules.weight_append, separator, weight_wrap, ih,
        weight_harmless within (by decide : Harmless (text ":")), List.map_cons, List.sum_cons]
      omega

end Writing

end Sql

namespace Attributes

variable (rules : Quoting.Rules UInt8)

/-- The special bytes of a map's keys and values. -/
def weight (map : Attributes) : ℕ :=
  (map.pairs.map fun entry => rules.weight entry.1 + rules.weight entry.2).sum

end Attributes

namespace Log

variable (rules : Quoting.Rules UInt8)

/-- The special bytes of a record. -/
def weight (log : Log) : ℕ :=
  (log.strings.map rules.weight).sum +
    (log.resourceAttributes.weight rules + log.logAttributes.weight rules)

/-- No string of the record has a special byte: not a scalar, not a key, not a
value of an attribute. -/
def Plain (log : Log) : Prop :=
  (∀ content ∈ log.strings, rules.Plain content) ∧
    ∀ entry ∈ log.resourceAttributes.pairs ++ log.logAttributes.pairs,
      rules.Plain entry.1 ∧ rules.Plain entry.2

instance (log : Log) : Decidable (log.Plain rules) :=
  inferInstanceAs (Decidable (_ ∧ _))

/-- A record without weight is plain. -/
theorem weight_eq_zero_iff (log : Log) : log.weight rules = 0 ↔ log.Plain rules := by
  simp only [weight, Attributes.weight, Plain, Nat.add_eq_zero_iff, List.sum_eq_zero_iff,
    List.forall_mem_map, Quoting.Rules.weight_eq_zero_iff, List.forall_mem_append]

/-- Records whose reading costs each special byte twice, out of a text that pays
for it once, have none. -/
theorem plain_of_cost_le (fixed : Log → ℕ) (logs : List Log)
    (bound : (logs.map fun log => fixed log + 2 * log.weight rules).sum ≤
      (logs.map fun log => fixed log + log.weight rules).sum) :
    ∀ log ∈ logs, log.Plain rules := by
  have split : (logs.map fun log => fixed log + 2 * log.weight rules).sum =
      (logs.map fun log => fixed log + log.weight rules).sum +
        (logs.map fun log => log.weight rules).sum := by
    rw [← List.sum_map_add]
    congr 1
    apply List.map_congr_left
    intro log _
    omega
  have none : (logs.map fun log => log.weight rules).sum = 0 := by omega
  intro log member
  exact (log.weight_eq_zero_iff rules).mp
    (List.sum_eq_zero_iff.mp none _ (List.mem_map.mpr ⟨log, member, rfl⟩))

end Log

end Evenscribe
