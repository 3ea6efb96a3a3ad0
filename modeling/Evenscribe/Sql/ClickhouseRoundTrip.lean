import Evenscribe.Sql.Weight
import Evenscribe.QueryGenerator.Clickhouse

/-!
# ClickHouse statements read back

Scalars and the keys and values of map literals are put between quotes as they
are. A batch is read back as its records exactly when no string of any of them
contains a quote or a backslash (`clickhouseRoundTrip_iff`), whatever the server
takes the other escapes for.
-/

namespace Evenscribe.Sql

open Reading ClickhouseQueryGenerator

/-- The columns of a record with the text written for each. -/
def clickhouseColumns (log : Log) : List (Text × Value) := [
  (stdToString log.timestamp.toNat, .integer log.timestamp.toNat),
  (wrap log.traceId (text "'"), .string log.traceId),
  (wrap log.spanId (text "'"), .string log.spanId),
  (stdToString log.traceFlags.toNat, .integer log.traceFlags.toNat),
  (wrap log.severityText (text "'"), .string log.severityText),
  (stdToString log.severityNumber.toInt, .integer log.severityNumber.toInt),
  (wrap log.serviceName (text "'"), .string log.serviceName),
  (wrap log.body (text "'"), .string log.body),
  (unorderedMapToString log.resourceAttributes, .map log.resourceAttributes.pairs),
  (unorderedMapToString log.logAttributes, .map log.logAttributes.pairs)]

/-- Two values of a column agree; a map literal stands for its pairs in any order. -/
inductive SameValue : Value → Value → Prop where
  | string (content : Text) : SameValue (.string content) (.string content)
  | integer (number : ℤ) : SameValue (.integer number) (.integer number)
  | map {found expected : List (Text × Text)} (pairs : found.Perm expected) :
      SameValue (.map found) (.map expected)

/-- A tuple that holds the ten values of a record. -/
def ClickhouseRow (tuple : List Value) (log : Log) : Prop :=
  List.Forall₂ SameValue tuple ((clickhouseColumns log).map Prod.snd)

/-- ClickHouse reads the batch statement as one insert of exactly these records. -/
def ClickhouseRoundTrip (rules : Quoting.Rules UInt8) (logs : List Log) : Prop :=
  ∃ tuples, readInsert (readClickhouseValue rules) (createQuery (logs.map createSubquery)) =
    some tuples ∧ List.Forall₂ ClickhouseRow tuples logs

section Written

variable {rules : Quoting.Rules UInt8}

theorem reads_clickhouse_integer (number : ℤ) :
    Reads (readClickhouseValue rules) (stdToString number) (.integer number) := by
  refine reads_stdToString number fun first rest starts shown => ?_
  have noQuote : first ≠ quote := ne_of_starts_number starts (by decide) (by decide)
  have noBrace : first ≠ 123 := ne_of_starts_number starts (by decide) (by decide)
  have braces : bracketed openBrace (readPairs rules) closeBrace (first :: rest) = none := by
    have notOpen : openBrace (first :: rest) = none := by
      simp [openBrace, punctuation, token, shown, noBrace]
    simp only [bracketed, notOpen]
  simp only [readClickhouseValue, List.head?_cons, Option.some.injEq, noQuote, ↓reduceIte, braces]

variable (single : rules.quote = quote)
include single

/-- A literal is written as the rules enclose it. -/
theorem enclose_eq_wrap (content : Text) : rules.enclose content = wrap content (text "'") := by
  simp [wrap, Quoting.Rules.enclose, single, show text "'" = [quote] from rfl]

/-- A plain literal is read back. -/
theorem readLiteral_wrap (content tail : Text) (plain : rules.Plain content)
    (stops : tail.head? ≠ some quote) :
    rules.readLiteral (wrap content (text "'") ++ tail) = some (content, tail) := by
  rw [← enclose_eq_wrap single]
  exact rules.readLiteral_enclose content tail plain (single ▸ stops)

theorem reads_clickhouse_string (content : Text) (plain : rules.Plain content) :
    Reads (readClickhouseValue rules) (wrap content (text "'")) (.string content) := by
  refine ⟨visible_cons quote _ (by decide), ?_⟩
  intro tail stops
  have read := readLiteral_wrap single content tail plain fun front => (stops _ front).2.1 rfl
  have front : (wrap content (text "'") ++ tail).head? = some quote := rfl
  simp only [readClickhouseValue, front, ↓reduceIte, read, Option.map_some]

/-- The entries between the braces of a map literal, none or more. -/
theorem readPairs_written (entries : List (Σ _ : Text, Text)) (tail : Text)
    (plain : ∀ entry ∈ entries, rules.Plain entry.1 ∧ rules.Plain entry.2) :
    readPairs rules (writeEntries (text "'") true entries ++ 125 :: tail) =
      some (entries.map (fun entry => (entry.1, entry.2)), 125 :: tail) := by
  have marks : EntryMarks isBlank quote :=
    ⟨by decide, by simp [isBlank, quote], by simp [quote]⟩
  have takes (content : Text) (ordinary : rules.Plain content) :
      TakesBack rules.readLiteral quote content :=
    fun after stops => readLiteral_wrap single content after ordinary stops
  rw [readPairs_eq_listed, readPair_eq_paired]
  exact listed_writeEntries marks entries tail fun entry member =>
    ⟨takes _ (plain entry member).1, takes _ (plain entry member).2⟩

/-- A map of plain strings is read back. -/
theorem reads_clickhouse_map (map : Attributes)
    (plain : ∀ entry ∈ map.pairs, rules.Plain entry.1 ∧ rules.Plain entry.2) :
    Reads (readClickhouseValue rules) (unorderedMapToString map) (.map map.pairs) := by
  refine ⟨visible_cons 123 _ (by decide), ?_⟩
  intro tail stops
  have inside := readPairs_written single map.entries tail (by
    simpa only [Attributes.pairs, List.forall_mem_map] using plain)
  have shape : unorderedMapToString map ++ tail =
      123 :: (writeEntries (text "'") true map.entries ++ 125 :: tail) := by
    simp [unorderedMapToString, show text "\x7b" = [123] from rfl,
      show text "\x7d" = [125] from rfl]
  have shown : (writeEntries (text "'") true map.entries ++ 125 :: tail).dropWhile isBlank =
      writeEntries (text "'") true map.entries ++ 125 :: tail := by
    cases map.entries with
    | nil => exact (visible_cons 125 tail (by decide)).1
    | cons entry rest =>
        exact Visible.append (visible_cons quote _ (by decide)) _
  have braces : bracketed openBrace (readPairs rules) closeBrace
      (123 :: (writeEntries (text "'") true map.entries ++ 125 :: tail)) =
        some (map.pairs, tail) :=
    bracketed_written _ _ _ (token_cons isBlank 123 (by decide) _ shown) inside
      (token_cons isBlank 125 (by decide) tail stops.shown)
  have front : (123 : UInt8) ≠ quote := by decide
  simp only [shape, readClickhouseValue, List.head?_cons, Option.some.injEq, front, ↓reduceIte,
    braces]

/-- Every column of a record without special bytes is written so that it is read
back. -/
theorem reads_clickhouseColumns (log : Log) (plain : log.Plain rules) :
    ∀ column ∈ clickhouseColumns log, Reads (readClickhouseValue rules) column.1 column.2 := by
  obtain ⟨strings, attributes⟩ := plain
  simp only [Log.strings, List.forall_mem_cons, List.forall_mem_append] at strings attributes
  obtain ⟨traceId, spanId, severityText, serviceName, body, -⟩ := strings
  simp only [clickhouseColumns, List.forall_mem_cons]
  exact ⟨reads_clickhouse_integer _, reads_clickhouse_string single _ traceId,
    reads_clickhouse_string single _ spanId, reads_clickhouse_integer _,
    reads_clickhouse_string single _ severityText, reads_clickhouse_integer _,
    reads_clickhouse_string single _ serviceName, reads_clickhouse_string single _ body,
    reads_clickhouse_map single _ attributes.1, reads_clickhouse_map single _ attributes.2,
    List.forall_mem_nil _⟩

end Written

section Weighed

variable {rules : Quoting.Rules UInt8} (within : Within rules) (single : rules.quote = quote)

include single in
theorem weight_quote : rules.weight (text "'") = 1 := by
  have special : rules.Special quote := single ▸ rules.special_quote
  rw [show text "'" = [quote] from rfl, Quoting.Rules.weight_cons]
  simp only [special, ↓reduceIte, Quoting.Rules.weight_nil]

/-- The delimiters of five scalars, and of two literals for each attribute. -/
def delimiters (log : Log) : ℕ :=
  10 + 4 * (log.resourceAttributes.pairs.length + log.logAttributes.pairs.length)

include within single

/-- A map weighs its quotes and its strings. -/
theorem weight_clickhouse_map (map : Attributes) :
    rules.weight (unorderedMapToString map) = 4 * map.pairs.length + map.weight rules := by
  have entries : rules.weight (writeEntries (text "'") true map.entries) =
      4 * map.pairs.length + map.weight rules := by
    rw [weight_writeEntries within, weight_quote single, Attributes.weight, Attributes.pairs,
      List.length_map, List.map_map]
    induction map.entries with
    | nil => rfl
    | cons entry rest ih =>
        simp only [List.map_cons, List.sum_cons, List.length_cons, ih, Function.comp_apply]
        omega
  simp only [unorderedMapToString, Quoting.Rules.weight_append, entries,
    weight_harmless within (by decide : Harmless (text "\x7b")),
    weight_harmless within (by decide : Harmless (text "\x7d")), Nat.zero_add, Nat.add_zero]

/-- A tuple weighs its delimiters and its strings. -/
theorem weight_clickhouse_createSubquery (log : Log) :
    rules.weight (createSubquery log) = delimiters log + log.weight rules := by
  simp only [createSubquery, getValues, weight_bracketValues within, weight_commaSeparate within,
    List.map_cons, List.map_nil, List.sum_cons, List.sum_nil,
    weight_harmless within (harmless_stdToString _), weight_clickhouse_map within single,
    weight_wrap, weight_quote single, delimiters, Log.weight, Log.strings]
  omega

end Weighed

/-- Values that agree cost the same. -/
theorem cost_sameValue (rules : Quoting.Rules UInt8) {found expected : Value}
    (same : SameValue found expected) : cost rules found = cost rules expected := by
  cases same with
  | string content => rfl
  | integer number => rfl
  | map pairs => exact (pairs.map _).sum_eq

/-- A map costs its quotes, and its strings twice. -/
theorem cost_map_pairs (rules : Quoting.Rules UInt8) (map : Attributes) :
    cost rules (.map map.pairs) = 4 * map.pairs.length + 2 * map.weight rules := by
  rw [cost, Attributes.weight]
  induction map.pairs with
  | nil => rfl
  | cons entry rest ih =>
      simp only [List.map_cons, List.sum_cons, List.length_cons, ih]
      omega

theorem map_cost_sameValue (rules : Quoting.Rules UInt8) {found expected : List Value}
    (same : List.Forall₂ SameValue found expected) :
    found.map (cost rules) = expected.map (cost rules) := by
  induction same with
  | nil => rfl
  | cons head _ ih => rw [List.map_cons, List.map_cons, cost_sameValue rules head, ih]

/-- The row of a record costs its delimiters, and its strings twice. -/
theorem cost_clickhouseRow (rules : Quoting.Rules UInt8) {tuple : List Value} {log : Log}
    (row : ClickhouseRow tuple log) :
    (tuple.map (cost rules)).sum = delimiters log + 2 * log.weight rules := by
  rw [map_cost_sameValue rules row]
  simp only [clickhouseColumns, List.map_cons, List.map_nil, List.sum_cons, List.sum_nil,
    cost_map_pairs]
  simp only [cost, delimiters, Log.weight, Log.strings, List.map_cons, List.map_nil,
    List.sum_cons, List.sum_nil]
  omega

/-- The rows of records cost what they cost one by one. -/
theorem map_cost_clickhouseRow (rules : Quoting.Rules UInt8) {tuples : List (List Value)}
    {logs : List Log} (rows : List.Forall₂ ClickhouseRow tuples logs) :
    (tuples.map fun tuple => (tuple.map (cost rules)).sum) =
      logs.map fun log => delimiters log + 2 * log.weight rules := by
  induction rows with
  | nil => rfl
  | cons head _ ih => rw [List.map_cons, List.map_cons, cost_clickhouseRow rules head, ih]

/-- What the generator writes of every record are its columns. -/
theorem map_clickhouse_createSubquery (logs : List Log) : logs.map createSubquery =
    (logs.map clickhouseColumns).map fun row =>
      bracketValues (commaSeparate (row.map Prod.fst)) := by
  rw [List.map_map]
  rfl

/-- The columns of a record are a row of it. -/
theorem clickhouseRow_self (log : Log) :
    ClickhouseRow ((clickhouseColumns log).map Prod.snd) log := by
  simp only [ClickhouseRow, clickhouseColumns, List.map_cons, List.map_nil, List.forall₂_cons,
    List.forall₂_nil_left_iff]
  exact ⟨.integer _, .string _, .string _, .integer _, .string _, .integer _, .string _,
    .string _, .map (.refl _), .map (.refl _), trivial⟩

section Rules

variable (unescape : UInt8 → UInt8)
  (ordinary : ∀ byte, unescape byte = quote ∨ unescape byte = backslash →
    byte = quote ∨ byte = backslash)

/-- ClickHouse has two special bytes, the quote and the backslash. -/
theorem within_clickhouseRules : Within (clickhouseRules unescape ordinary) := by
  rintro byte (isQuote | opener)
  · exact Or.inl isQuote
  · exact Or.inr (of_decide_eq_true opener)

/-- What is read back has no special byte: reading it costs each one twice. -/
theorem plain_of_clickhouseRoundTrip {logs : List Log}
    (back : ClickhouseRoundTrip (clickhouseRules unescape ordinary) logs) :
    ∀ log ∈ logs, log.Plain (clickhouseRules unescape ordinary) := by
  have within := within_clickhouseRules unescape ordinary
  obtain ⟨tuples, read, rows⟩ := back
  have bound := weight_readInsert _ (spends_readClickhouseValue _) read
  rw [createQuery, weight_insertQuery within, map_cost_clickhouseRow _ rows] at bound
  simp only [List.map_map, Function.comp_def,
    weight_clickhouse_createSubquery within (rfl : (clickhouseRules unescape ordinary).quote = _)]
    at bound
  exact Log.plain_of_cost_le _ delimiters logs bound

/-- Records without special bytes are read back. -/
theorem clickhouseRoundTrip_of_plain {logs : List Log} (nonempty : logs ≠ [])
    (plain : ∀ log ∈ logs, log.Plain (clickhouseRules unescape ordinary)) :
    ClickhouseRoundTrip (clickhouseRules unescape ordinary) logs := by
  have read := readInsert_written (readClickhouseValue (clickhouseRules unescape ordinary))
    (logs.map clickhouseColumns) (by simpa using nonempty) (by simp [clickhouseColumns])
    (by simpa using fun log member => reads_clickhouseColumns rfl log (plain log member))
  rw [← map_clickhouse_createSubquery] at read
  refine ⟨_, read, ?_⟩
  rw [List.map_map, List.forall₂_map_left_iff, List.forall₂_same]
  exact fun log _ => clickhouseRow_self log

/-- The statement is read back as its records exactly when none of their strings
contains a quote or a backslash. -/
theorem clickhouseRoundTrip_iff (logs : List Log) (nonempty : logs ≠ []) :
    ClickhouseRoundTrip (clickhouseRules unescape ordinary) logs ↔
      ∀ log ∈ logs, log.Plain (clickhouseRules unescape ordinary) :=
  ⟨plain_of_clickhouseRoundTrip unescape ordinary,
    clickhouseRoundTrip_of_plain unescape ordinary nonempty⟩

end Rules

/-- The server's control escapes; every other escaped byte stands for itself. -/
def controlUnescape (byte : UInt8) : UInt8 :=
  if byte = 98 then 8 else if byte = 102 then 12 else if byte = 110 then 10
  else if byte = 114 then 13 else if byte = 116 then 9 else if byte = 48 then 0
  else if byte = 97 then 7 else if byte = 118 then 11 else byte

/-- No letter stands for a quote or a backslash. -/
theorem controlUnescape_ordinary (byte : UInt8)
    (special : controlUnescape byte = quote ∨ controlUnescape byte = backslash) :
    byte = quote ∨ byte = backslash := by
  unfold controlUnescape at special
  split_ifs at special
  all_goals first | exact special | exact absurd special (by decide)

/-- Two harmless records with attributes are read back. -/
theorem clickhouseRoundTrip_tagged :
    ClickhouseRoundTrip (clickhouseRules controlUnescape controlUnescape_ordinary)
      [Log.tagged (text "up"), Log.tagged (text "down")] :=
  (clickhouseRoundTrip_iff controlUnescape controlUnescape_ordinary _
    (List.cons_ne_nil _ _)).mpr (List.forall_mem_cons.mpr
      ⟨by decide, List.forall_mem_singleton.mpr (by decide)⟩)

/-- One backslash at the end of a body takes the closing quote with it. -/
theorem not_clickhouseRoundTrip_backslash :
    ¬ ∀ logs : List Log, logs ≠ [] →
      ClickhouseRoundTrip (clickhouseRules controlUnescape controlUnescape_ordinary) logs := by
  intro always
  obtain ⟨tuples, read, -⟩ := always [Log.ofBody (text "C:\\")] (List.cons_ne_nil _ _)
  have stuck : readInsert
      (readClickhouseValue (clickhouseRules controlUnescape controlUnescape_ordinary))
      (createQuery ([Log.ofBody (text "C:\\")].map createSubquery)) = none := by decide +kernel
  rw [stuck] at read
  cases read

end Evenscribe.Sql
