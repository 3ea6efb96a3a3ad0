import Evenscribe.Sql.Weight
import Evenscribe.QueryGenerator.Postgres

/-!
# PostgreSQL statements read back

Strings are put between quotes as they are. A batch is read back as its records
exactly when no string of any of them contains a quote
(`postgresRoundTrip_iff`).
-/

namespace Evenscribe.Sql

open Reading PostgresQueryGenerator

/-- What `unorderedMapToString` writes between its outer quotes. -/
def attributeText (map : Attributes) : Text := ((unorderedMapToString map).drop 1).dropLast

/-- The columns of a record with the text written for each. -/
def postgresColumns (log : Log) : List (Text × Value) := [
  (between (text "to_timestamp(") (stdToString log.timestamp.toNat) (text ")"),
    .timestamp log.timestamp.toNat),
  (wrap log.traceId (text "'"), .string log.traceId),
  (wrap log.spanId (text "'"), .string log.spanId),
  (stdToString log.traceFlags.toNat, .integer log.traceFlags.toNat),
  (wrap log.severityText (text "'"), .string log.severityText),
  (stdToString log.severityNumber.toInt, .integer log.severityNumber.toInt),
  (wrap log.serviceName (text "'"), .string log.serviceName),
  (wrap log.body (text "'"), .string log.body),
  (unorderedMapToString log.resourceAttributes, .string (attributeText log.resourceAttributes)),
  (unorderedMapToString log.logAttributes, .string (attributeText log.logAttributes))]

/-- The ten values a record's tuple should hold. -/
def postgresRow (log : Log) : List Value := (postgresColumns log).map Prod.snd

/-- PostgreSQL reads the batch statement as one insert of exactly these records. -/
def PostgresRoundTrip (logs : List Log) : Prop :=
  readInsert readPostgresValue (createQuery (logs.map createSubquery)) =
    some (logs.map postgresRow)

instance (logs : List Log) : Decidable (PostgresRoundTrip logs) :=
  inferInstanceAs (Decidable (_ = _))

/-- PostgreSQL has one special byte, the quote. -/
theorem within_postgresRules : Within postgresRules := by
  rintro byte (isQuote | opener)
  · exact Or.inl isQuote
  · exact absurd opener Bool.false_ne_true

/-- The braces and what the loop writes between them. -/
theorem attributeText_eq (map : Attributes) :
    attributeText map = 123 :: (writeEntries (text "\"") true map.entries ++ [125]) := by
  have shape : unorderedMapToString map =
      39 :: ((123 :: (writeEntries (text "\"") true map.entries ++ [125])) ++ [39]) := by
    simp [unorderedMapToString, show text "'\x7b" = [39, 123] from rfl,
      show text "\x7d'" = [125, 39] from rfl]
  rw [attributeText, shape, List.drop_succ_cons, List.drop_zero, List.dropLast_concat]

/-- A map is written as a literal. -/
theorem unorderedMapToString_eq_wrap (map : Attributes) :
    unorderedMapToString map = wrap (attributeText map) (text "'") := by
  rw [attributeText_eq]
  simp [unorderedMapToString, wrap, show text "'\x7b" = [39, 123] from rfl,
    show text "\x7d'" = [125, 39] from rfl, show text "'" = [39] from rfl]

theorem reads_string (content : Text) (plain : postgresRules.Plain content) :
    Reads readPostgresValue (wrap content (text "'")) (.string content) := by
  refine ⟨visible_cons quote _ (by decide), ?_⟩
  intro tail stops
  have closed : tail.head? ≠ some postgresRules.quote := fun front => (stops _ front).2.1 rfl
  have read := postgresRules.readLiteral_enclose content tail plain closed
  have shape : wrap content (text "'") ++ tail = postgresRules.enclose content ++ tail := by
    simp [wrap, Quoting.Rules.enclose, postgresRules, show text "'" = [quote] from rfl]
  have front : (postgresRules.enclose content ++ tail).head? = some quote := rfl
  simp only [shape, readPostgresValue, front, ↓reduceIte, read, Option.map_some]

theorem reads_timestamp (seconds : ℤ) :
    Reads readPostgresValue (between (text "to_timestamp(") (stdToString seconds) (text ")"))
      (.timestamp seconds) := by
  refine ⟨visible_cons 116 _ (by decide), ?_⟩
  intro tail stops
  have shape : between (text "to_timestamp(") (stdToString seconds) (text ")") ++ tail =
      text "to_timestamp" ++ (40 :: (stdToString seconds ++ 41 :: tail)) := by
    simp [between, show text "to_timestamp(" = text "to_timestamp" ++ [40] from rfl,
      show text ")" = [41] from rfl]
  have front : (text "to_timestamp" ++ (40 :: (stdToString seconds ++ 41 :: tail))).head? ≠
      some quote := by
    rw [show text "to_timestamp" = 116 :: text "o_timestamp" from rfl, List.cons_append,
      List.head?_cons]
    decide
  have call : bracketed openBracket readInteger closeBracket
      (40 :: (stdToString seconds ++ 41 :: tail)) = some (seconds, tail) :=
    bracketed_written _ _ _
      (token_cons isBlank 40 (by decide) _ ((visible_stdToString seconds).append _))
      (readInteger_stdToString seconds (stops_cons 41 tail (by decide) (by decide) (by decide)))
      (token_cons isBlank 41 (by decide) tail stops.shown)
  simp only [shape, readPostgresValue, front, ↓reduceIte, exactly_append, call, Option.map_some]

theorem reads_integer (number : ℤ) :
    Reads readPostgresValue (stdToString number) (.integer number) := by
  refine reads_stdToString number fun first rest starts _ => ?_
  have noQuote : first ≠ quote := ne_of_starts_number starts (by decide) (by decide)
  have noCall : (116 : UInt8) ≠ first := (ne_of_starts_number starts (by decide) (by decide)).symm
  have keyword : exactly (text "to_timestamp") (first :: rest) = none :=
    exactly_of_head_ne 116 first noCall _ _
  simp only [readPostgresValue, List.head?_cons, Option.some.injEq, noQuote, ↓reduceIte, keyword]

/-- An object weighs what its strings do. -/
theorem weight_attributeText (map : Attributes) :
    postgresRules.weight (attributeText map) = map.weight postgresRules := by
  have outer : postgresRules.weight (unorderedMapToString map) = 2 + map.weight postgresRules := by
    simp only [unorderedMapToString, Quoting.Rules.weight_append,
      weight_writeEntries within_postgresRules, Attributes.weight, Attributes.pairs, List.map_map]
    rw [show postgresRules.weight (text "'\x7b") = 1 from rfl,
      show postgresRules.weight (text "\x7d'") = 1 from rfl,
      show postgresRules.weight (text "\"") = 0 from rfl]
    simp only [Nat.mul_zero, Nat.zero_add, Function.comp_def]
    omega
  rw [unorderedMapToString_eq_wrap, weight_wrap,
    show postgresRules.weight (text "'") = 1 from rfl] at outer
  omega

/-- A record's tuple pays once for each of its special bytes, and for the
delimiters of seven literals. -/
theorem weight_createSubquery (log : Log) :
    postgresRules.weight (createSubquery log) = 14 + log.weight postgresRules := by
  have call (seconds : ℤ) : Harmless
      (between (text "to_timestamp(") (stdToString seconds) (text ")")) := by
    intro byte member
    rcases List.mem_append.mp member with front | bracket
    · rcases List.mem_append.mp front with name | number
      · exact (by decide : Harmless (text "to_timestamp(")) byte name
      · exact harmless_stdToString seconds byte number
    · exact (by decide : Harmless (text ")")) byte bracket
  simp only [createSubquery, getValues, weight_bracketValues within_postgresRules,
    weight_commaSeparate within_postgresRules, List.map_cons, List.map_nil, List.sum_cons,
    List.sum_nil, weight_harmless within_postgresRules (call _),
    weight_harmless within_postgresRules (harmless_stdToString _), unorderedMapToString_eq_wrap,
    weight_wrap, weight_attributeText, Log.weight, Log.strings]
  rw [show postgresRules.weight (text "'") = 1 from rfl]
  omega

/-- The row of a record costs its fourteen quotes, and its strings twice. -/
theorem cost_postgresRow (log : Log) :
    ((postgresRow log).map (cost postgresRules)).sum = 14 + 2 * log.weight postgresRules := by
  simp only [postgresRow, postgresColumns, cost, List.map_cons, List.map_nil, List.sum_cons,
    List.sum_nil, weight_attributeText, Log.weight, Log.strings]
  omega

/-- What the generator writes of every record are its columns. -/
theorem map_createSubquery (logs : List Log) : logs.map createSubquery =
    (logs.map postgresColumns).map fun row => bracketValues (commaSeparate (row.map Prod.fst)) := by
  rw [List.map_map]
  rfl

/-- Every column of a record without quotes is written so that it is read back. -/
theorem reads_postgresColumns (log : Log) (plain : log.Plain postgresRules) :
    ∀ column ∈ postgresColumns log, Reads readPostgresValue column.1 column.2 := by
  obtain ⟨strings, attributes⟩ := plain
  have attributeTexts (map : Attributes)
      (inside : ∀ entry ∈ map.pairs, postgresRules.Plain entry.1 ∧ postgresRules.Plain entry.2) :
      Reads readPostgresValue (unorderedMapToString map) (.string (attributeText map)) := by
    rw [unorderedMapToString_eq_wrap]
    apply reads_string
    apply (postgresRules.weight_eq_zero_iff _).mp
    rw [weight_attributeText, Attributes.weight, List.sum_eq_zero_iff]
    simp only [List.forall_mem_map, Nat.add_eq_zero_iff, Quoting.Rules.weight_eq_zero_iff]
    exact inside
  simp only [Log.strings, List.forall_mem_cons, List.forall_mem_append] at strings attributes
  obtain ⟨traceId, spanId, severityText, serviceName, body, -⟩ := strings
  simp only [postgresColumns, List.forall_mem_cons]
  exact ⟨reads_timestamp _, reads_string _ traceId, reads_string _ spanId, reads_integer _,
    reads_string _ severityText, reads_integer _, reads_string _ serviceName, reads_string _ body,
    attributeTexts _ attributes.1, attributeTexts _ attributes.2, List.forall_mem_nil _⟩

/-- A statement weighs the quotes and the strings of its records. -/
theorem weight_createQuery (logs : List Log) :
    postgresRules.weight (createQuery (logs.map createSubquery)) =
      (logs.map fun log => 14 + log.weight postgresRules).sum := by
  rw [createQuery, weight_insertQuery within_postgresRules]
  simp only [List.map_map, Function.comp_def, weight_createSubquery]

/-- Records without quotes are read back. -/
theorem postgresRoundTrip_of_plain {logs : List Log} (nonempty : logs ≠ [])
    (plain : ∀ log ∈ logs, log.Plain postgresRules) : PostgresRoundTrip logs := by
  have read := readInsert_written readPostgresValue (logs.map postgresColumns)
    (by simpa using nonempty) (by simp [postgresColumns])
    (by simpa using fun log member => reads_postgresColumns log (plain log member))
  rw [← map_createSubquery, List.map_map] at read
  exact read

/-- The statement is read back as its records exactly when none of their strings
contains a quote. -/
theorem postgresRoundTrip_iff (logs : List Log) (nonempty : logs ≠ []) :
    PostgresRoundTrip logs ↔ ∀ log ∈ logs, log.Plain postgresRules := by
  constructor
  · intro read
    have bound := weight_readInsert postgresRules spends_readPostgresValue read
    rw [weight_createQuery] at bound
    simp only [List.map_map, Function.comp_def, cost_postgresRow] at bound
    exact Log.plain_of_cost_le postgresRules (fun _ => 14) logs bound
  · exact postgresRoundTrip_of_plain nonempty

/-- Two harmless records with attributes are read back. -/
theorem postgresRoundTrip_tagged :
    PostgresRoundTrip [Log.tagged (text "up"), Log.tagged (text "C:\\")] :=
  (postgresRoundTrip_iff _ (List.cons_ne_nil _ _)).mpr (List.forall_mem_cons.mpr
    ⟨by decide, List.forall_mem_singleton.mpr (by decide)⟩)

/-- One apostrophe in a body ends its literal early. -/
theorem not_postgresRoundTrip_apostrophe :
    ¬ ∀ logs : List Log, logs ≠ [] → PostgresRoundTrip logs := by
  intro always
  have read := always [Log.ofBody (text "it's down")] (List.cons_ne_nil _ _)
  exact absurd read (by decide +kernel)

end Evenscribe.Sql
