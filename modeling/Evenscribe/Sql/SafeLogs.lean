import Evenscribe.Sql.AttributeObject
import Evenscribe.Sql.ClickhouseRoundTrip

/-!
# Safe logs

When the attributes of all records are tame, the scalar strings alone decide
whether a batch is read back as its records: no quote for PostgreSQL, no quote
and no backslash for ClickHouse (`readBack_iff`). A PostgreSQL attribute literal
counts as read when it holds the map as a JSON object.
-/

namespace Evenscribe

open Sql

/-- A string with no quote of either kind, no backslash and no control character. -/
def Tame (content : Text) : Prop :=
  ∀ byte ∈ content, byte ≠ quote ∧ byte ≠ doubleQuote ∧ byte ≠ backslash ∧ 32 ≤ byte

instance (content : Text) : Decidable (Tame content) :=
  List.decidableBAll
    (fun byte => byte ≠ quote ∧ byte ≠ doubleQuote ∧ byte ≠ backslash ∧ 32 ≤ byte) content

/-- A tame string stands for itself in an object. -/
theorem Tame.verbatim {content : Text} (tame : Tame content) : Verbatim content :=
  fun byte member => (tame byte member).2

theorem Tame.plain {content : Text} (tame : Tame content) {rules : Quoting.Rules UInt8}
    (within : Within rules) : rules.Plain content :=
  (rules.weight_eq_zero_iff content).mp
    (weight_harmless within fun byte member => ⟨(tame byte member).1, (tame byte member).2.2.1⟩)

namespace Log

/-- The keys and values of both attribute maps are tame. -/
def TameAttributes (log : Log) : Prop :=
  ∀ entry ∈ log.resourceAttributes.pairs ++ log.logAttributes.pairs, Tame entry.1 ∧ Tame entry.2

instance (log : Log) : Decidable log.TameAttributes :=
  inferInstanceAs (Decidable (∀ entry ∈ _, _ ∧ _))

/-- Tame attributes leave the scalar strings to decide. -/
theorem plain_iff_strings {log : Log} (tame : log.TameAttributes) {rules : Quoting.Rules UInt8}
    (within : Within rules) :
    log.Plain rules ↔ ∀ content ∈ log.strings, rules.Plain content :=
  and_iff_left fun entry member =>
    ⟨(tame entry member).1.plain within, (tame entry member).2.plain within⟩

end Log

namespace Sql

open PostgresQueryGenerator

/-- The values that the tuple of a record stands for, the maps among them. -/
def decodedColumns (log : Log) : List Value := [
  .timestamp log.timestamp.toNat, .string log.traceId, .string log.spanId,
  .integer log.traceFlags.toNat, .string log.severityText, .integer log.severityNumber.toInt,
  .string log.serviceName, .string log.body,
  .map log.resourceAttributes.pairs, .map log.logAttributes.pairs]

/-- What a value of a PostgreSQL tuple stands for: itself, or the map whose pairs are
the members of the JSON object in its text. -/
inductive StandsFor : Value → Value → Prop where
  | string (content : Text) : StandsFor (.string content) (.string content)
  | integer (number : ℤ) : StandsFor (.integer number) (.integer number)
  | timestamp (seconds : ℤ) : StandsFor (.timestamp seconds) (.timestamp seconds)
  | object {content : Text} {members pairs : List (Text × Text)}
      (read : readJsonObject content = some members) (same : members.Perm pairs) :
      StandsFor (.string content) (.map pairs)

/-- PostgreSQL reads the batch statement as one insert of these records, with JSON
objects in the attribute columns. -/
def PostgresDecodes (logs : List Log) : Prop :=
  ∃ tuples, readInsert readPostgresValue (createQuery (logs.map createSubquery)) = some tuples ∧
    List.Forall₂ (fun tuple log => List.Forall₂ StandsFor tuple (decodedColumns log)) tuples logs

/-- What a value costs at least if it is found for another: the special bytes of a
string, and the delimiters of any literal. -/
def leastCost : Value → ℕ
  | .map _ => 2
  | value => cost postgresRules value

/-- What stands for a value costs at least what the value must. -/
theorem leastCost_le {found expected : Value} (stands : StandsFor found expected) :
    leastCost expected ≤ cost postgresRules found := by
  cases stands with
  | string content => exact Nat.le_refl _
  | integer number => exact Nat.le_refl _
  | timestamp seconds => exact Nat.le_refl _
  | object read same =>
      simp only [leastCost, cost]
      omega

/-- A tuple that stands for a record costs each special byte of its scalars twice. -/
theorem cost_of_standsFor {log : Log} (tame : log.TameAttributes) {tuple : List Value}
    (row : List.Forall₂ StandsFor tuple (decodedColumns log)) :
    14 + 2 * log.weight postgresRules ≤ (tuple.map (cost postgresRules)).sum := by
  have pointwise : List.Forall₂ (· ≤ ·) ((decodedColumns log).map leastCost)
      (tuple.map (cost postgresRules)) := by
    rw [List.forall₂_map_left_iff, List.forall₂_map_right_iff]
    exact row.flip.imp fun _ _ => leastCost_le
  have bound := pointwise.sum_le_sum
  have noWeight (map : Attributes) (inside : ∀ entry ∈ map.pairs, Tame entry.1 ∧ Tame entry.2) :
      map.weight postgresRules = 0 := by
    rw [Attributes.weight, List.sum_eq_zero_iff]
    simp only [List.forall_mem_map, Nat.add_eq_zero_iff, Quoting.Rules.weight_eq_zero_iff]
    exact fun entry member => ⟨(inside entry member).1.plain within_postgresRules,
      (inside entry member).2.plain within_postgresRules⟩
  obtain ⟨resource, attributes⟩ := List.forall_mem_append.mp tame
  simp only [decodedColumns, leastCost, cost, List.map_cons, List.map_nil, List.sum_cons,
    List.sum_nil] at bound
  simp only [Log.weight, Log.strings, noWeight _ resource, noWeight _ attributes, List.map_cons,
    List.map_nil, List.sum_cons, List.sum_nil]
  omega

/-- A statement that is decoded was made of plain records. -/
theorem plain_of_postgresDecodes {logs : List Log} (tame : ∀ log ∈ logs, log.TameAttributes)
    (decodes : PostgresDecodes logs) : ∀ log ∈ logs, log.Plain postgresRules := by
  obtain ⟨tuples, read, rows⟩ := decodes
  have paid := weight_readInsert postgresRules spends_readPostgresValue read
  rw [weight_createQuery] at paid
  have pointwise : List.Forall₂ (· ≤ ·)
      (logs.map fun log => 14 + 2 * log.weight postgresRules)
      (tuples.map fun tuple => (tuple.map (cost postgresRules)).sum) := by
    rw [List.forall₂_map_left_iff, List.forall₂_map_right_iff]
    exact ((List.forall₂_and_left _ _).mpr ⟨tame, rows.flip⟩).imp fun _ _ related =>
      cost_of_standsFor related.1 related.2
  exact Log.plain_of_cost_le postgresRules (fun _ => 14) logs (pointwise.sum_le_sum.trans paid)

/-- The row of a record stands for its columns. -/
theorem standsFor_postgresRow {log : Log} (tame : log.TameAttributes) :
    List.Forall₂ StandsFor (postgresRow log) (decodedColumns log) := by
  obtain ⟨resource, attributes⟩ := List.forall_mem_append.mp tame
  have object (map : Attributes) (inside : ∀ entry ∈ map.pairs, Tame entry.1 ∧ Tame entry.2) :
      StandsFor (.string (attributeText map)) (.map map.pairs) :=
    .object (readJsonObject_attributeText map fun entry member =>
      ⟨(inside entry member).1.verbatim, (inside entry member).2.verbatim⟩) (.refl _)
  simp only [postgresRow, postgresColumns, decodedColumns, List.map_cons, List.map_nil,
    List.forall₂_cons, List.forall₂_nil_left_iff]
  exact ⟨.timestamp _, .string _, .string _, .integer _, .string _, .integer _, .string _,
    .string _, object _ resource, object _ attributes, trivial⟩

/-- A statement made of plain records is decoded. -/
theorem postgresDecodes_of_plain {logs : List Log} (nonempty : logs ≠ [])
    (tame : ∀ log ∈ logs, log.TameAttributes) (plain : ∀ log ∈ logs, log.Plain postgresRules) :
    PostgresDecodes logs := by
  refine ⟨_, postgresRoundTrip_of_plain nonempty plain, ?_⟩
  rw [List.forall₂_map_left_iff, List.forall₂_same]
  exact fun log member => standsFor_postgresRow (tame log member)

section Rules

variable (unescape : UInt8 → UInt8)
  (ordinary : ∀ byte, unescape byte = quote ∨ unescape byte = backslash →
    byte = quote ∨ byte = backslash)

/-- Plain for PostgreSQL is without a quote. -/
theorem plain_postgresRules_iff (content : Text) :
    postgresRules.Plain content ↔ quote ∉ content := by
  constructor
  · intro plain member
    exact plain quote member (Or.inl rfl)
  · intro free byte member special
    rcases special with rfl | opener
    · exact free member
    · exact Bool.false_ne_true opener

/-- Plain for ClickHouse is without a quote and a backslash. -/
theorem plain_clickhouseRules_iff (content : Text) :
    (clickhouseRules unescape ordinary).Plain content ↔
      quote ∉ content ∧ backslash ∉ content := by
  constructor
  · intro plain
    exact ⟨fun member => plain quote member (Or.inl rfl),
      fun member => plain backslash member (Or.inr (decide_eq_true (Eq.refl backslash)))⟩
  · rintro ⟨noQuote, noBackslash⟩ byte member special
    rcases within_clickhouseRules unescape ordinary byte special with rfl | rfl
    · exact noQuote member
    · exact noBackslash member

/-- **Safe logs.** With tame attributes, a batch is read back by PostgreSQL exactly
when no scalar string of its records contains a quote, and by ClickHouse exactly
when none contains a quote or a backslash. -/
theorem readBack_iff (logs : List Log) (nonempty : logs ≠ [])
    (tame : ∀ log ∈ logs, log.TameAttributes) :
    (PostgresDecodes logs ↔ ∀ log ∈ logs, ∀ content ∈ log.strings, quote ∉ content) ∧
      (ClickhouseRoundTrip (clickhouseRules unescape ordinary) logs ↔
        ∀ log ∈ logs, ∀ content ∈ log.strings, quote ∉ content ∧ backslash ∉ content) := by
  have scalars {rules : Quoting.Rules UInt8} (within : Within rules) :
      (∀ log ∈ logs, log.Plain rules) ↔
        ∀ log ∈ logs, ∀ content ∈ log.strings, rules.Plain content :=
    forall₂_congr fun log member => Log.plain_iff_strings (tame log member) within
  constructor
  · simp only [← plain_postgresRules_iff]
    rw [← scalars within_postgresRules]
    exact ⟨plain_of_postgresDecodes tame, postgresDecodes_of_plain nonempty tame⟩
  · simp only [← plain_clickhouseRules_iff unescape ordinary]
    rw [← scalars (within_clickhouseRules unescape ordinary)]
    exact ⟨plain_of_clickhouseRoundTrip unescape ordinary,
      clickhouseRoundTrip_of_plain unescape ordinary nonempty⟩

end Rules

/-- A record with a backslash in its body and an attribute. -/
def windowsLog : Log :=
  { Log.ofBody (text "C:\\") with logAttributes := AList.singleton (text "os") (text "windows") }

/-- PostgreSQL takes a backslash for itself and ClickHouse does not. -/
theorem readBack_windowsLog : PostgresDecodes [windowsLog] ∧
    ¬ ClickhouseRoundTrip (clickhouseRules controlUnescape controlUnescape_ordinary)
      [windowsLog] := by
  obtain ⟨postgres, clickhouse⟩ := readBack_iff controlUnescape controlUnescape_ordinary
    [windowsLog] (List.cons_ne_nil _ _) (by
      intro log member
      obtain rfl := List.mem_singleton.mp member
      decide)
  refine ⟨postgres.mpr ?_, fun back => ?_⟩
  · intro log member
    obtain rfl := List.mem_singleton.mp member
    decide
  · have free := clickhouse.mp back windowsLog (List.mem_singleton.mpr rfl) (text "C:\\")
      (by decide)
    exact free.2 (by decide)

end Sql
end Evenscribe
