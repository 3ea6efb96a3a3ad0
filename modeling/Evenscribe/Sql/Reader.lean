import Evenscribe.Text
import Evenscribe.Foundation.Quoting
import Evenscribe.Foundation.Reading

/-!
# How a server reads an insert statement

A statement is read with the server's own rules, which do not mention how it
was written: values of a dialect between commas and brackets, tuples between
commas, one semicolon and nothing after it. Dialects differ in their literals
and in the forms a value may take.
-/

namespace Evenscribe.Sql

open Reading

/-- A value of a tuple as a server understands it. -/
inductive Value where
  | string (content : Text)
  | integer (number : ℤ)
  | timestamp (seconds : ℤ)
  | map (entries : List (Text × Text))
  deriving DecidableEq

/-- The blanks between tokens. -/
def isBlank (byte : UInt8) : Bool := decide (byte = 32 ∨ (9 ≤ byte ∧ byte ≤ 13))

/-- One punctuation byte among blanks. -/
def punctuation (byte : UInt8) : Marker UInt8 := token isBlank byte

def comma : Marker UInt8 := punctuation 44
def openBracket : Marker UInt8 := punctuation 40
def closeBracket : Marker UInt8 := punctuation 41
def colon : Marker UInt8 := punctuation 58
def openBrace : Marker UInt8 := punctuation 123
def closeBrace : Marker UInt8 := punctuation 125
def semicolon : Marker UInt8 := punctuation 59

/-- A number in digits. -/
def readNatural : Reader UInt8 ℕ := fun input =>
  if input.takeWhile isDigit = [] then none
  else some (digitsValue (input.takeWhile isDigit), input.dropWhile isDigit)

/-- A number in digits, with a sign if it is negative. -/
def readInteger : Reader UInt8 ℤ := fun input =>
  match exactly (text "-") input with
  | some rest => (readNatural rest).map fun read => (-(read.1 : ℤ), read.2)
  | none => (readNatural input).map fun read => ((read.1 : ℤ), read.2)

/-- Values in brackets. -/
def readTuple (value : Reader UInt8 Value) : Reader UInt8 (List Value) := fun input =>
  bracketed openBracket (separated value comma input.length) closeBracket input

/-- One `INSERT INTO logs VALUES` with at least one tuple, up to its semicolon and
the end of the text. -/
def readInsert (value : Reader UInt8 Value) (input : Text) : Option (List (List Value)) :=
  match exactly (text "INSERT INTO logs VALUES ") input with
  | none => none
  | some rest =>
      match separated (readTuple value) comma rest.length rest with
      | none => none
      | some (tuples, rest) => if semicolon rest = some [] then some tuples else none

/-- PostgreSQL literals: only the delimiter is special. -/
def postgresRules : Quoting.Rules UInt8 where
  quote := quote
  opensEscape := fun _ => false
  unescape := id
  quote_plain := rfl
  special_of_unescape := fun _ special => special

/-- A PostgreSQL value: a string, `to_timestamp` of a number, or a number. -/
def readPostgresValue : Reader UInt8 Value := fun input =>
  if input.head? = some quote then
    (postgresRules.readLiteral input).map fun read => (.string read.1, read.2)
  else
    match exactly (text "to_timestamp") input with
    | some rest =>
        (bracketed openBracket readInteger closeBracket rest).map fun read =>
          (.timestamp read.1, read.2)
    | none => (readInteger input).map fun read => (.integer read.1, read.2)

/-- ClickHouse literals: a backslash opens an escape. What an escaped byte stands
for is the server's table, of which only this matters: no escape but those of
the quote and the backslash themselves yields one of the two. -/
def clickhouseRules (unescape : UInt8 → UInt8)
    (ordinary : ∀ byte, unescape byte = quote ∨ unescape byte = backslash →
      byte = quote ∨ byte = backslash) : Quoting.Rules UInt8 where
  quote := quote
  opensEscape := fun byte => decide (byte = backslash)
  unescape := unescape
  quote_plain := by decide
  special_of_unescape := by simpa only [decide_eq_true_eq] using ordinary

section Clickhouse

variable (rules : Quoting.Rules UInt8)

/-- A key and its value, as literals. -/
def readPair : Reader UInt8 (Text × Text) := fun input =>
  match rules.readLiteral input with
  | none => none
  | some (key, rest) =>
      match colon rest with
      | none => none
      | some rest => (rules.readLiteral rest).map fun read => ((key, read.1), read.2)

/-- The entries of a map literal, none or more. -/
def readPairs : Reader UInt8 (List (Text × Text)) := fun input =>
  match closeBrace input with
  | some _ => some ([], input)
  | none => separated (readPair rules) comma input.length input

/-- A pair is two literals with a colon between them. -/
theorem readPair_eq_paired :
    readPair rules = paired rules.readLiteral colon rules.readLiteral := by
  funext input
  unfold readPair paired
  cases rules.readLiteral input with
  | none => rfl
  | some key =>
      simp only
      cases colon key.2 <;> rfl

/-- A map is a list of pairs. -/
theorem readPairs_eq_listed : readPairs rules = listed (readPair rules) comma closeBrace := by
  funext input
  unfold readPairs listed
  cases closeBrace input <;> rfl

/-- A ClickHouse value: a string, a map literal, or a number. -/
def readClickhouseValue : Reader UInt8 Value := fun input =>
  if input.head? = some quote then
    (rules.readLiteral input).map fun read => (.string read.1, read.2)
  else
    match bracketed openBrace (readPairs rules) closeBrace input with
    | some (entries, rest) => some (.map entries, rest)
    | none => (readInteger input).map fun read => (.integer read.1, read.2)

end Clickhouse

end Evenscribe.Sql
