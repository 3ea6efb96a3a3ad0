import Evenscribe.Json.Parse
import Evenscribe.Log
import Evenscribe.Param

/-!
# Turning a message into a log record

`serialize` looks up one member after the other and gives up at the first that is
missing or of another type. The blocks of the source differ in the name looked
up, the warning, the node whose string is tested and the field written; what
each block passes for these is its own.
-/

namespace Evenscribe

/-- How the target converts a `double` to the integer fields. C++ defines the
conversion only where the integral part fits, so nothing else is said of it. -/
structure Target where
  toUInt32 : Double → UInt32
  toInt32 : Double → Int32
  toNat_toUInt32 : ∀ value : ℚ, 0 ≤ integralPart value → integralPart value < 2 ^ 32 →
    ((toUInt32 (.finite value)).toNat : ℤ) = integralPart value
  toInt_toInt32 : ∀ value : ℚ, -2 ^ 31 ≤ integralPart value → integralPart value < 2 ^ 31 →
    (toInt32 (.finite value)).toInt = integralPart value

/-- A target that keeps the low bits of the integral part. -/
def Target.wrapping : Target where
  toUInt32
    | .finite value => UInt32.ofInt (integralPart value)
    | .infinite _ => 0
  toInt32
    | .finite value => Int32.ofInt (integralPart value)
    | .infinite _ => 0
  toNat_toUInt32 value nonneg small := by
    simp only [UInt32.ofInt, UInt32.toNat_ofNat']
    omega
  toInt_toInt32 value := Int32.toInt_ofInt_of_le

namespace Serializer

open CJSON

/-- `Log log` before the first field is written. Its integers have no value then;
they are written before a record counts as valid. -/
def initial : Log := ⟨0, [], [], 0, [], 0, [], [], ∅, ∅, true⟩

/-- An early return: the record as far as it was filled, and the text of `warn`. -/
structure Rejection where
  log : Log
  warning : Text

/-- An early return: the record as far as it got, and the warning. -/
def reject (log : Log) (warning : Text) : Except Rejection Log :=
  .error ⟨{ log with isVaild := false }, warning⟩

/-- A block that stores a number. -/
def numberBlock (json : CJSON) (name warning : Text) (store : Log → Double → Log) (log : Log) :
    Except Rejection Log :=
  match getObjectItemCaseSensitive json name with
  | none => reject log warning
  | some item => if isNumber item then .ok (store log item.valuedouble) else reject log warning

/-- A block that stores a string, where `tested` is the pointer it compares with
null. The parser leaves no string node without a value, so that a null pointer
is never stored. -/
def stringBlock (json : CJSON) (name warning : Text) (tested : CJSON → Option Text)
    (store : Log → Text → Log) (log : Log) : Except Rejection Log :=
  match getObjectItemCaseSensitive json name with
  | none => reject log warning
  | some item =>
      if isString item = false ∨ tested item = none then reject log warning
      else .ok (store log (item.valuestring.getD []))

/-- The loop over the members of an attribute object. -/
def attributeLoop (warning : Text) (store : Log → Text → Text → Log) :
    List CJSON → Log → Except Rejection Log
  | [], log => .ok log
  | member :: next, log =>
      if isString member = false ∨ member.valuestring = none then reject log warning
      else
        attributeLoop warning store next
          (store log (member.string.getD []) (member.valuestring.getD []))

/-- A block that stores a map. -/
def attributesBlock (json : CJSON) (name missing warning : Text) (store : Log → Text → Text → Log)
    (log : Log) : Except Rejection Log :=
  match getObjectItemCaseSensitive json name with
  | none => reject log missing
  | some item =>
      if isObject item then attributeLoop warning store item.child log else reject log missing

/-- The part of `serialize` after the parse. The block of `SpanId` writes `TraceId`,
and the blocks of the later strings test the string of `TraceId`. -/
def readLog (target : Target) (json : CJSON) : Except Rejection Log := do
  let traceId :=
    (getObjectItemCaseSensitive json (text "TraceId")).bind fun item => item.valuestring
  let log ← numberBlock json (text "Timestamp")
    (text "evenscribe(log): Timestamp is either missing or not an integer\n")
    (fun log number => { log with timestamp := target.toUInt32 number }) initial
  let log ← stringBlock json (text "TraceId")
    (text "evenscribe(log): TraceId is either missing or not a string\n")
    (fun item => item.valuestring) (fun log value => { log with traceId := value }) log
  let log ← stringBlock json (text "SpanId")
    (text "evenscribe(log): SpanId is either missing or not a string\n")
    (fun _ => traceId) (fun log value => { log with traceId := value }) log
  let log ← numberBlock json (text "TraceFlags")
    (text "evenscribe(log): TraceFlags is either missing or not an integer\n")
    (fun log number => { log with traceFlags := target.toUInt32 number }) log
  let log ← stringBlock json (text "SeverityText")
    (text "evenscribe(log): SeverityText is either missing or not a string\n")
    (fun _ => traceId) (fun log value => { log with severityText := value }) log
  let log ← numberBlock json (text "SeverityNumber")
    (text "evenscribe(log): SeverityNumber is either missing or not an integer\n")
    (fun log number => { log with severityNumber := target.toInt32 number }) log
  let log ← stringBlock json (text "ServiceName")
    (text "evenscribe(log): ServiceName is either missing or not a string\n")
    (fun _ => traceId) (fun log value => { log with serviceName := value }) log
  let log ← stringBlock json (text "Body")
    (text "evenscribe(log): Body is either missing or not a string\n")
    (fun _ => traceId) (fun log value => { log with body := value }) log
  let log ← attributesBlock json (text "ResourceAttributes")
    (text "evenscribe(log): ResourceAttributes is either missing or not an object\n")
    (text "evenscribe(log): resource attribute key-value is or not a string\n")
    (fun log key value =>
      { log with resourceAttributes := log.resourceAttributes.insert key value }) log
  attributesBlock json (text "LogAttributes")
    (text "evenscribe(log): LogAttributes is either missing or not an object\n")
    (text "evenscribe(log): Log attribute key-value is not a string\n")
    (fun log key value => { log with logAttributes := log.logAttributes.insert key value }) log

/-- What `serialize` returns, and the formats it passes to `warn`. -/
structure Outcome where
  log : Log
  warnings : List Text

/-- What follows from the outcome of the blocks. -/
def outcome : Except Rejection Log → Outcome
  | .ok log => ⟨log, []⟩
  | .error rejection => ⟨rejection.log, [rejection.warning]⟩

/-- `Serializer::serialize` on a buffer of `BUFFER_SIZE` bytes. -/
def serialize (target : Target) (source : Text) : Outcome :=
  match parseWithLength (source.take bufferSize) with
  | none =>
      ⟨{ initial with isVaild := false },
        [text "evenscribe(log): invalid json received\n", cString source ++ text "\n"]⟩
  | some json => outcome (readLog target json)

end Serializer

end Evenscribe
