import Evenscribe.Text
import Mathlib.Data.List.AList

/-!
# Log records
-/

namespace Evenscribe

/-- A `std::unordered_map<std::string, std::string>` with the order in which its
iterators visit it. The standard fixes no order, so results about generated text
are stated for every one. -/
abbrev Attributes := AList fun _ : Text => Text

/-- The record a message is turned into. -/
structure Log where
  timestamp : UInt32
  traceId : Text
  spanId : Text
  traceFlags : UInt32
  severityText : Text
  severityNumber : Int32
  serviceName : Text
  body : Text
  resourceAttributes : Attributes
  logAttributes : Attributes
  isVaild : Bool

namespace Log

/-- The scalar strings of a record, in column order. -/
def strings (log : Log) : List Text :=
  [log.traceId, log.spanId, log.severityText, log.serviceName, log.body]

/-- A record with nothing in it but its body. -/
def ofBody (body : Text) : Log :=
  ⟨0, [], [], 0, [], 0, [], body, ∅, ∅, true⟩

/-- A record with numbers, two resource attributes and one log attribute beside
its body. -/
def tagged (body : Text) : Log :=
  { ofBody body with
    timestamp := 1
    severityNumber := -1
    resourceAttributes :=
      (AList.singleton (text "host") (text "a")).insert (text "zone") (text "b")
    logAttributes := AList.singleton (text "size") (text "27") }

end Log

/-- The key and value pairs of a map, in iteration order. -/
def Attributes.pairs (map : Attributes) : List (Text × Text) :=
  map.entries.map fun entry => (entry.1, entry.2)

end Evenscribe
