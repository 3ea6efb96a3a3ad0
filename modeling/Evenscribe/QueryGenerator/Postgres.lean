import Evenscribe.QueryGenerator.Basic

/-!
# The PostgreSQL query generator
-/

namespace Evenscribe.PostgresQueryGenerator

/-- `unorderedMapToString`: keys and values in double quotes, the object in single ones. -/
def unorderedMapToString (map : Attributes) : Text :=
  text "'\x7b" ++ writeEntries (text "\"") true map.entries ++ text "\x7d'"

/-- `getValues`: the ten columns in their order. Nothing in a string is escaped. -/
def getValues (entry : Log) : Text :=
  commaSeparate [
    between (text "to_timestamp(") (stdToString entry.timestamp.toNat) (text ")"),
    wrap entry.traceId (text "'"),
    wrap entry.spanId (text "'"),
    stdToString entry.traceFlags.toNat,
    wrap entry.severityText (text "'"),
    stdToString entry.severityNumber.toInt,
    wrap entry.serviceName (text "'"),
    wrap entry.body (text "'"),
    unorderedMapToString entry.resourceAttributes,
    unorderedMapToString entry.logAttributes]

/-- `create_subquery`: one record as a tuple. -/
def createSubquery (log : Log) : Text := bracketValues (getValues log)

/-- `create_query`: the insert of a bucket of tuples. -/
def createQuery (bucket : List Text) : Text := insertQuery bucket

end Evenscribe.PostgresQueryGenerator
