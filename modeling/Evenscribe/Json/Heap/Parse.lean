import Evenscribe.Json.Heap.Node
import Evenscribe.Json.Parse

/-!
# The cJSON parser in memory

The parse functions with the nodes they allocate, link and fill. What they make of
the text itself is as in `Evenscribe.CJSON.parseValue`: a function returns the text
that is left where the source returns true, and nothing where it returns false.
-/

namespace Evenscribe.CJSON.Heap

open Allocation

/-- `skipped_bytes`: the backslashes that the first loop of `parse_string` passes over
together with the byte behind them. -/
def skippedBytes : Bool → Text → ℕ
  | _, [] => 0
  | escaped, byte :: rest =>
      (if !escaped && byte = backslash then 1 else 0) +
        skippedBytes (!escaped && byte = backslash) rest

/-- The second loop of `parse_string`: how many bytes it has written when it comes to the
end of the literal. -/
def writeLiteral (output : Pointer) : ℕ → ℕ → Text → Action Cell (Option ℕ)
  | _, written, [] => return some written
  | passed + 1, written, _ :: rest => writeLiteral output passed written rest
  | 0, written, byte :: rest =>
      if byte ≠ backslash then do
        writeBytes output written [byte]
        writeLiteral output 0 (written + 1) rest
      else
        match escapeSequence (byte :: rest) with
        | none => return none
        | some (bytes, length) => do
            writeBytes output written bytes
            writeLiteral output (length - 1) (written + bytes.length) rest

/-- `parse_string`: the output is allocated for the literal and given back on a bad escape. -/
def parseString (hooks : Malloc) (item : Item) (buffer : Text) : Action Cell (Option Text) :=
  match buffer with
  | [] => return none
  | first :: rest =>
      if first ≠ doubleQuote then return none
      else
        match scanLiteral false rest with
        | none => return none
        | some (literal, after) => do
            let allocationLength := literal.length + 1 - skippedBytes false literal
            match ← newBlock hooks (allocationLength + 1) with
            | none => return none
            | some output =>
                match ← writeLiteral output 0 0 literal with
                | none =>
                    release output
                    return none
                | some written =>
                    writeBytes output written [0]
                    modifyNode item fun node => { node.setType .string with valuestring := output }
                    return some after

/-- `parse_number`: the item gets the number and its `valueint`. -/
def parseNumber (item : Item) (buffer : Text) : Action Cell (Option Text) :=
  match strtod (numberCString buffer) with
  | none => return none
  | some (number, afterEnd) => do
      modifyNode item fun node =>
        { node.setType .number with valuedouble := number, valueint := CJSON.valueint number }
      return some (buffer.drop ((numberCString buffer).length - afterEnd.length))

/-- A new item behind the last one of the list, or as its head. -/
def attach (head currentItem : Item) (item : ℕ) : Action Cell Item :=
  match head with
  | none => return some item
  | some _ => do
      modifyNode currentItem fun node => { node with next := item }
      modifyNode item fun node => { node with prev := currentItem }
      return head

/-- The loop of `parse_array` and `parse_object` with the test for the closing bracket
behind it: the text after the bracket, `head` and `current_item`. -/
def Malloc.parseEntries (hooks : Malloc) (closing : UInt8)
    (entry : Item → Text → Action Cell (Option Text)) (head currentItem : Item) (buffer : Text) :
    Action Cell (Option Text × Item × Item) := do
  match ← newItem hooks with
  | none => return (none, head, currentItem)
  | some item =>
      let head ← attach head currentItem item
      match ← entry item buffer with
      | none => return (none, head, item)
      | some rest =>
          match bufferSkipWhitespace rest with
          | [] => return (none, head, item)
          | mark :: after =>
              if mark = 44 then hooks |>.parseEntries closing entry head item after
              else return (if mark = closing then some after else none, head, item)
partial_fixpoint

/-- What `parse_array` and `parse_object` share. -/
def parseContainer (hooks : Malloc) (kind : Kind) (opening closing : UInt8)
    (entry : Item → Text → Action Cell (Option Text)) (item : Item) (buffer : Text) :
    Action Cell (Option Text) :=
  match buffer with
  | [] => return none
  | first :: rest =>
      if first ≠ opening then return none
      else
        match bufferSkipWhitespace rest with
        | [] => return none
        | next :: after =>
            if next = closing then do
              modifyNode item fun node => { node.setType kind with child := none }
              return some after
            else do
              let (result, head, currentItem) ←
                hooks.parseEntries closing entry none none (next :: after)
              match result with
              | none =>
                  head.delete
                  return none
              | some after =>
                  modifyNode head fun node => { node with prev := currentItem }
                  modifyNode item fun node => { node.setType kind with child := head }
                  return some after

/-- An element of an array, after the bracket or comma. -/
def parseElement (value : Item → Text → Action Cell (Option Text)) (item : Item)
    (buffer : Text) : Action Cell (Option Text) :=
  value item (bufferSkipWhitespace buffer)

/-- A member's value, after its name. -/
def parseMemberValue (value : Item → Text → Action Cell (Option Text)) (item : Item)
    (buffer : Text) : Action Cell (Option Text) :=
  match bufferSkipWhitespace buffer with
  | [] => return none
  | mark :: rest => if mark ≠ 58 then return none else value item (bufferSkipWhitespace rest)

/-- A member of an object, after the brace or comma. Its name is parsed as a value first. -/
def parseMember (hooks : Malloc) (value : Item → Text → Action Cell (Option Text))
    (item : Item) (buffer : Text) : Action Cell (Option Text) :=
  match buffer with
  | [] => return none
  | first :: rest => do
      match ← parseString hooks item (bufferSkipWhitespace (first :: rest)) with
      | none => return none
      | some after =>
          modifyNode item fun node => { node with string := node.valuestring, valuestring := none }
          parseMemberValue value item after

/-- `parse_array`. -/
def parseArray (hooks : Malloc) (value : Item → Text → Action Cell (Option Text)) :
    Item → Text → Action Cell (Option Text) :=
  parseContainer hooks .array 91 93 (parseElement value)

/-- `parse_object`. -/
def parseObject (hooks : Malloc) (value : Item → Text → Action Cell (Option Text)) :
    Item → Text → Action Cell (Option Text) :=
  parseContainer hooks .object 123 125 (parseMember hooks value)

/-- `valueint` as `parse_value` sets it for a word. -/
def Node.setWord (kind : Kind) (node : Node) : Node :=
  { node.setType kind with valueint := if kind = .true then 1 else node.valueint }

/-- The body of `parse_value`; `nested` parses the values one level down and is
missing at the nesting limit. -/
def parseValueWith (hooks : Malloc) (nested : Option (Item → Text → Action Cell (Option Text)))
    (item : Item) (buffer : Text) : Action Cell (Option Text) :=
  match words.find? fun word => word.1 <+: buffer with
  | some (word, kind) => do
      modifyNode item (Node.setWord kind)
      return some (buffer.drop word.length)
  | none =>
      match buffer with
      | [] => return none
      | first :: rest =>
          if first = doubleQuote then parseString hooks item (first :: rest)
          else if first = 45 ∨ isDigit first then parseNumber item (first :: rest)
          else if first = 91 then
            match nested with
            | none => return none
            | some value => parseArray hooks value item (first :: rest)
          else if first = 123 then
            match nested with
            | none => return none
            | some value => parseObject hooks value item (first :: rest)
          else return none

/-- `parse_value` with the number of levels that may still be opened. -/
def parseValue (hooks : Malloc) : ℕ → Item → Text → Action Cell (Option Text)
  | 0 => parseValueWith hooks none
  | levels + 1 => parseValueWith hooks (some (parseValue hooks levels))

/-- `cJSON_ParseWithLength`. -/
def parseWithLength (hooks : Malloc) (buffer : Text) : Action Cell Item := do
  if buffer = [] then return none
  else
    match ← newItem hooks with
    | none => return none
    | some item =>
        match ← parseValue hooks nestingLimit item (bufferSkipWhitespace (skipUtf8Bom buffer)) with
        | none =>
            Item.delete item
            return none
        | some _ => return item

/-- `cJSON_Parse`: the string and its terminator are parsed. -/
def parse (hooks : Malloc) (value : Text) : Action Cell Item :=
  parseWithLength hooks (cString value ++ [0])

end Evenscribe.CJSON.Heap
