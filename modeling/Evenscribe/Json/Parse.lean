import Evenscribe.Json.Tree
import Evenscribe.Foundation.Locality

/-!
# The cJSON parser

A parse buffer is the list of its bytes from the offset to the length, so that a
parse function returns what is left of it. `CJSON_NESTING_LIMIT` less the depth
is the number of levels that may still be opened. Failed allocations are left
out.
-/

namespace Evenscribe.CJSON

open Reading

/-- `CJSON_NESTING_LIMIT`. -/
def nestingLimit : ℕ := 1000

/-- `skip_utf8_bom`. A mark at the start of fewer than five bytes is not skipped. -/
def skipUtf8Bom (buffer : Text) : Text :=
  if 4 < buffer.length ∧ [0xEF, 0xBB, 0xBF] <+: buffer then buffer.drop 3 else buffer

/-- `buffer_skip_whitespace`. When blanks run to the end of the buffer, the offset
steps back to the last of them. -/
def bufferSkipWhitespace (buffer : Text) : Text :=
  match buffer.dropWhile (· ≤ 32) with
  | [] => buffer.drop (buffer.length - 1)
  | first :: rest => first :: rest

/-- The bytes that `parse_number` copies for `strtod`. -/
def isNumberByte (byte : UInt8) : Bool := isDigit byte || (text "+-eE.").contains byte

/-- `number_c_string`. -/
def numberCString (buffer : Text) : Text := (buffer.takeWhile isNumberByte).take 63

/-- `parse_number`: the number in front of the buffer. -/
def parseNumber : Reader UInt8 CJSON := fun buffer =>
  match strtod (numberCString buffer) with
  | none => none
  | some (number, afterEnd) =>
      some ({ kind := .number, valuedouble := number },
        buffer.drop ((numberCString buffer).length - afterEnd.length))

/-- The value of a hexadecimal digit. -/
def hexDigit (byte : UInt8) : Option ℕ :=
  if 48 ≤ byte ∧ byte ≤ 57 then some (byte.toNat - 48)
  else if 65 ≤ byte ∧ byte ≤ 70 then some (10 + byte.toNat - 65)
  else if 97 ≤ byte ∧ byte ≤ 102 then some (10 + byte.toNat - 97)
  else none

/-- `parse_hex4`: a byte that is no digit makes the whole number zero. -/
def parseHex4 (input : Text) : ℕ :=
  match (input.take 4).mapM hexDigit with
  | none => 0
  | some digits => digits.foldl (fun h digit => (h <<< 4) + digit) 0

/-- The bytes of a codepoint in UTF-8, the last ones first in the source. -/
def encodeUtf8 (codepoint : ℕ) : Option Text :=
  let continuation (shift : ℕ) : UInt8 := (((codepoint >>> shift) ||| 0x80) &&& 0xBF).toUInt8
  let leading (shift mark : ℕ) : UInt8 := (((codepoint >>> shift) ||| mark) &&& 0xFF).toUInt8
  if codepoint < 0x80 then some [(codepoint &&& 0x7F).toUInt8]
  else if codepoint < 0x800 then some [leading 6 0xC0, continuation 0]
  else if codepoint < 0x10000 then some [leading 12 0xE0, continuation 6, continuation 0]
  else if codepoint ≤ 0x10FFFF then
    some [leading 18 0xF0, continuation 12, continuation 6, continuation 0]
  else none

/-- `utf16_literal_to_utf8`: the bytes written and the length of the literal. -/
def utf16LiteralToUtf8 (input : Text) : Option (Text × ℕ) :=
  if input.length < 6 then none
  else
    let firstCode := parseHex4 (input.drop 2)
    if 0xDC00 ≤ firstCode ∧ firstCode ≤ 0xDFFF then none
    else if 0xD800 ≤ firstCode ∧ firstCode ≤ 0xDBFF then
      let secondSequence := input.drop 6
      if secondSequence.length < 6 then none
      else if secondSequence.take 2 ≠ [backslash, 117] then none
      else
        let secondCode := parseHex4 (secondSequence.drop 2)
        if secondCode < 0xDC00 ∨ 0xDFFF < secondCode then none
        else
          (encodeUtf8 (0x10000 + (((firstCode &&& 0x3FF) <<< 10) ||| (secondCode &&& 0x3FF)))).map
            fun output => (output, 12)
    else (encodeUtf8 firstCode).map fun output => (output, 6)

/-- The escape sequence in front of the rest of a literal: what it stands for and
its length. A backslash can only be the last byte of a literal when the `\u` in
front of it took half of an escape for a digit; the byte after it is then the
closing quote. -/
def escapeSequence (input : Text) : Option (Text × ℕ) :=
  match (input.drop 1).headD doubleQuote with
  | 98 => some ([8], 2)
  | 102 => some ([12], 2)
  | 110 => some ([10], 2)
  | 114 => some ([13], 2)
  | 116 => some ([9], 2)
  | 34 => some ([doubleQuote], 2)
  | 92 => some ([backslash], 2)
  | 47 => some ([47], 2)
  | 117 => utf16LiteralToUtf8 input
  | _ => none

/-- The second loop of `parse_string`, which writes the contents of a literal. The
number counts the bytes of an escape sequence that are still to be passed. -/
def decodeLiteral : ℕ → Text → Option Text
  | _, [] => some []
  | passed + 1, _ :: rest => decodeLiteral passed rest
  | 0, byte :: rest =>
      if byte ≠ backslash then (decodeLiteral 0 rest).map fun output => byte :: output
      else
        match escapeSequence (byte :: rest) with
        | none => none
        | some (output, length) =>
            (decodeLiteral (length - 1) rest).map fun later => output ++ later

/-- The first loop of `parse_string`, which looks for the closing quote: the bytes
of the literal and those after the quote. A byte after a backslash is passed over. -/
def scanLiteral : Bool → Text → Option (Text × Text)
  | _, [] => none
  | escaped, byte :: rest =>
      if byte = doubleQuote ∧ escaped = false then some ([], rest)
      else
        (scanLiteral (!escaped && byte = backslash) rest).map fun scanned =>
          (byte :: scanned.1, scanned.2)

/-- `parse_string`: the `valuestring`, which ends at the first NUL written. -/
def parseString : Reader UInt8 Text := fun buffer =>
  match buffer with
  | [] => none
  | first :: rest =>
      if first ≠ doubleQuote then none
      else
        match scanLiteral false rest with
        | none => none
        | some (literal, after) =>
            (decodeLiteral 0 literal).map fun output => (cString output, after)

/-- What `parse_array` and `parse_object` share: entries with commas between them
up to the closing bracket. -/
def parseContainer (kind : Kind) (opening closing : UInt8) (entry : Reader UInt8 CJSON) :
    Reader UInt8 CJSON := fun buffer =>
  match buffer with
  | [] => none
  | first :: rest =>
      if first ≠ opening then none
      else
        match bufferSkipWhitespace rest with
        | [] => none
        | next :: after =>
            if next = closing then some ({ kind := kind }, after)
            else
              (delimited bufferSkipWhitespace entry 44 closing (after.length + 1)
                (next :: after)).map fun read => ({ kind := kind, child := read.1 }, read.2)

/-- An element of an array, after the bracket or comma. -/
def parseElement (value : Reader UInt8 CJSON) : Reader UInt8 CJSON := fun buffer =>
  value (bufferSkipWhitespace buffer)

/-- A member's value, after its name. -/
def parseMemberValue (value : Reader UInt8 CJSON) : Reader UInt8 CJSON := fun buffer =>
  match bufferSkipWhitespace buffer with
  | [] => none
  | mark :: rest => if mark ≠ 58 then none else value (bufferSkipWhitespace rest)

/-- A member of an object, after the brace or comma. -/
def parseMember (value : Reader UInt8 CJSON) : Reader UInt8 CJSON := fun buffer =>
  match buffer with
  | [] => none
  | first :: rest =>
      match parseString (bufferSkipWhitespace (first :: rest)) with
      | none => none
      | some (name, after) =>
          (parseMemberValue value after).map fun read =>
            ({ read.1 with string := some name }, read.2)

/-- `parse_array`: elements between square brackets. -/
def parseArray (value : Reader UInt8 CJSON) : Reader UInt8 CJSON :=
  parseContainer .array 91 93 (parseElement value)

/-- `parse_object`: members between braces. -/
def parseObject (value : Reader UInt8 CJSON) : Reader UInt8 CJSON :=
  parseContainer .object 123 125 (parseMember value)

/-- The literals `null`, `false` and `true`. -/
def words : List (Text × Kind) :=
  [(text "null", .null), (text "false", .false), (text "true", .true)]

/-- The body of `parse_value`; `nested` parses the values one level down and is
missing at the nesting limit. -/
def parseValueWith (nested : Option (Reader UInt8 CJSON)) : Reader UInt8 CJSON := fun buffer =>
  match words.find? fun word => word.1 <+: buffer with
  | some (word, kind) => some ({ kind := kind }, buffer.drop word.length)
  | none =>
      match buffer with
      | [] => none
      | first :: rest =>
          if first = doubleQuote then
            (parseString (first :: rest)).map fun read =>
              ({ kind := .string, valuestring := some read.1 }, read.2)
          else if first = 45 ∨ isDigit first then parseNumber (first :: rest)
          else if first = 91 then nested.bind fun value => parseArray value (first :: rest)
          else if first = 123 then nested.bind fun value => parseObject value (first :: rest)
          else none

/-- `parse_value` with the number of levels that may still be opened. -/
def parseValue : ℕ → Reader UInt8 CJSON
  | 0 => parseValueWith none
  | levels + 1 => parseValueWith (some (parseValue levels))

/-- `cJSON_ParseWithLength`. Bytes after the first value are ignored. -/
def parseWithLength (buffer : Text) : Option CJSON :=
  if buffer = [] then none
  else
    (parseValue nestingLimit (bufferSkipWhitespace (skipUtf8Bom buffer))).map Prod.fst

/-- `cJSON_Parse`: the string and its terminator are parsed. -/
def parse (value : Text) : Option CJSON := parseWithLength (cString value ++ [0])

example : (parseWithLength (text "\x7b\"a\": [1, \"\\u0041\\n\"]\x7d ignored")).map
      (fun json => json.child.map fun member =>
        (member.string,
          member.child.map fun element => (element.valuedouble, element.valuestring))) =
    some [(some (text "a"),
      [(.finite 1, none), (.finite 0, some (text "A\n"))])] := by
  decide +kernel

end Evenscribe.CJSON
