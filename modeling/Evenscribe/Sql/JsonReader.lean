import Evenscribe.Sql.Written

/-!
# JSON objects of strings

The grammar of JSON for an object whose members are strings, read strictly: no
control character inside a string, no unknown escape, no lone surrogate, nothing
after the object.
-/

namespace Evenscribe.Sql

open Reading

/-- The blanks of JSON. -/
def isJsonBlank (byte : UInt8) : Bool := decide (byte = 32 ∨ byte = 9 ∨ byte = 10 ∨ byte = 13)

/-- The byte that a one-letter escape stands for. -/
def letterEscape (letter : UInt8) : Option UInt8 :=
  if letter = doubleQuote ∨ letter = backslash ∨ letter = 47 then some letter
  else if letter = 98 then some 8
  else if letter = 102 then some 12
  else if letter = 110 then some 10
  else if letter = 114 then some 13
  else if letter = 116 then some 9
  else none

/-- The value of a hexadecimal digit of either case. -/
def hexValue (digit : UInt8) : Option ℕ :=
  if 48 ≤ digit ∧ digit ≤ 57 then some (digit.toNat - 48)
  else if 65 ≤ digit ∧ digit ≤ 70 then some (digit.toNat - 55)
  else if 97 ≤ digit ∧ digit ≤ 102 then some (digit.toNat - 87)
  else none

/-- A number of hexadecimal digits after those that gave the value so far. -/
def readHex : ℕ → ℕ → Reader UInt8 ℕ
  | 0, value, input => some (value, input)
  | _ + 1, _, [] => none
  | digits + 1, value, first :: rest =>
      match hexValue first with
      | none => none
      | some digit => readHex digits (16 * value + digit) rest

/-- One UTF-16 unit. -/
def readUnit : Reader UInt8 ℕ := readHex 4 0

/-- The bytes of a scalar value. -/
def utf8 (scalar : ℕ) : Text := String.utf8EncodeChar (Char.ofNat scalar)

/-- What follows `\u`: a unit that is a scalar value, or a surrogate pair. -/
def readScalar : Reader UInt8 Text := fun input =>
  match readUnit input with
  | none => none
  | some (unit, rest) =>
      if unit < 0xD800 ∨ 0xDFFF < unit then some (utf8 unit, rest)
      else if 0xDBFF < unit then none
      else
        match exactly [backslash, 117] rest with
        | none => none
        | some rest =>
            match readUnit rest with
            | none => none
            | some (low, rest) =>
                if 0xDC00 ≤ low ∧ low ≤ 0xDFFF then
                  some (utf8 (0x10000 + (unit - 0xD800) * 0x400 + (low - 0xDC00)), rest)
                else none

/-- One character of a string, an escape or a byte as it is. -/
def readCharacter : Reader UInt8 Text
  | [] => none
  | byte :: rest =>
      if byte = backslash then
        match rest with
        | [] => none
        | letter :: rest =>
            if letter = 117 then readScalar rest
            else (letterEscape letter).map fun escaped => ([escaped], rest)
      else if byte = doubleQuote ∨ byte < 32 then none
      else some ([byte], rest)

/-- The closing or opening quote of a string. -/
def stringMark : Marker UInt8 := exactly [doubleQuote]

/-- A string of JSON. -/
def readJsonString : Reader UInt8 Text := fun input =>
  match stringMark input with
  | none => none
  | some rest =>
      (upTo readCharacter stringMark (rest.length + 1) rest).map fun read =>
        (read.1.flatten, read.2)

/-- The members of an object of strings. -/
def readMembers : Reader UInt8 (List (Text × Text)) :=
  listed (paired readJsonString (token isJsonBlank 58) readJsonString) (token isJsonBlank 44)
    (token isJsonBlank 125)

/-- The members of an object that is the whole text, in order. -/
def readJsonObject (input : Text) : Option (List (Text × Text)) :=
  match bracketed (token isJsonBlank 123) readMembers (token isJsonBlank 125) input with
  | some (members, []) => some members
  | _ => none

/-- A string that stands for itself between quotes: no quote, no backslash, no
control character. -/
def Verbatim (content : Text) : Prop :=
  ∀ byte ∈ content, byte ≠ doubleQuote ∧ byte ≠ backslash ∧ 32 ≤ byte

instance (content : Text) : Decidable (Verbatim content) :=
  List.decidableBAll (fun byte => byte ≠ doubleQuote ∧ byte ≠ backslash ∧ 32 ≤ byte) content

example : readJsonObject (text " \x7b\"a\" : \"\\u00e9\\n\\ud83d\\ude00\"\x7d ") =
    some [(text "a", [0xC3, 0xA9, 10, 0xF0, 0x9F, 0x98, 0x80])] := by
  decide +kernel

end Evenscribe.Sql
