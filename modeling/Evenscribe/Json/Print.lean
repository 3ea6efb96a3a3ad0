import Evenscribe.Json.NumberText
import Evenscribe.Foundation.Memory

/-!
# The cJSON printer

A tree is printed into a buffer that is made larger where its hooks allow that. Every
place of the source first asks for room (`ensure`), then writes at the offset, and
leaves it to `update_offset` to find the end of what was written where it does not move
the offset itself. Hooks may refuse any call. What a print that fails leaves in the
buffer is left out.
-/

namespace Evenscribe.CJSON

/-- Why a function of the printer does not succeed. -/
inductive PrintError where
  /-- It returns false or a null pointer. -/
  | refused
  /-- It accesses memory outside its buffer. -/
  | outOfBounds
  deriving DecidableEq

/-- `internal_hooks`: what the memory that a call hands out for a size holds, or that the
call is refused, and whether memory can be reallocated. Calls are numbered. -/
structure Hooks where
  allocate : ℕ → ℕ → Option Text
  length_allocate : ∀ {call size memory}, allocate call size = some memory → memory.length = size
  reallocate : Bool

namespace Hooks

/-- No call is refused. -/
def Generous (hooks : Hooks) : Prop := ∀ call size, hooks.allocate call size ≠ none

/-- The result is the expected one, or a null pointer since the hooks refuse some call. -/
def Settle (hooks : Hooks) {α : Type} (expected result : Except PrintError α) : Prop :=
  result = expected ∨ ¬ hooks.Generous ∧ result = .error .refused

/-- Hooks that hand out zeros in the calls that they grant. -/
def zeroed (granted : ℕ → Bool) (reallocate : Bool) : Hooks where
  allocate call size := if granted call then some (List.replicate size 0) else none
  length_allocate handed := by
    obtain ⟨_, equal⟩ := Option.ite_none_right_eq_some.mp handed
    exact Option.some.inj equal ▸ List.length_replicate
  reallocate := reallocate

/-- Hooks that grant every call refuse none. -/
theorem generous_zeroed (reallocate : Bool) : (zeroed (fun _ => true) reallocate).Generous :=
  fun _ _ absent => by simp [zeroed] at absent

end Hooks

/-- `printbuffer`. Its `length` is that of the memory, and the calls to its hooks are
counted. -/
structure PrintBuffer where
  buffer : Text
  offset : ℕ := 0
  depth : ℕ := 0
  noalloc : Bool
  format : Bool
  hooks : Hooks
  calls : ℕ := 0

namespace PrintBuffer

/-- The allocation of a larger buffer in `ensure`. Without `reallocate` the bytes up to
the offset are copied, and one more. -/
def grow (newsize : ℕ) (p : PrintBuffer) : Except PrintError PrintBuffer :=
  match p.hooks.allocate p.calls newsize with
  | none => .error .refused
  | some fresh =>
      let reallocated := p.buffer ++ fresh.drop p.buffer.length
      let copied := p.buffer.take (p.offset + 1) ++ fresh.drop (p.offset + 1)
      if p.hooks.reallocate then .ok { p with buffer := reallocated, calls := p.calls + 1 }
      else if p.buffer.length < p.offset + 1 then .error .outOfBounds
      else .ok { p with buffer := copied, calls := p.calls + 1 }

/-- `ensure`. -/
def ensure (needed : ℕ) (p : PrintBuffer) : Except PrintError PrintBuffer :=
  if 0 < p.buffer.length ∧ p.buffer.length ≤ p.offset then .error .refused
  else if intMax < needed then .error .refused
  else
    let needed := needed + p.offset + 1
    if needed ≤ p.buffer.length then .ok p
    else if p.noalloc then .error .refused
    else if intMax / 2 < needed then
      if needed ≤ intMax then p.grow intMax.toNat else .error .refused
    else p.grow (needed * 2)

/-- A buffer of a size from the hooks, as `print` and `cJSON_PrintBuffered` start with. -/
def allocated (size : ℕ) (format : Bool) (hooks : Hooks) : Except PrintError PrintBuffer :=
  match hooks.allocate 0 size with
  | none => .error .refused
  | some buffer =>
      .ok { buffer := buffer, noalloc := false, format := format, hooks := hooks, calls := 1 }

/-- The buffer of `cJSON_PrintPreallocated`. -/
def preallocated (buffer : Text) (format : Bool) (hooks : Hooks) : PrintBuffer where
  buffer := buffer
  noalloc := true
  format := format
  hooks := hooks

/-- Bytes written so many places behind the offset. -/
def write (behind : ℕ) (bytes : Text) (p : PrintBuffer) : Except PrintError PrintBuffer :=
  match Memory.store p.buffer (p.offset + behind) bytes with
  | none => .error .outOfBounds
  | some buffer => .ok { p with buffer := buffer }

/-- `update_offset`: the offset moves to the next NUL. -/
def updateOffset (p : PrintBuffer) : Except PrintError PrintBuffer :=
  match Memory.extent 0 p.buffer p.offset with
  | none => .error .outOfBounds
  | some length => .ok { p with offset := p.offset + length }

/-- Room asked for, bytes written there, and the offset moved. -/
def put (needed : ℕ) (bytes : Text) (moved : ℕ) (p : PrintBuffer) :
    Except PrintError PrintBuffer := do
  let p ← p.ensure needed
  let p ← p.write 0 bytes
  return { p with offset := p.offset + moved }

/-- The comma that `print_array` writes behind an element with a next one. -/
def putComma (next : List CJSON) (p : PrintBuffer) : Except PrintError PrintBuffer :=
  let comma := if p.format then text ", " else text ","
  if next = [] then .ok p else p.put (comma.length + 1) (comma ++ [0]) comma.length

/-- The tabs that `print_object` writes in front of a member. -/
def putTabs (p : PrintBuffer) : Except PrintError PrintBuffer :=
  if p.format then p.put p.depth (List.replicate p.depth 9) p.depth else .ok p

end PrintBuffer

open PrintBuffer

/-- What a byte is printed as in a string. -/
def escaped (byte : UInt8) : Text :=
  if 31 < byte ∧ byte ≠ doubleQuote ∧ byte ≠ backslash then [byte]
  else
    backslash ::
      match byte with
      | 92 => text "\\"
      | 34 => text "\""
      | 8 => text "b"
      | 12 => text "f"
      | 10 => text "n"
      | 13 => text "r"
      | 9 => text "t"
      | _ =>
          text "u00" ++ [48 + byte / 16, if byte % 16 < 10 then 48 + byte % 16 else 87 + byte % 16]

/-- The additional characters counted for a byte. -/
def escapeCharacters (byte : UInt8) : ℕ :=
  if [34, 92, 8, 12, 10, 13, 9].contains byte then 1 else if byte < 32 then 5 else 0

/-- `print_string_ptr`. -/
def printStringPtr : Option Text → PrintBuffer → Except PrintError PrintBuffer
  | none, p => p.put 3 (text "\"\"" ++ [0]) 0
  | some input, p => do
      let escapes := (input.map escapeCharacters).sum
      let outputLength := input.length + escapes
      let p ← p.ensure (outputLength + 3)
      let p ←
        if escapes = 0 then p.write 0 (doubleQuote :: input)
        else p.write 0 (doubleQuote :: input.flatMap escaped)
      p.write (outputLength + 1) [doubleQuote, 0]

/-- `print_number`. -/
def printNumber (number : Double) (p : PrintBuffer) : Except PrintError PrintBuffer :=
  let written := numberText number
  if 25 < written.length then .error .refused
  else p.put (written.length + 1) (written ++ [0]) written.length

mutual

/-- `print_value`. -/
def printValue : CJSON → PrintBuffer → Except PrintError PrintBuffer
  | ⟨kind, valuestring, valuedouble, _, child⟩, p =>
      match kind with
      | .null => p.put 5 (text "null" ++ [0]) 0
      | .false => p.put 6 (text "false" ++ [0]) 0
      | .true => p.put 5 (text "true" ++ [0]) 0
      | .number => printNumber valuedouble p
      | .raw =>
          match valuestring with
          | none => .error .refused
          | some raw => p.put (raw.length + 1) (raw ++ [0]) 0
      | .string => printStringPtr valuestring p
      -- print_array
      | .array => do
          let p ← p.put 1 (text "[") 1
          let p ← printElements child { p with depth := p.depth + 1 }
          let p ← p.put 2 (text "]" ++ [0]) 0
          return { p with depth := p.depth - 1 }
      -- print_object
      | .object => do
          let opening := if p.format then text "\x7b\n" else text "\x7b"
          let p ← p.put (opening.length + 1) opening opening.length
          let p ← printMembers child { p with depth := p.depth + 1 }
          let p ← p.put (if p.format then p.depth + 1 else 2)
            ((if p.format then List.replicate (p.depth - 1) 9 else []) ++ text "\x7d" ++ [0]) 0
          return { p with depth := p.depth - 1 }
      | .invalid => .error .refused

/-- The loop of `print_array`. -/
def printElements : List CJSON → PrintBuffer → Except PrintError PrintBuffer
  | [], p => .ok p
  | current :: next, p => do
      let p ← printValue current p
      let p ← p.updateOffset
      let p ← p.putComma next
      printElements next p

/-- The loop of `print_object`. -/
def printMembers : List CJSON → PrintBuffer → Except PrintError PrintBuffer
  | [], p => .ok p
  | current :: next, p => do
      let p ← p.putTabs
      let p ← printStringPtr current.string p
      let p ← p.updateOffset
      let colon := if p.format then text ":\t" else text ":"
      let p ← p.put colon.length colon colon.length
      let p ← printValue current p
      let p ← p.updateOffset
      let comma := (if next = [] then [] else text ",") ++ if p.format then text "\n" else []
      let p ← p.put (comma.length + 1) (comma ++ [0]) comma.length
      printMembers next p

end

/-- `print`, which leaves the text in memory of its own size: the buffer made smaller, or
memory allocated for it. -/
def print (item : CJSON) (format : Bool) (hooks : Hooks) : Except PrintError Text := do
  let buffer ← allocated 256 format hooks
  let buffer ← printValue item buffer
  let buffer ← buffer.updateOffset
  match hooks.allocate buffer.calls (buffer.offset + 1) with
  | none => .error .refused
  | some printed =>
      if hooks.reallocate then
        return buffer.buffer.take (buffer.offset + 1) ++ printed.drop buffer.buffer.length
      let copied := min buffer.buffer.length (buffer.offset + 1)
      match Memory.store (buffer.buffer.take copied ++ printed.drop copied) buffer.offset [0] with
      | none => .error .outOfBounds
      | some printed => .ok printed

/-- `cJSON_Print`, with the hooks that `global_hooks` holds. -/
def cJSONPrint (item : CJSON) (hooks : Hooks) : Except PrintError Text := print item true hooks

/-- `cJSON_PrintUnformatted`. -/
def printUnformatted (item : CJSON) (hooks : Hooks) : Except PrintError Text :=
  print item false hooks

/-- `cJSON_PrintBuffered`. -/
def printBuffered (item : CJSON) (prebuffer : ℤ) (format : Bool) (hooks : Hooks) :
    Except PrintError Text :=
  if prebuffer < 0 then .error .refused
  else do
    let p ← allocated prebuffer.toNat format hooks
    let p ← printValue item p
    return p.buffer

/-- `cJSON_PrintPreallocated` with memory of at least the length it is told, or a null
pointer. What lies behind that length counts as outside the buffer. -/
def printPreallocated (item : CJSON) (buffer : Option Text) (length : ℤ) (format : Bool)
    (hooks : Hooks) : Except PrintError Text :=
  match buffer with
  | none => .error .refused
  | some buffer =>
      if length < 0 then .error .refused
      else do
        let p ← printValue item (preallocated (buffer.take length.toNat) format hooks)
        return p.buffer ++ buffer.drop length.toNat

end Evenscribe.CJSON
