import Evenscribe.Json.PrintBuffer

/-!
# The text of a tree

`printedValue` is the text of a tree. `printValue` writes it, with the terminator behind
it, exactly when there is room for it and two bytes more, and never accesses memory
outside its buffer (`prints_printValue`).
-/

namespace Evenscribe.CJSON

open PrintBuffer

/-- The text of a string; a null pointer is printed as the empty one. -/
def stringText (string : Option Text) : Text :=
  [doubleQuote] ++ (string.getD []).flatMap escaped ++ [doubleQuote]

mutual

/-- The text of a value at a depth; nothing for a value that has none. -/
def printedValue (format : Bool) (depth : ℕ) : CJSON → Option Text
  | ⟨kind, valuestring, valuedouble, _, child⟩ =>
      match kind with
      | .null => some (text "null")
      | .false => some (text "false")
      | .true => some (text "true")
      | .number =>
          if 25 < (numberText valuedouble).length then none else some (numberText valuedouble)
      | .raw => valuestring
      | .string => some (stringText valuestring)
      | .array =>
          (printedElements format (depth + 1) child).map fun inner => text "[" ++ inner ++ text "]"
      | .object =>
          (printedMembers format (depth + 1) child).map fun inner =>
            (if format then text "\x7b\n" else text "\x7b") ++ inner ++
              ((if format then List.replicate depth 9 else []) ++ text "\x7d")
      | .invalid => none

/-- The texts of elements with commas between them. -/
def printedElements (format : Bool) (depth : ℕ) : List CJSON → Option Text
  | [] => some []
  | current :: next =>
      (printedValue format depth current).bind fun value =>
        (printedElements format depth next).map fun later =>
          value ++ (if next = [] then [] else if format then text ", " else text ",") ++ later

/-- The texts of members with commas between them, each on a line of its own when
formatted. -/
def printedMembers (format : Bool) (depth : ℕ) : List CJSON → Option Text
  | [] => some []
  | current :: next =>
      (printedValue format depth current).bind fun value =>
        (printedMembers format depth next).map fun later =>
          (if format then List.replicate depth 9 else []) ++ stringText current.string ++
            (if format then text ":\t" else text ":") ++ value ++
            ((if next = [] then [] else text ",") ++ if format then text "\n" else []) ++ later

end

/-- No string of the tree holds a NUL, which would end it. -/
inductive Terminated : CJSON → Prop where
  | intro (node : CJSON) (value : ∀ bytes ∈ node.valuestring, 0 ∉ bytes)
      (key : ∀ bytes ∈ node.string, 0 ∉ bytes)
      (children : ∀ child ∈ node.child, Terminated child) : Terminated node

section Strings

theorem forall_byte {property : UInt8 → Prop}
    (all : ∀ number : Fin 256, property (UInt8.ofFin number)) (byte : UInt8) : property byte :=
  all byte.toFin

/-- The characters counted are those that are written. -/
theorem length_escaped : ∀ byte, (escaped byte).length = 1 + escapeCharacters byte := by
  apply forall_byte
  decide +kernel

/-- A byte that needs no escape is written as it is. -/
theorem escaped_of_none : ∀ byte, escapeCharacters byte = 0 → escaped byte = [byte] := by
  apply forall_byte
  decide +kernel

/-- No escape holds a zero byte. -/
theorem escaped_terminated : ∀ byte, 0 ∉ escaped byte := by
  apply forall_byte
  decide +kernel

/-- Escapes make a string longer by what the first loop counts. -/
theorem length_flatMap_escaped (input : Text) :
    (input.flatMap escaped).length = input.length + (input.map escapeCharacters).sum := by
  induction input with
  | nil => rfl
  | cons byte rest ih =>
      simp only [List.flatMap_cons, List.length_append, length_escaped, ih, List.length_cons,
        List.map_cons, List.sum_cons]
      omega

/-- A string without anything to escape is copied as it is. -/
theorem flatMap_escaped_of_none {input : Text} (none : (input.map escapeCharacters).sum = 0) :
    input.flatMap escaped = input := by
  induction input with
  | nil => rfl
  | cons byte rest ih =>
      rw [List.map_cons, List.sum_cons, Nat.add_eq_zero_iff] at none
      rw [List.flatMap_cons, escaped_of_none byte none.1, ih none.2, List.singleton_append]
variable {p : PrintBuffer} (sound : Sound p)

include sound

/-- The two writes of `print_string_ptr`: the text up to the closing quote, then the
quote where the count of characters has it. -/
theorem prints_quoted {text : Text} :
    Prints p Printed 2 (some ([doubleQuote] ++ text ++ [doubleQuote]))
      (p.ensure (text.length + 3) >>= fun p =>
        p.write 0 (doubleQuote :: text) >>= fun p =>
          p.write (text.length + 1) [doubleQuote, 0]) := by
  have length : ([doubleQuote] ++ text ++ [doubleQuote]).length = text.length + 2 := by simp
  change if p.offset + ([doubleQuote] ++ text ++ [doubleQuote]).length + 2 ≤ p.capacity
    then _ else _
  rw [length]
  by_cases fits : p.offset + (text.length + 3) + 1 ≤ p.capacity
  · rw [if_pos (by omega)]
    obtain ⟨q, ensured, grown⟩ | ⟨may, refused⟩ := ensure_of_fits sound fits
    swap
    · exact .inr ⟨may, by simp only [refused, bind, Except.bind]⟩
    have room := grown.room
    obtain ⟨memory, stored, written⟩ := write_of_grown grown
      (show 0 + (doubleQuote :: text).length ≤ text.length + 3 + 1 by rw [List.length_cons]; omega)
    obtain ⟨size, front, frame⟩ := kept_of_stored grown stored
    have offset := grown.offset
    have closed := Memory.store_eq (show q.offset + (text.length + 1) + [doubleQuote, 0].length ≤
      memory.length by simp only [List.length_cons, List.length_nil]; omega)
    generalize last : memory.take (q.offset + (text.length + 1)) ++ [doubleQuote, 0] ++
      memory.drop (q.offset + (text.length + 1) + [doubleQuote, 0].length) = final at closed
    have grownTo := Memory.length_of_store closed
    refine .inl ⟨{ q with buffer := final }, ?_,
      ⟨grown.depth, grown.noalloc, grown.format, grown.hooks, fun fixed => ?_⟩,
      ⟨[], _, rfl, offset⟩, ?_, ?_, ?_, fun fixed => ?_⟩
    · simp only [ensured, written, bind, Except.bind]
      simp only [write, closed]
    · exact grownTo.trans (frame fixed).1
    · have whole := Memory.take_append_of_store closed
      have start := Memory.take_append_of_store stored
      rw [Nat.add_zero, List.length_cons, grown.front] at start
      rw [offset, start] at whole
      simpa only [length, List.length_append, List.length_cons, List.length_nil, List.append_assoc,
        List.cons_append, List.nil_append, Nat.add_assoc, Nat.zero_add] using whole
    · simp only [grownTo, size, length]
      omega
    · simp only [grownTo, size]
      exact grown.bounded
    · rw [length]
      have beyond := Memory.drop_of_store closed
        (show q.offset + (text.length + 1) + [doubleQuote, 0].length ≤
          p.offset + (text.length + 2) + 1 by
            simp only [List.length_cons, List.length_nil]
            omega)
      rw [show ({ q with buffer := final } : PrintBuffer).buffer = final from rfl, beyond]
      apply (frame fixed).2 _
      simp only [List.length_cons]
      omega
  · rw [if_neg (by omega), ensure_of_not_fits sound fits]
    rfl

/-- The path for strings without anything to escape prints the same text as the other. -/
theorem prints_printStringPtr (string : Option Text) :
    Prints p Printed 2 (some (stringText string)) (printStringPtr string p) := by
  cases string with
  | none =>
      have quotes : stringText none = text "\"\"" := by decide
      rw [quotes]
      exact prints_terminated sound rfl
  | some input =>
      have written : Prints p Printed 2
          (some ([doubleQuote] ++ input.flatMap escaped ++ [doubleQuote])) _ := prints_quoted sound
      rw [length_flatMap_escaped] at written
      unfold printStringPtr
      by_cases none : (input.map escapeCharacters).sum = 0
      · rw [flatMap_escaped_of_none none] at written
        simp only [none, if_true, stringText, Option.getD_some, flatMap_escaped_of_none none]
        rw [none] at written
        exact written
      · simp only [none, if_false]
        exact written

/-- A number that fits its buffer is printed. -/
theorem prints_printNumber (number : Double) :
    Prints p Printed 2
      (if 25 < (numberText number).length then none else some (numberText number))
      (printNumber number p) := by
  unfold printNumber
  by_cases long : 25 < (numberText number).length
  · simp only [if_pos long]
    rfl
  · simp only [if_neg long]
    generalize numberText number = written
    have whole : Prints p Printed 2 (some (written ++ []))
        (p.put (written.length + 1) (written ++ [0]) written.length) :=
      prints_put_printed sound (by rw [List.append_nil]) rfl (by rw [List.append_nil])
    rwa [List.append_nil] at whole

end Strings

section Terminators

theorem terminated_numberText (number : Double) : 0 ∉ numberText number := by
  cases number with
  | infinite _ =>
      change 0 ∉ text "null"
      decide
  | finite value =>
      obtain ⟨numeral, negative, written⟩ := numberText_numeral value
      have marks : ∀ byte ∈ text "+-.e", byte ≠ 0 := by decide +kernel
      have sign : 0 ∉ (if negative then text "-" else []) := by cases negative <;> decide
      rw [written, Numeral.signed, List.mem_append]
      rintro (zero | zero)
      · exact sign zero
      · rcases numeral.written_marks 0 zero with digit | mark
        · exact absurd digit (by decide)
        · exact marks 0 mark rfl

theorem terminated_stringText (string : Option Text) : 0 ∉ stringText string := by
  unfold stringText
  rw [List.mem_append, List.mem_append, List.mem_flatMap]
  rintro ((zero | ⟨byte, _, zero⟩) | zero)
  · exact absurd zero (by decide)
  · exact escaped_terminated byte zero
  · exact absurd zero (by decide)

mutual

/-- Nothing that is printed holds a NUL. -/
theorem terminated_printedValue (format : Bool) (depth : ℕ) (item : CJSON)
    (terminated : Terminated item) : ∀ out ∈ printedValue format depth item, 0 ∉ out := by
  intro out printed
  obtain ⟨kind, valuestring, valuedouble, string, child⟩ := item
  obtain ⟨_, value, _, children⟩ := terminated
  cases kind with
  | invalid => simp [printedValue] at printed
  | null | false | true =>
      simp only [printedValue, Option.mem_some_iff] at printed
      subst printed
      decide
  | number =>
      simp only [printedValue] at printed
      split at printed
      · simp at printed
      · rw [Option.mem_some_iff] at printed
        exact printed ▸ terminated_numberText valuedouble
  | raw =>
      simp only [printedValue] at printed
      exact value out printed
  | string =>
      simp only [printedValue, Option.mem_some_iff] at printed
      exact printed ▸ terminated_stringText valuestring
  | array =>
      simp only [printedValue, Option.mem_def, Option.map_eq_some_iff] at printed
      obtain ⟨inner, elements, rfl⟩ := printed
      have inside := terminated_printedElements format (depth + 1) child children inner elements
      have opening : 0 ∉ text "[" := by decide
      have closing : 0 ∉ text "]" := by decide
      simp [List.mem_append, inside, opening, closing]
  | object =>
      simp only [printedValue, Option.mem_def, Option.map_eq_some_iff] at printed
      obtain ⟨inner, members, rfl⟩ := printed
      have inside := terminated_printedMembers format (depth + 1) child children inner members
      have opening : 0 ∉ (if format then text "\x7b\n" else text "\x7b") := by
        cases format <;> decide
      have tabs : 0 ∉ (if format then List.replicate depth (9 : UInt8) else []) := by
        cases format <;> simp [List.mem_replicate]
      have closing : 0 ∉ text "\x7d" := by decide
      simp [List.mem_append, inside, opening, closing, tabs]

theorem terminated_printedElements (format : Bool) (depth : ℕ) (items : List CJSON)
    (terminated : ∀ item ∈ items, Terminated item) :
    ∀ out ∈ printedElements format depth items, 0 ∉ out := by
  intro out printed
  cases items with
  | nil =>
      obtain rfl : [] = out := by simpa [printedElements] using printed
      exact List.not_mem_nil
  | cons current next =>
      simp only [printedElements, Option.mem_def, Option.bind_eq_some_iff,
        Option.map_eq_some_iff] at printed
      obtain ⟨value, first, later, rest, rfl⟩ := printed
      have inside := terminated_printedValue format depth current
        (terminated current (List.mem_cons_self ..)) value first
      have behind := terminated_printedElements format depth next
        (fun item member => terminated item (List.mem_cons_of_mem _ member)) later rest
      have comma : 0 ∉ (if format then text ", " else text ",") := by cases format <;> decide
      have between : 0 ∉ (if next = [] then [] else if format then text ", " else text ",") := by
        split
        · exact List.not_mem_nil
        · exact comma
      simp only [List.mem_append, inside, between, behind, or_self, not_false_eq_true]

theorem terminated_printedMembers (format : Bool) (depth : ℕ) (items : List CJSON)
    (terminated : ∀ item ∈ items, Terminated item) :
    ∀ out ∈ printedMembers format depth items, 0 ∉ out := by
  intro out printed
  cases items with
  | nil =>
      obtain rfl : [] = out := by simpa [printedMembers] using printed
      exact List.not_mem_nil
  | cons current next =>
      simp only [printedMembers, Option.mem_def, Option.bind_eq_some_iff,
        Option.map_eq_some_iff] at printed
      obtain ⟨value, first, later, rest, rfl⟩ := printed
      have inside := terminated_printedValue format depth current
        (terminated current (List.mem_cons_self ..)) value first
      have behind := terminated_printedMembers format depth next
        (fun item member => terminated item (List.mem_cons_of_mem _ member)) later rest
      have key := terminated_stringText current.string
      have tabs : 0 ∉ (if format then List.replicate depth (9 : UInt8) else []) := by
        cases format <;> simp [List.mem_replicate]
      have colon : 0 ∉ (if format then text ":\t" else text ":") := by cases format <;> decide
      have comma : 0 ∉ (if next = [] then [] else text ",") := by
        split
        · exact List.not_mem_nil
        · decide
      have line : 0 ∉ (if format then text "\n" else []) := by cases format <;> decide
      simp only [List.mem_append, inside, behind, key, tabs, colon, comma, line, or_self,
        not_false_eq_true]

end

end Terminators

/-- The pieces of an element and what follows it, as `print_array` writes them. -/
theorem printedElements_cons (format : Bool) (depth : ℕ) (current : CJSON) (next : List CJSON) :
    printedElements format depth (current :: next) =
      (printedValue format depth current).bind fun value =>
        ((some (if next = [] then [] else if format then text ", " else text ",")).bind fun comma =>
          (printedElements format depth next).map fun later => comma ++ later).map
            fun behind => value ++ behind := by
  rw [printedElements]
  cases printedValue format depth current <;> cases printedElements format depth next <;> simp

/-- The pieces of a member and what follows it, as `print_object` writes them. -/
theorem printedMembers_cons (format : Bool) (depth : ℕ) (current : CJSON) (next : List CJSON) :
    printedMembers format depth (current :: next) =
      (some (if format then List.replicate depth 9 else [])).bind fun tabs =>
        ((some (stringText current.string)).bind fun key =>
          ((some (if format then text ":\t" else text ":")).bind fun colon =>
            ((printedValue format depth current).bind fun value =>
              ((some ((if next = [] then [] else text ",") ++
                if format then text "\n" else [])).bind
                fun comma => (printedMembers format depth next).map fun later =>
                  comma ++ later).map fun behind => value ++ behind).map
                fun behind => colon ++ behind).map fun behind => key ++ behind).map
              fun behind => tabs ++ behind := by
  rw [printedMembers]
  cases printedValue format depth current <;> cases printedMembers format depth next <;> simp

mutual

/-- `print_value` prints the text of the tree, or refuses. -/
theorem prints_printValue (item : CJSON) (terminated : Terminated item) (p : PrintBuffer)
    (sound : Sound p) :
    Prints p Printed 2 (printedValue p.format p.depth item) (printValue item p) := by
  obtain ⟨kind, valuestring, valuedouble, string, child⟩ := item
  obtain ⟨_, value, _, children⟩ := terminated
  cases kind with
  | invalid => rfl
  | null => exact prints_terminated sound rfl
  | false => exact prints_terminated sound rfl
  | true => exact prints_terminated sound rfl
  | number => exact prints_printNumber sound valuedouble
  | raw =>
      cases valuestring with
      | none => rfl
      | some raw => exact prints_terminated sound rfl
  | string => exact prints_printStringPtr sound valuestring
  | array =>
      have opens : Prints p Advanced (1 - (text "[").length + 1) (some (text "["))
          (p.put 1 (text "[") (text "[").length) :=
        prints_put_advanced sound (List.append_nil _).symm rfl (by decide) (Nat.zero_le 1)
      refine prints_brackets opens (by decide) (fun q advanced => ?_) fun q _ _ inner => ?_
      · exact steps_printElements child children p.format (p.depth + 1) _
          (advanced.sound.atDepth _) advanced.format rfl
      · exact prints_terminated inner rfl
  | object =>
      have opens : Prints p Advanced _ (some (if p.format then text "\x7b\n" else text "\x7b")) _ :=
        prints_put_advanced sound (List.append_nil _).symm rfl (Nat.le_succ _) (Nat.zero_le 1)
      refine prints_brackets opens (by omega) (fun q advanced => ?_) fun q format depth inner => ?_
      · exact steps_printMembers child children p.format (p.depth + 1) _
          (advanced.sound.atDepth _) advanced.format rfl
      · rw [format, depth, Nat.add_sub_cancel]
        apply prints_terminated inner
        cases p.format with
        | false => rfl
        | true =>
            have size : (text "\x7d").length = 1 := by decide
            simp [size]

/-- The loop of `print_array` prints the texts of the elements. -/
theorem steps_printElements (items : List CJSON) (terminated : ∀ item ∈ items, Terminated item)
    (format : Bool) (depth : ℕ) (p : PrintBuffer) (sound : Sound p) (isFormat : p.format = format)
    (isDepth : p.depth = depth) :
    Steps p (printedElements format depth items) (printElements items p) := by
  cases items with
  | nil => exact .refl sound
  | cons current next =>
      have own := terminated current (List.mem_cons_self ..)
      have others := fun item member => terminated item (List.mem_cons_of_mem current member)
      have value := ((prints_printValue current own p sound).updated sound
        (terminated_printedValue _ _ current own)).steps (Nat.le_refl 2)
      have comma (q : PrintBuffer) (inside : Sound q) (same : q.format = format) :
          Steps q (some (if next = [] then [] else if format then text ", " else text ","))
            (q.putComma next) := by
        unfold putComma
        by_cases last : next = []
        · rw [if_pos last, if_pos last]
          exact .refl inside
        · rw [if_neg last, if_neg last, same]
          exact steps_separator inside rfl rfl
      rw [isFormat, isDepth] at value
      have whole := value.trans fun _ _ q advanced =>
        ((comma q advanced.sound (advanced.format.trans isFormat)).trans fun _ _ r further =>
          steps_printElements next others format depth r further.sound
            (further.format.trans (advanced.format.trans isFormat))
            (further.depth.trans (advanced.depth.trans isDepth)))
      rw [bind_assoc] at whole
      rw [printedElements_cons, printElements]
      exact whole

/-- The loop of `print_object` prints the texts of the members. -/
theorem steps_printMembers (items : List CJSON) (terminated : ∀ item ∈ items, Terminated item)
    (format : Bool) (depth : ℕ) (p : PrintBuffer) (sound : Sound p) (isFormat : p.format = format)
    (isDepth : p.depth = depth) :
    Steps p (printedMembers format depth items) (printMembers items p) := by
  cases items with
  | nil => exact .refl sound
  | cons current next =>
      have own := terminated current (List.mem_cons_self ..)
      have others := fun item member => terminated item (List.mem_cons_of_mem current member)
      have tabs : Steps p (some (if format then List.replicate depth 9 else [])) p.putTabs := by
        rw [putTabs, isFormat, isDepth]
        cases format with
        | false => exact .refl sound
        | true => exact steps_text sound (List.length_replicate).symm (List.length_replicate).symm
      have key (q : PrintBuffer) (inside : Sound q) :=
        ((prints_printStringPtr inside current.string).updated inside fun _ same =>
          Option.some.inj same ▸ terminated_stringText current.string).steps (Nat.le_refl 2)
      have colon (q : PrintBuffer) (inside : Sound q) (same : q.format = format) :
          Steps q (some (if format then text ":\t" else text ":"))
            (q.put (if q.format then text ":\t" else text ":").length
              (if q.format then text ":\t" else text ":")
              (if q.format then text ":\t" else text ":").length) := by
        rw [same]
        exact steps_text inside rfl rfl
      have value (q : PrintBuffer) (inside : Sound q) (same : q.format = format)
          (level : q.depth = depth) :
          Steps q (printedValue format depth current) (printValue current q >>= updateOffset) := by
        rw [← same, ← level]
        exact ((prints_printValue current own q inside).updated inside
          (terminated_printedValue _ _ current own)).steps (Nat.le_refl 2)
      have comma (q : PrintBuffer) (inside : Sound q) (same : q.format = format) :
          Steps q
            (some ((if next = [] then [] else text ",") ++ if format then text "\n" else []))
            (q.put (((if next = [] then [] else text ",") ++
                if q.format then text "\n" else []).length + 1)
              (((if next = [] then [] else text ",") ++ if q.format then text "\n" else []) ++ [0])
              ((if next = [] then [] else text ",") ++
                if q.format then text "\n" else []).length) := by
        rw [same]
        exact steps_separator inside rfl rfl
      have whole := tabs.trans fun _ _ q tabbed =>
        (key q tabbed.sound).trans fun _ _ r keyed =>
          have formatOfKey := keyed.format.trans (tabbed.format.trans isFormat)
          have depthOfKey := keyed.depth.trans (tabbed.depth.trans isDepth)
          (colon r keyed.sound formatOfKey).trans fun _ _ s marked =>
            (value s marked.sound (marked.format.trans formatOfKey)
                (marked.depth.trans depthOfKey)).trans fun _ _ t valued =>
              have formatOfValue := valued.format.trans (marked.format.trans formatOfKey)
              (comma t valued.sound formatOfValue).trans fun _ _ u ended =>
                steps_printMembers next others format depth u ended.sound
                  (ended.format.trans formatOfValue)
                  (ended.depth.trans (valued.depth.trans (marked.depth.trans depthOfKey)))
      rw [printedMembers_cons, printMembers]
      simp only [bind_assoc] at whole
      exact whole

end

section Public

variable {item : CJSON} (terminated : Terminated item) (format : Bool) (hooks : Hooks)

namespace PrintBuffer

/-- A buffer in which nothing has been printed. -/
structure Starts (format : Bool) (p : PrintBuffer) : Prop where
  format : p.format = format
  depth : p.depth = 0
  offset : p.offset = 0

/-- Memory of some size is handed out, or the call is refused. -/
theorem allocated_cases {size : ℕ} (some : 0 < size ∨ hooks.reallocate = true)
    (bounded : size ≤ intMax.toNat) :
    (∃ p, allocated size format hooks = .ok p ∧ Sound p ∧ p.Starts format ∧
        p.noalloc = false ∧ p.hooks = hooks) ∨
      ¬ hooks.Generous ∧ allocated size format hooks = .error .refused := by
  unfold allocated
  cases called : hooks.allocate 0 size with
  | none => exact .inr ⟨fun generous => generous _ _ called, rfl⟩
  | some buffer =>
      have length := hooks.length_allocate called
      refine .inl ⟨_, rfl, ⟨?_, length.symm ▸ bounded⟩, ⟨rfl, rfl, rfl⟩, rfl, rfl⟩
      rcases Nat.eq_zero_or_pos size with rfl | positive
      · refine .inr ⟨List.length_eq_zero_iff.mp length, rfl, .inr ?_⟩
        exact some.resolve_left (Nat.lt_irrefl 0)
      · exact .inl (length.symm ▸ positive)

/-- `update_offset` leaves the buffer as it is. -/
theorem buffer_updateOffset {p q : PrintBuffer} (moved : p.updateOffset = .ok q) :
    q.buffer = p.buffer := by
  unfold updateOffset at moved
  split at moved
  · exact absurd moved (by simp)
  · exact (Except.ok.inj moved) ▸ rfl

/-- What a print from the start of a buffer leaves at its start. -/
theorem Printed.take_buffer {p q : PrintBuffer} {out : Text} (printed : Printed p out q)
    (start : p.offset = 0) : q.buffer.take (out.length + 1) = out ++ [0] := by
  have front := printed.front
  rwa [start, Nat.zero_add, List.take_zero, List.nil_append] at front

/-- Memory of no bytes that cannot be reallocated never becomes larger. -/
theorem ensure_of_no_bytes {p : PrintBuffer} (none : p.buffer = []) (free : p.noalloc = false)
    (unable : p.hooks.reallocate = false) (needed : ℕ) :
    ∃ error, p.ensure needed = .error error := by
  have grown (newsize : ℕ) : ∃ error, p.grow newsize = .error error := by
    unfold grow
    cases p.hooks.allocate p.calls newsize with
    | none => exact ⟨_, rfl⟩
    | some fresh => exact ⟨.outOfBounds, by simp [none, unable]⟩
  have started : ¬ (0 < p.buffer.length ∧ p.buffer.length ≤ p.offset) := by
    simp [none]
  have short : ¬ needed + p.offset + 1 ≤ p.buffer.length := by
    simp [none]
  simp only [ensure, if_neg started, if_neg short, free, Bool.false_eq_true, if_false]
  split_ifs
  · exact ⟨_, rfl⟩
  · exact grown _
  · exact ⟨_, rfl⟩
  · exact grown _

end PrintBuffer

/-- Nothing is printed into such memory. -/
theorem printValue_of_no_bytes {p : PrintBuffer} (none : p.buffer = []) (free : p.noalloc = false)
    (unable : p.hooks.reallocate = false) (item : CJSON) :
    ∃ error, printValue item p = .error error := by
  have put (needed : ℕ) (bytes : Text) (moved : ℕ) :
      ∃ error, p.put needed bytes moved = .error error := by
    obtain ⟨error, failed⟩ := ensure_of_no_bytes none free unable needed
    exact ⟨error, by simp only [PrintBuffer.put, failed, bind, Except.bind]⟩
  have bound {next : PrintBuffer → Except PrintError PrintBuffer}
      {result : Except PrintError PrintBuffer} (failed : ∃ error, result = .error error) :
      ∃ error, (result >>= next) = .error error := by
    obtain ⟨error, rfl⟩ := failed
    exact ⟨error, rfl⟩
  have string (value : Option Text) : ∃ error, printStringPtr value p = .error error := by
    cases value with
    | none => exact put _ _ _
    | some _ => exact bound (ensure_of_no_bytes none free unable _)
  obtain ⟨kind, valuestring, valuedouble, _, child⟩ := item
  cases kind with
  | invalid => exact ⟨_, rfl⟩
  | null | false | true => exact put _ _ _
  | string => exact string valuestring
  | array | object => exact bound (put _ _ _)
  | raw =>
      cases valuestring with
      | none => exact ⟨_, rfl⟩
      | some _ => exact put _ _ _
  | number =>
      simp only [printValue, printNumber]
      split
      · exact ⟨_, rfl⟩
      · exact put _ _ _

include terminated

section Start

variable {p : PrintBuffer} (sound : Sound p) (starts : p.Starts format) {out : Text}

include sound starts

/-- Printing from the start of a buffer is printing the text of the whole tree. -/
theorem prints_start :
    Prints p Printed 2 (printedValue format 0 item) (printValue item p) := by
  have prints := prints_printValue item terminated p sound
  rwa [starts.format, starts.depth] at prints

/-- A tree without a text is refused. -/
theorem printValue_of_none (text : printedValue format 0 item = none) :
    printValue item p = .error .refused := by
  have prints := prints_start terminated format sound starts
  rw [text] at prints
  exact prints

/-- A text that leaves two bytes is printed, unless a call for more memory is refused. -/
theorem printValue_of_fits (text : printedValue format 0 item = some out)
    (fits : out.length + 2 ≤ p.capacity) : Leaves p (Printed p out) (printValue item p) := by
  have prints := prints_start terminated format sound starts
  rw [text] at prints
  have room : p.offset + out.length + 2 ≤ p.capacity := by
    rwa [starts.offset, Nat.zero_add]
  exact (if_pos room).mp prints

/-- A text that does not leave two bytes is refused. -/
theorem printValue_of_not_fits (text : printedValue format 0 item = some out)
    (short : ¬ out.length + 2 ≤ p.capacity) : printValue item p = .error .refused := by
  have prints := prints_start terminated format sound starts
  rw [text] at prints
  have none : ¬ p.offset + out.length + 2 ≤ p.capacity := by
    rwa [starts.offset, Nat.zero_add]
  exact (if_neg none).mp prints

end Start

/-- **Printing is independent of its memory.** `cJSON_Print` and `cJSON_PrintUnformatted`
return the text of the tree and its terminator, whatever allocated memory holds and
whether it can be reallocated, and access nothing outside their buffers. They are refused
when the tree has no text, when the text does not leave two bytes of the largest buffer,
and otherwise only when the hooks refuse some call. -/
theorem settle_print :
    hooks.Settle
      (match printedValue format 0 item with
      | none => .error .refused
      | some out => if out.length + 2 ≤ intMax.toNat then .ok (out ++ [0]) else .error .refused)
      (print item format hooks) := by
  unfold print
  obtain ⟨p, handed, sound, starts, free, own⟩ | ⟨refuses, refused⟩ :=
    allocated_cases format hooks (.inl (show 0 < 256 by decide)) (by decide)
  swap
  · exact .inr ⟨refuses, by rw [refused]; rfl⟩
  rw [handed]
  cases text : printedValue format 0 item with
  | none =>
      have refused := printValue_of_none terminated format sound starts text
      exact .inl (by simp only [refused, bind, Except.bind])
  | some out =>
      dsimp only
      have capacity : p.capacity = intMax.toNat := capacity_free free
      by_cases fits : out.length + 2 ≤ intMax.toNat
      swap
      · have refused := printValue_of_not_fits terminated format sound starts text (capacity ▸ fits)
        exact .inl (by simp only [refused, bind, Except.bind, if_neg fits])
      obtain ⟨q, done, printed⟩ | ⟨may, refused⟩ :=
        printValue_of_fits terminated format sound starts text (capacity.symm ▸ fits)
      swap
      · exact .inr ⟨own ▸ may.2, by simp only [refused, bind, Except.bind]⟩
      have clean : 0 ∉ out := terminated_printedValue format 0 item terminated out text
      obtain ⟨r, moved, advanced⟩ := updateOffset_of_printed sound printed clean
      have front := printed.take_buffer starts.offset
      have room := printed.room
      have offset := advanced.offset
      rw [starts.offset, Nat.zero_add] at room offset
      rw [← buffer_updateOffset moved] at front room
      simp only [done, moved, bind, Except.bind, offset, if_pos fits]
      cases called : hooks.allocate r.calls (out.length + 1) with
      | none => exact .inr ⟨fun generous => generous _ _ called, rfl⟩
      | some memory =>
          have none : memory.drop (out.length + 1) = [] :=
            List.drop_of_length_le (hooks.length_allocate called).le
          refine .inl ?_
          by_cases able : hooks.reallocate = true
          · have shorter : memory.drop r.buffer.length = [] :=
              List.drop_of_length_le (by rw [hooks.length_allocate called]; omega)
            simp only [if_pos able, front, shorter, List.append_nil]
            rfl
          · have stored : Memory.store (out ++ [0]) out.length [0] = some (out ++ [0]) := by
              rw [Memory.store_eq (by simp)]
              simp
            simp only [if_neg able, Nat.min_eq_right room, front, none, List.append_nil, stored]

/-- **The exact size for `cJSON_PrintPreallocated`.** It succeeds exactly when the length
that it is told has room for the text and two bytes more, changes nothing behind the
terminator then, and never writes outside that length. -/
theorem printPreallocated_eq {memory : Text} {length : ℤ} (bounded : length ≤ intMax)
    (inside : length ≤ memory.length) :
    printPreallocated item (some memory) length format hooks =
      match printedValue format 0 item with
      | none => .error .refused
      | some out =>
          if out.length + 2 ≤ length then .ok (out ++ 0 :: memory.drop (out.length + 1))
          else .error .refused := by
  unfold printPreallocated
  dsimp only
  by_cases negative : length < 0
  · rw [if_pos negative]
    cases printedValue format 0 item with
    | none => rfl
    | some out => exact (if_neg (by omega)).symm
  rw [if_neg negative]
  obtain ⟨count, rfl⟩ := Int.eq_ofNat_of_zero_le (not_lt.mp negative)
  have int := toNat_intMax
  have cut : (memory.take count).length = count := List.length_take_of_le (by omega)
  have sound : Sound (preallocated (memory.take count) format hooks) := by
    refine ⟨?_, show (memory.take count).length ≤ _ by omega⟩
    rcases Nat.eq_zero_or_pos count with rfl | positive
    · exact .inr ⟨rfl, rfl, .inl rfl⟩
    · exact .inl (cut.symm ▸ positive)
  have starts : (preallocated (memory.take count) format hooks).Starts format := ⟨rfl, rfl, rfl⟩
  rw [Int.toNat_natCast]
  generalize start : preallocated (memory.take count) format hooks = p at sound starts ⊢
  have isFixed : p.noalloc = true := start ▸ rfl
  have isMemory : p.buffer = memory.take count := start ▸ rfl
  have capacity : p.capacity = count := by
    rw [capacity_fixed isFixed, isMemory, cut]
  cases text : printedValue format 0 item with
  | none =>
      rw [printValue_of_none terminated format sound starts text]
      rfl
  | some out =>
      by_cases fits : out.length + 2 ≤ count
      · obtain ⟨q, done, printed⟩ | ⟨may, _⟩ :=
          printValue_of_fits terminated format sound starts text (capacity.symm ▸ fits)
        swap
        · exact absurd (may.1.symm.trans isFixed) Bool.false_ne_true
        have front := printed.take_buffer starts.offset
        have behind := printed.frame isFixed
        rw [starts.offset, Nat.zero_add, isMemory] at behind
        have whole := List.take_append_drop (out.length + 1) q.buffer
        have rest : (memory.take count).drop (out.length + 1) ++ memory.drop count =
            memory.drop (out.length + 1) := by
          have joined := congrArg (List.drop (out.length + 1)) (List.take_append_drop count memory)
          rwa [List.drop_append_of_le_length (by omega)] at joined
        rw [front, behind, List.append_assoc, List.singleton_append] at whole
        have fits : (out.length : ℤ) + 2 ≤ count := by omega
        simp only [done, bind, Except.bind, if_pos fits, ← whole, ← rest]
        simp only [List.append_assoc, List.cons_append]
        rfl
      · have refused :=
          printValue_of_not_fits terminated format sound starts text (capacity.symm ▸ fits)
        have short : ¬ (out.length : ℤ) + 2 ≤ count := by omega
        simp only [refused, bind, Except.bind, if_neg short]

/-- `cJSON_PrintBuffered` with memory to start with, or hooks that can reallocate it. -/
theorem printBuffered_cases {prebuffer : ℤ} (some : 0 ≤ prebuffer) (bounded : prebuffer ≤ intMax)
    (able : prebuffer ≠ 0 ∨ hooks.reallocate = true) :
    (∃ out ∈ printedValue format 0 item, out.length + 2 ≤ intMax.toNat ∧
        ∃ memory, printBuffered item prebuffer format hooks = .ok memory ∧ out ++ [0] <+: memory) ∨
      printBuffered item prebuffer format hooks = .error .refused ∧
        ((∃ out ∈ printedValue format 0 item, out.length + 2 ≤ intMax.toNat) →
          ¬ hooks.Generous) := by
  unfold printBuffered
  rw [if_neg (not_lt.mpr some)]
  have positive : 0 < prebuffer.toNat ∨ hooks.reallocate = true :=
    able.imp_left fun _ => by omega
  obtain ⟨p, handed, sound, starts, free, own⟩ | ⟨refuses, refused⟩ :=
    allocated_cases format hooks positive (Int.toNat_le_toNat bounded)
  swap
  · exact .inr ⟨by rw [refused]; rfl, fun _ => refuses⟩
  rw [handed]
  have capacity : p.capacity = intMax.toNat := capacity_free free
  cases text : printedValue format 0 item with
  | none =>
      have refused := printValue_of_none terminated format sound starts text
      exact .inr ⟨by simp only [refused, bind, Except.bind],
        fun ⟨_, member, _⟩ => absurd member (Option.not_mem_none _)⟩
  | some out =>
      by_cases fits : out.length + 2 ≤ intMax.toNat
      · obtain ⟨q, done, printed⟩ | ⟨may, refused⟩ :=
          printValue_of_fits terminated format sound starts text (capacity.symm ▸ fits)
        · refine .inl ⟨out, rfl, fits, q.buffer, by simp only [done, bind, Except.bind]; rfl, ?_⟩
          exact printed.take_buffer starts.offset ▸ List.take_prefix ..
        · exact .inr ⟨by simp only [refused, bind, Except.bind], fun _ => own ▸ may.2⟩
      · have refused :=
          printValue_of_not_fits terminated format sound starts text (capacity.symm ▸ fits)
        refine .inr ⟨by simp only [refused, bind, Except.bind], fun ⟨other, same, room⟩ => ?_⟩
        exact absurd (Option.some.inj same ▸ room) fits

omit terminated in
/-- Memory of no bytes that cannot be reallocated is not printed into. -/
theorem printBuffered_of_unable (unable : hooks.reallocate = false) :
    ∃ error, printBuffered item 0 format hooks = .error error := by
  unfold printBuffered allocated
  rw [if_neg (lt_irrefl 0)]
  cases called : hooks.allocate 0 (0 : ℤ).toNat with
  | none => exact ⟨_, rfl⟩
  | some buffer =>
      have none : buffer = [] := List.length_eq_zero_iff.mp (hooks.length_allocate called)
      subst none
      have failed := printValue_of_no_bytes
        (p := { buffer := [], noalloc := false, format, hooks, calls := 1 }) rfl rfl unable item
      obtain ⟨error, failed⟩ := failed
      exact ⟨error, by simp only [bind, Except.bind, failed]⟩

/-- **When `cJSON_PrintBuffered` succeeds.** What is returned starts with the text and its
terminator. The size given up front decides nothing but whether there is memory to start
with: a negative size is refused, and a size of zero needs hooks that can reallocate, since
one byte of the old buffer is copied otherwise. Apart from that case nothing outside the
buffer is accessed, and hooks that refuse no call lead to success whenever the tree has a
text that leaves two bytes of the largest buffer. -/
theorem printBuffered_spec {prebuffer : ℤ} (bounded : prebuffer ≤ intMax) :
    (∀ memory, printBuffered item prebuffer format hooks = .ok memory →
        0 ≤ prebuffer ∧ (prebuffer ≠ 0 ∨ hooks.reallocate = true) ∧
          ∃ out ∈ printedValue format 0 item,
            out.length + 2 ≤ intMax.toNat ∧ out ++ [0] <+: memory) ∧
      (prebuffer ≠ 0 ∨ hooks.reallocate = true →
        printBuffered item prebuffer format hooks ≠ .error .outOfBounds ∧
          (hooks.Generous → 0 ≤ prebuffer →
            (∃ out ∈ printedValue format 0 item, out.length + 2 ≤ intMax.toNat) →
              ∃ memory, printBuffered item prebuffer format hooks = .ok memory)) := by
  by_cases negative : prebuffer < 0
  · have refused : printBuffered item prebuffer format hooks = .error .refused := if_pos negative
    refine ⟨fun memory done => absurd (refused.symm.trans done) nofun, fun _ => ⟨?_, ?_⟩⟩
    · exact fun outside => absurd (refused.symm.trans outside) (by decide)
    · exact fun _ some => absurd negative (not_lt.mpr some)
  have some := not_lt.mp negative
  by_cases able : prebuffer ≠ 0 ∨ hooks.reallocate = true
  · rcases printBuffered_cases terminated format hooks some bounded able with
      ⟨out, printed, fits, memory, done, start⟩ | ⟨refused, refuses⟩
    · refine ⟨fun other same => ?_, fun _ => ⟨fun outside => ?_, fun _ _ _ => ⟨memory, done⟩⟩⟩
      · obtain rfl := Except.ok.inj (done.symm.trans same)
        exact ⟨some, able, out, printed, fits, start⟩
      · exact absurd (done.symm.trans outside) nofun
    · refine ⟨fun memory done => absurd (refused.symm.trans done) nofun, fun _ => ⟨?_, ?_⟩⟩
      · exact fun outside => absurd (refused.symm.trans outside) (by decide)
      · exact fun generous _ text => absurd generous (refuses text)
  · obtain ⟨zero, unable⟩ := not_or.mp able
    obtain rfl := not_not.mp zero
    have failed : ∃ error, printBuffered item 0 format hooks = .error error :=
      printBuffered_of_unable format hooks (Bool.eq_false_iff.mpr unable)
    obtain ⟨error, failed⟩ := failed
    exact ⟨fun memory done => absurd (failed.symm.trans done) nofun, fun given => absurd given able⟩

end Public

/-- A list with a string and a number in it. -/
def sampleList : CJSON :=
  { kind := .array
    child := [{ kind := .string, valuestring := some (text "a\n") },
      { kind := .number, valuedouble := .finite 12 }] }

theorem terminated_sampleList : Terminated sampleList := by
  refine ⟨_, nofun, nofun, fun child member => ?_⟩
  obtain rfl | rfl : child = _ ∨ child = _ := by
    simpa only [sampleList, List.mem_cons, List.not_mem_nil, or_false] using member
  · refine ⟨_, fun bytes same => ?_, nofun, nofun⟩
    obtain rfl := Option.some.inj same
    decide
  · exact ⟨_, nofun, nofun, nofun⟩

theorem printedValue_sampleList :
    printedValue false 0 sampleList = some (text "[\"a\\n\",12]") := by
  decide +kernel

/-- Twelve bytes are enough for a text of ten, and what lies behind them is not touched. -/
theorem printPreallocated_sampleList :
    printPreallocated sampleList (some (List.replicate 14 1)) 12 false
        (.zeroed (fun _ => false) true) =
      .ok (text "[\"a\\n\",12]" ++ [0, 1, 1, 1]) :=
  (printPreallocated_eq terminated_sampleList false _ (by decide) (by decide)).trans (by
    rw [printedValue_sampleList]
    decide)

/-- One byte to start with, and hooks that copy it into larger memory. -/
theorem printBuffered_sampleList :
    ∃ memory, printBuffered sampleList 1 false (.zeroed (fun _ => true) false) = .ok memory :=
  ((printBuffered_spec terminated_sampleList false (.zeroed (fun _ => true) false)
    (show (1 : ℤ) ≤ intMax by decide)).2 (.inl (by decide))).2 (Hooks.generous_zeroed false)
      (by decide) ⟨_, printedValue_sampleList, by decide⟩

end Evenscribe.CJSON
