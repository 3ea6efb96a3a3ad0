import Evenscribe.Json.Heap.Parse
import Evenscribe.Json.Heap.Tree
import Evenscribe.Json.ParseLocality

/-!
# String literals in memory

`parse_string` allocates one byte for each byte of the literal that its first loop
has not skipped, and two more. The second loop does not go along with the first
one: the four bytes behind `\u` may hold a backslash that the first loop has seen.
What it writes fits all the same, because an escape sequence is never longer than
what it stands for together with the bytes skipped in it.
-/

namespace Evenscribe.CJSON.Heap

open Allocation Separation Separation.Assertion

/-- What a parse function leaves, when the text is read as `read` says. It refuses a text
that is read only if it gets no memory. -/
def outcome {α : Type} (hooks : Malloc) (kept : Assertion ℕ Cell) (made : α → Assertion ℕ Cell)
    (read : Option (α × Text)) : Option Text → Assertion ℕ Cell
  | none => fact (hooks.Generous → read = none) * kept
  | some rest => ⨆ value, fact (read = some (value, rest)) * made value

section Outcome

variable {α : Type} {hooks : Malloc} {P kept : Assertion ℕ Cell} {made : α → Assertion ℕ Cell}
  {read : Option (α × Text)}

theorem le_refused (failed : hooks.Generous → read = none) :
    kept ≤ outcome hooks kept made read none := by
  rw [outcome, fact_mul_of failed]

theorem le_accepted (made : α → Assertion ℕ Cell) {value : α} {rest : Text}
    (found : read = some (value, rest)) :
    made value ≤ outcome hooks kept made read (some rest) := by
  apply le_iSup_of_le value
  rw [fact_mul_of found]

/-- Returning null with a reason gives an outcome. -/
theorem triple_refused (failed : hooks.Generous → read = none) (left : P ≤ kept) :
    Triple P (pure none) (outcome hooks kept made read) :=
  Triple.ret (left.trans (le_refused failed))

/-- Returning the rest behind a value gives an outcome. -/
theorem triple_accepted {value : α} {rest : Text} (found : read = some (value, rest))
    (left : P ≤ made value) : Triple P (pure (some rest)) (outcome hooks kept made read) :=
  Triple.ret (left.trans (le_accepted made found))

/-- What is kept and made may be said in other words. -/
theorem outcome_mono {kept' : Assertion ℕ Cell} {made' : α → Assertion ℕ Cell}
    (keeps : kept ≤ kept')
    (makes : ∀ value rest, read = some (value, rest) → made value ≤ made' value)
    (result : Option Text) :
    outcome hooks kept made read result ≤ outcome hooks kept' made' read result := by
  cases result with
  | none => exact mul_le_mul_right keeps _
  | some rest =>
      refine iSup_mono fun value => fact_mul_le fun found => ?_
      rw [fact_mul_of found]
      exact makes value rest found

/-- A value that is part of a larger one. -/
theorem outcome_map {β : Type} (made : β → Assertion ℕ Cell) (change : α → β)
    (result : Option Text) :
    outcome hooks kept (fun value => made (change value)) read result ≤
      outcome hooks kept made (read.map fun found => (change found.1, found.2)) result := by
  cases result with
  | none =>
      apply fact_mul_le
      intro failed
      rw [outcome, fact_mul_of fun generous => by rw [failed generous, Option.map_none]]
  | some rest =>
      refine iSup_le fun value => fact_mul_le fun found => le_iSup_of_le (change value) ?_
      rw [fact_mul_of (by rw [found, Option.map_some])]

end Outcome

/-- Whether the first loop passes over the byte behind the front of a literal. -/
def escapedAfter : Bool → Text → Bool
  | escaped, [] => escaped
  | escaped, byte :: rest => escapedAfter (!escaped && byte = backslash) rest

/-- The bytes of the rest of a literal that are not skipped. -/
def room (escaped : Bool) (literal : Text) : ℕ := literal.length - skippedBytes escaped literal

section Room

variable {escaped : Bool} {front rest literal bytes : Text} {length : ℕ}

/-- Whether a byte is escaped follows from what stands in front of it. -/
theorem escapedAfter_append : escapedAfter escaped (front ++ rest) =
    escapedAfter (escapedAfter escaped front) rest := by
  induction front generalizing escaped with
  | nil => rfl
  | cons byte front ih => exact ih

/-- The backslashes of two parts add up. -/
theorem skippedBytes_append : skippedBytes escaped (front ++ rest) =
    skippedBytes escaped front + skippedBytes (escapedAfter escaped front) rest := by
  induction front generalizing escaped with
  | nil => exact (Nat.zero_add _).symm
  | cons byte front ih =>
      simp only [List.cons_append, skippedBytes, escapedAfter, ih, Nat.add_assoc]

/-- Every byte that is skipped has another one behind it. -/
theorem two_mul_skippedBytes_le (literal : Text) :
    2 * skippedBytes true literal ≤ literal.length ∧
      2 * skippedBytes false literal ≤ literal.length + 1 := by
  induction literal with
  | nil => exact ⟨le_rfl, Nat.zero_le _⟩
  | cons byte rest ih =>
      obtain ⟨passed, plain⟩ := ih
      simp only [skippedBytes, Bool.not_true, Bool.false_and, Bool.false_eq_true, if_false,
        Bool.not_false, Bool.true_and, List.length_cons]
      by_cases mark : byte = backslash
      · simp only [mark, decide_true, if_true]
        omega
      · simp only [mark, decide_false, Bool.false_eq_true, if_false]
        omega

/-- At most every other byte is skipped. -/
theorem skippedBytes_le (escaped : Bool) (literal : Text) :
    2 * skippedBytes escaped literal ≤ literal.length + 1 := by
  obtain ⟨passed, plain⟩ := two_mul_skippedBytes_le literal
  cases escaped <;> omega

/-- The first loop ends at a quote that is not passed over. -/
theorem escapedAfter_of_scanLiteral {buffer after : Text}
    (scanned : scanLiteral escaped buffer = some (literal, after)) :
    escapedAfter escaped literal = false := by
  induction buffer generalizing escaped literal with
  | nil => simp [scanLiteral] at scanned
  | cons byte tail ih =>
      simp only [scanLiteral] at scanned
      by_cases closes : byte = doubleQuote ∧ escaped = false
      · rw [if_pos closes] at scanned
        obtain ⟨rfl, rfl⟩ := Prod.mk.inj (Option.some.inj scanned)
        exact closes.2
      · rw [if_neg closes] at scanned
        obtain ⟨⟨inner, _⟩, found, equal⟩ := Option.map_eq_some_iff.mp scanned
        obtain ⟨rfl, rfl⟩ := Prod.mk.inj equal
        change escapedAfter (!escaped && byte = backslash) inner = false
        exact ih found

end Room

section Sequences

theorem hexDigit_lt {byte : UInt8} {digit : ℕ} (found : hexDigit byte = some digit) :
    digit < 16 := by
  simp only [hexDigit, UInt8.le_iff_toNat_le] at found
  split_ifs at found with decimal upper lower
  all_goals
    obtain rfl := Option.some.inj found
    simp only [UInt8.reduceToNat] at *
    omega

/-- Digits that are read stay below the power of sixteen they reach. -/
theorem foldl_digits_lt (input : Text) : ∀ (front : ℕ) (digits : List ℕ),
    input.mapM hexDigit = some digits →
      digits.foldl (fun h digit => (h <<< 4) + digit) front < (front + 1) * 16 ^ input.length := by
  induction input with
  | nil =>
      intro front digits found
      obtain rfl := Option.some.inj found
      simp
  | cons byte rest ih =>
      intro front digits found
      rw [List.mapM_cons] at found
      obtain ⟨digit, isDigit, found⟩ := Option.bind_eq_some_iff.mp found
      obtain ⟨later, others, equal⟩ := Option.bind_eq_some_iff.mp found
      obtain rfl := Option.some.inj equal
      have small := hexDigit_lt isDigit
      have tail := ih ((front <<< 4) + digit) later others
      have step : (front <<< 4) + digit + 1 ≤ (front + 1) * 16 := by
        rw [Nat.shiftLeft_eq]
        omega
      calc _ < ((front <<< 4) + digit + 1) * 16 ^ rest.length := tail
        _ ≤ (front + 1) * 16 * 16 ^ rest.length := Nat.mul_le_mul_right _ step
        _ = (front + 1) * 16 ^ (byte :: rest).length := by
            rw [List.length_cons, pow_succ', mul_assoc]

/-- Four digits stay below two to the sixteen. -/
theorem parseHex4_lt (input : Text) : parseHex4 input < 65536 := by
  simp only [parseHex4]
  split
  · decide
  · next digits found =>
      have size : (input.take 4).length ≤ 4 := List.length_take_le ..
      calc _ < (0 + 1) * 16 ^ (input.take 4).length := foldl_digits_lt _ 0 digits found
        _ ≤ 1 * 16 ^ 4 := Nat.mul_le_mul_left _ (Nat.pow_le_pow_right (by decide) size)
        _ = 65536 := by decide

/-- A code point takes at most four bytes, and three in the first plane. -/
theorem length_encodeUtf8 {codepoint : ℕ} {bytes : Text}
    (encoded : encodeUtf8 codepoint = some bytes) :
    bytes.length ≤ 4 ∧ (codepoint < 65536 → bytes.length ≤ 3) := by
  simp only [encodeUtf8] at encoded
  split_ifs at encoded with one two three four
  all_goals
    obtain rfl := Option.some.inj encoded
    simp only [List.length_cons, List.length_nil]
    omega

/-- How many bytes an escape sequence has and stands for. A backslash alone takes the
closing quote with it. -/
theorem escapeSequence_sizes {rest bytes : Text} {length : ℕ}
    (found : escapeSequence (backslash :: rest) = some (bytes, length)) :
    (length = 2 ∧ bytes.length = 1) ∨ (length = 6 ∧ 5 ≤ rest.length ∧ bytes.length ≤ 3) ∨
      (length = 12 ∧ 11 ≤ rest.length ∧ bytes.length ≤ 4) := by
  have simple (output : Text) (one : output.length = 1)
      (same : some (output, 2) = some (bytes, length)) : length = 2 ∧ bytes.length = 1 := by
    obtain ⟨rfl, rfl⟩ := Prod.mk.inj (Option.some.inj same)
    exact ⟨rfl, one⟩
  simp only [escapeSequence] at found
  split at found
  iterate 8 exact .inl (simple _ rfl found)
  · simp only [utf16LiteralToUtf8, List.length_cons, List.length_drop] at found
    split_ifs at found with short low high cut other second
    · obtain ⟨output, encoded, equal⟩ := Option.map_eq_some_iff.mp found
      obtain ⟨rfl, rfl⟩ := Prod.mk.inj equal
      have sizes := (length_encodeUtf8 encoded).1
      exact .inr (.inr ⟨rfl, by omega, sizes⟩)
    · obtain ⟨output, encoded, equal⟩ := Option.map_eq_some_iff.mp found
      obtain ⟨rfl, rfl⟩ := Prod.mk.inj equal
      have sizes := (length_encodeUtf8 encoded).2 (parseHex4_lt _)
      exact .inr (.inl ⟨rfl, by omega, sizes⟩)
  · exact nomatch found

/-- **An escape sequence fits.** What it stands for takes no more room than the bytes it
has had are worth to the first loop. -/
theorem room_escapeSequence {escaped : Bool} {rest bytes : Text} {length : ℕ}
    (found : escapeSequence (backslash :: rest) = some (bytes, length))
    (ends : escapedAfter escaped (backslash :: rest) = false) :
    ∃ after, bytes.length + room after (rest.drop (length - 1)) ≤ room escaped (backslash :: rest) ∧
      escapedAfter after (rest.drop (length - 1)) = false := by
  generalize split : length - 1 = count
  have parts : backslash :: rest.take count ++ rest.drop count = backslash :: rest := by
    rw [List.cons_append, List.take_append_drop]
  refine ⟨escapedAfter escaped (backslash :: rest.take count), ?_, ?_⟩
  · have skipped : skippedBytes escaped (backslash :: rest) =
        skippedBytes escaped (backslash :: rest.take count) +
          skippedBytes (escapedAfter escaped (backslash :: rest.take count)) (rest.drop count) := by
      rw [← skippedBytes_append, parts]
    have covered : bytes.length + skippedBytes escaped (backslash :: rest.take count) ≤
        (backslash :: rest.take count).length := by
      have few := skippedBytes_le escaped (backslash :: rest.take count)
      simp only [List.length_cons, List.length_take] at few ⊢
      obtain ⟨two, one⟩ | ⟨six, enough, short⟩ | ⟨twelve, enough, short⟩ :=
        escapeSequence_sizes found
      · cases rest with
        | nil =>
            -- the scan has passed over the last backslash, so it is not skipped
            have passed : escaped = true := by simpa [escapedAfter] using ends
            simp [passed, skippedBytes, one]
        | cons byte rest =>
            rw [List.length_cons] at few ⊢
            omega
      · omega
      · omega
    have fewer := skippedBytes_le (escapedAfter escaped (backslash :: rest.take count))
      (rest.drop count)
    have whole := congrArg List.length parts
    rw [List.length_append] at whole
    rw [room, room, skipped, ← whole]
    omega
  · rw [← escapedAfter_append, parts]
    exact ends

end Sequences

section Write

variable {hooks : Malloc} {output : ℕ}

theorem writeLiteral_passed (output : Pointer) (passed written : ℕ) (literal : Text) :
    writeLiteral output passed written literal =
      writeLiteral output 0 written (literal.drop passed) := by
  induction literal generalizing passed with
  | nil => rw [List.drop_nil, writeLiteral, writeLiteral]
  | cons byte rest ih =>
      cases passed with
      | zero => rfl
      | succ passed => rw [writeLiteral, List.drop_succ_cons, ih]

theorem decodeLiteral_passed (passed : ℕ) (literal : Text) :
    decodeLiteral passed literal = decodeLiteral 0 (literal.drop passed) := by
  induction literal generalizing passed with
  | nil => rw [List.drop_nil, decodeLiteral, decodeLiteral]
  | cons byte rest ih =>
      cases passed with
      | zero => rfl
      | succ passed => rw [decodeLiteral, List.drop_succ_cons, ih]

/-- What the second loop leaves in its block. -/
def writing (output : ℕ) (memory : Text) (start : ℕ) (decoded : Option Text) :
    Option ℕ → Assertion ℕ Cell
  | none => fact (decoded = none) * ⨆ after : Text, holds output (.block after)
  | some written => ⨆ after : Text, fact (∃ bytes, decoded = some bytes ∧
      after.take written = memory.take start ++ bytes ∧ written < after.length) *
        holds output (.block after)

/-- Bytes that were written come in front of those that are written after them. -/
theorem writing_le {memory between bytes : Text} {start : ℕ} {decoded : Option Text}
    (stored : between.take (start + bytes.length) = memory.take start ++ bytes)
    (result : Option ℕ) :
    writing output between (start + bytes.length) decoded result ≤
      writing output memory start (decoded.map fun later => bytes ++ later) result := by
  cases result with
  | none =>
      apply fact_mul_le
      intro failed
      rw [failed, writing, Option.map_none, fact_mul_of rfl]
  | some written =>
      refine iSup_le fun after => fact_mul_le fun ⟨later, decodes, spells, inside⟩ => ?_
      apply le_iSup_of_le after
      rw [fact_mul_of]
      exact ⟨bytes ++ later, by rw [decodes, Option.map_some],
        by rw [spells, stored, List.append_assoc], inside⟩

/-- **The second loop stays inside its block.** It decodes the literal, and leaves a byte
for the terminator. -/
theorem triple_writeLiteral (count : ℕ) : ∀ (literal : Text) {escaped : Bool} {memory : Text}
    {start : ℕ}, literal.length ≤ count → escapedAfter escaped literal = false →
    start + room escaped literal < memory.length →
    Triple (holds output (.block memory)) (writeLiteral (some output) 0 start literal)
      (writing output memory start (decodeLiteral 0 literal)) := by
  have finished (memory : Text) (start : ℕ) (inside : start < memory.length) :
      Triple (holds output (.block memory)) (pure (some start) : Action Cell (Option ℕ))
        (writing output memory start (some [])) := by
    apply Triple.ret
    apply le_iSup_of_le memory
    rw [fact_mul_of ⟨[], rfl, (List.append_nil _).symm, inside⟩]
  induction count with
  | zero =>
      intro literal escaped memory start short ends fits
      obtain rfl := List.eq_nil_of_length_eq_zero (Nat.le_zero.mp short)
      exact finished memory start (by omega)
  | succ count ih =>
      intro literal escaped memory start short ends fits
      cases literal with
      | nil => exact finished memory start (by omega)
      | cons byte rest =>
          -- bytes that fit are written, and the rest of the literal behind them
          have further (bytes later : Text) (after : Bool) (shorter : later.length ≤ count)
              (ends : escapedAfter after later = false)
              (fits : start + (bytes.length + room after later) < memory.length) :
              Triple (holds output (.block memory))
                (do
                  writeBytes (some output) start bytes
                  writeLiteral (some output) 0 (start + bytes.length) later)
                (writing output memory start
                  ((decodeLiteral 0 later).map fun later => bytes ++ later)) := by
            have stored : Memory.store memory start bytes = some _ := Memory.store_eq (by omega)
            have size := Memory.length_of_store stored
            rw [← mul_one (holds _ _)]
            apply (triple_writeBytes stored).step
            intro _
            rw [mul_one]
            exact (ih later shorter ends (by omega)).mono le_rfl
              (writing_le (Memory.take_append_of_store stored))
          rw [List.length_cons] at short
          by_cases plain : byte = backslash
          · obtain rfl := plain
            rw [writeLiteral, if_neg (not_not.mpr rfl), decodeLiteral, if_neg (not_not.mpr rfl)]
            cases sequence : escapeSequence (backslash :: rest) with
            | none =>
                apply Triple.ret
                rw [writing, fact_mul_of rfl]
                exact le_iSup (fun after => holds output (Cell.block after)) memory
            | some found =>
                obtain ⟨bytes, length⟩ := found
                obtain ⟨after, fewer, ends⟩ := room_escapeSequence sequence ends
                have shorter : (rest.drop (length - 1)).length ≤ count := by
                  rw [List.length_drop]
                  omega
                simp only [writeLiteral_passed _ (length - 1), decodeLiteral_passed (length - 1)]
                exact further bytes _ after shorter ends (by omega)
          · have scan : (!escaped && decide (byte = backslash)) = false := by
              rw [decide_eq_false plain, Bool.and_false]
            have worth : room escaped (byte :: rest) = 1 + room false rest := by
              have few := skippedBytes_le false rest
              simp only [room, skippedBytes, scan, Bool.false_eq_true, if_false, List.length_cons]
              omega
            rw [escapedAfter, scan] at ends
            rw [worth] at fits
            rw [writeLiteral, if_pos plain, decodeLiteral, if_pos plain]
            exact further [byte] rest false (by omega) ends fits

theorem cString_append_terminator (bytes rest : Text) :
    cString (bytes ++ 0 :: rest) = cString bytes := by
  induction bytes with
  | nil => rfl
  | cons byte bytes ih =>
      simp only [cString, List.cons_append, List.takeWhile_cons] at ih ⊢
      rw [ih]

/-- The block of a literal that has been terminated. -/
theorem triple_terminate {memory bytes : Text} {written : ℕ} (spells : memory.take written = bytes)
    (inside : written < memory.length) :
    Triple (holds output (.block memory)) (writeBytes (some output) written [0])
      fun _ => spelled (some (cString bytes)) (some output) := by
  have stored : Memory.store memory written [0] = some _ :=
    Memory.store_eq (by rw [List.length_singleton]; omega)
  apply (triple_writeBytes stored).mono le_rfl
  intro _
  rw [spells, List.append_assoc, List.singleton_append]
  apply le_iSup_of_le (output, bytes ++ 0 :: memory.drop (written + [(0 : UInt8)].length))
  rw [fact_mul_of]
  exact ⟨rfl, List.mem_append_right _ (List.mem_cons_self ..), cString_append_terminator ..⟩

/-- The node of a string that was read. -/
theorem triple_fill {prev next : Pointer} {item : CJSON} {address output : ℕ} {text : Text}
    (unset : item.valuestring = none) :
    Triple (tree prev next item address * spelled (some text) (some output))
      (modifyNode (some address) fun node =>
        { node.setType .string with valuestring := some output })
      fun _ => tree prev next { item with kind := .string, valuestring := some text } address := by
  refine triple_modifyTree (fun node shows => ?_) fun node _ => ?_
  · exact ⟨shows.prev, shows.next, rfl, rfl, rfl, shows.valuedouble, nofun⟩
  · simp only [belongings, unset, Node.setType, spelled_none, mul_assoc]
    refine fact_mul_le fun _ => le_of_eq ?_
    ac_rfl

/-- **`parse_string` in memory.** It fills the node where the literal is one, and leaves
the memory as it was otherwise, or if it gets none. -/
theorem triple_parseString {prev next : Pointer} {item : CJSON} {address : ℕ}
    (unset : item.valuestring = none) (buffer : Text) :
    Triple (tree prev next item address) (parseString hooks (some address) buffer)
      (outcome hooks (tree prev next item address)
        (fun value =>
          tree prev next { item with kind := .string, valuestring := some value } address)
        (CJSON.parseString buffer)) := by
  cases buffer with
  | nil => exact triple_refused (fun _ => rfl) le_rfl
  | cons first rest =>
      simp only [parseString, CJSON.parseString]
      by_cases opens : first = doubleQuote
      · rw [if_neg (not_not.mpr opens), if_neg (not_not.mpr opens)]
        cases scanned : scanLiteral false rest with
        | none => exact triple_refused (fun _ => rfl) le_rfl
        | some found =>
            obtain ⟨literal, after⟩ := found
            have ends := escapedAfter_of_scanLiteral scanned
            change Triple _ _ (outcome hooks _ _ ((decodeLiteral 0 literal).map _))
            refine Triple.of_eq (triple_newBlock.step fun pointer => ?_) (one_mul _).symm
            cases pointer with
            | none =>
                apply Triple.fact_mul
                intro refused
                exact triple_refused (fun generous => (refused generous).elim) le_rfl
            | some output =>
                apply Triple.iSup_mul
                intro memory
                rw [mul_assoc]
                apply Triple.fact_mul
                intro size
                refine (triple_writeLiteral _ literal le_rfl ends ?_).step fun result => ?_
                · have few := skippedBytes_le false literal
                  rw [size, room]
                  omega
                cases result with
                | none =>
                    rw [writing, mul_assoc]
                    refine Triple.fact_mul fun failed => Triple.iSup_mul fun written => ?_
                    apply Triple.release.step
                    intro _
                    rw [failed]
                    exact triple_refused (fun _ => rfl) (one_mul _).le
                | some written =>
                    apply Triple.iSup_mul
                    intro filled
                    rw [mul_assoc]
                    refine Triple.fact_mul fun ⟨bytes, decoded, spells, inside⟩ => ?_
                    rw [List.take_zero, List.nil_append] at spells
                    apply (triple_terminate spells inside).step
                    intro _
                    rw [decoded, mul_comm]
                    apply Triple.bind (triple_fill unset)
                    intro _
                    exact triple_accepted rfl le_rfl
      · rw [if_pos opens, if_pos opens]
        exact triple_refused (fun _ => rfl) le_rfl

end Write

end Evenscribe.CJSON.Heap
