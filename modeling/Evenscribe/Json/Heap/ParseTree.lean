import Evenscribe.Json.Heap.Literal
import Evenscribe.Json.ParseShape

/-!
# The parser in memory builds the tree of its text

Every parse function in memory is compared with its counterpart on trees. The rest of
the memory is as it was; what a function has allocated is the tree that it returns, or
has been given back where it returns none. Without a refused allocation it returns a
tree exactly where its counterpart does.
-/

namespace Evenscribe.CJSON.Heap

open Allocation Separation Separation.Assertion Reading

section Lists

variable {hooks : Malloc} {items : List CJSON} {head current prev next : Pointer} {address : ℕ}
  {item : CJSON}

/-- A new item is an empty tree, or the hooks refuse. -/
theorem triple_newItem : Triple 1 (newItem hooks) fun pointer =>
    match pointer with
    | none => fact (¬ hooks.Generous)
    | some address => tree none none {} address := by
  apply Triple.allocate.mono le_rfl
  intro pointer
  cases pointer with
  | none => exact le_rfl
  | some address => exact holds_le_tree

/-- A new item is linked behind the last one. -/
theorem triple_attach :
    Triple (segment none none items head current * tree none none item address)
      (attach head current address)
      fun first =>
        segment none (some address) items first current * tree current none item address := by
  obtain rfl | ⟨front, last, rfl⟩ := List.eq_nil_or_concat' items
  · rw [segment_nil]
    refine Triple.fact_mul fun ⟨noHead, noCurrent⟩ => ?_
    rw [noHead, noCurrent]
    apply Triple.ret
    rw [segment_nil, fact_mul_of ⟨rfl, rfl⟩]
  · have start : segment none none (front ++ [last]) head current ≤
        fact (head ≠ none) * segment none none (front ++ [last]) head current := by
      cases front with
      | nil => exact segment_cons_le
      | cons first front => exact segment_cons_le
    apply Triple.of_le (mul_le_mul_left start _)
    rw [mul_assoc]
    apply Triple.fact_mul
    intro some
    obtain ⟨place, rfl⟩ := Option.ne_none_iff_exists'.mp some
    apply triple_of_last
    intro place before finish
    rw [finish, attach]
    apply triple_setNext.step
    intro _
    refine Triple.of_eq (triple_setPrev.step fun _ => ?_) (by rw [← mul_assoc, mul_comm])
    apply Triple.ret
    rw [mul_comm, mul_comm (tree _ _ last _)]
    exact mul_le_mul_left le_segment_concat _

end Lists

/-- A parse function in memory, and its counterpart on trees. -/
abbrev Filler := Pointer → Text → Action Cell (Option Text)

/-- The node of a value is filled as its counterpart says, under the key it has. -/
def Fills (hooks : Malloc) (value : Filler) (read : Reader UInt8 CJSON) : Prop :=
  ∀ (kind : Kind) (key : Option Text) (prev next : Pointer) (address : ℕ) (buffer : Text),
    Triple (tree prev next { kind := kind, string := key } address) (value (some address) buffer)
      (outcome hooks (⨆ item, tree prev next item address)
        (fun item => tree prev next { item with string := key } address) (read buffer))

/-- The node of an entry is filled as its counterpart says. -/
def FillsEntry (hooks : Malloc) (entry : Filler) (read : Reader UInt8 CJSON) : Prop :=
  ∀ (prev : Pointer) (address : ℕ) (buffer : Text),
    Triple (tree prev none {} address) (entry (some address) buffer)
      (outcome hooks (⨆ item, tree prev none item address)
        (fun item => tree prev none item address) (read buffer))

section Entries

variable {hooks : Malloc} {entry : Filler} {read : Reader UInt8 CJSON} {closing : UInt8}

/-- What the loop over the entries leaves, when it has started with some items. -/
def entered (hooks : Malloc) (items : List CJSON) (read : Option (List CJSON × Text))
    (result : Option Text × Pointer × Pointer) : Assertion ℕ Cell :=
  outcome hooks (⨆ list : List CJSON × Pointer, segment none none list.1 result.2.1 list.2)
    (fun values => segment none none (items ++ values) result.2.1 result.2.2) read result.1

/-- A list that was begun and cannot be finished. -/
theorem le_entered {items list : List CJSON} {found : Option (List CJSON × Text)}
    {head last current : Pointer} (failed : hooks.Generous → found = none) :
    segment none none list head last ≤ entered hooks items found (none, head, current) := by
  rw [entered, outcome, fact_mul_of failed]
  exact le_iSup_of_le (list, last) le_rfl

/-- An item in front of those that are read behind it. -/
theorem entered_cons {items : List CJSON} {value : CJSON} {found : Option (List CJSON × Text)}
    (result : Option Text × Pointer × Pointer) :
    entered hooks (items ++ [value]) found result ≤
      entered hooks items (found.map fun read => (value :: read.1, read.2)) result := by
  simp only [entered, List.append_assoc, List.singleton_append]
  exact outcome_map (fun values => segment none none (items ++ values) result.2.1 result.2.2)
    (fun values => value :: values) result.1

/-- **The loop over the entries.** The items it has linked are those that were read. -/
theorem triple_parseEntries (fills : FillsEntry hooks entry read) (advances : Advances read)
    (bound : ℕ) : ∀ (buffer : Text) (items : List CJSON) (head current : Pointer),
    0 < bound → buffer.length ≤ bound →
    Triple (segment none none items head current)
      (hooks.parseEntries closing entry head current buffer)
      (entered hooks items (delimited bufferSkipWhitespace read 44 closing bound buffer)) := by
  induction bound with
  | zero => exact fun _ _ _ _ some => (Nat.lt_irrefl _ some).elim
  | succ bound ih =>
      intro buffer items head current _ short
      rw [Malloc.parseEntries]
      refine Triple.of_eq (triple_newItem.step fun pointer => ?_) (one_mul _).symm
      cases pointer with
      | none =>
          apply Triple.fact_mul
          intro refused
          exact Triple.ret (le_entered fun generous => (refused generous).elim)
      | some item =>
          rw [mul_comm]
          apply Triple.bind triple_attach
          intro first
          rw [mul_comm]
          apply (fills current item buffer).step
          intro result
          have linked {value : CJSON} : tree current none value item *
              segment none (some item) items first current ≤
                segment none none (items ++ [value]) first (some item) := by
            rw [mul_comm]
            exact le_segment_concat
          cases result with
          | none =>
              rw [outcome, mul_assoc]
              refine Triple.fact_mul fun failed => Triple.iSup_mul fun value => Triple.ret ?_
              refine linked.trans (le_entered fun generous => ?_)
              rw [delimited, failed generous]
          | some rest =>
              rw [outcome]
              apply Triple.iSup_mul
              intro value
              rw [mul_assoc]
              refine Triple.fact_mul fun found => Triple.of_le linked ?_
              simp only [delimited, found]
              cases skipped : bufferSkipWhitespace rest with
              | nil => exact Triple.ret (le_entered fun _ => rfl)
              | cons mark after =>
                  by_cases again : mark = 44
                  · have shorter : after.length < bound := by
                      obtain ⟨first, consumed, shape⟩ := advances _ _ _ found
                      have suffix := (bufferSkipWhitespace_skips.suffix rest).length_le
                      rw [skipped, List.length_cons] at suffix
                      rw [shape, List.length_cons, List.length_append] at short
                      omega
                    simp only [if_pos again]
                    exact (ih after (items ++ [value]) first (some item) (by omega) (by omega)).mono
                      le_rfl fun result => entered_cons result
                  · simp only [if_neg again]
                    by_cases closes : mark = closing
                    · simp only [if_pos closes]
                      exact Triple.ret (le_accepted
                        (fun values => segment none none (items ++ values) first (some item)) rfl)
                    · simp only [if_neg closes]
                      exact Triple.ret (le_entered fun _ => rfl)

/-- The head of a list points back to its last node. -/
theorem triple_close {value : CJSON} {values : List CJSON} {head current : Pointer} :
    Triple (segment none none (value :: values) head current)
      (modifyNode head fun node => { node with prev := current })
      fun _ => chain (value :: values) head := by
  rw [← mul_one (segment _ _ _ _ _)]
  apply triple_of_segment
  intro address second start
  rw [start, mul_one]
  apply (triple_setPrev.frame _).mono le_rfl
  intro _
  apply le_iSup_of_le current
  rw [segment_cons]
  apply le_iSup_of_le (address, second)
  rw [fact_mul_of rfl]

theorem delimited_ne_nil {bound : ℕ} {buffer rest : Text} {values : List CJSON}
    (found : delimited bufferSkipWhitespace read 44 closing bound buffer = some (values, rest)) :
    ∃ first later, values = first :: later := by
  cases bound with
  | zero => exact nomatch found
  | succ bound =>
      obtain ⟨first, _, _, _, _, _, ⟨_, later, rfl, _⟩ | ⟨_, _, rfl, _⟩⟩ :=
        delimited_succ_eq_some found
      · exact ⟨first, later, rfl⟩
      · exact ⟨first, [], rfl⟩

end Entries

section Containers

variable {hooks : Malloc} {kind : Kind} {prev next : Pointer} {address : ℕ}

/-- A node becomes a container of children that are there. -/
theorem triple_hold {old : Kind} {key : Option Text} {children : List CJSON} {head : Pointer}
    (other : kind ≠ .number) :
    Triple (tree prev next { kind := old, string := key } address * chain children head)
      (modifyNode (some address) fun node => { node.setType kind with child := head })
      fun _ => tree prev next { kind := kind, string := key, child := children } address := by
  refine triple_modifyTree (fun node shows => ?_) fun node _ => ?_
  · exact ⟨shows.prev, shows.next, rfl, rfl, rfl, shows.valuedouble,
      fun number => (other number).elim⟩
  · simp only [belongings, Node.setType, mul_assoc]
    refine mul_le_mul_right (mul_le_mul_right ?_ _) _
    refine (mul_le_mul_left ?_ _).trans (one_mul _).le
    exact iSup_le fun last => by
      rw [segment_nil, ← mul_one (fact _)]
      exact fact_mul_le fun _ => le_rfl

theorem chain_nil {first : Pointer} : chain [] first = fact (first = none) := by
  apply le_antisymm
  · apply iSup_le
    intro last
    rw [segment_nil, ← mul_one (fact _), ← mul_one (fact (first = none))]
    refine fact_mul_le fun ⟨absent, _⟩ => ?_
    rw [fact_mul_of absent]
  · apply le_iSup_of_le none
    rw [segment_nil, and_iff_left rfl]

variable {entry : Filler} {read : Reader UInt8 CJSON} {opening closing : UInt8}

/-- **A container in memory.** Its items become its children, or are given back. -/
theorem fills_parseContainer (other : kind ≠ .number) (fills : FillsEntry hooks entry read)
    (advances : Advances read) :
    Fills hooks (parseContainer hooks kind opening closing entry)
      (CJSON.parseContainer kind opening closing read) := by
  intro old key prev next address buffer
  have kept : tree prev next { kind := old, string := key } address ≤
      ⨆ item, tree prev next item address := le_iSup (fun item => tree prev next item address) _
  cases buffer with
  | nil => exact triple_refused (fun _ => rfl) kept
  | cons first rest =>
      simp only [parseContainer, CJSON.parseContainer]
      by_cases opens : first = opening
      · simp only [opens, ne_eq, not_true_eq_false, if_false]
        cases skipped : bufferSkipWhitespace rest with
        | nil => exact triple_refused (fun _ => rfl) kept
        | cons mark after =>
            by_cases empty : mark = closing
            · have nothing : (chain [] none : Assertion ℕ Cell) = 1 := by
                rw [chain_nil, fact_of rfl]
              simp only [if_pos empty]
              rw [← mul_one (tree prev next _ address), ← nothing]
              exact Triple.bind (triple_hold other) fun _ => triple_accepted rfl le_rfl
            · have blank : segment none none [] none none = (1 : Assertion ℕ Cell) := by
                rw [segment_nil, fact_of ⟨rfl, rfl⟩]
              simp only [if_neg empty]
              refine Triple.of_eq
                (Triple.step (triple_parseEntries fills advances (after.length + 1) (mark :: after)
                  [] none none (Nat.succ_pos _) le_rfl) fun result => ?_)
                (by rw [blank, one_mul])
              obtain ⟨result, head, current⟩ := result
              cases result with
              | none =>
                  rw [entered, outcome, mul_assoc]
                  refine Triple.fact_mul fun failed => Triple.iSup_mul fun list => ?_
                  apply (triple_delete list.1).step
                  intro _
                  rw [one_mul]
                  refine triple_refused (fun generous => ?_) kept
                  rw [failed generous, Option.map_none]
              | some after =>
                  rw [entered, outcome]
                  apply Triple.iSup_mul
                  intro values
                  rw [mul_assoc]
                  apply Triple.fact_mul
                  intro found
                  obtain ⟨first, later, rfl⟩ := delimited_ne_nil found
                  apply triple_close.step
                  intro _
                  rw [mul_comm]
                  rw [found]
                  exact Triple.bind (triple_hold other) fun _ => triple_accepted rfl le_rfl
      · simp only [ne_eq, opens, not_false_eq_true, if_true]
        exact triple_refused (fun _ => rfl) kept

end Containers

section Values

variable {hooks : Malloc} {value : Filler} {read : Reader UInt8 CJSON}

/-- An element is a value without a key. -/
theorem fillsEntry_parseElement (fills : Fills hooks value read)
    (keyless : ∀ buffer item rest, read buffer = some (item, rest) → item.string = none) :
    FillsEntry hooks (parseElement value) (CJSON.parseElement read) := by
  intro prev address buffer
  refine (fills .invalid none prev none address (bufferSkipWhitespace buffer)).mono le_rfl
    fun result => outcome_mono le_rfl (fun item rest found => ?_) result
  obtain ⟨_, _, _, _, _⟩ := item
  obtain rfl := keyless _ _ _ found
  exact le_rfl

/-- The name of a member is parsed as its value and becomes its key. -/
theorem triple_name {prev next : Pointer} {address : ℕ} {name : Text} :
    Triple (tree prev next { kind := .string, valuestring := some name } address)
      (modifyNode (some address) fun node =>
        { node with string := node.valuestring, valuestring := none })
      fun _ => tree prev next { kind := .string, string := some name } address := by
  rw [← mul_one (tree prev next _ address)]
  refine triple_modifyTree (fun node shows => ?_) fun node _ => ?_
  · exact ⟨shows.prev, shows.next, shows.kind, shows.isReference, shows.stringIsConst,
      shows.valuedouble, nofun⟩
  · simp only [belongings, spelled_none, mul_one, fact_of, one_mul]
    refine mul_le_mul_left ?_ _
    rw [mul_comm]
    exact fact_mul_le fun _ => le_rfl

/-- The value of a member is filled in as it is read. -/
theorem fills_parseMemberValue (fills : Fills hooks value read) :
    Fills hooks (parseMemberValue value) (CJSON.parseMemberValue read) := by
  intro kind key prev next address buffer
  have kept : tree prev next { kind := kind, string := key } address ≤
      ⨆ item, tree prev next item address := le_iSup (fun item => tree prev next item address) _
  unfold parseMemberValue CJSON.parseMemberValue
  cases bufferSkipWhitespace buffer with
  | nil => exact triple_refused (fun _ => rfl) kept
  | cons mark rest =>
      change Triple _ (if mark ≠ 58 then _ else _) (outcome _ _ _ (if mark ≠ 58 then _ else _))
      by_cases colon : mark = 58
      · rw [if_neg (not_not.mpr colon), if_neg (not_not.mpr colon)]
        exact fills kind key prev next address _
      · rw [if_pos colon, if_pos colon]
        exact triple_refused (fun _ => rfl) kept

/-- A member is a value under the key that was read in front of it. -/
theorem fillsEntry_parseMember (fills : Fills hooks value read) :
    FillsEntry hooks (parseMember hooks value) (CJSON.parseMember read) := by
  intro prev address buffer
  have kept (item : CJSON) : tree prev none item address ≤ ⨆ item, tree prev none item address :=
    le_iSup (fun item => tree prev none item address) item
  cases buffer with
  | nil => exact triple_refused (fun _ => rfl) (kept _)
  | cons first rest =>
      apply (triple_parseString rfl _).bind
      intro result
      cases result with
      | none =>
          refine Triple.fact_mul fun failed => triple_refused (fun generous => ?_) (kept _)
          rw [CJSON.parseMember, failed generous]
      | some after =>
          refine Triple.iSup fun name => Triple.fact_mul fun found => ?_
          have reads : CJSON.parseMember read (first :: rest) =
              (CJSON.parseMemberValue read after).map fun read =>
                ({ read.1 with string := some name }, read.2) := by
            rw [CJSON.parseMember, found]
          rw [reads]
          apply triple_name.bind
          intro _
          refine (fills_parseMemberValue fills .string (some name) prev none address after).mono
            le_rfl fun result => ?_
          exact outcome_map (fun item => tree prev none item address)
            (fun item : CJSON => { item with string := some name }) result

/-- A number is filled in as it is read. -/
theorem fills_parseNumber : Fills hooks parseNumber CJSON.parseNumber := by
  intro kind key prev next address buffer
  unfold parseNumber CJSON.parseNumber
  cases strtod (numberCString buffer) with
  | none =>
      exact triple_refused (fun _ => rfl) (le_iSup (fun item => tree prev next item address) _)
  | some found =>
      obtain ⟨number, afterEnd⟩ := found
      have filled : Triple (tree prev next { kind := kind, string := key } address)
          (modifyNode (some address) fun node =>
            { node.setType .number with valuedouble := number, valueint := CJSON.valueint number })
          fun _ =>
            tree prev next { kind := .number, valuedouble := number, string := key } address := by
        rw [← mul_one (tree prev next _ address)]
        refine triple_modifyTree (fun node shows => ?_) fun node _ => (mul_one _).le
        exact ⟨shows.prev, shows.next, rfl, rfl, rfl, rfl, fun _ => rfl⟩
      exact filled.bind fun _ => triple_accepted rfl le_rfl

/-- A word is filled in. -/
theorem triple_setWord {word : Text × Kind} (member : word ∈ words) {kind : Kind}
    {key : Option Text} {prev next : Pointer} {address : ℕ} :
    Triple (tree prev next { kind := kind, string := key } address)
      (modifyNode (some address) (Node.setWord word.2))
      fun _ => tree prev next { kind := word.2, string := key } address := by
  have noNumber : ∀ word ∈ words, word.2 ≠ .number := by decide
  rw [← mul_one (tree prev next _ address)]
  refine triple_modifyTree (fun node shows => ?_) fun node _ => (mul_one _).le
  exact ⟨shows.prev, shows.next, rfl, rfl, rfl, shows.valuedouble,
    fun number => (noNumber word member number).elim⟩

/-- A string as a value. -/
theorem fills_parseString : Fills hooks (parseString hooks) fun buffer =>
    (CJSON.parseString buffer).map fun read =>
      ({ kind := .string, valuestring := some read.1 }, read.2) := by
  intro kind key prev next address buffer
  apply (triple_parseString rfl buffer).mono le_rfl
  intro result
  refine (outcome_mono (le_iSup (fun item => tree prev next item address) _)
    (fun value rest _ => le_rfl) result).trans ?_
  exact outcome_map (fun item : CJSON => tree prev next { item with string := key } address)
    (fun value => { kind := .string, valuestring := some value }) result

/-- What the values one level down have to satisfy. -/
structure Nested (hooks : Malloc) (value : Filler) (read : Reader UInt8 CJSON) : Prop where
  fills : Fills hooks value read
  advances : Advances read
  keyless : ∀ buffer item rest, read buffer = some (item, rest) → item.string = none

namespace Nested

variable (inner : Nested hooks value read)

include inner

theorem parseArray : Fills hooks (Heap.parseArray hooks value) (CJSON.parseArray read) :=
  fills_parseContainer (by decide) (fillsEntry_parseElement inner.fills inner.keyless)
    (advances_parseElement inner.advances)

theorem parseObject : Fills hooks (Heap.parseObject hooks value) (CJSON.parseObject read) :=
  fills_parseContainer (by decide) (fillsEntry_parseMember inner.fills)
    (advances_parseMember inner.advances)

end Nested

/-- The body of `parse_value`, when the values one level down are filled. -/
theorem fills_parseValueWith {values : Option Filler} {reads : Option (Reader UInt8 CJSON)}
    (nested : (values = none ∧ reads = none) ∨
      ∃ value read, values = some value ∧ reads = some read ∧ Nested hooks value read) :
    Fills hooks (parseValueWith hooks values) (CJSON.parseValueWith reads) := by
  intro kind key prev next address buffer
  have kept : tree prev next { kind := kind, string := key } address ≤
      ⨆ item, tree prev next item address := le_iSup (fun item => tree prev next item address) _
  unfold parseValueWith CJSON.parseValueWith
  cases found : words.find? fun word => word.1 <+: buffer with
  | some word =>
      exact (triple_setWord (List.mem_of_find?_eq_some found)).bind fun _ =>
        triple_accepted rfl le_rfl
  | none =>
      cases buffer with
      | nil => exact triple_refused (fun _ => rfl) kept
      | cons first rest =>
          simp only
          by_cases quote : first = doubleQuote
          · rw [if_pos quote, if_pos quote]
            exact fills_parseString kind key prev next address _
          rw [if_neg quote, if_neg quote]
          by_cases digit : first = 45 ∨ isDigit first
          · rw [if_pos digit, if_pos digit]
            exact fills_parseNumber kind key prev next address _
          rw [if_neg digit, if_neg digit]
          by_cases array : first = 91
          · rw [if_pos array, if_pos array]
            obtain ⟨rfl, rfl⟩ | ⟨value, read, rfl, rfl, inner⟩ := nested
            · exact triple_refused (fun _ => rfl) kept
            · exact inner.parseArray kind key prev next address _
          rw [if_neg array, if_neg array]
          by_cases object : first = 123
          · rw [if_pos object, if_pos object]
            obtain ⟨rfl, rfl⟩ | ⟨value, read, rfl, rfl, inner⟩ := nested
            · exact triple_refused (fun _ => rfl) kept
            · exact inner.parseObject kind key prev next address _
          rw [if_neg object, if_neg object]
          exact triple_refused (fun _ => rfl) kept

/-- **Values in memory.** At every depth `parse_value` fills its node with the value that
it reads. -/
theorem fills_parseValue (levels : ℕ) :
    Fills hooks (parseValue hooks levels) (CJSON.parseValue levels) := by
  induction levels with
  | zero => exact fills_parseValueWith (.inl ⟨rfl, rfl⟩)
  | succ levels ih =>
      refine fills_parseValueWith
        (.inr ⟨_, _, rfl, rfl, ih, (parses_parseValue levels).advances, ?_⟩)
      exact fun buffer item rest found => (parsedValue_parseValue levels _ _ _ found).key

/-- What `cJSON_ParseWithLength` leaves: the tree of the text, or nothing. -/
def grown (hooks : Malloc) (buffer : Text) : Pointer → Assertion ℕ Cell
  | none => fact (hooks.Generous → CJSON.parseWithLength buffer = none)
  | some address => ⨆ json, fact (CJSON.parseWithLength buffer = some json) *
      tree none none json address

/-- **`cJSON_ParseWithLength` in memory.** It returns the tree of the text and has
allocated nothing else; where it returns null it has given back what it allocated. It
returns null for a text that has a tree only if an allocation is refused. -/
theorem triple_parseWithLength (buffer : Text) :
    Triple 1 (parseWithLength hooks buffer) (grown hooks buffer) := by
  unfold parseWithLength
  by_cases empty : buffer = []
  · rw [if_pos empty]
    apply Triple.ret
    rw [grown, fact_of fun _ => by rw [CJSON.parseWithLength, if_pos empty]]
  rw [if_neg empty]
  apply triple_newItem.bind
  intro pointer
  cases pointer with
  | none =>
      exact Triple.ret (fact_mono fun refused generous => (refused generous).elim)
  | some address =>
      apply (fills_parseValue nestingLimit .invalid none none none address _).bind
      intro result
      have reads : CJSON.parseWithLength buffer =
          (CJSON.parseValue nestingLimit (bufferSkipWhitespace (skipUtf8Bom buffer))).map
            Prod.fst := by
        rw [CJSON.parseWithLength, if_neg empty]
      cases result with
      | none =>
          refine Triple.fact_mul fun failed => Triple.iSup fun item => ?_
          rw [← segment_singleton]
          refine (triple_delete [item]).bind fun _ => Triple.ret ?_
          rw [grown, fact_of fun generous => by rw [reads, failed generous, Option.map_none]]
      | some rest =>
          refine Triple.iSup fun item => Triple.fact_mul fun found => Triple.ret ?_
          have keyless := (parsedValue_parseValue _ _ _ _ found).key
          apply le_iSup_of_le item
          rw [fact_mul_of (by rw [reads, found, Option.map_some])]
          obtain ⟨_, _, _, _, _⟩ := item
          obtain rfl := keyless
          exact le_rfl

/-- What `cJSON_ParseWithLength` leaves is what `cJSON_Delete` gives back. -/
theorem triple_delete_grown (buffer : Text) (item : Item) :
    Triple (grown hooks buffer item) item.delete fun _ => 1 := by
  cases item with
  | none =>
      rw [delete_none]
      exact Triple.ret (fact_le_one _)
  | some address =>
      refine Triple.iSup fun json => Triple.fact_mul fun _ => ?_
      rw [← segment_singleton]
      exact triple_delete [json]

/-- **Parse and delete.** Whichever allocations are refused, the parser ends without an access
to memory that is not in use. It leaves the memory as it was, next to the tree of the text or
next to nothing, and `cJSON_Delete` of what it returns makes the memory what it was. -/
theorem parseWithLength_delete (hooks : Malloc) (buffer : Text) (store : Store Cell) :
    ∃ item after last,
      (parseWithLength hooks buffer).run store = pure (item, after) ∧
      (grown hooks buffer item * exactly store.cells).On after.cells ∧
      (Item.delete item).run after = pure ((), last) ∧ last.cells = store.cells := by
  have start : (1 * exactly store.cells).On store.cells := by
    rw [one_mul]
    exact exactly_on.mpr rfl
  obtain ⟨item, after, parsed, part⟩ := triple_parseWithLength buffer _ store start
  obtain ⟨_, last, deleted, rest⟩ := triple_delete_grown buffer item _ after part
  rw [one_mul] at rest
  exact ⟨item, after, last, parsed, part, deleted, exactly_on.mp rest⟩

end Values

end Evenscribe.CJSON.Heap
