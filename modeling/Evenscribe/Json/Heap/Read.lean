import Evenscribe.Json.Heap.Tree
import Evenscribe.Json.ParseShape

/-!
# Reading trees in memory

The searches and tests of the source, on nodes. `Present` says of whole cells what
`tree` says of a part of them, without the links back; a function that only reads
returns what its counterpart on trees does.
-/

namespace Evenscribe.CJSON.Heap

open Allocation Separation Separation.Assertion

section Access

/-- The loop of `get_object_item` with `case_sensitive` and the test behind it. -/
def Item.getObjectItem (currentElement : Item) (name : Text) : Action Cell Item := do
  if currentElement.isSome then
    let node ← readNode currentElement
    if node.string.isSome then
      if (← readString node.string) = name then return currentElement
      else node.next |>.getObjectItem name
    else return none
  else return none
partial_fixpoint

/-- `cJSON_GetObjectItemCaseSensitive`. -/
def getObjectItemCaseSensitive (object : Item) (name : Text) : Action Cell Item := do
  if object.isSome then
    let node ← readNode object
    node.child.getObjectItem name
  else return none

/-- What the type tests share: a null pointer is of no type. -/
def isKind (kind : Kind) (item : Item) : Action Cell Bool := do
  if item.isSome then return (← readNode item).kind = kind else return false

/-- `cJSON_IsNumber`. -/
def isNumber (item : Item) : Action Cell Bool := isKind .number item

/-- `cJSON_IsString`. -/
def isString (item : Item) : Action Cell Bool := isKind .string item

/-- `cJSON_IsObject`. -/
def isObject (item : Item) : Action Cell Bool := isKind .object item

/-- `cJSON_ArrayForEach` over the elements from one on, with what the body keeps. -/
def Item.forEach {σ ε : Type} (element : Item) (body : σ → Item → ExceptT ε (Action Cell) σ)
    (state : σ) : ExceptT ε (Action Cell) σ := do
  if element.isSome then
    let state ← body state element
    let node ← readNode element
    node.next |>.forEach body state
  else return state
partial_fixpoint

end Access

/-- The string that a pointer points to. -/
def Spelled (cells : Heap ℕ Cell) : Option Text → Pointer → Prop
  | none, pointer => pointer = none
  | some text, pointer => ∃ address bytes, pointer = some address ∧
      cells address = some (.block bytes) ∧ 0 ∈ bytes ∧ cString bytes = text

mutual

/-- The node at an address with its strings, its children and the node behind it. -/
def Present (cells : Heap ℕ Cell) : CJSON → ℕ → Pointer → Prop
  | ⟨kind, valuestring, valuedouble, string, child⟩, address, next =>
      ∃ node : Node, cells address = some (.node node) ∧ node.next = next ∧ node.kind = kind ∧
        node.valuedouble = valuedouble ∧ Spelled cells valuestring node.valuestring ∧
        Spelled cells string node.string ∧ Listed cells child node.child

/-- The nodes from a pointer on. -/
def Listed (cells : Heap ℕ Cell) : List CJSON → Pointer → Prop
  | [], first => first = none
  | item :: items, first => ∃ address next, first = some address ∧
      Present cells item address next ∧ Listed cells items next

end

/-- A node with its strings and its children, apart from its place in a list. -/
structure Represents (cells : Heap ℕ Cell) (item : CJSON) (node : Node) : Prop where
  kind : node.kind = item.kind
  valuedouble : node.valuedouble = item.valuedouble
  valuestring : Spelled cells item.valuestring node.valuestring
  string : Spelled cells item.string node.string
  child : Listed cells item.child node.child

/-- What a search returns, as a pointer. -/
def Found (cells : Heap ℕ Cell) : Option CJSON → Pointer → Prop
  | none, pointer => pointer = none
  | some item, pointer => ∃ address next, pointer = some address ∧ Present cells item address next

section Present

variable {cells : Heap ℕ Cell} {address : ℕ} {prev next first last pointer : Pointer}

/-- A tree is there when its node is and stands for it. -/
theorem present_iff {item : CJSON} : Present cells item address next ↔
    ∃ node : Node, cells address = some (.node node) ∧ node.next = next ∧
      Represents cells item node := by
  obtain ⟨kind, valuestring, valuedouble, string, child⟩ := item
  constructor
  · intro ⟨node, here, follows, ofKind, value, spells, key, children⟩
    exact ⟨node, here, follows, ofKind, value, spells, key, children⟩
  · intro ⟨node, here, follows, represents⟩
    exact ⟨node, here, follows, represents.kind, represents.valuedouble, represents.valuestring,
      represents.string, represents.child⟩

/-- A string that is part of the memory is spelled there. -/
theorem spelled_of_within {string : Option Text} (within : (spelled string pointer).Within cells) :
    Spelled cells string pointer := by
  cases string with
  | none => exact within.of_fact
  | some text =>
      obtain ⟨⟨address, bytes⟩, within⟩ := within.of_iSup
      obtain ⟨points, terminated, spells⟩ := within.left.of_fact
      exact ⟨address, bytes, points, within.right.apply_eq, terminated, spells⟩

mutual

/-- A tree in a part of the memory is present. -/
theorem present_of_within : ∀ (item : CJSON) {prev next : Pointer} {address : ℕ},
    (tree prev next item address).Within cells → Present cells item address next
  | ⟨kind, valuestring, valuedouble, string, child⟩, prev, next, address, within => by
      obtain ⟨node, within⟩ := within.of_iSup
      have shows := within.left.of_fact
      have owned := within.right.right
      obtain ⟨last, children⟩ := owned.right.of_iSup
      exact ⟨node, within.right.left.apply_eq, shows.next, shows.kind, shows.valuedouble,
        spelled_of_within owned.left.left, spelled_of_within owned.left.right,
        listed_of_within child children⟩

/-- A list that is part of the memory is listed there. -/
theorem listed_of_within : ∀ (items : List CJSON) {prev first last : Pointer},
    (segment prev none items first last).Within cells → Listed cells items first
  | [], prev, first, last, within => within.of_fact.1
  | item :: items, prev, first, last, within => by
      obtain ⟨⟨address, second⟩, within⟩ := within.of_iSup
      exact ⟨address, second, within.left.of_fact, present_of_within item within.right.left,
        listed_of_within items within.right.right⟩

end

end Present

section Reads

variable {cells : Heap ℕ Cell} {address : ℕ} {pointer next : Pointer} {item : CJSON}
  {items : List CJSON} {α : Type} {follow : Node → Action Cell α} {result : α}

theorem reads_readNode {node : Node} (found : cells address = some (.node node)) :
    Reads cells (readNode (some address)) node := (Reads.load found).bind Reads.ret

/-- A string that is spelled is read. -/
theorem reads_readString {text : Text} (spells : Spelled cells (some text) pointer) :
    Reads cells (readString pointer) text := by
  obtain ⟨address, bytes, rfl, found, terminated, rfl⟩ := spells
  have read : Reads cells (readBlock (some address)) bytes := (Reads.load found).bind Reads.ret
  apply read.bind
  rw [if_pos terminated]
  exact Reads.ret

theorem isSome_of_spelled {string : Option Text} (spells : Spelled cells string pointer) :
    pointer.isSome = string.isSome := by
  cases string with
  | none =>
      obtain rfl : pointer = none := spells
      rfl
  | some text =>
      obtain ⟨address, bytes, rfl, _⟩ := spells
      rfl

theorem eq_none_iff_of_spelled {string : Option Text} (spells : Spelled cells string pointer) :
    pointer = none ↔ string = none := by
  rw [← Option.isNone_iff_eq_none, ← Option.isNone_iff_eq_none, ← Option.not_isSome,
    ← Option.not_isSome, isSome_of_spelled spells]

/-- **The search in memory.** It finds the node of the child that the search in the tree
finds. -/
theorem reads_getObjectItem (name : Text) (listed : Listed cells items pointer) :
    ∃ found, Reads cells (Item.getObjectItem pointer name) found ∧
      Found cells (CJSON.getObjectItem name items) found := by
  induction items generalizing pointer with
  | nil =>
      obtain rfl : pointer = none := listed
      refine ⟨none, ?_, rfl⟩
      rw [Item.getObjectItem]
      exact Reads.ret
  | cons item items ih =>
      obtain ⟨address, next, rfl, present, later⟩ := listed
      obtain ⟨node, here, follows, represents⟩ := present_iff.mp present
      have key := represents.string
      have opened : ∀ found, Reads cells (if node.string.isSome then do
            if (← readString node.string) = name then return some address
            else node.next.getObjectItem name
          else return none) found →
          Reads cells (Item.getObjectItem (some address) name) found := by
        intro found reads
        rw [Item.getObjectItem, Option.isSome_some, if_pos rfl]
        exact (reads_readNode here).bind reads
      cases spells : item.string with
      | none =>
          refine ⟨none, opened _ ?_, ?_⟩
          · rw [isSome_of_spelled key, spells]
            exact Reads.ret
          · rw [CJSON.getObjectItem, spells]
            rfl
      | some string =>
          rw [spells] at key
          have searched : CJSON.getObjectItem name (item :: items) =
              if string = name then some item else CJSON.getObjectItem name items := by
            rw [CJSON.getObjectItem, spells]
          by_cases same : string = name
          · refine ⟨some address, opened _ ?_, ?_⟩
            · rw [isSome_of_spelled key, Option.isSome_some, if_pos rfl]
              apply (reads_readString key).bind
              rw [if_pos same]
              exact Reads.ret
            · rw [searched, if_pos same]
              exact ⟨address, next, rfl, present⟩
          · obtain ⟨found, reads, finds⟩ := ih later
            refine ⟨found, opened _ ?_, ?_⟩
            · rw [isSome_of_spelled key, Option.isSome_some, if_pos rfl]
              apply (reads_readString key).bind
              rw [if_neg same, follows]
              exact reads
            · rw [searched, if_neg same]
              exact finds

/-- The member that is found in memory is the one found in the tree. -/
theorem reads_getObjectItemCaseSensitive (name : Text)
    (present : Present cells item address next) :
    ∃ found, Reads cells (getObjectItemCaseSensitive (some address) name) found ∧
      Found cells (CJSON.getObjectItemCaseSensitive item name) found := by
  obtain ⟨node, here, _, represents⟩ := present_iff.mp present
  obtain ⟨found, reads, finds⟩ := reads_getObjectItem name represents.child
  exact ⟨found, (reads_readNode here).bind reads, finds⟩

/-- A type test in memory agrees with the tree. -/
theorem reads_isKind {kind : Kind} {found : Option CJSON} (finds : Found cells found pointer) :
    Reads cells (isKind kind pointer) (found.any fun item => item.kind = kind) := by
  cases found with
  | none =>
      obtain rfl : pointer = none := finds
      exact Reads.ret
  | some item =>
      obtain ⟨address, next, rfl, present⟩ := finds
      obtain ⟨node, here, _, represents⟩ := present_iff.mp present
      rw [Option.any_some, ← represents.kind]
      exact (reads_readNode here).bind Reads.ret

/-- The loop over the elements of a list, when the body reads what a step computes. -/
theorem reads_forEach {σ ε : Type} {body : σ → Item → ExceptT ε (Action Cell) σ}
    {step : σ → CJSON → Except ε σ} {state : σ} (listed : Listed cells items pointer)
    (each : ∀ item ∈ items, ∀ address next, Present cells item address next →
      ∀ state, Reads cells (body state (some address)).run (step state item)) :
    Reads cells (Item.forEach pointer body state).run (items.foldlM step state) := by
  induction items generalizing pointer state with
  | nil =>
      obtain rfl : pointer = none := listed
      rw [Item.forEach]
      exact Reads.ret
  | cons item items ih =>
      obtain ⟨address, next, rfl, present, later⟩ := listed
      obtain ⟨node, here, follows, _⟩ := present_iff.mp present
      rw [Item.forEach, Option.isSome_some, if_pos rfl, List.foldlM_cons]
      have first := each item List.mem_cons_self address next present state
      refine Reads.follow first fun state _ => Reads.lift (reads_readNode here) ?_
      rw [follows]
      exact ih later fun item inside => each item (List.mem_cons_of_mem _ inside)

end Reads

end Evenscribe.CJSON.Heap
