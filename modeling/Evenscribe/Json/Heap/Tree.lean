import Evenscribe.Json.Heap.Node

/-!
# Trees in memory

`tree` is the memory of a node with all that belongs to it, `segment` that of
neighbours in a doubly linked list. The first of the children of a node points
back to the last one. Deleting a list gives all of it back and touches nothing
else.
-/

namespace Evenscribe.CJSON.Heap

open Allocation Separation Separation.Assertion

/-- The block of a string; a missing string is a null pointer. -/
def spelled (string : Option Text) (pointer : Pointer) : Assertion ℕ Cell :=
  match string with
  | none => fact (pointer = none)
  | some text => ⨆ place : ℕ × Text,
      fact (pointer = some place.1 ∧ 0 ∈ place.2 ∧ cString place.2 = text) *
        holds place.1 (.block place.2)

/-- What a node says of itself. -/
structure Shows (item : CJSON) (prev next : Pointer) (node : Node) : Prop where
  prev : node.prev = prev
  next : node.next = next
  kind : node.kind = item.kind
  isReference : node.isReference = false
  stringIsConst : node.stringIsConst = false
  valuedouble : node.valuedouble = item.valuedouble
  valueint : item.kind = .number → node.valueint = CJSON.valueint item.valuedouble

mutual

/-- A node between its neighbours, with its strings and its children. -/
def tree (prev next : Pointer) : CJSON → ℕ → Assertion ℕ Cell
  | ⟨kind, valuestring, valuedouble, string, child⟩, address =>
      ⨆ node : Node, fact (Shows ⟨kind, valuestring, valuedouble, string, child⟩ prev next node) *
        (holds address (.node node) * (spelled valuestring node.valuestring *
          spelled string node.string * ⨆ last, segment last none child node.child last))

/-- Neighbours from the first to the last of a list. -/
def segment (prev next : Pointer) : List CJSON → Pointer → Pointer → Assertion ℕ Cell
  | [], first, last => fact (first = next ∧ last = prev)
  | item :: items, first, last => ⨆ place : ℕ × Pointer, fact (first = some place.1) *
      (tree prev place.2 item place.1 * segment (some place.1) next items place.2 last)

end

/-- The children of a node, from the first one. -/
def chain (items : List CJSON) (first : Pointer) : Assertion ℕ Cell :=
  ⨆ last, segment last none items first last

/-- What a node owns. -/
def belongings (item : CJSON) (node : Node) : Assertion ℕ Cell :=
  spelled item.valuestring node.valuestring * spelled item.string node.string *
    chain item.child node.child

/-- Memory that holds a node. -/
def used (address : ℕ) : Assertion ℕ Cell := ⨆ node, holds address (.node node)

section Shape

variable {prev next first last : Pointer} {address : ℕ} {item : CJSON} {items later : List CJSON}
  {node : Node}

theorem spelled_none {pointer : Pointer} : spelled none pointer = fact (pointer = none) := rfl

/-- A tree is a node that shows it, with what belongs to the node. -/
theorem tree_eq : tree prev next item address =
    ⨆ node, fact (Shows item prev next node) *
      (holds address (.node node) * belongings item node) := by
  cases item
  rfl

theorem segment_nil : segment prev next [] first last = fact (first = next ∧ last = prev) := rfl

/-- A list is a tree with the list behind it. -/
theorem segment_cons : segment prev next (item :: items) first last =
    ⨆ place : ℕ × Pointer, fact (first = some place.1) *
      (tree prev place.2 item place.1 * segment (some place.1) next items place.2 last) := rfl

/-- A list falls into two at every place. -/
theorem segment_append : segment prev next (items ++ later) first last =
    ⨆ joint : Pointer × Pointer,
      segment prev joint.2 items first joint.1 * segment joint.1 next later joint.2 last := by
  induction items generalizing prev first with
  | nil =>
      apply le_antisymm
      · apply le_iSup_of_le (prev, first)
        rw [segment_nil, fact_mul_of ⟨rfl, rfl⟩, List.nil_append]
      · apply iSup_le
        intro joint
        rw [segment_nil]
        refine fact_mul_le fun ⟨here, there⟩ => ?_
        rw [here, ← there, List.nil_append]
  | cons item items ih =>
      simp only [List.cons_append, segment_cons, ih, Quantale.mul_iSup_distrib,
        Quantale.iSup_mul_distrib, mul_assoc]
      exact iSup_comm

/-- A list from its last node. -/
theorem segment_concat : segment prev next (items ++ [item]) first last =
    ⨆ place : ℕ × Pointer, fact (last = some place.1) *
      (segment prev (some place.1) items first place.2 * tree place.2 next item place.1) := by
  rw [segment_append]
  apply le_antisymm
  · refine iSup_le fun ⟨before, joint⟩ => ?_
    rw [segment_cons, Quantale.mul_iSup_distrib]
    refine iSup_le fun ⟨address, second⟩ => ?_
    rw [mul_left_comm]
    apply fact_mul_le
    intro start
    calc segment prev joint items first before *
          (tree before second item address * segment (some address) next [] second last)
        = fact (second = next ∧ last = some address) *
            (segment prev joint items first before * tree before second item address) := by
          rw [segment_nil]
          ac_rfl
      _ ≤ _ := by
          refine fact_mul_le fun ⟨follows, finish⟩ => le_iSup_of_le (address, before) ?_
          rw [fact_mul_of finish, ← follows, ← start]
  · refine iSup_le fun ⟨address, before⟩ => fact_mul_le fun finish => ?_
    apply le_iSup_of_le (before, some address)
    rw [segment_cons]
    refine mul_le_mul_right (le_iSup_of_le (address, next) ?_) _
    rw [fact_mul_of rfl, segment_nil, fact_of ⟨rfl, finish⟩, mul_one]

/-- A tree behind a list is the last of the list. -/
theorem le_segment_concat {before : Pointer} :
    segment prev (some address) items first before * tree before next item address ≤
      segment prev next (items ++ [item]) first (some address) := by
  rw [segment_concat]
  apply le_iSup_of_le (address, before)
  rw [fact_mul_of rfl]

/-- A list of one node. -/
theorem segment_singleton : segment prev next [item] (some address) (some address) =
    tree prev next item address := by
  apply le_antisymm
  · refine iSup_le fun ⟨place, second⟩ => fact_mul_le fun same => ?_
    obtain rfl := Option.some.inj same
    rw [segment_nil, mul_comm]
    exact fact_mul_le fun ⟨end_, _⟩ => by rw [end_]
  · apply le_iSup_of_le (address, next)
    rw [fact_mul_of rfl, segment_nil, fact_of ⟨rfl, rfl⟩, mul_one]

/-- A node that shows a tree is one, with what belongs to it. -/
theorem le_tree (shows : Shows item prev next node) :
    holds address (.node node) * belongings item node ≤ tree prev next item address := by
  rw [tree_eq]
  apply le_iSup_of_le node
  rw [fact_mul_of shows]

/-- A list with nodes has a first one. -/
theorem segment_cons_le : segment prev next (item :: items) first last ≤
    fact (first ≠ none) * segment prev next (item :: items) first last := by
  rw [segment_cons, Quantale.mul_iSup_distrib]
  refine iSup_mono fun place => fact_mul_le fun start => ?_
  rw [fact_mul_of (start ▸ Option.some_ne_none _), fact_mul_of start]

/-- A node that was just made is a tree. -/
theorem holds_le_tree : holds address (.node {}) ≤ tree none none {} address := by
  have owned : (belongings {} {} : Assertion ℕ Cell) = 1 := by
    have children : (chain [] none : Assertion ℕ Cell) = 1 := by
      simp only [chain, segment_nil, and_self, fact_of, iSup_const]
    rw [belongings, spelled_none, children, fact_of rfl, one_mul, one_mul]
  have shows : Shows {} none none {} := ⟨rfl, rfl, rfl, rfl, rfl, rfl, nofun⟩
  calc holds address (.node {}) = holds address (.node {}) * belongings {} {} := by
        rw [owned, mul_one]
    _ ≤ tree none none {} address := le_tree shows

theorem le_used : holds address (.node node) ≤ used address :=
  le_iSup (fun node => holds address (Cell.node node)) node

end Shape

section Rules

variable {α : Type} {address : ℕ} {prev next first last : Pointer} {item : CJSON}
  {items : List CJSON} {F : Assertion ℕ Cell} {action : Action Cell α} {Q : α → Assertion ℕ Cell}

/-- A tree is opened at its node. -/
theorem triple_of_tree
    (opened : ∀ node, Shows item prev next node →
      Triple (holds address (.node node) * (belongings item node * F)) action Q) :
    Triple (tree prev next item address * F) action Q := by
  rw [tree_eq]
  apply Triple.iSup_mul
  intro node
  rw [mul_assoc, mul_assoc]
  exact Triple.fact_mul fun shows => opened node shows

/-- A list is opened at its first node. -/
theorem triple_of_segment
    (opened : ∀ address second, first = some address →
      Triple (tree prev second item address * (segment (some address) next items second last * F))
        action Q) :
    Triple (segment prev next (item :: items) first last * F) action Q := by
  rw [segment_cons]
  refine Triple.iSup_mul fun ⟨address, second⟩ => ?_
  rw [mul_assoc, mul_assoc]
  exact Triple.fact_mul fun start => opened address second start

/-- A list is opened at its last node. -/
theorem triple_of_last
    (opened : ∀ address before, last = some address →
      Triple (tree before next item address * (segment prev (some address) items first before * F))
        action Q) :
    Triple (segment prev next (items ++ [item]) first last * F) action Q := by
  rw [segment_concat]
  refine Triple.iSup_mul fun ⟨address, before⟩ => ?_
  rw [mul_assoc, mul_comm (segment _ _ _ _ _), mul_assoc]
  exact Triple.fact_mul fun finish => opened address before finish

/-- A string is missing, or a block with a terminator. -/
theorem triple_of_spelled {string : Option Text} {pointer : Pointer}
    (absent : string = none → pointer = none → Triple F action Q)
    (present : ∀ address bytes, pointer = some address → 0 ∈ bytes → string = some (cString bytes) →
      Triple (holds address (.block bytes) * F) action Q) :
    Triple (spelled string pointer * F) action Q := by
  cases string with
  | none => exact Triple.fact_mul fun null => absent rfl null
  | some text =>
      refine Triple.iSup_mul fun ⟨address, bytes⟩ => ?_
      rw [mul_assoc]
      exact Triple.fact_mul fun ⟨points, terminated, spells⟩ =>
        present address bytes points terminated (congrArg some spells.symm)

/-- A change of a node that turns it, with what else is there, into another tree. -/
theorem triple_modifyTree {other : CJSON} {before after : Pointer} {change : Node → Node}
    (shown : ∀ node, Shows item prev next node → Shows other before after (change node))
    (owned : ∀ node, Shows item prev next node →
      belongings item node * F ≤ belongings other (change node)) :
    Triple (tree prev next item address * F) (modifyNode (some address) change)
      fun _ => tree before after other address := by
  apply triple_of_tree
  intro node shows
  apply (triple_modifyNode.frame (belongings item node * F)).mono le_rfl
  intro _
  calc holds address (.node (change node)) * (belongings item node * F)
      ≤ holds address (.node (change node)) * belongings other (change node) :=
        mul_le_mul_right (owned node shows) _
    _ ≤ tree before after other address := le_tree (shown node shows)

theorem triple_setNext {after : Pointer} :
    Triple (tree prev next item address)
      (modifyNode (some address) fun node => { node with next := after })
      fun _ => tree prev after item address := by
  rw [← mul_one (tree prev next item address)]
  refine triple_modifyTree (fun node shows => ?_) fun node _ => (mul_one _).le
  exact ⟨shows.prev, rfl, shows.kind, shows.isReference, shows.stringIsConst, shows.valuedouble,
    shows.valueint⟩

theorem triple_setPrev {before : Pointer} :
    Triple (tree prev next item address)
      (modifyNode (some address) fun node => { node with prev := before })
      fun _ => tree before next item address := by
  rw [← mul_one (tree prev next item address)]
  refine triple_modifyTree (fun node shows => ?_) fun node _ => (mul_one _).le
  exact ⟨rfl, shows.next, shows.kind, shows.isReference, shows.stringIsConst, shows.valuedouble,
    shows.valueint⟩

end Rules

section Delete

variable {address : ℕ}

/-- A string is given back, if there is one. -/
theorem triple_freeString {string : Option Text} {pointer : Pointer} {cleared : Node → Node} :
    Triple (spelled string pointer * used address)
      (freeString true pointer (some address) cleared) fun _ => used address := by
  refine triple_of_spelled (fun _ null => ?_) fun block bytes points _ _ => ?_
  · rw [null]
    exact Triple.ret le_rfl
  · rw [points]
    apply Triple.release.step
    intro _
    rw [one_mul]
    exact Triple.iSup fun node => triple_modifyNode.mono le_rfl fun _ => le_used

theorem triple_release : Triple (used address) (release (some address)) fun _ => 1 :=
  Triple.iSup fun _ => Triple.release

theorem delete_none : Item.delete none = pure () := by
  rw [Item.delete]
  rfl

/-- The test for children can be left to the deletion. -/
theorem delete_of_isSome {reference : Bool} {child : Item} (own : reference = false) :
    (if !reference && child.isSome then child.delete else pure ()) = child.delete := by
  cases child with
  | none => rw [own, delete_none]; rfl
  | some _ => rw [own]; rfl

/-- **Everything is given back.** Deleting a list releases its nodes, their strings and
their children, each once, and accesses nothing else. -/
theorem triple_delete : ∀ (items : List CJSON) {prev first last : Item},
    Triple (segment prev none items first last) first.delete fun _ => 1
  | [], prev, first, last => by
      rw [segment_nil, ← mul_one (fact _)]
      refine Triple.fact_mul fun ⟨absent, _⟩ => ?_
      rw [absent, delete_none]
      exact Triple.ret le_rfl
  | ⟨kind, valuestring, valuedouble, string, child⟩ :: items, prev, first, last => by
      rw [← mul_one (segment prev none _ first last)]
      refine triple_of_segment fun address second start => triple_of_tree fun node shows => ?_
      have children : Triple (chain child node.child)
          (if !node.isReference && node.child.isSome then node.child.delete else pure ())
          fun _ => 1 := by
        rw [delete_of_isSome shows.isReference]
        exact Triple.iSup fun last => triple_delete child
      rw [start, Item.delete, Option.isSome_some, if_pos rfl, mul_one]
      apply triple_readNode.step_known
      rw [shows.stringIsConst, shows.next]
      have parts : holds address (.node node) *
            (belongings ⟨kind, valuestring, valuedouble, string, child⟩ node *
              segment (some address) none items second last) ≤
          chain child node.child * (spelled valuestring node.valuestring * used address *
            (spelled string node.string * segment (some address) none items second last)) := by
        calc _ ≤ used address * _ := mul_le_mul_left le_used _
          _ = _ := by simp only [belongings]; ac_rfl
      refine Triple.of_le parts (children.step fun _ => ?_)
      rw [one_mul, shows.isReference]
      apply triple_freeString.step
      intro _
      rw [← mul_assoc, mul_comm (used address)]
      apply triple_freeString.step
      intro _
      apply triple_release.step
      intro _
      rw [one_mul]
      exact triple_delete items

end Delete

end Evenscribe.CJSON.Heap
