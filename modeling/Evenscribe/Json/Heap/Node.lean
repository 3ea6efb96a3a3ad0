import Evenscribe.Json.NumberText
import Evenscribe.Foundation.Allocation
import Evenscribe.Foundation.Memory

/-!
# cJSON nodes in memory

The structures of the source with their pointers. A cell is a node or a block of
characters; an access to a cell that is not in use, or outside a block, is a fault.
Only what the sources write to is memory: the text that is parsed is not.
-/

namespace Evenscribe.CJSON.Heap

open Allocation Separation Separation.Assertion

/-- A `cJSON *`. -/
abbrev Item := Pointer

/-- `struct cJSON`. The kind is the low byte of `type`, the two flags are
`cJSON_IsReference` and `cJSON_StringIsConst`. -/
structure Node where
  next : Item := none
  prev : Item := none
  child : Item := none
  kind : Kind := .invalid
  isReference : Bool := false
  stringIsConst : Bool := false
  valuestring : Pointer := none
  valueint : ℤ := 0
  valuedouble : Double := .finite 0
  string : Pointer := none

/-- An assignment to `type`, which clears the flags. -/
def Node.setType (kind : Kind) (node : Node) : Node :=
  { node with kind := kind, isReference := false, stringIsConst := false }

/-- What memory is asked for. -/
inductive Cell where
  | node (node : Node)
  | block (bytes : Text)

/-- The `allocate` of `global_hooks`: where memory is, if there is any, and what it holds. -/
structure Malloc extends Allocator Cell where
  contents : Store Cell → ℕ → Text
  length_contents : ∀ store size, (contents store size).length = size

/-- Memory of zeros in the order of addresses, for the calls that are granted. -/
def Malloc.zeroed (granted : ℕ → Bool) : Malloc where
  toAllocator := .inOrder granted
  contents _ size := List.replicate size 0
  length_contents _ _ := List.length_replicate

section Access

/-- The fields of a node. -/
def readNode (item : Item) : Action Cell Node := do
  match ← load item with
  | .node node => return node
  | .block _ => fault .outside

/-- An assignment to fields of a node. -/
def modifyNode (item : Item) (change : Node → Node) : Action Cell Unit := do
  let node ← readNode item
  assign item (.node (change node))

/-- The bytes of a block. -/
def readBlock (string : Pointer) : Action Cell Text := do
  match ← load string with
  | .node _ => fault .outside
  | .block bytes => return bytes

/-- Bytes written from a position on. -/
def writeBytes (output : Pointer) (position : ℕ) (bytes : Text) : Action Cell Unit := do
  match Memory.store (← readBlock output) position bytes with
  | none => fault .outside
  | some written => assign output (.block written)

/-- The characters up to the terminator. -/
def readString (string : Pointer) : Action Cell Text := do
  let bytes ← readBlock string
  if 0 ∈ bytes then return cString bytes else fault .outside

/-- `allocate` for an array of characters. -/
def newBlock (hooks : Malloc) (size : ℕ) : Action Cell Pointer := do
  allocate hooks.toAllocator (.block (hooks.contents (← get) size))

end Access

/-- `cJSON_New_Item`. -/
def newItem (hooks : Malloc) : Action Cell Item := allocate hooks.toAllocator (.node {})

/-- A string of a node given back, if it has one that is its own. -/
def freeString (own : Bool) (string : Pointer) (item : Item) (cleared : Node → Node) :
    Action Cell Unit :=
  if own && string.isSome then do
    release string
    modifyNode item cleared
  else pure ()

/-- `cJSON_Delete`: the node, what belongs to it, and the nodes behind it. -/
def Item.delete (item : Item) : Action Cell Unit := do
  if item.isSome then
    let node ← readNode item
    (if !node.isReference && node.child.isSome then node.child |>.delete else pure ())
    freeString (!node.isReference) node.valuestring item fun node =>
      { node with valuestring := none }
    freeString (!node.stringIsConst) node.string item fun node => { node with string := none }
    release item
    node.next |>.delete
partial_fixpoint

section Rules

variable {hooks : Malloc} {address position : ℕ} {node : Node} {bytes written : Text}

theorem triple_readNode : Triple (holds address (.node node)) (readNode (some address))
    fun value => fact (value = node) * holds address (.node node) := by
  rw [← mul_one (holds _ _)]
  refine Triple.load.step_known (Triple.ret ?_)
  rw [fact_mul_of rfl]

theorem triple_modifyNode {change : Node → Node} :
    Triple (holds address (.node node)) (modifyNode (some address) change)
      fun _ => holds address (.node (change node)) := by
  rw [← mul_one (holds _ _)]
  apply triple_readNode.step_known
  rw [mul_one]
  exact Triple.assign

theorem triple_readBlock : Triple (holds address (.block bytes)) (readBlock (some address))
    fun value => fact (value = bytes) * holds address (.block bytes) := by
  rw [← mul_one (holds _ _)]
  refine Triple.load.step_known (Triple.ret ?_)
  rw [fact_mul_of rfl]

/-- Bytes that fit are written to a block. -/
theorem triple_writeBytes {output : Text}
    (stored : Memory.store output position bytes = some written) :
    Triple (holds address (.block output)) (writeBytes (some address) position bytes)
      fun _ => holds address (.block written) := by
  rw [← mul_one (holds _ _)]
  apply triple_readBlock.step_known
  rw [mul_one, stored]
  exact Triple.assign

/-- A block is of the size that was asked for, or the hooks refuse. -/
theorem triple_newBlock {size : ℕ} : Triple 1 (newBlock hooks size) fun pointer =>
    match pointer with
    | none => fact (¬ hooks.Generous)
    | some address =>
        ⨆ bytes : Text, fact (bytes.length = size) * holds address (.block bytes) := by
  intro R store part
  have allocated : Triple 1
      (allocate hooks.toAllocator (.block (hooks.contents store size))) _ := Triple.allocate
  obtain ⟨pointer, after, ran, part⟩ := allocated R store part
  refine ⟨pointer, after, ran, ?_⟩
  cases pointer with
  | none => exact part
  | some address =>
      refine le_iff.mp (mul_le_mul_left ?_ R) _ part
      apply le_iSup_of_le (hooks.contents store size)
      rw [fact_mul_of (hooks.length_contents store size)]

end Rules

end Evenscribe.CJSON.Heap
