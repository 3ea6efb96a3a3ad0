import Evenscribe.Json.Number
import Mathlib.Data.List.TakeWhile

/-!
# cJSON trees

A node without its `valueint`, which nothing here reads. Missing strings are
null pointers.
-/

namespace Evenscribe

namespace CJSON

/-- The `type` of a node. -/
inductive Kind where
  | invalid | false | true | null | number | string | array | object | raw
  deriving DecidableEq

end CJSON

/-- A `cJSON` with its children. -/
structure CJSON where
  kind : CJSON.Kind := .invalid
  valuestring : Option Text := none
  valuedouble : Double := .finite 0
  /-- The key, for a member of an object. -/
  string : Option Text := none
  child : List CJSON := []

namespace CJSON

/-- `cJSON_IsNumber` of a node; a null pointer is handled where it occurs. -/
def isNumber (item : CJSON) : Bool := item.kind = .number

/-- `cJSON_IsString`. -/
def isString (item : CJSON) : Bool := item.kind = .string

/-- `cJSON_IsObject`. -/
def isObject (item : CJSON) : Bool := item.kind = .object

/-- `get_object_item` with `case_sensitive`: the search ends at the name or at a
child without a key, and finds nothing in the second case. -/
def getObjectItem (name : Text) : List CJSON → Option CJSON
  | [] => none
  | current :: next =>
      match current.string with
      | none => none
      | some string => if string = name then some current else getObjectItem name next

/-- `cJSON_GetObjectItemCaseSensitive`. -/
def getObjectItemCaseSensitive (object : CJSON) (name : Text) : Option CJSON :=
  getObjectItem name object.child

/-- A tree as the parser builds it: string nodes have a value, members of an
object a key, and no other children have one. -/
inductive WellFormed : CJSON → Prop where
  | intro (node : CJSON)
      (strings : node.kind = .string → node.valuestring.isSome)
      (members : node.kind = .object → ∀ member ∈ node.child, member.string.isSome)
      (elements : node.kind ≠ .object → ∀ element ∈ node.child, element.string = none)
      (children : ∀ child ∈ node.child, WellFormed child) : WellFormed node

namespace WellFormed

variable {node : CJSON}

theorem strings (wellFormed : WellFormed node) (kind : node.kind = .string) :
    ∃ value, node.valuestring = some value := by
  cases wellFormed with
  | intro _ strings _ _ _ => exact Option.isSome_iff_exists.mp (strings kind)

theorem members (wellFormed : WellFormed node) (kind : node.kind = .object) :
    ∀ member ∈ node.child, ∃ key, member.string = some key := by
  cases wellFormed with
  | intro _ _ members _ _ =>
      exact fun member inside => Option.isSome_iff_exists.mp (members kind member inside)

theorem elements (wellFormed : WellFormed node) (kind : node.kind ≠ .object) :
    ∀ element ∈ node.child, element.string = none := by
  cases wellFormed with
  | intro _ _ _ elements _ => exact elements kind

theorem children (wellFormed : WellFormed node) : ∀ child ∈ node.child, WellFormed child := by
  cases wellFormed with
  | intro _ _ _ _ children => exact children

end WellFormed

/-- The first child with a name, among the children in front of the first one
without a key. -/
def firstMember (name : Text) (children : List CJSON) : Option CJSON :=
  (children.takeWhile fun child => child.string.isSome).find? fun child => child.string = some name

/-- The search finds the first member of a name, and ends at a member without one. -/
theorem getObjectItem_eq_firstMember (name : Text) (children : List CJSON) :
    getObjectItem name children = firstMember name children := by
  induction children with
  | nil => rfl
  | cons current next ih =>
      unfold getObjectItem firstMember
      cases key : current.string with
      | none => simp [key]
      | some string =>
          by_cases same : string = name
          · simp [key, same]
          · simpa [key, same, firstMember] using ih

/-- When every child has a key, the search finds the first child with the name. -/
theorem getObjectItem_eq_find? (name : Text) {children : List CJSON}
    (keyed : ∀ child ∈ children, ∃ key, child.string = some key) :
    getObjectItem name children = children.find? fun child => child.string = some name := by
  have all : children.takeWhile (fun child => child.string.isSome) = children :=
    List.takeWhile_eq_self_iff.mpr fun child member => by
      obtain ⟨key, equal⟩ := keyed child member
      simp [equal]
  rw [getObjectItem_eq_firstMember, firstMember, all]

/-- What is found is a member of that name. -/
theorem mem_of_getObjectItem {name : Text} {children : List CJSON} {item : CJSON}
    (found : getObjectItem name children = some item) :
    item ∈ children ∧ item.string = some name := by
  induction children with
  | nil => simp [getObjectItem] at found
  | cons current next ih =>
      unfold getObjectItem at found
      cases key : current.string with
      | none => simp [key] at found
      | some string =>
          by_cases same : string = name
          · obtain rfl : current = item := by simpa [key, same] using found
            exact ⟨List.mem_cons_self .., by rw [key, same]⟩
          · obtain ⟨member, named⟩ := ih (by simpa [key, same] using found)
            exact ⟨List.mem_cons_of_mem _ member, named⟩

/-- Nothing is found when the first child has no key. -/
theorem getObjectItem_of_keyless {name : Text} {children : List CJSON}
    (keyless : ∀ child ∈ children, child.string = none) : getObjectItem name children = none := by
  cases children with
  | nil => rfl
  | cons current next => simp [getObjectItem, keyless current (List.mem_cons_self ..)]

end CJSON

end Evenscribe
