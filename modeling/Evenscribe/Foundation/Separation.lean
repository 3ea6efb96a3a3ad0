import Mathlib.Algebra.Order.Quantale
import Mathlib.Logic.Function.Basic
import Mathlib.Order.CompletePartialOrder
import Mathlib.Tactic.Common

/-!
# Assertions about parts of a memory

A heap holds a cell at each address that is in use. An assertion is a set of
heaps; the product of two assertions holds of a heap that falls into two parts,
one for each. With inclusion as the order the assertions are a commutative
quantale, so that products are rearranged as in any commutative monoid, are
monotone and distribute over existential quantifiers.
-/

namespace Separation

universe u v

/-- A partial map from addresses to cells. -/
abbrev Heap (Address : Type u) (Cell : Type v) := Address → Option Cell

variable {Address : Type u} {Cell : Type v}

/-- The whole is made of two parts that have no address in common. -/
def Joins (first second whole : Heap Address Cell) : Prop :=
  ∀ address, (first address = none ∧ whole address = second address) ∨
    (second address = none ∧ whole address = first address)

namespace Joins

variable {first second third whole rest other : Heap Address Cell}

theorem symm (joins : Joins first second whole) : Joins second first whole :=
  fun address => (joins address).symm

theorem empty_left (whole : Heap Address Cell) : Joins (fun _ => none) whole whole :=
  fun _ => .inl ⟨rfl, rfl⟩

/-- Nothing adds nothing. -/
theorem eq_of_empty (joins : Joins (fun _ => none) second whole) : whole = second := by
  funext address
  obtain ⟨_, same⟩ | ⟨absent, same⟩ := joins address
  · exact same
  · rw [same, absent]

/-- The whole is determined by its parts. -/
theorem unique (joins : Joins first second whole) (also : Joins first second other) :
    whole = other := by
  funext address
  obtain ⟨absent, same⟩ | ⟨absent, same⟩ := joins address
  · obtain ⟨_, again⟩ | ⟨none, again⟩ := also address
    · rw [same, again]
    · rw [same, again, absent, none]
  · obtain ⟨none, again⟩ | ⟨_, again⟩ := also address
    · rw [same, again, absent, none]
    · rw [same, again]

/-- Three parts are joined from the right as well as from the left. -/
theorem assoc (left : Joins first second rest) (joins : Joins rest third whole) :
    ∃ back, Joins second third back ∧ Joins first back whole := by
  refine ⟨fun address => (second address).or (third address), fun address => ?_, fun address => ?_⟩
  · change _ ∧ (second address).or (third address) = _ ∨ _ ∧ (second address).or (third address) = _
    obtain ⟨_, same⟩ | ⟨inner, _⟩ := left address
    · obtain ⟨outer, _⟩ | ⟨outer, _⟩ := joins address
      · rw [← same, outer]
        exact .inl ⟨rfl, Option.none_or⟩
      · rw [outer]
        exact .inr ⟨rfl, Option.or_none⟩
    · rw [inner]
      exact .inl ⟨rfl, Option.none_or⟩
  · change _ ∧ _ = (second address).or (third address) ∨ (second address).or (third address) = _ ∧ _
    obtain ⟨inner, same⟩ | ⟨inner, same⟩ := left address
    · refine .inl ⟨inner, ?_⟩
      obtain ⟨outer, whole⟩ | ⟨outer, whole⟩ := joins address
      · rw [whole, ← same, outer, Option.none_or]
      · rw [whole, same, outer, Option.or_none]
    · obtain ⟨outer, whole⟩ | ⟨outer, whole⟩ := joins address
      · exact .inl ⟨same ▸ outer, by rw [whole, inner, Option.none_or]⟩
      · exact .inr ⟨by rw [inner, outer, Option.or_none], by rw [whole, same]⟩

end Joins

/-- A property of a part of a memory. -/
def Assertion (Address : Type u) (Cell : Type v) := Heap Address Cell → Prop

namespace Assertion

/-- The part that an assertion is about. -/
def On (P : Assertion Address Cell) (heap : Heap Address Cell) : Prop := P heap

instance : CompleteLattice (Assertion Address Cell) :=
  inferInstanceAs (CompleteLattice (Heap Address Cell → Prop))

/-- The part falls into two parts, one for each assertion. -/
instance : Mul (Assertion Address Cell) where
  mul left right := fun heap =>
    ∃ first second, left.On first ∧ right.On second ∧ Joins first second heap

/-- Nothing is in use. -/
instance : One (Assertion Address Cell) where
  one := fun heap => heap = fun _ => none

variable {heap : Heap Address Cell} {P Q R : Assertion Address Cell}

theorem one_on : (1 : Assertion Address Cell).On heap ↔ heap = fun _ => none := Iff.rfl

theorem le_iff : P ≤ Q ↔ ∀ heap, P.On heap → Q.On heap := Iff.rfl

/-- A supremum says that some member of the family holds. -/
theorem iSup_on {ι : Sort*} {family : ι → Assertion Address Cell} :
    (⨆ index, family index).On heap ↔ ∃ index, (family index).On heap := by
  have pointwise : (⨆ index, family index).On heap = ⨆ index, (family index).On heap := iSup_apply
  rw [pointwise, iSup_Prop_eq]

theorem mul_comm_le (P Q : Assertion Address Cell) : P * Q ≤ Q * P := by
  rw [le_iff]
  intro heap ⟨first, second, left, right, joins⟩
  exact ⟨second, first, right, left, joins.symm⟩

/-- Three parts can be regrouped to the right. -/
theorem mul_assoc_le (P Q R : Assertion Address Cell) : P * Q * R ≤ P * (Q * R) := by
  rw [le_iff]
  intro heap ⟨rest, third, ⟨first, second, left, middle, inner⟩, right, outer⟩
  obtain ⟨back, joined, whole⟩ := inner.assoc outer
  exact ⟨first, back, left, ⟨second, third, middle, right, joined⟩, whole⟩

theorem one_mul_eq (P : Assertion Address Cell) : 1 * P = P := by
  apply le_antisymm <;> rw [le_iff]
  · intro heap ⟨first, second, nothing, holds, joins⟩
    obtain rfl := one_on.mp nothing
    exact joins.eq_of_empty ▸ holds
  · intro heap holds
    exact ⟨_, heap, one_on.mpr rfl, holds, Joins.empty_left heap⟩

theorem mul_comm_eq (P Q : Assertion Address Cell) : P * Q = Q * P :=
  le_antisymm (mul_comm_le P Q) (mul_comm_le Q P)

instance : CommMonoid (Assertion Address Cell) where
  mul_comm := mul_comm_eq
  mul_assoc P Q R := by
    apply le_antisymm (mul_assoc_le P Q R)
    calc P * (Q * R) = Q * R * P := mul_comm_eq _ _
      _ ≤ Q * (R * P) := mul_assoc_le _ _ _
      _ = R * P * Q := mul_comm_eq _ _
      _ ≤ R * (P * Q) := mul_assoc_le _ _ _
      _ = P * Q * R := mul_comm_eq _ _
  one_mul := one_mul_eq
  mul_one P := (mul_comm_eq P 1).trans (one_mul_eq P)

/-- Separating conjunction distributes over suprema. -/
theorem mul_sSup (P : Assertion Address Cell) (family : Set (Assertion Address Cell)) :
    P * sSup family = ⨆ Q ∈ family, P * Q := by
  apply le_antisymm
  · rw [sSup_eq_iSup, le_iff]
    intro heap ⟨first, second, left, right, joins⟩
    obtain ⟨Q, found⟩ := iSup_on.mp right
    obtain ⟨member, right⟩ := iSup_on.mp found
    exact iSup_on.mpr ⟨Q, iSup_on.mpr ⟨member, first, second, left, right, joins⟩⟩
  · refine iSup₂_le fun Q member => le_iff.mpr ?_
    intro heap ⟨first, second, left, right, joins⟩
    exact ⟨first, second, left, le_sSup member second right, joins⟩

instance : IsQuantale (Assertion Address Cell) where
  mul_sSup_distrib := mul_sSup
  sSup_mul_distrib family P := by
    simp only [mul_comm _ P]
    exact mul_sSup P family

/-- A fact that needs no memory. -/
def fact (condition : Prop) : Assertion Address Cell :=
  fun heap => condition ∧ (1 : Assertion Address Cell).On heap

/-- One address is in use and holds the given cell. -/
def holds [DecidableEq Address] (address : Address) (cell : Cell) : Assertion Address Cell :=
  fun heap => heap = Function.update (fun _ => none) address (some cell)

/-- Everything that is in use. -/
def exactly (heap : Heap Address Cell) : Assertion Address Cell := fun other => other = heap

theorem exactly_on {other : Heap Address Cell} : (exactly heap).On other ↔ other = heap := Iff.rfl

/-- A fact beside an assertion is about no cell. -/
theorem fact_mul_on {condition : Prop} : (fact condition * P).On heap ↔ condition ∧ P.On heap := by
  constructor
  · intro ⟨first, second, ⟨known, nothing⟩, holds, joins⟩
    obtain rfl := one_on.mp nothing
    exact ⟨known, joins.eq_of_empty ▸ holds⟩
  · intro ⟨known, holds⟩
    exact ⟨_, heap, ⟨known, one_on.mpr rfl⟩, holds, Joins.empty_left heap⟩

/-- A fact that is known is left out. -/
theorem fact_mul_of {condition : Prop} (known : condition) : fact condition * P = P := by
  apply le_antisymm <;> rw [le_iff]
  · exact fun heap both => (fact_mul_on.mp both).2
  · exact fun heap alone => fact_mul_on.mpr ⟨known, alone⟩

theorem fact_of {condition : Prop} (known : condition) :
    (fact condition : Assertion Address Cell) = 1 := by
  rw [← mul_one (fact condition), fact_mul_of known]

/-- Entailment from a fact and the rest. -/
theorem fact_mul_le {condition : Prop} (entails : condition → P ≤ Q) : fact condition * P ≤ Q := by
  rw [le_iff]
  intro heap both
  obtain ⟨known, alone⟩ := fact_mul_on.mp both
  exact le_iff.mp (entails known) heap alone

/-- A fact asks for no cell. -/
theorem fact_le_one (condition : Prop) : (fact condition : Assertion Address Cell) ≤ 1 := by
  rw [← mul_one (fact condition)]
  exact fact_mul_le fun _ => le_rfl

/-- Facts entail each other as propositions imply each other. -/
theorem fact_mono {condition other : Prop} (implies : condition → other) :
    (fact condition : Assertion Address Cell) ≤ fact other := by
  rw [← mul_one (fact condition)]
  exact fact_mul_le fun known => (fact_of (implies known)).ge

section Cells

variable [DecidableEq Address] {address : Address} {cell other : Cell}

/-- The cell at an address that an assertion is about. -/
theorem apply_of_holds (part : (holds address cell * P).On heap) : heap address = some cell := by
  obtain ⟨first, second, rfl, _, joins⟩ := part
  obtain ⟨absent, _⟩ | ⟨_, same⟩ := joins address
  · rw [Function.update_self] at absent
    exact nomatch absent
  · rw [same, Function.update_self]

/-- A cell is removed. -/
theorem erase_on (part : (holds address cell * P).On heap) :
    P.On (Function.update heap address none) := by
  obtain ⟨first, second, rfl, rest, joins⟩ := part
  suffices same : Function.update heap address none = second from same ▸ rest
  funext place
  by_cases here : place = address
  · obtain rfl := here
    obtain ⟨absent, _⟩ | ⟨absent, _⟩ := joins place
    · rw [Function.update_self] at absent
      exact nomatch absent
    · rw [Function.update_self, absent]
  · rw [Function.update_of_ne here]
    obtain ⟨_, same⟩ | ⟨absent, same⟩ := joins place
    · exact same
    · rw [same, absent, Function.update_of_ne here]

/-- A cell is added at an address that is not in use. -/
theorem insert_on (vacant : heap address = none) (part : P.On heap) :
    (holds address cell * P).On (Function.update heap address (some cell)) := by
  refine ⟨_, heap, rfl, part, fun place => ?_⟩
  by_cases here : place = address
  · obtain rfl := here
    exact .inr ⟨vacant, by rw [Function.update_self, Function.update_self]⟩
  · exact .inl ⟨Function.update_of_ne here .., Function.update_of_ne here ..⟩

/-- A cell is overwritten. -/
theorem replace_on (part : (holds address cell * P).On heap) :
    (holds address other * P).On (Function.update heap address (some other)) := by
  have vacant : Function.update heap address none address = none := Function.update_self ..
  have twice : Function.update (Function.update heap address none) address (some other) =
      Function.update heap address (some other) := Function.update_idem ..
  exact twice ▸ insert_on vacant (erase_on part)

end Cells

/-- The assertion is about a part of the heap. -/
def Within (P : Assertion Address Cell) (heap : Heap Address Cell) : Prop := ∃ R, (P * R).On heap

namespace Within

theorem left (within : (P * Q).Within heap) : P.Within heap := by
  obtain ⟨R, part⟩ := within
  exact ⟨Q * R, mul_assoc P Q R ▸ part⟩

theorem right (within : (P * Q).Within heap) : Q.Within heap := left (mul_comm P Q ▸ within)

/-- A supremum holds within a heap only if a member of the family does. -/
theorem of_iSup {ι : Type*} {family : ι → Assertion Address Cell}
    (within : (⨆ index, family index).Within heap) : ∃ index, (family index).Within heap := by
  obtain ⟨R, part⟩ := within
  rw [Quantale.iSup_mul_distrib] at part
  obtain ⟨index, part⟩ := iSup_on.mp part
  exact ⟨index, R, part⟩

/-- A fact that holds within a heap holds. -/
theorem of_fact {condition : Prop}
    (within : (fact condition : Assertion Address Cell).Within heap) : condition := by
  obtain ⟨R, part⟩ := within
  exact (fact_mul_on.mp part).1

/-- A cell that a part of the heap holds is in the heap. -/
theorem apply_eq [DecidableEq Address] {address : Address} {cell : Cell}
    (within : (holds address cell).Within heap) : heap address = some cell := by
  obtain ⟨R, part⟩ := within
  exact apply_of_holds part

end Within

end Assertion

end Separation
