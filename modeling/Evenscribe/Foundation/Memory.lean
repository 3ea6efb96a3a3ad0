import Mathlib.Data.List.TakeWhile
import Mathlib.Tactic.Common

/-!
# Bounded memories

A memory is the list of its cells. Values are stored only where there are cells for
them (`store`), and a text in memory runs up to a terminator that has to be found
before the memory ends (`extent`). `Spells` says what is written in a memory from a
position on.
-/

namespace Memory

universe u

variable {α : Type u}

/-- The values stored from a position on; nothing when cells are missing for them. -/
def store (memory : List α) (position : ℕ) (values : List α) : Option (List α) :=
  if position + values.length ≤ memory.length then
    some (memory.take position ++ values ++ memory.drop (position + values.length))
  else none

/-- How many cells there are between a position and the next terminator; nothing when
the memory ends before. -/
def extent [DecidableEq α] (terminator : α) (memory : List α) (position : ℕ) : Option ℕ :=
  if terminator ∈ memory.drop position then
    some ((memory.drop position).takeWhile (· ≠ terminator)).length
  else none

/-- These values stand in the memory from a position on. -/
def Spells (memory : List α) (position : ℕ) (values : List α) : Prop :=
  values <+: memory.drop position

variable {memory after values others : List α} {position : ℕ}

section Store

/-- Values that fit replace those that were there. -/
theorem store_eq (fits : position + values.length ≤ memory.length) :
    store memory position values =
      some (memory.take position ++ values ++ memory.drop (position + values.length)) :=
  if_pos fits

variable (stored : store memory position values = some after)

include stored

/-- Only values that fit are stored. -/
theorem fits_of_store : position + values.length ≤ memory.length := by
  by_contra missing
  simp [store, missing] at stored

/-- The memory behind a store. -/
theorem after_of_store :
    after = memory.take position ++ values ++ memory.drop (position + values.length) := by
  have fits := fits_of_store stored
  rw [store_eq fits] at stored
  exact (Option.some.inj stored).symm

/-- Storing values leaves the memory its size. -/
theorem length_of_store : after.length = memory.length := by
  have fits := fits_of_store stored
  rw [after_of_store stored, List.length_append, List.length_append, List.length_take,
    List.length_drop]
  omega

/-- Nothing in front of the position is changed. -/
theorem take_of_store {count : ℕ} (inFront : count ≤ position) :
    after.take count = memory.take count := by
  have fits := fits_of_store stored
  have within : count ≤ (memory.take position).length := by rw [List.length_take]; omega
  rw [after_of_store stored, List.append_assoc, List.take_append_of_le_length within,
    List.take_take, Nat.min_eq_left inFront]

/-- Nothing behind the values is changed. -/
theorem drop_of_store {count : ℕ} (behind : position + values.length ≤ count) :
    after.drop count = memory.drop count := by
  have fits := fits_of_store stored
  have size : (memory.take position ++ values).length = position + values.length := by
    rw [List.length_append, List.length_take]
    omega
  obtain ⟨more, rfl⟩ := Nat.exists_eq_add_of_le behind
  rw [after_of_store stored, ← size, List.drop_append, List.drop_of_length_le (by omega),
    List.nil_append, Nat.add_sub_cancel_left, List.drop_drop]

/-- What a memory starts with once values are stored. -/
theorem take_append_of_store :
    after.take (position + values.length) = memory.take position ++ values := by
  have fits := fits_of_store stored
  have size : (memory.take position ++ values).length = position + values.length := by
    rw [List.length_append, List.length_take]
    omega
  rw [after_of_store stored, List.take_append_of_le_length (by omega), List.take_of_length_le]
  omega

end Store

/-- A text is found up to its terminator. -/
theorem extent_of_spells [DecidableEq α] {terminator : α} (absent : terminator ∉ values)
    (spells : Spells memory position (values ++ [terminator])) :
    extent terminator memory position = some values.length := by
  obtain ⟨rest, whole⟩ := spells
  have inside : terminator ∈ memory.drop position := by
    rw [← whole]
    exact List.mem_append_left _ (List.mem_append_right _ (List.mem_singleton_self _))
  have before : ∀ value ∈ values, decide (value ≠ terminator) = true :=
    fun value member => decide_eq_true fun same => absent (same ▸ member)
  rw [extent, if_pos inside, ← whole, List.append_assoc, List.takeWhile_append_of_pos before,
    List.singleton_append, List.takeWhile_cons_of_neg (by simp), List.append_nil]

end Memory
