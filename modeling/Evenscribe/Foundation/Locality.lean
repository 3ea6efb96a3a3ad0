import Evenscribe.Foundation.Reading

/-!
# Readers that look no further than they read

A reader is local when a result it reaches inside the front of its input is
reached whatever stands behind that front. Locality is what makes the parse of
a text independent of the bytes after it, and it fails for a reader that has to
see what follows a value to know that the value has ended. The rules here carry
it through skipped blanks and through delimited lists.
-/

namespace Reading

universe u v

variable {α : Type u} {β : Type v}

/-- Every successful read takes at least one symbol and leaves an end of the input. -/
def Advances (read : Reader α β) : Prop :=
  ∀ input value rest, read input = some (value, rest) →
    ∃ first consumed, input = first :: (consumed ++ rest)

/-- A result reached inside `front` does not depend on what follows. `settled` is
what the result and the unread part of `front` have to satisfy for that. -/
def Local (settled : β → List α → Prop) (read : Reader α β) : Prop :=
  ∀ front back value rest, read (front ++ back) = some (value, rest ++ back) →
    settled value rest → ∀ other, read (front ++ other) = some (value, rest ++ other)

/-- Dropping blanks: an end of the input is left, a symbol that `visible` holds of
is found in its place whatever follows, and no other one is found but at the very
end. -/
structure Skips (visible : α → Prop) (skip : List α → List α) : Prop where
  suffix : ∀ input, skip input <:+ input
  finds : ∀ front back mark rest, visible mark → skip (front ++ back) = mark :: (rest ++ back) →
    ∀ other, skip (front ++ other) = mark :: (rest ++ other)
  last : ∀ input mark rest, skip input = mark :: rest → ¬ visible mark → rest = []

/-- Items with a separator between neighbours, up to a closing mark. The bound is
on the number of items. -/
def delimited [DecidableEq α] (skip : List α → List α) (item : Reader α β) (separator closing : α) :
    ℕ → Reader α (List β)
  | 0, _ => none
  | bound + 1, input =>
      match item input with
      | none => none
      | some (first, rest) =>
          match skip rest with
          | [] => none
          | mark :: rest =>
              if mark = separator then
                (delimited skip item separator closing bound rest).map fun read =>
                  (first :: read.1, read.2)
              else if mark = closing then some ([first], rest)
              else none

namespace Advances

variable {read : Reader α β} {front back rest : List α} {value : β}

/-- A read that ends inside the front starts there as well. -/
theorem split (advances : Advances read)
    (result : read (front ++ back) = some (value, rest ++ back)) :
    ∃ first consumed, front = first :: (consumed ++ rest) := by
  obtain ⟨first, consumed, shape⟩ := advances _ _ _ result
  refine ⟨first, consumed, (List.append_left_inj back).mp ?_⟩
  simpa only [List.cons_append, List.append_assoc] using shape

/-- Skipping first does not keep a reader from advancing. -/
theorem afterSkip {visible : α → Prop} {skip : List α → List α} (skips : Skips visible skip)
    (advances : Advances read) : Advances fun input => read (skip input) := by
  intro input value rest result
  obtain ⟨first, consumed, shape⟩ := advances _ _ _ result
  obtain ⟨blanks, whole⟩ := skips.suffix input
  rw [shape] at whole
  cases blanks with
  | nil => exact ⟨first, consumed, whole.symm⟩
  | cons blank blanks =>
      refine ⟨blank, blanks ++ first :: consumed, whole.symm.trans ?_⟩
      simp only [List.cons_append, List.append_assoc]

end Advances

namespace Local

variable {read : Reader α β} {settled : β → List α → Prop}

/-- Blanks before a value that starts visibly do not spoil locality. -/
theorem afterSkip {visible : α → Prop} {skip : List α → List α} (skips : Skips visible skip)
    (advances : Advances read) (isLocal : Local settled read)
    (starts : ∀ first tail result, read (first :: tail) = some result → visible first) :
    Local settled fun input => read (skip input) := by
  intro front back value rest result isSettled other
  change read (skip (front ++ back)) = some (value, rest ++ back) at result
  obtain ⟨first, consumed, shape⟩ := advances _ _ _ result
  rw [shape] at result
  have found := skips.finds front back first (consumed ++ rest) (starts _ _ _ result)
    (by rw [shape, List.append_assoc])
  have inside : read ((first :: (consumed ++ rest)) ++ back) = some (value, rest ++ back) := by
    rw [← result, List.cons_append, List.append_assoc]
  change read (skip (front ++ other)) = some (value, rest ++ other)
  rw [found other]
  exact isLocal (first :: (consumed ++ rest)) back value rest inside isSettled other

end Local

section Delimited

variable [DecidableEq α] {skip : List α → List α} {item : Reader α β} {separator closing : α}

/-- One round of a delimited list. -/
theorem delimited_succ_eq_some {bound : ℕ} {input rest : List α} {values : List β}
    (result : delimited skip item separator closing (bound + 1) input = some (values, rest)) :
    ∃ first middle mark after, item input = some (first, middle) ∧ skip middle = mark :: after ∧
      ((mark = separator ∧ ∃ later, values = first :: later ∧
          delimited skip item separator closing bound after = some (later, rest)) ∨
        (mark ≠ separator ∧ mark = closing ∧ values = [first] ∧ after = rest)) := by
  simp only [delimited] at result
  split at result
  · simp at result
  · next first middle read =>
      split at result
      · simp at result
      · next mark after skipped =>
          refine ⟨first, middle, mark, after, read, skipped, ?_⟩
          by_cases again : mark = separator
          · rw [if_pos again] at result
            obtain ⟨⟨later, _⟩, found, equal⟩ := Option.map_eq_some_iff.mp result
            obtain ⟨rfl, rfl⟩ := Prod.mk.inj equal
            exact .inl ⟨again, later, rfl, found⟩
          · rw [if_neg again] at result
            by_cases last : mark = closing
            · rw [if_pos last] at result
              obtain ⟨rfl, rfl⟩ := Prod.mk.inj (Option.some.inj result)
              exact .inr ⟨again, last, rfl, rfl⟩
            · simp [last] at result

/-- An item with a separator behind it comes in front of the items after it. -/
theorem delimited_cons {bound : ℕ} {input middle after rest : List α} {first : β} {later : List β}
    (read : item input = some (first, middle)) (skipped : skip middle = separator :: after)
    (found : delimited skip item separator closing bound after = some (later, rest)) :
    delimited skip item separator closing (bound + 1) input = some (first :: later, rest) := by
  simp only [delimited, read, skipped, if_true, found, Option.map_some]

/-- An item with the closing mark behind it is the last one. -/
theorem delimited_singleton {bound : ℕ} {input middle rest : List α} {last : β}
    (read : item input = some (last, middle)) (skipped : skip middle = closing :: rest)
    (different : closing ≠ separator) :
    delimited skip item separator closing (bound + 1) input = some ([last], rest) := by
  simp only [delimited, read, skipped, if_neg different, if_true]

/-- A delimited list takes an item at least, and the closing mark last. -/
theorem delimited_ends {visible : α → Prop} (skips : Skips visible skip)
    (advances : Advances item) (bound : ℕ) :
    ∀ input values rest, delimited skip item separator closing bound input = some (values, rest) →
      ∃ first consumed, input = first :: (consumed ++ closing :: rest) := by
  induction bound with
  | zero => intro input values rest result; simp [delimited] at result
  | succ bound ih =>
      intro input values rest result
      obtain ⟨first, middle, mark, after, read, skipped, outcome⟩ := delimited_succ_eq_some result
      obtain ⟨head, consumed, shape⟩ := advances _ _ _ read
      obtain ⟨blanks, whole⟩ := skips.suffix middle
      rw [skipped] at whole
      subst shape whole
      obtain ⟨_, later, _, found⟩ | ⟨_, rfl, _, rfl⟩ := outcome
      · obtain ⟨next, more, shape⟩ := ih _ _ _ found
        subst shape
        exact ⟨head, consumed ++ (blanks ++ mark :: next :: more), by simp⟩
      · exact ⟨head, consumed ++ blanks, by simp⟩

/-- A list of items that advance advances. -/
theorem advances_delimited {visible : α → Prop} (skips : Skips visible skip)
    (advances : Advances item) (bound : ℕ) :
    Advances (delimited skip item separator closing bound) := by
  intro input values rest result
  obtain ⟨first, consumed, shape⟩ := delimited_ends skips advances bound _ _ _ result
  exact ⟨first, consumed ++ [closing], by simpa using shape⟩

/-- Every item a delimited list returns was read by the item reader. -/
theorem delimited_forall {property : β → Prop}
    (holds : ∀ input value rest, item input = some (value, rest) → property value) (bound : ℕ) :
    ∀ input values rest, delimited skip item separator closing bound input = some (values, rest) →
      ∀ value ∈ values, property value := by
  induction bound with
  | zero => intro input values rest result; simp [delimited] at result
  | succ bound ih =>
      intro input values rest result
      obtain ⟨first, middle, mark, after, read, _, outcome⟩ := delimited_succ_eq_some result
      have head := holds _ _ _ read
      obtain ⟨_, later, rfl, found⟩ | ⟨_, _, rfl, _⟩ := outcome
      · exact List.forall_mem_cons.mpr ⟨head, ih _ _ _ found⟩
      · exact List.forall_mem_singleton.mpr head

/-- A delimited list that closes inside the front is the same whatever follows,
with any bound that the front allows. -/
theorem delimited_local {visible : α → Prop} {settled : β → List α → Prop}
    (skips : Skips visible skip) (advances : Advances item) (isLocal : Local settled item)
    (separates : visible separator) (closes : visible closing)
    (settles : ∀ value rest mark after, skip rest = mark :: after →
      mark = separator ∨ mark = closing → settled value rest) (bound : ℕ) :
    ∀ front back values rest,
      delimited skip item separator closing bound (front ++ back) = some (values, rest ++ back) →
        ∀ other bound', front.length ≤ bound' →
          delimited skip item separator closing bound' (front ++ other) =
            some (values, rest ++ other) := by
  induction bound with
  | zero => intro front back values rest result; simp [delimited] at result
  | succ bound ih =>
      intro front back values rest result other bound' enough
      obtain ⟨first, middle, mark, after, read, skipped, outcome⟩ := delimited_succ_eq_some result
      -- what is left after the mark still ends in all of `back`
      obtain ⟨inner, rfl⟩ : ∃ inner, after = inner ++ back := by
        obtain ⟨_, later, _, found⟩ | ⟨_, _, _, rfl⟩ := outcome
        · obtain ⟨next, more, shape⟩ := advances_delimited skips advances bound _ _ _ found
          exact ⟨next :: (more ++ rest), by simp [shape]⟩
        · exact ⟨rest, rfl⟩
      obtain ⟨blanks, whole⟩ := skips.suffix middle
      obtain ⟨kept, rfl⟩ : ∃ kept, middle = kept ++ back :=
        ⟨blanks ++ mark :: inner, by rw [← whole, skipped]; simp⟩
      have isMark : mark = separator ∨ mark = closing := by
        obtain ⟨again, _⟩ | ⟨_, last, _⟩ := outcome
        · exact .inl again
        · exact .inr last
      have visibleMark : visible mark := by
        obtain rfl | rfl := isMark
        · exact separates
        · exact closes
      have found := skips.finds kept back mark inner visibleMark skipped
      have alone : skip kept = mark :: inner := by simpa using found []
      have again := isLocal front back first kept read (settles first kept mark inner alone isMark)
        other
      obtain ⟨head, consumed, shape⟩ := advances.split read
      have shorter : inner.length + 1 ≤ kept.length := by
        simpa [alone] using (skips.suffix kept).length_le
      obtain ⟨bound', rfl⟩ : ∃ smaller, bound' = smaller + 1 :=
        ⟨bound' - 1, by simp only [shape, List.length_cons] at enough; omega⟩
      simp only [delimited, again, found other]
      obtain ⟨again, later, rfl, more⟩ | ⟨different, last, rfl, same⟩ := outcome
      · have fits : inner.length ≤ bound' := by
          simp only [shape, List.length_cons, List.length_append] at enough
          omega
        rw [if_pos again, ih inner back later rest more other bound' fits, Option.map_some]
      · rw [if_neg different, if_pos last, List.append_cancel_right same]

end Delimited

end Reading
