import Mathlib.Data.List.TakeWhile
import Mathlib.Tactic.Common

/-!
# Marks and delimiters

In a marked text one symbol, the mark, opens a sequence that stands for a single
symbol. All other symbols stand for themselves. Since a sequence is longer than
what it stands for, a text stands for itself exactly when it has no mark
(`Coding.decode_eq_self_iff`).

A text is cut at the first of a delimiter (`cut`), and spliced texts are cut at the
delimiter between them or in front of it (`prefix_of_cut`). What is cut off there
can only stand for the texts if it is these (`Coding.eq_of_decode_spliced`).
-/

namespace Marked

universe u

/-- The sequences of a coding, as they are read after the mark. -/
structure Coding (α : Type u) where
  mark : α
  sequence : List α → Option (α × List α)
  shorter : ∀ {rest symbol later}, sequence rest = some (symbol, later) →
    later.length < rest.length

namespace Coding

variable {α : Type u} [DecidableEq α] (coding : Coding α)

/-- What a text stands for, if that is found in a number of steps. -/
def decodeWithin : ℕ → List α → Option (List α)
  | _, [] => some []
  | 0, _ :: _ => none
  | steps + 1, symbol :: rest =>
      if symbol = coding.mark then
        (coding.sequence rest).bind fun (plain, later) =>
          (decodeWithin steps later).map (plain :: ·)
      else (decodeWithin steps rest).map (symbol :: ·)

/-- What a text stands for, if all its sequences have a meaning. -/
def decode (text : List α) : Option (List α) := coding.decodeWithin text.length text

/-- As many steps as there are symbols are enough. -/
theorem decodeWithin_of_le {steps : ℕ} {text : List α} (enough : text.length ≤ steps) :
    coding.decodeWithin steps text = coding.decode text := by
  have agree : ∀ (steps other : ℕ) (text : List α), text.length ≤ steps → text.length ≤ other →
      coding.decodeWithin steps text = coding.decodeWithin other text := by
    intro steps
    induction steps with
    | zero =>
        intro other text empty _
        obtain rfl := List.eq_nil_of_length_eq_zero (Nat.le_zero.mp empty)
        cases other <;> rfl
    | succ steps ih =>
        intro other text within within'
        cases text with
        | nil => cases other <;> rfl
        | cons symbol rest =>
            obtain _ | other := other
            · exact absurd within' (Nat.not_succ_le_zero _)
            have short := Nat.le_of_succ_le_succ within
            have short' := Nat.le_of_succ_le_succ within'
            unfold decodeWithin
            split
            · cases found : coding.sequence rest with
              | none => rfl
              | some pair =>
                  have less := coding.shorter found
                  simp only [Option.bind_some, ih other pair.2 (by omega) (by omega)]
            · rw [ih other rest short short']
  exact agree _ _ text enough (Nat.le_refl _)

@[simp] theorem decode_nil : coding.decode [] = some [] := rfl

/-- A mark starts a sequence that stands for one symbol. -/
theorem decode_cons_mark (rest : List α) :
    coding.decode (coding.mark :: rest) = (coding.sequence rest).bind fun (plain, later) =>
      (coding.decode later).map (plain :: ·) := by
  unfold decode
  rw [List.length_cons, decodeWithin, if_pos rfl]
  cases found : coding.sequence rest with
  | none => rfl
  | some pair =>
      have less := coding.shorter found
      simp only [Option.bind_some, coding.decodeWithin_of_le (Nat.le_of_lt less)]
      rfl

/-- Other symbols stand for themselves. -/
theorem decode_cons_of_ne {symbol : α} (plain : symbol ≠ coding.mark) (rest : List α) :
    coding.decode (symbol :: rest) = (coding.decode rest).map (symbol :: ·) := by
  unfold decode
  rw [List.length_cons, decodeWithin, if_neg plain]

/-- A text stands for one that is not longer, and for a shorter one if it has a mark. -/
theorem length_decode {text plain : List α} (decoded : coding.decode text = some plain) :
    plain.length ≤ text.length ∧ (coding.mark ∈ text → plain.length < text.length) := by
  induction size : text.length using Nat.strongRecOn generalizing text plain with
  | ind size ih =>
      cases text with
      | nil =>
          obtain rfl := Option.some.inj decoded
          exact ⟨Nat.zero_le _, nofun⟩
      | cons symbol rest =>
          rw [List.length_cons] at size
          by_cases marked : symbol = coding.mark
          · subst marked
            rw [decode_cons_mark] at decoded
            obtain ⟨⟨head, later⟩, found, decoded⟩ := Option.bind_eq_some_iff.mp decoded
            obtain ⟨tail, inner, rfl⟩ := Option.map_eq_some_iff.mp decoded
            have less := coding.shorter found
            have bound := (ih later.length (by omega) inner rfl).1
            simp only [List.length_cons]
            omega
          · rw [coding.decode_cons_of_ne marked] at decoded
            obtain ⟨tail, inner, rfl⟩ := Option.map_eq_some_iff.mp decoded
            obtain ⟨bound, strict⟩ := ih rest.length (by omega) inner rfl
            simp only [List.length_cons, List.mem_cons, Ne.symm marked, false_or]
            exact ⟨by omega, fun member => by have := strict member; omega⟩

/-- A text without marks stands for itself. -/
theorem decode_of_unmarked {text : List α} (unmarked : coding.mark ∉ text) :
    coding.decode text = some text := by
  induction text with
  | nil => rfl
  | cons symbol rest ih =>
      rw [List.mem_cons, not_or] at unmarked
      rw [coding.decode_cons_of_ne (Ne.symm unmarked.1), ih unmarked.2, Option.map_some]

/-- **Literal text.** A text stands for itself exactly when it has no mark. -/
theorem decode_eq_self_iff {text : List α} :
    coding.decode text = some text ↔ coding.mark ∉ text :=
  ⟨fun same member => (Nat.lt_irrefl _) ((coding.length_decode same).2 member),
    coding.decode_of_unmarked⟩

/-- Two spliced parts at the front of two spliced texts can only stand for these if
they are these. -/
theorem eq_of_decode_spliced {stop : α} {first second text other : List α}
    (isPrefix : first ++ stop :: second <+: text ++ stop :: other)
    (firstDecoded : coding.decode first = some text)
    (secondDecoded : coding.decode second = some other) : first = text ∧ second = other := by
  have firstLength := (coding.length_decode firstDecoded).1
  have secondLength := (coding.length_decode secondDecoded).1
  have longer : (text ++ stop :: other).length ≤ (first ++ stop :: second).length := by
    simp only [List.length_append, List.length_cons]
    omega
  have whole := isPrefix.eq_of_length_le longer
  have length := congrArg List.length whole
  simp only [List.length_append, List.length_cons] at length
  obtain ⟨same, tails⟩ := List.append_inj whole (by omega)
  exact ⟨same, (List.cons.inj tails).2⟩

end Coding

section Cut

variable {α : Type u} [DecidableEq α] {stop : α}

/-- The text in front of the first of a delimiter, and the text behind it. -/
def cut (stop : α) (text : List α) : List α × Option (List α) :=
  (text.takeWhile (· ≠ stop), (text.dropWhile (· ≠ stop)).tail?)

theorem cut_of_not_mem {text : List α} (absent : stop ∉ text) : cut stop text = (text, none) := by
  have all : ∀ symbol ∈ text, decide (symbol ≠ stop) = true := fun symbol member =>
    decide_eq_true fun same => absent (same ▸ member)
  rw [cut, List.takeWhile_eq_self_iff.mpr all, List.dropWhile_eq_nil_iff.mpr all]
  rfl

/-- A text is cut at the first stop. -/
theorem cut_append {front : List α} (absent : stop ∉ front) (back : List α) :
    cut stop (front ++ stop :: back) = (front, some back) := by
  have all : ∀ symbol ∈ front, decide (symbol ≠ stop) = true := fun symbol member =>
    decide_eq_true fun same => absent (same ▸ member)
  rw [cut, List.takeWhile_append_of_pos all, List.dropWhile_append_of_pos all,
    List.takeWhile_cons_of_neg (by simp), List.dropWhile_cons_of_neg (by simp), List.append_nil]
  rfl

/-- A text without the delimiter is cut nowhere, and another one at its first delimiter. -/
theorem cut_cases (stop : α) (text : List α) :
    (stop ∉ text ∧ cut stop text = (text, none)) ∨
      ∃ front back, text = front ++ stop :: back ∧ stop ∉ front ∧
        cut stop text = (front, some back) := by
  by_cases member : stop ∈ text
  · obtain ⟨front, back, rfl, absent⟩ := List.eq_append_cons_of_mem member
    exact .inr ⟨front, back, rfl, absent, cut_append absent back⟩
  · exact .inl ⟨member, cut_of_not_mem member⟩

/-- The front of a cut is what stands before the first stop. -/
theorem cut_eq_some {text front back : List α} :
    cut stop text = (front, some back) ↔ text = front ++ stop :: back ∧ stop ∉ front := by
  constructor
  · intro found
    obtain ⟨_, whole⟩ | ⟨first, rest, shape, absent, parts⟩ := cut_cases stop text
    · exact nomatch (Prod.mk.inj (found.symm.trans whole)).2
    · obtain ⟨rfl, same⟩ := Prod.mk.inj (found.symm.trans parts)
      obtain rfl := Option.some.inj same
      exact ⟨shape, absent⟩
  · rintro ⟨rfl, absent⟩
    exact cut_append absent back

/-- Where nothing is cut there is no stop. -/
theorem not_mem_of_cut {text front : List α} (found : cut stop text = (front, none)) :
    stop ∉ text := by
  obtain ⟨absent, _⟩ | ⟨_, _, _, _, parts⟩ := cut_cases stop text
  · exact absent
  · exact nomatch (Prod.mk.inj (found.symm.trans parts)).2

/-- The first cut is at the delimiter that was put there, or in front of it. -/
theorem prefix_of_cut {text back front rest : List α}
    (found : cut stop (text ++ stop :: back) = (front, some rest)) : front <+: text := by
  obtain ⟨absent, _⟩ | ⟨first, later, rfl, absent, _⟩ := cut_cases stop text
  · rw [cut_append absent] at found
    exact (Prod.mk.inj found).1 ▸ List.prefix_refl _
  · rw [List.append_assoc, List.cons_append, cut_append absent] at found
    obtain ⟨rfl, -⟩ := Prod.mk.inj found
    exact List.prefix_append ..

end Cut

end Marked
