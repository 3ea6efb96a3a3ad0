import Mathlib.Algebra.GroupWithZero.Nat
import Mathlib.Algebra.Order.BigOperators.Group.List
import Mathlib.Tactic.Common

/-!
# Readers of token sequences

A reader takes a value from the front of its input and returns what is left; a
marker only takes a symbol away. The combinators here read a symbol between
blanks, a pair, a separated list, a bracketed value and items up to a closing
mark. Each comes with two rules: what it returns on text written in its shape,
and what it spends of a measure of the input.
-/

namespace Reading

universe u v w

variable {α : Type u} {β : Type v} {γ : Type w}

/-- A value taken from the front of the input, and the input left. -/
abbrev Reader (α : Type u) (β : Type v) := List α → Option (β × List α)

/-- A mark taken from the front of the input. -/
abbrev Marker (α : Type u) := List α → Option (List α)

/-- Drop blanks, one given symbol, and the blanks after it. -/
def token [DecidableEq α] (blank : α → Bool) (symbol : α) : Marker α := fun input =>
  match input.dropWhile blank with
  | [] => none
  | found :: rest => if found = symbol then some (rest.dropWhile blank) else none

/-- Drop one given text. -/
def exactly [DecidableEq α] (expected : List α) : Marker α := fun input =>
  if expected <+: input then some (input.drop expected.length) else none

/-- One item or more, with a separator between neighbours. The bound is on the
number of items. -/
def separated (item : Reader α β) (separator : Marker α) : ℕ → Reader α (List β)
  | 0, _ => none
  | bound + 1, input =>
      match item input with
      | none => none
      | some (first, rest) =>
          match separator rest with
          | none => some ([first], rest)
          | some rest =>
              (separated item separator bound rest).map fun read => (first :: read.1, read.2)

/-- A value between an opening and a closing mark. -/
def bracketed (opening : Marker α) (inner : Reader α β) (closing : Marker α) : Reader α β :=
  fun input =>
    match opening input with
    | none => none
    | some rest =>
        match inner rest with
        | none => none
        | some (value, rest) => (closing rest).map fun after => (value, after)

/-- Two values with a mark between them. -/
def paired (first : Reader α β) (mark : Marker α) (second : Reader α γ) : Reader α (β × γ) :=
  fun input =>
    match first input with
    | none => none
    | some (front, rest) =>
        match mark rest with
        | none => none
        | some rest => (second rest).map fun read => ((front, read.1), read.2)

/-- No items or more in front of a closing mark, with a separator between
neighbours. -/
def listed (item : Reader α β) (separator closing : Marker α) : Reader α (List β) := fun input =>
  match closing input with
  | some _ => some ([], input)
  | none => separated item separator input.length input

/-- Items up to a closing mark, which is taken as well. The bound is above the
number of items. -/
def upTo (item : Reader α β) (closing : Marker α) : ℕ → Reader α (List β)
  | 0, _ => none
  | bound + 1, input =>
      match closing input with
      | some rest => some ([], rest)
      | none =>
          match item input with
          | none => none
          | some (first, rest) =>
              (upTo item closing bound rest).map fun read => (first :: read.1, read.2)

section Written

variable [DecidableEq α] (blank : α → Bool) (symbol : α)

/-- A token written before text that starts with no blank. -/
theorem token_cons (visible : blank symbol = false) (rest : List α)
    (starts : rest.dropWhile blank = rest) : token blank symbol (symbol :: rest) = some rest := by
  simp [token, visible, starts]

/-- A token written with one blank after it. -/
theorem token_cons_blank (visible : blank symbol = false) (space : α) (isBlank : blank space = true)
    (rest : List α) (starts : rest.dropWhile blank = rest) :
    token blank symbol (symbol :: space :: rest) = some rest := by
  simp [token, visible, isBlank, starts]

/-- Another symbol in front is not the token. -/
theorem token_other (found : α) (visible : blank found = false) (different : found ≠ symbol)
    (rest : List α) : token blank symbol (found :: rest) = none := by
  simp [token, visible, different]

theorem exactly_append (expected rest : List α) :
    exactly expected (expected ++ rest) = some rest := by
  simp [exactly]

/-- Another first symbol is refused. -/
theorem exactly_of_head_ne (first other : α) (different : first ≠ other) (expected rest : List α) :
    exactly (first :: expected) (other :: rest) = none := by
  simp [exactly, different]

end Written

/-- Items written one after another with the separator's text between them. -/
def joined (separator : List α) : List (List α × β) → List α
  | [] => []
  | [item] => item.1
  | item :: next :: rest => item.1 ++ separator ++ joined separator (next :: rest)

/-- The first of the items written is in front. -/
theorem joined_cons_append (separator : List α) (item : List α × β) (rest : List (List α × β))
    (tail : List α) : ∃ after, joined separator (item :: rest) ++ tail = item.1 ++ after := by
  cases rest with
  | nil => exact ⟨tail, rfl⟩
  | cons next rest =>
      exact ⟨separator ++ joined separator (next :: rest) ++ tail,
        by simp only [joined, List.append_assoc]⟩

/-- A joined text is at least as long as its items are many. -/
theorem length_le_length_joined (separator : List α) (items : List (List α × β))
    (nonempty : ∀ entry ∈ items, entry.1 ≠ []) :
    items.length ≤ (joined separator items).length := by
  induction items with
  | nil => exact Nat.le_refl 0
  | cons entry rest ih =>
      have positive := List.length_pos_iff.mpr (nonempty entry (List.mem_cons_self ..))
      have later := ih fun other member => nonempty other (List.mem_cons_of_mem _ member)
      cases rest with
      | nil => simpa only [joined, List.length_singleton] using Nat.succ_le_of_lt positive
      | cons next rest =>
          simp only [joined, List.length_append, List.length_cons] at later ⊢
          omega

/-- A written list is read back item by item. `stops` is what the reader of an
item needs to know about the text that follows it. -/
theorem separated_joined (item : Reader α β) (separator : Marker α) (written : List α)
    (stops : List α → Prop) (items : List (List α × β)) (nonempty : items ≠ [])
    (reads : ∀ entry ∈ items, ∀ tail, stops tail → item (entry.1 ++ tail) = some (entry.2, tail))
    (between : ∀ entry ∈ items, ∀ tail, stops (written ++ (entry.1 ++ tail)) ∧
      separator (written ++ (entry.1 ++ tail)) = some (entry.1 ++ tail))
    (tail : List α) (tailStops : stops tail) (last : separator tail = none)
    (bound : ℕ) (enough : items.length ≤ bound) :
    separated item separator bound (joined written items ++ tail) =
      some (items.map Prod.snd, tail) := by
  induction items generalizing bound with
  | nil => exact (nonempty rfl).elim
  | cons entry rest ih =>
      obtain ⟨bound, rfl⟩ : ∃ smaller, bound = smaller + 1 :=
        ⟨bound - 1, by simp only [List.length_cons] at enough; omega⟩
      cases rest with
      | nil =>
          have read := reads entry (List.mem_cons_self ..) tail tailStops
          simp only [joined, separated, read, last, List.map_cons, List.map_nil]
      | cons next rest =>
          have later := ih (List.cons_ne_nil _ _)
            (fun other member => reads other (List.mem_cons_of_mem _ member))
            (fun other member => between other (List.mem_cons_of_mem _ member))
            bound (by simpa using enough)
          obtain ⟨after, split⟩ := joined_cons_append written next rest tail
          obtain ⟨follows, separates⟩ :=
            between next (List.mem_cons_of_mem _ (List.mem_cons_self ..)) after
          have read := reads entry (List.mem_cons_self ..) _ follows
          rw [split] at later
          have shape : joined written (entry :: next :: rest) ++ tail =
              entry.1 ++ (written ++ (next.1 ++ after)) := by
            simp only [joined, List.append_assoc, split]
          rw [shape]
          simp only [separated, read, separates, later, Option.map_some, List.map_cons]

/-- A written list is read back with a bound of as many items as there are symbols. -/
theorem separated_joined_of_length (item : Reader α β) (separator : Marker α) (written : List α)
    (stops : List α → Prop) (items : List (List α × β)) (nonempty : items ≠ [])
    (filled : ∀ entry ∈ items, entry.1 ≠ [])
    (reads : ∀ entry ∈ items, ∀ tail, stops tail → item (entry.1 ++ tail) = some (entry.2, tail))
    (between : ∀ entry ∈ items, ∀ tail, stops (written ++ (entry.1 ++ tail)) ∧
      separator (written ++ (entry.1 ++ tail)) = some (entry.1 ++ tail))
    (tail : List α) (tailStops : stops tail) (last : separator tail = none)
    (bound : ℕ) (enough : (joined written items ++ tail).length ≤ bound) :
    separated item separator bound (joined written items ++ tail) =
      some (items.map Prod.snd, tail) := by
  have fewer := length_le_length_joined written items filled
  rw [List.length_append] at enough
  apply separated_joined item separator written stops items nonempty reads between tail tailStops
    last
  omega

/-- A written list is read back up to the closing mark, also when it is empty. -/
theorem listed_joined (item : Reader α β) (separator closing : Marker α) (written : List α)
    (stops : List α → Prop) (items : List (List α × β)) (filled : ∀ entry ∈ items, entry.1 ≠ [])
    (reads : ∀ entry ∈ items, ∀ tail, stops tail → item (entry.1 ++ tail) = some (entry.2, tail))
    (between : ∀ entry ∈ items, ∀ tail, stops (written ++ (entry.1 ++ tail)) ∧
      separator (written ++ (entry.1 ++ tail)) = some (entry.1 ++ tail))
    (opens : ∀ entry ∈ items, ∀ tail, closing (entry.1 ++ tail) = none)
    {tail last : List α} (tailStops : stops tail) (separates : separator tail = none)
    (closes : closing tail = some last) :
    listed item separator closing (joined written items ++ tail) =
      some (items.map Prod.snd, tail) := by
  cases items with
  | nil =>
      unfold listed joined
      rw [List.nil_append, closes]
      rfl
  | cons entry rest =>
      have read := separated_joined_of_length item separator written stops (entry :: rest)
        (List.cons_ne_nil _ _) filled reads between tail tailStops separates _ (Nat.le_refl _)
      obtain ⟨after, front⟩ := joined_cons_append written entry rest tail
      have notClosed := opens entry (List.mem_cons_self ..) after
      rw [← front] at notClosed
      simp only [listed, notClosed, read]

/-- What is written between brackets is read there. -/
theorem bracketed_written (opening : Marker α) (inner : Reader α β) (closing : Marker α)
    {input middle last tail : List α} {value : β} (opens : opening input = some middle)
    (reads : inner middle = some (value, last)) (closes : closing last = some tail) :
    bracketed opening inner closing input = some (value, tail) := by
  simp only [bracketed, opens, reads, closes, Option.map_some]

/-- What is written on both sides of a mark is read as a pair. -/
theorem paired_written (first : Reader α β) (mark : Marker α) (second : Reader α γ)
    {input middle last tail : List α} {front : β} {back : γ}
    (firstReads : first input = some (front, middle)) (marks : mark middle = some last)
    (secondReads : second last = some (back, tail)) :
    paired first mark second input = some ((front, back), tail) := by
  simp only [paired, firstReads, marks, secondReads, Option.map_some]

/-- Items written one after another up to the closing mark are read back. -/
theorem upTo_written (item : Reader α β) (closing : Marker α) (write : β → List α)
    (values : List β) {last tail : List α}
    (reads : ∀ value ∈ values, ∀ after, closing (write value ++ after) = none ∧
      item (write value ++ after) = some (value, after))
    (closes : closing last = some tail) (bound : ℕ) (enough : values.length < bound) :
    upTo item closing bound (values.flatMap write ++ last) = some (values, tail) := by
  induction values generalizing bound with
  | nil =>
      obtain ⟨bound, rfl⟩ : ∃ smaller, bound = smaller + 1 := ⟨bound - 1, by simp at enough; omega⟩
      simp only [List.flatMap_nil, List.nil_append, upTo, closes]
  | cons value rest ih =>
      obtain ⟨bound, rfl⟩ : ∃ smaller, bound = smaller + 1 := ⟨bound - 1, by omega⟩
      obtain ⟨notClosed, read⟩ := reads value (List.mem_cons_self ..) (rest.flatMap write ++ last)
      have later := ih (fun other member => reads other (List.mem_cons_of_mem _ member)) bound
        (by simpa using enough)
      simp only [List.flatMap_cons, List.append_assoc, upTo, notClosed, read, later,
        Option.map_some]

section Measured

variable (measure : List α → ℕ)

/-- A reader spends at least `cost` of the measure on the value it returns. -/
def Spends (reader : Reader α β) (cost : β → ℕ) : Prop :=
  ∀ input value rest, reader input = some (value, rest) → cost value + measure rest ≤ measure input

/-- A marker never adds to the measure. -/
def Keeps (marker : Marker α) : Prop :=
  ∀ input rest, marker input = some rest → measure rest ≤ measure input

/-- A marker spends at least a price. -/
def Charges (marker : Marker α) (price : ℕ) : Prop :=
  ∀ input rest, marker input = some rest → price + measure rest ≤ measure input

variable {measure}

/-- A marker that keeps the measure charges nothing. -/
theorem Keeps.charges {marker : Marker α} (keeps : Keeps measure marker) :
    Charges measure marker 0 := by
  intro input rest marked
  have kept := keeps input rest marked
  omega

/-- A token keeps every measure that does not grow towards the end. -/
theorem keeps_token [DecidableEq α] (blank : α → Bool) (symbol : α)
    (shrinks : ∀ text suffix : List α, suffix <:+ text → measure suffix ≤ measure text) :
    Keeps measure (token blank symbol) := by
  intro input rest read
  unfold token at read
  split at read
  · simp at read
  · next found after dropped =>
      split at read
      · obtain rfl := Option.some.inj read
        have inside : found :: after <:+ input := dropped ▸ List.dropWhile_suffix blank
        exact shrinks _ _ ((List.dropWhile_suffix blank).trans
          ((List.suffix_cons found after).trans inside))
      · simp at read

/-- Expected symbols keep every measure that does not grow towards the end. -/
theorem keeps_exactly [DecidableEq α] (expected : List α)
    (shrinks : ∀ text suffix : List α, suffix <:+ text → measure suffix ≤ measure text) :
    Keeps measure (exactly expected) := by
  intro input rest read
  unfold exactly at read
  split at read
  · obtain rfl := Option.some.inj read
    exact shrinks _ _ (List.drop_suffix _ _)
  · simp at read

/-- Expected symbols charge their own measure. -/
theorem charges_exactly [DecidableEq α] (expected : List α)
    (adds : ∀ text, measure (expected ++ text) = measure expected + measure text) :
    Charges measure (exactly expected) (measure expected) := by
  intro input rest read
  unfold exactly at read
  split at read
  · next starts =>
      obtain ⟨after, rfl⟩ := starts
      obtain rfl := Option.some.inj read
      rw [List.drop_left, adds]
  · simp at read

/-- A token charges the price of its symbol. -/
theorem charges_token [DecidableEq α] (blank : α → Bool) (symbol : α) (price : ℕ)
    (shrinks : ∀ text suffix : List α, suffix <:+ text → measure suffix ≤ measure text)
    (pays : ∀ text, measure (symbol :: text) = price + measure text) :
    Charges measure (token blank symbol) price := by
  intro input rest read
  unfold token at read
  split at read
  · simp at read
  · next found after dropped =>
      split at read
      · next same =>
          subst same
          obtain rfl := Option.some.inj read
          have inside := shrinks _ _ (dropped ▸ List.dropWhile_suffix blank (l := input))
          have kept := shrinks _ _ (List.dropWhile_suffix blank (l := after))
          rw [pays] at inside
          omega
      · simp at read

/-- A pair costs its two parts and the mark between them. -/
theorem spends_paired {first : Reader α β} {mark : Marker α} {second : Reader α γ}
    {frontCost : β → ℕ} {backCost : γ → ℕ} {price : ℕ} (fronts : Spends measure first frontCost)
    (marks : Charges measure mark price) (backs : Spends measure second backCost) :
    Spends measure (paired first mark second)
      fun pair => frontCost pair.1 + price + backCost pair.2 := by
  intro input value rest read
  unfold paired at read
  split at read
  · simp at read
  · next front afterFront frontRead =>
      split at read
      · simp at read
      · next afterMark markRead =>
          obtain ⟨⟨back, tail⟩, backRead, same⟩ := Option.map_eq_some_iff.mp read
          obtain ⟨rfl, rfl⟩ := Prod.mk.inj same
          have frontSpent := fronts _ _ _ frontRead
          have markSpent := marks _ _ markRead
          have backSpent := backs _ _ _ backRead
          simp only
          omega

/-- A list costs its items and the separators between them. -/
theorem spends_separated_charges {item : Reader α β} {separator : Marker α} {cost : β → ℕ}
    {price : ℕ} (items : Spends measure item cost) (between : Charges measure separator price)
    (bound : ℕ) : Spends measure (separated item separator bound)
      fun values => (values.map cost).sum + price * (values.length - 1) := by
  induction bound with
  | zero => intro input values rest read; simp [separated] at read
  | succ bound ih =>
      intro input values rest read
      simp only [separated] at read
      split at read
      · simp at read
      · next first afterItem itemRead =>
          have spent := items _ _ _ itemRead
          split at read
          · simp only [Option.some.injEq, Prod.mk.injEq] at read
            obtain ⟨rfl, rfl⟩ := read
            simpa using spent
          · next afterSeparator separatorRead =>
              have paid := between _ _ separatorRead
              obtain ⟨⟨others, tail⟩, othersRead, same⟩ := Option.map_eq_some_iff.mp read
              obtain ⟨rfl, rfl⟩ := Prod.mk.inj same
              have later : (others.map cost).sum + price * (others.length - 1) + measure tail ≤
                  measure afterSeparator := ih _ _ _ othersRead
              have separators : price * others.length ≤ price + price * (others.length - 1) := by
                cases others with
                | nil => simp
                | cons other others => simp [Nat.mul_add, Nat.add_comm]
              simp only [List.map_cons, List.sum_cons, List.length_cons, Nat.add_sub_cancel]
              omega

/-- Separated items cost what each of them costs. -/
theorem spends_separated {item : Reader α β} {separator : Marker α} {cost : β → ℕ}
    (items : Spends measure item cost) (between : Keeps measure separator) (bound : ℕ) :
    Spends measure (separated item separator bound) fun values => (values.map cost).sum := by
  simpa using spends_separated_charges items between.charges bound

/-- Listed items cost what each of them costs, and the separators between them. -/
theorem spends_listed {item : Reader α β} {separator closing : Marker α} {cost : β → ℕ}
    {price : ℕ} (items : Spends measure item cost) (between : Charges measure separator price) :
    Spends measure (listed item separator closing)
      fun values => (values.map cost).sum + price * (values.length - 1) := by
  intro input values rest read
  unfold listed at read
  split at read
  · obtain ⟨rfl, rfl⟩ := Prod.mk.inj (Option.some.inj read)
    simp
  · exact spends_separated_charges items between _ _ _ _ read

/-- Items up to an end cost what each of them costs, and the end. -/
theorem spends_upTo {item : Reader α β} {closing : Marker α} {cost : β → ℕ} {price : ℕ}
    (items : Spends measure item cost) (closes : Charges measure closing price) (bound : ℕ) :
    Spends measure (upTo item closing bound) fun values => (values.map cost).sum + price := by
  induction bound with
  | zero => intro input values rest read; simp [upTo] at read
  | succ bound ih =>
      intro input values rest read
      simp only [upTo] at read
      split at read
      · next after closingRead =>
          obtain ⟨rfl, rfl⟩ := Prod.mk.inj (Option.some.inj read)
          simpa using closes _ _ closingRead
      · split at read
        · simp at read
        · next first afterItem itemRead =>
            obtain ⟨⟨others, tail⟩, othersRead, same⟩ := Option.map_eq_some_iff.mp read
            obtain ⟨rfl, rfl⟩ := Prod.mk.inj same
            have spent := items _ _ _ itemRead
            have later : (others.map cost).sum + price + measure tail ≤ measure afterItem :=
              ih _ _ _ othersRead
            simp only [List.map_cons, List.sum_cons]
            omega

/-- Brackets charge beside what stands between them. -/
theorem spends_bracketed_charges {opening closing : Marker α} {inner : Reader α β} {cost : β → ℕ}
    {before after : ℕ} (opens : Charges measure opening before) (inside : Spends measure inner cost)
    (closes : Charges measure closing after) :
    Spends measure (bracketed opening inner closing) fun value => before + cost value + after := by
  intro input value rest read
  unfold bracketed at read
  split at read
  · simp at read
  · next afterOpening openingRead =>
      split at read
      · simp at read
      · next found afterInner innerRead =>
          obtain ⟨tail, closingRead, same⟩ := Option.map_eq_some_iff.mp read
          obtain ⟨rfl, rfl⟩ := Prod.mk.inj same
          have first := opens _ _ openingRead
          have second := inside _ _ _ innerRead
          have third := closes _ _ closingRead
          simp only
          omega

/-- Brackets that keep the measure cost nothing. -/
theorem spends_bracketed {opening closing : Marker α} {inner : Reader α β} {cost : β → ℕ}
    (opens : Keeps measure opening) (inside : Spends measure inner cost)
    (closes : Keeps measure closing) : Spends measure (bracketed opening inner closing) cost := by
  simpa using spends_bracketed_charges opens.charges inside closes.charges

end Measured

end Reading
