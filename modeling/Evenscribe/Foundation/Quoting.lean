import Mathlib.Data.List.Count
import Mathlib.Tactic.Common

/-!
# Quoted literals

A quoted literal opens and closes with one delimiter. Inside it a doubled
delimiter stands for the delimiter, and a dialect may have escape openers that
take the following symbol with them. The symbols with such a meaning are the
special ones.

Two facts serve a client that splices text between delimiters. Text without
special symbols is read back unchanged (`Rules.readBody_plain`). Reading never
gains special symbols: every special symbol of a decoded text costs two of the
input (`Rules.weight_readLiteral`), so a text whose special symbols were not
doubled when it was written cannot come back whole, wherever the reading
happens to stop.
-/

namespace Quoting

universe u

/-- The rules of one dialect. Escaping a symbol that is not special never
produces a special one. -/
structure Rules (α : Type u) where
  quote : α
  opensEscape : α → Bool
  unescape : α → α
  quote_plain : opensEscape quote = false
  special_of_unescape : ∀ symbol,
    unescape symbol = quote ∨ opensEscape (unescape symbol) = true →
      symbol = quote ∨ opensEscape symbol = true

namespace Rules

variable {α : Type u} [DecidableEq α] (rules : Rules α)

/-- A symbol with a meaning of its own inside a literal. -/
def Special (symbol : α) : Prop :=
  symbol = rules.quote ∨ rules.opensEscape symbol = true

instance : DecidablePred rules.Special := fun symbol =>
  inferInstanceAs (Decidable (symbol = rules.quote ∨ rules.opensEscape symbol = true))

/-- A text none of whose symbols is special. -/
def Plain (text : List α) : Prop := ∀ symbol ∈ text, ¬ rules.Special symbol

instance (text : List α) : Decidable (rules.Plain text) :=
  inferInstanceAs (Decidable (∀ symbol ∈ text, ¬ rules.Special symbol))

/-- The number of special symbols of a text. -/
def weight (text : List α) : ℕ := text.countP rules.Special

/-- Read a literal after its opening delimiter: the text it stands for and what
follows the closing delimiter. -/
def readBody : List α → Option (List α × List α)
  | [] => none
  | symbol :: rest =>
      if rules.opensEscape symbol = true then
        match rest with
        | [] => none
        | escaped :: rest =>
            (readBody rest).map fun read => (rules.unescape escaped :: read.1, read.2)
      else if symbol = rules.quote then
        match rest with
        | [] => some ([], [])
        | next :: after =>
            if next = rules.quote then
              (readBody after).map fun read => (rules.quote :: read.1, read.2)
            else some ([], next :: after)
      else (readBody rest).map fun read => (symbol :: read.1, read.2)

/-- Read a literal that starts at the front of the input. -/
def readLiteral : List α → Option (List α × List α)
  | [] => none
  | symbol :: rest => if symbol = rules.quote then rules.readBody rest else none

/-- A text between two delimiters. -/
def enclose (text : List α) : List α := rules.quote :: (text ++ [rules.quote])

@[simp] theorem weight_nil : rules.weight [] = 0 := rfl

theorem weight_cons (symbol : α) (text : List α) :
    rules.weight (symbol :: text) =
      rules.weight text + if rules.Special symbol then 1 else 0 := by
  simp only [weight, List.countP_cons, decide_eq_true_eq]

@[simp] theorem weight_append (first second : List α) :
    rules.weight (first ++ second) = rules.weight first + rules.weight second :=
  List.countP_append

omit [DecidableEq α] in
theorem special_quote : rules.Special rules.quote := Or.inl rfl

/-- A text without weight is one without special symbols. -/
theorem weight_eq_zero_iff (text : List α) : rules.weight text = 0 ↔ rules.Plain text := by
  simp only [weight, List.countP_eq_zero, decide_eq_true_eq, Plain]

/-- The end of a text is no heavier than the text. -/
theorem weight_le_of_suffix {text suffix : List α} (ends : suffix <:+ text) :
    rules.weight suffix ≤ rules.weight text :=
  ends.sublist.countP_le

/-- An ordinary symbol stands for itself. -/
theorem readBody_ordinary (symbol : α) (rest : List α) (ordinary : ¬ rules.Special symbol) :
    rules.readBody (symbol :: rest) =
      (rules.readBody rest).map fun read => (symbol :: read.1, read.2) := by
  have noOpener : rules.opensEscape symbol ≠ true := fun opener => ordinary (Or.inr opener)
  have noQuote : symbol ≠ rules.quote := fun quote => ordinary (Or.inl quote)
  rw [readBody.eq_def]
  simp only [noOpener, noQuote, ↓reduceIte, Bool.false_eq_true]

/-- Text without special symbols is read back as it stands, provided the symbol
after its closing delimiter is not a delimiter. -/
theorem readBody_plain (text rest : List α) (plain : rules.Plain text)
    (closed : rest.head? ≠ some rules.quote) :
    rules.readBody (text ++ rules.quote :: rest) = some (text, rest) := by
  induction text with
  | nil =>
      cases rest with
      | nil => simp [readBody, rules.quote_plain]
      | cons next after =>
          have different : next ≠ rules.quote := fun same => closed (by simp [same])
          simp [readBody, rules.quote_plain, different]
  | cons symbol text ih =>
      have ordinary := plain symbol (List.mem_cons_self ..)
      have read := ih fun other member => plain other (List.mem_cons_of_mem _ member)
      rw [List.cons_append, rules.readBody_ordinary symbol _ ordinary, read, Option.map_some]

/-- A plain text in quotes is read back. -/
theorem readLiteral_enclose (text rest : List α) (plain : rules.Plain text)
    (closed : rest.head? ≠ some rules.quote) :
    rules.readLiteral (rules.enclose text ++ rest) = some (text, rest) := by
  simpa [readLiteral, enclose] using rules.readBody_plain text rest plain closed

/-- Each special symbol of the text read costs two of the input, and the
closing delimiter one more. -/
theorem weight_readBody {input text rest : List α}
    (read : rules.readBody input = some (text, rest)) :
    2 * rules.weight text + 1 + rules.weight rest ≤ rules.weight input := by
  induction input using readBody.induct rules generalizing text rest with
  | case1 => simp [readBody] at read
  | case2 symbol opener => simp [readBody, opener] at read
  | case3 symbol opener escaped after ih =>
      simp only [readBody, opener, ↓reduceIte, Option.map_eq_some_iff, Prod.mk.injEq] at read
      obtain ⟨⟨inner, tail⟩, readInner, rfl, rfl⟩ := read
      have bound := ih readInner
      have special : rules.Special symbol := Or.inr opener
      -- An escape that yields a special symbol spells two special symbols.
      have paid : rules.Special (rules.unescape escaped) → rules.Special escaped :=
        rules.special_of_unescape escaped
      simp only [weight_cons, special, ↓reduceIte]
      by_cases yields : rules.Special (rules.unescape escaped)
      · simp only [yields, paid yields, ↓reduceIte]
        omega
      · simp only [yields, ↓reduceIte]
        omega
  | case4 noOpener =>
      simp only [readBody, rules.quote_plain, Bool.false_eq_true, ↓reduceIte, Option.some.injEq,
        Prod.mk.injEq] at read
      obtain ⟨rfl, rfl⟩ := read
      simp [weight_cons, rules.special_quote]
  | case5 after noOpener ih =>
      simp only [readBody, rules.quote_plain, Bool.false_eq_true, ↓reduceIte,
        Option.map_eq_some_iff, Prod.mk.injEq] at read
      obtain ⟨⟨inner, tail⟩, readInner, rfl, rfl⟩ := read
      have bound := ih readInner
      simp only [weight_cons, rules.special_quote, ↓reduceIte]
      omega
  | case6 next after different noOpener =>
      simp only [readBody, rules.quote_plain, different, Bool.false_eq_true, ↓reduceIte,
        Option.some.injEq, Prod.mk.injEq] at read
      obtain ⟨rfl, rfl⟩ := read
      simp only [weight_nil, weight_cons, rules.special_quote, ↓reduceIte]
      omega
  | case7 symbol after noOpener noQuote ih =>
      have ordinary : ¬ rules.Special symbol := by
        rintro (quote | opener)
        · exact noQuote quote
        · exact noOpener opener
      rw [rules.readBody_ordinary symbol after ordinary, Option.map_eq_some_iff] at read
      obtain ⟨⟨inner, tail⟩, readInner, same⟩ := read
      obtain ⟨rfl, rfl⟩ := Prod.mk.inj same
      have bound := ih readInner
      simp only [weight_cons, ordinary, ↓reduceIte]
      omega

/-- Reading a whole literal spends its two delimiters besides. -/
theorem weight_readLiteral {input text rest : List α}
    (read : rules.readLiteral input = some (text, rest)) :
    2 + 2 * rules.weight text + rules.weight rest ≤ rules.weight input := by
  cases input with
  | nil => simp [readLiteral] at read
  | cons symbol after =>
      by_cases opens : symbol = rules.quote
      · subst symbol
        simp only [readLiteral, ↓reduceIte] at read
        have bound := rules.weight_readBody read
        simp only [weight_cons, rules.special_quote, ↓reduceIte]
        omega
      · simp [readLiteral, opens] at read

end Rules
end Quoting
