import Evenscribe.Foundation.Marked
import Evenscribe.Serializer

/-!
# Reporting a message that is no JSON

`warn` passes its first argument to `vfprintf` as the format, with no arguments
behind it, and `serialize` passes the bytes it received. They are printed as they
are exactly when they hold no percent sign.
-/

namespace Evenscribe

/-- The conversions of a format that take no argument: `%%` alone. -/
def conversions : Marked.Coding UInt8 where
  mark := percent
  sequence
    | [] => none
    | byte :: rest => if byte = percent then some (percent, rest) else none
  shorter {rest symbol later} found := by
    cases rest with
    | nil => exact nomatch found
    | cons byte rest =>
        obtain ⟨_, pair⟩ := Option.ite_none_right_eq_some.mp found
        obtain ⟨_, rfl⟩ := Prod.mk.inj (Option.some.inj pair)
        exact Nat.lt_succ_self _

/-- What `vfprintf` writes with an empty argument list, if no conversion takes an
argument from it to print or to store through. -/
def vfprintf (format : Text) : Option Text := conversions.decode format

/-- `warn` without further arguments. -/
def warn (format : Text) : Option Text := vfprintf (cString format)

example : warn (text "100%% of %s") = none := by decide

/-- A text without a terminator is printed as it is exactly when it has no percent
sign. -/
theorem warn_eq_self_iff {format : Text} (terminated : 0 ∉ format) :
    warn format = some format ↔ percent ∉ format := by
  rw [warn, cString_eq_self terminated]
  exact conversions.decode_eq_self_iff

namespace Serializer

open CJSON

/-- The second warning about bytes that are no JSON prints them and a line end. -/
def ReportsLiterally (target : Target) (source rest : Text) : Prop :=
  (serialize target (source ++ 0 :: rest)).warnings[1]?.bind warn = some (source ++ text "\n")

instance (target : Target) (source rest : Text) : Decidable (ReportsLiterally target source rest) :=
  inferInstanceAs (Decidable (_ = _))

/-- What the invalid branch passes to its second `warn`. -/
theorem warnings_of_rejected (target : Target) {source rest : Text} (terminated : 0 ∉ source)
    (rejected : parseWithLength ((source ++ 0 :: rest).take bufferSize) = none) :
    (serialize target (source ++ 0 :: rest)).warnings[1]? = some (source ++ text "\n") := by
  rw [serialize, rejected, cString_append_zero terminated]
  rfl

/-- **Literal reports.** Bytes that the parser rejects are printed as they are, and
no argument is taken, exactly when they hold no percent sign. -/
theorem reportsLiterally_iff (target : Target) {source rest : Text} (terminated : 0 ∉ source)
    (rejected : parseWithLength ((source ++ 0 :: rest).take bufferSize) = none) :
    ReportsLiterally target source rest ↔ percent ∉ source := by
  have line : 0 ∉ source ++ text "\n" := by
    simp [List.mem_append, terminated, show (0 : UInt8) ∉ text "\n" by decide]
  rw [ReportsLiterally, warnings_of_rejected target terminated rejected, Option.bind_some,
    warn_eq_self_iff line]
  simp [List.mem_append, show percent ∉ text "\n" by decide]

/-- A text without a percent sign is reported as it is. -/
theorem reportsLiterally_word : ReportsLiterally .wrapping (text "hello") [] :=
  (reportsLiterally_iff .wrapping (by decide) (by decide +kernel)).mpr (by decide)

/-- A client that sends `%n` has `vfprintf` store through an argument that nobody
passed. -/
theorem not_reportsLiterally_store :
    ¬ ∀ (target : Target) (source rest : Text), 0 ∉ source →
      parseWithLength ((source ++ 0 :: rest).take bufferSize) = none →
        ReportsLiterally target source rest := by
  intro always
  exact absurd (always .wrapping (text "%n") [] (by decide) (by decide +kernel))
    (by decide +kernel)

end Serializer

end Evenscribe
