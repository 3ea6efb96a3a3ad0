import Evenscribe.Serializer.Numbers

/-!
# What the serializer makes of a buffer

`serialize` parses a buffer before its blocks read the tree. What holds of its blocks for
every tree of the parser holds of the buffers it is given: which are accepted, and what
their records keep.
-/

namespace Evenscribe.Serializer

open CJSON

/-- A buffer that holds a tree of the schema gives the record of the message that the
tree tells. -/
theorem serialize_of_meetsSchema (target : Target) {source : Text} {json : CJSON}
    (parsed : parseWithLength (source.take bufferSize) = some json) (meets : MeetsSchema json) :
    ∃ message, Tells json message ∧ serialize target source = ⟨message.stored target, []⟩ := by
  have wellFormed := (parsedValue_parseWithLength parsed).wellFormed
  obtain ⟨message, tells⟩ := (exists_tells_iff wellFormed).mpr meets
  refine ⟨message, tells, ?_⟩
  rw [serialize, parsed]
  exact outcome_of_tells wellFormed tells

/-- A buffer is accepted exactly when it holds a tree of the schema. -/
theorem serialize_isVaild_iff (target : Target) (source : Text) :
    (serialize target source).log.isVaild = true ↔
      ∃ json, parseWithLength (source.take bufferSize) = some json ∧ MeetsSchema json := by
  unfold serialize
  cases parsed : parseWithLength (source.take bufferSize) with
  | none => simp
  | some json =>
      have wellFormed := (parsedValue_parseWithLength parsed).wellFormed
      simp [isVaild_iff_tells target wellFormed, exists_tells_iff wellFormed]

/-- A buffer that is not accepted is warned of. -/
theorem warnings_serialize_ne_nil (target : Target) {source : Text}
    (invalid : (serialize target source).log.isVaild ≠ true) :
    (serialize target source).warnings ≠ [] := by
  unfold serialize at invalid ⊢
  cases parsed : parseWithLength (source.take bufferSize) with
  | none => exact List.cons_ne_nil _ _
  | some json =>
      have wellFormed := (parsedValue_parseWithLength parsed).wellFormed
      rw [parsed] at invalid
      change (outcome (readLog target json)).warnings ≠ []
      cases read : readLog target json with
      | error rejection => exact List.cons_ne_nil _ _
      | ok log =>
          obtain ⟨message, tells, _⟩ := (readLog_eq_ok target wellFormed log).mp read
          exact absurd ((isVaild_iff_tells target wellFormed).mpr ⟨message, tells⟩) invalid

/-- **What `serialize` makes of a buffer.** It accepts a buffer exactly when that holds a
tree of the schema, and warns of all others. The record then holds the strings and maps of
the tree exactly when it has no identifiers, and its numbers exactly when they are in
range. -/
theorem serialize_spec (target : Target) (source : Text) :
    ((serialize target source).log.isVaild = true ↔
        ∃ json, parseWithLength (source.take bufferSize) = some json ∧ MeetsSchema json) ∧
      ((serialize target source).warnings = [] ↔
        (serialize target source).log.isVaild = true) ∧
      ∀ json, parseWithLength (source.take bufferSize) = some json → MeetsSchema json →
        (Faithful json (serialize target source).log ↔
          StringMember json (text "TraceId") [] ∧ StringMember json (text "SpanId") []) ∧
        (ExactNumbers json (serialize target source).log ↔ InRange json) := by
  refine ⟨serialize_isVaild_iff target source, ⟨fun silent => ?_, fun valid => ?_⟩, ?_⟩
  · by_contra invalid
    exact warnings_serialize_ne_nil target invalid silent
  · obtain ⟨json, parsed, meets⟩ := (serialize_isVaild_iff target source).mp valid
    obtain ⟨message, _, result⟩ := serialize_of_meetsSchema target parsed meets
    rw [result]
  · intro json parsed meets
    obtain ⟨message, tells, result⟩ := serialize_of_meetsSchema target parsed meets
    rw [result]
    exact ⟨faithful_stored_iff target tells, exactNumbers_stored_iff target tells⟩

end Evenscribe.Serializer
