import Evenscribe.Serializer.Schema

/-!
# The numbers of a record

A block of a number asks for its kind alone and assigns `valuedouble` to an integer
field. The three numbers of an accepted message are those of its record exactly
when they were integers of their field's range to begin with.
-/

namespace Evenscribe

/-- An integer is its own integral part. -/
theorem integralPart_intCast (number : ℤ) : integralPart (number : ℚ) = number := by
  simp [integralPart]

namespace Target

variable (target : Target) {number : ℤ}

/-- An integer that fits is converted to itself. -/
theorem toUInt32_intCast (nonneg : 0 ≤ number) (small : number < 2 ^ 32) :
    ((target.toUInt32 (.finite number)).toNat : ℤ) = number := by
  have whole := integralPart_intCast number
  rw [target.toNat_toUInt32 number (whole.symm ▸ nonneg) (whole.symm ▸ small), whole]

/-- An integer in range is converted to itself. -/
theorem toInt32_intCast (large : -2 ^ 31 ≤ number) (small : number < 2 ^ 31) :
    (target.toInt32 (.finite number)).toInt = number := by
  have whole := integralPart_intCast number
  rw [target.toInt_toInt32 number (whole.symm ▸ large) (whole.symm ▸ small), whole]

end Target

namespace Serializer

open CJSON

/-- A member is an integer of the range from `low` to below `high`. -/
def IntegerMember (json : CJSON) (name : Text) (low high : ℤ) : Prop :=
  ∃ number : ℤ, NumberMember json name (.finite number) ∧ low ≤ number ∧ number < high

/-- The numbers of a message are values of the fields they are stored in. -/
structure InRange (json : CJSON) : Prop where
  timestamp : IntegerMember json (text "Timestamp") 0 (2 ^ 32)
  traceFlags : IntegerMember json (text "TraceFlags") 0 (2 ^ 32)
  severityNumber : IntegerMember json (text "SeverityNumber") (-2 ^ 31) (2 ^ 31)

/-- The numbers of a message are in range, and the record holds them. -/
structure ExactNumbers (json : CJSON) (log : Log) : Prop extends InRange json where
  storedTimestamp : NumberMember json (text "Timestamp") (.finite log.timestamp.toNat)
  storedTraceFlags : NumberMember json (text "TraceFlags") (.finite log.traceFlags.toNat)
  storedSeverityNumber :
    NumberMember json (text "SeverityNumber") (.finite log.severityNumber.toInt)

/-- A tree has one number under a name. -/
theorem NumberMember.unique {json : CJSON} {name : Text} {first second : Double}
    (one : NumberMember json name first) (other : NumberMember json name second) :
    first = second := by
  obtain ⟨item, found, _, rfl⟩ := one
  obtain ⟨_, again, _, rfl⟩ := other
  obtain rfl := Option.some.inj (found.symm.trans again)
  rfl

section Stored

variable (target : Target) {json : CJSON} {name : Text} {number : Double}

/-- An unsigned field holds its number when that is in range. -/
theorem IntegerMember.stored_toUInt32 (inRange : IntegerMember json name 0 (2 ^ 32))
    (member : NumberMember json name number) :
    NumberMember json name (.finite (target.toUInt32 number).toNat) := by
  obtain ⟨integer, holds, nonneg, small⟩ := inRange
  obtain rfl := member.unique holds
  have exact := target.toUInt32_intCast nonneg small
  rwa [← Int.cast_natCast, exact]

/-- A signed integer in range is stored as it is. -/
theorem IntegerMember.stored_toInt32 (inRange : IntegerMember json name (-2 ^ 31) (2 ^ 31))
    (member : NumberMember json name number) :
    NumberMember json name (.finite (target.toInt32 number).toInt) := by
  obtain ⟨integer, holds, large, small⟩ := inRange
  obtain rfl := member.unique holds
  rwa [target.toInt32_intCast large small]

end Stored

/-- The record of a message holds its numbers exactly when they are in range. -/
theorem exactNumbers_stored_iff (target : Target) {json : CJSON} {message : Message}
    (tells : Tells json message) : ExactNumbers json (message.stored target) ↔ InRange json :=
  ⟨fun exact => exact.toInRange, fun ranges =>
    ⟨ranges, ranges.timestamp.stored_toUInt32 target tells.timestamp,
      ranges.traceFlags.stored_toUInt32 target tells.traceFlags,
      ranges.severityNumber.stored_toInt32 target tells.severityNumber⟩⟩

/-- **Exact numbers.** An accepted message has its numbers in range and in the record
exactly when it is rejected for another reason or had them in range. -/
theorem exactNumbers_iff (target : Target) {json : CJSON} (wellFormed : WellFormed json) :
    ((outcome (readLog target json)).log.isVaild = true →
        ExactNumbers json (outcome (readLog target json)).log) ↔
      (MeetsSchema json → InRange json) := by
  constructor
  · intro exact meets
    have told := (exists_tells_iff wellFormed).mpr meets
    exact (exact ((isVaild_iff_tells target wellFormed).mpr told)).toInRange
  · intro inRange valid
    obtain ⟨message, tells, stored⟩ := tells_of_isVaild wellFormed valid
    have ranges := inRange ((exists_tells_iff wellFormed).mp ⟨message, tells⟩)
    rw [stored]
    exact (exactNumbers_stored_iff target tells).mpr ranges

/-- The numbers of the sample message are in range. -/
theorem inRange_sample (traceId spanId : Text) : InRange (Message.sample traceId spanId).tree := by
  have tells := tells_tree (Message.sample traceId spanId)
  refine ⟨⟨4294967295, ?_, by decide⟩, ⟨0, ?_, by decide⟩, ⟨-2147483648, ?_, by decide⟩⟩
  · exact_mod_cast tells.timestamp
  · exact_mod_cast tells.traceFlags
  · exact_mod_cast tells.severityNumber

/-- The ends of the ranges are stored as they are. -/
theorem exactNumbers_ends :
    ExactNumbers (Message.sample (text "a") (text "b")).tree
      (outcome (readLog .wrapping (Message.sample (text "a") (text "b")).tree)).log :=
  (exactNumbers_iff .wrapping (wellFormed_tree _)).mpr (fun _ => inRange_sample _ _)
    (isVaild_tree _ _)

/-- A message whose `Timestamp` has a fraction. -/
def Message.halfPast : Message := { Message.sample [] [] with timestamp := .finite (3 / 2) }

/-- A timestamp with a fraction is accepted and truncated. -/
theorem not_exactNumbers_halfPast :
    ¬ ∀ (target : Target) (json : CJSON), WellFormed json →
      (outcome (readLog target json)).log.isVaild = true →
        ExactNumbers json (outcome (readLog target json)).log := by
  intro always
  have exact := always .wrapping Message.halfPast.tree (wellFormed_tree _) (isVaild_tree _ _)
  obtain ⟨number, holds, _⟩ := exact.timestamp
  have equal : Double.finite (3 / 2) = .finite number :=
    (tells_tree Message.halfPast).timestamp.unique holds
  have fraction : ((3 / 2 : ℚ)).den = 1 := by
    rw [Double.finite.inj equal]
    exact Rat.den_intCast number
  exact absurd fraction (by decide +kernel)

end Serializer

end Evenscribe
