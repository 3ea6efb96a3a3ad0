import Evenscribe.Json.ParseShape
import Evenscribe.Serializer.Faithful

/-!
# What is left over in the buffer of a connection

`read` fills the front of a buffer and its length is dropped, so `serialize` sees
the bytes behind it as well. The verdict on a message is its own exactly when its
bytes hold a whole JSON value, or no bytes behind them make them a log.
-/

namespace Evenscribe.Serializer

open CJSON

/-- A front and a tail that fill the buffer of a connection. -/
def Fills (front tail : Text) : Prop := (front ++ tail).length = bufferSize

/-- The two records are told apart by nothing that is used of them. -/
def SameVerdict (first second : Log) : Prop :=
  first.isVaild = second.isVaild ∧ (first.isVaild = true → first = second)

/-- The verdict on the bytes read does not depend on the bytes behind them. -/
def OwnVerdict (target : Target) (front : Text) : Prop :=
  ∀ first second, Fills front first → Fills front second →
    SameVerdict (serialize target (front ++ first)).log (serialize target (front ++ second)).log

/-- The buffer holds a log. -/
def HoldsLog (buffer : Text) : Prop :=
  ∃ json message, parseWithLength buffer = some json ∧ Tells json message

/-- A buffer that is parsed gives the outcome of its tree. -/
theorem serialize_of_parse (target : Target) {buffer : Text} (fits : buffer.length ≤ bufferSize)
    {json : CJSON} (parsed : parseWithLength buffer = some json) :
    serialize target buffer = outcome (readLog target json) := by
  rw [serialize, List.take_of_length_le fits, parsed]

/-- A buffer is accepted exactly when it holds a log. -/
theorem isVaild_serialize_iff (target : Target) {buffer : Text}
    (fits : buffer.length ≤ bufferSize) :
    (serialize target buffer).log.isVaild = true ↔ HoldsLog buffer := by
  unfold HoldsLog
  cases parsed : parseWithLength buffer with
  | none => simp [serialize, List.take_of_length_le fits, parsed]
  | some json =>
      have wellFormed := (parsedValue_parseWithLength parsed).wellFormed
      rw [serialize_of_parse target fits parsed, isVaild_iff_tells target wellFormed]
      simp

/-- An object that the front holds is what every buffer with that front holds. -/
theorem parseWithLength_append {front : Text} {json : CJSON}
    (parsed : parseWithLength front = some json) (object : json.kind = .object) (tail : Text) :
    parseWithLength (front ++ tail) = some json := by
  obtain ⟨rest, result⟩ := parseWithLength_eq_some.mp parsed
  have alone : parseRoot (front ++ []) = some (json, rest ++ []) := by simpa using result
  exact parseWithLength_eq_some.mpr ⟨rest ++ tail, parseRoot_local alone object tail⟩

/-- No log is empty. -/
theorem HoldsLog.ne_nil {buffer : Text} (holds : HoldsLog buffer) : buffer ≠ [] := by
  rintro rfl
  obtain ⟨json, message, parsed, _⟩ := holds
  exact absurd parsed nofun

/-- A log at the front of a buffer is the log it holds. -/
theorem HoldsLog.append {front : Text} (holds : HoldsLog front) (tail : Text) :
    HoldsLog (front ++ tail) := by
  obtain ⟨json, message, parsed, tells⟩ := holds
  exact ⟨json, message, parseWithLength_append parsed tells.root tail, tells⟩

/-- Bytes without a closing brace do not complete a log. -/
theorem holdsLog_of_append {front back : Text} (noBrace : 125 ∉ back)
    (holds : HoldsLog (front ++ back)) : HoldsLog front := by
  obtain ⟨json, message, parsed, tells⟩ := holds
  obtain ⟨rest, result⟩ := parseWithLength_eq_some.mp parsed
  obtain ⟨inner, rfl⟩ := parseRoot_ends result tells.root noBrace
  have alone := parseRoot_local result tells.root []
  rw [List.append_nil, List.append_nil] at alone
  exact ⟨json, message, parseWithLength_eq_some.mpr ⟨inner, alone⟩, tells⟩

/-- A value that is no object leaves no room for a log behind it. -/
theorem not_holdsLog_of_parse {front : Text} {json : CJSON}
    (parsed : parseWithLength front = some json) (other : json.kind ≠ .object) (tail : Text) :
    ¬ HoldsLog (front ++ tail) := by
  rintro ⟨longer, message, parsedLonger, tells⟩
  obtain ⟨rest, result⟩ := parseWithLength_eq_some.mp parsed
  obtain ⟨after, extended⟩ := parseWithLength_eq_some.mp parsedLonger
  exact other ((parseRoot_kind result extended).mpr tells.root)

/-- Buffers that hold no log get the same verdict. -/
theorem sameVerdict_of_not_holdsLog (target : Target) {first second : Text}
    (fitsFirst : first.length ≤ bufferSize) (fitsSecond : second.length ≤ bufferSize)
    (noFirst : ¬ HoldsLog first) (noSecond : ¬ HoldsLog second) :
    SameVerdict (serialize target first).log (serialize target second).log := by
  have invalid : ∀ buffer : Text, buffer.length ≤ bufferSize → ¬ HoldsLog buffer →
      (serialize target buffer).log.isVaild = false := fun buffer fits no =>
    Bool.eq_false_iff.mpr fun valid => no ((isVaild_serialize_iff target fits).mp valid)
  have firstInvalid := invalid first fitsFirst noFirst
  refine ⟨firstInvalid.trans (invalid second fitsSecond noSecond).symm, fun valid => ?_⟩
  exact (Bool.false_ne_true (firstInvalid.symm.trans valid)).elim

/-- **Verdicts on a message's own bytes.** The verdict on the bytes read depends on
them alone exactly when they hold a whole JSON value, or when nothing behind them
makes the buffer hold a log. -/
theorem ownVerdict_iff (target : Target) (front : Text) :
    OwnVerdict target front ↔
      (∃ json, parseWithLength front = some json) ∨
        ¬ ∃ tail, Fills front tail ∧ HoldsLog (front ++ tail) := by
  constructor
  · intro own
    by_cases completed : ∃ tail, Fills front tail ∧ HoldsLog (front ++ tail)
    · obtain ⟨tail, fills, holds⟩ := completed
      -- with zeros behind it the front has to complete the log by itself
      have zeros : Fills front (List.replicate tail.length 0) := by
        unfold Fills at fills ⊢
        rw [List.length_append, List.length_replicate, ← List.length_append, fills]
      have valid := (isVaild_serialize_iff target (Nat.le_of_eq fills)).mpr holds
      have again := (own tail _ fills zeros).1.symm.trans valid
      have alone := holdsLog_of_append
        (fun member => absurd (List.eq_of_mem_replicate member) (by decide))
        ((isVaild_serialize_iff target (Nat.le_of_eq zeros)).mp again)
      obtain ⟨json, _, parsed, _⟩ := alone
      exact .inl ⟨json, parsed⟩
    · exact .inr completed
  · intro whole first second fillsFirst fillsSecond
    have fitsFirst := Nat.le_of_eq fillsFirst
    have fitsSecond := Nat.le_of_eq fillsSecond
    rcases whole with ⟨json, parsed⟩ | never
    · by_cases object : json.kind = .object
      · rw [serialize_of_parse target fitsFirst (parseWithLength_append parsed object first),
          serialize_of_parse target fitsSecond (parseWithLength_append parsed object second)]
        exact ⟨rfl, fun _ => rfl⟩
      · exact sameVerdict_of_not_holdsLog target fitsFirst fitsSecond
          (not_holdsLog_of_parse parsed object first) (not_holdsLog_of_parse parsed object second)
    · exact sameVerdict_of_not_holdsLog target fitsFirst fitsSecond
        (fun holds => never ⟨first, fillsFirst, holds⟩)
        (fun holds => never ⟨second, fillsSecond, holds⟩)

/-- The text of a small log. -/
def sampleLog : Text :=
  text "\x7b\"Timestamp\":1,\"TraceId\":\"t\",\"SpanId\":\"s\",\"TraceFlags\":0," ++
    text "\"SeverityText\":\"INFO\",\"SeverityNumber\":9," ++
    text "\"ServiceName\":\"api\",\"Body\":\"up\"," ++
    text "\"ResourceAttributes\":\x7b\x7d,\"LogAttributes\":\x7b\"k\":\"v\"\x7d\x7d"

theorem length_sampleLog : sampleLog.length = 180 := by decide +kernel

theorem sampleLog_fits : sampleLog.length ≤ bufferSize := by
  rw [length_sampleLog]
  decide

/-- The sample log is a log. -/
theorem holdsLog_sampleLog : HoldsLog sampleLog := by
  apply (isVaild_serialize_iff .wrapping sampleLog_fits).mp
  decide +kernel

/-- The text of another one. -/
def otherLog : Text :=
  text "\x7b\"Timestamp\":2,\"TraceId\":\"u\",\"SpanId\":\"v\",\"TraceFlags\":1," ++
    text "\"SeverityText\":\"WARN\",\"SeverityNumber\":13," ++
    text "\"ServiceName\":\"api\",\"Body\":\"down\"," ++
    text "\"ResourceAttributes\":\x7b\"k\":\"w\"\x7d,\"LogAttributes\":\x7b\x7d\x7d"

theorem otherLog_fits : otherLog.length ≤ bufferSize := by decide +kernel

/-- The other log is a log. -/
theorem holdsLog_otherLog : HoldsLog otherLog := by
  apply (isVaild_serialize_iff .wrapping otherLog_fits).mp
  decide +kernel

/-- A log without its last brace is completed by a brace left over in the buffer. -/
theorem not_ownVerdict_unclosed :
    ¬ ∀ (target : Target) (front : Text), 1 ≤ front.length → front.length ≤ bufferSize →
      OwnVerdict target front := by
  intro always
  have size : sampleLog.dropLast.length = 179 := by
    rw [List.length_dropLast, length_sampleLog]
  have fills (brace : Text) (short : brace.length ≤ 1) :
      Fills sampleLog.dropLast (brace ++ List.replicate (821 - brace.length) 0) := by
    rw [Fills, List.length_append, List.length_append, List.length_replicate, size, bufferSize]
    omega
  have own := always .wrapping sampleLog.dropLast (by rw [size]; decide) (by rw [size]; decide)
  have same := (own _ _ (fills [125] (Nat.le_refl 1)) (fills [] (Nat.zero_le 1))).1
  exact absurd same (by decide +kernel)

end Evenscribe.Serializer
