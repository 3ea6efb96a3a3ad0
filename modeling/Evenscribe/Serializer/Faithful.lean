import Evenscribe.Serializer.Message

/-!
# What of a message reaches the record

Every accepted message reaches its record unchanged but for its two identifiers:
the span identifier is stored in place of the trace identifier, and no block
writes `SpanId`. A record is therefore faithful exactly when both are empty.
-/

namespace Evenscribe.Serializer

open CJSON

/-- The strings and maps of a record are those of the tree. -/
structure Faithful (json : CJSON) (log : Log) : Prop where
  traceId : StringMember json (text "TraceId") log.traceId
  spanId : StringMember json (text "SpanId") log.spanId
  severityText : StringMember json (text "SeverityText") log.severityText
  serviceName : StringMember json (text "ServiceName") log.serviceName
  body : StringMember json (text "Body") log.body
  resourceAttributes : ∃ entries, AttributesMember json (text "ResourceAttributes") entries ∧
    ∀ key, log.resourceAttributes.lookup key = lastValue key entries
  logAttributes : ∃ entries, AttributesMember json (text "LogAttributes") entries ∧
    ∀ key, log.logAttributes.lookup key = lastValue key entries

/-- What an early return leaves is marked invalid. -/
structure RejectsInvalid (result : Except Rejection Log) : Prop where
  isVaild : ∀ rejection, result = .error rejection → rejection.log.isVaild = false

namespace RejectsInvalid

theorem reject (log : Log) (warning : Text) : RejectsInvalid (reject log warning) := by
  refine ⟨fun rejection rejected => ?_⟩
  obtain rfl := Except.error.inj rejected
  rfl

/-- Blocks that only end early with invalid records do so in sequence. -/
theorem bind {first : Except Rejection Log} {next : Log → Except Rejection Log}
    (rejects : RejectsInvalid first) (later : ∀ log, RejectsInvalid (next log)) :
    RejectsInvalid (first >>= next) := by
  cases first with
  | error rejection => exact ⟨fun other equal => rejects.isVaild other equal⟩
  | ok log => exact later log

theorem ok (log : Log) : RejectsInvalid (.ok log) := ⟨nofun⟩

theorem numberBlock (json : CJSON) (name warning : Text) (store : Log → Double → Log) (log : Log) :
    RejectsInvalid (numberBlock json name warning store log) := by
  unfold Serializer.numberBlock
  split
  · exact reject ..
  · split
    · exact ok _
    · exact reject ..

theorem stringBlock (json : CJSON) (name warning : Text) (tested : CJSON → Option Text)
    (store : Log → Text → Log) (log : Log) :
    RejectsInvalid (stringBlock json name warning tested store log) := by
  unfold Serializer.stringBlock
  split
  · exact reject ..
  · split
    · exact reject ..
    · exact ok _

theorem attributeLoop (warning : Text) (store : Log → Text → Text → Log) (members : List CJSON)
    (log : Log) : RejectsInvalid (attributeLoop warning store members log) := by
  induction members generalizing log with
  | nil => exact ok _
  | cons member next ih =>
      unfold Serializer.attributeLoop
      split
      · exact reject ..
      · exact ih _

theorem attributesBlock (json : CJSON) (name missing warning : Text)
    (store : Log → Text → Text → Log) (log : Log) :
    RejectsInvalid (attributesBlock json name missing warning store log) := by
  unfold Serializer.attributesBlock
  split
  · exact reject ..
  · split
    · exact attributeLoop ..
    · exact reject ..

end RejectsInvalid

/-- `serialize` ends early with an invalid record only. -/
theorem readLog_rejectsInvalid (target : Target) (json : CJSON) :
    RejectsInvalid (readLog target json) := by
  apply (RejectsInvalid.numberBlock ..).bind
  intro log
  apply (RejectsInvalid.stringBlock ..).bind
  intro log
  apply (RejectsInvalid.stringBlock ..).bind
  intro log
  apply (RejectsInvalid.numberBlock ..).bind
  intro log
  apply (RejectsInvalid.stringBlock ..).bind
  intro log
  apply (RejectsInvalid.numberBlock ..).bind
  intro log
  apply (RejectsInvalid.stringBlock ..).bind
  intro log
  apply (RejectsInvalid.stringBlock ..).bind
  intro log
  exact (RejectsInvalid.attributesBlock ..).bind fun log => RejectsInvalid.attributesBlock ..

/-- A valid record is the one made of the message that the tree tells. -/
theorem tells_of_isVaild {target : Target} {json : CJSON} (wellFormed : WellFormed json)
    (valid : (outcome (readLog target json)).log.isVaild = true) :
    ∃ message, Tells json message ∧
      (outcome (readLog target json)).log = message.stored target := by
  cases read : readLog target json with
  | error rejection =>
      rw [read] at valid
      exact (Bool.false_ne_true
        (((readLog_rejectsInvalid target json).isVaild rejection read).symm.trans valid)).elim
  | ok log =>
      obtain ⟨message, tells, rfl⟩ := (readLog_eq_ok target wellFormed log).mp read
      exact ⟨message, tells, rfl⟩

/-- A tree that tells a message gives its record, and no warning. -/
theorem outcome_of_tells {target : Target} {json : CJSON} (wellFormed : WellFormed json)
    {message : Message} (tells : Tells json message) :
    outcome (readLog target json) = ⟨message.stored target, []⟩ := by
  rw [(readLog_eq_ok target wellFormed _).mpr ⟨message, tells, rfl⟩]
  rfl

/-- A tree is accepted exactly when it tells a message. -/
theorem isVaild_iff_tells (target : Target) {json : CJSON} (wellFormed : WellFormed json) :
    (outcome (readLog target json)).log.isVaild = true ↔ ∃ message, Tells json message := by
  constructor
  · intro valid
    obtain ⟨message, tells, _⟩ := tells_of_isVaild wellFormed valid
    exact ⟨message, tells⟩
  · rintro ⟨message, tells⟩
    rw [outcome_of_tells wellFormed tells]
    rfl

/-- A tree has one string under a name. -/
theorem StringMember.unique {json : CJSON} {name first second : Text}
    (one : StringMember json name first) (other : StringMember json name second) :
    first = second := by
  obtain ⟨item, found, _, holds⟩ := one
  obtain ⟨_, again, _, holdsAgain⟩ := other
  obtain rfl := Option.some.inj (found.symm.trans again)
  exact Option.some.inj (holds.symm.trans holdsAgain)

/-- The record of a message holds its strings and maps exactly when it has no
identifiers. -/
theorem faithful_stored_iff (target : Target) {json : CJSON} {message : Message}
    (tells : Tells json message) :
    Faithful json (message.stored target) ↔
      StringMember json (text "TraceId") [] ∧ StringMember json (text "SpanId") [] := by
  constructor
  · intro faithful
    -- `SpanId` is never written, and `TraceId` holds the span identifier
    have noSpan : message.spanId = [] := tells.spanId.unique faithful.spanId
    have sameTrace : message.traceId = message.spanId := tells.traceId.unique faithful.traceId
    exact ⟨noSpan ▸ sameTrace ▸ tells.traceId, noSpan ▸ tells.spanId⟩
  · rintro ⟨noTrace, noSpan⟩
    have span : message.spanId = [] := tells.spanId.unique noSpan
    exact ⟨show StringMember json _ message.spanId from span ▸ noTrace, noSpan, tells.severityText,
      tells.serviceName, tells.body,
      ⟨_, tells.resourceAttributes, fun key => lookup_storeEntries key _⟩,
      ⟨_, tells.logAttributes, fun key => lookup_storeEntries key _⟩⟩

/-- **Faithful records.** The record of an accepted tree holds the strings and maps
of the tree exactly when both identifiers of the tree are empty. -/
theorem faithful_iff (target : Target) {json : CJSON} (wellFormed : WellFormed json)
    (valid : (outcome (readLog target json)).log.isVaild = true) :
    Faithful json (outcome (readLog target json)).log ↔
      StringMember json (text "TraceId") [] ∧ StringMember json (text "SpanId") [] := by
  obtain ⟨message, tells, stored⟩ := tells_of_isVaild wellFormed valid
  rw [stored]
  exact faithful_stored_iff target tells

/-- A member with a number. -/
def numberNode (name : Text) (number : Double) : CJSON :=
  { kind := .number, valuedouble := number, string := some name }

/-- A member with a string. -/
def stringNode (name value : Text) : CJSON :=
  { kind := .string, valuestring := some value, string := some name }

/-- A member with an attribute object. -/
def attributesNode (name : Text) (entries : List (Text × Text)) : CJSON :=
  { kind := .object, string := some name,
    child := entries.map fun entry => stringNode entry.1 entry.2 }

/-- A tree with the members of a message and no others. -/
def Message.tree (message : Message) : CJSON where
  kind := .object
  child :=
    [numberNode (text "Timestamp") message.timestamp,
      stringNode (text "TraceId") message.traceId,
      stringNode (text "SpanId") message.spanId,
      numberNode (text "TraceFlags") message.traceFlags,
      stringNode (text "SeverityText") message.severityText,
      numberNode (text "SeverityNumber") message.severityNumber,
      stringNode (text "ServiceName") message.serviceName,
      stringNode (text "Body") message.body,
      attributesNode (text "ResourceAttributes") message.resourceAttributes,
      attributesNode (text "LogAttributes") message.logAttributes]

/-- String nodes are the attributes they are made of. -/
theorem forall₂_isAttribute_map (entries : List (Text × Text)) :
    List.Forall₂ IsAttribute (entries.map fun entry => stringNode entry.1 entry.2) entries := by
  induction entries with
  | nil => exact .nil
  | cons entry rest ih => exact .cons ⟨rfl, rfl, rfl⟩ ih

/-- Every message is told by a tree. -/
theorem tells_tree (message : Message) : Tells message.tree message where
  root := rfl
  timestamp := ⟨_, rfl, rfl, rfl⟩
  traceId := ⟨_, rfl, rfl, rfl⟩
  spanId := ⟨_, rfl, rfl, rfl⟩
  traceFlags := ⟨_, rfl, rfl, rfl⟩
  severityText := ⟨_, rfl, rfl, rfl⟩
  severityNumber := ⟨_, rfl, rfl, rfl⟩
  serviceName := ⟨_, rfl, rfl, rfl⟩
  body := ⟨_, rfl, rfl, rfl⟩
  resourceAttributes := ⟨_, rfl, rfl, forall₂_isAttribute_map _⟩
  logAttributes := ⟨_, rfl, rfl, forall₂_isAttribute_map _⟩

theorem wellFormed_stringNode (name value : Text) : WellFormed (stringNode name value) :=
  ⟨_, fun _ => rfl, nofun, fun _ => nofun, nofun⟩

theorem wellFormed_numberNode (name : Text) (number : Double) :
    WellFormed (numberNode name number) :=
  ⟨_, nofun, nofun, fun _ => nofun, nofun⟩

theorem wellFormed_attributesNode (name : Text) (entries : List (Text × Text)) :
    WellFormed (attributesNode name entries) := by
  have members : ∀ member ∈ (attributesNode name entries).child,
      ∃ entry : Text × Text, member = stringNode entry.1 entry.2 := by
    intro member inside
    obtain ⟨entry, _, rfl⟩ := List.mem_map.mp inside
    exact ⟨entry, rfl⟩
  refine ⟨_, nofun, fun _ member inside => ?_, fun other => (other rfl).elim,
    fun member inside => ?_⟩
  · obtain ⟨entry, rfl⟩ := members member inside
    rfl
  · obtain ⟨entry, rfl⟩ := members member inside
    exact wellFormed_stringNode ..

/-- The tree of a message is well formed. -/
theorem wellFormed_tree (message : Message) : WellFormed message.tree := by
  refine ⟨_, nofun, fun _ => ?_, fun other => (other rfl).elim, ?_⟩
  · simp [Message.tree, numberNode, stringNode, attributesNode]
  · simp [Message.tree, wellFormed_numberNode, wellFormed_stringNode, wellFormed_attributesNode]

/-- A message with two identifiers, numbers at the ends of their ranges, a body with
characters to escape and attributes of which one key comes twice. -/
def Message.sample (traceId spanId : Text) : Message where
  timestamp := .finite 4294967295
  traceId := traceId
  spanId := spanId
  traceFlags := .finite 0
  severityText := text "WARN"
  severityNumber := .finite (-2147483648)
  serviceName := text "api"
  body := text "disk \"a\"\n"
  resourceAttributes := [(text "host", text "a"), (text "zone", text "b"), (text "host", text "c")]
  logAttributes := [(text "try", text "1"), (text "try", text "")]

/-- The tree of a message is accepted. -/
theorem isVaild_tree (target : Target) (message : Message) :
    (outcome (readLog target message.tree)).log.isVaild = true := by
  rw [outcome_of_tells (wellFormed_tree message) (tells_tree message)]
  rfl

/-- The sample message without its identifiers is stored faithfully. -/
theorem faithful_without_ids :
    Faithful (Message.sample [] []).tree
      (outcome (readLog .wrapping (Message.sample [] []).tree)).log :=
  (faithful_iff .wrapping (wellFormed_tree _) (isVaild_tree _ _)).mpr
    ⟨(tells_tree _).traceId, (tells_tree _).spanId⟩

/-- An accepted message with a trace and a span identifier reaches a record
whose `SpanId` is empty. -/
theorem not_faithful_with_ids :
    ¬ ∀ (target : Target) (json : CJSON), WellFormed json →
      (outcome (readLog target json)).log.isVaild = true →
        Faithful json (outcome (readLog target json)).log := by
  intro always
  have faithful := (always .wrapping (Message.sample (text "a") (text "b")).tree (wellFormed_tree _)
    (isVaild_tree _ _)).spanId
  rw [outcome_of_tells (wellFormed_tree _) (tells_tree _)] at faithful
  have same : text "b" = [] :=
    (tells_tree (Message.sample (text "a") (text "b"))).spanId.unique faithful
  exact absurd same (by decide)

end Evenscribe.Serializer
