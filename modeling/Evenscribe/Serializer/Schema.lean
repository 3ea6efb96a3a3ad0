import Evenscribe.Json.ParseShape
import Evenscribe.Serializer.Faithful

/-!
# The schema of a log message

The blocks of `serialize` test one member after the other, some of them the string
of another member. Together they decide one predicate of the tree, whatever its
root, the order of its members, and the members they skip.
-/

namespace Evenscribe.Serializer

open CJSON

/-- The first member with a name has a kind. -/
def MemberOf (json : CJSON) (kind : Kind) (name : Text) : Prop :=
  ∃ item, firstNamed json name = some item ∧ item.kind = kind

/-- The first member with a name is an object of strings. -/
def MapMember (json : CJSON) (name : Text) : Prop :=
  ∃ item, firstNamed json name = some item ∧ item.kind = .object ∧
    ∀ member ∈ item.child, member.kind = .string

/-- A tree is a log by its root and the kinds of its first members. -/
structure MeetsSchema (json : CJSON) : Prop where
  root : json.kind = .object
  numbers : ∀ name ∈ [text "Timestamp", text "TraceFlags", text "SeverityNumber"],
    MemberOf json .number name
  strings : ∀ name ∈ [text "TraceId", text "SpanId", text "SeverityText", text "ServiceName",
    text "Body"], MemberOf json .string name
  maps : ∀ name ∈ [text "ResourceAttributes", text "LogAttributes"], MapMember json name

/-- A member is some number when it is of that kind. -/
theorem numberMember_iff {json : CJSON} {name : Text} :
    (∃ number, NumberMember json name number) ↔ MemberOf json .number name := by
  constructor
  · rintro ⟨number, item, found, kind, rfl⟩
    exact ⟨item, found, kind⟩
  · rintro ⟨item, found, kind⟩
    exact ⟨item.valuedouble, item, found, kind, rfl⟩

/-- A member of a well-formed tree is well formed. -/
theorem wellFormed_firstNamed {json item : CJSON} (wellFormed : WellFormed json) {name : Text}
    (found : firstNamed json name = some item) : WellFormed item :=
  wellFormed.children item (List.mem_of_find?_eq_some found)

/-- A string member always has a value. -/
theorem stringMember_iff {json : CJSON} (wellFormed : WellFormed json) {name : Text} :
    (∃ value, StringMember json name value) ↔ MemberOf json .string name := by
  constructor
  · rintro ⟨value, item, found, kind, -⟩
    exact ⟨item, found, kind⟩
  · rintro ⟨item, found, kind⟩
    obtain ⟨value, holds⟩ := (wellFormed_firstNamed wellFormed found).strings kind
    exact ⟨value, item, found, kind, holds⟩

/-- Members with a key are attributes exactly when they are strings. -/
theorem forall₂_isAttribute_iff {members : List CJSON}
    (keyed : ∀ member ∈ members, ∃ key, member.string = some key)
    (wellFormed : ∀ member ∈ members, WellFormed member) :
    (∃ entries, List.Forall₂ IsAttribute members entries) ↔
      ∀ member ∈ members, member.kind = .string := by
  induction members with
  | nil => exact ⟨fun _ => nofun, fun _ => ⟨[], .nil⟩⟩
  | cons member next ih =>
      have later := ih (fun other inside => keyed other (List.mem_cons_of_mem _ inside))
        fun other inside => wellFormed other (List.mem_cons_of_mem _ inside)
      obtain ⟨key, named⟩ := keyed member (List.mem_cons_self ..)
      rw [List.forall_mem_cons, ← later]
      constructor
      · rintro ⟨_, _ | ⟨isAttribute, rest⟩⟩
        exact ⟨isAttribute.1, _, rest⟩
      · rintro ⟨kind, entries, rest⟩
        obtain ⟨value, holds⟩ := (wellFormed member (List.mem_cons_self ..)).strings kind
        exact ⟨(key, value) :: entries, .cons ⟨kind, named, holds⟩ rest⟩

/-- A member is some object of strings when it is of that shape. -/
theorem attributesMember_iff {json : CJSON} (wellFormed : WellFormed json) {name : Text} :
    (∃ entries, AttributesMember json name entries) ↔ MapMember json name := by
  have members : ∀ item, firstNamed json name = some item → item.kind = .object →
      ((∃ entries, List.Forall₂ IsAttribute item.child entries) ↔
        ∀ member ∈ item.child, member.kind = .string) := by
    intro item found kind
    have inside := wellFormed_firstNamed wellFormed found
    exact forall₂_isAttribute_iff (inside.members kind) inside.children
  constructor
  · rintro ⟨entries, item, found, kind, attributes⟩
    exact ⟨item, found, kind, (members item found kind).mp ⟨entries, attributes⟩⟩
  · rintro ⟨item, found, kind, strings⟩
    obtain ⟨entries, attributes⟩ := (members item found kind).mpr strings
    exact ⟨entries, item, found, kind, attributes⟩

/-- The trees that tell a message are those of the schema. -/
theorem exists_tells_iff {json : CJSON} (wellFormed : WellFormed json) :
    (∃ message, Tells json message) ↔ MeetsSchema json := by
  constructor
  · rintro ⟨message, tells⟩
    refine ⟨tells.root, ?_, ?_, ?_⟩
    · simp only [List.forall_mem_cons, ← numberMember_iff]
      exact ⟨⟨_, tells.timestamp⟩, ⟨_, tells.traceFlags⟩, ⟨_, tells.severityNumber⟩, nofun⟩
    · simp only [List.forall_mem_cons, ← stringMember_iff wellFormed]
      exact ⟨⟨_, tells.traceId⟩, ⟨_, tells.spanId⟩, ⟨_, tells.severityText⟩,
        ⟨_, tells.serviceName⟩, ⟨_, tells.body⟩, nofun⟩
    · simp only [List.forall_mem_cons, ← attributesMember_iff wellFormed]
      exact ⟨⟨_, tells.resourceAttributes⟩, ⟨_, tells.logAttributes⟩, nofun⟩
  · rintro ⟨root, numbers, strings, maps⟩
    simp only [List.forall_mem_cons, ← numberMember_iff] at numbers
    simp only [List.forall_mem_cons, ← stringMember_iff wellFormed] at strings
    simp only [List.forall_mem_cons, ← attributesMember_iff wellFormed] at maps
    obtain ⟨⟨_, timestamp⟩, ⟨_, traceFlags⟩, ⟨_, severityNumber⟩, -⟩ := numbers
    obtain ⟨⟨_, traceId⟩, ⟨_, spanId⟩, ⟨_, severityText⟩, ⟨_, serviceName⟩, ⟨_, body⟩, -⟩ := strings
    obtain ⟨⟨_, resourceAttributes⟩, ⟨_, logAttributes⟩, -⟩ := maps
    exact ⟨⟨_, _, _, _, _, _, _, _, _, _⟩, root, timestamp, traceId, spanId, traceFlags,
      severityText, severityNumber, serviceName, body, resourceAttributes, logAttributes⟩

/-- **Acceptance.** A tree of the parser is accepted exactly when it meets the
schema. -/
theorem isVaild_iff_meetsSchema (target : Target) {json : CJSON} (wellFormed : WellFormed json) :
    (outcome (readLog target json)).log.isVaild = true ↔ MeetsSchema json :=
  (isVaild_iff_tells target wellFormed).trans (exists_tells_iff wellFormed)

/-- A log with its members in another order, one without a meaning, and a second
`Timestamp` of another kind. -/
def shuffledTree : CJSON where
  kind := .object
  child := numberNode (text "Version") (.finite 1) ::
    ((Message.sample (text "a") []).tree.child.reverse ++ [stringNode (text "Timestamp") []])

theorem wellFormed_shuffledTree : WellFormed shuffledTree := by
  have inner := wellFormed_tree (Message.sample (text "a") [])
  refine ⟨_, fun string => absurd string (by decide), fun _ => ?_,
    fun other => (other rfl).elim, ?_⟩
  · simp [shuffledTree, Message.tree, numberNode, stringNode, attributesNode]
  · simp only [shuffledTree, List.forall_mem_cons, List.forall_mem_append, List.mem_reverse]
    exact ⟨wellFormed_numberNode .., inner.children, wellFormed_stringNode ..,
      fun _ member => (List.not_mem_nil member).elim⟩

/-- The shuffled tree is accepted. -/
theorem isVaild_shuffledTree :
    (outcome (readLog .wrapping shuffledTree)).log.isVaild = true := by
  refine (isVaild_iff_meetsSchema .wrapping wellFormed_shuffledTree).mpr ⟨rfl, ?_, ?_, ?_⟩
  · simp only [List.forall_mem_cons]
    exact ⟨⟨_, rfl, rfl⟩, ⟨_, rfl, rfl⟩, ⟨_, rfl, rfl⟩, nofun⟩
  · simp only [List.forall_mem_cons]
    exact ⟨⟨_, rfl, rfl⟩, ⟨_, rfl, rfl⟩, ⟨_, rfl, rfl⟩, ⟨_, rfl, rfl⟩, ⟨_, rfl, rfl⟩, nofun⟩
  · simp only [List.forall_mem_cons]
    exact ⟨⟨_, rfl, rfl, by simp [attributesNode, Message.sample, stringNode]⟩,
      ⟨_, rfl, rfl, by simp [attributesNode, Message.sample, stringNode]⟩, nofun⟩

end Evenscribe.Serializer
