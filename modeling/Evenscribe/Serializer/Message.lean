import Evenscribe.Serializer

/-!
# What a tree tells

A tree tells a message by its first members of the ten names. `serialize` accepts a
well-formed tree exactly when it tells one, and the record it returns is
determined by that (`readLog_eq_ok`).
-/

namespace Evenscribe.Serializer

open CJSON

/-- The contents of a log message. Attribute members are kept in order, with
duplicate keys. -/
structure Message where
  timestamp : Double
  traceId : Text
  spanId : Text
  traceFlags : Double
  severityText : Text
  severityNumber : Double
  serviceName : Text
  body : Text
  resourceAttributes : List (Text × Text)
  logAttributes : List (Text × Text)

/-- The first member of a tree with a name. -/
def firstNamed (json : CJSON) (name : Text) : Option CJSON :=
  json.child.find? fun child => child.string = some name

/-- The first member of a name is this number. -/
def NumberMember (json : CJSON) (name : Text) (number : Double) : Prop :=
  ∃ item, firstNamed json name = some item ∧ item.kind = .number ∧ item.valuedouble = number

/-- The first member of a name is this string. -/
def StringMember (json : CJSON) (name value : Text) : Prop :=
  ∃ item, firstNamed json name = some item ∧ item.kind = .string ∧ item.valuestring = some value

/-- A member of an attribute object with its key and value. -/
def IsAttribute (member : CJSON) (entry : Text × Text) : Prop :=
  member.kind = .string ∧ member.string = some entry.1 ∧ member.valuestring = some entry.2

/-- The first member of a name is an object of these strings. -/
def AttributesMember (json : CJSON) (name : Text) (entries : List (Text × Text)) : Prop :=
  ∃ item, firstNamed json name = some item ∧ item.kind = .object ∧
    List.Forall₂ IsAttribute item.child entries

/-- The tree is an object that tells the message. -/
structure Tells (json : CJSON) (message : Message) : Prop where
  root : json.kind = .object
  timestamp : NumberMember json (text "Timestamp") message.timestamp
  traceId : StringMember json (text "TraceId") message.traceId
  spanId : StringMember json (text "SpanId") message.spanId
  traceFlags : NumberMember json (text "TraceFlags") message.traceFlags
  severityText : StringMember json (text "SeverityText") message.severityText
  severityNumber : NumberMember json (text "SeverityNumber") message.severityNumber
  serviceName : StringMember json (text "ServiceName") message.serviceName
  body : StringMember json (text "Body") message.body
  resourceAttributes : AttributesMember json (text "ResourceAttributes") message.resourceAttributes
  logAttributes : AttributesMember json (text "LogAttributes") message.logAttributes

/-- The map that storing entries one after the other leaves. -/
def storeEntries (entries : List (Text × Text)) : Attributes :=
  entries.foldl (fun map entry => map.insert entry.1 entry.2) ∅

/-- The value of the last entry with a key. -/
def lastValue (key : Text) (entries : List (Text × Text)) : Option Text :=
  (entries.filter fun entry => entry.1 = key).getLast?.map Prod.snd

/-- The record that `serialize` makes of a message. -/
def Message.stored (target : Target) (message : Message) : Log where
  timestamp := target.toUInt32 message.timestamp
  traceId := message.spanId
  spanId := []
  traceFlags := target.toUInt32 message.traceFlags
  severityText := message.severityText
  severityNumber := target.toInt32 message.severityNumber
  serviceName := message.serviceName
  body := message.body
  resourceAttributes := storeEntries message.resourceAttributes
  logAttributes := storeEntries message.logAttributes
  isVaild := true

/-- Of several values for a key the last one is stored. -/
theorem lookup_foldl_insert (key : Text) (entries : List (Text × Text)) (map : Attributes) :
    (entries.foldl (fun map entry => map.insert entry.1 entry.2) map).lookup key =
      (lastValue key entries).or (map.lookup key) := by
  induction entries generalizing map with
  | nil => rfl
  | cons entry rest ih =>
      rw [List.foldl_cons, ih]
      by_cases same : entry.1 = key
      · subst same
        rw [AList.lookup_insert]
        cases last : (rest.filter fun other => other.1 = entry.1).getLast? <;>
          simp [lastValue, List.getLast?_cons, last]
      · rw [AList.lookup_insert_ne (Ne.symm same)]
        simp [lastValue, same]

/-- A stored map sends each key to the value of its last entry, and has no other. -/
theorem lookup_storeEntries (key : Text) (entries : List (Text × Text)) :
    (storeEntries entries).lookup key = lastValue key entries := by
  rw [storeEntries, lookup_foldl_insert, AList.lookup_empty, Option.or_none]

/-- A sequence succeeds when both parts do. -/
theorem bind_eq_ok {α β ε : Type} {first : Except ε α} {next : α → Except ε β} {value : β} :
    (first >>= next) = .ok value ↔ ∃ inner, first = .ok inner ∧ next inner = .ok value := by
  cases first <;> simp [Bind.bind, Except.bind]

theorem reject_ne_ok (log : Log) (warning : Text) (value : Log) : reject log warning ≠ .ok value :=
  nofun

section Blocks

variable {json : CJSON}

/-- A block of a number goes on with the number it finds. -/
theorem numberBlock_eq_ok {name warning : Text} {store : Log → Double → Log} {log value : Log} :
    numberBlock json name warning store log = .ok value ↔
      ∃ item, getObjectItemCaseSensitive json name = some item ∧ item.kind = .number ∧
        store log item.valuedouble = value := by
  unfold numberBlock
  cases getObjectItemCaseSensitive json name with
  | none => simp [reject_ne_ok]
  | some item => by_cases kind : item.kind = .number <;> simp [isNumber, kind, reject_ne_ok]

/-- A block of a string goes on with the string it finds, if the tested one is there. -/
theorem stringBlock_eq_ok (wellFormed : WellFormed json) {name warning : Text}
    {tested : CJSON → Option Text} {store : Log → Text → Log} {log value : Log} :
    stringBlock json name warning tested store log = .ok value ↔
      ∃ item content, getObjectItemCaseSensitive json name = some item ∧ item.kind = .string ∧
        item.valuestring = some content ∧ tested item ≠ none ∧ store log content = value := by
  unfold stringBlock
  cases found : getObjectItemCaseSensitive json name with
  | none => simp [reject_ne_ok]
  | some item =>
      by_cases kind : item.kind = .string
      · obtain ⟨content, holds⟩ :=
          (wellFormed.children item (mem_of_getObjectItem found).1).strings kind
        by_cases null : tested item = none <;>
          simp [isString, kind, null, holds, reject_ne_ok]
      · simp [isString, kind, reject_ne_ok]

/-- The loop over attributes goes on when all members are strings. -/
theorem attributeLoop_eq_ok {warning : Text} {store : Log → Text → Text → Log}
    {members : List CJSON} (keyed : ∀ member ∈ members, ∃ key, member.string = some key)
    {log value : Log} :
    attributeLoop warning store members log = .ok value ↔
      ∃ entries, List.Forall₂ IsAttribute members entries ∧
        entries.foldl (fun log entry => store log entry.1 entry.2) log = value := by
  induction members generalizing log with
  | nil => simp [attributeLoop]
  | cons member next ih =>
      obtain ⟨key, named⟩ := keyed member (List.mem_cons_self ..)
      have later := @ih fun other inside => keyed other (List.mem_cons_of_mem _ inside)
      unfold attributeLoop
      by_cases kind : member.kind = .string
      · cases holds : member.valuestring with
        | none => simp [List.forall₂_cons_left_iff, IsAttribute, holds, reject_ne_ok]
        | some content =>
            simp only [isString, kind, decide_true, Bool.true_eq_false, reduceCtorEq, or_self,
              if_false, named, Option.getD_some, later, List.forall₂_cons_left_iff]
            constructor
            · rintro ⟨entries, read, rfl⟩
              exact ⟨(key, content) :: entries, ⟨_, _, ⟨kind, named, holds⟩, read, rfl⟩, rfl⟩
            · rintro ⟨_, ⟨entry, entries, ⟨_, isKey, isValue⟩, read, rfl⟩, rfl⟩
              obtain rfl : key = entry.1 := Option.some.inj (named.symm.trans isKey)
              obtain rfl : content = entry.2 := Option.some.inj (holds.symm.trans isValue)
              exact ⟨entries, read, rfl⟩
      · simp [List.forall₂_cons_left_iff, IsAttribute, isString, kind, reject_ne_ok]

/-- A block of attributes goes on with the strings it finds. -/
theorem attributesBlock_eq_ok (wellFormed : WellFormed json) {name missing warning : Text}
    {store : Log → Text → Text → Log} {log value : Log} :
    attributesBlock json name missing warning store log = .ok value ↔
      ∃ item entries, getObjectItemCaseSensitive json name = some item ∧ item.kind = .object ∧
        List.Forall₂ IsAttribute item.child entries ∧
        entries.foldl (fun log entry => store log entry.1 entry.2) log = value := by
  unfold attributesBlock
  cases found : getObjectItemCaseSensitive json name with
  | none => simp [reject_ne_ok]
  | some item =>
      by_cases kind : item.kind = .object
      · have keyed := (wellFormed.children item (mem_of_getObjectItem found).1).members kind
        simp [isObject, kind, attributeLoop_eq_ok keyed]
      · simp [isObject, kind, reject_ne_ok]

end Blocks

/-- The look-up finds the first member with the name: members of an object all
have keys, and other nodes have children without one. -/
theorem getObjectItemCaseSensitive_eq_firstNamed {json : CJSON} (wellFormed : WellFormed json)
    (name : Text) : getObjectItemCaseSensitive json name = firstNamed json name := by
  by_cases kind : json.kind = .object
  · exact getObjectItem_eq_find? name (wellFormed.members kind)
  · have keyless := wellFormed.elements kind
    rw [getObjectItemCaseSensitive, getObjectItem_of_keyless keyless, firstNamed, eq_comm,
      List.find?_eq_none]
    intro child member
    simp [keyless child member]

/-- Only an object has members that can be found. -/
theorem root_of_firstNamed {json item : CJSON} (wellFormed : WellFormed json) {name : Text}
    (found : firstNamed json name = some item) : json.kind = .object := by
  by_contra kind
  have keyless := wellFormed.elements kind item (List.mem_of_find?_eq_some found)
  have named := List.find?_some found
  simp [keyless] at named

theorem foldl_resourceAttributes (entries : List (Text × Text)) (log : Log) :
    entries.foldl (fun log entry =>
        { log with resourceAttributes := log.resourceAttributes.insert entry.1 entry.2 }) log =
      { log with resourceAttributes :=
          entries.foldl (fun map entry => map.insert entry.1 entry.2) log.resourceAttributes } := by
  induction entries generalizing log with
  | nil => rfl
  | cons entry rest ih => rw [List.foldl_cons, ih, List.foldl_cons]

theorem foldl_logAttributes (entries : List (Text × Text)) (log : Log) :
    entries.foldl (fun log entry =>
        { log with logAttributes := log.logAttributes.insert entry.1 entry.2 }) log =
      { log with logAttributes :=
          entries.foldl (fun map entry => map.insert entry.1 entry.2) log.logAttributes } := by
  induction entries generalizing log with
  | nil => rfl
  | cons entry rest ih => rw [List.foldl_cons, ih, List.foldl_cons]

/-- **What the serializer accepts and returns.** A well-formed tree is accepted
exactly when it tells a message, and the record is the one made of it. -/
theorem readLog_eq_ok (target : Target) {json : CJSON} (wellFormed : WellFormed json) (log : Log) :
    readLog target json = .ok log ↔
      ∃ message, Tells json message ∧ message.stored target = log := by
  unfold readLog
  simp only [bind_eq_ok, numberBlock_eq_ok, stringBlock_eq_ok wellFormed,
    attributesBlock_eq_ok wellFormed, foldl_resourceAttributes, foldl_logAttributes,
    getObjectItemCaseSensitive_eq_firstNamed wellFormed]
  constructor
  · intro blocks
    obtain ⟨_, ⟨time, isTime, timeKind, first⟩, blocks⟩ := blocks
    obtain ⟨_, ⟨trace, traceId, isTrace, traceKind, traceValue, _, second⟩, blocks⟩ := blocks
    obtain ⟨_, ⟨span, spanId, isSpan, spanKind, spanValue, _, third⟩, blocks⟩ := blocks
    obtain ⟨_, ⟨flags, isFlags, flagsKind, fourth⟩, blocks⟩ := blocks
    obtain ⟨_, ⟨level, severityText, isLevel, levelKind, levelValue, _, fifth⟩, blocks⟩ := blocks
    obtain ⟨_, ⟨number, isNumber, numberKind, sixth⟩, blocks⟩ := blocks
    obtain ⟨_, ⟨service, serviceName, isService, serviceKind, serviceValue, _, seventh⟩, blocks⟩ :=
      blocks
    obtain ⟨_, ⟨content, body, isBody, bodyKind, bodyValue, _, eighth⟩, blocks⟩ := blocks
    obtain ⟨_, ⟨resource, resourceEntries, isResource, resourceKind, resourceRead, ninth⟩,
      attributes, entries, isAttributes, attributesKind, attributesRead, last⟩ := blocks
    subst first second third fourth fifth sixth seventh eighth ninth last
    exact ⟨⟨time.valuedouble, traceId, spanId, flags.valuedouble, severityText, number.valuedouble,
        serviceName, body, resourceEntries, entries⟩,
      ⟨root_of_firstNamed wellFormed isTime, ⟨time, isTime, timeKind, rfl⟩,
        ⟨trace, isTrace, traceKind, traceValue⟩, ⟨span, isSpan, spanKind, spanValue⟩,
        ⟨flags, isFlags, flagsKind, rfl⟩, ⟨level, isLevel, levelKind, levelValue⟩,
        ⟨number, isNumber, numberKind, rfl⟩, ⟨service, isService, serviceKind, serviceValue⟩,
        ⟨content, isBody, bodyKind, bodyValue⟩, ⟨resource, isResource, resourceKind, resourceRead⟩,
        ⟨attributes, isAttributes, attributesKind, attributesRead⟩⟩, rfl⟩
  · rintro ⟨message, ⟨_, ⟨time, isTime, timeKind, timeValue⟩,
      ⟨trace, isTrace, traceKind, traceValue⟩,
      ⟨span, isSpan, spanKind, spanValue⟩, ⟨flags, isFlags, flagsKind, flagsValue⟩,
      ⟨level, isLevel, levelKind, levelValue⟩, ⟨number, isNumber, numberKind, numberValue⟩,
      ⟨service, isService, serviceKind, serviceValue⟩, ⟨content, isBody, bodyKind, bodyValue⟩,
      ⟨resource, isResource, resourceKind, resourceRead⟩,
      ⟨attributes, isAttributes, attributesKind, attributesRead⟩⟩, rfl⟩
    have tested :
        (firstNamed json (text "TraceId")).bind (fun item => item.valuestring) ≠ none := by
      rw [isTrace, Option.bind_some, traceValue]
      exact Option.some_ne_none _
    refine ⟨_, ⟨time, isTime, timeKind, rfl⟩,
      _, ⟨trace, _, isTrace, traceKind, traceValue, ?_, rfl⟩,
      _, ⟨span, _, isSpan, spanKind, spanValue, tested, rfl⟩, _, ⟨flags, isFlags, flagsKind, rfl⟩,
      _, ⟨level, _, isLevel, levelKind, levelValue, tested, rfl⟩,
      _, ⟨number, isNumber, numberKind, rfl⟩,
      _, ⟨service, _, isService, serviceKind, serviceValue, tested, rfl⟩,
      _, ⟨content, _, isBody, bodyKind, bodyValue, tested, rfl⟩,
      _, ⟨resource, _, isResource, resourceKind, resourceRead, rfl⟩,
      attributes, _, isAttributes, attributesKind, attributesRead, ?_⟩
    · rw [traceValue]
      exact Option.some_ne_none _
    · simp only [timeValue, flagsValue, numberValue, Message.stored, storeEntries, initial]

end Evenscribe.Serializer
