import Evenscribe.Json.Heap.ParseTree
import Evenscribe.Json.Heap.Read
import Evenscribe.Serializer

/-!
# The serializer in memory

`serialize` with the tree it builds, reads and deletes. The blocks follow the
pointers of the source, among them the one that the later blocks compare with null.
-/

namespace Evenscribe.Serializer.Heap

open Allocation Separation.Assertion CJSON.Heap

/-- A block of `serialize`, which may end in an early return. -/
abbrev Block := ExceptT Rejection (Action Cell)

/-- An early return: the record as far as it got, and the warning. -/
def reject (log : Log) (warning : Text) : Block Log :=
  throw ⟨{ log with isVaild := false }, warning⟩

/-- A block that stores a number. -/
def numberBlock (item : Item) (warning : Text) (store : Log → Double → Log) (log : Log) :
    Block Log := do
  if (← isNumber item) = false then reject log warning
  else
    let node ← readNode item
    return store log node.valuedouble

/-- A block that stores a string; `tested` is the node whose string is compared with null. -/
def stringBlock (item tested : Item) (warning : Text) (store : Log → Text → Log) (log : Log) :
    Block Log := do
  if (← isString item) = false then reject log warning
  else
    let test ← readNode tested
    if test.valuestring = none then reject log warning
    else
      let node ← readNode item
      let value ← readString node.valuestring
      return store log value

/-- The body of the loop over the members of an attribute object. -/
def attributeStep (warning : Text) (store : Log → Text → Text → Log) (log : Log) (member : Item) :
    Block Log := do
  if (← isString member) = false then reject log warning
  else
    let node ← readNode member
    if node.valuestring = none then reject log warning
    else
      let key ← readString node.string
      let value ← readString node.valuestring
      return store log key value

/-- A block that stores a map. -/
def attributesBlock (item : Item) (missing warning : Text) (store : Log → Text → Text → Log)
    (log : Log) : Block Log := do
  if (← isObject item) = false then reject log missing
  else
    let node ← readNode item
    node.child.forEach (attributeStep warning store) log

/-- The part of `serialize` between the parse and the deletions. -/
def readLog (target : Target) (json : Item) : Block Log := do
  let timestamp ← getObjectItemCaseSensitive json (text "Timestamp")
  let log ← numberBlock timestamp
    (text "evenscribe(log): Timestamp is either missing or not an integer\n")
    (fun log number => { log with timestamp := target.toUInt32 number }) initial
  let traceId ← getObjectItemCaseSensitive json (text "TraceId")
  let log ← stringBlock traceId traceId
    (text "evenscribe(log): TraceId is either missing or not a string\n")
    (fun log value => { log with traceId := value }) log
  let spanId ← getObjectItemCaseSensitive json (text "SpanId")
  let log ← stringBlock spanId traceId
    (text "evenscribe(log): SpanId is either missing or not a string\n")
    (fun log value => { log with traceId := value }) log
  let traceFlags ← getObjectItemCaseSensitive json (text "TraceFlags")
  let log ← numberBlock traceFlags
    (text "evenscribe(log): TraceFlags is either missing or not an integer\n")
    (fun log number => { log with traceFlags := target.toUInt32 number }) log
  let severityText ← getObjectItemCaseSensitive json (text "SeverityText")
  let log ← stringBlock severityText traceId
    (text "evenscribe(log): SeverityText is either missing or not a string\n")
    (fun log value => { log with severityText := value }) log
  let severityNumber ← getObjectItemCaseSensitive json (text "SeverityNumber")
  let log ← numberBlock severityNumber
    (text "evenscribe(log): SeverityNumber is either missing or not an integer\n")
    (fun log number => { log with severityNumber := target.toInt32 number }) log
  let serviceName ← getObjectItemCaseSensitive json (text "ServiceName")
  let log ← stringBlock serviceName traceId
    (text "evenscribe(log): ServiceName is either missing or not a string\n")
    (fun log value => { log with serviceName := value }) log
  let body ← getObjectItemCaseSensitive json (text "Body")
  let log ← stringBlock body traceId
    (text "evenscribe(log): Body is either missing or not a string\n")
    (fun log value => { log with body := value }) log
  let resourceAttributes ← getObjectItemCaseSensitive json (text "ResourceAttributes")
  let log ← attributesBlock resourceAttributes
    (text "evenscribe(log): ResourceAttributes is either missing or not an object\n")
    (text "evenscribe(log): resource attribute key-value is or not a string\n")
    (fun log key value =>
      { log with resourceAttributes := log.resourceAttributes.insert key value }) log
  let logAttributes ← getObjectItemCaseSensitive json (text "LogAttributes")
  attributesBlock logAttributes
    (text "evenscribe(log): LogAttributes is either missing or not an object\n")
    (text "evenscribe(log): Log attribute key-value is not a string\n")
    (fun log key value => { log with logAttributes := log.logAttributes.insert key value }) log

/-- What is returned and warned of when there is no tree. -/
def unparsed (source : Text) : Outcome :=
  ⟨{ initial with isVaild := false },
    [text "evenscribe(log): invalid json received\n", cString source ++ text "\n"]⟩

/-- `Serializer::serialize`: every return is behind a `cJSON_Delete`. -/
def serialize (hooks : Malloc) (target : Target) (source : Text) : Action Cell Outcome := do
  let json ← parseWithLength hooks (source.take bufferSize)
  match json with
  | none =>
      json.delete
      return unparsed source
  | some _ =>
      let result ← (readLog target json).run
      json.delete
      return outcome result

section Reads

variable {cells : Separation.Heap ℕ Cell} {json item : CJSON} {name warning : Text} {log : Log}
  {pointer tested : Pointer}

theorem reads_reject : Reads cells (reject log warning).run (Serializer.reject log warning) :=
  Reads.ret

/-- The test of the type at the start of a block. -/
theorem reads_typed {kind : CJSON.Kind} {found : Option CJSON} {body : Block Log}
    {result : Except Rejection Log} (finds : Found cells found pointer)
    (refused : (∀ item, found = some item → item.kind ≠ kind) →
      result = Serializer.reject log warning)
    (accepted : ∀ item address node, found = some item → item.kind = kind →
      pointer = some address → cells address = some (.node node) → Represents cells item node →
      Reads cells body.run result) :
    Reads cells
      (do if (← isKind kind pointer) = false then reject log warning else body : Block Log).run
      result := by
  apply Reads.lift (reads_isKind finds)
  cases found with
  | none =>
      rw [refused fun _ absent => nomatch absent]
      exact reads_reject
  | some item =>
      obtain ⟨address, next, rfl, present⟩ := finds
      obtain ⟨node, here, _, represents⟩ := present_iff.mp present
      rw [Option.any_some]
      by_cases same : item.kind = kind
      · rw [decide_eq_true same]
        exact accepted item address node rfl same rfl here represents
      · rw [decide_eq_false same, refused fun _ known => Option.some.inj known ▸ same]
        exact reads_reject

/-- A block of a number does in memory what it does with the tree. -/
theorem reads_numberBlock {store : Log → Double → Log}
    (finds : Found cells (CJSON.getObjectItemCaseSensitive json name) pointer) :
    Reads cells (numberBlock pointer warning store log).run
      (Serializer.numberBlock json name warning store log) := by
  refine reads_typed finds (fun other => ?_)
    fun item address node found same points here shown => ?_
  · unfold Serializer.numberBlock
    cases found : CJSON.getObjectItemCaseSensitive json name with
    | none => rfl
    | some item => exact if_neg fun number => other item found (of_decide_eq_true number)
  · have accepts : Serializer.numberBlock json name warning store log =
        .ok (store log item.valuedouble) := by
      rw [Serializer.numberBlock, found]
      exact if_pos (decide_eq_true same)
    rw [accepts, points, ← shown.valuedouble]
    exact Reads.lift (reads_readNode here) Reads.ret

/-- A block of a string does in memory what it does with the tree. -/
theorem reads_stringBlock (wellFormed : CJSON.WellFormed json) {test : CJSON → Option Text}
    {store : Log → Text → Log}
    (finds : Found cells (CJSON.getObjectItemCaseSensitive json name) pointer)
    (tests : ∀ item, CJSON.getObjectItemCaseSensitive json name = some item →
      ∃ other, Found cells (some other) tested ∧ test item = other.valuestring) :
    Reads cells (stringBlock pointer tested warning store log).run
      (Serializer.stringBlock json name warning test store log) := by
  refine reads_typed finds (fun other => ?_)
    fun item address node found same points here shown => ?_
  · unfold Serializer.stringBlock
    cases found : CJSON.getObjectItemCaseSensitive json name with
    | none => rfl
    | some item => exact if_pos (.inl (decide_eq_false (other item found)))
  · obtain ⟨other, ⟨place, next, placed, present⟩, tested⟩ := tests item found
    obtain ⟨testNode, there, _, otherShown⟩ := present_iff.mp present
    have isString : CJSON.isString item = true := decide_eq_true same
    rw [Serializer.stringBlock, found, placed]
    simp only [isString, Bool.true_eq_false, false_or, tested]
    apply Reads.lift (reads_readNode there)
    have nullIff := eq_none_iff_of_spelled otherShown.valuestring
    by_cases null : other.valuestring = none
    · rw [if_pos null, if_pos (nullIff.mpr null)]
      exact reads_reject
    · rw [if_neg null, if_neg (mt nullIff.mp null), points]
      apply Reads.lift (reads_readNode here)
      obtain ⟨value, holds⟩ :=
        (wellFormed.children item (CJSON.mem_of_getObjectItem found).1).strings same
      have spelled := shown.valuestring
      rw [holds] at spelled ⊢
      exact Reads.lift (reads_readString spelled) Reads.ret

/-- A member of an attribute object, in the loop of `attributeLoop`. -/
def storeMember (warning : Text) (store : Log → Text → Text → Log) (log : Log) (member : CJSON) :
    Except Rejection Log :=
  if CJSON.isString member = false ∨ member.valuestring = none then Serializer.reject log warning
  else .ok (store log (member.string.getD []) (member.valuestring.getD []))

/-- The loop over attributes stores one member after the other. -/
theorem attributeLoop_eq_foldlM {store : Log → Text → Text → Log} {items : List CJSON} :
    Serializer.attributeLoop warning store items log =
      items.foldlM (storeMember warning store) log := by
  induction items generalizing log with
  | nil => rfl
  | cons member items ih =>
      rw [Serializer.attributeLoop, List.foldlM_cons, storeMember]
      split
      · rfl
      · exact ih

/-- A member with a key. -/
theorem reads_attributeStep {store : Log → Text → Text → Log} {address : ℕ} {next : Item}
    {key : Text} (present : Present cells item address next) (named : item.string = some key) :
    Reads cells (attributeStep warning store log (some address)).run
      (storeMember warning store log item) := by
  have finds : Found cells (some item) (some address) := ⟨address, next, rfl, present⟩
  refine reads_typed finds (fun other => ?_) fun _ _ node same kind points here shown => ?_
  · exact if_pos (.inl (decide_eq_false (other item rfl)))
  · obtain rfl := Option.some.inj same
    have isString : CJSON.isString item = true := decide_eq_true kind
    rw [points]
    apply Reads.lift (reads_readNode here)
    have nullIff := eq_none_iff_of_spelled shown.valuestring
    cases holds : item.valuestring with
    | none =>
        rw [if_pos (nullIff.mpr holds), storeMember, if_pos (.inr holds)]
        exact reads_reject
    | some value =>
        have some_ne : item.valuestring ≠ none := holds ▸ Option.some_ne_none value
        have spelledKey := shown.string
        have spelledValue := shown.valuestring
        rw [named] at spelledKey
        rw [holds] at spelledValue
        rw [if_neg (mt nullIff.mp some_ne), storeMember, if_neg (by simp [isString, holds]), named,
          holds]
        exact Reads.lift (reads_readString spelledKey)
          (Reads.lift (reads_readString spelledValue) Reads.ret)

/-- A block of attributes does in memory what it does with the tree. -/
theorem reads_attributesBlock (wellFormed : CJSON.WellFormed json) {missing : Text}
    {store : Log → Text → Text → Log}
    (finds : Found cells (CJSON.getObjectItemCaseSensitive json name) pointer) :
    Reads cells (attributesBlock pointer missing warning store log).run
      (Serializer.attributesBlock json name missing warning store log) := by
  refine reads_typed finds (fun other => ?_)
    fun item address node found same points here shown => ?_
  · unfold Serializer.attributesBlock
    cases found : CJSON.getObjectItemCaseSensitive json name with
    | none => rfl
    | some item => exact if_neg fun object => other item found (of_decide_eq_true object)
  · have accepts : Serializer.attributesBlock json name missing warning store log =
        Serializer.attributeLoop warning store item.child log := by
      rw [Serializer.attributesBlock, found]
      exact if_pos (decide_eq_true same)
    rw [accepts, points]
    apply Reads.lift (reads_readNode here)
    rw [attributeLoop_eq_foldlM]
    apply reads_forEach shown.child
    intro member inside address next present log
    have object := wellFormed.children item (CJSON.mem_of_getObjectItem found).1
    obtain ⟨key, named⟩ := object.members same member inside
    exact reads_attributeStep present named

/-- **The blocks in memory.** They return the record, or the warning, of the tree. The node
of `TraceId` is there whenever a later block reads its string. -/
theorem reads_readLog (target : Target) (wellFormed : CJSON.WellFormed json) {address : ℕ}
    {next : Pointer} (present : Present cells json address next) :
    Reads cells (readLog target (some address)).run (Serializer.readLog target json) := by
  have looked : ∀ name, ∃ found,
      Reads cells (getObjectItemCaseSensitive (some address) name) found ∧
      Found cells (CJSON.getObjectItemCaseSensitive json name) found :=
    fun name => reads_getObjectItemCaseSensitive name present
  obtain ⟨timestamp, lookup, finds⟩ := looked (text "Timestamp")
  refine Reads.lift lookup (Reads.follow (reads_numberBlock finds) fun log _ => ?_)
  obtain ⟨traceId, lookup, tests⟩ := looked (text "TraceId")
  have own : ∀ item, CJSON.getObjectItemCaseSensitive json (text "TraceId") = some item →
      ∃ other, Found cells (some other) traceId ∧ item.valuestring = other.valuestring :=
    fun item found => ⟨item, found ▸ tests, rfl⟩
  refine Reads.lift lookup (Reads.follow (reads_stringBlock wellFormed tests own)
    fun log stored => ?_)
  obtain ⟨trace, here, value⟩ : ∃ trace,
      CJSON.getObjectItemCaseSensitive json (text "TraceId") = some trace ∧
        Found cells (some trace) traceId := by
    cases found : CJSON.getObjectItemCaseSensitive json (text "TraceId") with
    | none =>
        rw [Serializer.stringBlock, found] at stored
        exact nomatch stored
    | some trace => exact ⟨trace, rfl, found ▸ tests⟩
  have others : ∀ name item, CJSON.getObjectItemCaseSensitive json name = some item →
      ∃ other, Found cells (some other) traceId ∧
        (CJSON.getObjectItemCaseSensitive json (text "TraceId")).bind
            (fun item => item.valuestring) =
          other.valuestring :=
    fun _ _ _ => ⟨trace, value, by rw [here, Option.bind_some]⟩
  obtain ⟨spanId, lookup, finds⟩ := looked (text "SpanId")
  refine Reads.lift lookup
    (Reads.follow (reads_stringBlock wellFormed finds (others _)) fun log _ => ?_)
  obtain ⟨traceFlags, lookup, finds⟩ := looked (text "TraceFlags")
  refine Reads.lift lookup (Reads.follow (reads_numberBlock finds) fun log _ => ?_)
  obtain ⟨severityText, lookup, finds⟩ := looked (text "SeverityText")
  refine Reads.lift lookup
    (Reads.follow (reads_stringBlock wellFormed finds (others _)) fun log _ => ?_)
  obtain ⟨severityNumber, lookup, finds⟩ := looked (text "SeverityNumber")
  refine Reads.lift lookup (Reads.follow (reads_numberBlock finds) fun log _ => ?_)
  obtain ⟨serviceName, lookup, finds⟩ := looked (text "ServiceName")
  refine Reads.lift lookup
    (Reads.follow (reads_stringBlock wellFormed finds (others _)) fun log _ => ?_)
  obtain ⟨body, lookup, finds⟩ := looked (text "Body")
  refine Reads.lift lookup
    (Reads.follow (reads_stringBlock wellFormed finds (others _)) fun log _ => ?_)
  obtain ⟨resourceAttributes, lookup, finds⟩ := looked (text "ResourceAttributes")
  refine Reads.lift lookup (Reads.follow (reads_attributesBlock wellFormed finds) fun log _ => ?_)
  obtain ⟨logAttributes, lookup, finds⟩ := looked (text "LogAttributes")
  exact Reads.lift lookup (reads_attributesBlock wellFormed finds)

end Reads

section Runs

variable {hooks : Malloc} {target : Target}

/-- What `serialize` makes of a message: what it makes of the text, unless an allocation is
refused; then the message may be refused too. -/
def Answers (hooks : Malloc) (target : Target) (source : Text) (answer : Outcome) : Prop :=
  answer = Serializer.serialize target source ∨ ¬ hooks.Generous ∧ answer = unparsed source

/-- `serialize` answers and leaves nothing behind. -/
theorem triple_serialize (source : Text) :
    Triple 1 (serialize hooks target source) fun answer =>
      fact (Answers hooks target source answer) := by
  apply (triple_parseWithLength _).bind
  intro json
  cases json with
  | none =>
      rw [← mul_one (grown hooks _ none), delete_none]
      refine Triple.fact_mul fun refused => Triple.ret (fact_of ?_).ge
      by_cases generous : hooks.Generous
      · exact .inl (by rw [Serializer.serialize, refused generous, unparsed])
      · exact .inr ⟨generous, rfl⟩
  | some address =>
      refine Triple.iSup fun json => Triple.fact_mul fun parsed => ?_
      have wellFormed := (CJSON.parsedValue_parseWithLength parsed).wellFormed
      have reads : Triple (tree none none json address) (readLog target (some address)).run
        fun result =>
          fact (result = Serializer.readLog target json) * tree none none json address :=
        Reads.triple fun cells within =>
          reads_readLog target wellFormed (present_of_within json within)
      refine reads.bind fun result => Triple.fact_mul fun same => ?_
      rw [← segment_singleton]
      refine (triple_delete [json]).bind fun _ => Triple.ret (fact_of ?_).ge
      exact .inl (by rw [Serializer.serialize, parsed, same])

/-- **Messages in memory.** However many messages come in, whatever is in them and whichever
allocations are refused: every access is to memory that is in use, every call ends and
answers as `Answers` says, and in the end the memory in use is what it was at first. -/
theorem serialize_messages (hooks : Malloc) (target : Target) (sources : List Text)
    (store : Store Cell) :
    ∃ answers after, (sources.mapM (serialize hooks target)).run store = pure (answers, after) ∧
      List.Forall₂ (Answers hooks target) sources answers ∧ after.cells = store.cells :=
  (Triple.mapM triple_serialize sources).unchanged store

end Runs

end Evenscribe.Serializer.Heap
