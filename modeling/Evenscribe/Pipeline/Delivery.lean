import Evenscribe.Pipeline.Batch
import Evenscribe.Pipeline.Buffers
import Evenscribe.Pipeline.Progress
import Evenscribe.Sql.ClickhouseRoundTrip
import Evenscribe.Sql.PostgresRoundTrip

/-!
# From what was read to what is stored

While no read changes a message that still waits and every read returns a whole JSON
value, the subquery made for a read is the one of the record that its own bytes hold
(`AllTold`). As long as every `execute` returns normally, the threads can then bring
exactly the valid records that were read to the database, each once (`exists_delivered`),
and the server finds their rows in the statements (`exists_stored`).
-/

namespace Evenscribe

namespace Serializer

open CJSON

/-- The bytes hold a whole JSON value. -/
def Whole (bytes : Text) : Prop := ∃ json, parseWithLength bytes = some json

/-- A log is a whole value. -/
theorem HoldsLog.whole {bytes : Text} (holds : HoldsLog bytes) : Whole bytes := by
  obtain ⟨json, _, parsed, _⟩ := holds
  exact ⟨json, parsed⟩

/-- Bytes behind a whole value do not change the verdict on it. -/
theorem sameVerdict_of_whole (target : Target) {front tail : Text}
    (fits : (front ++ tail).length ≤ bufferSize) (whole : Whole front) :
    SameVerdict (serialize target (front ++ tail)).log (serialize target front).log := by
  obtain ⟨json, parsed⟩ := whole
  have fitsFront : front.length ≤ bufferSize := by
    rw [List.length_append] at fits
    omega
  by_cases object : json.kind = .object
  · rw [serialize_of_parse target fits (parseWithLength_append parsed object tail),
      serialize_of_parse target fitsFront parsed]
    exact ⟨rfl, fun _ => rfl⟩
  · apply sameVerdict_of_not_holdsLog target fits fitsFront
      (not_holdsLog_of_parse parsed object tail)
    rw [← List.append_nil front]
    exact not_holdsLog_of_parse parsed object []

end Serializer

namespace Pipeline

open Threads Serializer

variable {setup : Setup}

variable (setup) in
/-- The record that the bytes of a read hold. -/
def record (bytes : Text) : Log := (serialize setup.target bytes).log

/-- The valid records among those read so far. -/
def Shared.validRecords (shared : Shared setup) : List Log :=
  (shared.returned.map (record setup)).filter Log.isVaild

/-- The subquery in the hands of a `read_worker`. -/
def ReadWorker.queries : ReadWorker setup → List (Subquery setup)
  | .writeLocking query | .pushing query => [query]
  | _ => []

/-- The subqueries in a thread's hands. -/
def queriesOf : ∀ thread : Thread setup, Own setup thread → List (Subquery setup)
  | .handler, _ => []
  | .conn _, _ => []
  | .read _, own => ReadWorker.queries own
  | .flush _, own => FlushWorker.bucket own

namespace Shared

/-- The subqueries in the hands of nobody. -/
def queries (shared : Shared setup) : List (Subquery setup) :=
  shared.write.queue ++ shared.executed.flatten

/-- The subquery is the one of the valid record that its own read returned. -/
def Faithful (shared : Shared setup) (query : Subquery setup) : Prop :=
  query.origin < shared.returned.length ∧
    (record setup (shared.message query.origin)).isVaild = true ∧
    query.text = setup.kind.createSubquery (record setup (shared.message query.origin))

/-- The read returned no valid record. -/
def Invalid (shared : Shared setup) (read : ℕ) : Prop :=
  read < shared.returned.length ∧ (record setup (shared.message read)).isVaild = false

end Shared

/-- Every subquery and every rejection is what its own read calls for. -/
structure AllFaithful (state : State setup) : Prop where
  held : ∀ thread, ∀ query ∈ queriesOf thread (state.own thread), state.shared.Faithful query
  given : ∀ query ∈ state.shared.queries, state.shared.Faithful query
  rejected : ∀ read ∈ state.shared.rejected, state.shared.Invalid read

/-- Subqueries and rejections that a step leaves behind were there before or come of an
entry in the thread's hands. -/
structure Judged (thread : Thread setup) (own next : Own setup thread)
    (shared after : Shared setup) : Prop where
  queries : ∀ query, query ∈ queriesOf thread next ++ after.queries →
    query ∈ queriesOf thread own ++ shared.queries ∨
      ∃ entry ∈ entriesOf thread own,
        (serialize setup.target (shared.buffer entry.buffer)).log.isVaild = true ∧
          query = .ofLog entry.read (serialize setup.target (shared.buffer entry.buffer)).log
  rejected : ∀ read ∈ after.rejected, read ∈ shared.rejected ∨
    ∃ entry ∈ entriesOf thread own, entry.read = read ∧
      (serialize setup.target (shared.buffer entry.buffer)).log.isVaild = false

/-- What a step can do to subqueries and rejections. -/
theorem judged {thread : Thread setup} {own next : Own setup thread} {shared after : Shared setup}
    {event : Event setup} (taken : program thread own shared event next after) :
    Judged thread own next shared after := by
  cases thread with
  | handler => cases taken <;> exact ⟨fun _ => .inl, fun _ => .inl⟩
  | conn worker => cases taken <;> exact ⟨fun _ => .inl, fun _ => .inl⟩
  | read worker =>
      cases taken with
      | reject invalid =>
          refine ⟨fun _ => .inl, fun read member => ?_⟩
          rcases List.mem_cons.mp member with rfl | earlier
          · exact .inr ⟨_, List.mem_cons_self .., rfl, invalid⟩
          · exact .inl earlier
      | turn valid =>
          refine ⟨fun query member => ?_, fun _ => .inl⟩
          rcases List.mem_cons.mp member with rfl | earlier
          · exact .inr ⟨_, List.mem_cons_self .., valid, rfl⟩
          · exact .inl earlier
      | _ => exact ⟨fun _ => .inl, fun _ => .inl⟩
  | flush flusher =>
      cases taken with
      | drain front =>
          refine ⟨fun query member => .inl ?_, fun _ => .inl⟩
          simp only [queriesOf, FlushWorker.bucket, Shared.queries, Monitor.popFront, front,
            List.tail_cons, List.append_assoc, List.cons_append] at member ⊢
          exact member
      | endExecute =>
          refine ⟨fun query member => .inl ?_, fun _ => .inl⟩
          have emptyHanded : FlushWorker.bucket flusher.start = [] := by cases flusher <;> rfl
          simp only [queriesOf, emptyHanded, List.nil_append] at member
          simp only [queriesOf, FlushWorker.bucket, Shared.queries, List.flatten_cons,
            List.mem_append] at member ⊢
          tauto
      | _ => exact ⟨fun _ => .inl, fun _ => .inl⟩

/-- Buffers keep their size. -/
theorem allFull {state : State setup} (reachable : Reachable state) :
    ∀ worker, (state.shared.buffer worker).length = bufferSize := by
  apply reachable.invariant
  · rintro _ ⟨buffer, full, rfl⟩
    exact full
  · intro before event after _ full step worker
    obtain ⟨thread, own, next, shared, here, taken, rfl⟩ := step.exists_taken
    cases thread with
    | conn reader =>
        cases taken with
        | receive nonempty fits =>
            by_cases same : worker = reader
            · subst same
              simp only [Function.update_self, List.length_append, List.length_drop, full]
              omega
            · simp only [Function.update_of_ne same]
              exact full worker
        | _ => exact full worker
    | read reader => cases taken <;> exact full worker
    | handler => cases taken <;> exact full worker
    | flush flusher => cases taken <;> exact full worker

/-- Later steps do not change what an earlier read returned. -/
theorem message_kept {before after : State setup} {event : Event setup}
    (step : Step before event after) {read : ℕ} (earlier : read < before.shared.returned.length) :
    read < after.shared.returned.length ∧
      after.shared.message read = before.shared.message read := by
  obtain ⟨thread, own, next, shared, here, taken, rfl⟩ := step.exists_taken
  rcases receives_or_quiet taken with ⟨worker, bytes, receives⟩ | quiet
  · apply Shared.message_append earlier
    rw [receives.after, Shared.filled]
  · rw [Shared.message, Shared.message, quiet.returned]
    exact ⟨earlier, rfl⟩

/-- What was read stays among what was read. -/
theorem returned_subset {before after : State setup} {event : Event setup}
    (step : Step before event after) : before.shared.returned ⊆ after.shared.returned := by
  obtain ⟨thread, own, next, shared, here, taken, rfl⟩ := step.exists_taken
  rcases receives_or_quiet taken with ⟨worker, bytes, receives⟩ | quiet
  · rw [receives.after]
    exact List.subset_append_left ..
  · rw [quiet.returned]
    exact List.Subset.refl _

/-- The verdict on an intact entry is that on its own message. -/
theorem sameVerdict_of_intact {shared : Shared setup} {entry : Entry setup}
    (intact : shared.Intact entry) (full : (shared.buffer entry.buffer).length = bufferSize)
    (whole : ∀ bytes ∈ shared.returned, Whole bytes) :
    SameVerdict (serialize setup.target (shared.buffer entry.buffer)).log
      (record setup (shared.message entry.read)) := by
  obtain ⟨earlier, seen⟩ := intact
  have isRead : shared.message entry.read ∈ shared.returned := by
    rw [Shared.message, List.getD_eq_getElem _ _ earlier]
    exact List.getElem_mem earlier
  have cut : shared.buffer entry.buffer = shared.message entry.read ++
      (shared.buffer entry.buffer).drop (shared.message entry.read).length := by
    nth_rewrite 1 [← seen]
    exact (List.take_append_drop ..).symm
  rw [cut]
  apply sameVerdict_of_whole setup.target _ (whole _ isRead)
  rw [← cut, full]

namespace AllFaithful

variable {before after : State setup} {event : Event setup}

/-- A step makes subqueries of what was read, and of nothing else. -/
theorem step (faithful : AllFaithful before) (reachable : Reachable before)
    (intact : AllIntact before) (whole : ∀ bytes ∈ before.shared.returned, Whole bytes)
    (step : Step before event after) : AllFaithful after := by
  have kept (query : Subquery setup) (was : before.shared.Faithful query) :
      after.shared.Faithful query := by
    obtain ⟨earlier, same⟩ := message_kept step was.1
    rw [Shared.Faithful, same]
    exact ⟨earlier, was.2⟩
  have keptInvalid (read : ℕ) (was : before.shared.Invalid read) : after.shared.Invalid read := by
    obtain ⟨earlier, same⟩ := message_kept step was.1
    rw [Shared.Invalid, same]
    exact ⟨earlier, was.2⟩
  have verdict (thread : Thread setup) (entry : Entry setup)
      (held : entry ∈ entriesOf thread (before.own thread)) :=
    sameVerdict_of_intact (intact.held thread entry held) (allFull reachable entry.buffer) whole
  obtain ⟨thread, own, next, shared, rfl, taken, rfl⟩ := step.exists_taken
  obtain ⟨queries, rejected⟩ := judged taken
  have mine : ∀ query ∈ queriesOf thread next ++ shared.queries, shared.Faithful query := by
    intro query member
    rcases queries query member with was | ⟨entry, held, valid, rfl⟩
    · rcases List.mem_append.mp was with inHand | elsewhere
      · exact kept query (faithful.held thread query inHand)
      · exact kept query (faithful.given query elsewhere)
    · apply kept
      obtain ⟨sameValid, sameLog⟩ := verdict thread entry held
      refine ⟨(intact.held thread entry held).1, sameValid.symm.trans valid, ?_⟩
      rw [Subquery.ofLog, sameLog valid]
  refine ⟨fun other query held => ?_,
    fun query member => mine query (List.mem_append_right _ member), fun read member => ?_⟩
  · by_cases isThread : other = thread
    · subst isThread
      simp only [Function.update_self] at held
      exact mine query (List.mem_append_left _ held)
    · simp only [Function.update_of_ne isThread] at held
      exact kept query (faithful.held other query held)
  · rcases rejected read member with was | ⟨entry, held, rfl, invalid⟩
    · exact keptInvalid read (faithful.rejected read was)
    · apply keptInvalid
      exact ⟨(intact.held thread entry held).1, (verdict thread entry held).1.symm.trans invalid⟩

theorem of_starts {state : State setup} (starts : Starts state) : AllFaithful state := by
  obtain ⟨buffer, _, rfl⟩ := starts
  refine ⟨fun thread => ?_, nofun, nofun⟩
  cases thread with
  | flush flusher => cases flusher <;> exact nofun
  | _ => exact nofun

end AllFaithful

/-- No message was overwritten, and if all are whole, everything made is what its own read
calls for. -/
structure AllTold (state : State setup) : Prop where
  intact : AllIntact state
  faithful : (∀ bytes ∈ state.shared.returned, Whole bytes) → AllFaithful state

namespace AllTold

theorem of_starts {state : State setup} (starts : Starts state) : AllTold state :=
  ⟨allIntact_of_starts starts, fun _ => .of_starts starts⟩

/-- A step that spares the entries makes what the reads call for. -/
theorem step {before after : State setup} {event : Event setup} (told : AllTold before)
    (reachable : Reachable before) (step : Step before event after)
    (spares : Spares ⟨before, event, after⟩) : AllTold after := by
  refine ⟨allIntact_step told.intact step spares, fun whole => ?_⟩
  have wholeBefore : ∀ bytes ∈ before.shared.returned, Whole bytes := fun bytes member =>
    whole bytes (returned_subset step member)
  exact (told.faithful wholeBefore).step reachable told.intact wholeBefore step

/-- What a run that spares its pending entries keeps. -/
theorem of_spares {moves : List (Move (Own setup) (Shared setup) (Event setup))}
    {state : State setup} (run : Run moves state) (spares : ∀ move ∈ moves, Spares move) :
    AllTold state :=
  (run.invariant_of_forall (fun _ => of_starts)
    (fun _ _ _ reachable told taken spares => told.step reachable taken spares) spares).1

/-- Threads that go on by themselves overwrite nothing. -/
theorem of_leads {before after : State setup} (told : AllTold before)
    (reachable : Reachable before) (leads : Leads unaided before after) : AllTold after := by
  have kept : ∀ (middle : State setup) event (next : State setup),
      Reachable middle ∧ AllTold middle → Threads.Step unaided middle event next →
        Reachable next ∧ AllTold next := by
    intro middle event next ⟨reachable, told⟩ taken
    obtain ⟨thread, taken, inside, _⟩ := taken
    have step : Step middle event _ := .take thread taken
    refine ⟨reachable.step step, told.step reachable step ?_⟩
    rintro worker read bytes rfl
    exact absurd inside nofun
  exact (Threads.Leads.invariant leads ⟨reachable, told⟩ kept).2

end AllTold

/-! ## What is delivered -/

/-- The record of the read that a subquery was made of. -/
def Shared.told (shared : Shared setup) (query : Subquery setup) : Log :=
  record setup (shared.message query.origin)

/-- Where nothing is left to do, the records executed are the valid ones that were read. -/
theorem told_of_idle {state : State setup} (idle : Idle state)
    (served : state.shared.read.queue = []) (flushed : state.shared.write.queue = [])
    (faithful : AllFaithful state) :
    (state.shared.executed.flatten.map state.shared.told : Multiset Log) =
      state.shared.validRecords := by
  let valid (read : ℕ) : Bool := (record setup (state.shared.message read)).isVaild
  have given : ∀ query ∈ state.shared.executed.flatten, state.shared.Faithful query :=
    fun query member => faithful.given query (List.mem_append_right _ member)
  have noneRejected : (state.shared.rejected : Multiset ℕ).filter (valid · = true) = 0 := by
    apply Multiset.filter_eq_nil.mpr
    intro read member isValid
    exact Bool.false_ne_true ((faithful.rejected read member).2.symm.trans isValid)
  have allExecuted : (origins state.shared.executed.flatten).filter (valid · = true) =
      origins state.shared.executed.flatten := by
    apply Multiset.filter_eq_self.mpr
    intro read member
    obtain ⟨query, executed, rfl⟩ := List.mem_map.mp (Multiset.mem_coe.mp member)
    exact (given query executed).2.1
  have accounted := congrArg (Multiset.filter (valid · = true))
    (accounted_of_idle idle served flushed)
  rw [Multiset.filter_add, noneRejected, allExecuted, zero_add] at accounted
  calc (state.shared.executed.flatten.map state.shared.told : Multiset Log)
    _ = (origins state.shared.executed.flatten).map fun read =>
          record setup (state.shared.message read) := by
      rw [origins, Multiset.map_coe, List.map_map]
      rfl
    _ = ((Multiset.range state.shared.returned.length).filter (valid · = true)).map fun read =>
          record setup (state.shared.message read) := by rw [accounted]
    _ = state.shared.validRecords := by
      rw [Shared.validRecords, ← Shared.map_message state.shared, List.map_map, List.filter_map,
        Multiset.range, Multiset.filter_coe, Multiset.map_coe, Shared.map_message]
      simp only [Bool.decide_eq_true]
      rfl

/-- The texts of faithful subqueries are made of their records. -/
theorem map_text {shared : Shared setup} {queries : List (Subquery setup)}
    (faithful : ∀ query ∈ queries, shared.Faithful query) :
    queries.map Subquery.text = (queries.map shared.told).map setup.kind.createSubquery := by
  rw [List.map_map]
  exact List.map_congr_left fun query member => (faithful query member).2.2

/-- Where the threads get to by themselves after a run that spares its pending entries: the
executed buckets are made of the valid records that were read. -/
theorem exists_told {moves : List (Move (Own setup) (Shared setup) (Event setup))}
    {state : State setup} (run : Run moves state) (spares : ∀ move ∈ moves, Spares move)
    (whole : ∀ bytes ∈ state.shared.returned, Whole bytes) (reader : Fin setup.readThreads) :
    ∃ after, Leads unaided state after ∧ Idle after ∧
      after.shared.returned = state.shared.returned ∧ AllFaithful after ∧
      (after.shared.executed.flatten.map after.shared.told : Multiset Log) =
        state.shared.validRecords := by
  obtain ⟨after, leads, idle, served, flushed⟩ := exists_allDone run.reachable reader
  have returned := (same_of_leads leads).1
  have told := (AllTold.of_spares run spares).of_leads run.reachable leads
  have faithful := told.faithful (returned ▸ whole)
  refine ⟨after, leads, idle, returned, faithful, ?_⟩
  rw [told_of_idle idle served flushed faithful, Shared.validRecords, returned,
    Shared.validRecords]

/-- A bucket that was executed is made of valid records that were read. -/
theorem AllFaithful.exists_logs {state : State setup} (faithful : AllFaithful state)
    {records : List Log}
    (told : (state.shared.executed.flatten.map state.shared.told : Multiset Log) = records)
    {bucket : List (Subquery setup)} (executed : bucket ∈ state.shared.executed) :
    bucket.map Subquery.text =
        (bucket.map state.shared.told).map setup.kind.createSubquery ∧
      ∀ log ∈ bucket.map state.shared.told, log ∈ records := by
  have inside (query : Subquery setup) (member : query ∈ bucket) :
      query ∈ state.shared.executed.flatten := List.mem_flatten.mpr ⟨bucket, executed, member⟩
  refine ⟨map_text fun query member =>
    faithful.given query (List.mem_append_right _ (inside query member)), fun log member => ?_⟩
  obtain ⟨query, inBucket, rfl⟩ := List.mem_map.mp member
  rw [← Multiset.mem_coe, ← told, Multiset.mem_coe]
  exact List.mem_map_of_mem (inside query inBucket)

/-- Two logs, the second one twice. -/
theorem whole_of_repeated {bytes : Text} (member : bytes ∈ [sampleLog, otherLog, otherLog]) :
    Whole bytes := by
  simp only [List.mem_cons, List.not_mem_nil, or_false, or_self] at member
  rcases member with rfl | rfl
  · exact holdsLog_sampleLog.whole
  · exact holdsLog_otherLog.whole

section Stored

open Reading Sql

variable (unescape : UInt8 → UInt8)
  (ordinary : ∀ byte, unescape byte = quote ∨ unescape byte = backslash →
    byte = quote ∨ byte = backslash)

/-- How the server of a back end reads literals. -/
def rules : DatabaseKind → Quoting.Rules UInt8
  | .postgres => postgresRules
  | .clickhouse => clickhouseRules unescape ordinary

/-- How the server of a back end reads a value. -/
def readValue : DatabaseKind → Reader UInt8 Value
  | .postgres => readPostgresValue
  | .clickhouse => readClickhouseValue (clickhouseRules unescape ordinary)

/-- The server of a back end reads a statement as one insert. -/
def ReadsInsert (kind : DatabaseKind) (statement : Text) : Prop :=
  ∃ rows, readInsert (readValue unescape ordinary kind) statement = some rows

/-- The row of a record. -/
def row : DatabaseKind → Log → List Value
  | .postgres, log => (postgresColumns log).map Prod.snd
  | .clickhouse, log => (clickhouseColumns log).map Prod.snd

/-- The server finds the rows of plain records in their statement. -/
theorem readInsert_createQuery (kind : DatabaseKind) {logs : List Log} (nonempty : logs ≠ [])
    (plain : ∀ log ∈ logs, log.Plain (rules unescape ordinary kind)) :
    readInsert (readValue unescape ordinary kind)
      (kind.createQuery (logs.map kind.createSubquery)) = some (logs.map (row kind)) := by
  cases kind with
  | postgres =>
      have read := readInsert_written readPostgresValue (logs.map postgresColumns)
        (by simpa using nonempty) (by simp [postgresColumns])
        (by simpa using fun log member => reads_postgresColumns log (plain log member))
      rw [← map_createSubquery, List.map_map] at read
      exact read
  | clickhouse =>
      have plain : ∀ log ∈ logs, log.Plain (clickhouseRules unescape ordinary) := plain
      have read := readInsert_written (readClickhouseValue (clickhouseRules unescape ordinary))
        (logs.map clickhouseColumns) (by simpa using nonempty) (by simp [clickhouseColumns])
        (by simpa using fun log member => reads_clickhouseColumns rfl log (plain log member))
      rw [← map_clickhouse_createSubquery, List.map_map] at read
      exact read

/-- No bucket is executed empty. -/
theorem executed_ne_nil {state : State setup} (reachable : Reachable state) :
    ∀ bucket ∈ state.shared.executed, bucket ≠ [] := by
  apply reachable.invariant
  · rintro _ ⟨buffer, _, rfl⟩
    exact nofun
  · intro before event after reachable nonempty step
    obtain ⟨thread, own, next, shared, here, taken, rfl⟩ := step.exists_taken
    cases thread with
    | flush flusher =>
        cases taken with
        | endExecute =>
            have filled := allFilled reachable (.flush flusher)
            refine List.forall_mem_cons.mpr ⟨fun empty => ?_, nonempty⟩
            rw [here, empty] at filled
            exact Nat.not_le_of_lt flusher.minimum_pos filled
        | _ => exact nonempty
    | handler => cases taken <;> exact nonempty
    | conn worker => cases taken <;> exact nonempty
    | read worker => cases taken <;> exact nonempty

/-- **Storage.** If moreover no string of a valid record contains a byte that is special in
the literals of the server, and `execute` returns normally from every statement that the
server reads as one insert, then the server reads every statement that is executed, and the
rows it finds are those of the valid records that were read, each once. -/
theorem exists_stored {moves : List (Move (Own setup) (Shared setup) (Event setup))}
    {state : State setup} (run : Run moves state) (spares : ∀ move ∈ moves, Spares move)
    (whole : ∀ bytes ∈ state.shared.returned, Whole bytes)
    (plain : ∀ log ∈ state.shared.validRecords, log.Plain (rules unescape ordinary setup.kind))
    (reader : Fin setup.readThreads) (returns : Text → Prop)
    (normal : ∀ statement, ReadsInsert unescape ordinary setup.kind statement →
      returns statement) :
    ∃ (after : State setup) (tables : List (List (List Value))),
      Leads (returning returns) state after ∧ Idle after ∧
      after.shared.returned = state.shared.returned ∧
      List.Forall₂ (fun bucket rows => readInsert (readValue unescape ordinary setup.kind)
        (setup.kind.createQuery (bucket.map Subquery.text)) = some rows)
        after.shared.executed tables ∧
      (tables.flatten : Multiset (List Value)) =
        (state.shared.validRecords.map (row setup.kind) : List (List Value)) := by
  obtain ⟨after, leads, idle, returned, faithful, told⟩ := exists_told run spares whole reader
  let rowsOf (bucket : List (Subquery setup)) := (bucket.map after.shared.told).map (row setup.kind)
  have read : ∀ bucket ∈ after.shared.executed,
      readInsert (readValue unescape ordinary setup.kind)
        (setup.kind.createQuery (bucket.map Subquery.text)) = some (rowsOf bucket) := by
    intro bucket executed
    obtain ⟨texts, valid⟩ := faithful.exists_logs told executed
    rw [texts]
    apply readInsert_createQuery
    · simpa using executed_ne_nil idle.reachable bucket executed
    · exact fun log member => plain log (valid log member)
  refine ⟨after, after.shared.executed.map rowsOf,
    leads_returning leads fun bucket executed => normal _ ⟨_, read bucket executed⟩, idle, returned,
    ?_, ?_⟩
  · rw [List.forall₂_map_right_iff, List.forall₂_same]
    exact read
  · have joined : (after.shared.executed.map rowsOf).flatten =
        (after.shared.executed.flatten.map after.shared.told).map (row setup.kind) := by
      simp only [rowsOf, List.map_flatten, List.map_map, Function.comp_def]
    rw [joined, ← Multiset.map_coe, told, Multiset.map_coe]

end Stored

/-- ClickHouse can come to hold the rows of three logs that were read into one buffer. -/
theorem exists_stored_repeated :
    ∃ (state after : State (.run .clickhouse .wrapping)) (tables : List (List (List Sql.Value))),
      state.shared.returned = [sampleLog, otherLog, otherLog] ∧
        Leads (returning (ReadsInsert Sql.controlUnescape Sql.controlUnescape_ordinary .clickhouse))
          state after ∧
        tables.flatten.length = 3 ∧
        (tables.flatten : Multiset (List Sql.Value)) =
          (state.shared.validRecords.map (row .clickhouse) : List (List Sql.Value)) := by
  obtain ⟨moves, state, run, spares, returned, _⟩ :=
    exists_repeated (.run .clickhouse .wrapping) ⟨0, by decide⟩ ⟨0, by decide⟩
  have plain : ∀ log ∈ state.shared.validRecords,
      log.Plain (rules Sql.controlUnescape Sql.controlUnescape_ordinary .clickhouse) := by
    rw [Shared.validRecords, returned]
    decide +kernel
  have three : state.shared.validRecords.length = 3 := by
    rw [Shared.validRecords, returned]
    decide +kernel
  obtain ⟨after, tables, leads, _, _, _, rows⟩ := exists_stored Sql.controlUnescape
    Sql.controlUnescape_ordinary run spares
    (fun bytes member => whole_of_repeated (returned ▸ member)) plain ⟨0, by decide⟩
    (ReadsInsert Sql.controlUnescape Sql.controlUnescape_ordinary .clickhouse) fun _ => id
  have count := congrArg Multiset.card rows
  rw [Multiset.coe_card, Multiset.coe_card, List.length_map, three] at count
  exact ⟨state, after, tables, returned, leads, count, rows⟩

end Pipeline

end Evenscribe
