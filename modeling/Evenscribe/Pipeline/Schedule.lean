import Evenscribe.Pipeline.Step
import Evenscribe.Serializer.Leftover

/-!
# Schedules that bring records through the stages

A connection worker that is reading and a read worker that is idle, with nobody in
their way, bring any number of logs into `insert_statements` (`Serving.pushes`), and
a flusher that finds enough of them there begins to execute them (`Serving.execute`).
-/

namespace Evenscribe.Pipeline

open Serializer Threads

variable {setup : Setup}

namespace Shared

/-- After a read stored bytes in the buffer of `worker`. -/
def filled (shared : Shared setup) (worker : Fin setup.connThreads) (bytes : Text) : Shared setup :=
  { shared with
    buffer := Function.update shared.buffer worker
      (bytes ++ (shared.buffer worker).drop bytes.length)
    returned := shared.returned ++ [bytes] }

/-- After `worker` has read bytes and pushed its buffer. -/
def received (shared : Shared setup) (worker : Fin setup.connThreads) (bytes : Text) :
    Shared setup :=
  { shared.filled worker bytes with
    read := ⟨none, ∅, ⟨worker, shared.returned.length⟩ :: shared.read.queue⟩ }

/-- After the front entry of `read_queue` was taken. -/
def taken (shared : Shared setup) : Shared setup :=
  { shared with read := ⟨none, shared.read.waiting, shared.read.queue.tail⟩ }

/-- After the record of an entry was made into a subquery and pushed. -/
def stored (shared : Shared setup) (entry : Entry setup) : Shared setup :=
  { shared with
    turned := entry.read :: shared.turned
    handed := (entry.read, shared.seen entry) :: shared.handed
    write := ⟨none, ∅, Subquery.ofLog entry.read
      (serialize setup.target (shared.buffer entry.buffer)).log :: shared.write.queue⟩ }

/-- After `insert_statements` was drained. -/
def emptied (shared : Shared setup) : Shared setup :=
  { shared with write := ⟨none, shared.write.waiting, []⟩ }

variable {shared : Shared setup} {worker : Fin setup.connThreads} {bytes : Text}
  {entry : Entry setup}

@[simp] theorem returned_received :
    (shared.received worker bytes).returned = shared.returned ++ [bytes] := rfl

@[simp] theorem returned_taken : shared.taken.returned = shared.returned := rfl

@[simp] theorem returned_stored : (shared.stored entry).returned = shared.returned := rfl

@[simp] theorem write_received : (shared.received worker bytes).write = shared.write := rfl

@[simp] theorem write_taken : shared.taken.write = shared.write := rfl

@[simp] theorem length_queue_stored :
    (shared.stored entry).write.queue.length = shared.write.queue.length + 1 := rfl

@[simp] theorem handed_received : (shared.received worker bytes).handed = shared.handed := rfl

@[simp] theorem handed_taken : shared.taken.handed = shared.handed := rfl

@[simp] theorem handed_stored :
    (shared.stored entry).handed = (entry.read, shared.seen entry) :: shared.handed := rfl

end Shared

section OwnRuns

variable {shared : Shared setup}

/-- A connection worker reads and pushes. -/
theorem ownRun_received (worker : Fin setup.connThreads) (connection : ℕ) {bytes : Text}
    (nonempty : bytes ≠ []) (fits : bytes.length ≤ bufferSize) (free : shared.read.holder = none) :
    OwnRun program (.conn worker) (ConnWorker.reading connection) shared
      (ConnWorker.reading connection) (shared.received worker bytes) :=
  .step (ConnStep.receive nonempty fits) <| .step (ConnStep.readLock free) <|
    .step ConnStep.push <| .step ConnStep.broadcast <| .step ConnStep.readUnlock <| .refl _ _

/-- A read worker takes the front entry. -/
theorem ownRun_taken (worker : Fin setup.readThreads) {entry : Entry setup}
    {rest : List (Entry setup)} (front : shared.read.queue = entry :: rest)
    (free : shared.read.holder = none) :
    OwnRun program (.read worker) ReadWorker.locking shared (ReadWorker.serializing entry)
      shared.taken :=
  .step (ReadStep.lock free) <| .step (ReadStep.pop front) <| .step ReadStep.unlock <| .refl _ _

/-- A read worker makes a subquery of a log and pushes it. -/
theorem ownRun_stored (worker : Fin setup.readThreads) {entry : Entry setup}
    (valid : (serialize setup.target (shared.buffer entry.buffer)).log.isVaild = true)
    (free : shared.write.holder = none) :
    OwnRun program (.read worker) (ReadWorker.serializing entry) shared ReadWorker.locking
      (shared.stored entry) :=
  .step (ReadStep.turn valid) <| .step (ReadStep.writeLock free) <| .step ReadStep.push <|
    .step ReadStep.broadcast <| .step ReadStep.writeUnlock <| .refl _ _

/-- A flusher comes to the lock. -/
theorem ownRun_start (flusher : Flusher setup) :
    OwnRun program (.flush flusher) flusher.start shared FlushWorker.locking shared := by
  cases flusher with
  | write worker => exact .refl _ _
  | sync => exact .step FlushStep.awake (.refl _ _)

/-- A flusher's loop moves the whole queue into its bucket. -/
theorem ownRun_drain (flusher : Flusher setup) (bucket queue : List (Subquery setup))
    (holds : shared.write.queue = queue) :
    OwnRun program (.flush flusher) (FlushWorker.draining bucket) shared
      (FlushWorker.draining (bucket ++ queue))
      { shared with write := { shared.write with queue := [] } } := by
  induction queue generalizing shared bucket with
  | nil =>
      rw [List.append_nil, ← holds]
      exact .refl _ _
  | cons query rest ih =>
      let popped : Shared setup := { shared with write := shared.write.popFront }
      have shorter : popped.write.queue = rest := congrArg List.tail holds
      have later := ih (bucket ++ [query]) shorter
      rw [List.append_assoc] at later
      exact .step (FlushStep.drain holds) later

/-- A flusher that finds enough drains the queue. -/
theorem ownRun_emptied (flusher : Flusher setup) (enough : ¬ flusher.Short shared.write.queue)
    (free : shared.write.holder = none) :
    OwnRun program (.flush flusher) flusher.start shared
      (FlushWorker.querying shared.write.queue) shared.emptied := by
  refine (ownRun_start flusher).trans (.step (FlushStep.lock free) (.step (.enter enough) ?_))
  refine (ownRun_drain flusher [] shared.write.queue (by rfl)).trans ?_
  exact .step (FlushStep.leaveLoop rfl) (.step FlushStep.unlock (.refl _ _))

end OwnRuns

/-- `worker` is reading, `reader` is idle and nobody is in their way. -/
structure Serving (worker : Fin setup.connThreads) (reader : Fin setup.readThreads)
    (state : State setup) : Prop where
  reading : ∃ connection, state.own (.conn worker) = ConnWorker.reading connection
  idle : state.own (.read reader) = ReadWorker.locking
  free : state.shared.read.holder = none
  empty : state.shared.read.queue = []
  writeFree : state.shared.write.holder = none
  full : (state.shared.buffer worker).length = bufferSize

namespace Serving

variable {worker : Fin setup.connThreads} {reader : Fin setup.readThreads} {state : State setup}

/-- The connection worker reads, and the read worker takes its buffer. -/
theorem take (serving : Serving worker reader state) (bytes : Text) (nonempty : bytes ≠ [])
    (fits : bytes.length ≤ bufferSize) :
    ∃ own : ∀ thread, Own setup thread,
      Leads program state ⟨own, (state.shared.received worker bytes).taken⟩ ∧
      (∃ connection, own (.conn worker) = ConnWorker.reading connection) ∧
      own (.read reader) = ReadWorker.serializing ⟨worker, state.shared.returned.length⟩ ∧
      ∀ flusher, own (.flush flusher) = state.own (.flush flusher) := by
  obtain ⟨connection, reading⟩ := serving.reading
  have receives := (ownRun_received worker connection nonempty fits serving.free).leads state.own
    reading
  have idle : Function.update state.own (.conn worker) (ConnWorker.reading connection)
      (.read reader) = ReadWorker.locking := by
    simp only [ne_eq, reduceCtorEq, not_false_eq_true, Function.update_of_ne, serving.idle]
  have front : (state.shared.received worker bytes).read.queue =
      ⟨worker, state.shared.returned.length⟩ :: [] := congrArg _ serving.empty
  have takes := (ownRun_taken reader front rfl).leads _ idle
  refine ⟨_, receives.trans takes, ⟨connection, ?_⟩, Function.update_self .., fun flusher => ?_⟩
  · simp only [ne_eq, reduceCtorEq, not_false_eq_true, Function.update_of_ne, Function.update_self]
  · simp only [ne_eq, reduceCtorEq, not_false_eq_true, Function.update_of_ne]

/-- A log that is read comes into `insert_statements`. -/
theorem store (serving : Serving worker reader state) {bytes : Text} (isLog : HoldsLog bytes)
    (fits : bytes.length ≤ bufferSize) :
    ∃ next, Leads program state next ∧ Serving worker reader next ∧
      next.shared = (state.shared.received worker bytes).taken.stored
        ⟨worker, state.shared.returned.length⟩ ∧
      ∀ flusher, next.own (.flush flusher) = state.own (.flush flusher) := by
  obtain ⟨own, takes, ⟨connection, reading⟩, here, same⟩ := serving.take bytes isLog.ne_nil fits
  let shared := (state.shared.received worker bytes).taken
  have holds : shared.buffer worker =
      bytes ++ (state.shared.buffer worker).drop bytes.length := Function.update_self ..
  have full : (shared.buffer worker).length = bufferSize := by
    rw [holds, List.length_append, List.length_drop, serving.full]
    exact Nat.add_sub_cancel' fits
  have valid : (serialize setup.target (shared.buffer worker)).log.isVaild = true := by
    rw [isVaild_serialize_iff _ (Nat.le_of_eq full), holds]
    exact isLog.append _
  have stores : OwnRun program (.read reader) _ shared ReadWorker.locking
    (shared.stored ⟨worker, state.shared.returned.length⟩) :=
    ownRun_stored reader valid serving.writeFree
  refine ⟨_, takes.trans (stores.leads own here),
    ⟨⟨connection, ?_⟩, Function.update_self .., rfl, ?_, rfl, full⟩, rfl, fun flusher => ?_⟩
  · simp only [ne_eq, reduceCtorEq, not_false_eq_true, Function.update_of_ne, reading]
  · exact serving.empty
  · simp only [ne_eq, reduceCtorEq, not_false_eq_true, Function.update_of_ne, same]

/-- One more log comes into `insert_statements`. -/
theorem push (serving : Serving worker reader state) :
    ∃ next, Leads program state next ∧ Serving worker reader next ∧
      next.shared.write.queue.length = state.shared.write.queue.length + 1 ∧
      ∀ flusher, next.own (.flush flusher) = state.own (.flush flusher) := by
  obtain ⟨next, leads, servingNext, stored, same⟩ :=
    serving.store holdsLog_sampleLog sampleLog_fits
  exact ⟨next, leads, servingNext, congrArg (fun shared => shared.write.queue.length) stored, same⟩

/-- Any number of logs comes into `insert_statements`. -/
theorem pushes (serving : Serving worker reader state) (count : ℕ) :
    ∃ next, Leads program state next ∧ Serving worker reader next ∧
      next.shared.write.queue.length = state.shared.write.queue.length + count ∧
      ∀ flusher, next.own (.flush flusher) = state.own (.flush flusher) := by
  induction count with
  | zero => exact ⟨state, .refl, serving, rfl, fun _ => rfl⟩
  | succ count ih =>
      obtain ⟨middle, leads, servingMiddle, length, same⟩ := ih
      obtain ⟨next, leadsNext, servingNext, lengthNext, sameNext⟩ := servingMiddle.push
      refine ⟨next, leads.trans leadsNext, servingNext, ?_, fun flusher => ?_⟩
      · rw [lengthNext, length, Nat.add_assoc]
      · rw [sameNext, same]

/-- What a flusher does without touching buffers and `read_queue` is in nobody's way. -/
theorem flushed (serving : Serving worker reader state) (flusher : Flusher setup)
    (own : FlushWorker setup) {shared : Shared setup} (sameRead : shared.read = state.shared.read)
    (sameBuffer : shared.buffer = state.shared.buffer) (free : shared.write.holder = none) :
    Serving worker reader ⟨Function.update state.own (.flush flusher) own, shared⟩ := by
  obtain ⟨connection, reading⟩ := serving.reading
  refine ⟨⟨connection, ?_⟩, ?_, ?_, ?_, free, ?_⟩
  · simp only [ne_eq, reduceCtorEq, not_false_eq_true, Function.update_of_ne, reading]
  · simp only [ne_eq, reduceCtorEq, not_false_eq_true, Function.update_of_ne, serving.idle]
  · exact (congrArg Monitor.holder sameRead).trans serving.free
  · exact (congrArg Monitor.queue sameRead).trans serving.empty
  · exact (congrArg (fun buffer => (buffer worker).length) sameBuffer).trans serving.full

/-- A flusher that finds enough begins to execute the whole queue. -/
theorem execute (serving : Serving worker reader state) {flusher : Flusher setup}
    (atStart : state.own (.flush flusher) = flusher.start)
    (enough : ¬ flusher.Short state.shared.write.queue) :
    ∃ before after, Leads program state before ∧
      Step before (.beginExecute flusher state.shared.write.queue
        (setup.kind.createQuery (state.shared.write.queue.map Subquery.text))) after ∧
      Serving worker reader after ∧
      after.own (.flush flusher) = FlushWorker.executing state.shared.write.queue ∧
      ∀ other, other ≠ flusher → after.own (.flush other) = state.own (.flush other) := by
  have leads := (ownRun_emptied flusher enough serving.writeFree).leads state.own atStart
  have begins : program (.flush flusher) (FlushWorker.querying state.shared.write.queue)
    state.shared.emptied _ (FlushWorker.executing state.shared.write.queue)
    state.shared.emptied := FlushStep.beginExecute
  have step := Threads.Step.of_own (Function.update_self (Thread.flush flusher) _ state.own) begins
  rw [Function.update_idem] at step
  refine ⟨_, _, leads, step, serving.flushed flusher _ rfl rfl rfl, Function.update_self ..,
    fun other different => ?_⟩
  have apart : Thread.flush other ≠ Thread.flush flusher := fun same =>
    different (by injection same)
  exact Function.update_of_ne apart ..

end Serving

variable (setup) in
/-- After the first connection was accepted and taken. -/
def firstTaken : Shared setup :=
  { State.initial.shared with conn := ⟨none, ∅, []⟩, accepted := 1 }

@[simp] theorem returned_firstTaken : (firstTaken setup).returned = [] := rfl

@[simp] theorem queue_firstTaken : (firstTaken setup).write.queue = [] := rfl

@[simp] theorem handed_firstTaken : (firstTaken setup).handed = [] := rfl

variable (setup) in
/-- The workers of a stage come to serve the first connection. -/
theorem exists_serving (worker : Fin setup.connThreads) (reader : Fin setup.readThreads) :
    ∃ state : State setup, Reachable state ∧ Serving worker reader state ∧
      state.shared = firstTaken setup ∧ ∀ flusher, state.own (.flush flusher) = flusher.start := by
  have accepts : OwnRun (@program setup) .handler Handler.accepting State.initial.shared
      Handler.accepting
      { State.initial.shared with conn := ⟨none, ∅, [0]⟩, accepted := 1 } :=
    .step HandlerStep.accept <| .step (HandlerStep.lock rfl) <| .step HandlerStep.push <|
      .step HandlerStep.broadcast <| .step HandlerStep.unlock <| .refl _ _
  have takes : OwnRun (@program setup) (.conn worker) ConnWorker.locking
      { State.initial.shared with conn := ⟨none, ∅, [0]⟩, accepted := 1 }
      (ConnWorker.reading 0) (firstTaken setup) :=
    .step (ConnStep.lock rfl) <| .step (ConnStep.pop rfl) <| .step ConnStep.unlock <| .refl _ _
  have first := accepts.leads startOwn rfl
  have idle : Function.update startOwn .handler Handler.accepting (.conn worker) =
      ConnWorker.locking := by
    simp only [ne_eq, reduceCtorEq, not_false_eq_true, Function.update_of_ne, startOwn]
  have second := takes.leads _ idle
  refine ⟨_, reachable_initial.leads (first.trans second), ⟨⟨0, Function.update_self ..⟩, ?_, rfl,
    rfl, rfl, List.length_replicate ..⟩, rfl, fun flusher => ?_⟩
  · simp only [ne_eq, reduceCtorEq, not_false_eq_true, Function.update_of_ne, startOwn]
  · simp only [ne_eq, reduceCtorEq, not_false_eq_true, Function.update_of_ne, startOwn]

variable (setup) in
/-- The sync worker comes to execute the first log, while the write workers are where
they start. -/
theorem exists_syncExecutes (worker : Fin setup.connThreads) (reader : Fin setup.readThreads) :
    ∃ (before after : State setup) (queue : List (Subquery setup)), Reachable before ∧
      Step before (.beginExecute .sync queue
        (setup.kind.createQuery (queue.map Subquery.text))) after ∧
      Serving worker reader after ∧ after.own (.flush .sync) = FlushWorker.executing queue ∧
      ∀ other, other ≠ .sync → after.own (.flush other) = other.start := by
  obtain ⟨start, reachable, serving, _, atStart⟩ := exists_serving setup worker reader
  obtain ⟨one, leadsOne, servingOne, lengthOne, sameOne⟩ := serving.push
  have some : ¬ Flusher.sync.Short one.shared.write.queue := by
    rw [Flusher.Short, lengthOne]
    exact Nat.succ_ne_zero _
  obtain ⟨before, after, leads, step, servingAfter, executes, sameAfter⟩ :=
    servingOne.execute ((sameOne .sync).trans (atStart .sync)) some
  refine ⟨before, after, _, reachable.leads (leadsOne.trans leads), step, servingAfter, executes,
    fun other different => ?_⟩
  rw [sameAfter other different, sameOne, atStart]

end Evenscribe.Pipeline
