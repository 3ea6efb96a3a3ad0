import Mathlib.Tactic.DeriveFintype
import Evenscribe.Config
import Evenscribe.Foundation.Monitor
import Evenscribe.Foundation.Threads
import Evenscribe.QueryGenerator.Clickhouse
import Evenscribe.QueryGenerator.Postgres

/-!
# The stages and what they hold

A connection goes from `handle_message` to a `conn_worker`, each of its reads to a
`read_worker`, and the subqueries made of valid records to the threads that write
them to the database. Each stage has its mutex, its condition variable and its
queue. Connections and reads are numbered in the order in which they happen, and
a subquery carries the number of the read it was made of; these numbers and the
lists of what happened so far exist only here.
-/

namespace Evenscribe

/-- The `create_subquery` of a back end. -/
def DatabaseKind.createSubquery : DatabaseKind → Log → Text
  | .postgres => PostgresQueryGenerator.createSubquery
  | .clickhouse => ClickhouseQueryGenerator.createSubquery

/-- The `create_query` of a back end. -/
def DatabaseKind.createQuery : DatabaseKind → List Text → Text
  | .postgres => PostgresQueryGenerator.createQuery
  | .clickhouse => ClickhouseQueryGenerator.createQuery

namespace Pipeline

/-- How many workers each stage has, and what they run on. -/
structure Setup where
  connThreads : ℕ
  readThreads : ℕ
  writeThreads : ℕ
  kind : DatabaseKind
  target : Target

/-- The numbers of workers that `run` starts. -/
def Setup.run (kind : DatabaseKind) (target : Target) : Setup :=
  ⟨Evenscribe.connThreads, Evenscribe.readThreads, Evenscribe.writeThreads, kind, target⟩

variable (setup : Setup)

/-- The threads that drain `insert_statements`: the write workers and the sync worker. -/
inductive Flusher where
  | write (worker : Fin setup.writeThreads)
  | sync
  deriving DecidableEq, Fintype

/-- The threads: `handle_message`, the three kinds of workers, and `sync_worker`. -/
inductive Thread where
  | handler
  | conn (worker : Fin setup.connThreads)
  | read (worker : Fin setup.readThreads)
  | flush (flusher : Flusher setup)
  deriving DecidableEq, Fintype

/-- An element of `read_queue`: a pointer to the buffer of a connection worker. The
number is that of the read which filled the buffer. -/
structure Entry where
  buffer : Fin setup.connThreads
  read : ℕ
  deriving DecidableEq

/-- An element of `insert_statements`: the text that `create_subquery` made of a
record. -/
structure Subquery where
  origin : ℕ
  text : Text
  made : ∃ log, text = setup.kind.createSubquery log

/-- Where `handle_message` is. -/
inductive Handler where
  | accepting
  | locking (connection : ℕ)
  | pushing (connection : ℕ)
  | broadcasting
  | unlocking

/-- Where a `conn_worker` is. -/
inductive ConnWorker where
  | locking
  | testing
  | waiting
  | unlocking (connection : ℕ)
  | reading (connection : ℕ)
  | readLocking (connection read : ℕ)
  | pushing (connection read : ℕ)
  | broadcasting (connection : ℕ)
  | readUnlocking (connection : ℕ)

/-- Where a `read_worker` is. -/
inductive ReadWorker where
  | locking
  | testing
  | waiting
  | unlocking (entry : Entry setup)
  | serializing (entry : Entry setup)
  | writeLocking (query : Subquery setup)
  | pushing (query : Subquery setup)
  | broadcasting
  | writeUnlocking

/-- Where a `write_worker` or the `sync_worker` is. Only the sync worker sleeps and
leaves an empty queue alone, and only write workers wait. -/
inductive FlushWorker where
  | sleeping
  | locking
  | testing
  | waiting
  | leaving
  | draining (bucket : List (Subquery setup))
  | unlocking (bucket : List (Subquery setup))
  | querying (bucket : List (Subquery setup))
  | executing (bucket : List (Subquery setup))

/-- What a thread holds by itself. -/
abbrev Own : Thread setup → Type
  | .handler => Handler
  | .conn _ => ConnWorker
  | .read _ => ReadWorker setup
  | .flush _ => FlushWorker setup

/-- What the threads share. The buffers are on the stacks of the connection workers
and reached from the read workers through pointers; a worker has its buffer in the
same place for all its connections. -/
structure Shared where
  /-- `conn_mtx`, `conn_cond_var` and `conn_queue`. -/
  conn : Monitor (Thread setup) ℕ
  /-- `read_mtx`, `read_cond_var` and `read_queue`. -/
  read : Monitor (Thread setup) (Entry setup)
  /-- `write_mtx`, `write_cond_var` and `insert_statements`. -/
  write : Monitor (Thread setup) (Subquery setup)
  buffer : Fin setup.connThreads → Text
  /-- The number of connections accepted so far. -/
  accepted : ℕ
  /-- The connections that were read to their end and deleted. -/
  finished : List ℕ
  /-- The bytes returned by each successful read. -/
  returned : List Text
  /-- The reads whose records were invalid. -/
  rejected : List ℕ
  /-- The reads whose records were made into a subquery. -/
  turned : List ℕ
  /-- The reads handed to `serialize`, with what the front of the buffer held then. -/
  handed : List (ℕ × Text)
  /-- The buckets whose statements were executed. -/
  executed : List (List (Subquery setup))

/-- What all threads keep, and the queues. -/
abbrev State := Threads.State (Own setup) (Shared setup)

variable {setup}

/-- The subquery that `create_subquery` makes of the record of a read. -/
def Subquery.ofLog (read : ℕ) (log : Log) : Subquery setup :=
  ⟨read, setup.kind.createSubquery log, log, rfl⟩

namespace Flusher

/-- Where a flusher starts its loop. -/
def start : Flusher setup → FlushWorker setup
  | .write _ => .locking
  | .sync => .sleeping

/-- The index of the connection in `db` that a flusher uses. -/
def index : Flusher setup → ℕ
  | .write worker => worker
  | .sync => 0

/-- What a flusher tests of the size of `insert_statements` before it drains it. -/
def Short : Flusher setup → List (Subquery setup) → Prop
  | .write _, queue => queue.length < saveThreshold
  | .sync, queue => queue.length = 0

/-- The least number of subqueries that a flusher drains. -/
def minimum : Flusher setup → ℕ
  | .write _ => saveThreshold
  | .sync => 1

/-- A queue is too short for a flusher below its minimum. -/
theorem short_iff (flusher : Flusher setup) (queue : List (Subquery setup)) :
    flusher.Short queue ↔ queue.length < flusher.minimum := by
  cases flusher with
  | write worker => exact Iff.rfl
  | sync => exact Nat.lt_one_iff.symm

/-- No flusher takes an empty queue. -/
theorem minimum_pos (flusher : Flusher setup) : 0 < flusher.minimum := by
  cases flusher with
  | write worker => exact Nat.succ_pos 999
  | sync => exact Nat.one_pos

end Flusher

namespace Shared

variable (shared : Shared setup)

/-- The bytes that a read returned. -/
def message (read : ℕ) : Text := shared.returned.getD read []

/-- What `serialize` finds for an entry in the bytes its read returned. -/
def seen (entry : Entry setup) : Text :=
  (shared.buffer entry.buffer).take (shared.message entry.read).length

end Shared

/-- Where each thread starts. -/
def startOwn : ∀ thread : Thread setup, Own setup thread
  | .handler => Handler.accepting
  | .conn _ => ConnWorker.locking
  | .read _ => ReadWorker.locking
  | .flush flusher => flusher.start

/-- The shared state before anything happened. -/
def startShared (buffer : Fin setup.connThreads → Text) : Shared setup where
  conn := ⟨none, ∅, []⟩
  read := ⟨none, ∅, []⟩
  write := ⟨none, ∅, []⟩
  buffer := buffer
  accepted := 0
  finished := []
  returned := []
  rejected := []
  turned := []
  handed := []
  executed := []

/-- A state that a run may start in. The buffers hold any bytes. -/
def Starts (state : State setup) : Prop :=
  ∃ buffer : Fin setup.connThreads → Text, (∀ worker, (buffer worker).length = bufferSize) ∧
    state = ⟨startOwn, startShared buffer⟩

end Pipeline

end Evenscribe
