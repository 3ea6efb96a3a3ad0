import Evenscribe.Pipeline.State

/-!
# What each thread does

Each constructor is one step between two points of a thread's code. A worker that
is woken takes the mutex again and repeats its test. The loops of both back ends are
the same; the texts they make are those of `kind`.
-/

namespace Evenscribe.Pipeline

open Serializer

variable {setup : Setup}

/-- What a step is known by outside its thread. -/
inductive Event (setup : Setup) where
  /-- Locks, tests, waits, wake-ups and broadcasts. -/
  | internal
  | accept (connection : ℕ)
  | pushConnection (connection : ℕ)
  | popConnection (worker : Fin setup.connThreads) (connection : ℕ)
  | receive (worker : Fin setup.connThreads) (read : ℕ) (bytes : Text)
  | finish (worker : Fin setup.connThreads) (connection : ℕ)
  | pushRead (entry : Entry setup)
  | popRead (worker : Fin setup.readThreads) (entry : Entry setup)
  | serialize (worker : Fin setup.readThreads) (entry : Entry setup) (source : Text)
  | pushSubquery (worker : Fin setup.readThreads) (query : Subquery setup)
  | takeSubquery (flusher : Flusher setup) (query : Subquery setup)
  | drained (flusher : Flusher setup) (bucket : List (Subquery setup))
  | beginExecute (flusher : Flusher setup) (bucket : List (Subquery setup)) (statement : Text)
  | endExecute (flusher : Flusher setup) (bucket : List (Subquery setup))

/-- `Socket::handle_message`. -/
inductive HandlerStep : Handler → Shared setup → Event setup → Handler → Shared setup → Prop where
  /-- `accept` failed. -/
  | refused {shared} : HandlerStep .accepting shared .internal .accepting shared
  | accept {shared} :
      HandlerStep .accepting shared (.accept shared.accepted) (.locking shared.accepted)
        { shared with accepted := shared.accepted + 1 }
  | lock {shared connection} (free : shared.conn.holder = none) :
      HandlerStep (.locking connection) shared .internal (.pushing connection)
        { shared with conn := shared.conn.acquire .handler }
  | push {shared connection} :
      HandlerStep (.pushing connection) shared (.pushConnection connection) .broadcasting
        { shared with conn := shared.conn.pushFront connection }
  | broadcast {shared} :
      HandlerStep .broadcasting shared .internal .unlocking
        { shared with conn := shared.conn.broadcast }
  | unlock {shared} :
      HandlerStep .unlocking shared .internal .accepting
        { shared with conn := shared.conn.release }

/-- `conn_worker`. A read stores its bytes at the front of the worker's buffer. -/
inductive ConnStep (worker : Fin setup.connThreads) :
    ConnWorker → Shared setup → Event setup → ConnWorker → Shared setup → Prop where
  | lock {shared} (free : shared.conn.holder = none) :
      ConnStep worker .locking shared .internal .testing
        { shared with conn := shared.conn.acquire (.conn worker) }
  | wait {shared} (empty : shared.conn.queue = []) :
      ConnStep worker .testing shared .internal .waiting
        { shared with conn := shared.conn.wait (.conn worker) }
  | wake {shared} (asleep : .conn worker ∈ shared.conn.waiting) :
      ConnStep worker .waiting shared .internal .waiting
        { shared with conn := shared.conn.wake (.conn worker) }
  | relock {shared} (awake : .conn worker ∉ shared.conn.waiting)
      (free : shared.conn.holder = none) :
      ConnStep worker .waiting shared .internal .testing
        { shared with conn := shared.conn.acquire (.conn worker) }
  | pop {shared connection rest} (front : shared.conn.queue = connection :: rest) :
      ConnStep worker .testing shared (.popConnection worker connection) (.unlocking connection)
        { shared with conn := shared.conn.popFront }
  | unlock {shared connection} :
      ConnStep worker (.unlocking connection) shared .internal (.reading connection)
        { shared with conn := shared.conn.release }
  | receive {shared connection} {bytes : Text} (nonempty : bytes ≠ [])
      (fits : bytes.length ≤ bufferSize) :
      ConnStep worker (.reading connection) shared (.receive worker shared.returned.length bytes)
        (.readLocking connection shared.returned.length)
        { shared with
          buffer := Function.update shared.buffer worker
            (bytes ++ (shared.buffer worker).drop bytes.length)
          returned := shared.returned ++ [bytes] }
  /-- `read` returned zero or failed. -/
  | finish {shared connection} :
      ConnStep worker (.reading connection) shared (.finish worker connection) .locking
        { shared with finished := connection :: shared.finished }
  | readLock {shared connection read} (free : shared.read.holder = none) :
      ConnStep worker (.readLocking connection read) shared .internal (.pushing connection read)
        { shared with read := shared.read.acquire (.conn worker) }
  | push {shared connection read} :
      ConnStep worker (.pushing connection read) shared (.pushRead ⟨worker, read⟩)
        (.broadcasting connection) { shared with read := shared.read.pushFront ⟨worker, read⟩ }
  | broadcast {shared connection} :
      ConnStep worker (.broadcasting connection) shared .internal (.readUnlocking connection)
        { shared with read := shared.read.broadcast }
  | readUnlock {shared connection} :
      ConnStep worker (.readUnlocking connection) shared .internal (.reading connection)
        { shared with read := shared.read.release }

/-- `read_worker`. -/
inductive ReadStep (worker : Fin setup.readThreads) :
    ReadWorker setup → Shared setup → Event setup → ReadWorker setup → Shared setup → Prop where
  | lock {shared} (free : shared.read.holder = none) :
      ReadStep worker .locking shared .internal .testing
        { shared with read := shared.read.acquire (.read worker) }
  | wait {shared} (empty : shared.read.queue = []) :
      ReadStep worker .testing shared .internal .waiting
        { shared with read := shared.read.wait (.read worker) }
  | wake {shared} (asleep : .read worker ∈ shared.read.waiting) :
      ReadStep worker .waiting shared .internal .waiting
        { shared with read := shared.read.wake (.read worker) }
  | relock {shared} (awake : .read worker ∉ shared.read.waiting)
      (free : shared.read.holder = none) :
      ReadStep worker .waiting shared .internal .testing
        { shared with read := shared.read.acquire (.read worker) }
  | pop {shared entry rest} (front : shared.read.queue = entry :: rest) :
      ReadStep worker .testing shared (.popRead worker entry) (.unlocking entry)
        { shared with read := shared.read.popFront }
  | unlock {shared entry} :
      ReadStep worker (.unlocking entry) shared .internal (.serializing entry)
        { shared with read := shared.read.release }
  | reject {shared entry}
      (invalid : (serialize setup.target (shared.buffer entry.buffer)).log.isVaild = false) :
      ReadStep worker (.serializing entry) shared
        (.serialize worker entry (shared.buffer entry.buffer)) .locking
        { shared with
          rejected := entry.read :: shared.rejected
          handed := (entry.read, shared.seen entry) :: shared.handed }
  | turn {shared entry}
      (valid : (serialize setup.target (shared.buffer entry.buffer)).log.isVaild = true) :
      ReadStep worker (.serializing entry) shared
        (.serialize worker entry (shared.buffer entry.buffer))
        (.writeLocking (Subquery.ofLog entry.read
          (serialize setup.target (shared.buffer entry.buffer)).log))
        { shared with
          turned := entry.read :: shared.turned
          handed := (entry.read, shared.seen entry) :: shared.handed }
  | writeLock {shared query} (free : shared.write.holder = none) :
      ReadStep worker (.writeLocking query) shared .internal (.pushing query)
        { shared with write := shared.write.acquire (.read worker) }
  | push {shared query} :
      ReadStep worker (.pushing query) shared (.pushSubquery worker query) .broadcasting
        { shared with write := shared.write.pushFront query }
  | broadcast {shared} :
      ReadStep worker .broadcasting shared .internal .writeUnlocking
        { shared with write := shared.write.broadcast }
  | writeUnlock {shared} :
      ReadStep worker .writeUnlocking shared .internal .locking
        { shared with write := shared.write.release }

/-- `write_worker` and `sync_worker`. -/
inductive FlushStep : Flusher setup → FlushWorker setup → Shared setup → Event setup →
    FlushWorker setup → Shared setup → Prop where
  /-- `sleep` returns. -/
  | awake {flusher shared} : FlushStep flusher .sleeping shared .internal .locking shared
  | lock {flusher shared} (free : shared.write.holder = none) :
      FlushStep flusher .locking shared .internal .testing
        { shared with write := shared.write.acquire (.flush flusher) }
  | wait {worker shared} (isShort : (Flusher.write worker).Short shared.write.queue) :
      FlushStep (.write worker) .testing shared .internal .waiting
        { shared with write := shared.write.wait (.flush (.write worker)) }
  | wake {flusher shared} (asleep : .flush flusher ∈ shared.write.waiting) :
      FlushStep flusher .waiting shared .internal .waiting
        { shared with write := shared.write.wake (.flush flusher) }
  | relock {flusher shared} (awake : .flush flusher ∉ shared.write.waiting)
      (free : shared.write.holder = none) :
      FlushStep flusher .waiting shared .internal .testing
        { shared with write := shared.write.acquire (.flush flusher) }
  | leave {shared} (isShort : Flusher.sync.Short shared.write.queue) :
      FlushStep .sync .testing shared .internal .leaving shared
  | goOn {shared} :
      FlushStep .sync .leaving shared .internal .sleeping
        { shared with write := shared.write.release }
  | enter {flusher shared} (enough : ¬ flusher.Short shared.write.queue) :
      FlushStep flusher .testing shared .internal (.draining []) shared
  | drain {flusher shared bucket query rest} (front : shared.write.queue = query :: rest) :
      FlushStep flusher (.draining bucket) shared (.takeSubquery flusher query)
        (.draining (bucket ++ [query])) { shared with write := shared.write.popFront }
  | leaveLoop {flusher shared bucket} (empty : shared.write.queue = []) :
      FlushStep flusher (.draining bucket) shared .internal (.unlocking bucket) shared
  | unlock {flusher shared bucket} :
      FlushStep flusher (.unlocking bucket) shared (.drained flusher bucket) (.querying bucket)
        { shared with write := shared.write.release }
  | beginExecute {flusher shared bucket} :
      FlushStep flusher (.querying bucket) shared
        (.beginExecute flusher bucket (setup.kind.createQuery (bucket.map Subquery.text)))
        (.executing bucket) shared
  | endExecute {flusher shared bucket} :
      FlushStep flusher (.executing bucket) shared (.endExecute flusher bucket) flusher.start
        { shared with executed := bucket :: shared.executed }

/-- The program of all threads. -/
def program : Threads.Program (Own setup) (Shared setup) (Event setup)
  | .handler => HandlerStep
  | .conn worker => ConnStep worker
  | .read worker => ReadStep worker
  | .flush flusher => FlushStep flusher

/-- A step of the pipeline: one thread goes on. -/
abbrev Step : State setup → Event setup → State setup → Prop := Threads.Step program

/-- A run of the pipeline. -/
abbrev Run : List (Threads.Move (Own setup) (Shared setup) (Event setup)) → State setup → Prop :=
  Threads.Run Starts program

/-- What the pipeline can come to. -/
abbrev Reachable : State setup → Prop := Threads.Reachable Starts program

/-- Some state in which nothing happened yet. -/
def State.initial : State setup := ⟨startOwn, startShared fun _ => List.replicate bufferSize 0⟩

/-- The pipeline can start. -/
theorem reachable_initial : Reachable (State.initial : State setup) :=
  .of_start ⟨_, fun _ => List.length_replicate .., rfl⟩

end Evenscribe.Pipeline
