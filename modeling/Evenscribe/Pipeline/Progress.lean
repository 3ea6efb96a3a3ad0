import Evenscribe.Pipeline.Discipline
import Evenscribe.Pipeline.Handover
import Evenscribe.Pipeline.Schedule

/-!
# The stages finish their work

A thread that holds a mutex comes to release it by itself, and a thread that holds none
comes to rest while all mutexes are free. From every reachable state the threads can
therefore finish all work they have, with no new connection and no further bytes and
without a spurious wake-up, as long as every `execute` returns normally
(`exists_allFinished`). An `execute` that throws ends the program; what it takes for one
to return is said by a predicate of its statement.
-/

namespace Evenscribe.Pipeline

open Threads Serializer

variable {setup : Setup}

/-- A thread waits on a condition variable. -/
def asleep : ∀ thread : Thread setup, Own setup thread → Bool
  | .handler, _ => false
  | .conn _, own =>
      match own with
      | ConnWorker.waiting => true
      | _ => false
  | .read _, own =>
      match own with
      | ReadWorker.waiting => true
      | _ => false
  | .flush _, own =>
      match own with
      | FlushWorker.waiting => true
      | _ => false

/-- An event that a client brings about. -/
def Event.isOutside : Event setup → Bool
  | .accept _ | .receive .. | .finish .. => true
  | _ => false

/-- What the threads do by themselves: nothing comes from a client, and nobody wakes up
who was not woken. -/
def unaided : Threads.Program (Own setup) (Shared setup) (Event setup) :=
  fun thread own shared event next after =>
    program thread own shared event next after ∧ event.isOutside = false ∧
      (asleep thread own && asleep thread next) = false

/-- What the threads do by themselves where `execute` returns normally from no other
statements than those of `returns`. -/
def returning (returns : Text → Prop) : Threads.Program (Own setup) (Shared setup) (Event setup) :=
  fun thread own shared event next after =>
    unaided thread own shared event next after ∧
      ∀ flusher bucket, event = .endExecute flusher bucket →
        returns (setup.kind.createQuery (bucket.map Subquery.text))

theorem leads_program {before after : State setup} (leads : Leads unaided before after) :
    Leads program before after :=
  Threads.Leads.mono (fun _ _ _ _ _ _ taken => taken.1) leads

/-- The buckets that were executed stay so, and one whose execution ends is among them. -/
theorem executed_subset {before after : State setup} {event : Event setup}
    (step : Step before event after) :
    before.shared.executed ⊆ after.shared.executed ∧
      ∀ flusher bucket, event = .endExecute flusher bucket → bucket ∈ after.shared.executed := by
  obtain ⟨thread, own, next, shared, here, taken, rfl⟩ := step.exists_taken
  cases thread with
  | handler => cases taken <;> exact ⟨List.Subset.refl _, nofun⟩
  | conn worker => cases taken <;> exact ⟨List.Subset.refl _, nofun⟩
  | read worker => cases taken <;> exact ⟨List.Subset.refl _, nofun⟩
  | flush flusher =>
      cases taken with
      | endExecute =>
          refine ⟨List.subset_cons_self _ _, ?_⟩
          rintro _ _ ⟨rfl, rfl⟩
          exact List.mem_cons_self ..
      | _ => exact ⟨List.Subset.refl _, nofun⟩

/-- If `execute` returns from the statements of all buckets that are executed in the end, it
returned from those on the way. -/
theorem leads_returning {returns : Text → Prop} {before after : State setup}
    (leads : Leads unaided before after)
    (all : ∀ bucket ∈ after.shared.executed,
      returns (setup.kind.createQuery (bucket.map Subquery.text))) :
    Leads (returning returns) before after := by
  induction leads with
  | refl => exact .refl
  | tail _ step ih =>
      obtain ⟨event, thread, taken⟩ := step
      obtain ⟨kept, ends⟩ := executed_subset (Threads.Step.take thread taken.1)
      refine (ih fun bucket member => all bucket (kept member)).tail
        ⟨event, .take thread ⟨taken, fun flusher bucket isEnd => ?_⟩⟩
      exact all bucket (ends flusher bucket isEnd)

/-- No bytes are read and nothing is accepted. -/
theorem same_of_unaided {thread : Thread setup} {own next : Own setup thread}
    {shared after : Shared setup} {event : Event setup}
    (taken : unaided thread own shared event next after) :
    after.returned = shared.returned ∧ after.accepted = shared.accepted := by
  obtain ⟨taken, inside, _⟩ := taken
  cases thread with
  | handler =>
      cases taken with
      | accept => exact absurd inside nofun
      | _ => exact ⟨rfl, rfl⟩
  | conn worker =>
      cases taken with
      | receive => exact absurd inside nofun
      | _ => exact ⟨rfl, rfl⟩
  | read worker => cases taken <;> exact ⟨rfl, rfl⟩
  | flush flusher => cases taken <;> exact ⟨rfl, rfl⟩

/-- The threads by themselves accept and read nothing. -/
theorem same_of_leads {before after : State setup} (leads : Leads unaided before after) :
    after.shared.returned = before.shared.returned ∧
      after.shared.accepted = before.shared.accepted := by
  have kept : ∀ (middle : State setup) event (next : State setup),
      (middle.shared.returned = before.shared.returned ∧
        middle.shared.accepted = before.shared.accepted) →
      Threads.Step unaided middle event next →
        next.shared.returned = before.shared.returned ∧
          next.shared.accepted = before.shared.accepted := by
    intro middle event next same step
    obtain ⟨thread, own, last, shared, _, taken, rfl⟩ := step.exists_taken
    obtain ⟨returned, accepted⟩ := same_of_unaided taken
    exact ⟨returned.trans same.1, accepted.trans same.2⟩
  exact Threads.Leads.invariant leads ⟨rfl, rfl⟩ kept

/-- The write workers do not leave a queue alone and the sync worker does not wait. -/
def InPlace : ∀ thread : Thread setup, Own setup thread → Prop
  | .flush (.write _), own => own ≠ FlushWorker.leaving
  | .flush .sync, own => own ≠ FlushWorker.waiting
  | _, _ => True

/-- Every thread is at a place of its own loop. -/
def AllInPlace (state : State setup) : Prop := ∀ thread, InPlace thread (state.own thread)

/-- The flushers share their states, but each keeps to the places of its own loop. -/
theorem allInPlace {state : State setup} (reachable : Reachable state) : AllInPlace state := by
  apply reachable.invariant
  · rintro _ ⟨buffer, _, rfl⟩ thread
    cases thread with
    | flush flusher => cases flusher <;> exact nofun
    | _ => trivial
  · intro before event after _ inPlace step thread
    rcases step.taken_or_kept thread with ⟨own, next, shared, here, there, _, taken⟩ | kept
    · rw [there]
      cases thread with
      | flush flusher =>
          cases flusher with
          | write worker => cases taken <;> exact nofun
          | sync =>
              cases taken with
              | wake => exact (inPlace (.flush .sync) here).elim
              | _ => exact nofun
      | _ => trivial
    · rw [kept]
      exact inPlace thread

/-! ## Critical sections -/

section Sections

variable {shared : Shared setup}

/-- A flusher that drains empties the queue and gives the mutex up. -/
theorem unaided_drained (flusher : Flusher setup) (bucket queue : List (Subquery setup))
    (holds : shared.write.queue = queue) :
    OwnRun unaided (.flush flusher) (FlushWorker.draining bucket) shared
      (FlushWorker.querying (bucket ++ queue))
      { shared with write := ⟨none, shared.write.waiting, []⟩ } := by
  induction queue generalizing shared bucket with
  | nil =>
      have last : OwnRun unaided (.flush flusher) (FlushWorker.draining bucket) shared
          (FlushWorker.querying bucket) { shared with write := shared.write.release } :=
        .step ⟨FlushStep.leaveLoop holds, rfl, rfl⟩ <|
          .step ⟨FlushStep.unlock, rfl, rfl⟩ <| .refl _ _
      rw [List.append_nil, ← holds]
      exact last
  | cons query rest ih =>
      let popped : Shared setup := { shared with write := shared.write.popFront }
      have shorter : popped.write.queue = rest := congrArg List.tail holds
      have later := ih (bucket ++ [query]) shorter
      rw [List.append_assoc] at later
      exact .step ⟨FlushStep.drain holds, rfl, rfl⟩ later

/-- Whoever is inside the section of `conn_mtx` leaves it and touches no other stage. -/
theorem exists_released_conn {thread : Thread setup} {own : Own setup thread}
    (inside : connStanding thread own ≠ .outside) :
    ∃ next final, OwnRun unaided thread own shared next final ∧ final.conn.holder = none ∧
      final.read = shared.read ∧ final.write = shared.write := by
  cases thread with
  | handler =>
      cases own with
      | pushing connection =>
          exact ⟨_, _, .step ⟨HandlerStep.push, rfl, rfl⟩ <|
            .step ⟨HandlerStep.broadcast, rfl, rfl⟩ <|
            .step ⟨HandlerStep.unlock, rfl, rfl⟩ <| .refl _ _, rfl, rfl, rfl⟩
      | broadcasting =>
          exact ⟨_, _, .step ⟨HandlerStep.broadcast, rfl, rfl⟩ <|
            .step ⟨HandlerStep.unlock, rfl, rfl⟩ <| .refl _ _, rfl, rfl, rfl⟩
      | unlocking =>
          exact ⟨_, _, .step ⟨HandlerStep.unlock, rfl, rfl⟩ <| .refl _ _, rfl, rfl, rfl⟩
      | _ => exact (inside rfl).elim
  | conn worker =>
      cases own with
      | testing =>
          cases queue : shared.conn.queue with
          | nil =>
              exact ⟨_, _, .step ⟨ConnStep.wait queue, rfl, rfl⟩ <| .refl _ _, rfl, rfl, rfl⟩
          | cons connection rest =>
              exact ⟨_, _, .step ⟨ConnStep.pop queue, rfl, rfl⟩ <|
                .step ⟨ConnStep.unlock, rfl, rfl⟩ <| .refl _ _, rfl, rfl, rfl⟩
      | unlocking connection =>
          exact ⟨_, _, .step ⟨ConnStep.unlock, rfl, rfl⟩ <| .refl _ _, rfl, rfl, rfl⟩
      | _ => exact (inside rfl).elim
  | read worker => exact (inside rfl).elim
  | flush flusher => exact (inside rfl).elim

/-- Whoever is inside the section of `read_mtx` leaves it and touches no other stage. -/
theorem exists_released_read {thread : Thread setup} {own : Own setup thread}
    (inside : readStanding thread own ≠ .outside) :
    ∃ next final, OwnRun unaided thread own shared next final ∧ final.read.holder = none ∧
      final.conn = shared.conn ∧ final.write = shared.write := by
  cases thread with
  | handler => exact (inside rfl).elim
  | conn worker =>
      cases own with
      | pushing connection read =>
          exact ⟨_, _, .step ⟨ConnStep.push, rfl, rfl⟩ <|
            .step ⟨ConnStep.broadcast, rfl, rfl⟩ <|
            .step ⟨ConnStep.readUnlock, rfl, rfl⟩ <| .refl _ _, rfl, rfl, rfl⟩
      | broadcasting connection =>
          exact ⟨_, _, .step ⟨ConnStep.broadcast, rfl, rfl⟩ <|
            .step ⟨ConnStep.readUnlock, rfl, rfl⟩ <| .refl _ _, rfl, rfl, rfl⟩
      | readUnlocking connection =>
          exact ⟨_, _, .step ⟨ConnStep.readUnlock, rfl, rfl⟩ <| .refl _ _, rfl, rfl, rfl⟩
      | _ => exact (inside rfl).elim
  | read worker =>
      cases own with
      | testing =>
          cases queue : shared.read.queue with
          | nil =>
              exact ⟨_, _, .step ⟨ReadStep.wait queue, rfl, rfl⟩ <| .refl _ _, rfl, rfl, rfl⟩
          | cons entry rest =>
              exact ⟨_, _, .step ⟨ReadStep.pop queue, rfl, rfl⟩ <|
                .step ⟨ReadStep.unlock, rfl, rfl⟩ <| .refl _ _, rfl, rfl, rfl⟩
      | unlocking entry =>
          exact ⟨_, _, .step ⟨ReadStep.unlock, rfl, rfl⟩ <| .refl _ _, rfl, rfl, rfl⟩
      | _ => exact (inside rfl).elim
  | flush flusher => exact (inside rfl).elim

/-- Whoever is inside the section of `write_mtx` leaves it and touches no other stage. -/
theorem exists_released_write {thread : Thread setup} {own : Own setup thread}
    (inside : writeStanding thread own ≠ .outside) (inPlace : InPlace thread own) :
    ∃ next final, OwnRun unaided thread own shared next final ∧ final.write.holder = none ∧
      final.conn = shared.conn ∧ final.read = shared.read := by
  cases thread with
  | handler => exact (inside rfl).elim
  | conn worker => exact (inside rfl).elim
  | read worker =>
      cases own with
      | pushing query =>
          exact ⟨_, _, .step ⟨ReadStep.push, rfl, rfl⟩ <|
            .step ⟨ReadStep.broadcast, rfl, rfl⟩ <|
            .step ⟨ReadStep.writeUnlock, rfl, rfl⟩ <| .refl _ _, rfl, rfl, rfl⟩
      | broadcasting =>
          exact ⟨_, _, .step ⟨ReadStep.broadcast, rfl, rfl⟩ <|
            .step ⟨ReadStep.writeUnlock, rfl, rfl⟩ <| .refl _ _, rfl, rfl, rfl⟩
      | writeUnlocking =>
          exact ⟨_, _, .step ⟨ReadStep.writeUnlock, rfl, rfl⟩ <| .refl _ _, rfl, rfl, rfl⟩
      | _ => exact (inside rfl).elim
  | flush flusher =>
      cases own with
      | testing =>
          by_cases isShort : flusher.Short shared.write.queue
          · cases flusher with
            | write worker =>
                exact ⟨_, _, .step ⟨FlushStep.wait isShort, rfl, rfl⟩ <| .refl _ _, rfl, rfl, rfl⟩
            | sync =>
                exact ⟨_, _, .step ⟨FlushStep.leave isShort, rfl, rfl⟩ <|
                  .step ⟨FlushStep.goOn, rfl, rfl⟩ <| .refl _ _, rfl, rfl, rfl⟩
          · exact ⟨_, _, .step ⟨FlushStep.enter isShort, rfl, rfl⟩ <|
              unaided_drained flusher [] _ rfl, rfl, rfl, rfl⟩
      | leaving =>
          cases flusher with
          | write worker => exact (inPlace rfl).elim
          | sync => exact ⟨_, _, .step ⟨FlushStep.goOn, rfl, rfl⟩ <| .refl _ _, rfl, rfl, rfl⟩
      | draining bucket => exact ⟨_, _, unaided_drained flusher bucket _ rfl, rfl, rfl, rfl⟩
      | unlocking bucket =>
          exact ⟨_, _, .step ⟨FlushStep.unlock, rfl, rfl⟩ <| .refl _ _, rfl, rfl, rfl⟩
      | _ => exact (inside rfl).elim

end Sections

/-! ## Coming to rest -/

/-- Nobody holds a mutex. -/
structure Calm (state : State setup) : Prop where
  reachable : Reachable state
  conn : state.shared.conn.holder = none
  read : state.shared.read.holder = none
  write : state.shared.write.holder = none

/-- From every reachable state the mutexes are given up, one after the other. -/
theorem exists_calm {state : State setup} (reachable : Reachable state) :
    ∃ after, Leads unaided state after ∧ Calm after := by
  obtain ⟨first, toFirst, connFree⟩ :
      ∃ after, Leads unaided state after ∧ after.shared.conn.holder = none := by
    cases holder : state.shared.conn.holder with
    | none => exact ⟨state, .refl, holder⟩
    | some thread =>
        obtain ⟨next, final, run, free, _⟩ :=
          exists_released_conn (((disciplined reachable).conn.exclusive thread).mpr holder)
        exact ⟨_, run.leads state.own rfl, free⟩
  have reachableFirst := reachable.leads (leads_program toFirst)
  obtain ⟨second, toSecond, connStill, readFree⟩ :
      ∃ after, Leads unaided first after ∧ after.shared.conn = first.shared.conn ∧
        after.shared.read.holder = none := by
    cases holder : first.shared.read.holder with
    | none => exact ⟨first, .refl, rfl, holder⟩
    | some thread =>
        obtain ⟨next, final, run, free, same, _⟩ :=
          exists_released_read (((disciplined reachableFirst).read.exclusive thread).mpr holder)
        exact ⟨_, run.leads first.own rfl, same, free⟩
  have reachableSecond := reachableFirst.leads (leads_program toSecond)
  obtain ⟨third, toThird, connLast, readLast, writeFree⟩ :
      ∃ after, Leads unaided second after ∧ after.shared.conn = second.shared.conn ∧
        after.shared.read = second.shared.read ∧ after.shared.write.holder = none := by
    cases holder : second.shared.write.holder with
    | none => exact ⟨second, .refl, rfl, rfl, holder⟩
    | some thread =>
        obtain ⟨next, final, run, free, sameConn, sameRead⟩ :=
          exists_released_write (((disciplined reachableSecond).write.exclusive thread).mpr holder)
            (allInPlace reachableSecond thread)
        exact ⟨_, run.leads second.own rfl, sameConn, sameRead, free⟩
  refine ⟨third, (toFirst.trans toSecond).trans toThird,
    ⟨reachableSecond.leads (leads_program toThird), ?_, ?_, writeFree⟩⟩
  · rw [connLast, connStill, connFree]
  · rw [readLast, readFree]

/-- A thread that holds nothing and stands at no work of its own. -/
def Resting : ∀ thread : Thread setup, Own setup thread → Prop
  | .handler, own => own = Handler.accepting
  | .conn _, own =>
      own = ConnWorker.locking ∨ own = ConnWorker.waiting ∨
        ∃ connection, own = ConnWorker.reading connection
  | .read _, own => own = ReadWorker.locking ∨ own = ReadWorker.waiting
  | .flush _, own =>
      own = FlushWorker.sleeping ∨ own = FlushWorker.locking ∨ own = FlushWorker.waiting

section Rests

variable {shared : Shared setup}

/-- A read worker finishes the entry it took. -/
theorem exists_serialized (worker : Fin setup.readThreads) (entry : Entry setup)
    (free : shared.write.holder = none) :
    ∃ final, OwnRun unaided (.read worker) (ReadWorker.serializing entry) shared
        ReadWorker.locking final ∧ final.conn = shared.conn ∧ final.read = shared.read ∧
      final.write.holder = none := by
  cases verdict : (serialize setup.target (shared.buffer entry.buffer)).log.isVaild with
  | false => exact ⟨_, .step ⟨ReadStep.reject verdict, rfl, rfl⟩ <| .refl _ _, rfl, rfl, free⟩
  | true =>
      exact ⟨_, .step ⟨ReadStep.turn verdict, rfl, rfl⟩ <|
        .step ⟨ReadStep.writeLock free, rfl, rfl⟩ <|
        .step ⟨ReadStep.push, rfl, rfl⟩ <| .step ⟨ReadStep.broadcast, rfl, rfl⟩ <|
        .step ⟨ReadStep.writeUnlock, rfl, rfl⟩ <| .refl _ _, rfl, rfl, rfl⟩

/-- A thread outside all sections comes to rest while the mutexes are free. -/
theorem exists_rest {thread : Thread setup} {own : Own setup thread}
    (outsideConn : connStanding thread own = .outside)
    (outsideRead : readStanding thread own = .outside)
    (outsideWrite : writeStanding thread own = .outside) (connFree : shared.conn.holder = none)
    (readFree : shared.read.holder = none) (writeFree : shared.write.holder = none) :
    ∃ next final, OwnRun unaided thread own shared next final ∧ Resting thread next ∧
      final.conn.holder = none ∧ final.read.holder = none ∧ final.write.holder = none := by
  cases thread with
  | handler =>
      cases own with
      | accepting => exact ⟨_, _, .refl _ _, rfl, connFree, readFree, writeFree⟩
      | locking connection =>
          exact ⟨_, _, .step ⟨HandlerStep.lock connFree, rfl, rfl⟩ <|
            .step ⟨HandlerStep.push, rfl, rfl⟩ <| .step ⟨HandlerStep.broadcast, rfl, rfl⟩ <|
            .step ⟨HandlerStep.unlock, rfl, rfl⟩ <| .refl _ _, rfl, rfl, readFree, writeFree⟩
      | _ => exact absurd outsideConn nofun
  | conn worker =>
      cases own with
      | locking => exact ⟨_, _, .refl _ _, .inl rfl, connFree, readFree, writeFree⟩
      | waiting => exact ⟨_, _, .refl _ _, .inr (.inl rfl), connFree, readFree, writeFree⟩
      | reading connection =>
          exact ⟨_, _, .refl _ _, .inr (.inr ⟨connection, rfl⟩), connFree, readFree, writeFree⟩
      | readLocking connection read =>
          exact ⟨_, _, .step ⟨ConnStep.readLock readFree, rfl, rfl⟩ <|
            .step ⟨ConnStep.push, rfl, rfl⟩ <| .step ⟨ConnStep.broadcast, rfl, rfl⟩ <|
            .step ⟨ConnStep.readUnlock, rfl, rfl⟩ <| .refl _ _, .inr (.inr ⟨connection, rfl⟩),
            connFree, rfl, writeFree⟩
      | testing | unlocking => exact absurd outsideConn nofun
      | _ => exact absurd outsideRead nofun
  | read worker =>
      cases own with
      | locking => exact ⟨_, _, .refl _ _, .inl rfl, connFree, readFree, writeFree⟩
      | waiting => exact ⟨_, _, .refl _ _, .inr rfl, connFree, readFree, writeFree⟩
      | serializing entry =>
          obtain ⟨final, run, sameConn, sameRead, free⟩ := exists_serialized worker entry writeFree
          exact ⟨_, final, run, .inl rfl, sameConn ▸ connFree, sameRead ▸ readFree, free⟩
      | writeLocking query =>
          exact ⟨_, _, .step ⟨ReadStep.writeLock writeFree, rfl, rfl⟩ <|
            .step ⟨ReadStep.push, rfl, rfl⟩ <| .step ⟨ReadStep.broadcast, rfl, rfl⟩ <|
            .step ⟨ReadStep.writeUnlock, rfl, rfl⟩ <| .refl _ _, .inl rfl, connFree, readFree, rfl⟩
      | testing | unlocking => exact absurd outsideRead nofun
      | _ => exact absurd outsideWrite nofun
  | flush flusher =>
      have atStart : Resting (.flush flusher) flusher.start := by
        cases flusher with
        | write worker => exact .inr (.inl rfl)
        | sync => exact .inl rfl
      have awake (own : FlushWorker setup) (same : asleep (.flush flusher) own = false) :
          (asleep (.flush flusher) own && asleep (.flush flusher) flusher.start) = false := by
        rw [same, Bool.false_and]
      cases own with
      | sleeping => exact ⟨_, _, .refl _ _, .inl rfl, connFree, readFree, writeFree⟩
      | locking => exact ⟨_, _, .refl _ _, .inr (.inl rfl), connFree, readFree, writeFree⟩
      | waiting => exact ⟨_, _, .refl _ _, .inr (.inr rfl), connFree, readFree, writeFree⟩
      | querying bucket =>
          exact ⟨_, _, .step ⟨FlushStep.beginExecute, rfl, rfl⟩ <|
            .step ⟨FlushStep.endExecute, rfl, awake _ rfl⟩ <| .refl _ _, atStart, connFree,
            readFree, writeFree⟩
      | executing bucket =>
          exact ⟨_, _, .step ⟨FlushStep.endExecute, rfl, awake _ rfl⟩ <| .refl _ _, atStart,
            connFree, readFree, writeFree⟩
      | _ => exact absurd outsideWrite nofun

end Rests

/-- From every reachable state all threads come to rest. -/
theorem exists_allResting {state : State setup} (reachable : Reachable state) :
    ∃ after, Leads unaided state after ∧ Calm after ∧
      ∀ thread, Resting thread (after.own thread) := by
  obtain ⟨first, leads, calm⟩ := exists_calm reachable
  have able : ∀ middle : State setup, Calm middle → ∀ thread, ∃ next final,
      OwnRun unaided thread (middle.own thread) middle.shared next final ∧ Resting thread next ∧
        Calm ⟨Function.update middle.own thread next, final⟩ := by
    intro middle calm thread
    have outside {standing : Monitor.Standing} {holder : Option (Thread setup)}
        (exclusive : standing ≠ .outside ↔ holder = some thread) (free : holder = none) :
        standing = .outside := by
      by_contra inside
      exact Option.some_ne_none thread ((exclusive.mp inside).symm.trans free)
    have disciplined := disciplined calm.reachable
    obtain ⟨next, final, run, rest, connFree, readFree, writeFree⟩ :=
      exists_rest (outside (disciplined.conn.exclusive thread) calm.conn)
        (outside (disciplined.read.exclusive thread) calm.read)
        (outside (disciplined.write.exclusive thread) calm.write) calm.conn calm.read calm.write
    have leads := leads_program (run.leads middle.own rfl)
    exact ⟨next, final, run, rest, calm.reachable.leads leads, connFree, readFree, writeFree⟩
  obtain ⟨after, rests, calmAfter, resting⟩ := exists_resting able calm
  exact ⟨after, leads.trans rests, calmAfter, resting⟩

/-! ## Finishing -/

/-- Nobody holds a mutex and nobody has work in hand. -/
structure Idle (state : State setup) : Prop extends Calm state where
  resting : ∀ thread, Resting thread (state.own thread)

/-- After a run of one thread from rest to rest everything is idle again. -/
theorem Idle.after {state : State setup} (idle : Idle state) {thread : Thread setup}
    {next : Own setup thread} {final : Shared setup}
    (run : OwnRun unaided thread (state.own thread) state.shared next final)
    (rest : Resting thread next) (conn : final.conn.holder = none)
    (read : final.read.holder = none) (write : final.write.holder = none) :
    Idle ⟨Function.update state.own thread next, final⟩ where
  reachable := idle.reachable.leads (leads_program (run.leads state.own rfl))
  conn := conn
  read := read
  write := write
  resting other := by
    by_cases same : other = thread
    · subst same
      simp only [Function.update_self]
      exact rest
    · simp only [Function.update_of_ne same]
      exact idle.resting other

/-- A read worker that is idle takes an entry and finishes it. -/
theorem exists_served {state : State setup} (idle : Idle state) (reader : Fin setup.readThreads)
    {entry : Entry setup} {rest : List (Entry setup)}
    (front : state.shared.read.queue = entry :: rest) :
    ∃ after, Leads unaided state after ∧ Idle after ∧ after.shared.read.queue = rest := by
  have locks : OwnRun unaided (.read reader) (state.own (.read reader)) state.shared
      ReadWorker.testing
      { state.shared with read := state.shared.read.acquire (.read reader) } := by
    rcases idle.resting (.read reader) with here | here
    · rw [here]
      exact .step ⟨ReadStep.lock idle.read, rfl, rfl⟩ <| .refl _ _
    · -- a read worker that still waits would wait on an empty queue
      have awake : Thread.read reader ∉ state.shared.read.waiting := by
        intro waits
        have empty : state.shared.read.queue = [] :=
          (disciplined idle.reachable).read.short_of_free idle.read ⟨_, waits⟩
        exact List.cons_ne_nil entry rest (front.symm.trans empty)
      rw [here]
      exact .step ⟨ReadStep.relock awake idle.read, rfl, rfl⟩ <| .refl _ _
  let taken : Shared setup :=
    { state.shared with read := (state.shared.read.acquire (.read reader)).popFront.release }
  have takes : OwnRun unaided (.read reader) ReadWorker.testing
      { state.shared with read := state.shared.read.acquire (.read reader) }
      (ReadWorker.serializing entry) taken :=
    .step ⟨ReadStep.pop front, rfl, rfl⟩ <| .step ⟨ReadStep.unlock, rfl, rfl⟩ <| .refl _ _
  have free : taken.write.holder = none := idle.write
  obtain ⟨final, finishes, sameConn, sameRead, writeFree⟩ := exists_serialized reader entry free
  have run := (locks.trans takes).trans finishes
  have connFree : final.conn.holder = none := sameConn ▸ idle.conn
  have readFree : final.read.holder = none := sameRead ▸ rfl
  have shorter : final.read.queue = rest := by
    rw [sameRead]
    exact congrArg List.tail front
  exact ⟨_, run.leads state.own rfl, idle.after run (.inl rfl) connFree readFree writeFree, shorter⟩

/-- One read worker is enough to empty `read_queue`. -/
theorem exists_allServed {state : State setup} (idle : Idle state)
    (reader : Fin setup.readThreads) :
    ∃ after, Leads unaided state after ∧ Idle after ∧ after.shared.read.queue = [] := by
  generalize length : state.shared.read.queue = queue
  induction queue generalizing state with
  | nil => exact ⟨state, .refl, idle, length⟩
  | cons entry rest ih =>
      obtain ⟨middle, leads, idleMiddle, shorter⟩ := exists_served idle reader length
      obtain ⟨after, leadsAfter, served⟩ := ih idleMiddle shorter
      exact ⟨after, leads.trans leadsAfter, served⟩

/-- The sync worker empties `insert_statements`, however short it is. -/
theorem exists_allFlushed {state : State setup} (idle : Idle state) :
    ∃ after, Leads unaided state after ∧ Idle after ∧
      after.shared.read.queue = state.shared.read.queue ∧ after.shared.write.queue = [] := by
  cases queue : state.shared.write.queue with
  | nil => exact ⟨state, .refl, idle, rfl, queue⟩
  | cons query others =>
      have comes : OwnRun unaided (.flush .sync) (state.own (.flush .sync)) state.shared
          FlushWorker.locking state.shared := by
        rcases idle.resting (.flush .sync) with here | here | here
        · rw [here]
          exact .step ⟨FlushStep.awake, rfl, rfl⟩ <| .refl _ _
        · rw [here]
          exact .refl _ _
        · exact (allInPlace idle.reachable (.flush .sync) here).elim
      let locked : Shared setup :=
        { state.shared with write := state.shared.write.acquire (.flush .sync) }
      have enough : ¬ Flusher.sync.Short locked.write.queue := by
        change ¬ state.shared.write.queue.length = 0
        rw [queue, List.length_cons]
        exact Nat.succ_ne_zero _
      have drains : OwnRun unaided (.flush .sync) FlushWorker.locking state.shared _ _ :=
        .step ⟨FlushStep.lock idle.write, rfl, rfl⟩ <| .step ⟨FlushStep.enter enough, rfl, rfl⟩ <|
          (unaided_drained .sync [] _ rfl).trans <|
          .step ⟨FlushStep.beginExecute, rfl, rfl⟩ <|
          .step ⟨FlushStep.endExecute, rfl, rfl⟩ <| .refl _ _
      have run := comes.trans drains
      exact ⟨_, run.leads state.own rfl, idle.after run (.inl rfl) idle.conn idle.read rfl, rfl,
        rfl⟩

/-- Where nothing is left to do, every read was rejected or is executed. -/
theorem accounted_of_idle {state : State setup} (idle : Idle state)
    (served : state.shared.read.queue = []) (flushed : state.shared.write.queue = []) :
    Multiset.range state.shared.returned.length =
      (state.shared.rejected : Multiset ℕ) + origins state.shared.executed.flatten := by
  obtain ⟨_, reads, subqueries⟩ := handedOver idle.reachable
  have noConn (worker : Fin setup.connThreads) :
      ConnWorker.reads (state.own (.conn worker)) = 0 := by
    rcases idle.resting (.conn worker) with here | here | ⟨connection, here⟩ <;> rw [here] <;> rfl
  have noReads (worker : Fin setup.readThreads) :
      ReadWorker.reads (state.own (.read worker)) = 0 := by
    rcases idle.resting (.read worker) with here | here <;> rw [here] <;> rfl
  have noSubqueries (worker : Fin setup.readThreads) :
      ReadWorker.subqueries (state.own (.read worker)) = 0 := by
    rcases idle.resting (.read worker) with here | here <;> rw [here] <;> rfl
  have noBucket (flusher : Flusher setup) :
      origins (FlushWorker.bucket (state.own (.flush flusher))) = 0 := by
    rcases idle.resting (.flush flusher) with here | here | here <;> rw [here] <;> rfl
  simp only [noConn, noReads, noSubqueries, noBucket, served, flushed, Finset.sum_const_zero,
    zero_add, List.map_nil, Multiset.coe_nil, origins_nil] at reads subqueries
  rw [← reads, ← subqueries]

/-- From every reachable state both queues are emptied and everything comes to rest. -/
theorem exists_allDone {state : State setup} (reachable : Reachable state)
    (reader : Fin setup.readThreads) :
    ∃ after, Leads unaided state after ∧ Idle after ∧ after.shared.read.queue = [] ∧
      after.shared.write.queue = [] := by
  obtain ⟨first, rests, calm, resting⟩ := exists_allResting reachable
  obtain ⟨second, serves, idle, served⟩ := exists_allServed ⟨calm, resting⟩ reader
  obtain ⟨after, flushes, idleAfter, same, flushed⟩ := exists_allFlushed idle
  exact ⟨after, (rests.trans serves).trans flushes, idleAfter, same.trans served, flushed⟩

/-- **Everything read can be finished.** As long as every `execute` returns normally, the
threads can go on by themselves from every reachable state, with no new connection, no
further bytes and no spurious wake-up, to a state in which nobody holds a mutex and every
read so far was rejected as invalid or is in a bucket that was executed, each in one of
these ways and once. One read worker and the sync worker are enough for it. -/
theorem exists_allFinished {state : State setup} (reachable : Reachable state)
    (reader : Fin setup.readThreads) (returns : Text → Prop)
    (normal : ∀ bucket : List (Subquery setup),
      returns (setup.kind.createQuery (bucket.map Subquery.text))) :
    ∃ after, Leads (returning returns) state after ∧ Idle after ∧
      after.shared.returned = state.shared.returned ∧
      Multiset.range state.shared.returned.length =
        (after.shared.rejected : Multiset ℕ) + origins after.shared.executed.flatten := by
  obtain ⟨after, leads, idle, served, flushed⟩ := exists_allDone reachable reader
  have returned := (same_of_leads leads).1
  refine ⟨after, leads_returning leads fun bucket _ => normal bucket, idle, returned, ?_⟩
  rw [← returned]
  exact accounted_of_idle idle served flushed

/-- While the first log is being parsed, it can still be finished. -/
theorem exists_allFinished_parsing :
    ∃ (state after : State (.run .postgres .wrapping)) (entry : Entry _),
      Reachable state ∧ state.own (.read ⟨0, by decide⟩) = ReadWorker.serializing entry ∧
        state.shared.returned = [sampleLog] ∧ Leads (returning fun _ => True) state after ∧
        Multiset.range 1 =
          (after.shared.rejected : Multiset ℕ) + origins after.shared.executed.flatten := by
  obtain ⟨start, reachable, serving, isFirst, _⟩ :=
    exists_serving (.run .postgres .wrapping) ⟨0, by decide⟩ ⟨0, by decide⟩
  obtain ⟨own, takes, _, here, _⟩ := serving.take sampleLog holdsLog_sampleLog.ne_nil sampleLog_fits
  have single : (start.shared.received ⟨0, by decide⟩ sampleLog).taken.returned =
      [sampleLog] := by
    rw [isFirst, Shared.returned_taken, Shared.returned_received, returned_firstTaken,
      List.nil_append]
  have reachableNext := reachable.leads takes
  obtain ⟨after, leads, _, _, accounted⟩ :=
    exists_allFinished reachableNext ⟨0, by decide⟩ (fun _ => True) fun _ => trivial
  rw [single] at accounted
  exact ⟨_, after, _, reachableNext, here, single, leads, accounted⟩

end Evenscribe.Pipeline
