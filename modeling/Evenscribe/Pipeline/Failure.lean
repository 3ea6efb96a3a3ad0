import Evenscribe.Foundation.Failure
import Evenscribe.Pipeline.Batch
import Evenscribe.Pipeline.Ledger

/-!
# When an execute fails

Nothing in the program catches an exception, so one that is thrown by an execute
ends the whole process. Until then every subquery that was pushed is executed or
held; what is held at that moment, the bucket of the failed execute among it, is
lost (`safeUntilFailure`).
-/

namespace Evenscribe.Pipeline

open Threads Failure

variable {setup : Setup}

/-- An execute of a flusher throws: it was begun and has not returned. -/
def Fails (state : RecordedState setup)
    (fault : Flusher setup × List (Subquery setup)) : Prop :=
  state.own (.flush fault.1) = FlushWorker.executing fault.2

/-- The process, with the ledger of what it did. -/
abbrev Process (setup : Setup) := Failure.Process (RecordedState setup)

namespace Process

/-- A step of the program, or a failed `execute` that ends it. -/
abbrev Step : Process setup → Outcome (Event setup) (Flusher setup × List (Subquery setup)) →
    Process setup → Prop :=
  Failure.Step Recorded.Step Fails

/-- What the program can come to. -/
abbrev Reachable : Process setup → Prop :=
  Failure.Reachable Recorded.Starts Recorded.Step Fails

/-- The subqueries pushed to `insert_statements` so far. -/
def pushed (process : Process setup) : List (Subquery setup) :=
  process.last.shared.2.subqueries.pushed

/-- The subqueries of the statements executed so far. -/
def stored (process : Process setup) : List (Subquery setup) :=
  process.last.shared.1.executed.flatten

/-- The subqueries in the memory of the program: those in `insert_statements` and those
in the buckets whose execute has not returned. -/
def held : Process setup → Multiset (Subquery setup)
  | .running state =>
      ∑ flusher, (FlushWorker.bucket (state.own (.flush flusher)) : Multiset (Subquery setup)) +
        state.shared.1.write.queue
  | .ended _ => 0

/-- What was pushed and not executed is held for a later attempt. -/
def Safe (process : Process setup) : Prop :=
  ∀ query ∈ process.pushed, query ∉ process.stored → query ∈ process.held

end Process

/-- The bucket of a thread. -/
def bucketOf : ∀ thread : Thread setup, Own setup thread → Multiset (Subquery setup)
  | .handler, _ => 0
  | .conn _, _ => 0
  | .read _, _ => 0
  | .flush _, own => FlushWorker.bucket own

/-- A step moves what was pushed and keeps it all. -/
theorem buckets_balanced : Threads.Balanced (@recorded setup) bucketOf
    (fun shared => shared.1.write.queue + shared.1.executed.flatten)
    (fun shared => (shared.2.subqueries.pushed : Multiset (Subquery setup))) := by
  rintro thread own ⟨shared, ledger⟩ event next ⟨after, _⟩ ⟨taken, rfl⟩
  cases thread with
  | handler => cases taken <;> rfl
  | conn worker => cases taken <;> rfl
  | read worker =>
      cases taken with
      | push =>
          simp only [bucketOf, Monitor.pushFront, Ledger.record, Event.writeCrossing,
            Passage.cross, Passage.push, ← Multiset.coe_add, ← Multiset.cons_coe,
            ← Multiset.singleton_add]
          abel
      | _ => rfl
  | flush flusher =>
      cases taken with
      | @drain _ _ bucket query rest front =>
          have holds : shared.write.queue = query :: rest := front
          simp only [bucketOf, FlushWorker.bucket, Monitor.popFront, holds, List.tail_cons,
            Ledger.record, Event.writeCrossing, Passage.cross, Passage.remove, ← Multiset.coe_add,
            ← Multiset.cons_coe, ← Multiset.singleton_add]
          abel
      | endExecute =>
          have emptyHanded : FlushWorker.bucket flusher.start = [] := by cases flusher <;> rfl
          simp only [bucketOf, emptyHanded, Multiset.coe_nil]
          simp only [FlushWorker.bucket, List.flatten_cons, ← Multiset.coe_add, Ledger.record,
            Event.writeCrossing, Passage.cross]
          abel
      | _ => rfl

/-- What was pushed is held by the running program or executed. -/
theorem pushed_eq {state : RecordedState setup} (reachable : Recorded.Reachable state) :
    (state.shared.2.subqueries.pushed : Multiset (Subquery setup)) =
      Process.held (.running state) +
        (state.shared.1.executed.flatten : List (Subquery setup)) := by
  have all : ∑ thread, bucketOf thread (state.own thread) +
      (state.shared.1.write.queue + (state.shared.1.executed.flatten : List (Subquery setup))) =
        state.shared.2.subqueries.pushed := by
    refine buckets_balanced.reachable ?_ reachable
    rintro ⟨own, shared, ledger⟩ ⟨⟨buffer, _, isStart⟩, rfl⟩
    obtain ⟨rfl, rfl⟩ := State.mk.inj isStart
    have emptyHanded (thread : Thread setup) : bucketOf thread (startOwn thread) = 0 := by
      cases thread with
      | flush flusher => cases flusher <;> rfl
      | _ => rfl
    simp only [emptyHanded, Finset.sum_const_zero, zero_add]
    rfl
  rw [← all, sum_thread fun thread => bucketOf thread (state.own thread), Process.held]
  simp only [bucketOf, Finset.sum_const_zero, zero_add, add_assoc]

/-- The last state of the pipeline was reached without a failure. -/
theorem Process.recorded_last {process : Process setup} (reachable : process.Reachable) :
    Recorded.Reachable process.last :=
  Failure.Reachable.invariant (fun _ => .of_start) (fun _ _ _ before step => before.step step)
    reachable

/-- What is reached without a failure is still running. -/
theorem Process.reachable_running {state : RecordedState setup}
    (reachable : Recorded.Reachable state) : Process.Reachable (.running state) := by
  obtain ⟨moves, run⟩ := reachable
  induction run with
  | start starts => exact .start starts
  | step _ step ih => exact .step ih (.goOn step)

/-- A bucket whose execute has not returned is in the memory of the program. -/
theorem bucket_le_held (state : RecordedState setup) (flusher : Flusher setup) :
    (FlushWorker.bucket (state.own (.flush flusher)) : Multiset (Subquery setup)) +
      state.shared.1.write.queue ≤ Process.held (.running state) := by
  let amount (other : Flusher setup) : Multiset (Subquery setup) :=
    FlushWorker.bucket (state.own (.flush other))
  have among : amount flusher ≤ ∑ other, amount other :=
    Finset.single_le_sum (fun _ _ => Multiset.zero_le _) (Finset.mem_univ flusher)
  exact add_le_add_left among _

/-- What the program holds was pushed and is not executed. -/
theorem not_stored_of_held {state : RecordedState setup} (reachable : Recorded.Reachable state)
    {query : Subquery setup} (held : query ∈ Process.held (.running state)) :
    query ∈ state.shared.2.subqueries.pushed ∧ query ∉ state.shared.1.executed.flatten := by
  have all := pushed_eq reachable
  have distinct : (state.shared.2.subqueries.pushed : Multiset (Subquery setup)).Nodup :=
    Multiset.coe_nodup.mpr (allTracked reachable).subqueries.distinct
  constructor
  · rw [← Multiset.mem_coe, all]
    exact Multiset.mem_add.mpr (.inl held)
  · intro stored
    rw [all, Multiset.nodup_add] at distinct
    exact Multiset.disjoint_left.mp distinct.2.2 held (Multiset.mem_coe.mpr stored)

/-- A failed execute has records, and so does what is lost with it. -/
theorem ne_nil_of_fails {state : RecordedState setup} (reachable : Recorded.Reachable state)
    {flusher : Flusher setup} {bucket : List (Subquery setup)}
    (fails : Fails state (flusher, bucket)) : bucket ≠ [] := by
  have filled := allFilled reachable.bare (.flush flusher)
  have there : state.bare.own (.flush flusher) = FlushWorker.executing bucket := fails
  rw [there] at filled
  have enough : flusher.minimum ≤ bucket.length := filled
  exact List.ne_nil_of_length_pos (flusher.minimum_pos.trans_le enough)

/-- **Until an execute fails.** A running process holds whatever was pushed and not
executed. A failed execute ends the process for good, and nothing is held then,
neither its bucket, which is not empty, nor what waits in `insert_statements`. -/
theorem safeUntilFailure {process : Process setup} (reachable : process.Reachable) :
    (∀ state, process = .running state → process.Safe) ∧
      ∀ last, process = .ended last → process.held = 0 ∧
        (∀ outcome next, ¬ Process.Step process outcome next) ∧
        ∃ flusher bucket, Fails last (flusher, bucket) ∧ bucket ≠ [] ∧
          ∀ query ∈ bucket ++ last.shared.1.write.queue,
            query ∈ process.pushed ∧ query ∉ process.stored := by
  have recorded := process.recorded_last reachable
  constructor
  · rintro state rfl query pushed notStored
    have all := pushed_eq recorded
    rw [← Multiset.mem_coe] at pushed
    rcases Multiset.mem_add.mp (all ▸ pushed) with held | stored
    · exact held
    · exact (notStored (Multiset.mem_coe.mp stored)).elim
  · rintro last rfl
    obtain ⟨⟨flusher, bucket⟩, fails⟩ := Failure.Reachable.exists_fault reachable
    refine ⟨rfl, not_step_ended last, flusher, bucket, fails, ne_nil_of_fails recorded fails, ?_⟩
    intro query member
    have held := bucket_le_held last flusher
    rw [show last.own (.flush flusher) = FlushWorker.executing bucket from fails] at held
    exact not_stored_of_held recorded (Multiset.mem_of_le held (Multiset.mem_coe.mpr member))

/-- The sync worker's execute of the first log can fail. -/
theorem exists_ended (setup : Setup) (worker : Fin setup.connThreads)
    (reader : Fin setup.readThreads) :
    ∃ last : RecordedState setup, Process.Reachable (.ended last) := by
  obtain ⟨before, begun, queue, reachable, step, _, executes, _⟩ :=
    exists_syncExecutes setup worker reader
  obtain ⟨ledger, recorded⟩ := exists_recorded (reachable.step step)
  have fails : Fails (begun.noted ledger) (.sync, queue) := executes
  exact ⟨_, .step (Process.reachable_running recorded) (.fail fails)⟩

/-- A process that a failed execute of the sync worker ended holds nothing. -/
theorem safeUntilFailure_ended :
    ∃ last : RecordedState (.run .postgres .wrapping), Process.Reachable (.ended last) ∧
      Process.held (.ended last) = 0 ∧ ∃ flusher bucket, Fails last (flusher, bucket) ∧
        bucket ≠ [] := by
  obtain ⟨last, reachable⟩ := exists_ended (.run .postgres .wrapping) ⟨0, by decide⟩ ⟨0, by decide⟩
  obtain ⟨nothing, _, flusher, bucket, fails, filled, _⟩ :=
    (safeUntilFailure reachable).2 last rfl
  exact ⟨last, reachable, nothing, flusher, bucket, fails, filled⟩

/-- A failed execute of the sync worker loses the log it should store. -/
theorem not_safe : ¬ ∀ (setup : Setup) (process : Process setup), process.Reachable →
    process.Safe := by
  intro always
  obtain ⟨last, reachable⟩ := exists_ended (.run .postgres .wrapping) ⟨0, by decide⟩ ⟨0, by decide⟩
  have recorded : Recorded.Reachable last := Process.recorded_last reachable
  obtain ⟨⟨flusher, bucket⟩, fails⟩ := Failure.Reachable.exists_fault reachable
  obtain ⟨query, rest, rfl⟩ := List.exists_cons_of_ne_nil (ne_nil_of_fails recorded fails)
  have bucketHeld := bucket_le_held last flusher
  rw [show last.own (.flush flusher) = FlushWorker.executing (query :: rest) from fails]
    at bucketHeld
  have held : query ∈ Process.held (.running last) :=
    Multiset.mem_of_le bucketHeld (Multiset.mem_add.mpr (.inl (Multiset.mem_cons_self query rest)))
  obtain ⟨pushed, notStored⟩ := not_stored_of_held recorded held
  exact Multiset.notMem_zero _ (always _ _ reachable query pushed notStored)

end Evenscribe.Pipeline
