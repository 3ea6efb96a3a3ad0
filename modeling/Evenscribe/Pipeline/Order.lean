import Evenscribe.Pipeline.Ledger
import Evenscribe.Pipeline.Schedule

/-!
# The order in which the queues are served

Every queue is pushed at its front and removed from its front. Nothing is
overtaken exactly as long as each entry that is removed is the only one in its
queue (`firstInFirstOut_iff`).
-/

namespace Evenscribe.Pipeline

open Threads

variable {setup : Setup}

/-- Every bucket that was filled lists its subqueries in the order of their removal. -/
structure BucketsInOrder (state : RecordedState setup) : Prop where
  filling : ∀ flusher, (FlushWorker.bucket (state.own (.flush flusher))).Sublist
    state.shared.2.subqueries.removed
  executed : ∀ bucket ∈ state.shared.1.executed, bucket.Sublist state.shared.2.subqueries.removed

/-- First in, first out: of two entries of a queue the one pushed first is removed
first, and stands first if both are in one bucket. -/
structure FirstInFirstOut (state : RecordedState setup) : Prop where
  connections : state.shared.2.connections.InOrder
  reads : state.shared.2.reads.InOrder
  subqueries : state.shared.2.subqueries.InOrder
  buckets : BucketsInOrder state

/-- What a step removes from a queue is alone there. -/
structure TakesAlone (move : Recorded.Move setup) : Prop where
  connections : move.event.connCrossing.Alone move.before.shared.1.conn.queue
  reads : move.event.readCrossing.Alone move.before.shared.1.read.queue
  subqueries : move.event.writeCrossing.Alone move.before.shared.1.write.queue

/-- A flusher's bucket is emptied, kept, or filled with what the flusher removes. -/
theorem bucket_of_step {before after : State setup} {event : Event setup}
    (step : Step before event after) (flusher : Flusher setup) :
    FlushWorker.bucket (after.own (.flush flusher)) = [] ∨
      FlushWorker.bucket (after.own (.flush flusher)) =
        FlushWorker.bucket (before.own (.flush flusher)) ∨
      ∃ query, event = .takeSubquery flusher query ∧
        FlushWorker.bucket (after.own (.flush flusher)) =
          FlushWorker.bucket (before.own (.flush flusher)) ++ [query] := by
  rcases step.taken_or_kept (.flush flusher) with ⟨own, next, shared, here, there, _, taken⟩ | kept
  · rw [here, there]
    cases taken with
    | drain => exact .inr (.inr ⟨_, rfl, rfl⟩)
    | endExecute => cases flusher <;> exact .inl rfl
    | _ => first | exact .inl rfl | exact .inr (.inl rfl)
  · rw [kept]
    exact .inr (.inl rfl)

/-- What is executed is the bucket of a flusher. -/
theorem executed_of_step {before after : State setup} {event : Event setup}
    (step : Step before event after) :
    after.shared.executed = before.shared.executed ∨
      ∃ flusher, after.shared.executed =
        FlushWorker.bucket (before.own (.flush flusher)) :: before.shared.executed := by
  obtain ⟨thread, own, next, shared, here, taken, rfl⟩ := step.exists_taken
  cases thread with
  | handler => cases taken <;> exact .inl rfl
  | conn worker => cases taken <;> exact .inl rfl
  | read worker => cases taken <;> exact .inl rfl
  | flush flusher =>
      cases taken with
      | endExecute =>
          refine .inr ⟨flusher, ?_⟩
          rw [here]
          rfl
      | _ => exact .inl rfl

/-- A step keeps buckets in the order in which they were taken. -/
theorem bucketsInOrder_step {before after : RecordedState setup} {event : Event setup}
    (inOrder : BucketsInOrder before) (step : Recorded.Step before event after) :
    BucketsInOrder after := by
  have noted : after.shared.2 = before.shared.2.record event := step.note_effect
  have more : before.shared.2.subqueries.removed.Sublist after.shared.2.subqueries.removed := by
    rw [noted]
    cases event with
    | takeSubquery flusher query => exact List.sublist_append_left _ _
    | _ => exact .refl _
  obtain ⟨filling, executed⟩ := inOrder
  constructor
  · intro flusher
    rcases bucket_of_step step.bare flusher with empty | same | ⟨query, rfl, grown⟩
    · have bucket : FlushWorker.bucket (after.own (.flush flusher)) = [] := empty
      rw [bucket]
      exact List.nil_sublist _
    · have bucket : FlushWorker.bucket (after.own (.flush flusher)) =
        FlushWorker.bucket (before.own (.flush flusher)) := same
      rw [bucket]
      exact (filling flusher).trans more
    · have bucket : FlushWorker.bucket (after.own (.flush flusher)) =
        FlushWorker.bucket (before.own (.flush flusher)) ++ [query] := grown
      rw [bucket, noted]
      exact (filling flusher).append (.refl [query])
  · intro bucket member
    rcases executed_of_step step.bare with same | ⟨flusher, added⟩
    · have kept : after.shared.1.executed = before.shared.1.executed := same
      exact (executed bucket (kept ▸ member)).trans more
    · have grown : after.shared.1.executed =
        FlushWorker.bucket (before.own (.flush flusher)) :: before.shared.1.executed := added
      rw [grown] at member
      rcases List.mem_cons.mp member with rfl | earlier
      · exact (filling flusher).trans more
      · exact (executed bucket earlier).trans more

theorem bucketsInOrder_of_starts {state : RecordedState setup} (starts : Recorded.Starts state) :
    BucketsInOrder state := by
  obtain ⟨own, shared, ledger⟩ := state
  obtain ⟨⟨buffer, _, isStart⟩, rfl⟩ := starts
  obtain ⟨rfl, rfl⟩ := State.mk.inj isStart
  constructor
  · intro flusher
    cases flusher <;> exact List.nil_sublist _
  · exact fun bucket member => (List.not_mem_nil member).elim

theorem firstInFirstOut_of_starts {state : RecordedState setup}
    (starts : Recorded.Starts state) : FirstInFirstOut state := by
  have buckets := bucketsInOrder_of_starts starts
  obtain ⟨own, shared, ledger⟩ := state
  obtain ⟨_, rfl⟩ := starts
  have nothing {Item : Type} : Passage.InOrder (⟨[], []⟩ : Passage Item) :=
    fun _ _ _ removed => (List.not_mem_nil removed).elim
  exact ⟨nothing, nothing, nothing, buckets⟩

/-- A step keeps the order exactly when it removes only what is alone. -/
theorem firstInFirstOut_step {before after : RecordedState setup} {event : Event setup}
    (reachable : Recorded.Reachable before) (inOrder : FirstInFirstOut before)
    (step : Recorded.Step before event after) :
    FirstInFirstOut after ↔ TakesAlone ⟨before, event, after⟩ := by
  have tracked := allTracked reachable
  have fresh := allFresh reachable step
  obtain ⟨connFront, readFront, writeFront⟩ := crossings step.bare
  have connections := tracked.connections.inOrder_cross_iff fresh.connections connFront
    inOrder.connections
  have reads := tracked.reads.inOrder_cross_iff fresh.reads readFront inOrder.reads
  have subqueries := tracked.subqueries.inOrder_cross_iff fresh.subqueries writeFront
    inOrder.subqueries
  have noted : after.shared.2 = before.shared.2.record event := step.note_effect
  constructor
  · rintro ⟨connectionsAfter, readsAfter, subqueriesAfter, _⟩
    rw [noted] at connectionsAfter readsAfter subqueriesAfter
    exact ⟨connections.mp connectionsAfter, reads.mp readsAfter, subqueries.mp subqueriesAfter⟩
  · rintro ⟨connAlone, readAlone, writeAlone⟩
    refine ⟨?_, ?_, ?_, bucketsInOrder_step inOrder.buckets step⟩
    · rw [noted]
      exact connections.mpr connAlone
    · rw [noted]
      exact reads.mpr readAlone
    · rw [noted]
      exact subqueries.mpr writeAlone

/-- **First in, first out.** In every state of a run the queues are served in order
exactly when every entry that is removed is the only one in its queue. -/
theorem firstInFirstOut_iff {moves : List (Recorded.Move setup)} {state : RecordedState setup}
    (run : Recorded.Run moves state) :
    (∀ move ∈ moves, FirstInFirstOut move.after) ↔ ∀ move ∈ moves, TakesAlone move :=
  run.forall_iff (fun _ => firstInFirstOut_of_starts) fun _ _ _ reachable inOrder step =>
    firstInFirstOut_step reachable inOrder step

/-- `handle_message` accepts a connection and pushes it. -/
theorem ownRun_pushed {shared : Shared setup} (free : shared.conn.holder = none) :
    OwnRun program .handler Handler.accepting shared Handler.accepting
      { shared with
        conn := ⟨none, ∅, shared.accepted :: shared.conn.queue⟩
        accepted := shared.accepted + 1 } :=
  .step HandlerStep.accept <| .step (HandlerStep.lock free) <| .step HandlerStep.push <|
    .step HandlerStep.broadcast <| .step HandlerStep.unlock <| .refl _ _

/-- A connection worker takes the second of two connections first. -/
theorem exists_overtaking (setup : Setup) (worker : Fin setup.connThreads) :
    ∃ (before after : RecordedState setup) (event : Event setup), Recorded.Reachable before ∧
      Recorded.Step before event after ∧ ¬ TakesAlone ⟨before, event, after⟩ := by
  let shared (holder : Option (Thread setup)) (queue : List ℕ) : Shared setup :=
    { State.initial.shared with conn := ⟨holder, ∅, queue⟩, accepted := 2 }
  have pushes : OwnRun program .handler Handler.accepting State.initial.shared Handler.accepting
      (shared none [1, 0]) := (ownRun_pushed rfl).trans (ownRun_pushed rfl)
  have idle : Function.update startOwn .handler Handler.accepting (.conn worker) =
      ConnWorker.locking := by
    simp only [ne_eq, reduceCtorEq, not_false_eq_true, Function.update_of_ne, startOwn]
  have locks : OwnRun program (.conn worker) ConnWorker.locking (shared none [1, 0])
      ConnWorker.testing (shared (some (.conn worker)) [1, 0]) :=
    .step (ConnStep.lock rfl) <| .refl _ _
  have reachable := reachable_initial.leads ((pushes.leads startOwn rfl).trans
    (locks.leads _ idle))
  have pops : program (.conn worker) ConnWorker.testing (shared (some (.conn worker)) [1, 0])
      (.popConnection worker 1) (ConnWorker.unlocking 1) (shared (some (.conn worker)) [0]) :=
    ConnStep.pop rfl
  have here : Function.update (Function.update startOwn .handler Handler.accepting)
      (.conn worker) ConnWorker.testing (.conn worker) = ConnWorker.testing :=
    Function.update_self ..
  have step := Threads.Step.of_own here pops
  obtain ⟨ledger, recorded⟩ := exists_recorded reachable
  have recordedStep : Recorded.Step _ (.popConnection worker 1) _ :=
    step.noted (rfl : ledger.record (.popConnection worker 1) = _)
  refine ⟨_, _, _, recorded, recordedStep, fun alone => ?_⟩
  have single : [1, 0] = [1] := alone.connections
  exact absurd single (by decide)

/-- A run with an overtaking is out of order at some point. -/
theorem firstInFirstOut_iff_overtaking :
    ∃ (moves : List (Recorded.Move (.run .postgres .wrapping))) (state : RecordedState _),
      Recorded.Run moves state ∧ ¬ ∀ move ∈ moves, FirstInFirstOut move.after := by
  obtain ⟨before, after, event, ⟨moves, run⟩, step, overtakes⟩ :=
    exists_overtaking (.run .postgres .wrapping) ⟨0, by decide⟩
  refine ⟨_, after, .step run step, fun inOrder => overtakes ?_⟩
  exact (firstInFirstOut_iff (.step run step)).mp inOrder _ (List.mem_cons_self ..)

/-- A connection that waits can be overtaken by one that comes later. -/
theorem not_firstInFirstOut :
    ¬ ∀ (setup : Setup) (state : RecordedState setup), Recorded.Reachable state →
      FirstInFirstOut state := by
  intro always
  obtain ⟨before, after, event, reachable, step, overtakes⟩ :=
    exists_overtaking (.run .postgres .wrapping) ⟨0, by decide⟩
  have inOrder := always _ after (reachable.step step)
  exact overtakes ((firstInFirstOut_step reachable (always _ before reachable) step).mp inOrder)

end Evenscribe.Pipeline
