import Mathlib.Algebra.Order.BigOperators.Group.Finset
import Evenscribe.Foundation.Noting
import Evenscribe.Foundation.Passage
import Evenscribe.Pipeline.Handover

/-!
# The order of arrivals and departures

A ledger beside the pipeline lists what was pushed to each queue and what was
removed from it, in order. Nothing is pushed twice, and each queue holds what
was pushed and not removed, the last arrival in front (`allTracked`).
-/

namespace Evenscribe.Pipeline

open Threads

variable {setup : Setup}

namespace Event

/-- What an event means for `conn_queue`. -/
def connCrossing : Event setup → Crossing ℕ
  | .pushConnection connection => .push connection
  | .popConnection _ connection => .remove connection
  | _ => .none

/-- What an event means for `read_queue`. -/
def readCrossing : Event setup → Crossing (Entry setup)
  | .pushRead entry => .push entry
  | .popRead _ entry => .remove entry
  | _ => .none

/-- What an event means for `insert_statements`. -/
def writeCrossing : Event setup → Crossing (Subquery setup)
  | .pushSubquery _ query => .push query
  | .takeSubquery _ query => .remove query
  | _ => .none

end Event

/-- What passed through `conn_queue`, `read_queue` and `insert_statements`. -/
structure Ledger (setup : Setup) where
  connections : Passage ℕ
  reads : Passage (Entry setup)
  subqueries : Passage (Subquery setup)

namespace Ledger

/-- Nothing has gone through a queue. -/
def empty : Ledger setup := ⟨⟨[], []⟩, ⟨[], []⟩, ⟨[], []⟩⟩

/-- What an event does to the three queues is written down. -/
def record (ledger : Ledger setup) (event : Event setup) : Ledger setup where
  connections := ledger.connections.cross event.connCrossing
  reads := ledger.reads.cross event.readCrossing
  subqueries := ledger.subqueries.cross event.writeCrossing

end Ledger

/-- The program of all threads with a ledger beside it. -/
def recorded : Threads.Program (Own setup) (Shared setup × Ledger setup) (Event setup) :=
  Program.noting program fun ledger event next => next = ledger.record event

/-- A state with the ledger of the run that led to it. -/
abbrev RecordedState (setup : Setup) := Threads.State (Own setup) (Shared setup × Ledger setup)

namespace Recorded

abbrev Starts : RecordedState setup → Prop := Blank Pipeline.Starts .empty

abbrev Step : RecordedState setup → Event setup → RecordedState setup → Prop :=
  Threads.Step recorded

abbrev Move (setup : Setup) := Threads.Move (Own setup) (Shared setup × Ledger setup) (Event setup)

abbrev Run : List (Move setup) → RecordedState setup → Prop := Threads.Run Starts recorded

abbrev Reachable : RecordedState setup → Prop := Threads.Reachable Starts recorded

end Recorded

/-- Every reachable state is reached with a ledger of what happened. -/
theorem exists_recorded {state : State setup} (reachable : Reachable state) :
    ∃ ledger, Recorded.Reachable (state.noted ledger) := by
  have total (ledger : Ledger setup) (event : Event setup) : ∃ next, next = ledger.record event :=
    ⟨_, rfl⟩
  exact Reachable.noted total reachable

/-- The connection that was accepted and not pushed. -/
def unpushedConnections : ∀ thread : Thread setup, Own setup thread → Multiset ℕ
  | .handler, own => Handler.connections own
  | .conn _, _ => 0
  | .read _, _ => 0
  | .flush _, _ => 0

/-- The read that was made and not pushed. -/
def unpushedReads : ∀ thread : Thread setup, Own setup thread → Multiset ℕ
  | .handler, _ => 0
  | .conn _, own => ConnWorker.reads own
  | .read _, _ => 0
  | .flush _, _ => 0

/-- The read whose subquery was made and not pushed. -/
def unpushedSubqueries : ∀ thread : Thread setup, Own setup thread → Multiset ℕ
  | .handler, _ => 0
  | .conn _, _ => 0
  | .read _, own => ReadWorker.subqueries own
  | .flush _, _ => 0

/-- A connection is pushed or still with the handler. -/
theorem unpushedConnections_balanced : Threads.Balanced (@recorded setup) unpushedConnections
    (fun shared => (shared.2.connections.pushed : Multiset ℕ))
    (fun shared => Multiset.range shared.1.accepted) := by
  rintro thread own ⟨shared, ledger⟩ event next ⟨after, _⟩ ⟨taken, rfl⟩
  cases thread with
  | handler =>
      cases taken with
      | accept =>
          simp only [unpushedConnections, Handler.connections, Multiset.range_succ,
            ← Multiset.singleton_add, Ledger.record, Event.connCrossing, Passage.cross]
          abel
      | push =>
          simp only [unpushedConnections, Handler.connections, Ledger.record, Event.connCrossing,
            Passage.cross, Passage.push, ← Multiset.coe_add, Multiset.coe_singleton]
          abel
      | _ => rfl
  | conn worker => cases taken <;> rfl
  | read worker => cases taken <;> rfl
  | flush flusher => cases taken <;> rfl

/-- A message is pushed or still with its connection worker. -/
theorem unpushedReads_balanced : Threads.Balanced (@recorded setup) unpushedReads
    (fun shared => (shared.2.reads.pushed.map Entry.read : List ℕ))
    (fun shared => Multiset.range shared.1.returned.length) := by
  rintro thread own ⟨shared, ledger⟩ event next ⟨after, _⟩ ⟨taken, rfl⟩
  cases thread with
  | handler => cases taken <;> rfl
  | conn worker =>
      cases taken with
      | receive =>
          simp only [unpushedReads, ConnWorker.reads, List.length_append, List.length_singleton,
            Multiset.range_succ, ← Multiset.singleton_add, Ledger.record, Event.readCrossing,
            Passage.cross]
          abel
      | push =>
          simp only [unpushedReads, ConnWorker.reads, Ledger.record, Event.readCrossing,
            Passage.cross, Passage.push, List.map_append, List.map_singleton, ← Multiset.coe_add,
            Multiset.coe_singleton]
          abel
      | _ => rfl
  | read worker => cases taken <;> rfl
  | flush flusher => cases taken <;> rfl

/-- A subquery is pushed or still with its read worker. -/
theorem unpushedSubqueries_balanced : Threads.Balanced (@recorded setup) unpushedSubqueries
    (fun shared => origins shared.2.subqueries.pushed)
    (fun shared => (shared.1.turned : Multiset ℕ)) := by
  rintro thread own ⟨shared, ledger⟩ event next ⟨after, _⟩ ⟨taken, rfl⟩
  cases thread with
  | handler => cases taken <;> rfl
  | conn worker => cases taken <;> rfl
  | read worker =>
      cases taken with
      | turn =>
          simp only [unpushedSubqueries, ReadWorker.subqueries, Subquery.ofLog,
            ← Multiset.cons_coe, ← Multiset.singleton_add, Ledger.record, Event.writeCrossing,
            Passage.cross]
          abel
      | push =>
          simp only [unpushedSubqueries, ReadWorker.subqueries, Ledger.record, Event.writeCrossing,
            Passage.cross, Passage.push, origins_append, origins_cons, origins_nil]
          abel
      | _ => rfl
  | flush flusher => cases taken <;> rfl

/-- What nobody holds at the start and every step balances is held by all threads and
the ledger together. -/
theorem sum_of_recorded {weight : ∀ thread : Thread setup, Own setup thread → Multiset ℕ}
    {rest goal : Shared setup × Ledger setup → Multiset ℕ}
    (balanced : Threads.Balanced (@recorded setup) weight rest goal)
    (emptyHanded : ∀ thread, weight thread (startOwn thread) = 0)
    (same : ∀ buffer, rest (startShared buffer, .empty) = goal (startShared buffer, .empty))
    {state : RecordedState setup} (reachable : Recorded.Reachable state) :
    ∑ thread, weight thread (state.own thread) + rest state.shared = goal state.shared := by
  refine balanced.reachable ?_ reachable
  rintro ⟨own, shared, ledger⟩ ⟨⟨buffer, _, isStart⟩, rfl⟩
  obtain ⟨rfl, rfl⟩ := State.mk.inj isStart
  simp only [emptyHanded, Finset.sum_const_zero, zero_add, same]

/-- What a thread still holds is not in the ledger. -/
theorem not_mem_of_sum {weight : ∀ thread : Thread setup, Own setup thread → Multiset ℕ}
    {own : ∀ thread, Own setup thread} {rest goal : Multiset ℕ}
    (sum : ∑ thread, weight thread (own thread) + rest = goal) (distinct : goal.Nodup)
    (thread : Thread setup) {number : ℕ} (holds : number ∈ weight thread (own thread)) :
    number ∉ rest := by
  intro member
  have among : weight thread (own thread) ≤ ∑ other, weight other (own other) :=
    Finset.single_le_sum (fun _ _ => Multiset.zero_le _) (Finset.mem_univ thread)
  rw [← sum, Multiset.nodup_add] at distinct
  exact Multiset.disjoint_left.mp distinct.2.2 (Multiset.mem_of_le among holds) member

/-- A message becomes a subquery at most once. -/
theorem nodup_turned {state : State setup} (reachable : Reachable state) :
    (state.shared.turned : Multiset ℕ).Nodup := by
  have reads := (handedOver reachable).reads
  have distinct := Multiset.nodup_range state.shared.returned.length
  rw [← reads, ← add_assoc] at distinct
  exact (Multiset.nodup_add.mp distinct).2.1

/-- An event pushes nothing that was pushed before. -/
structure AllFresh (state : RecordedState setup) (event : Event setup) : Prop where
  connections : event.connCrossing.Fresh state.shared.2.connections
  reads : event.readCrossing.Fresh state.shared.2.reads
  subqueries : event.writeCrossing.Fresh state.shared.2.subqueries

/-- What is pushed was not pushed before. -/
theorem allFresh {before after : RecordedState setup} {event : Event setup}
    (reachable : Recorded.Reachable before) (step : Recorded.Step before event after) :
    AllFresh before event := by
  obtain ⟨thread, own, next, ⟨shared, ledger⟩, here, ⟨taken, _⟩, rfl⟩ := step.exists_taken
  cases thread with
  | handler =>
      cases taken with
      | push =>
          have sum := sum_of_recorded unpushedConnections_balanced
            (fun thread => by cases thread <;> rfl) (fun _ => rfl) reachable
          have fresh := not_mem_of_sum sum (Multiset.nodup_range _) .handler
            (by rw [here]; exact Multiset.mem_singleton_self _)
          exact ⟨fresh, trivial, trivial⟩
      | _ => exact ⟨trivial, trivial, trivial⟩
  | conn worker =>
      cases taken with
      | push =>
          have sum := sum_of_recorded unpushedReads_balanced
            (fun thread => by cases thread <;> rfl) (fun _ => rfl) reachable
          have fresh := not_mem_of_sum sum (Multiset.nodup_range _) (.conn worker)
            (by rw [here]; exact Multiset.mem_singleton_self _)
          exact ⟨trivial, fun member => fresh (List.mem_map.mpr ⟨_, member, rfl⟩), trivial⟩
      | _ => exact ⟨trivial, trivial, trivial⟩
  | read worker =>
      cases taken with
      | push =>
          have sum := sum_of_recorded unpushedSubqueries_balanced
            (fun thread => by cases thread <;> rfl) (fun _ => rfl) reachable
          have fresh := not_mem_of_sum sum (nodup_turned reachable.bare) (.read worker)
            (by rw [here]; exact Multiset.mem_singleton_self _)
          exact ⟨trivial, trivial, fun member => fresh (List.mem_map.mpr ⟨_, member, rfl⟩)⟩
      | _ => exact ⟨trivial, trivial, trivial⟩
  | flush flusher => cases taken <;> exact ⟨trivial, trivial, trivial⟩

/-- Every event crosses the queues at their fronts. -/
theorem crossings {before after : State setup} {event : Event setup}
    (step : Step before event after) :
    event.connCrossing.AtFront before.shared.conn.queue after.shared.conn.queue ∧
      event.readCrossing.AtFront before.shared.read.queue after.shared.read.queue ∧
      event.writeCrossing.AtFront before.shared.write.queue after.shared.write.queue := by
  obtain ⟨thread, own, next, shared, here, taken, rfl⟩ := step.exists_taken
  have cut {Item : Type} {queue rest : List Item} {item : Item} (front : queue = item :: rest) :
      queue = item :: queue.tail := by rw [front, List.tail_cons]
  cases thread with
  | handler => cases taken <;> exact ⟨rfl, rfl, rfl⟩
  | conn worker =>
      cases taken with
      | pop front => exact ⟨cut front, rfl, rfl⟩
      | _ => exact ⟨rfl, rfl, rfl⟩
  | read worker =>
      cases taken with
      | pop front => exact ⟨rfl, cut front, rfl⟩
      | _ => exact ⟨rfl, rfl, rfl⟩
  | flush flusher =>
      cases taken with
      | drain front => exact ⟨rfl, rfl, cut front⟩
      | _ => exact ⟨rfl, rfl, rfl⟩

/-- The ledger tells what the queues hold. -/
structure AllTracked (state : RecordedState setup) : Prop where
  connections : state.shared.2.connections.Tracked state.shared.1.conn.queue
  reads : state.shared.2.reads.Tracked state.shared.1.read.queue
  subqueries : state.shared.2.subqueries.Tracked state.shared.1.write.queue

/-- The ledger keeps track of the three queues. -/
theorem allTracked {state : RecordedState setup} (reachable : Recorded.Reachable state) :
    AllTracked state := by
  refine Threads.Reachable.invariant ?_ ?_ reachable
  · rintro ⟨own, shared, ledger⟩ ⟨⟨buffer, _, isStart⟩, rfl⟩
    obtain ⟨rfl, rfl⟩ := State.mk.inj isStart
    exact ⟨Passage.tracked_nil, Passage.tracked_nil, Passage.tracked_nil⟩
  · intro before event after reachable tracked step
    have fresh := allFresh reachable step
    obtain ⟨connections, reads, subqueries⟩ := crossings step.bare
    have noted : after.shared.2 = before.shared.2.record event := step.note_effect
    refine ⟨?_, ?_, ?_⟩
    · rw [noted]
      exact tracked.connections.cross fresh.connections connections
    · rw [noted]
      exact tracked.reads.cross fresh.reads reads
    · rw [noted]
      exact tracked.subqueries.cross fresh.subqueries subqueries

end Evenscribe.Pipeline
