import Mathlib.Algebra.Order.BigOperators.Group.Finset
import Evenscribe.Foundation.Noting
import Evenscribe.Pipeline.Handover
import Evenscribe.Pipeline.Schedule

/-!
# Who owns a client descriptor

`accept` opens a descriptor and `delete conn` closes none, nor does anything else
in the program. A descriptor is therefore left without an owner exactly when a
connection worker has finished with its connection (`oneOwner_iff`).
-/

namespace Evenscribe.Pipeline

open Threads

variable {setup : Setup}

/-- The open client descriptors, and the one each connection was given. -/
structure Descriptors where
  opened : Finset ℕ
  given : ℕ → ℕ

namespace Descriptors

/-- What an event does to the descriptors: `accept` opens one that was not open, and
no other call opens or closes any. -/
def Effect (descriptors : Descriptors) : Event setup → Descriptors → Prop
  | .accept connection, next => ∃ fresh, fresh ∉ descriptors.opened ∧
      next = ⟨insert fresh descriptors.opened, Function.update descriptors.given connection fresh⟩
  | _, next => next = descriptors

/-- Every event has an effect on the descriptors: there is always a fresh one. -/
theorem effect_total (descriptors : Descriptors) (event : Event setup) :
    ∃ next, descriptors.Effect event next := by
  cases event with
  | accept connection =>
      obtain ⟨fresh, notOpen⟩ := descriptors.opened.exists_notMem
      exact ⟨_, fresh, notOpen, rfl⟩
  | _ => exact ⟨descriptors, rfl⟩

theorem eq_of_not_accept {descriptors next : Descriptors} {event : Event setup}
    (effect : descriptors.Effect event next) (other : ∀ connection, event ≠ .accept connection) :
    next = descriptors := by
  cases event with
  | accept connection => exact (other connection rfl).elim
  | _ => exact effect

/-- Every descriptor given to the first connections is still open, and no two of them
share one. -/
structure AllOpen (descriptors : Descriptors) (count : ℕ) : Prop where
  opened : descriptors.opened = (Finset.range count).image descriptors.given
  distinct : Set.InjOn descriptors.given (Finset.range count)

/-- What is accepted is open too. -/
theorem AllOpen.accept {descriptors : Descriptors} {count fresh : ℕ}
    (allOpen : AllOpen descriptors count) (notOpen : fresh ∉ descriptors.opened) :
    AllOpen ⟨insert fresh descriptors.opened, Function.update descriptors.given count fresh⟩
      (count + 1) := by
  obtain ⟨opened, distinct⟩ := allOpen
  have kept : ∀ older ∈ Finset.range count,
      Function.update descriptors.given count fresh older = descriptors.given older :=
    fun older inside => Function.update_of_ne (Finset.mem_range.mp inside).ne _ _
  have image : (Finset.range count).image (Function.update descriptors.given count fresh) =
      descriptors.opened := by
    rw [opened]
    exact Finset.image_congr kept
  constructor
  · simp only [Finset.range_add_one, Finset.image_insert, image, Function.update_self]
  · rw [Finset.range_add_one, Finset.coe_insert, Set.injOn_insert (by simp)]
    constructor
    · intro first inside second insideToo equal
      simp only [kept first inside, kept second insideToo] at equal
      exact distinct inside insideToo equal
    · simp only [← Finset.coe_image, image, Function.update_self]
      exact notOpen

end Descriptors

/-- The program of all threads with the descriptors of its clients. -/
def described : Threads.Program (Own setup) (Shared setup × Descriptors) (Event setup) :=
  Program.noting program Descriptors.Effect

/-- A state with the open descriptors. -/
abbrev DescribedState (setup : Setup) := Threads.State (Own setup) (Shared setup × Descriptors)

namespace Described

abbrev Starts : DescribedState setup → Prop := Blank Pipeline.Starts ⟨∅, id⟩

abbrev Move (setup : Setup) := Threads.Move (Own setup) (Shared setup × Descriptors) (Event setup)

abbrev Run : List (Move setup) → DescribedState setup → Prop := Threads.Run Starts described

abbrev Reachable : DescribedState setup → Prop := Threads.Reachable Starts described

end Described

/-- The connections that are live: the one `handle_message` hands over, those in
`conn_queue` and those that a connection worker serves. -/
def live (state : DescribedState setup) : Multiset ℕ :=
  Handler.connections (state.own .handler) + state.shared.1.conn.queue +
    ∑ worker, ConnWorker.connections (state.own (.conn worker))

/-- Each open descriptor belongs to one live connection, which is in one place, and
there are no more than these places have room for. -/
structure OneOwner (state : DescribedState setup) : Prop where
  owner : ∀ descriptor ∈ state.shared.2.opened,
    ∃! connection, connection ∈ live state ∧ state.shared.2.given connection = descriptor
  places : ∀ connection ∈ live state, (live state).count connection = 1
  bound : state.shared.2.opened.card ≤
    state.shared.1.conn.queue.length + setup.connThreads + 1

/-- Connections are numbered as they are accepted. -/
theorem accepted_of_step {before after : State setup} {event : Event setup}
    (step : Step before event after) :
    (∃ connection, event = .accept connection ∧ before.shared.accepted = connection ∧
        after.shared.accepted = connection + 1) ∨
      ((∀ connection, event ≠ .accept connection) ∧
        after.shared.accepted = before.shared.accepted) := by
  obtain ⟨thread, own, next, shared, here, taken, rfl⟩ := step.exists_taken
  cases thread with
  | handler =>
      cases taken with
      | accept => exact .inl ⟨_, rfl, rfl, rfl⟩
      | _ => exact .inr ⟨nofun, rfl⟩
  | conn worker => cases taken <;> exact .inr ⟨nofun, rfl⟩
  | read worker => cases taken <;> exact .inr ⟨nofun, rfl⟩
  | flush flusher => cases taken <;> exact .inr ⟨nofun, rfl⟩

/-- A worker that is done with a connection leaves it among the finished ones. -/
theorem finished_of_step {before after : State setup} {event : Event setup}
    (step : Step before event after) :
    (∃ worker connection, event = .finish worker connection ∧
        after.shared.finished = connection :: before.shared.finished) ∨
      ((∀ worker connection, event ≠ .finish worker connection) ∧
        after.shared.finished = before.shared.finished) := by
  obtain ⟨thread, own, next, shared, here, taken, rfl⟩ := step.exists_taken
  cases thread with
  | handler => cases taken <;> exact .inr ⟨nofun, rfl⟩
  | conn worker =>
      cases taken with
      | finish => exact .inl ⟨_, _, rfl, rfl⟩
      | _ => exact .inr ⟨nofun, rfl⟩
  | read worker => cases taken <;> exact .inr ⟨nofun, rfl⟩
  | flush flusher => cases taken <;> exact .inr ⟨nofun, rfl⟩

/-- The descriptors of all connections accepted so far are open. -/
def KeepsOpen (state : DescribedState setup) : Prop :=
  state.shared.2.AllOpen state.shared.1.accepted

/-- No descriptor that was accepted is ever closed. -/
theorem keepsOpen {state : DescribedState setup} (reachable : Described.Reachable state) :
    KeepsOpen state := by
  refine Threads.Reachable.invariant ?_ ?_ reachable
  · rintro ⟨own, shared, descriptors⟩ ⟨⟨buffer, _, isStart⟩, rfl⟩
    obtain ⟨rfl, rfl⟩ := State.mk.inj isStart
    exact ⟨rfl, by simp [startShared]⟩
  · intro before event after _ allOpen step
    have effect := step.note_effect
    rcases accepted_of_step step.bare with ⟨connection, rfl, count, counted⟩ | ⟨other, same⟩
    · obtain ⟨fresh, notOpen, noted⟩ := effect
      have countBefore : before.shared.1.accepted = connection := count
      have countAfter : after.shared.1.accepted = connection + 1 := counted
      rw [KeepsOpen, countBefore] at allOpen
      rw [KeepsOpen, noted, countAfter]
      exact allOpen.accept notOpen
    · have count : after.shared.1.accepted = before.shared.1.accepted := same
      rw [KeepsOpen, Descriptors.eq_of_not_accept effect other, count]
      exact allOpen

/-- A connection that was accepted is live or finished. -/
theorem live_add_finished {state : DescribedState setup} (reachable : Described.Reachable state) :
    live state + state.shared.1.finished = Multiset.range state.shared.1.accepted := by
  have all := (handedOver reachable.bare).connections
  rw [← show _ = Multiset.range state.shared.1.accepted from all]
  simp only [live, State.bare]
  abel

/-- A worker holds at most one connection. -/
theorem card_connections_le (worker : ConnWorker) : (ConnWorker.connections worker).card ≤ 1 := by
  cases worker <;> simp [ConnWorker.connections]

/-- Live connections are queued, or in the hands of a thread. -/
theorem card_live_le (state : DescribedState setup) :
    (live state).card ≤ state.shared.1.conn.queue.length + setup.connThreads + 1 := by
  have handler : (Handler.connections (state.own .handler)).card ≤ 1 := by
    cases Thread.handler |> state.own <;> simp [Handler.connections]
  have workers : ∑ worker, (ConnWorker.connections (state.own (.conn worker))).card ≤
      setup.connThreads := by
    have each := Finset.sum_le_card_nsmul Finset.univ
      (fun worker => (ConnWorker.connections (state.own (.conn worker))).card) 1
      fun worker _ => card_connections_le _
    simpa using each
  simp only [live, Multiset.card_add, Multiset.card_sum, Multiset.coe_card]
  omega

/-- What was accepted is live or finished. -/
theorem accepted_iff {state : DescribedState setup} (reachable : Described.Reachable state)
    {connection : ℕ} : connection ∈ Finset.range state.shared.1.accepted ↔
      connection ∈ live state ∨ connection ∈ state.shared.1.finished := by
  rw [Finset.mem_range, ← Multiset.mem_range, ← live_add_finished reachable, Multiset.mem_add,
    Multiset.mem_coe]

/-- A connection that a thread has is not finished. -/
theorem not_finished_of_live {state : DescribedState setup} (reachable : Described.Reachable state)
    {connection : ℕ} (lives : connection ∈ live state) :
    connection ∉ state.shared.1.finished := by
  have apart := Multiset.nodup_range state.shared.1.accepted
  rw [← live_add_finished reachable, Multiset.nodup_add] at apart
  intro gone
  exact Multiset.disjoint_left.mp apart.2.2 lives (Multiset.mem_coe.mpr gone)

/-- Every descriptor has its owner exactly while no connection was finished. -/
theorem oneOwner_iff_finished {state : DescribedState setup}
    (reachable : Described.Reachable state) :
    OneOwner state ↔ state.shared.1.finished = [] := by
  obtain ⟨opened, distinct⟩ := keepsOpen reachable
  have all := live_add_finished reachable
  have among {connection : ℕ} (member : connection ∈ live state) :
      connection ∈ Finset.range state.shared.1.accepted :=
    (accepted_iff reachable).mpr (.inl member)
  constructor
  · intro owned
    by_contra some
    obtain ⟨connection, rest, finished⟩ := List.exists_cons_of_ne_nil some
    have gone : connection ∈ state.shared.1.finished := by
      rw [finished]
      exact List.mem_cons_self
    have accepted := (accepted_iff reachable).mpr (.inr gone)
    have stillOpen : state.shared.2.given connection ∈ state.shared.2.opened := by
      rw [opened]
      exact Finset.mem_image_of_mem _ accepted
    obtain ⟨owner, ⟨lives, same⟩, _⟩ := owned.owner _ stillOpen
    obtain rfl := distinct (among lives) accepted same
    exact not_finished_of_live reachable lives gone
  · intro nothing
    rw [nothing, Multiset.coe_nil, add_zero] at all
    refine ⟨?_, ?_, ?_⟩
    · intro descriptor isOpen
      rw [opened, Finset.mem_image] at isOpen
      obtain ⟨connection, accepted, rfl⟩ := isOpen
      refine ⟨connection, ⟨?_, rfl⟩, fun other ⟨lives, same⟩ => ?_⟩
      · rw [all]
        exact Multiset.mem_range.mpr (Finset.mem_range.mp accepted)
      · exact distinct (among lives) accepted same
    · intro connection lives
      have once := Multiset.nodup_range state.shared.1.accepted
      rw [← all] at once
      exact Multiset.count_eq_one_of_mem once lives
    · have count := congrArg Multiset.card all
      rw [Multiset.card_range] at count
      have images : state.shared.2.opened.card ≤ state.shared.1.accepted := by
        rw [opened]
        exact Finset.card_image_le.trans_eq (Finset.card_range _)
      have room := card_live_le state
      omega

theorem finished_of_starts {state : DescribedState setup} (starts : Described.Starts state) :
    state.shared.1.finished = [] := by
  obtain ⟨⟨buffer, _, isStart⟩, _⟩ := starts
  have same : state.shared.1 = startShared buffer := (State.mk.inj isStart).2
  rw [same]
  rfl

/-- **One owner.** In every state of a run each open descriptor has its owner exactly
when no connection worker finishes with a connection. -/
theorem oneOwner_iff {moves : List (Described.Move setup)} {state : DescribedState setup}
    (run : Described.Run moves state) :
    (∀ move ∈ moves, OneOwner move.after) ↔
      ∀ move ∈ moves, ∀ worker connection, move.event ≠ .finish worker connection := by
  refine run.forall_iff ?_ ?_
  · intro state starts
    exact (oneOwner_iff_finished (.of_start starts)).mpr (finished_of_starts starts)
  · intro before event after reachable owned step
    have nothing := (oneOwner_iff_finished reachable).mp owned
    rw [oneOwner_iff_finished (reachable.step step)]
    rcases finished_of_step step.bare with ⟨worker, connection, rfl, finished⟩ | ⟨other, same⟩
    · have some : after.shared.1.finished = connection :: before.shared.1.finished := finished
      refine iff_of_false ?_ fun never => never worker connection rfl
      rw [some]
      exact List.cons_ne_nil _ _
    · have kept : after.shared.1.finished = before.shared.1.finished := same
      exact iff_of_true (kept.trans nothing) other

/-- The first connection is accepted, served and read to its end. -/
theorem exists_finished (setup : Setup) (worker : Fin setup.connThreads)
    (reader : Fin setup.readThreads) :
    ∃ state : DescribedState setup, Described.Reachable state ∧ state.shared.1.finished ≠ [] := by
  obtain ⟨start, reachable, serving, _, _⟩ := exists_serving setup worker reader
  obtain ⟨connection, reading⟩ := serving.reading
  have finishes : program (.conn worker) (ConnWorker.reading connection) start.shared
      (.finish worker connection) ConnWorker.locking
      { start.shared with finished := connection :: start.shared.finished } := ConnStep.finish
  have step := Threads.Step.of_own reading finishes
  obtain ⟨descriptors, described⟩ :=
    Reachable.noted Descriptors.effect_total (reachable.step step)
  exact ⟨_, described, List.cons_ne_nil _ _⟩

/-- A run that leaves a descriptor without an owner has a worker that finished. -/
theorem oneOwner_iff_leak :
    ∃ (moves : List (Described.Move (.run .postgres .wrapping))) (state : DescribedState _),
      Described.Run moves state ∧ ¬ OneOwner state ∧
        ¬ ∀ move ∈ moves, ∀ worker connection, move.event ≠ .finish worker connection := by
  obtain ⟨state, ⟨moves, run⟩, finished⟩ :=
    exists_finished (.run .postgres .wrapping) ⟨0, by decide⟩ ⟨0, by decide⟩
  have leaks : ¬ OneOwner state := fun owned =>
    finished ((oneOwner_iff_finished run.reachable).mp owned)
  refine ⟨moves, state, run, leaks, fun never => leaks ?_⟩
  have all := (oneOwner_iff run).mpr never
  cases run with
  | start starts => exact (oneOwner_iff_finished (.of_start starts)).mpr (finished_of_starts starts)
  | step earlier step => exact all _ (List.mem_cons_self ..)

/-- After the first connection is served its descriptor stays open and nobody owns it. -/
theorem not_oneOwner :
    ¬ ∀ (setup : Setup) (state : DescribedState setup), Described.Reachable state →
      OneOwner state := by
  intro always
  obtain ⟨state, reachable, finished⟩ :=
    exists_finished (.run .postgres .wrapping) ⟨0, by decide⟩ ⟨0, by decide⟩
  exact finished ((oneOwner_iff_finished reachable).mp (always _ state reachable))

end Evenscribe.Pipeline
