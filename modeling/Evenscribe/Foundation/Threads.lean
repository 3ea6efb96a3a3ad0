import Mathlib.Algebra.BigOperators.Group.Finset.Basic
import Mathlib.Data.Fintype.BigOperators
import Mathlib.Tactic.Abel
import Mathlib.Tactic.Common

/-!
# Threads over shared state

A program says what each thread may do from its own state and the shared one. A
system's state holds every thread's own state; one step is a step of one thread.
Invariants are shown of all runs from what a single step does, counts over all
threads from what the stepping thread contributes, and a run of one thread on
its own is a run of the system.
-/

namespace Threads

variable {Thread : Type} [DecidableEq Thread] {Own : Thread → Type} {Shared Event : Type}

/-- What each thread may do: its own state and the shared one, before and after. -/
abbrev Program (Own : Thread → Type) (Shared Event : Type) :=
  ∀ thread, Own thread → Shared → Event → Own thread → Shared → Prop

/-- What every thread keeps for itself, and what they share. -/
structure State (Own : Thread → Type) (Shared : Type) where
  own : ∀ thread, Own thread
  shared : Shared

/-- One thread takes a step. -/
inductive Step (program : Program Own Shared Event) :
    State Own Shared → Event → State Own Shared → Prop where
  | take {state : State Own Shared} (thread : Thread) {event : Event} {own : Own thread}
      {shared : Shared} (taken : program thread (state.own thread) state.shared event own shared) :
      Step program state event ⟨Function.update state.own thread own, shared⟩

/-- A step that was taken. -/
structure Move (Own : Thread → Type) (Shared Event : Type) where
  before : State Own Shared
  event : Event
  after : State Own Shared

/-- A run with its moves, the last one first, and the state it ends in. -/
inductive Run (start : State Own Shared → Prop) (program : Program Own Shared Event) :
    List (Move Own Shared Event) → State Own Shared → Prop where
  | start {state : State Own Shared} (starts : start state) : Run start program [] state
  | step {moves : List (Move Own Shared Event)} {before after : State Own Shared} {event : Event}
      (run : Run start program moves before) (step : Step program before event after) :
      Run start program (⟨before, event, after⟩ :: moves) after

/-- Some run ends in the state. -/
def Reachable (start : State Own Shared → Prop) (program : Program Own Shared Event)
    (state : State Own Shared) : Prop :=
  ∃ moves, Run start program moves state

section Steps

variable {program : Program Own Shared Event} {before after : State Own Shared} {event : Event}

/-- The thread that took a step, and what the step did to its own state. -/
theorem Step.exists_taken (step : Step program before event after) :
    ∃ thread own next shared, before.own thread = own ∧
      program thread own before.shared event next shared ∧
      after = ⟨Function.update before.own thread next, shared⟩ := by
  obtain ⟨thread, taken⟩ := step
  exact ⟨thread, _, _, _, rfl, taken, rfl⟩

/-- A step of a thread whose own state is known. -/
theorem Step.of_own {all : ∀ thread, Own thread} {thread : Thread} {own next : Own thread}
    {shared final : Shared} (here : all thread = own)
    (taken : program thread own shared event next final) :
    Step program ⟨all, shared⟩ event ⟨Function.update all thread next, final⟩ := by
  subst here
  exact .take thread taken

/-- Each thread took the step or kept its own state. -/
theorem Step.taken_or_kept (step : Step program before event after) (thread : Thread) :
    (∃ own next shared, before.own thread = own ∧ after.own thread = next ∧ after.shared = shared ∧
      program thread own before.shared event next shared) ∨
      after.own thread = before.own thread := by
  obtain ⟨actor, own, next, shared, rfl, taken, rfl⟩ := step.exists_taken
  by_cases same : thread = actor
  · subst same
    exact .inl ⟨_, _, _, rfl, Function.update_self .., rfl, taken⟩
  · exact .inr (Function.update_of_ne same ..)

/-- What holds of every thread is kept by a step, if the stepping thread keeps it for
itself and for every other one. -/
theorem Step.forall_kept {holds : ∀ thread, Own thread → Shared → Prop}
    (step : Step program before event after)
    (all : ∀ thread, holds thread (before.own thread) before.shared)
    (mine : ∀ thread own next shared, before.own thread = own →
      program thread own before.shared event next shared →
        holds thread own before.shared → holds thread next shared)
    (others : ∀ thread own next shared, before.own thread = own →
      program thread own before.shared event next shared →
        ∀ other, other ≠ thread → holds other (before.own other) before.shared →
          holds other (before.own other) shared) :
    ∀ thread, holds thread (after.own thread) after.shared := by
  obtain ⟨thread, own, next, shared, here, taken, rfl⟩ := step.exists_taken
  intro other
  by_cases same : other = thread
  · subst same
    simp only [Function.update_self]
    exact mine other own next shared here taken (here ▸ all other)
  · simp only [Function.update_of_ne same]
    exact others thread own next shared here taken other same (all other)

end Steps

section Runs

variable {start : State Own Shared → Prop} {program : Program Own Shared Event}
  {moves : List (Move Own Shared Event)} {state : State Own Shared}

theorem Run.reachable (run : Run start program moves state) : Reachable start program state :=
  ⟨moves, run⟩

theorem Reachable.of_start (starts : start state) : Reachable start program state :=
  ⟨[], .start starts⟩

theorem Reachable.step {after : State Own Shared} {event : Event}
    (reachable : Reachable start program state) (step : Step program state event after) :
    Reachable start program after := by
  obtain ⟨moves, run⟩ := reachable
  exact ⟨_, .step run step⟩

/-- What holds at the start and is kept by every step holds at the end of every run. -/
theorem Reachable.invariant {holds : State Own Shared → Prop}
    (initial : ∀ state, start state → holds state)
    (kept : ∀ before event after, Reachable start program before → holds before →
      Step program before event after → holds after)
    (reachable : Reachable start program state) : holds state := by
  obtain ⟨moves, run⟩ := reachable
  induction run with
  | start starts => exact initial _ starts
  | step run step ih => exact kept _ _ _ run.reachable ih step

/-- Every move of a run is a step from a reachable state. -/
theorem Run.of_mem (run : Run start program moves state) {move : Move Own Shared Event}
    (member : move ∈ moves) :
    Reachable start program move.before ∧ Step program move.before move.event move.after := by
  induction run with
  | start _ => exact (List.not_mem_nil member).elim
  | step run step ih =>
      rcases List.mem_cons.mp member with rfl | earlier
      · exact ⟨run.reachable, step⟩
      · exact ih earlier

/-- In a run whose moves all meet a condition, what holds at the start and is kept by
every such move holds at the end and before every move. -/
theorem Run.invariant_of_forall {holds : State Own Shared → Prop}
    {allowed : Move Own Shared Event → Prop} (initial : ∀ state, start state → holds state)
    (kept : ∀ before event after, Reachable start program before → holds before →
      Step program before event after → allowed ⟨before, event, after⟩ → holds after)
    (run : Run start program moves state) (all : ∀ move ∈ moves, allowed move) :
    holds state ∧ ∀ move ∈ moves, holds move.before := by
  induction run with
  | start starts => exact ⟨initial _ starts, nofun⟩
  | step run step ih =>
      obtain ⟨here, earlier⟩ := ih fun move member => all move (List.mem_cons_of_mem _ member)
      refine ⟨kept _ _ _ run.reachable here step (all _ (List.mem_cons_self ..)), ?_⟩
      exact List.forall_mem_cons.mpr ⟨here, earlier⟩

/-- When a step keeps a property exactly if it meets a condition, a run keeps it
throughout exactly if all its moves do. -/
theorem Run.forall_iff {holds : State Own Shared → Prop} {allowed : Move Own Shared Event → Prop}
    (initial : ∀ state, start state → holds state)
    (kept : ∀ before event after, Reachable start program before → holds before →
      Step program before event after → (holds after ↔ allowed ⟨before, event, after⟩))
    (run : Run start program moves state) :
    (∀ move ∈ moves, holds move.after) ↔ ∀ move ∈ moves, allowed move := by
  have both : ((∀ move ∈ moves, holds move.after) ↔ ∀ move ∈ moves, allowed move) ∧
      ((∀ move ∈ moves, holds move.after) → holds state) := by
    induction run with
    | start starts => exact ⟨⟨fun _ => nofun, fun _ => nofun⟩, fun _ => initial _ starts⟩
    | step run step ih =>
        refine ⟨?_, fun all => all _ (List.mem_cons_self ..)⟩
        rw [List.forall_mem_cons, List.forall_mem_cons]
        constructor
        · intro ⟨here, earlier⟩
          exact ⟨(kept _ _ _ run.reachable (ih.2 earlier) step).mp here, ih.1.mp earlier⟩
        · intro ⟨here, earlier⟩
          have before := ih.1.mpr earlier
          exact ⟨(kept _ _ _ run.reachable (ih.2 before) step).mpr here, before⟩
  exact both.1

end Runs

section Counts

variable [Fintype Thread] {Amount : Type}

/-- Changing one thread's own state changes a sum over all threads by what that
thread contributes. -/
theorem sum_update [AddCommMonoid Amount] (weight : ∀ thread, Own thread → Amount)
    (own : ∀ thread, Own thread) (thread : Thread) (next : Own thread) :
    ∃ rest, ∑ other, weight other (own other) = weight thread (own thread) + rest ∧
      ∑ other, weight other (Function.update own thread next other) =
        weight thread next + rest := by
  refine ⟨∑ other ∈ Finset.univ.erase thread, weight other (own other), ?_, ?_⟩
  · exact (Finset.add_sum_erase _ _ (Finset.mem_univ thread)).symm
  · rw [← Finset.add_sum_erase _ _ (Finset.mem_univ thread), Function.update_self]
    refine congrArg _ (Finset.sum_congr rfl fun other member => ?_)
    rw [Function.update_of_ne (Finset.ne_of_mem_erase member)]

/-- A step changes what the stepping thread and the shared state hold together by what
it changes the goal. -/
def Balanced [Add Amount] (program : Program Own Shared Event)
    (weight : ∀ thread, Own thread → Amount) (rest goal : Shared → Amount) : Prop :=
  ∀ thread own shared event next after, program thread own shared event next after →
    weight thread next + rest after + goal shared = weight thread own + rest shared + goal after

variable [AddCancelCommMonoid Amount] {program : Program Own Shared Event}
  {weight : ∀ thread, Own thread → Amount} {rest goal : Shared → Amount}

/-- All threads and the shared state go on holding what the goal says. -/
theorem Balanced.step (balanced : Balanced program weight rest goal)
    {before after : State Own Shared} {event : Event} (step : Step program before event after)
    (holds :
      ∑ thread, weight thread (before.own thread) + rest before.shared = goal before.shared) :
    ∑ thread, weight thread (after.own thread) + rest after.shared = goal after.shared := by
  obtain ⟨thread, own, next, shared, rfl, taken, rfl⟩ := step.exists_taken
  have kept := balanced _ _ _ _ _ _ taken
  obtain ⟨others, old, new⟩ := sum_update weight before.own thread next
  rw [old] at holds
  rw [new]
  apply add_right_cancel (b := goal before.shared)
  calc
    weight thread next + others + rest shared + goal before.shared
      = weight thread next + rest shared + goal before.shared + others := by abel
    _ = weight thread (before.own thread) + rest before.shared + goal shared + others := by
      rw [kept]
    _ = goal shared + (weight thread (before.own thread) + others + rest before.shared) := by abel
    _ = goal shared + goal before.shared := by rw [holds]

/-- What balances at the start and in every step balances in every reachable state. -/
theorem Balanced.reachable (balanced : Balanced program weight rest goal)
    {start : State Own Shared → Prop} {state : State Own Shared}
    (initial : ∀ state, start state →
      ∑ thread, weight thread (state.own thread) + rest state.shared = goal state.shared)
    (reachable : Reachable start program state) :
    ∑ thread, weight thread (state.own thread) + rest state.shared = goal state.shared :=
  reachable.invariant initial fun _ _ _ _ holds step => balanced.step step holds

end Counts

/-- A run of one thread while the others stand still. -/
inductive OwnRun (program : Program Own Shared Event) (thread : Thread) :
    Own thread → Shared → Own thread → Shared → Prop where
  | refl (own : Own thread) (shared : Shared) : OwnRun program thread own shared own shared
  | step {own next last : Own thread} {shared middle final : Shared} {event : Event}
      (taken : program thread own shared event next middle)
      (rest : OwnRun program thread next middle last final) :
      OwnRun program thread own shared last final

/-- A step with its event forgotten. -/
def Leads (program : Program Own Shared Event) : State Own Shared → State Own Shared → Prop :=
  Relation.ReflTransGen fun before after => ∃ event, Step program before event after

section Leads

variable {program : Program Own Shared Event} {thread : Thread}

omit [DecidableEq Thread] in
/-- Runs of one thread are composed. -/
theorem OwnRun.trans {own next last : Own thread} {shared middle final : Shared}
    (first : OwnRun program thread own shared next middle)
    (second : OwnRun program thread next middle last final) :
    OwnRun program thread own shared last final := by
  induction first with
  | refl => exact second
  | step taken _ ih => exact .step taken (ih second)

/-- A run of one thread is a run of the system. -/
theorem OwnRun.leads {own next : Own thread} {shared final : Shared}
    (run : OwnRun program thread own shared next final) (all : ∀ thread, Own thread)
    (here : all thread = own) :
    Leads program ⟨all, shared⟩ ⟨Function.update all thread next, final⟩ := by
  induction run generalizing all with
  | refl own shared =>
      subst here
      rw [Function.update_eq_self]
      exact .refl
  | step taken _ ih =>
      have later := ih (Function.update all thread _) (Function.update_self ..)
      rw [Function.update_idem] at later
      exact .head ⟨_, .of_own here taken⟩ later

/-- What a reachable state leads to is reachable. -/
theorem Reachable.leads {start : State Own Shared → Prop} {before after : State Own Shared}
    (reachable : Reachable start program before) (leads : Leads program before after) :
    Reachable start program after := by
  induction leads with
  | refl => exact reachable
  | tail _ step ih =>
      obtain ⟨event, step⟩ := step
      exact ih.step step

/-- A reachable state is where a start leads to. -/
theorem Reachable.exists_start {start : State Own Shared → Prop} {state : State Own Shared}
    (reachable : Reachable start program state) :
    ∃ first, start first ∧ Leads program first state := by
  obtain ⟨moves, run⟩ := reachable
  induction run with
  | start starts => exact ⟨_, starts, .refl⟩
  | step _ step ih =>
      obtain ⟨first, starts, leads⟩ := ih
      exact ⟨first, starts, leads.tail ⟨_, step⟩⟩

/-- What a program can do, a program that can do more can do. -/
theorem Leads.mono {more : Program Own Shared Event}
    (within : ∀ thread own shared event next after, program thread own shared event next after →
      more thread own shared event next after)
    {before after : State Own Shared} (leads : Leads program before after) :
    Leads more before after := by
  induction leads with
  | refl => exact .refl
  | tail _ step ih =>
      obtain ⟨event, thread, taken⟩ := step
      exact ih.tail ⟨event, .take thread (within _ _ _ _ _ _ taken)⟩

/-- What every step keeps is kept on the way. -/
theorem Leads.invariant {holds : State Own Shared → Prop} {before after : State Own Shared}
    (leads : Leads program before after) (initial : holds before)
    (kept : ∀ before event after, holds before → Step program before event after → holds after) :
    holds after := by
  induction leads with
  | refl => exact initial
  | tail _ step ih =>
      obtain ⟨event, step⟩ := step
      exact kept _ _ _ ih step

/-- When every thread can come to rest by itself, all of them can. -/
theorem exists_resting [Fintype Thread] {holds : State Own Shared → Prop}
    {rests : ∀ thread, Own thread → Prop}
    (able : ∀ state, holds state → ∀ thread, ∃ next final,
      OwnRun program thread (state.own thread) state.shared next final ∧ rests thread next ∧
        holds ⟨Function.update state.own thread next, final⟩)
    {state : State Own Shared} (initial : holds state) :
    ∃ after, Leads program state after ∧ holds after ∧
      ∀ thread, rests thread (after.own thread) := by
  have some (threads : Finset Thread) : ∃ after, Leads program state after ∧ holds after ∧
      ∀ thread ∈ threads, rests thread (after.own thread) := by
    induction threads using Finset.induction_on with
    | empty => exact ⟨state, .refl, initial, nofun⟩
    | insert thread others _ ih =>
        obtain ⟨middle, leads, kept, resting⟩ := ih
        obtain ⟨next, final, run, rest, keptNext⟩ := able middle kept thread
        refine ⟨_, leads.trans (run.leads middle.own rfl), keptNext, ?_⟩
        refine Finset.forall_mem_insert .. |>.mpr ⟨?_, fun other member => ?_⟩
        · simp only [Function.update_self]
          exact rest
        · by_cases same : other = thread
          · subst same
            simp only [Function.update_self]
            exact rest
          · simp only [Function.update_of_ne same]
            exact resting other member
  obtain ⟨after, leads, kept, resting⟩ := some Finset.univ
  exact ⟨after, leads, kept, fun thread => resting thread (Finset.mem_univ thread)⟩

end Leads

end Threads
