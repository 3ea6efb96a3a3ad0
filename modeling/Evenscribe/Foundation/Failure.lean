import Mathlib.Tactic.Common

/-!
# Systems that a failure ends

A process goes on step by step until something fails. A failure ends it: nothing
happens afterwards, and what remains of its last state is only what is remembered
of it.
-/

namespace Failure

universe u v w

variable {State : Type u} {Event : Type v} {Fault : Type w}

/-- A program that runs, or the state in which it ended. -/
inductive Process (State : Type u) where
  | running (state : State)
  | ended (last : State)

/-- What an event comes to. -/
inductive Outcome (Event : Type v) (Fault : Type w) where
  | done (event : Event)
  | failed (fault : Fault)

/-- The last state in which the process ran. -/
def Process.last : Process State → State
  | .running state => state
  | .ended state => state

/-- A process goes on, or what can fail in its state fails. -/
inductive Step (step : State → Event → State → Prop) (fails : State → Fault → Prop) :
    Process State → Outcome Event Fault → Process State → Prop where
  | goOn {before after : State} {event : Event} (taken : step before event after) :
      Step step fails (.running before) (.done event) (.running after)
  | fail {state : State} {fault : Fault} (occurs : fails state fault) :
      Step step fails (.running state) (.failed fault) (.ended state)

/-- Some run of the process ends in the state. -/
inductive Reachable (start : State → Prop) (step : State → Event → State → Prop)
    (fails : State → Fault → Prop) : Process State → Prop where
  | start {state : State} (starts : start state) : Reachable start step fails (.running state)
  | step {before after : Process State} {outcome : Outcome Event Fault}
      (reachable : Reachable start step fails before)
      (taken : Step step fails before outcome after) :
      Reachable start step fails after

variable {start : State → Prop} {step : State → Event → State → Prop}
  {fails : State → Fault → Prop}

/-- Nothing happens after a failure. -/
theorem not_step_ended (last : State) (outcome : Outcome Event Fault) (next : Process State) :
    ¬ Step step fails (.ended last) outcome next :=
  nofun

/-- What holds at the start and is kept by every step holds of the last running state. -/
theorem Reachable.invariant {holds : State → Prop} (initial : ∀ state, start state → holds state)
    (kept : ∀ before event after, holds before → step before event after → holds after)
    {process : Process State} (reachable : Reachable start step fails process) :
    holds process.last := by
  induction reachable with
  | start starts => exact initial _ starts
  | step _ taken ih =>
      cases taken with
      | goOn taken => exact kept _ _ _ ih taken
      | fail _ => exact ih

/-- A process ends only by a failure. -/
theorem Reachable.exists_fault {last : State}
    (reachable : Reachable start step fails (.ended last)) : ∃ fault, fails last fault := by
  cases reachable with
  | step _ taken =>
      cases taken with
      | fail occurs => exact ⟨_, occurs⟩

end Failure
