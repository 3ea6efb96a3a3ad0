import Evenscribe.Foundation.Threads

/-!
# Notes beside a program

A note is state that no thread reads: each event may change it, and nothing the
program does depends on it. A run with notes is a run of the program with the
notes forgotten, and every reachable state can be reached with notes taken on
the way.
-/

namespace Threads

variable {Thread : Type} [DecidableEq Thread] {Own : Thread → Type} {Shared Event Note : Type}

/-- The program with a note beside the shared state. `effect` says what an event does
to the note. -/
def Program.noting (program : Program Own Shared Event) (effect : Note → Event → Note → Prop) :
    Program Own (Shared × Note) Event :=
  fun thread own shared event next after =>
    program thread own shared.1 event next after.1 ∧ effect shared.2 event after.2

/-- A state with its note forgotten. -/
def State.bare (state : State Own (Shared × Note)) : State Own Shared :=
  ⟨state.own, state.shared.1⟩

/-- A state with a note beside it. -/
def State.noted (state : State Own Shared) (note : Note) : State Own (Shared × Note) :=
  ⟨state.own, (state.shared, note)⟩

/-- A start of the program with a blank note. -/
def Blank (start : State Own Shared → Prop) (blank : Note) (state : State Own (Shared × Note)) :
    Prop :=
  start state.bare ∧ state.shared.2 = blank

variable {program : Program Own Shared Event} {effect : Note → Event → Note → Prop}

/-- A step with notes is a step without them. -/
theorem Step.bare {before after : State Own (Shared × Note)} {event : Event}
    (step : Step (program.noting effect) before event after) :
    Step program before.bare event after.bare := by
  obtain ⟨thread, taken, _⟩ := step
  exact .take thread taken

/-- A step changes the notes as its event says. -/
theorem Step.note_effect {before after : State Own (Shared × Note)} {event : Event}
    (step : Step (program.noting effect) before event after) :
    effect before.shared.2 event after.shared.2 := by
  obtain ⟨thread, _, noted⟩ := step
  exact noted

/-- A step can be taken with notes when its event has an effect on them. -/
theorem Step.noted {before after : State Own Shared} {event : Event} {note next : Note}
    (step : Step program before event after) (noted : effect note event next) :
    Step (program.noting effect) (before.noted note) event (after.noted next) := by
  obtain ⟨thread, taken⟩ := step
  exact Step.take thread (⟨taken, noted⟩ : program.noting effect thread _ (_, note) _ _ (_, next))

variable {start : State Own Shared → Prop} {blank : Note}

/-- Notes change nothing of what can be reached. -/
theorem Reachable.bare {state : State Own (Shared × Note)}
    (reachable : Reachable (Blank start blank) (program.noting effect) state) :
    Reachable start program state.bare := by
  obtain ⟨moves, run⟩ := reachable
  induction run with
  | start starts => exact .of_start starts.1
  | step _ step ih => exact ih.step step.bare

/-- When every event can be noted, every reachable state is reached with some note. -/
theorem Reachable.noted (total : ∀ note event, ∃ next, effect note event next)
    {state : State Own Shared} (reachable : Reachable start program state) :
    ∃ note, Reachable (Blank start blank) (program.noting effect) (state.noted note) := by
  obtain ⟨moves, run⟩ := reachable
  induction run with
  | start starts => exact ⟨blank, .of_start ⟨starts, rfl⟩⟩
  | step _ step ih =>
      obtain ⟨note, noted⟩ := ih
      obtain ⟨next, effect⟩ := total note _
      exact ⟨next, noted.step (step.noted effect)⟩

end Threads
