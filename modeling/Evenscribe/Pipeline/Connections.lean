import Evenscribe.Pipeline.Schedule

/-!
# Who executes on which database connection

Every write worker has a connection of its own, and the sync worker uses that of
the first write worker. No connection is used twice at a time exactly when these
two never begin while the other executes (`exclusive_iff`).
-/

namespace Evenscribe.Pipeline

variable {setup : Setup}

/-- A flusher is between the begin and the end of an execution. -/
def Executing (state : State setup) (flusher : Flusher setup) : Prop :=
  ∃ bucket, state.own (.flush flusher) = FlushWorker.executing bucket

/-- At most one thread executes on each connection. -/
def Exclusive (state : State setup) : Prop :=
  ∀ first second, Executing state first → Executing state second →
    first.index = second.index → first = second

/-- The sync worker does not begin while the first write worker executes, nor the other
way round. -/
def Apart (move : Threads.Move (Own setup) (Shared setup) (Event setup)) : Prop :=
  ∀ worker : Fin setup.writeThreads, worker.val = 0 → ∀ bucket statement,
    (move.event = .beginExecute .sync bucket statement → ¬ Executing move.before (.write worker)) ∧
    (move.event = .beginExecute (.write worker) bucket statement → ¬ Executing move.before .sync)

/-- Two flushers share a connection only if they are the sync worker and the first
write worker. -/
theorem eq_or_shared_of_index {first second : Flusher setup} (same : first.index = second.index) :
    first = second ∨ ∃ worker : Fin setup.writeThreads, worker.val = 0 ∧
      ((first = .sync ∧ second = .write worker) ∨ (first = .write worker ∧ second = .sync)) := by
  cases first with
  | write worker =>
      cases second with
      | write other =>
          left
          rw [Fin.ext same]
      | sync => exact .inr ⟨worker, same, .inr ⟨rfl, rfl⟩⟩
  | sync =>
      cases second with
      | write other => exact .inr ⟨other, same.symm, .inl ⟨rfl, rfl⟩⟩
      | sync => exact .inl rfl

section Steps

variable {before after : State setup} {event : Event setup}

/-- A flusher that executes after a step began with it or executed before. -/
theorem begins_or_executing (step : Step before event after) {flusher : Flusher setup}
    (executing : Executing after flusher) :
    (∃ bucket statement, event = .beginExecute flusher bucket statement) ∨
      Executing before flusher := by
  obtain ⟨bucket, there⟩ := executing
  rcases step.taken_or_kept (.flush flusher) with ⟨own, next, shared, _, after, _, taken⟩ | kept
  · rw [there] at after
    cases taken with
    | beginExecute => exact .inl ⟨_, _, rfl⟩
    | endExecute => cases flusher <;> exact nomatch after
    | _ => exact nomatch after
  · exact .inr ⟨bucket, kept.symm.trans there⟩

/-- A flusher that begins executes, and so do the others that executed before. -/
theorem executing_of_begins {flusher : Flusher setup} {bucket : List (Subquery setup)}
    {statement : Text} (step : Step before (.beginExecute flusher bucket statement) after) :
    Executing after flusher ∧ ∀ other, Executing before other → Executing after other := by
  obtain ⟨thread, own, next, shared, here, taken, rfl⟩ := step.exists_taken
  cases thread with
  | handler => cases taken
  | conn worker => cases taken
  | read worker => cases taken
  | flush actor =>
      cases taken
      refine ⟨⟨bucket, Function.update_self ..⟩, fun other ⟨older, executing⟩ => ?_⟩
      by_cases same : other = flusher
      · subst same
        exact ⟨bucket, Function.update_self ..⟩
      · have different : Thread.flush other ≠ Thread.flush flusher := fun equal =>
          same (by injection equal)
        exact ⟨older, (Function.update_of_ne different ..).trans executing⟩

/-- While the two are kept apart, nobody begins on a connection in use. -/
theorem Apart.eq_of_begins {move : Threads.Move (Own setup) (Shared setup) (Event setup)}
    (apart : Apart move) {first second : Flusher setup} {bucket : List (Subquery setup)}
    {statement : Text} (begins : move.event = .beginExecute first bucket statement)
    (executes : Executing move.before second) (sameIndex : first.index = second.index) :
    first = second := by
  rcases eq_or_shared_of_index sameIndex with same | ⟨worker, isFirst, ⟨rfl, rfl⟩ | ⟨rfl, rfl⟩⟩
  · exact same
  · exact ((apart worker isFirst bucket statement).1 begins executes).elim
  · exact ((apart worker isFirst bucket statement).2 begins executes).elim

/-- A step keeps the connections exclusive exactly when it keeps the two apart. -/
theorem exclusive_step (exclusive : Exclusive before) (step : Step before event after) :
    Exclusive after ↔ Apart ⟨before, event, after⟩ := by
  constructor
  · intro exclusiveAfter worker isFirst bucket statement
    constructor
    · rintro rfl other
      obtain ⟨begun, stays⟩ := executing_of_begins step
      exact nomatch exclusiveAfter _ _ begun (stays _ other) isFirst.symm
    · rintro rfl other
      obtain ⟨begun, stays⟩ := executing_of_begins step
      exact nomatch exclusiveAfter _ _ begun (stays _ other) isFirst
  · intro apart first second firstExecutes secondExecutes sameIndex
    rcases begins_or_executing step firstExecutes with ⟨_, _, begins⟩ | firstBefore
    · rcases begins_or_executing step secondExecutes with ⟨_, _, beginsToo⟩ | secondBefore
      · rw [begins] at beginsToo
        injection beginsToo
      · exact apart.eq_of_begins begins secondBefore sameIndex
    · rcases begins_or_executing step secondExecutes with ⟨_, _, begins⟩ | secondBefore
      · exact (apart.eq_of_begins begins firstBefore sameIndex.symm).symm
      · exact exclusive first second firstBefore secondBefore sameIndex

end Steps

theorem exclusive_of_starts {state : State setup} (starts : Starts state) : Exclusive state := by
  obtain ⟨buffer, _, rfl⟩ := starts
  rintro first second ⟨bucket, executes⟩
  cases first <;> exact nomatch executes

/-- **Exclusive use of database connections.** In every state of a run no connection
is used twice exactly when every step keeps the sync worker and the first write
worker apart. -/
theorem exclusive_iff {moves : List (Threads.Move (Own setup) (Shared setup) (Event setup))}
    {state : State setup} (run : Run moves state) :
    (∀ move ∈ moves, Exclusive move.after) ↔ ∀ move ∈ moves, Apart move :=
  run.forall_iff (fun _ => exclusive_of_starts) fun _ _ _ _ exclusive step =>
    exclusive_step exclusive step

variable (setup) in
/-- A full batch can come to a write worker while the sync worker executes. -/
theorem exists_clash (worker : Fin setup.connThreads) (reader : Fin setup.readThreads)
    (writer : Fin setup.writeThreads) :
    ∃ (before after : State setup) (event : Event setup), Reachable before ∧
      Step before event after ∧ Executing after .sync ∧ Executing after (.write writer) := by
  -- one log is there when the sync worker wakes up
  obtain ⟨_, begun, queue, reachable, stepSync, servingBegun, syncExecutes, atStart⟩ :=
    exists_syncExecutes setup worker reader
  -- a thousand more come while its execution goes on
  obtain ⟨full, leadsFull, servingFull, lengthFull, sameFull⟩ := servingBegun.pushes saveThreshold
  have enough : ¬ (Flusher.write writer).Short full.shared.write.queue := by
    rw [Flusher.Short, lengthFull]
    exact Nat.not_lt.mpr (Nat.le_add_left _ _)
  have writerAtStart : full.own (.flush (.write writer)) = (Flusher.write writer).start := by
    rw [sameFull, atStart (.write writer) (by simp)]
  obtain ⟨before, after, leadsBefore, step, _, writerExecutes, sameAfter⟩ :=
    servingFull.execute writerAtStart enough
  have reached := (reachable.step stepSync).leads (leadsFull.trans leadsBefore)
  have stays : after.own (.flush .sync) = FlushWorker.executing queue := by
    rw [sameAfter .sync (by simp), sameFull, syncExecutes]
  exact ⟨before, after, _, reached, step, ⟨_, stays⟩, ⟨_, writerExecutes⟩⟩

/-- A run that leaves two threads on one connection has a step that breaks the rule. -/
theorem exclusive_iff_clash :
    ∃ (moves : List (Threads.Move (Own _) (Shared (.run .postgres .wrapping)) (Event _)))
      (state : State (.run .postgres .wrapping)),
      Run moves state ∧ ¬ Exclusive state ∧ ¬ ∀ move ∈ moves, Apart move := by
  obtain ⟨before, after, event, ⟨moves, run⟩, step, sync, write⟩ :=
    exists_clash (.run .postgres .wrapping) ⟨0, by decide⟩ ⟨0, by decide⟩ ⟨0, by decide⟩
  have clash : ¬ Exclusive after := fun exclusive => nomatch exclusive _ _ sync write rfl
  refine ⟨_, after, .step run step, clash, fun apart => clash ?_⟩
  exact (exclusive_iff (.step run step)).mpr apart _ (List.mem_cons_self ..)

/-- The sync worker and the first write worker can use one connection at a time. -/
theorem not_exclusive :
    ¬ ∀ (setup : Setup) (state : State setup), Reachable state → Exclusive state := by
  intro always
  obtain ⟨before, after, event, reachable, step, sync, write⟩ :=
    exists_clash (.run .postgres .wrapping) ⟨0, by decide⟩ ⟨0, by decide⟩ ⟨0, by decide⟩
  exact nomatch always _ after (reachable.step step) _ _ sync write rfl

end Evenscribe.Pipeline
