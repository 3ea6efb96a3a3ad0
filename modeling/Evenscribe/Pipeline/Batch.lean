import Evenscribe.Pipeline.Discipline
import Evenscribe.Pipeline.Schedule

/-!
# The batches that are executed

A flusher tests the size of `insert_statements` and drains it without giving up
the mutex in between, so its bucket holds at least what it tested for and leaves
the queue empty (`batches`).
-/

namespace Evenscribe

/-- Every value of a list stands in its text. -/
theorem infix_commaSeparate {value : Text} {values : List Text} (member : value ∈ values) :
    value <:+: commaSeparate values := by
  induction values with
  | nil => exact (List.not_mem_nil member).elim
  | cons first rest ih =>
      cases rest with
      | nil =>
          obtain rfl := List.mem_singleton.mp member
          exact List.infix_rfl
      | cons second rest =>
          rw [commaSeparate_cons_cons]
          rcases List.mem_cons.mp member with rfl | later
          · rw [List.append_assoc]
            exact (List.prefix_append _ _).isInfix
          · exact (ih later).trans (List.suffix_append _ _).isInfix

namespace DatabaseKind

/-- Both back ends make the same statement of a bucket. -/
theorem createQuery_eq (kind : DatabaseKind) (bucket : List Text) :
    kind.createQuery bucket = insertQuery bucket := by
  cases kind <;> rfl

/-- What either back end makes of an empty bucket. -/
theorem createQuery_nil (kind : DatabaseKind) :
    kind.createQuery [] = text "INSERT INTO logs VALUES ;" := by
  cases kind <;> decide +kernel

/-- Every tuple of a bucket stands in its statement. -/
theorem infix_createQuery (kind : DatabaseKind) {tuple : Text} {bucket : List Text}
    (member : tuple ∈ bucket) : tuple <:+: kind.createQuery bucket := by
  rw [createQuery_eq, insertQuery]
  exact (infix_commaSeparate member).trans (List.infix_append _ _ _)

/-- A tuple has an opening parenthesis. -/
theorem parenthesis_mem_createSubquery (kind : DatabaseKind) (log : Log) :
    40 ∈ kind.createSubquery log := by
  cases kind <;> exact List.mem_cons_self ..

/-- A statement with a tuple is none that is made of an empty bucket. -/
theorem ne_createQuery_nil {kind : DatabaseKind} {log : Log} {statement : Text}
    (inside : kind.createSubquery log <:+: statement) : statement ≠ kind.createQuery [] := by
  rintro rfl
  have parenthesis := inside.subset (kind.parenthesis_mem_createSubquery log)
  rw [createQuery_nil] at parenthesis
  exact absurd parenthesis (by decide)

end DatabaseKind

namespace Pipeline

open Monitor

variable {setup : Setup}

/-- What a flusher knows of its bucket and of the queue it drains. -/
def Filled (flusher : Flusher setup) (own : FlushWorker setup) (queue : List (Subquery setup)) :
    Prop :=
  match own with
  | .draining bucket => flusher.minimum ≤ bucket.length + queue.length
  | .unlocking bucket => flusher.minimum ≤ bucket.length ∧ queue = []
  | .querying bucket | .executing bucket => flusher.minimum ≤ bucket.length
  | _ => True

/-- Outside its critical section a flusher knows nothing of the queue. -/
theorem Filled.of_queue {flusher : Flusher setup} {own : FlushWorker setup}
    {queue next : List (Subquery setup)} (filled : Filled flusher own queue)
    (same : writeStanding (.flush flusher) own ≠ .outside → next = queue) :
    Filled flusher own next := by
  cases own with
  | draining bucket => rwa [same nofun]
  | unlocking bucket => rwa [same nofun]
  | _ => exact filled

/-- A flusher's own step keeps what it knows. -/
theorem filled_own {flusher : Flusher setup} {own next : FlushWorker setup}
    {shared after : Shared setup} {event : Event setup}
    (taken : FlushStep flusher own shared event next after)
    (filled : Filled flusher own shared.write.queue) :
    Filled flusher next after.write.queue := by
  cases taken with
  | enter enough =>
      rw [flusher.short_iff, Nat.not_lt] at enough
      change flusher.minimum ≤ ([] : List (Subquery setup)).length + shared.write.queue.length
      rwa [List.length_nil, Nat.zero_add]
  | @drain _ _ bucket query rest front =>
      simp only [Filled, front, List.length_cons] at filled
      simp only [Filled, popFront, front, List.tail_cons, List.length_append, List.length_cons,
        List.length_nil]
      omega
  | leaveLoop empty =>
      simp only [Filled, empty, List.length_nil, Nat.add_zero] at filled
      exact ⟨filled, empty⟩
  | unlock => exact filled.1
  | beginExecute => exact filled
  | endExecute => cases flusher <;> trivial
  | _ => trivial

/-- What a thread knows of its bucket, if it is a flusher. -/
def FilledOwn : ∀ thread : Thread setup, Own setup thread → Shared setup → Prop
  | .flush flusher, own, shared => Filled flusher own shared.write.queue
  | _, _, _ => True

/-- Every flusher knows what it should of its bucket. -/
def AllFilled (state : State setup) : Prop :=
  ∀ thread, FilledOwn thread (state.own thread) state.shared

/-- A step keeps buckets filled. -/
theorem allFilled_step {before after : State setup} {event : Event setup}
    (disciplined : Disciplined before) (filled : AllFilled before)
    (step : Step before event after) : AllFilled after := by
  refine step.forall_kept filled ?_ ?_
  · intro thread own next shared _ taken holds
    cases thread with
    | flush flusher => exact filled_own taken holds
    | _ => trivial
  · intro thread own next shared here taken other different holds
    cases other with
    | flush flusher =>
        subst here
        exact Filled.of_queue holds fun inside =>
          disciplined.write.queue_eq_of_ne (act_write taken) inside (Ne.symm different)
    | _ => trivial

theorem allFilled_of_starts {state : State setup} (starts : Starts state) : AllFilled state := by
  obtain ⟨buffer, _, rfl⟩ := starts
  intro thread
  cases thread with
  | flush flusher => cases flusher <;> trivial
  | _ => trivial

/-- Every bucket is filled in every reachable state. -/
theorem allFilled {state : State setup} (reachable : Reachable state) : AllFilled state :=
  reachable.invariant (fun _ => allFilled_of_starts) fun _ _ _ before filled step =>
    allFilled_step (disciplined before) filled step

/-- Where an execution begins. -/
theorem own_of_beginExecute {before after : State setup} {flusher : Flusher setup}
    {bucket : List (Subquery setup)} {statement : Text}
    (step : Step before (.beginExecute flusher bucket statement) after) :
    before.own (.flush flusher) = FlushWorker.querying bucket ∧
      statement = setup.kind.createQuery (bucket.map Subquery.text) := by
  obtain ⟨thread, own, next, shared, here, taken, rfl⟩ := step.exists_taken
  cases thread with
  | handler => cases taken
  | conn worker => cases taken
  | read worker => cases taken
  | flush other =>
      cases taken
      exact ⟨here, rfl⟩

/-- Where a drain's critical section ends. -/
theorem own_of_drained {before after : State setup} {flusher : Flusher setup}
    {bucket : List (Subquery setup)} (step : Step before (.drained flusher bucket) after) :
    before.own (.flush flusher) = FlushWorker.unlocking bucket ∧
      after.shared.write.queue = before.shared.write.queue := by
  obtain ⟨thread, own, next, shared, here, taken, rfl⟩ := step.exists_taken
  cases thread with
  | handler => cases taken
  | conn worker => cases taken
  | read worker => cases taken
  | flush other =>
      cases taken
      exact ⟨here, rfl⟩

/-- **Batches.** Every bucket made into a statement holds what its flusher tested for,
each of its subqueries is a tuple that stands in the statement, so that there is at least
one, and the queue is empty at the end of every drain. -/
theorem batches {moves : List (Threads.Move (Own setup) (Shared setup) (Event setup))}
    {state : State setup} (run : Run moves state) :
    ∀ move ∈ moves,
      (∀ flusher bucket statement, move.event = .beginExecute flusher bucket statement →
        flusher.minimum ≤ bucket.length ∧
          statement = setup.kind.createQuery (bucket.map Subquery.text) ∧
          (∀ query ∈ bucket, query.text <:+: statement) ∧
          (∃ log, setup.kind.createSubquery log <:+: statement) ∧
          statement ≠ text "INSERT INTO logs VALUES ;") ∧
      (∀ flusher bucket, move.event = .drained flusher bucket →
        move.after.shared.write.queue = []) := by
  intro move member
  obtain ⟨reachable, step⟩ := run.of_mem member
  have filled := allFilled reachable
  constructor
  · intro flusher bucket statement begins
    rw [begins] at step
    obtain ⟨here, made⟩ := own_of_beginExecute step
    have enough := filled (.flush flusher)
    rw [here] at enough
    have inside : ∀ query ∈ bucket, query.text <:+: statement := fun query member =>
      made ▸ setup.kind.infix_createQuery (List.mem_map_of_mem member)
    obtain ⟨query, first⟩ := List.exists_mem_of_length_pos (flusher.minimum_pos.trans_le enough)
    obtain ⟨log, isTuple⟩ := query.made
    have tuple := isTuple ▸ inside query first
    refine ⟨enough, made, inside, ⟨log, tuple⟩, ?_⟩
    rw [← setup.kind.createQuery_nil]
    exact DatabaseKind.ne_createQuery_nil tuple
  · intro flusher bucket drained
    rw [drained] at step
    obtain ⟨here, same⟩ := own_of_drained step
    have emptied := filled (.flush flusher)
    rw [here] at emptied
    rw [same]
    exact emptied.2

/-- The first write worker executes a full batch. -/
theorem batches_full :
    ∃ (moves : List (Threads.Move (Own _) (Shared (.run .clickhouse .wrapping)) (Event _)))
      (state : State (.run .clickhouse .wrapping)) (bucket : List (Subquery _)) (statement : Text),
      Run moves state ∧
        (∃ move ∈ moves, move.event = .beginExecute (.write ⟨0, by decide⟩) bucket statement) ∧
        saveThreshold ≤ bucket.length ∧ (∀ query ∈ bucket, query.text <:+: statement) ∧
        statement ≠ text "INSERT INTO logs VALUES ;" := by
  obtain ⟨start, reachable, serving, _, atStart⟩ :=
    exists_serving (.run .clickhouse .wrapping) ⟨0, by decide⟩ ⟨0, by decide⟩
  obtain ⟨full, leadsFull, servingFull, lengthFull, sameFull⟩ := serving.pushes saveThreshold
  let writer : Flusher (.run .clickhouse .wrapping) := .write ⟨0, by decide⟩
  have enough : ¬ writer.Short full.shared.write.queue := by
    rw [Flusher.Short, lengthFull]
    exact Nat.not_lt.mpr (Nat.le_add_left _ _)
  obtain ⟨before, after, leads, step, _⟩ :=
    servingFull.execute ((sameFull writer).trans (atStart writer)) enough
  obtain ⟨moves, run⟩ := reachable.leads (leadsFull.trans leads)
  have begins := batches (.step run step) _ (List.mem_cons_self ..)
  obtain ⟨least, _, inside, _, proper⟩ := begins.1 writer _ _ rfl
  exact ⟨_, after, _, _, .step run step, ⟨_, List.mem_cons_self .., rfl⟩, least, inside, proper⟩

end Pipeline

end Evenscribe
