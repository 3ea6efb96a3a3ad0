import Evenscribe.Pipeline.Step

/-!
# The stages keep their monitors' discipline

Every step of every thread is one of the acts a monitor allows, for each of the
three stages. The workers of a stage therefore exclude each other, and none of
them sleeps while there is work for it and the mutex is free (`noLostWakeup`).
-/

namespace Evenscribe.Pipeline

open Monitor

variable {setup : Setup}

/-- Where a thread stands to `conn_queue`. -/
def connStanding : ∀ thread : Thread setup, Own setup thread → Standing
  | .handler, own =>
      match own with
      | Handler.pushing _ | Handler.unlocking => .inside
      | Handler.broadcasting => .owing
      | _ => .outside
  | .conn _, own =>
      match own with
      | ConnWorker.testing | ConnWorker.unlocking _ => .inside
      | _ => .outside
  | .read _, _ => .outside
  | .flush _, _ => .outside

/-- Where a thread stands to `read_queue`. -/
def readStanding : ∀ thread : Thread setup, Own setup thread → Standing
  | .handler, _ => .outside
  | .conn _, own =>
      match own with
      | ConnWorker.pushing .. | ConnWorker.readUnlocking _ => .inside
      | ConnWorker.broadcasting _ => .owing
      | _ => .outside
  | .read _, own =>
      match own with
      | ReadWorker.testing | ReadWorker.unlocking _ => .inside
      | _ => .outside
  | .flush _, _ => .outside

/-- Where a thread stands to `insert_statements`. -/
def writeStanding : ∀ thread : Thread setup, Own setup thread → Standing
  | .handler, _ => .outside
  | .conn _, _ => .outside
  | .read _, own =>
      match own with
      | ReadWorker.pushing _ | ReadWorker.writeUnlocking => .inside
      | ReadWorker.broadcasting => .owing
      | _ => .outside
  | .flush _, own =>
      match own with
      | FlushWorker.testing | FlushWorker.leaving | FlushWorker.draining _
      | FlushWorker.unlocking _ => .inside
      | _ => .outside

/-- A queue that connection workers and read workers may wait on. -/
def Empty {Item : Type} (queue : List Item) : Prop := queue = []

/-- A queue that write workers may wait on. -/
def BelowThreshold {Item : Type} (queue : List Item) : Prop := queue.length < saveThreshold

theorem Empty.tail {Item : Type} (queue : List Item) (empty : Empty queue) : Empty queue.tail := by
  rw [Empty, show queue = [] from empty, List.tail_nil]

theorem BelowThreshold.tail {Item : Type} (queue : List Item) (below : BelowThreshold queue) :
    BelowThreshold queue.tail := by
  have shorter := List.length_tail (l := queue)
  unfold BelowThreshold at below ⊢
  omega

section Acts

variable {thread : Thread setup} {own next : Own setup thread} {shared after : Shared setup}
  {event : Event setup}

/-- What a step does at the monitor of the connections. -/
theorem act_conn (taken : program thread own shared event next after) :
    Act Empty thread (connStanding thread own) shared.conn (connStanding thread next)
      after.conn := by
  cases thread with
  | handler =>
      cases taken with
      | lock free => exact .acquire free
      | push => exact .pushFront _
      | broadcast => exact .broadcast
      | unlock => exact .release
      | _ => exact .idle _ _
  | conn worker =>
      cases taken with
      | lock free => exact .acquire free
      | wait empty => exact .wait empty
      | wake => exact .wake
      | relock _ free => exact .acquire free
      | pop => exact .popFront
      | unlock => exact .release
      | _ => exact .idle _ _
  | read worker => cases taken <;> exact .idle _ _
  | flush flusher => cases taken <;> exact .idle _ _

/-- What a step does at the monitor of the messages. -/
theorem act_read (taken : program thread own shared event next after) :
    Act Empty thread (readStanding thread own) shared.read (readStanding thread next)
      after.read := by
  cases thread with
  | handler => cases taken <;> exact .idle _ _
  | conn worker =>
      cases taken with
      | readLock free => exact .acquire free
      | push => exact .pushFront _
      | broadcast => exact .broadcast
      | readUnlock => exact .release
      | _ => exact .idle _ _
  | read worker =>
      cases taken with
      | lock free => exact .acquire free
      | wait empty => exact .wait empty
      | wake => exact .wake
      | relock _ free => exact .acquire free
      | pop => exact .popFront
      | unlock => exact .release
      | _ => exact .idle _ _
  | flush flusher => cases taken <;> exact .idle _ _

/-- What a step does at the monitor of the subqueries. -/
theorem act_write (taken : program thread own shared event next after) :
    Act BelowThreshold thread (writeStanding thread own) shared.write (writeStanding thread next)
      after.write := by
  cases thread with
  | handler => cases taken <;> exact .idle _ _
  | conn worker => cases taken <;> exact .idle _ _
  | read worker =>
      cases taken with
      | writeLock free => exact .acquire free
      | push => exact .pushFront _
      | broadcast => exact .broadcast
      | writeUnlock => exact .release
      | _ => exact .idle _ _
  | flush flusher =>
      cases taken with
      | lock free => exact .acquire free
      | wait isShort => exact .wait isShort
      | wake => exact .wake
      | relock _ free => exact .acquire free
      | goOn => exact .release
      | drain => exact .popFront
      | unlock => exact .release
      | endExecute => cases flusher <;> exact .idle _ _
      | _ => exact .idle _ _

end Acts

/-- The monitors of all stages are guarded. -/
structure Disciplined (state : State setup) : Prop where
  conn : Guarded Empty (fun thread => connStanding thread (state.own thread)) state.shared.conn
  read : Guarded Empty (fun thread => readStanding thread (state.own thread)) state.shared.read
  write : Guarded BelowThreshold (fun thread => writeStanding thread (state.own thread))
    state.shared.write

/-- One stage's discipline over a step of one thread. -/
theorem guarded_step {Item : Type} {short : List Item → Prop}
    {standing : ∀ thread : Thread setup, Own setup thread → Standing}
    {monitor next : Monitor (Thread setup) Item} {state : State setup} {thread : Thread setup}
    {own : Own setup thread} (shrinks : ∀ queue, short queue → short queue.tail)
    (guarded : Guarded short (fun thread => standing thread (state.own thread)) monitor)
    (acts : Act short thread (standing thread (state.own thread)) monitor
      (standing thread own) next) :
    Guarded short (fun other => standing other (Function.update state.own thread own other))
      next := by
  have changed : (fun other => standing other (Function.update state.own thread own other)) =
      Function.update (fun other => standing other (state.own other)) thread
        (standing thread own) :=
    funext fun other => Function.apply_update standing state.own thread own other
  rw [changed]
  exact guarded.act shrinks acts

/-- A step keeps to the discipline of the three monitors. -/
theorem disciplined_step {before after : State setup} {event : Event setup}
    (disciplined : Disciplined before) (step : Step before event after) : Disciplined after := by
  obtain ⟨thread, taken⟩ := step
  exact ⟨guarded_step Empty.tail disciplined.conn (act_conn taken),
    guarded_step Empty.tail disciplined.read (act_read taken),
    guarded_step BelowThreshold.tail disciplined.write (act_write taken)⟩

theorem disciplined_of_starts {state : State setup} (starts : Starts state) :
    Disciplined state := by
  obtain ⟨buffer, _, rfl⟩ := starts
  refine ⟨guarded_initial fun thread => ?_, guarded_initial fun thread => ?_,
    guarded_initial fun thread => ?_⟩
  · cases thread <;> rfl
  · cases thread <;> rfl
  · cases thread with
    | flush flusher => cases flusher <;> rfl
    | _ => rfl

/-- The three monitors are used as they should be in every reachable state. -/
theorem disciplined {state : State setup} (reachable : Reachable state) : Disciplined state :=
  reachable.invariant (fun _ => disciplined_of_starts) fun _ _ _ _ => disciplined_step

/-- **No lost wake-up.** While the mutex of a stage is free, its workers wait only
when there is nothing for them to take. -/
theorem noLostWakeup {state : State setup} (reachable : Reachable state) :
    (state.shared.conn.holder = none →
      (∃ worker, Thread.conn worker ∈ state.shared.conn.waiting) → state.shared.conn.queue = []) ∧
    (state.shared.read.holder = none →
      (∃ worker, Thread.read worker ∈ state.shared.read.waiting) → state.shared.read.queue = []) ∧
    (state.shared.write.holder = none →
      (∃ worker, Thread.flush (.write worker) ∈ state.shared.write.waiting) →
        state.shared.write.queue.length < saveThreshold) := by
  have disciplined := disciplined reachable
  refine ⟨fun free ⟨worker, waits⟩ => ?_, fun free ⟨worker, waits⟩ => ?_,
    fun free ⟨worker, waits⟩ => ?_⟩
  · exact disciplined.conn.short_of_free free ⟨_, waits⟩
  · exact disciplined.read.short_of_free free ⟨_, waits⟩
  · exact disciplined.write.short_of_free free ⟨_, waits⟩

/-- The first connection worker sleeps on an empty queue. -/
theorem noLostWakeup_asleep :
    ∃ state : State (.run .postgres .wrapping), Reachable state ∧
      (∃ worker, Thread.conn worker ∈ state.shared.conn.waiting) ∧
      state.shared.conn.queue = [] := by
  let setup := Setup.run .postgres .wrapping
  let worker : Fin setup.connThreads := ⟨0, by decide⟩
  have sleeps : Threads.OwnRun (@program setup) (.conn worker) ConnWorker.locking
      State.initial.shared ConnWorker.waiting
      { State.initial.shared with conn := ⟨none, {.conn worker}, []⟩ } :=
    .step (ConnStep.lock rfl) <| .step (ConnStep.wait rfl) <| .refl _ _
  have reachable := reachable_initial.leads (sleeps.leads startOwn rfl)
  have asleep : ∃ other : Fin setup.connThreads,
    Thread.conn other ∈ ({.conn worker} : Finset (Thread setup)) :=
    ⟨worker, Finset.mem_singleton_self _⟩
  exact ⟨_, reachable, asleep, (noLostWakeup reachable).1 rfl asleep⟩

end Evenscribe.Pipeline
