import Evenscribe.Pipeline.Schedule

/-!
# What is handed from stage to stage

Each accepted connection, each read and each subquery is in one place at a time.
The places are the hands of the threads, the queues and the lists of what became
of the work, and a step moves what it takes from one place to the next.
-/

namespace Evenscribe.Pipeline

variable {setup : Setup}

/-- The connection in the hands of `handle_message`. -/
def Handler.connections : Handler → Multiset ℕ
  | .locking connection | .pushing connection => {connection}
  | _ => 0

/-- The connection in the hands of a `conn_worker`. -/
def ConnWorker.connections : ConnWorker → Multiset ℕ
  | .unlocking connection | .reading connection | .readLocking connection _
  | .pushing connection _ | .broadcasting connection | .readUnlocking connection => {connection}
  | _ => 0

/-- The read in the hands of a `conn_worker`. -/
def ConnWorker.reads : ConnWorker → Multiset ℕ
  | .readLocking _ read | .pushing _ read => {read}
  | _ => 0

/-- The read in the hands of a `read_worker`. -/
def ReadWorker.reads : ReadWorker setup → Multiset ℕ
  | .unlocking entry | .serializing entry => {entry.read}
  | _ => 0

/-- The subquery in the hands of a `read_worker`. -/
def ReadWorker.subqueries : ReadWorker setup → Multiset ℕ
  | .writeLocking query | .pushing query => {query.origin}
  | _ => 0

/-- The bucket that a flusher filled and has not executed. -/
def FlushWorker.bucket : FlushWorker setup → List (Subquery setup)
  | .draining bucket | .unlocking bucket | .querying bucket | .executing bucket => bucket
  | _ => []

/-- The reads that subqueries were made of. -/
def origins (queries : List (Subquery setup)) : Multiset ℕ := queries.map Subquery.origin

@[simp] theorem origins_nil : origins ([] : List (Subquery setup)) = 0 := rfl

@[simp] theorem origins_cons (query : Subquery setup) (queries : List (Subquery setup)) :
    origins (query :: queries) = {query.origin} + origins queries := rfl

@[simp] theorem origins_append (queries more : List (Subquery setup)) :
    origins (queries ++ more) = origins queries + origins more := by
  simp only [origins, List.map_append, ← Multiset.coe_add]

@[simp] theorem card_origins (queries : List (Subquery setup)) :
    (origins queries).card = queries.length := by
  simp only [origins, Multiset.coe_card, List.length_map]

/-- The connections in a thread's hands. -/
def connectionsOf : ∀ thread : Thread setup, Own setup thread → Multiset ℕ
  | .handler, own => Handler.connections own
  | .conn _, own => ConnWorker.connections own
  | .read _, _ => 0
  | .flush _, _ => 0

/-- The reads in a thread's hands. -/
def readsOf : ∀ thread : Thread setup, Own setup thread → Multiset ℕ
  | .handler, _ => 0
  | .conn _, own => ConnWorker.reads own
  | .read _, own => ReadWorker.reads own
  | .flush _, _ => 0

/-- The subqueries in a thread's hands, by the reads they were made of. -/
def subqueriesOf : ∀ thread : Thread setup, Own setup thread → Multiset ℕ
  | .handler, _ => 0
  | .conn _, _ => 0
  | .read _, own => ReadWorker.subqueries own
  | .flush _, own => origins (FlushWorker.bucket own)

/-- Nothing is lost or duplicated: all places together hold everything once. -/
structure HandedOver (state : State setup) : Prop where
  connections :
    Handler.connections (state.own .handler) +
      ∑ worker, ConnWorker.connections (state.own (.conn worker)) +
      (state.shared.conn.queue + state.shared.finished) =
    Multiset.range state.shared.accepted
  reads :
    ∑ worker, ConnWorker.reads (state.own (.conn worker)) +
      ∑ worker, ReadWorker.reads (state.own (.read worker)) +
      ((state.shared.read.queue.map Entry.read : List ℕ) + state.shared.rejected +
        state.shared.turned) =
    Multiset.range state.shared.returned.length
  subqueries :
    ∑ worker, ReadWorker.subqueries (state.own (.read worker)) +
      ∑ flusher, origins (FlushWorker.bucket (state.own (.flush flusher))) +
      (origins state.shared.write.queue + origins state.shared.executed.flatten) =
    state.shared.turned

/-- A step moves connections and keeps them all. -/
theorem connections_balanced : Threads.Balanced (@program setup) connectionsOf
    (fun shared => shared.conn.queue + shared.finished)
    (fun shared => Multiset.range shared.accepted) := by
  intro thread own shared event next after taken
  cases thread with
  | handler =>
      cases taken with
      | accept =>
          simp only [connectionsOf, Handler.connections, Multiset.range_succ,
            ← Multiset.singleton_add]
          abel
      | push =>
          simp only [connectionsOf, Handler.connections, Monitor.pushFront,
            ← Multiset.cons_coe, ← Multiset.singleton_add]
          abel
      | _ => rfl
  | conn worker =>
      cases taken with
      | pop front =>
          simp only [connectionsOf, ConnWorker.connections, Monitor.popFront, front,
            List.tail_cons, ← Multiset.cons_coe, ← Multiset.singleton_add]
          abel
      | finish =>
          simp only [connectionsOf, ConnWorker.connections, ← Multiset.cons_coe,
            ← Multiset.singleton_add]
          abel
      | _ => rfl
  | read worker => cases taken <;> rfl
  | flush flusher => cases taken <;> rfl

/-- A step moves reads and keeps them all. -/
theorem reads_balanced : Threads.Balanced (@program setup) readsOf
    (fun shared => (shared.read.queue.map Entry.read : List ℕ) + shared.rejected + shared.turned)
    (fun shared => Multiset.range shared.returned.length) := by
  intro thread own shared event next after taken
  cases thread with
  | handler => cases taken <;> rfl
  | conn worker =>
      cases taken with
      | receive =>
          simp only [readsOf, ConnWorker.reads, List.length_append, List.length_singleton,
            Multiset.range_succ, ← Multiset.singleton_add]
          abel
      | push =>
          simp only [readsOf, ConnWorker.reads, Monitor.pushFront, List.map_cons,
            ← Multiset.cons_coe, ← Multiset.singleton_add]
          abel
      | _ => rfl
  | read worker =>
      cases taken with
      | pop front =>
          simp only [readsOf, ReadWorker.reads, Monitor.popFront, front, List.tail_cons,
            List.map_cons, ← Multiset.cons_coe, ← Multiset.singleton_add]
          abel
      | reject =>
          simp only [readsOf, ReadWorker.reads, ← Multiset.cons_coe, ← Multiset.singleton_add]
          abel
      | turn =>
          simp only [readsOf, ReadWorker.reads, ← Multiset.cons_coe, ← Multiset.singleton_add]
          abel
      | _ => rfl
  | flush flusher => cases taken <;> rfl

/-- A step moves subqueries and keeps them all. -/
theorem subqueries_balanced : Threads.Balanced (@program setup) subqueriesOf
    (fun shared => origins shared.write.queue + origins shared.executed.flatten)
    (fun shared => (shared.turned : Multiset ℕ)) := by
  intro thread own shared event next after taken
  cases thread with
  | handler => cases taken <;> rfl
  | conn worker => cases taken <;> rfl
  | read worker =>
      cases taken with
      | turn =>
          simp only [subqueriesOf, ReadWorker.subqueries, Subquery.ofLog, ← Multiset.cons_coe,
            ← Multiset.singleton_add]
          abel
      | push =>
          simp only [subqueriesOf, ReadWorker.subqueries, Monitor.pushFront, origins_cons]
          abel
      | _ => rfl
  | flush flusher =>
      cases taken with
      | drain front =>
          simp only [subqueriesOf, FlushWorker.bucket, Monitor.popFront, front, List.tail_cons,
            origins_cons, origins_append, origins_nil]
          abel
      | endExecute =>
          have emptyHanded : FlushWorker.bucket flusher.start = [] := by cases flusher <;> rfl
          simp only [subqueriesOf, emptyHanded, origins_nil]
          simp only [FlushWorker.bucket, List.flatten_cons, origins_append]
          abel
      | _ => rfl

/-- A sum over all threads, stage by stage. -/
theorem sum_thread {Amount : Type} [AddCommMonoid Amount] (weight : Thread setup → Amount) :
    ∑ thread, weight thread = weight .handler + ∑ worker, weight (.conn worker) +
      ∑ worker, weight (.read worker) + ∑ flusher, weight (.flush flusher) := by
  let stages : Unit ⊕ Fin setup.connThreads ⊕ Fin setup.readThreads ⊕ Flusher setup →
      Thread setup :=
    Sum.elim (fun _ => .handler) (Sum.elim .conn (Sum.elim .read .flush))
  have onto : Function.Bijective stages := by
    constructor
    · rintro (_ | _ | _ | _) (_ | _ | _ | _) same <;> cases same <;> rfl
    · rintro (_ | worker | worker | flusher)
      · exact ⟨.inl (), rfl⟩
      · exact ⟨.inr (.inl worker), rfl⟩
      · exact ⟨.inr (.inr (.inl worker)), rfl⟩
      · exact ⟨.inr (.inr (.inr flusher)), rfl⟩
  rw [← onto.sum_comp]
  simp only [stages, Fintype.sum_sum_type, Sum.elim_inl, Sum.elim_inr, Finset.univ_unique,
    Finset.sum_singleton, add_assoc]

/-- What nobody holds at the start and every step balances is held by all places together. -/
theorem sum_of_reachable {weight : ∀ thread : Thread setup, Own setup thread → Multiset ℕ}
    {rest goal : Shared setup → Multiset ℕ}
    (balanced : Threads.Balanced (@program setup) weight rest goal)
    (emptyHanded : ∀ thread, weight thread (startOwn thread) = 0)
    (same : ∀ buffer, rest (startShared buffer) = goal (startShared buffer))
    {state : State setup} (reachable : Reachable state) :
    weight .handler (state.own .handler) +
      ∑ worker, weight (.conn worker) (state.own (.conn worker)) +
      ∑ worker, weight (.read worker) (state.own (.read worker)) +
      ∑ flusher, weight (.flush flusher) (state.own (.flush flusher)) + rest state.shared =
    goal state.shared := by
  rw [← sum_thread fun thread => weight thread (state.own thread)]
  refine balanced.reachable ?_ reachable
  rintro _ ⟨buffer, _, rfl⟩
  simp only [emptyHanded, Finset.sum_const_zero, zero_add, same]

theorem connectionsOf_start (thread : Thread setup) :
    connectionsOf thread (startOwn thread) = 0 := by
  cases thread <;> rfl

theorem readsOf_start (thread : Thread setup) : readsOf thread (startOwn thread) = 0 := by
  cases thread <;> rfl

theorem subqueriesOf_start (thread : Thread setup) : subqueriesOf thread (startOwn thread) = 0 := by
  cases thread with
  | flush flusher => cases flusher <;> rfl
  | _ => rfl

/-- Whatever is handed on is in one place, in every reachable state. -/
theorem handedOver {state : State setup} (reachable : Reachable state) : HandedOver state := by
  constructor
  · have all := sum_of_reachable connections_balanced connectionsOf_start (fun _ => rfl) reachable
    simpa only [connectionsOf, Finset.sum_const_zero, add_zero] using all
  · have all := sum_of_reachable reads_balanced readsOf_start (fun _ => rfl) reachable
    simpa only [readsOf, Finset.sum_const_zero, add_zero, zero_add] using all
  · have all := sum_of_reachable subqueries_balanced subqueriesOf_start (fun _ => rfl) reachable
    simpa only [subqueriesOf, Finset.sum_const_zero, zero_add] using all

/-- **No hand-off is lost or duplicated.** Everything is in one place, and the reads
found valid are as many as the subqueries held, queued, drained and executed. -/
theorem noHandOffLost {state : State setup} (reachable : Reachable state) :
    HandedOver state ∧
      state.shared.turned.length =
        ∑ worker, (ReadWorker.subqueries (state.own (.read worker))).card +
          state.shared.write.queue.length +
          ∑ flusher, (FlushWorker.bucket (state.own (.flush flusher))).length +
          (state.shared.executed.map List.length).sum := by
  have handedOver := handedOver reachable
  have counted := congrArg Multiset.card handedOver.subqueries
  simp only [Multiset.card_add, Multiset.card_sum, card_origins, Multiset.coe_card,
    List.length_flatten] at counted
  refine ⟨handedOver, ?_⟩
  omega

/-- A subquery in `insert_statements` and a read in the hands of a read worker are
accounted for. -/
theorem noHandOffLost_second :
    ∃ (state : State (.run .postgres .wrapping)) (entry : Entry _),
      state.own (.read ⟨0, by decide⟩) = ReadWorker.serializing entry ∧
        state.shared.returned.length = 2 ∧ state.shared.write.queue.length = 1 ∧
        HandedOver state ∧
        state.shared.turned.length =
          ∑ worker, (ReadWorker.subqueries (state.own (.read worker))).card +
            state.shared.write.queue.length +
            ∑ flusher, (FlushWorker.bucket (state.own (.flush flusher))).length +
            (state.shared.executed.map List.length).sum := by
  obtain ⟨start, reachable, serving, isFirst, _⟩ :=
    exists_serving (.run .postgres .wrapping) ⟨0, by decide⟩ ⟨0, by decide⟩
  obtain ⟨next, leads, servingNext, stored, _⟩ :=
    serving.store Serializer.holdsLog_sampleLog Serializer.sampleLog_fits
  obtain ⟨own, takes, _, here, _⟩ :=
    servingNext.take Serializer.otherLog Serializer.holdsLog_otherLog.ne_nil
      Serializer.otherLog_fits
  have accounted := noHandOffLost (reachable.leads (leads.trans takes))
  refine ⟨_, _, here, ?_, ?_, accounted⟩ <;> simp [stored, isFirst]

/-- The state in which the first connection is in the hands of `handle_message`. -/
def firstAccepted : State (Setup.run .postgres .wrapping) where
  own := Function.update State.initial.own .handler (Handler.locking 0)
  shared := { State.initial.shared with accepted := 1 }

/-- The handler has accepted the first connection. -/
theorem reachable_firstAccepted : Reachable firstAccepted := by
  have step : Step State.initial (.accept 0) firstAccepted :=
    .take Thread.handler HandlerStep.accept
  exact reachable_initial.step step

/-- Without the hands of `handle_message` a connection can be in no place at all. -/
theorem not_handedOver_without_handler :
    ¬ ∀ (setup : Setup) (state : State setup), Reachable state →
      ∀ connection < state.shared.accepted,
        (∑ worker, ConnWorker.connections (state.own (.conn worker)) +
          (state.shared.conn.queue + state.shared.finished)).count connection = 1 := by
  intro always
  have once := always _ firstAccepted reachable_firstAccepted 0 Nat.one_pos
  have nowhere : ∑ worker, ConnWorker.connections (firstAccepted.own (.conn worker)) = 0 :=
    Finset.sum_eq_zero fun _ _ => rfl
  rw [nowhere] at once
  exact absurd once nofun

end Evenscribe.Pipeline
