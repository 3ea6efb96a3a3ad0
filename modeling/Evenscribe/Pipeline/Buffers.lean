import Mathlib.Algebra.Order.BigOperators.Group.Finset
import Mathlib.Data.List.GetD
import Evenscribe.Pipeline.Handover
import Evenscribe.Pipeline.Schedule

/-!
# What is left of a message when it is parsed

An entry of `read_queue` is a pointer into the one buffer of its connection worker,
which goes on reading into it. Every message is parsed as it was read in the runs in
which no read changes the bytes of an entry that still waits (`intact_of_spares`), such
as those in which no entry of its buffer waits when a read returns.
-/

namespace Evenscribe.Pipeline

open Threads

variable {setup : Setup}

/-- The entry that a `conn_worker` has yet to push. -/
def ConnWorker.entries (worker : Fin setup.connThreads) : ConnWorker → List (Entry setup)
  | .readLocking _ read | .pushing _ read => [⟨worker, read⟩]
  | _ => []

/-- The entry that a `read_worker` took and has yet to parse. -/
def ReadWorker.entries : ReadWorker setup → List (Entry setup)
  | .unlocking entry | .serializing entry => [entry]
  | _ => []

/-- The entries in a thread's hands. -/
def entriesOf : ∀ thread : Thread setup, Own setup thread → List (Entry setup)
  | .handler, _ => []
  | .conn worker, own => ConnWorker.entries worker own
  | .read _, own => ReadWorker.entries own
  | .flush _, _ => []

/-- An entry was pushed and has yet to be parsed. -/
def Pending (state : State setup) (entry : Entry setup) : Prop :=
  entry ∈ state.shared.read.queue ∨
    ∃ worker, entry ∈ ReadWorker.entries (state.own (.read worker))

/-- A read leaves the bytes of every pending entry of its buffer as they are. -/
def Spares (move : Move (Own setup) (Shared setup) (Event setup)) : Prop :=
  ∀ worker read bytes, move.event = .receive worker read bytes →
    ∀ entry, Pending move.before entry → entry.buffer = worker →
      (bytes ++ (move.before.shared.buffer worker).drop bytes.length).take
          (move.before.shared.message entry.read).length =
        (move.before.shared.buffer worker).take (move.before.shared.message entry.read).length

/-- The buffer of an entry still starts with what its read returned. -/
def Shared.Intact (shared : Shared setup) (entry : Entry setup) : Prop :=
  entry.read < shared.returned.length ∧ shared.seen entry = shared.message entry.read

/-- No message was overwritten so far. -/
structure AllIntact (state : State setup) : Prop where
  queued : ∀ entry ∈ state.shared.read.queue, state.shared.Intact entry
  held : ∀ thread, ∀ entry ∈ entriesOf thread (state.own thread), state.shared.Intact entry
  handed : ∀ pair ∈ state.shared.handed,
    pair.1 < state.shared.returned.length ∧ pair.2 = state.shared.message pair.1

/-- The event is a `read()` that returned bytes. -/
def Event.isReceive : Event setup → Bool
  | .receive .. => true
  | _ => false

/-- A step that reads nothing: it keeps the buffers, and every entry it leaves behind was
there before. -/
structure Quiet (thread : Thread setup) (own next : Own setup thread) (shared after : Shared setup)
    (event : Event setup) : Prop where
  event : event.isReceive = false
  buffer : after.buffer = shared.buffer
  returned : after.returned = shared.returned
  entries : ∀ entry, entry ∈ entriesOf thread next ++ after.read.queue →
    entry ∈ entriesOf thread own ++ shared.read.queue
  handed : after.handed = shared.handed ∨
    ∃ entry ∈ entriesOf thread own, after.handed = (entry.read, shared.seen entry) :: shared.handed

/-- A step that reads: it stores the bytes in the worker's buffer and makes an entry of it. -/
structure Receives (thread : Thread setup) (next : Own setup thread) (shared after : Shared setup)
    (event : Event setup) (worker : Fin setup.connThreads) (bytes : Text) : Prop where
  isWorker : thread = .conn worker
  event : event = .receive worker shared.returned.length bytes
  entries : entriesOf thread next = [⟨worker, shared.returned.length⟩]
  after : after = shared.filled worker bytes

/-- What a step can do to buffers and entries. -/
theorem receives_or_quiet {thread : Thread setup} {own next : Own setup thread}
    {shared after : Shared setup} {event : Event setup}
    (taken : program thread own shared event next after) :
    (∃ worker bytes, Receives thread next shared after event worker bytes) ∨
      Quiet thread own next shared after event := by
  cases thread with
  | handler => exact .inr (by cases taken <;> exact ⟨rfl, rfl, rfl, fun _ => id, .inl rfl⟩)
  | conn worker =>
      cases taken with
      | receive => exact .inl ⟨worker, _, rfl, rfl, rfl, rfl⟩
      | _ => exact .inr ⟨rfl, rfl, rfl, fun _ => id, .inl rfl⟩
  | read worker =>
      right
      cases taken with
      | pop front =>
          refine ⟨rfl, rfl, rfl, fun entry => ?_, .inl rfl⟩
          simp only [entriesOf, ReadWorker.entries, Monitor.popFront, front, List.tail_cons,
            List.nil_append, List.singleton_append]
          exact id
      | reject =>
          exact ⟨rfl, rfl, rfl, fun _ => List.mem_cons_of_mem _,
            .inr ⟨_, List.mem_cons_self .., rfl⟩⟩
      | turn =>
          exact ⟨rfl, rfl, rfl, fun _ => List.mem_cons_of_mem _,
            .inr ⟨_, List.mem_cons_self .., rfl⟩⟩
      | _ => exact ⟨rfl, rfl, rfl, fun _ => id, .inl rfl⟩
  | flush flusher =>
      right
      cases taken with
      | endExecute => cases flusher <;> exact ⟨rfl, rfl, rfl, fun _ => id, .inl rfl⟩
      | _ => exact ⟨rfl, rfl, rfl, fun _ => id, .inl rfl⟩

namespace Shared

variable {shared after : Shared setup} {entry : Entry setup}

/-- What is intact stays so while buffers and reads stay the same. -/
theorem Intact.congr (intact : shared.Intact entry) (buffer : after.buffer = shared.buffer)
    (returned : after.returned = shared.returned) : after.Intact entry := by
  unfold Intact seen message at *
  rwa [buffer, returned]

/-- Later reads do not change what an earlier one returned. -/
theorem message_append {read : ℕ} (earlier : read < shared.returned.length) {bytes : Text}
    (returned : after.returned = shared.returned ++ [bytes]) :
    read < after.returned.length ∧ after.message read = shared.message read := by
  rw [message, message, returned, List.getD_append _ _ _ _ earlier, List.length_append]
  exact ⟨Nat.lt_add_right _ earlier, rfl⟩

end Shared

/-- An entry in the hands of a connection worker points to its own buffer. -/
theorem buffer_of_mem_entries {worker : Fin setup.connThreads} {own : ConnWorker}
    {entry : Entry setup} (member : entry ∈ ConnWorker.entries worker own) :
    entry.buffer = worker := by
  cases own with
  | readLocking | pushing =>
      rw [List.mem_singleton.mp member]
  | _ => exact (List.not_mem_nil member).elim

namespace AllIntact

variable {before : State setup} {thread : Thread setup} {own next : Own setup thread}
  {shared : Shared setup}

/-- A step that reads nothing overwrites nothing. -/
theorem quiet {event : Event setup} (intact : AllIntact before) (here : before.own thread = own)
    (quiet : Quiet thread own next before.shared shared event) :
    AllIntact ⟨Function.update before.own thread next, shared⟩ := by
  subst here
  have mine : ∀ entry ∈ entriesOf thread next ++ shared.read.queue, shared.Intact entry := by
    intro entry member
    rcases List.mem_append.mp (quiet.entries entry member) with held | queued
    · exact (intact.held thread entry held).congr quiet.buffer quiet.returned
    · exact (intact.queued entry queued).congr quiet.buffer quiet.returned
  have same (read : ℕ) : shared.message read = before.shared.message read := by
    rw [Shared.message, Shared.message, quiet.returned]
  refine ⟨fun entry queued => mine entry (List.mem_append_right _ queued), ?_, ?_⟩
  · intro other entry held
    by_cases isThread : other = thread
    · subst isThread
      simp only [Function.update_self] at held
      exact mine entry (List.mem_append_left _ held)
    · simp only [Function.update_of_ne isThread] at held
      exact (intact.held other entry held).congr quiet.buffer quiet.returned
  · intro pair member
    rw [quiet.returned, same]
    rcases quiet.handed with unchanged | ⟨entry, held, handed⟩
    · rw [unchanged] at member
      exact intact.handed pair member
    · rw [handed] at member
      rcases List.mem_cons.mp member with rfl | earlier
      · exact intact.held thread entry held
      · exact intact.handed pair earlier

/-- A read that spares the pending entries overwrites nothing. -/
theorem receive {after : State setup} {event : Event setup} {worker : Fin setup.connThreads}
    {bytes : Text} (intact : AllIntact before)
    (receives : Receives thread next before.shared shared event worker bytes)
    (spares : Spares ⟨before, event, after⟩) :
    AllIntact ⟨Function.update before.own thread next, shared⟩ := by
  obtain rfl := receives.isWorker
  have returned : shared.returned = before.shared.returned ++ [bytes] := by
    rw [receives.after, Shared.filled]
  have buffer : shared.buffer = Function.update before.shared.buffer worker
      (bytes ++ (before.shared.buffer worker).drop bytes.length) := by
    rw [receives.after, Shared.filled]
  have kept (entry : Entry setup) (intactBefore : before.shared.Intact entry)
      (pending : entry.buffer = worker → Pending before entry) : shared.Intact entry := by
    obtain ⟨earlier, seen⟩ := intactBefore
    obtain ⟨later, same⟩ := Shared.message_append earlier returned
    refine ⟨later, ?_⟩
    rw [Shared.seen, same, buffer]
    by_cases isWorker : entry.buffer = worker
    · rw [isWorker, Function.update_self,
        spares worker _ bytes receives.event entry (pending isWorker) isWorker, ← isWorker]
      exact seen
    · rw [Function.update_of_ne isWorker]
      exact seen
  refine ⟨fun entry queued => ?_, ?_, ?_⟩
  · rw [receives.after] at queued
    exact kept entry (intact.queued entry queued) fun _ => .inl queued
  · intro other entry held
    by_cases isThread : other = .conn worker
    · -- the new entry is in front of its own buffer
      subst isThread
      simp only [Function.update_self, receives.entries, List.mem_singleton] at held
      subst held
      have isMessage : shared.message before.shared.returned.length = bytes := by
        simp [Shared.message, returned]
      refine ⟨by simp [returned], ?_⟩
      rw [Shared.seen, isMessage, buffer, Function.update_self, List.take_left]
    · simp only [Function.update_of_ne isThread] at held
      refine kept entry (intact.held other entry held) fun isWorker => ?_
      cases other with
      | conn second =>
          exact (isThread (congrArg _ ((buffer_of_mem_entries held).symm.trans isWorker))).elim
      | read reader => exact .inr ⟨reader, held⟩
      | _ => exact (List.not_mem_nil held).elim
  · intro pair member
    rw [receives.after] at member
    obtain ⟨earlier, text⟩ := intact.handed pair member
    obtain ⟨later, same⟩ := Shared.message_append earlier returned
    exact ⟨later, text.trans same.symm⟩

end AllIntact

/-- A step that spares the entries keeps them intact. -/
theorem allIntact_step {before after : State setup} {event : Event setup}
    (intact : AllIntact before) (step : Step before event after)
    (spares : Spares ⟨before, event, after⟩) : AllIntact after := by
  obtain ⟨thread, own, next, shared, here, taken, rfl⟩ := step.exists_taken
  rcases receives_or_quiet taken with ⟨worker, bytes, receives⟩ | quiet
  · exact intact.receive receives spares
  · exact intact.quiet here quiet

theorem allIntact_of_starts {state : State setup} (starts : Starts state) : AllIntact state := by
  obtain ⟨buffer, _, rfl⟩ := starts
  refine ⟨nofun, fun thread => ?_, nofun⟩
  cases thread <;> exact nofun

/-- What a run that spares its pending entries keeps throughout. -/
theorem allIntact_of_spares {moves : List (Move (Own setup) (Shared setup) (Event setup))}
    {state : State setup} (run : Run moves state) (spares : ∀ move ∈ moves, Spares move) :
    AllIntact state ∧ ∀ move ∈ moves, AllIntact move.before :=
  run.invariant_of_forall (fun _ => allIntact_of_starts)
    (fun _ _ _ _ intact step spares => allIntact_step intact step spares) spares

/-- Every read is handed to `serialize` by being rejected or turned. -/
theorem handed_balanced : Balanced (@program setup) (fun _ _ => (0 : Multiset ℕ))
    (fun shared => (shared.handed.map Prod.fst : List ℕ))
    (fun shared => (shared.rejected : Multiset ℕ) + shared.turned) := by
  intro thread own shared event next after taken
  cases thread with
  | handler => cases taken <;> rfl
  | conn worker => cases taken <;> rfl
  | read worker =>
      cases taken with
      | reject =>
          simp only [List.map_cons, ← Multiset.cons_coe, ← Multiset.singleton_add]
          abel
      | turn =>
          simp only [List.map_cons, ← Multiset.cons_coe, ← Multiset.singleton_add]
          abel
      | _ => rfl
  | flush flusher => cases taken <;> rfl

/-- The reads handed to `serialize` are those rejected or turned. -/
theorem handed_eq {state : State setup} (reachable : Reachable state) :
    (state.shared.handed.map Prod.fst : Multiset ℕ) =
      (state.shared.rejected : Multiset ℕ) + state.shared.turned := by
  have handed := sum_of_reachable handed_balanced (fun _ => rfl) (fun _ => rfl) reachable
  simpa only [Finset.sum_const_zero, zero_add] using handed

/-- No read is handed to `serialize` twice. -/
theorem handed_le_range {state : State setup} (reachable : Reachable state) :
    (state.shared.handed.map Prod.fst : Multiset ℕ) ≤
      Multiset.range state.shared.returned.length := by
  rw [handed_eq reachable, ← (handedOver reachable).reads,
    add_assoc _ (state.shared.rejected : Multiset ℕ)]
  exact (Multiset.le_add_left _ _).trans (Multiset.le_add_left _ _)

/-- The messages in order are what the reads returned. -/
theorem Shared.map_message (shared : Shared setup) :
    (List.range shared.returned.length).map shared.message = shared.returned := by
  refine List.ext_getElem (by rw [List.length_map, List.length_range]) fun read _ isRead => ?_
  rw [List.getElem_map, List.getElem_range, Shared.message, List.getD_eq_getElem _ _ isRead]

/-- Intact messages are handed on as they were read, none of them twice. -/
theorem AllIntact.handed_le_returned {state : State setup} (intact : AllIntact state)
    (reachable : Reachable state) :
    (state.shared.handed.map Prod.snd : Multiset Text) ≤ state.shared.returned := by
  have texts : state.shared.handed.map Prod.snd =
      (state.shared.handed.map Prod.fst).map state.shared.message := by
    rw [List.map_map]
    exact List.map_congr_left fun pair member => (intact.handed pair member).2
  calc (state.shared.handed.map Prod.snd : Multiset Text)
    _ = (state.shared.handed.map Prod.fst : Multiset ℕ).map state.shared.message := by
      rw [texts, Multiset.map_coe]
    _ ≤ (Multiset.range state.shared.returned.length).map state.shared.message :=
      Multiset.map_le_map (handed_le_range reachable)
    _ = state.shared.returned := by
      rw [Multiset.range, Multiset.map_coe, state.shared.map_message]

/-- Where a buffer is parsed. -/
theorem own_of_serialize {before after : State setup} {worker : Fin setup.readThreads}
    {entry : Entry setup} {source : Text}
    (step : Step before (.serialize worker entry source) after) :
    before.own (.read worker) = ReadWorker.serializing entry ∧
      source = before.shared.buffer entry.buffer := by
  obtain ⟨thread, own, next, shared, here, taken, rfl⟩ := step.exists_taken
  cases thread with
  | read reader =>
      cases taken with
      | reject => exact ⟨here, rfl⟩
      | turn => exact ⟨here, rfl⟩
  | _ => cases taken

/-- What is parsed starts with the message of its entry while messages are intact. -/
theorem AllIntact.take_source {before after : State setup} (intact : AllIntact before)
    {worker : Fin setup.readThreads} {entry : Entry setup} {source : Text}
    (step : Step before (.serialize worker entry source) after) :
    source.take (before.shared.message entry.read).length = before.shared.message entry.read := by
  obtain ⟨here, rfl⟩ := own_of_serialize step
  have held : entry ∈ entriesOf (.read worker) (before.own (.read worker)) := by
    rw [here]
    exact List.mem_cons_self ..
  exact (intact.held _ entry held).2

/-- A read that finds no entry of its buffer pending changes none. -/
theorem Spares.of_not_pending {move : Move (Own setup) (Shared setup) (Event setup)}
    (none : ∀ worker read bytes, move.event = .receive worker read bytes →
      ∀ entry, Pending move.before entry → entry.buffer ≠ worker) : Spares move :=
  fun worker read bytes receives entry pending isWorker =>
    absurd isWorker (none worker read bytes receives entry pending)

/-- A step that reads nothing changes nothing. -/
theorem Spares.of_quiet {before after : State setup} {event : Event setup}
    (quiet : event.isReceive = false) : Spares ⟨before, event, after⟩ := by
  rintro worker read bytes rfl
  exact absurd quiet nofun

/-- A read of what the buffer starts with changes nothing. -/
theorem Spares.of_again {before after : State setup} {worker : Fin setup.connThreads} {read : ℕ}
    {bytes : Text} (start : bytes <+: before.shared.buffer worker) :
    Spares ⟨before, .receive worker read bytes, after⟩ := by
  rintro _ _ _ ⟨rfl, rfl, rfl⟩ entry _ _
  obtain ⟨behind, whole⟩ := start
  simp only [← whole, List.drop_left]

/-- In a run whose reads find no entry of their buffers pending, every buffer is parsed as
it was read. -/
theorem take_source_of_not_pending
    {moves : List (Move (Own setup) (Shared setup) (Event setup))} {state : State setup}
    (run : Run moves state)
    (none : ∀ move ∈ moves, ∀ worker read bytes, move.event = .receive worker read bytes →
      ∀ entry, Pending move.before entry → entry.buffer ≠ worker) :
    ∀ move ∈ moves, ∀ worker entry source, move.event = .serialize worker entry source →
      source.take (move.before.shared.message entry.read).length =
        move.before.shared.message entry.read := by
  intro move member worker entry source parses
  have step := (run.of_mem member).2
  rw [parses] at step
  have spares : ∀ move ∈ moves, Spares move := fun move member =>
    .of_not_pending (none move member)
  exact ((allIntact_of_spares run spares).2 move member).take_source step

/-! ## Reads that find nothing pending -/

/-- A run that spares its pending entries ends in the state. -/
def Spared (state : State setup) : Prop :=
  ∃ moves, Run moves state ∧ ∀ move ∈ moves, Spares move

/-- A read worker has an entry in its hands exactly when it has its read. -/
theorem ReadWorker.card_reads (own : ReadWorker setup) :
    (ReadWorker.reads own).card = (ReadWorker.entries own).length := by
  cases own <;> rfl

/-- Nothing is pending when everything read was handed to `serialize`. -/
theorem not_pending_of_handed {state : State setup} (reachable : Reachable state)
    (all : state.shared.returned.length ≤ state.shared.handed.length) (entry : Entry setup) :
    ¬ Pending state entry := by
  have handed := congrArg Multiset.card (handed_eq reachable)
  have reads := congrArg Multiset.card (handedOver reachable).reads
  simp only [Multiset.card_add, Multiset.coe_card, List.length_map, Multiset.card_range,
    Multiset.card_sum, ReadWorker.card_reads] at handed reads
  rintro (queued | ⟨worker, held⟩)
  · have some := List.length_pos_of_mem queued
    omega
  · have some := List.length_pos_of_mem held
    have inside := Finset.univ.single_le_sum
      (f := fun worker => (ReadWorker.entries (state.own (.read worker))).length)
      (fun _ _ => Nat.zero_le _) (Finset.mem_univ worker)
    omega

/-- What a step does to the numbers of reads and of those handed on. -/
theorem length_le_of_step {before after : State setup} {event : Event setup}
    (step : Step before event after) :
    before.shared.handed.length ≤ after.shared.handed.length ∧
      (after.shared.returned.length = before.shared.returned.length + 1 ∨
        after.shared.returned.length = before.shared.returned.length ∧
          event.isReceive = false) := by
  obtain ⟨thread, own, next, shared, here, taken, rfl⟩ := step.exists_taken
  rcases receives_or_quiet taken with ⟨worker, bytes, receives⟩ | quiet
  · simp [receives.after, Shared.filled]
  · refine ⟨?_, .inr ⟨congrArg List.length quiet.returned, quiet.event⟩⟩
    rcases quiet.handed with same | ⟨entry, _, more⟩
    · exact (congrArg List.length same).ge
    · simp [more]

namespace Spared

variable {before after : State setup}

theorem reachable (spared : Spared before) : Reachable before := by
  obtain ⟨moves, run, _⟩ := spared
  exact ⟨moves, run⟩

theorem step {event : Event setup} (spared : Spared before) (step : Step before event after)
    (spares : Spares ⟨before, event, after⟩) : Spared after := by
  obtain ⟨moves, run, all⟩ := spared
  exact ⟨_, .step run step, List.forall_mem_cons.mpr ⟨spares, all⟩⟩

/-- Where everything read was handed on, one more read has nothing to overwrite. -/
theorem leads (spared : Spared before)
    (all : before.shared.returned.length ≤ before.shared.handed.length)
    (leads : Leads program before after)
    (one : after.shared.returned.length ≤ before.shared.returned.length + 1) : Spared after := by
  suffices kept : before.shared.handed.length ≤ after.shared.handed.length ∧
      (after.shared.returned.length ≤ before.shared.returned.length + 1 → Spared after) from
    kept.2 one
  clear one
  induction leads with
  | refl => exact ⟨Nat.le_refl _, fun _ => spared⟩
  | @tail middle after _ step ih =>
      obtain ⟨event, step⟩ := step
      obtain ⟨handed, returned⟩ := length_le_of_step step
      refine ⟨ih.1.trans handed, fun one => ?_⟩
      rcases returned with more | ⟨same, quiet⟩
      · have spared := ih.2 (by omega)
        refine spared.step step (.of_not_pending fun _ _ _ _ entry pending => ?_)
        exact (not_pending_of_handed spared.reachable (by omega) entry pending).elim
      · exact (ih.2 (by omega)).step step (.of_quiet quiet)

/-- The first read has nothing to overwrite. -/
theorem of_single (reachable : Reachable before) (single : before.shared.returned.length ≤ 1) :
    Spared before := by
  obtain ⟨first, starts, leads⟩ := reachable.exists_start
  have none : first.shared.returned = [] := by
    obtain ⟨buffer, _, rfl⟩ := starts
    rfl
  have spared : Spared first :=
    ⟨[], .start starts, fun _ member => (List.not_mem_nil member).elim⟩
  refine spared.leads ?_ leads ?_
  · simp [none]
  · simpa [none] using single

end Spared

variable (setup) in
/-- One log is parsed, and another one in the same buffer waits to be. -/
theorem exists_second_taken (worker : Fin setup.connThreads) (reader : Fin setup.readThreads) :
    ∃ (own : ∀ thread, Own setup thread) (shared : Shared setup), Spared ⟨own, shared⟩ ∧
      shared.returned = [Serializer.sampleLog, Serializer.otherLog] ∧
      shared.handed.length = 1 ∧
      (∃ connection, own (.conn worker) = ConnWorker.reading connection) ∧
      own (.read reader) = ReadWorker.serializing ⟨worker, 1⟩ ∧
      Serializer.otherLog <+: shared.buffer worker := by
  obtain ⟨start, reachable, serving, isFirst, _⟩ := exists_serving setup worker reader
  obtain ⟨next, leads, servingNext, stored, _⟩ :=
    serving.store Serializer.holdsLog_sampleLog Serializer.sampleLog_fits
  obtain ⟨own, takes, reading, here, _⟩ :=
    servingNext.take Serializer.otherLog Serializer.holdsLog_otherLog.ne_nil
      Serializer.otherLog_fits
  have first : next.shared.returned = [Serializer.sampleLog] := by simp [stored, isFirst]
  have handed : next.shared.handed.length = 1 := by simp [stored, isFirst]
  have spared : Spared next :=
    .of_single (reachable.leads leads) (by rw [first]; exact Nat.le_refl 1)
  refine ⟨own, _, spared.leads ?_ takes ?_, ?_, ?_, reading, ?_, ?_⟩
  · rw [first, handed, List.length_singleton]
  · simp
  · simp [first]
  · simp [handed]
  · rw [here, first, List.length_singleton]
  · have holds : (next.shared.received worker Serializer.otherLog).taken.buffer worker =
        Serializer.otherLog ++
          (next.shared.buffer worker).drop Serializer.otherLog.length := Function.update_self ..
    exact ⟨_, holds.symm⟩

/-- A buffer that a read worker took is parsed with whatever it holds by then. -/
theorem exists_step_serialize {own : ∀ thread, Own setup thread} {reader : Fin setup.readThreads}
    {entry : Entry setup} (here : own (.read reader) = ReadWorker.serializing entry)
    (shared : Shared setup) :
    ∃ after, Step ⟨own, shared⟩ (.serialize reader entry (shared.buffer entry.buffer)) after ∧
      after.shared.returned = shared.returned ∧
      after.shared.handed = (entry.read, shared.seen entry) :: shared.handed := by
  cases verdict : (Serializer.serialize setup.target (shared.buffer entry.buffer)).log.isVaild with
  | false => exact ⟨_, .of_own here (ReadStep.reject verdict), rfl, rfl⟩
  | true => exact ⟨_, .of_own here (ReadStep.turn verdict), rfl, rfl⟩

/-- **Messages.** In a run whose reads spare the pending entries every buffer is parsed as
it was read, and the messages parsed are among those read. -/
theorem intact_of_spares {moves : List (Move (Own setup) (Shared setup) (Event setup))}
    {state : State setup} (run : Run moves state) (spares : ∀ move ∈ moves, Spares move) :
    (∀ move ∈ moves, ∀ worker entry source, move.event = .serialize worker entry source →
      source.take (move.before.shared.message entry.read).length =
        move.before.shared.message entry.read) ∧
      (state.shared.handed.map Prod.snd : Multiset Text) ≤ state.shared.returned := by
  obtain ⟨intact, intactBefore⟩ := allIntact_of_spares run spares
  refine ⟨fun move member worker entry source parses => ?_, intact.handed_le_returned run.reachable⟩
  have step := (run.of_mem member).2
  rw [parses] at step
  exact (intactBefore move member).take_source step

variable (setup) in
/-- Two logs are read into one buffer, and the second once more while it waits. -/
theorem exists_repeated (worker : Fin setup.connThreads) (reader : Fin setup.readThreads) :
    ∃ (moves : List (Move (Own setup) (Shared setup) (Event setup))) (state : State setup),
      Run moves state ∧ (∀ move ∈ moves, Spares move) ∧
        state.shared.returned =
          [Serializer.sampleLog, Serializer.otherLog, Serializer.otherLog] ∧
        state.shared.handed.length = 2 ∧
        ∃ move ∈ moves, ∃ read bytes, move.event = .receive worker read bytes ∧
          Pending move.before ⟨worker, 1⟩ := by
  obtain ⟨own, shared, ⟨moves, run, spares⟩, returned, handed, ⟨connection, reading⟩, here,
    start⟩ := exists_second_taken setup worker reader
  let again := ConnWorker.readLocking connection shared.returned.length
  have receives : program (.conn worker) (ConnWorker.reading connection) shared
      (.receive worker shared.returned.length Serializer.otherLog) again
      (shared.filled worker Serializer.otherLog) :=
    ConnStep.receive Serializer.holdsLog_otherLog.ne_nil Serializer.otherLog_fits
  have repeats := Threads.Step.of_own reading receives
  have still : Function.update own (.conn worker) again (.read reader) =
      ReadWorker.serializing ⟨worker, 1⟩ := by
    simp only [ne_eq, reduceCtorEq, not_false_eq_true, Function.update_of_ne, here]
  obtain ⟨after, step, same, parsed⟩ :=
    exists_step_serialize still (shared.filled worker Serializer.otherLog)
  have waits : Pending ⟨own, shared⟩ ⟨worker, 1⟩ := by
    refine .inr ⟨reader, ?_⟩
    dsimp only
    rw [here]
    exact List.mem_cons_self ..
  refine ⟨_, after, .step (.step run repeats) step, ?_, ?_, ?_, _,
    List.mem_cons_of_mem _ (List.mem_cons_self ..), _, _, rfl, waits⟩
  · exact List.forall_mem_cons.mpr
      ⟨.of_quiet rfl, List.forall_mem_cons.mpr ⟨.of_again start, spares⟩⟩
  · rw [same, Shared.filled, returned]
    rfl
  · rw [parsed, List.length_cons, Shared.filled, handed]

/-- Two messages are parsed as they were read, though their worker reads on meanwhile. -/
theorem intact_of_spares_repeated :
    ∃ (moves : List (Move (Own _) (Shared (.run .postgres .wrapping)) (Event _)))
      (state : State (.run .postgres .wrapping)),
      Run moves state ∧
        (∃ move ∈ moves, ∃ read bytes, move.event = .receive ⟨0, by decide⟩ read bytes ∧
          Pending move.before ⟨⟨0, by decide⟩, 1⟩) ∧
        state.shared.handed.length = 2 ∧
        (∀ move ∈ moves, ∀ worker entry source, move.event = .serialize worker entry source →
          source.take (move.before.shared.message entry.read).length =
            move.before.shared.message entry.read) ∧
        (state.shared.handed.map Prod.snd : Multiset Text) ≤ state.shared.returned := by
  obtain ⟨moves, state, run, spares, _, handed, waits⟩ :=
    exists_repeated (.run .postgres .wrapping) ⟨0, by decide⟩ ⟨0, by decide⟩
  exact ⟨moves, state, run, waits, handed, intact_of_spares run spares⟩

variable (setup) in
/-- A message that still waits is overwritten by the next read of its worker. -/
theorem exists_overwritten (worker : Fin setup.connThreads) (reader : Fin setup.readThreads) :
    ∃ before after : State setup, Reachable before ∧
      Step before (.serialize reader ⟨worker, 0⟩ (before.shared.buffer worker)) after ∧
      before.shared.message 0 = Serializer.sampleLog ∧
      (before.shared.buffer worker).take 1 = text "2" := by
  obtain ⟨start, reachable, serving, isFirst, _⟩ := exists_serving setup worker reader
  have none : start.shared.returned = [] := by rw [isFirst, returned_firstTaken]
  obtain ⟨own, takes, ⟨connection, reading⟩, here, _⟩ :=
    serving.take Serializer.sampleLog Serializer.holdsLog_sampleLog.ne_nil Serializer.sampleLog_fits
  let shared := (start.shared.received worker Serializer.sampleLog).taken
  -- the connection worker reads on while the read worker holds its buffer
  let again := ConnWorker.readLocking connection shared.returned.length
  have receives : program (.conn worker) (ConnWorker.reading connection) shared
      (.receive worker shared.returned.length (text "2")) again (shared.filled worker (text "2")) :=
    ConnStep.receive (List.cons_ne_nil _ _) (by decide +kernel)
  have overwrites := Threads.Step.of_own reading receives
  have still : Function.update own (.conn worker) again (.read reader) =
      ReadWorker.serializing ⟨worker, 0⟩ := by
    simp only [ne_eq, reduceCtorEq, not_false_eq_true, Function.update_of_ne, here, none,
      List.length_nil]
  obtain ⟨after, step, _⟩ := exists_step_serialize still (shared.filled worker (text "2"))
  refine ⟨_, after, (reachable.leads takes).step overwrites, step, ?_, ?_⟩
  · simp [Shared.message, Shared.filled, shared, Shared.taken, Shared.received, none]
  · simp [Shared.filled, text]

/-- A message can be gone before it is parsed. -/
theorem not_intact :
    ¬ ∀ (setup : Setup) (moves : List (Move (Own setup) (Shared setup) (Event setup)))
      (state : State setup), Run moves state →
        ∀ move ∈ moves, ∀ worker entry source, move.event = .serialize worker entry source →
          source.take (move.before.shared.message entry.read).length =
            move.before.shared.message entry.read := by
  intro always
  obtain ⟨before, after, ⟨moves, run⟩, step, message, front⟩ :=
    exists_overwritten (.run .postgres .wrapping) ⟨0, by decide⟩ ⟨0, by decide⟩
  have same := always _ _ after (.step run step) _ (List.mem_cons_self ..) _ _ _ rfl
  rw [message] at same
  have first := congrArg (List.take 1) same
  rw [Serializer.length_sampleLog, List.take_take, Nat.min_eq_left (by decide), front] at first
  exact absurd first (by decide +kernel)

end Evenscribe.Pipeline
