import Mathlib.Data.Finset.Basic
import Mathlib.Logic.Function.Basic
import Mathlib.Tactic.Common

/-!
# A queue under a mutex with a condition variable

A monitor is a mutex, the threads that wait on its condition variable and the
queue that the mutex guards. A thread is outside the critical section, inside
it, or inside it with a broadcast owed since it added to the queue. Threads that
only act as `Act` allows exclude each other (`Guarded.exclusive`) and no thread
waits on a queue that is not short while the mutex is free (`Guarded.short_of_free`).
-/

universe u v

/-- A queue with its mutex and its condition variable. -/
structure Monitor (Thread : Type u) (Item : Type v) where
  /-- The thread that holds the mutex. -/
  holder : Option Thread
  /-- The threads that wait on the condition variable. -/
  waiting : Finset Thread
  queue : List Item

namespace Monitor

variable {Thread : Type u} {Item : Type v}

/-- `pthread_mutex_lock`, where the mutex is free. -/
def acquire (monitor : Monitor Thread Item) (thread : Thread) : Monitor Thread Item :=
  { monitor with holder := some thread }

/-- `pthread_mutex_unlock`. -/
def release (monitor : Monitor Thread Item) : Monitor Thread Item :=
  { monitor with holder := none }

/-- `pthread_cond_broadcast` wakes all who wait. -/
def broadcast (monitor : Monitor Thread Item) : Monitor Thread Item :=
  { monitor with waiting := ∅ }

/-- An item is put in front of the queue. -/
def pushFront (monitor : Monitor Thread Item) (item : Item) : Monitor Thread Item :=
  { monitor with queue := item :: monitor.queue }

/-- The item in front of the queue is taken. -/
def popFront (monitor : Monitor Thread Item) : Monitor Thread Item :=
  { monitor with queue := monitor.queue.tail }

/-- Where a thread stands to a monitor. -/
inductive Standing where
  | outside
  | inside
  | owing
  deriving DecidableEq

/-- The discipline of a monitor: the thread inside is the one that holds the mutex,
and while threads wait on a queue that is not short, someone owes them a broadcast. -/
structure Guarded (short : List Item → Prop) (standing : Thread → Standing)
    (monitor : Monitor Thread Item) : Prop where
  exclusive : ∀ thread, standing thread ≠ .outside ↔ monitor.holder = some thread
  settled : monitor.waiting = ∅ ∨ short monitor.queue ∨ ∃ thread, standing thread = .owing

/-- A free monitor with an empty queue is guarded when nobody is inside. -/
theorem guarded_initial {short : List Item → Prop} {standing : Thread → Standing}
    (outside : ∀ thread, standing thread = .outside) :
    Guarded short standing (⟨none, ∅, []⟩ : Monitor Thread Item) :=
  ⟨fun thread => iff_of_false (not_not.mpr (outside thread)) nofun, .inl rfl⟩

namespace Guarded

variable {short : List Item → Prop} {standing : Thread → Standing} {monitor : Monitor Thread Item}

/-- While one thread is inside, every other one is outside. -/
theorem outside_of_ne (guarded : Guarded short standing monitor) {thread other : Thread}
    (inside : standing thread ≠ .outside) (different : other ≠ thread) :
    standing other = .outside := by
  by_contra otherInside
  have holds := (guarded.exclusive thread).mp inside
  have otherHolds := (guarded.exclusive other).mp otherInside
  exact different (Option.some.inj (otherHolds.symm.trans holds))

/-- **No lost wake-up.** While the mutex is free, threads wait on a short queue only. -/
theorem short_of_free (guarded : Guarded short standing monitor) (free : monitor.holder = none)
    (waits : monitor.waiting.Nonempty) : short monitor.queue := by
  rcases guarded.settled with nobody | isShort | ⟨thread, owes⟩
  · exact (waits.ne_empty nobody).elim
  · exact isShort
  · have holds := (guarded.exclusive thread).mp (by rw [owes]; exact nofun)
    exact (Option.some_ne_none thread (holds.symm.trans free)).elim

end Guarded

variable [DecidableEq Thread]

/-- Release the mutex and join the waiting threads, as one step. -/
def wait (monitor : Monitor Thread Item) (thread : Thread) : Monitor Thread Item :=
  { monitor with holder := none, waiting := insert thread monitor.waiting }

/-- A spurious wake-up. -/
def wake (monitor : Monitor Thread Item) (thread : Thread) : Monitor Thread Item :=
  { monitor with waiting := monitor.waiting.erase thread }

/-- What one step of a thread may do to a monitor and to its standing. `short` holds
of the queues a thread may wait on. -/
inductive Act (short : List Item → Prop) (thread : Thread) :
    Standing → Monitor Thread Item → Standing → Monitor Thread Item → Prop where
  | idle (standing : Standing) (monitor : Monitor Thread Item) :
      Act short thread standing monitor standing monitor
  | acquire {monitor : Monitor Thread Item} (free : monitor.holder = none) :
      Act short thread .outside monitor .inside (monitor.acquire thread)
  | release {monitor : Monitor Thread Item} :
      Act short thread .inside monitor .outside monitor.release
  | wait {monitor : Monitor Thread Item} (isShort : short monitor.queue) :
      Act short thread .inside monitor .outside (monitor.wait thread)
  | wake {monitor : Monitor Thread Item} :
      Act short thread .outside monitor .outside (monitor.wake thread)
  | pushFront {monitor : Monitor Thread Item} (item : Item) :
      Act short thread .inside monitor .owing (monitor.pushFront item)
  | broadcast {monitor : Monitor Thread Item} :
      Act short thread .owing monitor .inside monitor.broadcast
  | popFront {monitor : Monitor Thread Item} :
      Act short thread .inside monitor .inside monitor.popFront

namespace Guarded

variable {short : List Item → Prop} {standing : Thread → Standing} {monitor : Monitor Thread Item}

/-- A step of a thread that was and stays outside keeps who holds the mutex. -/
theorem exclusive_update_self (guarded : Guarded short standing monitor) {thread : Thread}
    {after : Standing} (same : after ≠ .outside ↔ standing thread ≠ .outside) (other : Thread) :
    Function.update standing thread after other ≠ .outside ↔ monitor.holder = some other := by
  by_cases isSelf : other = thread
  · rw [isSelf, Function.update_self, same, guarded.exclusive]
  · rw [Function.update_of_ne isSelf, guarded.exclusive]

/-- A free mutex is taken by nobody but the thread that acquires it. -/
theorem exclusive_update_acquire (guarded : Guarded short standing monitor) {thread : Thread}
    {after : Standing} (free : monitor.holder = none) (inside : after ≠ .outside) (other : Thread) :
    Function.update standing thread after other ≠ .outside ↔ some thread = some other := by
  by_cases isSelf : other = thread
  · rw [isSelf, Function.update_self]
    exact iff_of_true inside rfl
  · rw [Function.update_of_ne isSelf, guarded.exclusive, free]
    exact iff_of_false nofun fun same => isSelf (Option.some.inj same).symm

/-- A thread that leaves the critical section leaves it empty. -/
theorem exclusive_update_leave (guarded : Guarded short standing monitor) {thread : Thread}
    (inside : standing thread ≠ .outside) (other : Thread) :
    Function.update standing thread .outside other ≠ .outside ↔ none = some other := by
  refine iff_of_false (fun otherInside => otherInside ?_) nofun
  by_cases isSelf : other = thread
  · rw [isSelf, Function.update_self]
  · rw [Function.update_of_ne isSelf, guarded.outside_of_ne inside isSelf]

/-- Someone who owes a broadcast goes on owing it while another thread steps. -/
theorem owing_update {thread : Thread} {after : Standing} (notOwing : standing thread ≠ .owing)
    (owed : ∃ other, standing other = .owing) :
    ∃ other, Function.update standing thread after other = .owing := by
  obtain ⟨other, owes⟩ := owed
  have different : other ≠ thread := by
    rintro rfl
    exact notOwing owes
  exact ⟨other, by rw [Function.update_of_ne different, owes]⟩

/-- The discipline survives every act, when a queue that gets shorter stays short. -/
theorem act (guarded : Guarded short standing monitor)
    (shrinks : ∀ queue, short queue → short queue.tail) {thread : Thread} {after : Standing}
    {next : Monitor Thread Item} (acts : Act short thread (standing thread) monitor after next) :
    Guarded short (Function.update standing thread after) next := by
  generalize here : standing thread = before at acts
  -- nobody else is owed a broadcast by a thread inside
  have alone : standing thread = .inside → monitor.waiting = ∅ ∨ short monitor.queue := by
    intro inside
    rcases guarded.settled with nobody | isShort | ⟨other, owes⟩
    · exact .inl nobody
    · exact .inr isShort
    · by_cases isSelf : other = thread
      · rw [isSelf, inside] at owes
        exact nomatch owes
      · rw [guarded.outside_of_ne (by rw [inside]; exact nofun) isSelf] at owes
        exact nomatch owes
  cases acts with
  | idle => rwa [← here, Function.update_eq_self]
  | acquire free =>
      refine ⟨guarded.exclusive_update_acquire free nofun, ?_⟩
      exact guarded.settled.imp_right (Or.imp_right (owing_update (by rw [here]; exact nofun)))
  | release =>
      refine ⟨guarded.exclusive_update_leave (by rw [here]; exact nofun), ?_⟩
      exact (alone here).imp_right .inl
  | wait isShort =>
      exact ⟨guarded.exclusive_update_leave (by rw [here]; exact nofun), .inr (.inl isShort)⟩
  | wake =>
      refine ⟨guarded.exclusive_update_self (by rw [here]), ?_⟩
      rcases guarded.settled with nobody | isShort | owed
      · left
        change monitor.waiting.erase thread = ∅
        rw [nobody, Finset.erase_empty]
      · exact .inr (.inl isShort)
      · exact .inr (.inr (owing_update (by rw [here]; exact nofun) owed))
  | pushFront item =>
      refine ⟨guarded.exclusive_update_self (by rw [here]; exact iff_of_true nofun nofun), ?_⟩
      exact .inr (.inr ⟨thread, Function.update_self ..⟩)
  | broadcast =>
      exact ⟨guarded.exclusive_update_self (by rw [here]; exact iff_of_true nofun nofun), .inl rfl⟩
  | popFront =>
      refine ⟨guarded.exclusive_update_self (by rw [here]), ?_⟩
      exact (alone here).imp_right fun isShort => .inl (shrinks _ isShort)

/-- The queue changes only by the thread that is inside. -/
theorem queue_eq_of_ne (guarded : Guarded short standing monitor) {thread inside : Thread}
    {after : Standing} {next : Monitor Thread Item}
    (acts : Act short thread (standing thread) monitor after next)
    (isInside : standing inside ≠ .outside) (different : thread ≠ inside) :
    next.queue = monitor.queue := by
  rw [guarded.outside_of_ne isInside different] at acts
  cases acts <;> rfl

end Guarded

end Monitor
