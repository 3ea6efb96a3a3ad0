import Mathlib.Data.List.Nodup
import Mathlib.Data.List.Perm.Subperm
import Mathlib.Tactic.Common

/-!
# The order in which items pass a queue

The items pushed so far and the items removed so far, in order, tell whether one
item overtook another. A queue that is pushed and popped at its front keeps the
order exactly as long as every item removed is alone in it
(`Tracked.inOrder_cross_iff`).
-/

universe u

/-- What passed through a queue, each list in the order of time. -/
structure Passage (Item : Type u) where
  pushed : List Item
  removed : List Item

/-- What an event means for a queue. -/
inductive Crossing (Item : Type u) where
  | push (item : Item)
  | remove (item : Item)
  | none

namespace Passage

variable {Item : Type u}

/-- One more item goes in. -/
def push (passage : Passage Item) (item : Item) : Passage Item :=
  { passage with pushed := passage.pushed ++ [item] }

/-- One more item comes out. -/
def remove (passage : Passage Item) (item : Item) : Passage Item :=
  { passage with removed := passage.removed ++ [item] }

/-- What one step does to the passage. -/
def cross (passage : Passage Item) : Crossing Item → Passage Item
  | .push item => passage.push item
  | .remove item => passage.remove item
  | .none => passage

/-- One item stands before another. -/
def Before (items : List Item) (first second : Item) : Prop := [first, second].Sublist items

/-- Nothing is overtaken: what was pushed before a removed item was removed before it. -/
def InOrder (passage : Passage Item) : Prop :=
  ∀ first second, Before passage.pushed first second → second ∈ passage.removed →
    Before passage.removed first second

/-- The passage of a queue whose front is the item pushed last. -/
structure Tracked (passage : Passage Item) (queue : List Item) : Prop where
  distinct : passage.pushed.Nodup
  places : (passage.removed ++ queue).Perm passage.pushed
  newestFirst : queue.reverse.Sublist passage.pushed

variable {passage : Passage Item} {queue : List Item} {item : Item}

theorem Before.mem_left {items : List Item} {first second : Item}
    (before : Before items first second) : first ∈ items :=
  before.subset (List.mem_cons_self ..)

theorem before_append_singleton {items : List Item} {first : Item} (member : first ∈ items)
    (last : Item) : Before (items ++ [last]) first last :=
  (List.singleton_sublist.mpr member).append (List.Sublist.refl [last])

/-- Behind a new last item, the order of the others is that of before. -/
theorem before_of_append {items : List Item} {first second : Item}
    (before : Before (items ++ [item]) first second) (different : second ≠ item) :
    Before items first second := by
  obtain ⟨front, back, same, frontSub, backSub⟩ := List.sublist_append_iff.mp before
  cases back with
  | nil =>
      rw [List.append_nil] at same
      rwa [Before, same]
  | cons last others =>
      have ends : others = [] ∧ last = item := by
        have short := backSub.length_le
        cases others with
        | nil => simpa using backSub
        | cons other others => simp at short
      obtain ⟨rfl, rfl⟩ := ends
      have isLast : second = last := by
        have tails := congrArg List.getLast? same
        simpa using tails
      exact (different isLast).elim

theorem tracked_nil : Tracked (⟨[], []⟩ : Passage Item) [] :=
  ⟨List.nodup_nil, .refl _, .refl _⟩

namespace Tracked

/-- A fresh item goes to the front of the queue. -/
theorem push (tracked : Tracked passage queue) (fresh : item ∉ passage.pushed) :
    Tracked (passage.push item) (item :: queue) := by
  refine ⟨?_, ?_, ?_⟩
  · exact List.nodup_append'.mpr ⟨tracked.distinct, List.nodup_singleton item,
      List.disjoint_singleton.mpr fresh⟩
  · exact (List.perm_middle.trans (tracked.places.cons item)).trans
      (List.perm_append_singleton item passage.pushed).symm
  · rw [List.reverse_cons]
    exact tracked.newestFirst.append (.refl _)

/-- The front of the queue comes out. -/
theorem remove (tracked : Tracked passage (item :: queue)) :
    Tracked (passage.remove item) queue := by
  refine ⟨tracked.distinct, ?_, ?_⟩
  · change (passage.removed ++ [item] ++ queue).Perm passage.pushed
    rw [List.append_assoc]
    exact tracked.places
  · have all := tracked.newestFirst
    rw [List.reverse_cons] at all
    exact (List.sublist_append_left _ _).trans all

/-- What came out went in. -/
theorem mem_pushed_of_mem_removed (tracked : Tracked passage queue)
    (member : item ∈ passage.removed) : item ∈ passage.pushed :=
  tracked.places.subset (List.mem_append_left _ member)

/-- A push is never out of order. -/
theorem inOrder_push_iff (tracked : Tracked passage queue) (fresh : item ∉ passage.pushed) :
    InOrder (passage.push item) ↔ InOrder passage := by
  constructor
  · intro inOrder first second before removed
    exact inOrder first second (before.trans (List.sublist_append_left _ _)) removed
  · intro inOrder first second before removed
    have different : second ≠ item := by
      rintro rfl
      exact fresh (tracked.mem_pushed_of_mem_removed removed)
    exact inOrder first second (before_of_append before different) removed

/-- A removal keeps the order exactly when it takes the only item there is. -/
theorem inOrder_remove_iff (tracked : Tracked passage (item :: queue))
    (inOrder : InOrder passage) : InOrder (passage.remove item) ↔ queue = [] := by
  have distinct : (passage.removed ++ item :: queue).Nodup :=
    tracked.places.nodup_iff.mpr tracked.distinct
  constructor
  · intro after
    cases queue with
    | nil => rfl
    | cons older rest =>
        -- the item below the front was pushed before it and is still there
        have before : Before passage.pushed older item := by
          have all := tracked.newestFirst
          rw [List.reverse_cons, List.reverse_cons, List.append_assoc] at all
          exact (List.sublist_append_right _ _).trans all
        have overtaken :=
          after older item before (List.mem_append_right _ (List.mem_singleton_self _))
        have gone : older ∈ passage.removed ++ [item] := overtaken.mem_left
        rw [List.append_cons] at distinct
        exact (List.disjoint_of_nodup_append distinct gone (List.mem_cons_self ..)).elim
  · rintro rfl first second before removed
    rcases List.mem_append.mp removed with earlier | last
    · exact (inOrder first second before earlier).trans (List.sublist_append_left _ _)
    · obtain rfl := List.mem_singleton.mp last
      have member : first ∈ passage.removed ++ [second] :=
        tracked.places.symm.subset before.mem_left
      rcases List.mem_append.mp member with earlier | same
      · exact before_append_singleton earlier second
      · obtain rfl := List.mem_singleton.mp same
        have twice := before.nodup tracked.distinct
        exact (List.nodup_cons.mp twice).1 (List.mem_cons_self ..) |>.elim

end Tracked

end Passage

namespace Crossing

variable {Item : Type u}

/-- The crossing takes place at the front of the queue. -/
def AtFront : Crossing Item → List Item → List Item → Prop
  | .push item, before, after => after = item :: before
  | .remove item, before, after => before = item :: after
  | .none, before, after => after = before

/-- An item that is pushed was not pushed before. -/
def Fresh : Crossing Item → Passage Item → Prop
  | .push item, passage => item ∉ passage.pushed
  | _, _ => True

/-- An item that is removed is alone in the queue. -/
def Alone : Crossing Item → List Item → Prop
  | .remove item, queue => queue = [item]
  | _, _ => True

end Crossing

namespace Passage.Tracked

variable {Item : Type u} {passage : Passage Item} {before after : List Item}
  {crossing : Crossing Item}

/-- A step at the front keeps track of the queue. -/
theorem cross (tracked : Tracked passage before) (fresh : crossing.Fresh passage)
    (front : crossing.AtFront before after) : Tracked (passage.cross crossing) after := by
  cases crossing with
  | push item =>
      obtain rfl : after = item :: before := front
      exact tracked.push fresh
  | remove item =>
      obtain rfl : before = item :: after := front
      exact tracked.remove
  | none =>
      obtain rfl : after = before := front
      exact tracked

/-- **Order at the front.** A crossing keeps the order exactly when it removes no item
above another. -/
theorem inOrder_cross_iff (tracked : Tracked passage before) (fresh : crossing.Fresh passage)
    (front : crossing.AtFront before after) (inOrder : InOrder passage) :
    InOrder (passage.cross crossing) ↔ crossing.Alone before := by
  cases crossing with
  | push item => exact iff_of_true ((tracked.inOrder_push_iff fresh).mpr inOrder) trivial
  | remove item =>
      obtain rfl : before = item :: after := front
      have alone : Crossing.Alone (.remove item) (item :: after) ↔ after = [] := by
        simp [Crossing.Alone]
      exact (tracked.inOrder_remove_iff inOrder).trans alone.symm
  | none => exact iff_of_true inOrder trivial

end Passage.Tracked
