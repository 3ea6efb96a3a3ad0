import Mathlib.Logic.Function.Basic
import Mathlib.Data.List.Induction
import Mathlib.Tactic.Common

/-!
# Trees of directories

A place is the list of names that leads to it. Whatever there is lies in a directory, so
that all places above an entry are directories (`Tree.entry_of_prefix`). A directory is
made only where nothing is, only in a directory, and may be refused even there.

Making sure of one place after another (`ensureAll`) leaves every entry as it was and
adds only directories on the way, up to the first place where none can be made
(`ensureAll_settles`). Any entry is taken for a directory, so that a path is delivered
exactly when nothing else was there (`ensureAll_delivers_iff`).
-/

namespace Directories

universe u v

/-- What there is at each place. -/
structure Tree (Name : Type u) {Kind : Type v} (directory : Kind) where
  entry : List Name → Option Kind
  root : entry [] = some directory
  parent : ∀ place, entry place ≠ none → entry place.dropLast = some directory

variable {Name : Type u} {Kind : Type v} {directory : Kind}

namespace Tree

variable (tree : Tree Name directory) {above place : List Name}

/-- Nothing but a directory is at the place. -/
def Unblocked (place : List Name) : Prop :=
  tree.entry place = none ∨ tree.entry place = some directory

variable {tree} in
theorem present_of_entry {kind : Kind} (there : tree.entry place = some kind) :
    tree.entry place ≠ none := by
  rw [there]
  exact Option.some_ne_none kind

/-- Everything above an entry is a directory. -/
theorem entry_of_prefix (higher : above <+: place) (strict : above ≠ place)
    (present : tree.entry place ≠ none) : tree.entry above = some directory := by
  obtain ⟨rest, rfl⟩ := higher
  induction rest using List.reverseRecOn with
  | nil => exact absurd (List.append_nil above).symm strict
  | append_singleton rest name ih =>
      have inside := tree.parent _ present
      rw [← List.append_assoc, List.dropLast_concat] at inside
      by_cases last : rest = []
      · simpa only [last, List.append_nil] using inside
      · apply ih
        · simpa only [ne_eq, List.self_eq_append_right] using last
        · exact present_of_entry inside

variable [DecidableEq Name]

/-- The tree that is nothing but its root. -/
def bare : Tree Name directory where
  entry place := if place = [] then some directory else none
  root := if_pos rfl
  parent := by
    intro place present
    obtain rfl : place = [] := by
      by_contra other
      exact present (if_neg other)
    exact if_pos rfl

/-- The tree with an entry more, in a directory and where nothing was. -/
def add (place : List Name) (kind : Kind) (inside : tree.entry place.dropLast = some directory)
    (absent : tree.entry place = none) : Tree Name directory where
  entry := Function.update tree.entry place (some kind)
  root := by
    have other : [] ≠ place := by
      rintro rfl
      simp only [tree.root, reduceCtorEq] at absent
    rw [Function.update_of_ne other, tree.root]
  parent := by
    intro other present
    have old : tree.entry other.dropLast = some directory := by
      by_cases same : other = place
      · rw [same, inside]
      · rw [Function.update_of_ne same] at present
        exact tree.parent other present
    have different : other.dropLast ≠ place := by
      intro same
      simp only [same, absent, reduceCtorEq] at old
    rw [Function.update_of_ne different, old]

section Add

variable {tree} {kind : Kind} {inside : tree.entry place.dropLast = some directory}
  {absent : tree.entry place = none}

@[simp] theorem add_entry_self : (tree.add place kind inside absent).entry place = some kind :=
  Function.update_self ..

/-- Adding changes no other place. -/
theorem add_entry_of_ne {other : List Name} (different : other ≠ place) :
    (tree.add place kind inside absent).entry other = tree.entry other :=
  Function.update_of_ne different ..

end Add

end Tree

/-- A tree keeps its entries and gains directories on the way to a place. -/
structure Grows (path : List Name) (before after : Tree Name directory) : Prop where
  kept : ∀ place, before.entry place ≠ none → after.entry place = before.entry place
  added : ∀ place, before.entry place = none → after.entry place ≠ none →
    place <+: path ∧ after.entry place = some directory

namespace Grows

variable {path : List Name} {first second third : Tree Name directory}

theorem refl (tree : Tree Name directory) : Grows path tree tree where
  kept _ _ := rfl
  added _ absent present := absurd absent present

theorem trans (earlier : Grows path first second) (later : Grows path second third) :
    Grows path first third where
  kept place present := by
    have between := earlier.kept place present
    rw [later.kept place (between ▸ present), between]
  added place absent present := by
    by_cases between : second.entry place = none
    · exact later.added place between present
    · have kept := later.kept place between
      rw [kept]
      exact earlier.added place absent between

/-- What is a directory stays one, and what is new is one. -/
theorem entry_eq (grows : Grows path first second) {place : List Name}
    (unblocked : first.Unblocked place) (present : second.entry place ≠ none) :
    second.entry place = some directory := by
  rcases unblocked with absent | already
  · exact (grows.added place absent present).2
  · rw [grows.kept place (Tree.present_of_entry already), already]

end Grows

section Ensure

variable [DecidableEq Name] [DecidableEq Kind]
  (permits : Tree Name directory → List Name → Bool)

/-- The tree with a directory made at a place, if that is possible and permitted. -/
def make (tree : Tree Name directory) (place : List Name) : Option (Tree Name directory) :=
  if possible : tree.entry place.dropLast = some directory ∧ tree.entry place = none then
    if permits tree place then some (tree.add place directory possible.1 possible.2) else none
  else none

/-- A directory is made at a place where nothing is. The answer says whether there is
something now. -/
def ensure (tree : Tree Name directory) (place : List Name) : Bool × Tree Name directory :=
  if tree.entry place = none then
    match make permits tree place with
    | some after => (true, after)
    | none => (false, tree)
  else (true, tree)

/-- Places are made sure of one after the other, up to the first that cannot be. -/
def ensureAll : List (List Name) → Tree Name directory → Bool × Tree Name directory
  | [], tree => (true, tree)
  | place :: rest, tree =>
      match ensure permits tree place with
      | (true, after) => ensureAll rest after
      | (false, after) => (false, after)

variable {permits} {tree after : Tree Name directory} {path place : List Name}

/-- What is made on the way to a path adds to the tree only there. -/
theorem make_grows (made : make permits tree place = some after) (onWay : place <+: path) :
    Grows path tree after ∧ after.entry place = some directory := by
  unfold make at made
  split at made
  case isFalse => cases made
  case isTrue possible =>
    split at made
    case isFalse => cases made
    case isTrue =>
      obtain rfl := Option.some.inj made
      refine ⟨⟨?_, ?_⟩, Tree.add_entry_self⟩
      · intro other present
        have different : other ≠ place := fun same => present (same ▸ possible.2)
        exact Tree.add_entry_of_ne different
      · intro other absent present
        by_cases same : other = place
        · rw [same]
          exact ⟨onWay, Tree.add_entry_self⟩
        · rw [Tree.add_entry_of_ne same] at present
          exact absurd absent present

variable (permits) (path) in
/-- The places are all there, or one of them cannot be made. -/
structure Settles (places : List (List Name)) (before : Tree Name directory)
    (result : Bool × Tree Name directory) : Prop where
  grows : Grows path before result.2
  present : result.1 = true → ∀ place ∈ places, result.2.entry place ≠ none
  refused : result.1 = false →
    ∃ place ∈ places, result.2.entry place = none ∧ make permits result.2 place = none

/-- Making sure of one place on the way to a path settles it. -/
theorem ensure_settles (onWay : place <+: path) :
    Settles permits path [place] tree (ensure permits tree place) := by
  have member : place ∈ [place] := List.mem_singleton_self place
  unfold ensure
  split
  case isTrue absent =>
    cases made : make permits tree place with
    | some later =>
        obtain ⟨grows, there⟩ := make_grows made onWay
        refine ⟨grows, fun _ other same => ?_, by simp⟩
        rw [List.mem_singleton.mp same]
        exact Tree.present_of_entry there
    | none => exact ⟨.refl tree, by simp, fun _ => ⟨place, member, absent, made⟩⟩
  case isFalse present =>
    exact ⟨.refl tree, fun _ other same => List.mem_singleton.mp same ▸ present, by simp⟩

/-- An entry is left alone, whatever it is. -/
theorem ensure_of_present (present : tree.entry place ≠ none) :
    ensure permits tree place = (true, tree) := if_neg present

variable {places : List (List Name)}

/-- Nothing is made where everything is there. -/
theorem ensureAll_of_present (present : ∀ place ∈ places, tree.entry place ≠ none) :
    ensureAll permits places tree = (true, tree) := by
  induction places with
  | nil => rfl
  | cons place rest ih =>
      obtain ⟨here, later⟩ := List.forall_mem_cons.mp present
      rw [ensureAll, ensure_of_present here]
      exact ih later

/-- Making sure of places on the way to a path settles them, up to one that is refused. -/
theorem ensureAll_settles (onWay : ∀ place ∈ places, place <+: path) :
    Settles permits path places tree (ensureAll permits places tree) := by
  induction places generalizing tree with
  | nil => exact ⟨.refl tree, by simp, by simp [ensureAll]⟩
  | cons place rest ih =>
      obtain ⟨here, later⟩ := List.forall_mem_cons.mp onWay
      have first : Settles permits path [place] tree _ := ensure_settles here
      unfold ensureAll
      split
      case h_1 middle answer =>
        rw [answer] at first
        have next := @ih middle later
        refine ⟨first.grows.trans next.grows, fun made => ?_, fun failed => ?_⟩
        · have there := first.present rfl place (List.mem_singleton_self place)
          rw [← next.grows.kept place there] at there
          exact List.forall_mem_cons.mpr ⟨there, next.present made⟩
        · obtain ⟨stuck, member, refused⟩ := next.refused failed
          exact ⟨stuck, List.mem_cons_of_mem _ member, refused⟩
      case h_2 middle answer =>
        rw [answer] at first
        refine ⟨first.grows, by simp, fun failed => ?_⟩
        obtain ⟨stuck, member, refused⟩ := first.refused failed
        exact ⟨stuck, List.mem_cons.mpr (.inl (List.mem_singleton.mp member)), refused⟩

/-- Making sure of a path and places on the way to it leaves directories all the way
exactly when the path was not blocked. -/
theorem ensureAll_delivers_iff (onWay : ∀ place ∈ places, place <+: path) (goal : path ∈ places)
    (made : (ensureAll permits places tree).1 = true) :
    (∀ above, above <+: path → (ensureAll permits places tree).2.entry above = some directory) ↔
      tree.Unblocked path := by
  obtain ⟨grows, present, _⟩ : Settles permits path places tree _ := ensureAll_settles onWay
  have there := present made path goal
  constructor
  · intro directories
    by_cases absent : tree.entry path = none
    · exact .inl absent
    · right
      rw [← grows.kept path absent, directories path List.prefix_rfl]
  · intro unblocked above higher
    by_cases same : above = path
    · rw [same]
      exact grows.entry_eq unblocked there
    · exact Tree.entry_of_prefix _ higher same there

/-- What blocks a path is taken for a directory. -/
theorem ensureAll_of_blocked (onWay : ∀ place ∈ places, place <+: path)
    (blocked : ¬ tree.Unblocked path) : ensureAll permits places tree = (true, tree) := by
  have there : tree.entry path ≠ none := fun absent => blocked (.inl absent)
  apply ensureAll_of_present
  intro place member
  by_cases same : place = path
  · rwa [same]
  · apply Tree.present_of_entry
    exact tree.entry_of_prefix (onWay place member) same there

end Ensure

end Directories
