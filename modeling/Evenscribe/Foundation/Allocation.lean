import Evenscribe.Foundation.Separation

/-!
# Programs that allocate memory

An action reads and writes the cells of a store, asks an allocator for new ones
and gives cells back. It ends with a value, with a fault, or not at all. A
`Triple` says that from every store in which its precondition holds of a part
the action ends with a value and without a fault, that its postcondition holds
then of what has become of that part, and that the rest is as it was.
-/

namespace Allocation

open Separation Separation.Assertion

/-- Nothing, or the address of a cell. -/
abbrev Pointer := Option ℕ

/-- Why an access goes wrong. -/
inductive Fault where
  /-- The pointer is null, or its cell is not in use. -/
  | dangling
  /-- The cell is of another kind, or ends before the place that is meant. -/
  | outside
  deriving DecidableEq

/-- The cells in use, and how far they reach. -/
structure Store (Cell : Type) where
  cells : Heap ℕ Cell
  /-- How often a cell was asked for. -/
  calls : ℕ
  bound : ℕ
  beyond : ∀ address, bound ≤ address → cells address = none

/-- What answers a call for a cell: with an address that is not in use, or not at all. -/
structure Allocator (Cell : Type) where
  place : Store Cell → Pointer
  vacant : ∀ store address, place store = some address → store.cells address = none

variable {Cell : Type}

namespace Store

/-- No cell is in use and none was asked for. -/
def empty : Store Cell := ⟨fun _ => none, 0, 0, fun _ _ => rfl⟩

/-- A cell is put in use, or given another content. -/
def put (store : Store Cell) (address : ℕ) (cell : Cell) : Store Cell where
  cells := Function.update store.cells address (some cell)
  calls := store.calls
  bound := max store.bound (address + 1)
  beyond place large := by
    rw [Function.update_of_ne (by omega)]
    exact store.beyond place (by omega)

/-- A cell goes out of use. -/
def erase (store : Store Cell) (address : ℕ) : Store Cell where
  cells := Function.update store.cells address none
  calls := store.calls
  bound := store.bound
  beyond place large := by
    by_cases here : place = address
    · rw [here, Function.update_self]
    · rw [Function.update_of_ne here]
      exact store.beyond place large

/-- One more cell was asked for. -/
def called (store : Store Cell) : Store Cell := { store with calls := store.calls + 1 }

end Store

namespace Allocator

/-- No call is refused. -/
def Generous (allocator : Allocator Cell) : Prop := ∀ store, allocator.place store ≠ none

/-- Addresses in their order, and none for the calls that are not granted. -/
def inOrder (granted : ℕ → Bool) : Allocator Cell where
  place store := if granted store.calls then some store.bound else none
  vacant store address placed := by
    obtain ⟨_, equal⟩ := Option.ite_none_right_eq_some.mp placed
    exact store.beyond _ (Option.some.inj equal).le

end Allocator

/-- A program over a store. -/
abbrev Action (Cell : Type) := StateT (Store Cell) (ExceptT Fault Option)

section Actions

/-- The end of a program that has left what the language defines. -/
def fault {α : Type} (reason : Fault) : Action Cell α := fun _ => throw reason

/-- Ask for memory with the given contents. -/
def allocate (allocator : Allocator Cell) (cell : Cell) : Action Cell Pointer := fun store =>
  match allocator.place store with
  | none => pure (none, store.called)
  | some address => pure (some address, (store.put address cell).called)

/-- The cell that a pointer points to. -/
def load (pointer : Pointer) : Action Cell Cell := fun store =>
  match pointer.bind store.cells with
  | none => throw .dangling
  | some cell => pure (cell, store)

/-- Overwrite the cell that a pointer points to. -/
def assign (pointer : Pointer) (cell : Cell) : Action Cell Unit := fun store =>
  match pointer with
  | none => throw .dangling
  | some address =>
      match store.cells address with
      | none => throw .dangling
      | some _ => pure ((), store.put address cell)

/-- Give a cell back; nothing happens for a null pointer. -/
def release (pointer : Pointer) : Action Cell Unit := fun store =>
  match pointer with
  | none => pure ((), store)
  | some address =>
      match store.cells address with
      | none => throw .dangling
      | some _ => pure ((), store.erase address)

end Actions

variable {α β : Type} {P P' F : Assertion ℕ Cell} {action : Action Cell α}
  {next : α → Action Cell β} {Q Q' M : α → Assertion ℕ Cell} {S : β → Assertion ℕ Cell}

/-- The action ends without a fault, whatever the rest of the memory is, and leaves it. -/
def Triple (P : Assertion ℕ Cell) (action : Action Cell α) (Q : α → Assertion ℕ Cell) : Prop :=
  ∀ (R : Assertion ℕ Cell) (store : Store Cell), (P * R).On store.cells →
    ∃ value after, action.run store = pure (value, after) ∧ (Q value * R).On after.cells

namespace Triple

/-- Returning a value needs what is said of the value. -/
theorem pure (value : α) : Triple (Q value) (Pure.pure value) Q :=
  fun _ store part => ⟨value, store, rfl, part⟩

/-- Actions are verified one after the other. -/
theorem bind (first : Triple P action M) (rest : ∀ value, Triple (M value) (next value) S) :
    Triple P (action >>= next) S := by
  intro R store part
  obtain ⟨value, middle, ran, part⟩ := first R store part
  obtain ⟨result, after, continued, part⟩ := rest value R middle part
  refine ⟨result, after, ?_, part⟩
  rw [StateT.run_bind, ran, pure_bind, continued]

/-- What an action does not mention is left. -/
theorem frame (triple : Triple P action Q) (F : Assertion ℕ Cell) :
    Triple (P * F) action fun value => Q value * F := by
  intro R store part
  rw [mul_assoc] at part
  obtain ⟨value, after, ran, part⟩ := triple (F * R) store part
  exact ⟨value, after, ran, by rwa [mul_assoc]⟩

/-- The rule of consequence. -/
theorem mono (triple : Triple P action Q) (pre : P' ≤ P) (post : ∀ value, Q value ≤ Q' value) :
    Triple P' action Q' := by
  intro R store part
  obtain ⟨value, after, ran, part⟩ := triple R store (le_iff.mp (mul_le_mul_left pre R) _ part)
  exact ⟨value, after, ran, le_iff.mp (mul_le_mul_left (post value) R) _ part⟩

theorem of_le (pre : P' ≤ P) (triple : Triple P action Q) : Triple P' action Q :=
  triple.mono pre fun _ => le_rfl

theorem of_eq (triple : Triple P action Q) (same : P' = P) : Triple P' action Q := same ▸ triple

theorem ret {value : α} (entails : P ≤ Q value) : Triple P (Pure.pure value) Q :=
  of_le entails (pure value)

/-- One action of a program, on its part of what the program has. -/
theorem step (first : Triple P action M)
    (rest : ∀ value, Triple (M value * F) (next value) S) : Triple (P * F) (action >>= next) S :=
  (first.frame F).bind rest

/-- What is needed may be one of a family. -/
theorem iSup {ι : Type*} {family : ι → Assertion ℕ Cell}
    (triples : ∀ index, Triple (family index) action Q) :
    Triple (⨆ index, family index) action Q := by
  intro R store part
  rw [Quantale.iSup_mul_distrib] at part
  obtain ⟨index, part⟩ := iSup_on.mp part
  exact triples index R store part

theorem iSup_mul {ι : Type*} {family : ι → Assertion ℕ Cell}
    (triples : ∀ index, Triple (family index * F) action Q) :
    Triple ((⨆ index, family index) * F) action Q := by
  rw [Quantale.iSup_mul_distrib]
  exact iSup triples

/-- A fact of the precondition is known in the proof. -/
theorem fact_mul {condition : Prop} (triple : condition → Triple P action Q) :
    Triple (fact condition * P) action Q := by
  intro R store part
  rw [mul_assoc] at part
  obtain ⟨known, part⟩ := fact_mul_on.mp part
  exact triple known R store part

/-- One action with a value that is known. -/
theorem step_known {value : α} {N : Assertion ℕ Cell}
    (first : Triple P action fun result => fact (result = value) * N)
    (rest : Triple (N * F) (next value) S) : Triple (P * F) (action >>= next) S := by
  apply first.step
  intro result
  rw [mul_assoc]
  apply fact_mul
  intro same
  exact same ▸ rest

/-- Nothing but the facts of the postcondition comes out of an action that needs no memory. -/
theorem unchanged {post : α → Prop} (triple : Triple 1 action fun value => fact (post value))
    (store : Store Cell) :
    ∃ value after, action.run store = Pure.pure (value, after) ∧ post value ∧
      after.cells = store.cells := by
  obtain ⟨value, after, ran, part⟩ :=
    triple (exactly store.cells) store (by rw [one_mul]; exact exactly_on.mpr rfl)
  obtain ⟨known, same⟩ := fact_mul_on.mp part
  exact ⟨value, after, ran, known, exactly_on.mp same⟩

/-- An action for each element of a list, none of which leaves anything. -/
theorem mapM {γ : Type} {body : γ → Action Cell α} {post : γ → α → Prop}
    (each : ∀ element, Triple 1 (body element) fun value => fact (post element value)) :
    ∀ elements : List γ,
      Triple 1 (elements.mapM body) fun values => fact (List.Forall₂ post elements values)
  | [] => by
      rw [List.mapM_nil]
      exact ret (fact_of .nil).ge
  | element :: elements => by
      rw [List.mapM_cons]
      apply (each element).bind
      intro value
      rw [← mul_one (fact _)]
      refine fact_mul fun first => (mapM each elements).bind fun values => ret ?_
      exact fact_mono fun later => .cons first later

section Cells

variable {address : ℕ} {cell other : Cell} {allocator : Allocator Cell}
  {body : Action Cell β} {follow : Cell → Action Cell β} {after : Pointer → Action Cell β}

theorem load : Triple (holds address cell) (load (some address))
    fun value => fact (value = cell) * holds address cell := by
  intro R store part
  have found := apply_of_holds part
  refine ⟨cell, store, ?_, ?_⟩
  · simp only [Allocation.load, StateT.run, Option.bind_some, found]
  · change (fact (cell = cell) * holds address cell * R).On store.cells
    rwa [fact_mul_of rfl]

/-- Writing a cell that is in use replaces it. -/
theorem assign : Triple (holds address cell) (assign (some address) other)
    fun _ => holds address other := by
  intro R store part
  have found := apply_of_holds part
  refine ⟨(), store.put address other, ?_, replace_on part⟩
  simp only [Allocation.assign, StateT.run, found]

/-- Giving a cell back leaves nothing of it. -/
theorem release : Triple (holds address cell) (release (some address)) fun _ => 1 := by
  intro R store part
  have found := apply_of_holds part
  refine ⟨(), store.erase address, ?_, by rw [one_mul]; exact erase_on part⟩
  simp only [Allocation.release, StateT.run, found]

/-- Asking for a cell gives it, or nothing if the allocator is one that refuses. -/
theorem allocate : Triple 1 (allocate allocator cell) fun pointer =>
    match pointer with
    | none => fact (¬ allocator.Generous)
    | some address => holds address cell := by
  intro R store part
  rw [one_mul] at part
  cases placed : allocator.place store with
  | none =>
      refine ⟨none, store.called, ?_, ?_⟩
      · simp only [Allocation.allocate, StateT.run, placed]
      · rw [fact_mul_of fun generous => generous store placed]
        exact part
  | some address =>
      refine ⟨some address, (store.put address cell).called, ?_, ?_⟩
      · simp only [Allocation.allocate, StateT.run, placed]
      · exact insert_on (allocator.vacant store address placed) part

end Cells

end Triple

section Exceptions

variable {ε : Type} {store after : Store Cell} {value : α}

/-- An action in a program that may stop with an error. -/
theorem run_monadLift (ran : action.run store = pure (value, after)) :
    (monadLift action : ExceptT ε (Action Cell) α).run.run store = pure (.ok value, after) := by
  change (Except.ok <$> action).run store = _
  rw [StateT.run_map, ran, map_pure]

/-- An action at the head of a program that may throw runs first. -/
theorem run_lift {body : α → ExceptT ε (Action Cell) β}
    (ran : action.run store = pure (value, after)) :
    ((monadLift action : ExceptT ε (Action Cell) α) >>= body).run.run store =
      (body value).run.run after := by
  rw [ExceptT.run_bind, StateT.run_bind, run_monadLift ran, pure_bind]

/-- The rule of sequencing for an action in a program that may throw. -/
theorem Triple.lift {body : α → ExceptT ε (Action Cell) β} {S : Except ε β → Assertion ℕ Cell}
    (first : Triple P action M) (rest : ∀ value, Triple (M value) (body value).run S) :
    Triple P ((monadLift action : ExceptT ε (Action Cell) α) >>= body).run S := by
  intro R store part
  obtain ⟨value, middle, ran, part⟩ := first R store part
  obtain ⟨result, after, continued, part⟩ := rest value R middle part
  exact ⟨result, after, (run_lift ran).trans continued, part⟩

end Exceptions

/-- The action only reads: in the given memory it ends with the value and changes nothing. -/
def Reads (cells : Heap ℕ Cell) (action : Action Cell α) (value : α) : Prop :=
  ∀ store : Store Cell, store.cells = cells → action.run store = pure (value, store)

namespace Reads

variable {cells : Heap ℕ Cell} {address : ℕ} {cell : Cell} {value : α} {result : β}

theorem ret : Reads cells (pure value : Action Cell α) value := fun _ _ => rfl

/-- Readings are composed as actions are. -/
theorem bind (first : Reads cells action value) (rest : Reads cells (next value) result) :
    Reads cells (action >>= next) result := by
  intro store same
  rw [StateT.run_bind, first store same, pure_bind, rest store same]

theorem load (found : cells address = some cell) :
    Reads cells (load (some address) : Action Cell Cell) cell := by
  intro store same
  simp only [Allocation.load, StateT.run, Option.bind_some, same, found]

section Exceptions

variable {ε : Type} {body : α → ExceptT ε (Action Cell) β}

/-- An action that reads, in a program that may stop with an error. -/
theorem lift {outcome : Except ε β} (first : Reads cells action value)
    (rest : Reads cells (body value).run outcome) :
    Reads cells ((monadLift action : ExceptT ε (Action Cell) α) >>= body).run outcome :=
  fun store same => (run_lift (first store same)).trans (rest store same)

/-- A part of a program, and what follows unless it stops. -/
theorem follow {part : ExceptT ε (Action Cell) α} {before : Except ε α} {after : α → Except ε β}
    (first : Reads cells part.run before)
    (rest : ∀ value, before = .ok value → Reads cells (body value).run (after value)) :
    Reads cells (part >>= body).run (before >>= after) := by
  rw [ExceptT.run_bind]
  apply first.bind
  cases before with
  | ok value => exact rest value rfl
  | error reason => exact ret

end Exceptions

/-- What is read of a part of a memory, whatever the rest is. -/
theorem triple (reads : ∀ cells, P.Within cells → Reads cells action value) :
    Triple P action fun result => fact (result = value) * P := by
  intro R store part
  refine ⟨value, store, reads _ ⟨R, part⟩ store rfl, ?_⟩
  change (fact (value = value) * P * R).On store.cells
  rwa [fact_mul_of rfl]

end Reads

/-- A program that uses a part of the memory and leaves it, until it stops with an error: what
has become of the part then does not matter. -/
def Yields {ε : Type} (P : Assertion ℕ Cell) (program : ExceptT ε (Action Cell) α)
    (outcome : Except ε α) : Prop :=
  Triple P program.run fun result => fact (result = outcome) *
    match result with
    | .ok _ => P
    | .error _ => ⊤

namespace Yields

variable {ε : Type} {program : ExceptT ε (Action Cell) α} {body : α → ExceptT ε (Action Cell) β}
  {outcome : Except ε α}

/-- A program that only reads keeps what it was given. -/
theorem of_reads (reads : ∀ cells, P.Within cells → Reads cells program.run outcome) :
    Yields P program outcome := by
  refine (Reads.triple reads).mono le_rfl fun result => mul_le_mul_right ?_ _
  cases result with
  | ok value => exact le_rfl
  | error reason => exact le_top

/-- A part of a program, and what follows unless it stops. -/
theorem follow {after : α → Except ε β} (first : Yields P program outcome)
    (rest : ∀ value, outcome = .ok value → Yields P (body value) (after value)) :
    Yields P (program >>= body) (outcome >>= after) := by
  unfold Yields
  rw [ExceptT.run_bind]
  refine first.bind fun result => Triple.fact_mul fun same => ?_
  obtain rfl := same
  cases result with
  | ok value => exact rest value rfl
  | error reason => exact Triple.ret (fact_mul_of rfl).ge

end Yields

end Allocation
