import Evenscribe.Json.Print

/-!
# Printing into a buffer

The parts of a print ask for room, write and move the offset. A part that finds room
leaves the text it stands for in the buffer (`Advanced`, `Printed`), unless a call for
more memory is refused, and is refused otherwise (`Prints`). Parts come one after another
(`Steps`): the whole needs room for its text and two bytes more, the terminator and one
that `ensure` always asks for.
-/

namespace Evenscribe.CJSON

namespace PrintBuffer

/-- How long the memory of a buffer can get. -/
def capacity (p : PrintBuffer) : ℕ := if p.noalloc then p.buffer.length else intMax.toNat

/-- The buffer is made larger by hooks that refuse some call. -/
def MayRefuse (p : PrintBuffer) : Prop := p.noalloc = false ∧ ¬ p.hooks.Generous

/-- What stays as it is while something is printed. -/
structure Kept (p q : PrintBuffer) : Prop where
  depth : q.depth = p.depth
  noalloc : q.noalloc = p.noalloc
  format : q.format = p.format
  hooks : q.hooks = p.hooks
  /-- A buffer that may not be allocated anew keeps its size. -/
  size : p.noalloc = true → q.buffer.length = p.buffer.length

/-- The offset lies in the memory, which an `int` can measure. A buffer of no bytes has
to be one that can be reallocated, or need not be. -/
structure Sound (p : PrintBuffer) : Prop where
  inside : p.offset < p.buffer.length ∨
    p.buffer = [] ∧ p.offset = 0 ∧ (p.noalloc = true ∨ p.hooks.reallocate = true)
  bounded : p.buffer.length ≤ intMax.toNat

/-- The text has been written and the offset stands behind it. -/
structure Advanced (p : PrintBuffer) (out : Text) (q : PrintBuffer) : Prop extends Kept p q where
  offset : q.offset = p.offset + out.length
  front : q.buffer.take q.offset = p.buffer.take p.offset ++ out
  sound : Sound q
  /-- Bytes behind the next one are not touched. -/
  frame : p.noalloc = true → q.buffer.drop (q.offset + 1) = p.buffer.drop (q.offset + 1)

/-- The text has been written with its terminator, and the offset stands somewhere in it. -/
structure Printed (p : PrintBuffer) (out : Text) (q : PrintBuffer) : Prop extends Kept p q where
  moved : ∃ passed left, out = passed ++ left ∧ q.offset = p.offset + passed.length
  front : q.buffer.take (p.offset + out.length + 1) = p.buffer.take p.offset ++ out ++ [0]
  room : p.offset + out.length < q.buffer.length
  bounded : q.buffer.length ≤ intMax.toNat
  frame : p.noalloc = true →
    q.buffer.drop (p.offset + out.length + 1) = p.buffer.drop (p.offset + out.length + 1)

theorem Kept.trans {p q r : PrintBuffer} (first : Kept p q) (second : Kept q r) : Kept p r where
  depth := second.depth.trans first.depth
  noalloc := second.noalloc.trans first.noalloc
  format := second.format.trans first.format
  hooks := second.hooks.trans first.hooks
  size fixed := (second.size (first.noalloc.trans fixed)).trans (first.size fixed)

theorem Kept.capacity {p q : PrintBuffer} (kept : Kept p q) : q.capacity = p.capacity := by
  unfold PrintBuffer.capacity
  rw [kept.noalloc]
  by_cases fixed : p.noalloc = true
  · rw [if_pos fixed, if_pos fixed, kept.size fixed]
  · rw [if_neg fixed, if_neg fixed]

/-- Whether a call can be refused is kept. -/
theorem Kept.mayRefuse {p q : PrintBuffer} (kept : Kept p q) : q.MayRefuse ↔ p.MayRefuse := by
  unfold MayRefuse
  rw [kept.noalloc, kept.hooks]

theorem Sound.offset_le {p : PrintBuffer} (sound : Sound p) : p.offset ≤ p.buffer.length := by
  rcases sound.inside with inside | ⟨_, none, _⟩
  · exact inside.le
  · exact none ▸ Nat.zero_le _

/-- Room for some bytes behind the offset, and the text in front of it as it was. -/
structure Grown (needed : ℕ) (p q : PrintBuffer) : Prop extends Kept p q where
  offset : q.offset = p.offset
  front : q.buffer.take p.offset = p.buffer.take p.offset
  room : p.offset + needed < q.buffer.length
  bounded : q.buffer.length ≤ intMax.toNat
  fixed : p.noalloc = true → q.buffer = p.buffer

/-- A step over a buffer leaves one with the property, unless hooks refuse a call for more
memory. -/
def Leaves (p : PrintBuffer) (property : PrintBuffer → Prop)
    (result : Except PrintError PrintBuffer) : Prop :=
  (∃ q, result = .ok q ∧ property q) ∨ p.MayRefuse ∧ result = .error .refused

/-- Reallocation keeps what was written. -/
theorem grow_spec {p : PrintBuffer} (sound : Sound p) (free : p.noalloc = false)
    {needed newsize : ℕ} (enough : p.offset + needed < newsize)
    (larger : p.buffer.length < newsize) (bounded : newsize ≤ intMax.toNat) :
    Leaves p (Grown needed p) (p.grow newsize) := by
  have inside := sound.offset_le
  have never {property : Prop} (fixed : p.noalloc = true) : property :=
    (Bool.false_ne_true (free.symm.trans fixed)).elim
  unfold grow
  cases called : p.hooks.allocate p.calls newsize with
  | none => exact .inr ⟨⟨free, fun generous => generous _ _ called⟩, rfl⟩
  | some fresh =>
      have size := p.hooks.length_allocate called
      by_cases realloc : p.hooks.reallocate = true
      · refine .inl ⟨_, if_pos realloc, ⟨rfl, rfl, rfl, rfl, never⟩, rfl, ?_, ?_, ?_, never⟩
        · exact List.take_append_of_le_length inside
        · simp only [List.length_append, List.length_drop, size]
          omega
        · simp only [List.length_append, List.length_drop, size]
          omega
      · have more : p.offset + 1 ≤ p.buffer.length := by
          rcases sound.inside with less | ⟨_, _, fixed | able⟩
          · exact less
          · exact never fixed
          · exact (realloc able).elim
        refine .inl ⟨_, (if_neg realloc).trans (if_neg (by omega)),
          ⟨rfl, rfl, rfl, rfl, never⟩, rfl, ?_, ?_, ?_, never⟩
        · rw [List.take_append_of_le_length (by rw [List.length_take]; omega), List.take_take]
          congr 1
          omega
        · simp only [List.length_append, List.length_take, List.length_drop, size]
          omega
        · simp only [List.length_append, List.length_take, List.length_drop, size]
          omega

theorem capacity_fixed {p : PrintBuffer} (fixed : p.noalloc = true) :
    p.capacity = p.buffer.length := if_pos fixed

theorem capacity_free {p : PrintBuffer} (free : p.noalloc = false) :
    p.capacity = intMax.toNat := if_neg (Bool.eq_false_iff.mp free)

theorem Sound.length_le {p : PrintBuffer} (sound : Sound p) : p.buffer.length ≤ p.capacity := by
  cases fixed : p.noalloc with
  | false => exact (capacity_free fixed).symm ▸ sound.bounded
  | true => exact (capacity_fixed fixed).ge

/-- The capacity is at most the largest `int`. -/
theorem Sound.capacity_le {p : PrintBuffer} (sound : Sound p) : p.capacity ≤ intMax.toNat := by
  cases fixed : p.noalloc with
  | false => exact (capacity_free fixed).le
  | true => exact (capacity_fixed fixed).symm ▸ sound.bounded

/-- The test of `ensure` for an offset behind the buffer fails. -/
theorem Sound.started {p : PrintBuffer} (sound : Sound p) :
    ¬ (0 < p.buffer.length ∧ p.buffer.length ≤ p.offset) := by
  rintro ⟨some, beyond⟩
  rcases sound.inside with less | ⟨none, _⟩
  · omega
  · rw [none] at some
    exact Nat.lt_irrefl 0 some

theorem toNat_intMax : (intMax.toNat : ℤ) = intMax := by decide

variable {p : PrintBuffer} (sound : Sound p) {needed : ℕ}

include sound

/-- `ensure` succeeds when the buffer can have the bytes asked for and one more, and no
call for them is refused. -/
theorem ensure_of_fits (fits : p.offset + needed + 1 ≤ p.capacity) :
    Leaves p (Grown needed p) (p.ensure needed) := by
  have within := fits.trans sound.capacity_le
  have int := toNat_intMax
  have small : ¬ intMax < needed := by omega
  rw [ensure, if_neg sound.started, if_neg small]
  by_cases there : needed + p.offset + 1 ≤ p.buffer.length
  · exact .inl ⟨p, if_pos there, ⟨rfl, rfl, rfl, rfl, fun _ => rfl⟩, rfl, rfl, by omega,
      sound.bounded, fun _ => rfl⟩
  · cases fixed : p.noalloc with
    | true =>
        rw [capacity_fixed fixed] at fits
        omega
    | false =>
        simp only [if_neg there, Bool.false_eq_true, if_false]
        by_cases large : intMax / 2 < ((needed + p.offset + 1 : ℕ) : ℤ)
        · rw [if_pos large, if_pos (by omega)]
          exact grow_spec sound fixed (by omega) (by omega) (Nat.le_refl _)
        · rw [if_neg large]
          exact grow_spec sound fixed (by omega) (by omega) (by omega)

/-- Otherwise it returns a null pointer. -/
theorem ensure_of_not_fits (fits : ¬ p.offset + needed + 1 ≤ p.capacity) :
    p.ensure needed = .error .refused := by
  have int := toNat_intMax
  have there : ¬ needed + p.offset + 1 ≤ p.buffer.length := by
    have := sound.length_le
    omega
  rw [ensure, if_neg sound.started]
  by_cases small : intMax < needed
  · exact if_pos small
  · rw [if_neg small]
    cases fixed : p.noalloc with
    | true => exact if_neg there
    | false =>
        rw [capacity_free fixed] at fits
        simp only [if_neg there, Bool.false_eq_true, if_false]
        rw [if_pos (by omega), if_neg (by omega)]

omit sound in
/-- Bytes written where there is room for them. -/
theorem write_of_grown {q : PrintBuffer} (grown : Grown needed p q) {behind : ℕ} {bytes : Text}
    (within : behind + bytes.length ≤ needed + 1) :
    ∃ memory, Memory.store q.buffer (p.offset + behind) bytes = some memory ∧
      q.write behind bytes = .ok { q with buffer := memory } := by
  have room := grown.room
  have stored := Memory.store_eq
    (show p.offset + behind + bytes.length ≤ q.buffer.length by omega)
  exact ⟨_, stored, by rw [write, grown.offset, stored]⟩

omit sound in
/-- What a buffer holds after room was found and bytes were written at the offset. -/
theorem kept_of_stored {q : PrintBuffer} {behind : ℕ} {bytes memory : Text}
    (grown : Grown needed p q)
    (stored : Memory.store q.buffer (p.offset + behind) bytes = some memory) :
    memory.length = q.buffer.length ∧ memory.take p.offset = p.buffer.take p.offset ∧
      (p.noalloc = true → memory.length = p.buffer.length ∧ ∀ count,
        p.offset + behind + bytes.length ≤ count → memory.drop count = p.buffer.drop count) := by
  have size := Memory.length_of_store stored
  refine ⟨size, ?_, fun fixed => ⟨?_, fun count beyond => ?_⟩⟩
  · rw [Memory.take_of_store stored (Nat.le_add_right ..), grown.front]
  · rw [size, grown.fixed fixed]
  · rw [Memory.drop_of_store stored beyond, grown.fixed fixed]

/-- Text written with the offset moved behind it, and a terminator or not. -/
theorem put_advanced {out rest : Text} (fits : p.offset + needed + 1 ≤ p.capacity)
    (room : out.length ≤ needed) (one : rest.length ≤ 1) :
    Leaves p (Advanced p out) (p.put needed (out ++ rest) out.length) := by
  obtain ⟨q, ensured, grown⟩ | ⟨may, refused⟩ := ensure_of_fits sound fits
  swap
  · exact .inr ⟨may, by simp only [put, refused, bind, Except.bind]⟩
  obtain ⟨memory, stored, written⟩ := write_of_grown grown
    (show 0 + (out ++ rest).length ≤ needed + 1 by rw [List.length_append]; omega)
  obtain ⟨size, front, frame⟩ := kept_of_stored grown stored
  refine .inl ⟨{ q with buffer := memory, offset := q.offset + out.length }, ?_,
    ⟨grown.depth, grown.noalloc, grown.format, grown.hooks, fun fixed => (frame fixed).1⟩, ?_, ?_,
    ⟨.inl ?_, ?_⟩, ?_⟩
  · simp only [put, ensured, bind, Except.bind, written]
    rfl
  · exact congrArg (· + out.length) grown.offset
  · have whole := Memory.take_append_of_store stored
    have cut := congrArg (List.take (p.offset + out.length)) whole
    rw [List.take_take, List.length_append] at cut
    have inside := sound.offset_le
    have start : (p.buffer.take p.offset).length = p.offset := by
      rw [List.length_take]
      omega
    simp only [Nat.add_zero] at cut
    rw [Nat.min_eq_left (by omega), grown.front] at cut
    rw [show q.offset + out.length = p.offset + out.length by rw [grown.offset], cut,
      ← List.append_assoc, List.take_append_of_le_length (by rw [List.length_append, start]),
      List.take_of_length_le (by rw [List.length_append, start])]
  · have := grown.room
    have := grown.offset
    simp only [size]
    omega
  · exact size ▸ grown.bounded
  · intro fixed
    apply (frame fixed).2 _
    have := grown.offset
    simp only [List.length_append]
    omega

/-- Text and terminator written, with the offset left in front of the text or moved
behind it. -/
theorem put_printed {passed left : Text}
    (fits : p.offset + ((passed ++ left).length + 1) + 1 ≤ p.capacity) :
    Leaves p (Printed p (passed ++ left))
      (p.put ((passed ++ left).length + 1) (passed ++ left ++ [0]) passed.length) := by
  obtain ⟨q, ensured, grown⟩ | ⟨may, refused⟩ := ensure_of_fits sound fits
  swap
  · exact .inr ⟨may, by simp only [put, refused, bind, Except.bind]⟩
  obtain ⟨memory, stored, written⟩ := write_of_grown grown
    (show 0 + (passed ++ left ++ [0]).length ≤ (passed ++ left).length + 1 + 1 by
      rw [List.length_append, List.length_singleton]; omega)
  obtain ⟨size, _, frame⟩ := kept_of_stored grown stored
  have room := grown.room
  refine .inl ⟨{ q with buffer := memory, offset := q.offset + passed.length }, ?_,
    ⟨grown.depth, grown.noalloc, grown.format, grown.hooks, fun fixed => (frame fixed).1⟩,
    ⟨passed, left, rfl, congrArg (· + passed.length) grown.offset⟩, ?_, ?_,
    size ▸ grown.bounded, ?_⟩
  · simp only [put, ensured, bind, Except.bind, written]
    rfl
  · have whole := Memory.take_append_of_store stored
    simp only [Nat.add_zero] at whole
    rw [List.length_append, List.length_singleton, ← Nat.add_assoc, grown.front,
      ← List.append_assoc] at whole
    exact whole
  · simp only [size]
    omega
  · intro fixed
    apply (frame fixed).2 _
    simp only [List.length_append, List.length_singleton]
    omega

/-- `update_offset` finds the end of what was printed. -/
theorem updateOffset_of_printed {out : Text} {q : PrintBuffer} (printed : Printed p out q)
    (terminated : 0 ∉ out) : ∃ r, q.updateOffset = .ok r ∧ Advanced p out r := by
  obtain ⟨passed, left, rfl, moved⟩ := printed.moved
  have inside := sound.offset_le
  have start : (p.buffer.take p.offset ++ passed).length = q.offset := by
    rw [List.length_append, List.length_take, moved]
    omega
  have spelled : Memory.Spells q.buffer q.offset (left ++ [0]) := by
    have whole := List.take_append_drop (p.offset + (passed ++ left).length + 1) q.buffer
    rw [printed.front] at whole
    generalize q.buffer.drop (p.offset + (passed ++ left).length + 1) = behind at whole
    have parts : (p.buffer.take p.offset ++ passed) ++ (left ++ [0] ++ behind) = q.buffer := by
      simpa only [List.append_assoc] using whole
    refine ⟨behind, ?_⟩
    rw [← start, ← parts, List.drop_left]
  have found := Memory.extent_of_spells
    (fun member => terminated (List.mem_append_right _ member)) spelled
  have ends : q.offset + left.length = p.offset + (passed ++ left).length := by
    rw [moved, List.length_append, Nat.add_assoc]
  refine ⟨{ q with offset := q.offset + left.length }, by rw [updateOffset, found],
    ⟨printed.depth, printed.noalloc, printed.format, printed.hooks, printed.size⟩, ends, ?_,
    ⟨.inl ?_, printed.bounded⟩, fun fixed => ?_⟩
  · have cut := congrArg (List.take (p.offset + (passed ++ left).length)) printed.front
    rw [List.take_take, Nat.min_eq_left (Nat.le_succ _)] at cut
    have size : (p.buffer.take p.offset ++ (passed ++ left)).length =
        p.offset + (passed ++ left).length := by
      rw [List.length_append, List.length_take]
      omega
    change q.buffer.take (q.offset + left.length) = _
    rw [ends, cut, List.take_append_of_le_length size.ge, List.take_of_length_le size.le]
  · exact ends.trans_lt printed.room
  · change q.buffer.drop (q.offset + left.length + 1) = p.buffer.drop (q.offset + left.length + 1)
    rw [ends]
    exact printed.frame fixed

end PrintBuffer

namespace PrintBuffer

theorem Advanced.refl {p : PrintBuffer} (sound : Sound p) : Advanced p [] p where
  depth := rfl
  noalloc := rfl
  format := rfl
  hooks := rfl
  size _ := rfl
  offset := rfl
  front := (List.append_nil _).symm
  sound := sound
  frame _ := rfl

theorem Advanced.trans {p q r : PrintBuffer} {front back : Text} (first : Advanced p front q)
    (second : Advanced q back r) : Advanced p (front ++ back) r where
  toKept := first.toKept.trans second.toKept
  offset := by rw [second.offset, first.offset, List.length_append, Nat.add_assoc]
  front := by rw [second.front, first.front, List.append_assoc]
  sound := second.sound
  frame fixed := by
    have later := second.offset
    have earlier := congrArg (List.drop back.length) (first.frame fixed)
    rw [List.drop_drop, List.drop_drop] at earlier
    rw [second.frame (first.noalloc.trans fixed), later]
    simpa only [Nat.add_right_comm] using earlier

/-- What is printed behind an advanced buffer is printed behind the text before it. -/
theorem Advanced.printed {p q r : PrintBuffer} {front back : Text} (first : Advanced p front q)
    (second : Printed q back r) : Printed p (front ++ back) r where
  toKept := first.toKept.trans second.toKept
  moved := by
    obtain ⟨passed, left, rfl, moved⟩ := second.moved
    refine ⟨front ++ passed, left, (List.append_assoc ..).symm, ?_⟩
    rw [moved, first.offset, List.length_append, Nat.add_assoc]
  front := by
    rw [List.length_append, ← Nat.add_assoc, ← first.offset, second.front, first.front]
    simp only [List.append_assoc]
  room := by
    rw [List.length_append, ← Nat.add_assoc, ← first.offset]
    exact second.room
  bounded := second.bounded
  frame fixed := by
    have earlier := congrArg (List.drop back.length) (first.frame fixed)
    rw [List.drop_drop, List.drop_drop, Nat.add_right_comm] at earlier
    rw [List.length_append, ← Nat.add_assoc, ← first.offset,
      second.frame (first.noalloc.trans fixed)]
    exact earlier

/-- A buffer at another depth. -/
def atDepth (depth : ℕ) (p : PrintBuffer) : PrintBuffer := { p with depth := depth }

theorem Advanced.atDepth {p q : PrintBuffer} {out : Text} (advanced : Advanced p out q)
    (depth : ℕ) : Advanced (p.atDepth depth) out (q.atDepth depth) :=
  ⟨⟨rfl, advanced.noalloc, advanced.format, advanced.hooks, advanced.size⟩, advanced.offset,
    advanced.front, ⟨advanced.sound.inside, advanced.sound.bounded⟩, advanced.frame⟩

theorem Printed.atDepth {p q : PrintBuffer} {out : Text} (printed : Printed p out q) (depth : ℕ) :
    Printed (p.atDepth depth) out (q.atDepth depth) :=
  ⟨⟨rfl, printed.noalloc, printed.format, printed.hooks, printed.size⟩, printed.moved,
    printed.front, printed.room, printed.bounded, printed.frame⟩

theorem Sound.atDepth {p : PrintBuffer} (sound : Sound p) (depth : ℕ) : Sound (p.atDepth depth) :=
  ⟨sound.inside, sound.bounded⟩

end PrintBuffer

open PrintBuffer

/-- A part of a print that starts at a buffer: it is refused where there is no text, and
where the text and some bytes behind it have no room; otherwise the buffer it leaves is
in relation to the one it started at, unless a call for more memory is refused. -/
def Prints (p : PrintBuffer) (leaves : PrintBuffer → Text → PrintBuffer → Prop) (slack : ℕ)
    (text : Option Text) (result : Except PrintError PrintBuffer) : Prop :=
  match text with
  | none => result = .error .refused
  | some out =>
      if p.offset + out.length + slack ≤ p.capacity then Leaves p (leaves p out) result
      else result = .error .refused

/-- The relation can be reached over a buffer with the first part of the text in it. -/
def Continues (leaves : PrintBuffer → Text → PrintBuffer → Prop) : Prop :=
  ∀ p front q back r, Advanced p front q → leaves q back r → leaves p (front ++ back) r

/-- A part of a print in front of any other part that needs a terminator and one byte
more behind its text. -/
def Steps (p : PrintBuffer) (front : Option Text) (result : Except PrintError PrintBuffer) :
    Prop :=
  ∀ leaves, Continues leaves → ∀ back next,
    (∀ out ∈ front, ∀ q, Advanced p out q → Prints q leaves 2 back (next q)) →
      Prints p leaves 2 (front.bind fun out => back.map fun behind => out ++ behind)
        (result >>= next)

section Rules

variable {p : PrintBuffer} {front : Option Text} {result : Except PrintError PrintBuffer}

/-- A print may be refused where its hooks may refuse a call. -/
theorem Prints.of_refused {leaves : PrintBuffer → Text → PrintBuffer → Prop} {slack : ℕ}
    (may : p.MayRefuse) : Prints p leaves slack front (.error .refused) := by
  cases front with
  | none => rfl
  | some out =>
      by_cases fits : p.offset + out.length + slack ≤ p.capacity
      · exact (if_pos fits).mpr (.inr ⟨may, rfl⟩)
      · exact (if_neg fits).mpr rfl

/-- A part that needs no more room than any other one comes in front of it. -/
theorem Prints.steps {slack : ℕ} (prints : Prints p Advanced slack front result)
    (least : slack ≤ 2) : Steps p front result := by
  intro leaves continues back next after
  cases front with
  | none =>
      have refused : result = .error .refused := prints
      rw [refused]
      rfl
  | some out =>
      have prints : if p.offset + out.length + slack ≤ p.capacity then
          Leaves p (Advanced p out) result else result = .error .refused := prints
      by_cases fits : p.offset + out.length + slack ≤ p.capacity
      · rw [if_pos fits] at prints
        obtain ⟨q, done, advanced⟩ | ⟨may, refused⟩ := prints
        · have rest := after out rfl q advanced
          rw [Option.bind_some, done]
          cases back with
          | none => exact rest
          | some behind =>
              have rest : if q.offset + behind.length + 2 ≤ q.capacity then
                  Leaves q (leaves q behind) (next q) else next q = .error .refused := rest
              rw [advanced.capacity, advanced.offset, Nat.add_assoc p.offset,
                ← List.length_append] at rest
              change if p.offset + (out ++ behind).length + 2 ≤ p.capacity then _ else _
              split at rest
              · next room =>
                  rw [if_pos room]
                  obtain ⟨r, done, left⟩ | ⟨may, refused⟩ := rest
                  · exact .inl ⟨r, done, continues _ _ _ _ _ advanced left⟩
                  · exact .inr ⟨advanced.mayRefuse.mp may, refused⟩
              · next missing =>
                  rw [if_neg missing]
                  exact rest
        · rw [Option.bind_some, refused]
          exact .of_refused may
      · rw [if_neg fits] at prints
        rw [Option.bind_some, prints]
        cases back with
        | none => rfl
        | some behind =>
            refine (if_neg fun room => fits ?_).mpr rfl
            rw [List.length_append] at room
            omega

theorem Steps.refl (sound : Sound p) : Steps p (some []) (.ok p) := by
  intro leaves _ back next after
  have rest := after [] rfl p (.refl sound)
  cases back with
  | none => exact rest
  | some behind => exact rest

/-- Steps are taken one after the other. -/
theorem Steps.trans {back : Option Text} {second : PrintBuffer → Except PrintError PrintBuffer}
    (first : Steps p front result)
    (later : ∀ out ∈ front, ∀ q, Advanced p out q → Steps q back (second q)) :
    Steps p (front.bind fun out => back.map fun behind => out ++ behind) (result >>= second) := by
  intro leaves continues last next after
  have whole := first leaves continues
    (back.bind fun out => last.map fun behind => out ++ behind)
    (fun q => second q >>= next) fun out member q advanced =>
      later out member q advanced leaves continues last next fun behind inside r further =>
        after (out ++ behind) (by
          obtain rfl : front = some out := member
          obtain rfl : back = some behind := inside
          rfl) r (advanced.trans further)
  have same : ((front.bind fun out => back.map fun behind => out ++ behind).bind fun out =>
      last.map fun behind => out ++ behind) =
        front.bind fun out => (back.bind fun out => last.map fun behind => out ++ behind).map
          fun behind => out ++ behind := by
    cases front <;> cases back <;> cases last <;> simp
  rw [same, bind_assoc]
  exact whole

/-- A print that ends in a terminator, with the offset moved to it. -/
theorem Prints.updated {out : Option Text}
    (sound : Sound p) (prints : Prints p Printed 2 out result)
    (terminated : ∀ text ∈ out, 0 ∉ text) : Prints p Advanced 2 out (result >>= updateOffset) := by
  cases out with
  | none =>
      have refused : result = .error .refused := prints
      rw [refused]
      rfl
  | some out =>
      have prints : if p.offset + out.length + 2 ≤ p.capacity then
          Leaves p (Printed p out) result else result = .error .refused := prints
      change if p.offset + out.length + 2 ≤ p.capacity then _ else _
      split at prints
      · next room =>
          rw [if_pos room]
          obtain ⟨q, rfl, printed⟩ | ⟨may, rfl⟩ := prints
          · exact .inl (updateOffset_of_printed sound printed (terminated out rfl))
          · exact .inr ⟨may, rfl⟩
      · next missing =>
          rw [if_neg missing, prints]
          rfl

end Rules

section Pieces

variable {p : PrintBuffer} (sound : Sound p)

include sound

/-- Text with no terminator, or with one. -/
theorem prints_put_advanced {needed moved : ℕ} {bytes out rest : Text} (shape : bytes = out ++ rest)
    (size : moved = out.length) (room : out.length ≤ needed) (one : rest.length ≤ 1) :
    Prints p Advanced (needed - out.length + 1) (some out) (p.put needed bytes moved) := by
  subst shape size
  change if p.offset + out.length + (needed - out.length + 1) ≤ p.capacity then _ else _
  split
  · exact put_advanced sound (by omega) room one
  · simp only [put, ensure_of_not_fits sound (show ¬ p.offset + needed + 1 ≤ p.capacity by omega)]
    rfl

/-- Text with its terminator. -/
theorem prints_put_printed {needed moved : ℕ} {bytes passed left : Text}
    (shape : bytes = passed ++ left ++ [0]) (size : moved = passed.length)
    (room : needed = (passed ++ left).length + 1) :
    Prints p Printed 2 (some (passed ++ left)) (p.put needed bytes moved) := by
  subst shape size room
  change if p.offset + (passed ++ left).length + 2 ≤ p.capacity then _ else _
  split
  · exact put_printed sound (by omega)
  · simp only [put, ensure_of_not_fits sound
      (show ¬ p.offset + ((passed ++ left).length + 1) + 1 ≤ p.capacity by omega)]
    rfl

/-- Text with its terminator, the offset left in front of it. -/
theorem prints_terminated {needed : ℕ} {out : Text} (room : needed = out.length + 1) :
    Prints p Printed 2 (some out) (p.put needed (out ++ [0]) 0) := by
  have whole : Prints p Printed 2 (some ([] ++ out)) (p.put needed (out ++ [0]) 0) :=
    prints_put_printed sound rfl rfl room
  exact whole

end Pieces

/-- What is printed behind a text that was passed is printed with it. -/
theorem continues_printed : Continues Printed := fun _ _ _ _ _ first second => first.printed second

/-- What is printed one level down is printed at the level of the brackets. -/
theorem continues_shallower :
    Continues fun p out r => Printed (p.atDepth (p.depth - 1)) out r := by
  intro p front q back r first second
  rw [first.depth] at second
  exact (first.atDepth (p.depth - 1)).printed second

/-- A print followed by a step that leaves the text as it is. -/
theorem Prints.andThen {p : PrintBuffer} {leaves leaves' : PrintBuffer → Text → PrintBuffer → Prop}
    {slack : ℕ} {text : Option Text} {result : Except PrintError PrintBuffer}
    {next : PrintBuffer → PrintBuffer} (prints : Prints p leaves slack text result)
    (then_ : ∀ out q, leaves p out q → leaves' p out (next q)) :
    Prints p leaves' slack text (result >>= fun q => pure (next q)) := by
  cases text with
  | none =>
      have refused : result = .error .refused := prints
      rw [refused]
      rfl
  | some out =>
      have prints : if p.offset + out.length + slack ≤ p.capacity then
          Leaves p (leaves p out) result else result = .error .refused := prints
      change if p.offset + out.length + slack ≤ p.capacity then _ else _
      split at prints
      · next room =>
          rw [if_pos room]
          obtain ⟨q, rfl, left⟩ | ⟨may, rfl⟩ := prints
          · exact .inl ⟨next q, rfl, then_ out q left⟩
          · exact .inr ⟨may, rfl⟩
      · next missing =>
          rw [if_neg missing, prints]
          rfl

/-- What is printed one level down is printed, and the depth is as before. -/
theorem Prints.atDepth {q : PrintBuffer} {depth slack : ℕ} {text : Option Text}
    {result : Except PrintError PrintBuffer}
    (prints : Prints (q.atDepth depth) (fun p out r => Printed (p.atDepth (p.depth - 1)) out r)
      slack text result) (up : depth = q.depth + 1) : Prints q Printed slack text result := by
  subst up
  cases text with
  | none => exact prints
  | some out => exact prints

section Containers

variable {p : PrintBuffer} {slack : ℕ} {inner : Option Text} {opening closing : Text} {needed : ℕ}
  {loop close : PrintBuffer → Except PrintError PrintBuffer}

/-- A print of brackets around what is printed one level down. -/
theorem prints_brackets
    (opens : Prints p Advanced slack (some opening) (p.put needed opening opening.length))
    (least : slack ≤ 2)
    (steps : ∀ q, Advanced p opening q →
      Steps (q.atDepth (p.depth + 1)) inner (loop (q.atDepth (p.depth + 1))))
    (closes : ∀ q, q.format = p.format → q.depth = p.depth + 1 → Sound q →
      Prints q Printed 2 (some closing) (close q)) :
    Prints p Printed 2 (inner.map fun inner => opening ++ inner ++ closing)
      (p.put needed opening opening.length >>= fun q =>
        loop { q with depth := q.depth + 1 } >>= fun r =>
          close r >>= fun s => pure { s with depth := s.depth - 1 }) := by
  have shape : (inner.map fun inner => opening ++ inner ++ closing) =
      (some opening).bind fun out =>
        (inner.bind fun inner => (some closing).map fun behind => inner ++ behind).map
          fun behind => out ++ behind := by
    cases inner <;> simp
  rw [shape]
  apply (opens.steps least) Printed continues_printed _ _
  intro out same q advanced
  obtain rfl : opening = out := Option.some.inj same
  have inside := steps q advanced _ continues_shallower (some closing)
    (fun r => close r >>= fun s => pure { s with depth := s.depth - 1 }) fun _ _ r later => by
      apply (closes r (later.format.trans advanced.format) later.depth later.sound).andThen
      intro out s printed
      rw [← printed.depth]
      exact printed.atDepth _
  rw [← advanced.depth] at inside
  exact inside.atDepth rfl

end Containers

section Separators

variable {p : PrintBuffer} (sound : Sound p)

include sound

/-- What is written behind an entry, the offset moved behind it. -/
theorem steps_separator {needed moved : ℕ} {out : Text} (room : needed = out.length + 1)
    (size : moved = out.length) : Steps p (some out) (p.put needed (out ++ [0]) moved) := by
  have prints : Prints p Advanced (needed - out.length + 1) (some out) _ :=
    prints_put_advanced sound rfl size (by omega) (show [(0 : UInt8)].length ≤ 1 by decide)
  exact prints.steps (by omega)

/-- Text without a terminator, the offset moved behind it. -/
theorem steps_text {needed moved : ℕ} {out : Text} (room : needed = out.length)
    (size : moved = out.length) : Steps p (some out) (p.put needed out moved) := by
  have prints : Prints p Advanced (needed - out.length + 1) (some out) _ :=
    prints_put_advanced sound (List.append_nil out).symm size (by omega) (Nat.zero_le 1)
  exact prints.steps (by omega)

end Separators

end Evenscribe.CJSON
