import Evenscribe.Serializer.Leftover

/-!
# Messages and the chunks they arrive in

Each successful `read` hands one buffer to `serialize`, which takes the first
value in it. Nothing marks where a message ends in the stream. Where a cut goes
through no value, each chunk gives the record of its first message
(`readStage_cut`), so that all messages arrive exactly when no chunk holds two.
-/

namespace Evenscribe.Serializer

open CJSON

/-- A chunk at the start of a buffer of zeros. -/
def zeroed (chunk : Text) : Text := chunk ++ List.replicate (bufferSize - chunk.length) 0

/-- The valid records made of the chunks that successive reads return, when each
chunk is alone in its buffer. -/
def readStage (target : Target) (chunks : List Text) : List Log :=
  (chunks.map fun chunk => (serialize target (zeroed chunk)).log).filter fun log => log.isVaild

theorem length_zeroed {chunk : Text} (fits : chunk.length ≤ bufferSize) :
    (zeroed chunk).length = bufferSize := by
  rw [zeroed, List.length_append, List.length_replicate, Nat.add_sub_cancel' fits]

/-- Bytes that the parser skips before a value. -/
def Blank (bytes : Text) : Prop := ∀ byte ∈ bytes, byte ≤ 32

theorem blank_nil : Blank [] := fun _ member => (List.not_mem_nil member).elim

theorem blank_zeros (count : ℕ) : Blank (List.replicate count 0) := by
  intro byte member
  rw [List.eq_of_mem_replicate member]
  decide

theorem Blank.append {first second : Text} (blank : Blank first) (other : Blank second) :
    Blank (first ++ second) := by
  intro byte member
  rcases List.mem_append.mp member with inside | inside
  · exact blank byte inside
  · exact other byte inside

/-- A blank is no brace. -/
theorem Blank.noBrace {bytes : Text} (blank : Blank bytes) : 125 ∉ bytes :=
  fun member => absurd (blank 125 member) (by decide)

/-- Blanks in front of an opening brace are skipped, and no mark is. -/
theorem parseRoot_blank {lead tail : Text} (blank : Blank lead) :
    parseRoot (lead ++ 123 :: tail) = parseValue nestingLimit (123 :: tail) := by
  have head : (lead ++ 123 :: tail).head? ≠ some 0xEF := by
    cases lead with
    | nil => exact fun mark => absurd (Option.some.inj mark) (by decide)
    | cons byte rest =>
        intro mark
        have small := blank byte (List.mem_cons_self ..)
        rw [Option.some.inj mark] at small
        exact absurd small (by decide)
  have dropped : (lead ++ 123 :: tail).dropWhile (· ≤ 32) = 123 :: tail := by
    rw [List.dropWhile_append_of_pos fun byte member => decide_eq_true (blank byte member),
      List.dropWhile_cons_of_neg (by decide)]
  rw [parseRoot, skipUtf8Bom_of_head head, bufferSkipWhitespace_eq dropped]

/-- A log text as a client sends it: a value that starts with a brace, with blanks
around it. -/
structure Sent (target : Target) where
  lead : Text
  value : Text
  trail : Text
  blankLead : Blank lead
  blankTrail : Blank trail
  starts : ∃ tail, value = 123 :: tail
  fits : (lead ++ value ++ trail).length ≤ bufferSize
  accepted : (serialize target (zeroed (lead ++ value ++ trail))).log.isVaild = true

namespace Sent

variable {target : Target} (message : Sent target)

/-- The bytes of the message. -/
def text : Text := message.lead ++ message.value ++ message.trail

/-- The record of a message that arrives alone. -/
def log : Log := (serialize target (zeroed message.text)).log

/-- The value of a message is parsed from its own bytes, whatever follows. -/
theorem value_parsed : ∃ json rest, message.log = (outcome (readLog target json)).log ∧
    ∀ other, parseValue nestingLimit (message.value ++ other) = some (json, rest ++ other) := by
  have fits := Nat.le_of_eq (length_zeroed message.fits)
  obtain ⟨json, _, parsed, tells⟩ := (isVaild_serialize_iff target fits).mp message.accepted
  obtain ⟨rest, result⟩ := parseWithLength_eq_some.mp parsed
  obtain ⟨tail, brace⟩ := message.starts
  generalize zeros : List.replicate (bufferSize - message.text.length) (0 : UInt8) = padding
  have blank : Blank (message.trail ++ padding) :=
    message.blankTrail.append (zeros ▸ blank_zeros _)
  have shape : zeroed message.text =
      message.lead ++ 123 :: (tail ++ (message.trail ++ padding)) := by
    rw [zeroed, zeros, Sent.text, brace]
    simp only [List.append_assoc, List.cons_append]
  have alone : parseValue nestingLimit (message.value ++ (message.trail ++ padding)) =
      some (json, rest) := by
    rw [brace, List.cons_append, ← parseRoot_blank message.blankLead, ← shape]
    exact result
  have root : parseRoot (message.value ++ (message.trail ++ padding)) = some (json, rest) := by
    rw [← alone, brace, List.cons_append, ← List.nil_append (123 :: _), parseRoot_blank blank_nil]
    rfl
  obtain ⟨inner, rfl⟩ := parseRoot_ends root tells.root blank.noBrace
  refine ⟨json, inner, congrArg Outcome.log (serialize_of_parse target fits parsed),
    fun other => ?_⟩
  exact (parses_parseValue nestingLimit).isLocal _ _ _ _ alone
    (fun number => by simp [tells.root] at number) other

/-- Blanks, the value of a message and anything that follows give its record. -/
theorem serialize_chunk {lead rest : Text} (blank : Blank lead)
    (fits : (lead ++ message.value ++ rest).length ≤ bufferSize) :
    (serialize target (zeroed (lead ++ message.value ++ rest))).log = message.log := by
  obtain ⟨json, after, recorded, parsed⟩ := message.value_parsed
  obtain ⟨tail, brace⟩ := message.starts
  have read :=
    parsed (rest ++ List.replicate (bufferSize - (lead ++ message.value ++ rest).length) 0)
  have whole : parseWithLength (zeroed (lead ++ message.value ++ rest)) = some json := by
    refine parseWithLength_eq_some.mpr ⟨_, Eq.trans ?_ read⟩
    rw [zeroed, List.append_assoc, List.append_assoc, brace, List.cons_append,
      parseRoot_blank blank, ← List.cons_append, ← brace]
  rw [serialize_of_parse target (Nat.le_of_eq (length_zeroed fits)) whole, recorded]

end Sent

/-- A chunk that holds whole values: blanks, and then values with blanks after each. -/
structure Chunk (target : Target) where
  lead : Text
  blankLead : Blank lead
  pieces : List (Sent target × { gap : Text // Blank gap })

namespace Chunk

variable {target : Target} (chunk : Chunk target)

/-- The bytes of the chunk. -/
def text : Text :=
  chunk.lead ++ chunk.pieces.flatMap fun piece => piece.1.value ++ piece.2.val

/-- The messages whose values the chunk holds. -/
def messages : List (Sent target) := chunk.pieces.map Prod.fst

/-- A chunk of blanks holds no log. -/
theorem not_holdsLog_blank {bytes : Text} (blank : Blank bytes) : ¬ HoldsLog bytes := by
  rintro ⟨json, message, parsed, tells⟩
  obtain ⟨rest, result⟩ := parseWithLength_eq_some.mp parsed
  obtain ⟨_, consumed, ends⟩ | ⟨other, _⟩ := parseValue_object result
  · have suffix : bufferSkipWhitespace (skipUtf8Bom bytes) <:+ bytes := by
      refine (bufferSkipWhitespace_skips.suffix _).trans ?_
      unfold skipUtf8Bom
      split
      · exact List.drop_suffix ..
      · exact List.suffix_rfl
    rw [ends] at suffix
    exact absurd (blank 123 (suffix.mem (List.mem_cons_self ..))) (by decide)
  · exact other tells.root

/-- A chunk gives the record of its first message, and none without a message. -/
theorem readStage_text (fits : chunk.text.length ≤ bufferSize) :
    readStage target [chunk.text] = (chunk.messages.head?.map Sent.log).toList := by
  unfold readStage messages
  cases pieces : chunk.pieces with
  | nil =>
      have blank : Blank (zeroed chunk.text) := by
        simp only [text, pieces, List.flatMap_nil, List.append_nil]
        exact chunk.blankLead.append (blank_zeros _)
      have invalid : (serialize target (zeroed chunk.text)).log.isVaild = false :=
        Bool.eq_false_iff.mpr fun valid => not_holdsLog_blank blank
          ((isVaild_serialize_iff target (Nat.le_of_eq (length_zeroed fits))).mp valid)
      simp [invalid]
  | cons piece rest =>
      have shape : chunk.text = chunk.lead ++ piece.1.value ++
          (piece.2.val ++ rest.flatMap fun piece => piece.1.value ++ piece.2.val) := by
        simp only [text, pieces, List.flatMap_cons, List.append_assoc]
      have recorded := piece.1.serialize_chunk chunk.blankLead (shape ▸ fits)
      have valid : piece.1.log.isVaild = true := piece.1.accepted
      rw [shape, List.map_singleton, recorded, List.filter_singleton, valid]
      rfl

end Chunk

/-- A way of cutting a stream of messages into chunks without cutting a value. -/
structure Cut {target : Target} (messages : List (Sent target)) where
  chunks : List (Chunk target)
  stream : chunks.flatMap Chunk.text = messages.flatMap Sent.text
  keeps : chunks.flatMap Chunk.messages = messages
  nonempty : ∀ chunk ∈ chunks, chunk.text ≠ []
  fits : ∀ chunk ∈ chunks, chunk.text.length ≤ bufferSize

/-- Chunks are read one after the other. -/
theorem readStage_cons (target : Target) (chunk : Text) (rest : List Text) :
    readStage target (chunk :: rest) = readStage target [chunk] ++ readStage target rest := by
  simp only [readStage, ← List.filter_append, List.map_cons, List.map_nil, List.singleton_append]

/-- Every chunk that fits gives the record of its first message. -/
theorem readStage_chunks {target : Target} (chunks : List (Chunk target))
    (fits : ∀ chunk ∈ chunks, chunk.text.length ≤ bufferSize) :
    readStage target (chunks.map Chunk.text) =
      chunks.filterMap fun chunk => chunk.messages.head?.map Sent.log := by
  induction chunks with
  | nil => rfl
  | cons chunk rest ih =>
      rw [List.map_cons, readStage_cons, chunk.readStage_text (fits chunk (List.mem_cons_self ..)),
        ih fun other member => fits other (List.mem_cons_of_mem _ member)]
      cases head : chunk.messages.head?.map Sent.log <;> simp [head]

/-- Taking the first of each group takes everything when no group has two members. -/
theorem filterMap_head?_flatMap {α β γ : Type*} (groups : List α) (members : α → List β) (f : β → γ)
    (single : ∀ group ∈ groups, (members group).length ≤ 1) :
    groups.filterMap (fun group => (members group).head?.map f) =
      (groups.flatMap members).map f := by
  induction groups with
  | nil => rfl
  | cons group rest ih =>
      have later := ih fun other member => single other (List.mem_cons_of_mem _ member)
      have size := single group (List.mem_cons_self ..)
      rw [List.flatMap_cons, List.map_append, ← later]
      match shape : members group with
      | [] => simp [shape]
      | [only] => simp [shape]
      | first :: second :: more =>
          rw [shape] at size
          simp at size

/-- Taking the first of each group leaves something behind when one has two. -/
theorem length_filterMap_head?_flatMap {α β γ : Type*} (groups : List α) (members : α → List β)
    (f : β → γ)
    (full : (groups.flatMap members).length ≤
      (groups.filterMap fun group => (members group).head?.map f).length) :
    ∀ group ∈ groups, (members group).length ≤ 1 := by
  have atMost : ∀ groups : List α,
      (groups.filterMap fun group => (members group).head?.map f).length ≤
        (groups.flatMap members).length := by
    intro groups
    induction groups with
    | nil => exact Nat.le_refl 0
    | cons group rest ih =>
        cases shape : members group <;>
          simp only [shape, List.filterMap_cons, List.flatMap_cons, List.head?_nil, List.head?_cons,
            Option.map_none, Option.map_some, List.nil_append, List.length_append,
            List.length_cons] at ih ⊢ <;>
          omega
  induction groups with
  | nil => exact nofun
  | cons group rest ih =>
      have rests := atMost rest
      cases shape : members group with
      | nil =>
          simp only [shape, List.filterMap_cons, List.flatMap_cons, List.head?_nil, Option.map_none,
            List.nil_append] at full
          exact List.forall_mem_cons.mpr ⟨by simp [shape], ih full⟩
      | cons first more =>
          simp only [shape, List.filterMap_cons, List.flatMap_cons, List.head?_cons,
            Option.map_some, List.length_append, List.length_cons] at full
          exact List.forall_mem_cons.mpr ⟨by simp only [shape, List.length_cons]; omega,
            ih (by omega)⟩

/-- **Cuts between values.** When no value is cut, each chunk gives the record of its
first message. The records are then those of all messages, each once, exactly when
no chunk holds two. -/
theorem readStage_cut {target : Target} {messages : List (Sent target)} (cut : Cut messages) :
    readStage target (cut.chunks.map Chunk.text) =
        cut.chunks.filterMap (fun chunk => chunk.messages.head?.map Sent.log) ∧
      ((readStage target (cut.chunks.map Chunk.text)).Perm (messages.map Sent.log) ↔
        ∀ chunk ∈ cut.chunks, chunk.messages.length ≤ 1) := by
  have records := readStage_chunks cut.chunks cut.fits
  refine ⟨records, ?_⟩
  rw [records]
  constructor
  · intro all
    refine length_filterMap_head?_flatMap cut.chunks Chunk.messages Sent.log ?_
    rw [all.length_eq, List.length_map, cut.keeps]
  · intro single
    rw [filterMap_head?_flatMap _ _ _ single, cut.keeps]

/-- The sample log is accepted from a buffer of zeros. -/
theorem zeroed_sampleLog_accepted :
    (serialize .wrapping (zeroed sampleLog)).log.isVaild = true :=
  (isVaild_serialize_iff .wrapping (Nat.le_of_eq (length_zeroed sampleLog_fits))).mpr
    (holdsLog_sampleLog.append _)

/-- Two copies of a log that arrive in chunks of their own. -/
def sampleSent : Sent .wrapping where
  lead := []
  value := sampleLog
  trail := []
  blankLead := blank_nil
  blankTrail := blank_nil
  starts := ⟨sampleLog.tail, rfl⟩
  fits := by simpa only [List.nil_append, List.append_nil] using sampleLog_fits
  accepted := by simpa only [List.nil_append, List.append_nil] using zeroed_sampleLog_accepted

/-- One message in a chunk of its own. -/
def sampleChunk : Chunk .wrapping := ⟨[], blank_nil, [(sampleSent, ⟨[], blank_nil⟩)]⟩

theorem text_sampleChunk : sampleChunk.text = sampleLog := by
  simp [Chunk.text, sampleChunk, sampleSent]

/-- Two messages, each in a chunk of its own. -/
def sampleCut : Cut [sampleSent, sampleSent] where
  chunks := [sampleChunk, sampleChunk]
  stream := by simp [Chunk.text, Sent.text, sampleChunk, sampleSent]
  keeps := rfl
  nonempty := by
    intro chunk member
    obtain rfl : chunk = sampleChunk := by simpa using member
    rw [text_sampleChunk]
    exact List.ne_nil_of_length_pos (length_sampleLog ▸ by decide)
  fits := by
    intro chunk member
    obtain rfl : chunk = sampleChunk := by simpa using member
    rw [text_sampleChunk]
    exact sampleLog_fits

/-- Both messages arrive. -/
theorem readStage_sampleCut :
    (readStage .wrapping (sampleCut.chunks.map Chunk.text)).Perm
      [sampleSent.log, sampleSent.log] := by
  refine (readStage_cut sampleCut).2.mpr fun chunk member => ?_
  obtain rfl : chunk = sampleChunk := by simpa [sampleCut] using member
  exact Nat.le_refl 1

/-- A message that arrives in two chunks is lost. -/
theorem not_readStage_split :
    ¬ ∀ (target : Target) (messages chunks : List Text),
      (∀ message ∈ messages, message.length ≤ bufferSize ∧
        (serialize target (zeroed message)).log.isVaild = true) →
      (∀ chunk ∈ chunks, chunk ≠ [] ∧ chunk.length ≤ bufferSize) →
      chunks.flatten = messages.flatten →
        (readStage target chunks).Perm
          (messages.map fun message => (serialize target (zeroed message)).log) := by
  intro always
  have whole : ∀ message ∈ [sampleLog], message.length ≤ bufferSize ∧
      (serialize .wrapping (zeroed message)).log.isVaild = true :=
    List.forall_mem_singleton.mpr ⟨sampleLog_fits, zeroed_sampleLog_accepted⟩
  have all := always .wrapping [sampleLog] [sampleLog.take 60, sampleLog.drop 60] whole
    (by decide +kernel) (by simp)
  exact absurd all.length_eq (by decide +kernel)

end Evenscribe.Serializer
