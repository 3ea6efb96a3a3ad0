import Evenscribe.Json.PrintRoundTrip
import Evenscribe.Serializer.Leftover

/-!
# Messages that were printed

A client may build the tree of a message and print it. If the numbers of the message are
integers of at most 15 digits and its strings hold no zero byte, the serializer makes of
the printed text the record that its blocks make of the tree, whatever stands behind it
in the buffer (`serialize_print`).
-/

namespace Evenscribe.Serializer

open CJSON

/-- The number is an integer of at most 15 digits. -/
def Integral (number : Double) : Prop := ∃ whole : ℤ, |whole| < 10 ^ 15 ∧ number = .finite whole

/-- Numbers are integers of at most 15 digits, and strings hold no zero byte. -/
structure Message.Plain (message : Message) : Prop where
  numbers : ∀ number ∈ [message.timestamp, message.traceFlags, message.severityNumber],
    Integral number
  strings : ∀ content ∈ [message.traceId, message.spanId, message.severityText,
    message.serviceName, message.body], 0 ∉ content
  attributes : ∀ entry ∈ message.resourceAttributes ++ message.logAttributes,
    0 ∉ entry.1 ∧ 0 ∉ entry.2

/-- A member that the printer and the parser take in, and that is read back as it is. -/
structure Resent (levels : ℕ) (member : CJSON) : Prop where
  terminated : Terminated member
  parsable : Parsable levels member
  same : { reread member with string := some (member.string.getD []) } = member

namespace Resent

variable {levels : ℕ}

/-- Members are read back as they are, all together. -/
theorem rereadMembers_eq_self {members : List CJSON}
    (resent : ∀ member ∈ members, Resent levels member) : rereadMembers members = members := by
  rw [rereadMembers_eq]
  exact (List.map_congr_left fun member inside => (resent member inside).same).trans
    (List.map_id members)

variable {name : Text} (clean : 0 ∉ name)

include clean

/-- An integer is sent as it is. -/
theorem numberNode {number : Double} (integral : Integral number) :
    Resent levels (numberNode name number) := by
  obtain ⟨whole, small, rfl⟩ := integral
  have read := strtod_numberText_intCast small
  refine ⟨⟨_, nofun, fun _ same => Option.some.inj same ▸ clean, nofun⟩,
    .number rfl (own_of_strtod read), ?_⟩
  simp only [Serializer.numberNode, reread, rereadNumber, read, Option.map_some,
    Option.getD_some]

/-- A string without zero bytes is sent as it is. -/
theorem stringNode {value : Text} (plain : 0 ∉ value) : Resent levels (stringNode name value) :=
  ⟨⟨_, fun _ same => Option.some.inj same ▸ plain,
    fun _ same => Option.some.inj same ▸ clean, nofun⟩, .string rfl, rfl⟩

/-- Attributes without zero bytes are sent as they are. -/
theorem attributesNode {entries : List (Text × Text)}
    (plain : ∀ entry ∈ entries, 0 ∉ entry.1 ∧ 0 ∉ entry.2) :
    Resent (levels + 1) (attributesNode name entries) := by
  have members : ∀ member ∈ (Serializer.attributesNode name entries).child,
      Resent levels member := by
    intro member inside
    obtain ⟨entry, isEntry, rfl⟩ := List.mem_map.mp inside
    exact .stringNode (plain entry isEntry).1 (plain entry isEntry).2
  refine ⟨⟨_, nofun, fun _ same => Option.some.inj same ▸ clean,
    fun member inside => (members member inside).terminated⟩,
    .container (.inr rfl) fun member inside => (members member inside).parsable, ?_⟩
  have same := rereadMembers_eq_self members
  simp only [Serializer.attributesNode] at same ⊢
  simp only [reread, same, Option.getD_some]

end Resent

/-- The members of a plain message are all resent. -/
theorem Message.Plain.resent {message : Message} (plain : message.Plain) (levels : ℕ) :
    ∀ member ∈ message.tree.child, Resent (levels + 1) member := by
  obtain ⟨numbers, strings, attributes⟩ := plain
  simp only [List.forall_mem_cons] at numbers strings
  obtain ⟨timestamp, traceFlags, severityNumber, -⟩ := numbers
  obtain ⟨traceId, spanId, severityText, serviceName, body, -⟩ := strings
  obtain ⟨resource, log⟩ := List.forall_mem_append.mp attributes
  simp only [Message.tree, List.forall_mem_cons]
  exact ⟨.numberNode (by decide) timestamp, .stringNode (by decide) traceId,
    .stringNode (by decide) spanId, .numberNode (by decide) traceFlags,
    .stringNode (by decide) severityText, .numberNode (by decide) severityNumber,
    .stringNode (by decide) serviceName, .stringNode (by decide) body,
    .attributesNode (by decide) resource, .attributesNode (by decide) log, List.forall_mem_nil _⟩

/-- **A printed message is stored.** The tree of a plain message is printed, formatted or
not, as a text of which `serialize` makes what its blocks store of the tree, the span's
identifier in the place of the trace's included, without a warning and whatever stands
behind the text in the buffer. -/
theorem serialize_print (target : Target) {message : Message} (plain : message.Plain)
    (format : Bool) (hooks : Hooks) :
    ∃ out, hooks.Settle
        (if out.length + 2 ≤ intMax.toNat then .ok (out ++ [0]) else .error .refused)
        (print message.tree format hooks) ∧
      ∀ tail, (out ++ tail).length ≤ bufferSize →
        serialize target (out ++ tail) = ⟨message.stored target, []⟩ := by
  have resent := plain.resent 998
  have terminated : Terminated message.tree :=
    ⟨_, fun _ absent => absurd absent (Option.not_mem_none _),
      fun _ absent => absurd absent (Option.not_mem_none _),
      fun member inside => (resent member inside).terminated⟩
  have parsable : Parsable nestingLimit message.tree :=
    .container (.inr rfl) fun member inside => (resent member inside).parsable
  have same : reread message.tree = message.tree := by
    have members := Resent.rereadMembers_eq_self resent
    simp only [Message.tree] at members ⊢
    simp only [reread, members]
  obtain ⟨out, text, read⟩ := parseWithLength_printedValue terminated parsable format
  rw [same] at read
  have ends (tail : Text) : NumberEnds message.tree tail :=
    fun number => absurd number (show CJSON.Kind.object ≠ .number by decide)
  refine ⟨out, ?_, fun tail fits => ?_⟩
  · have settle := settle_print terminated format hooks
    rwa [text] at settle
  · rw [serialize_of_parse target fits (read tail (ends tail))]
    exact outcome_of_tells (wellFormed_tree message) (tells_tree message)

/-- The sample message is printed and stored. -/
theorem serialize_print_sample :
    ∃ out, (Hooks.zeroed (fun _ => true) true).Settle
        (if out.length + 2 ≤ intMax.toNat then .ok (out ++ [0]) else .error .refused)
        (print (Message.sample (text "a") (text "b")).tree true (.zeroed (fun _ => true) true)) ∧
      ∀ tail, (out ++ tail).length ≤ bufferSize →
        serialize .wrapping (out ++ tail) =
          ⟨(Message.sample (text "a") (text "b")).stored .wrapping, []⟩ := by
  have plain : (Message.sample (text "a") (text "b")).Plain := by
    refine ⟨?_, by decide, by decide⟩
    simp only [Message.sample, List.forall_mem_cons]
    exact ⟨⟨4294967295, by norm_num, by norm_num⟩, ⟨0, by norm_num, by norm_num⟩,
      ⟨-2147483648, by norm_num, by norm_num⟩, List.forall_mem_nil _⟩
  exact serialize_print .wrapping plain true (.zeroed (fun _ => true) true)

end Evenscribe.Serializer
