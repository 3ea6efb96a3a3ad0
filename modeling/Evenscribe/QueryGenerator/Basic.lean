import Evenscribe.Helper
import Evenscribe.Log
import Evenscribe.Param

/-!
# What the two query generators share

The back ends' loops over an attribute map differ only in the delimiter they
wrap keys and values in, and their batch queries not at all.
-/

namespace Evenscribe

/-- `wrap(it->first, wrapper) << ":" << wrap(it->second, wrapper)`. -/
def writeEntry (wrapper : Text) (entry : Σ _ : Text, Text) : Text :=
  wrap entry.1 wrapper ++ text ":" ++ wrap entry.2 wrapper

/-- The loop of `unorderedMapToString`; `atBegin` is `it == map.cbegin()`. -/
def writeEntries (wrapper : Text) : Bool → List (Σ _ : Text, Text) → Text
  | _, [] => []
  | atBegin, entry :: rest =>
      (if atBegin then [] else text ", ") ++ writeEntry wrapper entry ++
        writeEntries wrapper false rest

/-- A batch query over the tuples of a bucket. -/
def insertQuery (bucket : List Text) : Text :=
  between (text "INSERT INTO ") tableName (text " VALUES ") ++ commaSeparate bucket ++ text ";"

/-- The columns of a record in brackets. -/
def bracketValues (values : Text) : Text := between (text "(") values (text ")")

/-- Entries behind others start with a comma. -/
theorem writeEntries_false (wrapper : Text) (entry : Σ _ : Text, Text)
    (rest : List (Σ _ : Text, Text)) :
    writeEntries wrapper false (entry :: rest) =
      text ", " ++ writeEntries wrapper true (entry :: rest) := by
  simp [writeEntries]

/-- The loop writes the entries with a comma and a blank between them. -/
theorem writeEntries_eq_joined (wrapper : Text) (entries : List (Σ _ : Text, Text)) :
    writeEntries wrapper true entries = Reading.joined (text ", ")
      (entries.map fun entry => (writeEntry wrapper entry, (entry.1, entry.2))) := by
  induction entries with
  | nil => rfl
  | cons entry rest ih =>
      cases rest with
      | nil => simp [writeEntries, Reading.joined]
      | cons next rest =>
          have unfold_head : writeEntries wrapper true (entry :: next :: rest) =
              writeEntry wrapper entry ++ writeEntries wrapper false (next :: rest) := by
            rw [writeEntries]
            rfl
          rw [unfold_head, writeEntries_false, ih]
          simp only [List.map_cons, Reading.joined, List.append_assoc]

end Evenscribe
