import Evenscribe.Text
import Evenscribe.Foundation.Reading

/-!
# String helpers
-/

namespace Evenscribe

/-- `wrap`: a text between two copies of another. -/
def wrap (str wrapper : Text) : Text := wrapper ++ str ++ wrapper

/-- `between`: a text between two others. -/
def between (start str stop : Text) : Text := start ++ str ++ stop

/-- The entries of `arr` with commas between them; nothing for an empty deque. -/
def commaSeparate : List Text → Text
  | [] => []
  | first :: rest => rest.foldl (fun oss value => oss ++ text "," ++ value) first

theorem commaSeparate_cons_cons (first second : Text) (rest : List Text) :
    commaSeparate (first :: second :: rest) =
      first ++ text "," ++ commaSeparate (second :: rest) := by
  have shift : ∀ (values : List Text) (front start : Text),
      values.foldl (fun oss value => oss ++ text "," ++ value) (front ++ start) =
        front ++ values.foldl (fun oss value => oss ++ text "," ++ value) start := by
    intro values
    induction values with
    | nil => intro front start; rfl
    | cons value values ih =>
        intro front start
        simp only [List.foldl_cons]
        rw [← ih front (start ++ text "," ++ value)]
        simp only [List.append_assoc]
  simp only [commaSeparate, List.foldl_cons]
  rw [shift rest (first ++ text ",") second]

/-- What `commaSeparate` writes is a list joined by commas. -/
theorem commaSeparate_eq_joined {β : Type*} (items : List (Text × β)) :
    commaSeparate (items.map Prod.fst) = Reading.joined (text ",") items := by
  induction items with
  | nil => rfl
  | cons item rest ih =>
      cases rest with
      | nil => rfl
      | cons next rest =>
          rw [List.map_cons, List.map_cons, commaSeparate_cons_cons, ← List.map_cons, ih]
          rfl

end Evenscribe
