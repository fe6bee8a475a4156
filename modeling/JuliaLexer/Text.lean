/-!
# Text: the characters a lexer reads

A text is a list of characters, that is of Unicode scalar values; all lengths and positions count them. `Text.cut` takes a
text apart at given lengths, which is how the pieces of a line are found again from the lengths of its tokens.
-/

namespace JuliaLexer

/-- A text: its characters in order. -/
abbrev Text : Type := List Char

/-- The lines of a text. Every newline separates two lines, so there is always one line more than there are newlines, and
any of them may be empty. -/
def Text.lines (t : Text) : List Text := t.splitOn '\n'

/-- The pieces of a text that have the given lengths, from its start on. A piece that the text is too short for is as long
as what is left. -/
def Text.cut : List Nat → Text → List Text
  | [], _ => []
  | n :: rest, t => t.take n :: Text.cut rest (t.drop n)

/-! ## Helper lemmas: nothing is lost -/

/-- The lines of a text, joined by newlines, are the text. -/
theorem Text.intercalate_lines (t : Text) : ['\n'].intercalate t.lines = t :=
  List.intercalate_splitOn '\n'

/-- Cut at the lengths of some texts, their concatenation gives these texts again. -/
theorem Text.cut_flatten (ts : List Text) : Text.cut (ts.map List.length) ts.flatten = ts := by
  induction ts with
  | nil => rfl
  | cons t ts ih => simp [Text.cut, ih]

/-- Cut at their lengths, the texts of some things, one after another, fall apart again. -/
theorem Text.cut_flatMap {α : Type} (f : α → Text) (xs : List α) :
    Text.cut (xs.map (fun x => (f x).length)) (xs.flatMap f) = xs.map f := by
  have h := Text.cut_flatten (xs.map f)
  rw [List.map_map] at h
  rw [List.flatMap_def]
  exact h

end JuliaLexer
