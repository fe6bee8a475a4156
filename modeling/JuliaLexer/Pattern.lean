import JuliaLexer.CharClass

/-!
# Patterns: what a rule looks for at the start of a text

A pattern is matched at the start of a text only, and what it finds there, its lexeme, is never empty. So whoever removes
a lexeme from a text is left with a shorter one (`Pattern.length_drop_lt`).
-/

namespace JuliaLexer

/-- What a text may start with. -/
inductive Pattern where
  /-- A character of the first set, and then all characters of the second set that follow it. -/
  | span (first more : CharSet)
  /-- The first of the words that the text starts with and that no word character follows there. -/
  | oneOf (words : List String)
  deriving DecidableEq, Repr

/-- A single character of a set. -/
def Pattern.one (s : CharSet) : Pattern := .span s .empty

/-- A character of a set with all characters of the set that follow it. -/
def Pattern.run (s : CharSet) : Pattern := .span s s

/-- Whether a word that ends in front of a text ends there as a word: no ASCII word character follows it. Letters beyond
ASCII do not make it longer. -/
def Text.endsWord : Text → Bool
  | [] => true
  | c :: _ => !CharSet.word.contains c

/-- Whether a text starts with a word that ends there as a word. -/
def Text.startsWithWord (t : Text) (w : String) : Bool :=
  !w.toList.isEmpty && w.toList.isPrefixOf t && Text.endsWord (t.drop w.toList.length)

/-- What a pattern finds at the start of a text. -/
def Pattern.lexeme? : Pattern → Text → Option Text
  | .span _ _, [] => none
  | .span first more, c :: rest => if first.contains c then some (c :: rest.takeWhile more.contains) else none
  | .oneOf words, t => (words.find? t.startsWithWord).map String.toList

/-! ## Helper lemmas: a lexeme starts the text and is not empty -/

theorem Pattern.lexeme?_prefix {p : Pattern} {t l : Text} (h : p.lexeme? t = some l) : l <+: t := by
  match p, t with
  | .span first more, [] => simp [Pattern.lexeme?] at h
  | .span first more, c :: rest =>
    simp only [Pattern.lexeme?, Option.ite_none_right_eq_some, Option.some.injEq] at h
    rw [← h.2]
    exact List.cons_prefix_cons.mpr ⟨rfl, List.takeWhile_prefix _⟩
  | .oneOf words, t =>
    simp only [Pattern.lexeme?, Option.map_eq_some_iff] at h
    obtain ⟨w, hw, rfl⟩ := h
    have hs := List.find?_some hw
    simp only [Text.startsWithWord, Bool.and_eq_true] at hs
    exact List.isPrefixOf_iff_prefix.mp hs.1.2

theorem Pattern.lexeme?_ne_nil {p : Pattern} {t l : Text} (h : p.lexeme? t = some l) : l ≠ [] := by
  match p, t with
  | .span first more, [] => simp [Pattern.lexeme?] at h
  | .span first more, c :: rest =>
    simp only [Pattern.lexeme?, Option.ite_none_right_eq_some, Option.some.injEq] at h
    rw [← h.2]
    exact List.cons_ne_nil _ _
  | .oneOf words, t =>
    simp only [Pattern.lexeme?, Option.map_eq_some_iff] at h
    obtain ⟨w, hw, rfl⟩ := h
    have hs := List.find?_some hw
    simp only [Text.startsWithWord, Bool.and_eq_true] at hs
    simpa using hs.1.1

/-- Removing a lexeme from a text makes it shorter. -/
theorem Pattern.length_drop_lt {p : Pattern} {t l : Text} (h : p.lexeme? t = some l) :
    (t.drop l.length).length < t.length := by
  have hpos : 0 < l.length := List.length_pos_iff.mpr (Pattern.lexeme?_ne_nil h)
  have hle : l.length ≤ t.length := (Pattern.lexeme?_prefix h).length_le
  rw [List.length_drop]
  omega

end JuliaLexer
