import JuliaLexer.Pattern
import JuliaLexer.ReservedWord
import JuliaLexer.Proofs.Character
import Mathlib.Data.List.TakeWhile

/-!
# Words: when a text starts with a reserved word

The pattern of words looks for the first word of a list that the text starts with and that ends there as a word. No order of
the list matters for that: the text starts with the one word it can start with, which is the longest run of word characters
at its front (`Text.leadingWord`), and the pattern finds it if it is in the list (`Pattern.lexeme?_oneOf`).
-/

namespace JuliaLexer

/-! ## Helpers: the longest run of a class at the front of a text -/

/-- A run is followed by the end of the text or by a character outside the class. -/
theorem not_head?_dropWhile {p : Char → Bool} (t : Text) : ∀ c ∈ (t.dropWhile p).head?, p c = false := by
  intro c hc
  have h := List.head?_dropWhile_not p t
  rw [Option.mem_def.mp hc] at h
  simpa using h

/-- A run does not reach over a character outside the class. -/
theorem takeWhile_append_of_head {p : Char → Bool} {y : Text} (l : Text) (hy : ∀ c ∈ y.head?, p c = false) :
    (l ++ y).takeWhile p = l.takeWhile p := by
  have hnil : y.takeWhile p = [] := by
    cases y with
    | nil => rfl
    | cons c y => rw [List.takeWhile_cons_of_neg (by simp [hy c rfl])]
  rw [List.takeWhile_append, hnil, List.append_nil]
  split_ifs with hlen
  · exact ((List.takeWhile_prefix p).eq_of_length hlen).symm
  · rfl

/-- Some characters of a class, not followed by another one, are the run that the text starts with. -/
theorem takeWhile_append_eq_left {p : Char → Bool} {l y : Text} (hl : ∀ c ∈ l, p c = true)
    (hy : ∀ c ∈ y.head?, p c = false) : (l ++ y).takeWhile p = l := by
  rw [takeWhile_append_of_head l hy]
  exact List.takeWhile_eq_self_iff.mpr hl

/-- Removing a run leaves what follows it. -/
theorem drop_length_takeWhile (p : Char → Bool) (t : Text) : t.drop (t.takeWhile p).length = t.dropWhile p := by
  have h : t.takeWhile p ++ t.dropWhile p = t := List.takeWhile_append_dropWhile
  calc t.drop (t.takeWhile p).length = (t.takeWhile p ++ t.dropWhile p).drop (t.takeWhile p).length := by rw [h]
    _ = t.dropWhile p := List.drop_left

/-! ## The word that a text starts with -/

/-- The word that a text starts with: the longest run of word characters at its front, which may be empty. -/
def Text.leadingWord (t : Text) : Text := t.takeWhile (fun c => decide (IsWordChar c))

/-- What follows a text does not change the word it starts with, unless that is a word character. -/
theorem Text.leadingWord_append (l : Text) {y : Text} (hy : ∀ c ∈ y.head?, ¬IsWordChar c) :
    Text.leadingWord (l ++ y) = Text.leadingWord l :=
  takeWhile_append_of_head l (fun c hc => decide_eq_false (hy c hc))

/-- Nor does it if that word ends inside the text. -/
theorem Text.leadingWord_append_of_ne {l : Text} (h : Text.leadingWord l ≠ l) (y : Text) :
    Text.leadingWord (l ++ y) = Text.leadingWord l := by
  unfold Text.leadingWord at h ⊢
  rw [List.takeWhile_append, if_neg]
  exact fun hlen => h ((List.takeWhile_prefix _).eq_of_length hlen)

/-- A text of word characters is the word it starts with. -/
theorem Text.leadingWord_eq_self {w : Text} (hw : ∀ c ∈ w, IsWordChar c) : Text.leadingWord w = w :=
  List.takeWhile_eq_self_iff.mpr (fun c hc => decide_eq_true (hw c hc))

theorem Text.endsWord_iff (t : Text) : t.endsWord = true ↔ ∀ c ∈ t.head?, ¬IsWordChar c := by
  cases t with
  | nil => simp [Text.endsWord]
  | cons c t => simp [Text.endsWord, ← CharSet.contains_word]

/-- A text starts with a given word exactly if that is its leading word. -/
theorem Text.startsWithWord_iff {w : String} (hne : w.toList ≠ []) (hw : ∀ c ∈ w.toList, IsWordChar c) (t : Text) :
    t.startsWithWord w = true ↔ t.leadingWord = w.toList := by
  simp only [Text.startsWithWord, Bool.and_eq_true, Text.endsWord_iff, List.isPrefixOf_iff_prefix,
    Bool.not_eq_true', List.isEmpty_eq_false_iff]
  constructor
  · rintro ⟨⟨_, y, rfl⟩, hy⟩
    rw [List.drop_left] at hy
    rw [Text.leadingWord_append _ hy, Text.leadingWord_eq_self hw]
  · intro h
    have ht : w.toList ++ t.dropWhile (fun c => decide (IsWordChar c)) = t := by
      rw [← h]
      exact List.takeWhile_append_dropWhile
    refine ⟨⟨hne, _, ht⟩, ?_⟩
    intro c hc
    rw [← ht, List.drop_left] at hc
    exact of_decide_eq_false (not_head?_dropWhile t c hc)

/-- The pattern of words finds the leading word if that is one of them, and nothing otherwise, in whatever order the words
are tried. -/
theorem Pattern.lexeme?_oneOf {words : List String} (h : ∀ w ∈ words, w.toList ≠ [] ∧ ∀ c ∈ w.toList, IsWordChar c)
    (t : Text) :
    (Pattern.oneOf words).lexeme? t =
      if t.leadingWord ∈ words.map String.toList then some t.leadingWord else none := by
  simp only [Pattern.lexeme?]
  split_ifs with hmem
  · obtain ⟨w, hw, hwt⟩ := List.mem_map.mp hmem
    cases hf : words.find? t.startsWithWord with
    | none =>
      have := List.find?_eq_none.mp hf w hw
      exact absurd ((Text.startsWithWord_iff (h w hw).1 (h w hw).2 t).mpr hwt.symm) this
    | some v =>
      have hv := h v (List.mem_of_find?_eq_some hf)
      rw [Option.map_some, (Text.startsWithWord_iff hv.1 hv.2 t).mp (List.find?_some hf)]
  · rw [Option.map_eq_none_iff, List.find?_eq_none]
    intro w hw hs
    have hwt := (Text.startsWithWord_iff (h w hw).1 (h w hw).2 t).mp hs
    exact hmem (hwt ▸ List.mem_map_of_mem hw)

/-! ## Reserved words -/

/-- A text that is one of the reserved words. -/
def IsReserved (w : Text) : Prop := w ∈ (reservedWords.map (·.1)).map String.toList

instance : DecidablePred IsReserved := fun _ => inferInstanceAs (Decidable (_ ∈ _))

/-- The reserved words are words, and not empty. -/
theorem reservedWords_wordChars :
    ∀ w ∈ reservedWords.map (·.1), w.toList ≠ [] ∧ ∀ c ∈ w.toList, IsWordChar c := by
  have hall : ∀ w ∈ reservedWords.map (·.1), w.toList ≠ [] ∧ w.toList.all (fun c => decide (IsWordChar c)) = true := by
    decide +kernel
  intro w hw
  obtain ⟨hne, hchars⟩ := hall w hw
  exact ⟨hne, fun c hc => of_decide_eq_true (List.all_eq_true.mp hchars c hc)⟩

/-- Reserved words look like names: they start with a letter. -/
theorem IsReserved.exists_cons {w : Text} (h : IsReserved w) : ∃ c l, w = c :: l ∧ IsNameStart c ∧ ¬IsSpace c := by
  have hall : ∀ w ∈ (reservedWords.map (·.1)).map String.toList,
      w.head?.all (fun c => decide (IsNameStart c ∧ ¬IsSpace c)) = true := by decide +kernel
  cases w with
  | nil => exact absurd h (by decide +kernel)
  | cons c l => exact ⟨c, l, rfl, of_decide_eq_true (hall _ h)⟩

theorem IsReserved.wordChars {w : Text} (h : IsReserved w) : ∀ c ∈ w, IsWordChar c := by
  obtain ⟨v, hv, rfl⟩ := List.mem_map.mp h
  exact (reservedWords_wordChars v hv).2

/-- A category that some reserved word has. -/
def Category.IsKeyword (k : Category) : Prop := ∃ w, IsReserved w ∧ Category.ofWord w = k

/-- The categories of reserved words are seven. -/
theorem Category.isKeyword_iff (k : Category) :
    k.IsKeyword ↔ k = .keyword ∨ k = .keywordReturn ∨ k = .languageConstant ∨ k = .keywordImport ∨
      k = .keywordControl ∨ k = .keywordOperator ∨ k = .keywordFunction := by
  constructor
  · rintro ⟨w, hw, rfl⟩
    have hall : ∀ w ∈ (reservedWords.map (·.1)).map String.toList,
        Category.ofWord w ∈ [Category.keyword, .keywordReturn, .languageConstant, .keywordImport, .keywordControl,
          .keywordOperator, .keywordFunction] := by decide +kernel
    simpa using hall w hw
  · have hexists : ∀ w ∈ ["let", "return", "true", "import", "end", "in", "function"],
        (Category.ofWord w.toList).IsKeyword := by
      intro w hw
      refine ⟨w.toList, ?_, rfl⟩
      revert w
      decide +kernel
    rintro (rfl | rfl | rfl | rfl | rfl | rfl | rfl)
    · exact hexists "let" (by decide)
    · exact hexists "return" (by decide)
    · exact hexists "true" (by decide)
    · exact hexists "import" (by decide)
    · exact hexists "end" (by decide)
    · exact hexists "in" (by decide)
    · exact hexists "function" (by decide)

/-- A word that is not reserved is a name. -/
theorem Category.ofWord_of_not_isReserved {w : Text} (h : ¬IsReserved w) : Category.ofWord w = .variableName := by
  have hnone : reservedWords.find? (fun entry => entry.1.toList == w) = none := by
    rw [List.find?_eq_none]
    intro entry hentry hw
    refine h (List.mem_map.mpr ⟨entry.1, List.mem_map_of_mem hentry, eq_of_beq hw⟩)
  rw [Category.ofWord, hnone]

theorem IsReserved.isKeyword {w : Text} (h : IsReserved w) : (Category.ofWord w).IsKeyword := ⟨w, h, rfl⟩

/-- No other token has the category of a reserved word. -/
theorem Category.IsKeyword.ne {k : Category} (h : k.IsKeyword) :
    k ≠ .whitespace ∧ k ≠ .variableName ∧ k ≠ .numeric ∧ k ≠ .punctuation ∧ k ≠ .string := by
  rcases (Category.isKeyword_iff k).mp h with rfl | rfl | rfl | rfl | rfl | rfl | rfl <;> decide

end JuliaLexer
