import JuliaLexer.Proofs.Reading
import Mathlib.Data.List.Find

/-!
# Reserved words: recognised as whole words, in whatever order they are listed

The pattern of reserved words tries one after another until a boundary follows (`WordBoundary`), and some of them start others.
Still the order does not matter: the pattern finds the longest run of word characters at the start of a text if that is a
reserved word, and nothing otherwise. The categories of reserved words are looked up in the list that the pattern is made of;
told category by category, as in `Category.words`, they are the same (`Category.ofWord_eq_iff`). So what is taken for a reserved
word has a category of its own, and what is taken for a name is none (`reservedWords_recognised`).
-/

namespace JuliaLexer

/-- `WordBoundary a b`: where the text `a` ends and `b` starts is a boundary of a word, with a word character on one side of it
and none on the other. -/
def WordBoundary (a b : Text) : Prop := (∃ c ∈ a.getLast?, IsWordChar c) ↔ ¬∃ c ∈ b.head?, IsWordChar c

instance (a b : Text) : Decidable (WordBoundary a b) := inferInstanceAs (Decidable (_ ↔ _))

/-- The reserved words of a category. -/
def Category.words : Category → List String
  | .languageConstant => ["true", "false"]
  | .keywordImport => ["import", "export"]
  | .keywordControl =>
    ["begin", "break", "catch", "continue", "do", "else", "elseif", "end", "finally", "for", "if", "try", "while"]
  | .keywordReturn => ["return"]
  | .keywordOperator => ["in"]
  | .keywordFunction => ["function"]
  | .keyword =>
    ["baremodule", "ccall", "const", "global", "isa", "let", "local", "macro", "module", "quote", "using", "where"]
  | _ => []

/-! ## Helpers: the category of a word -/

/-- A word is reserved exactly if it has not the category of names. -/
theorem Category.ofWord_ne_variableName_iff (w : Text) : Category.ofWord w ≠ .variableName ↔ IsReserved w := by
  constructor
  · intro h
    by_contra hw
    exact h (Category.ofWord_of_not_isReserved hw)
  · intro hw
    exact hw.isKeyword.ne.2.1

/-- The words of a category, other than that of names, are those that are listed for it. -/
theorem Category.ofWord_eq_iff {k : Category} (hk : k ≠ .variableName) (w : Text) :
    Category.ofWord w = k ↔ w ∈ k.words.map String.toList := by
  have hlisted : ∀ w ∈ (reservedWords.map (·.1)).map String.toList,
      w ∈ (Category.ofWord w).words.map String.toList := by decide +kernel
  have hcategory : ∀ k ∈ Category.all, ∀ w ∈ k.words.map String.toList, Category.ofWord w = k := by decide +kernel
  constructor
  · rintro rfl
    exact hlisted w ((Category.ofWord_ne_variableName_iff w).mp hk)
  · exact hcategory k k.mem_all w

/-! ## Helpers: words in any order -/

/-- After word characters there is a boundary if no other one follows. -/
theorem wordBoundary_iff {w : Text} (hne : w ≠ []) (hw : ∀ c ∈ w, IsWordChar c) (y : Text) :
    WordBoundary w y ↔ ∀ c ∈ y.head?, ¬IsWordChar c := by
  have hlast : ∃ c ∈ w.getLast?, IsWordChar c :=
    ⟨w.getLast hne, List.getLast?_eq_some_getLast hne, hw _ (List.getLast_mem hne)⟩
  unfold WordBoundary
  simp only [hlast, true_iff, not_exists, not_and]

/-- The pattern of some words finds the first of them that a text starts with and that a boundary follows there. -/
theorem Pattern.lexeme?_oneOf_eq_find? {words : List String}
    (h : ∀ w ∈ words, w.toList ≠ [] ∧ ∀ c ∈ w.toList, IsWordChar c) (t : Text) :
    (Pattern.oneOf words).lexeme? t =
      (words.map String.toList).find? (fun w => decide (w <+: t ∧ WordBoundary w (t.drop w.length))) := by
  have hword (w : String) (hw : w ∈ words) :
      t.startsWithWord w = decide (w.toList <+: t ∧ WordBoundary w.toList (t.drop w.toList.length)) := by
    obtain ⟨hne, hchars⟩ := h w hw
    rw [Bool.eq_iff_iff, decide_eq_true_iff, wordBoundary_iff hne hchars]
    unfold Text.startsWithWord
    simp only [Bool.and_eq_true, Bool.not_eq_true', List.isEmpty_eq_false_iff, hne, ne_eq, not_false_eq_true, true_and,
      List.isPrefixOf_iff_prefix, Text.endsWord_iff]
  unfold Pattern.lexeme?
  rw [List.find?_map]
  exact congrArg (Option.map String.toList) (List.find?_congr hword)

theorem wordChars_of_perm {words : List String} (h : words.Perm (reservedWords.map (·.1))) :
    ∀ w ∈ words, w.toList ≠ [] ∧ ∀ c ∈ w.toList, IsWordChar c :=
  fun w hw => reservedWords_wordChars w (h.mem_iff.mp hw)

/-- The pattern of reserved words, in any order, finds the word that a text starts with, if it is reserved. -/
theorem Pattern.lexeme?_oneOf_perm {words : List String} (h : words.Perm (reservedWords.map (·.1))) (t l : Text) :
    (Pattern.oneOf words).lexeme? t = some l ↔ IsReserved t.leadingWord ∧ l = t.leadingWord := by
  have hmem : t.leadingWord ∈ words.map String.toList ↔ IsReserved t.leadingWord := (h.map String.toList).mem_iff
  rw [Pattern.lexeme?_oneOf (wordChars_of_perm h)]
  simp only [hmem]
  split_ifs with hw
  · rw [Option.some.injEq]
    exact ⟨fun hl => ⟨hw, hl.symm⟩, fun ⟨_, hl⟩ => hl.symm⟩
  · exact ⟨nofun, fun ⟨hw', _⟩ => absurd hw' hw⟩

/-! ## Helpers: what the rules of reserved words and of names take -/

/-- No name is a reserved word. -/
theorem Lexeme.not_isReserved {m m' : Mode} {l : Text} {n : Option Char} (h : Lexeme m .variableName l m' n) :
    ¬IsReserved l := by
  generalize hk : Category.variableName = k at h
  cases h with
  | reserved hw _ => exact absurd hk.symm hw.isKeyword.ne.2.1
  | name _ _ _ _ hr =>
    intro hl
    rw [Text.leadingWord_eq_self hl.wordChars] at hr
    exact hr hl
  | _ => cases hk

/-- Every step of a scan is one that is taken at the start of some text. -/
theorem Grammar.exists_step?_of_mem_scan {g : Grammar} {m : Mode} {t : Text} :
    ∀ s ∈ (g.scan m t).steps, ∃ m' t', g.step? m' t' = some s := by
  induction m, t using g.scan_induction with
  | stop m t h =>
    rw [Grammar.scan_of_step?_eq_none h]
    exact nofun
  | step m t s h ih =>
    rw [Grammar.scan_of_step?_eq_some h]
    exact List.forall_mem_cons.mpr ⟨⟨m, t, h⟩, ih⟩

/-- What the rule of reserved words takes is a reserved word, and its category is that of the word. -/
theorem Step.of_reservedWord {m : Mode} {t : Text} {s : Step} (h : Grammar.julia.step? m t = some s)
    (hr : s.rule = .reservedWord) : IsReserved s.lexeme ∧ s.token.category = Category.ofWord s.lexeme := by
  obtain ⟨-, hl⟩ := Grammar.step?_eq_some h
  unfold Step.token
  rw [hr] at hl ⊢
  obtain ⟨hw, hlexeme⟩ := (Pattern.lexeme?_oneOf_perm (List.Perm.refl _) t s.lexeme).mp hl
  rw [← hlexeme] at hw
  exact ⟨hw, rfl⟩

/-- What has the category of names is not reserved. -/
theorem Step.not_isReserved_lexeme {m : Mode} {t : Text} {s : Step} (h : Grammar.julia.step? m t = some s)
    (hk : s.token.category = .variableName) : ¬IsReserved s.lexeme := by
  have hlexeme := Grammar.lexeme_of_step? h
  rw [hk] at hlexeme
  exact hlexeme.not_isReserved

/-- What the rule of names takes is not reserved, so its category is that of a word, too. -/
theorem Step.of_identifier {m : Mode} {t : Text} {s : Step} (h : Grammar.julia.step? m t = some s)
    (hr : s.rule = .identifier) : s.token.category = Category.ofWord s.lexeme := by
  have hk : s.token.category = .variableName := by
    unfold Step.token
    rw [hr]
    rfl
  rw [hk, Category.ofWord_of_not_isReserved (Step.not_isReserved_lexeme h hk)]

/-- The lexemes of a scan that leaves nothing are the pieces of the text under its tokens. -/
theorem cut_scan {g : Grammar} {m : Mode} {t : Text} (h : (g.scan m t).rest = []) :
    Text.cut ((g.scan m t).tokens.map (·.length)) t = (g.scan m t).steps.map (·.lexeme) := by
  have htext : (g.scan m t).steps.flatMap (·.lexeme) = t := by
    have happend := g.scan_append_rest m t
    rwa [h, List.append_nil] at happend
  have hcut := Text.cut_flatMap (·.lexeme) (g.scan m t).steps
  rw [htext] at hcut
  unfold Scan.tokens
  rw [List.map_map]
  exact hcut

/-! ## Reserved words in lines -/

/-- In whatever order the reserved words are listed, the pattern of them finds the first that a text starts with and that a
boundary follows; that is, it matches exactly if the longest run of word characters at the start of the text is one of them, and
then finds that run. So in a line that is read, both the rule of reserved words and that of names give their lexeme the category
that it has as a word: a reserved word is never taken for a name, and no name is a reserved word. And a word has a category other
than that of names exactly if it is reserved; it is then the one for which the word is listed. -/
theorem reservedWords_recognised :
    (∀ words : List String, words.Perm (reservedWords.map (·.1)) → ∀ t : Text,
      (Pattern.oneOf words).lexeme? t =
          (words.map String.toList).find? (fun w => decide (w <+: t ∧ WordBoundary w (t.drop w.length))) ∧
        ∀ l, (Pattern.oneOf words).lexeme? t = some l ↔ IsReserved t.leadingWord ∧ l = t.leadingWord) ∧
    (∀ (m : Mode) (t : Text) (l : LineTokens), tokenizeLine m t = .ok l →
      let steps := (Grammar.julia.scan m t).steps
      l.tokens = steps.map Step.token ∧ Text.cut (l.tokens.map (·.length)) t = steps.map (·.lexeme) ∧
        ∀ s ∈ steps,
          (s.rule = .reservedWord ∨ s.rule = .identifier → s.token.category = Category.ofWord s.lexeme) ∧
          (s.rule = .reservedWord → s.token.category ≠ .variableName) ∧
          (s.token.category = .variableName → ¬IsReserved s.lexeme)) ∧
    (∀ w, Category.ofWord w ≠ .variableName ↔ IsReserved w) ∧
    (∀ k ≠ .variableName, ∀ w, Category.ofWord w = k ↔ w ∈ k.words.map String.toList) := by
  refine ⟨?_, ?_, Category.ofWord_ne_variableName_iff, fun k hk w => Category.ofWord_eq_iff hk w⟩
  · intro words h t
    exact ⟨Pattern.lexeme?_oneOf_eq_find? (wordChars_of_perm h) t, Pattern.lexeme?_oneOf_perm h t⟩
  · intro m t l h steps
    obtain ⟨-, hrest, rfl⟩ := tokenizeLine_eq_ok_iff_scan.mp h
    refine ⟨rfl, cut_scan hrest, ?_⟩
    intro s hs
    obtain ⟨m', t', hstep⟩ := Grammar.exists_step?_of_mem_scan s hs
    refine ⟨?_, ?_, Step.not_isReserved_lexeme hstep⟩
    · rintro (hr | hr)
      · exact (Step.of_reservedWord hstep hr).2
      · exact Step.of_identifier hstep hr
    · intro hr
      obtain ⟨hw, hk⟩ := Step.of_reservedWord hstep hr
      rw [hk]
      exact hw.isKeyword.ne.2.1

/-- A word that starts with two others is found whole when the list is reversed, and one that goes on with a letter beyond
ASCII ends there; a name that starts like a reserved word stays a name. -/
theorem reservedWords_recognised_reversed :
    (Pattern.oneOf (reservedWords.map (·.1)).reverse).lexeme? ['e', 'l', 's', 'e', 'i', 'f', 'α'] =
        some ['e', 'l', 's', 'e', 'i', 'f'] ∧
      (∀ s ∈ (Grammar.julia.scan .topLevel ['i', 'n', 'α', ' ', 'i', 'n', 'x']).steps,
        s.token.category = .variableName → ¬IsReserved s.lexeme) ∧
      (Category.ofWord ['i', 'n'] = .keywordOperator ↔ ['i', 'n'] ∈ Category.keywordOperator.words.map String.toList) := by
  have hline : tokenizeLine .topLevel ['i', 'n', 'α', ' ', 'i', 'n', 'x'] =
      .ok ⟨[⟨.keywordOperator, 2⟩, ⟨.variableName, 1⟩, ⟨.whitespace, 1⟩, ⟨.variableName, 3⟩], .topLevel⟩ := by
    decide +kernel
  obtain ⟨hpattern, hsteps, -, hcategory⟩ := reservedWords_recognised
  refine ⟨?_, ?_, hcategory .keywordOperator nofun ['i', 'n']⟩
  · exact ((hpattern _ (List.reverse_perm _) _).2 _).mpr (by decide +kernel)
  · intro s hs
    exact ((hsteps _ _ _ hline).2.2 s hs).2.2

end JuliaLexer
