import JuliaLexer.Proofs.Automaton

/-!
# Concatenation: when two lines are read as one

A line put behind another is read as its tokens followed by the other's tokens, except where the two grow together: the last
token of the first would go on into the second. Which tokens grow together with what is a matter of two categories and one
character (`Joins`). Where they do, the tokens of the whole are others, yet the mode it leaves and the place where it fails
are not: those are matters of the automaton, which knows of no tokens (`tokenizeLine_append`).
-/

namespace JuliaLexer

/-- A token of category `k` goes on into a token of category `k'` that starts with the character `c`. -/
def Joins (k k' : Category) (c : Char) : Prop :=
  (k = .whitespace ∧ k' = .whitespace) ∨ (k = .numeric ∧ k' = .numeric) ∨ (k = .string ∧ k' = .string) ∨
    (k = .variableName ∧ IsNameRest c) ∨ (k.IsKeyword ∧ IsWordChar c)

/-- The last of some tokens goes on into the first of others, whose text is given. -/
def GrowTogether (ts ts' : List Token) (t' : Text) : Prop :=
  ∃ x ∈ ts.getLast?, ∃ x' ∈ ts'.head?, ∃ c ∈ t'.head?, Joins x.category x'.category c

/-! ## Helpers: a lexeme in front of another -/

theorem Category.not_isKeyword {k : Category}
    (h : k = .whitespace ∨ k = .variableName ∨ k = .numeric ∨ k = .punctuation ∨ k = .string) : ¬k.IsKeyword := by
  intro hk
  have hne := hk.ne
  simp_all

/-- A lexeme with another right after it does not go on into that. -/
theorem Lexeme.not_joins {m m' m'' : Mode} {k k' : Category} {l l' : Text} {c : Char} {n : Option Char}
    (h : Lexeme m k l m' (some c)) (h' : Lexeme m' k' (c :: l') m'' n) : ¬Joins k k' c := by
  unfold Joins
  cases h with
  | whitespace _ _ hn =>
    have hspace : k' ≠ .whitespace := fun hk =>
      hn c rfl ((Start.of_eq_space_iff c).mp (h'.start_of.1.mpr hk))
    simp [hspace, Category.not_isKeyword]
  | reserved hw hn => simp [hw.isKeyword.ne, hn c rfl]
  | name _ _ _ hn _ => simp [hn c rfl, Category.not_isKeyword]
  | numeric _ _ hn =>
    have hdigit : k' ≠ .numeric := fun hk =>
      hn c rfl ((Start.of_eq_digit_iff c).mp (h'.start_of.2.mpr hk))
    simp [hdigit, Category.not_isKeyword]
  | punctuation => simp [Category.not_isKeyword]
  | opening => simp [Category.not_isKeyword]
  | closing => simp [Category.not_isKeyword]
  | content q _ _ hn =>
    have hmark : k' ≠ .string := fun hk => h'.ne_mark_iff.mpr hk (hn c rfl)
    simp [hmark, Category.not_isKeyword]

/-- A lexeme at the end of a text that does not go on into the first lexeme of another is one in front of that too. -/
theorem Lexeme.of_not_joins {m m' m'' : Mode} {k k' : Category} {l l' : Text} {c : Char} {n : Option Char}
    (h : Lexeme m k l m' none) (h' : Lexeme m' k' (c :: l') m'' n) (hj : ¬Joins k k' c) :
    Lexeme m k l m' (some c) := by
  unfold Joins at hj
  cases h with
  | whitespace hne hl _ =>
    refine .whitespace hne hl (fun d hd hspace => hj (Or.inl ⟨rfl, ?_⟩))
    cases hd
    exact h'.start_of.1.mp ((Start.of_eq_space_iff c).mpr hspace)
  | reserved hw _ =>
    refine .reserved hw ?_
    intro d hd hword
    cases hd
    exact hj (Or.inr (Or.inr (Or.inr (Or.inr ⟨hw.isKeyword, hword⟩))))
  | name hstart hspace hl _ hr =>
    refine .name hstart hspace hl ?_ hr
    intro d hd hrest
    cases hd
    exact hj (Or.inr (Or.inr (Or.inr (Or.inl ⟨rfl, hrest⟩))))
  | numeric hne hl _ =>
    refine .numeric hne hl (fun d hd hdigit => hj (Or.inr (Or.inl ⟨rfl, ?_⟩)))
    cases hd
    exact h'.start_of.2.mp ((Start.of_eq_digit_iff c).mpr hdigit)
  | punctuation hc => exact .punctuation hc
  | opening q => exact .opening q
  | closing q => exact .closing q
  | content q hne hl _ =>
    refine .content q hne hl ?_
    intro d hd
    cases hd
    by_contra hmark
    exact hj (Or.inr (Or.inr (Or.inl ⟨rfl, h'.ne_mark_iff.mp hmark⟩)))

/-! ## Helpers: readings of two texts -/

/-- What a reading of a text starts with: nothing if the text is empty, and else a lexeme that starts with the first
character. -/
theorem ReadsUpTo.exists_first {m m' : Mode} {c : Char} {t y : Text} {e : Entry} {es : List Entry}
    (h : ReadsUpTo m (c :: t) (e :: es) m' y) : ∃ l m'' n, Lexeme m e.category (c :: l) m'' n := by
  generalize ht : c :: t = u at h
  cases h with
  | @cons _ m₁ _ k l v _ _ hl _ =>
    obtain ⟨d, l, rfl⟩ := List.exists_cons_of_ne_nil hl.ne_nil
    obtain ⟨rfl, -⟩ := List.cons.inj ht
    exact ⟨l, m₁, _, hl⟩

/-- Readings of two texts that do not grow together are a reading of the texts put together. -/
theorem Reading.append {m m₁ m₂ : Mode} {a b : Text} {es fs : List Entry} (h : Reading m a es m₁)
    (h' : Reading m₁ b fs m₂) (hg : ¬GrowTogether (es.map Entry.token) (fs.map Entry.token) b) :
    Reading m (a ++ b) (es ++ fs) m₂ := by
  rcases List.eq_nil_or_concat es with rfl | ⟨init, e, rfl⟩
  · cases h
    exact h'
  · rw [List.concat_eq_append] at h hg ⊢
    obtain ⟨m', u, hinit, hlast⟩ := ReadsUpTo.exists_of_append h
    obtain ⟨rfl, rfl, rfl, hl⟩ := ReadsUpTo.singleton_iff.mp hlast
    have hl' : Lexeme e.before e.category e.lexeme e.after b.head? := by
      cases b with
      | nil => exact hl
      | cons c b =>
        cases fs with
        | nil => exact nomatch ReadsUpTo.flatMap_append h'
        | cons f fs =>
          obtain ⟨l, m'', n, hf⟩ := ReadsUpTo.exists_first h'
          refine hl.of_not_joins hf (fun hj => hg ⟨e.token, ?_, f.token, rfl, c, rfl, hj⟩)
          simp
    have hfirst := hinit.append_right (List.append_ne_nil_of_left_ne_nil hl.ne_nil []) b
    rw [List.append_nil] at hfirst
    exact (hfirst.append (ReadsUpTo.singleton_iff.mpr ⟨rfl, rfl, rfl, hl'⟩)).append h'

/-- Where a reading of two texts put together has a cut between them, they do not grow together. -/
theorem Reading.not_growTogether {m m₂ : Mode} {a b : Text} {es fs : List Entry} (h : Reading m (a ++ b) (es ++ fs) m₂)
    (hlen : (es.flatMap (·.lexeme)).length = a.length) :
    ¬GrowTogether (es.map Entry.token) (fs.map Entry.token) b := by
  rintro ⟨x, hx, x', hx', c, hc, hj⟩
  obtain ⟨m₁, v, hes, hfs⟩ := ReadsUpTo.exists_of_append h
  obtain rfl : v = b := (List.append_inj hes.flatMap_append hlen).2
  rcases List.eq_nil_or_concat es with rfl | ⟨init, e, rfl⟩
  · cases hx
  · rw [List.concat_eq_append] at hes hx
    obtain ⟨m', u, -, hlast⟩ := hes.exists_of_append
    obtain ⟨-, -, -, hl⟩ := ReadsUpTo.singleton_iff.mp hlast
    cases v with
    | nil => cases hc
    | cons d v =>
      cases fs with
      | nil => cases hx'
      | cons f fs =>
        obtain ⟨l, m'', n, hf⟩ := hfs.exists_first
        cases hc
        cases hx'
        rw [List.map_append, List.map_singleton, List.getLast?_concat] at hx
        cases hx
        exact hl.not_joins hf hj

/-! ## Two lines put together -/

/-- Let a line be tokenized. If the line after it is too, so are both put together, with the same final mode, and the tokens
are those of the one and then those of the other exactly if the two do not grow together. If the line after it fails, so do
both put together, at the same character. -/
theorem tokenizeLine_append (r : Region) (a b : Text) (A : List Token) (m₁ : Mode)
    (h : tokenizeLine r.mode a = .ok ⟨A, m₁⟩) :
    (∀ B m₂, tokenizeLine m₁ b = .ok ⟨B, m₂⟩ →
      ∃ C, tokenizeLine r.mode (a ++ b) = .ok ⟨C, m₂⟩ ∧ (C = A ++ B ↔ ¬GrowTogether A B b)) ∧
    (∀ m i rest, tokenizeLine m₁ b = .error (.unmatched m i rest) →
      tokenizeLine r.mode (a ++ b) = .error (.unmatched m (a.length + i) rest)) := by
  obtain ⟨r₁, rfl, hrun⟩ := Region.run_of_tokenizeLine_eq_ok h
  have happend : r.run (a ++ b) = (r₁.run b).shift a.length := by rw [Region.run_append, hrun]
  refine ⟨?_, ?_⟩
  · intro B m₂ hB
    obtain ⟨r₂, rfl, hrun'⟩ := Region.run_of_tokenizeLine_eq_ok hB
    rw [hrun'] at happend
    obtain ⟨C, hC⟩ := Region.exists_tokenizeLine_eq_ok happend
    refine ⟨C, hC, ?_⟩
    obtain ⟨-, es, hes, rfl⟩ := tokenizeLine_eq_ok_iff.mp h
    obtain ⟨-, fs, hfs, rfl⟩ := tokenizeLine_eq_ok_iff.mp hB
    obtain ⟨-, gs, hgs, rfl⟩ := tokenizeLine_eq_ok_iff.mp hC
    constructor
    · intro hcut
      obtain ⟨es', fs', rfl, hes', hfs'⟩ := List.map_eq_append_iff.mp hcut
      have hlen : (es'.flatMap (·.lexeme)).length = a.length := by
        rw [← LineTokens.extent_map_token es' r₁.mode, hes', LineTokens.extent_map_token, ← ReadsUpTo.flatMap_append hes,
          List.append_nil]
      rw [← hes', ← hfs']
      exact Reading.not_growTogether hgs hlen
    · intro hg
      rw [← List.map_append, (hgs.unique (hes.append hfs hg)).1]
  · intro m i rest hB
    obtain ⟨j, he, hrun'⟩ := Region.run_of_tokenizeLine_eq_error hB
    cases he
    rw [hrun'] at happend
    rw [(Region.tokenizeLine_eq_error happend).2, List.drop_length_add_append]

/-- A reserved word grows together with a digit and is a token of its own in front of a letter beyond ASCII; an error after
it keeps its place. -/
theorem tokenizeLine_append_reserved :
    (∃ C, tokenizeLine .topLevel ['i', 'n', '2', 'α'] = .ok ⟨C, .topLevel⟩ ∧
      C ≠ [⟨.keywordOperator, 2⟩] ++ [⟨.numeric, 1⟩, ⟨.variableName, 1⟩]) ∧
    tokenizeLine .topLevel ['i', 'n', 'α'] = .ok ⟨[⟨.keywordOperator, 2⟩] ++ [⟨.variableName, 1⟩], .topLevel⟩ ∧
    tokenizeLine .topLevel ['i', 'n', ' ', '*'] = .error (.unmatched .topLevel 3 ['*']) := by
  have hin : tokenizeLine Region.code.mode ['i', 'n'] = .ok ⟨[⟨.keywordOperator, 2⟩], .topLevel⟩ := by decide +kernel
  have hkeyword : Category.IsKeyword .keywordOperator := (Category.isKeyword_iff _).mpr (by decide)
  refine ⟨?_, ?_, ?_⟩
  · obtain ⟨C, hC, hiff⟩ := (tokenizeLine_append .code ['i', 'n'] ['2', 'α'] _ _ hin).1
      [⟨.numeric, 1⟩, ⟨.variableName, 1⟩] .topLevel (by decide +kernel)
    refine ⟨C, hC, fun h => hiff.mp h ⟨_, rfl, _, rfl, _, rfl, ?_⟩⟩
    exact Or.inr (Or.inr (Or.inr (Or.inr ⟨hkeyword, by decide⟩)))
  · obtain ⟨C, hC, hiff⟩ := (tokenizeLine_append .code ['i', 'n'] ['α'] _ _ hin).1 [⟨.variableName, 1⟩] .topLevel
      (by decide +kernel)
    have hcut : C = [⟨.keywordOperator, 2⟩] ++ [⟨.variableName, 1⟩] := by
      refine hiff.mpr ?_
      rintro ⟨x, hx, x', hx', c, hc, hj⟩
      cases hx
      cases hx'
      cases hc
      have hword : ¬IsWordChar 'α' := by decide
      simp [Joins, hword] at hj
    rw [hcut] at hC
    exact hC
  · exact (tokenizeLine_append .code ['i', 'n'] [' ', '*'] _ _ hin).2 .topLevel 1 ['*'] (by decide +kernel)

end JuliaLexer
