import JuliaLexer.Grammar
import JuliaLexer.Proofs.Word

/-!
# Lexemes: what a token may be made of, and what may follow it

`Lexeme m k l m' n` says, without rules and their order, that from mode `m` the characters `l` are a token of category `k`
that leads to mode `m'`, where `n` is the character right after them, if there is one. That is all a step of the scan looks
at: the step taken in front of a text is a lexeme (`Grammar.lexeme_of_step?`), and in front of a lexeme that step is taken
(`Lexeme.step?`).
-/

namespace JuliaLexer

/-- From mode `m` the characters `l`, followed by the character `n` or by nothing, are a token of category `k` that leads to
mode `m'`. -/
inductive Lexeme : Mode → Category → Text → Mode → Option Char → Prop where
  /-- White space, as long as it goes on. -/
  | whitespace {l : Text} {n : Option Char} :
      l ≠ [] → (∀ c ∈ l, IsSpace c) → (∀ c ∈ n, ¬IsSpace c) → Lexeme .topLevel .whitespace l .topLevel n
  /-- A reserved word that no word character makes longer. -/
  | reserved {w : Text} {n : Option Char} :
      IsReserved w → (∀ c ∈ n, ¬IsWordChar c) → Lexeme .topLevel (Category.ofWord w) w .topLevel n
  /-- A name, as long as it goes on, unless it starts with a reserved word. -/
  | name {c : Char} {l : Text} {n : Option Char} :
      IsNameStart c → ¬IsSpace c → (∀ d ∈ l, IsNameRest d) → (∀ d ∈ n, ¬IsNameRest d) →
      ¬IsReserved (Text.leadingWord (c :: l)) → Lexeme .topLevel .variableName (c :: l) .topLevel n
  /-- Digits, as long as they go on. -/
  | numeric {l : Text} {n : Option Char} :
      l ≠ [] → (∀ c ∈ l, IsDigit c) → (∀ c ∈ n, ¬IsDigit c) → Lexeme .topLevel .numeric l .topLevel n
  /-- One punctuation character. -/
  | punctuation {c : Char} {n : Option Char} :
      IsPunctuation c → Lexeme .topLevel .punctuation [c] .topLevel n
  /-- A quote at top level opens a string. -/
  | opening (q : Quote) {n : Option Char} : Lexeme .topLevel .punctuation [q.mark] (.quoted q) n
  /-- The same quote closes it. -/
  | closing (q : Quote) {n : Option Char} : Lexeme (.quoted q) .punctuation [q.mark] .topLevel n
  /-- Everything up to the closing quote, or up to the end. -/
  | content (q : Quote) {l : Text} {n : Option Char} :
      l ≠ [] → (∀ c ∈ l, c ≠ q.mark) → (∀ c ∈ n, c = q.mark) → Lexeme (.quoted q) .string l (.quoted q) n

/-! ## Helpers: what a lexeme starts with, and what may follow it -/

/-- A lexeme in front of another character is one at the end of the text too. -/
theorem Lexeme.atEnd {m m' : Mode} {k : Category} {l : Text} {n : Option Char} (h : Lexeme m k l m' n) :
    Lexeme m k l m' none := by
  cases h with
  | whitespace hne hl _ => exact .whitespace hne hl nofun
  | reserved hw _ => exact .reserved hw nofun
  | name hstart hspace hl _ hr => exact .name hstart hspace hl nofun hr
  | numeric hne hl _ => exact .numeric hne hl nofun
  | punctuation hc => exact .punctuation hc
  | opening q => exact .opening q
  | closing q => exact .closing q
  | content q hne hl _ => exact .content q hne hl nofun

/-- A lexeme sees the character after it only to end there, so it may as well see none. -/
theorem Lexeme.of_subset {m m' : Mode} {k : Category} {l : Text} {n n' : Option Char} (h : Lexeme m k l m' n)
    (hn : ∀ c ∈ n', c ∈ n) : Lexeme m k l m' n' := by
  cases n' with
  | none => exact h.atEnd
  | some c =>
    have : n = some c := hn c rfl
    exact this ▸ h

theorem Lexeme.ne_nil {m m' : Mode} {k : Category} {l : Text} {n : Option Char} (h : Lexeme m k l m' n) : l ≠ [] := by
  cases h with
  | whitespace hne => exact hne
  | reserved hw =>
    obtain ⟨c, l, rfl, -⟩ := hw.exists_cons
    exact List.cons_ne_nil c l
  | numeric hne => exact hne
  | content q hne => exact hne
  | _ => exact List.cons_ne_nil _ _

/-- Nothing is a lexeme in the uninitialized mode, and none leads to it. -/
theorem Lexeme.ne_uninitialized {m m' : Mode} {k : Category} {l : Text} {n : Option Char} (h : Lexeme m k l m' n) :
    m ≠ .uninitialized ∧ m' ≠ .uninitialized := by
  cases h <;> exact ⟨nofun, nofun⟩

/-- A lexeme has a category of its own, and it is not that of a newline between lines. -/
theorem Lexeme.category_ne {m m' : Mode} {k : Category} {l : Text} {n : Option Char} (h : Lexeme m k l m' n) :
    k ≠ .unspecified ∧ k ≠ .attribute ∧ k ≠ .newLine := by
  cases h with
  | reserved hw =>
    rcases (Category.isKeyword_iff _).mp hw.isKeyword with h | h | h | h | h | h | h <;> rw [h] <;>
      exact ⟨nofun, nofun, nofun⟩
  | _ => exact ⟨nofun, nofun, nofun⟩

/-- At top level the category of a lexeme tells what its first character starts. -/
theorem Lexeme.start_of {m' : Mode} {k : Category} {c : Char} {l : Text} {n : Option Char}
    (h : Lexeme .topLevel k (c :: l) m' n) :
    (Start.of c = .space ↔ k = .whitespace) ∧ (Start.of c = .digit ↔ k = .numeric) := by
  generalize ht : c :: l = t at h
  cases h with
  | whitespace _ hl _ =>
    subst ht
    simp [(Start.of_eq_space_iff c).mpr (hl c List.mem_cons_self)]
  | reserved hw _ =>
    subst ht
    obtain ⟨d, l', hd, hstart, hspace⟩ := hw.exists_cons
    obtain ⟨rfl, -⟩ := List.cons.inj hd
    simp [(Start.of_eq_name_iff c).mpr ⟨hstart, hspace⟩, hw.isKeyword.ne]
  | name hstart hspace _ _ _ =>
    obtain ⟨rfl, -⟩ := List.cons.inj ht
    simp [(Start.of_eq_name_iff c).mpr ⟨hstart, hspace⟩]
  | numeric _ hl _ =>
    subst ht
    simp [(Start.of_eq_digit_iff c).mpr (hl c List.mem_cons_self)]
  | punctuation hc =>
    obtain ⟨rfl, -⟩ := List.cons.inj ht
    simp [(Start.of_eq_punctuation_iff c).mpr hc]
  | opening q =>
    obtain ⟨rfl, -⟩ := List.cons.inj ht
    simp [(Start.of_eq_quote_iff q q.mark).mpr rfl]

/-- Inside a string the category of a lexeme tells whether its first character closes the string. -/
theorem Lexeme.ne_mark_iff {q : Quote} {m' : Mode} {k : Category} {c : Char} {l : Text} {n : Option Char}
    (h : Lexeme (.quoted q) k (c :: l) m' n) : c ≠ q.mark ↔ k = .string := by
  generalize ht : c :: l = t at h
  cases h with
  | closing =>
    obtain ⟨rfl, -⟩ := List.cons.inj ht
    simp
  | content _ _ hl _ =>
    subst ht
    simp [hl c List.mem_cons_self]

/-! ## Helpers: the step of each rule -/

/-- A rule that looks for a run decides by the first character. -/
theorem Rule.step?_span {r : Rule} {first more : CharSet} {P : Char → Prop} [DecidablePred P]
    (hr : r.pattern = .span first more) (hfirst : ∀ c, first.contains c = true ↔ P c) (c : Char) (t : Text) :
    r.step? (c :: t) = if P c then some ⟨r, c :: t.takeWhile more.contains⟩ else none := by
  simp only [Rule.step?, hr, Pattern.lexeme?, hfirst]
  split_ifs <;> rfl

/-- A rule that looks for a single character decides by that. -/
theorem Rule.step?_one {r : Rule} {s : CharSet} {P : Char → Prop} [DecidablePred P]
    (hr : r.pattern = .one s) (hs : ∀ c, s.contains c = true ↔ P c) (c : Char) (t : Text) :
    r.step? (c :: t) = if P c then some ⟨r, [c]⟩ else none := by
  have hnil : t.takeWhile CharSet.empty.contains = [] := by
    cases t with
    | nil => rfl
    | cons d t => exact List.takeWhile_cons_of_neg (by simp [CharSet.contains_empty])
  rw [Rule.step?_span hr hs, hnil]

/-- The rule of reserved words decides by the word that the text starts with. -/
theorem Rule.step?_reservedWord (t : Text) :
    Rule.reservedWord.step? t = if IsReserved t.leadingWord then some ⟨.reservedWord, t.leadingWord⟩ else none := by
  have hlexeme : Rule.reservedWord.pattern.lexeme? t = if IsReserved t.leadingWord then some t.leadingWord else none :=
    Pattern.lexeme?_oneOf reservedWords_wordChars t
  rw [Rule.step?, hlexeme]
  split_ifs <;> rfl

/-- A text that starts with a reserved word starts like a name. -/
theorem IsReserved.start_of {c : Char} {t : Text} (h : IsReserved (Text.leadingWord (c :: t))) :
    Start.of c = .name := by
  obtain ⟨d, l, hd, hstart, hspace⟩ := h.exists_cons
  have hcd : c = d := by
    unfold Text.leadingWord at hd
    rw [List.takeWhile_cons] at hd
    split_ifs at hd
    exact (List.cons.inj hd).1
  rw [hcd]
  exact (Start.of_eq_name_iff d).mpr ⟨hstart, hspace⟩

/-- At top level the first character decides which rule applies, but for reserved words and names, which start alike. -/
theorem Grammar.step?_topLevel_cons (c : Char) (t : Text) :
    Grammar.julia.step? .topLevel (c :: t) =
      match Start.of c with
      | .space => some ⟨.whitespace, c :: t.takeWhile CharSet.space.contains⟩
      | .name =>
        if IsReserved (Text.leadingWord (c :: t)) then some ⟨.reservedWord, Text.leadingWord (c :: t)⟩
        else some ⟨.identifier, c :: t.takeWhile CharSet.nameRest.contains⟩
      | .digit => some ⟨.numeric, c :: t.takeWhile CharSet.digit.contains⟩
      | .punctuation => some ⟨.punctuation, [c]⟩
      | .quote q => some ⟨.opening q, [c]⟩
      | .stray => none := by
  have hspace := Rule.step?_span (r := .whitespace) rfl CharSet.contains_space c t
  have hname := Rule.step?_span (r := .identifier) rfl CharSet.contains_nameStart c t
  have hpunctuation := Rule.step?_one (r := .punctuation) rfl CharSet.contains_punctuation c t
  have hdigit := Rule.step?_span (r := .numeric) rfl CharSet.contains_digit c t
  have hquote (q : Quote) := Rule.step?_one (r := .opening q) rfl q.contains_delimiter c t
  simp only [← Start.of_eq_space_iff] at hspace
  simp only [← Start.of_eq_punctuation_iff] at hpunctuation
  simp only [← Start.of_eq_digit_iff] at hdigit
  simp only [← Start.of_eq_quote_iff] at hquote
  have hreserved : Start.of c ≠ .name → ¬IsReserved (Text.leadingWord (c :: t)) := fun h hr => h hr.start_of
  have hstart : Start.of c ≠ .space → Start.of c ≠ .name → ¬IsNameStart c := by
    intro hs hn h
    exact hn ((Start.of_eq_name_iff c).mpr ⟨h, fun h' => hs ((Start.of_eq_space_iff c).mpr h')⟩)
  simp only [Grammar.step?, Grammar.julia, Rule.topLevel, List.findSome?_cons, List.findSome?_nil, hspace,
    Rule.step?_reservedWord, hname, hpunctuation, hdigit, hquote]
  cases h : Start.of c with
  | space => simp
  | name =>
    have hc : IsNameStart c := ((Start.of_eq_name_iff c).mp h).1
    by_cases hr : IsReserved (Text.leadingWord (c :: t))
    · simp [hr]
    · simp [hr, hc]
  | digit => simp [hreserved, hstart, h]
  | punctuation => simp [hreserved, hstart, h]
  | quote q => cases q <;> simp [hreserved, hstart, h]
  | stray => simp [hreserved, hstart, h]

/-- Inside a string the first character decides whether it ends. -/
theorem Grammar.step?_quoted_cons (q : Quote) (c : Char) (t : Text) :
    Grammar.julia.step? (.quoted q) (c :: t) =
      if c = q.mark then some ⟨.closing q, [c]⟩ else some ⟨.content q, c :: t.takeWhile q.content.contains⟩ := by
  have hclosing := Rule.step?_one (r := .closing q) rfl q.contains_delimiter c t
  have hcontent := Rule.step?_span (r := .content q) rfl q.contains_content c t
  simp only [Grammar.step?, Grammar.julia, List.findSome?_cons, List.findSome?_nil, hclosing, hcontent]
  by_cases h : c = q.mark
  · simp [h]
  · simp [h]

/-! ## A step takes a lexeme -/

/-- A run stops at a character outside its class. -/
theorem head?_drop_run {p : Char → Bool} {P : Char → Prop} (hp : ∀ c, p c = true ↔ P c) (c : Char) (t : Text) :
    ∀ d ∈ ((c :: t).drop (c :: t.takeWhile p).length).head?, ¬P d := by
  intro d hd h
  rw [List.length_cons, List.drop_succ_cons, drop_length_takeWhile] at hd
  have hfalse := not_head?_dropWhile t d hd
  rw [(hp d).mpr h] at hfalse
  cases hfalse

/-- The characters of a run are in its class. -/
theorem mem_run {p : Char → Bool} {P : Char → Prop} (hp : ∀ c, p c = true ↔ P c) (t : Text) :
    ∀ d ∈ t.takeWhile p, P d :=
  fun d hd => (hp d).mp (List.mem_takeWhile_imp hd)

/-- Characters of a class that nothing of the class follows are a run. -/
theorem run_append {p : Char → Bool} {P : Char → Prop} (hp : ∀ c, p c = true ↔ P c) {l y : Text}
    (hl : ∀ c ∈ l, P c) (hy : ∀ c ∈ y.head?, ¬P c) : (l ++ y).takeWhile p = l := by
  refine takeWhile_append_eq_left (fun c hc => (hp c).mpr (hl c hc)) ?_
  intro c hc
  exact Bool.eq_false_iff.mpr (fun h => hy c hc ((hp c).mp h))

/-- The step taken in front of a text takes a lexeme, with what comes after it in view. -/
theorem Grammar.lexeme_of_step? {m : Mode} {t : Text} {s : Step} (h : Grammar.julia.step? m t = some s) :
    Lexeme m s.token.category s.lexeme s.rule.next (t.drop s.lexeme.length).head? := by
  cases t with
  | nil =>
    rw [Grammar.step?_nil] at h
    cases h
  | cons c t =>
    cases m with
    | uninitialized => cases h
    | tripleQuoted => cases h
    | topLevel =>
      rw [Grammar.step?_topLevel_cons] at h
      cases hc : Start.of c with
      | space =>
        simp only [hc, Option.some.injEq] at h
        subst h
        refine .whitespace (List.cons_ne_nil _ _) ?_ (head?_drop_run CharSet.contains_space c t)
        exact List.forall_mem_cons.mpr ⟨(Start.of_eq_space_iff c).mp hc, mem_run CharSet.contains_space t⟩
      | name =>
        obtain ⟨hstart, hspace⟩ := (Start.of_eq_name_iff c).mp hc
        simp only [hc] at h
        split_ifs at h with hr
        · cases h
          refine .reserved hr ?_
          intro d hd
          rw [Text.leadingWord, drop_length_takeWhile] at hd
          exact of_decide_eq_false (not_head?_dropWhile _ d hd)
        · cases h
          have hnext := head?_drop_run CharSet.contains_nameRest c t
          refine .name hstart hspace (mem_run CharSet.contains_nameRest t) hnext ?_
          -- the word that starts the name does not reach over its end, where no character of a name follows
          rw [← Text.leadingWord_append _ (fun d hd hw => hnext d hd hw.nameRest), List.length_cons, List.drop_succ_cons,
            drop_length_takeWhile, List.cons_append, List.takeWhile_append_dropWhile]
          exact hr
      | digit =>
        simp only [hc, Option.some.injEq] at h
        subst h
        refine .numeric (List.cons_ne_nil _ _) ?_ (head?_drop_run CharSet.contains_digit c t)
        exact List.forall_mem_cons.mpr ⟨(Start.of_eq_digit_iff c).mp hc, mem_run CharSet.contains_digit t⟩
      | punctuation =>
        simp only [hc, Option.some.injEq] at h
        subst h
        exact .punctuation ((Start.of_eq_punctuation_iff c).mp hc)
      | quote q =>
        simp only [hc, Option.some.injEq] at h
        subst h
        rw [(Start.of_eq_quote_iff q c).mp hc]
        exact .opening q
      | stray => simp only [hc, reduceCtorEq] at h
    | quoted q =>
      rw [Grammar.step?_quoted_cons] at h
      split_ifs at h with hc
      · cases h
        rw [hc]
        exact .closing q
      · cases h
        refine .content q (List.cons_ne_nil _ _) ?_ ?_
        · exact List.forall_mem_cons.mpr ⟨hc, mem_run q.contains_content t⟩
        · intro d hd
          exact Decidable.not_not.mp (head?_drop_run q.contains_content c t d hd)

/-- In front of a lexeme, with what comes after it in view, the step taken is that lexeme. -/
theorem Lexeme.step? {m : Mode} {k : Category} {l : Text} {m' : Mode} {y : Text} (h : Lexeme m k l m' y.head?) :
    ∃ s, Grammar.julia.step? m (l ++ y) = some s ∧ s.lexeme = l ∧ s.token.category = k ∧ s.rule.next = m' := by
  cases h with
  | whitespace hne hl hn =>
    obtain ⟨c, l, rfl⟩ := List.exists_cons_of_ne_nil hne
    obtain ⟨hc, hl⟩ := List.forall_mem_cons.mp hl
    refine ⟨⟨.whitespace, c :: l⟩, ?_, rfl, rfl, rfl⟩
    rw [List.cons_append, Grammar.step?_topLevel_cons, (Start.of_eq_space_iff c).mpr hc]
    simp only [run_append CharSet.contains_space hl hn]
  | reserved hw hn =>
    obtain ⟨c, l, rfl, hstart, hspace⟩ := hw.exists_cons
    have hword : Text.leadingWord (c :: (l ++ y)) = c :: l := by
      rw [← List.cons_append, Text.leadingWord_append _ hn, Text.leadingWord_eq_self hw.wordChars]
    refine ⟨⟨.reservedWord, c :: l⟩, ?_, rfl, rfl, rfl⟩
    rw [List.cons_append, Grammar.step?_topLevel_cons, (Start.of_eq_name_iff c).mpr ⟨hstart, hspace⟩]
    simp only [hword, hw, if_true]
  | @name c l _ hstart hspace hl hn hr =>
    have hword : Text.leadingWord (c :: (l ++ y)) = Text.leadingWord (c :: l) := by
      rw [← List.cons_append, Text.leadingWord_append _ (fun d hd hw => hn d hd hw.nameRest)]
    refine ⟨⟨.identifier, c :: l⟩, ?_, rfl, rfl, rfl⟩
    rw [List.cons_append, Grammar.step?_topLevel_cons, (Start.of_eq_name_iff c).mpr ⟨hstart, hspace⟩]
    simp only [hword, hr, if_false, run_append CharSet.contains_nameRest hl hn]
  | numeric hne hl hn =>
    obtain ⟨c, l, rfl⟩ := List.exists_cons_of_ne_nil hne
    obtain ⟨hc, hl⟩ := List.forall_mem_cons.mp hl
    refine ⟨⟨.numeric, c :: l⟩, ?_, rfl, rfl, rfl⟩
    rw [List.cons_append, Grammar.step?_topLevel_cons, (Start.of_eq_digit_iff c).mpr hc]
    simp only [run_append CharSet.contains_digit hl hn]
  | @punctuation c _ hc =>
    refine ⟨⟨.punctuation, [c]⟩, ?_, rfl, rfl, rfl⟩
    rw [List.singleton_append, Grammar.step?_topLevel_cons, (Start.of_eq_punctuation_iff c).mpr hc]
  | opening q =>
    refine ⟨⟨.opening q, [q.mark]⟩, ?_, rfl, rfl, rfl⟩
    rw [List.singleton_append, Grammar.step?_topLevel_cons, (Start.of_eq_quote_iff q q.mark).mpr rfl]
  | closing q =>
    refine ⟨⟨.closing q, [q.mark]⟩, ?_, rfl, rfl, rfl⟩
    rw [List.singleton_append, Grammar.step?_quoted_cons, if_pos rfl]
  | content q hne hl hn =>
    obtain ⟨c, l, rfl⟩ := List.exists_cons_of_ne_nil hne
    obtain ⟨hc, hl⟩ := List.forall_mem_cons.mp hl
    refine ⟨⟨.content q, c :: l⟩, ?_, rfl, rfl, rfl⟩
    rw [List.cons_append, Grammar.step?_quoted_cons, if_neg hc,
      run_append q.contains_content hl (fun d hd h => h (hn d hd))]

end JuliaLexer
