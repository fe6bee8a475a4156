import JuliaLexer.Proofs.Automaton
import JuliaLexer.Proofs.Newline

/-!
# Whole texts: a document read as a single line

A text with newlines can be read in two ways: as a document, line by line, or as it stands, as one line, since newlines are
white space at top level and content in a string. The two say the same. The tokens of the document are those of the one line
with their newlines cut out, and where the one fails the other does, at the same character, given by its line and its column
there (`tokenizeDocument_cuts_whole_text`). Tokens can be cut in this way because a lexeme with a newline in it is white space
or content, every piece of which is a lexeme of the same category (`Lexeme.of_append_newline`).
-/

namespace JuliaLexer

/-- The tokens over the characters `l`, all of category `k` but for the newlines: one of length 1 for each newline, and one for
each piece between newlines that is not empty. -/
def cutLexeme (k : Category) (l : Text) : List Token :=
  List.intercalate [⟨.newLine, 1⟩] (l.lines.map (fun p => if p = [] then [] else [⟨k, p.length⟩]))

/-- The tokens of a text, each cut at the newlines of its lexeme. -/
def cutAtNewlines (ts : List Token) (t : Text) : List Token :=
  (List.zipWith (fun x l => cutLexeme x.category l) ts (Text.cut (ts.map (·.length)) t)).flatten

/-! ## Helpers: cutting -/

theorem cutLexeme_nil (k : Category) : cutLexeme k [] = [] := rfl

theorem cutLexeme_of_not_mem {l : Text} (k : Category) (hne : l ≠ []) (h : '\n' ∉ l) : cutLexeme k l = [⟨k, l.length⟩] := by
  rw [cutLexeme, Text.lines_of_not_mem h, List.map_singleton, List.intercalate_singleton, if_neg hne]

/-- Cutting at one newline and then in both parts is cutting. -/
theorem cutLexeme_append_newline (k : Category) (a b : Text) :
    cutLexeme k (a ++ '\n' :: b) = cutLexeme k a ++ Token.newLine :: cutLexeme k b := by
  have hne (t : Text) : t.lines.map (fun p => if p = [] then [] else [(⟨k, p.length⟩ : Token)]) ≠ [] :=
    fun h => t.lines_ne_nil (List.map_eq_nil_iff.mp h)
  rw [cutLexeme, Text.lines_append_newline, List.map_append, intercalate_append _ (hne a) (hne b), List.append_assoc]
  rfl

/-- The tokens of a reading, cut, are its lexemes, cut. -/
theorem cutAtNewlines_eq_flatMap (es : List Entry) :
    cutAtNewlines (es.map Entry.token) (es.flatMap (·.lexeme)) = es.flatMap (fun e => cutLexeme e.category e.lexeme) := by
  rw [cutAtNewlines, cut_flatMap_lexeme, List.zipWith_map, List.zipWith_self, List.flatMap_def]
  rfl

/-! ## Helpers: lexemes over several lines -/

theorem not_isNameRest_newline : ¬IsNameRest '\n' := by decide

/-- A lexeme with a newline in it is white space or content. It changes no mode, and what it has before and after the newline
are lexemes of its category, unless they are empty. -/
theorem Lexeme.of_append_newline {m m' : Mode} {k : Category} {a b : Text} {n : Option Char}
    (h : Lexeme m k (a ++ '\n' :: b) m' n) :
    m' = m ∧ (a ≠ [] → Lexeme m k a m none) ∧ (b ≠ [] → Lexeme m k b m n) := by
  generalize hl : a ++ '\n' :: b = l at h
  have hmem : '\n' ∈ l := by
    rw [← hl]
    exact List.mem_append_right a List.mem_cons_self
  have ha : ∀ c ∈ a, c ∈ l := fun c hc => hl ▸ List.mem_append_left _ hc
  have hb : ∀ c ∈ b, c ∈ l := fun c hc => hl ▸ List.mem_append_right _ (List.mem_cons_of_mem _ hc)
  cases h with
  | whitespace _ hspace hn =>
    exact ⟨rfl, fun hne => .whitespace hne (fun c hc => hspace c (ha c hc)) nofun,
      fun hne => .whitespace hne (fun c hc => hspace c (hb c hc)) hn⟩
  | content q _ hcontent hn =>
    exact ⟨rfl, fun hne => .content q hne (fun c hc => hcontent c (ha c hc)) nofun,
      fun hne => .content q hne (fun c hc => hcontent c (hb c hc)) hn⟩
  | reserved hw _ => exact absurd (hw.wordChars _ hmem).nameRest not_isNameRest_newline
  | name hstart _ hrest _ _ =>
    rcases List.mem_cons.mp hmem with hc | hmem
    · exact absurd (hc ▸ hstart.nameRest) not_isNameRest_newline
    · exact absurd (hrest _ hmem) not_isNameRest_newline
  | numeric _ hdigit _ => exact absurd (IsWordChar.nameRest (Or.inl (hdigit _ hmem))) not_isNameRest_newline
  | punctuation hc =>
    rw [← List.mem_singleton.mp hmem] at hc
    exact absurd hc (by decide)
  | opening q => exact absurd (List.mem_singleton.mp hmem).symm q.mark_ne_newline
  | closing q => exact absurd (List.mem_singleton.mp hmem).symm q.mark_ne_newline

/-- A lexeme in front of a line is its first token. -/
theorem Lexeme.tokenizeLine_eq_ok {m m' m'' : Mode} {k : Category} {l y : Text} {ts : List Token}
    (h : Lexeme m k l m' y.head?) (hy : tokenizeLine m' y = .ok ⟨ts, m''⟩) :
    tokenizeLine m (l ++ y) = .ok ⟨⟨k, l.length⟩ :: ts, m''⟩ := by
  obtain ⟨-, es, hread, rfl⟩ := tokenizeLine_eq_ok_iff.mp hy
  exact tokenizeLine_eq_ok_iff.mpr ⟨h.ne_uninitialized.1, _, .cons h hread, rfl⟩

/-- A lexeme without newlines in front of a document is its first token. -/
theorem Lexeme.tokenizeDocument_eq_ok_of_not_mem {m m' m'' : Mode} {k : Category} {l y : Text} {ts : List Token}
    (h : Lexeme m k l m' y.head?) (hl : '\n' ∉ l) (hy : tokenizeDocument m' y = .ok ⟨ts, m''⟩) :
    tokenizeDocument m (l ++ y) = .ok ⟨⟨k, l.length⟩ :: ts, m''⟩ := by
  by_cases hmem : '\n' ∈ y
  · obtain ⟨a, b, rfl, ha⟩ := List.eq_append_cons_of_mem hmem
    obtain ⟨ts₁, m₁, ts₂, hfirst, hrest, rfl⟩ := tokenizeDocument_append_newline_eq_ok_iff.mp hy
    rw [tokenizeDocument_eq_ok_iff_of_not_mem ha] at hfirst
    -- in its line the lexeme may come to stand last, since the newline after it is out of view there
    have hline : Lexeme m k l m' a.head? := by
      cases a with
      | nil => exact h.atEnd
      | cons c a => exact h
    have hla : tokenizeDocument m (l ++ a) = .ok ⟨⟨k, l.length⟩ :: ts₁, m₁⟩ :=
      (tokenizeDocument_eq_ok_iff_of_not_mem (List.not_mem_append hl ha)).mpr (hline.tokenizeLine_eq_ok hfirst)
    rw [← List.append_assoc]
    exact tokenizeDocument_append_newline_eq_ok_iff.mpr ⟨_, m₁, ts₂, hla, hrest, rfl⟩
  · rw [tokenizeDocument_eq_ok_iff_of_not_mem hmem] at hy
    exact (tokenizeDocument_eq_ok_iff_of_not_mem (List.not_mem_append hl hmem)).mpr (h.tokenizeLine_eq_ok hy)

/-- A lexeme in front of a document, cut at its newlines, is what the document starts with. -/
theorem Lexeme.tokenizeDocument_eq_ok {m m' m'' : Mode} {k : Category} {l y : Text} {ts : List Token}
    (h : Lexeme m k l m' y.head?) (hy : tokenizeDocument m' y = .ok ⟨ts, m''⟩) :
    tokenizeDocument m (l ++ y) = .ok ⟨cutLexeme k l ++ ts, m''⟩ := by
  induction l using Text.lines_induction with
  | line l hl =>
    rw [h.tokenizeDocument_eq_ok_of_not_mem hl hy, cutLexeme_of_not_mem k h.ne_nil hl, List.singleton_append]
  | newline a b ha ih =>
    obtain ⟨rfl, hbefore, hafter⟩ := h.of_append_newline
    have hempty : tokenizeDocument m' [] = .ok ⟨[], m'⟩ := tokenizeDocument_nil h.ne_uninitialized.1
    have hfirst : tokenizeDocument m' a = .ok ⟨cutLexeme k a, m'⟩ := by
      by_cases hne : a = []
      · rw [hne, cutLexeme_nil]
        exact hempty
      · have hcut := (hbefore hne).tokenizeDocument_eq_ok_of_not_mem (y := []) ha hempty
        rw [List.append_nil] at hcut
        rw [hcut, cutLexeme_of_not_mem k hne ha]
    have hrest : tokenizeDocument m' (b ++ y) = .ok ⟨cutLexeme k b ++ ts, m''⟩ := by
      by_cases hne : b = []
      · rw [hne, cutLexeme_nil]
        exact hy
      · exact ih (hafter hne)
    rw [List.append_assoc, List.cons_append, cutLexeme_append_newline, List.append_assoc]
    exact tokenizeDocument_append_newline_eq_ok_iff.mpr ⟨_, m', _, hfirst, hrest, rfl⟩

/-- The lexemes of a reading of a text, cut at their newlines, are the tokens of the text as a document. -/
theorem Reading.tokenizeDocument_eq_ok {m m' : Mode} {t : Text} {es : List Entry} (hm : m ≠ .uninitialized)
    (h : Reading m t es m') :
    tokenizeDocument m t = .ok ⟨es.flatMap (fun e => cutLexeme e.category e.lexeme), m'⟩ := by
  unfold Reading at h
  generalize hy : [] = y at h
  induction h with
  | nil m t =>
    subst hy
    exact tokenizeDocument_nil hm
  | cons hl _ ih => exact hl.tokenizeDocument_eq_ok (ih hl.ne_uninitialized.2 hy)

/-! ## Helpers: where a document fails -/

/-- No newline moves the automaton. -/
theorem Region.next?_newline (r : Region) : r.next? '\n' = some r := by
  cases r with
  | code => decide
  | string q => exact if_neg q.mark_ne_newline.symm

/-- Where the automaton rejects a character of a text, the document fails in the line of that character, at its column. -/
theorem Region.tokenizeDocument_eq_error {r : Region} {t : Text} {i : Nat} (h : r.run t = .rejected i) :
    tokenizeDocument r.mode t =
      .error (.atLine ((t.take i).count '\n' + 1)
        (.unmatched .topLevel (Text.lastLine (t.take i)).length (Text.firstLine (t.drop i)))) := by
  induction t using Text.lines_induction generalizing r i with
  | line t ht =>
    obtain ⟨hi, herror⟩ := Region.tokenizeLine_eq_error h
    have htake : '\n' ∉ t.take i := fun hc => ht (List.mem_of_mem_take hc)
    have hdrop : '\n' ∉ t.drop i := fun hc => ht (List.mem_of_mem_drop hc)
    rw [tokenizeDocument_of_not_mem ht, herror, List.count_eq_zero_of_not_mem htake, Text.lastLine_of_not_mem htake,
      Text.firstLine_of_not_mem hdrop, List.length_take_of_le hi.le]
  | newline a b ha ih =>
    rw [Region.run_append] at h
    rw [tokenizeDocument_append_newline, tokenizeDocument_of_not_mem ha]
    cases hrun : r.run a with
    | rejected j =>
      rw [hrun] at h
      cases h
      obtain ⟨hi, herror⟩ := Region.tokenizeLine_eq_error hrun
      have htake : '\n' ∉ a.take i := fun hc => ha (List.mem_of_mem_take hc)
      have hdrop : '\n' ∉ a.drop i := fun hc => ha (List.mem_of_mem_drop hc)
      rw [herror, List.take_append_of_le_length hi.le, List.drop_append_of_le_length hi.le,
        List.count_eq_zero_of_not_mem htake, Text.lastLine_of_not_mem htake, Text.firstLine_append_newline hdrop,
        List.length_take_of_le hi.le]
    | accepted r' =>
      obtain ⟨ts, hok⟩ := Region.exists_tokenizeLine_eq_ok hrun
      simp only [hrun, Region.run_cons, Region.next?_newline] at h
      cases hrun' : r'.run b with
      | accepted r'' =>
        rw [hrun'] at h
        cases h
      | rejected j =>
        rw [hrun'] at h
        cases h
        have htake : (a ++ '\n' :: b).take (a.length + (1 + j)) = a ++ '\n' :: b.take j := by
          rw [List.take_length_add_append, Nat.add_comm 1 j, List.take_succ_cons]
        have hdrop : (a ++ '\n' :: b).drop (a.length + (1 + j)) = b.drop j := by
          rw [List.drop_length_add_append, Nat.add_comm 1 j, List.drop_succ_cons]
        rw [hok, htake, hdrop, Text.lastLine_append_newline, List.count_append, List.count_cons_self,
          List.count_eq_zero_of_not_mem ha]
        simp only [ih hrun', LexError.shiftLine]
        rw [Nat.zero_add, Nat.zero_add, Nat.add_comm 1]

/-! ## Documents and whole texts -/

/-- Reading a text as a document agrees with reading it as a single line. If the line is read, so is the document, with the
same final mode, and its tokens are those of the line cut at the newlines. If the line fails, so does the document: in the
line that the newlines before the failure make it, at the column counted from the last of them, and with what is left of
that line. -/
theorem tokenizeDocument_cuts_whole_text (r : Region) (t : Text) :
    match tokenizeLine r.mode t with
    | .ok l => tokenizeDocument r.mode t = .ok ⟨cutAtNewlines l.tokens t, l.mode⟩
    | .error e =>
      ∃ m i rest, e = .unmatched m i rest ∧
        tokenizeDocument r.mode t =
          .error (.atLine ((t.take i).count '\n' + 1)
            (.unmatched m (Text.lastLine (t.take i)).length (Text.firstLine rest))) := by
  cases hline : tokenizeLine r.mode t with
  | ok l =>
    obtain ⟨hm, es, hread, htokens⟩ := tokenizeLine_eq_ok_iff.mp hline
    have hcut := cutAtNewlines_eq_flatMap es
    rw [htokens, hread.flatMap_lexeme] at hcut
    rw [hread.tokenizeDocument_eq_ok hm, ← hcut]
  | error e =>
    obtain ⟨i, he, hrun⟩ := Region.run_of_tokenizeLine_eq_error hline
    exact ⟨.topLevel, i, t.drop i, he, Region.tokenizeDocument_eq_error hrun⟩

/-- A string over three lines, the last two of them empty. -/
example : tokenizeDocument .topLevel ['"', 'a', 'b', '\n', '\n'] =
    .ok ⟨[⟨.punctuation, 1⟩, ⟨.string, 2⟩, ⟨.newLine, 1⟩, ⟨.newLine, 1⟩], .quoted .double⟩ := by decide +kernel

end JuliaLexer
