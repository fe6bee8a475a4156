import JuliaLexer.Line
import JuliaLexer.Proofs.Lexeme
import Mathlib.Data.List.Basic

/-!
# Readings: a line as a sequence of lexemes

A reading of a line takes it apart into lexemes, each in the mode that the one before it leads to and each with the character
after it in view. Nothing is said in it about rules, their order, or how the parts are found. Still a line has at most one
reading, and it is the one that the scan finds (`reading_iff_scan`), so a line is tokenized exactly if it can be read
(`tokenizeLine_reads_grammar`).
-/

namespace JuliaLexer

/-- A lexeme in its place: its category, its characters, and the modes before and after it. -/
structure Entry where
  before : Mode
  category : Category
  lexeme : Text
  after : Mode
  deriving DecidableEq, Repr

/-- The token of an entry. -/
def Entry.token (e : Entry) : Token := ⟨e.category, e.lexeme.length⟩

/-- `ReadsUpTo m t es m' y`: from mode `m` the text `t` starts with the entries `es`, which lead to mode `m'` and leave `y`.
Their modes chain, their lexemes put together are the text up to `y`, and each is a lexeme with the character right after it
in view. -/
inductive ReadsUpTo : Mode → Text → List Entry → Mode → Text → Prop where
  | nil (m : Mode) (t : Text) : ReadsUpTo m t [] m t
  | cons {m m' m'' : Mode} {k : Category} {l y z : Text} {es : List Entry} :
      Lexeme m k l m' y.head? → ReadsUpTo m' y es m'' z → ReadsUpTo m (l ++ y) (⟨m, k, l, m'⟩ :: es) m'' z

/-- `Reading m t es m'`: the entries `es` are a reading of the text `t` from mode `m` to mode `m'`, with nothing left. -/
def Reading (m : Mode) (t : Text) (es : List Entry) (m' : Mode) : Prop := ReadsUpTo m t es m' []

/-- Entries cover as many characters as their tokens say. -/
theorem LineTokens.extent_map_token (es : List Entry) (m : Mode) :
    LineTokens.extent ⟨es.map Entry.token, m⟩ = (es.flatMap (·.lexeme)).length := by
  induction es with
  | nil => rfl
  | cons e es ih =>
    rw [List.flatMap_cons, List.length_append, ← ih]
    rfl

/-- Cut at the lengths of the tokens, the lexemes put together are the lexemes again. -/
theorem cut_flatMap_lexeme (es : List Entry) :
    Text.cut ((es.map Entry.token).map (·.length)) (es.flatMap (·.lexeme)) = es.map (·.lexeme) := by
  rw [List.map_map]
  exact Text.cut_flatMap (·.lexeme) es

/-! ## Helpers: readings are put together and taken apart -/

/-- The lexemes of a reading, and what is left, are the text. -/
theorem ReadsUpTo.flatMap_append {m m' : Mode} {t y : Text} {es : List Entry} (h : ReadsUpTo m t es m' y) :
    es.flatMap (·.lexeme) ++ y = t := by
  induction h with
  | nil => rfl
  | cons _ _ ih => rw [List.flatMap_cons, List.append_assoc, ih]

/-- The lexemes of a reading are the text. -/
theorem Reading.flatMap_lexeme {m m' : Mode} {t : Text} {es : List Entry} (h : Reading m t es m') :
    es.flatMap (·.lexeme) = t := by
  rw [← List.append_nil (es.flatMap _), ReadsUpTo.flatMap_append h]

theorem ReadsUpTo.append {m m' m'' : Mode} {t y z : Text} {es fs : List Entry} (h : ReadsUpTo m t es m' y)
    (h' : ReadsUpTo m' y fs m'' z) : ReadsUpTo m t (es ++ fs) m'' z := by
  induction h with
  | nil => exact h'
  | cons hl _ ih => exact .cons hl (ih h')

/-- A reading can be interrupted after any of its entries. -/
theorem ReadsUpTo.exists_of_append {m m'' : Mode} {t z : Text} {es fs : List Entry}
    (h : ReadsUpTo m t (es ++ fs) m'' z) : ∃ m' y, ReadsUpTo m t es m' y ∧ ReadsUpTo m' y fs m'' z := by
  induction es generalizing m t with
  | nil => exact ⟨m, t, .nil m t, h⟩
  | cons e es ih =>
    cases h with
    | cons hl hrest =>
      obtain ⟨m', y, hes, hfs⟩ := ih hrest
      exact ⟨m', y, .cons hl hes, hfs⟩

/-- Every entry of a reading is a lexeme. -/
theorem ReadsUpTo.exists_lexeme {m m' : Mode} {t y : Text} {es : List Entry} (h : ReadsUpTo m t es m' y) {e : Entry}
    (he : e ∈ es) : ∃ m₁ n, Lexeme e.before e.category e.lexeme m₁ n := by
  induction h with
  | nil => cases he
  | cons hl _ ih =>
    rcases List.mem_cons.mp he with rfl | he
    · exact ⟨_, _, hl⟩
    · exact ih he

/-- A reading of a single entry is a lexeme. -/
theorem ReadsUpTo.singleton_iff {m m' : Mode} {t y : Text} {e : Entry} :
    ReadsUpTo m t [e] m' y ↔
      t = e.lexeme ++ y ∧ e.before = m ∧ e.after = m' ∧ Lexeme m e.category e.lexeme m' y.head? := by
  constructor
  · intro h
    cases h with
    | cons hl hrest =>
      cases hrest with
      | nil => exact ⟨rfl, rfl, rfl, hl⟩
  · rintro ⟨rfl, rfl, rfl, hl⟩
    exact .cons hl (.nil _ y)

/-- A reading stays one when the text it leaves is replaced by another that starts with the same character, or by none. -/
theorem ReadsUpTo.replace_rest {m m' : Mode} {t y z : Text} {es : List Entry} (h : ReadsUpTo m t es m' y)
    (hz : ∀ c ∈ z.head?, c ∈ y.head?) : ReadsUpTo m (es.flatMap (·.lexeme) ++ z) es m' z := by
  induction h with
  | nil => exact .nil _ z
  | @cons m m' m'' k l y x es hl hrest ih =>
    rw [List.flatMap_cons, List.append_assoc]
    refine .cons (hl.of_subset ?_) (ih hz)
    rw [← hrest.flatMap_append, List.head?_append, List.head?_append]
    intro c hc
    cases hhead : (es.flatMap (·.lexeme)).head? with
    | none =>
      rw [hhead] at hc
      exact hz c hc
    | some d =>
      rw [hhead] at hc
      exact hc

/-- A text can be put behind one that a reading leaves, unless it leaves nothing: then the last lexeme would come to see
another character after it. -/
theorem ReadsUpTo.append_right {m m' : Mode} {t y : Text} {es : List Entry} (h : ReadsUpTo m t es m' y) (hy : y ≠ [])
    (b : Text) : ReadsUpTo m (t ++ b) es m' (y ++ b) := by
  have hhead : (y ++ b).head? = y.head? := List.head?_append_of_ne_nil y hy
  have hmore := h.replace_rest (z := y ++ b) (fun c hc => hhead ▸ hc)
  rw [← List.append_assoc, h.flatMap_append] at hmore
  exact hmore

/-- No reading leads to the uninitialized mode, unless it starts there. -/
theorem ReadsUpTo.ne_uninitialized {m m' : Mode} {t y : Text} {es : List Entry} (h : ReadsUpTo m t es m' y)
    (hm : m ≠ .uninitialized) : m' ≠ .uninitialized := by
  induction h with
  | nil => exact hm
  | cons hl _ ih => exact ih hl.ne_uninitialized.2

/-! ## Helpers: the entries of a scan -/

/-- A step of the scan as an entry, given the mode before it. -/
def Step.entry (m : Mode) (s : Step) : Entry := ⟨m, s.token.category, s.lexeme, s.rule.next⟩

/-- The steps of a scan as entries, given the mode before the first one. -/
def entriesFrom (m : Mode) : List Step → List Entry
  | [] => []
  | s :: rest => s.entry m :: entriesFrom s.rule.next rest

theorem map_token_entriesFrom (m : Mode) (steps : List Step) :
    (entriesFrom m steps).map Entry.token = steps.map Step.token := by
  induction steps generalizing m with
  | nil => rfl
  | cons s steps ih =>
    rw [entriesFrom, List.map_cons, List.map_cons, ih]
    rfl

/-- The entry of a step is determined by its token, its lexeme and its next mode. -/
theorem Step.entry_eq {m m' : Mode} {k : Category} {l : Text} {s : Step} (hl : s.lexeme = l) (hk : s.token.category = k)
    (hm : s.rule.next = m') : s.entry m = ⟨m, k, l, m'⟩ := by
  subst hl hk hm
  rfl

/-- The scan of a text reads it up to where it ends. -/
theorem Grammar.readsUpTo_scan (m : Mode) (t : Text) :
    ReadsUpTo m t (entriesFrom m (Grammar.julia.scan m t).steps) (Grammar.julia.scan m t).mode
      (Grammar.julia.scan m t).rest := by
  induction m, t using Grammar.julia.scan_induction with
  | stop m t h =>
    rw [Grammar.scan_of_step?_eq_none h]
    exact .nil m t
  | step m t s h ih =>
    rw [Grammar.scan_of_step?_eq_some h]
    have hcons := ReadsUpTo.cons (Grammar.lexeme_of_step? h) ih
    rw [Grammar.lexeme_append_drop h] at hcons
    exact hcons

/-- The scan of a text takes the entries of any reading of its start, and goes on with what that leaves. -/
theorem ReadsUpTo.scan {m m' : Mode} {t y : Text} {es : List Entry} (h : ReadsUpTo m t es m' y) :
    (Grammar.julia.scan m t).rest = (Grammar.julia.scan m' y).rest ∧
      (Grammar.julia.scan m t).mode = (Grammar.julia.scan m' y).mode ∧
      entriesFrom m (Grammar.julia.scan m t).steps = es ++ entriesFrom m' (Grammar.julia.scan m' y).steps := by
  induction h with
  | nil => exact ⟨rfl, rfl, rfl⟩
  | @cons m m' m'' k l y z es hlex _ ih =>
    obtain ⟨s, hs, hl, hk, hm⟩ := hlex.step?
    obtain ⟨hrest, hmode, hes⟩ := ih
    have hdrop : (l ++ y).drop s.lexeme.length = y := by rw [hl, List.drop_left]
    rw [Grammar.scan_of_step?_eq_some hs, hdrop, hm]
    refine ⟨hrest, hmode, ?_⟩
    rw [entriesFrom, Step.entry_eq hl hk hm, hm, hes, List.cons_append]

/-- The scan finds the reading of a text, if there is one, and so no text has two. -/
theorem reading_iff_scan {m : Mode} {t : Text} {es : List Entry} {m' : Mode} :
    Reading m t es m' ↔ (Grammar.julia.scan m t).rest = [] ∧ (Grammar.julia.scan m t).mode = m' ∧
      entriesFrom m (Grammar.julia.scan m t).steps = es := by
  constructor
  · intro h
    obtain ⟨hrest, hmode, hes⟩ := ReadsUpTo.scan h
    rw [Grammar.scan_nil] at hrest hmode hes
    exact ⟨hrest, hmode, hes.trans (List.append_nil es)⟩
  · rintro ⟨hrest, rfl, rfl⟩
    have h := Grammar.readsUpTo_scan m t
    rw [hrest] at h
    exact h

theorem Reading.unique {m : Mode} {t : Text} {es es' : List Entry} {m' m'' : Mode} (h : Reading m t es m')
    (h' : Reading m t es' m'') : es = es' ∧ m' = m'' := by
  obtain ⟨-, hm, hes⟩ := reading_iff_scan.mp h
  obtain ⟨-, hm', hes'⟩ := reading_iff_scan.mp h'
  exact ⟨hes.symm.trans hes', hm.symm.trans hm'⟩

/-- A line is tokenized if its scan leaves nothing, and then into the tokens of the scan. -/
theorem tokenizeLine_eq_ok_iff_scan {m : Mode} {t : Text} {l : LineTokens} :
    tokenizeLine m t = .ok l ↔
      m ≠ .uninitialized ∧ (Grammar.julia.scan m t).rest = [] ∧
        ⟨(Grammar.julia.scan m t).tokens, (Grammar.julia.scan m t).mode⟩ = l := by
  unfold tokenizeLine Grammar.tokenizeLine Scan.result
  constructor
  · intro h
    split_ifs at h with hm hrest
    cases h
    exact ⟨hm, hrest, rfl⟩
  · rintro ⟨hm, hrest, rfl⟩
    rw [if_neg hm, if_pos hrest]

/-- From any other mode than the uninitialized one, a line fails where its scan gets stuck. -/
theorem tokenizeLine_eq_error_iff_scan {m : Mode} (hm : m ≠ .uninitialized) {t : Text} {e : LexError} :
    tokenizeLine m t = .error e ↔
      (Grammar.julia.scan m t).rest ≠ [] ∧
        .unmatched (Grammar.julia.scan m t).mode (Grammar.julia.scan m t).column (Grammar.julia.scan m t).rest = e := by
  unfold tokenizeLine Grammar.tokenizeLine Scan.result
  rw [if_neg hm]
  constructor
  · intro h
    split_ifs at h with hrest
    cases h
    exact ⟨hrest, rfl⟩
  · rintro ⟨hrest, rfl⟩
    rw [if_neg hrest]

/-- A line is tokenized into the tokens of a reading of it. -/
theorem tokenizeLine_eq_ok_iff {m : Mode} {t : Text} {ts : List Token} {m' : Mode} :
    tokenizeLine m t = .ok ⟨ts, m'⟩ ↔
      m ≠ .uninitialized ∧ ∃ es, Reading m t es m' ∧ es.map Entry.token = ts := by
  rw [tokenizeLine_eq_ok_iff_scan]
  constructor
  · rintro ⟨hm, hrest, htokens⟩
    cases htokens
    exact ⟨hm, _, reading_iff_scan.mpr ⟨hrest, rfl, rfl⟩, map_token_entriesFrom m _⟩
  · rintro ⟨hm, es, hread, rfl⟩
    obtain ⟨hrest, hmode, rfl⟩ := reading_iff_scan.mp hread
    rw [map_token_entriesFrom, ← hmode]
    exact ⟨hm, hrest, rfl⟩

theorem tokenizeLine_mode_ne_uninitialized {m : Mode} {t : Text} {l : LineTokens} (h : tokenizeLine m t = .ok l) :
    l.mode ≠ .uninitialized := by
  obtain ⟨hm, es, hread, -⟩ := tokenizeLine_eq_ok_iff.mp h
  exact hread.ne_uninitialized hm

/-- Cut at the lengths of its tokens, a line falls into pieces of just these lengths, and nothing of it is lost. -/
theorem cut_tokenizeLine {m : Mode} {t : Text} {l : LineTokens} (h : tokenizeLine m t = .ok l) :
    (Text.cut (l.tokens.map (·.length)) t).map List.length = l.tokens.map (·.length) ∧
      (Text.cut (l.tokens.map (·.length)) t).flatten = t := by
  obtain ⟨-, es, hread, htokens⟩ := tokenizeLine_eq_ok_iff.mp h
  rw [← htokens, ← hread.flatMap_lexeme, cut_flatMap_lexeme, List.map_map, List.map_map, List.flatMap_def]
  exact ⟨rfl, rfl⟩

/-- The tokens of a line have the categories of lexemes. -/
theorem category_ne_of_tokenizeLine {m : Mode} {t : Text} {l : LineTokens} (h : tokenizeLine m t = .ok l) :
    ∀ x ∈ l.tokens, x.category ≠ .unspecified ∧ x.category ≠ .attribute ∧ x.category ≠ .newLine := by
  obtain ⟨-, es, hread, htokens⟩ := tokenizeLine_eq_ok_iff.mp h
  rw [← htokens]
  intro x hx
  obtain ⟨e, he, rfl⟩ := List.mem_map.mp hx
  obtain ⟨m₁, n, hl⟩ := hread.exists_lexeme he
  exact hl.category_ne

/-- No token of a line is that of a newline, not even where the line holds newlines. -/
theorem newLine_not_mem_tokenizeLine {m : Mode} {t : Text} {l : LineTokens} (h : tokenizeLine m t = .ok l) :
    Token.newLine ∉ l.tokens :=
  fun hmem => (category_ne_of_tokenizeLine h _ hmem).2.2 rfl

/-! ## The grammar of lines -/

/-- Tokenizing accepts exactly the lines that can be read, with the tokens and the final mode of the reading, and a line
can be read in one way only. From the uninitialized mode no line is tokenized. -/
theorem tokenizeLine_reads_grammar (m : Mode) (t : Text) :
    (∀ ts m', tokenizeLine m t = .ok ⟨ts, m'⟩ ↔
      m ≠ .uninitialized ∧ ∃ es, Reading m t es m' ∧ es.map Entry.token = ts) ∧
    ((∃ e, tokenizeLine m t = .error e) ↔ m = .uninitialized ∨ ∀ es m', ¬Reading m t es m') ∧
    (∀ es es' m' m'', Reading m t es m' → Reading m t es' m'' → es = es' ∧ m' = m'') := by
  refine ⟨fun ts m' => tokenizeLine_eq_ok_iff, ⟨?_, ?_⟩, fun es es' m' m'' => Reading.unique⟩
  · rintro ⟨e, he⟩
    by_cases hm : m = .uninitialized
    · exact Or.inl hm
    · right
      intro es m' hread
      have hok := tokenizeLine_eq_ok_iff.mpr ⟨hm, es, hread, rfl⟩
      rw [he] at hok
      cases hok
  · intro h
    cases hline : tokenizeLine m t with
    | error e => exact ⟨e, rfl⟩
    | ok l =>
      obtain ⟨hm, es, hread, -⟩ := tokenizeLine_eq_ok_iff.mp hline
      rcases h with h | h
      · exact absurd h hm
      · exact absurd hread (h es l.mode)

/-- The one reading of a line: a reserved word, a name right after it that no word character starts, white space, and a
string that is left open. -/
theorem reading_of_reserved_then_name :
    ∃ es, Reading .topLevel ['i', 'n', 'α', ' ', '"', 'b'] es (.quoted .double) ∧
      es.map Entry.token =
        [⟨.keywordOperator, 2⟩, ⟨.variableName, 1⟩, ⟨.whitespace, 1⟩, ⟨.punctuation, 1⟩, ⟨.string, 1⟩] ∧
      ∀ es' m', Reading .topLevel ['i', 'n', 'α', ' ', '"', 'b'] es' m' → es = es' ∧ .quoted .double = m' := by
  obtain ⟨haccepts, -, hunique⟩ := tokenizeLine_reads_grammar .topLevel ['i', 'n', 'α', ' ', '"', 'b']
  obtain ⟨-, es, hread, htokens⟩ := (haccepts
    [⟨.keywordOperator, 2⟩, ⟨.variableName, 1⟩, ⟨.whitespace, 1⟩, ⟨.punctuation, 1⟩, ⟨.string, 1⟩]
    (.quoted .double)).mp (by decide +kernel)
  exact ⟨es, hread, htokens, fun es' m' h => hunique es es' (.quoted .double) m' hread h⟩

end JuliaLexer
