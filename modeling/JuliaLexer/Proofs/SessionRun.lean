import JuliaLexer.Session
import JuliaLexer.Proofs.WholeText

/-!
# Runs of sessions: what every call is answered

Where a session starts decides for good how its calls are answered. From top level or inside a string it stays there, every
failure is one at top level, and what is read is text of known categories. From the mode of triple-quoted strings only newlines
are read, and from the uninitialized mode nothing is; neither mode is left again, nor entered from another. What one call
preserves, all calls of a session do (`forall₂_answers`), so there is one lemma about a single call for each of the three
(`answers_from_every_mode`).
-/

namespace JuliaLexer

/-- A mode of code or of a string. There are three, and they are the modes that have rules. -/
def Mode.InRegion (m : Mode) : Prop := ∃ r : Region, r.mode = m

/-- The modes that a scan is in, one after another, where `m` is the one it starts from. -/
def Scan.modes (m : Mode) (s : Scan) : List Mode := m :: s.steps.map (·.rule.next)

/-- `call.Reports e e'`: the error `e` of a line is reported by the call as `e'`: as it is, where a line was to be read, and with
the number of the line around it, where a document was. -/
def Call.Reports : Call → LexError → LexError → Prop
  | .line _, e, e' => e' = e
  | .document _, e, e' => ∃ n, e' = .atLine n e

/-- `call.Regular a`: the answer `a` is one that the call can get from code or from a string. An error is one of top level. The
tokens are text, none of them a placeholder, and in a line none is the newline between lines. -/
structure Call.Regular (call : Call) (a : Except LexError LineTokens) : Prop where
  error : ∀ e, a = .error e → ∃ column rest, call.Reports (.unmatched .topLevel column rest) e
  category : ∀ l, a = .ok l → ∀ x ∈ l.tokens, x.category ≠ .unspecified ∧ x.category ≠ .attribute
  newLine : ∀ l, a = .ok l → ∀ x ∈ l.tokens, x.category = .newLine → ∃ t, call = .document t

/-- A call with nothing to read: the empty line, or a document of empty lines. -/
def Call.Blank : Call → Prop
  | .line t => t = []
  | .document t => ∀ c ∈ t, c = '\n'

/-- How a call is turned down from the uninitialized mode. -/
def Call.refusal : Call → LexError
  | .line _ => .invalidMode 0
  | .document _ => .atLine 1 (.invalidMode 0)

/-! ## Helpers: from call to call -/

/-- What every call keeps true of the current mode is true of it after every call of a session, and each answer is one that a
call gets from such a mode. -/
theorem forall₂_answers {I : Mode → Prop} {P : Call → Except LexError LineTokens → Prop}
    (hstep : ∀ m, I m → ∀ call : Call, P call (call.answer m) ∧ I (m.after (call.answer m))) {m : Mode} (hm : I m)
    (calls : List Call) : List.Forall₂ (fun call a => P call a.1 ∧ I a.2) calls (answers m calls) := by
  induction calls generalizing m with
  | nil => exact .nil
  | cons call calls ih =>
    have hcall := hstep m hm call
    exact .cons hcall (ih hcall.2)

/-- No scan comes into the uninitialized mode. -/
theorem ne_uninitialized_of_mem_modes {m : Mode} (hm : m ≠ .uninitialized) (t : Text) :
    ∀ m' ∈ (Grammar.julia.scan m t).modes m, m' ≠ .uninitialized := by
  induction m, t using Grammar.julia.scan_induction with
  | stop m t h =>
    rw [Grammar.scan_of_step?_eq_none h]
    exact List.forall_mem_singleton.mpr hm
  | step m t s h ih =>
    rw [Grammar.scan_of_step?_eq_some h]
    exact List.forall_mem_cons.mpr ⟨hm, ih (Grammar.lexeme_of_step? h).ne_uninitialized.2⟩

/-! ## Helpers: calls from code or from a string -/

/-- A document that the automaton accepts is read, and leaves the mode of the region in which the automaton ends. -/
theorem Region.exists_tokenizeDocument_eq_ok {r r' : Region} {t : Text} (h : r.run t = .accepted r') :
    ∃ ts, tokenizeDocument r.mode t = .ok ⟨ts, r'.mode⟩ := by
  obtain ⟨ts, hline⟩ := Region.exists_tokenizeLine_eq_ok h
  obtain ⟨hm, es, hread, -⟩ := tokenizeLine_eq_ok_iff.mp hline
  exact ⟨_, hread.tokenizeDocument_eq_ok hm⟩

/-- The tokens of a document are those of its lines and of the newlines between them, so none is a placeholder. -/
theorem category_ne_of_tokenizeDocument {m : Mode} {t : Text} {l : LineTokens} (h : tokenizeDocument m t = .ok l) :
    ∀ x ∈ l.tokens, x.category ≠ .unspecified ∧ x.category ≠ .attribute := by
  induction t using Text.lines_induction generalizing m l with
  | line t ht =>
    have hline := category_ne_of_tokenizeLine ((tokenizeDocument_eq_ok_iff_of_not_mem ht).mp h)
    exact fun x hx => (hline x hx).imp_right And.left
  | newline a b ha ih =>
    obtain ⟨ts₁, m₁, ts₂, hfirst, hrest, htokens⟩ := tokenizeDocument_append_newline_eq_ok_iff.mp h
    have hline := category_ne_of_tokenizeLine ((tokenizeDocument_eq_ok_iff_of_not_mem ha).mp hfirst)
    intro x hx
    rw [← htokens, List.mem_append, List.mem_cons] at hx
    rcases hx with hx | rfl | hx
    · exact (hline x hx).imp_right And.left
    · exact ⟨nofun, nofun⟩
    · exact ih hrest x hx

/-- A line fails only where the automaton rejects a character, and that is in code. -/
theorem Call.regular_line {r : Region} (t : Text) :
    (Call.line t).Regular (tokenizeLine r.mode t) ∧ (r.mode.after (tokenizeLine r.mode t)).InRegion := by
  cases hline : tokenizeLine r.mode t with
  | ok l =>
    obtain ⟨r', hr', -⟩ := Region.run_of_tokenizeLine_eq_ok hline
    have hcategory := category_ne_of_tokenizeLine hline
    refine ⟨⟨nofun, ?_, ?_⟩, r', hr'⟩
    · rintro _ ⟨⟩ x hx
      exact (hcategory x hx).imp_right And.left
    · rintro _ ⟨⟩ x hx hnewLine
      exact absurd hnewLine (hcategory x hx).2.2
  | error e =>
    obtain ⟨i, rfl, -⟩ := Region.run_of_tokenizeLine_eq_error hline
    refine ⟨⟨?_, nofun, nofun⟩, r, rfl⟩
    rintro _ ⟨⟩
    exact ⟨i, _, rfl⟩

/-- A document fails only where the automaton rejects a character of the whole, and that is in code. -/
theorem Call.regular_document {r : Region} (t : Text) :
    (Call.document t).Regular (tokenizeDocument r.mode t) ∧ (r.mode.after (tokenizeDocument r.mode t)).InRegion := by
  cases hrun : r.run t with
  | accepted r' =>
    obtain ⟨ts, hok⟩ := Region.exists_tokenizeDocument_eq_ok hrun
    have hcategory := category_ne_of_tokenizeDocument hok
    rw [hok]
    refine ⟨⟨nofun, ?_, ?_⟩, r', rfl⟩
    · rintro _ ⟨⟩
      exact hcategory
    · exact fun _ _ _ _ _ => ⟨t, rfl⟩
  | rejected i =>
    rw [Region.tokenizeDocument_eq_error hrun]
    refine ⟨⟨?_, nofun, nofun⟩, r, rfl⟩
    rintro _ ⟨⟩
    exact ⟨_, _, _, rfl⟩

/-- A call from code or from a string is answered regularly, and leaves a mode of code or of a string. -/
theorem Call.regular_answer (m : Mode) (hm : m.InRegion) (call : Call) :
    call.Regular (call.answer m) ∧ (m.after (call.answer m)).InRegion := by
  obtain ⟨r, rfl⟩ := hm
  cases call with
  | line t => exact Call.regular_line t
  | document t => exact Call.regular_document t

/-! ## Helpers: calls from the two other modes -/

/-- Without rules, only the empty line is read. -/
theorem tokenizeLine_tripleQuoted (t : Text) :
    tokenizeLine .tripleQuoted t =
      if t = [] then .ok ⟨[], .tripleQuoted⟩ else .error (.unmatched .tripleQuoted 0 t) := by
  have hscan : Grammar.julia.scan .tripleQuoted t = ⟨[], .tripleQuoted, t⟩ := Grammar.scan_of_step?_eq_none rfl
  rw [tokenizeLine, Grammar.tokenizeLine, if_neg (by decide), hscan]
  rfl

/-- Without rules, only newlines are read in a document, and each is a token. -/
theorem tokenizeDocument_tripleQuoted_eq_ok_iff {t : Text} {l : LineTokens} :
    tokenizeDocument .tripleQuoted t = .ok l ↔
      (∀ c ∈ t, c = '\n') ∧ l = ⟨t.map (fun _ => Token.newLine), .tripleQuoted⟩ := by
  have hnil {a : Text} (ha : '\n' ∉ a) (h : ∀ c ∈ a, c = '\n') : a = [] :=
    List.eq_nil_iff_forall_not_mem.mpr (fun c hc => ha (h c hc ▸ hc))
  induction t using Text.lines_induction generalizing l with
  | line t ht =>
    rw [tokenizeDocument_eq_ok_iff_of_not_mem ht, tokenizeLine_tripleQuoted]
    constructor
    · intro h
      split_ifs at h with ht
      cases h
      rw [ht]
      exact ⟨nofun, rfl⟩
    · rintro ⟨hall, rfl⟩
      rw [hnil ht hall, if_pos rfl]
      rfl
  | newline a b ha ih =>
    obtain ⟨ts, m⟩ := l
    rw [tokenizeDocument_append_newline_eq_ok_iff]
    constructor
    · rintro ⟨ts₁, m₁, ts₂, hfirst, hrest, rfl⟩
      rw [tokenizeDocument_eq_ok_iff_of_not_mem ha, tokenizeLine_tripleQuoted] at hfirst
      -- the first line is read, so it is empty
      split_ifs at hfirst with ha
      cases hfirst
      obtain ⟨hb, hl⟩ := ih.mp hrest
      cases hl
      rw [ha]
      exact ⟨List.forall_mem_cons.mpr ⟨rfl, hb⟩, rfl⟩
    · rintro ⟨hall, hl⟩
      cases hl
      obtain ⟨hfirst, hrest⟩ := List.forall_mem_append.mp hall
      rw [hnil ha hfirst]
      exact ⟨[], .tripleQuoted, _, tokenizeDocument_nil nofun,
        ih.mpr ⟨(List.forall_mem_cons.mp hrest).2, rfl⟩, rfl⟩

/-- A call from the mode of triple-quoted strings succeeds if it has nothing to read, and leaves that mode in any case. -/
theorem Call.answer_tripleQuoted (call : Call) :
    ((∃ l, call.answer .tripleQuoted = .ok l) ↔ call.Blank) ∧
      Mode.after .tripleQuoted (call.answer .tripleQuoted) = .tripleQuoted := by
  cases call with
  | line t =>
    simp only [Call.answer, Call.Blank, tokenizeLine_tripleQuoted]
    split_ifs with ht
    · exact ⟨iff_of_true ⟨_, rfl⟩ ht, rfl⟩
    · refine ⟨iff_of_false ?_ ht, rfl⟩
      rintro ⟨l, hl⟩
      cases hl
  | document t =>
    simp only [Call.answer, Call.Blank, tokenizeDocument_tripleQuoted_eq_ok_iff, exists_and_left, exists_eq, and_true,
      true_and]
    cases hread : tokenizeDocument .tripleQuoted t with
    | error e => rfl
    | ok l =>
      obtain ⟨-, rfl⟩ := tokenizeDocument_tripleQuoted_eq_ok_iff.mp hread
      rfl

theorem tokenizeLine_uninitialized (t : Text) : tokenizeLine .uninitialized t = .error (.invalidMode 0) := by
  rw [tokenizeLine, Grammar.tokenizeLine, if_pos rfl]
  rfl

/-- A document is turned down at its first line, and it always has one. -/
theorem tokenizeDocument_uninitialized (t : Text) :
    tokenizeDocument .uninitialized t = .error (.atLine 1 (.invalidMode 0)) := by
  induction t using Text.lines_induction with
  | line t ht => rw [tokenizeDocument_of_not_mem ht, tokenizeLine_uninitialized]
  | newline a b ha _ => rw [tokenizeDocument_append_newline, tokenizeDocument_of_not_mem ha, tokenizeLine_uninitialized]

/-- A call from the uninitialized mode is turned down. -/
theorem Call.answer_uninitialized (call : Call) : call.answer .uninitialized = .error call.refusal := by
  cases call with
  | line t => exact tokenizeLine_uninitialized t
  | document t => exact tokenizeDocument_uninitialized t

/-! ## Sessions from every mode -/

/-- The calls of a session are answered as the mode that it starts from has it. From code or from a string, every current mode
is one of these again, an error is one of top level, tokens are no placeholders, and only documents have those of newlines; nor
does a scan ever come into the uninitialized mode, from whichever other it starts. From the mode of triple-quoted strings that
mode stays, and calls succeed if they have nothing to read. From the uninitialized mode that mode stays, and all calls are
turned down. -/
theorem answers_from_every_mode (calls : List Call) :
    (∀ r : Region, List.Forall₂ (fun call a => call.Regular a.1 ∧ a.2.InRegion) calls (answers r.mode calls)) ∧
    (∀ (m : Mode) (t : Text), m ≠ .uninitialized → ∀ m' ∈ (Grammar.julia.scan m t).modes m, m' ≠ .uninitialized) ∧
    List.Forall₂ (fun call a => ((∃ l, a.1 = .ok l) ↔ call.Blank) ∧ a.2 = .tripleQuoted) calls
      (answers .tripleQuoted calls) ∧
    List.Forall₂ (fun call a => a.1 = .error call.refusal ∧ a.2 = .uninitialized) calls (answers .uninitialized calls) := by
  refine ⟨?_, fun m t hm => ne_uninitialized_of_mem_modes hm t, ?_, ?_⟩
  · exact fun r => forall₂_answers Call.regular_answer ⟨r, rfl⟩ calls
  · refine forall₂_answers (I := (· = .tripleQuoted)) (P := fun call a => (∃ l, a = .ok l) ↔ call.Blank) ?_ rfl calls
    rintro _ rfl call
    exact call.answer_tripleQuoted
  · refine forall₂_answers (I := (· = .uninitialized)) (P := fun call a => a = .error call.refusal) ?_ rfl calls
    rintro _ rfl call
    rw [call.answer_uninitialized]
    exact ⟨rfl, rfl⟩

/-- A session that is left in a string by its first call, and stays there when the second fails. -/
theorem answers_from_every_mode_in_string :
    answers .topLevel [.line ['"'], .document ['"', '\n', '*'], .line ['*']] =
      [(.ok ⟨[⟨.punctuation, 1⟩], .quoted .double⟩, .quoted .double),
        (.error (.atLine 2 (.unmatched .topLevel 0 ['*'])), .quoted .double),
        (.ok ⟨[⟨.string, 1⟩], .quoted .double⟩, .quoted .double)] ∧
    List.Forall₂ (fun (call : Call) a => call.Regular a.1 ∧ a.2.InRegion)
      [.line ['"'], .document ['"', '\n', '*'], .line ['*']]
      (answers .topLevel [.line ['"'], .document ['"', '\n', '*'], .line ['*']]) ∧
    (Grammar.julia.scan .topLevel ['"', 'a']).modes .topLevel = [.topLevel, .quoted .double, .quoted .double] ∧
    ∀ m' ∈ (Grammar.julia.scan .topLevel ['"', 'a']).modes .topLevel, m' ≠ .uninitialized :=
  ⟨by decide +kernel, (answers_from_every_mode _).1 .code, by decide +kernel,
    (answers_from_every_mode []).2.1 _ _ nofun⟩

end JuliaLexer
