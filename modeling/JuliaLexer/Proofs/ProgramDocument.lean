import JuliaLexer.Proofs.Printing
import JuliaLexer.Proofs.ProgramRun

/-!
# Programs and documents: a run of the program reads its input as a document

The program cuts its input into lines before it decodes them, hands the mode from line to line itself, and finds the
characters of the tokens again by their lengths. Still it does to its input what `tokenizeDocument` does to the document in it:
it succeeds on the same inputs, shows the same tokens line by line, each with its characters, and reports the same error
(`CommandLine.run_agrees_with_document`).
-/

namespace JuliaLexer

namespace CommandLine

/-- `ShowsLine m ts t s`: the string `s` is a line that shows the mode `m` and the tokens `ts`, each with a lexeme that has its
length, where the lexemes put together are the text `t`. The name of the mode comes first, with a colon after it. What shows a
token is a space, the name of its category, its length in parentheses, another space, and its lexeme in quotes. -/
def ShowsLine (m : Mode) (ts : List Token) (t : Text) (s : String) : Prop :=
  s.toList.count '\n' = 1 ∧
    ∃ lexemes : List Text, lexemes.map List.length = ts.map (·.length) ∧ lexemes.flatten = t ∧
      s = m.name ++ ":" ++ String.join (List.zipWith (fun x l =>
        " " ++ x.category.name ++ "(" ++ Nat.repr x.length ++ ") " ++ String.ofList l.quoted) ts lexemes) ++ "\n"

/-- `ShowsLines m lines out`: the string `out` shows the lines of a document that is read from the mode `m`, one line for each.
The line for a line of the document shows the mode that the lines before it leave, and those tokens of the document that
stand between the newlines around that line. -/
def ShowsLines (m : Mode) (lines : List Text) (out : String) : Prop :=
  ∃ shown : List String, out = String.join shown ∧ shown.length = lines.length ∧
    ∀ i line s, lines[i]? = some line → shown[i]? = some s →
      ∃ front start tokens final group,
        tokenizeDocument m (['\n'].intercalate (lines.take i)) = .ok ⟨front, start⟩ ∧
        tokenizeDocument m (['\n'].intercalate lines) = .ok ⟨tokens, final⟩ ∧
        (tokens.splitOn ⟨.newLine, 1⟩)[i]? = some group ∧ ShowsLine start group line s

/-! ## Helpers: what is printed for a run of lines -/

theorem showsLine_lineText {l : LineRead} {m : Mode} (h : tokenizeLine l.start l.text = .ok ⟨l.tokens, m⟩) :
    ShowsLine l.start l.tokens l.text (lineText l) := by
  obtain ⟨hlengths, hflatten⟩ := cut_tokenizeLine h
  refine ⟨count_newline_lineText l, _, hlengths, hflatten, ?_⟩
  simp only [lineText, ← tokenText_eq]

/-- What is printed for a run of lines shows these lines. -/
theorem showsLines_of_lineRun {m m' : Mode} {ls : List LineRead} (h : LineRun m ls m') (hlines : ∀ l ∈ ls, '\n' ∉ l.text) :
    ShowsLines m (ls.map (·.text)) (String.join (ls.map lineText)) := by
  refine ⟨ls.map lineText, rfl, by rw [List.length_map, List.length_map], ?_⟩
  intro i line s hline hs
  rw [List.getElem?_map, Option.map_eq_some_iff] at hline hs
  obtain ⟨l, hl, rfl⟩ := hline
  obtain ⟨l', hl', rfl⟩ := hs
  cases hl.symm.trans hl'
  have hmem : l ∈ ls := List.mem_of_getElem? hl
  have hne : ls ≠ [] := List.ne_nil_of_mem hmem
  have hm : m ≠ .uninitialized := h.ne_uninitialized hne
  have hfront : LineRun m (ls.take i) l.start := by
    obtain ⟨hi, hget⟩ := List.getElem?_eq_some_iff.mp hl
    rw [← List.take_append_drop i ls, List.drop_eq_getElem_cons hi, hget] at h
    exact h.front
  have hbefore := hfront.tokenizeDocument_eq_ok hm (fun l hl => hlines l (List.mem_of_mem_take hl))
  rw [List.map_take] at hbefore
  have hgroup : (([Token.newLine].intercalate (ls.map (·.tokens))).splitOn Token.newLine)[i]? = some l.tokens := by
    rw [h.splitOn_tokens hne, List.getElem?_map, hl, Option.map_some]
  obtain ⟨m₁, htokens⟩ := h.tokenizeLine_of_mem hmem
  exact ⟨_, l.start, _, m', l.tokens, hbefore, h.tokenizeDocument_eq_ok hm hlines, hgroup, showsLine_lineText htokens⟩

/-- What is printed for the lines of a document that were read shows these lines. -/
theorem showsLines_readLines (m : Mode) (t : Text) :
    ShowsLines m (t.lines.take (readLines m t.lines).lines.length)
      (String.join ((readLines m t.lines).lines.map lineText)) := by
  have htexts := map_text_readLines m t.lines
  rw [← htexts]
  refine showsLines_of_lineRun (lineRun_readLines m t.lines) (fun l hl => ?_)
  have hmem : l.text ∈ (readLines m t.lines).lines.map (·.text) := List.mem_map_of_mem hl
  rw [htexts] at hmem
  exact Text.newline_not_mem_of_mem_lines (List.mem_of_mem_take hmem)

/-! ## Helpers: how a document is read -/

theorem tokenizeDocument_eq_error_iff {m : Mode} {t : Text} {e : LexError} :
    tokenizeDocument m t = .error e ↔ (readLines m t.lines).error? = some e := by
  cases herror : (readLines m t.lines).error? with
  | none =>
    simp only [tokenizeDocument, herror]
    exact ⟨nofun, nofun⟩
  | some e' =>
    simp only [tokenizeDocument, herror]
    exact ⟨fun h => congrArg some (Except.error.inj h), fun h => congrArg Except.error (Option.some.inj h)⟩

theorem exists_tokenizeDocument_eq_ok_iff {m : Mode} {t : Text} :
    (∃ l, tokenizeDocument m t = .ok l) ↔ (readLines m t.lines).error? = none := by
  constructor
  · rintro ⟨l, hl⟩
    cases herror : (readLines m t.lines).error? with
    | none => rfl
    | some e =>
      rw [tokenizeDocument_eq_error_iff.mpr herror] at hl
      cases hl
  · intro herror
    cases hread : tokenizeDocument m t with
    | ok l => exact ⟨l, rfl⟩
    | error e =>
      rw [tokenizeDocument_eq_error_iff.mp hread] at herror
      cases herror

/-! ## Programs and documents -/

/-- On input that encodes a document that is read, a run shows its lines. -/
theorem run_of_tokenizeDocument_eq_ok {args : List String} {m : Mode} (hargs : StartsIn args m) {t : Text} (ht : t ≠ [])
    {l : LineTokens} (h : tokenizeDocument m t.document = .ok l) :
    ∃ out, run args t.utf8 = ⟨0, out, ""⟩ ∧ ShowsLines m t.document.lines out := by
  have herror := exists_tokenizeDocument_eq_ok_iff.mp ⟨l, h⟩
  have hshows := showsLines_readLines m t.document
  rw [length_readLines (Option.map_eq_none_iff.mp herror), List.take_length] at hshows
  refine ⟨_, ?_, hshows⟩
  rw [run_of_startsIn hargs, readInput_utf8 m ht, herror]
  rfl

/-- On input that encodes a document that fails, a run shows the lines before the one that fails, and reports the error. -/
theorem run_of_tokenizeDocument_eq_error {args : List String} {m : Mode} (hargs : StartsIn args m) {t : Text} (ht : t ≠ [])
    {e : LexError} (h : tokenizeDocument m t.document = .error e) :
    ∃ out n e', e = .atLine n e' ∧ 1 ≤ n ∧ n ≤ t.document.lines.length ∧
      run args t.utf8 = ⟨1, out, (Failure.line e).report⟩ ∧ ShowsLines m (t.document.lines.take (n - 1)) out := by
  have herror := tokenizeDocument_eq_error_iff.mp h
  obtain ⟨n, e', rfl, -, hpos, hle⟩ := tokenizeDocument_error h
  have hcount : n - 1 = (readLines m t.document.lines).lines.length := by
    obtain ⟨e'', -, he⟩ := Option.map_eq_some_iff.mp herror
    rw [← (LexError.atLine.inj he).1, Nat.add_sub_cancel]
  have hshows := showsLines_readLines m t.document
  rw [← hcount] at hshows
  refine ⟨_, n, e', rfl, hpos, Text.length_lines _ ▸ hle, ?_, hshows⟩
  rw [run_of_startsIn hargs, readInput_utf8 m ht, herror]
  rfl

/-- A run on some input exits with 0 if the input encodes a document that is read. -/
theorem exit_run_eq_zero_iff {args : List String} {m : Mode} (hargs : StartsIn args m) {input : List UInt8} (hne : input ≠ []) :
    (run args input).exit = 0 ↔ ∃ t l, input = Text.utf8 t ∧ tokenizeDocument m t.document = .ok l := by
  constructor
  · intro hexit
    rw [run_of_startsIn hargs, exit_outcome_eq_zero_iff] at hexit
    obtain ⟨t, rfl⟩ := exists_utf8_of_failure_eq_none hexit
    have ht : t ≠ [] := fun h => hne (h ▸ rfl)
    rw [readInput_utf8 m ht] at hexit
    obtain ⟨l, hl⟩ := exists_tokenizeDocument_eq_ok_iff.mpr (Option.map_eq_none_iff.mp hexit)
    exact ⟨t, l, rfl, hl⟩
  · rintro ⟨t, l, rfl, hl⟩
    have ht : t ≠ [] := fun h => hne (h ▸ rfl)
    obtain ⟨out, hrun, -⟩ := run_of_tokenizeDocument_eq_ok hargs ht hl
    rw [hrun]

/-- A run agrees with the document in its input. Without input nothing is printed and the exit code is 0. Otherwise it is 0 if
the input is UTF-8 and the document in it is read; then the lines of the document are shown. If the input is UTF-8 and the
document fails, the exit code is 1, what goes to standard error is one line with the error of the document, and the lines
before the one that fails are shown. -/
theorem run_agrees_with_document {args : List String} {m : Mode} (hargs : StartsIn args m) (input : List UInt8) :
    (input = [] → run args input = ⟨0, "", ""⟩) ∧
    (input ≠ [] → ((run args input).exit = 0 ↔
      ∃ t l, input = Text.utf8 t ∧ tokenizeDocument m t.document = .ok l)) ∧
    (∀ t : Text, t ≠ [] → input = t.utf8 →
      (∀ l, tokenizeDocument m t.document = .ok l →
        ∃ out, run args input = ⟨0, out, ""⟩ ∧ ShowsLines m t.document.lines out) ∧
      (∀ e, tokenizeDocument m t.document = .error e →
        ∃ out report n e', run args input = ⟨1, out, report⟩ ∧
          report = "Error: Custom \x7b kind: InvalidInput, error: " ++ e.record ++ " \x7d\n" ∧
          report.toList.count '\n' = 1 ∧
          e = .atLine n e' ∧ 1 ≤ n ∧ n ≤ t.document.lines.length ∧
          ShowsLines m (t.document.lines.take (n - 1)) out)) := by
  refine ⟨?_, exit_run_eq_zero_iff hargs, ?_⟩
  · rintro rfl
    rw [run_of_startsIn hargs]
    rfl
  · rintro t ht rfl
    refine ⟨fun l => run_of_tokenizeDocument_eq_ok hargs ht, ?_⟩
    intro e he
    obtain ⟨out, n, e', heq, hpos, hle, hrun, hshows⟩ := run_of_tokenizeDocument_eq_error hargs ht he
    exact ⟨out, _, n, e', hrun, rfl, Failure.count_newline_report_line e, heq, hpos, hle, hshows⟩

/-- Two runs that start inside a string: one whose document is its first line, and one whose second line fails. -/
theorem run_agrees_with_document_in_string :
    StartsIn ["InsideDoubleQuoteString"] (.quoted .double) ∧
      (∃ out, run ["InsideDoubleQuoteString"] (Text.utf8 ['é', '"', '\r', '\n']) = ⟨0, out, ""⟩ ∧
        ShowsLines (.quoted .double) [['é', '"']] out) ∧
      (∃ out, run ["InsideDoubleQuoteString"] (Text.utf8 ['é', '"', '\r', '\n', '!']) =
          ⟨1, out, "Error: Custom \x7b kind: InvalidInput, error: " ++
            (LexError.atLine 2 (.unmatched .topLevel 0 ['!'])).record ++ " \x7d\n"⟩ ∧
        ShowsLines (.quoted .double) [['é', '"']] out) := by
  have hargs : StartsIn ["InsideDoubleQuoteString"] (.quoted .double) := .named (.quoted .double) []
  obtain ⟨out, hrun, hshows⟩ := ((run_agrees_with_document hargs _).2.2 ['é', '"', '\r', '\n'] (by decide) rfl).1
    ⟨[⟨.string, 1⟩, ⟨.punctuation, 1⟩], .topLevel⟩ (by decide +kernel)
  obtain ⟨out', report, n, e', hrun', rfl, -, he, -, -, hshows'⟩ :=
    ((run_agrees_with_document hargs _).2.2 ['é', '"', '\r', '\n', '!'] (by decide) rfl).2
      (.atLine 2 (.unmatched .topLevel 0 ['!'])) (by decide +kernel)
  cases he
  exact ⟨hargs, ⟨out, hrun, hshows⟩, out', hrun', hshows'⟩

end CommandLine

end JuliaLexer
