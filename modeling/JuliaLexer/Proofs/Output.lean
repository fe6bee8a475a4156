import JuliaLexer.Proofs.Printing
import JuliaLexer.Proofs.ProgramRun

/-!
# Output: what a run has read can be found in what it printed

Every line that a run reads is printed as one line. That line shows the mode, the tokens and, cut at the lengths of the
tokens, all characters of the line that was read; so two runs that print the same have read the same lines from the same modes
(`CommandLine.stdout_determines_lines`).
-/

namespace JuliaLexer

/-! ## Helpers: a line from its pieces -/

/-- The pieces of a line that was read are its tokens, each with as many characters as it covers, and nothing is lost. -/
theorem LineRead.map_pieces {l : LineRead} {m : Mode} (h : tokenizeLine l.start l.text = .ok ⟨l.tokens, m⟩) :
    l.pieces.map Prod.fst = l.tokens ∧ (l.pieces.map Prod.snd).flatten = l.text := by
  obtain ⟨hlengths, hflatten⟩ := cut_tokenizeLine h
  have hlength := congrArg List.length hlengths
  rw [List.length_map, List.length_map] at hlength
  unfold LineRead.pieces
  refine ⟨List.map_fst_zip hlength.ge, ?_⟩
  rw [List.map_snd_zip hlength.le]
  exact hflatten

namespace CommandLine

/-- A printed line that was read tells where it ends, and which line it is. -/
theorem lineText_append_inj_of_tokenizeLine {l l' : LineRead} {m m' : Mode} {x y : Text}
    (h : tokenizeLine l.start l.text = .ok ⟨l.tokens, m⟩) (h' : tokenizeLine l'.start l'.text = .ok ⟨l'.tokens, m'⟩)
    (heq : (lineText l).toList ++ x = (lineText l').toList ++ y) : l = l' ∧ x = y := by
  obtain ⟨⟨hstart, hpieces⟩, hxy⟩ := lineText_append_inj heq
  obtain ⟨htokens, htext⟩ := LineRead.map_pieces h
  obtain ⟨htokens', htext'⟩ := LineRead.map_pieces h'
  have ht : l.tokens = l'.tokens := by rw [← htokens, hpieces, htokens']
  have hl : l.text = l'.text := by rw [← htext, hpieces, htext']
  have hsame : l = l' :=
    calc
      l = ⟨l.start, l.text, l.tokens⟩ := rfl
      _ = ⟨l'.start, l'.text, l'.tokens⟩ := by rw [hstart, hl, ht]
      _ = l' := rfl
  exact ⟨hsame, hxy⟩

/-- Runs of lines that are printed alike are the same lines. -/
theorem lines_eq_of_join_lineText_eq {m m' m₁ m₁' : Mode} {ls ls' : List LineRead} (h : LineRun m ls m₁)
    (h' : LineRun m' ls' m₁') (heq : String.join (ls.map lineText) = String.join (ls'.map lineText)) : ls = ls' := by
  have hword (l : LineRead) (z : Text) : (lineText l).toList ++ z ≠ [] := by
    rw [toList_lineText]
    simp
  have hchars := congrArg String.toList heq
  rw [String.toList_join, String.toList_join, List.flatMap_map, List.flatMap_map, ← List.append_nil (ls.flatMap _),
    ← List.append_nil (ls'.flatMap _)] at hchars
  refine (flatMap_append_inj ?_ hword hword hchars).1
  intro l hl l' hl' x y hxy
  obtain ⟨m₂, hline⟩ := h.tokenizeLine_of_mem hl
  obtain ⟨m₂', hline'⟩ := h'.tokenizeLine_of_mem hl'
  exact lineText_append_inj_of_tokenizeLine hline hline' hxy

/-! ## Runs that print the same -/

/-- A run prints the lines that it reads, which are the first lines of the input, and each as one line. The lines of the input
are what stands before its line feeds, without a carriage return right before one, and what stands after the last, unless it
is empty. If two runs print the same, they have read the same lines: with the same modes, the same tokens, and the same
characters up to the last. So if they both exit with 0, the lines of their inputs are the same, and unless there are none, both
started in the same mode. -/
theorem stdout_determines_lines {args args' : List String} {m m' : Mode} (hargs : StartsIn args m)
    (hargs' : StartsIn args' m') (input input' : List UInt8) :
    let r := readInput m input
    let r' := readInput m' input'
    ((∀ lines, LinesOf input lines ↔ lines = inputLines input) ∧
      LineRun m r.lines r.mode ∧ r.lines.map (·.text.utf8) = (inputLines input).take r.lines.length ∧
      (run args input).stdout = String.join (r.lines.map lineText) ∧
      (∀ l ∈ r.lines, (lineText l).toList.count '\n' = 1)) ∧
    ((run args input).stdout = (run args' input').stdout →
      r.lines = r'.lines ∧ (inputLines input).take r.lines.length = (inputLines input').take r'.lines.length ∧
      ((run args input).exit = 0 → (run args' input').exit = 0 →
        inputLines input = inputLines input' ∧ (inputLines input ≠ [] → m = m'))) := by
  intro r r'
  have hrun : LineRun m r.lines r.mode := lineRun_readInput m input
  have hrun' : LineRun m' r'.lines r'.mode := lineRun_readInput m' input'
  rw [run_of_startsIn hargs, run_of_startsIn hargs', stdout_outcome, stdout_outcome, exit_outcome_eq_zero_iff,
    exit_outcome_eq_zero_iff]
  refine ⟨⟨fun _ => linesOf_iff, hrun, map_utf8_readInput m input, rfl, fun l _ => count_newline_lineText l⟩, ?_⟩
  intro hstdout
  have hlines : r.lines = r'.lines := lines_eq_of_join_lineText_eq hrun hrun' hstdout
  refine ⟨hlines, ?_, ?_⟩
  · rw [← map_utf8_readInput, ← map_utf8_readInput]
    exact congrArg _ hlines
  · intro hfailure hfailure'
    have hinput := map_utf8_readInput_of_failure_eq_none hfailure
    have hinput' := map_utf8_readInput_of_failure_eq_none hfailure'
    have hsame : inputLines input = inputLines input' := by
      rw [← hinput, ← hinput']
      exact congrArg _ hlines
    refine ⟨hsame, ?_⟩
    intro hne
    have hread : r.lines ≠ [] := by
      intro hnil
      rw [← hinput] at hne
      exact hne (List.map_eq_nil_iff.mpr hnil)
    exact hrun.start_unique (hlines ▸ hrun') hread

/-- Two inputs that are printed alike: an open string, with a carriage return and a line feed after it and without. -/
theorem stdout_determines_lines_of_open_string :
    StartsIn [] .topLevel ∧ StartsIn ["TopLevelContent"] .topLevel ∧
      (run [] [0x22, 0x61, 0x0D, 0x0A]).stdout = (run ["TopLevelContent"] [0x22, 0x61]).stdout ∧
      (readInput .topLevel [0x22, 0x61, 0x0D, 0x0A]).lines = (readInput .topLevel [0x22, 0x61]).lines ∧
      inputLines [0x22, 0x61, 0x0D, 0x0A] = inputLines [0x22, 0x61] ∧
      LinesOf [0x22, 0x61, 0x0D, 0x0A] [[0x22, 0x61]] := by
  have hargs : StartsIn ["TopLevelContent"] .topLevel := .named .topLevel []
  have hstdout : (run [] [0x22, 0x61, 0x0D, 0x0A]).stdout = (run ["TopLevelContent"] [0x22, 0x61]).stdout := by
    decide +kernel
  obtain ⟨⟨hlinesOf, -⟩, hsame⟩ := stdout_determines_lines .noArgument hargs [0x22, 0x61, 0x0D, 0x0A] [0x22, 0x61]
  obtain ⟨hlines, -, hexit⟩ := hsame hstdout
  exact ⟨.noArgument, hargs, hstdout, hlines, (hexit (by decide +kernel) (by decide +kernel)).1,
    (hlinesOf _).mpr (by decide +kernel)⟩

end CommandLine

end JuliaLexer
