import JuliaLexer.Proofs.Newline
import JuliaLexer.Proofs.Reading

/-!
# Runs of lines: lines read one after another

A run of lines is a list of lines that were read, each from the mode that the one before it leaves (`LineRun`). What reading
lines gives is a run of the lines up to the first that fails (`lineRun_readLines`). A run can be taken apart anywhere, and as
a document, its lines joined by newlines, it has the tokens of the lines with those of the newlines between them
(`LineRun.tokenizeDocument_eq_ok`).
-/

namespace JuliaLexer

/-- `LineRun m ls m'`: the lines `ls` are read one after another, the first from mode `m`, and the last leaves mode `m'`. -/
inductive LineRun : Mode → List LineRead → Mode → Prop where
  | nil (m : Mode) : LineRun m [] m
  | cons {m m' m'' : Mode} {t : Text} {ts : List Token} {ls : List LineRead} :
      tokenizeLine m t = .ok ⟨ts, m'⟩ → LineRun m' ls m'' → LineRun m (⟨m, t, ts⟩ :: ls) m''

/-! ## Helpers: runs -/

/-- A run can be taken apart anywhere. -/
theorem LineRun.exists_of_append {m m'' : Mode} {ls ls' : List LineRead} (h : LineRun m (ls ++ ls') m'') :
    ∃ m', LineRun m ls m' ∧ LineRun m' ls' m'' := by
  induction ls generalizing m with
  | nil => exact ⟨m, .nil m, h⟩
  | cons l ls ih =>
    cases h with
    | cons hline hrest =>
      obtain ⟨m', hls, hls'⟩ := ih hrest
      exact ⟨m', .cons hline hls, hls'⟩

/-- Every line of a run is read from the mode it starts in. -/
theorem LineRun.tokenizeLine_of_mem {m m' : Mode} {ls : List LineRead} (h : LineRun m ls m') {l : LineRead} (hl : l ∈ ls) :
    ∃ m₁, tokenizeLine l.start l.text = .ok ⟨l.tokens, m₁⟩ := by
  induction h with
  | nil => cases hl
  | cons hline _ ih =>
    rcases List.mem_cons.mp hl with rfl | hl
    · exact ⟨_, hline⟩
    · exact ih hl

/-- What is in front of a line in a run leads to the mode that the line starts in. -/
theorem LineRun.front {m m' : Mode} {before after : List LineRead} {l : LineRead}
    (h : LineRun m (before ++ l :: after) m') : LineRun m before l.start := by
  obtain ⟨m₁, hbefore, hrest⟩ := h.exists_of_append
  cases hrest
  exact hbefore

/-- Only the empty run starts in the uninitialized mode. -/
theorem LineRun.ne_uninitialized {m m' : Mode} {ls : List LineRead} (h : LineRun m ls m') (hne : ls ≠ []) :
    m ≠ .uninitialized := by
  cases h with
  | nil => exact absurd rfl hne
  | cons hline _ => exact (tokenizeLine_eq_ok_iff.mp hline).1

/-- The first line of a run tells which mode the run starts in. -/
theorem LineRun.start_unique {m m' m₁ m₁' : Mode} {ls : List LineRead} (h : LineRun m ls m₁) (h' : LineRun m' ls m₁')
    (hne : ls ≠ []) : m = m' := by
  cases h with
  | nil => exact absurd rfl hne
  | cons _ _ =>
    cases h' with
    | cons _ _ => rfl

/-- Joined by newlines, the lines of a run are a document with the tokens of the lines and those of the newlines between. -/
theorem LineRun.tokenizeDocument_eq_ok {m m' : Mode} {ls : List LineRead} (h : LineRun m ls m') (hm : m ≠ .uninitialized)
    (hlines : ∀ l ∈ ls, '\n' ∉ l.text) :
    tokenizeDocument m (['\n'].intercalate (ls.map (·.text))) =
      .ok ⟨[Token.newLine].intercalate (ls.map (·.tokens)), m'⟩ := by
  induction h with
  | nil m => exact tokenizeDocument_nil hm
  | @cons m m₁ m' t ts ls hline hrest ih =>
    obtain ⟨ht, hls⟩ := List.forall_mem_cons.mp hlines
    have hfirst := (tokenizeDocument_eq_ok_iff_of_not_mem ht).mpr hline
    rw [List.map_cons, List.map_cons]
    by_cases hnil : ls = []
    · subst hnil
      cases hrest
      rw [List.map_nil, List.map_nil, List.intercalate_singleton, List.intercalate_singleton]
      exact hfirst
    · have hne {β : Type} (f : LineRead → β) : ls.map f ≠ [] := fun h => hnil (List.map_eq_nil_iff.mp h)
      rw [List.intercalate_cons_of_ne_nil (hne _), List.intercalate_cons_of_ne_nil (hne _), List.append_assoc,
        List.append_assoc]
      exact tokenizeDocument_append_newline_eq_ok_iff.mpr
        ⟨ts, m₁, _, hfirst, ih (tokenizeLine_mode_ne_uninitialized hline) hls, rfl⟩

/-- Between its newlines, the tokens of the document are those of the lines. -/
theorem LineRun.splitOn_tokens {m m' : Mode} {ls : List LineRead} (h : LineRun m ls m') (hne : ls ≠ []) :
    ([Token.newLine].intercalate (ls.map (·.tokens))).splitOn Token.newLine = ls.map (·.tokens) := by
  refine List.splitOn_intercalate Token.newLine ?_ (fun hnil => hne (List.map_eq_nil_iff.mp hnil))
  intro ts hts
  obtain ⟨l, hl, rfl⟩ := List.mem_map.mp hts
  obtain ⟨m₁, hline⟩ := h.tokenizeLine_of_mem hl
  exact newLine_not_mem_tokenizeLine hline

/-! ## Reading lines gives a run -/

theorem lineRun_readLines (m : Mode) (texts : List Text) :
    LineRun m (readLines m texts).lines (readLines m texts).mode := by
  induction texts generalizing m with
  | nil => exact .nil m
  | cons t texts ih =>
    cases hline : tokenizeLine m t with
    | error e =>
      rw [readLines_cons_of_error hline]
      exact .nil m
    | ok l =>
      rw [readLines_cons_of_ok hline]
      exact .cons hline (ih l.mode)

/-- The lines read are the first of those given. -/
theorem map_text_readLines (m : Mode) (texts : List Text) :
    (readLines m texts).lines.map (·.text) = texts.take (readLines m texts).lines.length := by
  induction texts generalizing m with
  | nil => rfl
  | cons t texts ih =>
    cases hline : tokenizeLine m t with
    | error e =>
      rw [readLines_cons_of_error hline]
      rfl
    | ok l =>
      rw [readLines_cons_of_ok hline, List.map_cons, ih, List.length_cons, List.take_succ_cons]

/-- If no line fails, all lines given are read. -/
theorem map_text_readLines_of_failure_eq_none {m : Mode} {texts : List Text} (h : (readLines m texts).failure = none) :
    (readLines m texts).lines.map (·.text) = texts := by
  rw [map_text_readLines, length_readLines h, List.take_length]

end JuliaLexer
