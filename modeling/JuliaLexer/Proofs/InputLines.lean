import JuliaLexer.Proofs.Encoding

/-!
# Input lines: the lines that the program reads

The program cuts its input at line feeds before it decodes it: a line ends at a line feed, with or without a carriage return
before it, or at the end of the input (`CommandLine.linesOf_iff`). For input that encodes a text this comes to the same as
decoding it, and reading the lines of the document in that text: the text without the carriage returns that stand right before
a newline, and without a final newline (`CommandLine.inputLines_utf8`). Input of which every line can be decoded encodes a
text (`CommandLine.exists_utf8_of_inputLines`).
-/

namespace JuliaLexer

/-- A text in which a newline stands for every carriage return with a newline right after it, replaced in one pass. -/
def Text.dropReturns : Text → Text
  | '\r' :: '\n' :: t => '\n' :: dropReturns t
  | c :: t => c :: dropReturns t
  | [] => []

/-- A text without the newline at its end, if it has one. -/
def Text.dropFinalNewline (t : Text) : Text := if t.getLast? = some '\n' then t.dropLast else t

/-- The document in a text that was read as input. -/
def Text.document (t : Text) : Text := t.dropReturns.dropFinalNewline

/-- A line without the carriage return at its end, if it has one. -/
def Text.dropReturn (t : Text) : Text := if t.getLast? = some '\r' then t.dropLast else t

/-- `LinesOf input lines`: the bytes `input` consist of the lines `lines`. A line ends at a line feed, which does not belong to
it, nor does a carriage return right before that. Bytes that no line feed ends are a line as they stand, unless there are
none. -/
inductive CommandLine.LinesOf : List UInt8 → List (List UInt8) → Prop where
  | nil : LinesOf [] []
  | last {line : List UInt8} : line ≠ [] → 0x0A ∉ line → LinesOf line [line]
  | lineFeed {line rest : List UInt8} {lines : List (List UInt8)} :
      0x0A ∉ line → line.getLast? ≠ some 0x0D → LinesOf rest lines → LinesOf (line ++ 0x0A :: rest) (line :: lines)
  | returnLineFeed {line rest : List UInt8} {lines : List (List UInt8)} :
      0x0A ∉ line → LinesOf rest lines → LinesOf (line ++ 0x0D :: 0x0A :: rest) (line :: lines)

/-! ## Helpers: the lines of a document -/

theorem Text.dropReturns_of_not_mem {t : Text} (h : '\n' ∉ t) : t.dropReturns = t := by
  fun_induction Text.dropReturns t with
  | case1 t ih => simp at h
  | case2 c t hc ih => rw [ih (fun hmem => h (List.mem_cons_of_mem c hmem))]
  | case3 => rfl

theorem Text.dropReturn_cons_cons (c d : Char) (t : Text) : Text.dropReturn (c :: d :: t) = c :: Text.dropReturn (d :: t) := by
  unfold Text.dropReturn
  rw [List.getLast?_cons_cons]
  split_ifs <;> rfl

theorem Text.newline_not_mem_dropReturn {t : Text} (h : '\n' ∉ t) : '\n' ∉ t.dropReturn := by
  unfold Text.dropReturn
  split_ifs
  · exact fun hmem => h (List.dropLast_subset t hmem)
  · exact h

/-- Of the carriage returns of a first line only one at its end is dropped. -/
theorem Text.dropReturns_append_newline {a : Text} (h : '\n' ∉ a) (b : Text) :
    Text.dropReturns (a ++ '\n' :: b) = a.dropReturn ++ '\n' :: b.dropReturns := by
  induction a with
  | nil => rfl
  | cons c a ih =>
    have ha : '\n' ∉ a := fun hmem => h (List.mem_cons_of_mem c hmem)
    cases a with
    | nil =>
      by_cases hreturn : c = '\r'
      · subst hreturn
        rfl
      · have hkeep : Text.dropReturn [c] = [c] := if_neg (fun hlast => hreturn (Option.some.inj hlast))
        rw [hkeep, List.singleton_append, Text.dropReturns.eq_2 _ _ (fun _ hr _ => hreturn hr)]
        rfl
    | cons d a =>
      have hd : d ≠ '\n' := fun hd => ha (hd ▸ List.mem_cons_self)
      rw [Text.dropReturn_cons_cons, List.cons_append, List.cons_append, List.cons_append,
        Text.dropReturns.eq_2 _ _ (fun _ _ ht => hd (List.cons.inj ht).1), ← List.cons_append, ih ha]

/-- There is a last piece between separators, and there may be pieces before it. -/
theorem exists_splitOn_eq_concat {α : Type} [BEq α] (a : α) (xs : List α) :
    ∃ pieces last, xs.splitOn a = pieces ++ [last] := by
  rcases List.eq_nil_or_concat (xs.splitOn a) with h | ⟨pieces, last, h⟩
  · exact absurd h (List.splitOn_ne_nil a xs)
  · exact ⟨pieces, last, h.trans List.concat_eq_append⟩

/-- There is a last line, and there may be lines before it. -/
theorem Text.exists_lines_eq_concat (t : Text) : ∃ ls l, t.lines = ls ++ [l] := exists_splitOn_eq_concat '\n' t

/-- Carriage returns are dropped at the end of every line but the last. -/
theorem Text.lines_dropReturns {t : Text} {ls : List Text} {l : Text} (h : t.lines = ls ++ [l]) :
    t.dropReturns.lines = ls.map Text.dropReturn ++ [l] := by
  induction t using Text.lines_induction generalizing ls l with
  | line t ht =>
    rw [Text.lines_of_not_mem ht] at h
    rw [Text.dropReturns_of_not_mem ht, Text.lines_of_not_mem ht]
    rw [← List.nil_append [t]] at h
    obtain ⟨rfl, hl⟩ := List.append_inj' h rfl
    exact hl
  | newline a b ha ih =>
    obtain ⟨ls', l', hb⟩ := b.exists_lines_eq_concat
    rw [Text.lines_append_newline, Text.lines_of_not_mem ha, hb, ← List.append_assoc] at h
    obtain ⟨rfl, hl⟩ := List.append_inj' h rfl
    rw [Text.dropReturns_append_newline ha, Text.lines_append_newline,
      Text.lines_of_not_mem (Text.newline_not_mem_dropReturn ha), ih hb, hl, List.map_append, List.append_assoc,
      List.map_singleton]

/-- Unless there is no text at all, a final newline opens no line. -/
theorem Text.lines_dropFinalNewline {t : Text} (hne : t ≠ []) {ls : List Text} {l : Text} (h : t.lines = ls ++ [l]) :
    t.dropFinalNewline.lines = ls ++ if l = [] then [] else [l] := by
  unfold Text.dropFinalNewline
  split_ifs with hlast hl hl
  · obtain ⟨a, rfl⟩ := List.getLast?_eq_some_iff.mp hlast
    rw [Text.lines_append_newline] at h
    rw [List.dropLast_concat, List.append_nil]
    exact (List.append_inj' h rfl).1
  · obtain ⟨a, rfl⟩ := List.getLast?_eq_some_iff.mp hlast
    rw [Text.lines_append_newline] at h
    exact absurd (List.cons.inj (List.append_inj' h rfl).2).1.symm hl
  · -- a text with an empty last line is empty or ends in a newline
    have ht := t.intercalate_lines
    rw [h, hl] at ht
    by_cases hnil : ls = []
    · rw [hnil] at ht
      exact absurd ht.symm hne
    · rw [intercalate_append _ hnil (List.cons_ne_nil _ _), List.intercalate_singleton, List.append_nil] at ht
      exact absurd (ht ▸ List.getLast?_concat) hlast
  · exact h

/-! ## Helpers: the lines of the input -/

/-- A carriage return is its only byte. -/
theorem Text.utf8_append_return (t : Text) : Text.utf8 (t ++ ['\r']) = t.utf8 ++ [0x0D] := by
  rw [Text.utf8_append, Text.utf8_cons, utf8EncodeChar_of_lt (by decide)]
  rfl

/-- The last byte of a text is that of a carriage return if that is the last character. -/
theorem Text.getLast?_utf8_eq_return_iff (t : Text) : t.utf8.getLast? = some 0x0D ↔ t.getLast? = some '\r' := by
  rcases List.eq_nil_or_concat t with rfl | ⟨a, c, rfl⟩
  · exact ⟨nofun, nofun⟩
  · rw [List.concat_eq_append, List.getLast?_concat]
    constructor
    · intro h
      rw [Text.utf8_append, List.getLast?_append_of_ne_nil _ (Text.utf8_ne_nil (List.cons_ne_nil c []))] at h
      have hmem : UInt8.ofNat '\r'.toNat ∈ Text.utf8 [c] := List.mem_of_getLast? h
      rw [List.mem_singleton.mp (Text.mem_of_mem_utf8 (by decide) hmem)]
    · intro h
      rw [Option.some.inj h, Text.utf8_append_return, List.getLast?_concat]

theorem CommandLine.dropReturn_concat (line : List UInt8) : dropReturn (line ++ [0x0D]) = line := by
  rw [dropReturn, List.getLast?_concat, if_pos rfl, List.dropLast_concat]

theorem CommandLine.dropReturn_of_getLast?_ne {line : List UInt8} (h : line.getLast? ≠ some 0x0D) : dropReturn line = line :=
  if_neg h

/-- Dropping the byte of a carriage return is dropping the carriage return. -/
theorem CommandLine.dropReturn_utf8 (t : Text) : dropReturn t.utf8 = t.dropReturn.utf8 := by
  unfold Text.dropReturn
  by_cases h : t.getLast? = some '\r'
  · obtain ⟨a, rfl⟩ := List.getLast?_eq_some_iff.mp h
    rw [if_pos h, Text.utf8_append_return, dropReturn_concat, List.dropLast_concat]
  · rw [if_neg h, dropReturn_of_getLast?_ne (fun hlast => h ((Text.getLast?_utf8_eq_return_iff t).mp hlast))]

/-- A line that encodes a text after its carriage return was dropped encodes one with it. -/
theorem CommandLine.exists_utf8_of_dropReturn {line : List UInt8} {t : Text} (h : dropReturn line = t.utf8) :
    ∃ t' : Text, line = t'.utf8 := by
  by_cases hlast : line.getLast? = some 0x0D
  · obtain ⟨init, rfl⟩ := List.getLast?_eq_some_iff.mp hlast
    rw [dropReturn_concat] at h
    exact ⟨t ++ ['\r'], by rw [h, Text.utf8_append_return]⟩
  · rw [dropReturn_of_getLast?_ne hlast] at h
    exact ⟨t, h⟩

/-- The lines of the input are its pieces, but the last if that is empty. -/
theorem CommandLine.inputLines_eq {input : List UInt8} {pieces : List (List UInt8)} {last : List UInt8}
    (h : input.splitOn 0x0A = pieces ++ [last]) :
    inputLines input = pieces.map dropReturn ++ if last = [] then [] else [last] := by
  rw [inputLines, h, List.getLast?_concat, List.dropLast_concat]
  cases last <;> rfl

/-- Before a line feed stand whole lines, and after it the lines of the rest. -/
theorem CommandLine.inputLines_append_newline (a y : List UInt8) :
    inputLines (a ++ 0x0A :: y) = (a.splitOn 0x0A).map dropReturn ++ inputLines y := by
  obtain ⟨pieces, last, hy⟩ := exists_splitOn_eq_concat 0x0A y
  have hpieces : (a ++ 0x0A :: y).splitOn 0x0A = a.splitOn 0x0A ++ pieces ++ [last] := by
    rw [List.splitOn_append_cons_self, hy, List.append_assoc]
  rw [inputLines_eq hpieces, inputLines_eq hy, List.map_append, List.append_assoc]

/-- Without line feeds the input is one line, unless it is empty. -/
theorem CommandLine.inputLines_of_not_mem {input : List UInt8} (hne : input ≠ []) (h : 0x0A ∉ input) :
    inputLines input = [input] := by
  have hpieces : input.splitOn 0x0A = [] ++ [input] := List.splitOn_eq_singleton h
  rw [inputLines_eq hpieces, if_neg hne]
  rfl

/-- The first line feed ends the first line. -/
theorem CommandLine.inputLines_line_append {line : List UInt8} (h : 0x0A ∉ line) (rest : List UInt8) :
    inputLines (line ++ 0x0A :: rest) = dropReturn line :: inputLines rest := by
  rw [inputLines_append_newline, List.splitOn_eq_singleton h, List.map_singleton, List.singleton_append]

/-! ## The lines of the input -/

/-- The lines of the input are those that it consists of, and it consists of no others. -/
theorem CommandLine.linesOf_iff {input : List UInt8} {lines : List (List UInt8)} :
    LinesOf input lines ↔ lines = inputLines input := by
  constructor
  · intro h
    induction h with
    | nil => rfl
    | last hne hline => rw [inputLines_of_not_mem hne hline]
    | lineFeed hline hlast _ ih => rw [inputLines_line_append hline, dropReturn_of_getLast?_ne hlast, ih]
    | @returnLineFeed line rest lines hline _ ih =>
      have hreturn : 0x0A ∉ line ++ [0x0D] := List.not_mem_append hline (by decide)
      have hlines := inputLines_line_append hreturn rest
      rw [dropReturn_concat, List.append_assoc, List.singleton_append, ← ih] at hlines
      exact hlines.symm
  · rintro rfl
    induction input using separated_induction (0x0A : UInt8) with
    | piece line hline =>
      by_cases hne : line = []
      · subst hne
        exact .nil
      · rw [inputLines_of_not_mem hne hline]
        exact .last hne hline
    | separator line rest hline ih =>
      rw [inputLines_line_append hline]
      by_cases hlast : line.getLast? = some 0x0D
      · obtain ⟨front, rfl⟩ := List.getLast?_eq_some_iff.mp hlast
        rw [dropReturn_concat, List.append_assoc]
        exact .returnLineFeed (fun hmem => hline (List.mem_append_left _ hmem)) ih
      · rw [dropReturn_of_getLast?_ne hlast]
        exact .lineFeed hline hlast ih

/-! ## The lines of the input and of its document -/

/-- Input that encodes a text has the lines of the document in that text. -/
theorem CommandLine.inputLines_utf8 {t : Text} (h : t ≠ []) : inputLines t.utf8 = t.document.lines.map Text.utf8 := by
  have hne : t.dropReturns ≠ [] := by
    unfold Text.dropReturns
    split
    · exact List.cons_ne_nil _ _
    · exact List.cons_ne_nil _ _
    · exact absurd rfl h
  obtain ⟨ls, l, hls⟩ := t.exists_lines_eq_concat
  have hpieces : t.utf8.splitOn 0x0A = ls.map Text.utf8 ++ [l.utf8] := by
    rw [Text.splitOn_utf8, hls, List.map_append, List.map_singleton]
  have hreturns : (ls.map Text.utf8).map dropReturn = (ls.map Text.dropReturn).map Text.utf8 := by
    rw [List.map_map, List.map_map]
    exact List.map_congr_left (fun line _ => dropReturn_utf8 line)
  rw [inputLines_eq hpieces, Text.document, Text.lines_dropFinalNewline hne (Text.lines_dropReturns hls), hreturns,
    List.map_append]
  by_cases hl : l = []
  · rw [hl]
    rfl
  · rw [if_neg hl, if_neg (Text.utf8_ne_nil hl), List.map_singleton]

/-- Input of which all lines encode texts encodes a text. -/
theorem CommandLine.exists_utf8_of_inputLines {input : List UInt8}
    (h : ∀ line ∈ inputLines input, ∃ t : Text, line = t.utf8) : ∃ t : Text, input = t.utf8 := by
  obtain ⟨pieces, last, hpieces⟩ := exists_splitOn_eq_concat 0x0A input
  rw [inputLines_eq hpieces] at h
  refine exists_utf8_of_pieces ?_
  intro piece hpiece
  rw [hpieces] at hpiece
  rcases List.mem_append.mp hpiece with hmem | hmem
  · obtain ⟨t, ht⟩ := h (dropReturn piece) (List.mem_append_left _ (List.mem_map_of_mem hmem))
    exact exists_utf8_of_dropReturn ht
  · by_cases hempty : last = []
    · exact ⟨[], (List.mem_singleton.mp hmem).trans hempty⟩
    · rw [if_neg hempty] at h
      exact h piece (List.mem_append_right _ hmem)

end JuliaLexer
