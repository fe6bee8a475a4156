import JuliaLexer.Document
import JuliaLexer.Proofs.Word
import Mathlib.Data.List.DropRight

/-!
# Newlines: a document is read in parts

At any of its newlines a document falls into two, and reading the whole is reading the part before and then, from the mode
that leaves, the part after (`tokenizeDocument_append_newline`); only the line numbers in an error of the second part change.
A document without newlines is a line. So what holds of lines and is kept by putting a line in front holds of documents, and
`Text.lines_induction` is the induction for that. All that is said here of a document at one of its newlines, and of its
errors, is put together in `tokenizeDocument_at_newline`.
-/

namespace JuliaLexer

/-- An error in a document that starts `n` lines further down. -/
def LexError.shiftLine (n : Nat) : LexError → LexError
  | .atLine line source => .atLine (n + line) source
  | e => e

/-- The part of a text before its first newline. -/
def Text.firstLine (t : Text) : Text := t.takeWhile (fun c => decide (c ≠ '\n'))

/-- The part of a text after its last newline. -/
def Text.lastLine (t : Text) : Text := t.rtakeWhile (fun c => decide (c ≠ '\n'))

/-! ## Helpers: the lines of a text -/

/-- What holds of every list without a separator, and of a list if it holds of what stands after its first separator, holds of
every list. -/
theorem separated_induction {α : Type} (a : α) {P : List α → Prop} (piece : ∀ xs, a ∉ xs → P xs)
    (separator : ∀ xs ys, a ∉ xs → P ys → P (xs ++ a :: ys)) (xs : List α) : P xs := by
  suffices ∀ (n : Nat) (xs : List α), xs.length = n → P xs from this _ xs rfl
  intro n
  induction n using Nat.strongRecOn with
  | ind n ih =>
    intro xs hn
    by_cases h : a ∈ xs
    · obtain ⟨front, rest, rfl, hfront⟩ := List.eq_append_cons_of_mem h
      rw [List.length_append, List.length_cons] at hn
      exact separator front rest hfront (ih rest.length (by omega) rest rfl)
    · exact piece xs h

/-- What holds of every text without newlines, and of a text if it holds of what its first line leaves, holds of every
text. -/
theorem Text.lines_induction {P : Text → Prop} (line : ∀ t, '\n' ∉ t → P t)
    (newline : ∀ a b, '\n' ∉ a → P b → P (a ++ '\n' :: b)) (t : Text) : P t :=
  separated_induction '\n' line newline t

theorem Text.lines_of_not_mem {t : Text} (h : '\n' ∉ t) : t.lines = [t] := List.splitOn_eq_singleton h

theorem Text.lines_append_newline (a b : Text) : Text.lines (a ++ '\n' :: b) = a.lines ++ b.lines :=
  List.splitOn_append_cons_self a b

theorem Text.lines_ne_nil (t : Text) : t.lines ≠ [] := List.splitOn_ne_nil '\n' t

/-- Cut at every occurrence of a separator, a list falls into one piece more than there are separators. -/
theorem length_splitOn {α : Type} [BEq α] [LawfulBEq α] (a : α) (xs : List α) :
    (xs.splitOn a).length = xs.count a + 1 := by
  induction xs with
  | nil => rw [List.splitOn_nil, List.count_nil, List.length_singleton]
  | cons x xs ih =>
    rw [List.splitOn_cons_eq_if_modifyHead, List.count_cons]
    split_ifs
    · rw [List.length_cons, ih]
    · rw [List.length_modifyHead, ih, Nat.add_zero]

/-- There is one line more than there are newlines. -/
theorem Text.length_lines (t : Text) : t.lines.length = t.count '\n' + 1 := length_splitOn '\n' t

/-- No line of a text holds a newline. -/
theorem Text.newline_not_mem_of_mem_lines {t line : Text} (h : line ∈ t.lines) : '\n' ∉ line := by
  induction t using Text.lines_induction with
  | line t ht =>
    rw [Text.lines_of_not_mem ht, List.mem_singleton] at h
    rw [h]
    exact ht
  | newline a b ha ih =>
    rw [Text.lines_append_newline, Text.lines_of_not_mem ha, List.singleton_append, List.mem_cons] at h
    rcases h with rfl | h
    · exact ha
    · exact ih h

theorem Text.firstLine_of_not_mem {t : Text} (h : '\n' ∉ t) : t.firstLine = t :=
  List.takeWhile_eq_self_iff.mpr (fun _ hc => decide_eq_true (ne_of_mem_of_not_mem hc h))

theorem Text.firstLine_append_newline {a : Text} (h : '\n' ∉ a) (b : Text) : Text.firstLine (a ++ '\n' :: b) = a :=
  takeWhile_append_eq_left (fun _ hc => decide_eq_true (ne_of_mem_of_not_mem hc h)) (by simp)

theorem Text.lastLine_of_not_mem {t : Text} (h : '\n' ∉ t) : t.lastLine = t :=
  List.rtakeWhile_eq_self_iff.mpr (fun _ hc => decide_eq_true (ne_of_mem_of_not_mem hc h))

theorem Text.lastLine_append_newline (a b : Text) : Text.lastLine (a ++ '\n' :: b) = b.lastLine := by
  have h : (b.reverse ++ '\n' :: a.reverse).takeWhile (fun c => decide (c ≠ '\n')) =
      b.reverse.takeWhile (fun c => decide (c ≠ '\n')) := takeWhile_append_of_head _ (by simp)
  simp only [Text.lastLine, List.rtakeWhile, List.reverse_append, List.reverse_cons, List.append_assoc,
    List.singleton_append, h]

/-- Lists put together with a separator between any two of them, where some are followed by others. -/
theorem intercalate_append {α : Type} (s : List α) {xs ys : List (List α)} (hx : xs ≠ []) (hy : ys ≠ []) :
    s.intercalate (xs ++ ys) = s.intercalate xs ++ s ++ s.intercalate ys := by
  induction xs with
  | nil => exact absurd rfl hx
  | cons x xs ih =>
    by_cases h : xs = []
    · rw [h, List.singleton_append, List.intercalate_cons_of_ne_nil hy, List.intercalate_singleton]
    · rw [List.cons_append, List.intercalate_cons_of_ne_nil (List.append_ne_nil_of_left_ne_nil h ys), ih h,
        List.intercalate_cons_of_ne_nil h]
      simp only [List.append_assoc]

/-! ## Helpers: reading lines after others -/

/-- If no line fails, all lines are read. -/
theorem length_readLines {m : Mode} {lines : List Text} (h : (readLines m lines).failure = none) :
    (readLines m lines).lines.length = lines.length := by
  induction lines generalizing m with
  | nil => rfl
  | cons line rest ih =>
    cases hline : tokenizeLine m line with
    | error e =>
      rw [readLines_cons_of_error hline] at h
      cases h
    | ok l =>
      rw [readLines_cons_of_ok hline] at h ⊢
      rw [List.length_cons, List.length_cons, ih h]

/-- Lines after others are read if none of those fails, from the mode they leave. -/
theorem readLines_append (m : Mode) (xs ys : List Text) :
    readLines m (xs ++ ys) =
      match (readLines m xs).failure with
      | some _ => readLines m xs
      | none =>
        { readLines (readLines m xs).mode ys with
          lines := (readLines m xs).lines ++ (readLines (readLines m xs).mode ys).lines } := by
  induction xs generalizing m with
  | nil => rfl
  | cons line rest ih =>
    rw [List.cons_append]
    cases hline : tokenizeLine m line with
    | error e => rw [readLines_cons_of_error hline, readLines_cons_of_error hline]
    | ok l =>
      rw [readLines_cons_of_ok hline, readLines_cons_of_ok hline, ih]
      cases (readLines l.mode rest).failure with
      | some e => rfl
      | none => rfl

/-! ## Documents -/

/-- A document without newlines is a line, and its error is one of the first line. -/
theorem tokenizeDocument_of_not_mem {t : Text} (h : '\n' ∉ t) (m : Mode) :
    tokenizeDocument m t =
      match tokenizeLine m t with
      | .ok l => .ok l
      | .error e => .error (.atLine 1 e) := by
  unfold tokenizeDocument
  rw [Text.lines_of_not_mem h]
  cases hline : tokenizeLine m t with
  | error e =>
    rw [readLines_cons_of_error hline]
    rfl
  | ok l =>
    rw [readLines_cons_of_ok hline, readLines_nil]
    simp only [LinesRead.error?, Option.map_none, List.map_cons, List.map_nil, List.intercalate_singleton]

/-- A document with a newline in it is read up to there, and then, unless that failed, after it from the mode that was left.
In an error of the second part the lines before it count. -/
theorem tokenizeDocument_append_newline (m : Mode) (a b : Text) :
    tokenizeDocument m (a ++ '\n' :: b) =
      match tokenizeDocument m a with
      | .error e => .error e
      | .ok l =>
        match tokenizeDocument l.mode b with
        | .error e => .error (e.shiftLine (a.count '\n' + 1))
        | .ok l' => .ok ⟨l.tokens ++ Token.newLine :: l'.tokens, l'.mode⟩ := by
  unfold tokenizeDocument
  rw [Text.lines_append_newline, readLines_append]
  cases ha : (readLines m a.lines).failure with
  | some e => simp only [LinesRead.error?, ha, Option.map_some]
  | none =>
    have hlen : (readLines m a.lines).lines.length = a.count '\n' + 1 := by
      rw [length_readLines ha, Text.length_lines]
    simp only [LinesRead.error?, ha, Option.map_none]
    cases hb : (readLines (readLines m a.lines).mode b.lines).failure with
    | some e => simp only [Option.map_some, List.length_append, hlen, LexError.shiftLine, Nat.add_assoc]
    | none =>
      have hlen' : (readLines (readLines m a.lines).mode b.lines).lines.length = b.count '\n' + 1 := by
        rw [length_readLines hb, Text.length_lines]
      have hne : ((readLines m a.lines).lines.map (·.tokens)) ≠ [] := by
        rw [← List.length_pos_iff, List.length_map, hlen]
        omega
      have hne' : ((readLines (readLines m a.lines).mode b.lines).lines.map (·.tokens)) ≠ [] := by
        rw [← List.length_pos_iff, List.length_map, hlen']
        omega
      simp only [Option.map_none, List.map_append, intercalate_append _ hne hne', List.append_assoc,
        List.singleton_append]

/-- A document without newlines is read if the line is. -/
theorem tokenizeDocument_eq_ok_iff_of_not_mem {t : Text} (h : '\n' ∉ t) {m : Mode} {l : LineTokens} :
    tokenizeDocument m t = .ok l ↔ tokenizeLine m t = .ok l := by
  rw [tokenizeDocument_of_not_mem h]
  cases tokenizeLine m t with
  | error e => exact ⟨nofun, nofun⟩
  | ok l' => exact Iff.rfl

/-- The empty document has no tokens. -/
theorem tokenizeDocument_nil {m : Mode} (hm : m ≠ .uninitialized) : tokenizeDocument m [] = .ok ⟨[], m⟩ := by
  rw [tokenizeDocument_eq_ok_iff_of_not_mem List.not_mem_nil, tokenizeLine, Grammar.tokenizeLine, if_neg hm,
    Grammar.scan_nil]
  rfl

/-- A document with a newline in it is read if both parts are. -/
theorem tokenizeDocument_append_newline_eq_ok_iff {m m₂ : Mode} {a b : Text} {ts : List Token} :
    tokenizeDocument m (a ++ '\n' :: b) = .ok ⟨ts, m₂⟩ ↔
      ∃ ts₁ m₁ ts₂, tokenizeDocument m a = .ok ⟨ts₁, m₁⟩ ∧ tokenizeDocument m₁ b = .ok ⟨ts₂, m₂⟩ ∧
        ts₁ ++ Token.newLine :: ts₂ = ts := by
  rw [tokenizeDocument_append_newline]
  constructor
  · intro h
    cases ha : tokenizeDocument m a with
    | error e =>
      rw [ha] at h
      cases h
    | ok l =>
      simp only [ha] at h
      cases hb : tokenizeDocument l.mode b with
      | error e =>
        rw [hb] at h
        cases h
      | ok l' =>
        rw [hb] at h
        cases h
        exact ⟨l.tokens, l.mode, l'.tokens, rfl, hb, rfl⟩
  · rintro ⟨ts₁, m₁, ts₂, ha, hb, rfl⟩
    simp only [ha, hb]

/-! ## Documents at their newlines -/

/-- The error of a line has no line number. -/
theorem tokenizeLine_error_ne_atLine {m : Mode} {t : Text} {e : LexError} (h : tokenizeLine m t = .error e) (l : Nat)
    (e' : LexError) : e ≠ .atLine l e' := by
  unfold tokenizeLine Grammar.tokenizeLine Scan.result at h
  split_ifs at h
  · cases h
    exact nofun
  · cases h
    exact nofun

/-- The error of a document is the error of one of its lines, with the number of that line. -/
theorem tokenizeDocument_error {m : Mode} {t : Text} {e : LexError} (h : tokenizeDocument m t = .error e) :
    ∃ l e', e = .atLine l e' ∧ (∀ l' e'', e' ≠ .atLine l' e'') ∧ 1 ≤ l ∧ l ≤ t.count '\n' + 1 := by
  induction t using Text.lines_induction generalizing m e with
  | line t ht =>
    rw [tokenizeDocument_of_not_mem ht] at h
    cases hline : tokenizeLine m t with
    | ok l =>
      rw [hline] at h
      cases h
    | error e' =>
      rw [hline] at h
      cases h
      exact ⟨1, e', rfl, tokenizeLine_error_ne_atLine hline, Nat.le_refl 1, Nat.le_add_left 1 _⟩
  | newline a b ha ih =>
    rw [tokenizeDocument_append_newline, tokenizeDocument_of_not_mem ha] at h
    rw [List.count_append, List.count_cons_self]
    cases hline : tokenizeLine m a with
    | error e' =>
      rw [hline] at h
      cases h
      exact ⟨1, e', rfl, tokenizeLine_error_ne_atLine hline, Nat.le_refl 1, Nat.le_add_left 1 _⟩
    | ok l =>
      simp only [hline] at h
      cases hrest : tokenizeDocument l.mode b with
      | ok l' =>
        rw [hrest] at h
        cases h
      | error e' =>
        rw [hrest] at h
        cases h
        obtain ⟨n, e'', rfl, hne, hpos, hle⟩ := ih hrest
        refine ⟨a.count '\n' + 1 + n, e'', rfl, hne, ?_, ?_⟩
        · omega
        · omega

/-- At a newline a document is read in two parts. If the first fails, so does the whole, with the same error; otherwise the
second is read from the mode that the first leaves, the tokens are those of the two with one for the newline between them, of
category newline and length 1, and in an error of the second the lines of the first count. A document without newlines is a
line, and its error is one of line 1; every error of a document is that of a line, with one line number around it, which is that
of a line there is. -/
theorem tokenizeDocument_at_newline (m : Mode) (a b : Text) :
    (∀ e, tokenizeDocument m a = .error e → tokenizeDocument m (a ++ ['\n'] ++ b) = .error e) ∧
    (∀ A m₁, tokenizeDocument m a = .ok ⟨A, m₁⟩ →
      (∀ B m₂, tokenizeDocument m₁ b = .ok ⟨B, m₂⟩ →
        tokenizeDocument m (a ++ ['\n'] ++ b) = .ok ⟨A ++ [⟨.newLine, 1⟩] ++ B, m₂⟩) ∧
      (∀ l e, tokenizeDocument m₁ b = .error (.atLine l e) →
        tokenizeDocument m (a ++ ['\n'] ++ b) = .error (.atLine (a.count '\n' + 1 + l) e))) ∧
    ('\n' ∉ a → tokenizeDocument m a = (tokenizeLine m a).mapError (.atLine 1)) ∧
    (∀ e, tokenizeDocument m a = .error e →
      ∃ l e', e = .atLine l e' ∧ (∀ l' e'', e' ≠ .atLine l' e'') ∧ 1 ≤ l ∧ l ≤ a.count '\n' + 1) := by
  have happend : a ++ ['\n'] ++ b = a ++ '\n' :: b := List.append_assoc _ _ _
  rw [happend, tokenizeDocument_append_newline]
  refine ⟨?_, ?_, ?_, fun e he => tokenizeDocument_error he⟩
  · intro e he
    rw [he]
  · intro A m₁ hA
    simp only [hA, List.append_assoc, List.singleton_append]
    refine ⟨?_, ?_⟩
    · intro B m₂ hB
      rw [hB]
      rfl
    · intro l e he
      rw [he]
      rfl
  · intro ha
    rw [tokenizeDocument_of_not_mem ha]
    cases tokenizeLine m a <;> rfl

/-- A string open over a newline, with an empty line before it and the failure after it. -/
theorem tokenizeDocument_at_newline_in_string :
    tokenizeDocument .topLevel ['\n', '"', 'a', '\n', '"'] =
      .ok ⟨[⟨.newLine, 1⟩, ⟨.punctuation, 1⟩, ⟨.string, 1⟩, ⟨.newLine, 1⟩, ⟨.punctuation, 1⟩], .topLevel⟩ ∧
    tokenizeDocument .topLevel ['\n', '"', 'a', '\n', '"', '!'] =
      .error (.atLine 3 (.unmatched .topLevel 1 ['!'])) ∧
    tokenizeDocument .topLevel ['!', '\n', '"', '\n', '?'] =
      .error (.atLine 1 (.unmatched .topLevel 0 ['!'])) := by
  have hfirst : tokenizeDocument .topLevel ['\n', '"', 'a'] =
      .ok ⟨[⟨.newLine, 1⟩, ⟨.punctuation, 1⟩, ⟨.string, 1⟩], .quoted .double⟩ := by decide +kernel
  refine ⟨?_, ?_, ?_⟩
  · exact ((tokenizeDocument_at_newline .topLevel ['\n', '"', 'a'] ['"']).2.1 _ _ hfirst).1
      [⟨.punctuation, 1⟩] .topLevel (by decide +kernel)
  · exact ((tokenizeDocument_at_newline .topLevel ['\n', '"', 'a'] ['"', '!']).2.1 _ _ hfirst).2
      1 (.unmatched .topLevel 1 ['!']) (by decide +kernel)
  · exact (tokenizeDocument_at_newline .topLevel ['!'] ['"', '\n', '?']).1 _ (by decide +kernel)

end JuliaLexer
