import JuliaLexer.Proofs.Newline
import JuliaLexer.Proofs.Reading
import Mathlib.Data.List.Basic

/-!
# Mirror images: the two quotes exchanged

Nothing but their names tells the two quotes apart. The mirror image of a text has each quote replaced by the other one, and
likewise for modes and for errors. The mirror image of a lexeme is a lexeme (`Lexeme.mirror`), since the quotes are in no other
class of characters; so a mirrored text, read from the mirrored mode, gives the mirror image of what the text gives, both as a
line and as a document (`tokenize_mirror`).
-/

namespace JuliaLexer

/-- The other of the two quotes. -/
def Quote.other : Quote → Quote
  | .single => .double
  | .double => .single

/-- The other quote for a quote, and every other character for itself. -/
def mirrorChar (c : Char) : Char := if c = '\'' then '"' else if c = '"' then '\'' else c

/-- A text with the two quotes exchanged. -/
def Text.mirror (t : Text) : Text := t.map mirrorChar

/-- A mode with the two kinds of strings exchanged. -/
def Mode.mirror : Mode → Mode
  | .quoted q => .quoted q.other
  | m => m

/-- The same error in a mirrored text. -/
def LexError.mirror : LexError → LexError
  | .unmatched m column rest => .unmatched m.mirror column (Text.mirror rest)
  | .invalidMode code => .invalidMode code
  | .atLine line source => .atLine line source.mirror

/-- What is read in a mirrored text: the same tokens and the mirrored mode, or the same error in the mirrored text. -/
def mirrorAnswer : Except LexError LineTokens → Except LexError LineTokens
  | .ok l => .ok ⟨l.tokens, l.mode.mirror⟩
  | .error e => .error e.mirror

/-! ## Helpers: mirrored characters and texts -/

theorem mirrorChar_mark (q : Quote) : mirrorChar q.mark = q.other.mark := by
  cases q <;> rfl

/-- A character of a class without quotes is its own mirror image. -/
theorem mirrorChar_eq_self {P : Char → Prop} (hP : ∀ q : Quote, ¬P q.mark) {c : Char} (hc : P c) : mirrorChar c = c := by
  have hsingle : c ≠ '\'' := by
    rintro rfl
    exact hP .single hc
  have hdouble : c ≠ '"' := by
    rintro rfl
    exact hP .double hc
  unfold mirrorChar
  rw [if_neg hsingle, if_neg hdouble]

theorem mirrorChar_mirrorChar (c : Char) : mirrorChar (mirrorChar c) = c := by
  by_cases hc : ∃ q : Quote, c = q.mark
  · obtain ⟨q, rfl⟩ := hc
    cases q <;> rfl
  · have hself : mirrorChar c = c := mirrorChar_eq_self (P := fun d => ¬∃ q : Quote, d = q.mark) (fun q h => h ⟨q, rfl⟩) hc
    rw [hself, hself]

/-- A mirror image is in a class without quotes exactly if the character is. -/
theorem mirrorChar_iff {P : Char → Prop} (hP : ∀ q : Quote, ¬P q.mark) (c : Char) : P (mirrorChar c) ↔ P c := by
  constructor
  · intro h
    have hself := mirrorChar_eq_self hP h
    rw [mirrorChar_mirrorChar] at hself
    rw [hself]
    exact h
  · intro h
    rw [mirrorChar_eq_self hP h]
    exact h

/-- The mirror image is the other quote exactly if the character is the one. -/
theorem mirrorChar_eq_mark_iff (q : Quote) (c : Char) : mirrorChar c = q.other.mark ↔ c = q.mark := by
  rw [← mirrorChar_mark]
  exact (Function.LeftInverse.injective mirrorChar_mirrorChar).eq_iff

theorem Text.mirror_mirror (t : Text) : Text.mirror (Text.mirror t) = t := by
  unfold Text.mirror
  rw [List.map_map]
  exact List.map_id'' mirrorChar_mirrorChar t

theorem Text.mirror_append (a b : Text) : Text.mirror (a ++ b) = Text.mirror a ++ Text.mirror b := List.map_append

theorem Text.length_mirror (t : Text) : (Text.mirror t).length = t.length := List.length_map mirrorChar

/-- A text without quotes is its own mirror image. -/
theorem Text.mirror_eq_self {P : Char → Prop} (hP : ∀ q : Quote, ¬P q.mark) {t : Text} (ht : ∀ c ∈ t, P c) :
    Text.mirror t = t := by
  have hid : ∀ c ∈ t, mirrorChar c = id c := fun c hc => mirrorChar_eq_self hP (ht c hc)
  unfold Text.mirror
  rw [List.map_congr_left hid, List.map_id]

theorem Mode.mirror_mirror (m : Mode) : m.mirror.mirror = m := by
  rcases m with _ | _ | (_ | _) | _ <;> rfl

theorem Mode.mirror_eq_uninitialized_iff (m : Mode) : m.mirror = .uninitialized ↔ m = .uninitialized := by
  cases m <;> simp [Mode.mirror]

/-- If no character of a class comes next, its mirror image is none either. -/
theorem not_mirror_next {P : Char → Prop} (hP : ∀ q : Quote, ¬P q.mark) {n : Option Char} (hn : ∀ c ∈ n, ¬P c) :
    ∀ c ∈ n.map mirrorChar, ¬P c := by
  intro c hc
  obtain ⟨d, hd, rfl⟩ := Option.map_eq_some_iff.mp hc
  rw [mirrorChar_iff hP]
  exact hn d hd

theorem Quote.not_isSpace_mark (q : Quote) : ¬IsSpace q.mark := by
  cases q <;> decide

theorem Quote.not_isNameRest_mark (q : Quote) : ¬IsNameRest q.mark := by
  cases q <;> decide

theorem Quote.not_isPunctuation_mark (q : Quote) : ¬IsPunctuation q.mark := by
  cases q <;> decide

/-! ## Helpers: mirrored lexemes -/

/-- The mirror image of a lexeme is a lexeme of the same category. -/
theorem Lexeme.mirror {m m' : Mode} {k : Category} {l : Text} {n : Option Char} (h : Lexeme m k l m' n) :
    Lexeme m.mirror k (Text.mirror l) m'.mirror (n.map mirrorChar) := by
  have hword (q : Quote) : ¬IsWordChar q.mark := fun h => q.not_isNameRest_mark h.nameRest
  have hdigit (q : Quote) : ¬IsDigit q.mark := fun h => hword q (Or.inl h)
  cases h with
  | whitespace hne hl hn =>
    rw [Text.mirror_eq_self Quote.not_isSpace_mark hl]
    exact .whitespace hne hl (not_mirror_next Quote.not_isSpace_mark hn)
  | reserved hw hn =>
    rw [Text.mirror_eq_self hword hw.wordChars]
    exact .reserved hw (not_mirror_next hword hn)
  | name hstart hspace hl hn hr =>
    rw [Text.mirror_eq_self Quote.not_isNameRest_mark (List.forall_mem_cons.mpr ⟨hstart.nameRest, hl⟩)]
    exact .name hstart hspace hl (not_mirror_next Quote.not_isNameRest_mark hn) hr
  | numeric hne hl hn =>
    rw [Text.mirror_eq_self hdigit hl]
    exact .numeric hne hl (not_mirror_next hdigit hn)
  | punctuation hc =>
    rw [Text.mirror_eq_self Quote.not_isPunctuation_mark (List.forall_mem_singleton.mpr hc)]
    exact .punctuation hc
  | opening q =>
    have hmark : Text.mirror [q.mark] = [q.other.mark] := congrArg (fun c => [c]) (mirrorChar_mark q)
    rw [hmark]
    exact .opening q.other
  | closing q =>
    have hmark : Text.mirror [q.mark] = [q.other.mark] := congrArg (fun c => [c]) (mirrorChar_mark q)
    rw [hmark]
    exact .closing q.other
  | content q hne hl hn =>
    refine .content q.other (fun hnil => hne (List.map_eq_nil_iff.mp hnil)) ?_ ?_
    · intro c hc
      obtain ⟨d, hd, rfl⟩ := List.mem_map.mp hc
      exact fun hmark => hl d hd ((mirrorChar_eq_mark_iff q d).mp hmark)
    · intro c hc
      obtain ⟨d, hd, rfl⟩ := Option.map_eq_some_iff.mp hc
      exact (mirrorChar_eq_mark_iff q d).mpr (hn d hd)

/-! ## Helpers: mirrored scans -/

/-- In front of a mirrored text the step is taken that gives the same token and leads to the mirrored mode. -/
theorem Grammar.exists_step?_mirror {m : Mode} {t : Text} {s : Step} (h : Grammar.julia.step? m t = some s) :
    ∃ s', Grammar.julia.step? m.mirror (Text.mirror t) = some s' ∧ s'.token = s.token ∧
      (Text.mirror t).drop s'.lexeme.length = Text.mirror (t.drop s.lexeme.length) ∧
      s'.rule.next = s.rule.next.mirror := by
  have hlexeme := (Grammar.lexeme_of_step? h).mirror
  have hhead : (t.drop s.lexeme.length).head?.map mirrorChar = (Text.mirror (t.drop s.lexeme.length)).head? :=
    List.head?_map.symm
  rw [hhead] at hlexeme
  obtain ⟨s', hs', hl, hk, hnext⟩ := hlexeme.step?
  rw [← Text.mirror_append, Grammar.lexeme_append_drop h] at hs'
  have hlength : s'.lexeme.length = s.lexeme.length := by rw [hl, Text.length_mirror]
  refine ⟨s', hs', ?_, ?_, hnext⟩
  · have htoken (r : Step) : r.token = ⟨r.token.category, r.lexeme.length⟩ := rfl
    rw [htoken s', htoken s, hk, hlength]
  · rw [hlength]
    exact List.map_drop.symm

/-- Where no rule applies, none does in the mirrored text. -/
theorem Grammar.step?_mirror_eq_none {m : Mode} {t : Text} (h : Grammar.julia.step? m t = none) :
    Grammar.julia.step? m.mirror (Text.mirror t) = none := by
  cases hmirror : Grammar.julia.step? m.mirror (Text.mirror t) with
  | none => rfl
  | some s =>
    obtain ⟨s', hs', -⟩ := Grammar.exists_step?_mirror hmirror
    rw [Mode.mirror_mirror, Text.mirror_mirror, h] at hs'
    cases hs'

/-- A mirrored text is scanned into the same tokens, and the scan ends in the mirrored mode with the mirrored rest. -/
theorem Grammar.scan_mirror (m : Mode) (t : Text) :
    let scan := Grammar.julia.scan m t
    let scan' := Grammar.julia.scan m.mirror (Text.mirror t)
    scan'.tokens = scan.tokens ∧ scan'.mode = scan.mode.mirror ∧ scan'.rest = Text.mirror scan.rest := by
  induction m, t using Grammar.julia.scan_induction with
  | stop m t h =>
    rw [Grammar.scan_of_step?_eq_none h, Grammar.scan_of_step?_eq_none (Grammar.step?_mirror_eq_none h)]
    exact ⟨rfl, rfl, rfl⟩
  | step m t s h ih =>
    obtain ⟨s', hs', htoken, hdrop, hnext⟩ := Grammar.exists_step?_mirror h
    obtain ⟨htokens, hmode, hrest⟩ := ih
    rw [Grammar.scan_of_step?_eq_some h, Grammar.scan_of_step?_eq_some hs', hdrop, hnext]
    refine ⟨?_, hmode, hrest⟩
    unfold Scan.tokens at htokens ⊢
    rw [List.map_cons, List.map_cons, htoken, htokens]

/-- It ends at the same column. -/
theorem Grammar.column_scan_mirror (m : Mode) (t : Text) :
    (Grammar.julia.scan m.mirror (Text.mirror t)).column = (Grammar.julia.scan m t).column := by
  obtain ⟨-, -, hrest⟩ := Grammar.scan_mirror m t
  have hcolumn := Grammar.julia.column_add_length_rest m t
  have hcolumn' := Grammar.julia.column_add_length_rest m.mirror (Text.mirror t)
  rw [hrest, Text.length_mirror, Text.length_mirror] at hcolumn'
  omega

/-! ## Mirrored lines and documents -/

theorem tokenizeLine_mirror (m : Mode) (t : Text) :
    tokenizeLine m.mirror (Text.mirror t) = mirrorAnswer (tokenizeLine m t) := by
  obtain ⟨htokens, hmode, hrest⟩ := Grammar.scan_mirror m t
  have hnil : Text.mirror (Grammar.julia.scan m t).rest = [] ↔ (Grammar.julia.scan m t).rest = [] := List.map_eq_nil_iff
  unfold tokenizeLine Grammar.tokenizeLine Scan.result
  simp only [Mode.mirror_eq_uninitialized_iff, htokens, hmode, hrest, hnil, Grammar.column_scan_mirror]
  split_ifs with hm
  · rw [hm]
    rfl
  · rfl
  · rfl

theorem LexError.mirror_shiftLine (n : Nat) (e : LexError) : (e.shiftLine n).mirror = e.mirror.shiftLine n := by
  cases e <;> rfl

theorem Text.newline_not_mem_mirror {t : Text} (h : '\n' ∉ t) : '\n' ∉ Text.mirror t := by
  intro hmem
  obtain ⟨c, hc, hnewline⟩ := List.mem_map.mp hmem
  have hcn : c = '\n' := (mirrorChar_iff (P := (· = '\n')) Quote.mark_ne_newline c).mp hnewline
  exact h (hcn ▸ hc)

theorem Text.mirror_append_newline (a b : Text) :
    Text.mirror (a ++ '\n' :: b) = Text.mirror a ++ '\n' :: Text.mirror b := Text.mirror_append a ('\n' :: b)

theorem tokenizeDocument_mirror (m : Mode) (t : Text) :
    tokenizeDocument m.mirror (Text.mirror t) = mirrorAnswer (tokenizeDocument m t) := by
  induction t using Text.lines_induction generalizing m with
  | line t ht =>
    rw [tokenizeDocument_of_not_mem (Text.newline_not_mem_mirror ht), tokenizeDocument_of_not_mem ht, tokenizeLine_mirror]
    cases tokenizeLine m t <;> rfl
  | newline a b ha ih =>
    have ha' := Text.newline_not_mem_mirror ha
    rw [Text.mirror_append_newline, tokenizeDocument_append_newline, tokenizeDocument_append_newline,
      tokenizeDocument_of_not_mem ha', tokenizeDocument_of_not_mem ha, tokenizeLine_mirror,
      List.count_eq_zero_of_not_mem ha', List.count_eq_zero_of_not_mem ha]
    cases tokenizeLine m a with
    | error e => rfl
    | ok l =>
      simp only [mirrorAnswer, ih]
      cases tokenizeDocument l.mode b with
      | error e => simp only [LexError.mirror_shiftLine]
      | ok l' => rfl

/-- The two quotes are mirror images of each other. A text with the quotes exchanged, read from the mode with the kinds of
strings exchanged, as a line or as a document, is read exactly if the text is read from the mode, with the same tokens and the
mirrored mode after it; and where the one fails, the other does with the same error, of which the mode and what is left are
mirrored. -/
theorem tokenize_mirror (m : Mode) (t : Text) :
    tokenizeLine m.mirror (Text.mirror t) = mirrorAnswer (tokenizeLine m t) ∧
      tokenizeDocument m.mirror (Text.mirror t) = mirrorAnswer (tokenizeDocument m t) :=
  ⟨tokenizeLine_mirror m t, tokenizeDocument_mirror m t⟩

end JuliaLexer
