import JuliaLexer.Proofs.LineRun
import Mathlib.Data.List.Forall2

/-!
# Tilings: the tokens of a text lie side by side over it

Tokens have no places, only lengths, so what stands where is told by the lengths of all tokens before. That works because no
character of a text is left out and none is counted twice: cut at the lengths of its tokens, a document falls into pieces of
just these lengths, and the tokens of newlines have the newlines under them and no others do (`Token.Tiles`). What stands
between two of these is what the line there is read into, from the mode that the lines before it leave (`tokens_tile_text`).
-/

namespace JuliaLexer

/-- `x.Covers p`: the token `x` has the length of the characters `p`, of which there is at least one. -/
structure Token.Covers (x : Token) (p : Text) : Prop where
  ne_nil : p ≠ []
  length_eq : x.length = p.length

/-- `x.Tiles p`: the token `x` of a document covers the characters `p`. It is the token of a newline exactly if they are a
newline, and otherwise there is no newline among them. -/
structure Token.Tiles (x : Token) (p : Text) : Prop extends x.Covers p where
  newLine_iff : x.category = .newLine ↔ p = ['\n']
  newline_not_mem : x.category ≠ .newLine → '\n' ∉ p

/-- `l.Fill t`: the tokens of `l` are as long as the text `t` together, and none of them is empty. As a 64-bit word the sum of
their lengths is never larger than that of the text, and it is exact wherever that fits into such a word. -/
structure LineTokens.Fill (l : LineTokens) (t : Text) : Prop where
  length_pos : ∀ x ∈ l.tokens, 0 < x.length
  extent_eq : l.extent = t.length
  covered_le : l.covered.toNat ≤ t.length
  covered_eq : t.length < UInt64.size → l.covered.toNat = t.length

/-! ## Helpers: tokens over pieces of a text -/

theorem Token.Covers.length_pos {x : Token} {p : Text} (h : x.Covers p) : 0 < x.length :=
  h.length_eq ▸ List.length_pos_iff.mpr h.ne_nil

theorem Token.tiles_newLine : Token.newLine.Tiles ['\n'] where
  ne_nil := List.cons_ne_nil _ _
  length_eq := rfl
  newLine_iff := ⟨fun _ => rfl, fun _ => rfl⟩
  newline_not_mem := fun h => absurd rfl h

/-- The token of a lexeme without newlines lies over it. -/
theorem Lexeme.tiles {m m' : Mode} {k : Category} {l : Text} {n : Option Char} (h : Lexeme m k l m' n) (hl : '\n' ∉ l) :
    Token.Tiles ⟨k, l.length⟩ l where
  ne_nil := h.ne_nil
  length_eq := rfl
  newLine_iff := by
    refine ⟨fun hk => absurd hk h.category_ne.2.2, ?_⟩
    rintro rfl
    exact absurd List.mem_cons_self hl
  newline_not_mem := fun _ => hl

/-- Cut at the lengths of tokens, the pieces that these cover one by one come apart again. -/
theorem cut_flatten_of_covers {ts : List Token} {ps : List Text} (h : List.Forall₂ Token.Covers ts ps) :
    Text.cut (ts.map (·.length)) ps.flatten = ps := by
  have hlengths : ts.map (·.length) = ps.map List.length := by
    induction h with
    | nil => rfl
    | cons hxp _ ih => rw [List.map_cons, List.map_cons, hxp.length_eq, ih]
  rw [hlengths, Text.cut_flatten]

/-- Tokens that cover some pieces are as long together as the pieces are. -/
theorem extent_of_covers {ts : List Token} {ps : List Text} (h : List.Forall₂ Token.Covers ts ps) (m : Mode) :
    LineTokens.extent ⟨ts, m⟩ = ps.flatten.length := by
  induction h with
  | nil => rfl
  | cons hxp _ ih =>
    rw [List.flatten_cons, List.length_append, ← hxp.length_eq, ← ih]
    rfl

/-- Tokens fill a text that falls into pieces which they cover one by one. -/
theorem LineTokens.fill_flatten {l : LineTokens} {ps : List Text} (h : List.Forall₂ Token.Covers l.tokens ps) :
    l.Fill ps.flatten where
  length_pos := ((List.forall₂_and_left l.tokens ps).mp (h.imp (fun _ _ hxp => ⟨hxp.length_pos, hxp⟩))).1
  extent_eq := extent_of_covers h l.mode
  covered_le := by
    rw [LineTokens.covered, extent_of_covers h l.mode]
    exact Nat.mod_le _ _
  covered_eq := by
    intro hlt
    rw [LineTokens.covered, extent_of_covers h l.mode]
    exact Nat.mod_eq_of_lt hlt

/-! ## Helpers: the pieces of lines and documents -/

/-- A line falls into pieces that stand to its tokens as lexemes do. -/
theorem exists_pieces_of_tokenizeLine {R : Token → Text → Prop} {m : Mode} {t : Text} {l : LineTokens}
    (h : tokenizeLine m t = .ok l)
    (hR : ∀ {m₁ k p m₂ n}, Lexeme m₁ k p m₂ n → (∀ c ∈ p, c ∈ t) → R ⟨k, p.length⟩ p) :
    ∃ ps : List Text, ps.flatten = t ∧ List.Forall₂ R l.tokens ps := by
  obtain ⟨-, es, hread, htokens⟩ := tokenizeLine_eq_ok_iff.mp h
  have hflatten : (es.map (·.lexeme)).flatten = t := by rw [← List.flatMap_def, hread.flatMap_lexeme]
  refine ⟨_, hflatten, ?_⟩
  rw [← htokens, List.forall₂_map_left_iff, List.forall₂_map_right_iff, List.forall₂_same]
  intro e he
  obtain ⟨m₁, n, hl⟩ := hread.exists_lexeme he
  exact hR hl (fun c hc => hflatten ▸ List.mem_flatten_of_mem (List.mem_map_of_mem he) hc)

/-- The tokens of a line fill it. -/
theorem fill_of_tokenizeLine {m : Mode} {t : Text} {l : LineTokens} (h : tokenizeLine m t = .ok l) : l.Fill t := by
  obtain ⟨ps, rfl, hps⟩ := exists_pieces_of_tokenizeLine (R := Token.Covers) h (fun hl _ => ⟨hl.ne_nil, rfl⟩)
  exact LineTokens.fill_flatten hps

/-- A document falls into pieces that its tokens lie over. -/
theorem exists_pieces_of_tokenizeDocument {m : Mode} {t : Text} {l : LineTokens} (h : tokenizeDocument m t = .ok l) :
    ∃ ps : List Text, ps.flatten = t ∧ List.Forall₂ Token.Tiles l.tokens ps := by
  induction t using Text.lines_induction generalizing m l with
  | line t ht =>
    rw [tokenizeDocument_eq_ok_iff_of_not_mem ht] at h
    exact exists_pieces_of_tokenizeLine h (fun hl hmem => hl.tiles (fun hc => ht (hmem _ hc)))
  | newline a b ha ih =>
    obtain ⟨ts₁, m₁, ts₂, hfirst, hrest, htokens⟩ := tokenizeDocument_append_newline_eq_ok_iff.mp h
    rw [tokenizeDocument_eq_ok_iff_of_not_mem ha] at hfirst
    obtain ⟨ps₁, rfl, hps₁⟩ :=
      exists_pieces_of_tokenizeLine hfirst (fun hl hmem => hl.tiles (fun hc => ha (hmem _ hc)))
    obtain ⟨ps₂, rfl, hps₂⟩ := ih hrest
    refine ⟨ps₁ ++ ['\n'] :: ps₂, ?_, ?_⟩
    · rw [List.flatten_append, List.flatten_cons, List.singleton_append]
    · rw [← htokens]
      exact List.rel_append hps₁ (.cons Token.tiles_newLine hps₂)

/-- The tokens between the newlines of a document are those of its lines, read one after another. -/
theorem exists_lineRun_of_tokenizeDocument {m : Mode} {t : Text} {l : LineTokens} (h : tokenizeDocument m t = .ok l) :
    ∃ ls, LineRun m ls l.mode ∧ ls.map (·.text) = t.lines ∧ ls.map (·.tokens) = l.tokens.splitOn Token.newLine := by
  unfold tokenizeDocument at h
  cases hfailure : (readLines m t.lines).failure with
  | some e =>
    simp only [LinesRead.error?, hfailure, Option.map_some] at h
    cases h
  | none =>
    simp only [LinesRead.error?, hfailure, Option.map_none] at h
    cases h
    have hrun := lineRun_readLines m t.lines
    have htexts := map_text_readLines_of_failure_eq_none hfailure
    refine ⟨_, hrun, htexts, (hrun.splitOn_tokens ?_).symm⟩
    intro hnil
    rw [hnil] at htexts
    exact t.lines_ne_nil htexts.symm

/-! ## Tokens side by side -/

/-- The tokens of a document lie side by side over it. None of them is empty, their lengths sum up to that of the document,
and cut at these lengths the document falls into pieces, where a token is that of a newline exactly if its piece is a newline,
and no other piece holds one. Between the tokens of newlines stand those of the lines, each read from the mode that the lines
before it leave. The tokens of a line take it up likewise, and none of them is that of a newline. -/
theorem tokens_tile_text (m : Mode) (t : Text) :
    (∀ l, tokenizeDocument m t = .ok l →
      l.Fill t ∧
      (Text.cut (l.tokens.map (·.length)) t).flatten = t ∧
      List.Forall₂ Token.Tiles l.tokens (Text.cut (l.tokens.map (·.length)) t) ∧
      ∃ ls, LineRun m ls l.mode ∧ ls.map (·.text) = t.lines ∧ ls.map (·.tokens) = l.tokens.splitOn ⟨.newLine, 1⟩) ∧
    (∀ l, tokenizeLine m t = .ok l → l.Fill t ∧ ∀ x ∈ l.tokens, x.category ≠ .newLine) := by
  refine ⟨?_, ?_⟩
  · intro l h
    obtain ⟨ps, rfl, hps⟩ := exists_pieces_of_tokenizeDocument h
    have hcovers : List.Forall₂ Token.Covers l.tokens ps := hps.imp (fun _ _ hxp => hxp.toCovers)
    rw [cut_flatten_of_covers hcovers]
    exact ⟨LineTokens.fill_flatten hcovers, rfl, hps, exists_lineRun_of_tokenizeDocument h⟩
  · intro l h
    exact ⟨fill_of_tokenizeLine h, fun x hx => (category_ne_of_tokenizeLine h x hx).2.2⟩

/-- A string that is left open over two newlines, and a newline that is white space within a line. -/
theorem tokens_tile_text_of_open_string :
    (∃ l, tokenizeDocument .topLevel ['"', 'é', '\n', '\n'] = .ok l ∧ l.extent = 4 ∧
      List.Forall₂ Token.Tiles l.tokens [['"'], ['é'], ['\n'], ['\n']]) ∧
    ∃ l, tokenizeLine .topLevel ['a', '\n'] = .ok l ∧ l.extent = 2 ∧ ∀ x ∈ l.tokens, x.category ≠ .newLine := by
  have hdocument : tokenizeDocument .topLevel ['"', 'é', '\n', '\n'] =
      .ok ⟨[⟨.punctuation, 1⟩, ⟨.string, 1⟩, ⟨.newLine, 1⟩, ⟨.newLine, 1⟩], .quoted .double⟩ := by decide +kernel
  have hline : tokenizeLine .topLevel ['a', '\n'] = .ok ⟨[⟨.variableName, 1⟩, ⟨.whitespace, 1⟩], .topLevel⟩ := by
    decide +kernel
  obtain ⟨hfill, -, hpieces, -⟩ := (tokens_tile_text _ _).1 _ hdocument
  obtain ⟨hfill', hcategory⟩ := (tokens_tile_text _ _).2 _ hline
  exact ⟨⟨_, hdocument, hfill.extent_eq, hpieces⟩, _, hline, hfill'.extent_eq, hcategory⟩

end JuliaLexer
