import JuliaLexer.Proofs.Reading

/-!
# Prefixes: a line cut short, and a line read on

Where a line is cut, its tokens are cut. The tokens that lie wholly in front of the cut stay as they are, and of the token
that the cut goes through the front part remains, as one token. It keeps its category unless it looks like a word: a part of a
name can be a reserved word and a part of a reserved word a name, so it is looked up again (`Category.ofPart`). Reading on
after any of the tokens, in the mode that they lead to, gives the tokens that are left. Both are said in
`tokenizeLine_take_drop`. What carries them is that a lexeme sees only the first of the characters after it
(`ReadsUpTo.replace_rest`).
-/

namespace JuliaLexer

/-- What the first `k` steps of the scan of a line give: their tokens, and the mode after them. -/
def lineUpTo (m : Mode) (t : Text) (k : Nat) : LineTokens :=
  let steps := (Grammar.julia.scan m t).steps.take k
  ⟨steps.map Step.token, steps.foldl (fun _ s => s.rule.next) m⟩

/-- How many of some tokens lie wholly in the first `p` characters. -/
def wholeTokens : List Token → Nat → Nat
  | [], _ => 0
  | x :: ts, p => if x.length ≤ p then wholeTokens ts (p - x.length) + 1 else 0

instance : DecidablePred Category.IsKeyword := fun k => decidable_of_iff _ k.isKeyword_iff.symm

/-- The category of the front part `l` of a token of category `k`. A part of a name or of a reserved word is looked up as a
word of its own. -/
def Category.ofPart (k : Category) (l : Text) : Category :=
  if k = .variableName ∨ k.IsKeyword then Category.ofWord l else k

/-! ## Helpers: parts of a lexeme -/

theorem Category.ofPart_of_isKeyword {k : Category} (h : k.IsKeyword) (l : Text) : k.ofPart l = Category.ofWord l :=
  if_pos (Or.inr h)

/-- A text that looks like a name is a lexeme, if the word it starts with is not a reserved one or is all of it. -/
theorem Lexeme.ofWord {c : Char} {l : Text} (hstart : IsNameStart c) (hspace : ¬IsSpace c) (hl : ∀ d ∈ l, IsNameRest d)
    (hword : IsReserved (Text.leadingWord (c :: l)) → Text.leadingWord (c :: l) = c :: l) :
    Lexeme .topLevel (Category.ofWord (c :: l)) (c :: l) .topLevel none := by
  by_cases hr : IsReserved (c :: l)
  · exact .reserved hr nofun
  · rw [Category.ofWord_of_not_isReserved hr]
    refine .name hstart hspace hl nofun ?_
    intro h
    rw [hword h] at h
    exact hr h

/-- The front part of a lexeme is a lexeme. Only white space, names, reserved words, numbers and content have such parts, and
none of these leads to another mode. -/
theorem Lexeme.ofPart {m m' : Mode} {k : Category} {a b : Text} {n : Option Char} (h : Lexeme m k (a ++ b) m' n)
    (ha : a ≠ []) (hb : b ≠ []) : m' = m ∧ Lexeme m (k.ofPart a) a m none := by
  generalize ht : a ++ b = t at h
  have hmem : ∀ c ∈ a, c ∈ t := fun c hc => ht ▸ List.mem_append_left _ hc
  -- a lexeme of one character has no front part
  have hone : ∀ c : Char, t ≠ [c] := by
    intro c hc
    have hlen := congrArg List.length (ht.trans hc)
    rw [List.length_append, List.length_singleton] at hlen
    have := List.length_pos_iff.mpr ha
    have := List.length_pos_iff.mpr hb
    omega
  cases h with
  | whitespace _ hl _ => exact ⟨rfl, .whitespace ha (fun c hc => hl c (hmem c hc)) nofun⟩
  | numeric _ hl _ => exact ⟨rfl, .numeric ha (fun c hc => hl c (hmem c hc)) nofun⟩
  | content q _ hl _ => exact ⟨rfl, .content q ha (fun c hc => hl c (hmem c hc)) nofun⟩
  | punctuation => exact absurd rfl (hone _)
  | opening => exact absurd rfl (hone _)
  | closing => exact absurd rfl (hone _)
  | reserved hw _ =>
    rw [Category.ofPart_of_isKeyword hw.isKeyword]
    obtain ⟨c, l, hcl, hstart, hspace⟩ := hw.exists_cons
    obtain ⟨d, a, rfl⟩ := List.exists_cons_of_ne_nil ha
    have hwords : ∀ e ∈ d :: a, IsWordChar e := fun e he => hw.wordChars e (hmem e he)
    obtain ⟨rfl, -⟩ := List.cons.inj (ht.trans hcl)
    exact ⟨rfl, Lexeme.ofWord hstart hspace (fun e he => (hwords e (List.mem_cons_of_mem _ he)).nameRest)
      (fun _ => Text.leadingWord_eq_self hwords)⟩
  | name hstart hspace hl _ hr =>
    obtain ⟨d, a, rfl⟩ := List.exists_cons_of_ne_nil ha
    rw [List.cons_append] at ht
    obtain ⟨rfl, rfl⟩ := List.cons.inj ht
    refine ⟨rfl, Lexeme.ofWord hstart hspace (fun e he => hl e (List.mem_append_left _ he)) ?_⟩
    intro hreserved
    by_contra hne
    rw [← List.cons_append, Text.leadingWord_append_of_ne hne] at hr
    exact hr hreserved

/-! ## Helpers: cuts of a reading -/

/-- Cut after any of its lexemes, a text is read into those. -/
theorem ReadsUpTo.atEnd {m m' : Mode} {t y : Text} {es : List Entry} (h : ReadsUpTo m t es m' y) :
    Reading m (es.flatMap (·.lexeme)) es m' := by
  have hnil := h.replace_rest (z := []) nofun
  rw [List.append_nil] at hnil
  exact hnil

/-- Cut inside a lexeme, a text is read into the lexemes before it and its front part. -/
theorem ReadsUpTo.inside {m m₁ m₂ : Mode} {t a b y : Text} {k : Category} {es : List Entry} {n : Option Char}
    (h : ReadsUpTo m t es m₁ (a ++ b ++ y)) (hl : Lexeme m₁ k (a ++ b) m₂ n) (ha : a ≠ []) (hb : b ≠ []) :
    Reading m (es.flatMap (·.lexeme) ++ a) (es ++ [⟨m₁, k.ofPart a, a, m₁⟩]) m₁ := by
  obtain ⟨-, hpart⟩ := hl.ofPart ha hb
  have hhead : ∀ c ∈ a.head?, c ∈ (a ++ b ++ y).head? := by
    intro c hc
    rw [List.append_assoc, List.head?_append_of_ne_nil a ha]
    exact hc
  refine (h.replace_rest hhead).append ?_
  exact ReadsUpTo.singleton_iff.mpr ⟨(List.append_nil a).symm, rfl, rfl, hpart⟩

/-- The mode after a reading is that after its last entry. -/
theorem ReadsUpTo.mode_eq {m m' : Mode} {t y : Text} {es : List Entry} (h : ReadsUpTo m t es m' y) :
    m' = es.foldl (fun _ e => e.after) m := by
  induction h with
  | nil => rfl
  | cons _ _ ih => exact ih

/-! ## Helpers: the first steps of a scan -/

theorem entriesFrom_take (m : Mode) (steps : List Step) (k : Nat) :
    entriesFrom m (steps.take k) = (entriesFrom m steps).take k := by
  induction steps generalizing m k with
  | nil => simp [entriesFrom]
  | cons s steps ih =>
    cases k with
    | zero => rfl
    | succ k => simp only [List.take_succ_cons, entriesFrom, ih]

theorem foldl_entriesFrom (m m' : Mode) (steps : List Step) :
    (entriesFrom m steps).foldl (fun _ e => e.after) m' = steps.foldl (fun _ s => s.rule.next) m' := by
  induction steps generalizing m m' with
  | nil => rfl
  | cons s steps ih => exact ih _ _

/-- The first steps of a scan give the first entries of the reading. -/
theorem Reading.lineUpTo_eq {m m' : Mode} {t : Text} {es : List Entry} (h : Reading m t es m') (k : Nat) :
    lineUpTo m t k = ⟨(es.take k).map Entry.token, (es.take k).foldl (fun _ e => e.after) m⟩ := by
  obtain ⟨-, -, rfl⟩ := reading_iff_scan.mp h
  rw [← entriesFrom_take, map_token_entriesFrom, foldl_entriesFrom]
  rfl

/-- A reading can be interrupted after any number of its entries, in the mode that the scan has reached there. -/
theorem Reading.interrupt {m m' : Mode} {t : Text} {es : List Entry} (h : Reading m t es m') (k : Nat) :
    ∃ y, ReadsUpTo m t (es.take k) (lineUpTo m t k).mode y ∧ Reading (lineUpTo m t k).mode y (es.drop k) m' ∧
      (lineUpTo m t k).extent = ((es.take k).flatMap (·.lexeme)).length := by
  have hsplit : ReadsUpTo m t (es.take k ++ es.drop k) m' [] := by
    rw [List.take_append_drop]
    exact h
  obtain ⟨m₁, y, hfirst, hrest⟩ := hsplit.exists_of_append
  have hmode : (lineUpTo m t k).mode = m₁ := by
    rw [h.lineUpTo_eq, hfirst.mode_eq]
  refine ⟨y, hmode ▸ hfirst, hmode ▸ hrest, ?_⟩
  rw [h.lineUpTo_eq, LineTokens.extent_map_token]

/-! ## Helpers: whole tokens -/

theorem LineTokens.extent_cons (x : Token) (ts : List Token) (m : Mode) :
    LineTokens.extent ⟨x :: ts, m⟩ = x.length + LineTokens.extent ⟨ts, m⟩ := rfl

/-- The tokens that lie wholly in the first `p` characters end there or before, and the next one goes on beyond. -/
theorem wholeTokens_spec (ts : List Token) (m : Mode) (p : Nat) :
    LineTokens.extent ⟨ts.take (wholeTokens ts p), m⟩ ≤ p ∧
      ∀ x ∈ ts[wholeTokens ts p]?, p < LineTokens.extent ⟨ts.take (wholeTokens ts p), m⟩ + x.length := by
  induction ts generalizing p with
  | nil => exact ⟨Nat.zero_le p, nofun⟩
  | cons x ts ih =>
    rw [wholeTokens]
    split_ifs with h
    · obtain ⟨hwhole, hnext⟩ := ih (p - x.length)
      rw [List.take_succ_cons, LineTokens.extent_cons, List.getElem?_cons_succ]
      refine ⟨by omega, ?_⟩
      intro y hy
      have := hnext y hy
      omega
    · refine ⟨Nat.zero_le p, ?_⟩
      intro y hy
      cases hy
      exact Nat.lt_add_left _ (Nat.lt_of_not_le h)

/-- Cut anywhere, a text is read into the entries that lie wholly in front of the cut and, if the cut goes through the next
entry, its front part. -/
theorem Reading.take {m m' : Mode} {t : Text} {es : List Entry} (h : Reading m t es m') {p k : Nat} (hp : p ≤ t.length)
    (hk : wholeTokens (es.map Entry.token) p = k) :
    ((lineUpTo m t k).extent = p ∧ Reading m (t.take p) (es.take k) (lineUpTo m t k).mode) ∨
      ∃ e a b, es[k]? = some e ∧ e.lexeme = a ++ b ∧ a ≠ [] ∧ b ≠ [] ∧ p = (lineUpTo m t k).extent + a.length ∧
        a = (t.take p).drop (lineUpTo m t k).extent ∧
        Reading m (t.take p) (es.take k ++ [⟨(lineUpTo m t k).mode, e.category.ofPart a, a, (lineUpTo m t k).mode⟩])
          (lineUpTo m t k).mode := by
  obtain ⟨y, hfirst, hrest, hextent⟩ := h.interrupt k
  obtain ⟨hwhole, hnext⟩ := wholeTokens_spec (es.map Entry.token) (lineUpTo m t k).mode p
  rw [hk, ← List.map_take, LineTokens.extent_map_token, ← hextent] at hwhole hnext
  have ht : (es.take k).flatMap (·.lexeme) ++ y = t := hfirst.flatMap_append
  rcases Nat.eq_or_lt_of_le hwhole with heq | hlt
  · have htake : t.take p = (es.take k).flatMap (·.lexeme) := by rw [← ht, ← heq, hextent, List.take_left]
    exact Or.inl ⟨heq, htake ▸ hfirst.atEnd⟩
  · generalize hdrop : es.drop k = fs at hrest
    cases hrest with
    | nil =>
      -- nothing is left after the whole tokens, so they cover all of the text
      rw [List.append_nil] at ht
      rw [← ht, ← hextent] at hp
      omega
    | @cons _ m₂ _ c l z _ _ hl _ =>
      have hget : es[k]? = some ⟨(lineUpTo m t k).mode, c, l, m₂⟩ := by
        rw [← List.head?_drop, hdrop, List.head?_cons]
      have hlt' : p < (lineUpTo m t k).extent + l.length := hnext ⟨c, l.length⟩ (by rw [List.getElem?_map, hget]; rfl)
      obtain ⟨d, rfl⟩ := Nat.exists_eq_add_of_le hwhole
      have hlen : (l.take d).length = d := List.length_take_of_le (by omega)
      have ha : l.take d ≠ [] := List.ne_nil_of_length_pos (by omega)
      have hb : l.drop d ≠ [] := List.ne_nil_of_length_pos (by rw [List.length_drop]; omega)
      have htake : t.take ((lineUpTo m t k).extent + d) = (es.take k).flatMap (·.lexeme) ++ l.take d := by
        rw [hextent, ← ht, List.take_length_add_append, List.take_append_of_le_length (by omega)]
      have hcut : l.take d ++ l.drop d = l := List.take_append_drop d l
      rw [← hcut] at hfirst hl
      refine Or.inr ⟨_, l.take d, l.drop d, hget, hcut.symm, ha, hb, by rw [hlen], ?_, ?_⟩
      · rw [htake, hextent, List.drop_left]
      · rw [htake]
        exact hfirst.inside hl ha hb

/-! ## Lines cut short and read on -/

/-- Let a line be tokenized. Its first `p` characters are tokenized into the tokens that lie wholly in them and, unless these
already cover them, one more of the missing length: the front part of the next token, with its category, or with that of the
part as a word if the token is a name or a reserved word. The mode is that after the whole tokens. And the line is read on
after any of its tokens, in the mode after them, into the tokens that are left and to the same final mode. -/
theorem tokenizeLine_take_drop (m m' : Mode) (t : Text) (ts : List Token) (h : tokenizeLine m t = .ok ⟨ts, m'⟩) :
    (∀ k, (lineUpTo m t k).tokens = ts.take k) ∧
    (∀ p ≤ t.length,
      let whole := lineUpTo m t (wholeTokens ts p)
      (whole.extent = p ∧ tokenizeLine m (t.take p) = .ok whole) ∨
      ∃ x, ts[wholeTokens ts p]? = some x ∧ whole.extent < p ∧ p < whole.extent + x.length ∧
        tokenizeLine m (t.take p) =
          .ok ⟨whole.tokens ++ [⟨x.category.ofPart ((t.take p).drop whole.extent), p - whole.extent⟩], whole.mode⟩) ∧
    (∀ k, tokenizeLine (lineUpTo m t k).mode (t.drop (lineUpTo m t k).extent) = .ok ⟨ts.drop k, m'⟩) := by
  obtain ⟨hm, es, hread, rfl⟩ := tokenizeLine_eq_ok_iff.mp h
  refine ⟨?_, ?_, ?_⟩
  · intro k
    rw [hread.lineUpTo_eq, List.map_take]
  · intro p hp
    have htokens (k : Nat) : (lineUpTo m t k).tokens = (es.take k).map Entry.token := by rw [hread.lineUpTo_eq]
    rcases hread.take hp rfl with ⟨hextent, htake⟩ | ⟨e, a, b, he, hab, ha, hb, hp, hdrop, htake⟩
    · exact Or.inl ⟨hextent, tokenizeLine_eq_ok_iff.mpr ⟨hm, _, htake, (htokens _).symm⟩⟩
    · have hpos : 0 < a.length := List.length_pos_iff.mpr ha
      have hlen : e.token.length = a.length + b.length := by rw [Entry.token, hab, List.length_append]
      have hposb : 0 < b.length := List.length_pos_iff.mpr hb
      refine Or.inr ⟨e.token, ?_, by omega, by omega, ?_⟩
      · rw [List.getElem?_map, he, Option.map_some]
      · rw [← hdrop, htokens]
        refine tokenizeLine_eq_ok_iff.mpr ⟨hm, _, htake, ?_⟩
        have hmissing : p - (lineUpTo m t (wholeTokens (es.map Entry.token) p)).extent = a.length := by omega
        rw [List.map_append, List.map_singleton, hmissing]
        rfl
  · intro k
    obtain ⟨y, hfirst, hrest, hextent⟩ := hread.interrupt k
    have hdrop : t.drop (lineUpTo m t k).extent = y := by
      rw [hextent, ← hfirst.flatMap_append, List.drop_left]
    rw [hdrop]
    exact tokenizeLine_eq_ok_iff.mpr ⟨hfirst.ne_uninitialized hm, _, hrest, List.map_drop⟩

/-- A name cut where a reserved word ends becomes that word; the line is read on in front of the name's white space. -/
theorem tokenizeLine_take_name :
    tokenizeLine .topLevel ['i', 'n', 'α', ' ', 'e', 'n', 'd', 's'] =
      .ok ⟨[⟨.keywordOperator, 2⟩, ⟨.variableName, 1⟩, ⟨.whitespace, 1⟩, ⟨.variableName, 4⟩], .topLevel⟩ ∧
    tokenizeLine .topLevel ['i', 'n', 'α', ' ', 'e', 'n', 'd'] =
      .ok ⟨[⟨.keywordOperator, 2⟩, ⟨.variableName, 1⟩, ⟨.whitespace, 1⟩, ⟨.keywordControl, 3⟩], .topLevel⟩ ∧
    tokenizeLine .topLevel [' ', 'e', 'n', 'd', 's'] = .ok ⟨[⟨.whitespace, 1⟩, ⟨.variableName, 4⟩], .topLevel⟩ := by
  have hline : tokenizeLine .topLevel ['i', 'n', 'α', ' ', 'e', 'n', 'd', 's'] =
      .ok ⟨[⟨.keywordOperator, 2⟩, ⟨.variableName, 1⟩, ⟨.whitespace, 1⟩, ⟨.variableName, 4⟩], .topLevel⟩ := by
    decide +kernel
  have htwo : lineUpTo .topLevel ['i', 'n', 'α', ' ', 'e', 'n', 'd', 's'] 2 =
      ⟨[⟨.keywordOperator, 2⟩, ⟨.variableName, 1⟩], .topLevel⟩ := by decide +kernel
  obtain ⟨-, htake, hdrop⟩ := tokenizeLine_take_drop _ _ _ _ hline
  refine ⟨hline, ?_, ?_⟩
  · rcases htake 7 (by decide) with ⟨hextent, -⟩ | ⟨x, hx, -, -, hcut⟩
    · exact absurd hextent (by decide +kernel)
    · cases hx
      exact hcut.trans (by decide +kernel)
  · have hrest := hdrop 2
    rw [htwo] at hrest
    exact hrest

end JuliaLexer
