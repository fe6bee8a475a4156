import JuliaLexer.Scan
import JuliaLexer.Proofs.Lexeme

/-!
# Lookahead: how far a step sees

The step taken at the start of a text is that of the first rule that finds a lexeme there (`Grammar.FirstRule`). It stays the
same when what follows its lexeme is replaced, as long as the first character of that is kept or nothing is left
(`Grammar.step?_replace_rest`, `Grammar.firstRule_sees_one_character`), although a pattern that was tried before it and found
nothing may have looked further. So the part of a text that a scan has taken is taken apart by the same steps when it stands
alone (`Grammar.scan_flatMap_lexeme`).
-/

namespace JuliaLexer

/-- `g.FirstRule m t r l`: of the rules of mode `m`, in their order, `r` is the first one that finds a lexeme at the start of
the text `t`, and it finds `l`. -/
def Grammar.FirstRule (g : Grammar) (m : Mode) (t : Text) (r : Rule) (l : Text) : Prop :=
  ∃ before after, g.rules m = before ++ r :: after ∧ r.pattern.lexeme? t = some l ∧
    ∀ r' ∈ before, r'.pattern.lexeme? t = none

/-! ## The first rule that applies -/

theorem Rule.step?_eq_none_iff {r : Rule} {t : Text} : r.step? t = none ↔ r.pattern.lexeme? t = none := by
  unfold Rule.step?
  exact Option.map_eq_none_iff

theorem Rule.step?_eq_some_iff {r : Rule} {t : Text} {s : Step} :
    r.step? t = some s ↔ s.rule = r ∧ r.pattern.lexeme? t = some s.lexeme := by
  constructor
  · exact Rule.step?_eq_some
  · rintro ⟨rfl, hl⟩
    unfold Rule.step?
    rw [hl]
    rfl

/-- The step taken is that of the first rule that applies. -/
theorem Grammar.step?_eq_some_iff {g : Grammar} {m : Mode} {t : Text} {s : Step} :
    g.step? m t = some s ↔ g.FirstRule m t s.rule s.lexeme := by
  unfold Grammar.step? Grammar.FirstRule
  simp only [List.findSome?_eq_some_iff, Rule.step?_eq_some_iff, Rule.step?_eq_none_iff]
  constructor
  · rintro ⟨before, r, after, hrules, ⟨rfl, hl⟩, hbefore⟩
    exact ⟨before, after, hrules, hl, hbefore⟩
  · rintro ⟨before, after, hrules, hl, hbefore⟩
    exact ⟨before, s.rule, after, hrules, ⟨rfl, hl⟩, hbefore⟩

/-! ## What follows a lexeme -/

/-- The first character of a text and the category of its first token tell which rule was applied. -/
theorem Grammar.rule_eq_of_category_eq {m : Mode} {c : Char} {t t' : Text} {s s' : Step}
    (h : Grammar.julia.step? m (c :: t) = some s) (h' : Grammar.julia.step? m (c :: t') = some s')
    (hk : s.token.category = s'.token.category) : s.rule = s'.rule := by
  cases m with
  | uninitialized => cases h
  | tripleQuoted => cases h
  | topLevel =>
    rw [Grammar.step?_topLevel_cons] at h h'
    cases hc : Start.of c with
    | name =>
      -- the one start that two rules have in common; a reserved word has not the category of names
      simp only [hc] at h h'
      split_ifs at h h' with hr hr' hr'
      · cases h
        cases h'
        rfl
      · cases h
        cases h'
        exact absurd hk hr.isKeyword.ne.2.1
      · cases h
        cases h'
        exact absurd hk.symm hr'.isKeyword.ne.2.1
      · cases h
        cases h'
        rfl
    | stray => simp [hc] at h
    | _ =>
      simp only [hc, Option.some.injEq] at h h'
      subst h h'
      rfl
  | quoted q =>
    rw [Grammar.step?_quoted_cons] at h h'
    split_ifs at h h'
    · cases h
      cases h'
      rfl
    · cases h
      cases h'
      rfl

/-- A step is taken as well in front of another text after its lexeme, if that starts with the same character or is empty. -/
theorem Grammar.step?_replace_rest {m : Mode} {y z : Text} {s : Step}
    (h : Grammar.julia.step? m (s.lexeme ++ y) = some s) (hz : ∀ c ∈ z.head?, c ∈ y.head?) :
    Grammar.julia.step? m (s.lexeme ++ z) = some s := by
  have hlexeme := Grammar.lexeme_of_step? h
  rw [List.drop_left] at hlexeme
  obtain ⟨s', hs', hl, hk, -⟩ := (hlexeme.of_subset hz).step?
  obtain ⟨c, l, hcl⟩ := List.exists_cons_of_ne_nil hlexeme.ne_nil
  have hrule : s'.rule = s.rule := by
    rw [hcl, List.cons_append] at h hs'
    exact Grammar.rule_eq_of_category_eq hs' h hk
  rw [hs']
  cases s
  cases s'
  cases hrule
  cases hl
  rfl

/-- The part of a text that a scan has taken is scanned by the same steps, and nothing of it is left. -/
theorem Grammar.scan_flatMap_lexeme (m : Mode) (t : Text) :
    Grammar.julia.scan m ((Grammar.julia.scan m t).steps.flatMap (·.lexeme)) =
      { Grammar.julia.scan m t with rest := [] } := by
  induction m, t using Grammar.julia.scan_induction with
  | stop m t h =>
    rw [Grammar.scan_of_step?_eq_none h]
    exact Grammar.scan_nil _ m
  | step m t s h ih =>
    rw [Grammar.scan_of_step?_eq_some h]
    have hrest := Grammar.julia.scan_append_rest s.rule.next (t.drop s.lexeme.length)
    generalize Grammar.julia.scan s.rule.next (t.drop s.lexeme.length) = rest at ih hrest ⊢
    have hs : Grammar.julia.step? m (s.lexeme ++ rest.steps.flatMap (·.lexeme)) = some s := by
      refine Grammar.step?_replace_rest (y := t.drop s.lexeme.length) ?_ ?_
      · rw [Grammar.lexeme_append_drop h]
        exact h
      · intro c hc
        rw [← hrest, List.head?_append, Option.mem_def.mp hc]
        rfl
    rw [List.flatMap_cons, Grammar.scan_of_step?_eq_some hs, List.drop_left, ih]

/-! ## One character of lookahead -/

/-- One step sees at most one character past its lexeme. Where a rule is the first of a mode to find a lexeme at the start of a
text, the text is that lexeme, which is not empty, and a rest, which is shorter than the text; and in front of any other rest
that is empty or starts with the same character the same rule is the first one, with the same lexeme. So the rules before it,
too, find nothing there, though they may have looked at more of the text when they found nothing in it. -/
theorem Grammar.firstRule_sees_one_character {m : Mode} {t : Text} {r : Rule} {l : Text}
    (h : Grammar.julia.FirstRule m t r l) :
    l ≠ [] ∧ ∃ y, t = l ++ y ∧ y.length < t.length ∧
      ∀ y', y' = [] ∨ y'.head? = y.head? → Grammar.julia.FirstRule m (l ++ y') r l := by
  have hstep : Grammar.julia.step? m t = some ⟨r, l⟩ := Grammar.step?_eq_some_iff.mpr h
  have htext : l ++ t.drop l.length = t := Grammar.lexeme_append_drop hstep
  refine ⟨Pattern.lexeme?_ne_nil (Grammar.step?_eq_some hstep).2, t.drop l.length, htext.symm,
    Grammar.length_drop_lt hstep, ?_⟩
  intro y' hy'
  have hhead : ∀ c ∈ y'.head?, c ∈ (t.drop l.length).head? := by
    intro c hc
    rcases hy' with rfl | hy'
    · cases hc
    · rw [← hy']
      exact hc
  have hother : Grammar.julia.step? m (l ++ y') = some ⟨r, l⟩ :=
    Grammar.step?_replace_rest (s := ⟨r, l⟩) (by rw [htext]; exact hstep) hhead
  exact Grammar.step?_eq_some_iff.mp hother

/-- A name that starts like a reserved word is the same name when the text is cut off behind it, and a reserved word that a
letter beyond ASCII follows is still one where that letter starts a longer name. -/
theorem Grammar.firstRule_sees_one_character_of_reserved_start :
    let name : Text := ['e', 'n', 'd', 'p', 'o', 'i', 'n', 't']
    let word : Text := ['i', 'n']
    (Grammar.julia.FirstRule .topLevel (name ++ [' ', 'x']) .identifier name ∧
      Grammar.julia.FirstRule .topLevel (name ++ []) .identifier name) ∧
    (Grammar.julia.FirstRule .topLevel (word ++ ['α']) .reservedWord word ∧
      Grammar.julia.FirstRule .topLevel (word ++ ['α', 's', 't']) .reservedWord word) := by
  intro name word
  have hnameStep : Grammar.julia.step? .topLevel (name ++ [' ', 'x']) = some ⟨.identifier, name⟩ := by decide +kernel
  have hwordStep : Grammar.julia.step? .topLevel (word ++ ['α']) = some ⟨.reservedWord, word⟩ := by decide +kernel
  have hname : Grammar.julia.FirstRule .topLevel (name ++ [' ', 'x']) .identifier name :=
    Grammar.step?_eq_some_iff.mp hnameStep
  have hword : Grammar.julia.FirstRule .topLevel (word ++ ['α']) .reservedWord word :=
    Grammar.step?_eq_some_iff.mp hwordStep
  obtain ⟨-, y, -, -, hcut⟩ := Grammar.firstRule_sees_one_character hname
  obtain ⟨-, z, hz, -, hlonger⟩ := Grammar.firstRule_sees_one_character hword
  have hz : z = ['α'] := (List.append_cancel_left hz).symm
  refine ⟨⟨hname, hcut [] (.inl rfl)⟩, hword, hlonger ['α', 's', 't'] (.inr ?_)⟩
  rw [hz]
  rfl

end JuliaLexer
