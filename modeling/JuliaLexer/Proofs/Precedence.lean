import JuliaLexer.Trace
import JuliaLexer.Proofs.Lookahead
import Mathlib.Data.List.Basic

/-!
# Precedence: which rules have to come before which

The first rule that applies is the one that counts, so the rules of a mode are a list. But their order hardly matters. What a
text starts with admits one rule only (`Start.rules`), except that names may start with a wide space, which is white space, and
with a reserved word. So a grammar with the same rules in another order reads every line by the same steps, as long as white
space and reserved words come before names; and if either does not, some line is read otherwise
(`only_two_precedences_matter`).
-/

namespace JuliaLexer

/-- A rule applies at the start of a text. -/
def Rule.Applies (r : Rule) (t : Text) : Prop := ∃ s, r.step? t = some s

instance (r : Rule) (t : Text) : Decidable (r.Applies t) := decidable_of_iff _ Option.isSome_iff_exists

/-- `r.Overlaps r'`: both rules may apply at the start of the same text, and `r` is the one that should. -/
def Rule.Overlaps (r r' : Rule) : Prop := (r = .whitespace ∨ r = .reservedWord) ∧ r' = .identifier

/-- `Precedes rs r r'`: in the list `rs` the rule `r` comes before the rule `r'`. -/
def Precedes (rs : List Rule) (r r' : Rule) : Prop := rs.idxOf r < rs.idxOf r'

instance (rs : List Rule) (r r' : Rule) : Decidable (Precedes rs r r') := inferInstanceAs (Decidable (_ < _))

/-- A grammar with the rules of another one in each mode, in any order. -/
def Grammar.Reorders (g g' : Grammar) : Prop := ∀ m, (g.rules m).Perm (g'.rules m)

/-- At top level white space and reserved words come before names. -/
structure Grammar.KeepsPrecedence (g : Grammar) : Prop where
  whitespace : Precedes (g.rules .topLevel) .whitespace .identifier
  reservedWord : Precedes (g.rules .topLevel) .reservedWord .identifier

/-- The grammar with some rules for top level, and with those of strings turned round. -/
def Grammar.withTopLevel (rs : List Rule) : Grammar where
  rules
    | .topLevel => rs
    | m => (Grammar.julia.rules m).reverse

/-- The rules that may apply at top level in front of a character. -/
def Start.rules : Start → List Rule
  | .space => [.whitespace, .identifier]
  | .name => [.reservedWord, .identifier]
  | .digit => [.numeric]
  | .punctuation => [.punctuation]
  | .quote q => [.opening q]
  | .stray => []

/-! ## Helpers: rules that apply together -/

/-- The empty text starts with nothing. -/
theorem Rule.not_applies_nil (r : Rule) : ¬r.Applies [] := by
  rintro ⟨s, hs⟩
  obtain ⟨-, hl⟩ := Rule.step?_eq_some hs
  exact Pattern.lexeme?_ne_nil hl (List.prefix_nil.mp (Pattern.lexeme?_prefix hl))

/-- A rule of top level applies only in front of a character that admits it. -/
theorem Rule.mem_rules_of_applies {r : Rule} (hr : r ∈ Rule.topLevel) {c : Char} {t : Text} (h : r.Applies (c :: t)) :
    r ∈ (Start.of c).rules := by
  obtain ⟨s, hs⟩ := h
  simp only [Rule.topLevel, List.mem_cons, List.not_mem_nil, or_false] at hr
  rcases hr with rfl | rfl | rfl | rfl | rfl | rfl | rfl
  · rw [Rule.step?_span rfl CharSet.contains_space] at hs
    split_ifs at hs with hc
    rw [(Start.of_eq_space_iff c).mpr hc]
    exact List.mem_cons_self
  · rw [Rule.step?_reservedWord] at hs
    split_ifs at hs with hw
    rw [hw.start_of]
    exact List.mem_cons_self
  · rw [Rule.step?_span rfl CharSet.contains_nameStart] at hs
    split_ifs at hs with hc
    by_cases hspace : IsSpace c
    · rw [(Start.of_eq_space_iff c).mpr hspace]
      exact List.mem_cons_of_mem _ List.mem_cons_self
    · rw [(Start.of_eq_name_iff c).mpr ⟨hc, hspace⟩]
      exact List.mem_cons_of_mem _ List.mem_cons_self
  · rw [Rule.step?_one rfl CharSet.contains_punctuation] at hs
    split_ifs at hs with hc
    rw [(Start.of_eq_punctuation_iff c).mpr hc]
    exact List.mem_cons_self
  · rw [Rule.step?_span rfl CharSet.contains_digit] at hs
    split_ifs at hs with hc
    rw [(Start.of_eq_digit_iff c).mpr hc]
    exact List.mem_cons_self
  · rw [Rule.step?_one rfl (Quote.contains_delimiter .single)] at hs
    split_ifs at hs with hc
    rw [(Start.of_eq_quote_iff .single c).mpr hc]
    exact List.mem_cons_self
  · rw [Rule.step?_one rfl (Quote.contains_delimiter .double)] at hs
    split_ifs at hs with hc
    rw [(Start.of_eq_quote_iff .double c).mpr hc]
    exact List.mem_cons_self

/-- Two of a pair of rules with that of names are the same, or overlap. -/
theorem Rule.overlaps_of_mem_pair {r₀ r r' : Rule} (h₀ : r₀ = .whitespace ∨ r₀ = .reservedWord)
    (h : r ∈ [r₀, .identifier]) (h' : r' ∈ [r₀, .identifier]) : r = r' ∨ r.Overlaps r' ∨ r'.Overlaps r := by
  simp only [List.mem_cons, List.not_mem_nil, or_false] at h h'
  rcases h with rfl | rfl
  · rcases h' with rfl | rfl
    · exact Or.inl rfl
    · exact Or.inr (Or.inl ⟨h₀, rfl⟩)
  · rcases h' with rfl | rfl
    · exact Or.inr (Or.inr ⟨h₀, rfl⟩)
    · exact Or.inl rfl

/-- Two rules that a character admits are the same, or overlap. -/
theorem Start.overlaps_of_mem_rules {st : Start} {r r' : Rule} (h : r ∈ st.rules) (h' : r' ∈ st.rules) :
    r = r' ∨ r.Overlaps r' ∨ r'.Overlaps r := by
  cases st with
  | space => exact Rule.overlaps_of_mem_pair (Or.inl rfl) h h'
  | name => exact Rule.overlaps_of_mem_pair (Or.inr rfl) h h'
  | stray => cases h
  | _ =>
    simp only [Start.rules, List.mem_singleton] at h h'
    exact Or.inl (h.trans h'.symm)

/-- Inside a string the first character decides between its two rules. -/
theorem Rule.eq_of_applies_quoted {q : Quote} {t : Text} {r r' : Rule} (hr : r ∈ Grammar.julia.rules (.quoted q))
    (hr' : r' ∈ Grammar.julia.rules (.quoted q)) (h : r.Applies t) (h' : r'.Applies t) : r = r' := by
  cases t with
  | nil => exact absurd h r.not_applies_nil
  | cons c t =>
    have hclosing : (Rule.closing q).Applies (c :: t) → c = q.mark := by
      rintro ⟨s, hs⟩
      rw [Rule.step?_one rfl q.contains_delimiter] at hs
      split_ifs at hs with hc
      exact hc
    have hcontent : (Rule.content q).Applies (c :: t) → c ≠ q.mark := by
      rintro ⟨s, hs⟩
      rw [Rule.step?_span rfl q.contains_content] at hs
      split_ifs at hs with hc
      exact hc
    simp only [Grammar.julia, List.mem_cons, List.not_mem_nil, or_false] at hr hr'
    rcases hr with rfl | rfl
    · rcases hr' with rfl | rfl
      · rfl
      · exact absurd (hclosing h) (hcontent h')
    · rcases hr' with rfl | rfl
      · exact absurd (hclosing h') (hcontent h)
      · rfl

/-- Two rules of a mode apply at the start of the same text only at top level, and only if one of them is that of names. -/
theorem Rule.overlaps_of_applies {m : Mode} {t : Text} {r r' : Rule} (hr : r ∈ Grammar.julia.rules m)
    (hr' : r' ∈ Grammar.julia.rules m) (h : r.Applies t) (h' : r'.Applies t) :
    r = r' ∨ m = .topLevel ∧ (r.Overlaps r' ∨ r'.Overlaps r) := by
  cases m with
  | uninitialized => cases hr
  | tripleQuoted => cases hr
  | quoted q => exact Or.inl (Rule.eq_of_applies_quoted hr hr' h h')
  | topLevel =>
    cases t with
    | nil => exact absurd h r.not_applies_nil
    | cons c t =>
      exact (Start.overlaps_of_mem_rules (Rule.mem_rules_of_applies hr h) (Rule.mem_rules_of_applies hr' h')).imp_right
        (fun hoverlaps => ⟨rfl, hoverlaps⟩)

/-! ## Helpers: the first rule that applies -/

/-- The step that is taken is one of its rule. -/
theorem Grammar.rule_step?_eq {g : Grammar} {m : Mode} {t : Text} {s : Step} (h : g.step? m t = some s) :
    s.rule ∈ g.rules m ∧ s.rule.step? t = some s := by
  obtain ⟨hr, hl⟩ := Grammar.step?_eq_some h
  exact ⟨hr, Rule.step?_eq_some_iff.mpr ⟨rfl, hl⟩⟩

/-- No rule that applies comes before the one whose step is taken. -/
theorem Grammar.idxOf_rule_le {g : Grammar} {m : Mode} {t : Text} {s : Step} (h : g.step? m t = some s) {r : Rule}
    (hr : r.Applies t) : (g.rules m).idxOf s.rule ≤ (g.rules m).idxOf r := by
  obtain ⟨before, after, hrules, hl, hbefore⟩ := Grammar.step?_eq_some_iff.mp h
  have hrule : s.rule ∉ before := by
    intro hmem
    rw [hbefore _ hmem] at hl
    cases hl
  have hother : r ∉ before := by
    intro hmem
    obtain ⟨s', hs'⟩ := hr
    rw [Rule.step?_eq_none_iff.mpr (hbefore _ hmem)] at hs'
    cases hs'
  rw [hrules, List.idxOf_append_of_notMem hrule, List.idxOf_append_of_notMem hother, List.idxOf_cons_self]
  omega

/-- A step is taken if any rule applies. -/
theorem Grammar.exists_step?_eq_some {g : Grammar} {m : Mode} {t : Text} {r : Rule} (hr : r ∈ g.rules m)
    (h : r.Applies t) : ∃ s, g.step? m t = some s := by
  obtain ⟨s, hs⟩ := h
  cases hstep : g.step? m t with
  | some s' => exact ⟨s', rfl⟩
  | none =>
    unfold Grammar.step? at hstep
    have hnone := List.findSome?_eq_none_iff.mp hstep r hr
    rw [hs] at hnone
    cases hnone

/-- Two grammars with the same rules in a mode take the same step, if no two rules that apply are listed in one order in the
one and in another order in the other. -/
theorem Grammar.step?_eq_of_perm {g g' : Grammar} {m : Mode} {t : Text} (hperm : (g.rules m).Perm (g'.rules m))
    (horder : ∀ r ∈ g'.rules m, ∀ r' ∈ g'.rules m, r.Applies t → r'.Applies t →
      (g.rules m).idxOf r ≤ (g.rules m).idxOf r' → (g'.rules m).idxOf r ≤ (g'.rules m).idxOf r') :
    g.step? m t = g'.step? m t := by
  cases h : g.step? m t with
  | none =>
    cases h' : g'.step? m t with
    | none => rfl
    | some s' =>
      obtain ⟨hr', hs'⟩ := Grammar.rule_step?_eq h'
      obtain ⟨s, hs⟩ := Grammar.exists_step?_eq_some (hperm.mem_iff.mpr hr') ⟨s', hs'⟩
      rw [h] at hs
      cases hs
  | some s =>
    obtain ⟨hr, hs⟩ := Grammar.rule_step?_eq h
    obtain ⟨s', h'⟩ := Grammar.exists_step?_eq_some (hperm.mem_iff.mp hr) ⟨s, hs⟩
    obtain ⟨hr', hs'⟩ := Grammar.rule_step?_eq h'
    have hle : (g'.rules m).idxOf s.rule ≤ (g'.rules m).idxOf s'.rule :=
      horder _ (hperm.mem_iff.mp hr) _ hr' ⟨s, hs⟩ ⟨s', hs'⟩ (Grammar.idxOf_rule_le h ⟨s', hs'⟩)
    have hge : (g'.rules m).idxOf s'.rule ≤ (g'.rules m).idxOf s.rule := Grammar.idxOf_rule_le h' ⟨s, hs⟩
    have hrule : s.rule = s'.rule := (List.idxOf_inj (hperm.mem_iff.mp hr)).mp (Nat.le_antisymm hle hge)
    rw [hrule, hs'] at hs
    rw [h', hs]

/-- Grammars that take the same steps scan every text alike. -/
theorem Grammar.scan_congr {g g' : Grammar} (h : ∀ m t, g.step? m t = g'.step? m t) (m : Mode) (t : Text) :
    g.scan m t = g'.scan m t := by
  induction m, t using g'.scan_induction with
  | stop m t hs => rw [Grammar.scan_of_step?_eq_none hs, Grammar.scan_of_step?_eq_none ((h m t).trans hs)]
  | step m t s hs ih => rw [Grammar.scan_of_step?_eq_some hs, Grammar.scan_of_step?_eq_some ((h m t).trans hs), ih]

/-! ## Helpers: reordered grammars -/

theorem Grammar.keepsPrecedence_julia : Grammar.julia.KeepsPrecedence where
  whitespace := by decide +kernel
  reservedWord := by decide +kernel

/-- A grammar that keeps precedence has the two rules of an overlap in their order. -/
theorem Grammar.KeepsPrecedence.precedes {g : Grammar} (h : g.KeepsPrecedence) {r r' : Rule} (hr : r.Overlaps r') :
    Precedes (g.rules .topLevel) r r' := by
  obtain ⟨rfl | rfl, rfl⟩ := hr
  · exact h.whitespace
  · exact h.reservedWord

theorem Grammar.reorders_withTopLevel (rs : List Rule) (h : rs.Perm Rule.topLevel) :
    (Grammar.withTopLevel rs).Reorders .julia := by
  intro m
  cases m with
  | topLevel => exact h
  | _ => exact List.reverse_perm _

/-- In another order that keeps precedence the rules take the same steps. -/
theorem Grammar.Reorders.step?_eq {g : Grammar} (hg : g.Reorders .julia) (hkeeps : g.KeepsPrecedence) (m : Mode)
    (t : Text) : g.step? m t = Grammar.julia.step? m t := by
  refine Grammar.step?_eq_of_perm (hg m) ?_
  intro r hr r' hr' h h' hle
  rcases Rule.overlaps_of_applies hr hr' h h' with rfl | ⟨rfl, hoverlaps | hoverlaps⟩
  · exact Nat.le_refl _
  · exact Nat.le_of_lt (Grammar.keepsPrecedence_julia.precedes hoverlaps)
  · exact absurd hle (Nat.not_le_of_lt (hkeeps.precedes hoverlaps))

/-- Where names come before the only other rule that applies to a text, the text is read as a name if it looks like one. -/
theorem Grammar.Reorders.tokenizeLine_eq_name {g : Grammar} (hg : g.Reorders .julia) {t : Text} {r : Rule}
    (hname : Rule.identifier.step? t = some ⟨.identifier, t⟩)
    (hother : ∀ r' ∈ Rule.topLevel, r'.Applies t → r' = .identifier ∨ r' = r)
    (hprecedes : Precedes (g.rules .topLevel) .identifier r) :
    g.tokenizeLine .topLevel t = .ok ⟨[⟨.variableName, t.length⟩], .topLevel⟩ := by
  have hmem : Rule.identifier ∈ g.rules .topLevel := (hg .topLevel).mem_iff.mpr (by decide +kernel)
  obtain ⟨s, h⟩ := Grammar.exists_step?_eq_some hmem ⟨_, hname⟩
  obtain ⟨hr, hs⟩ := Grammar.rule_step?_eq h
  have hrule : s.rule = .identifier := by
    rcases hother s.rule ((hg .topLevel).mem_iff.mp hr) ⟨s, hs⟩ with hrule | hrule
    · exact hrule
    · have hle := Grammar.idxOf_rule_le h ⟨_, hname⟩
      rw [hrule] at hle
      exact absurd hle (Nat.not_le_of_lt hprecedes)
  rw [hrule, hname, Option.some.injEq] at hs
  subst hs
  unfold Grammar.tokenizeLine
  rw [if_neg nofun, Grammar.scan_of_step?_eq_some h]
  simp only [List.drop_length, Grammar.scan_nil]
  rfl

/-! ## The order of the rules -/

/-- Of the rules of a mode at most one applies at the start of a text, except that the rule of names may apply together with
that of white space or with that of reserved words. So in any order of the rules in which these two come before names, every
line is read from every mode as it is in the given order, with the same events. Both have to: in any order in which names come
before white space, or before reserved words, some line is read otherwise. -/
theorem only_two_precedences_matter :
    (∀ m, (Grammar.julia.rules m).Nodup ∧ ∀ t, ∀ r ∈ Grammar.julia.rules m, ∀ r' ∈ Grammar.julia.rules m,
      r.Applies t → r'.Applies t → r = r' ∨ r.Overlaps r' ∨ r'.Overlaps r) ∧
    (∀ g : Grammar, g.Reorders .julia →
      (g.KeepsPrecedence → ∀ m t, g.tokenizeLine m t = tokenizeLine m t ∧ g.traceLine m t = traceLine m t) ∧
      (Precedes (g.rules .topLevel) .identifier .whitespace → ∃ t, g.tokenizeLine .topLevel t ≠ tokenizeLine .topLevel t) ∧
      (Precedes (g.rules .topLevel) .identifier .reservedWord →
        ∃ t, g.tokenizeLine .topLevel t ≠ tokenizeLine .topLevel t)) := by
  refine ⟨?_, ?_⟩
  · intro m
    refine ⟨?_, ?_⟩
    · rcases m with _ | _ | (_ | _) | _ <;> decide +kernel
    · intro t r hr r' hr' h h'
      exact (Rule.overlaps_of_applies hr hr' h h').imp_right And.right
  · intro g hg
    refine ⟨?_, ?_, ?_⟩
    · intro hkeeps m t
      have hscan : g.scan m t = Grammar.julia.scan m t := Grammar.scan_congr (hg.step?_eq hkeeps) m t
      unfold tokenizeLine traceLine Grammar.tokenizeLine Grammar.traceLine
      rw [hscan]
      exact ⟨rfl, rfl⟩
    · intro hprecedes
      refine ⟨['\u3000'], ?_⟩
      rw [hg.tokenizeLine_eq_name (by decide +kernel) (by decide +kernel) hprecedes]
      decide +kernel
    · intro hprecedes
      refine ⟨['i', 'n'], ?_⟩
      rw [hg.tokenizeLine_eq_name (by decide +kernel) (by decide +kernel) hprecedes]
      decide +kernel

/-- The order that keeps both precedences turns everything else round; of the others each breaks one. -/
theorem only_two_precedences_matter_reordered :
    (Rule.whitespace.Applies ['\u3000', 'x'] ∧ Rule.identifier.Applies ['\u3000', 'x'] ∧
      (Rule.whitespace = .identifier ∨ Rule.whitespace.Overlaps .identifier ∨
        Rule.identifier.Overlaps .whitespace)) ∧
    (let g := Grammar.withTopLevel
      [.opening .double, .opening .single, .numeric, .punctuation, .reservedWord, .whitespace, .identifier];
      g.Reorders .julia ∧ g.KeepsPrecedence ∧ g.tokenizeLine (.quoted .single) ['α', '\'', 'i', 'n'] =
        tokenizeLine (.quoted .single) ['α', '\'', 'i', 'n']) ∧
    (let g := Grammar.withTopLevel
      [.reservedWord, .identifier, .whitespace, .punctuation, .numeric, .opening .single, .opening .double];
      g.Reorders .julia ∧ ∃ t, g.tokenizeLine .topLevel t ≠ tokenizeLine .topLevel t) ∧
    (let g := Grammar.withTopLevel
      [.whitespace, .identifier, .reservedWord, .punctuation, .numeric, .opening .single, .opening .double];
      g.Reorders .julia ∧ ∃ t, g.tokenizeLine .topLevel t ≠ tokenizeLine .topLevel t) := by
  refine ⟨⟨by decide +kernel, by decide +kernel, ?_⟩, ?_, ?_, ?_⟩
  · exact (only_two_precedences_matter.1 .topLevel).2 ['\u3000', 'x'] _ (by decide +kernel) _ (by decide +kernel)
      (by decide +kernel) (by decide +kernel)
  · have hg := Grammar.reorders_withTopLevel
      [.opening .double, .opening .single, .numeric, .punctuation, .reservedWord, .whitespace, .identifier]
      (by decide +kernel)
    refine ⟨hg, ?_, ?_⟩
    · exact ⟨by decide +kernel, by decide +kernel⟩
    · exact ((only_two_precedences_matter.2 _ hg).1 ⟨by decide +kernel, by decide +kernel⟩ _ _).1
  · have hg := Grammar.reorders_withTopLevel
      [.reservedWord, .identifier, .whitespace, .punctuation, .numeric, .opening .single, .opening .double]
      (by decide +kernel)
    exact ⟨hg, (only_two_precedences_matter.2 _ hg).2.1 (by decide +kernel)⟩
  · have hg := Grammar.reorders_withTopLevel
      [.whitespace, .identifier, .reservedWord, .punctuation, .numeric, .opening .single, .opening .double]
      (by decide +kernel)
    exact ⟨hg, (only_two_precedences_matter.2 _ hg).2.2 (by decide +kernel)⟩

end JuliaLexer
