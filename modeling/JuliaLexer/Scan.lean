import JuliaLexer.Grammar

/-!
# Scans: a text taken apart step by step

A scan applies one rule after another, each in the mode the rule before it leads to, until no rule applies: because nothing
is left, or because the next character starts no token. It keeps every step, so the tokens of a line, the account of how they
were found and the place of a failure are all read off the same scan. Its lexemes and what is left give the text again
(`Grammar.scan_append_rest`).
-/

namespace JuliaLexer

/-- A scan of a text: the steps taken, the mode after them, and the part of the text at which no rule applied. -/
structure Scan where
  steps : List Step
  mode : Mode
  rest : Text
  deriving DecidableEq, Repr

/-- A scan of a text after some steps, given with the latest step first. -/
def Grammar.scanAfter (g : Grammar) (done : List Step) (m : Mode) (t : Text) : Scan :=
  match _hs : g.step? m t with
  | none => ⟨done.reverse, m, t⟩
  | some s => g.scanAfter (s :: done) s.rule.next (t.drop s.lexeme.length)
termination_by t.length
decreasing_by exact Grammar.length_drop_lt _hs

/-- The scan of a text from a mode. -/
def Grammar.scan (g : Grammar) (m : Mode) (t : Text) : Scan := g.scanAfter [] m t

/-- The tokens of the steps. -/
def Scan.tokens (s : Scan) : List Token := s.steps.map Step.token

/-- The number of characters the steps took. -/
def Scan.column (s : Scan) : Nat := (s.steps.flatMap (·.lexeme)).length

/-! ## Helper lemmas: a scan step by step -/

/-- What holds where no rule applies, and holds before a step if it holds after it, holds of every mode and text. -/
theorem Grammar.scan_induction (g : Grammar) {P : Mode → Text → Prop} (stop : ∀ m t, g.step? m t = none → P m t)
    (step : ∀ m t s, g.step? m t = some s → P s.rule.next (t.drop s.lexeme.length) → P m t) (m : Mode) (t : Text) :
    P m t := by
  suffices ∀ n m t, t.length = n → P m t from this _ m t rfl
  intro n
  induction n using Nat.strongRecOn with
  | ind n ih =>
    intro m t hn
    cases h : g.step? m t with
    | none => exact stop m t h
    | some s => exact step m t s h (ih _ (hn ▸ Grammar.length_drop_lt h) _ _ rfl)

theorem Grammar.scanAfter_of_none {g : Grammar} {m : Mode} {t : Text} (h : g.step? m t = none) (done : List Step) :
    g.scanAfter done m t = ⟨done.reverse, m, t⟩ := by
  rw [Grammar.scanAfter.eq_def]
  split
  · rfl
  · rename_i s hs
    rw [h] at hs
    cases hs

theorem Grammar.scanAfter_of_some {g : Grammar} {m : Mode} {t : Text} {s : Step} (h : g.step? m t = some s)
    (done : List Step) : g.scanAfter done m t = g.scanAfter (s :: done) s.rule.next (t.drop s.lexeme.length) := by
  rw [Grammar.scanAfter.eq_def]
  split
  · rename_i hs
    rw [h] at hs
    cases hs
  · rename_i s' hs
    rw [h] at hs
    cases hs
    rfl

theorem Grammar.scanAfter_eq (g : Grammar) (done : List Step) (m : Mode) (t : Text) :
    g.scanAfter done m t = { g.scan m t with steps := done.reverse ++ (g.scan m t).steps } := by
  induction m, t using g.scan_induction generalizing done with
  | stop m t h => simp [Grammar.scan, Grammar.scanAfter_of_none h]
  | step m t s h ih =>
    rw [Grammar.scan, Grammar.scanAfter_of_some h done, Grammar.scanAfter_of_some h [], ih (s :: done), ih [s]]
    simp

/-- Where no rule applies, the scan ends. -/
theorem Grammar.scan_of_step?_eq_none {g : Grammar} {m : Mode} {t : Text} (h : g.step? m t = none) :
    g.scan m t = ⟨[], m, t⟩ :=
  Grammar.scanAfter_of_none h []

/-- Where a rule applies, the scan takes that step and goes on after its lexeme. -/
theorem Grammar.scan_of_step?_eq_some {g : Grammar} {m : Mode} {t : Text} {s : Step} (h : g.step? m t = some s) :
    g.scan m t = { g.scan s.rule.next (t.drop s.lexeme.length) with
      steps := s :: (g.scan s.rule.next (t.drop s.lexeme.length)).steps } := by
  rw [Grammar.scan, Grammar.scanAfter_of_some h, Grammar.scanAfter_eq]
  rfl

/-- Nothing is left of the empty text, and no step is taken. -/
theorem Grammar.scan_nil (g : Grammar) (m : Mode) : g.scan m [] = ⟨[], m, []⟩ :=
  Grammar.scan_of_step?_eq_none (g.step?_nil m)

/-- The lexemes of a scan, and what is left after them, are the text. -/
theorem Grammar.scan_append_rest (g : Grammar) (m : Mode) (t : Text) :
    (g.scan m t).steps.flatMap (·.lexeme) ++ (g.scan m t).rest = t := by
  induction m, t using g.scan_induction with
  | stop m t h => simp [Grammar.scan_of_step?_eq_none h]
  | step m t s h ih =>
    rw [Grammar.scan_of_step?_eq_some h]
    simp only [List.flatMap_cons, List.append_assoc]
    rw [ih]
    exact Grammar.lexeme_append_drop h

/-- The steps of a scan took all characters but those that are left. -/
theorem Grammar.column_add_length_rest (g : Grammar) (m : Mode) (t : Text) :
    (g.scan m t).column + (g.scan m t).rest.length = t.length := by
  have h := congrArg List.length (g.scan_append_rest m t)
  rw [List.length_append] at h
  exact h

end JuliaLexer
