import JuliaLexer.Pattern
import JuliaLexer.ReservedWord
import JuliaLexer.Token

/-!
# Grammars: which rules are tried in which mode

A lexical grammar gives for every mode a list of rules, and the first rule of the list whose pattern finds a lexeme is the
one that applies; a later rule is not tried, even if it would find a longer lexeme. `Grammar.julia` is the grammar of Julia.
Two of its precedences matter: white space and reserved words come before names, since a name can look like either.
-/

namespace JuliaLexer

/-- How a rule chooses the category of what it found: always the same one, or that of the lexeme taken as a word. -/
inductive Emission where
  | fixed (category : Category)
  | byWord
  deriving DecidableEq, Repr

/-- The category a lexeme gets. -/
def Emission.category : Emission → Text → Category
  | .fixed category, _ => category
  | .byWord, lexeme => Category.ofWord lexeme

/-- A lexical rule: what it looks for, the category of what it finds, and the mode after it. -/
structure Rule where
  name : String
  pattern : Pattern
  emission : Emission
  next : Mode
  deriving DecidableEq, Repr

/-- A rule applied: the rule, and the lexeme it found. -/
structure Step where
  rule : Rule
  lexeme : Text
  deriving DecidableEq, Repr

/-- The token a step adds. -/
def Step.token (s : Step) : Token := ⟨s.rule.emission.category s.lexeme, s.lexeme.length⟩

/-- A rule applied at the start of a text, if its pattern finds a lexeme there. -/
def Rule.step? (r : Rule) (t : Text) : Option Step := (r.pattern.lexeme? t).map (fun lexeme => ⟨r, lexeme⟩)

/-- A lexical grammar: the rules of every mode, in the order in which they are tried. -/
structure Grammar where
  rules : Mode → List Rule

/-- The first rule of a mode that applies at the start of a text. -/
def Grammar.step? (g : Grammar) (m : Mode) (t : Text) : Option Step := (g.rules m).findSome? (fun r => r.step? t)

/-- What a quote is called in the names of rules. -/
def Quote.name : Quote → String
  | .single => "single"
  | .double => "double"

/-- A quote at top level opens a string. -/
def Rule.opening (q : Quote) : Rule :=
  ⟨"open " ++ q.name ++ " quote", .one q.delimiter, .fixed .punctuation, .quoted q⟩

/-- The same quote closes it. -/
def Rule.closing (q : Quote) : Rule :=
  ⟨"close " ++ q.name ++ " quote", .one q.delimiter, .fixed .punctuation, .topLevel⟩

/-- Everything up to the closing quote is one token; the string stays open after it. -/
def Rule.content (q : Quote) : Rule :=
  ⟨q.name ++ "-quoted content", .run q.content, .fixed .string, .quoted q⟩

/-- White space is one token, as long as it goes on. -/
def Rule.whitespace : Rule := ⟨"whitespace", .run .space, .fixed .whitespace, .topLevel⟩

/-- A reserved word has a category of its own. -/
def Rule.reservedWord : Rule := ⟨"reserved word", .oneOf (reservedWords.map (·.1)), .byWord, .topLevel⟩

/-- A name goes on as long as its characters do. -/
def Rule.identifier : Rule := ⟨"identifier", .span .nameStart .nameRest, .fixed .variableName, .topLevel⟩

/-- A punctuation character is a token by itself. -/
def Rule.punctuation : Rule := ⟨"punctuation", .one .punctuation, .fixed .punctuation, .topLevel⟩

/-- A number is a run of digits; it has no sign and no point. -/
def Rule.numeric : Rule := ⟨"numeric", .run .digit, .fixed .numeric, .topLevel⟩

/-- The rules outside strings. Reserved words look like names, and so do the spaces from U+1680 on, so both are tried before
names. -/
def Rule.topLevel : List Rule :=
  [.whitespace, .reservedWord, .identifier, .punctuation, .numeric, .opening .single, .opening .double]

/-- The lexical grammar of Julia. Nothing is read from the uninitialized mode, and triple-quoted strings have no rules. -/
def Grammar.julia : Grammar where
  rules
    | .uninitialized => []
    | .topLevel => Rule.topLevel
    | .quoted q => [.closing q, .content q]
    | .tripleQuoted => []

/-! ## Helper lemmas: a step takes a non-empty start of the text -/

theorem Rule.step?_eq_some {r : Rule} {t : Text} {s : Step} (h : r.step? t = some s) :
    s.rule = r ∧ r.pattern.lexeme? t = some s.lexeme := by
  simp only [Rule.step?, Option.map_eq_some_iff] at h
  obtain ⟨l, hl, rfl⟩ := h
  exact ⟨rfl, hl⟩

/-- A step applies a rule of the mode, and its lexeme is what the rule's pattern finds. -/
theorem Grammar.step?_eq_some {g : Grammar} {m : Mode} {t : Text} {s : Step} (h : g.step? m t = some s) :
    s.rule ∈ g.rules m ∧ s.rule.pattern.lexeme? t = some s.lexeme := by
  obtain ⟨r, hr, hs⟩ := List.exists_of_findSome?_eq_some h
  obtain ⟨hrule, hl⟩ := Rule.step?_eq_some hs
  rw [hrule]
  exact ⟨hr, hl⟩

theorem Grammar.step?_nil (g : Grammar) (m : Mode) : g.step? m [] = none := by
  cases h : g.step? m [] with
  | none => rfl
  | some s =>
    have hl := (Grammar.step?_eq_some h).2
    exact absurd (List.prefix_nil.mp (Pattern.lexeme?_prefix hl)) (Pattern.lexeme?_ne_nil hl)

/-- The text is the lexeme and what is left after it. -/
theorem Grammar.lexeme_append_drop {g : Grammar} {m : Mode} {t : Text} {s : Step} (h : g.step? m t = some s) :
    s.lexeme ++ t.drop s.lexeme.length = t := by
  obtain ⟨rest, hrest⟩ := Pattern.lexeme?_prefix (Grammar.step?_eq_some h).2
  rw [← hrest, List.drop_left]

/-- What is left after a step is shorter. -/
theorem Grammar.length_drop_lt {g : Grammar} {m : Mode} {t : Text} {s : Step} (h : g.step? m t = some s) :
    (t.drop s.lexeme.length).length < t.length :=
  Pattern.length_drop_lt (Grammar.step?_eq_some h).2

end JuliaLexer
