import JuliaLexer.Category

/-!
# Tokens: spans of a text with their category

A token holds neither its characters nor its place: a token starts where the one before it ends, and the first one starts the
text. So the tokens of a text and the text itself together say which characters belong to which token.
-/

namespace JuliaLexer

/-- A span of a text: its category and its length in characters. -/
structure Token where
  category : Category
  length : Nat
  deriving DecidableEq, Repr

/-- The token of the newline that separates two lines of a document. -/
def Token.newLine : Token := ⟨.newLine, 1⟩

/-- A token as it is printed: the name of its category and, in parentheses, its length. -/
def Token.text (t : Token) : String := t.category.name ++ "(" ++ Nat.repr t.length ++ ")"

end JuliaLexer
