import JuliaLexer.LexError
import JuliaLexer.Scan

/-!
# Lines: the tokens of a line and the mode it leaves

`tokenizeLine` reads a line from a mode. It is a function of these two and keeps nothing between calls, so whoever hands on
the mode that one line leaves can stop and go on at any line. A line that fails has no tokens at all.
-/

namespace JuliaLexer

/-- The tokens of a line or of several, and the mode in which the next line starts. -/
structure LineTokens where
  tokens : List Token
  mode : Mode
  deriving DecidableEq, Repr, Inhabited

/-- The number of characters the tokens cover. -/
def LineTokens.extent (l : LineTokens) : Nat := l.tokens.foldr (fun t n => t.length + n) 0

/-- The number of characters the tokens cover, as a 64-bit word. -/
def LineTokens.covered (l : LineTokens) : UInt64 := l.extent.toUInt64

/-- The categories of the tokens, in order. -/
def LineTokens.categories (l : LineTokens) : List Category := l.tokens.map (·.category)

/-- What a scan amounts to: the tokens if it came to the end of the text, and otherwise the place where it got stuck. -/
def Scan.result (s : Scan) : Except LexError LineTokens :=
  if s.rest = [] then .ok ⟨s.tokens, s.mode⟩ else .error (.unmatched s.mode s.column s.rest)

/-- Reading a line with a grammar. From the uninitialized mode nothing is read, not even the empty line. -/
def Grammar.tokenizeLine (g : Grammar) (m : Mode) (line : Text) : Except LexError LineTokens :=
  if m = .uninitialized then .error (.invalidMode m.code) else (g.scan m line).result

/-- Reading a line of Julia. The line need not be free of newlines: at top level they are white space. -/
def tokenizeLine (m : Mode) (line : Text) : Except LexError LineTokens := Grammar.julia.tokenizeLine m line

end JuliaLexer
