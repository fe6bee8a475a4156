import JuliaLexer.Document

/-!
# Sessions: a current mode between calls

A session keeps the mode in which the next text starts. A line or a document that is read moves it on to the mode it leaves;
one that fails leaves it where it was.
-/

namespace JuliaLexer

/-- What a session is asked to read. -/
inductive Call where
  | line (text : Text)
  | document (text : Text)
  deriving DecidableEq, Repr

/-- The answer to a call from a current mode. -/
def Call.answer (m : Mode) : Call → Except LexError LineTokens
  | .line t => tokenizeLine m t
  | .document t => tokenizeDocument m t

/-- The current mode after an answer. -/
def Mode.after (m : Mode) : Except LexError LineTokens → Mode
  | .ok l => l.mode
  | .error _ => m

/-- The answers to some calls, one after another, each with the current mode after it. -/
def answers (m : Mode) : List Call → List (Except LexError LineTokens × Mode)
  | [] => []
  | call :: rest => (call.answer m, m.after (call.answer m)) :: answers (m.after (call.answer m)) rest

end JuliaLexer
