import JuliaLexer.Mode
import JuliaLexer.Text.Quoted

/-!
# Errors: why a text was not read

Reading does not recover: a line is read to its end or it fails with one of these. An error of a line in a document is the
line's own error with the line's number around it, and nothing keeps such an error from being numbered again.
-/

namespace JuliaLexer

/-- Why a text was not read. -/
inductive LexError where
  /-- No rule of the mode applies at the column; `remainder` is the rest of the line from there on. -/
  | unmatched (mode : Mode) (column : Nat) (remainder : Text)
  /-- The code is that of no mode, or of the mode that no line may be read from. -/
  | invalidMode (code : UInt32)
  /-- An error of the line with this number; the first line has number 1. -/
  | atLine (line : Nat) (source : LexError)
  deriving DecidableEq, Repr

/-- The message of an error. -/
def LexError.message : LexError → String
  | .unmatched m column remainder =>
    "no rule in state " ++ m.name ++ " matches at column " ++ Nat.repr column ++ ": " ++
      String.ofList remainder.quoted
  | .invalidMode code => "invalid line state (code " ++ Nat.repr code.toNat ++ ")"
  | .atLine line source => "at line " ++ Nat.repr line ++ ": " ++ source.message

/-- An error written as a record: its kind and the values it holds. -/
def LexError.record : LexError → String
  | .unmatched m column remainder =>
    "UnmatchedInput \x7b state: " ++ m.name ++ ", column: " ++ Nat.repr column ++ ", remainder: " ++
      String.ofList remainder.quoted ++ " \x7d"
  | .invalidMode code => "InvalidState \x7b code: " ++ Nat.repr code.toNat ++ " \x7d"
  | .atLine line source => "Line \x7b line: " ++ Nat.repr line ++ ", source: " ++ source.record ++ " \x7d"

/-- The error under all line numbers. -/
def LexError.root : LexError → LexError
  | .atLine _ source => source.root
  | e => e

/-- The errors an error was made from, the closest first. -/
def LexError.sources : LexError → List LexError
  | .atLine _ source => source :: source.sources
  | _ => []

/-- The mode with a given code. -/
def Mode.ofCode (code : UInt32) : Except LexError Mode :=
  match Mode.ofCode? code with
  | some m => .ok m
  | none => .error (.invalidMode code)

end JuliaLexer
