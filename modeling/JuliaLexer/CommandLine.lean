import JuliaLexer.Document
import JuliaLexer.UnknownName

/-!
# Command line: standard input, line by line

The program reads standard input and prints for every line the mode it started in and its tokens, each with its characters
in quotes. It may be given the name of the mode to start in. It stops at the first line that is not UTF-8 or cannot be read;
what was printed before stays, the cause goes to standard error, and the exit code is 1.
-/

namespace JuliaLexer

/-- Why the program stopped before the end of its input. -/
inductive Failure where
  /-- The argument names no mode. -/
  | argument (error : UnknownName)
  /-- A line cannot be read. -/
  | line (error : LexError)
  /-- A line is not UTF-8. -/
  | encoding
  deriving DecidableEq, Repr

/-- What is at fault: what the input says, or how it is encoded. -/
inductive FailureKind where
  | invalidInput
  | invalidData
  deriving DecidableEq, Repr

/-- The name of a kind of failure. -/
def FailureKind.name : FailureKind → String
  | .invalidInput => "InvalidInput"
  | .invalidData => "InvalidData"

/-- The kind of a failure. -/
def Failure.kind : Failure → FailureKind
  | .argument _ | .line _ => .invalidInput
  | .encoding => .invalidData

/-- The message of a failure. -/
def Failure.message : Failure → String
  | .argument e => e.message
  | .line e => e.message
  | .encoding => "stream did not contain valid UTF-8"

/-- The line that is printed on standard error. -/
def Failure.report (f : Failure) : String :=
  match f with
  | .argument e =>
    "Error: Custom \x7b kind: " ++ f.kind.name ++ ", error: " ++ Text.quoteString e.message ++ " \x7d\n"
  | .line e => "Error: Custom \x7b kind: " ++ f.kind.name ++ ", error: " ++ e.record ++ " \x7d\n"
  | .encoding => "Error: Error \x7b kind: " ++ f.kind.name ++ ", message: " ++ Text.quoteString f.message ++ " \x7d\n"

/-- What a run of the program leaves: its exit code, and what it printed on standard output and on standard error. -/
structure Outcome where
  exit : UInt32
  stdout : String
  stderr : String
  deriving DecidableEq, Repr

/-- The outcome of a run that printed something and then failed. -/
def Outcome.failed (stdout : String) (f : Failure) : Outcome := ⟨1, stdout, f.report⟩

/-- How far a run got: the lines it read, the mode after them, and why it did not read on, unless that was the end. -/
structure InputRead where
  lines : List LineRead
  mode : Mode
  failure : Option Failure
  deriving DecidableEq, Repr

namespace CommandLine

/-- A line without the carriage return at its end, if it has one. -/
def dropReturn (line : List UInt8) : List UInt8 :=
  if line.getLast? = some 0x0D then line.dropLast else line

/-- The lines of the input. A line ends at a line feed, and a carriage return right before that does not belong to it either.
What follows the last line feed is a line as it stands, unless it is empty. -/
def inputLines (input : List UInt8) : List (List UInt8) :=
  let pieces := input.splitOn 0x0A
  pieces.dropLast.map dropReturn ++ (pieces.getLast?.filter (fun last => !last.isEmpty)).toList

/-- The text that bytes encode in UTF-8. -/
def decode? (bytes : List UInt8) : Option Text := (String.fromUTF8? bytes.toByteArray).map String.toList

/-- The printed form of a token with its characters. -/
def tokenText (t : Token) (piece : Text) : String := " " ++ t.text ++ " " ++ String.ofList piece.quoted

/-- The printed form of a line: the mode it started in and its tokens, each with its characters. -/
def lineText (l : LineRead) : String :=
  let pieces := Text.cut (l.tokens.map (·.length)) l.text
  l.start.name ++ ":" ++ String.join (List.zipWith tokenText l.tokens pieces) ++ "\n"

/-- Reading the input from a mode. Lines are decoded and read in turn: a line that cannot be read comes before a later one
that is not UTF-8. -/
def readInput (m : Mode) (input : List UInt8) : InputRead :=
  let decoded := (inputLines input).map decode?
  let read := readLines m ((decoded.takeWhile Option.isSome).filterMap id)
  { lines := read.lines
    mode := read.mode
    failure :=
      match read.error? with
      | some e => some (.line e)
      | none => if decoded.all Option.isSome then none else some .encoding }

/-- What a run prints for the lines it read, and for its failure. -/
def outcome (read : InputRead) : Outcome :=
  let stdout := String.join (read.lines.map lineText)
  match read.failure with
  | some f => .failed stdout f
  | none => ⟨0, stdout, ""⟩

/-- The mode to start in: the one that the first argument names, and top level without arguments. Further arguments do not
count. -/
def startMode : List String → Except UnknownName Mode
  | [] => .ok Mode.initial
  | name :: _ => Mode.ofName name

/-- A run of the program. The argument is looked at before the input. -/
def run (args : List String) (input : List UInt8) : Outcome :=
  match startMode args with
  | .error e => .failed "" (.argument e)
  | .ok m => outcome (readInput m input)

end CommandLine

end JuliaLexer
