import JuliaLexer.Line

/-!
# Traces: how a line was read

For every step of the scan of a line there is an event that names the rule, and if the scan got stuck there is a last one that
says where. A trace does not depend on whether the line was read to its end.
-/

namespace JuliaLexer

/-- What is reported while a line is read. -/
inductive Event where
  /-- A rule applied: the category and length of the token, and the mode after it. -/
  | matched (rule : String) (category : Category) (length : Nat) (next : Mode)
  /-- No rule of the mode applies at the column; `remainder` is the rest of the line from there on. -/
  | stuck (mode : Mode) (column : Nat) (remainder : Text)
  deriving DecidableEq, Repr

/-- How much detail an event is. -/
inductive Level where
  | trace
  | debug
  deriving DecidableEq, Repr

/-- The name of a level. -/
def Level.name : Level → String
  | .trace => "TRACE"
  | .debug => "DEBUG"

/-- A step is the finest detail; where a line got stuck is of wider interest. -/
def Event.level : Event → Level
  | .matched .. => .trace
  | .stuck .. => .debug

/-- The message of an event. -/
def Event.message : Event → String
  | .matched .. => "matched"
  | .stuck .. => "no rule matches"

/-- The event of a step. -/
def Step.event (s : Step) : Event := .matched s.rule.name s.token.category s.token.length s.rule.next

/-- The events of a scan. -/
def Scan.events (s : Scan) : List Event :=
  s.steps.map Step.event ++ (if s.rest = [] then [] else [.stuck s.mode s.column s.rest])

/-- The events of reading a line with a grammar. From the uninitialized mode nothing is read, and there are none. -/
def Grammar.traceLine (g : Grammar) (m : Mode) (line : Text) : List Event :=
  if m = .uninitialized then [] else (g.scan m line).events

/-- The events of reading a line of Julia. -/
def traceLine (m : Mode) (line : Text) : List Event := Grammar.julia.traceLine m line

end JuliaLexer
