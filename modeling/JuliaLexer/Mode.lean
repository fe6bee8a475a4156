/-!
# Modes: where a line starts

A line is read from a mode, and what one line leaves open is the mode the next line is read from. Strings do not nest, so a
mode is a single value and no stack: at top level, or inside a string that one of the two quotes opened. Two more modes are
never entered by reading: the uninitialized one, from which no line may be read, and the one kept for triple-quoted strings,
from which only the empty line can be read.
-/

namespace JuliaLexer

/-- The two characters that open and close a string. -/
inductive Quote where
  | single
  | double
  deriving DecidableEq, Repr

/-- The character itself. -/
def Quote.mark : Quote → Char
  | .single => '\''
  | .double => '"'

/-- Where reading stands between two lines. -/
inductive Mode where
  | uninitialized
  | topLevel
  | quoted (q : Quote)
  | tripleQuoted
  deriving DecidableEq, Repr

/-- The first line of a document is read from top level. -/
def Mode.initial : Mode := .topLevel

instance : Inhabited Mode := ⟨Mode.initial⟩

/-- Every mode, in catalogue order. -/
def Mode.all : List Mode := [.uninitialized, .topLevel, .quoted .single, .quoted .double, .tripleQuoted]

/-- The name of a mode. -/
def Mode.name : Mode → String
  | .uninitialized => "None"
  | .topLevel => "TopLevelContent"
  | .quoted .single => "InsideSingleQuoteString"
  | .quoted .double => "InsideDoubleQuoteString"
  | .tripleQuoted => "InsideTripleQuoteString"

/-- The code of a mode. -/
def Mode.code : Mode → UInt32
  | .uninitialized => 0
  | .topLevel => 1
  | .quoted .single => 2
  | .quoted .double => 3
  | .tripleQuoted => 4

/-- The mode with a given name, spelled exactly so. -/
def Mode.ofName? (name : String) : Option Mode := all.find? (fun m => m.name == name)

/-- The mode with a given code. -/
def Mode.ofCode? (code : UInt32) : Option Mode := all.find? (fun m => m.code == code)

/-! ## Helper lemmas: the catalogue is complete, names and codes are unique -/

theorem Mode.mem_all (m : Mode) : m ∈ all := by
  rcases m with _ | _ | (_ | _) | _ <;> decide

theorem Mode.ofName?_name (m : Mode) : ofName? m.name = some m := by
  rcases m with _ | _ | (_ | _) | _ <;> decide

theorem Mode.ofCode?_code (m : Mode) : ofCode? m.code = some m := by
  rcases m with _ | _ | (_ | _) | _ <;> decide

end JuliaLexer
