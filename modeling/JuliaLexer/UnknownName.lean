import JuliaLexer.Category
import JuliaLexer.Mode
import JuliaLexer.Text.Quoted

/-!
# Unknown names: a name that is in no catalogue

Modes and categories are asked for by name, and a name counts only if it is spelled exactly as in the catalogue.
-/

namespace JuliaLexer

/-- A name that was asked for in vain. -/
inductive UnknownName where
  | mode (name : String)
  | category (name : String)
  deriving DecidableEq, Repr

/-- The message that names it. -/
def UnknownName.message : UnknownName → String
  | .mode name => "unknown line state " ++ Text.quoteString name
  | .category name => "unknown token type " ++ Text.quoteString name

/-- The mode with a given name. -/
def Mode.ofName (name : String) : Except UnknownName Mode :=
  match Mode.ofName? name with
  | some m => .ok m
  | none => .error (.mode name)

/-- The category with a given name. -/
def Category.ofName (name : String) : Except UnknownName Category :=
  match Category.ofName? name with
  | some k => .ok k
  | none => .error (.category name)

end JuliaLexer
