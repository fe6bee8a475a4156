import JuliaLexer.Text.Unprintable

/-!
# Quoted text: a text between double quotes, on one line

Messages and the output of the command line show a text in quotes. Six characters have a two-character form, an unprintable
character is written by its code point in lower-case hexadecimal, and any other stands for itself. What stands for a
character does not depend on its neighbours, and no quoted text holds a line break.
-/

namespace JuliaLexer

/-- The characters that a letter after a backslash stands for, with that letter. -/
def Text.shortEscapes : List (Char × Char) :=
  [('\x00', '0'), ('\t', 't'), ('\r', 'r'), ('\n', 'n'), ('"', '"'), ('\\', '\\')]

/-- What stands for a character inside the quotes. -/
def Text.escape (c : Char) : Text :=
  match shortEscapes.lookup c with
  | some letter => ['\\', letter]
  | none =>
    if CharSet.unprintable.contains c then ['\\', 'u', '\x7b'] ++ Nat.toDigits 16 c.toNat ++ ['\x7d'] else [c]

/-- A text in double quotes. -/
def Text.quoted (t : Text) : Text := '"' :: (t.flatMap escape ++ ['"'])

/-- The quoted form of a string, as a string. -/
def Text.quoteString (s : String) : String := String.ofList (Text.quoted s.toList)

end JuliaLexer
