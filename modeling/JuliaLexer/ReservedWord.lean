import JuliaLexer.Category
import JuliaLexer.Text

/-!
# Reserved words: the words that are not names

One table holds the reserved words and the category of each, so a word is reserved exactly if it has a category of its own.
-/

namespace JuliaLexer

/-- The reserved words in alphabetical order, each with its category. -/
def reservedWords : List (String × Category) :=
  [("baremodule", .keyword), ("begin", .keywordControl), ("break", .keywordControl), ("catch", .keywordControl),
    ("ccall", .keyword), ("const", .keyword), ("continue", .keywordControl), ("do", .keywordControl),
    ("else", .keywordControl), ("elseif", .keywordControl), ("end", .keywordControl), ("export", .keywordImport),
    ("false", .languageConstant), ("finally", .keywordControl), ("for", .keywordControl), ("function", .keywordFunction),
    ("global", .keyword), ("if", .keywordControl), ("import", .keywordImport), ("in", .keywordOperator),
    ("isa", .keyword), ("let", .keyword), ("local", .keyword), ("macro", .keyword), ("module", .keyword),
    ("quote", .keyword), ("return", .keywordReturn), ("true", .languageConstant), ("try", .keywordControl),
    ("using", .keyword), ("where", .keyword), ("while", .keywordControl)]

/-- The category of a word: that of the table if the word is reserved, and a name otherwise. -/
def Category.ofWord (w : Text) : Category :=
  match reservedWords.find? (fun entry => entry.1.toList == w) with
  | some entry => entry.2
  | none => .variableName

end JuliaLexer
