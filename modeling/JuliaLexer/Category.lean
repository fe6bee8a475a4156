/-!
# Categories: what a span of source text can be

There are fifteen categories, in a fixed catalogue order. Each has a name, by which it is printed and asked for, and a code,
a 32-bit number by which it is stored. A name belongs to one category and so does a code, so both can be looked up again
(`Category.ofName?_name`, `Category.ofCode?_code`).
-/

namespace JuliaLexer

/-- The category of a token, in catalogue order; categories compare by that order. Two of them are never given to a span of
text: `unspecified` is a placeholder and `attribute` is kept for a later use. -/
inductive Category where
  | unspecified
  | keyword
  | whitespace
  | newLine
  | variableName
  | punctuation
  | string
  | numeric
  | attribute
  | keywordReturn
  | languageConstant
  | keywordImport
  | keywordControl
  | keywordOperator
  | keywordFunction
  deriving DecidableEq, Repr, Ord

/-- Every category, in catalogue order. -/
def Category.all : List Category :=
  [.unspecified, .keyword, .whitespace, .newLine, .variableName, .punctuation, .string, .numeric, .attribute,
    .keywordReturn, .languageConstant, .keywordImport, .keywordControl, .keywordOperator, .keywordFunction]

/-- The name of a category. -/
def Category.name : Category → String
  | .unspecified => "None"
  | .keyword => "Keyword"
  | .whitespace => "Whitespace"
  | .newLine => "NewLine"
  | .variableName => "VariableName"
  | .punctuation => "Punctuation"
  | .string => "String"
  | .numeric => "Numeric"
  | .attribute => "Attribute"
  | .keywordReturn => "KeywordReturn"
  | .languageConstant => "LanguageConstant"
  | .keywordImport => "KeywordImport"
  | .keywordControl => "KeywordControl"
  | .keywordOperator => "KeywordOperator"
  | .keywordFunction => "KeywordFunction"

/-- The code of a category. Codes are stable and not consecutive: 1 and 7 are nobody's. -/
def Category.code : Category → UInt32
  | .unspecified => 99999999
  | .keyword => 951
  | .whitespace => 0
  | .newLine => 771
  | .variableName => 2
  | .punctuation => 3
  | .string => 4
  | .numeric => 5
  | .attribute => 6
  | .keywordReturn => 8
  | .languageConstant => 9
  | .keywordImport => 10
  | .keywordControl => 11
  | .keywordOperator => 12
  | .keywordFunction => 13

/-- The category with a given name, spelled exactly so. -/
def Category.ofName? (name : String) : Option Category := all.find? (fun k => k.name == name)

/-- The category with a given code. -/
def Category.ofCode? (code : UInt32) : Option Category := all.find? (fun k => k.code == code)

/-! ## Helper lemmas: the catalogue is complete, names and codes are unique -/

theorem Category.mem_all (k : Category) : k ∈ all := by
  cases k <;> decide

theorem Category.ofName?_name (k : Category) : ofName? k.name = some k := by
  cases k <;> decide

theorem Category.ofCode?_code (k : Category) : ofCode? k.code = some k := by
  cases k <;> decide

end JuliaLexer
