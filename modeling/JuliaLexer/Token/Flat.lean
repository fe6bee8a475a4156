import JuliaLexer.Token

/-!
# Flat form: tokens as a list of 32-bit words

Every token becomes two words, the code of its category and its length. A word holds the low 32 bits of a length, so a length
of 2 ^ 32 or more does not come back; anything else does.
-/

namespace JuliaLexer

/-- The two words of a token: its category's code and the low 32 bits of its length. -/
def Token.flat (t : Token) : List UInt32 := [t.category.code, t.length.toUInt32]

/-- The words of some tokens, one pair after another. -/
def Token.flatAll (ts : List Token) : List UInt32 := ts.flatMap flat

/-- The tokens that a list of words stands for. There are none if a word is left over or a code belongs to no category. -/
def Token.ofFlat? : List UInt32 → Option (List Token)
  | [] => some []
  | [_] => none
  | code :: length :: rest => do
    let category ← Category.ofCode? code
    let ts ← ofFlat? rest
    return ⟨category, length.toNat⟩ :: ts

end JuliaLexer
