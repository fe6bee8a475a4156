import JuliaLexer.Mode
import JuliaLexer.Text.CharSet

/-!
# Character classes: the sets of characters the lexical rules are made of

Letters, digits and punctuation are ASCII, except that every character from U+00A1 on counts as a letter in a name. White
space is the set that ECMAScript calls so; it differs from the Unicode property in having U+FEFF and lacking U+0085. From
U+1680 on a space is also a character that a name may go on with, and the rules settle by their order which of the two it is.
-/

namespace JuliaLexer

/-- White space: the blanks and line ends of ASCII, and the spaces of Unicode. -/
def CharSet.space : CharSet :=
  ⟨[(0x09, 0x0D), (0x20, 0x20), (0xA0, 0xA0), (0x1680, 0x1680), (0x2000, 0x200A), (0x2028, 0x2029), (0x202F, 0x202F),
    (0x205F, 0x205F), (0x3000, 0x3000), (0xFEFF, 0xFEFF)]⟩

/-- The ASCII digits. -/
def CharSet.digit : CharSet := ⟨[(0x30, 0x39)]⟩

/-- The ASCII letters and the underscore. -/
def CharSet.letter : CharSet := ⟨[(0x41, 0x5A), (0x5F, 0x5F), (0x61, 0x7A)]⟩

/-- The characters a word is made of: ASCII letters, digits and the underscore. -/
def CharSet.word : CharSet := digit.union letter

/-- The characters a name can start with: an ASCII letter, the underscore, and everything from U+00A1 on. -/
def CharSet.nameStart : CharSet := letter.union ⟨[(0xA1, 0x10FFFF)]⟩

/-- The characters a name can go on with: those it can start with, and the digits. -/
def CharSet.nameRest : CharSet := digit.union nameStart

/-- The characters that are a token each, quotes apart. -/
def CharSet.punctuation : CharSet :=
  .ofText [':', ',', ';', '{', '}', '[', ']', '.', '=', '(', ')', '>', '^', '+', '-', '<', '?']

/-- The quote itself. -/
def Quote.delimiter (q : Quote) : CharSet := .ofText [q.mark]

/-- What a string between two quotes is made of: every character but the quote. -/
def Quote.content : Quote → CharSet
  | .single => ⟨[(0, 0x26), (0x28, 0x10FFFF)]⟩
  | .double => ⟨[(0, 0x21), (0x23, 0x10FFFF)]⟩

/-! ## Helper lemmas: a string ends at its quote and nowhere else -/

theorem Quote.contains_delimiter (q : Quote) (c : Char) : q.delimiter.contains c = true ↔ c = q.mark := by
  simp [Quote.delimiter, CharSet.contains_ofText]

theorem Quote.contains_content (q : Quote) (c : Char) : q.content.contains c = true ↔ c ≠ q.mark := by
  have hmax : c.toNat ≤ 0x10FFFF := CharSet.toNat_le_max c
  have hmark : c = q.mark ↔ c.toNat = q.mark.toNat := Char.toNat_inj.symm
  rw [ne_eq, hmark]
  cases q with
  | single =>
    have : Quote.single.mark.toNat = 0x27 := rfl
    simp only [CharSet.contains_iff, Quote.content, List.mem_cons, List.not_mem_nil, or_false, exists_eq_or_imp,
      exists_eq_left, this]
    omega
  | double =>
    have : Quote.double.mark.toNat = 0x22 := rfl
    simp only [CharSet.contains_iff, Quote.content, List.mem_cons, List.not_mem_nil, or_false, exists_eq_or_imp,
      exists_eq_left, this]
    omega

end JuliaLexer
