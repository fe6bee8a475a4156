import JuliaLexer.CharClass
import Mathlib.Tactic.SplitIfs

/-!
# Characters: the classes of the lexical rules, said in code points

What the rules call white space, a digit, a letter or punctuation is here a proposition about the code point of a character,
written without `CharSet`; each class of the rules has exactly those members (`CharSet.contains_space` and its siblings).
Two classes overlap only where it is meant: the spaces from U+1680 on can stand inside a name. A character that is in no
class and is no quote is stray, and the stray characters are listed (`IsStray`). `Start.of` sorts the characters by what they
can start at top level; every class is one of its values, so that two classes share no character but those spaces.
-/

namespace JuliaLexer

/-- White space as ECMAScript has it. U+FEFF belongs to it, and U+0085 does not. -/
def IsSpace (c : Char) : Prop :=
  (0x09 ≤ c.toNat ∧ c.toNat ≤ 0x0D) ∨ c.toNat = 0x20 ∨ c.toNat = 0xA0 ∨ c.toNat = 0x1680 ∨
    (0x2000 ≤ c.toNat ∧ c.toNat ≤ 0x200A) ∨ c.toNat = 0x2028 ∨ c.toNat = 0x2029 ∨ c.toNat = 0x202F ∨ c.toNat = 0x205F ∨
    c.toNat = 0x3000 ∨ c.toNat = 0xFEFF

/-- The digits 0 to 9. -/
def IsDigit (c : Char) : Prop := '0'.toNat ≤ c.toNat ∧ c.toNat ≤ '9'.toNat

/-- The letters A to Z and a to z, and the underscore. -/
def IsLetter (c : Char) : Prop :=
  ('A'.toNat ≤ c.toNat ∧ c.toNat ≤ 'Z'.toNat) ∨ c = '_' ∨ ('a'.toNat ≤ c.toNat ∧ c.toNat ≤ 'z'.toNat)

/-- A character of a word: a digit, an ASCII letter or the underscore. -/
def IsWordChar (c : Char) : Prop := IsDigit c ∨ IsLetter c

/-- A character that a name can start with. -/
def IsNameStart (c : Char) : Prop := IsLetter c ∨ 0xA1 ≤ c.toNat

/-- A character that a name can go on with. -/
def IsNameRest (c : Char) : Prop := IsDigit c ∨ IsLetter c ∨ 0xA1 ≤ c.toNat

/-- A character that is a token by itself at top level. -/
def IsPunctuation (c : Char) : Prop :=
  c ∈ [':', ',', ';', '{', '}', '[', ']', '.', '=', '(', ')', '>', '^', '+', '-', '<', '?']

/-- A character that starts no token at top level: the control characters that are not white space, and twelve of ASCII. -/
def IsStray (c : Char) : Prop :=
  c.toNat ≤ 0x08 ∨ (0x0E ≤ c.toNat ∧ c.toNat ≤ 0x1F) ∨ (0x7F ≤ c.toNat ∧ c.toNat ≤ 0x9F) ∨
    c ∈ ['!', '#', '$', '%', '&', '*', '/', '@', '\\', '\x60', '|', '~']

instance : DecidablePred IsSpace := fun _ => inferInstanceAs (Decidable (_ ∨ _))
instance : DecidablePred IsDigit := fun _ => inferInstanceAs (Decidable (_ ∧ _))
instance : DecidablePred IsLetter := fun _ => inferInstanceAs (Decidable (_ ∨ _))
instance : DecidablePred IsWordChar := fun _ => inferInstanceAs (Decidable (_ ∨ _))
instance : DecidablePred IsNameStart := fun _ => inferInstanceAs (Decidable (_ ∨ _))
instance : DecidablePred IsNameRest := fun _ => inferInstanceAs (Decidable (_ ∨ _))
instance : DecidablePred IsPunctuation := fun _ => inferInstanceAs (Decidable (_ ∈ _))
instance : DecidablePred IsStray := fun _ => inferInstanceAs (Decidable (_ ∨ _))

/-! ## Classes in code points -/

theorem isDigit_iff (c : Char) : IsDigit c ↔ 0x30 ≤ c.toNat ∧ c.toNat ≤ 0x39 := Iff.rfl

theorem isLetter_iff (c : Char) :
    IsLetter c ↔ (0x41 ≤ c.toNat ∧ c.toNat ≤ 0x5A) ∨ c.toNat = 0x5F ∨ (0x61 ≤ c.toNat ∧ c.toNat ≤ 0x7A) := by
  simp only [IsLetter, ← Char.toNat_inj, Char.reduceToNat]

theorem isPunctuation_iff (c : Char) :
    IsPunctuation c ↔ (0x28 ≤ c.toNat ∧ c.toNat ≤ 0x29) ∨ (0x2B ≤ c.toNat ∧ c.toNat ≤ 0x2E) ∨
      (0x3A ≤ c.toNat ∧ c.toNat ≤ 0x3F) ∨ c.toNat = 0x5B ∨ (0x5D ≤ c.toNat ∧ c.toNat ≤ 0x5E) ∨
      c.toNat = 0x7B ∨ c.toNat = 0x7D := by
  simp only [IsPunctuation, List.mem_cons, List.not_mem_nil, or_false, ← Char.toNat_inj, Char.reduceToNat]
  omega

theorem isStray_iff_toNat (c : Char) :
    IsStray c ↔ c.toNat ≤ 0x08 ∨ (0x0E ≤ c.toNat ∧ c.toNat ≤ 0x1F) ∨ c.toNat = 0x21 ∨
      (0x23 ≤ c.toNat ∧ c.toNat ≤ 0x26) ∨ c.toNat = 0x2A ∨ c.toNat = 0x2F ∨ c.toNat = 0x40 ∨ c.toNat = 0x5C ∨
      c.toNat = 0x60 ∨ c.toNat = 0x7C ∨ (0x7E ≤ c.toNat ∧ c.toNat ≤ 0x9F) := by
  simp only [IsStray, List.mem_cons, List.not_mem_nil, or_false, ← Char.toNat_inj, Char.reduceToNat]
  omega

theorem Quote.eq_single_iff (c : Char) : c = Quote.single.mark ↔ c.toNat = 0x27 := Char.toNat_inj.symm

theorem Quote.eq_double_iff (c : Char) : c = Quote.double.mark ↔ c.toNat = 0x22 := Char.toNat_inj.symm

theorem Quote.mark_ne_newline (q : Quote) : q.mark ≠ '\n' := by
  cases q <;> decide

/-- A character that a name starts with can also stand later in it. -/
theorem IsNameStart.nameRest {c : Char} (h : IsNameStart c) : IsNameRest c := Or.inr h

/-- A character of a word can stand in a name. -/
theorem IsWordChar.nameRest {c : Char} (h : IsWordChar c) : IsNameRest c := by
  rcases h with h | h
  · exact Or.inl h
  · exact Or.inr (Or.inl h)

/-! ## The classes of the rules have these members -/

theorem CharSet.contains_space (c : Char) : CharSet.space.contains c = true ↔ IsSpace c := by
  simp only [CharSet.contains_iff, CharSet.space, List.mem_cons, List.not_mem_nil, or_false, exists_eq_or_imp,
    exists_eq_left, IsSpace]
  omega

theorem CharSet.contains_digit (c : Char) : CharSet.digit.contains c = true ↔ IsDigit c := by
  simp only [CharSet.contains_iff, CharSet.digit, List.mem_singleton, exists_eq_left, isDigit_iff]

theorem CharSet.contains_letter (c : Char) : CharSet.letter.contains c = true ↔ IsLetter c := by
  simp only [CharSet.contains_iff, CharSet.letter, List.mem_cons, List.not_mem_nil, or_false, exists_eq_or_imp,
    exists_eq_left, isLetter_iff]
  omega

theorem CharSet.contains_word (c : Char) : CharSet.word.contains c = true ↔ IsWordChar c := by
  rw [CharSet.word, CharSet.contains_union, Bool.or_eq_true, CharSet.contains_digit, CharSet.contains_letter, IsWordChar]

/-- Everything from U+00A1 on is a character up to U+10FFFF. -/
theorem CharSet.contains_fromA1 (c : Char) : CharSet.contains ⟨[(0xA1, 0x10FFFF)]⟩ c = true ↔ 0xA1 ≤ c.toNat := by
  have hmax : c.toNat ≤ 0x10FFFF := CharSet.toNat_le_max c
  simp only [CharSet.contains_iff, List.mem_singleton, exists_eq_left]
  omega

theorem CharSet.contains_nameStart (c : Char) : CharSet.nameStart.contains c = true ↔ IsNameStart c := by
  rw [CharSet.nameStart, CharSet.contains_union, Bool.or_eq_true, CharSet.contains_letter, CharSet.contains_fromA1,
    IsNameStart]

theorem CharSet.contains_nameRest (c : Char) : CharSet.nameRest.contains c = true ↔ IsNameRest c := by
  rw [CharSet.nameRest, CharSet.contains_union, Bool.or_eq_true, CharSet.contains_digit, CharSet.contains_nameStart,
    IsNameStart, IsNameRest]

theorem CharSet.contains_punctuation (c : Char) : CharSet.punctuation.contains c = true ↔ IsPunctuation c :=
  CharSet.contains_ofText _ c

/-! ## What a character starts at top level -/

/-- What a character can start at top level. -/
inductive Start where
  | space
  | name
  | digit
  | punctuation
  | quote (q : Quote)
  | stray
  deriving DecidableEq, Repr

/-- What a character starts at top level. White space is asked for first, since some of it could also start a name. -/
def Start.of (c : Char) : Start :=
  if IsSpace c then .space
  else if IsNameStart c then .name
  else if IsDigit c then .digit
  else if IsPunctuation c then .punctuation
  else if c = Quote.single.mark then .quote .single
  else if c = Quote.double.mark then .quote .double
  else .stray

theorem Start.of_eq_space_iff (c : Char) : Start.of c = .space ↔ IsSpace c := by
  unfold Start.of
  split_ifs <;> simp_all

theorem Start.of_eq_name_iff (c : Char) : Start.of c = .name ↔ IsNameStart c ∧ ¬IsSpace c := by
  unfold Start.of
  split_ifs <;> simp_all

theorem Start.of_eq_digit_iff (c : Char) : Start.of c = .digit ↔ IsDigit c := by
  simp only [Start.of, IsSpace, IsNameStart, isLetter_iff, isDigit_iff]
  split_ifs <;> simp only [false_iff, true_iff] <;> omega

theorem Start.of_eq_punctuation_iff (c : Char) : Start.of c = .punctuation ↔ IsPunctuation c := by
  simp only [Start.of, IsSpace, IsNameStart, isLetter_iff, isDigit_iff, isPunctuation_iff]
  split_ifs <;> simp only [false_iff, true_iff] <;> omega

theorem Start.of_eq_quote_iff (q : Quote) (c : Char) : Start.of c = .quote q ↔ c = q.mark := by
  simp only [Start.of, IsSpace, IsNameStart, isLetter_iff, isDigit_iff, isPunctuation_iff, Quote.eq_single_iff,
    Quote.eq_double_iff]
  cases q <;> simp only [Quote.eq_single_iff, Quote.eq_double_iff] <;> split_ifs <;>
    simp only [reduceCtorEq, Start.quote.injEq, false_iff, true_iff] <;> omega

theorem Start.of_eq_stray_iff (c : Char) : Start.of c = .stray ↔ IsStray c := by
  simp only [Start.of, IsSpace, IsNameStart, isLetter_iff, isDigit_iff, isPunctuation_iff, Quote.eq_single_iff,
    Quote.eq_double_iff, isStray_iff_toNat]
  split_ifs <;> simp only [false_iff, true_iff] <;> omega

end JuliaLexer
