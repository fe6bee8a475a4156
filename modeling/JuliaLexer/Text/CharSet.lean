import JuliaLexer.Text

/-!
# Character sets: closed ranges of code points

A lexical class is a finite list of closed ranges of code points, so that a class is data: two classes can be compared, and
membership is a matter of inequalities between natural numbers (`CharSet.contains_iff`).
-/

namespace JuliaLexer

/-- A set of characters, given by closed ranges of code points. -/
structure CharSet where
  ranges : List (Nat × Nat)
  deriving DecidableEq, Repr

/-- Whether a character is in the set: its code point lies in one of the ranges. -/
def CharSet.contains (s : CharSet) (c : Char) : Bool :=
  s.ranges.any (fun r => decide (r.1 ≤ c.toNat) && decide (c.toNat ≤ r.2))

/-- The set without members. -/
def CharSet.empty : CharSet := ⟨[]⟩

/-- The set of the characters of a text. -/
def CharSet.ofText (t : Text) : CharSet := ⟨t.map (fun c => (c.toNat, c.toNat))⟩

/-- The characters that are in one of two sets. -/
def CharSet.union (s s' : CharSet) : CharSet := ⟨s.ranges ++ s'.ranges⟩

/-! ## Helper lemmas: membership -/

theorem CharSet.contains_iff (s : CharSet) (c : Char) :
    s.contains c = true ↔ ∃ r ∈ s.ranges, r.1 ≤ c.toNat ∧ c.toNat ≤ r.2 := by
  simp [CharSet.contains]

/-- No code point is above U+10FFFF. -/
theorem CharSet.toNat_le_max (c : Char) : c.toNat ≤ 0x10FFFF := by
  have := c.valid
  simp only [UInt32.isValidChar, Nat.isValidChar, Char.toNat_val] at this
  omega

theorem CharSet.contains_empty (c : Char) : CharSet.empty.contains c = false := rfl

theorem CharSet.contains_ofText (t : Text) (c : Char) : (CharSet.ofText t).contains c = true ↔ c ∈ t := by
  simp only [CharSet.contains_iff, CharSet.ofText, List.mem_map]
  constructor
  · rintro ⟨_, ⟨d, hd, rfl⟩, hlo, hhi⟩
    have : c = d := Char.toNat_inj.mp (Nat.le_antisymm hhi hlo)
    exact this ▸ hd
  · intro hc
    exact ⟨_, ⟨c, hc, rfl⟩, Nat.le_refl _, Nat.le_refl _⟩

theorem CharSet.contains_union (s s' : CharSet) (c : Char) :
    (s.union s').contains c = (s.contains c || s'.contains c) := by
  simp [CharSet.contains, CharSet.union]

end JuliaLexer
