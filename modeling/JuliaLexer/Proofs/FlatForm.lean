import JuliaLexer.Line
import JuliaLexer.Token.Flat
import Mathlib.Data.List.Forall2
import Mathlib.Data.Nat.ModEq

/-!
# Flat form: which words stand for which tokens

The words of some tokens are read back as these tokens with the low 32 bits of their lengths (`Token.low`), and reading accepts
nothing but the words of tokens whose lengths fit (`Token.ofFlat?_eq_some_iff`). So the flat form loses the upper bits of the
lengths and nothing else: it takes every category apart from every other, although codes are given by one table and looked up
in another.
-/

namespace JuliaLexer

/-- A token with the low 32 bits of its length. -/
def Token.low (t : Token) : Token := ⟨t.category, t.length % 2 ^ 32⟩

/-! ## Codes -/

/-- A code is looked up as the category whose code it is. -/
theorem Category.ofCode?_eq_some_iff {code : UInt32} {k : Category} : ofCode? code = some k ↔ k.code = code := by
  constructor
  · intro h
    unfold Category.ofCode? at h
    have hcode := List.find?_some h
    exact beq_iff_eq.mp hcode
  · rintro rfl
    exact Category.ofCode?_code k

/-! ## Words and tokens -/

theorem Token.low_length_lt (t : Token) : t.low.length < 2 ^ 32 := Nat.mod_lt _ (by decide)

theorem Token.flatAll_cons (t : Token) (ts : List Token) :
    flatAll (t :: ts) = t.category.code :: t.length.toUInt32 :: flatAll ts := rfl

/-- The upper bits of a length are in no word. -/
theorem Token.flatAll_map_low (ts : List Token) : flatAll (ts.map low) = flatAll ts := by
  induction ts with
  | nil => rfl
  | cons t ts ih =>
    have hlength : (t.length % 2 ^ 32).toUInt32 = t.length.toUInt32 := by
      rw [← UInt32.toNat_inj]
      simp
    rw [List.map_cons, flatAll_cons, flatAll_cons, ih, Token.low, hlength]

/-- Two words in front are read as a token in front. -/
theorem Token.ofFlat?_cons_cons_eq_some_iff {code length : UInt32} {rest : List UInt32} {ts : List Token} :
    ofFlat? (code :: length :: rest) = some ts ↔
      ∃ k ts', Category.ofCode? code = some k ∧ ofFlat? rest = some ts' ∧ ts = ⟨k, length.toNat⟩ :: ts' := by
  simp only [ofFlat?, Option.bind_eq_bind, Option.bind_eq_some_iff, Option.pure_def, Option.some.injEq]
  constructor
  · rintro ⟨k, hk, ts', hts', rfl⟩
    exact ⟨k, ts', hk, hts', rfl⟩
  · rintro ⟨k, ts', hk, hts', rfl⟩
    exact ⟨k, hk, ts', hts', rfl⟩

/-- The words that are read as some tokens are the words of these tokens, and the lengths of the tokens fit in a word. -/
theorem Token.ofFlat?_eq_some_iff {ws : List UInt32} {ts : List Token} :
    ofFlat? ws = some ts ↔ flatAll ts = ws ∧ ∀ t ∈ ts, t.length < 2 ^ 32 := by
  -- on the words two at a time, as they are read
  induction ws using Token.ofFlat?.induct generalizing ts with
  | case1 =>
    cases ts with
    | nil => simp [ofFlat?, flatAll]
    | cons t ts => simp [ofFlat?, flatAll_cons]
  | case2 w =>
    cases ts with
    | nil => simp [ofFlat?, flatAll]
    | cons t ts => simp [ofFlat?, flatAll_cons]
  | case3 code length rest ih =>
    rw [ofFlat?_cons_cons_eq_some_iff]
    constructor
    · rintro ⟨k, ts', hk, hts', rfl⟩
      obtain ⟨hrest, hfit⟩ := ih.mp hts'
      refine ⟨?_, List.forall_mem_cons.mpr ⟨length.toNat_lt, hfit⟩⟩
      rw [flatAll_cons, Category.ofCode?_eq_some_iff.mp hk, hrest, Nat.toUInt32_eq, UInt32.ofNat_toNat]
    · rintro ⟨hwords, hfit⟩
      cases ts with
      | nil => cases hwords
      | cons t ts =>
        obtain ⟨hlength, hfit⟩ := List.forall_mem_cons.mp hfit
        rw [flatAll_cons, List.cons.injEq, List.cons.injEq] at hwords
        obtain ⟨hcode, rfl, hrest⟩ := hwords
        refine ⟨t.category, ts, Category.ofCode?_eq_some_iff.mpr hcode, ih.mpr ⟨hrest, hfit⟩, ?_⟩
        rw [Nat.toUInt32_eq, UInt32.toNat_ofNat_of_lt' hlength]

/-- What is read from the words of some tokens. -/
theorem Token.ofFlat?_flatAll (ts : List Token) : ofFlat? (flatAll ts) = some (ts.map low) := by
  rw [Token.ofFlat?_eq_some_iff]
  refine ⟨flatAll_map_low ts, ?_⟩
  intro t ht
  obtain ⟨t', -, rfl⟩ := List.mem_map.mp ht
  exact low_length_lt t'

/-- Tokens are the same in the low bits exactly if they are so one by one. -/
theorem Token.map_low_eq_iff {ts ts' : List Token} :
    ts.map low = ts'.map low ↔
      List.Forall₂ (fun t t' => t.category = t'.category ∧ t.length ≡ t'.length [MOD 2 ^ 32]) ts ts' := by
  rw [← List.forall₂_eq_eq_eq, List.forall₂_map_left_iff, List.forall₂_map_right_iff]
  simp only [Token.low, Token.mk.injEq]
  rfl

/-- The flat form decodes. What is read from the words of a line's tokens are the same tokens with their lengths modulo
2 ^ 32, so exactly the tokens where all lengths fit in a word; where a list of words is read as some tokens, it is the list of
their words; and two lists of tokens have the same words exactly if they are equally long and their tokens agree one by one, in
category and in length modulo 2 ^ 32. -/
theorem Token.flat_form_decodes :
    (∀ l : LineTokens,
      ofFlat? (flatAll l.tokens) = some (l.tokens.map (fun t => ⟨t.category, t.length % 2 ^ 32⟩))) ∧
    (∀ l : LineTokens, (∀ t ∈ l.tokens, t.length < 2 ^ 32) → ofFlat? (flatAll l.tokens) = some l.tokens) ∧
    (∀ ws ts, ofFlat? ws = some ts → flatAll ts = ws) ∧
    (∀ ts ts', flatAll ts = flatAll ts' ↔
      List.Forall₂ (fun t t' => t.category = t'.category ∧ t.length ≡ t'.length [MOD 2 ^ 32]) ts ts') := by
  refine ⟨fun l => ofFlat?_flatAll l.tokens, ?_, ?_, ?_⟩
  · intro l hfit
    exact ofFlat?_eq_some_iff.mpr ⟨rfl, hfit⟩
  · intro ws ts h
    exact (ofFlat?_eq_some_iff.mp h).1
  · intro ts ts'
    rw [← map_low_eq_iff]
    constructor
    · intro h
      have hread := ofFlat?_flatAll ts
      rw [h, ofFlat?_flatAll] at hread
      exact (Option.some.inj hread).symm
    · intro h
      rw [← flatAll_map_low ts, h, flatAll_map_low]

/-- A string of 2 ^ 32 + 5 characters comes back as one of 5, which has the same words; a short name and a newline come back
as they are. -/
theorem Token.flat_form_decodes_long_string :
    ofFlat? (flatAll [⟨.string, 2 ^ 32 + 5⟩, ⟨.newLine, 1⟩]) = some [⟨.string, 5⟩, ⟨.newLine, 1⟩] ∧
      ofFlat? (flatAll [⟨.variableName, 3⟩, ⟨.newLine, 1⟩]) = some [⟨.variableName, 3⟩, ⟨.newLine, 1⟩] ∧
      flatAll [⟨.variableName, 3⟩, ⟨.newLine, 1⟩] = [2, 3, 771, 1] ∧
      flatAll [⟨.string, 2 ^ 32 + 5⟩] = flatAll [⟨.string, 5⟩] := by
  obtain ⟨hlow, hfit, hwords, hsame⟩ := Token.flat_form_decodes
  refine ⟨hlow ⟨_, .topLevel⟩, hfit ⟨_, .topLevel⟩ (by decide), hwords _ _ (by decide), (hsame _ _).mpr ?_⟩
  exact List.forall₂_cons.mpr ⟨⟨rfl, by decide⟩, .nil⟩

end JuliaLexer
