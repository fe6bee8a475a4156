import JuliaLexer.Proofs.Automaton
import Mathlib.Data.List.Forall2

/-!
# Likeness: what reading a line does not depend on

In code a character counts only by its kind (`CharKind`), of which there are finitely many: a small letter counts as itself,
since the reserved words are made of small letters, and any other character only as one of a few sorts. In a string all that
counts is whether a character closes it. So two lines that look alike, character by character and in the region that the
quotes of the first have led to, are read into the same tokens, or fail at the same place
(`tokenizeLine_of_sameLook`); and nothing that stands inside a string matters but its length.
-/

namespace JuliaLexer

/-- What the rules can tell of a character in code. -/
inductive CharKind where
  /-- A letter from a to z, each a kind of its own. -/
  | small (i : Fin 26)
  /-- A letter from A to Z or the underscore. -/
  | capital
  | digit
  /-- White space that cannot stand in a name: that of ASCII, and U+00A0. -/
  | blank
  /-- White space that can stand in a name. -/
  | wideSpace
  /-- Any other character from U+00A1 on. -/
  | beyond
  | punctuation
  | quote (q : Quote)
  /-- What is left: a character that starts no token. -/
  | stray
  deriving DecidableEq, Repr

/-- The kind of a character. -/
def CharKind.of (c : Char) : CharKind :=
  if h : 0x61 ≤ c.toNat ∧ c.toNat ≤ 0x7A then .small ⟨c.toNat - 0x61, by omega⟩
  else if (0x41 ≤ c.toNat ∧ c.toNat ≤ 0x5A) ∨ c.toNat = 0x5F then .capital
  else if IsDigit c then .digit
  else if (0x09 ≤ c.toNat ∧ c.toNat ≤ 0x0D) ∨ c.toNat = 0x20 ∨ c.toNat = 0xA0 then .blank
  else if c.toNat = 0x1680 ∨ (0x2000 ≤ c.toNat ∧ c.toNat ≤ 0x200A) ∨ c.toNat = 0x2028 ∨ c.toNat = 0x2029 ∨
      c.toNat = 0x202F ∨ c.toNat = 0x205F ∨ c.toNat = 0x3000 ∨ c.toNat = 0xFEFF then .wideSpace
  else if 0xA1 ≤ c.toNat then .beyond
  else if IsPunctuation c then .punctuation
  else if c = Quote.single.mark then .quote .single
  else if c = Quote.double.mark then .quote .double
  else .stray

/-- The region after a character, where quotes open and close strings and nothing else changes it. -/
def Region.after : Region → Char → Region
  | .code, c =>
    if c = '\'' then .string .single else if c = '"' then .string .double else .code
  | .string q, c => if c = q.mark then .code else .string q

/-- The region after the characters of a text. -/
def Region.afterText (r : Region) (t : Text) : Region := t.foldl Region.after r

/-- Two characters look alike: in code if they are of the same kind, and in a string if both close it or neither does. -/
def Region.SameLook : Region → Char → Char → Prop
  | .code, c, d => CharKind.of c = CharKind.of d
  | .string q, c, d => c = q.mark ↔ d = q.mark

instance (r : Region) (c d : Char) : Decidable (r.SameLook c d) :=
  match r with
  | .code => inferInstanceAs (Decidable (_ = _))
  | .string _ => inferInstanceAs (Decidable (_ ↔ _))

/-- `Alike r t t'`: from region `r` the texts `t` and `t'` look alike character by character, each pair in the region that the
characters of `t` before it lead to. -/
inductive Alike : Region → Text → Text → Prop where
  | nil (r : Region) : Alike r [] []
  | cons {r : Region} {c d : Char} {t t' : Text} : r.SameLook c d → Alike (r.after c) t t' → Alike r (c :: t) (d :: t')

instance Alike.decidable (r : Region) : (t t' : Text) → Decidable (Alike r t t')
  | [], [] => isTrue (.nil r)
  | [], _ :: _ => isFalse nofun
  | _ :: _, [] => isFalse nofun
  | c :: t, d :: t' =>
    have := Alike.decidable (r.after c) t t'
    decidable_of_iff (r.SameLook c d ∧ Alike (r.after c) t t') ⟨fun ⟨h, h'⟩ => .cons h h', fun | .cons h h' => ⟨h, h'⟩⟩

/-- Two lines give the same: the same tokens and the same mode, or a failure in the same mode and at the same column. -/
inductive SameOutcome : Except LexError LineTokens → Except LexError LineTokens → Prop where
  | ok (l : LineTokens) : SameOutcome (.ok l) (.ok l)
  | error (m : Mode) (column : Nat) (rest rest' : Text) :
      SameOutcome (.error (.unmatched m column rest)) (.error (.unmatched m column rest'))

/-! ## Helpers: what the kind of a character tells -/

/-- What characters of a kind start at top level. -/
def CharKind.start : CharKind → Start
  | .small _ | .capital | .beyond => .name
  | .digit => .digit
  | .blank | .wideSpace => .space
  | .punctuation => .punctuation
  | .quote q => .quote q
  | .stray => .stray

/-- Whether characters of a kind can stand in a word. -/
def CharKind.inWord : CharKind → Bool
  | .small _ | .capital | .digit => true
  | _ => false

/-- Whether characters of a kind can stand in a name. -/
def CharKind.inName : CharKind → Bool
  | .wideSpace | .beyond => true
  | k => k.inWord

/-- The characters of a kind. -/
def CharKind.Has : CharKind → Char → Prop
  | .small i, c => c.toNat = 0x61 + i.val
  | .capital, c => (0x41 ≤ c.toNat ∧ c.toNat ≤ 0x5A) ∨ c.toNat = 0x5F
  | .digit, c => IsDigit c
  | .blank, c => IsSpace c ∧ c.toNat < 0xA1
  | .wideSpace, c => IsSpace c ∧ 0xA1 ≤ c.toNat
  | .beyond, c => ¬IsSpace c ∧ 0xA1 ≤ c.toNat
  | .punctuation, c => IsPunctuation c
  | .quote q, c => c = q.mark
  | .stray, c => IsStray c

theorem CharKind.has_of (c : Char) : (CharKind.of c).Has c := by
  unfold CharKind.of
  split_ifs with hsmall hcapital hdigit hblank hwide hbeyond hpunctuation hsingle hdouble
  · simp only [CharKind.Has]
    omega
  · exact hcapital
  · exact hdigit
  · simp only [CharKind.Has, IsSpace]
    omega
  · simp only [CharKind.Has, IsSpace]
    omega
  · simp only [CharKind.Has, IsSpace]
    omega
  · exact hpunctuation
  · exact hsingle
  · exact hdouble
  · rw [isDigit_iff] at hdigit
    rw [isPunctuation_iff] at hpunctuation
    rw [Quote.eq_single_iff] at hsingle
    rw [Quote.eq_double_iff] at hdouble
    rw [CharKind.Has, isStray_iff_toNat]
    omega

theorem CharKind.Has.start_eq {k : CharKind} {c : Char} (h : k.Has c) : Start.of c = k.start := by
  cases k with
  | small i =>
    refine (Start.of_eq_name_iff c).mpr ?_
    simp only [CharKind.Has] at h
    simp only [IsNameStart, isLetter_iff, IsSpace]
    omega
  | capital =>
    refine (Start.of_eq_name_iff c).mpr ?_
    simp only [CharKind.Has] at h
    simp only [IsNameStart, isLetter_iff, IsSpace]
    omega
  | digit => exact (Start.of_eq_digit_iff c).mpr h
  | blank => exact (Start.of_eq_space_iff c).mpr h.1
  | wideSpace => exact (Start.of_eq_space_iff c).mpr h.1
  | beyond => exact (Start.of_eq_name_iff c).mpr ⟨Or.inr h.2, h.1⟩
  | punctuation => exact (Start.of_eq_punctuation_iff c).mpr h
  | quote q => exact (Start.of_eq_quote_iff q c).mpr h
  | stray => exact (Start.of_eq_stray_iff c).mpr h

/-- The kind of a character tells whether it can stand in a word, and whether in a name. -/
theorem CharKind.Has.inWord_inName {k : CharKind} {c : Char} (h : k.Has c) :
    (IsWordChar c ↔ k.inWord = true) ∧ (IsNameRest c ↔ k.inName = true) := by
  simp only [IsWordChar, IsNameRest, isDigit_iff, isLetter_iff]
  rcases k with _ | _ | _ | _ | _ | _ | _ | (_ | _) | _ <;>
    simp only [CharKind.Has, isDigit_iff, IsSpace, isPunctuation_iff, Quote.eq_single_iff, Quote.eq_double_iff,
      isStray_iff_toNat] at h <;>
    simp only [CharKind.inWord, CharKind.inName, Bool.false_eq_true, iff_true, iff_false] <;>
    omega

/-- A small letter is the only character of its kind. -/
theorem CharKind.eq_of_of_eq {c d : Char} (hc : 0x61 ≤ c.toNat ∧ c.toNat ≤ 0x7A) (h : CharKind.of c = CharKind.of d) :
    c = d := by
  have hkind : CharKind.of c = .small ⟨c.toNat - 0x61, by omega⟩ := dif_pos hc
  have hd := CharKind.has_of d
  rw [← h, hkind] at hd
  have hcode : d.toNat = 0x61 + (c.toNat - 0x61) := hd
  exact Char.toNat_inj.mp (by omega)

/-- Reserved words are made of small letters. -/
theorem IsReserved.small {w : Text} (h : IsReserved w) : ∀ c ∈ w, 0x61 ≤ c.toNat ∧ c.toNat ≤ 0x7A := by
  have hall : ∀ w ∈ (reservedWords.map (·.1)).map String.toList,
      w.all (fun c => decide (0x61 ≤ c.toNat ∧ c.toNat ≤ 0x7A)) = true := by decide +kernel
  exact fun c hc => of_decide_eq_true (List.all_eq_true.mp (hall w h) c hc)

/-- Two characters are of the same kind. -/
def SameKind (c d : Char) : Prop := CharKind.of c = CharKind.of d

theorem SameKind.symm {c d : Char} (h : SameKind c d) : SameKind d c := Eq.symm h

theorem SameKind.start_of {c d : Char} (h : SameKind c d) : Start.of c = Start.of d := by
  rw [(CharKind.has_of c).start_eq, (CharKind.has_of d).start_eq, h]

theorem SameKind.isSpace {c d : Char} (h : SameKind c d) : IsSpace c ↔ IsSpace d := by
  rw [← Start.of_eq_space_iff, ← Start.of_eq_space_iff, h.start_of]

theorem SameKind.isDigit {c d : Char} (h : SameKind c d) : IsDigit c ↔ IsDigit d := by
  rw [← Start.of_eq_digit_iff, ← Start.of_eq_digit_iff, h.start_of]

theorem SameKind.isWordChar {c d : Char} (h : SameKind c d) : IsWordChar c ↔ IsWordChar d := by
  rw [(CharKind.has_of c).inWord_inName.1, (CharKind.has_of d).inWord_inName.1, h]

theorem SameKind.isNameRest {c d : Char} (h : SameKind c d) : IsNameRest c ↔ IsNameRest d := by
  rw [(CharKind.has_of c).inWord_inName.2, (CharKind.has_of d).inWord_inName.2, h]

/-! ## Helpers: texts of the same kinds -/

theorem forall₂_sameKind_symm {l l' : Text} (h : List.Forall₂ SameKind l l') : List.Forall₂ SameKind l' l :=
  (h.imp (fun _ _ hcd => hcd.symm)).flip

/-- What holds of all of some characters holds of all of others, if it passes on to each from the one that is related to it. -/
theorem forall_mem_of_forall₂ {R : Char → Char → Prop} {P : Char → Prop} (hP : ∀ c d, R c d → P c → P d) {l l' : Text}
    (h : List.Forall₂ R l l') (hl : ∀ c ∈ l, P c) : ∀ d ∈ l', P d := by
  induction h with
  | nil => exact nofun
  | cons hcd _ ih =>
    obtain ⟨hc, hl⟩ := List.forall_mem_cons.mp hl
    exact List.forall_mem_cons.mpr ⟨hP _ _ hcd hc, ih hl⟩

/-- A text of the same kinds as one that is not empty is not empty. -/
theorem ne_nil_of_forall₂ {R : Char → Char → Prop} {l l' : Text} (h : List.Forall₂ R l l') (hl : l ≠ []) : l' ≠ [] := by
  cases h with
  | nil => exact hl
  | cons => exact List.cons_ne_nil _ _

/-- A text of small letters is the only one of its kinds. -/
theorem eq_of_forall₂_small {w w' : Text} (h : List.Forall₂ SameKind w w')
    (hw' : ∀ d ∈ w', 0x61 ≤ d.toNat ∧ d.toNat ≤ 0x7A) : w = w' := by
  induction h with
  | nil => rfl
  | cons hcd _ ih =>
    obtain ⟨hd, hw'⟩ := List.forall_mem_cons.mp hw'
    rw [CharKind.eq_of_of_eq hd hcd.symm, ih hw']

/-- Texts of the same kinds start with words of the same kinds. -/
theorem forall₂_leadingWord {l l' : Text} (h : List.Forall₂ SameKind l l') :
    List.Forall₂ SameKind l.leadingWord l'.leadingWord := by
  induction h with
  | nil => exact .nil
  | @cons c d l l' hcd _ ih =>
    unfold Text.leadingWord at ih ⊢
    by_cases hc : IsWordChar c
    · simp only [List.takeWhile_cons, hc, hcd.isWordChar.mp hc, decide_true, if_true]
      exact .cons hcd ih
    · have hd : ¬IsWordChar d := fun hd => hc (hcd.isWordChar.mpr hd)
      simp only [List.takeWhile_cons, hc, hd, decide_false, Bool.false_eq_true, if_false]
      exact .nil

/-- A text that starts with a reserved word has the same kinds only as texts that start with the same one. -/
theorem isReserved_leadingWord_of_forall₂ {l l' : Text} (h : List.Forall₂ SameKind l l')
    (hl' : IsReserved l'.leadingWord) : IsReserved l.leadingWord :=
  eq_of_forall₂_small (forall₂_leadingWord h) hl'.small ▸ hl'

/-! ## Helpers: regions -/

theorem Region.after_of_next? {r r' : Region} {c : Char} (h : r.next? c = some r') : r.after c = r' := by
  cases r with
  | code =>
    simp only [Region.next?] at h
    simp only [Region.after]
    split_ifs at h with hsingle hdouble
    · rw [if_pos hsingle]
      exact Option.some.inj h
    · rw [if_neg hsingle, if_pos hdouble]
      exact Option.some.inj h
    · rw [if_neg hsingle, if_neg hdouble]
      exact Option.some.inj h
  | string q =>
    simp only [Region.next?] at h
    simp only [Region.after]
    split_ifs at h with hmark
    · rw [if_pos hmark]
      exact Option.some.inj h
    · rw [if_neg hmark]
      exact Option.some.inj h

/-- Where the automaton accepts a text, the quotes of the text lead to the region in which it ends. -/
theorem Region.afterText_of_run {r r' : Region} {t : Text} (h : r.run t = .accepted r') : r.afterText t = r' := by
  induction t generalizing r with
  | nil =>
    cases h
    rfl
  | cons c t ih =>
    rw [Region.run_cons] at h
    cases hc : r.next? c with
    | none =>
      rw [hc] at h
      cases h
    | some r₁ =>
      simp only [hc] at h
      rw [Region.afterText, List.foldl_cons, Region.after_of_next? hc]
      cases hrun : r₁.run t with
      | accepted r₂ =>
        rw [hrun] at h
        cases h
        exact ih hrun
      | rejected i =>
        rw [hrun] at h
        cases h

theorem Region.mode_inj {r r' : Region} (h : r.mode = r'.mode) : r = r' := by
  cases r <;> cases r' <;> simp_all [Region.mode]

theorem Region.SameLook.refl (r : Region) (c : Char) : r.SameLook c c := by
  cases r with
  | code => exact Eq.refl _
  | string q => exact Iff.rfl

/-- Characters that look alike move the automaton alike. -/
theorem Region.SameLook.next?_eq {r : Region} {c d : Char} (h : r.SameLook c d) : r.next? c = r.next? d := by
  cases r with
  | code => rw [Region.next?_code, Region.next?_code, SameKind.start_of h]
  | string q =>
    have hmark : c = q.mark ↔ d = q.mark := h
    simp only [Region.next?, hmark]

/-! ## Helpers: texts that look alike -/

theorem Alike.refl (r : Region) (t : Text) : Alike r t t := by
  induction t generalizing r with
  | nil => exact .nil r
  | cons c t ih => exact .cons (.refl r c) (ih _)

theorem Alike.append {r : Region} {a a' b b' : Text} (h : Alike r a a') (h' : Alike (r.afterText a) b b') :
    Alike r (a ++ b) (a' ++ b') := by
  induction h with
  | nil => exact h'
  | cons hcd _ ih => exact .cons hcd (ih h')

/-- A text that looks like two texts put together is two texts that look like them. -/
theorem Alike.exists_of_append {r : Region} {a b t : Text} (h : Alike r (a ++ b) t) :
    ∃ a' b', t = a' ++ b' ∧ Alike r a a' ∧ Alike (r.afterText a) b b' := by
  induction a generalizing r t with
  | nil => exact ⟨[], t, rfl, .nil r, h⟩
  | cons c a ih =>
    cases h with
    | @cons _ _ d _ t' hcd hrest =>
      obtain ⟨a', b', rfl, ha, hb⟩ := ih hrest
      exact ⟨d :: a', b', rfl, .cons hcd ha, hb⟩

theorem Alike.length_eq {r : Region} {t t' : Text} (h : Alike r t t') : t.length = t'.length := by
  induction h with
  | nil => rfl
  | cons _ _ ih => rw [List.length_cons, List.length_cons, ih]

/-- A first character has one that looks like it. -/
theorem Alike.exists_head {r : Region} {t t' : Text} (h : Alike r t t') : ∀ d ∈ t'.head?, ∃ c ∈ t.head?, r.SameLook c d := by
  cases h with
  | nil => exact nofun
  | @cons _ c d _ _ hcd _ =>
    intro d' hd'
    cases hd'
    exact ⟨c, rfl, hcd⟩

/-- Where the region stays the same, each pair of characters looks alike in it. -/
theorem Alike.forall₂ {r : Region} {l l' : Text} (h : Alike r l l') (hl : ∀ c ∈ l, r.next? c = some r) :
    List.Forall₂ r.SameLook l l' := by
  induction h with
  | nil => exact .nil
  | cons hcd _ ih =>
    obtain ⟨hc, hl⟩ := List.forall_mem_cons.mp hl
    rw [Region.after_of_next? hc] at ih
    exact .cons hcd (ih hl)

/-- Texts look alike if they are as long and look alike at every position. -/
theorem alike_iff_positions {r : Region} {t t' : Text} :
    Alike r t t' ↔
      t.length = t'.length ∧ ∀ i < t.length, ∀ c ∈ t[i]?, ∀ d ∈ t'[i]?, (r.afterText (t.take i)).SameLook c d := by
  constructor
  · intro h
    refine ⟨h.length_eq, ?_⟩
    induction h with
    | nil => exact nofun
    | cons hcd _ ih =>
      intro i hi
      cases i with
      | zero =>
        rintro _ ⟨⟩ _ ⟨⟩
        exact hcd
      | succ i => exact ih i (Nat.lt_of_succ_lt_succ hi)
  · rintro ⟨hlen, h⟩
    induction t generalizing r t' with
    | nil =>
      rw [List.eq_nil_of_length_eq_zero hlen.symm]
      exact .nil r
    | cons c t ih =>
      obtain ⟨d, t', rfl⟩ := List.exists_cons_of_length_eq_add_one hlen.symm
      refine .cons (h 0 (Nat.succ_pos _) c rfl d rfl) (ih (Nat.succ.inj hlen) ?_)
      intro i hi
      exact h (i + 1) (Nat.succ_lt_succ hi)

/-- In a string, texts of the same length that do not close it look alike, whatever they hold. -/
theorem alike_of_content {q : Quote} {w w' : Text} (hlen : w.length = w'.length) (hw : q.mark ∉ w) (hw' : q.mark ∉ w') :
    Alike (.string q) w w' := by
  induction w generalizing w' with
  | nil =>
    rw [List.eq_nil_of_length_eq_zero hlen.symm]
    exact .nil _
  | cons c w ih =>
    obtain ⟨d, w', rfl⟩ := List.exists_cons_of_length_eq_add_one hlen.symm
    obtain ⟨hc, hw⟩ := not_or.mp (mt List.mem_cons.mpr hw)
    obtain ⟨hd, hw'⟩ := not_or.mp (mt List.mem_cons.mpr hw')
    refine .cons ⟨fun h => absurd h.symm hc, fun h => absurd h.symm hd⟩ ?_
    rw [Region.after, if_neg (Ne.symm hc)]
    exact ih (Nat.succ.inj hlen) hw hw'

/-- The automaton ends alike on texts that look alike. -/
theorem Alike.run_eq {r : Region} {t t' : Text} (h : Alike r t t') : r.run t = r.run t' := by
  induction h with
  | nil => rfl
  | @cons r c d t t' hcd _ ih =>
    rw [Region.run_cons, Region.run_cons, ← hcd.next?_eq]
    cases hc : r.next? c with
    | none => rfl
    | some r' =>
      rw [Region.after_of_next? hc] at ih
      simp only [ih]

/-! ## Helpers: lexemes and readings of texts that look alike -/

/-- A text of the same kinds as a lexeme in code is a lexeme of the same category, if what follows it is of the same kind as
what follows that. -/
theorem Lexeme.of_sameKind {k : Category} {l l' : Text} {m' : Mode} {n n' : Option Char} (h : Lexeme .topLevel k l m' n)
    (hl : List.Forall₂ SameKind l l') (hn : m' = .topLevel → ∀ d ∈ n', ∃ c ∈ n, SameKind c d) :
    Lexeme .topLevel k l' m' n' := by
  have hall {P : Char → Prop} (hP : ∀ c d, SameKind c d → (P c ↔ P d)) {l l' : Text} (h : List.Forall₂ SameKind l l')
      (hc : ∀ c ∈ l, P c) : ∀ d ∈ l', P d := forall_mem_of_forall₂ (fun c d hcd => (hP c d hcd).mp) h hc
  have hnext {P : Char → Prop} (hP : ∀ c d, SameKind c d → (P c ↔ P d)) (hm' : m' = .topLevel) (hc : ∀ c ∈ n, ¬P c) :
      ∀ d ∈ n', ¬P d := by
    intro d hd hPd
    obtain ⟨c, hcn, hcd⟩ := hn hm' d hd
    exact hc c hcn ((hP c d hcd).mpr hPd)
  cases h with
  | whitespace hne hspace hn' =>
    exact .whitespace (ne_nil_of_forall₂ hl hne) (hall (fun _ _ h => h.isSpace) hl hspace)
      (hnext (fun _ _ h => h.isSpace) rfl hn')
  | reserved hw hn' =>
    obtain rfl : l' = l := eq_of_forall₂_small (forall₂_sameKind_symm hl) hw.small
    exact .reserved hw (hnext (fun _ _ h => h.isWordChar) rfl hn')
  | name hstart hspace hrest hn' hr =>
    have hword : ¬IsReserved (Text.leadingWord l') := fun h => hr (isReserved_leadingWord_of_forall₂ hl h)
    cases hl with
    | @cons _ d _ l' hcd hrest' =>
      obtain ⟨hstart', hspace'⟩ := (Start.of_eq_name_iff d).mp
        (hcd.start_of ▸ (Start.of_eq_name_iff _).mpr ⟨hstart, hspace⟩)
      exact .name hstart' hspace' (hall (fun _ _ h => h.isNameRest) hrest' hrest)
        (hnext (fun _ _ h => h.isNameRest) rfl hn') hword
  | numeric hne hdigit hn' =>
    exact .numeric (ne_nil_of_forall₂ hl hne) (hall (fun _ _ h => h.isDigit) hl hdigit)
      (hnext (fun _ _ h => h.isDigit) rfl hn')
  | @punctuation c _ hc =>
    obtain ⟨d, _, hcd, hnil, rfl⟩ := List.forall₂_cons_left_iff.mp hl
    cases hnil
    exact .punctuation ((Start.of_eq_punctuation_iff d).mp (hcd.start_of ▸ (Start.of_eq_punctuation_iff c).mpr hc))
  | opening q =>
    obtain ⟨d, _, hcd, hnil, rfl⟩ := List.forall₂_cons_left_iff.mp hl
    cases hnil
    obtain rfl : d = q.mark := (Start.of_eq_quote_iff q d).mp (hcd.start_of ▸ (Start.of_eq_quote_iff q q.mark).mpr rfl)
    exact .opening q

/-- In a string, a text that looks like a lexeme is a lexeme of the same category. -/
theorem Lexeme.of_sameLook {q : Quote} {k : Category} {l l' : Text} {m' : Mode} {n n' : Option Char}
    (h : Lexeme (.quoted q) k l m' n) (hl : List.Forall₂ (Region.string q).SameLook l l')
    (hn : m' = .quoted q → ∀ d ∈ n', ∃ c ∈ n, (Region.string q).SameLook c d) : Lexeme (.quoted q) k l' m' n' := by
  cases h with
  | closing q =>
    obtain ⟨d, _, hcd, hnil, rfl⟩ := List.forall₂_cons_left_iff.mp hl
    cases hnil
    obtain rfl : d = q.mark := hcd.mp rfl
    exact .closing q
  | content q hne hcontent hn' =>
    refine .content q (ne_nil_of_forall₂ hl hne) (forall_mem_of_forall₂ (fun c d hcd => mt hcd.mpr) hl hcontent) ?_
    intro d hd
    obtain ⟨c, hc, hcd⟩ := hn rfl d hd
    exact hcd.mp (hn' c hc)

/-- A lexeme at the start of a text, with what comes after it in view, is one in any text that looks alike. -/
theorem Lexeme.alike {r r' : Region} {k : Category} {l l' y y' : Text} (h : Lexeme r.mode k l r'.mode y.head?)
    (hl : Alike r l l') (hy : Alike r' y y') : Lexeme r.mode k l' r'.mode y'.head? := by
  have hchars : List.Forall₂ r.SameLook l l' := by
    rcases h.stays_or_moves with ⟨-, hstays⟩ | ⟨c, -, rfl, -, -⟩
    · exact hl.forall₂ hstays
    · cases hl with
      | cons hcd hnil =>
        cases hnil
        exact .cons hcd .nil
  have hnext (hmode : r'.mode = r.mode) : ∀ d ∈ y'.head?, ∃ c ∈ y.head?, r.SameLook c d :=
    Region.mode_inj hmode ▸ hy.exists_head
  cases r with
  | code => exact h.of_sameKind hchars hnext
  | string q => exact h.of_sameLook hchars hnext

/-- A text that looks like one with a reading has a reading with the same tokens. -/
theorem Reading.alike {m m' : Mode} {t : Text} {es : List Entry} (h : Reading m t es m') {r : Region} (hr : r.mode = m)
    {t' : Text} (ht : Alike r t t') : ∃ es', Reading m t' es' m' ∧ es'.map Entry.token = es.map Entry.token := by
  unfold Reading at h ⊢
  generalize hnil : [] = z at h
  induction h generalizing r t' with
  | nil m t =>
    subst hnil
    cases ht
    exact ⟨[], .nil m [], rfl⟩
  | @cons m m₁ m' k l y z es hl _ ih =>
    subst hr
    obtain ⟨l', y', rfl, hl', hy'⟩ := ht.exists_of_append
    obtain ⟨r', rfl, hrun⟩ := hl.run_eq
    rw [Region.afterText_of_run hrun] at hy'
    obtain ⟨es', hread, htokens⟩ := ih rfl hy' hnil
    refine ⟨⟨r.mode, k, l', r'.mode⟩ :: es', .cons (hl.alike hl' hy') hread, ?_⟩
    rw [List.map_cons, List.map_cons, htokens, Entry.token, Entry.token, hl'.length_eq]

/-! ## Lines that look alike -/

/-- Lines that look alike give the same. -/
theorem Alike.sameOutcome {r : Region} {t t' : Text} (h : Alike r t t') :
    SameOutcome (tokenizeLine r.mode t) (tokenizeLine r.mode t') := by
  cases hline : tokenizeLine r.mode t with
  | ok l =>
    obtain ⟨hm, es, hread, htokens⟩ := tokenizeLine_eq_ok_iff.mp hline
    obtain ⟨es', hread', htokens'⟩ := hread.alike rfl h
    rw [tokenizeLine_eq_ok_iff.mpr ⟨hm, es', hread', htokens'.trans htokens⟩]
    exact .ok l
  | error e =>
    obtain ⟨i, rfl, hrun⟩ := Region.run_of_tokenizeLine_eq_error hline
    rw [h.run_eq] at hrun
    rw [(Region.tokenizeLine_eq_error hrun).2]
    exact .error .topLevel i _ _

/-- Two lines of the same length give the same if they look alike at every position: in code, where the characters are of the
same kind, and in a string, where both close it or neither does; which of these a position is, is told by the quotes of the
first line before it. So what stands inside a string of a line can be replaced by anything of the same length that does not
close it. -/
theorem tokenizeLine_of_sameLook (r : Region) :
    (∀ t t' : Text, t.length = t'.length →
      (∀ i < t.length, ∀ c ∈ t[i]?, ∀ d ∈ t'[i]?, (r.afterText (t.take i)).SameLook c d) →
      SameOutcome (tokenizeLine r.mode t) (tokenizeLine r.mode t')) ∧
    (∀ (a w w' b : Text) (q : Quote), r.afterText a = .string q → w.length = w'.length → q.mark ∉ w → q.mark ∉ w' →
      SameOutcome (tokenizeLine r.mode (a ++ w ++ b)) (tokenizeLine r.mode (a ++ w' ++ b))) := by
  refine ⟨fun t t' hlen h => (alike_iff_positions.mpr ⟨hlen, h⟩).sameOutcome, ?_⟩
  intro a w w' b q ha hlen hw hw'
  have hcontent : Alike (r.afterText a) w w' := ha ▸ alike_of_content hlen hw hw'
  exact (((Alike.refl r a).append hcontent).append (.refl _ b)).sameOutcome

/-- Names, a reserved word, white space and strings that look alike; stray characters that do; and a string that is filled with
something else. -/
theorem tokenizeLine_of_sameLook_example :
    SameOutcome (tokenizeLine .topLevel ['i', 'n', ' ', 'X', 'é', '"', 'a', '\'', '"'])
        (tokenizeLine .topLevel ['i', 'n', '\t', '_', 'α', '"', '*', '\n', '"']) ∧
      SameOutcome (tokenizeLine (.quoted .single) ['"', '\'', '*', '1']) (tokenizeLine (.quoted .single) ['a', '\'', '#', '2']) ∧
      SameOutcome (tokenizeLine .topLevel (['"'] ++ ['e', 'n', 'd'] ++ ['"', '*']))
        (tokenizeLine .topLevel (['"'] ++ ['\'', '#', '\''] ++ ['"', '*'])) :=
  ⟨(tokenizeLine_of_sameLook .code).1 _ _ rfl (alike_iff_positions.mp (by decide +kernel)).2,
    (tokenizeLine_of_sameLook (.string .single)).1 _ _ rfl (alike_iff_positions.mp (by decide +kernel)).2,
    (tokenizeLine_of_sameLook .code).2 _ _ _ _ .double (by decide) rfl (by decide) (by decide)⟩

end JuliaLexer
