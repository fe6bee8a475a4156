import JuliaLexer.CommandLine
import JuliaLexer.Proofs.Word

/-!
# Printed lines: what is printed can be read back

A printed line tells where its parts end: a name ends at the first character that no name holds, a number at the first
character that is no digit, and a quoted text at the first quote that is not escaped, whatever characters the text holds. So
two texts that start with a printed line start with the same line (`CommandLine.lineText_append_inj`). And since no quoted
text holds a newline, a printed line is one line (`CommandLine.count_newline_lineText`), and so is what is printed for an
error (`Failure.count_newline_report_line`).
-/

namespace JuliaLexer

/-! ## Helpers: texts that tell where they end -/

/-- A text up to a character that is not in it tells where it ends. -/
theorem append_cons_inj {c : Char} {a b x y : Text} (ha : c ∉ a) (hb : c ∉ b) (h : a ++ c :: x = b ++ c :: y) :
    a = b ∧ x = y := by
  have hfront {t z : Text} (ht : c ∉ t) : (t ++ c :: z).takeWhile (fun d => decide (d ≠ c)) = t :=
    takeWhile_append_eq_left (fun d hd => decide_eq_true (ne_of_mem_of_not_mem hd ht)) (by simp)
  have hab : a = b := by rw [← hfront (z := x) ha, h, hfront hb]
  subst hab
  exact ⟨rfl, (List.cons.inj (List.append_cancel_left h)).2⟩

/-- If every word of a code tells where it ends, so does a sequence of them, up to a text that starts with none of them. -/
theorem flatMap_append_inj {α : Type} {f : α → Text} {as bs : List α} {x y : Text}
    (hf : ∀ a ∈ as, ∀ b ∈ bs, ∀ x y, f a ++ x = f b ++ y → a = b ∧ x = y) (hx : ∀ a z, f a ++ z ≠ x)
    (hy : ∀ a z, f a ++ z ≠ y) (h : as.flatMap f ++ x = bs.flatMap f ++ y) : as = bs ∧ x = y := by
  induction as generalizing bs with
  | nil =>
    cases bs with
    | nil => exact ⟨rfl, h⟩
    | cons b bs =>
      rw [List.flatMap_cons, List.append_assoc] at h
      exact absurd h.symm (hx b _)
  | cons a as ih =>
    rw [List.flatMap_cons, List.append_assoc] at h
    cases bs with
    | nil => exact absurd h (hy a _)
    | cons b bs =>
      rw [List.flatMap_cons, List.append_assoc] at h
      obtain ⟨rfl, hrest⟩ := hf a List.mem_cons_self b List.mem_cons_self _ _ h
      have htail : ∀ a ∈ as, ∀ b ∈ bs, ∀ x y, f a ++ x = f b ++ y → a = b ∧ x = y :=
        fun a ha b hb => hf a (List.mem_cons_of_mem _ ha) b (List.mem_cons_of_mem _ hb)
      obtain ⟨rfl, hxy⟩ := ih htail hrest
      exact ⟨rfl, hxy⟩

/-! ## Helpers: digits -/

section Digits

variable {base : Nat} (hlow : 1 < base) (hhigh : base ≤ 16)
include hlow hhigh

/-- A number is determined by its digits. -/
theorem toDigits_inj {m n : Nat} (h : Nat.toDigits base m = Nat.toDigits base n) : m = n := by
  have hdigit : ∀ m < 16, ∀ n < 16, Nat.digitChar m = Nat.digitChar n → m = n := by decide
  induction m using Nat.strongRecOn generalizing n with
  | ind m ih =>
    rw [Nat.toDigits_eq_if hlow, Nat.toDigits_eq_if (n := n) hlow] at h
    split_ifs at h with hm hn hn
    · exact hdigit m (by omega) n (by omega) (List.cons.inj h).1
    · exact absurd (List.append_eq_singleton_iff.mp h.symm) (by simp [Nat.toDigits_ne_nil])
    · exact absurd (List.append_eq_singleton_iff.mp h) (by simp [Nat.toDigits_ne_nil])
    · obtain ⟨hinit, hlast⟩ := List.append_inj' h rfl
      have hdiv : m / base = n / base := ih (m / base) (Nat.div_lt_self (by omega) hlow) hinit
      have hmlt : m % base < base := Nat.mod_lt _ (by omega)
      have hnlt : n % base < base := Nat.mod_lt _ (by omega)
      have hmod : m % base = n % base := hdigit _ (by omega) _ (by omega) (List.cons.inj hlast).1
      rw [← Nat.div_add_mod m base, ← Nat.div_add_mod n base, hdiv, hmod]

theorem exists_digit_of_mem_toDigits {n : Nat} {c : Char} (h : c ∈ Nat.toDigits base n) : ∃ d < 16, c = Nat.digitChar d := by
  induction n using Nat.strongRecOn with
  | ind n ih =>
    rw [Nat.toDigits_eq_if hlow] at h
    split_ifs at h with hn
    · exact ⟨n, by omega, List.mem_singleton.mp h⟩
    · rcases List.mem_append.mp h with h | h
      · exact ih (n / base) (Nat.div_lt_self (by omega) hlow) h
      · have hlt : n % base < base := Nat.mod_lt _ (by omega)
        exact ⟨n % base, by omega, List.mem_singleton.mp h⟩

/-- No digit is a closing bracket, a colon or a newline. -/
theorem not_mem_toDigits (n : Nat) {c : Char} (hc : c ∈ [')', '}', ':', '\n']) : c ∉ Nat.toDigits base n := by
  have hdigit : ∀ d < 16, Nat.digitChar d ∉ [')', '}', ':', '\n'] := by decide
  intro h
  obtain ⟨d, hd, rfl⟩ := exists_digit_of_mem_toDigits hlow hhigh h
  exact hdigit d hd hc

/-- A number up to a character that is no digit tells where it ends, and which number it is. -/
theorem toDigits_append_inj {m n : Nat} {c : Char} {x y : Text} (hc : c ∈ [')', '}', ':', '\n'])
    (h : Nat.toDigits base m ++ c :: x = Nat.toDigits base n ++ c :: y) : m = n ∧ x = y := by
  have hm := not_mem_toDigits hlow hhigh m hc
  have hn := not_mem_toDigits hlow hhigh n hc
  obtain ⟨hdigits, hxy⟩ := append_cons_inj hm hn h
  exact ⟨toDigits_inj hlow hhigh hdigits, hxy⟩

end Digits

/-! ## Quoted texts -/

/-- What stands for a character is a backslash with a letter of its own, its code point, or the character itself. -/
theorem Text.escape_cases (c : Char) :
    (∃ letter, (c, letter) ∈ shortEscapes ∧ escape c = ['\\', letter]) ∨
      escape c = ['\\', 'u', '\x7b'] ++ Nat.toDigits 16 c.toNat ++ ['\x7d'] ∨
      (escape c = [c] ∧ c ≠ '\\' ∧ c ≠ '"' ∧ c ≠ '\n') := by
  unfold Text.escape
  cases hlookup : shortEscapes.lookup c with
  | some letter =>
    obtain ⟨before, after, hlist, -⟩ := List.lookup_eq_some_iff.mp hlookup
    refine Or.inl ⟨letter, ?_, rfl⟩
    rw [hlist]
    exact List.mem_append_right _ List.mem_cons_self
  | none =>
    split_ifs with hunprintable
    · exact Or.inr (Or.inl rfl)
    · refine Or.inr (Or.inr ⟨rfl, ?_, ?_, ?_⟩) <;> (rintro rfl; exact absurd hlookup (by decide))

/-- What stands for a character does not start with a quote, and holds no newline. -/
theorem Text.escape_head (c : Char) : ∃ d l, escape c = d :: l ∧ d ≠ '"' ∧ '\n' ∉ escape c := by
  rcases Text.escape_cases c with ⟨letter, hmem, h⟩ | h | ⟨h, -, hquote, hnewline⟩
  · have hletter : ∀ p ∈ shortEscapes, p.2 ≠ '\n' := by decide
    refine ⟨'\\', [letter], h, by decide, ?_⟩
    rw [h]
    simpa using (hletter _ hmem).symm
  · refine ⟨'\\', _, h, by decide, ?_⟩
    rw [h]
    have hdigits : '\n' ∉ Nat.toDigits 16 c.toNat := not_mem_toDigits (by decide) (by decide) _ (by decide)
    simpa using hdigits
  · refine ⟨c, [], h, hquote, ?_⟩
    rw [h]
    simpa using hnewline.symm

/-- What stands for a character tells where it ends, and which character it stands for. -/
theorem Text.escape_append_inj {c d : Char} {x y : Text} (h : escape c ++ x = escape d ++ y) : c = d ∧ x = y := by
  have hshort : ∀ p ∈ shortEscapes, p.2 ≠ 'u' ∧ ∀ q ∈ shortEscapes, p.2 = q.2 → p.1 = q.1 := by decide
  rcases Text.escape_cases c with ⟨letter, hmem, hc⟩ | hc | ⟨hc, hslash, -⟩ <;>
    rcases Text.escape_cases d with ⟨letter', hmem', hd⟩ | hd | ⟨hd, hslash', -⟩ <;>
      rw [hc, hd] at h <;>
        simp only [List.cons_append, List.nil_append, List.append_assoc, List.cons.injEq, true_and] at h
  · exact ⟨(hshort _ hmem).2 _ hmem' h.1, h.2⟩
  · exact absurd h.1 (hshort _ hmem).1
  · exact absurd h.1.symm hslash'
  · exact absurd h.1.symm (hshort _ hmem').1
  · obtain ⟨hcode, hxy⟩ := toDigits_append_inj (by decide) (by decide) (by decide) h
    exact ⟨Char.toNat_inj.mp hcode, hxy⟩
  · exact absurd h.1.symm hslash'
  · exact absurd h.1 hslash
  · exact absurd h.1 hslash
  · exact h

/-- A quoted text tells where it ends, and which text it is. -/
theorem Text.quoted_append_inj {a b : Text} {x y : Text} (h : a.quoted ++ x = b.quoted ++ y) : a = b ∧ x = y := by
  simp only [Text.quoted, List.cons_append, List.append_assoc, List.nil_append, List.cons.injEq, true_and] at h
  have hquote (c : Char) (z w : Text) : escape c ++ z ≠ '"' :: w := by
    obtain ⟨d, l, hd, hne, -⟩ := Text.escape_head c
    rw [hd]
    exact fun heq => hne (List.cons.inj heq).1
  obtain ⟨hab, hxy⟩ := flatMap_append_inj (fun _ _ _ _ _ _ hcd => Text.escape_append_inj hcd) (fun c z => hquote c z x)
    (fun c z => hquote c z y) h
  exact ⟨hab, (List.cons.inj hxy).2⟩

theorem Text.newline_not_mem_quoted (t : Text) : '\n' ∉ t.quoted := by
  simp only [Text.quoted, List.mem_cons, List.mem_append, List.mem_flatMap, List.not_mem_nil, or_false, not_or,
    not_exists, not_and]
  refine ⟨by decide, fun c _ => ?_, by decide⟩
  obtain ⟨-, -, -, -, h⟩ := Text.escape_head c
  exact h

/-! ## Names -/

theorem Category.name_inj {k k' : Category} (h : k.name = k'.name) : k = k' := by
  have hk := Category.ofName?_name k
  rw [h, Category.ofName?_name] at hk
  exact (Option.some.inj hk).symm

theorem Mode.name_inj {m m' : Mode} (h : m.name = m'.name) : m = m' := by
  have hm := Mode.ofName?_name m
  rw [h, Mode.ofName?_name] at hm
  exact (Option.some.inj hm).symm

/-- No name of a category holds an opening bracket or a newline. -/
theorem Category.not_mem_name (k : Category) : '(' ∉ k.name.toList ∧ '\n' ∉ k.name.toList := by
  cases k <;> decide

/-- No name of a mode holds a colon, a space or a newline. -/
theorem Mode.not_mem_name (m : Mode) : ':' ∉ m.name.toList ∧ ' ' ∉ m.name.toList ∧ '\n' ∉ m.name.toList := by
  rcases m with _ | _ | (_ | _) | _ <;> decide

/-- A name of a category up to an opening bracket tells where it ends, and which category it names. -/
theorem Category.name_append_inj {k k' : Category} {x y : Text}
    (h : k.name.toList ++ '(' :: x = k'.name.toList ++ '(' :: y) : k = k' ∧ x = y := by
  obtain ⟨hname, hxy⟩ := append_cons_inj k.not_mem_name.1 k'.not_mem_name.1 h
  exact ⟨Category.name_inj (String.toList_inj.mp hname), hxy⟩

/-- A name of a mode up to a colon or a space tells where it ends, and which mode it names. -/
theorem Mode.name_append_inj {m m' : Mode} {c : Char} {x y : Text} (hc : c = ':' ∨ c = ' ')
    (h : m.name.toList ++ c :: x = m'.name.toList ++ c :: y) : m = m' ∧ x = y := by
  have hmem (n : Mode) : c ∉ n.name.toList := by
    rcases hc with rfl | rfl
    · exact n.not_mem_name.1
    · exact n.not_mem_name.2.1
  obtain ⟨hname, hxy⟩ := append_cons_inj (hmem m) (hmem m') h
  exact ⟨Mode.name_inj (String.toList_inj.mp hname), hxy⟩

/-! ## Printed errors -/

/-- An error written as a record holds no newline, whatever text is left over in it. -/
theorem LexError.newline_not_mem_record (e : LexError) : '\n' ∉ e.record.toList := by
  have hdigits (n : Nat) : '\n' ∉ (Nat.repr n).toList := by
    rw [Nat.toList_repr]
    exact not_mem_toDigits (by decide) (by decide) n (by decide)
  -- the shape of a record is all that counts, and the equations of `record` are slow to derive
  induction e with
  | unmatched m column remainder =>
    change '\n' ∉ String.toList (_ ++ m.name ++ _ ++ Nat.repr column ++ _ ++ String.ofList remainder.quoted ++ _)
    simp only [String.toList_append, String.toList_ofList, List.mem_append, not_or]
    exact ⟨⟨⟨⟨⟨⟨by decide, m.not_mem_name.2.2⟩, by decide⟩, hdigits column⟩, by decide⟩, remainder.newline_not_mem_quoted⟩,
      by decide⟩
  | invalidMode code =>
    change '\n' ∉ String.toList (_ ++ Nat.repr code.toNat ++ _)
    simp only [String.toList_append, List.mem_append, not_or]
    exact ⟨⟨by decide, hdigits code.toNat⟩, by decide⟩
  | atLine line source ih =>
    change '\n' ∉ String.toList (_ ++ Nat.repr line ++ _ ++ source.record ++ _)
    simp only [String.toList_append, List.mem_append, not_or]
    exact ⟨⟨⟨⟨by decide, hdigits line⟩, by decide⟩, ih⟩, by decide⟩

/-- What is printed for an error of a line is one line. -/
theorem Failure.count_newline_report_line (e : LexError) : (Failure.line e).report.toList.count '\n' = 1 := by
  change (String.toList (_ ++ FailureKind.name .invalidInput ++ _ ++ e.record ++ _)).count '\n' = 1
  simp only [String.toList_append, List.count_append, List.count_eq_zero_of_not_mem e.newline_not_mem_record]
  decide

/-! ## Printed tokens and lines -/

/-- A token is printed after a space, as the name of its category, its length in parentheses, a space, and its characters in
quotes. -/
theorem CommandLine.tokenText_eq (t : Token) (l : Text) :
    tokenText t l = " " ++ t.category.name ++ "(" ++ Nat.repr t.length ++ ") " ++ String.ofList l.quoted := by
  have hspace : ") " = ")" ++ " " := rfl
  simp only [tokenText, Token.text, hspace, String.append_assoc]

/-- The characters of a printed token. -/
theorem CommandLine.toList_tokenText (t : Token) (l : Text) :
    (tokenText t l).toList =
      ' ' :: (t.category.name.toList ++ '(' :: (Nat.toDigits 10 t.length ++ ')' :: ' ' :: l.quoted)) := by
  simp [tokenText_eq]

/-- A printed token tells where it ends, and which token and characters it shows. -/
theorem CommandLine.tokenText_append_inj {t t' : Token} {l l' x y : Text}
    (h : (tokenText t l).toList ++ x = (tokenText t' l').toList ++ y) : (t = t' ∧ l = l') ∧ x = y := by
  simp only [toList_tokenText, List.cons_append, List.append_assoc, List.cons.injEq, true_and] at h
  obtain ⟨hk, h⟩ := Category.name_append_inj h
  obtain ⟨hn, h⟩ := toDigits_append_inj (by decide) (by decide) (by decide) h
  obtain ⟨rfl, hxy⟩ := Text.quoted_append_inj (List.cons.inj h).2
  have ht : t = t' :=
    calc
      t = ⟨t.category, t.length⟩ := rfl
      _ = ⟨t'.category, t'.length⟩ := by rw [hk, hn]
      _ = t' := rfl
  exact ⟨⟨ht, rfl⟩, hxy⟩

theorem CommandLine.newline_not_mem_tokenText (t : Token) (l : Text) : '\n' ∉ (tokenText t l).toList := by
  have hdigits : '\n' ∉ Nat.toDigits 10 t.length := not_mem_toDigits (by decide) (by decide) _ (by decide)
  rw [toList_tokenText]
  simp [t.category.not_mem_name.2, hdigits, l.newline_not_mem_quoted]

/-- The tokens of a line, each with its characters. -/
def LineRead.pieces (l : LineRead) : List (Token × Text) := l.tokens.zip (Text.cut (l.tokens.map (·.length)) l.text)

/-- The characters of a printed line. -/
theorem CommandLine.toList_lineText (l : LineRead) :
    (lineText l).toList =
      l.start.name.toList ++ ':' :: (l.pieces.flatMap (fun p => (tokenText p.1 p.2).toList) ++ ['\n']) := by
  simp only [lineText, LineRead.pieces, String.toList_append, String.toList_join, List.flatMap_def, List.map_zipWith,
    List.zip_eq_zipWith]
  simp

/-- A printed line tells where it ends, and which mode, tokens and characters it shows. -/
theorem CommandLine.lineText_append_inj {l l' : LineRead} {x y : Text}
    (h : (lineText l).toList ++ x = (lineText l').toList ++ y) : (l.start = l'.start ∧ l.pieces = l'.pieces) ∧ x = y := by
  have hnewline (p : Token × Text) (z w : Text) : (tokenText p.1 p.2).toList ++ z ≠ '\n' :: w := by
    rw [toList_tokenText, List.cons_append]
    exact fun heq => absurd (List.cons.inj heq).1 (by decide)
  simp only [toList_lineText, List.cons_append, List.append_assoc, List.nil_append] at h
  obtain ⟨hstart, h⟩ := Mode.name_append_inj (.inl rfl) h
  have htoken (p p' : Token × Text) (z w : Text)
      (h : (tokenText p.1 p.2).toList ++ z = (tokenText p'.1 p'.2).toList ++ w) : p = p' ∧ z = w := by
    obtain ⟨⟨ht, hl⟩, hzw⟩ := tokenText_append_inj h
    exact ⟨Prod.ext ht hl, hzw⟩
  obtain ⟨hpieces, hxy⟩ := flatMap_append_inj (fun p _ p' _ => htoken p p') (fun p z => hnewline p z x)
    (fun p z => hnewline p z y) h
  exact ⟨⟨hstart, hpieces⟩, (List.cons.inj hxy).2⟩

/-- A printed line is one line: it ends in a newline and has no other. -/
theorem CommandLine.count_newline_lineText (l : LineRead) : (lineText l).toList.count '\n' = 1 := by
  have htokens : '\n' ∉ l.pieces.flatMap (fun p => (tokenText p.1 p.2).toList) := by
    intro hmem
    obtain ⟨p, -, hp⟩ := List.mem_flatMap.mp hmem
    exact newline_not_mem_tokenText p.1 p.2 hp
  rw [toList_lineText, List.count_append, List.count_cons_of_ne (by decide), List.count_append,
    List.count_eq_zero_of_not_mem l.start.not_mem_name.2.2, List.count_eq_zero_of_not_mem htokens]
  rfl

end JuliaLexer
