import JuliaLexer.CommandLine
import JuliaLexer.Proofs.Newline

/-!
# Encodings: a text as bytes

Bytes are UTF-8 if they encode a text, and then they encode only that one (`CommandLine.decode?_eq_some_iff`). No byte of a
character beyond ASCII is an ASCII byte, so a line feed among the bytes is a newline of the text: cutting the bytes at their
line feeds and decoding the pieces is decoding the bytes and cutting the text into its lines (`Text.splitOn_utf8`), and bytes
are UTF-8 if all their pieces are (`exists_utf8_of_pieces`).
-/

namespace JuliaLexer

/-- The bytes that encode a text in UTF-8. -/
def Text.utf8 (t : Text) : List UInt8 := t.flatMap String.utf8EncodeChar

theorem Text.utf8_cons (c : Char) (t : Text) : Text.utf8 (c :: t) = String.utf8EncodeChar c ++ t.utf8 := rfl

theorem Text.utf8_append (a b : Text) : Text.utf8 (a ++ b) = a.utf8 ++ b.utf8 := List.flatMap_append

theorem Text.utf8_ne_nil {t : Text} (h : t ≠ []) : t.utf8 ≠ [] := by
  obtain ⟨c, t, rfl⟩ := List.exists_cons_of_ne_nil h
  exact List.append_ne_nil_of_left_ne_nil String.utf8EncodeChar_ne_nil _

/-! ## Helpers: ASCII bytes -/

/-- A character of ASCII is encoded as one byte, its code point. -/
theorem utf8EncodeChar_of_lt {c : Char} (h : c.toNat < 0x80) : String.utf8EncodeChar c = [UInt8.ofNat c.toNat] := by
  have hc : c.val.toNat ≤ 127 := Nat.le_of_lt_succ h
  simp only [String.utf8EncodeChar, if_pos hc]
  rfl

/-- A character beyond ASCII has no ASCII byte. -/
theorem le_of_mem_utf8EncodeChar {c : Char} (h : 0x80 ≤ c.toNat) : ∀ x ∈ String.utf8EncodeChar c, 0x80 ≤ x.toNat := by
  have hc : ¬c.val.toNat ≤ 127 := Nat.not_le_of_lt h
  simp only [String.utf8EncodeChar, if_neg hc]
  split_ifs <;> simp only [List.forall_mem_cons, List.not_mem_nil, UInt8.toNat_ofNat', false_imp_iff, implies_true,
    and_true] <;> omega

/-- Where an ASCII byte is among the bytes of a text, the character with that code point is in the text. -/
theorem Text.mem_of_mem_utf8 {t : Text} {c : Char} (hc : c.toNat < 0x80) (h : UInt8.ofNat c.toNat ∈ t.utf8) : c ∈ t := by
  have hx : (UInt8.ofNat c.toNat).toNat = c.toNat := by
    rw [UInt8.toNat_ofNat', Nat.mod_eq_of_lt (by omega)]
  obtain ⟨d, hd, hmem⟩ := List.mem_flatMap.mp h
  by_cases hlt : d.toNat < 0x80
  · rw [utf8EncodeChar_of_lt hlt, List.mem_singleton] at hmem
    have heq := congrArg UInt8.toNat hmem
    rw [hx, UInt8.toNat_ofNat', Nat.mod_eq_of_lt (by omega)] at heq
    exact Char.toNat_inj.mp heq ▸ hd
  · have hle := le_of_mem_utf8EncodeChar (Nat.le_of_not_lt hlt) _ hmem
    omega

/-! ## Decoding -/

/-- Bytes are decoded into the text that they encode, if there is one. -/
theorem CommandLine.decode?_eq_some_iff {bytes : List UInt8} {t : Text} : decode? bytes = some t ↔ bytes = t.utf8 := by
  unfold decode? String.fromUTF8?
  constructor
  · intro h
    split_ifs at h with hvalid
    · simp only [Option.map_some, Option.some.injEq] at h
      have hbytes : bytes.toByteArray = t.utf8.toByteArray := by
        have hdecoded := String.toByteArray_ofList (l := t)
        rw [← h, String.ofList_toList] at hdecoded
        rw [← h]
        exact hdecoded
      have hdata := congrArg (fun b => b.data.toList) hbytes
      simp only [List.data_toByteArray] at hdata
      exact hdata
    · cases h
  · rintro rfl
    have hvalid : t.utf8.toByteArray.IsValidUTF8 := ⟨t, rfl⟩
    have hstring : String.fromUTF8 t.utf8.toByteArray hvalid = String.ofList t :=
      String.toByteArray_inj.mp String.toByteArray_ofList.symm
    rw [dif_pos hvalid, Option.map_some, hstring, String.toList_ofList]

theorem CommandLine.decode?_utf8 (t : Text) : decode? t.utf8 = some t := decode?_eq_some_iff.mpr rfl

/-! ## Lines of bytes -/

/-- A line feed is a newline, and so its only byte. -/
theorem Text.utf8_append_newline (a b : Text) : Text.utf8 (a ++ '\n' :: b) = a.utf8 ++ 0x0A :: b.utf8 := by
  rw [Text.utf8_append, Text.utf8_cons, utf8EncodeChar_of_lt (by decide), List.singleton_append]
  rfl

/-- The pieces of the bytes of a text between line feeds are the bytes of its lines. -/
theorem Text.splitOn_utf8 (t : Text) : t.utf8.splitOn 0x0A = t.lines.map Text.utf8 := by
  induction t using Text.lines_induction with
  | line t h =>
    have hbytes : 0x0A ∉ t.utf8 := fun hmem => h (Text.mem_of_mem_utf8 (c := '\n') (by decide) hmem)
    rw [List.splitOn_eq_singleton hbytes, Text.lines_of_not_mem h, List.map_singleton]
  | newline a b ha ih =>
    have hbytes : 0x0A ∉ a.utf8 := fun hmem => ha (Text.mem_of_mem_utf8 (c := '\n') (by decide) hmem)
    rw [Text.utf8_append_newline, List.splitOn_append_cons_self, List.splitOn_eq_singleton hbytes, ih,
      Text.lines_append_newline, Text.lines_of_not_mem ha, List.map_append, List.map_singleton]

/-- Bytes are UTF-8 if all their pieces between line feeds are. -/
theorem exists_utf8_of_pieces {bytes : List UInt8} (h : ∀ piece ∈ bytes.splitOn 0x0A, ∃ t : Text, piece = t.utf8) :
    ∃ t : Text, bytes = t.utf8 := by
  generalize hpieces : bytes.splitOn 0x0A = pieces at h
  have hbytes : [0x0A].intercalate pieces = bytes := by rw [← hpieces, List.intercalate_splitOn]
  rw [← hbytes]
  clear hbytes hpieces
  induction pieces with
  | nil => exact ⟨[], rfl⟩
  | cons piece pieces ih =>
    obtain ⟨⟨a, rfl⟩, hrest⟩ := List.forall_mem_cons.mp h
    by_cases hnil : pieces = []
    · rw [hnil, List.intercalate_singleton]
      exact ⟨a, rfl⟩
    · obtain ⟨b, hb⟩ := ih hrest
      refine ⟨a ++ '\n' :: b, ?_⟩
      rw [List.intercalate_cons_of_ne_nil hnil, hb, Text.utf8_append_newline, List.append_assoc, List.singleton_append]

end JuliaLexer
