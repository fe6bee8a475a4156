import JuliaLexer.Proofs.Printing

/-!
# Error messages: a message names one error

The three kinds of messages start differently, and each tells where its parts end: a name of a mode at the first space, a
number at the first character that is no digit, and the text that was left at its closing quote, also where that text looks
like a message itself. So two texts that start with a message start with the message of the same error
(`LexError.message_append_inj`). The line numbers around an error stand in front of its message, the outermost first, and each
error it was made from leaves one more of them away (`LexError.message_eq_lineLabels`, `LexError.of_getElem?_sources`).
-/

namespace JuliaLexer

/-- What the number of a line puts in front of a message. -/
def lineLabel (n : Nat) : String := "at line " ++ Nat.repr n ++ ": "

/-- The line numbers around an error, the outermost first. -/
def LexError.lineNumbers : LexError → List Nat
  | .atLine line source => line :: source.lineNumbers
  | _ => []

/-- An error with some line numbers around it. They are put there one after another, so the last one is the outermost. -/
def LexError.numbered (e : LexError) (ns : List Nat) : LexError := ns.foldl (fun e n => .atLine n e) e

/-! ## The characters of a message -/

theorem LexError.toList_message_unmatched (m : Mode) (column : Nat) (remainder : Text) :
    (LexError.unmatched m column remainder).message.toList =
      "no rule in state ".toList ++ (m.name.toList ++ ' ' :: ("matches at column ".toList ++
        (Nat.toDigits 10 column ++ ':' :: ' ' :: remainder.quoted))) := by
  -- as for records, the equations of `message` are slow to derive
  change String.toList ("no rule in state " ++ m.name ++ " matches at column " ++ Nat.repr column ++ ": " ++
    String.ofList remainder.quoted) = _
  simp only [String.toList_append, String.toList_ofList, Nat.toList_repr, List.append_assoc]
  rfl

theorem LexError.toList_message_invalidMode (code : UInt32) :
    (LexError.invalidMode code).message.toList =
      "invalid line state (code ".toList ++ (Nat.toDigits 10 code.toNat ++ [')']) := by
  change String.toList ("invalid line state (code " ++ Nat.repr code.toNat ++ ")") = _
  simp only [String.toList_append, Nat.toList_repr, List.append_assoc]
  rfl

theorem LexError.toList_message_atLine (line : Nat) (source : LexError) :
    (LexError.atLine line source).message.toList =
      "at line ".toList ++ (Nat.toDigits 10 line ++ ':' :: ' ' :: source.message.toList) := by
  change String.toList ("at line " ++ Nat.repr line ++ ": " ++ source.message) = _
  simp only [String.toList_append, Nat.toList_repr, List.append_assoc]
  rfl

/-! ## Messages tell where they end -/

/-- A message tells where it ends, and which error it is the message of. -/
theorem LexError.message_append_inj {e e' : LexError} {x y : Text}
    (h : e.message.toList ++ x = e'.message.toList ++ y) : e = e' ∧ x = y := by
  -- on both errors at once: two messages of different kinds differ in their first letter
  induction e generalizing e' with
  | unmatched m column remainder =>
    cases e' with
    | unmatched m' column' remainder' =>
      simp only [toList_message_unmatched, List.append_assoc, List.cons_append] at h
      obtain ⟨rfl, hname⟩ := Mode.name_append_inj (.inr rfl) (List.append_cancel_left h)
      obtain ⟨rfl, hcolumn⟩ := toDigits_append_inj (by decide) (by decide) (by decide) (List.append_cancel_left hname)
      obtain ⟨rfl, hxy⟩ := Text.quoted_append_inj (List.cons.inj hcolumn).2
      exact ⟨rfl, hxy⟩
    | _ => simp [toList_message_unmatched, toList_message_invalidMode, toList_message_atLine] at h
  | invalidMode code =>
    cases e' with
    | invalidMode code' =>
      simp only [toList_message_invalidMode, List.append_assoc, List.cons_append] at h
      obtain ⟨hcode, hxy⟩ := toDigits_append_inj (by decide) (by decide) (by decide) (List.append_cancel_left h)
      obtain rfl : code = code' := UInt32.toNat_inj.mp hcode
      exact ⟨rfl, hxy⟩
    | _ => simp [toList_message_unmatched, toList_message_invalidMode, toList_message_atLine] at h
  | atLine line source ih =>
    cases e' with
    | atLine line' source' =>
      simp only [toList_message_atLine, List.append_assoc, List.cons_append] at h
      obtain ⟨rfl, hline⟩ := toDigits_append_inj (by decide) (by decide) (by decide) (List.append_cancel_left h)
      obtain ⟨rfl, hxy⟩ := ih (List.cons.inj hline).2
      exact ⟨rfl, hxy⟩
    | _ => simp [toList_message_unmatched, toList_message_invalidMode, toList_message_atLine] at h

/-- Different errors have different messages. -/
theorem LexError.message_inj {e e' : LexError} (h : e.message = e'.message) : e = e' :=
  (message_append_inj (congrArg (fun s => s.toList ++ []) h)).1

/-! ## Line numbers around an error -/

theorem LexError.message_atLine (line : Nat) (source : LexError) :
    (LexError.atLine line source).message = lineLabel line ++ source.message := rfl

/-- A message is that of the error under all line numbers, with the line numbers in front of it. -/
theorem LexError.message_eq_lineLabels (e : LexError) :
    e.message = String.join (e.lineNumbers.map lineLabel) ++ e.root.message := by
  induction e with
  | unmatched m column remainder => exact String.empty_append.symm
  | invalidMode code => exact String.empty_append.symm
  | atLine line source ih =>
    rw [message_atLine, ih, LexError.lineNumbers, LexError.root, List.map_cons, String.join_cons, String.append_assoc]

theorem LexError.length_sources (e : LexError) : e.sources.length = e.lineNumbers.length := by
  induction e with
  | atLine line source ih => simp only [LexError.sources, LexError.lineNumbers, List.length_cons, ih]
  | _ => rfl

/-- An error that another one was made from has the same error under its line numbers, and of these numbers the inner ones. -/
theorem LexError.of_getElem?_sources {e source : LexError} {j : Nat} (h : e.sources[j]? = some source) :
    source.root = e.root ∧ source.lineNumbers = e.lineNumbers.drop (j + 1) := by
  induction e generalizing j with
  | atLine line inner ih =>
    cases j with
    | zero =>
      simp only [LexError.sources, List.getElem?_cons_zero, Option.some.injEq] at h
      subst h
      exact ⟨rfl, rfl⟩
    | succ j => exact ih h
  | _ => simp [LexError.sources] at h

theorem LexError.root_numbered (e : LexError) (ns : List Nat) : (e.numbered ns).root = e.root := by
  induction ns generalizing e with
  | nil => rfl
  | cons n ns ih => exact ih (.atLine n e)

theorem LexError.lineNumbers_numbered (e : LexError) (ns : List Nat) :
    (e.numbered ns).lineNumbers = ns.reverse ++ e.lineNumbers := by
  induction ns generalizing e with
  | nil => rfl
  | cons n ns ih =>
    have h := ih (.atLine n e)
    rw [List.reverse_cons, List.append_assoc]
    exact h

/-- An error that is no error of a numbered line is the error under all line numbers, and there are none. -/
theorem LexError.root_lineNumbers_of_ne_atLine {e : LexError} (h : ∀ line source, e ≠ .atLine line source) :
    e.root = e ∧ e.lineNumbers = [] := by
  cases e with
  | atLine line source => exact absurd rfl (h line source)
  | _ => exact ⟨rfl, rfl⟩

/-- A message names one error: two errors with the same message are the same, however often they were numbered and whatever text
is left over in them. And where an error that has no line number gets some, one after another, it is the error under all of
them; there is one error further in for every number, and its message is what remains of the message after as many labels,
which stand in it from the last number to the first, in front of the message of the error itself. -/
theorem LexError.message_names_error :
    (∀ e e' : LexError, e.message = e'.message → e = e') ∧
    ∀ (e : LexError) (ns : List Nat), (∀ line source, e ≠ .atLine line source) →
      (e.numbered ns).root = e ∧
      (e.numbered ns).message = String.join (ns.reverse.map lineLabel) ++ e.message ∧
      (e.numbered ns).sources.length = ns.length ∧
      ∀ j source, (e.numbered ns).sources[j]? = some source →
        (e.numbered ns).message = String.join ((ns.reverse.take (j + 1)).map lineLabel) ++ source.message ∧
        source.message = String.join ((ns.reverse.drop (j + 1)).map lineLabel) ++ e.message := by
  refine ⟨fun e e' h => message_inj h, ?_⟩
  intro e ns he
  obtain ⟨hroot, hnone⟩ := root_lineNumbers_of_ne_atLine he
  have hnumbers : (e.numbered ns).lineNumbers = ns.reverse := by rw [lineNumbers_numbered, hnone, List.append_nil]
  have hmessage : (e.numbered ns).message = String.join (ns.reverse.map lineLabel) ++ e.message := by
    rw [message_eq_lineLabels, hnumbers, root_numbered, hroot]
  refine ⟨by rw [root_numbered, hroot], hmessage, by rw [length_sources, hnumbers, List.length_reverse], ?_⟩
  intro j source hsource
  obtain ⟨hsourceRoot, hsourceNumbers⟩ := of_getElem?_sources hsource
  have hinner : source.message = String.join ((ns.reverse.drop (j + 1)).map lineLabel) ++ e.message := by
    rw [message_eq_lineLabels, hsourceNumbers, hnumbers, hsourceRoot, root_numbered, hroot]
  refine ⟨?_, hinner⟩
  calc
    (e.numbered ns).message
      = String.join ((ns.reverse.take (j + 1) ++ ns.reverse.drop (j + 1)).map lineLabel) ++ e.message := by
        rw [List.take_append_drop, hmessage]
    _ = String.join ((ns.reverse.take (j + 1)).map lineLabel) ++ source.message := by
        rw [List.map_append, String.join_append, String.append_assoc, hinner]

/-- The text left over in this error reads like the front of a message. With two line numbers around it, its message is still
that of no other error, and the error one line number further in has the inner number only. -/
theorem LexError.message_names_error_of_lookalike :
    let e : LexError := .unmatched .topLevel 2 ['a', 't', ' ', 'l', 'i', 'n', 'e', ' ', '3', ':', ' ', '*']
    e.numbered [3, 12] = .atLine 12 (.atLine 3 e) ∧
      (e.numbered [3, 12]).root = e ∧
      (e.numbered [3, 12]).message = "at line 12: at line 3: " ++ e.message ∧
      (LexError.atLine 3 e).message = "at line 3: " ++ e.message := by
  intro e
  have hlabels : String.join ([12, 3].map lineLabel) = "at line 12: at line 3: " := by decide +kernel
  have hlabel : String.join ([3].map lineLabel) = "at line 3: " := by decide +kernel
  obtain ⟨hinjective, hnumbered⟩ := LexError.message_names_error
  obtain ⟨hroot, hmessage, -, hsources⟩ := hnumbered e [3, 12] nofun
  have hsource := (hsources 0 (.atLine 3 e) rfl).2
  rw [← hlabels, ← hlabel]
  exact ⟨hinjective _ _ rfl, hroot, hmessage, hsource⟩

end JuliaLexer
