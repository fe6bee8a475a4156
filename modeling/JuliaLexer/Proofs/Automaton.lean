import JuliaLexer.Proofs.Reading

/-!
# The quote automaton: what the modes of a line say about its quotes

Read one character at a time, a line is code or string: a quote in code opens a string, the same quote closes it, and the
only other thing that can happen is that a character in code is stray. The scan takes whole lexemes and changes its mode only
between them, yet it ends in the mode that the automaton ends in and gets stuck at the character that the automaton rejects
(`tokenizeLine_refines_automaton`), since no lexeme reaches over a character at which the automaton moves
(`Lexeme.run_eq`).
-/

namespace JuliaLexer

/-- Where a character of a line stands: in code, or in a string that a quote has opened. -/
inductive Region where
  | code
  | string (q : Quote)
  deriving DecidableEq, Repr

/-- The mode of a region. The two other modes are of no region. -/
def Region.mode : Region → Mode
  | .code => .topLevel
  | .string q => .quoted q

/-- The move of the automaton at a character, unless it rejects it. -/
def Region.next? : Region → Char → Option Region
  | .code, c =>
    if c = '\'' then some (.string .single)
    else if c = '"' then some (.string .double)
    else if IsStray c then none
    else some .code
  | .string q, c => if c = q.mark then some .code else some (.string q)

/-- How the automaton ends: after the last character, or at the first one that it rejects, given by its index. -/
inductive Verdict where
  | accepted (r : Region)
  | rejected (index : Nat)
  deriving DecidableEq, Repr

/-- The same verdict on a text with `n` more characters in front. -/
def Verdict.shift (n : Nat) : Verdict → Verdict
  | .accepted r => .accepted r
  | .rejected i => .rejected (n + i)

/-- The run of the automaton over a text, character by character. -/
def Region.run (r : Region) : Text → Verdict
  | [] => .accepted r
  | c :: t =>
    match r.next? c with
    | some r' => (r'.run t).shift 1
    | none => .rejected 0

/-! ## Helpers: runs of the automaton -/

theorem Region.run_cons (r : Region) (c : Char) (t : Text) :
    r.run (c :: t) =
      match r.next? c with
      | some r' => (r'.run t).shift 1
      | none => .rejected 0 := rfl

theorem Verdict.shift_shift (n n' : Nat) (v : Verdict) : (v.shift n').shift n = v.shift (n + n') := by
  cases v with
  | accepted r => rfl
  | rejected i => simp only [Verdict.shift, Nat.add_assoc]

theorem Verdict.shift_zero (v : Verdict) : v.shift 0 = v := by
  cases v with
  | accepted r => rfl
  | rejected i => rw [Verdict.shift, Nat.zero_add]

/-- A run over two texts is the run over the first, and from where that ends, if it does not reject, the run over the
second. -/
theorem Region.run_append (r : Region) (a b : Text) :
    r.run (a ++ b) =
      match r.run a with
      | .accepted r' => (r'.run b).shift a.length
      | .rejected i => .rejected i := by
  induction a generalizing r with
  | nil => exact (Verdict.shift_zero _).symm
  | cons c a ih =>
    rw [List.cons_append, Region.run_cons, Region.run_cons]
    cases hc : r.next? c with
    | none => rfl
    | some r₁ =>
      simp only [ih r₁]
      cases hv : r₁.run a with
      | accepted r₂ => rw [Verdict.shift, Verdict.shift_shift, List.length_cons, Nat.add_comm]
      | rejected i => rfl

/-- Characters at which the automaton does not move leave it where it is. -/
theorem Region.run_of_stays {r : Region} {l : Text} (h : ∀ c ∈ l, r.next? c = some r) : r.run l = .accepted r := by
  induction l with
  | nil => rfl
  | cons c l ih =>
    obtain ⟨hc, hl⟩ := List.forall_mem_cons.mp h
    rw [Region.run_cons, hc]
    simp only [ih hl, Verdict.shift]

/-- In code the automaton moves at the quotes and rejects the stray characters. -/
theorem Region.next?_code (c : Char) :
    Region.code.next? c =
      match Start.of c with
      | .quote q => some (.string q)
      | .stray => none
      | _ => some .code := by
  have hsingle : c = '\'' ↔ Start.of c = .quote .single := (Start.of_eq_quote_iff .single c).symm
  have hdouble : c = '"' ↔ Start.of c = .quote .double := (Start.of_eq_quote_iff .double c).symm
  simp only [Region.next?, hsingle, hdouble, ← Start.of_eq_stray_iff]
  cases h : Start.of c with
  | quote q => cases q <;> simp
  | _ => simp

/-- The automaton stays in code at every character of a name, and so of a word. -/
theorem IsNameRest.next?_code {c : Char} (h : IsNameRest c) : Region.code.next? c = some .code := by
  rw [Region.next?_code]
  by_cases hspace : IsSpace c
  · rw [(Start.of_eq_space_iff c).mpr hspace]
  · rcases h with hdigit | hstart
    · rw [(Start.of_eq_digit_iff c).mpr hdigit]
    · rw [(Start.of_eq_name_iff c).mpr ⟨hstart, hspace⟩]

/-! ## Lexemes move the automaton -/

/-- A lexeme leaves the automaton where it is at every character, or is a single character at which the automaton moves. -/
theorem Lexeme.stays_or_moves {r : Region} {k : Category} {l : Text} {m' : Mode} {n : Option Char}
    (h : Lexeme r.mode k l m' n) :
    (r.mode = m' ∧ ∀ c ∈ l, r.next? c = some r) ∨ ∃ c r', l = [c] ∧ r.next? c = some r' ∧ r'.mode = m' := by
  generalize hm : r.mode = m at h
  cases r with
  | code =>
    cases h with
    | whitespace _ hl _ =>
      refine Or.inl ⟨rfl, fun c hc => ?_⟩
      rw [Region.next?_code, (Start.of_eq_space_iff c).mpr (hl c hc)]
    | reserved hw _ => exact Or.inl ⟨rfl, fun c hc => (hw.wordChars c hc).nameRest.next?_code⟩
    | name hstart _ hl _ _ =>
      refine Or.inl ⟨rfl, fun c hc => ?_⟩
      rcases List.mem_cons.mp hc with rfl | hc
      · exact hstart.nameRest.next?_code
      · exact (hl c hc).next?_code
    | numeric _ hl _ => exact Or.inl ⟨rfl, fun c hc => (IsWordChar.nameRest (Or.inl (hl c hc))).next?_code⟩
    | @punctuation c _ hc =>
      refine Or.inl ⟨rfl, fun d hd => ?_⟩
      rw [List.mem_singleton.mp hd, Region.next?_code, (Start.of_eq_punctuation_iff c).mpr hc]
    | opening q =>
      refine Or.inr ⟨q.mark, .string q, rfl, ?_, rfl⟩
      rw [Region.next?_code, (Start.of_eq_quote_iff q q.mark).mpr rfl]
    | closing q => cases hm
    | content q _ _ _ => cases hm
  | string q =>
    cases h with
    | closing q =>
      cases hm
      exact Or.inr ⟨q.mark, .code, rfl, if_pos rfl, rfl⟩
    | content q _ hl _ =>
      cases hm
      exact Or.inl ⟨rfl, fun c hc => if_neg (hl c hc)⟩
    | _ => cases hm

/-- Over a lexeme the automaton runs from the region of the mode before it to the region of the mode after it. -/
theorem Lexeme.run_eq {r : Region} {k : Category} {l : Text} {m' : Mode} {n : Option Char}
    (h : Lexeme r.mode k l m' n) : ∃ r' : Region, r'.mode = m' ∧ r.run l = .accepted r' := by
  rcases h.stays_or_moves with ⟨hm', hstays⟩ | ⟨c, r', rfl, hc, hm'⟩
  · exact ⟨r, hm', Region.run_of_stays hstays⟩
  · refine ⟨r', hm', ?_⟩
    rw [Region.run_cons, hc]
    rfl

/-- Where no step can be taken, the text is at its end or the automaton rejects its first character. -/
theorem Region.run_of_step?_eq_none {r : Region} {t : Text} (h : Grammar.julia.step? r.mode t = none) :
    (t = [] ∧ r.run t = .accepted r) ∨ (t ≠ [] ∧ r = .code ∧ r.run t = .rejected 0) := by
  cases t with
  | nil => exact Or.inl ⟨rfl, rfl⟩
  | cons c t =>
    cases r with
    | code =>
      refine Or.inr ⟨List.cons_ne_nil _ _, rfl, ?_⟩
      rw [Region.mode, Grammar.step?_topLevel_cons] at h
      rw [Region.run_cons, Region.next?_code]
      cases hc : Start.of c with
      | stray => rfl
      | name => simp only [hc] at h; split_ifs at h
      | _ => simp [hc] at h
    | string q =>
      rw [Region.mode, Grammar.step?_quoted_cons] at h
      split_ifs at h

/-- The scan of a text ends as the automaton does: at the end of the text and in the mode of the same region, or at top
level in front of the character that the automaton rejects. -/
theorem Region.run_scan (r : Region) (t : Text) :
    match r.run t with
    | .accepted r' => (Grammar.julia.scan r.mode t).rest = [] ∧ (Grammar.julia.scan r.mode t).mode = r'.mode
    | .rejected i =>
      i < t.length ∧ (Grammar.julia.scan r.mode t).rest = t.drop i ∧ (Grammar.julia.scan r.mode t).mode = .topLevel := by
  generalize hm : r.mode = m
  induction m, t using Grammar.julia.scan_induction generalizing r with
  | stop m t h =>
    subst hm
    rw [Grammar.scan_of_step?_eq_none h]
    rcases Region.run_of_step?_eq_none h with ⟨ht, hrun⟩ | ⟨ht, hr, hrun⟩
    · rw [hrun]
      exact ⟨ht, rfl⟩
    · rw [hrun, hr]
      exact ⟨List.length_pos_iff.mpr ht, rfl, rfl⟩
  | step m t s h ih =>
    subst hm
    obtain ⟨r', hm', hl⟩ := (Grammar.lexeme_of_step? h).run_eq
    specialize ih r' hm'
    have hrun : r.run t = (r'.run (t.drop s.lexeme.length)).shift s.lexeme.length := by
      rw [← Grammar.lexeme_append_drop h, Region.run_append, hl, List.drop_left]
    rw [hrun, Grammar.scan_of_step?_eq_some h]
    cases hv : r'.run (t.drop s.lexeme.length) with
    | accepted r'' =>
      rw [hv] at ih
      exact ih
    | rejected i =>
      rw [hv] at ih
      obtain ⟨hi, hrest, hmode⟩ := ih
      refine ⟨?_, ?_, hmode⟩
      · rw [List.length_drop] at hi
        omega
      · rw [List.drop_drop] at hrest
        exact hrest

/-! ## Lines and their verdicts -/

theorem Region.mode_ne_uninitialized (r : Region) : r.mode ≠ .uninitialized := by
  cases r <;> exact nofun

/-- From the mode of a region a line gives the result of its scan. -/
theorem Region.tokenizeLine_eq (r : Region) (t : Text) :
    tokenizeLine r.mode t = (Grammar.julia.scan r.mode t).result :=
  if_neg r.mode_ne_uninitialized

/-- A line that the automaton accepts is tokenized, and leaves the mode of the region in which the automaton ends. -/
theorem Region.exists_tokenizeLine_eq_ok {r r' : Region} {t : Text} (h : r.run t = .accepted r') :
    ∃ ts, tokenizeLine r.mode t = .ok ⟨ts, r'.mode⟩ := by
  have hscan := r.run_scan t
  rw [h] at hscan
  obtain ⟨hrest, hmode⟩ := hscan
  exact ⟨_, by rw [r.tokenizeLine_eq, Scan.result, if_pos hrest, hmode]⟩

/-- A line with a character that the automaton rejects fails at that character. -/
theorem Region.tokenizeLine_eq_error {r : Region} {t : Text} {i : Nat} (h : r.run t = .rejected i) :
    i < t.length ∧ tokenizeLine r.mode t = .error (.unmatched .topLevel i (t.drop i)) := by
  have hscan := r.run_scan t
  rw [h] at hscan
  obtain ⟨hi, hrest, hmode⟩ := hscan
  have hcolumn := Grammar.julia.column_add_length_rest r.mode t
  rw [hrest, List.length_drop] at hcolumn
  have hi' : (Grammar.julia.scan r.mode t).column = i := by omega
  have hne : t.drop i ≠ [] := fun hnil => by
    have := List.drop_eq_nil_iff.mp hnil
    omega
  refine ⟨hi, ?_⟩
  rw [r.tokenizeLine_eq, Scan.result, hrest, if_neg hne, hmode, hi']

/-- The automaton accepts every line that is tokenized. -/
theorem Region.run_of_tokenizeLine_eq_ok {r : Region} {t : Text} {l : LineTokens} (h : tokenizeLine r.mode t = .ok l) :
    ∃ r' : Region, r'.mode = l.mode ∧ r.run t = .accepted r' := by
  cases hrun : r.run t with
  | accepted r' =>
    obtain ⟨ts, hts⟩ := Region.exists_tokenizeLine_eq_ok hrun
    rw [h] at hts
    cases hts
    exact ⟨r', rfl, rfl⟩
  | rejected i =>
    have herror := (Region.tokenizeLine_eq_error hrun).2
    rw [h] at herror
    cases herror

/-- A line that fails does so at a character that the automaton rejects. -/
theorem Region.run_of_tokenizeLine_eq_error {r : Region} {t : Text} {e : LexError} (h : tokenizeLine r.mode t = .error e) :
    ∃ i, e = .unmatched .topLevel i (t.drop i) ∧ r.run t = .rejected i := by
  cases hrun : r.run t with
  | accepted r' =>
    obtain ⟨ts, hok⟩ := Region.exists_tokenizeLine_eq_ok hrun
    rw [h] at hok
    cases hok
  | rejected i =>
    have herror := (Region.tokenizeLine_eq_error hrun).2
    rw [h] at herror
    exact ⟨i, Except.error.inj herror, rfl⟩

/-- Tokenizing a line refines the automaton. It succeeds exactly if the automaton rejects no character, and then leaves the
mode of the automaton's last region; otherwise the error names top level, the index of the first character that the automaton
rejects, and the line from there on. -/
theorem tokenizeLine_refines_automaton (r : Region) (t : Text) :
    match r.run t with
    | .accepted r' => ∃ ts, tokenizeLine r.mode t = .ok ⟨ts, r'.mode⟩
    | .rejected i =>
      i < t.length ∧ tokenizeLine r.mode t = .error (.unmatched .topLevel i (t.drop i)) ∧ t.take i ++ t.drop i = t := by
  cases hrun : r.run t with
  | accepted r' => exact Region.exists_tokenizeLine_eq_ok hrun
  | rejected i =>
    obtain ⟨hi, herror⟩ := Region.tokenizeLine_eq_error hrun
    exact ⟨hi, herror, List.take_append_drop i t⟩

end JuliaLexer
