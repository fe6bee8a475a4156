import JuliaLexer.Proofs.ProgramRun

/-!
# Streaming: a run on input in two parts

Where input is cut right after a line feed, the run on the whole is the run on the first part and, unless that fails, the run
on the second part, started in the mode that the first has reached and handed over by its name
(`CommandLine.run_append_input`). What the first run has printed stays as it is, and so does the failure of the second, only
that in the number of a line the lines of the first part count. Both parts may hold bytes that are not UTF-8; it is the first
line that fails, for whatever cause, that ends a run (`CommandLine.readBytes_append`).
-/

namespace JuliaLexer

/-- The failure of an input that starts `n` lines further down. -/
def Failure.shiftLine (n : Nat) : Failure → Failure
  | .line e => .line (e.shiftLine n)
  | f => f

/-- `ReportsShifted n s s'`: standard error holds `s'` where it would hold `s` without `n` lines of input in front. Either
nothing failed, or a line did, whose number is larger by `n` in `s'`, or a line was not UTF-8, and then no number is named. -/
inductive ReportsShifted (n : Nat) : String → String → Prop where
  | nothing : ReportsShifted n "" ""
  | line (l : Nat) (e : LexError) :
      ReportsShifted n (Failure.line (.atLine l e)).report (Failure.line (.atLine (n + l) e)).report
  | encoding : ReportsShifted n Failure.encoding.report Failure.encoding.report

/-- What is read after some lines, if these did not fail. -/
def InputRead.followedBy (r : InputRead) (next : Mode → InputRead) : InputRead :=
  match r.failure with
  | some _ => r
  | none =>
    { next r.mode with
      lines := r.lines ++ (next r.mode).lines
      failure := (next r.mode).failure.map (Failure.shiftLine r.lines.length) }

namespace CommandLine

/-- Reading lines that are still bytes, up to the first one that is not UTF-8 or cannot be read. -/
def readBytes (m : Mode) (lines : List (List UInt8)) : InputRead :=
  let read := readLines m (decodeLines lines)
  { lines := read.lines
    mode := read.mode
    failure :=
      match read.error? with
      | some e => some (.line e)
      | none => if (lines.map decode?).all Option.isSome then none else some .encoding }

end CommandLine

/-! ## Helpers: numbers of lines -/

theorem LexError.shiftLine_shiftLine (n n' : Nat) (e : LexError) : (e.shiftLine n').shiftLine n = e.shiftLine (n + n') := by
  cases e with
  | atLine l e => simp only [LexError.shiftLine, Nat.add_assoc]
  | _ => rfl

theorem Failure.shiftLine_shiftLine (n n' : Nat) (f : Failure) : (f.shiftLine n').shiftLine n = f.shiftLine (n + n') := by
  cases f with
  | line e => simp only [Failure.shiftLine, LexError.shiftLine_shiftLine]
  | _ => rfl

theorem Failure.shiftLine_zero (f : Failure) : f.shiftLine 0 = f := by
  cases f with
  | line e =>
    cases e with
    | atLine l e => simp only [Failure.shiftLine, LexError.shiftLine, Nat.zero_add]
    | _ => rfl
  | _ => rfl

namespace CommandLine

/-! ## Helpers: the lines of input in two parts -/

/-- Cut right after a line feed, input has the lines of the two parts. -/
theorem inputLines_append {x : List UInt8} (h : x = [] ∨ x.getLast? = some 0x0A) (y : List UInt8) :
    inputLines (x ++ y) = inputLines x ++ inputLines y := by
  rcases h with rfl | h
  · rfl
  · obtain ⟨a, rfl⟩ := List.getLast?_eq_some_iff.mp h
    have hnil : inputLines [] = [] := rfl
    rw [List.append_assoc, List.singleton_append, inputLines_append_newline, inputLines_append_newline, hnil,
      List.append_nil]

/-- Input that ends with a line feed has as many lines as line feeds. -/
theorem length_inputLines {x : List UInt8} (h : x = [] ∨ x.getLast? = some 0x0A) :
    (inputLines x).length = x.count 0x0A := by
  rcases h with rfl | h
  · rfl
  · obtain ⟨a, rfl⟩ := List.getLast?_eq_some_iff.mp h
    have hnil : inputLines [] = [] := rfl
    rw [inputLines_append_newline, hnil, List.append_nil, List.length_map, length_splitOn, List.count_append,
      List.count_singleton_self]

/-! ## Helpers: reading bytes line by line -/

theorem readInput_eq_readBytes (m : Mode) (input : List UInt8) : readInput m input = readBytes m (inputLines input) := rfl

theorem readBytes_nil (m : Mode) : readBytes m [] = ⟨[], m, none⟩ := rfl

/-- A line that is not UTF-8 ends the run. -/
theorem readBytes_cons_of_eq_none {line : List UInt8} (h : decode? line = none) (m : Mode) (lines : List (List UInt8)) :
    readBytes m (line :: lines) = ⟨[], m, some .encoding⟩ := by
  simp only [readBytes, decodeLines_cons_of_eq_none h, readLines_nil, LinesRead.error?, Option.map_none, List.map_cons, h,
    List.all_cons, Option.isSome_none, Bool.false_and, Bool.false_eq_true, if_false]

/-- So does one that cannot be read, whatever comes after it. -/
theorem readBytes_cons_of_error {line : List UInt8} {t : Text} {m : Mode} {e : LexError} (h : decode? line = some t)
    (ht : tokenizeLine m t = .error e) (lines : List (List UInt8)) :
    readBytes m (line :: lines) = ⟨[], m, some (.line (.atLine 1 e))⟩ := by
  simp only [readBytes, decodeLines_cons_of_eq_some h, readLines_cons_of_error ht, LinesRead.error?, Option.map_some,
    List.length_nil, Nat.zero_add]

/-- After one that is read, the others are, from the mode it leaves; in their failure it counts. -/
theorem readBytes_cons_of_ok {line : List UInt8} {t : Text} {m : Mode} {l : LineTokens} (h : decode? line = some t)
    (ht : tokenizeLine m t = .ok l) (lines : List (List UInt8)) :
    readBytes m (line :: lines) =
      { readBytes l.mode lines with
        lines := ⟨m, t, l.tokens⟩ :: (readBytes l.mode lines).lines
        failure := (readBytes l.mode lines).failure.map (Failure.shiftLine 1) } := by
  simp only [readBytes, decodeLines_cons_of_eq_some h, readLines_cons_of_ok ht, LinesRead.error?, List.map_cons, h,
    List.all_cons, Option.isSome_some, Bool.true_and, InputRead.mk.injEq, true_and]
  cases (readLines l.mode (decodeLines lines)).failure with
  | some e =>
    simp only [Option.map_some, List.length_cons, Failure.shiftLine, LexError.shiftLine, Option.some.injEq,
      Failure.line.injEq, LexError.atLine.injEq, and_true]
    omega
  | none =>
    simp only [Option.map_none]
    split_ifs <;> rfl

/-- Lines after others are read if those do not fail, from the mode they leave. -/
theorem readBytes_append (m : Mode) (xs ys : List (List UInt8)) :
    readBytes m (xs ++ ys) = (readBytes m xs).followedBy (fun m' => readBytes m' ys) := by
  induction xs generalizing m with
  | nil =>
    rw [readBytes_nil, List.nil_append]
    simp only [InputRead.followedBy, List.nil_append, List.length_nil]
    have hzero : Failure.shiftLine 0 = id := funext Failure.shiftLine_zero
    rw [hzero, Option.map_id, id_eq]
  | cons line xs ih =>
    rw [List.cons_append]
    cases hdecode : decode? line with
    | none => rw [readBytes_cons_of_eq_none hdecode, readBytes_cons_of_eq_none hdecode, InputRead.followedBy]
    | some t =>
      cases hline : tokenizeLine m t with
      | error e => rw [readBytes_cons_of_error hdecode hline, readBytes_cons_of_error hdecode hline, InputRead.followedBy]
      | ok l =>
        rw [readBytes_cons_of_ok hdecode hline, readBytes_cons_of_ok hdecode hline, ih l.mode]
        cases hfailure : (readBytes l.mode xs).failure with
        | some f => simp only [InputRead.followedBy, hfailure, Option.map_some]
        | none =>
          simp only [InputRead.followedBy, hfailure, Option.map_none, List.cons_append, List.length_cons, Option.map_map,
            InputRead.mk.injEq, true_and]
          refine congrArg (Option.map · _) (funext fun f => ?_)
          rw [Function.comp_apply, Failure.shiftLine_shiftLine, Nat.add_comm]

/-- What makes a run fail on its input is a line, which is named by its number, or an encoding. -/
theorem failure_readInput (m : Mode) (input : List UInt8) :
    (readInput m input).failure = none ∨ (readInput m input).failure = some .encoding ∨
      ∃ l e, (readInput m input).failure = some (.line (.atLine l e)) := by
  rw [readInput_eq_readBytes]
  simp only [readBytes, LinesRead.error?]
  cases (readLines m (decodeLines (inputLines input))).failure with
  | some e => exact Or.inr (Or.inr ⟨_, e, rfl⟩)
  | none =>
    simp only [Option.map_none]
    split_ifs
    · exact Or.inl rfl
    · exact Or.inr (Or.inl rfl)

/-- Input in two parts is read part by part. -/
theorem readInput_append (m : Mode) {x : List UInt8} (h : x = [] ∨ x.getLast? = some 0x0A) (y : List UInt8) :
    readInput m (x ++ y) = (readInput m x).followedBy (fun m' => readInput m' y) := by
  simp only [readInput_eq_readBytes, inputLines_append h, readBytes_append]

/-- What a run leaves that goes on after lines it has read: the output of these and of what follows, and the exit code and the
report of what follows. -/
theorem outcome_followedBy {r : InputRead} (hr : r.failure = none) {m : Mode} {input : List UInt8} (hm : r.mode = m) :
    let whole := outcome (r.followedBy (fun m' => readInput m' input))
    let rest := outcome (readInput m input)
    whole.stdout = (outcome r).stdout ++ rest.stdout ∧ whole.exit = rest.exit ∧
      ReportsShifted r.lines.length rest.stderr whole.stderr := by
  subst hm
  intro whole rest
  refine ⟨?_, ?_⟩
  · simp only [whole, rest, stdout_outcome, InputRead.followedBy, hr, List.map_append, String.join_append]
  · rcases failure_readInput r.mode input with hf | hf | ⟨l, e, hf⟩
    · simp only [whole, rest, outcome, InputRead.followedBy, hr, hf, Option.map_none]
      exact ⟨trivial, .nothing⟩
    · simp only [whole, rest, outcome, InputRead.followedBy, hr, hf, Option.map_some]
      exact ⟨rfl, .encoding⟩
    · simp only [whole, rest, outcome, InputRead.followedBy, hr, hf, Option.map_some]
      exact ⟨rfl, .line l e⟩

/-! ## Input in two parts -/

/-- Let input be cut where it starts or right after a line feed. If the run on the first part fails, so does the run on the
whole, and both leave the same. Otherwise the run on the whole prints what the first prints and then what a run on the second
part prints that is started with the name of the mode that the first has reached. It has the exit code of that run, and on
standard error the same, with the line feeds of the first part added to the number of a line. -/
theorem run_append_input {args : List String} {m : Mode} (hargs : StartsIn args m) {x : List UInt8}
    (hx : x = [] ∨ x.getLast? = some 0x0A) (y : List UInt8) :
    ((run args x).exit ≠ 0 → run args (x ++ y) = run args x) ∧
    ((run args x).exit = 0 → ∀ m₁, (readInput m x).mode = m₁ →
      (run args (x ++ y)).stdout = (run args x).stdout ++ (run [m₁.name] y).stdout ∧
      (run args (x ++ y)).exit = (run [m₁.name] y).exit ∧
      ReportsShifted (x.count 0x0A) (run [m₁.name] y).stderr (run args (x ++ y)).stderr) := by
  rw [run_of_startsIn hargs, run_of_startsIn hargs, readInput_append m hx]
  refine ⟨?_, ?_⟩
  · intro hexit
    rw [ne_eq, exit_outcome_eq_zero_iff] at hexit
    obtain ⟨f, hf⟩ := Option.ne_none_iff_exists'.mp hexit
    simp only [InputRead.followedBy, hf]
  · intro hexit m₁ hm₁
    rw [exit_outcome_eq_zero_iff] at hexit
    have hlines := congrArg List.length (map_utf8_readInput_of_failure_eq_none hexit)
    rw [List.length_map, length_inputLines hx] at hlines
    rw [run_of_startsIn (.named m₁ []), ← hlines]
    exact outcome_followedBy hexit hm₁

/-- A string that the first part leaves open, where the second part closes it and fails or is not UTF-8, and a first part that
fails before bytes that are not UTF-8. -/
theorem run_append_input_in_string :
    (run [] ([0x22, 0x61, 0x0A] ++ [0x22, 0x2A])).stdout =
        (run [] [0x22, 0x61, 0x0A]).stdout ++ (run ["InsideDoubleQuoteString"] [0x22, 0x2A]).stdout ∧
      ReportsShifted 1 (run ["InsideDoubleQuoteString"] [0x22, 0x2A]).stderr
        (run [] ([0x22, 0x61, 0x0A] ++ [0x22, 0x2A])).stderr ∧
      (run [] ([0x22, 0x61, 0x0A] ++ [0xFF])).exit = (run ["InsideDoubleQuoteString"] [0xFF]).exit ∧
      run [] ([0x2A, 0x0A] ++ [0xFF]) = run [] [0x2A, 0x0A] := by
  have hmode : (readInput .topLevel [0x22, 0x61, 0x0A]).mode = .quoted .double := by decide +kernel
  have hexit : (run [] [0x22, 0x61, 0x0A]).exit = 0 := by decide +kernel
  have hread := (run_append_input .noArgument (x := [0x22, 0x61, 0x0A]) (Or.inr rfl) [0x22, 0x2A]).2 hexit _ hmode
  have hencoding := (run_append_input .noArgument (x := [0x22, 0x61, 0x0A]) (Or.inr rfl) [0xFF]).2 hexit _ hmode
  exact ⟨hread.1, hread.2.2, hencoding.2.1,
    (run_append_input .noArgument (x := [0x2A, 0x0A]) (Or.inr rfl) [0xFF]).1 (by decide +kernel)⟩

end CommandLine

end JuliaLexer
