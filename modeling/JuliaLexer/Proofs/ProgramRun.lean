import JuliaLexer.Proofs.InputLines
import JuliaLexer.Proofs.LineRun
import Mathlib.Data.Set.List

/-!
# Program runs: what a run of the program reads and prints

A run starts in the mode that its first argument names, or at top level (`StartsIn`). It reads a run of lines, which are the
first lines of the input (`CommandLine.lineRun_readInput`, `CommandLine.map_utf8_readInput`), prints these, and exits with 0
if nothing stopped it (`CommandLine.exit_outcome_eq_zero_iff`); then it has read all lines of the input. On input that encodes
a text it reads the lines of the document in that text (`CommandLine.readInput_utf8`).
-/

namespace JuliaLexer

/-- `StartsIn args m`: with the arguments `args` a run starts in the mode `m`. It is the one that the first argument names, and
top level without arguments. -/
inductive StartsIn : List String → Mode → Prop where
  | noArgument : StartsIn [] .topLevel
  | named (m : Mode) (rest : List String) : StartsIn (m.name :: rest) m

namespace CommandLine

/-- The texts of lines, up to the first line that is not UTF-8. -/
def decodeLines (lines : List (List UInt8)) : List Text := ((lines.map decode?).takeWhile Option.isSome).filterMap id

/-! ## Helpers: lines decoded in turn -/

theorem decodeLines_cons_of_eq_some {line : List UInt8} {t : Text} (h : decode? line = some t) (lines : List (List UInt8)) :
    decodeLines (line :: lines) = t :: decodeLines lines := by
  rw [decodeLines, List.map_cons, h, List.takeWhile_cons_of_pos rfl]
  rfl

theorem decodeLines_cons_of_eq_none {line : List UInt8} (h : decode? line = none) (lines : List (List UInt8)) :
    decodeLines (line :: lines) = [] := by
  rw [decodeLines, List.map_cons, h, List.takeWhile_cons_of_neg Bool.false_ne_true]
  rfl

/-- What is decoded are the first lines. -/
theorem isPrefix_map_utf8_decodeLines (lines : List (List UInt8)) : (decodeLines lines).map Text.utf8 <+: lines := by
  induction lines with
  | nil => exact List.nil_prefix
  | cons line lines ih =>
    cases h : decode? line with
    | none =>
      rw [decodeLines_cons_of_eq_none h]
      exact List.nil_prefix
    | some t =>
      rw [decodeLines_cons_of_eq_some h, List.map_cons, ← decode?_eq_some_iff.mp h]
      exact (List.prefix_cons_inj line).mpr ih

/-- Lines that encode texts are all decoded. -/
theorem decodeLines_map_utf8 (texts : List Text) : decodeLines (texts.map Text.utf8) = texts := by
  induction texts with
  | nil => rfl
  | cons t texts ih => rw [List.map_cons, decodeLines_cons_of_eq_some (decode?_utf8 t), ih]

/-- All lines can be decoded if they encode texts. -/
theorem all_isSome_decode?_iff {lines : List (List UInt8)} :
    (lines.map decode?).all Option.isSome = true ↔ ∃ texts : List Text, texts.map Text.utf8 = lines := by
  have hrange : (∃ texts : List Text, texts.map Text.utf8 = lines) ↔ ∀ line ∈ lines, ∃ t : Text, t.utf8 = line :=
    Set.ext_iff.mp (Set.range_list_map Text.utf8) lines
  rw [hrange, List.all_map, List.all_eq_true]
  refine forall₂_congr (fun line _ => ?_)
  rw [Function.comp_apply, Option.isSome_iff_exists]
  exact exists_congr (fun t => decode?_eq_some_iff.trans eq_comm)

/-! ## What a run reads -/

/-- What a run reads is a run of lines. -/
theorem lineRun_readInput (m : Mode) (input : List UInt8) : LineRun m (readInput m input).lines (readInput m input).mode :=
  lineRun_readLines m (decodeLines (inputLines input))

/-- It reads the first lines of the input. -/
theorem map_utf8_readInput (m : Mode) (input : List UInt8) :
    (readInput m input).lines.map (·.text.utf8) = (inputLines input).take (readInput m input).lines.length := by
  have htexts : (readInput m input).lines.map (·.text) <+: decodeLines (inputLines input) := by
    have h := map_text_readLines m (decodeLines (inputLines input))
    exact h ▸ List.take_prefix _ _
  have hlines := (htexts.map Text.utf8).trans (isPrefix_map_utf8_decodeLines _)
  rw [List.map_map] at hlines
  have htake := List.prefix_iff_eq_take.mp hlines
  rw [List.length_map] at htake
  exact htake

/-- A line that is not UTF-8 stops a run, if no line before it does. -/
theorem exists_map_utf8_of_failure_eq_none {m : Mode} {input : List UInt8} (h : (readInput m input).failure = none) :
    ∃ texts : List Text, texts.map Text.utf8 = inputLines input := by
  refine all_isSome_decode?_iff.mp ?_
  by_contra hall
  simp only [readInput, if_neg hall] at h
  split at h
  · cases h
  · cases h

/-- A run on lines that encode texts reads these texts. -/
theorem readInput_of_map_utf8 (m : Mode) {input : List UInt8} {texts : List Text}
    (h : texts.map Text.utf8 = inputLines input) :
    readInput m input =
      ⟨(readLines m texts).lines, (readLines m texts).mode, (readLines m texts).error?.map .line⟩ := by
  have hall := all_isSome_decode?_iff.mpr ⟨texts, h⟩
  have hdecode : decodeLines (inputLines input) = texts := by rw [← h, decodeLines_map_utf8]
  unfold decodeLines at hdecode
  simp only [readInput, hdecode, if_pos hall]
  cases (readLines m texts).error? <;> rfl

/-- Where the input encodes a text, a run reads the lines of the document in that text. -/
theorem readInput_utf8 (m : Mode) {t : Text} (h : t ≠ []) :
    readInput m t.utf8 =
      ⟨(readLines m t.document.lines).lines, (readLines m t.document.lines).mode,
        (readLines m t.document.lines).error?.map .line⟩ :=
  readInput_of_map_utf8 m (inputLines_utf8 h).symm

/-- A run that nothing stops reads all lines of the input. -/
theorem map_utf8_readInput_of_failure_eq_none {m : Mode} {input : List UInt8} (h : (readInput m input).failure = none) :
    (readInput m input).lines.map (·.text.utf8) = inputLines input := by
  obtain ⟨texts, htexts⟩ := exists_map_utf8_of_failure_eq_none h
  rw [readInput_of_map_utf8 m htexts] at h ⊢
  have hread := map_text_readLines_of_failure_eq_none (Option.map_eq_none_iff.mp (Option.map_eq_none_iff.mp h))
  have hbytes := congrArg (List.map Text.utf8) hread
  rw [List.map_map, htexts] at hbytes
  exact hbytes

/-- The input of a run that nothing stops is UTF-8. -/
theorem exists_utf8_of_failure_eq_none {m : Mode} {input : List UInt8} (h : (readInput m input).failure = none) :
    ∃ t : Text, input = t.utf8 := by
  refine exists_utf8_of_inputLines (fun line hline => ?_)
  rw [← map_utf8_readInput_of_failure_eq_none h] at hline
  obtain ⟨l, -, hl⟩ := List.mem_map.mp hline
  exact ⟨l.text, hl.symm⟩

/-! ## How a run starts, and what it prints -/

/-- The program goes on to its input with just the arguments that a run can start with. -/
theorem startMode_eq_ok_iff {args : List String} {m : Mode} : startMode args = .ok m ↔ StartsIn args m := by
  constructor
  · intro h
    cases args with
    | nil =>
      cases h
      exact .noArgument
    | cons name rest =>
      rw [startMode, Mode.ofName] at h
      split at h
      · rename_i m' hname
        cases h
        have hbeq : (m.name == name) = true := List.find?_some (p := fun m => Mode.name m == name) hname
        obtain rfl := eq_of_beq hbeq
        exact .named m rest
      · cases h
  · intro h
    cases h with
    | noArgument => rfl
    | named m rest => rw [startMode, Mode.ofName, Mode.ofName?_name]

theorem run_of_startsIn {args : List String} {m : Mode} (h : StartsIn args m) (input : List UInt8) :
    run args input = outcome (readInput m input) := by
  rw [run, startMode_eq_ok_iff.mpr h]

/-- A run prints the lines it has read. -/
theorem stdout_outcome (r : InputRead) : (outcome r).stdout = String.join (r.lines.map lineText) := by
  unfold outcome
  cases r.failure <;> rfl

/-- A run exits with 0 if nothing stopped it. -/
theorem exit_outcome_eq_zero_iff {r : InputRead} : (outcome r).exit = 0 ↔ r.failure = none := by
  unfold outcome
  cases r.failure with
  | none => exact ⟨fun _ => rfl, fun _ => rfl⟩
  | some f => exact ⟨nofun, nofun⟩

end CommandLine

end JuliaLexer
