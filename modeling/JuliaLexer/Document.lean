import JuliaLexer.Line

/-!
# Documents: lines read one after another

The lines of a document are read in order, each from the mode that the line before it leaves, up to the first one that fails.
`readLines` gives the account of that, line by line; `tokenizeDocument` puts the tokens of all lines together, with a token of
length one for every newline between them, so that the tokens cover the document.
-/

namespace JuliaLexer

/-- A line that was read: the mode it was read from, its characters, and its tokens. -/
structure LineRead where
  start : Mode
  text : Text
  tokens : List Token
  deriving DecidableEq, Repr

/-- How far reading lines got: the lines that were read, the mode after them, and the error of the line that was not, unless
there was none. -/
structure LinesRead where
  lines : List LineRead
  mode : Mode
  failure : Option LexError
  deriving DecidableEq, Repr

/-- The error with the number of its line, which comes right after the lines that were read. -/
def LinesRead.error? (r : LinesRead) : Option LexError := r.failure.map (fun e => .atLine (r.lines.length + 1) e)

/-- Reading lines after some lines, given with the latest line first. -/
def readLinesAfter (done : List LineRead) (m : Mode) : List Text → LinesRead
  | [] => ⟨done.reverse, m, none⟩
  | line :: rest =>
    match tokenizeLine m line with
    | .ok l => readLinesAfter (⟨m, line, l.tokens⟩ :: done) l.mode rest
    | .error e => ⟨done.reverse, m, some e⟩

/-- Reading lines from a mode. -/
def readLines (m : Mode) (lines : List Text) : LinesRead := readLinesAfter [] m lines

/-- Reading a document from a mode. -/
def tokenizeDocument (m : Mode) (t : Text) : Except LexError LineTokens :=
  let read := readLines m t.lines
  match read.error? with
  | some e => .error e
  | none => .ok ⟨[Token.newLine].intercalate (read.lines.map (·.tokens)), read.mode⟩

/-! ## Helper lemmas: reading line by line -/

theorem readLinesAfter_eq (done : List LineRead) (m : Mode) (lines : List Text) :
    readLinesAfter done m lines = { readLines m lines with lines := done.reverse ++ (readLines m lines).lines } := by
  induction lines generalizing done m with
  | nil => simp [readLines, readLinesAfter]
  | cons line rest ih =>
    rw [readLines, readLinesAfter, readLinesAfter]
    cases tokenizeLine m line with
    | error e => simp
    | ok l =>
      simp only [ih (⟨m, line, l.tokens⟩ :: done), ih [⟨m, line, l.tokens⟩], List.reverse_cons, List.reverse_nil,
        List.nil_append, List.append_assoc, List.singleton_append]

theorem readLines_nil (m : Mode) : readLines m [] = ⟨[], m, none⟩ := rfl

/-- Where the first line fails, no line is read. -/
theorem readLines_cons_of_error {m : Mode} {line : Text} {e : LexError} (h : tokenizeLine m line = .error e)
    (rest : List Text) : readLines m (line :: rest) = ⟨[], m, some e⟩ := by
  rw [readLines, readLinesAfter, h]
  rfl

/-- Where it does not, the other lines are read from the mode it leaves. -/
theorem readLines_cons_of_ok {m : Mode} {line : Text} {l : LineTokens} (h : tokenizeLine m line = .ok l)
    (rest : List Text) :
    readLines m (line :: rest) =
      { readLines l.mode rest with lines := ⟨m, line, l.tokens⟩ :: (readLines l.mode rest).lines } := by
  rw [readLines, readLinesAfter, h]
  exact readLinesAfter_eq _ _ _

end JuliaLexer
