import JuliaLexer.CommandLine

/-!
# The program: arguments and standard input to standard output and standard error
-/

open JuliaLexer

/-- Prints what a run leaves, and ends with its exit code. -/
def finish (outcome : Outcome) : IO UInt32 := do
  (← IO.getStdout).putStr outcome.stdout
  (← IO.getStderr).putStr outcome.stderr
  return outcome.exit

def main (args : List String) : IO UInt32 := do
  match CommandLine.startMode args with
  | .error e => finish (.failed "" (.argument e))
  | .ok m =>
    let input ← (← IO.getStdin).readBinToEnd
    finish (CommandLine.outcome (CommandLine.readInput m input.data.toList))
