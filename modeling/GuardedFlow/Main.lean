import GuardedFlow.Command.Report

/-!
# The command line
-/

def usage : String :=
  "usage: guardedflow tokenize EXPRESSION\n" ++
    "       guardedflow parse [--compact] EXPRESSION\n" ++
    "       guardedflow eval [--prefix NAME] [--item JSON] [--no-fold] EXPRESSION\n" ++
    "       guardedflow check FILE\n"

def readFile? (path : String) : IO (Option String) := do
  try
    return some (← IO.FS.readFile path)
  catch _ =>
    return none

def main (args : List String) : IO UInt32 := do
  match GuardedFlow.Command.parse? args with
  | none =>
    (← IO.getStderr).putStr usage
    return 2
  | some command =>
    let content ← match command.path? with
      | some path => readFile? path
      | none => pure none
    let report := command.report content
    (← IO.getStdout).putStr report.output
    (← IO.getStderr).putStr report.errors
    return report.code.toUInt32
