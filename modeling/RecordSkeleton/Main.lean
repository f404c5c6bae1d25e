import RecordSkeleton.CommandLine.Snapshot

/-!
# The command line

Runs the program on the arguments of the process.
-/

open RecordSkeleton

/-- The time in front of log lines. -/
def logTime (m : Moment) : Text :=
  m.dateText ++ [' '] ++ m.timeText.map fun c => if c = '.' then ',' else c

/-- Writes what a run puts out. -/
def writeOutput (least : LogLevel) (time : Text) (o : Output) : IO Unit := do
  (← IO.getStdout).putStr (String.ofList (Output.standardText [o]))
  (← IO.getStderr).putStr (String.ofList (Output.errorTextWithLog least time [o]))

/-- Runs the program; a run that is aborted ends with status 1. -/
def main (args : List String) : IO UInt32 := do
  let argv := args.map String.toList
  let machine ← Snapshot.machineFor argv
  let report := Program.run machine none argv
  for o in report.output do
    writeOutput (Program.shownLevel report.verbosity) (logTime machine.now) o
  match report.ending with
  | .ok status => pure (UInt32.ofNat status)
  | .error abort => do
    IO.eprintln (String.ofList abort.message)
    pure 1
