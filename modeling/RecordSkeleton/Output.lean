import RecordSkeleton.Log

/-!
# Output

What a run of the program puts out, in order: texts on the two output streams, log entries, and
calls of other programs.
-/

namespace RecordSkeleton

/-- One thing that is put out. -/
inductive Output where
  /-- A text on the standard output. -/
  | standard (text : Text)
  /-- A text on the error output. -/
  | error (text : Text)
  | log (entry : LogEntry)
  /-- A program that is run with these arguments and this input. -/
  | call (argv : List Text) (input : Text)
  deriving DecidableEq, Repr

namespace Output

/-- What appears on the standard output. -/
def standardText : List Output → Text :=
  List.flatMap fun
    | standard text => text
    | _ => []

/-- What appears on the error output apart from log entries. -/
def errorText : List Output → Text :=
  List.flatMap fun
    | error text => text
    | _ => []

/-- What appears on the error output when entries from the given level on are logged there, each
line behind the given time. -/
def errorTextWithLog (least : LogLevel) (time : Text) : List Output → Text :=
  List.flatMap fun
    | error text => text
    | log entry =>
      if least.rank ≤ entry.level.rank then time ++ [' '] ++ entry.line ++ ['\n'] else []
    | _ => []

/-- The programs that are run. -/
def calls : List Output → List (List Text × Text) :=
  List.filterMap fun
    | call argv input => some (argv, input)
    | _ => none

end Output

/-- Reports a failure: once in the log and once as a line on the error output. -/
def reportFailure (title message : Text) : List Output :=
  [.log ⟨.error, "clipboard".toList, title ++ ": ".toList ++ message⟩,
    .error ("Error: ".toList ++ title ++ ": ".toList ++ message ++ ['\n'])]

end RecordSkeleton
