import RecordSkeleton.Output
import RecordSkeleton.Run
import RecordSkeleton.Text.ShellWords

/-!
# Clipboards

A skeleton is delivered to the standard output or to a program that fills the clipboard: the
configured one, or the first of the known ones that is installed.

1. A missing program and one that fails are errors of the clipboard. Anything else that the system, an
   encoding or the memory has against a delivery breaks it off (`DeliveryFault`).
-/

namespace RecordSkeleton

/-- The known clipboard programs with their arguments, in the order in which they are tried. -/
def knownClipboardCommands : List (List Text) :=
  [["pbcopy".toList], ["wl-copy".toList],
    ["xclip".toList, "-selection".toList, "clipboard".toList],
    ["xsel".toList, "--clipboard".toList, "--input".toList], ["clip".toList]]

/-- Why a delivery is broken off, with the message of the system or of the encoding. -/
inductive DeliveryFault where
  /-- The system refuses to run the program, or to write what is printed. -/
  | refused (message : Text)
  /-- An argument of the program holds a null character. -/
  | nullCharacter
  /-- A character of the text is missing in the encoding in which it is passed on. -/
  | notEncodable (message : Text)
  /-- What the program has written is no text in the encoding in which it is read. -/
  | notDecodable (message : Text)
  /-- Memory does not hold what it takes to make the text or to pass it on. -/
  | outOfMemory
  deriving DecidableEq, Repr

/-- The message of a fault. -/
def DeliveryFault.message : DeliveryFault → Text
  | refused message | notEncodable message | notDecodable message => message
  | nullCharacter => "embedded null byte".toList
  | outOfMemory => []

/-- Why a text is not delivered. -/
inductive ClipboardError where
  /-- No clipboard program is installed. -/
  | noCommand
  /-- The program does not exist. -/
  | commandMissing (name : Text)
  /-- The program has failed, with these details. -/
  | commandFailed (detail : Text)
  /-- The delivery is broken off, which is no error of the clipboard's own. -/
  | brokenOff (fault : DeliveryFault)
  deriving DecidableEq, Repr

/-- The message of a clipboard error. -/
def ClipboardError.message : ClipboardError → Text
  | noCommand =>
    "No clipboard command found (tried pbcopy, wl-copy, xclip, xsel, clip)".toList
  | commandMissing name => "Clipboard command not found: ".toList ++ name
  | commandFailed detail => "Clipboard command failed: ".toList ++ detail
  | brokenOff fault => fault.message

/-- How running a program ends. -/
inductive ProgramEnd where
  /-- It succeeds. -/
  | success
  /-- There is no such program. -/
  | missing
  /-- It ends with a status other than zero, after writing to its error output. -/
  | failed (status : Int) (errorOutput : Text)
  /-- It cannot be started, or what it is given or writes cannot be passed on. -/
  | brokenOff (fault : DeliveryFault)
  deriving DecidableEq, Repr

/-- The programs of the machine. -/
structure Programs where
  /-- Whether a program of this name is installed. -/
  installed : Text → Bool
  /-- How running a program with these arguments and this input ends. -/
  run : List Text → Text → ProgramEnd

namespace Clipboard

/-- The command that is used: the configured one unless it is empty, else the first known one that
is installed. -/
def resolve (programs : Programs) (configured : List Text) :
    Except ClipboardError (List Text) :=
  if configured ≠ [] then .ok configured
  else match knownClipboardCommands.find? fun argv => argv.head?.any programs.installed with
    | some argv => .ok argv
    | none => .error .noCommand

/-- What is reported of a failed program: what it has said, or else its status. -/
def failureDetail (status : Int) (errorOutput : Text) : Text :=
  let said := Text.trim errorOutput
  if said = [] then "exit status ".toList ++ Text.ofInt status else said

/-- Puts a text on the clipboard of the machine. -/
def copy (programs : Programs) (configured : List Text) (text : Text) :
    Run Output ClipboardError Unit := do
  let argv ← Run.ofResult (resolve programs configured)
  let name := argv.head?.getD []
  Run.emit (.log ⟨.debug, "clipboard".toList,
    "Copying ".toList ++ Text.ofNat text.length ++ " chars with ".toList ++ name⟩)
  Run.emit (.call argv text)
  match programs.run argv text with
  | .success => pure ()
  | .missing => Run.ofResult (.error (.commandMissing name))
  | .failed status said => Run.ofResult (.error (.commandFailed (failureDetail status said)))
  | .brokenOff fault => Run.ofResult (.error (.brokenOff fault))

/-- Writes a text on the standard output instead, unless that does not take the text. -/
def print (outputFault? : Text → Option DeliveryFault) (text : Text) :
    Run Output ClipboardError Unit :=
  match outputFault? (text ++ ['\n']) with
  | some fault => Run.ofResult (.error (.brokenOff fault))
  | none => Run.emit (.standard (text ++ ['\n']))

end Clipboard

end RecordSkeleton
