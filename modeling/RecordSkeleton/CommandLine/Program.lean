import RecordSkeleton.Command
import RecordSkeleton.CommandLine.Arguments
import RecordSkeleton.ProjectCatalog
import RecordSkeleton.ProjectRoot
import RecordSkeleton.Settings.Layers
import RecordSkeleton.SourceFile

/-!
# The program

One run of the program on its arguments. A run prints, logs and calls other programs, and ends with
an exit status or is aborted by a setting or a path that cannot be used, or by a delivery that is broken
off. The settings are loaded once and kept for later runs, together with what the options have changed in
them.

1. `Program.run` gives the output of a run, its end and the settings that are kept.

Calls nest without a limit here, so that configuration files, directories, sources, types and skeletons
of any depth are gone through to the end. Memory is limited for the spaces of an indent
(`Environment.room`) and for a text as a whole, which is then not delivered
(`DeliveryFault.outOfMemory`). The error output takes every text.
-/

namespace RecordSkeleton

/-- The machine that the program runs on. -/
structure Machine where
  tree : FileTree
  environment : Environment
  programs : Programs
  now : Moment
  /-- Why a text cannot be written on the standard output, if it cannot. -/
  outputFault? : Text → Option DeliveryFault

/-- Why a run is aborted. -/
inductive Abort where
  | loading (fault : LoadingFault)
  | setting (fault : SettingFault)
  | clipboardCommand (fault : ShellWords.Fault)
  /-- The value of an option is dropped, although it is needed. -/
  | valueDropped (option : CliOption)
  | path (fault : PathError)
  | delivery (fault : DeliveryFault)
  deriving DecidableEq, Repr

/-- The message of an abort. -/
def Abort.message : Abort → Text
  | loading fault => fault.message
  | setting fault => fault.message
  | clipboardCommand fault => fault.message
  | valueDropped option => "argument ".toList ++ option.shown ++ ": no value".toList
  | path fault => fault.message
  | delivery fault => fault.message

/-- Why a run ends early. -/
inductive Stop where
  | exit (status : Nat)
  | abort (a : Abort)
  deriving DecidableEq, Repr

/-- What a run of the program has led to. -/
structure RunReport where
  verbosity : Nat
  output : List Output
  /-- The exit status, or what aborted the run. -/
  ending : Except Abort Nat
  /-- The settings that are kept for later runs, if they were loaded. -/
  settings : Option Settings

namespace Program

/-- Puts something out. -/
def put (o : Output) : Run Output Stop Unit := Run.emit o

/-- Prints a text on the standard output. -/
def print (machine : Machine) (text : Text) : Run Output Stop Unit :=
  match machine.outputFault? text with
  | some fault => Run.ofResult (.error (.abort (.delivery fault)))
  | none => put (.standard text)

/-- Logs an entry of the program's own. -/
def log (level : LogLevel) (origin message : Text) : Output := .log ⟨level, origin, message⟩

/-- Ends a run with a line on the error output. -/
def fail {α : Type} (message : Text) : Run Output Stop α := do
  put (.error ("Error: ".toList ++ message ++ ['\n']))
  Run.ofResult (.error (.exit 1))

/-! ## Options -/

/-- The settings with those of the options in their place, up to the first that cannot be used. An
empty marker or indent changes nothing. -/
def applyOptions (room : Nat) (args : Arguments) (s : Settings) : Settings × Run Output Stop Unit :=
  let s := match args.marker with
    | some (.given (c :: marker)) => { s with marker := c :: marker }
    | _ => s
  let indented : Except SettingFault Settings := match args.indent with
    | some (.given (c :: indent)) =>
      (Settings.indentOfText room (c :: indent)).map fun x => { s with indent := x }
    | _ => .ok s
  match indented with
  | .error fault => (s, Run.ofResult (.error (.abort (.setting fault))))
  | .ok s =>
    match args.maxDepth with
    | none => (s, pure ())
    | some .dropped => (s, Run.ofResult (.error (.abort (.valueDropped .maxDepth))))
    | some (.given n) =>
      match Settings.depthOfInt n with
      | .ok d => ({ s with maxDepth := d }, pure ())
      | .error fault => (s, fail ("--max-depth: ".toList ++ fault.message))

/-! ## The run on a file -/

/-- Only reports whether the file has a type to generate for. -/
def checkFile (machine : Machine) (path : Path) : Run Output Stop Nat := do
  match Document.load .standard machine.tree path true with
  | .error e =>
    put (log .debug "handler".toList
      ("Treating ".toList ++ path.toText ++ " as unavailable: ".toList ++ e.message))
  | .ok _ => pure ()
  let available := Document.isAvailable .standard machine.tree path true
  print machine (if available then "available\n".toList else "unavailable\n".toList)
  pure (if available then 0 else 1)

/-- The directory in which nested types are looked up. -/
def projectOf (machine : Machine) (args : Arguments) (path : Path) : Run Output Stop Path :=
  match args.project with
  | some (.given (c :: project)) => pure (Path.ofText (c :: project))
  | _ => Run.ofResult ((machine.tree.projectRoot path).mapError fun e => .abort (.path e))

/-- The directories of libraries. -/
def librariesOf (args : Arguments) : Run Output Stop (List Path) :=
  args.libraries.mapM fun
    | .given library => pure (Path.ofText library)
    | .dropped => Run.ofResult (.error (.abort (.valueDropped .library)))

/-- The way in which a skeleton is delivered. -/
def clipboardOf (machine : Machine) (args : Arguments) (settings : Settings) :
    Run Output Stop (Text → Run Output ClipboardError Unit) :=
  if args.copy then
    match ShellWords.split (settings.clipboardCommand.getD []) with
    | .ok argv => pure (Clipboard.copy machine.programs argv)
    | .error fault => Run.ofResult (.error (.abort (.clipboardCommand fault)))
  else pure (Clipboard.print machine.outputFault?)

/-- The message of a failed run of the command. -/
def describe : Command.Failure CatalogError ClipboardError → Text
  | .lookup e => e.message
  | .delivery e => e.message

/-- What is put out for what happens in a run of the command. The entries that are logged while the
project is indexed appear where the catalog is first asked. -/
def outputOf (indexing : List LogEntry) : List Command.Occurrence → List Output
  | [] => []
  | .generation (.asked _) :: rest =>
    indexing.map .log ++ rest.flatMap fun
      | .generation event => (event.logged?.map .log).toList
      | .output o => [o]
      | .clockRead | .copying _ | .reporting _ _ => []
  | .generation event :: rest => (event.logged?.map .log).toList ++ outputOf indexing rest
  | .output o :: rest => o :: outputOf indexing rest
  | .clockRead :: rest | .copying _ :: rest | .reporting _ _ :: rest => outputOf indexing rest

/-- Generates the skeleton for the file and delivers it. -/
def generateFor (machine : Machine) (args : Arguments) (settings : Settings) (path : Path) :
    Run Output Stop Nat := do
  match Document.load .standard machine.tree path true with
  | .error e => fail e.message
  | .ok doc => do
    let project ← projectOf machine args path
    put (log .info "cli".toList
      ("Resolving nested types under ".toList ++ project.toText))
    let libraries ← librariesOf args
    let scope := ProjectScope.ofSettings settings [project] libraries
    let clipboard ← clipboardOf machine args settings
    let index := scope.index .standard machine.tree
    let run := Command.deliver settings (Catalog.ofResult index.result) clipboard machine.now doc
    Run.emitAll (outputOf index.events run.events)
    match run.result with
    | .error (.lookup (.inaccessible fault)) => Run.ofResult (.error (.abort (.path fault)))
    | .error (.delivery (.brokenOff fault)) => Run.ofResult (.error (.abort (.delivery fault)))
    | ending => do
      Run.emitAll (outputOf [] (Command.closing describe ending))
      pure (if ending.isOk then 0 else 1)

/-- The run on the file of the arguments. -/
def runFile (machine : Machine) (args : Arguments) (settings : Settings) :
    Run Output Stop Nat := do
  let path := Path.ofText args.file
  if !(← Run.ofResult ((machine.tree.isFile path).mapError fun e => .abort (.path e))) then
    fail ("File not found: ".toList ++ args.file)
  else if args.check then checkFile machine path
  else generateFor machine args settings path

/-- The settings of a run: the kept ones, or newly loaded ones. -/
def settingsOf (machine : Machine) (kept : Option Settings) : Run Output Stop Settings :=
  match kept with
  | some s => pure s
  | none => ((Settings.load machine.tree machine.environment).mapEvents
      fun d => .log d.logEntry).mapError fun fault => .abort (.loading fault)

/-- How a run ends. -/
def endingOf : Except Stop Nat → Except Abort Nat
  | .ok status => .ok status
  | .error (.exit status) => .ok status
  | .error (.abort a) => .error a

/-- One run of the program. Faulty arguments end it with status 2 before anything else is done. -/
def run (machine : Machine) (kept : Option Settings) (argv : List Text) : RunReport :=
  match Arguments.ofList argv with
  | .error .help => ⟨0, [], .ok 0, kept⟩
  | .error (.fault f) =>
    ⟨0, [.error ("jsonskel: error: ".toList ++ f.message ++ ['\n'])], .ok 2, kept⟩
  | .ok args =>
    let loaded := settingsOf machine kept
    match loaded.result with
    | .error stop => ⟨args.verbosity, loaded.events, endingOf (.error stop), kept⟩
    | .ok s =>
      let (s, options) := applyOptions machine.environment.room args s
      let rest := do
        options
        runFile machine args s
      ⟨args.verbosity, loaded.events ++ rest.events, endingOf rest.result, some s⟩

/-- The least level of the log entries that are shown. -/
def shownLevel (verbosity : Nat) : LogLevel :=
  match verbosity with
  | 0 => .warning
  | 1 => .info
  | _ => .debug

end Program

end RecordSkeleton
