import RecordSkeleton.FileTree
import RecordSkeleton.Log
import RecordSkeleton.Run
import RecordSkeleton.Settings.Conversion
import RecordSkeleton.Toml.Document

/-!
# Layers of settings

Settings start from their defaults. A configuration file replaces those that it names, and is
dropped as a whole when anything in it is faulty. Environment variables then replace single
settings; a faulty variable is passed over.

1. A file is applied setting by setting, in a fixed order, up to the first fault
   (`Settings.applyTable`).
2. A fault beyond all bounds is no reason to drop a file or a variable: it ends the loading
   (`Settings.load`). So does a configuration file of which it cannot be told where it is or whether
   it exists.
-/

namespace RecordSkeleton

/-- What the program finds around it besides files. -/
structure Environment where
  /-- The environment variables by name. -/
  bindings : List (Text × Text) := []
  /-- The home directory of the user in the password database. -/
  home? : Option Text := none
  /-- The number of spaces that memory has room for. -/
  room : Nat

/-- The value of a variable, if it is set. -/
def Environment.lookup (env : Environment) (name : Text) : Option Text := env.bindings.lookup name

/-- Why a configuration file is dropped. -/
inductive FileFault where
  | unreadable (path : Path) (cause : FileError)
  | notUtf8 (fault : Utf8.Fault)
  | toml (fault : Toml.Fault)
  | setting (fault : SettingFault)
  deriving DecidableEq, Repr

/-- The message of a file fault. -/
def FileFault.message : FileFault → Text
  | unreadable path cause => cause.message path
  | notUtf8 fault => fault.message
  | toml .syntaxFault => "Invalid document".toList
  | toml (.numeral fault) => fault.message
  | setting fault => fault.message

/-- Why settings cannot be loaded. -/
inductive LoadingFault where
  /-- The home directory, below which the configuration file stands, is not known. -/
  | homeUnknown
  /-- It cannot be told whether the configuration file exists. -/
  | path (fault : PathError)
  | setting (fault : SettingFault)
  deriving DecidableEq, Repr

/-- The message of a fault. -/
def LoadingFault.message : LoadingFault → Text
  | homeUnknown => "Could not determine home directory.".toList
  | path fault => fault.message
  | setting fault => fault.message

namespace Settings

/-! ## The configuration file -/

/-- Applies a change for the value of a key in a section, if both are there. -/
def applyKey (data : Toml.Entries) (section_ key : String)
    (change : Settings → Toml.Value → Except SettingFault Settings) (s : Settings) :
    Except SettingFault Settings :=
  match data.lookup section_.toList with
  | none => .ok s
  | some v => do
    match ← member? v key.toList with
    | none => pure s
    | some value => change s value

/-- The settings with those of a document in their place. -/
def applyTable (room : Nat) (data : Toml.Entries) (s : Settings) : Except SettingFault Settings := do
  let s ← applyKey data "output" "indent"
    (fun s v => (indentOf room v).map fun x => { s with indent := x }) s
  let s ← applyKey data "output" "external_placeholder"
    (fun s v => (textOf v).map fun x => { s with externalPlaceholder := x }) s
  let s ← applyKey data "output" "recursion_placeholder"
    (fun s v => (textOf v).map fun x => { s with recursionPlaceholder := x }) s
  let s ← applyKey data "output" "max_depth"
    (fun s v => (depthOf v).map fun x => { s with maxDepth := x }) s
  let s ← applyKey data "parser" "marker"
    (fun s v => (textOf v).map fun x => { s with marker := x }) s
  let s ← applyKey data "catalog" "extensions"
    (fun s v => (listOf v).map fun x => { s with extensions := x }) s
  let s ← applyKey data "catalog" "skip_patterns"
    (fun s v => (listOf v).map fun x => { s with skipPatterns := x }) s
  applyKey data "clipboard" "command"
    (fun s v => (textOf v).map fun x =>
      { s with clipboardCommand := if x = [] then none else some x }) s

/-- The home directory: the one in the environment, or else in the password database. One whose name
starts with a tilde is not known. -/
def homeOf (env : Environment) : Except LoadingFault Text :=
  match (env.lookup "HOME".toList).or env.home? with
  | none => .error .homeUnknown
  | some home =>
    let home := (home.reverse.dropWhile (· == '/')).reverse
    if home.head? = some '~' then .error .homeUnknown
    else .ok (if home = [] then ['/'] else home)

/-- The path of the configuration file: below the configuration directory, if one is set, else below
the home directory. -/
def filePath (env : Environment) : Except LoadingFault Path :=
  let inside (base : Text) (names : List String) : Path :=
    (Path.ofText base).append ⟨0, names.map String.toList⟩
  match env.lookup "XDG_CONFIG_HOME".toList with
  | some (c :: base) => .ok (inside (c :: base) ["jsonskel", "config.toml"])
  | _ => (homeOf env).map fun home => inside home [".config", "jsonskel", "config.toml"]

/-- The settings of the configuration file at a path. -/
def ofFile (room : Nat) (t : FileTree) (path : Path) : Except FileFault Settings := do
  let bytes ← (t.read path).mapError (.unreadable path)
  let text ← (Utf8.decode bytes).mapError .notUtf8
  let data ← (Toml.read text).mapError .toml
  (applyTable room data {}).mapError .setting

/-- Whether a fault leads to the file being dropped, rather than ending the loading. -/
def dropsFile : FileFault → Bool
  | .setting fault => !fault.isUnbounded
  | _ => true

/-! ## The environment -/

/-- Applies a change for the value of a variable, if it is set. A faulty value is passed over,
unless it is beyond all bounds. -/
def applyVariable (env : Environment) (name : String)
    (change : Settings → Text → Except SettingFault Settings) (s : Settings) :
    Except SettingFault Settings :=
  match env.lookup name.toList with
  | none => .ok s
  | some value =>
    match change s value with
    | .ok s => .ok s
    | .error fault => if fault.isUnbounded then .error fault else .ok s

/-- The settings with those of the environment in their place. -/
def applyEnvironment (env : Environment) (s : Settings) : Except SettingFault Settings := do
  let s ← applyVariable env "JSONSKEL_INDENT"
    (fun s v => (indentOfText env.room v).map fun x => { s with indent := x }) s
  let s ← applyVariable env "JSONSKEL_EXTERNAL_PLACEHOLDER"
    (fun s v => .ok { s with externalPlaceholder := v }) s
  let s ← applyVariable env "JSONSKEL_RECURSION_PLACEHOLDER"
    (fun s v => .ok { s with recursionPlaceholder := v }) s
  let s ← applyVariable env "JSONSKEL_MAX_DEPTH"
    (fun s v => (depthOfText v).map fun x => { s with maxDepth := x }) s
  let s ← applyVariable env "JSONSKEL_MARKER"
    (fun s v => .ok { s with marker := v }) s
  applyVariable env "JSONSKEL_CLIPBOARD_COMMAND"
    (fun s v => .ok { s with clipboardCommand := some v }) s

/-! ## Loading -/

/-- What is noted while settings are loaded: a file that was dropped. -/
structure Dropped where
  path : Path
  fault : FileFault
  deriving DecidableEq, Repr

/-- The log entry for a dropped file. -/
def Dropped.logEntry (d : Dropped) : LogEntry :=
  ⟨.warning, "config".toList,
    "Ignoring config file ".toList ++ d.path.toText ++ ": ".toList ++ d.fault.message⟩

/-- The settings that a configuration file leads to, before the environment. -/
def fromFile (room : Nat) (t : FileTree) (path : Path) : Run Dropped LoadingFault Settings := do
  if ← Run.ofResult ((t.hasPath path).mapError .path) then
    match ofFile room t path with
    | .ok s => pure s
    | .error (.setting fault) =>
      if dropsFile (.setting fault) then ⟨[⟨path, .setting fault⟩], .ok {}⟩
      else .ofResult (.error (.setting fault))
    | .error fault => ⟨[⟨path, fault⟩], .ok {}⟩
  else pure {}

/-- The settings of the program in a file tree and an environment. -/
def load (t : FileTree) (env : Environment) : Run Dropped LoadingFault Settings := do
  let path ← Run.ofResult (filePath env)
  let s ← fromFile env.room t path
  Run.ofResult ((applyEnvironment env s).mapError .setting)

end Settings

end RecordSkeleton
