import RecordSkeleton.CommandLine.Program
import Std.Time.Format

/-!
# Snapshots of the machine

A run of the program works on a file tree. This module collects the part of the real one that a run
can come to look at: the file, the directories above it, the project and the libraries, and the
configuration file. Only here and where output is written does the program touch the machine.
-/

namespace RecordSkeleton.Snapshot

/-- Whether the bytes of a file of this name can be asked for when a directory is indexed. -/
def isIndexed (name : String) : Bool := (FormatRegistry.standard.detect? name.toList).isSome

/-- Why the system refuses something, as its error tells. -/
def refusalOf : IO.Error → Refusal
  | .permissionDenied _ number _ => if number = 1 then .notPermitted else .denied
  | _ => .inputOutput

/-- What is seen at a path. What may not be read or searched is given by the names that lead there from the
path. -/
structure Sight where
  node : Node
  /-- Where the links inside lead. -/
  targets : List String := []
  unread : List (List Text × Refusal) := []
  unsearched : List (List Text × Refusal) := []

/-- What stands at a path with everything inside. A link that leads nowhere is taken to lead to itself. The
bytes of a file are kept when it is named itself or can be indexed. -/
partial def scan (path : String) (isNamed : Bool) : IO Sight := do
  let here ← IO.currentDir
  match (← (here / path).symlinkMetadata).type with
  | .symlink =>
    try
      let target ← IO.FS.realPath path
      pure { node := .link target.toString.toList, targets := [target.toString] }
    catch _ => pure { node := .link path.toList }
  | .dir =>
    try
      let mut entries : List (Text × Node) := []
      let mut seen : Sight := { node := .directory [] }
      for entry in ← (here / path).readDir do
        let name := entry.fileName.toList
        try
          let inner ← scan (path ++ "/" ++ entry.fileName) false
          entries := (name, inner.node) :: entries
          seen := { seen with
            targets := inner.targets ++ seen.targets
            unread := inner.unread.map (fun r => (name :: r.1, r.2)) ++ seen.unread
            unsearched := inner.unsearched.map (fun r => (name :: r.1, r.2)) ++ seen.unsearched }
        catch e =>
          -- The name is listed, but it cannot be looked up.
          entries := (name, .device) :: entries
          seen := { seen with unsearched := ([], refusalOf e) :: seen.unsearched }
      pure { seen with node := .directory entries }
    catch e => pure { node := .directory [], unread := [([], refusalOf e)] }
  | .file =>
    if isNamed || isIndexed path then
      try
        pure { node := .file (← IO.FS.readBinFile path).toList }
      catch e => pure { node := .file [], unread := [([], refusalOf e)] }
    else pure { node := .file [] }
  | .other => pure { node := .device }

/-- Adds what is seen at a path. -/
def place (t : FileTree) (path : String) (seen : Sight) : FileTree :=
  let p := Path.ofText path.toList
  let t := t.write p seen.node
  let base := t.ownNames p
  let find (refused : List (List Text × Refusal)) (names : List Text) : Option Refusal :=
    (refused.find? fun r => base ++ r.1 == names).map (·.2)
  { t with
    access.read := fun names => (find seen.unread names).or (t.access.read names)
    access.search := fun names => (find seen.unsearched names).or (t.access.search names) }

/-- Adds what stands at the given absolute paths, and then what their links lead to. A path that
cannot be looked at is passed over. -/
partial def addAll (t : FileTree) (done : List String) : List String → IO FileTree
  | [] => pure t
  | path :: rest => do
    if done.contains path then addAll t done rest
    else
      let (t, targets) ← try
          let seen ← scan path true
          pure (place t path seen, seen.targets)
        catch _ => pure (t, [])
      addAll t (path :: done) (targets ++ rest)

/-- The absolute form of a path, seen from the current directory. -/
def absolute (t : FileTree) (p : Path) : Path := Path.append ⟨1, t.current⟩ p

/-- Adds the links on the way to a path, the directories there that may not be searched, and what stands at
its end. -/
def add (t : FileTree) (p : Path) : IO FileTree := do
  let full := absolute t p
  let here ← IO.currentDir
  let mut tree := t
  for n in [1:full.names.length] do
    let above := String.ofList (Path.toText ⟨1, full.names.take n⟩)
    try
      if (← (here / above).symlinkMetadata).type == .symlink then
        tree := place tree above (← scan above false)
      discard (here / above / ".").symlinkMetadata
    catch e =>
      if refusalOf e == .denied then
        tree := place tree above { node := .directory [], unsearched := [([], .denied)] }
  addAll tree [] [String.ofList full.toText]

/-- Adds the build markers in the directories above a path. -/
def addMarkers (t : FileTree) (p : Path) : IO FileTree := do
  let here ← IO.currentDir
  let mut tree := t
  try
    let real ← IO.FS.realPath (String.ofList (absolute t p).toText)
    for dir in FileTree.selfAndAncestors (Path.ofText real.toString.toList) do
      for marker in buildMarkers do
        let path := dir.child marker
        if ← (here / String.ofList path.toText).pathExists then
          tree := tree.write path (.file [])
  catch _ => pure ()
  pure tree

/-- The variables of the environment that the program looks at. -/
def variableNames : List String :=
  ["XDG_CONFIG_HOME", "HOME", "JSONSKEL_INDENT", "JSONSKEL_EXTERNAL_PLACEHOLDER",
    "JSONSKEL_RECURSION_PLACEHOLDER", "JSONSKEL_MAX_DEPTH", "JSONSKEL_MARKER",
    "JSONSKEL_CLIPBOARD_COMMAND"]

/-- The number of spaces that an indent may have. -/
def room : Nat := Nat.pow 2 30

/-- The environment of the process. The password database is not looked at. -/
def environment : IO Environment := do
  let bindings ← variableNames.filterMapM fun name => do
    pure ((← IO.getEnv name).map fun value => (name.toList, value.toList))
  pure { bindings, room }

/-- The reading of the clock. -/
def now : IO Moment := do
  let moment ← Std.Time.DateTime.now
  let plain := moment.toPlainDateTime
  pure {
    year := plain.year.toInt.toNat
    month := plain.month.toNat
    day := plain.day.toNat
    hour := plain.hour.toNat
    minute := plain.minute.toNat
    second := plain.second.toNat
    microsecond := plain.nanosecond.toNat / 1000
    offset := some (moment.offset.second.val * 1000000) }

/-- No other program is run: every clipboard command counts as missing. -/
def programs : Programs := ⟨fun _ => false, fun _ _ => .missing⟩

/-- The machine as a run with these arguments comes to see it. -/
def machineFor (argv : List Text) : IO Machine := do
  let here ← IO.FS.realPath "."
  let env ← environment
  let current := (Path.ofText here.toString.toList).names
  let bare : FileTree := { root := .put (.directory []) current (.directory []), current }
  let machine : Machine := ⟨bare, env, programs, ← now, fun _ => none⟩
  match Arguments.ofList argv with
  | .error _ => pure machine
  | .ok args => do
    let file := Path.ofText args.file
    let tree ← add (← addMarkers machine.tree file) file
    let project := (Program.projectOf { machine with tree } args file).result.toOption
    let libraries := args.libraries.filterMap fun
      | .given library => some (Path.ofText library)
      | .dropped => none
    let settings := (Settings.filePath env).toOption
    let tree ← (project.toList ++ libraries ++ file :: settings.toList).foldlM add tree
    pure { machine with tree }

end RecordSkeleton.Snapshot
