import RecordSkeleton.Catalog
import RecordSkeleton.FileTree
import RecordSkeleton.Log
import RecordSkeleton.Settings.Basic
import RecordSkeleton.SourceFormat
import RecordSkeleton.Text.Utf8
import RecordSkeleton.Text.Wildcard

/-!
# Project catalogs

The catalog of a project is made of the source files below its roots: those of the project itself,
whose declarations may be expanded, and those of libraries, whose declarations may not. The files
are indexed when the catalog is first asked, and again only after a refresh.

1. `ProjectScope.files` finds the files below a directory by name, each directory's entries in
   order, up to the first directory that cannot be listed or entry that cannot be looked at.
2. `ProjectScope.index` reads all files; the first fault ends it.
3. `ProjectCatalog.find` answers from the index of the first successful look-up.
-/

namespace RecordSkeleton

/-- What a project catalog covers. -/
structure ProjectScope where
  sourceRoots : List Path
  libraryRoots : List Path
  /-- The file name endings to index, in lower case. -/
  extensions : List Text
  skipPatterns : List Text

/-- Why a project cannot be indexed. -/
inductive CatalogError where
  | noRoot (root : Path)
  | unlistable (root : Path) (cause : FileError)
  | unreadable (path : Path) (cause : FileError)
  | inaccessible (fault : PathError)
  deriving DecidableEq, Repr

/-- The message of a catalog error. -/
def CatalogError.message : CatalogError → Text
  | noRoot root => "Catalog root does not exist: ".toList ++ root.toText
  | unlistable root cause =>
    "Cannot list ".toList ++ root.toText ++ ": ".toList ++ cause.message root
  | unreadable path cause =>
    "Cannot read ".toList ++ path.toText ++ ": ".toList ++ cause.message path
  | inaccessible fault => fault.message

namespace ProjectScope

/-- What the settings make of a project: they say which files are indexed. -/
def ofSettings (settings : Settings) (sourceRoots libraryRoots : List Path) : ProjectScope :=
  ⟨sourceRoots, libraryRoots, settings.extensions.map Text.lower, settings.skipPatterns⟩

/-! ## The files below a root -/

/-- Whether directories of this name are left out. -/
def skips (scope : ProjectScope) (name : Text) : Bool :=
  scope.skipPatterns.any (Wildcard.isMatch · name)

/-- Whether files of this name are indexed. -/
def covers (scope : ProjectScope) (name : Text) : Bool :=
  Text.lower (Path.suffixOf name) ∈ scope.extensions

/-- Entries in the order of their names, code point by code point. -/
def sorted (entries : List (Text × Node)) : List (Text × Node) :=
  entries.mergeSort fun a b => !List.lex b.1 a.1 fun x y => x.toNat < y.toNat

/-- Takes an entry for a file, which is found if its name is covered. -/
def asFile (scope : ProjectScope) (path : Path) (name : Text) : Run Path CatalogError Unit :=
  if scope.covers name then Run.emit (path.child name) else pure ()

/-- Takes an entry whose path leads nowhere for a file, if it can be told that it leads nowhere. -/
def asMissing (scope : ProjectScope) (path : Path) (name : Text) (cause : FileError) :
    Run Path CatalogError Unit :=
  match cause.pathError? (path.child name) with
  | some fault => .ofResult (.error (.inaccessible fault))
  | none => scope.asFile path name

/-- Finds the covered files below a directory, given by its path, the names that lead to it and its
entries. A link counts as what it leads to; following it uses up at least one of the links left. -/
def filesIn (scope : ProjectScope) (t : FileTree) (links : Nat) (base : List Text) (path : Path)
    (entries : List (Text × Node)) : Run Path CatalogError Unit :=
  match t.access.read base with
  | some cause => .ofResult (.error (.unlistable path (.refused cause)))
  | none => (sorted entries).attach.forM fun ⟨(name, node), _h⟩ =>
    if FileTree.pathLimit < (path.child name).byteLength then
      scope.asMissing path name .nameTooLong
    else match t.access.search base with
      | some cause => scope.asMissing path name (.refused cause)
      | none => match node with
        | .directory inner =>
          if scope.skips name then pure ()
          else filesIn scope t links (base ++ [name]) (path.child name) inner
        | .link _ =>
          match t.follow links base [name] with
          | .ok ⟨left, names, .directory inner⟩ =>
            if scope.skips name then pure ()
            else if left < links then filesIn scope t left names (path.child name) inner
            else pure ()
          | .ok _ => scope.asFile path name
          | .error cause => scope.asMissing path name cause
        | .file _ | .device => scope.asFile path name
termination_by (links, sizeOf entries)
decreasing_by
  · refine Prod.Lex.right _ ?_
    have h := List.sizeOf_lt_of_mem ((List.mergeSort_perm entries _).mem_iff.1 _h)
    simp only [Prod.mk.sizeOf_spec, Node.directory.sizeOf_spec] at h
    omega
  · exact Prod.Lex.left _ _ ‹_›

/-- Finds the files of a root: the root itself when it is a file, else the covered files below
it. -/
def files (scope : ProjectScope) (t : FileTree) (root : Path) : Run Path CatalogError Unit :=
  match t.place root with
  | .error .nullCharacter => .ofResult (.error (.inaccessible .nullCharacter))
  | .error cause =>
    match cause.pathError? root with
    | some fault => .ofResult (.error (.inaccessible fault))
    | none => .ofResult (.error (.unlistable root cause))
  | .ok place => match place.node with
    | .file _ => Run.emit root
    | .directory entries => scope.filesIn t place.linksLeft place.names root entries
    | .link _ | .device => .ofResult (.error (.unlistable root .notDirectory))

/-! ## The index -/

/-- The declarations of one file; a file without a known format has none. -/
def indexFile (formats : FormatRegistry) (t : FileTree) (editable : Bool) (path : Path) :
    Run LogEntry CatalogError (List Declaration) :=
  match formats.detect? path.name with
  | none => pure []
  | some format =>
    match t.read path with
    | .error cause => .ofResult (.error (.unreadable path cause))
    | .ok bytes => do
      Run.emit ⟨.debug, "catalog".toList,
        "Indexing ".toList ++ path.toText ++ " as ".toList ++ format.name⟩
      let text := Utf8.unifyLineEnds (Utf8.decodeLossy bytes)
      pure (format.parse text (some path.toText) editable)

/-- The declarations of all files of a root. The files are read as they are found. -/
def indexRoot (scope : ProjectScope) (formats : FormatRegistry) (t : FileTree) (editable : Bool)
    (root : Path) : Run LogEntry CatalogError (List Declaration) := do
  if ← Run.ofResult ((t.hasPath root).mapError .inaccessible) then
    let found := scope.files t root
    let declared ← found.events.mapM (indexFile formats t editable)
    Run.ofResult found.result
    pure declared.flatten
  else .ofResult (.error (.noRoot root))

/-- The declarations of all files: those of the project first, then those of the libraries. -/
def index (scope : ProjectScope) (formats : FormatRegistry) (t : FileTree) :
    Run LogEntry CatalogError (List Declaration) := do
  let own ← scope.sourceRoots.mapM (scope.indexRoot formats t true)
  let foreign ← scope.libraryRoots.mapM (scope.indexRoot formats t false)
  let all := own.flatten ++ foreign.flatten
  Run.emit ⟨.info, "catalog".toList,
    "Indexed ".toList ++ Text.ofNat all.length ++ " declarations".toList⟩
  pure all

end ProjectScope

/-- A catalog over a scope, with its index once there is one. -/
structure ProjectCatalog where
  scope : ProjectScope
  /-- All declarations, as of the look-up that built the index. -/
  indexed : Option (List Declaration) := none

namespace ProjectCatalog

/-- The declarations that are looked through: the index, or a new one of the given file tree. -/
def contents (c : ProjectCatalog) (formats : FormatRegistry) (t : FileTree) :
    Run LogEntry CatalogError (List Declaration) :=
  match c.indexed with
  | some ds => pure ds
  | none => c.scope.index formats t

/-- Looks up a name. A successful look-up leaves an index, a failed one leaves the catalog as it
was. -/
def find (c : ProjectCatalog) (formats : FormatRegistry) (t : FileTree) (name : Text) :
    Run LogEntry CatalogError (List Declaration) × ProjectCatalog :=
  let run := c.contents formats t
  ((Catalog.named · name) <$> run,
    match run.result with
    | .ok ds => { c with indexed := some ds }
    | .error _ => c)

/-- Drops the index. -/
def refresh (c : ProjectCatalog) : ProjectCatalog := { c with indexed := none }

end ProjectCatalog

end RecordSkeleton
