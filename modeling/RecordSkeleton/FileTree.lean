import RecordSkeleton.Path
import RecordSkeleton.Text.Quoted

/-!
# File trees

A tree of files, directories and symbolic links with a current directory. A path is followed from
the current directory or from the root; links on the way are replaced by their targets, of which at
most `FileTree.linkLimit` are followed for one path. Names and paths are limited in their length, and
the system may refuse what a tree holds: to read a file, to list a directory, or to look up a name in
it.

1. Following a path ends because each link uses up one of the links left, and each other name
   shortens the path (`FileTree.follow`).
2. A question about a path has no answer when the path is too long or a directory on the way may not
   be searched (`FileError.pathError?`). Any other path that leads nowhere is one where nothing
   stands.
-/

namespace RecordSkeleton

/-- What stands at a place of a file tree. -/
inductive Node where
  | file (content : List UInt8)
  | directory (entries : List (Text × Node))
  /-- A symbolic link to a path. -/
  | link (target : Text)
  /-- Something that is neither a regular file nor a directory, and is empty. -/
  | device
  deriving Inhabited

/-- Why the system refuses something that is there. -/
inductive Refusal where
  | denied
  | notPermitted
  /-- The device that holds it fails. -/
  | inputOutput
  deriving DecidableEq, Repr

/-- Why a path cannot be used. -/
inductive FileError where
  | notFound
  /-- A name on the way, or the path itself, is no directory. -/
  | notDirectory
  | isDirectory
  | nameTooLong
  | tooManyLinks
  | nullCharacter
  /-- What the path leads to, or a directory on the way, is refused. -/
  | refused (cause : Refusal)
  deriving DecidableEq, Repr

/-- The message of a file error, with its number and the path. -/
def FileError.message (e : FileError) (p : Path) : Text :=
  let numbered (number : Nat) (wording : String) : Text :=
    "[Errno ".toList ++ Text.ofNat number ++ "] ".toList ++ wording.toList ++ ": ".toList ++
      Text.quoted p.toText
  match e with
  | refused .notPermitted => numbered 1 "Operation not permitted"
  | refused .inputOutput => numbered 5 "Input/output error"
  | refused .denied => numbered 13 "Permission denied"
  | notFound => numbered 2 "No such file or directory"
  | notDirectory => numbered 20 "Not a directory"
  | isDirectory => numbered 21 "Is a directory"
  | nameTooLong => numbered 36 "File name too long"
  | tooManyLinks => numbered 40 "Too many levels of symbolic links"
  | nullCharacter => "embedded null byte".toList

/-- Why a question about a path has no answer. -/
inductive PathError where
  /-- Links on the way run in a circle, as far as they are replaced in the given path. -/
  | circle (path : Path)
  | nullCharacter
  | nameTooLong (path : Path)
  /-- A directory on the way is refused. -/
  | refused (path : Path) (cause : Refusal)
  deriving DecidableEq, Repr

/-- The message of a path error. -/
def PathError.message : PathError → Text
  | circle path => "Symlink loop from ".toList ++ Text.quoted path.toText
  | nullCharacter => FileError.nullCharacter.message ⟨0, []⟩
  | nameTooLong path => FileError.nameTooLong.message path
  | refused path cause => (FileError.refused cause).message path

/-- Why a question about a path has no answer, if following the path has ended so. It has one where the
path does not lead: nothing stands there. -/
def FileError.pathError? (p : Path) : FileError → Option PathError
  | nameTooLong => some (.nameTooLong p)
  | refused cause => some (.refused p cause)
  | notFound | notDirectory | isDirectory | tooManyLinks | nullCharacter => none

/-- Whether a path holds a null character. -/
def Path.hasNull (p : Path) : Bool := p.names.any ('\x00' ∈ ·)

namespace Node

/-- Whether a node is a regular file. -/
def isFile : Node → Bool
  | file _ => true
  | _ => false

/-- What stands at the end of a list of names, without following links. -/
def at? : Node → List Text → Option Node
  | node, [] => some node
  | directory entries, name :: rest => (entries.lookup name).bind (·.at? rest)
  | _, _ :: _ => none

mutual

/-- The number of links in a tree. -/
def linkCount : Node → Nat
  | link _ => 1
  | directory entries => linkCounts entries
  | file _ | device => 0

/-- The number of links in the entries of a directory. -/
def linkCounts : List (Text × Node) → Nat
  | [] => 0
  | (_, node) :: rest => linkCount node + linkCounts rest

end

/-- Sets the entry of a name. -/
def setEntry (entries : List (Text × Node)) (name : Text) (node : Node) : List (Text × Node) :=
  if entries.any (·.1 == name) then
    entries.map fun e => if e.1 == name then (name, node) else e
  else entries ++ [(name, node)]

/-- Puts a node at the end of a list of names, with the directories that are missing on the way.
Nothing is put below what is no directory. -/
def put (node : Node) : List Text → Node → Node
  | [], _ => node
  | name :: rest, directory entries =>
    directory (setEntry entries name
      (put node rest ((entries.lookup name).getD (directory []))))
  | _ :: _, other => other

/-- Removes what stands at the end of a list of names. -/
def removeAt : List Text → Node → Node
  | [], node => node
  | [name], directory entries => directory (entries.filter (·.1 != name))
  | name :: rest, directory entries =>
    match entries.lookup name with
    | some inner => directory (setEntry entries name (removeAt rest inner))
    | none => directory entries
  | _ :: _, other => other

end Node

/-- What is refused in a file tree, by the names that lead there from the root. -/
structure Access where
  /-- Why a file cannot be read, or a directory not be listed. -/
  read : List Text → Option Refusal
  /-- Why no name can be looked up in a directory. -/
  search : List Text → Option Refusal

/-- Nothing is refused. -/
def Access.full : Access := ⟨fun _ => none, fun _ => none⟩

/-- A file tree with a current directory. -/
structure FileTree where
  root : Node
  /-- The names that lead from the root to the current directory. -/
  current : List Text
  access : Access := .full

/-- Where following a path has led. -/
structure Place where
  /-- The number of links that may still be followed. -/
  linksLeft : Nat
  /-- The names that lead there from the root, free of links. -/
  names : List Text
  node : Node

namespace FileTree

/-- The number of links that are followed for one path. -/
def linkLimit : Nat := 40

/-- The length, in bytes of UTF-8, of the longest name that is looked up. -/
def nameLimit : Nat := 255

/-- The length, in bytes of UTF-8, of the longest path that is followed. -/
def pathLimit : Nat := 4095

/-- The names in the target of a link. Single dots are kept, because each asks for a directory in
front of it. So does a slash at the end, which counts as an empty name. -/
def targetNames (target : Text) : List Text :=
  (Path.splitSlashes target).filter (· ≠ []) ++
    if target.getLast? = some '/' then [[]] else []

/-- The directory that the target of a link is read from. -/
def targetBase (target : Text) (base : List Text) : List Text :=
  if target.head? = some '/' then [] else base

/-- Follows names from the directory at `base`. Each name but an empty one is looked up in the directory
that it is reached in, which takes that the directory may be searched. -/
def follow (t : FileTree) (links : Nat) (base : List Text) : List Text → Except FileError Place
  | [] =>
    match t.root.at? base with
    | some node => .ok ⟨links, base, node⟩
    | none => .error .notFound
  | name :: rest =>
    match t.root.at? base with
    | some (.directory entries) =>
      if name = [] then follow t links base rest
      else match t.access.search base with
        | some cause => .error (.refused cause)
        | none =>
          if name = ['.'] then follow t links base rest
          else if name = ['.', '.'] then follow t links base.dropLast rest
          else if nameLimit < Text.byteLength name then .error .nameTooLong
          else match entries.lookup name with
            | none => .error .notFound
            | some (.link target) =>
              match links with
              | 0 => .error .tooManyLinks
              | left + 1 => follow t left (targetBase target base) (targetNames target ++ rest)
            | some _ => follow t links (base ++ [name]) rest
    | _ => .error .notDirectory
termination_by names => (links, names.length)

/-- The directory that a path is read from. -/
def baseOf (t : FileTree) (p : Path) : List Text := if p.slashes = 0 then t.current else []

/-- Follows a path. -/
def place (t : FileTree) (p : Path) : Except FileError Place :=
  if p.hasNull then .error .nullCharacter
  else if pathLimit < p.byteLength then .error .nameTooLong
  else t.follow linkLimit (t.baseOf p) p.names

/-- What stands at a path. -/
def node? (t : FileTree) (p : Path) : Option Node := (t.place p).toOption.map (·.node)

/-- Whether something of a kind stands at a path, if this can be told. -/
def holds (t : FileTree) (kind : Node → Bool) (p : Path) : Except PathError Bool :=
  match t.place p with
  | .ok place => .ok (kind place.node)
  | .error cause =>
    match cause.pathError? p with
    | some fault => .error fault
    | none => .ok false

/-- Whether something stands at a path. -/
def hasPath (t : FileTree) (p : Path) : Except PathError Bool := t.holds (fun _ => true) p

/-- Whether a regular file stands at a path. -/
def isFile (t : FileTree) (p : Path) : Except PathError Bool := t.holds Node.isFile p

/-- The bytes of the file at a path. -/
def read (t : FileTree) (p : Path) : Except FileError (List UInt8) :=
  match t.place p with
  | .error e => .error e
  | .ok place =>
    match t.access.read place.names with
    | some cause => .error (.refused cause)
    | none => match place.node with
      | .file content => .ok content
      | .directory _ => .error .isDirectory
      | .link _ | .device => .ok []

/-! ## Paths without links -/

/-- The target of the link of a name in a directory, if the link can be looked at: each directory on the
way to it may be searched. There are no links among the names of the directory. -/
def linkAt? (t : FileTree) (dir : List Text) (name : Text) : Option Text :=
  if (List.range (dir.length + 1)).any fun n => (t.access.search (dir.take n)).isSome then none
  else match t.root.at? (dir ++ [name]) with
    | some (.link target) => some target
    | _ => none

/-- The names that lead from the root to the end of the given names, with links replaced and double
dots taken back. Names behind which nothing can be seen stay as they are. A link that is come upon while
its own target is looked for runs in a circle: `entered` holds the links whose targets are being
looked for, and `left` bounds their number. The error then holds the names up to that link and all
names behind it. -/
def canonical (t : FileTree) (left : Nat) (entered : List (List Text)) (base : List Text) :
    List Text → Except (List Text) (List Text)
  | [] => .ok base
  | name :: rest =>
    if name = [] ∨ name = ['.'] then canonical t left entered base rest
    else if name = ['.', '.'] then canonical t left entered base.dropLast rest
    else
      let here := base ++ [name]
      match t.linkAt? base name with
      | some target =>
        match left with
        | 0 => .error (here ++ rest)
        | left + 1 =>
          if here ∈ entered then .error (here ++ rest)
          else
            match canonical t left (here :: entered) (targetBase target base)
                (targetNames target) with
            | .ok names => canonical t (left + 1) entered names rest
            | .error names => .error (names ++ rest)
      | none => canonical t left entered here rest
termination_by names => (left, names.length)

/-- The names that lead to the end of the given names in a tree without links. -/
def withoutDots (names : List Text) : List Text :=
  names.foldl (fun before name =>
    if name = [] ∨ name = ['.'] then before
    else if name = ['.', '.'] then before.dropLast
    else before ++ [name]) []

/-- The names that lead from the root to the end of the given names, as far as links can be
replaced. -/
def canonicalNames (t : FileTree) (base names : List Text) : List Text :=
  match t.canonical t.root.linkCount [] base names with
  | .ok names => names
  | .error names => withoutDots names

/-- The absolute form of a path, without links and double dots. -/
def canonicalPath (t : FileTree) (p : Path) : Except PathError Path :=
  if p.hasNull then .error .nullCharacter
  else
    let full : Path := ⟨1, t.canonicalNames (t.baseOf p) p.names⟩
    match t.place full with
    | .error .tooManyLinks => .error (.circle full)
    | _ => .ok full

/-! ## Changes -/

/-- The names that lead to the directory of a path, followed by the path's own last name. -/
def ownNames (t : FileTree) (p : Path) : List Text :=
  t.canonicalNames (t.baseOf p) p.names.dropLast ++ p.names.getLast?.toList

/-- Puts a node at a path, with the directories that are missing on the way. The bytes of a file go
through a link that stands there. -/
def write (t : FileTree) (p : Path) (node : Node) : FileTree :=
  let names := match node, t.canonicalPath p with
    | .file _, .ok target => target.names
    | _, _ => t.ownNames p
  { t with root := Node.put node names t.root }

/-- Removes what stands at a path; a link itself, not its target. -/
def remove (t : FileTree) (p : Path) : FileTree :=
  { t with root := Node.removeAt (t.ownNames p) t.root }

end FileTree

end RecordSkeleton
