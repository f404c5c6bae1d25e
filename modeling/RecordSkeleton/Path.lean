import RecordSkeleton.Text.Basic

/-!
# Paths

A path is a number of leading slashes and the names between slashes. Empty names and single dots are
left out when a path is read, double dots are kept. Two leading slashes stay two, and more count as
one.
-/

namespace RecordSkeleton

/-- A path. -/
structure Path where
  /-- The slashes at the front; a relative path has none. -/
  slashes : Nat
  /-- The names, outermost first. -/
  names : List Text
  deriving DecidableEq, Repr

namespace Path

/-- The texts between the slashes of a text. -/
def splitSlashes : Text → List Text
  | [] => [[]]
  | c :: r =>
    if c = '/' then [] :: splitSlashes r
    else match splitSlashes r with
      | [] => [[c]]
      | p :: ps => (c :: p) :: ps

/-- Reads a path. -/
def ofText (s : Text) : Path where
  slashes := match (s.takeWhile (· == '/')).length with
    | 0 => 0
    | 2 => 2
    | _ => 1
  names := (splitSlashes s).filter fun p => p ≠ [] ∧ p ≠ ['.']

/-- The written form of a path; the empty relative path is written as a dot. -/
def toText (p : Path) : Text :=
  match p.slashes, p.names with
  | 0, [] => ['.']
  | n, names => List.replicate n '/' ++ Text.join ['/'] names

/-- The length of the written form in bytes of UTF-8. -/
def byteLength (p : Path) : Nat := Text.byteLength p.toText

/-- The last name, empty if there is none. -/
def name (p : Path) : Text := p.names.getLast?.getD []

/-- The path of a name inside. -/
def child (p : Path) (name : Text) : Path := ⟨p.slashes, p.names ++ [name]⟩

/-- The path `q` as seen from `p`: `q` itself when it is absolute. -/
def append (p q : Path) : Path :=
  if q.slashes = 0 then ⟨p.slashes, p.names ++ q.names⟩ else q

/-- The ending of a file name: its last dot and what follows, when something stands on both sides of
that dot. -/
def suffixOf (name : Text) : Text :=
  let ending := (name.reverse.takeWhile (· != '.')).reverse
  if ending ≠ [] ∧ ending.length + 1 < name.length then '.' :: ending else []

end Path

end RecordSkeleton
