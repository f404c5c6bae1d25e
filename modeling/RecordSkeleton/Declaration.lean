import RecordSkeleton.Bracket
import RecordSkeleton.Marker
import RecordSkeleton.Text.WordChar

/-!
# Declarations

A type declaration as it was found in a source text, and where its fields are listed: a record lists
them behind its header, a class in the parameters of the constructor that carries the marker.
-/

namespace RecordSkeleton

/-- The shape of a declared type. -/
inductive Kind where
  /-- A record, whose components are its fields. -/
  | record
  /-- A class, whose fields are the parameters of a constructor. -/
  | plainClass
  | enumeration
  /-- An interface or an annotation type. -/
  | interface
  deriving DecidableEq, Repr

/-- A constructor of a class. -/
structure Constructor where
  markers : List Text
  /-- Its parameter list, from the opening round bracket on. -/
  parameters : Text
  deriving DecidableEq, Repr

/-- A type declaration found in a source text. -/
structure Declaration where
  name : Text
  kind : Kind
  /-- The text from the keyword to the end of the body. -/
  source : Text
  /-- Whether the declaration belongs to the project rather than to a library. -/
  editable : Bool
  constructors : List Constructor
  location : Option Text
  /-- Whether the declaration stands inside another one. -/
  nested : Bool
  deriving DecidableEq, Repr

/-- Whether a constructor carries a marker of the given simple name. -/
def Constructor.hasMarker (c : Constructor) (marker : Text) : Bool :=
  c.markers.any (Marker.hasSimpleName marker)

/-- The first constructor that carries the marker. -/
def Constructor.find? (constructors : List Constructor) (marker : Text) : Option Constructor :=
  constructors.find? (·.hasMarker marker)

namespace Declaration

open Text

/-! ## The record header -/

/-- The length of the header `record`, blanks, `name` at the front of a text, where the name ends at
a word boundary. If the name starts with blanks itself, the header takes as many blanks before it
as it can. -/
def headerLength? (name : Text) (s : Text) : Option Nat :=
  let keyword := "record".toList
  if keyword.isPrefixOf s then
    let r := s.drop keyword.length
    let blanks := (r.takeWhile isBlank).length
    let ends (k : Nat) : Bool :=
      let t := r.drop k
      let last := (r.take k ++ name).getLast?
      name.isPrefixOf t && isWordBoundary last (t.drop name.length).head?
    ((List.range blanks).reverse.map (· + 1)).find? ends |>.map (keyword.length + · + name.length)
  else none

/-- What follows the first record header of the given name, where `before` is the character in
front of the text. The keyword starts at a word boundary. -/
def afterHeader? (name : Text) (before : Option Char) : Text → Option Text
  | [] => none
  | c :: r =>
    match if isWordBoundary before (some c) then headerLength? name (c :: r) else none with
    | some n => some ((c :: r).drop n)
    | none => afterHeader? name (some c) r

/-! ## The field list -/

/-- The trimmed text between the first opening round bracket and its match. -/
def listInterior? (s : Text) : Option Text :=
  match s.dropWhile (· != '(') with
  | [] => none
  | _ :: r => (Brackets.round.closeOffset? 1 r).map fun k => trim (r.take k)

/-- The text of the list that holds a declaration's fields. There is none for an enumeration or an
interface, for a class without a marked constructor, or when the list is never closed. -/
def fieldList? (d : Declaration) (marker : Text) : Option Text :=
  match d.kind with
  | .record => (afterHeader? d.name none d.source).bind listInterior?
  | .plainClass => (Constructor.find? d.constructors marker).bind (listInterior? ·.parameters)
  | .enumeration | .interface => none

/-- The declaration that stands for a name: the first of the project, else the first of all. -/
def preferred? (ds : List Declaration) : Option Declaration :=
  (ds.find? (·.editable)).or ds.head?

end Declaration

end RecordSkeleton
