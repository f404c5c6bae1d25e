import RecordSkeleton.Declaration

/-!
# Documents

A document is a source text with the declarations found in it. `Document.target?` picks the type a
skeleton is generated for.
-/

namespace RecordSkeleton

/-- A source text and its declarations. -/
structure Document where
  path : Option Text
  text : Text
  declarations : List Declaration
  deriving DecidableEq, Repr

/-- The first record, or failing that the first class with a constructor that carries the marker. -/
def Declaration.target? (types : List Declaration) (marker : Text) : Option Declaration :=
  (types.find? (·.kind == .record)).or
    (types.find? fun d =>
      d.kind == .plainClass && (Constructor.find? d.constructors marker).isSome)

namespace Document

/-- The declarations that stand in no other one. -/
def topLevel (doc : Document) : List Declaration := doc.declarations.filter (!·.nested)

/-- The type a skeleton is generated for. -/
def target? (doc : Document) (marker : Text) : Option Declaration :=
  Declaration.target? doc.topLevel marker

/-- Whether a top-level type belongs to the project. -/
def isEnabled (doc : Document) : Bool := doc.topLevel.any (·.editable)

end Document

end RecordSkeleton
