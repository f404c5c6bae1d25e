import RecordSkeleton.Declaration

/-!
# Catalogs

A catalog answers which declarations carry a simple name, or fails to.
-/

namespace RecordSkeleton

/-- The declarations of each simple name; a look-up may fail with an error of type `ε`. -/
abbrev Catalog (ε : Type) := Text → Except ε (List Declaration)

namespace Catalog

/-- The declarations of a list that carry a name, in the order of the list. -/
def named (ds : List Declaration) (name : Text) : List Declaration :=
  ds.filter (·.name == name)

/-- The catalog of a known list of declarations, which never fails. -/
def ofList {ε : Type} (ds : List Declaration) : Catalog ε := fun name => .ok (named ds name)

/-- The catalog of a list of declarations that may have failed to be made. -/
def ofResult {ε : Type} (ds : Except ε (List Declaration)) : Catalog ε := fun name =>
  ds.map (named · name)

end Catalog

end RecordSkeleton
