import RecordSkeleton.Moment
import RecordSkeleton.Value

/-!
# The fixed table of types

The types whose default value is known without a catalog: containers, primitive and boxed types, and
the date and time types. Names are matched exactly.
-/

namespace RecordSkeleton

/-- The container types, by what becomes of their arguments. -/
inductive Container where
  /-- One element, the default of the first argument. -/
  | collection
  /-- One pair, the defaults of the first two arguments. -/
  | map
  /-- The default of the first argument itself. -/
  | optional
  deriving DecidableEq, Repr

namespace Container

/-- The names of collections. -/
def collectionNames : List Text :=
  ["List".toList, "ArrayList".toList, "Set".toList, "HashSet".toList, "Collection".toList,
    "LinkedList".toList]

/-- The names of maps. -/
def mapNames : List Text := ["Map".toList, "HashMap".toList]

/-- The name of an optional value. -/
def optionalName : Text := "Optional".toList

/-- The container of the given name. -/
def ofName? (name : Text) : Option Container :=
  if name ∈ collectionNames then some .collection
  else if name ∈ mapNames then some .map
  else if name = optionalName then some .optional
  else none

/-- The default of a container without enough arguments. -/
def empty : Container → Value
  | collection => .emptyArray
  | map => .object []
  | optional => .literal "null".toList

end Container

/-- The primitive and boxed types with their defaults. -/
def primitiveDefaults : List (Text × Text) :=
  (["int", "long", "short", "byte", "Integer", "Long", "Short", "Byte"].map
      fun n => (n.toList, "0".toList)) ++
    (["double", "float", "BigDecimal", "Double", "Float"].map
      fun n => (n.toList, "0.0".toList)) ++
    (["boolean", "Boolean"].map fun n => (n.toList, "false".toList)) ++
    ["String", "char", "Character"].map fun n => (n.toList, ['"', '"'])

/-- The default of a type that the table knows without arguments. -/
def literalOf? (moment : Moment) (name : Text) : Option Text :=
  (primitiveDefaults.lookup name).or ((DateTimeType.ofName? name).map (·.quoted moment))

end RecordSkeleton
