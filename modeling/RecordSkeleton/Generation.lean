import RecordSkeleton.Catalog
import RecordSkeleton.Field
import RecordSkeleton.Run
import RecordSkeleton.TypeExpr
import RecordSkeleton.TypeTable

/-!
# Skeletons

The skeleton of a declaration is an object with one entry per field, whose value is the default of
the field's type. A type that the fixed table does not know is looked up in the catalog, and a
record or class of the project is expanded in its place, one level deeper.

1. A nested declaration is only expanded below the depth limit and when its name is not on the path,
   so the levels left bound the recursion (`generate`).
2. A skeleton is made of the entries of its fields (`generate_eq`).
-/

namespace RecordSkeleton

open Text

/-- What happens while a skeleton is generated. -/
inductive Event where
  /-- The default of a type with this base name is asked for. -/
  | resolving (base : Text)
  | asked (name : Text)
  /-- The catalog has answered with so many declarations. -/
  | answered (name : Text) (count : Nat)
  /-- A reference is not expanded at this depth, below this path. -/
  | cut (name : Text) (depth : Int) (path : List Text)
  | noFieldList (name : Text)
  deriving DecidableEq, Repr

/-- The name that the catalog is asked for in an event. -/
def Event.query? : Event → Option Text
  | asked name => some name
  | _ => none

/-- All that one generation needs to know. -/
structure Context (ε : Type) where
  catalog : Catalog ε
  /-- The moment that date and time types show. -/
  moment : Moment
  indent : Text := ['\t']
  /-- The simple name of the marker that selects a constructor. -/
  marker : Text := "JsonCreator".toList
  /-- What stands for a type of a library. -/
  externalPlaceholder : Text := "\x7b\x7d // External type".toList
  /-- What stands for a type that is not expanded again. -/
  recursionPlaceholder : Text := "\x7b\x7d // Recursive type".toList
  /-- The depth from which on nothing is expanded. -/
  maxDepth : Int := 64
  /-- The depth of the declaration that is generated. -/
  depth : Int := 1
  /-- The names of the declarations that are being expanded, outermost first. -/
  path : List Text := []

/-- The context in which the nested type `name` is expanded. -/
def Context.descend {ε : Type} (ctx : Context ε) (name : Text) : Context ε :=
  { ctx with depth := ctx.depth + 1, path := ctx.path ++ [name] }

/-- The runs of a generation. -/
abbrev Gen (ε α : Type) := Run Event ε α

/-- How a declaration is expanded in a context that is below its depth limit. -/
abbrev Expand {ε : Type} (ctx : Context ε) := Declaration → ctx.depth < ctx.maxDepth → Gen ε Text

variable {ε : Type}

/-! ## The default of a type -/

/-- Asks the catalog for a name. -/
def ask (catalog : Catalog ε) (name : Text) : Gen ε (List Declaration) := do
  Run.emit (.asked name)
  let found ← Run.ofResult (catalog name)
  Run.emit (.answered name found.length)
  pure found

/-- The value of a reference to a declaration of the project that may be expanded: the placeholder
when its name is on the path or the depth limit is reached. -/
def resolveExpandable (ctx : Context ε) (expand : Expand ctx) (d : Declaration) : Gen ε Value :=
  if h : d.name ∉ ctx.path ∧ ctx.depth < ctx.maxDepth then
    .skeleton <$> expand d h.2
  else do
    Run.emit (.cut d.name ctx.depth ctx.path)
    pure (.literal ctx.recursionPlaceholder)

/-- The value of a reference to a declaration. -/
def resolveDeclaration (ctx : Context ε) (expand : Expand ctx) (d : Declaration) : Gen ε Value :=
  if !d.editable then pure (.literal ctx.externalPlaceholder)
  else match d.kind with
    | .enumeration => pure .emptyString
    | .interface => pure (.object [])
    | .record | .plainClass => resolveExpandable ctx expand d

/-- The value of a name that the fixed table does not know. Every reference asks the catalog. -/
def resolveName (ctx : Context ε) (expand : Expand ctx) (name : Text) : Gen ε Value :=
  if name = [] then pure .emptyString
  else do
    match Declaration.preferred? (← ask ctx.catalog name) with
    | none => pure .emptyString
    | some d => resolveDeclaration ctx expand d

/-- The value of a name without arguments. -/
def resolvePlain (ctx : Context ε) (expand : Expand ctx) (name : Text) : Gen ε Value :=
  match Container.ofName? name, literalOf? ctx.moment name with
  | some container, _ => pure container.empty
  | none, some text => pure (.literal text)
  | none, none => resolveName ctx expand name

/-- The value of a type expression. Arguments beyond those that a container needs are not looked at,
and neither are those of a type that is no container. -/
def resolve (ctx : Context ε) (expand : Expand ctx) : TypeExpr → Gen ε Value
  | .unclosed name => do
    Run.emit (.resolving name)
    pure .emptyString
  | .plain name => do
    Run.emit (.resolving name)
    resolvePlain ctx expand name
  | .generic name args => do
    Run.emit (.resolving name)
    match Container.ofName? name, args with
    | some .collection, a :: _ => .array <$> resolve ctx expand a
    | some .map, a :: b :: _ =>
      let key ← resolve ctx expand a
      let value ← resolve ctx expand b
      pure (.object [(key, value)])
    | some .optional, a :: _ => resolve ctx expand a
    | some container, _ => pure container.empty
    | none, _ => pure (.object [])

/-! ## The skeleton of a declaration -/

/-- The entry of a field in its skeleton. -/
def entry (name : Text) (value : Value) : Text := ['"'] ++ name ++ ['"', ':', ' '] ++ value.render

/-- The skeleton of a declaration, given how nested ones are expanded. -/
def generateWith (ctx : Context ε) (expand : Expand ctx) (d : Declaration) : Gen ε Text :=
  match d.fieldList? ctx.marker with
  | none => do
    Run.emit (.noFieldList d.name)
    pure ['{', '}']
  | some list => do
    let entries ← (Field.listOfText list).mapM fun f =>
      entry f.name <$> resolve ctx expand (.ofText f.type)
    pure (renderObject entries ctx.depth ctx.indent)

/-- The skeleton of a declaration. -/
def generate (ctx : Context ε) (d : Declaration) : Gen ε Text :=
  generateWith ctx (fun found _ => generate (ctx.descend found.name) found) d
termination_by (ctx.maxDepth - ctx.depth).toNat
decreasing_by
  simp only [Context.descend]
  omega

/-- A skeleton is generated with its nested declarations expanded one level deeper. -/
theorem generate_eq (ctx : Context ε) (d : Declaration) :
    generate ctx d =
      generateWith ctx (fun found _ => generate (ctx.descend found.name) found) d := by
  rw [generate]

/-- The value of a type's text. -/
def resolveText (ctx : Context ε) (type : Text) : Gen ε Value :=
  resolve ctx (fun found _ => generate (ctx.descend found.name) found) (.ofText type)

end RecordSkeleton
