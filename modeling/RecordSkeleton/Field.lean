import RecordSkeleton.Marker

/-!
# Fields

A field is one entry of a comma-separated component or parameter list, such as
`@JsonProperty("id") final Long id`. Its leading markers are dropped, its last word is the name, and
the words before the name are the text of the type.
-/

namespace RecordSkeleton

/-- A component or parameter: its name and the text of its type. -/
structure Field where
  /-- The last word of the entry. -/
  name : Text
  /-- The words before the name, one space apart. -/
  type : Text
  deriving DecidableEq, Repr

namespace Field

/-- Reads one entry. An entry with fewer than two words behind its markers is no field. -/
def ofText? (s : Text) : Option Field :=
  let parts := Text.words (Marker.strip s)
  match parts.getLast?, parts.dropLast with
  | some name, t :: ts => some ⟨name, Text.join [' '] (t :: ts)⟩
  | _, _ => none

/-- The fields of a list, in order; entries that are no fields are left out. -/
def listOfText (s : Text) : List Field :=
  (BracketFamilies.all.splitTopLevel s).filterMap ofText?

end Field

end RecordSkeleton
