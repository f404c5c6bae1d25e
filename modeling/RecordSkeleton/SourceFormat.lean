import RecordSkeleton.Java.Source
import RecordSkeleton.Text.Lowercase

/-!
# Source formats

A source format finds the declarations in the files of some extensions. A registry holds the format
of each extension; the case of an extension does not count.
-/

namespace RecordSkeleton

/-- A kind of source file. -/
structure SourceFormat where
  name : Text
  /-- The file extensions, each with its dot. -/
  extensions : List Text
  /-- Finds all declarations in a text from the given place, for a project or for a library. -/
  parse : (content : Text) → (location : Option Text) → (editable : Bool) → List Declaration

/-- The format of Java source files. -/
def Java.format : SourceFormat := ⟨"java".toList, [".java".toList], Java.declarations⟩

/-- The formats by lower-case extension. -/
abbrev FormatRegistry := List (Text × SourceFormat)

namespace FormatRegistry

/-- Adds a format for an extension, unless the extension has one already. -/
def claim (r : FormatRegistry) (format : SourceFormat) (ext : Text) : FormatRegistry :=
  if (r.lookup (Text.lower ext)).isSome then r else r ++ [(Text.lower ext, format)]

/-- Adds a format for all of its extensions. -/
def register (r : FormatRegistry) (format : SourceFormat) : FormatRegistry :=
  format.extensions.foldl (fun r ext => claim r format ext) r

/-- The format of a file name, by what follows its last dot. -/
def detect? (r : FormatRegistry) (fileName : Text) : Option SourceFormat :=
  if '.' ∈ fileName then
    r.lookup ('.' :: Text.lower (fileName.reverse.takeWhile (· != '.')).reverse)
  else none

/-- The formats of the program. -/
def standard : FormatRegistry := register [] Java.format

end FormatRegistry

end RecordSkeleton
