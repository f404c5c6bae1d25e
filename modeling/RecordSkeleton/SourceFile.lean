import RecordSkeleton.Document
import RecordSkeleton.FileTree
import RecordSkeleton.SourceFormat
import RecordSkeleton.Text.Utf8

/-!
# Source files

Loading a document from a file. The bytes must be valid UTF-8, and all line ends become line feeds.
-/

namespace RecordSkeleton

/-- Why a file gives no document. -/
inductive LoadError where
  /-- No format is known for the file name. -/
  | unsupported (name : Text)
  | unreadable (path : Path) (cause : FileError)
  /-- The bytes are not valid UTF-8. -/
  | notUtf8 (path : Path) (fault : Utf8.Fault)
  deriving DecidableEq, Repr

/-- The message of a load error. -/
def LoadError.message : LoadError → Text
  | unsupported name => "Unsupported file type: ".toList ++ name
  | unreadable path cause =>
    "Cannot read ".toList ++ path.toText ++ ": ".toList ++ cause.message path
  | notUtf8 path fault =>
    path.toText ++ " is not valid UTF-8: ".toList ++ fault.message

namespace Document

/-- Loads the document at a path. -/
def load (formats : FormatRegistry) (t : FileTree) (p : Path) (editable : Bool) :
    Except LoadError Document :=
  match formats.detect? p.name with
  | none => .error (.unsupported p.name)
  | some format =>
    match t.read p with
    | .error cause => .error (.unreadable p cause)
    | .ok bytes =>
      match Utf8.decode bytes with
      | .error fault => .error (.notUtf8 p fault)
      | .ok decoded =>
        let text := Utf8.unifyLineEnds decoded
        .ok ⟨some p.toText, text, format.parse text (some p.toText) editable⟩

/-- Whether the file at a path has a type of the project to offer. A file that gives no document has
none. -/
def isAvailable (formats : FormatRegistry) (t : FileTree) (p : Path) (editable : Bool) : Bool :=
  match load formats t p editable with
  | .ok doc => doc.isEnabled
  | .error _ => false

end Document

end RecordSkeleton
