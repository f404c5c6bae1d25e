import RecordSkeleton.Text.Basic

/-!
# Masked source text

Comments and the insides of literals are blanked out before a Java source is searched, so that the
brackets and words in them count for nothing. Offsets stay as they are: each character becomes
itself or a space, and a line feed stays a line feed.

1. The masked text is as long as the text (`length_mask`).
-/

namespace RecordSkeleton.Java

/-- What surrounds the next character of a source text. -/
inductive Mode where
  | code
  /-- A comment that ends before the next line feed. -/
  | lineComment
  /-- A comment that ends with an asterisk and a slash. -/
  | blockComment
  /-- A literal between triple quotes. -/
  | textBlock
  /-- A literal on one line, between two of the given quotes. -/
  | literal (quote : Char)
  deriving DecidableEq, Repr

/-- A masked character: a line feed stays, all else becomes a space. -/
def blank (c : Char) : Char := if c = '\n' then '\n' else ' '

/-- The masked form of a text that starts in the given mode. A literal on one line is ended by its
quote or by a line feed, except that a backslash hides the character after it; a text block is ended
by the next three quotes. -/
def maskFrom : Mode → Text → Text
  | _, [] => []
  | .code, '/' :: '/' :: r => ' ' :: ' ' :: maskFrom .lineComment r
  | .code, '/' :: '*' :: r => ' ' :: ' ' :: maskFrom .blockComment r
  | .code, '"' :: '"' :: '"' :: r => '"' :: '"' :: '"' :: maskFrom .textBlock r
  | .code, c :: r => c :: maskFrom (if c = '"' ∨ c = '\'' then .literal c else .code) r
  | .lineComment, c :: r => blank c :: maskFrom (if c = '\n' then .code else .lineComment) r
  | .blockComment, '*' :: '/' :: r => ' ' :: ' ' :: maskFrom .code r
  | .blockComment, c :: r => blank c :: maskFrom .blockComment r
  | .textBlock, '"' :: '"' :: '"' :: r => '"' :: '"' :: '"' :: maskFrom .code r
  | .textBlock, c :: r => blank c :: maskFrom .textBlock r
  | .literal q, c :: r =>
    if c = q ∨ c = '\n' then c :: maskFrom .code r
    else if c = '\\' then
      match r with
      | [] => [' ']
      | e :: t => ' ' :: blank e :: maskFrom (.literal q) t
    else ' ' :: maskFrom (.literal q) r

/-- The source text with comments and the insides of literals blanked out. -/
def mask (s : Text) : Text := maskFrom .code s

theorem length_maskFrom (m : Mode) (s : Text) : (maskFrom m s).length = s.length := by
  fun_induction maskFrom m s <;> simp_all

/-- Masking keeps every offset. -/
@[simp] theorem length_mask (s : Text) : (mask s).length = s.length := length_maskFrom .code s

end RecordSkeleton.Java
