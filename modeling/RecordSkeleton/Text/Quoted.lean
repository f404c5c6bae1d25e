import RecordSkeleton.Text.Numeral
import RecordSkeleton.Text.Printable

/-!
# Quoted text

A text in single quotes, or in double quotes if it holds single quotes and no double ones. The quote
and the backslash are escaped by a backslash, and so are tabs and line ends by a letter; any other
character that is not printable is written by its code point in two, four or eight hexadecimal
digits.
-/

namespace RecordSkeleton.Text

/-- The lower-case hexadecimal digits of a number, behind zeros up to the given width. -/
def hexPadded (width n : Nat) : Text :=
  let digits := Nat.toDigits 16 n
  List.replicate (width - digits.length) '0' ++ digits

/-- A character between the given quotes. -/
def quotedChar (quote c : Char) : Text :=
  if c == quote || c == '\\' then ['\\', c]
  else if c == '\t' then ['\\', 't']
  else if c == '\n' then ['\\', 'n']
  else if c == '\r' then ['\\', 'r']
  else if isPrintable c then [c]
  else if c.toNat < 0x100 then ['\\', 'x'] ++ hexPadded 2 c.toNat
  else if c.toNat < 0x10000 then ['\\', 'u'] ++ hexPadded 4 c.toNat
  else ['\\', 'U'] ++ hexPadded 8 c.toNat

/-- The quote that a text is put in. -/
def quoteFor (s : Text) : Char := if '\'' ∈ s ∧ '"' ∉ s then '"' else '\''

/-- The quoted form of a text. -/
def quoted (s : Text) : Text :=
  [quoteFor s] ++ s.flatMap (quotedChar (quoteFor s)) ++ [quoteFor s]

end RecordSkeleton.Text
