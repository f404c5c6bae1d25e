import RecordSkeleton.Text.Digit
import RecordSkeleton.Text.Quoted

/-!
# Integer numerals

Reading an integer: blanks around it, an optional sign, and decimal digits of any script, with
single underscores allowed between two digits. The number of digits is limited.
-/

namespace RecordSkeleton.Integer

open Text

/-- The number of digits that an integer may be written with. -/
def digitLimit : Nat := 4300

/-- Why a text is no integer. -/
inductive Fault where
  /-- It is not of the form of an integer. -/
  | malformed (text : Text)
  | tooManyDigits (count : Nat)
  deriving DecidableEq, Repr

/-- The number of characters of a quoted text that a message shows. -/
def shownLength : Nat := 200

/-- The message of a fault. A long text is cut off in it, its closing quote included. -/
def Fault.message : Fault → Text
  | malformed text =>
    "invalid literal for int() with base 10: ".toList ++ (quoted text).take shownLength
  | tooManyDigits count =>
    "Exceeds the limit (".toList ++ ofNat digitLimit ++
      " digits) for integer string conversion: value has ".toList ++ ofNat count ++
      " digits; use sys.set_int_max_str_digits() to increase the limit".toList

/-- The blanks that may stand around an integer: all but the separators of the control block. -/
def isMargin (c : Char) : Bool := isBlank c && !(28 ≤ c.toNat && c.toNat ≤ 31)

/-- Reads digits behind a first one: the value and the number of all digits, given those so far, and
the rest. -/
def digitsFrom (value count : Nat) : Text → Nat × Nat × Text
  | '_' :: c :: r =>
    match decimalValue? c with
    | some d => digitsFrom (value * 10 + d) (count + 1) r
    | none => (value, count, '_' :: c :: r)
  | c :: r =>
    match decimalValue? c with
    | some d => digitsFrom (value * 10 + d) (count + 1) r
    | none => (value, count, c :: r)
  | [] => (value, count, [])

/-- Reads the digits of an integer. Of several faults, an underscore that joins no two digits comes
first, then too many digits, then anything else behind the digits. -/
def readDigits (text : Text) (s : Text) : Except Fault Nat :=
  match s with
  | [] => .error (.malformed text)
  | c :: r =>
    match decimalValue? c with
    | none => .error (.malformed text)
    | some d =>
      let (value, count, rest) := digitsFrom d 1 r
      if rest.head? = some '_' then .error (.malformed text)
      else if digitLimit < count then .error (.tooManyDigits count)
      else if rest ≠ [] then .error (.malformed text)
      else .ok value

/-- Reads an integer. -/
def read (text : Text) : Except Fault Int :=
  match ((text.dropWhile isMargin).reverse.dropWhile isMargin).reverse with
  | '+' :: r => (readDigits text r).map Int.ofNat
  | '-' :: r => (readDigits text r).map fun n => -(n : Int)
  | r => (readDigits text r).map Int.ofNat

end RecordSkeleton.Integer
