import RecordSkeleton.Text.Basic

/-!
# Wildcard patterns

In a pattern an asterisk stands for any characters, a question mark for any one character, and a set
in square brackets for one character that is in it, or not in it when the set starts with an
exclamation mark. All else stands for itself, and so does an opening bracket that is never closed.
There is no escaping, and case counts.
-/

namespace RecordSkeleton.Wildcard

/-- A member of a set: one character or a closed range. -/
inductive Member where
  | single (c : Char)
  /-- The characters from `low` to `high`. -/
  | range (low high : Char)
  deriving DecidableEq, Repr

/-- Whether a character belongs to a member of a set. -/
def Member.holds (c : Char) : Member → Bool
  | single d => c == d
  | range low high => low ≤ c && c ≤ high

/-- One element of a pattern. -/
inductive Element where
  /-- Any characters, or none. -/
  | anyText
  | anyChar
  /-- One character that is in the set, or one that is not when `negated`. -/
  | set (negated : Bool) (members : List Member)
  | exactly (c : Char)
  deriving DecidableEq, Repr

/-! ## Reading a pattern -/

/-- The members written between the brackets of a set. A hyphen between two characters makes a
range, and a range that holds nothing is left out. -/
def members : Text → List Member
  | low :: '-' :: high :: r => if low ≤ high then .range low high :: members r else members r
  | c :: r => .single c :: members r
  | [] => []

/-- The set written between brackets. The exclamation mark that negates it may also come first only
because empty ranges before it are left out. -/
def setOf (inside : Text) : Element :=
  match inside with
  | '!' :: r => .set true (members r)
  | _ => match members inside with
    | .single '!' :: r => .set true r
    | .range '!' high :: r => .set true (.single '-' :: .single high :: r)
    | r => .set false r

/-- The offset of the bracket that closes a set, in the text behind its opening bracket. A closing
bracket right at the front, or right behind the exclamation mark, belongs to the set. -/
def setEnd? (s : Text) : Option Nat :=
  let skip := match s with
    | '!' :: ']' :: _ => 2
    | '!' :: _ | ']' :: _ => 1
    | _ => 0
  ((s.drop skip).findIdx? (· == ']')).map (skip + ·)

/-- The elements of a pattern. -/
def parse (s : Text) : List Element :=
  match s with
  | [] => []
  | '*' :: r => .anyText :: parse r
  | '?' :: r => .anyChar :: parse r
  | '[' :: r =>
    match setEnd? r with
    | some k => setOf (r.take k) :: parse (r.drop (k + 1))
    | none => .exactly '[' :: parse r
  | c :: r => .exactly c :: parse r
termination_by s.length

/-! ## Matching -/

/-- Whether a character fits an element that stands for one character. -/
def Element.fits (c : Char) : Element → Bool
  | anyText => false
  | anyChar => true
  | set negated members => members.any (Member.holds c) != negated
  | exactly d => c == d

/-- Whether a whole text fits the elements of a pattern. -/
def fits : List Element → Text → Bool
  | [], [] => true
  | [], _ :: _ => false
  | .anyText :: p, [] => fits p []
  | .anyText :: p, c :: r => fits p (c :: r) || fits (.anyText :: p) r
  | _ :: _, [] => false
  | e :: p, c :: r => e.fits c && fits p r
termination_by p s => p.length + s.length

/-- Whether a text fits a pattern. -/
def isMatch (pattern s : Text) : Bool := fits (parse pattern) s

end RecordSkeleton.Wildcard
