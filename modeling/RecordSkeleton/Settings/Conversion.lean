import RecordSkeleton.Settings.Basic
import RecordSkeleton.Text.Integer
import RecordSkeleton.Text.Lowercase
import RecordSkeleton.Toml.Value

/-!
# Converting settings

How the values of a configuration file, or the text of an option, become settings. A number can ask for
more spaces than there is room for, so the room is a parameter.

1. A depth limit that is accepted is at least one (`one_le_of_depthOfInt`).
-/

namespace RecordSkeleton

/-- Why a value is no setting. -/
inductive SettingFault where
  /-- The indent is neither a text nor a whole number; it is shown by its literal. -/
  | indentKind (shown : Text)
  | indentNegative (n : Int)
  /-- The number of spaces is beyond every size. -/
  | indentTooLarge
  /-- There is no room for so many spaces. -/
  | outOfMemory
  /-- The depth limit is a truth value; it is shown by its literal. -/
  | depthKind (shown : Text)
  | depthTooSmall (n : Int)
  | depthInfinite
  | depthNotANumber
  | numeral (fault : Integer.Fault)
  /-- The depth limit is of a kind that cannot be a number. -/
  | notNumeric (kind : Text)
  /-- A section is of a kind that has no keys. -/
  | notSearchable (kind : Text)
  /-- A section is a text in which a key occurs. -/
  | textForSection
  /-- A section is an array in which a key occurs. -/
  | arrayForSection
  /-- A list is of a kind that has no items. -/
  | notIterable (kind : Text)
  /-- A whole number has more digits than may be written. -/
  | integerTooLong
  deriving DecidableEq, Repr

namespace SettingFault

/-- The message of a fault. -/
def message : SettingFault → Text
  | indentKind shown => "indent must be a string or an integer, got ".toList ++ shown
  | indentNegative n => "indent must not be negative, got ".toList ++ Text.ofInt n
  | indentTooLarge => "cannot fit 'int' into an index-sized integer".toList
  | outOfMemory => []
  | depthKind shown => "max_depth must be an integer, got ".toList ++ shown
  | depthTooSmall n => "max_depth must be >= 1, got ".toList ++ Text.ofInt n
  | depthInfinite => "cannot convert float infinity to integer".toList
  | depthNotANumber => "cannot convert float NaN to integer".toList
  | numeral fault => fault.message
  | notNumeric kind =>
    "int() argument must be a string, a bytes-like object or a real number, not '".toList ++
      kind ++ ['\'']
  | notSearchable kind => "argument of type '".toList ++ kind ++ "' is not iterable".toList
  | textForSection => "string indices must be integers, not 'str'".toList
  | arrayForSection => "list indices must be integers or slices, not str".toList
  | notIterable kind => ['\''] ++ kind ++ "' object is not iterable".toList
  | integerTooLong =>
    "Exceeds the limit (".toList ++ Text.ofNat Integer.digitLimit ++
      " digits) for integer string conversion; ".toList ++
      "use sys.set_int_max_str_digits() to increase the limit".toList

/-- The kinds of faults. -/
inductive Category where
  | value
  | kind
  | overflow
  | memory
  deriving DecidableEq, Repr

/-- The kind of a fault. -/
def category : SettingFault → Category
  | indentTooLarge | depthInfinite => .overflow
  | outOfMemory => .memory
  | notNumeric _ | notSearchable _ | textForSection | arrayForSection | notIterable _ => .kind
  | _ => .value

/-- Whether a fault is beyond all bounds. It is no reason to pass over what has the fault, but ends the
loading. -/
def isUnbounded (fault : SettingFault) : Bool :=
  match fault.category with
  | .overflow | .memory => true
  | .value | .kind => false

end SettingFault

namespace Settings

/-! ## Indents -/

/-- The greatest number that can be a size. No memory has room for a text of this length, so a number up
to it fails for want of room, and only a greater one for its own sake. -/
def sizeLimit : Int := Int.pow 2 63 - 1

/-- So many spaces, where there is room for `room` of them. -/
def spaces (room : Nat) (n : Int) : Except SettingFault Text :=
  if n < 0 then .error (.indentNegative n)
  else if sizeLimit < n then .error .indentTooLarge
  else if room < n then .error .outOfMemory
  else .ok (List.replicate n.toNat ' ')

/-- The indent that a text stands for: a tab for `tab` or an escaped tab in any case, so many spaces
for digits, and else the text itself. -/
def indentOfText (room : Nat) (s : Text) : Except SettingFault Text :=
  if Text.lower s ∈ ["tab".toList, ['\\', 't'], ['\t']] then .ok ['\t']
  else if s ≠ [] ∧ s.all Text.isDigit then
    match Integer.read s with
    | .ok n => spaces room n
    | .error fault => .error (.numeral fault)
  else .ok s

/-- The indent that a value stands for. -/
def indentOf (room : Nat) (v : Toml.Value) : Except SettingFault Text :=
  match v with
  | .integer n => spaces room n
  | .text s => indentOfText room s
  | _ => .error (if v.isTooLong then .integerTooLong else .indentKind v.literal)

/-! ## Depth limits -/

/-- A depth limit, which is at least one. -/
def depthOfInt (n : Int) : Except SettingFault Int :=
  if n < 1 then .error (.depthTooSmall n) else .ok n

theorem one_le_of_depthOfInt {n d : Int} (h : depthOfInt n = .ok d) : 1 ≤ d := by
  unfold depthOfInt at h
  split at h
  · cases h
  · cases h
    omega

/-- The depth limit that a text stands for. -/
def depthOfText (s : Text) : Except SettingFault Int :=
  match Integer.read s with
  | .ok n => depthOfInt n
  | .error fault => .error (.numeral fault)

/-- The depth limit that a value stands for; a fraction is cut off. -/
def depthOf (v : Toml.Value) : Except SettingFault Int :=
  match v with
  | .boolean _ => .error (.depthKind v.literal)
  | .integer n => depthOfInt n
  | .text s => depthOfText s
  | .float (.finite negative m e) => depthOfInt (Binary64.truncate negative m e)
  | .float (.infinite _) => .error .depthInfinite
  | .float .notANumber => .error .depthNotANumber
  | _ => .error (.notNumeric v.kindName)

/-! ## Texts, sections and lists -/

/-- The text that a value stands for. -/
def textOf (v : Toml.Value) : Except SettingFault Text :=
  if v.isTooLong then .error .integerTooLong else .ok v.plain

/-- The value of a key in a section. A section that is a text or an array has no keys, but must not
hold the key as a part or an item. -/
def member? (section_ : Toml.Value) (key : Text) : Except SettingFault (Option Toml.Value) :=
  match section_ with
  | .table entries => .ok (entries.lookup key)
  | .text s => if (List.range (s.length + 1)).any fun i => key.isPrefixOf (s.drop i) then
      .error .textForSection else .ok none
  | .array items =>
    let isKey : Toml.Value → Bool
      | .text s => s == key
      | _ => false
    if items.any isKey then .error .arrayForSection else .ok none
  | v => .error (.notSearchable v.kindName)

/-- The texts that the items of a list stand for: the items of an array, the characters of a text or
the keys of a table. -/
def listOf (v : Toml.Value) : Except SettingFault (List Text) :=
  match v with
  | .array items => items.mapM textOf
  | .text s => .ok (s.map fun c => [c])
  | .table entries => .ok (entries.map (·.1))
  | v => .error (.notIterable v.kindName)

end Settings

end RecordSkeleton
