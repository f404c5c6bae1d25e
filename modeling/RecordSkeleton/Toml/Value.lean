import RecordSkeleton.Binary64
import RecordSkeleton.Text.Integer
import RecordSkeleton.Toml.DateTime

/-!
# TOML values

The values of a TOML document, and their written forms. The plain form of a text is the text itself;
inside an array or a table every value takes its literal form, in which a text is quoted.
-/

namespace RecordSkeleton.Toml

/-- A value of a TOML document. -/
inductive Value where
  /-- No value; no document holds it. -/
  | nothing
  | boolean (b : Bool)
  | integer (n : Int)
  | float (x : Binary64)
  | text (s : Text)
  | date (d : Date)
  | time (t : Time)
  /-- A date and a time, with an offset from universal time in minutes if there is one. -/
  | dateTime (d : Date) (t : Time) (offset : Option Int)
  | array (items : List Value)
  /-- A table, in the order in which its keys were set. -/
  | table (entries : List (Text × Value))
  deriving Inhabited

namespace Value

open Text

mutual

/-- The literal form of a value. -/
def literal : Value → Text
  | nothing => "None".toList
  | boolean b => if b then "True".toList else "False".toList
  | integer n => ofInt n
  | float x => x.text
  | text s => quoted s
  | date d => constructorText "date" d.fields none
  | time t => constructorText "time" t.fields none
  | dateTime d t offset => constructorText "datetime" (d.fields ++ t.fields) offset
  | array items => ['['] ++ join [',', ' '] (literals items) ++ [']']
  | table entries => ['{'] ++ join [',', ' '] (entryLiterals entries) ++ ['}']

/-- The literal forms of the items of an array. -/
def literals : List Value → List Text
  | [] => []
  | v :: vs => literal v :: literals vs

/-- The literal forms of the entries of a table. -/
def entryLiterals : List (Text × Value) → List Text
  | [] => []
  | (key, v) :: es => (quoted key ++ [':', ' '] ++ literal v) :: entryLiterals es

end

mutual

/-- Whether a whole number in a value has more digits than may be written. -/
def isTooLong : Value → Bool
  | integer n => Integer.digitLimit < (ofNat n.natAbs).length
  | array items => anyTooLong items
  | table entries => anyEntryTooLong entries
  | _ => false

/-- Whether there is such a number in the items of an array. -/
def anyTooLong : List Value → Bool
  | [] => false
  | v :: vs => isTooLong v || anyTooLong vs

/-- Whether there is such a number in the entries of a table. -/
def anyEntryTooLong : List (Text × Value) → Bool
  | [] => false
  | (_, v) :: es => isTooLong v || anyEntryTooLong es

end

/-- The plain form of a value. -/
def plain : Value → Text
  | text s => s
  | date d => d.text
  | time t => t.text
  | dateTime d t offset => d.text ++ [' '] ++ t.text ++ (offset.map offsetText).getD []
  | v => literal v

/-- The name of the kind of a value. -/
def kindName : Value → Text
  | nothing => "NoneType".toList
  | boolean _ => "bool".toList
  | integer _ => "int".toList
  | float _ => "float".toList
  | text _ => "str".toList
  | date _ => "datetime.date".toList
  | time _ => "datetime.time".toList
  | dateTime _ _ _ => "datetime.datetime".toList
  | array _ => "list".toList
  | table _ => "dict".toList

end Value

end RecordSkeleton.Toml
