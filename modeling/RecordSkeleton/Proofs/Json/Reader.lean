import RecordSkeleton.Text.Basic

/-!
# A reader of object notation

A reader of the interchange format that takes any value for the key of an object. It goes through a
text once, character by character, with a stack of the arrays and objects that are not closed yet.

1. Members are kept in order, with duplicates; numbers are kept as they are written, and strings as
   the code units that they denote.
2. A key may be any value; all else is as strict as the format is.
-/

namespace RecordSkeleton

open Text

/-- What a text denotes. -/
inductive Json where
  | null
  | bool (b : Bool)
  | number (lexeme : Text)
  | string (units : List Nat)
  | array (items : List Json)
  | object (members : List (Json × Json))

namespace Json

/-- The 16-bit code units of a character. -/
def utf16 (c : Char) : List Nat :=
  if c.toNat < 0x10000 then [c.toNat]
  else [0xD800 + (c.toNat - 0x10000) / 0x400, 0xDC00 + (c.toNat - 0x10000) % 0x400]

/-- The string of a text. -/
def ofText (s : Text) : Json := string (s.flatMap utf16)

/-! ## Tokens -/

def isSpace (c : Char) : Bool := c == ' ' || c == '\t' || c == '\n' || c == '\r'

/-- The words that are values. -/
inductive Word where
  | true
  | false
  | null

namespace Word

def text : Word → Text
  | true => "true".toList
  | false => "false".toList
  | null => "null".toList

def value : Word → Json
  | true => .bool Bool.true
  | false => .bool Bool.false
  | null => .null

end Word

/-- How far a number has been read. -/
inductive NumberState where
  /-- Behind the minus sign. -/
  | minus
  /-- Behind a whole part that is zero. -/
  | zero
  /-- In any other whole part. -/
  | whole
  /-- Behind the point. -/
  | point
  | fraction
  /-- Behind the letter of the exponent. -/
  | exponent
  /-- Behind the sign of the exponent. -/
  | sign
  | power

namespace NumberState

/-- The state behind one more character of the number. -/
def next? (s : NumberState) (c : Char) : Option NumberState :=
  match s with
  | minus => if c = '0' then some zero else if c.isDigit then some whole else none
  | zero => if c = '.' then some point else if c = 'e' ∨ c = 'E' then some exponent else none
  | whole =>
    if c.isDigit then some whole
    else if c = '.' then some point else if c = 'e' ∨ c = 'E' then some exponent else none
  | point => if c.isDigit then some fraction else none
  | fraction =>
    if c.isDigit then some fraction else if c = 'e' ∨ c = 'E' then some exponent else none
  | exponent => if c = '+' ∨ c = '-' then some sign else if c.isDigit then some power else none
  | sign | power => if c.isDigit then some power else none

/-- Whether a number may end here. -/
def ends : NumberState → Bool
  | zero | whole | fraction | power => true
  | minus | point | exponent | sign => false

end NumberState

/-- The code unit of a character behind a backslash. -/
def escaped? (c : Char) : Option Nat :=
  [('"', 0x22), ('\\', 0x5C), ('/', 0x2F), ('b', 0x08), ('f', 0x0C), ('n', 0x0A), ('r', 0x0D),
    ('t', 0x09)].lookup c

def hexValue? (c : Char) : Option Nat :=
  if c.isDigit then some (c.toNat - '0'.toNat)
  else if 'a' ≤ c ∧ c ≤ 'f' then some (c.toNat - 'a'.toNat + 10)
  else if 'A' ≤ c ∧ c ≤ 'F' then some (c.toNat - 'A'.toNat + 10)
  else none

/-! ## The reader -/

/-- An array or object that is not closed yet. -/
inductive Frame where
  | array (items : List Json)
  /-- An object behind these members, in front of a key or in it. -/
  | key (members : List (Json × Json))
  /-- An object behind these members, a key and a colon. -/
  | member (members : List (Json × Json)) (key : Json)

/-- What is being read. -/
inductive Mode where
  /-- Nothing yet; a value must follow. -/
  | value
  /-- Nothing yet; a value must follow, or the end of an empty array or object. -/
  | first
  /-- Nothing any more; this value has ended. -/
  | after (v : Json)
  /-- A word of which so many characters have been read. -/
  | word (w : Word) (n : Nat)
  /-- A number that so far is written like this. -/
  | number (s : NumberState) (lexeme : Text)
  /-- A string that so far denotes these code units. -/
  | string (units : List Nat)
  | escape (units : List Nat)
  /-- So many digits of a code unit in a string, and their value. -/
  | unicode (units : List Nat) (n : Nat) (code : Nat)

structure State where
  mode : Mode
  /-- What is not closed yet, innermost first. -/
  stack : List Frame

/-- Starts a value. -/
def begin? (stack : List Frame) (c : Char) : Option State :=
  if c = '"' then some ⟨.string [], stack⟩
  else if c = '[' then some ⟨.first, .array [] :: stack⟩
  else if c = '\x7b' then some ⟨.first, .key [] :: stack⟩
  else if c = '-' then some ⟨.number .minus [c], stack⟩
  else if c = '0' then some ⟨.number .zero [c], stack⟩
  else if c.isDigit then some ⟨.number .whole [c], stack⟩
  else if c = 't' then some ⟨.word .true 1, stack⟩
  else if c = 'f' then some ⟨.word .false 1, stack⟩
  else if c = 'n' then some ⟨.word .null 1, stack⟩
  else none

/-- Closes an array or object right behind its opening. -/
def closeEmpty? (stack : List Frame) (c : Char) : Option State :=
  match stack with
  | .array [] :: rest => if c = ']' then some ⟨.after (.array []), rest⟩ else none
  | .key [] :: rest => if c = '\x7d' then some ⟨.after (.object []), rest⟩ else none
  | _ => none

/-- Goes on behind the value `v`. -/
def follow? (stack : List Frame) (v : Json) (c : Char) : Option State :=
  if isSpace c then some ⟨.after v, stack⟩
  else match stack with
    | .array items :: rest =>
      if c = ',' then some ⟨.value, .array (items ++ [v]) :: rest⟩
      else if c = ']' then some ⟨.after (.array (items ++ [v])), rest⟩ else none
    | .key members :: rest => if c = ':' then some ⟨.value, .member members v :: rest⟩ else none
    | .member members key :: rest =>
      if c = ',' then some ⟨.value, .key (members ++ [(key, v)]) :: rest⟩
      else if c = '\x7d' then some ⟨.after (.object (members ++ [(key, v)])), rest⟩ else none
    | [] => none

/-- Reads one character. -/
def step (s : State) (c : Char) : Option State :=
  match s.mode with
  | .value => if isSpace c then some s else begin? s.stack c
  | .first => if isSpace c then some s else (closeEmpty? s.stack c).or (begin? s.stack c)
  | .after v => follow? s.stack v c
  | .word w n =>
    if w.text[n]? = some c then
      some ⟨if n + 1 = w.text.length then .after w.value else .word w (n + 1), s.stack⟩
    else none
  | .number t lexeme =>
    match t.next? c with
    | some t' => some ⟨.number t' (lexeme ++ [c]), s.stack⟩
    | none => if t.ends then follow? s.stack (.number lexeme) c else none
  | .string units =>
    if c = '"' then some ⟨.after (.string units), s.stack⟩
    else if c = '\\' then some ⟨.escape units, s.stack⟩
    else if c.toNat < 0x20 then none
    else some ⟨.string (units ++ utf16 c), s.stack⟩
  | .escape units =>
    if c = 'u' then some ⟨.unicode units 0 0, s.stack⟩
    else (escaped? c).map fun u => ⟨.string (units ++ [u]), s.stack⟩
  | .unicode units n code =>
    (hexValue? c).map fun h =>
      ⟨if n = 3 then .string (units ++ [16 * code + h]) else .unicode units (n + 1) (16 * code + h),
        s.stack⟩

/-- The value that a text denotes when it ends in this state. -/
def finish? (s : State) : Option Json :=
  match s with
  | ⟨.after v, []⟩ => some v
  | ⟨.number t lexeme, []⟩ => if t.ends then some (.number lexeme) else none
  | _ => none

def run (s : State) (x : Text) : Option State := x.foldlM step s

/-- Reads a text. -/
def read (x : Text) : Option Json := (run ⟨.value, []⟩ x).bind finish?

example : read "\x7b\"a\": [-1.5e+3, \x7btrue : null\x7d], \"a\":\"\\u00e4\\n\"\x7d ".toList =
    some (.object [(ofText "a".toList, .array [.number "-1.5e+3".toList,
      .object [(.bool true, .null)]]), (ofText "a".toList, .string [0xE4, 0x0A])]) := by
  rfl

example : ["[1,]", "01", "\x7b\"a\"\x7d", "\"\n\"", "[\x7d", "1 2", ""].map
    (fun s => (read s.toList).isSome) = List.replicate 7 false := by
  decide

end Json

end RecordSkeleton
