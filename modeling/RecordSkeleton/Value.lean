import RecordSkeleton.Text.Basic

/-!
# Values

The default value of a field, and the text that it takes in a skeleton. Arrays and inline objects
stand on one line; the skeleton of a nested type brings its own lines.
-/

namespace RecordSkeleton

/-- A default value. -/
inductive Value where
  /-- Finished text such as `0`, `false` or a quoted string. -/
  | literal (text : Text)
  /-- An array without elements. -/
  | emptyArray
  /-- An array of one element. -/
  | array (item : Value)
  /-- An inline object, whose keys are values themselves. -/
  | object (pairs : List (Value × Value))
  /-- The skeleton of a nested type. -/
  | skeleton (text : Text)

namespace Value

/-- The empty string. -/
def emptyString : Value := .literal ['"', '"']

mutual

/-- The text of a value. -/
def render : Value → Text
  | literal text | skeleton text => text
  | emptyArray => ['[', ']']
  | array item => ['[', ' '] ++ render item ++ [' ', ']']
  | object [] => ['{', '}']
  | object (pair :: pairs) =>
    ['{', ' '] ++ Text.join [',', ' '] (renderPairs (pair :: pairs)) ++ [' ', '}']

/-- The texts of the pairs of an inline object. -/
def renderPairs : List (Value × Value) → List Text
  | [] => []
  | (key, value) :: pairs => (render key ++ [':', ' '] ++ render value) :: renderPairs pairs

end

end Value

/-- A multi-line object of finished entries. The entries are indented by `depth` units and the
closing brace by one unit less; below depth one there is nothing to indent by. -/
def renderObject (entries : List Text) (depth : Int) (indent : Text) : Text :=
  let margin (d : Int) : Text := (List.replicate d.toNat indent).flatten
  ['{', '\n'] ++ Text.join [',', '\n'] (entries.map (margin depth ++ ·)) ++
    ['\n'] ++ margin (depth - 1) ++ ['}']

end RecordSkeleton
