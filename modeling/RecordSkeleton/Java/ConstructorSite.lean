import RecordSkeleton.Declaration

/-!
# Constructors

The constructors of a class are the places of its body, outside inner braces, where the class name
is followed by a parameter list and preceded by nothing but markers and access modifiers.
-/

namespace RecordSkeleton.Java

open Text

/-- The brace depth at offset `pos`, counted from offset `start`. -/
def depthAt (s : Text) (start pos : Nat) : Int := Brackets.curly.depth (slice s start pos)

/-! ## The member in front of an offset -/

/-- The characters that end a member of a body. -/
def endsMember (c : Char) : Bool := c == ';' || c == '{' || c == '}'

/-- The offset, in a text that is read backwards, of the first character that ends a member and
stands outside round brackets. -/
def backwardBoundary? : Int → Text → Option Nat
  | _, [] => none
  | d, c :: r =>
    if c = ')' then (backwardBoundary? (d + 1) r).map (· + 1)
    else if c = '(' then (backwardBoundary? (d - 1) r).map (· + 1)
    else if d = 0 ∧ endsMember c then some 0
    else (backwardBoundary? d r).map (· + 1)

/-- The offset of the last character between `start` and `pos` that ends a member and stands outside
round brackets, so that braces in a marker's arguments do not count. -/
def memberBoundary? (s : Text) (start pos : Nat) : Option Nat :=
  (backwardBoundary? 0 (slice s start pos).reverse).map fun k => pos - 1 - k

/-- The words between the previous member and offset `pos`, one space apart. -/
def wordsBefore (s : Text) (start pos : Nat) : Text :=
  let first := ((memberBoundary? s start pos).map (· + 1)).getD start
  join [' '] (words (slice s first pos))

/-! ## Markers and access modifiers -/

/-- The modifiers that may stand in front of a constructor. -/
def accessModifiers : List Text := ["public".toList, "protected".toList, "private".toList]

/-- The first word of a text and what follows the space behind it. -/
def firstWord (s : Text) : Text × Text :=
  (s.takeWhile (· != ' '), (s.dropWhile (· != ' ')).drop 1)

theorem length_firstWord_le (s : Text) (h : (firstWord s).1 ≠ []) :
    (firstWord s).2.length < s.length := by
  cases s with
  | nil => exact absurd rfl h
  | cons c r =>
    have hc : (c != ' ') = true := by
      cases hc : c != ' '
      · simp [firstWord, hc] at h
      · rfl
    have := length_dropWhile_le (· != ' ') r
    simp only [firstWord, List.dropWhile_cons, hc, if_true, List.length_drop, List.length_cons]
    omega

/-- The marker names in front of a constructor name. There are none to give when something other
than markers and access modifiers stands there, which makes the name a call or a method. -/
def markersOf? (s : Text) : Option (List Text) :=
  if (Marker.split s).2 = [] then some (Marker.split s).1
  else if _h : (firstWord (Marker.split s).2).1 ∈ accessModifiers then
    (markersOf? (firstWord (Marker.split s).2).2).map ((Marker.split s).1 ++ ·)
  else none
termination_by s.length
decreasing_by
  have h₁ : (firstWord (Marker.split s).2).1 ≠ [] := fun e => by
    rw [e] at _h
    revert _h
    decide
  have h₂ := length_firstWord_le _ h₁
  have h₃ := Marker.length_split_le s
  omega

/-! ## The constructors of a body -/

/-- The length of the class name and the blanks behind it, when an opening round bracket follows. -/
def callLength? (name : Text) (s : Text) : Option Nat :=
  if name.isPrefixOf s then
    let r := s.drop name.length
    match r.dropWhile isBlank with
    | '(' :: _ => some (name.length + (r.takeWhile isBlank).length)
    | _ => none
  else none

/-- The offsets outside inner braces where the class name is followed by a parameter list, each with
the offset of the list's opening bracket. The text stands at the given brace depth and offset behind
the character `before`, and no place is looked for before the offset `resume`. -/
def callSites (name : Text) (before : Option Char) (depth : Int) (offset resume : Nat) :
    Text → List (Nat × Nat)
  | [] => []
  | c :: r =>
    let hidden := before.any fun b => isWordChar b || b == '.' || b == '$'
    let deeper := depth + Brackets.curly.depth [c]
    match if offset < resume || hidden then none else callLength? name (c :: r) with
    | some n =>
      let later := callSites name (some c) deeper (offset + 1) (offset + n + 1) r
      if depth = 0 then (offset, offset + n) :: later else later
    | none => callSites name (some c) deeper (offset + 1) resume r

/-- The constructor at a place where the class name is followed by a parameter list, when nothing
but markers and modifiers stands in front of it. A parameter list that is never closed runs to the
end of the text. -/
def constructorAt? (s : Text) (start : Nat) (site : Nat × Nat) : Option Constructor :=
  (markersOf? (wordsBefore s start site.1)).map fun markers =>
    { markers
      parameters := match Brackets.round.matchingClose? s site.2 with
        | some close => slice s site.2 (close + 1)
        | none => s.drop site.2 }

/-- The constructors of the class `name` whose body runs from `start` up to `stop`. -/
def constructorsIn (s : Text) (name : Text) (start stop : Nat) : List Constructor :=
  (callSites name (charBefore? s start) 0 start start (slice s start stop)).filterMap
    (constructorAt? s start)

end RecordSkeleton.Java
