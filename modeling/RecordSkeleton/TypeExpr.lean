import RecordSkeleton.Bracket

/-!
# Type expressions

The text of a field's type is read as a base name with type arguments: the name stands before the
first `<`, and the arguments are cut from what lies between the first `<` and the last `>`.
-/

namespace RecordSkeleton

/-- A type expression as its text shows it. -/
inductive TypeExpr where
  /-- A name without angle brackets. -/
  | plain (name : Text)
  /-- A name with arguments in angle brackets, possibly none. -/
  | generic (name : Text) (args : List TypeExpr)
  /-- A name behind which an angle bracket opens and none closes. -/
  | unclosed (name : Text)

namespace TypeExpr

open Text

/-- The characters in front of the last `>` of a text. -/
def beforeLastClose (s : Text) : Text := ((s.reverse.dropWhile (· != '>')).drop 1).reverse

theorem length_beforeLastClose_le (s : Text) : (beforeLastClose s).length ≤ s.length := by
  have := length_dropWhile_le (· != '>') s.reverse
  simp only [List.length_reverse] at this
  simp only [beforeLastClose, List.length_reverse, List.length_drop]
  omega

/-- Reads the text of a type. -/
def ofText (s : Text) : TypeExpr :=
  match _h : (trim s).dropWhile (· != '<') with
  | [] => plain (trim s)
  | _ :: r =>
    let name := trim ((trim s).takeWhile (· != '<'))
    if '>' ∈ r then
      let parts := BracketFamilies.angle.splitTopLevel (trim (beforeLastClose r))
      generic name (parts.attach.map fun p => ofText p.1)
    else unclosed name
termination_by s.length
decreasing_by
  have h₁ := BracketFamilies.length_le_of_mem_splitTopLevel p.2
  have h₂ := length_trim_le (beforeLastClose r)
  have h₃ := length_beforeLastClose_le r
  have h₄ := length_dropWhile_le (· != '<') (trim s)
  have h₅ := length_trim_le s
  rw [_h, List.length_cons] at h₄
  omega

end TypeExpr

end RecordSkeleton
