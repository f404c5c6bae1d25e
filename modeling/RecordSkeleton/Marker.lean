import RecordSkeleton.Bracket

/-!
# Markers

A marker is an annotation in front of a declaration: `@`, a name, and possibly an argument list in
round brackets that follows the name directly. `Marker.split` peels the leading markers off a text.

1. The rest after the peeling is no longer than the text (`Marker.length_split_le`).
-/

namespace RecordSkeleton.Marker

open Text

/-- The characters of a marker's name: all but blanks and the opening round bracket. -/
def isNameChar (c : Char) : Bool := !isBlank c && c != '('

/-- What follows the argument list at the front, if there is one; `none` when that list is never
closed. -/
def afterArguments? : Text → Option Text
  | '(' :: r => (Brackets.round.closeOffset? 1 r).map fun k => r.drop (k + 1)
  | s => some s

theorem length_afterArguments?_le {s t : Text} (h : afterArguments? s = some t) :
    t.length ≤ s.length := by
  unfold afterArguments? at h
  split at h
  · obtain ⟨k, _, rfl⟩ := Option.map_eq_some_iff.1 h
    simp only [List.length_drop, List.length_cons]
    omega
  · simp only [Option.some.injEq] at h
    exact Nat.le_of_eq (by rw [h])

/-- The names of the leading markers and the text after them, without leading blanks. An argument
list that is never closed takes the rest of the text. -/
def split (s : Text) : List Text × Text :=
  match _h : trimLeft s with
  | '@' :: r =>
    match _ha : afterArguments? (r.dropWhile isNameChar) with
    | none => ([r.takeWhile isNameChar], [])
    | some t => (r.takeWhile isNameChar :: (split t).1, (split t).2)
  | t => ([], t)
termination_by s.length
decreasing_by
  all_goals
    have h₁ := length_afterArguments?_le _ha
    have h₂ := length_dropWhile_le isNameChar r
    have h₃ := length_trimLeft_le s
    rw [_h, List.length_cons] at h₃
    omega

/-- The text without its leading markers. -/
def strip (s : Text) : Text := (split s).2

theorem length_split_le (s : Text) : (split s).2.length ≤ s.length := by
  fun_induction split s with
  | case1 => exact Nat.zero_le _
  | case2 s r h t ha ih =>
    have h₁ := length_afterArguments?_le ha
    have h₂ := length_dropWhile_le isNameChar r
    have h₃ := length_trimLeft_le s
    rw [h, List.length_cons] at h₃
    simp only
    omega
  | case3 s _ => exact length_trimLeft_le s

/-- Whether a marker is the one meant by a simple name: what follows the last dot of its own name
is that name. -/
def hasSimpleName (simple : Text) (marker : Text) : Bool :=
  (marker.reverse.takeWhile (· != '.')).reverse == simple

end RecordSkeleton.Marker
