import RecordSkeleton.Declaration

/-!
# Declaration headers

A header is a keyword (`record`, `class`, `enum`, `interface` or `@interface`), blanks and a name.
`Header.find?` searches the first one between two offsets of a masked text.

1. A header lies between the offsets it was searched for (`Header.find?_bounds`).
-/

namespace RecordSkeleton.Java

open Text

/-- The keyword and name of a declaration, with their place in the masked text. -/
structure Header where
  /-- The shape that the keyword announces. -/
  kind : Kind
  name : Text
  start : Nat
  /-- The offset behind the name. -/
  stop : Nat
  deriving DecidableEq, Repr

namespace Header

/-- The keywords and the shapes that they announce. -/
def keywords : List (Text × Kind) :=
  [("record".toList, .record), ("class".toList, .plainClass), ("enum".toList, .enumeration),
    ("interface".toList, .interface)]

/-- The shape and the length of the keyword at the front of a text. Blanks may stand between the
sign `@` and the word `interface`. -/
def keyword? (s : Text) : Option (Kind × Nat) :=
  match s with
  | '@' :: r =>
    let blanks := (r.takeWhile isBlank).length
    let word := "interface".toList
    if word.isPrefixOf (r.drop blanks) then some (.interface, 1 + blanks + word.length) else none
  | _ => (keywords.find? fun k => k.1.isPrefixOf s).map fun k => (k.2, k.1.length)

/-- The characters that a name may start with. -/
def startsName (c : Char) : Bool := c.isAlpha || c == '_' || c == '$'

/-- The characters that a name may go on with. -/
def continuesName (c : Char) : Bool := isWordChar c || c == '$'

/-- The name at the front of a text. -/
def name? (s : Text) : Option Text :=
  match s with
  | [] => none
  | c :: r => if startsName c then some (c :: r.takeWhile continuesName) else none

/-- Reads the header at the front of a text that stands at the given offset. -/
def read? (offset : Nat) (s : Text) : Option Header :=
  match keyword? s with
  | none => none
  | some (kind, n) =>
    let blanks := ((s.drop n).takeWhile isBlank).length
    if blanks = 0 then none
    else (name? (s.drop (n + blanks))).map fun name =>
      ⟨kind, name, offset, offset + (n + blanks + name.length)⟩

/-- The characters right behind which no keyword is looked for. -/
def hidesKeyword (c : Char) : Bool := isWordChar c || c == '.' || c == '$' || c == '@'

/-- The first header of a text that stands at the given offset behind the character `before`. -/
def search? (before : Option Char) (offset : Nat) : Text → Option Header
  | [] => none
  | c :: r =>
    match if before.any hidesKeyword then none else read? offset (c :: r) with
    | some h => some h
    | none => search? (some c) (offset + 1) r

/-- The first header between the offsets `pos` and `stop` of a text. -/
def find? (s : Text) (pos stop : Nat) : Option Header :=
  search? (charBefore? s pos) pos (slice s pos stop)

/-! ## Bounds -/

theorem length_name?_le {s name : Text} (h : name? s = some name) : name.length ≤ s.length := by
  unfold name? at h
  split at h
  · cases h
  · split at h
    · simp only [Option.some.injEq] at h
      subst h
      simpa using (List.takeWhile_prefix (p := continuesName)).length_le
    · cases h

theorem length_name?_pos {s name : Text} (h : name? s = some name) : 0 < name.length := by
  unfold name? at h
  split at h
  · cases h
  · split at h
    · simp only [Option.some.injEq] at h
      simp [← h]
    · cases h

theorem read?_bounds {offset : Nat} {s : Text} {hd : Header} (h : read? offset s = some hd) :
    hd.start = offset ∧ hd.start < hd.stop ∧ hd.stop ≤ offset + s.length := by
  unfold read? at h
  split at h
  · cases h
  · rename_i kind n hk
    simp only at h
    split at h
    · cases h
    · obtain ⟨name, hn, rfl⟩ := Option.map_eq_some_iff.1 h
      have h₁ := length_name?_le hn
      have h₂ := length_name?_pos hn
      rw [List.length_drop] at h₁
      exact ⟨rfl, by simp only; omega, by simp only; omega⟩

theorem search?_bounds {before : Option Char} {offset : Nat} {s : Text} {hd : Header}
    (h : search? before offset s = some hd) :
    offset ≤ hd.start ∧ hd.start < hd.stop ∧ hd.stop ≤ offset + s.length := by
  induction s generalizing before offset with
  | nil => simp [search?] at h
  | cons c r ih =>
    rw [search?] at h
    split at h
    · rename_i hd' hr
      simp only [Option.some.injEq] at h
      subst h
      split at hr
      · cases hr
      · have := read?_bounds hr
        omega
    · have := ih h
      simp only [List.length_cons]
      omega

/-- A header lies between the offsets it was searched for. -/
theorem find?_bounds {s : Text} {pos stop : Nat} {hd : Header} (h : find? s pos stop = some hd) :
    pos ≤ hd.start ∧ hd.start < hd.stop ∧ hd.stop ≤ stop ∧ hd.stop ≤ s.length := by
  have := search?_bounds h
  simp only [slice, List.length_drop, List.length_take] at this
  omega

end Header

end RecordSkeleton.Java
