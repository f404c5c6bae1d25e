import RecordSkeleton.Java.ConstructorSite
import RecordSkeleton.Java.Header
import RecordSkeleton.Java.Mask

/-!
# Java source texts

`Java.declarations` finds every type declaration of a source text, member types included, in the
order of their headers. A declaration is first found as a `Site`, its header and its span in the
masked text.

1. A body opens behind its header and inside the range that is searched (`bodyOpen?_bounds`).
2. A body ends where it opens or later, inside the range (`bodyClose_bounds`).
-/

namespace RecordSkeleton.Java

open Text

/-- The place of a declaration in a masked text. -/
structure Site where
  header : Header
  /-- The offset behind the declaration. -/
  stop : Nat
  /-- The constructors, when the declaration is a class with a body. -/
  constructors : List Constructor
  /-- Whether the declaration stands in the body of another one. -/
  nested : Bool
  deriving DecidableEq, Repr

/-- The offset of a character between the offsets `pos` and `stop`. -/
def charOffset? (c : Char) (s : Text) (pos stop : Nat) : Option Nat :=
  ((slice s pos stop).findIdx? (· == c)).map (pos + ·)

/-- The offset at which the search for a body starts: behind the component list of a record, if
there is one before the first brace, and right behind any other header. A list that is never closed
leaves no such offset. -/
def bodySearchStart? (s : Text) (h : Header) (stop : Nat) : Option Nat :=
  match h.kind, charOffset? '(' s h.stop stop with
  | .record, some open_ =>
    if (charOffset? '{' s h.stop stop).all (open_ < ·) then
      (Brackets.round.matchingClose? s open_).map (· + 1)
    else some h.stop
  | _, _ => some h.stop

/-- The offset of the brace that opens the body of a declaration. -/
def bodyOpen? (s : Text) (h : Header) (stop : Nat) : Option Nat :=
  (bodySearchStart? s h stop).bind fun pos => charOffset? '{' s pos stop

/-- The offset of the brace that closes a body, or of the last character of the range when the brace
is missing or lies beyond. -/
def bodyClose (s : Text) (open_ stop : Nat) : Nat :=
  match Brackets.curly.matchingClose? s open_ with
  | some close => if close < stop then close else stop - 1
  | none => stop - 1

/-! ## Bounds -/

theorem charOffset?_bounds {c : Char} {s : Text} {pos stop k : Nat}
    (h : charOffset? c s pos stop = some k) : pos ≤ k ∧ k < stop := by
  obtain ⟨j, hj, rfl⟩ := Option.map_eq_some_iff.1 h
  have := List.findIdx?_eq_some_iff_findIdx_eq.1 hj
  simp only [slice, List.length_drop, List.length_take] at this
  omega

theorem le_bodySearchStart? {s : Text} {h : Header} {stop k : Nat}
    (hk : bodySearchStart? s h stop = some k) : h.stop ≤ k := by
  unfold bodySearchStart? at hk
  split at hk
  · rename_i o _ ho
    split at hk
    · obtain ⟨j, hj, rfl⟩ := Option.map_eq_some_iff.1 hk
      have h₁ := (charOffset?_bounds ho).1
      have h₂ := Brackets.le_matchingClose? hj
      omega
    · simp only [Option.some.injEq] at hk
      omega
  · simp only [Option.some.injEq] at hk
    omega

/-- A body opens behind its header and inside the range. -/
theorem bodyOpen?_bounds {s : Text} {h : Header} {stop k : Nat}
    (hk : bodyOpen? s h stop = some k) : h.stop ≤ k ∧ k < stop := by
  obtain ⟨pos, hp, hc⟩ := Option.bind_eq_some_iff.1 hk
  have h₁ := le_bodySearchStart? hp
  have h₂ := charOffset?_bounds hc
  omega

/-- A body ends where it opens or later, inside the range. -/
theorem bodyClose_bounds {s : Text} {open_ stop : Nat} (h : open_ < stop) :
    open_ ≤ bodyClose s open_ stop ∧ bodyClose s open_ stop < stop := by
  unfold bodyClose
  split
  · rename_i c hc
    have := Brackets.le_matchingClose? hc
    split <;> omega
  · omega

/-! ## The declarations -/

/-- The declarations at brace depth zero between `pos` and `stop`, where depth counts from `start`,
each followed by the ones in its body. A declaration without a body takes the rest of the range. -/
def sitesFrom (s : Text) (start pos stop : Nat) (nested : Bool) : List Site :=
  match _h : Header.find? s pos stop with
  | none => []
  | some hd =>
    if depthAt s start hd.start ≠ 0 then sitesFrom s start hd.stop stop nested
    else match _ho : bodyOpen? s hd stop with
      | none => [⟨hd, stop, [], nested⟩]
      | some open_ =>
        let close := bodyClose s open_ stop
        let constructors :=
          if hd.kind = .plainClass then constructorsIn s hd.name (open_ + 1) close else []
        ⟨hd, close + 1, constructors, nested⟩ ::
          (sitesFrom s (open_ + 1) (open_ + 1) close true ++
            sitesFrom s start (close + 1) stop nested)
termination_by stop - pos
decreasing_by
  · have := Header.find?_bounds _h
    omega
  · have h₁ := Header.find?_bounds _h
    have h₂ := bodyOpen?_bounds _ho
    have h₃ := bodyClose_bounds (s := s) h₂.2
    omega
  · have h₁ := Header.find?_bounds _h
    have h₂ := bodyOpen?_bounds _ho
    have h₃ := bodyClose_bounds (s := s) h₂.2
    omega

/-- The places of all declarations of a masked text. -/
def sites (s : Text) : List Site := sitesFrom s 0 0 s.length false

/-- The declaration at a place of the masked text `s`. -/
def Site.declaration (s : Text) (location : Option Text) (editable : Bool) (site : Site) :
    Declaration where
  name := site.header.name
  kind := site.header.kind
  source := slice s site.header.start site.stop
  editable
  constructors := site.constructors
  location
  nested := site.nested

/-- Every type declaration of a source text, a member type after the type that holds it. -/
def declarations (content : Text) (location : Option Text) (editable : Bool) : List Declaration :=
  (sites (mask content)).map (Site.declaration (mask content) location editable)

end RecordSkeleton.Java
