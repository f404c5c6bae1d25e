import RecordSkeleton.Text.Basic

/-!
# Brackets

Lists are located and cut by counting brackets, without a parse tree. A pair of brackets has a
running depth, one more after each opening and one less after each closing bracket.

1. `matchingClose?` finds the bracket at which the depth, counted from a given offset, returns to
   zero.
2. `splitTopLevel` cuts at the commas where one counter shared by several families of brackets
   stands at zero. The counter is not clamped: a stray closing bracket takes it below zero.
-/

namespace RecordSkeleton

/-- An opening and a closing bracket. -/
structure Brackets where
  /-- The bracket that adds one to the depth. -/
  opening : Char
  /-- The bracket that takes one from the depth. -/
  closing : Char
  deriving DecidableEq, Repr

namespace Brackets

/-- The round brackets of argument and parameter lists. -/
def round : Brackets := ⟨'(', ')'⟩

/-- The curly brackets of bodies. -/
def curly : Brackets := ⟨'{', '}'⟩

/-- The number of opening brackets of a text less the number of its closing ones. -/
def depth (b : Brackets) (s : Text) : Int := s.count b.opening - s.count b.closing

/-! ## The matching bracket -/

/-- The offset of the closing bracket at which the running depth, `d` at the front, gets to zero. -/
def closeOffset? (b : Brackets) : Int → Text → Option Nat
  | _, [] => none
  | d, c :: r =>
    if c = b.opening then (closeOffset? b (d + 1) r).map (· + 1)
    else if c = b.closing then
      if d = 1 then some 0 else (closeOffset? b (d - 1) r).map (· + 1)
    else (closeOffset? b d r).map (· + 1)

/-- The offset in `s` of the bracket that closes the one at offset `i`. -/
def matchingClose? (b : Brackets) (s : Text) (i : Nat) : Option Nat :=
  (b.closeOffset? 0 (s.drop i)).map (i + ·)

theorem closeOffset?_lt {b : Brackets} {d : Int} {s : Text} {k : Nat}
    (h : b.closeOffset? d s = some k) : k < s.length := by
  induction s generalizing d k with
  | nil => simp [closeOffset?] at h
  | cons c r ih =>
    rw [closeOffset?] at h
    split at h
    · obtain ⟨j, hj, rfl⟩ := Option.map_eq_some_iff.1 h
      simpa using ih hj
    · split at h
      · split at h
        · simp only [Option.some.injEq] at h
          simp [← h]
        · obtain ⟨j, hj, rfl⟩ := Option.map_eq_some_iff.1 h
          simpa using ih hj
      · obtain ⟨j, hj, rfl⟩ := Option.map_eq_some_iff.1 h
        simpa using ih hj

/-- The matching bracket does not stand before the one it closes. -/
theorem le_matchingClose? {b : Brackets} {s : Text} {i k : Nat}
    (h : b.matchingClose? s i = some k) : i ≤ k := by
  obtain ⟨j, _, rfl⟩ := Option.map_eq_some_iff.1 h
  omega

end Brackets

/-! ## Cutting at commas -/

/-- The families of brackets that one depth counter is shared by. -/
structure BracketFamilies where
  /-- The brackets that add one to the depth. -/
  openers : Text
  /-- The brackets that take one from the depth. -/
  closers : Text

namespace BracketFamilies

/-- All four families, as they occur in a list of declarations. -/
def all : BracketFamilies := ⟨['(', '<', '{', '['], [')', '>', '}', ']']⟩

/-- The angle brackets of type arguments. -/
def angle : BracketFamilies := ⟨['<'], ['>']⟩

/-- The segment up to the first comma at depth zero and the segments after it, where `d` is the
depth at the front. -/
def cut (f : BracketFamilies) : Int → Text → Text × List Text
  | _, [] => ([], [])
  | d, c :: r =>
    if c ∈ f.openers then ((c :: (cut f (d + 1) r).1), (cut f (d + 1) r).2)
    else if c ∈ f.closers then ((c :: (cut f (d - 1) r).1), (cut f (d - 1) r).2)
    else if c = ',' ∧ d = 0 then ([], (cut f d r).1 :: (cut f d r).2)
    else ((c :: (cut f d r).1), (cut f d r).2)

/-- The segments of a text between its commas at depth zero, as they stand. -/
def segments (f : BracketFamilies) (s : Text) : List Text := (f.cut 0 s).1 :: (f.cut 0 s).2

/-- Drops the last part when it is empty. -/
def dropEmptyLast (parts : List Text) : List Text :=
  if parts.getLast? = some [] then parts.dropLast else parts

/-- The trimmed segments between the commas at depth zero. Blank inner segments stay, and a blank
last one is dropped. -/
def splitTopLevel (f : BracketFamilies) (s : Text) : List Text :=
  dropEmptyLast ((f.segments s).map Text.trim)

theorem length_cut_le (f : BracketFamilies) (d : Int) (s : Text) :
    (f.cut d s).1.length ≤ s.length ∧ ∀ p ∈ (f.cut d s).2, p.length ≤ s.length := by
  induction s generalizing d with
  | nil => simp [cut]
  | cons c r ih =>
    have step (e : Int) : (f.cut e r).1.length + 1 ≤ (c :: r).length ∧
        ∀ p ∈ (f.cut e r).2, p.length ≤ (c :: r).length :=
      ⟨Nat.succ_le_succ (ih e).1, fun p hp => Nat.le_succ_of_le ((ih e).2 p hp)⟩
    rw [cut]
    split
    · exact step _
    · split
      · exact step _
      · split
        · refine ⟨Nat.zero_le _, fun p hp => ?_⟩
          rcases List.mem_cons.1 hp with rfl | hp
          · exact Nat.le_of_succ_le (step d).1
          · exact (step d).2 p hp
        · exact step _

theorem mem_of_mem_dropEmptyLast {p : Text} {parts : List Text} (h : p ∈ dropEmptyLast parts) :
    p ∈ parts := by
  rw [dropEmptyLast] at h
  split at h
  · exact List.dropLast_subset _ h
  · exact h

/-- No part of a text is longer than the text. -/
theorem length_le_of_mem_splitTopLevel {f : BracketFamilies} {s p : Text}
    (h : p ∈ f.splitTopLevel s) : p.length ≤ s.length := by
  obtain ⟨q, hq, rfl⟩ := List.mem_map.1 (mem_of_mem_dropEmptyLast h)
  refine Nat.le_trans (Text.length_trim_le q) ?_
  rcases List.mem_cons.1 hq with rfl | hq
  · exact (f.length_cut_le 0 s).1
  · exact (f.length_cut_le 0 s).2 q hq

end BracketFamilies

end RecordSkeleton
