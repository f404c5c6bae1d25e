import Mathlib.Order.Bounds.Basic
import RecordSkeleton.Proofs.Bracket.Nesting

/-!
# The partner of a bracket

An opening bracket and the bracket that closes it enclose a text in which as many brackets open as close.

1. The brackets around a nested text close each other (`closes_nested`), so the one that is found closes
   the one it is searched for (`closes_of_matchingClose?`).
2. A bracket is closed at the first place where the text from it on is balanced (`Closes.isLeast`), hence
   at one place only.
3. None is found exactly when more brackets open than close up to every place (`matchingClose?_eq_none_iff`).
-/

namespace RecordSkeleton.Brackets

open Text

variable {b : Brackets} {s : Text} {i r : Nat}

/-! ## Brackets that close each other -/

/-- The bracket at offset `r` closes the one at offset `i`: from the one to the other as many brackets open
as close, and up to any place in front of that more open than close. -/
structure Closes (b : Brackets) (s : Text) (i r : Nat) : Prop where
  lt : i < r
  closing : s[r]? = some b.closing
  depth_eq : b.depth (slice s i (r + 1)) = 0
  depth_pos : ∀ p, p <+: slice s i (r + 1) → p ≠ [] → p ≠ slice s i (r + 1) → 0 < b.depth p

/-- A bracket is closed where the text from it on is balanced for the first time. -/
theorem Closes.isLeast (h : b.Closes s i r) :
    IsLeast {j | i ≤ j ∧ j < s.length ∧ b.depth (slice s i (j + 1)) = 0} r := by
  obtain ⟨hr, -⟩ := List.getElem?_eq_some_iff.1 h.closing
  refine ⟨⟨Nat.le_of_lt h.lt, hr, h.depth_eq⟩, ?_⟩
  rintro j ⟨hi, hj, hdepth⟩
  by_contra hlt
  -- A balanced text that ends earlier is one of those in which more brackets open than close.
  have hprefix : slice s i (j + 1) <+: slice s i (r + 1) := List.take_prefix_take_left (by omega)
  have hlength : (slice s i (j + 1)).length = j + 1 - i := length_slice hj
  have hpos : 0 < b.depth (slice s i (j + 1)) := by
    refine h.depth_pos _ hprefix (fun hnil => ?_) fun hwhole => ?_
    · rw [hnil, List.length_nil] at hlength
      omega
    · rw [hwhole, length_slice hr] at hlength
      omega
  omega

section Depth

variable (hb : b.opening ≠ b.closing)

include hb

theorem depth_opening_cons (t : Text) : b.depth (b.opening :: t) = 1 + balance b.weight t := by
  rw [depth_eq_balance hb, balance_cons, weight, if_pos rfl]

/-- Up to every place behind an opening bracket more brackets open than close exactly when the depth stays
positive there. -/
theorem forall_prefix_opening {t : Text} :
    (∀ p, p <+: b.opening :: t → p ≠ [] → 0 < b.depth p) ↔
      ∀ q, q <+: t → 1 ≤ 1 + balance b.weight q := by
  refine ⟨fun h q hq => ?_, fun h p hp hne => ?_⟩
  · rw [← depth_opening_cons hb]
    exact h (b.opening :: q) (List.cons_prefix_cons.2 ⟨rfl, hq⟩) (List.cons_ne_nil _ _)
  · obtain rfl | ⟨q, rfl, hq⟩ := List.prefix_cons_iff.1 hp
    · exact absurd rfl hne
    · rw [depth_opening_cons hb]
      exact h q hq

/-- The brackets around a nested text close each other. -/
theorem closes_nested {l : Text} (hl : Nested b.weight l) (u t : Text) :
    b.Closes (u ++ b.opening :: (l ++ b.closing :: t)) u.length (u.length + (l.length + 1)) := by
  have hslice : slice (u ++ b.opening :: (l ++ b.closing :: t)) u.length
      (u.length + (l.length + 1) + 1) = b.opening :: l ++ [b.closing] := by
    refine slice_eq (u := u) (w := t) ?_ rfl ?_
    · simp
    · simp only [List.length_append, List.length_cons, List.length_nil]
      omega
  have hpos := (forall_prefix_opening hb).2 fun q hq => by
    have := hl.nonneg q hq
    omega
  refine ⟨by omega, ?_, ?_, fun p hp hne hwhole => ?_⟩
  · rw [List.getElem?_append_right (Nat.le_add_right _ _), Nat.add_sub_cancel_left,
      List.getElem?_cons_succ, List.getElem?_append_right (Nat.le_refl _), Nat.sub_self]
    rfl
  · rw [hslice, List.cons_append, depth_opening_cons hb, balance_append, hl.balance_eq, balance_cons,
      weight, if_neg hb.symm, if_pos rfl]
    rfl
  · rw [hslice] at hp hwhole
    exact hpos p ((List.prefix_concat_iff.1 hp).resolve_left hwhole) hne

end Depth

/-! ## The bracket that is found -/

/-- The search starts behind the opening bracket, at depth one. -/
theorem matchingClose?_eq (hi : s[i]? = some b.opening) :
    b.matchingClose? s i = (b.closeOffset? 1 (s.drop (i + 1))).map (i + 1 + ·) := by
  obtain ⟨hlt, hget⟩ := List.getElem?_eq_some_iff.1 hi
  unfold matchingClose?
  rw [List.drop_eq_getElem_cons hlt, hget, closeOffset?, if_pos rfl, Int.zero_add, Option.map_map]
  congr 1
  funext k
  simp only [Function.comp]
  omega

theorem closes_of_matchingClose? (hb : b.opening ≠ b.closing) (hi : s[i]? = some b.opening)
    (h : b.matchingClose? s i = some r) : b.Closes s i r := by
  rw [matchingClose?_eq hi] at h
  obtain ⟨k, hk, rfl⟩ := Option.map_eq_some_iff.1 h
  obtain ⟨l, t, hdrop, rfl, hl⟩ := nested_of_closeOffset? hk
  obtain ⟨hlt, -⟩ := List.getElem?_eq_some_iff.1 hi
  have hcloses := closes_nested hb hl (s.take i) t
  rwa [← hdrop, take_append_cons_drop hi, List.length_take, Nat.min_eq_left (Nat.le_of_lt hlt),
    Nat.add_comm l.length, ← Nat.add_assoc] at hcloses

theorem matchingClose?_eq_none_iff (hb : b.opening ≠ b.closing) (hi : s[i]? = some b.opening) :
    b.matchingClose? s i = none ↔ ∀ p, p <+: s.drop i → p ≠ [] → 0 < b.depth p := by
  obtain ⟨hlt, hget⟩ := List.getElem?_eq_some_iff.1 hi
  rw [matchingClose?_eq hi, Option.map_eq_none_iff, closeOffset?_eq_none_iff (Int.le_refl 1),
    List.drop_eq_getElem_cons hlt, hget, forall_prefix_opening hb]

/-- A bracket that is closed is found: the text up to it is balanced, and no other bracket closes the same
one. -/
theorem Closes.matchingClose?_eq (hb : b.opening ≠ b.closing) (hi : s[i]? = some b.opening)
    (h : b.Closes s i r) : b.matchingClose? s i = some r := by
  obtain ⟨hr, -⟩ := List.getElem?_eq_some_iff.1 h.closing
  have hprefix : slice s i (r + 1) <+: s.drop i := List.take_prefix _ _
  have hne : slice s i (r + 1) ≠ [] := by
    have := h.lt
    rw [← List.length_pos_iff, length_slice hr]
    omega
  cases hfound : b.matchingClose? s i with
  | some r' => rw [(closes_of_matchingClose? hb hi hfound).isLeast.unique h.isLeast]
  | none =>
    have hpos := (matchingClose?_eq_none_iff hb hi).1 hfound _ hprefix hne
    exact absurd h.depth_eq (Int.ne_of_gt hpos)

/-- The bracket that is found is the one that closes the bracket at the given offset. It is the first at
which as many brackets have opened as have closed from there on. None is found exactly when more open than
close up to every place. -/
theorem matchingClose?_closes (hb : b.opening ≠ b.closing) (hi : s[i]? = some b.opening) :
    (∀ r, b.matchingClose? s i = some r ↔ b.Closes s i r) ∧
      (∀ r, b.matchingClose? s i = some r →
        IsLeast {j | i ≤ j ∧ j < s.length ∧ b.depth (slice s i (j + 1)) = 0} r) ∧
      (b.matchingClose? s i = none ↔ ∀ p, p <+: s.drop i → p ≠ [] → 0 < b.depth p) := by
  have hcloses : ∀ r, b.matchingClose? s i = some r ↔ b.Closes s i r := fun r =>
    ⟨closes_of_matchingClose? hb hi, fun hr => hr.matchingClose?_eq hb hi⟩
  exact ⟨hcloses, fun r hr => ((hcloses r).1 hr).isLeast, matchingClose?_eq_none_iff hb hi⟩

/-- A call with another call and a brace in its arguments, and behind it a bracket that is never closed. -/
def nestedCalls : Text := "x = f(g(a), '\x7b') + (b".toList

theorem matchingClose?_closes_calls :
    round.opening ≠ round.closing ∧ nestedCalls[5]? = some round.opening ∧
      nestedCalls[19]? = some round.opening ∧ round.matchingClose? nestedCalls 5 = some 15 ∧
      round.Closes nestedCalls 5 15 ∧
      ∀ p, p <+: nestedCalls.drop 19 → p ≠ [] → 0 < round.depth p := by
  have hclosed := matchingClose?_closes (b := round) (s := nestedCalls) (i := 5) (by decide) (by decide)
  have hunclosed := matchingClose?_closes (b := round) (s := nestedCalls) (i := 19) (by decide) (by decide)
  have hfound : round.matchingClose? nestedCalls 5 = some 15 := by decide
  exact ⟨by decide, by decide, by decide, hfound, (hclosed.1 15).1 hfound, hunclosed.2.2.1 (by decide)⟩

end RecordSkeleton.Brackets
