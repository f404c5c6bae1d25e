import Mathlib.Order.Bounds.Basic
import RecordSkeleton.Proofs.Java.ConstructorPrefix

/-!
# The end of the member in front

The search for the end of a member reads a text backwards. It counts the round brackets from the back,
while a reader of the text counts them from the front.

1. The search stops at the first place where it may: a character that ends a member, with as many brackets
   opened as closed on the way (`isLeast_of_backwardBoundary?`, `not_stopsAt`).
2. In a text in which as many round brackets open as close, the depth of the text behind a place mirrors
   that of the text in front of it, so the places where the search may stop are the ends of members of the
   forward reading (`stopsAt_reverse_iff`).
3. So what is found is the last of these ends (`memberBoundary?_lastEnd`).
-/

namespace RecordSkeleton.Java

open Text

/-! ## Where the search stops -/

section Backward

variable {d : Int} {x : Text} {k : Nat}

theorem isLeast_of_backwardBoundary? (h : backwardBoundary? d x = some k) :
    IsLeast {k | StopsAt d x k} k := by
  induction x generalizing d k with
  | nil => cases h
  | cons c x ih =>
    rw [backwardBoundary?_cons] at h
    split_ifs at h with hstop
    · cases h
      exact ⟨stopsAt_zero.2 hstop, fun m _ => Nat.zero_le m⟩
    · obtain ⟨j, hj, rfl⟩ := Option.map_eq_some_iff.1 h
      obtain ⟨hmem, hleast⟩ := ih hj
      refine ⟨stopsAt_succ.2 hmem, fun m hm => ?_⟩
      cases m with
      | zero => exact absurd (stopsAt_zero.1 hm) hstop
      | succ m => exact Nat.succ_le_succ (hleast (stopsAt_succ.1 hm))

theorem not_stopsAt (h : backwardBoundary? d x = none) (k : Nat) : ¬ StopsAt d x k := by
  induction x generalizing d k with
  | nil => exact fun hk => absurd hk.lt_length (Nat.not_lt_zero k)
  | cons c x ih =>
    rw [backwardBoundary?_cons] at h
    split_ifs at h with hstop
    cases k with
    | zero => exact fun hk => hstop (stopsAt_zero.1 hk)
    | succ k => exact fun hk => ih (Option.map_eq_none_iff.1 h) k (stopsAt_succ.1 hk)

end Backward

/-! ## The forward reading -/

/-- Read from `start` on, a member ends at offset `i` in front of `pos`: there is a character that ends a
member, and as many round brackets have opened as have closed. -/
structure EndsAt (s : Text) (start pos i : Nat) : Prop where
  le : start ≤ i
  lt : i < pos
  ends : ∃ c ∈ s[i]?, endsMember c = true
  depth_eq : Brackets.round.depth (slice s start i) = 0

section Forward

variable {s : Text} {start pos i : Nat} (hpos : pos ≤ s.length)
  (hround : Brackets.round.depth (slice s start pos) = 0)

include hpos hround

/-- Reading backwards, the search may stop exactly at the ends of members of the forward reading. -/
theorem stopsAt_reverse_iff (hi : start ≤ i) (hlt : i < pos) :
    StopsAt 0 (slice s start pos).reverse (pos - 1 - i) ↔ EndsAt s start pos i := by
  obtain ⟨c, hc⟩ : ∃ c, s[i]? = some c := ⟨_, List.getElem?_eq_getElem (Nat.lt_of_lt_of_le hlt hpos)⟩
  have hsplit := slice_split hc hi hlt
  have hreverse : (slice s start pos).reverse =
      (slice s (i + 1) pos).reverse ++ c :: (slice s start i).reverse := by
    rw [hsplit, List.reverse_append, List.reverse_cons, List.append_assoc]
    rfl
  have hlength : pos - 1 - i = (slice s (i + 1) pos).reverse.length := by
    rw [List.length_reverse, length_slice hpos]
    omega
  -- The weights in front of the character, of it and behind it add up to zero. That of an end of a member
  -- is zero, so the other two are zero together.
  rw [Brackets.depth_eq_balance (by decide), hsplit, balance_append, balance_cons] at hround
  unfold StopsAt
  rw [hreverse, hlength, List.take_left, List.getElem?_append_right (Nat.le_refl _), Nat.sub_self,
    List.getElem?_cons_zero, balance_reverse]
  constructor
  · rintro ⟨⟨_, ⟨⟩, hends⟩, hbehind⟩
    refine ⟨hi, hlt, ⟨c, hc, hends⟩, ?_⟩
    rw [weight_round_of_endsMember hends] at hround
    rw [Brackets.depth_eq_balance (by decide)]
    omega
  · rintro ⟨-, -, ⟨e, he, hends⟩, hfront⟩
    obtain rfl : c = e := Option.some.inj (hc.symm.trans he)
    rw [weight_round_of_endsMember hends] at hround
    rw [Brackets.depth_eq_balance (by decide)] at hfront
    exact ⟨⟨c, rfl, hends⟩, by omega⟩

theorem isGreatest_of_memberBoundary? (h : memberBoundary? s start pos = some i) :
    IsGreatest {i | EndsAt s start pos i} i := by
  obtain ⟨k, hk, rfl⟩ := Option.map_eq_some_iff.1 h
  obtain ⟨hstop, hleast⟩ := isLeast_of_backwardBoundary? hk
  have hlt : k < pos - start := by
    have := StopsAt.lt_length hstop
    rwa [List.length_reverse, length_slice hpos] at this
  refine ⟨?_, fun j hj => ?_⟩
  · refine (stopsAt_reverse_iff hpos hround (by omega) (by omega)).1 ?_
    rwa [show pos - 1 - (pos - 1 - k) = k by omega]
  · have := hleast ((stopsAt_reverse_iff hpos hround hj.le hj.lt).2 hj)
    have := hj.lt
    omega

theorem not_endsAt (h : memberBoundary? s start pos = none) (i : Nat) : ¬ EndsAt s start pos i :=
  fun hi => not_stopsAt (Option.map_eq_none_iff.1 h) _
    ((stopsAt_reverse_iff hpos hround hi.le hi.lt).2 hi)

/-- When as many round brackets open as close between `start` and `pos`, the end of the member in front of
`pos` is the last one of the forward reading, and there is none exactly when that has none. So the text of
the next member starts at the first offset from `start` on that has all of these ends in front of it. -/
theorem memberBoundary?_lastEnd :
    (∀ i, memberBoundary? s start pos = some i ↔ IsGreatest {i | EndsAt s start pos i} i) ∧
      (memberBoundary? s start pos = none ↔ ∀ i, ¬ EndsAt s start pos i) ∧
      IsLeast {k | start ≤ k ∧ ∀ i, EndsAt s start pos i → i < k}
        (((memberBoundary? s start pos).map (· + 1)).getD start) := by
  cases hfound : memberBoundary? s start pos with
  | none =>
    have hnone := not_endsAt hpos hround hfound
    refine ⟨fun i => ⟨fun h => (nomatch h), fun h => absurd h.1 (hnone i)⟩,
      ⟨fun _ => hnone, fun _ => rfl⟩, ?_⟩
    exact ⟨⟨Nat.le_refl start, fun i hi => absurd hi (hnone i)⟩, fun k hk => hk.1⟩
  | some j =>
    have hgreatest := isGreatest_of_memberBoundary? hpos hround hfound
    refine ⟨fun i => ?_, ⟨fun h => (nomatch h), fun h => absurd hgreatest.1 (h j)⟩, ?_⟩
    · rw [Option.some.injEq]
      exact ⟨fun h => h ▸ hgreatest, fun h => hgreatest.unique h⟩
    · refine ⟨⟨Nat.le_succ_of_le hgreatest.1.le, fun i hi => Nat.lt_succ_of_le (hgreatest.2 hi)⟩, ?_⟩
      exact fun k hk => hk.2 j hgreatest.1

end Forward

/-- A class whose constructor has a field in front of it and braces in the arguments of its marker. -/
def namesSource : Text :=
  "class P \x7b int[] a = \x7b1\x7d; @Names(\x7b\"a\"\x7d) P(int a) \x7b\x7d \x7d".toList

/-- In front of the constructor the field ends last. Behind the field nothing ends. -/
theorem memberBoundary?_lastEnd_names :
    39 ≤ namesSource.length ∧ Brackets.round.depth (slice namesSource 9 39) = 0 ∧
      Brackets.round.depth (slice namesSource 24 39) = 0 ∧
      memberBoundary? namesSource 9 39 = some 23 ∧ IsGreatest {i | EndsAt namesSource 9 39 i} 23 ∧
      memberBoundary? namesSource 24 39 = none ∧ ∀ i, ¬ EndsAt namesSource 24 39 i := by
  have hpos : 39 ≤ namesSource.length := by decide
  have hbody : Brackets.round.depth (slice namesSource 9 39) = 0 := by decide
  have hbehind : Brackets.round.depth (slice namesSource 24 39) = 0 := by decide
  have hfound : memberBoundary? namesSource 9 39 = some 23 := by decide
  have hnone : memberBoundary? namesSource 24 39 = none := by decide
  exact ⟨hpos, hbody, hbehind, hfound, ((memberBoundary?_lastEnd hpos hbody).1 23).1 hfound, hnone,
    (memberBoundary?_lastEnd hpos hbehind).2.1.1 hnone⟩

end RecordSkeleton.Java
