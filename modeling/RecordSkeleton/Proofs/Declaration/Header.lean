import RecordSkeleton.Declaration
import RecordSkeleton.Proofs.Bracket.Nesting

/-!
# The header and the list of a record

1. A header at the front of a text is taken exactly when its name ends at a word boundary
   (`headerLength?_eq`).
2. What stands between the first brackets of a text is the text between the first opening bracket and
   the bracket that closes it (`listInterior?_eq_some_iff`).
-/

namespace RecordSkeleton.Declaration

open Text

variable {name : Text}

/-! ## The header -/

/-- A name that starts with no blank does not start inside a run of blanks. -/
theorem not_prefix_drop_blanks {g x : Text} (hg : AllBlank g) (hname : name ≠ [])
    (hhead : ∀ c ∈ name.head?, isBlank c = false) {j : Nat} (hj : j < g.length) :
    ¬ name <+: (g ++ x).drop j := by
  intro h
  obtain ⟨c, t, rfl⟩ := List.exists_cons_of_ne_nil hname
  rw [List.drop_append_of_le_length (Nat.le_of_lt hj), List.drop_eq_getElem_cons hj,
    List.cons_append, List.cons_prefix_cons] at h
  have hblank := hg g[j] (List.getElem_mem hj)
  rw [← h.1, hhead c rfl] at hblank
  cases hblank

/-- The keyword, blanks and a name at the front of a text are a header if a word boundary is behind the
name, and else there is none. -/
theorem headerLength?_eq {g r : Text} (hg : AllBlank g) (hne : g ≠ []) (hname : name ≠ [])
    (hhead : ∀ c ∈ name.head?, isBlank c = false) :
    headerLength? name ("record".toList ++ (g ++ (name ++ r))) =
      if isWordBoundary name.getLast? r.head? then some (6 + g.length + name.length) else none := by
  have hblanks : (g ++ (name ++ r)).takeWhile isBlank = g := by
    refine takeWhile_append_stop hg ?_
    obtain ⟨c, t, rfl⟩ := List.exists_cons_of_ne_nil hname
    exact hhead
  have hkeyword : "record".toList.isPrefixOf ("record".toList ++ (g ++ (name ++ r))) = true :=
    List.isPrefixOf_iff_prefix.2 (List.prefix_append _ _)
  have hprefix : name.isPrefixOf (name ++ r) = true :=
    List.isPrefixOf_iff_prefix.2 (List.prefix_append name r)
  have hlast : (g ++ name).getLast? = name.getLast? := by
    obtain ⟨c, hc⟩ := Option.isSome_iff_exists.1 (List.getLast?_isSome.2 hname)
    rw [List.getLast?_append, hc]
    rfl
  obtain ⟨k, hk⟩ : ∃ k, g.length = k + 1 :=
    Nat.exists_eq_succ_of_ne_zero fun e => hne (List.length_eq_zero_iff.1 e)
  unfold headerLength?
  simp only [hkeyword, if_true, List.drop_left, hblanks]
  by_cases hboundary : isWordBoundary name.getLast? r.head? = true
  · -- The longest run of blanks is tried first, and the name stands behind it.
    rw [if_pos hboundary, hk, List.range_succ, List.reverse_append, List.reverse_singleton,
      List.singleton_append, List.map_cons, ← hk, List.find?_cons_of_pos]
    · rfl
    · rw [List.take_left, List.drop_left, List.drop_left, hlast, hprefix, hboundary]
      rfl
  · rw [if_neg hboundary, List.find?_eq_none.2]
    · rfl
    · intro n hn hends
      simp only [List.mem_map, List.mem_reverse, List.mem_range] at hn
      obtain ⟨j, hj, rfl⟩ := hn
      rw [Bool.and_eq_true] at hends
      by_cases hall : j + 1 = g.length
      · rw [hall, List.take_left, List.drop_left, List.drop_left, hlast] at hends
        exact hboundary hends.2
      · exact not_prefix_drop_blanks hg hname hhead (by omega)
          (List.isPrefixOf_iff_prefix.1 hends.1)

/-- A header at the front is the first one. -/
theorem afterHeader?_cons_of_some {before : Option Char} {c : Char} {x : Text} {n : Nat}
    (hboundary : isWordBoundary before (some c) = true) (h : headerLength? name (c :: x) = some n) :
    afterHeader? name before (c :: x) = some ((c :: x).drop n) := by
  rw [afterHeader?, if_pos hboundary, h]

/-- Where no header is at the front, the search goes on behind the first character. -/
theorem afterHeader?_cons_of_none {before : Option Char} {c : Char} {x : Text}
    (h : headerLength? name (c :: x) = none) :
    afterHeader? name before (c :: x) = afterHeader? name (some c) x := by
  rw [afterHeader?, h, ite_self]

section

variable {g r : Text} (hg : AllBlank g) (hne : g ≠ []) (hname : name ≠ [])
  (hhead : ∀ c ∈ name.head?, isBlank c = false)

include hg hne hname hhead

theorem afterHeader?_of_boundary (hboundary : isWordBoundary name.getLast? r.head? = true) :
    afterHeader? name none ("record".toList ++ (g ++ (name ++ r))) = some r := by
  have hlength := headerLength?_eq (r := r) hg hne hname hhead
  rw [if_pos hboundary] at hlength
  have hdrop : ("record".toList ++ (g ++ (name ++ r))).drop (6 + g.length + name.length) = r := by
    rw [← List.append_assoc g, ← List.append_assoc]
    refine List.drop_left' ?_
    simp only [List.length_append]
    exact (Nat.add_assoc _ _ _).symm
  calc afterHeader? name none ("record".toList ++ (g ++ (name ++ r)))
      = some (("record".toList ++ (g ++ (name ++ r))).drop (6 + g.length + name.length)) :=
        afterHeader?_cons_of_some (by decide) hlength
    _ = some r := congrArg some hdrop

theorem afterHeader?_of_not_boundary (hboundary : isWordBoundary name.getLast? r.head? = false) :
    afterHeader? name none ("record".toList ++ (g ++ (name ++ r))) =
      afterHeader? name (some 'r') ("ecord".toList ++ (g ++ (name ++ r))) := by
  have hlength := headerLength?_eq (r := r) hg hne hname hhead
  rw [hboundary, if_neg Bool.false_ne_true] at hlength
  exact afterHeader?_cons_of_none hlength

end

/-! ## The list -/

/-- The text `l` stands between the first opening round bracket of `s` and the bracket that closes
it. -/
def FirstGroup (s l : Text) : Prop :=
  ∃ front back, s = front ++ '(' :: (l ++ ')' :: back) ∧ '(' ∉ front ∧ Nested Brackets.round.weight l

theorem not_mem_takeWhile_ne (c : Char) (s : Text) : c ∉ s.takeWhile (· != c) := by
  intro h
  have := List.all_eq_true.1 List.all_takeWhile c h
  simp at this

/-- The interior of the first brackets of a text. -/
theorem listInterior?_eq {u l r : Text} (hu : '(' ∉ u) (hl : Nested Brackets.round.weight l) :
    listInterior? (u ++ '(' :: (l ++ ')' :: r)) = some (trim l) := by
  have hu' : ∀ c ∈ u, (c != '(') = true := fun c hc => bne_iff_ne.2 fun e => hu (e ▸ hc)
  have hclose : Brackets.round.closeOffset? 1 (l ++ ')' :: r) = some l.length :=
    Brackets.closeOffset?_closing (by decide) hl r
  unfold listInterior?
  rw [dropWhile_append_stop hu' (by rintro c ⟨⟩; decide)]
  simp only [hclose, Option.map_some, List.take_left]

theorem listInterior?_eq_some_iff {s t : Text} :
    listInterior? s = some t ↔ ∃ l, FirstGroup s l ∧ t = trim l := by
  constructor
  · intro h
    unfold listInterior? at h
    split at h
    · cases h
    · rename_i c r hr
      obtain ⟨k, hk, rfl⟩ := Option.map_eq_some_iff.1 h
      obtain ⟨l, back, rfl, rfl, hl⟩ := Brackets.nested_of_closeOffset? hk
      have hc : c = '(' := by
        have := List.head?_dropWhile_not (· != '(') s
        rw [hr] at this
        simpa using this
      refine ⟨l, ⟨s.takeWhile (· != '('), back, ?_, not_mem_takeWhile_ne '(' s, hl⟩, ?_⟩
      · conv => lhs; rw [← List.takeWhile_append_dropWhile (p := (· != '(')) (l := s), hr, hc]
        rfl
      · rw [List.take_left]
  · rintro ⟨l, ⟨front, back, rfl, hfront, hl⟩, rfl⟩
    exact listInterior?_eq hfront hl

end RecordSkeleton.Declaration
