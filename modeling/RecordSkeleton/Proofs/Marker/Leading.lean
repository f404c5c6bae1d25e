import RecordSkeleton.Proofs.Marker.Peeling

/-!
# The leading markers of a text

Markers are peeled off round by round, each round one marker with its arguments and the blanks behind it.

1. The rounds are as many as the names that come off, and at most as many as there are `@` in the text
   (`peels_split`, `length_names_le`).
2. What is left is a suffix of the text (`split_suffix`) that starts with neither a blank nor a marker
   (`head_split`), so peeling it again changes nothing.
3. Of a text behind markers these markers come off, and no others (`split_peels`).
-/

namespace RecordSkeleton.Marker

open Text

/-! ## Rounds -/

/-- One round: the name of the marker in front, and the text behind it. Arguments that are never closed
take the rest of the text. -/
def peel? : Text → Option (Text × Text)
  | '@' :: r =>
    some (r.takeWhile isNameChar,
      ((afterArguments? (r.dropWhile isNameChar)).map trimLeft).getD [])
  | _ => none

/-- After `n` rounds on the text `s` the names have come off, and no marker is in front of the rest. -/
inductive Peels : Nat → Text → List Text → Text → Prop
  | done {s : Text} (h : peel? s = none) : Peels 0 s [] s
  | round {n : Nat} {s name t rest : Text} {names : List Text} (h : peel? s = some (name, t))
    (ht : Peels n t names rest) : Peels (n + 1) s (name :: names) rest

theorem peel?_eq_none {s : Text} (h : s.head? ≠ some '@') : peel? s = none := by
  unfold peel?
  split
  · exact absurd rfl h
  · rfl

/-- The peeling goes on for one round for each name. -/
theorem peels_split (s : Text) : Peels (split s).1.length (trimLeft s) (split s).1 (split s).2 := by
  fun_induction split s with
  | case1 s r h ha =>
    rw [h]
    refine .round ?_ (.done rfl)
    rw [peel?, ha]
    rfl
  | case2 s r h t ha ih =>
    rw [h]
    refine .round ?_ ih
    rw [peel?, ha]
    rfl
  | case3 s h =>
    refine .done (peel?_eq_none fun hhead => ?_)
    obtain ⟨r, hr⟩ := List.head?_eq_some_iff.1 hhead
    exact h r hr

/-! ## What is left -/

theorem suffix_of_afterArguments? {s t : Text} (h : afterArguments? s = some t) : t <:+ s := by
  unfold afterArguments? at h
  split at h
  · obtain ⟨k, -, rfl⟩ := Option.map_eq_some_iff.1 h
    exact (List.drop_suffix (k + 1) _).trans (List.suffix_cons _ _)
  · cases h
    exact List.suffix_refl _

theorem afterArguments?_cases {s t : Text} (h : afterArguments? s = some t) :
    (∃ a, Nested Brackets.round.weight a ∧ s = '(' :: (a ++ ')' :: t)) ∨
      s.head? ≠ some '(' ∧ t = s := by
  unfold afterArguments? at h
  split at h
  · rename_i r
    obtain ⟨k, hk, rfl⟩ := Option.map_eq_some_iff.1 h
    obtain ⟨a, t, rfl, rfl, ha⟩ := Brackets.nested_of_closeOffset? hk
    refine .inl ⟨a, ha, ?_⟩
    rw [← List.drop_drop, List.drop_left]
    rfl
  · rename_i hopen
    cases h
    refine .inr ⟨fun hhead => ?_, rfl⟩
    obtain ⟨r, rfl⟩ := List.head?_eq_some_iff.1 hhead
    exact hopen r rfl

/-- Arguments are never closed when none of their prefixes closes more brackets than it opens. -/
theorem afterArguments?_eq_none_iff {s : Text} :
    afterArguments? s = none ↔
      ∃ a, s = '(' :: a ∧ ∀ p, p <+: a → 0 ≤ balance Brackets.round.weight p := by
  have hclose (a : Text) : Brackets.round.closeOffset? 1 a = none ↔
      ∀ p, p <+: a → 0 ≤ balance Brackets.round.weight p := by
    rw [Brackets.closeOffset?_eq_none_iff (Int.le_refl 1)]
    refine forall₂_congr fun p _ => ?_
    omega
  refine ⟨fun h => ?_, ?_⟩
  · unfold afterArguments? at h
    split at h
    · rename_i a
      exact ⟨a, rfl, (hclose a).1 (Option.map_eq_none_iff.1 h)⟩
    · cases h
  · rintro ⟨a, rfl, ha⟩
    rw [afterArguments?, (hclose a).2 ha]
    rfl

theorem split_unclosed {r : Text} (h : afterArguments? (r.dropWhile isNameChar) = none) :
    split ('@' :: r) = ([r.takeWhile isNameChar], []) := by
  rw [split_eq, trimLeft_of_head (by decide)]
  simp only [h]

theorem suffix_behind {r t : Text} (ha : afterArguments? (r.dropWhile isNameChar) = some t) :
    t <:+ r :=
  (suffix_of_afterArguments? ha).trans (List.dropWhile_suffix _)

theorem trimLeft_suffix (s : Text) : trimLeft s <:+ s := List.dropWhile_suffix _

theorem split_suffix (s : Text) : (split s).2 <:+ s := by
  fun_induction split s with
  | case1 s => exact List.nil_suffix
  | case2 s r h t ha ih =>
    have hr : '@' :: r <:+ s := h ▸ trimLeft_suffix s
    exact ih.trans ((suffix_behind ha).trans ((List.suffix_cons '@' r).trans hr))
  | case3 s h => exact trimLeft_suffix s

/-- Each marker that comes off has an `@` of its own. -/
theorem length_names_le (s : Text) : (split s).1.length ≤ s.count '@' := by
  have hcount : ∀ {s r : Text}, trimLeft s = '@' :: r → r.count '@' + 1 ≤ s.count '@' := by
    intro s r h
    have := (h ▸ trimLeft_suffix s : '@' :: r <:+ s).sublist.count_le '@'
    rwa [List.count_cons_self] at this
  fun_induction split s with
  | case1 s r h ha => exact Nat.le_trans (Nat.le_add_left 1 _) (hcount h)
  | case2 s r h t ha ih =>
    have ht := (suffix_behind ha).sublist.count_le '@'
    exact Nat.le_trans (Nat.succ_le_succ (Nat.le_trans ih ht)) (hcount h)
  | case3 s h => exact Nat.zero_le _

/-- What is left starts with neither a blank nor a marker. -/
theorem head_split (s : Text) : ∀ c ∈ (split s).2.head?, isBlank c = false ∧ c ≠ '@' := by
  fun_induction split s with
  | case1 s =>
    intro c hc
    cases hc
  | case2 s r h t ha ih => exact ih
  | case3 s h =>
    intro c hc
    refine ⟨head_trimLeft s c hc, ?_⟩
    rintro rfl
    obtain ⟨r, hr⟩ := List.head?_eq_some_iff.1 hc
    exact h r hr

/-- Of a text behind markers just these markers come off, in order, and the blanks in front of it. And of
any text the peeling is over after at most as many rounds as there are `@` in it. What is left is a suffix
of the text in front of which there is neither a blank nor a marker, and nothing more comes off it. -/
theorem split_peels :
    (∀ (t u : Text) (names : List Text), Marked t names u → (trimLeft t).head? ≠ some '@' →
      split u = (names, trimLeft t)) ∧
    ∀ s : Text,
      (∃ n ≤ s.count '@', Peels n (trimLeft s) (split s).1 (split s).2) ∧
      (split s).2 <:+ s ∧
      (∀ c ∈ (split s).2.head?, isBlank c = false ∧ c ≠ '@') ∧
      split (split s).2 = ([], (split s).2) := by
  refine ⟨fun t u names h ht => ?_, fun s => ?_⟩
  · rw [split_marked h, split_of_head ht, List.append_nil]
  · have hhead := head_split s
    refine ⟨⟨_, length_names_le s, peels_split s⟩, split_suffix s, hhead, ?_⟩
    cases hrest : (split s).2 with
    | nil =>
      rw [split_of_head (by decide)]
      rfl
    | cons c r =>
      rw [hrest] at hhead
      obtain ⟨hblank, hc⟩ := hhead c rfl
      exact split_of_ne hblank hc r

/-- A marker without arguments, one with brackets in its arguments and nothing between it and the next
one, and one with an empty name. The marker inside the text stays. -/
theorem split_peels_items :
    Marked " List<@A Item> items".toList ["A".toList, "B".toList, []]
        "@A\t@B(f(x), 1)@ List<@A Item> items".toList ∧
      (trimLeft " List<@A Item> items".toList).head? ≠ some '@' ∧
      split "@A\t@B(f(x), 1)@ List<@A Item> items".toList =
        (["A".toList, "B".toList, []], "List<@A Item> items".toList) := by
  have hmarked : Marked " List<@A Item> items".toList ["A".toList, "B".toList, []]
      "@A\t@B(f(x), 1)@ List<@A Item> items".toList :=
    .bare (n := "A".toList) (by decide) (by decide) (.blanks (w := ['\t']) (by decide)
      (.called (n := "B".toList) (a := "f(x), 1".toList) (by decide) (by decide)
        (.bare (n := []) (by decide) (by decide) .refl)))
  have hhead : (trimLeft " List<@A Item> items".toList).head? ≠ some '@' := by decide
  exact ⟨hmarked, hhead, split_peels.1 _ _ _ hmarked hhead⟩

end RecordSkeleton.Marker
