import RecordSkeleton.Marker
import RecordSkeleton.Proofs.Bracket.Nesting

/-!
# Peeling markers off a text

1. A text behind markers is peeled like the text alone, and the names of the markers come first
   (`split_marked`).
2. Blanks behind a text stay blanks behind what is left of it (`exists_strip_append`).
-/

namespace RecordSkeleton.Marker

open Text

/-- How markers are peeled off, without the bounds that make the peeling end. -/
theorem split_eq (s : Text) :
    split s = match trimLeft s with
      | '@' :: r =>
        match afterArguments? (r.dropWhile isNameChar) with
        | none => ([r.takeWhile isNameChar], [])
        | some t => (r.takeWhile isNameChar :: (split t).1, (split t).2)
      | t => ([], t) := by
  rw [split.eq_def]
  split <;> rename_i h
  · rw [h]
    simp only
    split <;> rename_i ha <;> rw [ha]
  · split
    · rename_i _ _ h'
      exact absurd h' (h _)
    · rfl

theorem split_trimLeft (s : Text) : split (trimLeft s) = split s := by
  rw [split_eq, trimLeft_trimLeft, ← split_eq]

theorem strip_trimLeft (s : Text) : strip (trimLeft s) = strip s :=
  congrArg Prod.snd (split_trimLeft s)

theorem split_blanks {w : Text} (hw : AllBlank w) (s : Text) : split (w ++ s) = split s := by
  rw [← split_trimLeft, trimLeft_blanks hw, split_trimLeft]

theorem strip_blanks {w : Text} (hw : AllBlank w) (s : Text) : strip (w ++ s) = strip s :=
  congrArg Prod.snd (split_blanks hw s)

/-- A text without a marker in front loses its leading blanks only, and no name comes off. -/
theorem split_of_head {s : Text} (h : (trimLeft s).head? ≠ some '@') : split s = ([], trimLeft s) := by
  rw [split_eq]
  split
  · rename_i r hr
    rw [hr] at h
    exact absurd rfl h
  · rfl

theorem split_of_ne {c : Char} (hblank : isBlank c = false) (hc : c ≠ '@') (r : Text) :
    split (c :: r) = ([], c :: r) := by
  have htrim : trimLeft (c :: r) = c :: r := trimLeft_of_head hblank
  rw [split_of_head, htrim]
  rw [htrim]
  exact fun h => hc (Option.some.inj h)

theorem strip_of_head {s : Text} (h : (trimLeft s).head? ≠ some '@') : strip s = trimLeft s :=
  congrArg Prod.snd (split_of_head h)

theorem afterArguments?_of_head {r : Text} (h : r.head? ≠ some '(') : afterArguments? r = some r := by
  unfold afterArguments?
  split
  · exact absurd rfl h
  · rfl

theorem afterArguments?_group {a : Text} (ha : Nested Brackets.round.weight a) (r : Text) :
    afterArguments? ('(' :: (a ++ ')' :: r)) = some r := by
  have hclose : Brackets.round.closeOffset? 1 (a ++ ')' :: r) = some a.length :=
    Brackets.closeOffset?_closing (by decide) ha r
  rw [afterArguments?, hclose, Option.map_some, ← List.drop_drop, List.drop_left]
  rfl

/-- One marker: its name ends where it is meant to end, and what follows its arguments is peeled
further. -/
theorem split_cons {n r t : Text} (hn : ∀ c ∈ n, isNameChar c = true)
    (hr : ∀ c ∈ r.head?, isNameChar c = false) (ha : afterArguments? r = some t) :
    split ('@' :: (n ++ r)) = (n :: (split t).1, (split t).2) := by
  rw [split_eq, trimLeft_of_head (by decide)]
  simp only [dropWhile_append_stop hn hr, takeWhile_append_stop hn hr, ha]

/-! ## Texts behind markers -/

/-- The text is `t` behind markers of the given names, with blanks around them. A marker without
arguments is set off from what follows it, and the round brackets in a list of arguments are nested. -/
inductive Marked (t : Text) : List Text → Text → Prop
  | refl : Marked t [] t
  | blanks {w u : Text} {names : List Text} (hw : AllBlank w) (h : Marked t names u) :
    Marked t names (w ++ u)
  | bare {n u : Text} {names : List Text} (hn : ∀ c ∈ n, isNameChar c = true)
    (hu : ∀ c ∈ u.head?, isBlank c = true) (h : Marked t names u) :
    Marked t (n :: names) ('@' :: (n ++ u))
  /-- A marker with arguments. -/
  | called {n a u : Text} {names : List Text} (hn : ∀ c ∈ n, isNameChar c = true)
    (ha : Nested Brackets.round.weight a) (h : Marked t names u) :
    Marked t (n :: names) ('@' :: (n ++ '(' :: (a ++ ')' :: u)))

/-- The markers in front of a text are peeled off, and then those of the text. -/
theorem split_marked {t u : Text} {names : List Text} (h : Marked t names u) :
    split u = (names ++ (split t).1, (split t).2) := by
  induction h with
  | refl => rfl
  | blanks hw _ ih => rw [split_blanks hw, ih]
  | @bare n u names hn hu _ ih =>
    have hstop : ∀ c ∈ u.head?, isNameChar c = false := by
      intro c hc
      unfold isNameChar
      rw [hu c hc]
      rfl
    have hopen : u.head? ≠ some '(' := fun hc => absurd (hu _ hc) (by decide)
    rw [split_cons hn hstop (afterArguments?_of_head hopen), ih]
    rfl
  | @called n a u names hn ha _ ih =>
    have hstop : ∀ c ∈ ('(' :: (a ++ ')' :: u)).head?, isNameChar c = false := by
      rintro c ⟨⟩
      decide
    rw [split_cons hn hstop (afterArguments?_group ha u), ih]
    rfl

theorem strip_marked {t u : Text} {names : List Text} (h : Marked t names u) :
    strip u = strip t := by
  unfold strip
  rw [split_marked h]

/-! ## Blanks behind a text -/

/-- Blanks behind a text are not skipped with arguments. -/
theorem afterArguments?_append_blanks {w : Text} (hw : AllBlank w) (s : Text) :
    afterArguments? (s ++ w) = (afterArguments? s).map (· ++ w) := by
  have hne : ∀ c ∈ w, c ≠ '(' ∧ c ≠ ')' := by
    intro c hc
    refine ⟨?_, ?_⟩ <;> (rintro rfl; exact absurd (hw _ hc) (by decide))
  cases s with
  | nil => exact afterArguments?_of_head fun hc => (hne _ (List.mem_of_mem_head? hc)).1 rfl
  | cons c r =>
    by_cases hc : c = '('
    · subst hc
      have hclose : Brackets.round.closeOffset? 1 (r ++ w) = Brackets.round.closeOffset? 1 r :=
        Brackets.closeOffset?_append_of_not_mem hne 1 r
      rw [List.cons_append, afterArguments?, afterArguments?, hclose, Option.map_map]
      refine Option.map_congr fun k hk => ?_
      exact List.drop_append_of_le_length (Brackets.closeOffset?_lt hk)
    · have hhead : ∀ y : Text, (c :: y).head? ≠ some '(' := fun y h => hc (Option.some.inj h)
      rw [List.cons_append, afterArguments?_of_head (hhead _), afterArguments?_of_head (hhead _)]
      rfl

theorem dropWhile_isNameChar_append_blanks {w : Text} (hw : AllBlank w) (s : Text) :
    (s ++ w).dropWhile isNameChar = s.dropWhile isNameChar ++ w := by
  have hstop : w.dropWhile isNameChar = w := by
    cases w with
    | nil => rfl
    | cons c r =>
      refine List.dropWhile_cons_of_neg ?_
      unfold isNameChar
      rw [hw.head]
      exact Bool.false_ne_true
  rw [List.dropWhile_append, hstop]
  split
  · rename_i h
    rw [List.isEmpty_iff.1 h, List.nil_append]
  · rfl

/-- Blanks behind a text are left behind what is left of it, or go with the whole text. -/
theorem exists_strip_append {w : Text} (hw : AllBlank w) (s : Text) :
    ∃ v, AllBlank v ∧ strip (s ++ w) = strip s ++ v := by
  have hmarker : ∀ {s r : Text}, trimLeft s = '@' :: r → trimLeft (s ++ w) = '@' :: (r ++ w) := by
    intro s r hr
    rw [trimLeft_append_of_ne_nil (by rw [hr]; exact List.cons_ne_nil _ _), hr, List.cons_append]
  unfold strip
  fun_induction split s with
  | case1 s r h ha =>
    refine ⟨[], allBlank_nil, ?_⟩
    rw [split_eq, hmarker h]
    simp only [dropWhile_isNameChar_append_blanks hw, afterArguments?_append_blanks hw, ha,
      Option.map_none, List.append_nil]
  | case2 s r h t ha ih =>
    obtain ⟨v, hv, hstrip⟩ := ih
    refine ⟨v, hv, ?_⟩
    rw [split_eq, hmarker h]
    simp only [dropWhile_isNameChar_append_blanks hw, afterArguments?_append_blanks hw, ha,
      Option.map_some, hstrip]
  | case3 s h =>
    show ∃ v, AllBlank v ∧ strip (s ++ w) = trimLeft s ++ v
    by_cases hs : trimLeft s = []
    · obtain ⟨b, hb, hsb⟩ := eq_append_trimLeft s
      rw [hs, List.append_nil] at hsb
      have hblank : trimLeft (s ++ w) = [] := trimLeft_eq_nil (hsb ▸ hb.append hw)
      refine ⟨[], allBlank_nil, ?_⟩
      rw [strip_of_head (by rw [hblank]; decide), hblank, hs]
      rfl
    · have happend := trimLeft_append_of_ne_nil hs w
      have hhead : (trimLeft (s ++ w)).head? ≠ some '@' := by
        obtain ⟨c, r, hr⟩ := List.exists_cons_of_ne_nil hs
        rw [happend, hr]
        rintro ⟨⟩
        exact h r hr
      exact ⟨w, hw, (strip_of_head hhead).trans happend⟩

end RecordSkeleton.Marker
