import RecordSkeleton.Text.Basic

/-!
# Blank texts, trimming and words

What blanks around and inside a text do to its trimmed form and to its words.

1. A text is its trimmed form between two blank texts (`eq_append_trim`), and blanks put around a
   text do not change its trimmed form (`trim_blanks`).
2. The words of two texts with a blank between them are the words of both (`words_append_cons`).
3. Putting the words of a text one space apart only replaces runs of blanks by runs of blanks:
   this is carried through a text piece by piece by `squeezeTail`.
-/

namespace RecordSkeleton.Text

/-! ## Characters of a text -/

section

variable (s : Text) (o : Option Char) (P : Char → Prop) [DecidablePred P]

-- There are finitely many characters, and no instance should go through all of them.
instance (priority := 1001) decidableForall : Decidable (∀ c ∈ s, P c) := List.decidableBAll P s

instance (priority := 1001) decidableExists : Decidable (∃ c ∈ s, P c) := List.decidableBEx P s

instance (priority := 1001) decidableForallEnd : Decidable (∀ c ∈ o, P c) :=
  Option.decidableForallMem o

end

/-! ## Slices -/

theorem take_append_cons_drop {s : Text} {k : Nat} {c : Char} (hc : s[k]? = some c) :
    s.take k ++ c :: s.drop (k + 1) = s := by
  obtain ⟨hk, rfl⟩ := List.getElem?_eq_some_iff.1 hc
  rw [← List.drop_eq_getElem_cons hk, List.take_append_drop]

theorem length_slice {s : Text} {i j : Nat} (hj : j ≤ s.length) : (slice s i j).length = j - i := by
  rw [slice, List.length_take, List.length_drop]
  omega

theorem slice_eq {s u v w : Text} {i j : Nat} (hs : s = u ++ (v ++ w)) (hi : i = u.length)
    (hj : j = u.length + v.length) : slice s i j = v := by
  subst hs hi hj
  unfold slice
  rw [List.drop_left, Nat.add_sub_cancel_left, List.take_left]

/-- A slice is parted by each of its characters. -/
theorem slice_split {s : Text} {i j k : Nat} {c : Char} (hc : s[k]? = some c) (hi : i ≤ k)
    (hj : k < j) : slice s i j = slice s i k ++ c :: slice s (k + 1) j := by
  obtain ⟨hk, -⟩ := List.getElem?_eq_some_iff.1 hc
  have hdrop : s.drop i = slice s i k ++ c :: s.drop (k + 1) := by
    conv => lhs; rw [← take_append_cons_drop hc]
    rw [List.drop_append_of_le_length (by rw [List.length_take]; omega), List.drop_take]
    rfl
  have hlength : j - i = (slice s i k).length + (j - (k + 1) + 1) := by
    rw [length_slice (Nat.le_of_lt hk)]
    omega
  rw [slice, hdrop, hlength, List.take_length_add_append, List.take_succ_cons]
  rfl

/-- A piece of a text stands behind the pieces in front of it. -/
theorem slice_flatten (pieces : List Text) (k : Nat) {i j : Nat} {p : Text} (hp : pieces[k]? = some p)
    (hi : i = (pieces.take k).flatten.length) (hj : j = i + p.length) :
    slice pieces.flatten i j = p := by
  obtain ⟨hk, rfl⟩ := List.getElem?_eq_some_iff.1 hp
  have hsplit : pieces.flatten =
      (pieces.take k).flatten ++ (pieces[k] ++ (pieces.drop (k + 1)).flatten) := by
    rw [← List.flatten_cons, ← List.drop_eq_getElem_cons hk, ← List.flatten_append,
      List.take_append_drop]
  exact slice_eq hsplit hi (by rw [hj, hi])

/-! ## Blank texts -/

/-- A text that holds nothing but blanks. -/
def AllBlank (w : Text) : Prop := ∀ c ∈ w, isBlank c = true

instance (w : Text) : Decidable (AllBlank w) :=
  inferInstanceAs (Decidable (∀ c ∈ w, isBlank c = true))

theorem allBlank_nil : AllBlank [] := by
  intro c hc
  cases hc

theorem allBlank_cons {c : Char} {w : Text} (hc : isBlank c = true) (hw : AllBlank w) :
    AllBlank (c :: w) := by
  intro x hx
  rcases List.mem_cons.1 hx with rfl | hx
  · exact hc
  · exact hw x hx

theorem AllBlank.head {c : Char} {w : Text} (h : AllBlank (c :: w)) : isBlank c = true :=
  h c List.mem_cons_self

theorem AllBlank.tail {c : Char} {w : Text} (h : AllBlank (c :: w)) : AllBlank w :=
  fun x hx => h x (List.mem_cons_of_mem c hx)

theorem AllBlank.append {v w : Text} (hv : AllBlank v) (hw : AllBlank w) : AllBlank (v ++ w) := by
  intro c hc
  rcases List.mem_append.1 hc with hc | hc
  · exact hv c hc
  · exact hw c hc

theorem AllBlank.reverse {w : Text} (hw : AllBlank w) : AllBlank w.reverse :=
  fun c hc => hw c (List.mem_reverse.1 hc)

theorem AllBlank.takeWhile (w : Text) : AllBlank (w.takeWhile isBlank) :=
  fun _ hc => List.all_eq_true.1 List.all_takeWhile _ hc

theorem AllBlank.isBlank_of_getLast? {w : Text} (hw : AllBlank w) {c : Char}
    (hc : w.getLast? = some c) : isBlank c = true :=
  hw c (List.mem_of_getLast? hc)

/-! ## Leading and trailing runs -/

theorem takeWhile_append_stop {p : Char → Bool} {x y : Text} (hx : ∀ c ∈ x, p c = true)
    (hy : ∀ c ∈ y.head?, p c = false) : (x ++ y).takeWhile p = x := by
  rw [List.takeWhile_append_of_pos hx]
  cases y with
  | nil => simp
  | cons c r =>
    have hc : p c = false := hy c rfl
    rw [List.takeWhile_cons_of_neg (by rw [hc]; exact Bool.false_ne_true), List.append_nil]

theorem dropWhile_append_stop {p : Char → Bool} {x y : Text} (hx : ∀ c ∈ x, p c = true)
    (hy : ∀ c ∈ y.head?, p c = false) : (x ++ y).dropWhile p = y := by
  rw [List.dropWhile_append_of_pos hx]
  cases y with
  | nil => rfl
  | cons c r =>
    have hc : p c = false := hy c rfl
    rw [List.dropWhile_cons_of_neg (by rw [hc]; exact Bool.false_ne_true)]

/-- The last character of a text is one of its last piece. -/
theorem mem_of_getLast?_append {x y : Text} {c : Char} (hy : y ≠ [])
    (hc : (x ++ y).getLast? = some c) : c ∈ y := by
  obtain ⟨d, hd⟩ := Option.isSome_iff_exists.1 (List.getLast?_isSome.2 hy)
  rw [List.getLast?_append, hd] at hc
  cases hc
  exact List.mem_of_getLast? hd

theorem drop_length_takeWhile (p : Char → Bool) (s : Text) :
    s.drop (s.takeWhile p).length = s.dropWhile p := by
  induction s with
  | nil => rfl
  | cons c r ih =>
    cases hc : p c with
    | true => simp [hc, ih]
    | false => simp [hc]

/-! ## Trimming -/

theorem trimLeft_blanks {w : Text} (hw : AllBlank w) (s : Text) :
    trimLeft (w ++ s) = trimLeft s :=
  List.dropWhile_append_of_pos hw

theorem trimLeft_eq_nil {w : Text} (hw : AllBlank w) : trimLeft w = [] := by
  simpa [trimLeft] using trimLeft_blanks hw []

theorem trimRight_blanks {w : Text} (hw : AllBlank w) (s : Text) :
    trimRight (s ++ w) = trimRight s := by
  unfold trimRight
  rw [List.reverse_append, List.dropWhile_append_of_pos hw.reverse]

theorem trimLeft_eq_self {s : Text} (h : ∀ c ∈ s.head?, isBlank c = false) : trimLeft s = s := by
  cases s with
  | nil => rfl
  | cons c r => exact trimLeft_of_head (h c rfl)

theorem trimRight_eq_self {s : Text} (h : ∀ c ∈ s.getLast?, isBlank c = false) :
    trimRight s = s := by
  unfold trimRight
  have := trimLeft_eq_self (s := s.reverse) (by rwa [List.head?_reverse])
  rw [trimLeft] at this
  rw [this, List.reverse_reverse]

/-- What the left end of a text loses is blank. -/
theorem eq_append_trimLeft (s : Text) : ∃ w, AllBlank w ∧ s = w ++ trimLeft s :=
  ⟨s.takeWhile isBlank, .takeWhile s, List.takeWhile_append_dropWhile.symm⟩

theorem eq_trimRight_append (s : Text) : ∃ w, AllBlank w ∧ s = trimRight s ++ w := by
  obtain ⟨w, hw, h⟩ := eq_append_trimLeft s.reverse
  refine ⟨w.reverse, hw.reverse, ?_⟩
  calc s = s.reverse.reverse := (List.reverse_reverse s).symm
    _ = (w ++ trimLeft s.reverse).reverse := by rw [← h]
    _ = trimRight s ++ w.reverse := List.reverse_append

/-- A text is its trimmed form between two blank texts. -/
theorem eq_append_trim (s : Text) :
    ∃ v w, AllBlank v ∧ AllBlank w ∧ s = v ++ (trim s ++ w) := by
  obtain ⟨v, hv, h₁⟩ := eq_append_trimLeft s
  obtain ⟨w, hw, h₂⟩ := eq_trimRight_append (trimLeft s)
  exact ⟨v, w, hv, hw, h₁.trans (by rw [trim, ← h₂])⟩

theorem trimLeft_append_of_ne_nil {s : Text} (h : trimLeft s ≠ []) (t : Text) :
    trimLeft (s ++ t) = trimLeft s ++ t := by
  obtain ⟨w, hw, hs⟩ := eq_append_trimLeft s
  have hh : ∀ c ∈ (trimLeft s ++ t).head?, isBlank c = false := by
    intro c hc
    apply head_trimLeft s c
    cases hl : trimLeft s with
    | nil => exact absurd hl h
    | cons d r => rwa [hl] at hc
  conv => lhs; rw [hs]
  rw [List.append_assoc, trimLeft_blanks hw, trimLeft_eq_self hh]

/-- Blanks around a text do not change its trimmed form. -/
theorem trim_blanks {v w : Text} (hv : AllBlank v) (hw : AllBlank w) (s : Text) :
    trim (v ++ (s ++ w)) = trim s := by
  unfold trim
  rw [trimLeft_blanks hv]
  by_cases h : trimLeft s = []
  · obtain ⟨u, hu, hs⟩ := eq_append_trimLeft s
    rw [h, List.append_nil] at hs
    have hb : AllBlank (s ++ w) := (hs ▸ hu).append hw
    rw [h, trimLeft_eq_nil hb]
  · rw [trimLeft_append_of_ne_nil h, trimRight_blanks hw]

theorem trim_eq_self {s : Text} (h₁ : ∀ c ∈ s.head?, isBlank c = false)
    (h₂ : ∀ c ∈ s.getLast?, isBlank c = false) : trim s = s := by
  rw [trim, trimLeft_eq_self h₁, trimRight_eq_self h₂]

/-- Trimming leaves nothing of a text exactly when the text is blank. -/
theorem trim_eq_nil_iff {s : Text} : trim s = [] ↔ AllBlank s := by
  refine ⟨fun h => ?_, fun h => by rw [trim, trimLeft_eq_nil h]; rfl⟩
  obtain ⟨v, w, hv, hw, hs⟩ := eq_append_trim s
  rw [hs, h]
  exact hv.append hw

@[simp] theorem trim_trim (s : Text) : trim (trim s) = trim s := by
  obtain ⟨v, w, hv, hw, h⟩ := eq_append_trim s
  conv => rhs; rw [h, trim_blanks hv hw]

/-! ## Words -/

theorem words_cons_blank {c : Char} (hc : isBlank c = true) (s : Text) :
    words (c :: s) = words s := by
  simp only [words, wordsFrom, hc, if_true]
  rfl

/-- Words split at a blank. -/
theorem words_append_cons {c : Char} (hc : isBlank c = true) (x y : Text) :
    words (x ++ c :: y) = words x ++ words y := by
  have key : wordsFrom (x ++ c :: y) = ((wordsFrom x).1, (wordsFrom x).2 ++ words y) := by
    induction x with
    | nil => simp only [List.nil_append, wordsFrom, hc, if_true]; rfl
    | cons d r ih =>
      by_cases hd : isBlank d = true
      · simp only [List.cons_append, wordsFrom, ih, hd, if_true, consWord]
        split <;> rfl
      · simp only [List.cons_append, wordsFrom, ih, hd]
        rfl
  unfold words at key ⊢
  rw [key]
  simp only [consWord]
  split <;> rfl

theorem words_blanks_append {w : Text} (hw : AllBlank w) (s : Text) :
    words (w ++ s) = words s := by
  induction w with
  | nil => rfl
  | cons c r ih => rw [List.cons_append, words_cons_blank hw.head, ih hw.tail]

/-- Words split at a run of blanks. -/
theorem words_append_blanks_append {w : Text} (hw : AllBlank w) (hne : w ≠ []) (x y : Text) :
    words (x ++ (w ++ y)) = words x ++ words y := by
  cases w with
  | nil => exact absurd rfl hne
  | cons c r =>
    rw [List.cons_append, words_append_cons hw.head, words_blanks_append hw.tail]

theorem words_append_blanks {w : Text} (hw : AllBlank w) (s : Text) : words (s ++ w) = words s := by
  cases w with
  | nil => rw [List.append_nil]
  | cons c r =>
    have hnil : words r = [] := by simpa [words, wordsFrom, consWord] using words_blanks_append hw.tail []
    rw [words_append_cons hw.head, hnil, List.append_nil]

@[simp] theorem words_trimLeft (s : Text) : words (trimLeft s) = words s := by
  obtain ⟨v, hv, h⟩ := eq_append_trimLeft s
  conv => rhs; rw [h, words_blanks_append hv]

theorem words_cons {c : Char} (hc : isBlank c = false) (s : Text) :
    words (c :: s) = (c :: (wordsFrom s).1) :: (wordsFrom s).2 := by
  simp only [words, wordsFrom, hc]
  rfl

theorem words_cons_ne_nil {c : Char} (hc : isBlank c = false) (s : Text) : words (c :: s) ≠ [] := by
  rw [words_cons hc]
  exact List.cons_ne_nil _ _

theorem wordsFrom_of_forall {x : Text} (hx : ∀ c ∈ x, isBlank c = false) :
    wordsFrom x = (x, []) := by
  induction x with
  | nil => rfl
  | cons c r ih =>
    have hc := hx c List.mem_cons_self
    simp only [wordsFrom, ih fun d hd => hx d (List.mem_cons_of_mem c hd), hc]
    rfl

theorem words_of_forall {x : Text} (hne : x ≠ []) (hx : ∀ c ∈ x, isBlank c = false) :
    words x = [x] := by
  cases x with
  | nil => exact absurd rfl hne
  | cons c r => rw [words, wordsFrom_of_forall hx]; rfl

theorem mem_consWord {w v : Text} {ws : List Text} (h : v ∈ consWord w ws) :
    v = w ∧ v ≠ [] ∨ v ∈ ws := by
  unfold consWord at h
  split at h
  · exact .inr h
  · rename_i hw
    rcases List.mem_cons.1 h with rfl | h
    · exact .inl ⟨rfl, fun hnil => hw (List.isEmpty_iff.2 hnil)⟩
    · exact .inr h

theorem not_isBlank_of_mem_wordsFrom (s : Text) :
    (∀ c ∈ (wordsFrom s).1, isBlank c = false) ∧
      ∀ w ∈ (wordsFrom s).2, ∀ c ∈ w, isBlank c = false := by
  induction s with
  | nil => exact ⟨fun c hc => (List.not_mem_nil hc).elim, fun w hw => (List.not_mem_nil hw).elim⟩
  | cons d r ih =>
    by_cases hd : isBlank d = true
    · simp only [wordsFrom, hd, if_true]
      refine ⟨fun c hc => (List.not_mem_nil hc).elim, fun w hw => ?_⟩
      rcases mem_consWord hw with ⟨rfl, -⟩ | hw
      · exact ih.1
      · exact ih.2 w hw
    · simp only [wordsFrom, hd]
      refine ⟨fun c hc => ?_, ih.2⟩
      rcases List.mem_cons.1 hc with rfl | hc
      · simpa using hd
      · exact ih.1 c hc

theorem not_isBlank_of_mem_words {s w : Text} (hw : w ∈ words s) : ∀ c ∈ w, isBlank c = false := by
  rcases mem_consWord hw with ⟨rfl, -⟩ | hw
  · exact (not_isBlank_of_mem_wordsFrom s).1
  · exact (not_isBlank_of_mem_wordsFrom s).2 w hw

theorem ne_nil_of_mem_wordsFrom (s : Text) : ∀ w ∈ (wordsFrom s).2, w ≠ [] := by
  induction s with
  | nil => exact fun w hw => (List.not_mem_nil hw).elim
  | cons d r ih =>
    intro w hw
    by_cases hd : isBlank d = true
    · simp only [wordsFrom, hd, if_true] at hw
      rcases mem_consWord hw with ⟨-, hne⟩ | hw
      · exact hne
      · exact ih w hw
    · simp only [wordsFrom, hd] at hw
      exact ih w hw

theorem ne_nil_of_mem_words {s w : Text} (hw : w ∈ words s) : w ≠ [] := by
  rcases mem_consWord hw with ⟨-, hne⟩ | hw
  · exact hne
  · exact ne_nil_of_mem_wordsFrom s w hw

/-! ## Words one space apart -/

theorem join_cons (sep x : Text) (xs : List Text) :
    join sep (x :: xs) = x ++ xs.flatMap (sep ++ ·) := by
  induction xs generalizing x with
  | nil => simp [join]
  | cons y ys ih =>
    have h : join sep (x :: y :: ys) = x ++ (sep ++ join sep (y :: ys)) := by
      simp [join]
    rw [h, ih, List.flatMap_cons, List.append_assoc]

/-- A text behind another one, set off by a space if it is not empty. -/
def spaced (s : Text) : Text := if s = [] then [] else ' ' :: s

theorem spaced_of_ne_nil {s : Text} (h : s ≠ []) : spaced s = ' ' :: s := if_neg h

theorem drop_spaced (s : Text) : (spaced s).drop 1 = s := by
  unfold spaced
  split
  · rename_i h
    exact h.symm
  · rfl

theorem head_spaced (s : Text) : ∀ c ∈ (spaced s).head?, c = ' ' := by
  unfold spaced
  split
  · intro c hc
    cases hc
  · rintro c ⟨⟩
    rfl

theorem flatMap_space {xs : List Text} (h : ∀ x ∈ xs, x ≠ []) :
    xs.flatMap ([' '] ++ ·) = spaced (join [' '] xs) := by
  cases xs with
  | nil => rfl
  | cons x xs =>
    have hne : join [' '] (x :: xs) ≠ [] := by
      rw [join_cons]
      exact List.append_ne_nil_of_left_ne_nil (h x List.mem_cons_self) _
    rw [spaced_of_ne_nil hne, join_cons]
    rfl

theorem join_space_cons {xs : List Text} (h : ∀ x ∈ xs, x ≠ []) (x : Text) :
    join [' '] (x :: xs) = x ++ spaced (join [' '] xs) := by
  rw [join_cons, flatMap_space h]

/-- The text with every run of blanks replaced by one space and no blanks at its end. -/
def squeezeTail (s : Text) : Text := (wordsFrom s).1 ++ (wordsFrom s).2.flatMap ([' '] ++ ·)

theorem squeezeTail_nil : squeezeTail [] = [] := rfl

theorem squeezeTail_cons {c : Char} (hc : isBlank c = false) (s : Text) :
    squeezeTail (c :: s) = c :: squeezeTail s := by
  simp only [squeezeTail, wordsFrom, hc]
  rfl

theorem squeezeTail_append {x : Text} (hx : ∀ c ∈ x, isBlank c = false) (s : Text) :
    squeezeTail (x ++ s) = x ++ squeezeTail s := by
  induction x with
  | nil => rfl
  | cons c r ih =>
    rw [List.cons_append, squeezeTail_cons (hx c List.mem_cons_self),
      ih fun d hd => hx d (List.mem_cons_of_mem c hd), List.cons_append]

theorem flatMap_consWord (w : Text) (ws : List Text) :
    ∃ b, AllBlank b ∧ (consWord w ws).flatMap ([' '] ++ ·) = b ++ (w ++ ws.flatMap ([' '] ++ ·)) := by
  unfold consWord
  split
  · rename_i h
    exact ⟨[], allBlank_nil, by simp [List.isEmpty_iff.1 h]⟩
  · exact ⟨[' '], allBlank_cons (by decide) allBlank_nil, by simp⟩

/-- A run of blanks becomes a run of blanks, possibly an empty one. -/
theorem squeezeTail_blanks_append {w : Text} (hw : AllBlank w) (s : Text) :
    ∃ v, AllBlank v ∧ squeezeTail (w ++ s) = v ++ squeezeTail s := by
  induction w with
  | nil => exact ⟨[], allBlank_nil, rfl⟩
  | cons c r ih =>
    obtain ⟨v, hv, h⟩ := ih hw.tail
    obtain ⟨b, hb, h'⟩ := flatMap_consWord (wordsFrom (r ++ s)).1 (wordsFrom (r ++ s)).2
    refine ⟨b ++ v, hb.append hv, ?_⟩
    rw [List.append_assoc, ← h]
    simpa only [List.cons_append, squeezeTail, wordsFrom, hw.head, if_true, List.nil_append]
      using h'

/-- The words of a text one space apart, up to a blank in front. -/
theorem squeezeTail_eq (s : Text) :
    ∃ b, AllBlank b ∧ squeezeTail s = b ++ join [' '] (words s) := by
  unfold squeezeTail words
  generalize wordsFrom s = p
  obtain ⟨w, ws⟩ := p
  cases w with
  | cons c r => exact ⟨[], allBlank_nil, (join_cons [' '] (c :: r) ws).symm⟩
  | nil =>
    cases ws with
    | nil => exact ⟨[], allBlank_nil, rfl⟩
    | cons v vs =>
      refine ⟨[' '], allBlank_cons (by decide) allBlank_nil, ?_⟩
      show _ = [' '] ++ join [' '] (v :: vs)
      rw [join_cons]
      simp

/-- Behind a run of blanks stand the words that follow, and a space in front of them if there are any. -/
theorem squeezeTail_gap {g : Text} (hg : AllBlank g) (hne : g ≠ []) (s : Text) :
    squeezeTail (g ++ s) = spaced (join [' '] (words s)) := by
  obtain ⟨c, r, rfl⟩ := List.exists_cons_of_ne_nil hne
  rw [← words_blanks_append hg.tail, ← flatMap_space fun _ => ne_nil_of_mem_words, List.cons_append]
  simp only [squeezeTail, wordsFrom, hg.head, if_true, List.nil_append]
  rfl

theorem join_words_cons {c : Char} (hc : isBlank c = false) (s : Text) :
    join [' '] (words (c :: s)) = c :: squeezeTail s := by
  rw [words_cons hc, join_cons]
  rfl

/-- No blank stands in front of the first word. -/
theorem head_join_words (s : Text) : ∀ c ∈ (join [' '] (words s)).head?, isBlank c = false := by
  rw [← words_trimLeft]
  cases hs : trimLeft s with
  | nil =>
    intro c hc
    cases hc
  | cons d r =>
    have hd := head_trimLeft s d (by rw [hs]; rfl)
    rw [join_words_cons hd]
    rintro c ⟨⟩
    exact hd

/-- Each blank of the text is a space, and a character that is no blank follows it. -/
def SingleSpaced (s : Text) : Prop :=
  ∀ c r, c :: r <:+ s → isBlank c = true → c = ' ' ∧ ∃ d ∈ r.head?, isBlank d = false

theorem singleSpaced_nil : SingleSpaced [] := by
  intro c r hr
  cases List.suffix_nil.1 hr

theorem SingleSpaced.suffix {s t : Text} (hs : SingleSpaced s) (h : t <:+ s) : SingleSpaced t :=
  fun c r hr => hs c r (hr.trans h)

theorem singleSpaced_cons {c : Char} {s : Text} (hs : SingleSpaced s)
    (hc : isBlank c = true → c = ' ' ∧ ∃ d ∈ s.head?, isBlank d = false) : SingleSpaced (c :: s) := by
  intro d r hr hd
  rcases List.suffix_cons_iff.1 hr with heq | hr
  · obtain ⟨rfl, rfl⟩ := List.cons.inj heq
    exact hc hd
  · exact hs d r hr hd

theorem singleSpaced_spaced {s : Text} (hs : SingleSpaced s)
    (hhead : ∀ c ∈ s.head?, isBlank c = false) : SingleSpaced (spaced s) := by
  cases s with
  | nil => exact singleSpaced_nil
  | cons c r => exact singleSpaced_cons hs fun _ => ⟨rfl, c, rfl, hhead c rfl⟩

theorem singleSpaced_squeezeTail (s : Text) : SingleSpaced (squeezeTail s) := by
  induction s with
  | nil => exact singleSpaced_nil
  | cons c r ih =>
    by_cases hc : isBlank c = true
    · obtain ⟨b, -, hb⟩ := squeezeTail_eq r
      have hgap := squeezeTail_gap (allBlank_cons hc allBlank_nil) (List.cons_ne_nil c []) r
      rw [List.singleton_append] at hgap
      rw [hgap]
      exact singleSpaced_spaced (ih.suffix (hb ▸ List.suffix_append b _)) (head_join_words r)
    · rw [squeezeTail_cons (by simpa using hc)]
      exact singleSpaced_cons ih fun h => absurd h hc

theorem singleSpaced_join_words (s : Text) : SingleSpaced (join [' '] (words s)) := by
  obtain ⟨b, -, hb⟩ := squeezeTail_eq s
  exact (singleSpaced_squeezeTail s).suffix (hb ▸ List.suffix_append b _)

end RecordSkeleton.Text
