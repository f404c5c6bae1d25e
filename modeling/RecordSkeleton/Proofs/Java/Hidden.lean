import Mathlib.Data.List.Forall2
import RecordSkeleton.Java.Source
import RecordSkeleton.Proofs.Java.Masking

/-!
# What comments and literals hide

Masking goes through a source text step by step. Each step looks at the next characters, shows or
blanks out some of them, and goes on behind them.

1. A step only sees how the text goes on as far as to recognise the signs that open and close comments
   and literals (`step_append`), so what was masked in front of an offset stays as it is when the text
   behind it changes (`Reaches.exists_maskFrom`).
2. The inside of a comment or literal is blanked out (`maskFrom_inside`).
3. Hence another inside of the same length, with line feeds at the same places, makes no difference to
   the masked text and to the declarations found in it (`inside_irrelevant`).
-/

namespace RecordSkeleton.Java

open Text

/-! ## The scan, step by step -/

/-- One step of the scan. -/
structure Step where
  /-- The mode behind the step. -/
  mode : Mode
  /-- The number of characters that it takes. -/
  count : Nat
  /-- Whether these characters are shown. -/
  shown : Bool

/-- The step that the scan takes at the front of a text. -/
def step (m : Mode) (s : Text) : Step :=
  match m with
  | .code =>
    if ['/', '/'] <+: s then ⟨.lineComment, 2, false⟩
    else if ['/', '*'] <+: s then ⟨.blockComment, 2, false⟩
    else if ['"', '"', '"'] <+: s then ⟨.textBlock, 3, true⟩
    else if s.head? = some '"' then ⟨.literal '"', 1, true⟩
    else if s.head? = some '\'' then ⟨.literal '\'', 1, true⟩
    else ⟨.code, 1, true⟩
  | .lineComment => ⟨if s.head? = some '\n' then .code else .lineComment, 1, false⟩
  | .blockComment => if ['*', '/'] <+: s then ⟨.code, 2, false⟩ else ⟨.blockComment, 1, false⟩
  | .textBlock => if ['"', '"', '"'] <+: s then ⟨.code, 3, true⟩ else ⟨.textBlock, 1, false⟩
  | .literal q =>
    if s.head? = some q ∨ s.head? = some '\n' then ⟨.code, 1, true⟩
    else ⟨.literal q, if s.head? = some '\\' then 2 else 1, false⟩

/-- What a step makes of the text at whose front it is taken. -/
def Step.written (st : Step) (s : Text) : Text :=
  if st.shown then s.take st.count else (s.take st.count).map blank

/-- Masking a text is taking a step and masking the rest. -/
theorem maskFrom_step (m : Mode) {s : Text} (hs : s ≠ []) :
    maskFrom m s = (step m s).written s ++ maskFrom (step m s).mode (s.drop (step m s).count) := by
  fun_cases maskFrom m s with
  | case1 => exact absurd rfl hs
  | case2 r => rfl
  | case3 r => rfl
  | case4 r => rfl
  | case5 c r h₁ h₂ h₃ =>
    have h₁ : ¬ ['/', '/'] <+: c :: r := fun ⟨t, ht⟩ => by cases ht; exact h₁ _ rfl rfl
    have h₂ : ¬ ['/', '*'] <+: c :: r := fun ⟨t, ht⟩ => by cases ht; exact h₂ _ rfl rfl
    have h₃ : ¬ ['"', '"', '"'] <+: c :: r := fun ⟨t, ht⟩ => by cases ht; exact h₃ _ rfl rfl
    have hstep : step .code (c :: r) =
        ⟨if c = '"' ∨ c = '\'' then .literal c else .code, 1, true⟩ := by
      simp only [step, if_neg h₁, if_neg h₂, if_neg h₃, List.head?_cons, Option.some.injEq]
      by_cases hq : c = '"'
      · rw [if_pos hq, if_pos (Or.inl hq), hq]
      · by_cases ha : c = '\''
        · rw [if_neg hq, if_pos ha, if_pos (Or.inr ha), ha]
        · rw [if_neg hq, if_neg ha, if_neg (not_or.2 ⟨hq, ha⟩)]
    rw [hstep]
    rfl
  | case6 c r => simp [step, Step.written]
  | case7 r => rfl
  | case8 c r h =>
    have h : ¬ ['*', '/'] <+: c :: r := fun ⟨t, ht⟩ => by cases ht; exact h _ rfl rfl
    simp [step, h, Step.written]
  | case9 r => rfl
  | case10 c r h =>
    have h : ¬ ['"', '"', '"'] <+: c :: r := fun ⟨t, ht⟩ => by cases ht; exact h _ rfl rfl
    simp [step, h, Step.written]
  | case11 q c r h => simp [step, h, Step.written]
  | case12 q h => simp_all [step, Step.written, blank, maskFrom]
  | case13 q e t h => simp_all [step, Step.written, blank]
  | case14 q c r h h' => simp_all [step, Step.written, blank]

/-- The scan of a text in a mode comes to the front of another text in another mode. -/
inductive Reaches : Mode → Text → Mode → Text → Prop
  | refl (m : Mode) (s : Text) : Reaches m s m s
  /-- It comes there after a step. -/
  | next {m m' : Mode} {s r : Text} (hs : s ≠ [])
    (h : Reaches (step m s).mode (s.drop (step m s).count) m' r) : Reaches m s m' r

/-! ## What a step looks at -/

/-- Two texts that start with the same character, and with two quotes or not. -/
structure SameStart (r r' : Text) : Prop where
  head?_eq : r'.head? = r.head?
  quotes : ['"', '"'] <+: r' ↔ ['"', '"'] <+: r

theorem singleton_prefix_iff {c : Char} {r : Text} : [c] <+: r ↔ r.head? = some c := by
  cases r with
  | nil => simp
  | cons d r => simp [eq_comm]

/-- The signs that a step looks for are recognised with the same result. -/
theorem prefix_append_iff {r r' : Text} (h : SameStart r r') {p : Text} (hp : p ≠ []) {sign : Text}
    (hsign : sign = ['/', '/'] ∨ sign = ['/', '*'] ∨ sign = ['*', '/'] ∨ sign = ['"', '"', '"']) :
    sign <+: p ++ r' ↔ sign <+: p ++ r := by
  obtain ⟨c, p, rfl⟩ := List.exists_cons_of_ne_nil hp
  cases p with
  | nil =>
    simp only [List.cons_append, List.nil_append]
    rcases hsign with rfl | rfl | rfl | rfl <;>
      simp only [List.cons_prefix_cons, singleton_prefix_iff, h.head?_eq, h.quotes]
  | cons d p =>
    simp only [List.cons_append]
    rcases hsign with rfl | rfl | rfl | rfl <;>
      simp only [List.cons_prefix_cons, List.nil_prefix]
    cases p with
    | nil => simp only [List.nil_append, singleton_prefix_iff, h.head?_eq]
    | cons e p => simp only [List.cons_append, List.cons_prefix_cons, List.nil_prefix]

/-- A step that is taken in front of the end of a text does not see how the text goes on there, as long
as it starts in the same way. -/
theorem step_append {r r' : Text} (h : SameStart r r') {p : Text} (hp : p ≠ []) (m : Mode) :
    step m (p ++ r') = step m (p ++ r) := by
  have hhead : (p ++ r').head? = (p ++ r).head? := by
    obtain ⟨c, p, rfl⟩ := List.exists_cons_of_ne_nil hp
    rfl
  have hline := prefix_append_iff h hp (Or.inl rfl)
  have hblock := prefix_append_iff h hp (Or.inr (Or.inl rfl))
  have hend := prefix_append_iff h hp (Or.inr (Or.inr (Or.inl rfl)))
  have hquotes := prefix_append_iff h hp (Or.inr (Or.inr (Or.inr rfl)))
  cases m <;> simp only [step, hhead, hline, hblock, hend, hquotes]

/-! ## What was masked in front of an offset -/

theorem Reaches.length_le {m m' : Mode} {s r : Text} (h : Reaches m s m' r) :
    r.length ≤ s.length := by
  induction h with
  | refl => exact Nat.le_refl _
  | next _ _ ih =>
    rw [List.length_drop] at ih
    omega

theorem count_step_pos (m : Mode) (s : Text) : 0 < (step m s).count := by
  fun_cases step m s
  case case13 => show 0 < ite _ _ _; split <;> decide
  all_goals exact Nat.succ_pos _

theorem Step.written_append {st : Step} {p : Text} (h : st.count ≤ p.length) (r : Text) :
    st.written (p ++ r) = st.written p := by
  unfold written
  rw [List.take_append_of_le_length h]

/-- What was masked in front of an offset that the scan comes to stays as it is when the text behind it
changes, as long as that starts in the same way. -/
theorem Reaches.exists_maskFrom {m m' : Mode} {s r : Text} (h : Reaches m s m' r) (hr : r ≠ []) :
    ∀ p, s = p ++ r → ∃ q, ∀ r', SameStart r r' → maskFrom m (p ++ r') = q ++ maskFrom m' r' := by
  induction h with
  | refl m s =>
    intro p hp
    have hnil : p = [] := by simpa using hp
    exact ⟨[], fun r' _ => by rw [hnil]; rfl⟩
  | @next m m' s r hs h ih =>
    rintro p rfl
    -- The scan still comes to `r`, so the step ends in front of it.
    have hcount : (step m (p ++ r)).count ≤ p.length := by
      have hle := h.length_le
      have hpos := List.length_pos_iff.2 hr
      rw [List.length_drop, List.length_append] at hle
      omega
    have hp : p ≠ [] := by
      rintro rfl
      have := count_step_pos m ([] ++ r)
      rw [List.length_nil] at hcount
      omega
    obtain ⟨q, hq⟩ := ih hr _ (List.drop_append_of_le_length hcount)
    refine ⟨(step m (p ++ r)).written p ++ q, fun r' h' => ?_⟩
    rw [maskFrom_step m (List.append_ne_nil_of_left_ne_nil hp r'), step_append h' hp,
      Step.written_append hcount, List.drop_append_of_le_length hcount, hq r' h', List.append_assoc]

/-! ## What is hidden -/

/-- What opens a comment or a literal. -/
def Mode.opening : Mode → Text
  | code => []
  | lineComment => ['/', '/']
  | blockComment => ['/', '*']
  | textBlock => ['"', '"', '"']
  | literal q => [q]

/-- What masking makes of it. -/
def Mode.maskedOpening : Mode → Text
  | code => []
  | lineComment | blockComment => [' ', ' ']
  | textBlock => ['"', '"', '"']
  | literal q => [q]

/-- The text `x` in front of `r` is the whole inside of a comment or of a literal without escapes. -/
def Inside : Mode → Text → Text → Prop
  | .code, _, _ => False
  | .lineComment, x, r => '\n' ∉ x ∧ ∀ c ∈ r.head?, c = '\n'
  | .blockComment, x, r => ¬ ['*', '/'] <:+: x ∧ ['*', '/'] <+: r
  | .textBlock, x, r =>
    ¬ ['"', '"', '"'] <:+: x ∧ x.getLast? ≠ some '"' ∧ ['"', '"', '"'] <+: r
  | .literal q, x, r =>
    (q = '"' ∨ q = '\'') ∧ x ≠ [] ∧ (∀ c ∈ x, c ≠ q ∧ c ≠ '\\' ∧ c ≠ '\n') ∧ [q] <+: r

instance decidableInside (m : Mode) (x r : Text) : Decidable (Inside m x r) :=
  match m with
  | .code => inferInstanceAs (Decidable False)
  | .lineComment => inferInstanceAs (Decidable ('\n' ∉ x ∧ ∀ c ∈ r.head?, c = '\n'))
  | .blockComment => inferInstanceAs (Decidable (¬ ['*', '/'] <:+: x ∧ ['*', '/'] <+: r))
  | .textBlock =>
    inferInstanceAs (Decidable
      (¬ ['"', '"', '"'] <:+: x ∧ x.getLast? ≠ some '"' ∧ ['"', '"', '"'] <+: r))
  | .literal q =>
    inferInstanceAs (Decidable
      ((q = '"' ∨ q = '\'') ∧ x ≠ [] ∧ (∀ c ∈ x, c ≠ q ∧ c ≠ '\\' ∧ c ≠ '\n') ∧ [q] <+: r))

/-- Two texts are equally long and have their line feeds at the same places. -/
structure SameLines (x x' : Text) : Prop where
  length_eq : x'.length = x.length
  feeds : ∀ i : Nat, x'[i]? = some '\n' ↔ x[i]? = some '\n'

theorem SameLines.of_not_mem {x x' : Text} (h : x'.length = x.length) (hx : '\n' ∉ x)
    (hx' : '\n' ∉ x') : SameLines x x' :=
  ⟨h, fun _ => iff_of_false (fun hi => hx' (List.mem_of_getElem? hi))
    fun hi => hx (List.mem_of_getElem? hi)⟩

theorem SameLines.map_blank {x x' : Text} (h : SameLines x x') : x'.map blank = x.map blank := by
  refine List.ext_getElem (by simp [h.length_eq]) fun i h₁ h₂ => ?_
  rw [List.length_map] at h₁ h₂
  have hfeeds := h.feeds i
  rw [List.getElem?_eq_getElem h₁, List.getElem?_eq_getElem h₂, Option.some.injEq, Option.some.injEq]
    at hfeeds
  rw [List.getElem_map, List.getElem_map]
  unfold blank
  simp only [hfeeds]

theorem maskFrom_blockComment_body {x r : Text} (hx : ¬ ['*', '/'] <:+: x) (hr : ['*', '/'] <+: r) :
    maskFrom .blockComment (x ++ r) = x.map blank ++ maskFrom .blockComment r := by
  obtain ⟨t, rfl⟩ := hr
  exact maskFrom_blockComment hx t

theorem maskFrom_textBlock {x r : Text} (hx : ¬ ['"', '"', '"'] <:+: x)
    (hlast : x.getLast? ≠ some '"') (hr : ['"', '"', '"'] <+: r) :
    maskFrom .textBlock (x ++ r) = x.map blank ++ maskFrom .textBlock r := by
  induction x with
  | nil => rfl
  | cons c x ih =>
    have hx' := fun h => hx (List.IsInfix.trans h (List.suffix_cons c x).isInfix)
    have hlast' : x.getLast? ≠ some '"' := fun h => hlast (by rw [List.getLast?_cons, h]; rfl)
    rw [List.cons_append, maskFrom, ih hx' hlast', List.map_cons, List.cons_append]
    -- Three quotes at `c` would stand in the inside, or start with its last character.
    rintro t rfl ht
    cases x with
    | nil => exact hlast rfl
    | cons d x =>
      cases x with
      | nil =>
        cases ht
        exact hlast rfl
      | cons e x =>
        cases ht
        exact hx ⟨[], x, rfl⟩

/-- The inside of a comment or literal is blanked out. -/
theorem maskFrom_inside {m : Mode} {x r : Text} (h : Inside m x r) :
    maskFrom m (x ++ r) = x.map blank ++ maskFrom m r := by
  cases m with
  | code => exact h.elim
  | lineComment => exact maskFrom_lineComment_body h.1 r
  | blockComment => exact maskFrom_blockComment_body h.1 h.2
  | textBlock => exact maskFrom_textBlock h.1 h.2.1 h.2.2
  | literal q =>
    have hblank : x.map blank = List.replicate x.length ' ' := by
      rw [← List.map_const']
      exact List.map_congr_left fun c hc => if_neg (h.2.2.1 c hc).2.2
    rw [maskFrom_literal_body h.2.2.1, hblank]

theorem maskFrom_opening {m : Mode} {x r : Text} (h : Inside m x r) :
    maskFrom .code (m.opening ++ (x ++ r)) = m.maskedOpening ++ maskFrom m (x ++ r) := by
  cases m with
  | code => exact h.elim
  | lineComment => rfl
  | blockComment => rfl
  | textBlock => rfl
  | literal q =>
    obtain ⟨hq, hne, hx, -⟩ := h
    obtain ⟨c, x, rfl⟩ := List.exists_cons_of_ne_nil hne
    have hc := (hx c List.mem_cons_self).1
    simp only [Mode.opening, Mode.maskedOpening, List.cons_append, List.nil_append]
    rw [maskFrom, if_pos hq]
    · rintro t rfl
      exact absurd hq (by decide)
    · rintro t rfl
      exact absurd hq (by decide)
    · rintro t rfl ht
      exact hc (List.cons.inj ht).1

/-- What follows an opening does not change whether it opens a literal or a text block. -/
theorem sameStart_opening {m : Mode} {x x' r : Text} (h : Inside m x r) (h' : Inside m x' r) :
    SameStart (m.opening ++ (x ++ r)) (m.opening ++ (x' ++ r)) := by
  cases m with
  | code => exact h.elim
  | lineComment => exact ⟨rfl, by simp [Mode.opening]⟩
  | blockComment => exact ⟨rfl, by simp [Mode.opening]⟩
  | textBlock => exact ⟨rfl, by simp [Mode.opening]⟩
  | literal q =>
    refine ⟨rfl, ?_⟩
    obtain ⟨c, x, rfl⟩ := List.exists_cons_of_ne_nil h.2.1
    obtain ⟨c', x', rfl⟩ := List.exists_cons_of_ne_nil h'.2.1
    have hc := (h.2.2.1 c List.mem_cons_self).1
    have hc' := (h'.2.2.1 c' List.mem_cons_self).1
    simp only [Mode.opening, List.cons_append, List.nil_append, List.cons_prefix_cons]
    constructor
    · rintro ⟨rfl, rfl, -⟩
      exact absurd rfl hc'
    · rintro ⟨rfl, rfl, -⟩
      exact absurd rfl hc

/-- Masking does not depend on what stands in a comment or literal that the scan comes to. -/
theorem mask_inside_eq {m : Mode} {front x x' back : Text}
    (hr : Reaches .code (front ++ (m.opening ++ (x ++ back))) .code (m.opening ++ (x ++ back)))
    (h : Inside m x back) (h' : Inside m x' back) (hl : SameLines x x') :
    mask (front ++ (m.opening ++ (x' ++ back))) = mask (front ++ (m.opening ++ (x ++ back))) := by
  have hne : m.opening ++ (x ++ back) ≠ [] := by
    cases m with
    | code => exact h.elim
    | lineComment | blockComment | textBlock | literal => exact List.cons_ne_nil _ _
  obtain ⟨q, hq⟩ := hr.exists_maskFrom hne front rfl
  unfold mask
  rw [hq _ (sameStart_opening h h'), hq _ ⟨rfl, Iff.rfl⟩, maskFrom_opening h', maskFrom_opening h,
    maskFrom_inside h', maskFrom_inside h, hl.map_blank]

/-! ## What every masked text keeps -/

/-- A character is unchanged, or it is blanked out and was no line feed. -/
def Kept (c d : Char) : Prop := d = c ∨ (c ≠ '\n' ∧ d = ' ')

theorem Kept.refl (c : Char) : Kept c c := Or.inl rfl

theorem kept_blank (c : Char) : Kept c (blank c) := by
  unfold blank
  split
  · exact Or.inl (Eq.symm ‹c = '\n'›)
  · exact Or.inr ⟨‹c ≠ '\n'›, rfl⟩

theorem Step.forall₂_written (st : Step) (s : Text) :
    List.Forall₂ Kept (s.take st.count) (st.written s) := by
  unfold written
  split
  · exact List.forall₂_same.2 fun c _ => .refl c
  · exact List.forall₂_map_right_iff.2 (List.forall₂_same.2 fun c _ => kept_blank c)

/-- Masking goes through a text character by character. -/
theorem forall₂_maskFrom (m : Mode) (s : Text) : List.Forall₂ Kept s (maskFrom m s) := by
  -- Induction on the length, as a step may take several characters.
  induction hn : s.length using Nat.strongRecOn generalizing m s with
  | ind n ih =>
    by_cases hs : s = []
    · rw [hs, maskFrom]
      exact .nil
    have hlt : (s.drop (step m s).count).length < n := by
      have := count_step_pos m s
      have := List.length_pos_iff.2 hs
      rw [List.length_drop]
      omega
    rw [maskFrom_step m hs]
    nth_rewrite 1 [← List.take_append_drop (step m s).count s]
    exact List.rel_append ((step m s).forall₂_written s) (ih _ hlt _ _ rfl)

theorem getElem?_mask {s : Text} {i : Nat} {c d : Char} (hc : s[i]? = some c)
    (hd : (mask s)[i]? = some d) : Kept c d := by
  obtain ⟨hi, rfl⟩ := List.getElem?_eq_some_iff.1 hc
  obtain ⟨hj, rfl⟩ := List.getElem?_eq_some_iff.1 hd
  exact (forall₂_maskFrom .code s).get hi hj

/-- Masking keeps the length and the line feeds. -/
theorem sameLines_mask (s : Text) : SameLines s (mask s) := by
  refine ⟨length_mask s, fun i => ?_⟩
  by_cases hi : i < s.length
  · have hj : i < (mask s).length := by rwa [length_mask]
    have hkept := getElem?_mask (List.getElem?_eq_getElem hi) (List.getElem?_eq_getElem hj)
    rw [List.getElem?_eq_getElem hi, List.getElem?_eq_getElem hj, Option.some.injEq,
      Option.some.injEq]
    rcases hkept with heq | ⟨hne, hspace⟩
    · rw [heq]
    · rw [hspace]
      exact iff_of_false (by decide) hne
  · have hj : ¬ i < (mask s).length := by rwa [length_mask]
    rw [List.getElem?_eq_none (Nat.le_of_not_lt hi), List.getElem?_eq_none (Nat.le_of_not_lt hj)]

/-! ## Comments and literals do not count -/

/-- A comment or literal may hold anything of the same length with line feeds at the same places: the
masked text and the declarations found stay the same. The masked text of any text has its length, its
line feeds at the same places, and its characters unless they are spaces. -/
theorem inside_irrelevant :
    (∀ (m : Mode) (front x x' back : Text),
      Reaches .code (front ++ (m.opening ++ (x ++ back))) .code (m.opening ++ (x ++ back)) →
      Inside m x back → Inside m x' back → SameLines x x' →
      mask (front ++ (m.opening ++ (x' ++ back))) = mask (front ++ (m.opening ++ (x ++ back))) ∧
      ∀ location editable,
        declarations (front ++ (m.opening ++ (x' ++ back))) location editable =
          declarations (front ++ (m.opening ++ (x ++ back))) location editable) ∧
    ∀ content : Text, SameLines content (mask content) ∧
      ∀ (i : Nat) (c : Char), (mask content)[i]? = some c → content[i]? = some c ∨ c = ' ' := by
  refine ⟨fun m front x x' back hr h h' hl => ?_, fun content => ⟨sameLines_mask content, ?_⟩⟩
  · have hmask := mask_inside_eq hr h h' hl
    refine ⟨hmask, fun location editable => ?_⟩
    unfold declarations
    rw [hmask]
  · intro i c hc
    have hi : i < content.length := by
      rw [← length_mask]
      exact (List.getElem?_eq_some_iff.1 hc).1
    rcases getElem?_mask (List.getElem?_eq_getElem hi) hc with heq | ⟨-, hspace⟩
    · rw [heq]
      exact Or.inl (List.getElem?_eq_getElem hi)
    · exact Or.inr hspace

/-- A record behind a comment, which is itself behind a quote in a character literal. -/
def commented (x : Text) : Text :=
  "c='\"';".toList ++ ("/*".toList ++ (x ++ "*/record B()\x7b\x7d".toList))

/-- A class in the comment may as well be brackets and quotes. -/
theorem inside_irrelevant_commented :
    Reaches .code (commented "class A\x7b".toList) .code ((commented "class A\x7b".toList).drop 6) ∧
      SameLines "class A\x7b".toList "\x7d'\"\"\"//*".toList ∧
      mask (commented "\x7d'\"\"\"//*".toList) = mask (commented "class A\x7b".toList) ∧
      declarations (commented "\x7d'\"\"\"//*".toList) none true =
        declarations (commented "class A\x7b".toList) none true := by
  have hreaches : Reaches .code (commented "class A\x7b".toList) .code
      ((commented "class A\x7b".toList).drop 6) :=
    .next (by decide) (.next (by decide) (.next (by decide) (.next (by decide)
      (.next (by decide) (.next (by decide) (.refl _ _))))))
  have hlines : SameLines "class A\x7b".toList "\x7d'\"\"\"//*".toList :=
    .of_not_mem (by decide) (by decide) (by decide)
  have h := inside_irrelevant.1 .blockComment "c='\"';".toList "class A\x7b".toList
    "\x7d'\"\"\"//*".toList "*/record B()\x7b\x7d".toList hreaches (by decide +kernel)
    (by decide +kernel) hlines
  exact ⟨hreaches, hlines, h.1, h.2 none true⟩

end RecordSkeleton.Java
