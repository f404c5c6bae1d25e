import RecordSkeleton.Proofs.Java.Hidden

/-!
# Masking a masked text

A masked text may be masked again. The quotes of its literals still stand where they stood, its
comments are gone, and what is left of an escape are two spaces.

1. A sign without spaces that stands in the masked text stood there before
   (`prefix_of_prefix_maskFrom`), so no literal, text block or comment opens that did not open before.
2. Going through a masked text again, the scan is in code where it was in a comment, and in the same
   mode anywhere else (`maskFrom_again`).
3. Hence a masked text is its own masked form and holds the same declarations, unless a backslash hides
   a line feed (`mask_mask`): that one stays, and ends its literal the second time.
-/

namespace RecordSkeleton.Java

open Text

/-! ## Characters of a masked text -/

theorem prefix_of_forall₂ {s t p : Text} (h : List.Forall₂ Kept s t) (hp : ' ' ∉ p) (ht : p <+: t) :
    p <+: s := by
  induction h generalizing p with
  | nil => exact ht
  | @cons c d s t hcd _ ih =>
    cases p with
    | nil => exact List.nil_prefix
    | cons e p =>
      obtain ⟨rfl, hpt⟩ := List.cons_prefix_cons.1 ht
      rcases hcd with rfl | ⟨-, rfl⟩
      · exact List.cons_prefix_cons.2 ⟨rfl, ih (fun hm => hp (List.mem_cons_of_mem _ hm)) hpt⟩
      · exact absurd List.mem_cons_self hp

/-- A sign without spaces at the front of a masked text stands at the front of the text. -/
theorem prefix_of_prefix_maskFrom {m : Mode} {s p : Text} (hp : ' ' ∉ p) (h : p <+: maskFrom m s) :
    p <+: s :=
  prefix_of_forall₂ (forall₂_maskFrom m s) hp h

/-! ## One character of a masked text -/

theorem blank_ne {c d : Char} (h₁ : d ≠ '\n') (h₂ : d ≠ ' ') : blank c ≠ d := by
  unfold blank
  split
  · exact h₁.symm
  · exact h₂.symm

theorem blank_blank (c : Char) : blank (blank c) = blank c := by
  unfold blank
  split
  · rfl
  · exact if_neg (by decide)

/-- A blanked character is code that stays, whatever follows it. -/
theorem maskFrom_code_blank (c : Char) (r : Text) :
    maskFrom .code (blank c :: r) = blank c :: maskFrom .code r :=
  maskFrom_code_cons ⟨blank_ne (by decide) (by decide), blank_ne (by decide) (by decide)⟩
    fun h => absurd h (blank_ne (by decide) (by decide))

theorem maskFrom_textBlock_blank (c : Char) (r : Text) :
    maskFrom .textBlock (blank c :: r) = blank c :: maskFrom .textBlock r := by
  rw [maskFrom, blank_blank]
  exact fun t h _ => blank_ne (by decide) (by decide) h

theorem maskFrom_literal_space {q : Char} (hq : q ≠ ' ') (r : Text) :
    maskFrom (.literal q) (' ' :: r) = ' ' :: maskFrom (.literal q) r :=
  maskFrom_literal_cons ⟨hq.symm, by decide, by decide⟩ r

theorem maskFrom_literal_end {q c : Char} (h : c = q ∨ c = '\n') (r : Text) :
    maskFrom (.literal q) (c :: r) = c :: maskFrom .code r := by
  rw [maskFrom.eq_def]
  simp only [if_pos h]

/-- A character of code that opens no comment and no text block is read in the same way when the text
behind it is masked. -/
theorem maskFrom_code_masked {c : Char} {r : Text} {m : Mode}
    (h₁ : ¬ ['/', '/'] <+: c :: r) (h₂ : ¬ ['/', '*'] <+: c :: r)
    (h₃ : ¬ ['"', '"', '"'] <+: c :: r) :
    maskFrom .code (c :: maskFrom m r) =
      c :: maskFrom (if c = '"' ∨ c = '\'' then .literal c else .code) (maskFrom m r) := by
  have hsign : ∀ {d : Char} {p : Text}, ' ' ∉ p → ¬ d :: p <+: c :: r →
      c = d → ¬ p <+: maskFrom m r := by
    rintro d p hp hd rfl h
    exact hd (List.cons_prefix_cons.2 ⟨rfl, prefix_of_prefix_maskFrom hp h⟩)
  rw [maskFrom]
  · exact fun t hc ht => hsign (p := ['/']) (by decide) h₁ hc ⟨t, ht.symm⟩
  · exact fun t hc ht => hsign (p := ['*']) (by decide) h₂ hc ⟨t, ht.symm⟩
  · exact fun t hc ht => hsign (p := ['"', '"']) (by decide) h₃ hc ⟨t, ht.symm⟩

/-! ## The second scan -/

/-- The mode in which a masked text is gone through where the text was gone through in the given
one. -/
def Mode.again : Mode → Mode
  | code | lineComment | blockComment => code
  | textBlock => textBlock
  | literal q => literal q

/-- Two spaces, as an opening, a closing or an escape leaves them. -/
theorem maskFrom_code_spaces (r : Text) :
    maskFrom .code (' ' :: ' ' :: r) = ' ' :: ' ' :: maskFrom .code r := by
  have hspace := maskFrom_code_blank ' '
  exact (hspace _).trans (congrArg _ (hspace r))

/-- Going through a masked text again changes nothing. No literal is set in spaces: its own inside
would end it. -/
theorem maskFrom_again {m : Mode} {s : Text} (hs : ¬ ['\\', '\n'] <:+: s) (hm : m ≠ .literal ' ') :
    maskFrom m.again (maskFrom m s) = maskFrom m s := by
  have htail : ∀ {c : Char} {r : Text}, ¬ ['\\', '\n'] <:+: c :: r → ¬ ['\\', '\n'] <:+: r :=
    fun h h' => h (h'.trans (List.suffix_cons _ _).isInfix)
  fun_induction maskFrom m s with
  | case1 m => rfl
  | case2 r ih | case3 r ih | case7 r ih =>
    exact (maskFrom_code_spaces _).trans (congrArg (' ' :: ' ' :: ·) (ih (htail (htail hs)) (by decide)))
  | case4 r ih | case9 r ih =>
    exact congrArg ('"' :: '"' :: '"' :: ·) (ih (htail (htail (htail hs))) (by decide))
  | case5 c r h₁ h₂ h₃ ih =>
    have hmode : ∀ m : Mode, m = (if c = '"' ∨ c = '\'' then .literal c else .code) →
        m.again = m ∧ m ≠ .literal ' ' := by
      rintro m rfl
      split
      · rename_i hq
        refine ⟨rfl, ?_⟩
        rintro ⟨⟩
        exact absurd hq (by decide)
      · exact ⟨rfl, by decide⟩
    obtain ⟨hagain, hne⟩ := hmode _ rfl
    have hr := ih (htail hs) hne
    rw [hagain] at hr
    refine (maskFrom_code_masked ?_ ?_ ?_).trans (congrArg (c :: ·) hr)
    · rintro ⟨t, ht⟩; cases ht; exact h₁ _ rfl rfl
    · rintro ⟨t, ht⟩; cases ht; exact h₂ _ rfl rfl
    · rintro ⟨t, ht⟩; cases ht; exact h₃ _ rfl rfl
  | case6 c r ih =>
    have hcode : Mode.again (if c = '\n' then .code else .lineComment) = .code := by split <;> rfl
    have hr := ih (htail hs) (by split <;> decide)
    rw [hcode] at hr
    exact (maskFrom_code_blank c _).trans (congrArg (blank c :: ·) hr)
  | case8 c r h ih =>
    exact (maskFrom_code_blank c _).trans (congrArg (blank c :: ·) (ih (htail hs) (by decide)))
  | case10 c r h ih =>
    exact (maskFrom_textBlock_blank c _).trans (congrArg (blank c :: ·) (ih (htail hs) (by decide)))
  | case11 q c r h ih =>
    exact (maskFrom_literal_end h _).trans (congrArg (c :: ·) (ih (htail hs) (by decide)))
  | case12 q h =>
    have hq : q ≠ ' ' := fun h => hm (by rw [h])
    exact maskFrom_literal_space hq []
  | case13 q e t h ih =>
    have hq : q ≠ ' ' := fun h => hm (by rw [h])
    -- The hidden character is no line feed, so it left a space as well.
    have he : blank e = ' ' := if_neg fun he => hs ⟨[], t, by rw [he]; rfl⟩
    rw [he]
    refine (maskFrom_literal_space hq _).trans (congrArg (' ' :: ·) ?_)
    exact (maskFrom_literal_space hq _).trans (congrArg (' ' :: ·) (ih (htail (htail hs)) hm))
  | case14 q c r h h' ih =>
    have hq : q ≠ ' ' := fun h => hm (by rw [h])
    exact (maskFrom_literal_space hq _).trans (congrArg (' ' :: ·) (ih (htail hs) hm))

/-! ## Masked sources -/

/-- A masked text is its own masked form, and the declarations found in it are those of the text, when
no backslash stands right in front of a line feed. -/
theorem mask_mask {content : Text} (h : ¬ ['\\', '\n'] <:+: content) :
    mask (mask content) = mask content ∧
      ∀ location editable,
        declarations (mask content) location editable = declarations content location editable := by
  have hmask : mask (mask content) = mask content := maskFrom_again (m := .code) h (by decide)
  refine ⟨hmask, fun location editable => ?_⟩
  unfold declarations
  rw [hmask]

/-- A class with an escaped quote, the sign of a comment in a literal, a quote in a comment, and a text
block that is never closed. -/
def unclosedSource : Text := "class A\x7bString s=\"\\\"/*\"+'\\'';/*\"*/\x7d\"\"\"\"(\n".toList

theorem mask_mask_unclosedSource :
    ¬ ['\\', '\n'] <:+: unclosedSource ∧
      mask (mask unclosedSource) = mask unclosedSource ∧
      declarations (mask unclosedSource) none true = declarations unclosedSource none true := by
  have h : ¬ ['\\', '\n'] <:+: unclosedSource := by decide +kernel
  exact ⟨h, (mask_mask h).1, (mask_mask h).2 none true⟩

end RecordSkeleton.Java
