import RecordSkeleton.Java.Mask
import RecordSkeleton.Proofs.Text.Words

/-!
# Masking piece by piece

A piece of code that is masked to the same text whatever follows it can be masked on its own
(`MaskedTo`), and masking a source built of such pieces is masking the pieces.

1. A text without quotes and comment openers is its own masked form (`mask_eq_self`).
2. Blanks and comments are masked to blanks (`Gap.exists_maskedTo`).
3. A literal on one line keeps its quotes and becomes blank between them (`maskFrom_literal`).
-/

namespace RecordSkeleton.Java

open Text

/-! ## One character of code -/

/-- A character that opens neither a literal nor a comment is code that stays. -/
theorem maskFrom_code_cons {c : Char} {r : Text} (hq : c ≠ '"' ∧ c ≠ '\'')
    (hs : c = '/' → r.head? ≠ some '/' ∧ r.head? ≠ some '*') :
    maskFrom .code (c :: r) = c :: maskFrom .code r := by
  rw [maskFrom]
  · rw [if_neg]
    rintro (h | h)
    · exact hq.1 h
    · exact hq.2 h
  · rintro t h rfl
    exact (hs h).1 rfl
  · rintro t h rfl
    exact (hs h).2 rfl
  · rintro t h rfl
    exact hq.1 h

/-- A text without quotes and comment openers is not changed by masking. -/
theorem mask_eq_self {s : Text} (hq : '"' ∉ s ∧ '\'' ∉ s) (hl : ¬ ['/', '/'] <:+: s)
    (hb : ¬ ['/', '*'] <:+: s) : mask s = s := by
  unfold mask
  induction s with
  | nil => rfl
  | cons c r ih =>
    rw [maskFrom_code_cons, ih]
    · exact ⟨fun h => hq.1 (List.mem_cons_of_mem c h), fun h => hq.2 (List.mem_cons_of_mem c h)⟩
    · exact fun h => hl (h.trans (List.suffix_cons c r).isInfix)
    · exact fun h => hb (h.trans (List.suffix_cons c r).isInfix)
    · exact ⟨fun h => hq.1 (h ▸ List.mem_cons_self), fun h => hq.2 (h ▸ List.mem_cons_self)⟩
    · rintro rfl
      refine ⟨fun h => hl ?_, fun h => hb ?_⟩ <;>
        · obtain ⟨t, rfl⟩ := List.head?_eq_some_iff.1 h
          exact ⟨[], t, rfl⟩

/-! ## Pieces -/

/-- The piece `p` is masked to `q` whatever code follows it. -/
def MaskedTo (p q : Text) : Prop := ∀ r, maskFrom .code (p ++ r) = q ++ maskFrom .code r

namespace MaskedTo

theorem nil : MaskedTo [] [] := fun _ => rfl

theorem append {p q p' q' : Text} (h : MaskedTo p q) (h' : MaskedTo p' q') :
    MaskedTo (p ++ p') (q ++ q') := by
  intro r
  rw [List.append_assoc, h, h', List.append_assoc]

/-- A character that can open neither a literal nor a comment. -/
theorem cons {c : Char} {p q : Text} (hc : c ≠ '"' ∧ c ≠ '\'' ∧ c ≠ '/') (h : MaskedTo p q) :
    MaskedTo (c :: p) (c :: q) := by
  intro r
  rw [List.cons_append, maskFrom_code_cons ⟨hc.1, hc.2.1⟩ fun e => absurd e hc.2.2, h,
    List.cons_append]

theorem of_forall {p : Text} (h : ∀ c ∈ p, c ≠ '"' ∧ c ≠ '\'' ∧ c ≠ '/') : MaskedTo p p := by
  induction p with
  | nil => exact .nil
  | cons c r ih => exact .cons (h c List.mem_cons_self) (ih fun d hd => h d (List.mem_cons_of_mem c hd))

theorem mask_eq {p q : Text} (h : MaskedTo p q) : mask p = q := by
  have := h []
  rwa [List.append_nil, maskFrom, List.append_nil] at this

theorem length_eq {p q : Text} (h : MaskedTo p q) : q.length = p.length := by
  rw [← h.mask_eq, length_mask]

theorem ne_nil {p q : Text} (h : MaskedTo p q) (hp : p ≠ []) : q ≠ [] := by
  intro hq
  have := h.length_eq
  rw [hq] at this
  exact hp (List.length_eq_zero_iff.1 this.symm)

end MaskedTo

/-! ## Blanks and comments -/

/-- Blanks and comments, in any order. A line comment holds its line feed. -/
inductive Gap : Text → Prop
  | nil : Gap []
  /-- A blank. -/
  | blank {c : Char} {g : Text} (hc : isBlank c = true) (hg : Gap g) : Gap (c :: g)
  /-- A comment up to the end of its line. -/
  | lineComment {x g : Text} (hx : '\n' ∉ x) (hg : Gap g) : Gap ('/' :: '/' :: (x ++ '\n' :: g))
  /-- A comment up to an asterisk and a slash. -/
  | blockComment {x g : Text} (hx : ¬ ['*', '/'] <:+: x) (hg : Gap g) :
    Gap ('/' :: '*' :: (x ++ '*' :: '/' :: g))

theorem isBlank_blank (c : Char) : isBlank (blank c) = true := by
  unfold blank
  split <;> decide

theorem allBlank_map_blank (x : Text) : AllBlank (x.map blank) := by
  intro c hc
  obtain ⟨d, _, rfl⟩ := List.mem_map.1 hc
  exact isBlank_blank d

theorem maskFrom_lineComment_body {x : Text} (hx : '\n' ∉ x) (r : Text) :
    maskFrom .lineComment (x ++ r) = x.map blank ++ maskFrom .lineComment r := by
  induction x with
  | nil => rfl
  | cons c x ih =>
    have hc : c ≠ '\n' := fun h => hx (h ▸ List.mem_cons_self)
    have hx' := ih fun h => hx (List.mem_cons_of_mem c h)
    rw [List.cons_append, maskFrom, if_neg hc, hx', List.map_cons, List.cons_append]

theorem maskFrom_lineComment {x : Text} (hx : '\n' ∉ x) (r : Text) :
    maskFrom .lineComment (x ++ '\n' :: r) = x.map blank ++ '\n' :: maskFrom .code r := by
  rw [maskFrom_lineComment_body hx]
  rfl

theorem maskFrom_blockComment {x : Text} (hx : ¬ ['*', '/'] <:+: x) (r : Text) :
    maskFrom .blockComment (x ++ '*' :: '/' :: r) = x.map blank ++ ' ' :: ' ' :: maskFrom .code r := by
  induction x with
  | nil => rfl
  | cons c x ih =>
    have hx' := ih fun h => hx (h.trans (List.suffix_cons c x).isInfix)
    rw [List.cons_append, maskFrom, hx', List.map_cons, List.cons_append]
    -- The comment does not end at `c`: that would put its end inside the body.
    rintro t rfl ht
    cases x with
    | nil => cases ht
    | cons d y =>
      cases ht
      exact hx ⟨[], y, rfl⟩

theorem Gap.exists_maskedTo {g : Text} (h : Gap g) : ∃ w, AllBlank w ∧ MaskedTo g w := by
  induction h with
  | nil => exact ⟨[], allBlank_nil, .nil⟩
  | @blank c g hc _ ih =>
    obtain ⟨w, hw, hm⟩ := ih
    have hne : c ≠ '"' ∧ c ≠ '\'' ∧ c ≠ '/' := by
      refine ⟨?_, ?_, ?_⟩ <;> (rintro rfl; exact absurd hc (by decide))
    exact ⟨c :: w, allBlank_cons hc hw, .cons hne hm⟩
  | @lineComment x g hx _ ih =>
    obtain ⟨w, hw, hm⟩ := ih
    refine ⟨' ' :: ' ' :: (x.map Java.blank ++ '\n' :: w), ?_, fun r => ?_⟩
    · exact allBlank_cons (by decide) (allBlank_cons (by decide)
        ((allBlank_map_blank x).append (allBlank_cons (by decide) hw)))
    · simp only [List.cons_append, List.append_assoc]
      rw [maskFrom, maskFrom_lineComment hx, hm]
  | @blockComment x g hx _ ih =>
    obtain ⟨w, hw, hm⟩ := ih
    refine ⟨' ' :: ' ' :: (x.map Java.blank ++ ' ' :: ' ' :: w), ?_, fun r => ?_⟩
    · exact allBlank_cons (by decide) (allBlank_cons (by decide) ((allBlank_map_blank x).append
        (allBlank_cons (by decide) (allBlank_cons (by decide) hw))))
    · simp only [List.cons_append, List.append_assoc]
      rw [maskFrom, maskFrom_blockComment hx, hm]

/-! ## Literals on one line -/

theorem maskFrom_literal_close (q : Char) (r : Text) :
    maskFrom (.literal q) (q :: r) = q :: maskFrom .code r := by
  rw [maskFrom.eq_def]
  simp

theorem maskFrom_literal_cons {q c : Char} (hc : c ≠ q ∧ c ≠ '\\' ∧ c ≠ '\n') (r : Text) :
    maskFrom (.literal q) (c :: r) = ' ' :: maskFrom (.literal q) r := by
  rw [maskFrom.eq_def]
  simp [hc]

theorem maskFrom_literal_body {q : Char} {x : Text} (hx : ∀ c ∈ x, c ≠ q ∧ c ≠ '\\' ∧ c ≠ '\n')
    (r : Text) :
    maskFrom (.literal q) (x ++ r) = List.replicate x.length ' ' ++ maskFrom (.literal q) r := by
  induction x with
  | nil => rfl
  | cons c x ih =>
    rw [List.cons_append, maskFrom_literal_cons (hx c List.mem_cons_self),
      ih fun d hd => hx d (List.mem_cons_of_mem c hd)]
    rfl

/-- A string literal without escapes that no further quote follows. -/
theorem maskFrom_literal {x : Text} (hx : ∀ c ∈ x, c ≠ '"' ∧ c ≠ '\\' ∧ c ≠ '\n') {r : Text}
    (hr : r.head? ≠ some '"') :
    maskFrom .code ('"' :: (x ++ '"' :: r)) =
      '"' :: (List.replicate x.length ' ' ++ '"' :: maskFrom .code r) := by
  -- Three quotes in a row would be two of the literal's own and one more behind it.
  have hopen : ∀ t, x ++ '"' :: r ≠ '"' :: '"' :: t := by
    intro t ht
    cases x with
    | nil =>
      rw [List.nil_append, List.cons.injEq] at ht
      exact hr (by rw [ht.2]; rfl)
    | cons c x =>
      rw [List.cons_append, List.cons.injEq] at ht
      exact (hx c List.mem_cons_self).1 ht.1
  rw [maskFrom, if_pos (Or.inl rfl), maskFrom_literal_body hx, maskFrom_literal_close]
  · rintro t ⟨⟩
  · rintro t ⟨⟩
  · exact fun t _ ht => hopen t ht

end RecordSkeleton.Java
