import RecordSkeleton.Proofs.Java.Hidden

/-!
# Text blocks

The inside of a text block is made of characters and of escapes, a backslash with the character that it
hides, and the block ends at the first three quotes that no backslash hides. The scan looks for three
quotes and for no backslash.

1. Behind the opening quotes a text is blanked out up to the three quotes at its end exactly when no
   three quotes stand in front of these (`maskFrom_textBlock_iff`).
2. In the inside of a text block only an escaped quote can be the first of three (`quotes_infix_iff`).
3. Hence a text block is blanked out up to its real end, with the scan back in code behind it, exactly
   when none of its escaped quotes has two quotes behind it (`textBlock_hidden_iff`).
-/

namespace RecordSkeleton.Java

open Text

/-! ## The inside of a text block -/

/-- A piece of the inside of a text block. -/
inductive BlockPiece where
  | char (c : Char)
  /-- A backslash and the character that it hides. -/
  | escape (c : Char)
  deriving DecidableEq

/-- The characters that a piece is written with. -/
def BlockPiece.text : BlockPiece → Text
  | char c => [c]
  | escape c => ['\\', c]

/-- A quote that no backslash hides. -/
def BlockPiece.quote : BlockPiece := .char '"'

/-- The pieces between the quotes of a text block. -/
structure IsBlockBody (body : List BlockPiece) : Prop where
  /-- A backslash hides the character behind it. -/
  backslash : .char '\\' ∉ body
  quotes : ¬ [.quote, .quote, .quote] <:+: body
  /-- The first of the closing quotes is no part of the inside. -/
  last : body.getLast? ≠ some .quote

/-- The text of a text block's inside. -/
def blockText (body : List BlockPiece) : Text := body.flatMap BlockPiece.text

/-- What opens and closes a text block. -/
def blockQuotes : Text := ['"', '"', '"']

theorem exists_of_prefix_blockText {body : List BlockPiece} {t : Text}
    (h : '"' :: t <+: blockText body) : ∃ ps, body = .quote :: ps ∧ t <+: blockText ps := by
  cases body with
  | nil => exact absurd h (by simp [blockText])
  | cons p ps =>
    cases p with
    | char c =>
      obtain ⟨rfl, ht⟩ := List.cons_prefix_cons.1 h
      exact ⟨ps, rfl, ht⟩
    | escape c => exact absurd (List.cons_prefix_cons.1 h).1 (by decide)

/-- Three quotes in the text of some pieces start with an escaped one, unless three pieces in a row are
quotes. -/
theorem escaped_of_quotes_infix {body : List BlockPiece}
    (hq : ¬ [.quote, .quote, .quote] <:+: body) (h : blockQuotes <:+: blockText body) :
    '\\' :: blockQuotes <:+: blockText body := by
  induction body with
  | nil => exact absurd h (by decide)
  | cons p ps ih =>
    have hps := ih fun h => hq (h.trans (List.suffix_cons p ps).isInfix)
    cases p with
    | char c =>
      rcases List.infix_cons_iff.1 h with hfront | hback
      · obtain ⟨rfl, h₁⟩ := List.cons_prefix_cons.1 hfront
        obtain ⟨ps₁, rfl, h₂⟩ := exists_of_prefix_blockText h₁
        obtain ⟨ps₂, rfl, -⟩ := exists_of_prefix_blockText h₂
        exact absurd ⟨[], ps₂, rfl⟩ hq
      · exact List.infix_cons (hps hback)
    | escape c =>
      rcases List.infix_cons_iff.1 h with hfront | hback
      · exact absurd (List.cons_prefix_cons.1 hfront).1 (by decide)
      · rcases List.infix_cons_iff.1 hback with hfront | hback
        · exact (List.cons_prefix_cons.2 ⟨rfl, hfront⟩).isInfix
        · exact List.infix_cons (List.infix_cons (hps hback))

/-- No three pieces in a row are quotes when two quotes are put behind the inside of a text block. -/
theorem IsBlockBody.not_quotes_append {body : List BlockPiece} (h : IsBlockBody body) :
    ¬ [.quote, .quote, .quote] <:+: body ++ [.quote, .quote] := by
  obtain ⟨-, hq, hlast⟩ := h
  induction body with
  | nil => exact fun h => absurd h.length_le (by decide)
  | cons p ps ih =>
    intro hi
    rcases List.infix_cons_iff.1 hi with hfront | hback
    · cases ps with
      | nil => exact hlast (by rw [(List.cons_prefix_cons.1 hfront).1]; rfl)
      | cons r rs =>
        obtain ⟨rfl, h₁⟩ := List.cons_prefix_cons.1 hfront
        obtain ⟨rfl, h₂⟩ := List.cons_prefix_cons.1 h₁
        cases rs with
        | nil => exact hlast rfl
        | cons u us =>
          obtain ⟨rfl, -⟩ := List.cons_prefix_cons.1 h₂
          exact hq ⟨[], us, rfl⟩
    · refine ih (fun h => hq (h.trans (List.suffix_cons p ps).isInfix)) (fun h => hlast ?_) hback
      rw [List.getLast?_cons, h]
      rfl

/-- The inside of a text block and two of its closing quotes hold three quotes in a row exactly when
they hold an escaped quote and two more. -/
theorem quotes_infix_iff {body : List BlockPiece} (h : IsBlockBody body) :
    blockQuotes <:+: blockText body ++ ['"', '"'] ↔
      '\\' :: blockQuotes <:+: blockText body ++ ['"', '"'] := by
  have htext : blockText body ++ ['"', '"'] = blockText (body ++ [.quote, .quote]) := by
    simp [blockText, BlockPiece.text, BlockPiece.quote]
  refine ⟨fun hi => ?_, fun hi => (List.suffix_cons _ _).isInfix.trans hi⟩
  rw [htext] at hi ⊢
  exact escaped_of_quotes_infix h.not_quotes_append hi

/-! ## Where the scan ends a text block -/

/-- Three quotes that are met early stand in the text and the first two of its closing quotes. -/
theorem prefix_append_quotes_iff {c : Char} {x : Text} (back : Text) :
    blockQuotes <+: c :: (x ++ (blockQuotes ++ back)) ↔ blockQuotes <+: c :: (x ++ ['"', '"']) := by
  have hlong : c :: (x ++ ['"', '"']) <+: c :: (x ++ (blockQuotes ++ back)) :=
    ⟨'"' :: back, by simp [blockQuotes]⟩
  refine ⟨fun h => List.prefix_of_prefix_length_le h hlong ?_, fun h => h.trans hlong⟩
  simp [blockQuotes]

/-- A text block is blanked out up to the quotes behind a text exactly when no three quotes in a row
come before these. -/
theorem maskFrom_textBlock_iff {x back : Text} :
    maskFrom .textBlock (x ++ (blockQuotes ++ back)) =
        x.map blank ++ (blockQuotes ++ maskFrom .code back) ↔
      ¬ blockQuotes <:+: x ++ ['"', '"'] := by
  induction x with
  | nil => exact iff_of_true rfl (by decide)
  | cons c x ih =>
    rw [List.cons_append, List.cons_append, List.map_cons, List.cons_append, List.infix_cons_iff,
      ← prefix_append_quotes_iff back, not_or, ← ih]
    by_cases hc : blockQuotes <+: c :: (x ++ (blockQuotes ++ back))
    · -- The block ends here, and its closing quote stays.
      refine iff_of_false (fun h => ?_) (fun h => h.1 hc)
      obtain ⟨t, ht⟩ := hc
      rw [← ht] at h
      have hquote : '"' = blank c := (List.cons.inj h).1
      exact absurd (hquote ▸ isBlank_blank c) (by decide)
    · rw [maskFrom, List.cons.injEq]
      · exact ⟨fun h => ⟨hc, h.2⟩, fun h => ⟨rfl, h.2⟩⟩
      · rintro t rfl ht
        exact hc ⟨t, by rw [ht]; rfl⟩

/-! ## The scan behind a text block -/

theorem Reaches.trans {m m' m'' : Mode} {s t r : Text} (h : Reaches m s m' t)
    (h' : Reaches m' t m'' r) : Reaches m s m'' r := by
  induction h with
  | refl => exact h'
  | next hs _ ih => exact .next hs (ih h')

theorem reaches_textBlock {x : Text} (hx : ¬ blockQuotes <:+: x ++ ['"', '"']) (back : Text) :
    Reaches .textBlock (x ++ (blockQuotes ++ back)) .code back := by
  induction x with
  | nil => exact .next (List.cons_ne_nil _ _) (.refl _ _)
  | cons c x ih =>
    rw [List.cons_append, List.infix_cons_iff, ← prefix_append_quotes_iff back] at hx
    have hstep : step .textBlock (c :: (x ++ (blockQuotes ++ back))) = ⟨.textBlock, 1, false⟩ :=
      if_neg fun h => hx (Or.inl h)
    refine .next (List.cons_ne_nil _ _) ?_
    rw [List.cons_append, hstep]
    exact ih fun h => hx (Or.inr h)

/-- From an offset that the scan comes to, the masked text is the masked form of what stands there. -/
theorem Reaches.drop_mask {front r : Text} (h : Reaches .code (front ++ r) .code r) (hr : r ≠ []) :
    (mask (front ++ r)).drop front.length = maskFrom .code r := by
  obtain ⟨q, hq⟩ := h.exists_maskFrom hr front rfl
  have hmask : mask (front ++ r) = q ++ maskFrom .code r := hq r ⟨rfl, Iff.rfl⟩
  have hlength : q.length = front.length := by
    have := congrArg List.length hmask
    rw [length_mask, List.length_append, List.length_append, length_maskFrom] at this
    omega
  rw [hmask, ← hlength, List.drop_left]

/-! ## Text blocks in a source -/

/-- A text block that the scan comes to in code is blanked out up to its real end, its quotes stay, and
the scan goes on in code right behind it, exactly when no escaped quote in it has two quotes behind it,
those of the closing ones included. -/
theorem textBlock_hidden_iff {front back : Text} {body : List BlockPiece} (hbody : IsBlockBody body)
    (hr : Reaches .code (front ++ (blockQuotes ++ (blockText body ++ (blockQuotes ++ back)))) .code
      (blockQuotes ++ (blockText body ++ (blockQuotes ++ back)))) :
    ((mask (front ++ (blockQuotes ++ (blockText body ++ (blockQuotes ++ back))))).drop front.length =
        blockQuotes ++ ((blockText body).map blank ++ (blockQuotes ++ maskFrom .code back)) ∧
      Reaches .code (front ++ (blockQuotes ++ (blockText body ++ (blockQuotes ++ back)))) .code
        back) ↔
      ¬ '\\' :: blockQuotes <:+: blockText body ++ ['"', '"'] := by
  have hopen : ∀ t, maskFrom .code (blockQuotes ++ t) = blockQuotes ++ maskFrom .textBlock t :=
    fun _ => rfl
  rw [hr.drop_mask (List.cons_ne_nil _ _), hopen, List.append_cancel_left_eq, maskFrom_textBlock_iff,
    quotes_infix_iff hbody]
  refine and_iff_left_of_imp fun h => hr.trans ?_
  exact .next (List.cons_ne_nil _ _) (reaches_textBlock (mt (quotes_infix_iff hbody).1 h) back)

/-- A line feed, an escaped quote with one quote behind it, two quotes, a brace and a backslash. -/
def bracedBody : List BlockPiece :=
  [.char '\n', .escape '"', .quote, .char 'a', .quote, .quote, .char '\x7b', .escape '\\']

theorem textBlock_hidden_braced :
    IsBlockBody bracedBody ∧
      Reaches .code ("s=".toList ++ (blockQuotes ++ (blockText bracedBody ++ (blockQuotes ++ [';']))))
        .code (blockQuotes ++ (blockText bracedBody ++ (blockQuotes ++ [';']))) ∧
      ¬ '\\' :: blockQuotes <:+: blockText bracedBody ++ ['"', '"'] ∧
      (mask ("s=".toList ++ (blockQuotes ++ (blockText bracedBody ++ (blockQuotes ++ [';']))))).drop 2 =
        blockQuotes ++ ((blockText bracedBody).map blank ++ (blockQuotes ++ maskFrom .code [';'])) ∧
      Reaches .code ("s=".toList ++ (blockQuotes ++ (blockText bracedBody ++ (blockQuotes ++ [';']))))
        .code [';'] := by
  have hbody : IsBlockBody bracedBody := ⟨by decide, by decide, by decide⟩
  have hreaches : Reaches .code
      ("s=".toList ++ (blockQuotes ++ (blockText bracedBody ++ (blockQuotes ++ [';'])))) .code
      (blockQuotes ++ (blockText bracedBody ++ (blockQuotes ++ [';']))) :=
    .next (by decide) (.next (by decide) (.refl _ _))
  have hescaped : ¬ '\\' :: blockQuotes <:+: blockText bracedBody ++ ['"', '"'] := by decide
  exact ⟨hbody, hreaches, hescaped, (textBlock_hidden_iff hbody hreaches).2 hescaped⟩

/-- An escaped quote and two more, and a letter. -/
def tripleBody : List BlockPiece := [.escape '"', .quote, .quote, .char 'x']

/-- The escaped quote ends the text block: the letter is taken for code, and what follows the closing
quotes for the inside of another text block. -/
theorem mask_tripleBody :
    IsBlockBody tripleBody ∧
      Reaches .code (blockQuotes ++ (blockText tripleBody ++ (blockQuotes ++ ['y']))) .code
        (blockQuotes ++ (blockText tripleBody ++ (blockQuotes ++ ['y']))) ∧
      mask (blockQuotes ++ (blockText tripleBody ++ (blockQuotes ++ ['y']))) =
        blockQuotes ++ ([' '] ++ (blockQuotes ++ (['x'] ++ (blockQuotes ++ [' '])))) ∧
      mask (blockQuotes ++ (blockText tripleBody ++ (blockQuotes ++ ['y']))) ≠
        blockQuotes ++ ((blockText tripleBody).map blank ++ (blockQuotes ++ maskFrom .code ['y'])) :=
  ⟨⟨by decide, by decide, by decide⟩, .refl _ _, by decide +kernel, by decide +kernel⟩

end RecordSkeleton.Java
