import RecordSkeleton.Proofs.Text.Identifier
import RecordSkeleton.Proofs.TypeExpr.Print

/-!
# Spelled types

`TypesSpelling gap ts s` says that `s` spells the types `ts`, one comma between two neighbours, with
texts that satisfy `gap` around every name, bracket and comma. With blanks for gaps:

1. a spelling of one type is a print, which is read as that type (`ofText_spelling`);
2. putting the words of a spelling one space apart spells the same types (`ofText_join_words`).
-/

namespace RecordSkeleton

open Text

/-- The spellings of a non-empty list of types, separated by commas. -/
inductive TypesSpelling (gap : Text → Prop) : List TypeExpr → Text → Prop
  /-- A name alone. -/
  | name {n g g' : Text} (hg : gap g) (hn : isIdentifier n = true) (hg' : gap g') :
    TypesSpelling gap [.plain n] (g ++ (n ++ g'))
  /-- A name with arguments in angle brackets. -/
  | generic {n : Text} {args : List TypeExpr} {g g₁ a g₂ : Text} (hg : gap g)
    (hn : isIdentifier n = true) (hg₁ : gap g₁) (ha : TypesSpelling gap args a) (hg₂ : gap g₂) :
    TypesSpelling gap [.generic n args] (g ++ (n ++ (g₁ ++ '<' :: (a ++ '>' :: g₂))))
  /-- A type in front of others. -/
  | comma {t : TypeExpr} {ts : List TypeExpr} {s s' : Text} (hs : TypesSpelling gap [t] s)
    (hs' : TypesSpelling gap ts s') : TypesSpelling gap (t :: ts) (s ++ ',' :: s')

/-! ## Brackets in a spelling -/

namespace TypesSpelling

variable {ts : List TypeExpr} {s : Text}

/-- A spelling is nested for every count in which the angle brackets are partners or do not count,
and no other character does. -/
theorem nested {w : Char → Int} (hb : ∀ c, isBlank c = true → w c = 0)
    (hi : ∀ c, isIdentifierChar c = true → w c = 0) (hc : w ',' = 0)
    (ha : w '<' = 1 ∧ w '>' = -1 ∨ w '<' = 0 ∧ w '>' = 0)
    (h : TypesSpelling AllBlank ts s) : Nested w s := by
  have hgap : ∀ {g : Text}, AllBlank g → Nested w g := fun hg => .of_forall fun c hc => hb c (hg c hc)
  have hname : ∀ {n : Text}, isIdentifier n = true → Nested w n := fun hn =>
    .of_forall fun c hc => hi c (isIdentifierChar_of_mem hn c hc)
  induction h with
  | name hg hn hg' => exact (hgap hg).append ((hname hn).append (hgap hg'))
  | @generic n args g g₁ a g₂ hg hn hg₁ _ hg₂ ih =>
    have hargs : Nested w ('<' :: (a ++ ['>'])) := by
      rcases ha with ⟨ho, hc⟩ | ⟨ho, hc⟩
      · exact ih.wrap ho hc
      · exact .cons ho (ih.append (.singleton hc))
    have := (hgap hg).append ((hname hn).append ((hgap hg₁).append (hargs.append (hgap hg₂))))
    simpa using this
  | comma _ _ ih ih' => exact ih.append (.cons hc ih')

end TypesSpelling

/-! ## Reading a spelling -/

theorem IsBaseName.of_identifier {n : Text} (hn : isIdentifier n = true) : IsBaseName n where
  ne_nil := ne_nil_of_isIdentifier hn
  trim_eq := trim_identifier hn
  plain := by
    intro c hc
    have hi := isIdentifierChar_of_mem hn c hc
    exact ⟨ne_of_isIdentifierChar hi (by decide), ne_of_isIdentifierChar hi (by decide),
      ne_of_isIdentifierChar hi (by decide)⟩

namespace TypesSpelling

theorem ne_nil {gap : Text → Prop} {ts : List TypeExpr} {s : Text} (h : TypesSpelling gap ts s) :
    ts ≠ [] := by
  cases h with
  | name => exact List.cons_ne_nil _ _
  | generic => exact List.cons_ne_nil _ _
  | comma => exact List.cons_ne_nil _ _

/-- A spelling with blanks for gaps is a print. -/
theorem print {ts : List TypeExpr} {s : Text} (h : TypesSpelling AllBlank ts s) :
    TypesPrint ts s := by
  induction h with
  | name hg hn hg' => exact .plain hg (.of_identifier hn) hg'
  | generic hg hn hg₁ _ hg₂ ih => exact .generic hg (.of_identifier hn) hg₁ ih hg₂
  | @comma t ts s s' _ hs' ih ih' =>
    obtain ⟨u, us, rfl⟩ := List.exists_cons_of_ne_nil hs'.ne_nil
    exact .comma ih ih'

end TypesSpelling

namespace TypeExpr

theorem ofText_spelling {t : TypeExpr} {s : Text} (h : TypesSpelling AllBlank [t] s) :
    ofText s = t :=
  ofText_of_segments (map_ofText_segments h.print (List.cons_ne_nil t [])).1

/-! ## Words one space apart -/

/-- Squeezing the blanks of a spelling leaves a spelling of the same types, whatever follows. -/
theorem squeezeTail_spelling {ts : List TypeExpr} {s : Text} (h : TypesSpelling AllBlank ts s) :
    ∀ r, ∃ s', TypesSpelling AllBlank ts s' ∧ squeezeTail (s ++ r) = s' ++ squeezeTail r := by
  induction h with
  | @name n g g' hg hn hg' =>
    intro r
    obtain ⟨v, hv, e⟩ := squeezeTail_blanks_append hg (n ++ (g' ++ r))
    obtain ⟨v', hv', e'⟩ := squeezeTail_blanks_append hg' r
    refine ⟨v ++ (n ++ v'), .name hv hn hv', ?_⟩
    rw [List.append_assoc, List.append_assoc, e, squeezeTail_append (not_isBlank_of_mem_identifier hn),
      e']
    simp only [List.append_assoc]
  | @generic n args g g₁ a g₂ hg hn hg₁ ha hg₂ ih =>
    intro r
    obtain ⟨v, hv, e⟩ := squeezeTail_blanks_append hg (n ++ (g₁ ++ '<' :: (a ++ '>' :: (g₂ ++ r))))
    obtain ⟨v₁, hv₁, e₁⟩ := squeezeTail_blanks_append hg₁ ('<' :: (a ++ '>' :: (g₂ ++ r)))
    obtain ⟨a', ha', ea⟩ := ih ('>' :: (g₂ ++ r))
    obtain ⟨v₂, hv₂, e₂⟩ := squeezeTail_blanks_append hg₂ r
    refine ⟨v ++ (n ++ (v₁ ++ '<' :: (a' ++ '>' :: v₂))), .generic hv hn hv₁ ha' hv₂, ?_⟩
    simp only [List.append_assoc, List.cons_append]
    rw [e, squeezeTail_append (not_isBlank_of_mem_identifier hn), e₁, squeezeTail_cons (by decide), ea,
      squeezeTail_cons (by decide), e₂]
  | @comma t ts s s' hs hs' ih ih' =>
    intro r
    obtain ⟨u, hu, e⟩ := ih (',' :: (s' ++ r))
    obtain ⟨u', hu', e'⟩ := ih' r
    refine ⟨u ++ ',' :: u', .comma hu hu', ?_⟩
    simp only [List.append_assoc, List.cons_append]
    rw [e, squeezeTail_cons (by decide), e']

/-- The words of a spelling of one type, one space apart, are read as that type. -/
theorem ofText_join_words {t : TypeExpr} {s : Text} (h : TypesSpelling AllBlank [t] s) :
    ofText (join [' '] (words s)) = t := by
  obtain ⟨s', hs', e⟩ := squeezeTail_spelling h []
  obtain ⟨b, hb, e'⟩ := squeezeTail_eq s
  rw [List.append_nil, squeezeTail_nil, List.append_nil, e'] at e
  calc ofText (join [' '] (words s)) = ofText (b ++ (join [' '] (words s) ++ [])) :=
        (ofText_blanks hb allBlank_nil _).symm
    _ = ofText s' := by rw [List.append_nil, e]
    _ = t := ofText_spelling hs'

end TypeExpr

end RecordSkeleton
