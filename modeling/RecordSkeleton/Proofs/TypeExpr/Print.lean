import RecordSkeleton.Proofs.Bracket.Nesting
import RecordSkeleton.TypeExpr

/-!
# Printed types

`TypesPrint ts s` says that `s` is a print of the types `ts`, one comma between two neighbours, with
any blanks around every name, bracket and comma. A name may be any trimmed text without angle brackets
and commas, and it may have no arguments in its brackets.

1. A text with brackets is read as the name before its first `<` with what is cut from between that
   and its last `>` (`ofText_bracketed`).
2. The angle brackets of a print are nested (`TypesPrint.nested`), so no comma of one type is a cut
   between two, and the segments of a print are read as the types one by one (`map_ofText_segments`).
3. Reading undoes printing (`ofText_print`).
-/

namespace RecordSkeleton

open Text

/-- The name of a type as it may be printed. -/
structure IsBaseName (n : Text) : Prop where
  ne_nil : n ≠ []
  /-- No blank stands at its ends. -/
  trim_eq : trim n = n
  /-- It has none of the characters that shape a type. -/
  plain : ∀ c ∈ n, c ≠ '<' ∧ c ≠ '>' ∧ c ≠ ','

theorem isBaseName_iff {n : Text} :
    IsBaseName n ↔ n ≠ [] ∧ trim n = n ∧ ∀ c ∈ n, c ≠ '<' ∧ c ≠ '>' ∧ c ≠ ',' :=
  ⟨fun h => ⟨h.1, h.2, h.3⟩, fun h => ⟨h.1, h.2.1, h.2.2⟩⟩

instance (n : Text) : Decidable (IsBaseName n) := decidable_of_iff _ isBaseName_iff.symm

/-- The prints of a list of types, separated by commas. -/
inductive TypesPrint : List TypeExpr → Text → Prop
  /-- No type at all. -/
  | nil {g : Text} (hg : AllBlank g) : TypesPrint [] g
  /-- A name alone. -/
  | plain {n g g' : Text} (hg : AllBlank g) (hn : IsBaseName n) (hg' : AllBlank g') :
    TypesPrint [.plain n] (g ++ (n ++ g'))
  /-- A name with arguments in angle brackets, possibly none. -/
  | generic {n : Text} {args : List TypeExpr} {g g₁ a g₂ : Text} (hg : AllBlank g)
    (hn : IsBaseName n) (hg₁ : AllBlank g₁) (ha : TypesPrint args a) (hg₂ : AllBlank g₂) :
    TypesPrint [.generic n args] (g ++ (n ++ (g₁ ++ '<' :: (a ++ '>' :: g₂))))
  /-- A type in front of others. -/
  | comma {t u : TypeExpr} {ts : List TypeExpr} {s s' : Text} (hs : TypesPrint [t] s)
    (hs' : TypesPrint (u :: ts) s') : TypesPrint (t :: u :: ts) (s ++ ',' :: s')

namespace TypeExpr

/-! ## Reading a text with brackets -/

theorem weight_angle_blank (c : Char) (hc : isBlank c = true) :
    BracketFamilies.angle.weight c = 0 := by
  apply BracketFamilies.weight_eq_zero <;> intro h <;> rw [List.mem_singleton.1 h] at hc <;>
    exact absurd hc (by decide)

/-- How a type is read, without the bounds that make the reading end. -/
theorem ofText_eq (s : Text) :
    ofText s = match (trim s).dropWhile (· != '<') with
      | [] => .plain (trim s)
      | _ :: r =>
        if '>' ∈ r then
          .generic (trim ((trim s).takeWhile (· != '<')))
            ((BracketFamilies.angle.splitTopLevel (trim (beforeLastClose r))).map ofText)
        else .unclosed (trim ((trim s).takeWhile (· != '<'))) := by
  rw [ofText.eq_def]
  split <;> rename_i h
  · rw [h]
  · rw [h]
    simp only [List.map_attach_eq_pmap, List.pmap_eq_map]

theorem ofText_trim (s : Text) : ofText (trim s) = ofText s := by
  rw [ofText_eq, ofText_eq s, trim_trim]

theorem ofText_blanks {v w : Text} (hv : AllBlank v) (hw : AllBlank w) (s : Text) :
    ofText (v ++ (s ++ w)) = ofText s := by
  rw [← ofText_trim, trim_blanks hv hw, ofText_trim]

/-- A trimmed text without an opening angle bracket is a name. -/
theorem ofText_name {s : Text} (ht : trim s = s) (hs : '<' ∉ s) : ofText s = .plain s := by
  have h : s.dropWhile (· != '<') = [] := by
    simpa using dropWhile_append_stop (p := (· != '<')) (x := s) (y := [])
      (fun c hc => bne_iff_ne.2 fun e => hs (e ▸ hc)) fun c hc => by cases hc
  rw [ofText_eq, ht, h]

theorem beforeLastClose_append (a : Text) : beforeLastClose (a ++ ['>']) = a := by
  simp [beforeLastClose]

/-- A trimmed text that ends in `>` is read as the name before its first `<` with what is cut from
between the two. -/
theorem ofText_generic {x a : Text} (ht : trim (x ++ '<' :: (a ++ ['>'])) = x ++ '<' :: (a ++ ['>']))
    (hx : '<' ∉ x) :
    ofText (x ++ '<' :: (a ++ ['>'])) =
      .generic (trim x) ((BracketFamilies.angle.splitTopLevel a).map ofText) := by
  have hx' : ∀ c ∈ x, (c != '<') = true := fun c hc => bne_iff_ne.2 fun e => hx (e ▸ hc)
  have hstop : ∀ c ∈ ('<' :: (a ++ ['>'])).head?, (c != '<') = false := by
    rintro c ⟨⟩
    decide
  rw [ofText_eq, ht, dropWhile_append_stop hx' hstop, takeWhile_append_stop hx' hstop]
  simp only [List.mem_append, List.mem_singleton, or_true, if_true, beforeLastClose_append,
    BracketFamilies.splitTopLevel_trim weight_angle_blank]

/-- A text is read as the name before its first `<` with what is cut from between that and its last
`>`, whatever blanks stand around. -/
theorem ofText_bracketed {x a g : Text} (hx : '<' ∉ x) (hg : AllBlank g) :
    ofText (x ++ '<' :: (a ++ '>' :: g)) =
      .generic (trim x) ((BracketFamilies.angle.splitTopLevel a).map ofText) := by
  obtain ⟨v, hv, heq⟩ := eq_append_trimLeft x
  have hshape : x ++ '<' :: (a ++ '>' :: g) = v ++ ((trimLeft x ++ '<' :: (a ++ ['>'])) ++ g) := by
    conv => lhs; rw [heq]
    simp
  have htrim : trim (trimLeft x ++ '<' :: (a ++ ['>'])) = trimLeft x ++ '<' :: (a ++ ['>']) := by
    refine trim_eq_self (fun c hc => ?_) fun c hc => ?_
    · cases hl : trimLeft x with
      | nil =>
        rw [hl] at hc
        cases hc
        decide
      | cons d r =>
        rw [hl] at hc
        exact head_trimLeft x c (by rw [hl]; exact hc)
    · rw [show trimLeft x ++ '<' :: (a ++ ['>']) = (trimLeft x ++ '<' :: a) ++ ['>'] by simp,
        List.getLast?_concat] at hc
      cases hc
      decide
  have hname : trim (trimLeft x) = trim x := by
    unfold trim
    rw [trimLeft_trimLeft]
  have hlt : '<' ∉ trimLeft x := fun h => hx (heq ▸ List.mem_append_right v h)
  rw [hshape, ofText_blanks hv hg, ofText_generic htrim hlt, hname]

/-! ## Cutting a print -/

theorem solid_angle_blanks {w : Text} (hw : AllBlank w) : BracketFamilies.angle.Solid w :=
  BracketFamilies.solid_of_allBlank weight_angle_blank hw

/-- Nothing is cut from a blank text. -/
theorem splitTopLevel_angle_blanks {w : Text} (hw : AllBlank w) :
    BracketFamilies.angle.splitTopLevel w = [] := by
  have htrim : trim w = [] := by
    simpa [trim, trimLeft, trimRight] using trim_blanks hw allBlank_nil []
  rw [BracketFamilies.splitTopLevel, BracketFamilies.segments_solid (solid_angle_blanks hw),
    List.map_singleton, htrim]
  rfl

/-- The parts that a text is cut into are its segments, trimmed. -/
theorem map_ofText_splitTopLevel {ts : List TypeExpr} {s : Text}
    (h : (BracketFamilies.angle.segments s).map ofText = ts)
    (hne : ∀ p ∈ BracketFamilies.angle.segments s, trim p ≠ []) :
    (BracketFamilies.angle.splitTopLevel s).map ofText = ts := by
  have hne' : ∀ p ∈ (BracketFamilies.angle.segments s).map trim, p ≠ [] := by
    intro p hp
    obtain ⟨q, hq, rfl⟩ := List.mem_map.1 hp
    exact hne q hq
  rw [BracketFamilies.splitTopLevel, BracketFamilies.dropEmptyLast_of_forall hne', List.map_map]
  exact (List.map_congr_left fun p _ => ofText_trim p).trans h

/-- A text whose segments are read as one type is read as that type. -/
theorem ofText_of_segments {t : TypeExpr} {s : Text}
    (h : (BracketFamilies.angle.segments s).map ofText = [t]) : ofText s = t := by
  obtain ⟨x, hx, ht⟩ := List.map_eq_singleton_iff.1 h
  rw [← BracketFamilies.eq_of_segments_eq hx]
  exact ht

end TypeExpr

namespace IsBaseName

variable {n : Text}

theorem not_mem (hn : IsBaseName n) : '<' ∉ n := fun h => (hn.plain _ h).1 rfl

theorem weight_angle (hn : IsBaseName n) {c : Char} (hc : c ∈ n) :
    BracketFamilies.angle.weight c = 0 := by
  obtain ⟨ho, hcl, -⟩ := hn.plain c hc
  refine BracketFamilies.weight_eq_zero ?_ ?_ <;> intro h
  · exact ho (List.mem_singleton.1 h)
  · exact hcl (List.mem_singleton.1 h)

theorem solid (hn : IsBaseName n) : BracketFamilies.angle.Solid n :=
  .of_forall fun c hc => ⟨hn.weight_angle hc, (hn.plain c hc).2.2⟩

end IsBaseName

namespace TypesPrint

variable {ts : List TypeExpr} {s : Text}

/-- Every angle bracket of a print has its partner in it. -/
theorem nested (h : TypesPrint ts s) : Nested BracketFamilies.angle.weight s := by
  have hgap : ∀ {g : Text}, AllBlank g → Nested BracketFamilies.angle.weight g := fun hg =>
    .of_forall fun c hc => TypeExpr.weight_angle_blank c (hg c hc)
  have hname : ∀ {n : Text}, IsBaseName n → Nested BracketFamilies.angle.weight n := fun hn =>
    .of_forall fun c hc => hn.weight_angle hc
  induction h with
  | nil hg => exact hgap hg
  | plain hg hn hg' => exact (hgap hg).append ((hname hn).append (hgap hg'))
  | generic hg hn hg₁ _ hg₂ ih =>
    have hargs := ih.wrap (o := '<') (c := '>') (by decide) (by decide)
    have := (hgap hg).append ((hname hn).append ((hgap hg₁).append (hargs.append (hgap hg₂))))
    simpa using this
  | comma _ _ ih ih' => exact ih.append (.cons (by decide) ih')

/-- One type is never cut: its commas stand in angle brackets. -/
theorem solid {t : TypeExpr} (h : TypesPrint [t] s) : BracketFamilies.angle.Solid s := by
  cases h with
  | plain hg hn hg' =>
    exact (TypeExpr.solid_angle_blanks hg).append (hn.solid.append (TypeExpr.solid_angle_blanks hg'))
  | generic hg hn hg₁ ha hg₂ =>
    have hargs := BracketFamilies.Solid.wrap (o := '<') (c := '>') (by decide) (by decide) ha.nested
    have := (TypeExpr.solid_angle_blanks hg).append (hn.solid.append
      ((TypeExpr.solid_angle_blanks hg₁).append (hargs.append (TypeExpr.solid_angle_blanks hg₂))))
    simpa using this

end TypesPrint

/-! ## Reading a print -/

namespace TypeExpr

/-- The segments of a print, read one by one, are the types; none of them is blank. -/
theorem map_ofText_segments {ts : List TypeExpr} {s : Text} (h : TypesPrint ts s) (hne : ts ≠ []) :
    (BracketFamilies.angle.segments s).map ofText = ts ∧
      ∀ p ∈ BracketFamilies.angle.segments s, trim p ≠ [] := by
  induction h with
  | nil => exact absurd rfl hne
  | @plain n g g' hg hn hg' =>
    rw [BracketFamilies.segments_solid (TypesPrint.plain hg hn hg').solid]
    refine ⟨?_, fun p hp => ?_⟩
    · rw [List.map_singleton, ofText_blanks hg hg', ofText_name hn.trim_eq hn.not_mem]
    · rw [List.mem_singleton.1 hp, trim_blanks hg hg', hn.trim_eq]
      exact hn.ne_nil
  | @generic n args g g₁ a g₂ hg hn hg₁ ha hg₂ ih =>
    have hlt : '<' ∉ g ++ (n ++ g₁) := by
      have hblank : ∀ {w : Text}, AllBlank w → '<' ∉ w := fun hw hc => absurd (hw _ hc) (by decide)
      simp only [List.mem_append, not_or]
      exact ⟨hblank hg, hn.not_mem, hblank hg₁⟩
    have hshape : g ++ (n ++ (g₁ ++ '<' :: (a ++ '>' :: g₂))) =
        (g ++ (n ++ g₁)) ++ '<' :: (a ++ '>' :: g₂) := by
      simp only [List.append_assoc]
    -- A blank interior is no argument, and any other one is cut into the arguments.
    have hargs : (BracketFamilies.angle.splitTopLevel a).map ofText = args := by
      cases args with
      | nil =>
        cases ha with
        | nil hg => rw [splitTopLevel_angle_blanks hg]; rfl
      | cons t ts =>
        obtain ⟨hsegments, hblank⟩ := ih (List.cons_ne_nil t ts)
        exact map_ofText_splitTopLevel hsegments hblank
    have hread : ofText (g ++ (n ++ (g₁ ++ '<' :: (a ++ '>' :: g₂)))) = .generic n args := by
      rw [hshape, ofText_bracketed hlt hg₂, trim_blanks hg hg₁, hn.trim_eq, hargs]
    rw [BracketFamilies.segments_solid (TypesPrint.generic hg hn hg₁ ha hg₂).solid]
    refine ⟨by rw [List.map_singleton, hread], fun p hp => ?_⟩
    rw [List.mem_singleton.1 hp]
    intro hblank
    rw [← ofText_trim, hblank, ofText_name rfl List.not_mem_nil] at hread
    cases hread
  | @comma t u ts s s' hs hs' ih ih' =>
    obtain ⟨hread, hblank⟩ := ih (List.cons_ne_nil t [])
    obtain ⟨hread', hblank'⟩ := ih' (List.cons_ne_nil u ts)
    rw [BracketFamilies.segments_balanced_comma (by decide) hs.nested.balance_eq, List.map_append,
      hread, hread']
    refine ⟨rfl, fun p hp => ?_⟩
    rcases List.mem_append.1 hp with hp | hp
    · exact hblank p hp
    · exact hblank' p hp

/-- Reading undoes printing: the print of a type tree is read as that tree. Its leaves are read as
names without arguments, its inner nodes as names with arguments, also where there are none, and no
node as a name whose bracket is not closed. -/
theorem ofText_print {t : TypeExpr} {s : Text} (h : TypesPrint [t] s) : ofText s = t := by
  obtain ⟨hread, -⟩ := map_ofText_segments h (List.cons_ne_nil t [])
  exact ofText_of_segments hread

/-- A type with brackets that close together, an empty pair of them and a name of two words. -/
def nestedMap : TypeExpr :=
  .generic "final Map".toList
    [.generic "Set".toList [],
      .generic "List".toList [.generic "List".toList [.generic "a.List".toList [.plain "int[]".toList]]]]

/-- The type with blanks around some of its names and brackets. -/
def nestedMapText : Text := " final Map < Set< >\t,List<List<a.List<\nint[]>>>>\n".toList

theorem ofText_nestedMap : TypesPrint [nestedMap] nestedMapText ∧ ofText nestedMapText = nestedMap := by
  have hspace : AllBlank " ".toList := by decide
  have htab : AllBlank "\t".toList := by decide
  have hline : AllBlank "\n".toList := by decide
  have harray : TypesPrint [.plain "int[]".toList] _ := .plain hline (by decide) allBlank_nil
  have hinner : TypesPrint [.generic "a.List".toList [.plain "int[]".toList]] _ :=
    .generic allBlank_nil (by decide) allBlank_nil harray allBlank_nil
  have hlist : TypesPrint [.generic "List".toList [.generic "List".toList
      [.generic "a.List".toList [.plain "int[]".toList]]]] _ :=
    .generic allBlank_nil (by decide) allBlank_nil
      (.generic allBlank_nil (by decide) allBlank_nil hinner allBlank_nil) allBlank_nil
  have hset : TypesPrint [.generic "Set".toList []] _ :=
    .generic hspace (by decide) allBlank_nil (.nil hspace) htab
  have h : TypesPrint [nestedMap] nestedMapText :=
    .generic hspace (n := "final Map".toList) (by decide) hspace (.comma hset hlist) hline
  exact ⟨h, ofText_print h⟩

end TypeExpr

end RecordSkeleton
