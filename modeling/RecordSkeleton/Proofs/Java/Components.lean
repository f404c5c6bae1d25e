import RecordSkeleton.Proofs.Field.Entries
import RecordSkeleton.Proofs.Java.Spelling

/-!
# Reading a spelled component list

What is read off a component list whose gaps are blank and whose marker arguments are inert.

1. Peeling takes off the markers of a component and nothing else (`Marker.strip_markers`).
2. A component is read as a field of its name and of a text of its type (`ofText?_component`).
3. The list is cut into its components, so its fields are the components in order
   (`listOfText_spelling`).
4. A component list is inert itself (`ListSpelling.inert`).
-/

namespace RecordSkeleton

open Text Java

/-! ## Peeling markers -/

namespace Marker

/-- The characters of a dotted name go on with the name of a marker. -/
theorem isNameChar_of_mem {n : Text} (h : DottedName n) : ∀ c ∈ n, isNameChar c = true := by
  intro c hc
  rcases h.char c hc with hi | rfl
  · have hne : c ≠ '(' := ne_of_isIdentifierChar hi (by decide)
    unfold isNameChar
    rw [not_isBlank_of_isIdentifierChar hi, bne_iff_ne.2 hne]
    rfl
  · decide

/-- Spelled markers stand in front of what follows them. -/
theorem exists_marked_of_spelling {m : Text} (hm : MarkersSpelling .masked m) (r : Text) :
    ∃ names, Marked r names (m ++ r) := by
  induction hm with
  | nil => exact ⟨[], .refl⟩
  | @bare n g m hn hg hne _ ih =>
    obtain ⟨names, h⟩ := ih
    obtain ⟨c, w, rfl⟩ := List.exists_cons_of_ne_nil hne
    have hblank : ∀ d ∈ (c :: w ++ (m ++ r)).head?, isBlank d = true := by
      rintro d ⟨⟩
      exact AllBlank.head hg
    refine ⟨n :: names, ?_⟩
    rw [List.cons_append, List.append_assoc, List.append_assoc]
    exact .bare (isNameChar_of_mem hn) hblank (.blanks hg h)
  | @called n a g m hn ha hg _ ih =>
    obtain ⟨names, h⟩ := ih
    refine ⟨n :: names, ?_⟩
    simp only [List.cons_append, List.append_assoc]
    exact .called (isNameChar_of_mem hn) (Inert.round ha) (.blanks hg h)

/-- Peeling takes off the markers and the blanks behind them. -/
theorem strip_markers {m r : Text} (hm : MarkersSpelling .masked m)
    (hr : (trimLeft r).head? ≠ some '@') : strip (m ++ r) = trimLeft r := by
  obtain ⟨_, h⟩ := exists_marked_of_spelling hm r
  rw [strip_marked h, strip_of_head hr]

end Marker

/-! ## Reading a component -/

/-- What a field says: its name, and its type as it is read. -/
def Field.component (f : Field) : Component := ⟨f.name, TypeExpr.ofText f.type⟩

namespace Java

/-- What starts with an identifier, trimmed on the left. -/
theorem exists_trimLeft_identifier {w n : Text} (hw : AllBlank w) (hn : isIdentifier n = true)
    (r : Text) : ∃ d u, trimLeft (w ++ (n ++ r)) = d :: u ∧ isIdentifierChar d = true := by
  obtain ⟨d, u, rfl⟩ := List.exists_cons_of_ne_nil (ne_nil_of_isIdentifier hn)
  rw [trimLeft_blanks hw, trimLeft_eq_self (not_isBlank_of_head_identifier_append hn r)]
  exact ⟨d, u ++ r, rfl, isIdentifierChar_of_mem hn d List.mem_cons_self⟩

/-- A spelled type starts with a name, up to blanks. -/
theorem exists_trimLeft_types {ts : List TypeExpr} {s : Text} (h : TypesSpelling AllBlank ts s) :
    ∃ d u, trimLeft s = d :: u ∧ isIdentifierChar d = true := by
  induction h with
  | name hg hn _ => exact exists_trimLeft_identifier hg hn _
  | generic hg hn _ _ _ => exact exists_trimLeft_identifier hg hn _
  | @comma t ts s s' _ _ ih _ =>
    obtain ⟨d, u, hs, hd⟩ := ih
    refine ⟨d, u ++ ',' :: s', ?_, hd⟩
    rw [trimLeft_append_of_ne_nil (by rw [hs]; exact List.cons_ne_nil d u), hs]
    rfl

/-- A component is read as a field of its name and of a text of its type. -/
theorem ofText?_component {c : Component} {s : Text} (h : ComponentSpelling .masked c s) :
    ∃ f, Field.ofText? s = some f ∧ f.component = c := by
  obtain ⟨hg, hm, ht, hg₁, hne, hn, hg₂⟩ := h
  rename_i g m t g₁ g₂
  obtain ⟨d, u, hdu, hd⟩ := exists_trimLeft_types ht
  -- The type starts with no marker, so it is all that the peeling leaves in front of the name.
  have hhead : (trimLeft (t ++ (g₁ ++ (c.name ++ g₂)))).head? ≠ some '@' := by
    rw [trimLeft_append_of_ne_nil (by rw [hdu]; exact List.cons_ne_nil d u), hdu]
    rintro ⟨⟩
    exact absurd hd (by decide)
  have hname : words (c.name ++ g₂) = [c.name] := by
    rw [words_append_blanks hg₂,
      words_of_forall (ne_nil_of_isIdentifier hn) (not_isBlank_of_mem_identifier hn)]
  have hwords : words (Marker.strip (g ++ (m ++ (t ++ (g₁ ++ (c.name ++ g₂)))))) =
      words t ++ [c.name] := by
    rw [Marker.strip_blanks hg, Marker.strip_markers hm hhead, words_trimLeft,
      words_append_blanks_append hg₁ hne, hname]
  obtain ⟨v, vs, hv⟩ : ∃ v vs, words t = v :: vs := by
    refine List.exists_cons_of_ne_nil ?_
    rw [← words_trimLeft, hdu]
    exact words_cons_ne_nil (not_isBlank_of_isIdentifierChar hd) u
  refine ⟨⟨c.name, join [' '] (v :: vs)⟩, Field.ofText?_of_words (by rw [hwords, hv]), ?_⟩
  rw [Field.component, ← hv, TypeExpr.ofText_join_words ht]

/-! ## Cutting a list -/

theorem weight_all_of_not_mem_brackets {c : Char} (hc : c ∉ brackets) :
    BracketFamilies.all.weight c = 0 := weight_of_not_mem_brackets hc _ all_mem

theorem weight_all_blank (c : Char) (hc : isBlank c = true) : BracketFamilies.all.weight c = 0 :=
  weight_all_of_not_mem_brackets (not_mem_brackets_of_isBlank hc)

theorem solid_blanks {w : Text} (hw : AllBlank w) : BracketFamilies.all.Solid w :=
  BracketFamilies.solid_of_allBlank weight_all_blank hw

theorem solid_identifier {n : Text} (hn : isIdentifier n = true) : BracketFamilies.all.Solid n := by
  refine .of_forall fun c hc => ?_
  have hi := isIdentifierChar_of_mem hn c hc
  exact ⟨weight_all_of_not_mem_brackets (not_mem_brackets_of_isIdentifierChar hi),
    ne_of_isIdentifierChar hi (by decide)⟩

theorem DottedName.solid {n : Text} (h : DottedName n) : BracketFamilies.all.Solid n := by
  refine .of_forall fun c hc => ⟨weight_all_of_not_mem_brackets (h.not_mem_brackets c hc), ?_⟩
  rintro rfl
  rcases h.char _ hc with hi | hi
  · cases hi
  · cases hi

theorem DottedName.inert {n : Text} (h : DottedName n) : Inert n := .of_forall h.not_mem_brackets

theorem inert_types {ts : List TypeExpr} {s : Text} (h : TypesSpelling AllBlank ts s) : Inert s := by
  have hangle : ∀ w ∈ bracketCounts, w '<' = 1 ∧ w '>' = -1 ∨ w '<' = 0 ∧ w '>' = 0 := by decide
  intro w hw
  have hzero := fun c hc => weight_of_not_mem_brackets (c := c) hc w hw
  exact h.nested (fun c hc => hzero c (not_mem_brackets_of_isBlank hc))
    (fun c hc => hzero c (not_mem_brackets_of_isIdentifierChar hc)) (hzero ',' (by decide))
    (hangle w hw)

/-- One type is never cut: its commas stand in angle brackets. -/
theorem solid_type {t : TypeExpr} {s : Text} (h : TypesSpelling AllBlank [t] s) :
    BracketFamilies.all.Solid s := by
  cases h with
  | name hg hn hg' => exact (solid_blanks hg).append ((solid_identifier hn).append (solid_blanks hg'))
  | generic hg hn hg₁ ha hg₂ =>
    have hargs := BracketFamilies.Solid.wrap (o := '<') (c := '>') (by decide) (by decide)
      (inert_types ha BracketFamilies.all.weight all_mem)
    have := (solid_blanks hg).append ((solid_identifier hn).append ((solid_blanks hg₁).append
      (hargs.append (solid_blanks hg₂))))
    simpa using this
  | comma _ h => cases h

/-- Markers are never cut: their commas stand in round brackets. -/
theorem MarkersSpelling.solid {m : Text} (h : MarkersSpelling .masked m) :
    BracketFamilies.all.Solid m := by
  induction h with
  | nil => exact .nil
  | bare hn hg _ _ ih => exact .cons (by decide) (by decide) (hn.solid.append ((solid_blanks hg).append ih))
  | called hn ha hg _ ih =>
    have hargs := BracketFamilies.Solid.wrap (o := '(') (c := ')') (by decide) (by decide)
      (ha BracketFamilies.all.weight all_mem)
    refine .cons (by decide) (by decide) (hn.solid.append ?_)
    have := hargs.append ((solid_blanks hg).append ih)
    simpa using this

theorem MarkersSpelling.inert {m : Text} (h : MarkersSpelling .masked m) : Inert m := by
  induction h with
  | nil => exact .nil
  | bare hn hg _ _ ih => exact .cons (by decide) (hn.inert.append ((Inert.of_allBlank hg).append ih))
  | called hn ha hg _ ih =>
    have hargs := Inert.group (b := ⟨'(', ')'⟩) (by decide) ha
    refine .cons (by decide) (hn.inert.append ?_)
    have := hargs.append ((Inert.of_allBlank hg).append ih)
    simpa using this

theorem ComponentSpelling.solid {c : Component} {s : Text} (h : ComponentSpelling .masked c s) :
    BracketFamilies.all.Solid s := by
  obtain ⟨hg, hm, ht, hg₁, -, hn, hg₂⟩ := h
  exact (solid_blanks hg).append (hm.solid.append ((solid_type ht).append ((solid_blanks hg₁).append
    ((solid_identifier hn).append (solid_blanks hg₂)))))

theorem ComponentSpelling.inert {c : Component} {s : Text} (h : ComponentSpelling .masked c s) :
    Inert s := by
  obtain ⟨hg, hm, ht, hg₁, -, hn, hg₂⟩ := h
  exact (Inert.of_allBlank hg).append (hm.inert.append ((inert_types ht).append
    ((Inert.of_allBlank hg₁).append ((Inert.of_identifier hn).append (.of_allBlank hg₂)))))

/-- A component list is nested for every bracket count. -/
theorem ListSpelling.inert {cs : List Component} {l : Text} (h : ListSpelling .masked cs l) :
    Inert l := by
  induction h with
  | nil hg => exact .of_allBlank hg
  | single hc => exact hc.inert
  | cons hc _ ih => exact hc.inert.append (.cons (by decide) ih)

/-- The segments of a list that is not empty are its components. -/
theorem segments_list {cs : List Component} {l : Text} (h : ListSpelling .masked cs l)
    (hne : cs ≠ []) :
    ((BracketFamilies.all.segments l).filterMap Field.ofText?).map Field.component = cs := by
  induction h with
  | nil => exact absurd rfl hne
  | @single c s hc =>
    obtain ⟨f, hf, hfc⟩ := ofText?_component hc
    rw [BracketFamilies.segments_solid hc.solid, List.filterMap_cons, hf, List.filterMap_nil,
      List.map_singleton, hfc]
  | @cons c d ds s t hc _ ih =>
    obtain ⟨f, hf, hfc⟩ := ofText?_component hc
    rw [BracketFamilies.segments_solid_comma (by decide) hc.solid, List.filterMap_cons, hf,
      List.map_cons, hfc, ih (List.cons_ne_nil d ds)]

/-- The fields of a spelled list are its components. -/
theorem listOfText_spelling {cs : List Component} {l : Text} (h : ListSpelling .masked cs l) :
    (Field.listOfText (trim l)).map Field.component = cs := by
  have htrim : Field.listOfText (trim l) = Field.listOfText l := by
    unfold Field.listOfText
    rw [BracketFamilies.splitTopLevel_trim weight_all_blank]
  rw [htrim, Field.listOfText_eq]
  by_cases hne : cs = []
  · subst hne
    cases h with
    | nil hg =>
      have hblank : trim l = [] := by rw [trim, trimLeft_eq_nil hg]; rfl
      rw [BracketFamilies.segments_solid (solid_blanks hg), List.filterMap_cons, ← Field.ofText?_trim,
        hblank, Field.ofText?_nil]
      rfl
  · exact segments_list h hne

end Java

end RecordSkeleton
