import RecordSkeleton.Proofs.Declaration.Header
import RecordSkeleton.Proofs.Java.Constructors

/-!
# The field list of a spelled declaration

From the source of a record or of a class with a marked constructor to the fields of its component
list.

1. The first declaration of a masked source is the spelled one (`declarations_eq_cons`,
   `declarations_plainClass`).
2. The list of a record stands behind its header (`fieldList?_record`).
3. The list of a class is the one of its marked constructor (`fieldList?_plainClass`).
4. The fields that are read from the source of a declaration are its components
   (`fields_of_spelling`).
-/

namespace RecordSkeleton.Java

open Text

variable {name l : Text}

/-! ## The first declaration -/

theorem declarations_eq_cons {s g body r : Text} {h : Head} (hg : AllBlank g) (hh : h.Readable)
    (hbody : Nested Brackets.curly.weight body) (hs : mask s = g ++ (h.text ++ '{' :: (body ++ '}' :: r)))
    (location : Option Text) (editable : Bool) :
    ∃ ds, declarations s location editable =
      { name := h.name
        kind := h.keyword.kind
        source := h.text ++ '{' :: (body ++ ['}'])
        editable
        constructors :=
          if h.keyword.kind = .plainClass then
            constructorsIn (mask s) h.name (g.length + h.text.length + 1)
              (g.length + h.text.length + (body.length + 1))
          else []
        location
        nested := false } :: ds := by
  obtain ⟨later, hsites⟩ : ∃ later, sites (mask s) =
      ⟨h.headerAt g.length, g.length + h.text.length + (body.length + 1) + 1,
        if h.keyword.kind = .plainClass then
          constructorsIn (mask s) h.name (g.length + h.text.length + 1)
            (g.length + h.text.length + (body.length + 1))
        else [], false⟩ :: later := by
    have := @sitesFrom_past_declaration (mask s) [] g body r [] h 0 (mask s).length false
      (Opaque.of_allBlank hg) (SetOff.of_allBlank hg) hh hbody (by rw [hs]; simp) (by rw [hs]; simp)
      (by simp) (Nat.zero_le _) rfl
    simp only [List.length_nil, Nat.zero_add] at this
    exact ⟨_, this⟩
  have hsource : slice (mask s) g.length (g.length + h.text.length + (body.length + 1) + 1) =
      h.text ++ '{' :: (body ++ ['}']) := by
    refine slice_eq (u := g) (w := r) ?_ rfl ?_
    · rw [hs]
      simp
    · simp only [List.length_append, List.length_cons, List.length_nil]
      omega
  refine ⟨later.map (Site.declaration (mask s) location editable), ?_⟩
  rw [declarations, hsites, List.map_cons, Site.declaration]
  simp only [Head.headerAt, hsource]

theorem not_mem_of_allBlank {g : Text} (hg : AllBlank g) {c : Char} (hc : isBlank c = false) :
    c ∉ g := by
  intro h
  rw [hg c h] at hc
  cases hc

/-- The first declaration of a masked class has the constructors that are found from the front of its
body. -/
theorem declarations_plainClass {s g₀ g₁ g₂ body rest : Text} (hn : isIdentifier name = true)
    (hs : mask s = g₀ ++ ("class".toList ++ (g₁ ++ (name ++ (g₂ ++ '{' :: (body ++ '}' :: rest))))))
    (hg₀ : AllBlank g₀) (hg₁ : AllBlank g₁) (hne : g₁ ≠ []) (hg₂ : AllBlank g₂)
    (hbody : Nested Brackets.curly.weight body) (location : Option Text) (editable : Bool) :
    ∃ u d ds, mask s = u ++ (body ++ '}' :: rest) ∧ declarations s location editable = d :: ds ∧
      d.name = name ∧ d.kind = .plainClass ∧
      d.constructors =
        (callsBehind name u.length [] body).filterMap (constructorAt? (mask s) u.length) := by
  generalize hh : (⟨.plainClass, g₁, name, g₂⟩ : Head) = h
  have htext : h.text = "class".toList ++ (g₁ ++ (name ++ g₂)) := by
    rw [← hh]
    rfl
  have hname : h.name = name := by rw [← hh]
  have hkind : h.keyword.kind = .plainClass := by rw [← hh]; rfl
  have hhead : h.Readable := by
    subst hh
    exact ⟨hg₁, hne, hn, fun c hc => not_continuesName_of_isBlank (hg₂ c (List.mem_of_mem_head? hc)),
      not_mem_of_allBlank hg₂ (by decide)⟩
  have hs' : mask s = g₀ ++ (h.text ++ '{' :: (body ++ '}' :: rest)) := by
    rw [hs, htext]
    simp only [List.append_assoc]
  have hbehind : mask s = (g₀ ++ (h.text ++ ['{'])) ++ (body ++ '}' :: rest) := by
    rw [hs']
    simp only [List.append_assoc, List.cons_append, List.nil_append]
  have hstart : g₀.length + h.text.length + 1 = (g₀ ++ (h.text ++ ['{'])).length := by
    simp only [List.length_append, List.length_singleton]
    omega
  have hslice : slice (mask s) (g₀.length + h.text.length + 1)
      (g₀.length + h.text.length + (body.length + 1)) = body :=
    slice_eq hbehind hstart (by rw [← hstart]; omega)
  have hbefore : hidesCall (charBefore? (mask s) (g₀.length + h.text.length + 1)) = false := by
    rw [charBefore?_eq hbehind hstart, ← List.append_assoc, List.getLast?_concat]
    decide
  obtain ⟨ds, hds⟩ := declarations_eq_cons hg₀ hhead hbody hs' location editable
  refine ⟨_, _, ds, hbehind, hds, hname, hkind, ?_⟩
  rw [← hstart]
  simp only [if_pos hkind, constructorsIn, hslice, hname, callSites_eq_callsBehind hbefore]

/-! ## The list of a record -/

theorem isWordChar_head_blanks {g r : Text} {c : Char} (hg : AllBlank g)
    (hc : isWordChar c = false) : ∀ d ∈ (g ++ c :: r).head?, isWordChar d = false := by
  cases g with
  | nil =>
    rintro d ⟨⟩
    exact hc
  | cons b g =>
    rintro d ⟨⟩
    exact not_isWordChar_of_isBlank hg.head

theorem isWordBoundary_identifier {r : Text} (hn : isIdentifier name = true)
    (hr : ∀ c ∈ r.head?, isWordChar c = false) :
    isWordBoundary name.getLast? r.head? = true := by
  obtain ⟨c, hlast⟩ := Option.isSome_iff_exists.1
    (List.getLast?_isSome.2 (ne_nil_of_isIdentifier hn))
  have hc : isWordChar c = true :=
    isWordChar_of_isIdentifierChar (isIdentifierChar_of_mem hn c (List.mem_of_getLast? hlast))
  have hnext : r.head?.any isWordChar = false := by
    cases hr' : r.head? with
    | none => rfl
    | some d => exact hr d hr'
  unfold isWordBoundary
  rw [hnext, hlast, Option.any_some, hc]
  rfl

theorem fieldList?_record {d : Declaration} {g u r marker : Text} (hkind : d.kind = .record)
    (hsource : d.source = "record".toList ++ (g ++ (d.name ++ (u ++ '(' :: (l ++ ')' :: r)))))
    (hg : AllBlank g) (hne : g ≠ []) (hn : isIdentifier d.name = true) (hu : AllBlank u)
    (hl : Nested Brackets.round.weight l) : d.fieldList? marker = some (trim l) := by
  have hafter : Declaration.afterHeader? d.name none d.source = some (u ++ '(' :: (l ++ ')' :: r)) := by
    rw [hsource]
    refine Declaration.afterHeader?_of_boundary hg hne (ne_nil_of_isIdentifier hn) ?_ ?_
    · simpa using not_isBlank_of_head_identifier_append hn []
    · exact isWordBoundary_identifier hn (isWordChar_head_blanks hu (by decide))
  unfold Declaration.fieldList?
  rw [hkind]
  simp only [hafter, Option.bind_some]
  exact Declaration.listInterior?_eq (fun hc => absurd (hu _ hc) (by decide)) hl

/-! ## The list of a class -/

theorem fieldList?_plainClass {d : Declaration} {c : Constructor} {cs : List Constructor}
    {marker : Text} (hkind : d.kind = .plainClass) (hcs : d.constructors = c :: cs)
    (hmarker : c.hasMarker marker = true) (hparameters : c.parameters = '(' :: (l ++ [')']))
    (hl : Nested Brackets.round.weight l) : d.fieldList? marker = some (trim l) := by
  have hfind : Constructor.find? d.constructors marker = some c := by
    rw [hcs]
    exact List.find?_cons_of_pos hmarker
  unfold Declaration.fieldList?
  rw [hkind]
  simp only [hfind, Option.bind_some, hparameters]
  exact Declaration.listInterior?_eq (u := []) (r := []) List.not_mem_nil hl

/-! ## The fields of a spelled declaration -/

theorem continuesName_head_blanks {g r : Text} {c : Char} (hg : AllBlank g)
    (hc : Header.continuesName c = false) :
    ∀ d ∈ (g ++ c :: r).head?, Header.continuesName d = false := by
  cases g with
  | nil =>
    rintro d ⟨⟩
    exact hc
  | cons b g =>
    rintro d ⟨⟩
    exact not_continuesName_of_isBlank hg.head

/-- A masked record, up to its name and component list, has the list of its components. -/
theorem exists_fieldList?_record {s g₀ g₁ g₂ g₃ g₄ g₅ : Text} (hn : isIdentifier name = true)
    (hs : mask s = g₀ ++ ("record".toList ++ (g₁ ++ (name ++ (g₂ ++
      '(' :: (l ++ ')' :: (g₃ ++ '{' :: (g₄ ++ '}' :: g₅))))))))
    (hg₀ : AllBlank g₀) (hg₁ : AllBlank g₁) (hne : g₁ ≠ []) (hg₂ : AllBlank g₂) (hl : Inert l)
    (hg₃ : AllBlank g₃) (hg₄ : AllBlank g₄) (location : Option Text) (editable : Bool)
    (marker : Text) :
    ∃ d ds, declarations s location editable = d :: ds ∧ d.fieldList? marker = some (trim l) := by
  have hround : Nested Brackets.round.weight l := hl.round
  generalize hh : (⟨.record, g₁, name, g₂ ++ '(' :: (l ++ ')' :: g₃)⟩ : Head) = h
  have htext : h.text = "record".toList ++ (g₁ ++ (name ++ (g₂ ++ '(' :: (l ++ ')' :: g₃)))) := by
    rw [← hh]
    rfl
  have hhead : h.Readable := by
    subst hh
    exact ⟨hg₁, hne, hn, continuesName_head_blanks hg₂ (by decide), g₂, l, g₃, rfl,
      not_mem_of_allBlank hg₂ (by decide), not_mem_of_allBlank hg₂ (by decide), hround,
      not_mem_of_allBlank hg₃ (by decide)⟩
  have hmask : mask s = g₀ ++ (h.text ++ '{' :: (g₄ ++ '}' :: g₅)) := by
    rw [hs, htext]
    simp only [List.append_assoc, List.cons_append]
  obtain ⟨ds, hds⟩ := declarations_eq_cons hg₀ hhead (Opaque.of_allBlank hg₄).nested hmask location
    editable
  refine ⟨_, ds, hds, ?_⟩
  refine fieldList?_record (g := g₁) (u := g₂) (r := g₃ ++ '{' :: (g₄ ++ ['}'])) ?_ ?_ hg₁ hne ?_ hg₂
    hround
  · rw [← hh]
    rfl
  · rw [htext, ← hh]
    simp only [List.append_assoc, List.cons_append]
  · rw [← hh]
    exact hn

theorem hasSimpleName_self {m : Text} (hm : isIdentifier m = true) :
    Marker.hasSimpleName m m = true := by
  have hdot : ∀ c ∈ m.reverse, (c != '.') = true := fun c hc =>
    bne_iff_ne.2 (ne_of_isIdentifierChar (isIdentifierChar_of_mem hm c (List.mem_reverse.1 hc))
      (by decide))
  have htake : m.reverse.takeWhile (· != '.') = m.reverse := by
    simpa using takeWhile_append_stop (y := []) hdot fun c hc => nomatch hc
  unfold Marker.hasSimpleName
  rw [htake, List.reverse_reverse]
  exact beq_self_eq_true m

/-- A masked class with a marked constructor has the list of the constructor's parameters. -/
theorem exists_fieldList?_plainClass {s g₀ g₁ g₂ g₃ m g₄ g₅ u g₉ : Text}
    (hn : isIdentifier name = true) (hm : isIdentifier m = true)
    (hs : mask s = g₀ ++ ("class".toList ++ (g₁ ++ (name ++ (g₂ ++ '{' :: (g₃ ++
      '@' :: (m ++ (g₄ ++ (name ++ (g₅ ++ '(' :: (l ++ ')' :: (u ++ '}' :: g₉))))))))))))
    (hg₀ : AllBlank g₀) (hg₁ : AllBlank g₁) (hne₁ : g₁ ≠ []) (hg₂ : AllBlank g₂)
    (hg₃ : AllBlank g₃) (hg₄ : AllBlank g₄) (hne₄ : g₄ ≠ []) (hg₅ : AllBlank g₅) (hl : Inert l)
    (hu : Nested Brackets.curly.weight u) (location : Option Text) (editable : Bool) :
    ∃ d ds, declarations s location editable = d :: ds ∧ d.fieldList? m = some (trim l) := by
  generalize hbody : (g₃ ++ '@' :: (m ++ g₄)) ++ (name ++ (g₅ ++ '(' :: (l ++ ')' :: u))) = body
  have hnested : Nested Brackets.curly.weight body := by
    have hmarked := (Inert.of_allBlank hg₃).append
      (.cons (c := '@') (by decide) ((Inert.of_identifier hm).append (.of_allBlank hg₄)))
    have hcall := (Inert.of_identifier hn).append (.of_allBlank hg₅)
    rw [← hbody, ← List.append_assoc name]
    exact hmarked.curly.append (hcall.curly.append (.cons rfl (hl.curly.append (.cons rfl hu))))
  have hs' : mask s =
      g₀ ++ ("class".toList ++ (g₁ ++ (name ++ (g₂ ++ '{' :: (body ++ '}' :: g₉))))) := by
    rw [hs, ← hbody]
    simp only [List.append_assoc, List.cons_append]
  obtain ⟨v, d, ds, hbehind, hds, -, hkind, hconstructors⟩ :=
    declarations_plainClass hn hs' hg₀ hg₁ hne₁ hg₂ hnested location editable
  rw [← hbody] at hbehind hconstructors
  obtain ⟨later, hlater⟩ := callsBehind_marked hn hg₃ hm hg₄ hne₄ hg₅ hl.round hbehind
  rw [hlater] at hconstructors
  refine ⟨d, ds, hds, fieldList?_plainClass hkind hconstructors ?_ rfl hl.round⟩
  unfold Constructor.hasMarker
  rw [List.any_cons, hasSimpleName_self hm]
  rfl

/-- The fields that are read from a spelled source are the components it spells: the first declaration
has a field list, and its fields have the names and types of the components, in order. -/
theorem fields_of_spelling {cs : List Component} {s : Text} (hn : isIdentifier name = true)
    (h : DeclarationSpelling .source name cs s) (location : Option Text) (editable : Bool) :
    ∃ d ds list, declarations s location editable = d :: ds ∧
      d.fieldList? "JsonCreator".toList = some list ∧
      (Field.listOfText list).map Field.component = cs := by
  have hmasked := h.exists_masked hn
  generalize hq : mask s = q at hmasked
  cases hmasked with
  | record hg₀ hg₁ hne hg₂ hl hg₃ hg₄ hg₅ =>
    obtain ⟨d, ds, hds, hlist⟩ := exists_fieldList?_record hn hq hg₀ hg₁ hne hg₂ hl.inert hg₃ hg₄
      location editable "JsonCreator".toList
    exact ⟨d, ds, _, hds, hlist, listOfText_spelling hl⟩
  | plainClass hg₀ hg₁ hne₁ hg₂ hg₃ hg₄ hne₄ hg₅ hl hg₆ hg₇ hg₈ hg₉ =>
    rename_i g₀ g₁ g₂ g₃ g₄ g₅ l g₆ g₇ g₈ g₉
    have hbraces : Nested Brackets.curly.weight (g₆ ++ '{' :: (g₇ ++ '}' :: g₈)) := by
      have hblank : ∀ {g : Text}, AllBlank g → Nested Brackets.curly.weight g := fun hg =>
        (Opaque.of_allBlank hg).nested
      have := (hblank hg₆).append (((hblank hg₇).wrap (o := '{') (c := '}') (by decide)
        (by decide)).append (hblank hg₈))
      simpa using this
    have hq' : mask s = g₀ ++ ("class".toList ++ (g₁ ++ (name ++ (g₂ ++ '{' :: (g₃ ++
        '@' :: ("JsonCreator".toList ++ (g₄ ++ (name ++ (g₅ ++ '(' :: (l ++ ')' ::
          ((g₆ ++ '{' :: (g₇ ++ '}' :: g₈)) ++ '}' :: g₉))))))))))) := by
      rw [hq, show ∀ x : Text, "@JsonCreator".toList ++ x = '@' :: ("JsonCreator".toList ++ x) from
        fun _ => rfl]
      simp only [List.append_assoc, List.cons_append]
    obtain ⟨d, ds, hds, hlist⟩ := exists_fieldList?_plainClass hn (by decide) hq' hg₀ hg₁ hne₁ hg₂
      hg₃ hg₄ hne₄ hg₅ hl.inert hbraces location editable
    exact ⟨d, ds, _, hds, hlist, listOfText_spelling hl⟩

theorem Gap.of_all {w : Text} (h : w.all isBlank = true) : Gap w := by
  induction w with
  | nil => exact .nil
  | cons c r ih =>
    rw [List.all_cons, Bool.and_eq_true] at h
    exact .blank h.1 (ih h.2)

/-- A class whose constructor has two parameters, with brackets and commas in a marker's literal and
in comments. -/
def orderClass : Text :=
  ("class Order \x7b\n  @JsonCreator\n  Order(@javax.Size(max = 9, message = \"a) , (b\") " ++
    "Map<String, List<Long>>/*,*/items, // no, (\n    Long id) \x7b\x7d\n\x7d").toList

/-- The parameters of the constructor. -/
def orderComponents : List Component :=
  [⟨"items".toList, .generic "Map".toList
      [.plain "String".toList, .generic "List".toList [.plain "Long".toList]]⟩,
    ⟨"id".toList, .plain "Long".toList⟩]

theorem Arguments.append {x a : Text} (hx : x.all (fun c => isArgumentChar c && c != '/') = true)
    (ha : Arguments a) : Arguments (x ++ a) := by
  induction x with
  | nil => exact ha
  | cons c r ih =>
    rw [List.all_cons, Bool.and_eq_true, Bool.and_eq_true] at hx
    exact .char hx.1.1 (fun e => absurd e (bne_iff_ne.1 hx.1.2)) (ih hx.2)

theorem orderClass_spelling :
    DeclarationSpelling .source "Order".toList orderComponents orderClass := by
  have hnone : Gap [] := .nil
  have hspace : Gap " ".toList := .of_all (by decide)
  have hline : Gap "\n  ".toList := .of_all (by decide)
  have hmarkers : MarkersSpelling .source
      ('@' :: ("javax".toList ++ '.' :: "Size".toList ++ '(' ::
        ("max = 9, message = ".toList ++ '"' :: ("a) , (b".toList ++ ['"']) ++ ')' ::
          (" ".toList ++ [])))) :=
    .called (.qualified (by decide) (.simple (by decide)))
      (.append (by decide) (.literal (by decide) (fun h => nomatch h) .nil)) hspace .nil
  have hlong : TypesSpelling Gap [.plain "Long".toList] ([] ++ ("Long".toList ++ [])) :=
    .name hnone (by decide) hnone
  have hlist : TypesSpelling Gap [.generic "List".toList [.plain "Long".toList]]
      (" ".toList ++ ("List".toList ++ ([] ++ '<' :: ([] ++ ("Long".toList ++ []) ++ '>' :: [])))) :=
    .generic hspace (by decide) hnone hlong hnone
  have hstring : TypesSpelling Gap [.plain "String".toList] ([] ++ ("String".toList ++ [])) :=
    .name hnone (by decide) hnone
  have hitems : ComponentSpelling .source
      ⟨"items".toList, .generic "Map".toList
        [.plain "String".toList, .generic "List".toList [.plain "Long".toList]]⟩ _ :=
    .mk hnone hmarkers (.generic hnone (by decide) hnone (.comma hstring hlist) hnone)
      (.blockComment (x := ",".toList) (fun h => absurd (h.subset List.mem_cons_self) (by decide)) hnone)
      (by simp) (by decide) hnone
  have hid : ComponentSpelling .source ⟨"id".toList, .plain "Long".toList⟩ _ :=
    .mk (.blank (c := ' ') (by decide) (.lineComment (x := " no, (".toList) (by decide)
      (.of_all (w := "    ".toList) (by decide)))) .nil hlong hspace (by decide) (by decide) hnone
  have h : DeclarationSpelling .source "Order".toList orderComponents _ := .plainClass hnone hspace
    (by decide) hspace hline hline (by decide) hnone (.cons hitems (.single hid)) hspace hnone
    (.of_all (w := "\n".toList) (by decide)) hnone
  refine Eq.mp (congrArg (DeclarationSpelling .source "Order".toList orderComponents) ?_) h
  decide +kernel

theorem fields_of_orderClass :
    isIdentifier "Order".toList = true ∧
      DeclarationSpelling .source "Order".toList orderComponents orderClass ∧
      ∃ d ds list, declarations orderClass none true = d :: ds ∧
        d.fieldList? "JsonCreator".toList = some list ∧
        (Field.listOfText list).map Field.component = orderComponents :=
  ⟨by decide, orderClass_spelling, fields_of_spelling (by decide) orderClass_spelling none true⟩

end RecordSkeleton.Java
