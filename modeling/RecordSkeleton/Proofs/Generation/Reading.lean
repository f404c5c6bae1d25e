import RecordSkeleton.Proofs.Generation.FixedText
import RecordSkeleton.Proofs.Json.Brackets
import RecordSkeleton.Proofs.Json.Readable

/-!
# Reading a skeleton

The text of a skeleton is read back as the object that its declaration asks for, with one member per
field, as long as indents are blank, the placeholders can be read and no field name needs an escape.

1. Every value that a type expression resolves to is readable, given that the skeletons are that it
   embeds (`readable_of_resolve`).
2. The skeleton of a declaration is read as one member per field, in order, and its brackets match
   (`generate_reads`).
-/

namespace RecordSkeleton

open Text Json

variable {ε : Type}

/-! ## Values -/

theorem isOrdinary_of_isMomentChar {c : Char} (hc : isMomentChar c = true) : isOrdinary c = true := by
  have hother : ∀ d ∈ ['-', ':', '.', 'T', 'Z', '+'], isOrdinary d = true := by decide
  unfold isMomentChar at hc
  rcases Bool.or_eq_true_iff.1 hc with hc | hc
  · obtain ⟨hlow, -⟩ := Char.isDigit_iff_toNat.1 hc
    have hquote : c ≠ '"' := by
      rintro rfl
      cases hc
    have hslash : c ≠ '\\' := by
      rintro rfl
      cases hc
    have hcontrol : 0x20 ≤ c.toNat := Nat.le_trans (by decide) hlow
    simp [isOrdinary, hquote, hslash, hcontrol]
  · exact hother c (List.contains_iff_mem.1 hc)

theorem readable_fixedText {moment : Moment} {text : Text} (h : FixedText moment text) :
    ∃ v, Readable text v := by
  have hwords : ∀ w ∈ fixedWords, (read w).isSome = true := by decide
  rcases h.cases with h | ⟨x, hx, rfl⟩
  · obtain ⟨v, hv⟩ := Option.isSome_iff_exists.1 (hwords text h)
    exact ⟨v, readable_iff.2 hv⟩
  · exact ⟨_, readable_quoted fun c hc => isOrdinary_of_isMomentChar (hx c hc)⟩

/-- The relation of a readable value to itself. -/
def ReadableValue (a b : Value) : Prop := a = b ∧ ∃ v, Readable a.render v

theorem valueRel_readable (moment : Moment) : ValueRel moment ReadableValue where
  literal := fun text h => ⟨rfl, readable_fixedText h⟩
  emptyArray := ⟨rfl, .array [], readable_iff.2 rfl⟩
  emptyObject := ⟨rfl, .object [], readable_iff.2 rfl⟩
  array := by
    rintro a _ ⟨rfl, v, hv⟩
    exact ⟨rfl, _, hv.array⟩
  pair := by
    rintro k _ a _ ⟨rfl, key, hk⟩ ⟨rfl, v, hv⟩
    refine ⟨rfl, .object [(key, v)], ?_⟩
    unfold Value.render Value.renderPairs Value.renderPairs
    simpa only [join, List.intersperse, List.flatten_cons, List.flatten_nil, List.append_nil]
      using hk.pair hv

/-- The values of a type are readable when the placeholders are, and the skeletons of the declarations
that the catalog answers with. -/
theorem readable_of_resolve {ctx : Context ε} {expand : Expand ctx}
    (hexternal : ∃ v, read ctx.externalPlaceholder = some v)
    (hrecursion : ∃ v, read ctx.recursionPlaceholder = some v)
    (hexpand : ∀ name found, ctx.catalog name = .ok found → ∀ d ∈ found, ∀ h text,
      (expand d h).result = .ok text → ∃ v, Readable text v)
    {t : TypeExpr} {a : Value} (h : (resolve ctx expand t).result = .ok a) :
    ∃ v, Readable a.render v := by
  have hV := valueRel_readable ctx.moment
  have hplaceholder : ∀ text, (∃ v, read text = some v) →
      ReadableValue (.literal text) (.literal text) := by
    rintro text ⟨v, hv⟩
    exact ⟨rfl, v, readable_iff.2 hv⟩
  have hsimilar : Run.Similar Event.query? ReadableValue (resolve ctx expand t)
      (resolve ctx expand t) := by
    refine resolve_similar hV rfl (fun name => ?_) t
    refine resolveName_similar hV rfl (hplaceholder _ hexternal) fun found d hfound hd => ?_
    refine @resolveExpandable_similar _ _ Event.query? ReadableValue _ _ _ _
      (fun x y => x = y ∧ ∃ v, Readable x v) d Iff.rfl rfl (hplaceholder _ hrecursion) ?_ ?_
    · rintro x _ ⟨rfl, hx⟩
      exact ⟨rfl, hx⟩
    · intro _ h h'
      exact .self (hexpand name found hfound d hd h)
  obtain ⟨_, -, -, hv⟩ := hsimilar.of_ok h
  exact hv

/-! ## Declarations -/

/-- No field of the declaration has a quote, a backslash or a control character in its name. -/
def OrdinaryFields (marker : Text) (d : Declaration) : Prop :=
  ∀ list ∈ d.fieldList? marker, ∀ f ∈ Field.listOfText list, ∀ c ∈ f.name, isOrdinary c = true

instance (marker : Text) (d : Declaration) : Decidable (OrdinaryFields marker d) :=
  inferInstanceAs (Decidable (∀ list ∈ d.fieldList? marker, ∀ f ∈ Field.listOfText list,
    ∀ c ∈ f.name, isOrdinary c = true))

/-- The member is what a field of the context reads back as: its name, and the reading of the default of
its type. -/
def FieldReads (ctx : Context ε) (f : Field) (m : Json × Json) : Prop :=
  m.1 = ofText f.name ∧
    ∃ a, (resolveText ctx f.type).result = .ok a ∧ read a.render = some m.2

/-- The text is read back as an object with one member per field, in order, or as the empty object when
the declaration has no field list. -/
def ReadsBack (ctx : Context ε) (d : Declaration) (text : Text) : Prop :=
  match d.fieldList? ctx.marker with
  | none => read text = some (.object [])
  | some list => ∃ members, read text = some (.object members) ∧
      List.Forall₂ (FieldReads ctx) (Field.listOfText list) members

theorem ReadsBack.readable {ctx : Context ε} {d : Declaration} {text : Text}
    (h : ReadsBack ctx d text) : ∃ v, Readable text v := by
  unfold ReadsBack at h
  split at h
  · exact ⟨_, readable_iff.2 h⟩
  · obtain ⟨members, hread, -⟩ := h
    exact ⟨_, readable_iff.2 hread⟩

theorem exists_members {α : Type} {P : α → Json × Json → Prop} {fs : List α} {es : List Text}
    (h : List.Forall₂ (fun f e => ∃ m, P f m ∧ IsMember e m) fs es) :
    ∃ members, List.Forall₂ P fs members ∧ List.Forall₂ IsMember es members := by
  induction h with
  | nil => exact ⟨[], .nil, .nil⟩
  | cons hm _ ih =>
    obtain ⟨m, hf, he⟩ := hm
    obtain ⟨ms, hfs, hes⟩ := ih
    exact ⟨m :: ms, .cons hf hfs, .cons he hes⟩

/-- The entry of a field is read as the member that the field asks for. -/
theorem exists_fieldReads {ctx : Context ε} {f : Field} {e : Text}
    (hname : ∀ c ∈ f.name, isOrdinary c = true)
    (hvalue : ∀ a, (resolveText ctx f.type).result = .ok a → ∃ v, Readable a.render v)
    (h : (entry f.name <$> resolveText ctx f.type).result = .ok e) :
    ∃ m, FieldReads ctx f m ∧ IsMember e m := by
  obtain ⟨a, ha, rfl⟩ := Run.result_map_ok h
  obtain ⟨v, hv⟩ := hvalue a ha
  refine ⟨(ofText f.name, v), ⟨rfl, a, ha, readable_iff.1 hv⟩, ?_⟩
  refine ⟨'"' :: (f.name ++ ['"']), a.render, ?_, readable_quoted hname, hv⟩
  simp [entry]

theorem readsBack_generate (ctx : Context ε) (hindent : ∀ c ∈ ctx.indent, c = ' ' ∨ c = '\t')
    (hexternal : ∃ v, read ctx.externalPlaceholder = some v)
    (hrecursion : ∃ v, read ctx.recursionPlaceholder = some v)
    (hcatalog : ∀ name found, ctx.catalog name = .ok found →
      ∀ d ∈ found, OrdinaryFields ctx.marker d)
    {d : Declaration} (hd : OrdinaryFields ctx.marker d) {text : Text}
    (h : (generate ctx d).result = .ok text) : ReadsBack ctx d text := by
  induction ctx using Context.descend_induction generalizing d text with
  | level ctx ih =>
    have hspace : ∀ c ∈ ctx.indent, isSpace c = true := by
      intro c hc
      rcases hindent c hc with rfl | rfl <;> rfl
    have hvalue : ∀ (f : Field) a, (resolveText ctx f.type).result = .ok a →
        ∃ v, Readable a.render v := by
      intro f a ha
      refine readable_of_resolve hexternal hrecursion (fun name found hfound e he hlt t ht => ?_) ha
      have hnested := ih hlt e.name hindent hexternal hrecursion hcatalog
        (hcatalog name found hfound e he) ht
      exact hnested.readable
    rw [generate_eq] at h
    unfold generateWith at h
    unfold ReadsBack
    cases hlist : d.fieldList? ctx.marker with
    | none =>
      rw [hlist] at h
      cases h
      rfl
    | some list =>
      rw [hlist] at h
      obtain ⟨es, hes, h⟩ := Run.result_bind_ok h
      cases h
      have hentries : List.Forall₂ (fun f e => ∃ m, FieldReads ctx f m ∧ IsMember e m)
          (Field.listOfText list) es := by
        have hruns := (List.forall₂_and_left _ _).2 ⟨hd list hlist, Run.forall₂_of_mapM hes⟩
        refine hruns.imp fun f e hfe => ?_
        exact exists_fieldReads hfe.1 (hvalue f) hfe.2
      obtain ⟨members, hfields, hmembers⟩ := exists_members hentries
      exact ⟨members, readable_iff.1 (readable_renderObject hspace _ hmembers), hfields⟩

/-- The text of a skeleton is read back as the object that its declaration asks for, and its brackets
match. -/
theorem generate_reads (ctx : Context ε) (hindent : ∀ c ∈ ctx.indent, c = ' ' ∨ c = '\t')
    (hexternal : ∃ v, read ctx.externalPlaceholder = some v)
    (hrecursion : ∃ v, read ctx.recursionPlaceholder = some v)
    (hcatalog : ∀ name found, ctx.catalog name = .ok found →
      ∀ d ∈ found, OrdinaryFields ctx.marker d)
    {d : Declaration} (hd : OrdinaryFields ctx.marker d) {text : Text}
    (h : (generate ctx d).result = .ok text) :
    ReadsBack ctx d text ∧ BracketsMatch text := by
  have hreads := readsBack_generate ctx hindent hexternal hrecursion hcatalog hd h
  obtain ⟨v, hv⟩ := hreads.readable
  exact ⟨hreads, bracketsMatch_of_read (readable_iff.1 hv)⟩

/-- The context of the order with placeholders that can be read. -/
def readableOrderContext : Context Empty :=
  { orderContext with
    externalPlaceholder := "\x7b\x7d".toList
    recursionPlaceholder := "null".toList }

theorem generate_reads_order :
    (∀ c ∈ readableOrderContext.indent, c = ' ' ∨ c = '\t') ∧
      (∃ v, read readableOrderContext.externalPlaceholder = some v) ∧
      (∃ v, read readableOrderContext.recursionPlaceholder = some v) ∧
      (∀ name found, readableOrderContext.catalog name = .ok found →
        ∀ d ∈ found, OrdinaryFields readableOrderContext.marker d) ∧
      OrdinaryFields readableOrderContext.marker orderRecord ∧
      ∃ text, (generate readableOrderContext orderRecord).result = .ok text ∧
        ReadsBack readableOrderContext orderRecord text ∧ BracketsMatch text := by
  have hindent : ∀ c ∈ readableOrderContext.indent, c = ' ' ∨ c = '\t' := by decide
  have hexternal : ∃ v, read readableOrderContext.externalPlaceholder = some v := ⟨.object [], rfl⟩
  have hrecursion : ∃ v, read readableOrderContext.recursionPlaceholder = some v := ⟨.null, rfl⟩
  have hfields : ∀ d ∈ [orderRecord, projectRecord "Person" "Order last, int age",
      projectRecord "Unit" ""], OrdinaryFields readableOrderContext.marker d := by decide +kernel
  have hcatalog : ∀ name found, readableOrderContext.catalog name = .ok found →
      ∀ d ∈ found, OrdinaryFields readableOrderContext.marker d := by
    rintro name _ ⟨⟩ d hd
    exact hfields d (List.mem_filter.1 hd).1
  have horder : OrdinaryFields readableOrderContext.marker orderRecord :=
    hfields orderRecord List.mem_cons_self
  refine ⟨hindent, hexternal, hrecursion, hcatalog, horder, ?_⟩
  -- The catalog never fails, so neither does the generation.
  cases h : (generate readableOrderContext orderRecord).result with
  | error e => exact e.elim
  | ok text =>
    exact ⟨text, rfl, generate_reads readableOrderContext hindent hexternal hrecursion hcatalog horder h⟩

end RecordSkeleton
