import RecordSkeleton.Proofs.Declaration.Preference
import RecordSkeleton.Proofs.Generation.Lookups
import RecordSkeleton.Proofs.Similar

/-!
# Two generations side by side

What it takes for two generations to be similar. Values are compared by a relation that holds for
every default of the fixed table and passes through containers (`ValueRel`).

1. The values of a type are similar when those of the names are that it looks up
   (`resolve_similar_of_lookups`).
2. The values of a name are similar when the catalogs have the same preference for it and the values of
   the preferred declaration are similar (`resolveName_similar_of_preference`); over one catalog, when
   those of every declaration are that may be expanded (`resolveName_similar`).
3. The skeletons of a declaration are similar when the values of its fields are
   (`generateWith_similar_of_fields`).

Skeletons embed those of nested declarations, which are generated nearer to the depth limit, so what is
said of all of them is proved by `Context.descend_induction`.
-/

namespace RecordSkeleton

open Text

variable {ε κ : Type} {view : Event → Option κ} {V : Value → Value → Prop}

/-! ## Levels -/

/-- What holds of a context if it holds one level deeper, as long as that is not beyond the depth limit,
holds of every context. -/
theorem Context.descend_induction {P : Context ε → Prop}
    (level : ∀ ctx, (ctx.depth < ctx.maxDepth → ∀ name, P (ctx.descend name)) → P ctx)
    (ctx : Context ε) : P ctx := by
  generalize hn : (ctx.maxDepth - ctx.depth).toNat = n
  induction n using Nat.strongRecOn generalizing ctx with
  | _ n ih =>
    refine level ctx fun hlt name => ih _ ?_ (ctx.descend name) rfl
    simp only [Context.descend]
    omega

/-! ## Relations of values -/

/-- The texts that the defaults of the fixed table and of the containers are written with. -/
def FixedText (moment : Moment) (text : Text) : Prop :=
  text = ['"', '"'] ∨ text = "null".toList ∨ ∃ name, literalOf? moment name = some text

/-- A relation of values that passes through containers and relates every fixed text to itself. -/
structure ValueRel (moment : Moment) (V : Value → Value → Prop) : Prop where
  literal : ∀ text, FixedText moment text → V (.literal text) (.literal text)
  emptyArray : V .emptyArray .emptyArray
  array : ∀ a b, V a b → V (.array a) (.array b)
  emptyObject : V (.object []) (.object [])
  pair : ∀ k k' v v', V k k' → V v v' → V (.object [(k, v)]) (.object [(k', v')])

namespace ValueRel

variable {moment : Moment} (hV : ValueRel moment V)

include hV

theorem emptyString : V .emptyString .emptyString := hV.literal _ (Or.inl rfl)

theorem empty (c : Container) : V c.empty c.empty := by
  cases c with
  | collection => exact hV.emptyArray
  | map => exact hV.emptyObject
  | optional => exact hV.literal _ (Or.inr (Or.inl rfl))

end ValueRel

theorem valueRel_eq (moment : Moment) : ValueRel moment Eq where
  literal _ _ := rfl
  emptyArray := rfl
  array := by rintro a _ rfl; rfl
  emptyObject := rfl
  pair := by rintro k _ v _ rfl rfl; rfl

/-- Whether a declaration is a record or a class of the project. -/
def Declaration.isExpandable (d : Declaration) : Bool :=
  d.editable && (d.kind == .record || d.kind == .plainClass)

/-! ## The default of a type -/

section Resolve

variable {ctx ctx' : Context ε} {expand : Expand ctx} {expand' : Expand ctx'}

theorem resolvePlain_similar (hV : ValueRel ctx.moment V) (hmoment : ctx'.moment = ctx.moment)
    {name : Text}
    (hname : isLookedUp name = true →
      Run.Similar view V (resolveName ctx expand name) (resolveName ctx' expand' name)) :
    Run.Similar view V (resolvePlain ctx expand name) (resolvePlain ctx' expand' name) := by
  unfold resolvePlain
  rw [hmoment]
  split
  · exact .pure (hV.empty _)
  · rename_i text _ htext
    exact .pure (hV.literal text (Or.inr (Or.inr ⟨name, htext⟩)))
  · rename_i hcontainer hliteral
    by_cases hne : name = []
    · unfold resolveName
      rw [if_pos hne, if_pos hne]
      exact .pure hV.emptyString
    · exact hname ((isLookedUp_iff ctx.moment).2 ⟨hne, hcontainer, hliteral⟩)

/-- The values of a type expression are similar when those of the names are that it looks up. -/
theorem resolve_similar_of_lookups (hV : ValueRel ctx.moment V) (hmoment : ctx'.moment = ctx.moment)
    (t : TypeExpr)
    (hname : ∀ name ∈ t.lookups,
      Run.Similar view V (resolveName ctx expand name) (resolveName ctx' expand' name)) :
    Run.Similar view V (resolve ctx expand t) (resolve ctx' expand' t) := by
  induction t using resolve.induct with
  | case1 name =>
    rw [resolve, resolve]
    exact (Run.Similar.emit rfl).bind fun _ _ _ => .pure hV.emptyString
  | case2 name =>
    rw [resolve, resolve]
    refine (Run.Similar.emit rfl).bind fun _ _ _ => resolvePlain_similar hV hmoment fun h => ?_
    exact hname name (by rw [TypeExpr.lookups, if_pos h]; exact List.mem_singleton_self name)
  | case3 name args ih =>
    unfold resolve
    unfold TypeExpr.lookups at hname
    refine (Run.Similar.emit rfl).bind fun _ _ _ => ?_
    -- The arguments that count are those the container takes.
    split
    · rename_i hc
      simp only [hc] at ih hname
      exact Run.Similar.map (ih hname) fun a b h => hV.array a b h
    · rename_i hc
      simp only [hc] at ih hname
      have hkey := ih.1 fun n hn => hname n (List.mem_append_left _ hn)
      have hvalue := ih.2 fun n hn => hname n (List.mem_append_right _ hn)
      refine hkey.bind fun k k' hk => hvalue.bind fun v v' hv => ?_
      exact .pure (hV.pair k k' v v' hk hv)
    · rename_i hc
      simp only [hc] at ih hname
      exact ih hname
    · exact .pure (hV.empty _)
    · exact .pure hV.emptyObject

/-- The values of a type expression are similar when those of every name are. -/
theorem resolve_similar (hV : ValueRel ctx.moment V) (hmoment : ctx'.moment = ctx.moment)
    (hname : ∀ name,
      Run.Similar view V (resolveName ctx expand name) (resolveName ctx' expand' name))
    (t : TypeExpr) : Run.Similar view V (resolve ctx expand t) (resolve ctx' expand' t) :=
  resolve_similar_of_lookups hV hmoment t fun name _ => hname name

/-! ## The value of a declaration -/

theorem ask_similar (catalog : Catalog ε) (name : Text) :
    Run.Similar view (fun a b => a = b ∧ catalog name = .ok a) (ask catalog name)
      (ask catalog name) := by
  unfold ask
  refine (Run.Similar.emit rfl).bind fun _ _ _ => ?_
  cases h : catalog name with
  | error e => exact ⟨rfl, .error e⟩
  | ok found =>
    refine Run.Similar.bind (R := fun a b => a = b ∧ a = found) ⟨rfl, .ok ⟨rfl, rfl⟩⟩ ?_
    rintro _ _ ⟨rfl, rfl⟩
    exact (Run.Similar.emit rfl).bind fun _ _ _ => .pure ⟨rfl, rfl⟩

theorem ask_similar_preference (catalog : Catalog ε) (name : Text) :
    Run.Similar view (fun a b => SamePreference a b ∧ catalog name = .ok a) (ask catalog name)
      (ask catalog name) := by
  refine (ask_similar catalog name).mono ?_
  rintro found _ ⟨rfl, hfound⟩
  exact ⟨.refl found, hfound⟩

theorem mem_of_preferred? {ds : List Declaration} {d : Declaration}
    (h : Declaration.preferred? ds = some d) : d ∈ ds := by
  unfold Declaration.preferred? at h
  rcases Option.or_eq_some_iff.1 h with h | ⟨-, h⟩
  · exact List.mem_of_find?_eq_some h
  · exact List.mem_of_head? h

theorem resolveDeclaration_similar (hV : ValueRel ctx.moment V)
    (hexternal : V (.literal ctx.externalPlaceholder) (.literal ctx'.externalPlaceholder))
    {d : Declaration}
    (hexpand : d.isExpandable = true →
      Run.Similar view V (resolveExpandable ctx expand d) (resolveExpandable ctx' expand' d)) :
    Run.Similar view V (resolveDeclaration ctx expand d) (resolveDeclaration ctx' expand' d) := by
  unfold Declaration.isExpandable at hexpand
  unfold resolveDeclaration
  cases he : d.editable with
  | false => exact .pure hexternal
  | true =>
    rw [he] at hexpand
    cases hk : d.kind with
    | enumeration => exact .pure hV.emptyString
    | interface => exact .pure hV.emptyObject
    | record => exact hexpand (by rw [hk]; rfl)
    | plainClass => exact hexpand (by rw [hk]; rfl)

/-- The values of a name are similar when the answers of the catalogs have the same preference and the
values of the preferred declaration are similar if it may be expanded. -/
theorem resolveName_similar_of_preference (hV : ValueRel ctx.moment V)
    (hexternal : V (.literal ctx.externalPlaceholder) (.literal ctx'.externalPlaceholder))
    {name : Text}
    (hask : Run.Similar view (fun a b => SamePreference a b ∧ ctx.catalog name = .ok a)
      (ask ctx.catalog name) (ask ctx'.catalog name))
    (hexpand : ∀ found d, ctx.catalog name = .ok found → Declaration.preferred? found = some d →
      d.isExpandable = true →
      Run.Similar view V (resolveExpandable ctx expand d) (resolveExpandable ctx' expand' d)) :
    Run.Similar view V (resolveName ctx expand name) (resolveName ctx' expand' name) := by
  unfold resolveName
  split
  · exact .pure hV.emptyString
  · refine hask.bind fun found found' h => ?_
    obtain ⟨hsame, hfound⟩ := h
    rcases hsame.cases with ⟨hd, hd'⟩ | ⟨d, d', hd, hd', he, he'⟩ | ⟨d, hd, hd', -⟩
    · rw [hd, hd']
      exact .pure hV.emptyString
    · rw [hd, hd']
      simp only [resolveDeclaration, he, he']
      exact .pure hexternal
    · rw [hd, hd']
      exact resolveDeclaration_similar hV hexternal (hexpand found d hfound hd)

/-- The values of a name are similar over one catalog when those of every declaration are that the
catalog answers with and that may be expanded. -/
theorem resolveName_similar (hV : ValueRel ctx.moment V) (hcatalog : ctx'.catalog = ctx.catalog)
    (hexternal : V (.literal ctx.externalPlaceholder) (.literal ctx'.externalPlaceholder))
    {name : Text}
    (hexpand : ∀ found d, ctx.catalog name = .ok found → d ∈ found →
      Run.Similar view V (resolveExpandable ctx expand d) (resolveExpandable ctx' expand' d)) :
    Run.Similar view V (resolveName ctx expand name) (resolveName ctx' expand' name) := by
  refine resolveName_similar_of_preference hV hexternal ?_ fun found d hfound hd _ =>
    hexpand found d hfound (mem_of_preferred? hd)
  rw [hcatalog]
  exact ask_similar_preference ctx.catalog name

/-- The value of a declaration that may be expanded is similar when the guard decides in the same way,
the placeholders are related and so are the skeletons. -/
theorem resolveExpandable_similar {T : Text → Text → Prop} {d : Declaration}
    (hguard : (d.name ∉ ctx'.path ∧ ctx'.depth < ctx'.maxDepth) ↔
      (d.name ∉ ctx.path ∧ ctx.depth < ctx.maxDepth))
    (hview : view (.cut d.name ctx.depth ctx.path) = view (.cut d.name ctx'.depth ctx'.path))
    (hrecursion : V (.literal ctx.recursionPlaceholder) (.literal ctx'.recursionPlaceholder))
    (hT : ∀ t t', T t t' → V (.skeleton t) (.skeleton t'))
    (hexpand : d.name ∉ ctx.path → ∀ h h', Run.Similar view T (expand d h) (expand' d h')) :
    Run.Similar view V (resolveExpandable ctx expand d) (resolveExpandable ctx' expand' d) := by
  unfold resolveExpandable
  by_cases h : d.name ∉ ctx.path ∧ ctx.depth < ctx.maxDepth
  · rw [dif_pos h, dif_pos (hguard.2 h)]
    exact (hexpand h.1 _ _).map hT
  · rw [dif_neg h, dif_neg fun h' => h (hguard.1 h')]
    exact (Run.Similar.emit hview).bind fun _ _ _ => .pure hrecursion

/-! ## The skeleton of a declaration -/

/-- The skeletons of a declaration are similar when the values of its fields are. -/
theorem generateWith_similar_of_fields {E T : Text → Text → Prop} {d : Declaration}
    (hmarker : ctx'.marker = ctx.marker) (hnone : T ['\x7b', '\x7d'] ['\x7b', '\x7d'])
    (hV : ∀ f ∈ d.fields ctx.marker, Run.Similar view V (resolve ctx expand (.ofText f.type))
      (resolve ctx' expand' (.ofText f.type)))
    (hE : ∀ f ∈ d.fields ctx.marker, ∀ v v', V v v' → E (entry f.name v) (entry f.name v'))
    (hT : ∀ es es', List.Forall₂ E es es' →
      T (renderObject es ctx.depth ctx.indent) (renderObject es' ctx'.depth ctx'.indent)) :
    Run.Similar view T (generateWith ctx expand d) (generateWith ctx' expand' d) := by
  unfold generateWith
  unfold Declaration.fields at hV hE
  rw [hmarker]
  cases hlist : d.fieldList? ctx.marker with
  | none => exact (Run.Similar.emit rfl).bind fun _ _ _ => .pure hnone
  | some list =>
    simp only [hlist] at hV hE
    refine Run.Similar.bind (R := List.Forall₂ E) ?_ fun es es' h => .pure (hT es es' h)
    exact .mapM fun f hf => (hV f hf).map (hE f hf)

/-- The skeletons of a declaration are similar when the values of every type are. -/
theorem generateWith_similar {E T : Text → Text → Prop} {d : Declaration}
    (hmarker : ctx'.marker = ctx.marker) (hnone : T ['\x7b', '\x7d'] ['\x7b', '\x7d'])
    (hV : ∀ t, Run.Similar view V (resolve ctx expand t) (resolve ctx' expand' t))
    (hE : ∀ list, d.fieldList? ctx.marker = some list → ∀ f ∈ Field.listOfText list,
      ∀ v v', V v v' → E (entry f.name v) (entry f.name v'))
    (hT : ∀ es es', List.Forall₂ E es es' →
      T (renderObject es ctx.depth ctx.indent) (renderObject es' ctx'.depth ctx'.indent)) :
    Run.Similar view T (generateWith ctx expand d) (generateWith ctx' expand' d) := by
  refine generateWith_similar_of_fields hmarker hnone (fun f _ => hV _) (fun f hf => ?_) hT
  obtain ⟨list, hlist, hf⟩ := Declaration.mem_fields.1 hf
  exact hE list hlist f hf

/-- The skeletons of a declaration agree in two contexts that lay values out in the same way when the
values of the names agree that the declaration looks up. -/
theorem generateWith_similar_eq {d : Declaration} (hmoment : ctx'.moment = ctx.moment)
    (hmarker : ctx'.marker = ctx.marker) (hdepth : ctx'.depth = ctx.depth)
    (hindent : ctx'.indent = ctx.indent)
    (hname : ∀ name ∈ d.lookups ctx.marker,
      Run.Similar view Eq (resolveName ctx expand name) (resolveName ctx' expand' name)) :
    Run.Similar view Eq (generateWith ctx expand d) (generateWith ctx' expand' d) := by
  refine generateWith_similar_of_fields (V := Eq) (E := Eq) hmarker rfl (fun f hf => ?_) ?_ ?_
  · refine resolve_similar_of_lookups (valueRel_eq _) hmoment _ fun name hn => hname name ?_
    exact List.mem_flatMap.2 ⟨f, hf, hn⟩
  · rintro f _ v _ rfl
    rfl
  · intro es es' h
    rw [List.forall₂_eq_eq_eq] at h
    rw [h, hdepth, hindent]

end Resolve

/-! ## A small project -/

/-- A record of the project with the given components. -/
def projectRecord (name components : String) : Declaration where
  name := name.toList
  kind := .record
  source := "record ".toList ++ name.toList ++ ['('] ++ components.toList ++ ") \x7b\x7d".toList
  editable := true
  constructors := []
  location := none
  nested := false

/-- A record that refers to the other two below. -/
def orderRecord : Declaration :=
  projectRecord "Order" "Map<Unit, List<Person>> byUnit, LocalDate day"

/-- A context in which the record refers to itself in turn, and to a record without components. -/
def orderContext : Context Empty where
  catalog := Catalog.ofList [orderRecord, projectRecord "Person" "Order last, int age",
    projectRecord "Unit" ""]
  moment := ⟨2024, 2, 29, 13, 5, 9, 250000, none⟩

end RecordSkeleton
