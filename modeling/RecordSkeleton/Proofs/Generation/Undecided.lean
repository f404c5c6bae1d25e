import Mathlib.Data.List.TakeWhile
import RecordSkeleton.Proofs.Generation.Preference
import RecordSkeleton.Proofs.TypeExpr.Print

/-!
# Names that nothing else decides

A catalog is the last one to be asked for a name: what the fixed table knows, what is no name at all
and what still has brackets or blanks around it gets its value without it.

1. The names that a type's text is looked up by are trimmed and have no opening angle bracket, however
   the text is malformed (`TypeExpr.trimmed_of_mem_lookups`).
2. Every name that a generation asks for is one that a field of some expanded declaration is looked up
   by, also when the catalog fails (`exists_lookup_of_mem_queries`).
3. So the catalog is asked for undecided names only, and what it holds under the names of the fixed
   table does not count (`generate_asks_undecided`).
-/

namespace RecordSkeleton

open Text

variable {ε : Type}

/-! ## Undecided names -/

/-- The names of the fixed table. -/
def tableNames : List Text :=
  Container.collectionNames ++ Container.mapNames ++ [Container.optionalName] ++
    primitiveDefaults.map (·.1) ++ DateTimeType.names.map (·.1)

/-- A name that only a catalog can say something about. -/
structure IsUndecided (name : Text) : Prop where
  ne_nil : name ≠ []
  /-- No blank stands at its ends. -/
  trim_eq : trim name = name
  no_bracket : '<' ∉ name
  /-- It is the name of no container, no primitive or boxed type and no date or time type. -/
  not_mem_table : name ∉ tableNames

theorem not_mem_keys_of_lookup {α : Type} {l : List (Text × α)} {name : Text}
    (h : l.lookup name = none) : name ∉ l.map (·.1) := by
  intro hmem
  obtain ⟨p, hp, rfl⟩ := List.mem_map.1 hmem
  have hne := List.lookup_eq_none_iff.1 h p hp
  exact absurd rfl (bne_iff_ne.1 hne)

theorem Container.not_mem_of_ofName? {name : Text} (h : Container.ofName? name = none) :
    name ∉ Container.collectionNames ∧ name ∉ Container.mapNames ∧ name ≠ Container.optionalName := by
  unfold Container.ofName? at h
  split at h
  · cases h
  · rename_i hcollection
    split at h
    · cases h
    · rename_i hmap
      split at h
      · cases h
      · rename_i hoptional
        exact ⟨hcollection, hmap, hoptional⟩

/-- What is looked up is none of the names of the fixed table. -/
theorem not_mem_tableNames {name : Text} (h : isLookedUp name = true) : name ∉ tableNames := by
  unfold isLookedUp at h
  simp only [Bool.and_eq_true, Option.isNone_iff_eq_none] at h
  obtain ⟨⟨⟨-, hcontainer⟩, hprimitive⟩, hdateTime⟩ := h
  obtain ⟨hcollection, hmap, hoptional⟩ := Container.not_mem_of_ofName? hcontainer
  unfold tableNames
  simp only [List.mem_append, List.mem_singleton, not_or]
  exact ⟨⟨⟨⟨hcollection, hmap⟩, hoptional⟩, not_mem_keys_of_lookup hprimitive⟩,
    not_mem_keys_of_lookup hdateTime⟩

/-! ## The names of a type's text -/

/-- The names that a type with arguments is looked up by are those of its arguments. -/
theorem TypeExpr.exists_arg_of_mem_lookups {base name : Text} {args : List TypeExpr}
    (h : name ∈ (TypeExpr.generic base args).lookups) : ∃ a ∈ args, name ∈ a.lookups := by
  unfold TypeExpr.lookups at h
  split at h
  · exact ⟨_, List.mem_cons_self, h⟩
  · rename_i a b _ _
    rcases List.mem_append.1 h with h | h
    · exact ⟨a, List.mem_cons_self, h⟩
    · exact ⟨b, List.mem_cons_of_mem _ List.mem_cons_self, h⟩
  · exact ⟨_, List.mem_cons_self, h⟩
  · cases h

/-- The names that a text is looked up by are trimmed and have no opening angle bracket. -/
theorem TypeExpr.trimmed_of_mem_lookups {s name : Text} (h : name ∈ (TypeExpr.ofText s).lookups) :
    trim name = name ∧ '<' ∉ name := by
  induction s using TypeExpr.ofText.induct with
  | case1 s hs =>
    rw [TypeExpr.ofText_eq, hs, TypeExpr.lookups] at h
    split at h
    · rw [List.mem_singleton.1 h]
      refine ⟨trim_trim s, fun hlt => ?_⟩
      have := List.dropWhile_eq_nil_iff.1 hs _ hlt
      exact absurd this (by decide)
    · cases h
  | case2 s c r hs hclose parts ih =>
    rw [TypeExpr.ofText_eq, hs] at h
    simp only [if_pos hclose] at h
    obtain ⟨a, ha, hname⟩ := TypeExpr.exists_arg_of_mem_lookups h
    obtain ⟨p, hp, rfl⟩ := List.mem_map.1 ha
    exact ih ⟨p, hp⟩ hname
  | case3 s c r hs hclose =>
    rw [TypeExpr.ofText_eq, hs] at h
    simp only [if_neg hclose] at h
    cases h

theorem Declaration.isUndecided_of_mem_lookups {d : Declaration} {marker name : Text}
    (h : name ∈ d.lookups marker) : IsUndecided name := by
  have hlookedUp := Declaration.isLookedUp_of_mem_lookups h
  obtain ⟨f, -, hname⟩ := List.mem_flatMap.1 h
  obtain ⟨htrim, hbracket⟩ := TypeExpr.trimmed_of_mem_lookups hname
  have hne : name ≠ [] := by
    rintro rfl
    cases hlookedUp
  exact ⟨hne, htrim, hbracket, not_mem_tableNames hlookedUp⟩

/-! ## The names that are asked for -/

/-- The catalog that answers with no declaration where it failed. -/
def Catalog.answering (catalog : Catalog ε) : Catalog ε := fun name =>
  match catalog name with
  | .ok found => .ok found
  | .error _ => .ok []

/-- The error that a catalog fails with for a name. -/
def Catalog.error? (catalog : Catalog ε) (name : Text) : Option ε :=
  match catalog name with
  | .ok _ => none
  | .error e => some e

/-- A catalog is one that always answers, made to fail where it does. -/
theorem Catalog.failing_answering (catalog : Catalog ε) :
    catalog.answering.failing catalog.error? id = catalog := by
  funext name
  unfold Catalog.failing Catalog.error? Catalog.answering
  cases catalog name <;> rfl

theorem Context.failing_answering (ctx : Context ε) :
    (ctx.withCatalog ctx.catalog.answering).failing ctx.catalog.error? id = ctx := by
  show ctx.withCatalog (ctx.catalog.answering.failing ctx.catalog.error? id) = ctx
  rw [Catalog.failing_answering]
  rfl

/-- A run that is stopped shows no other events. -/
theorem Run.events_stopAt_subset {τ ζ α : Type} {stop : τ → Option ζ} {keep : ε → ζ}
    {x : Run τ ε α} : (x.stopAt stop keep).events ⊆ x.events := by
  rcases Run.stopAt_cases stop keep x with h | ⟨us, t, vs, e, hx, -, -, hstop⟩
  · rw [Run.stopAt_of_forall h]
    exact List.Subset.refl _
  · rw [hstop, hx]
    intro event hevent
    rcases List.mem_append.1 hevent with hevent | hevent
    · exact List.mem_append_left _ hevent
    · exact List.mem_append_right us (List.mem_cons.2 (Or.inl (List.mem_singleton.1 hevent)))

/-- A name that is asked for is one that the fields of an expanded declaration are looked up by. -/
theorem exists_lookup_of_mem_queries {ctx : Context ε} {d : Declaration} {name : Text}
    (h : name ∈ queries (generate ctx d)) :
    ∃ c : Call ε, name ∈ c.declaration.lookups c.ctx.marker := by
  -- Where the catalog fails, the generation over one that answers would have gone on.
  have hanswered : name ∈ queries (generate (ctx.withCatalog ctx.catalog.answering) d) := by
    have hfailing := generate_failing ctx.catalog.error? id
      (ctx.withCatalog ctx.catalog.answering) d
    rw [Context.failing_answering] at hfailing
    rw [hfailing] at h
    obtain ⟨event, hevent, hname⟩ := List.mem_filterMap.1 h
    exact List.mem_filterMap.2 ⟨event, Run.events_stopAt_subset hevent, hname⟩
  have hcatalog : ∀ n, ∃ found, (ctx.withCatalog ctx.catalog.answering).catalog n = .ok found := by
    intro n
    show ∃ found, ctx.catalog.answering n = .ok found
    unfold Catalog.answering
    cases ctx.catalog n with
    | ok found => exact ⟨found, rfl⟩
    | error e => exact ⟨[], rfl⟩
  rw [queries_generate (c := ⟨ctx.withCatalog ctx.catalog.answering, d⟩) hcatalog] at hanswered
  obtain ⟨r, hr, rfl⟩ := List.mem_map.1 hanswered
  obtain ⟨c, -, hown⟩ := Call.exists_own_of_mem_references hr
  obtain ⟨n, hn, rfl⟩ := List.mem_map.1 hown
  exact ⟨c, hn⟩

theorem sameAnswer_refl (a : Except ε (List Declaration)) : SameAnswer a a := by
  cases a with
  | ok found => exact .ok (.refl found)
  | error e => exact .error e

/-- The catalog is asked for undecided names only, at any depth of a generation. So a catalog that
differs from it by declarations with names of the fixed table leads to the same text or error, the same
queries and the same warnings. -/
theorem generate_asks_undecided (ctx : Context ε) (d : Declaration) :
    (∀ name ∈ queries (generate ctx d), IsUndecided name) ∧
      ∀ catalog : Catalog ε, (∀ name, name ∉ tableNames → catalog name = ctx.catalog name) →
        SameGeneration (generate ctx d) (generate (ctx.withCatalog catalog) d) := by
  have hundecided : ∀ name ∈ queries (generate ctx d), IsUndecided name := by
    intro name hname
    obtain ⟨c, hlookup⟩ := exists_lookup_of_mem_queries hname
    exact Declaration.isUndecided_of_mem_lookups hlookup
  refine ⟨hundecided, fun catalog hcatalog => ?_⟩
  refine sameGeneration_of_agree (generate_similar_of_queries ctx catalog d fun name hname => ?_)
  rw [hcatalog name (hundecided name hname).not_mem_table]
  exact sameAnswer_refl _

/-- Two lists of declarations that only differ by names of the fixed table agree on all other names. -/
theorem Catalog.ofList_eq_of_filter {ds ds' : List Declaration}
    (h : ds.filter (fun d => d.name ∉ tableNames) = ds'.filter fun d => d.name ∉ tableNames)
    {name : Text} (hname : name ∉ tableNames) :
    (Catalog.ofList ds name : Except ε (List Declaration)) = Catalog.ofList ds' name := by
  have hnamed : ∀ ds : List Declaration,
      Catalog.named ds name = Catalog.named (ds.filter fun d => d.name ∉ tableNames) name := by
    intro ds
    unfold Catalog.named
    rw [List.filter_filter]
    refine List.filter_congr fun d _ => ?_
    by_cases hd : d.name = name
    · rw [hd]
      simp [hname]
    · simp [hd]
  unfold Catalog.ofList
  rw [hnamed ds, hnamed ds', h]

/-- A record with a type of two words, a map with blanks around its arguments, types that have names of
the fixed table and a type whose bracket is not closed. -/
def shipmentRecord : Declaration :=
  projectRecord "Shipment"
    "final Unit by, Map< Person ,\tList<Integer> > m, Year y, Optional< Unit > u, List< Unit v"

/-- The project with declarations that have names of the fixed table. -/
def shadowedProject : List Declaration :=
  projectRecord "Integer" "int x" :: orderProject ++
    [projectRecord "Map" "Person p", projectRecord "Year" "Unit u"]

theorem generate_asks_undecided_shipment :
    "final Unit".toList ∈ queries (generate rootOrderContext shipmentRecord) ∧
      IsUndecided "final Unit".toList ∧
      (∀ name, name ∉ tableNames →
        (Catalog.ofList shadowedProject : Catalog Empty) name = rootOrderContext.catalog name) ∧
      SameGeneration (generate rootOrderContext shipmentRecord)
        (generate (rootOrderContext.withCatalog (Catalog.ofList shadowedProject)) shipmentRecord) := by
  have hqueries : queries (generate rootOrderContext shipmentRecord) =
      ["final Unit".toList, "Person".toList, "Order".toList, "Unit".toList] := by decide +kernel
  have hmem : "final Unit".toList ∈ queries (generate rootOrderContext shipmentRecord) := by
    rw [hqueries]
    exact List.mem_cons_self
  have hcatalog : ∀ name, name ∉ tableNames →
      (Catalog.ofList shadowedProject : Catalog Empty) name = rootOrderContext.catalog name :=
    fun name => Catalog.ofList_eq_of_filter (by decide +kernel)
  obtain ⟨hundecided, hsame⟩ := generate_asks_undecided rootOrderContext shipmentRecord
  exact ⟨hmem, hundecided _ hmem, hcatalog, hsame _ hcatalog⟩

end RecordSkeleton
