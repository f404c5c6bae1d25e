import RecordSkeleton.Log
import RecordSkeleton.Proofs.Generation.Similar

/-!
# References and calls

A generation follows references: the names that its fields are looked up by, and in turn those of the
declarations that are expanded for them. Each expansion is a call of the generation itself, one level
deeper. Here both are listed for a catalog, without running the generation.

1. Over a catalog that never fails, the generation succeeds and shows the events of its references, in
   order (`generate_shows`).
2. The generation needs no calls but the ones that are listed: whatever satisfies its equation there
   agrees with it (`generate_eq_of_calls`).
-/

namespace RecordSkeleton

open Text

variable {ε κ : Type} {view : Event → Option κ}

/-- The names that the catalog is asked for in the course of a generation, in order. -/
def queries {α : Type} (x : Gen ε α) : List Text := x.events.filterMap Event.query?

/-- The warnings that are logged in the course of a generation, in order. -/
def warnings {α : Type} (x : Gen ε α) : List LogEntry :=
  (x.events.filterMap Event.logged?).filter (·.isWarning)

/-- What is cut off in an event: the name, the depth and the path. -/
def Event.cut? : Event → Option (Text × Int × List Text)
  | cut name depth path => some (name, depth, path)
  | _ => none

/-- A generation of a declaration in a context. -/
structure Call (ε : Type) where
  ctx : Context ε
  declaration : Declaration

/-- A name that is looked up for a field of the declaration that is generated in a context. -/
structure Reference (ε : Type) where
  ctx : Context ε
  name : Text

namespace Reference

/-- What the catalog answers. -/
def found (r : Reference ε) : List Declaration :=
  match r.ctx.catalog r.name with
  | .ok found => found
  | .error _ => []

/-- The record or class of the project that the name stands for. -/
def target? (r : Reference ε) : Option Declaration :=
  (Declaration.preferred? r.found).filter (·.isExpandable)

theorem found_of_ok {r : Reference ε} {found : List Declaration}
    (h : r.ctx.catalog r.name = .ok found) : r.found = found := by
  unfold Reference.found
  rw [h]

theorem target?_of_ok {r : Reference ε} {found : List Declaration}
    (h : r.ctx.catalog r.name = .ok found) :
    r.target? = (Declaration.preferred? found).filter (·.isExpandable) := by
  unfold target?
  rw [found_of_ok h]

/-- The guard cuts a reference off: its target is on the path, or the depth limit is reached. -/
def cut? (r : Reference ε) : Option Declaration :=
  r.target?.filter fun d => decide (d.name ∈ r.ctx.path ∨ r.ctx.maxDepth ≤ r.ctx.depth)

/-- The call that expands a reference that is not cut off. -/
def call? (r : Reference ε) : Option (Call ε) :=
  (r.target?.filter fun d => decide (d.name ∉ r.ctx.path ∧ r.ctx.depth < r.ctx.maxDepth)).map
    fun d => ⟨r.ctx.descend d.name, d⟩

/-- What happens at a reference itself, before anything is expanded. -/
def events (r : Reference ε) : List Event :=
  [.asked r.name, .answered r.name r.found.length] ++
    (r.cut?.map fun d => .cut d.name r.ctx.depth r.ctx.path).toList

/-- The warning that a reference is cut off, which says where. -/
def warning? (r : Reference ε) : Option LogEntry :=
  r.cut?.map fun d => ⟨.warning, "resolver".toList,
    "Not expanding ".toList ++ d.name ++ " at depth ".toList ++ ofInt r.ctx.depth ++
      " (resolution path: ".toList ++ join " -> ".toList r.ctx.path ++ ")".toList⟩

theorem call?_eq_some {r : Reference ε} {c : Call ε} (h : r.call? = some c) :
    ∃ d, r.target? = some d ∧ d.name ∉ r.ctx.path ∧ r.ctx.depth < r.ctx.maxDepth ∧
      c = ⟨r.ctx.descend d.name, d⟩ := by
  obtain ⟨d, hd, rfl⟩ := Option.map_eq_some_iff.1 h
  obtain ⟨hd, hguard⟩ := Option.filter_eq_some_iff.1 hd
  obtain ⟨hpath, hdepth⟩ := of_decide_eq_true hguard
  exact ⟨d, hd, hpath, hdepth, rfl⟩

/-- A target is expanded or cut off, by the guard's decision. -/
theorem call?_cut?_of_target? {r : Reference ε} {d : Declaration} (h : r.target? = some d) :
    (d.name ∉ r.ctx.path ∧ r.ctx.depth < r.ctx.maxDepth ∧
        r.call? = some ⟨r.ctx.descend d.name, d⟩ ∧ r.cut? = none) ∨
      (¬(d.name ∉ r.ctx.path ∧ r.ctx.depth < r.ctx.maxDepth) ∧ r.call? = none ∧
        r.cut? = some d) := by
  unfold call? cut?
  rw [h]
  by_cases hpath : d.name ∈ r.ctx.path
  · exact Or.inr (by simp [hpath])
  · by_cases hdepth : r.ctx.depth < r.ctx.maxDepth
    · exact Or.inl (by simp [hpath, hdepth])
    · exact Or.inr (by simp [hpath, hdepth, Int.not_lt.1 hdepth])

theorem call?_cut?_of_target?_none {r : Reference ε} (h : r.target? = none) :
    r.call? = none ∧ r.cut? = none := by
  unfold call? cut?
  rw [h]
  exact ⟨rfl, rfl⟩

theorem cut?_eq_some {r : Reference ε} {d : Declaration} (h : r.cut? = some d) :
    r.target? = some d ∧ (d.name ∈ r.ctx.path ∨ r.ctx.maxDepth ≤ r.ctx.depth) := by
  obtain ⟨hd, hguard⟩ := Option.filter_eq_some_iff.1 h
  exact ⟨hd, of_decide_eq_true hguard⟩

theorem target?_eq_some {r : Reference ε} {d : Declaration} (h : r.target? = some d) :
    d ∈ r.found ∧ d.editable = true ∧ (d.kind = .record ∨ d.kind = .plainClass) := by
  obtain ⟨hd, hexpandable⟩ := Option.filter_eq_some_iff.1 h
  simp only [Declaration.isExpandable, Bool.and_eq_true, Bool.or_eq_true, beq_iff_eq]
    at hexpandable
  exact ⟨mem_of_preferred? hd, hexpandable⟩

end Reference

namespace Call

/-- The references that the fields of a call's own declaration make. -/
def own (c : Call ε) : List (Reference ε) :=
  (c.declaration.lookups c.ctx.marker).map fun name => ⟨c.ctx, name⟩

/-- All references that a call follows, each before those of its expansion. -/
def references (c : Call ε) : List (Reference ε) :=
  (c.declaration.lookups c.ctx.marker).flatMap fun name =>
    ⟨c.ctx, name⟩ :: match _h : (Reference.mk c.ctx name).call? with
      | none => []
      | some c' => c'.references
termination_by (c.ctx.maxDepth - c.ctx.depth).toNat
decreasing_by
  obtain ⟨d, -, -, hdepth, rfl⟩ := Reference.call?_eq_some _h
  simp only [Context.descend] at hdepth ⊢
  omega

/-- A call and all calls that it leads to. -/
def calls (c : Call ε) : List (Call ε) := c :: c.references.filterMap Reference.call?

end Call

/-- What is shown at a reference and in its expansion. -/
def Reference.expansion (r : Reference ε) (g : Call ε → List κ) : List κ :=
  match r.call? with
  | none => []
  | some c => g c

theorem Reference.flatMap_expansion {α : Type} (r : Reference ε) (g : Call ε → List κ)
    (f : κ → List α) : (r.expansion g).flatMap f = r.expansion fun c => (g c).flatMap f := by
  unfold expansion
  cases r.call? <;> rfl

namespace Call

theorem references_eq (c : Call ε) :
    c.references = c.own.flatMap fun r => r :: r.expansion references := by
  rw [references, own, List.flatMap_map]
  unfold Reference.expansion
  refine congrArg (List.flatMap · _) (funext fun name => congrArg _ ?_)
  split <;> rename_i h <;> rw [h]

theorem mem_references {c : Call ε} {s : Reference ε} :
    s ∈ c.references ↔
      ∃ r ∈ c.own, s = r ∨ ∃ c', r.call? = some c' ∧ s ∈ c'.references := by
  rw [references_eq, List.mem_flatMap]
  refine exists_congr fun r => and_congr_right fun _ => ?_
  rw [List.mem_cons]
  unfold Reference.expansion
  cases r.call? <;> simp

theorem mem_calls {c c'' : Call ε} :
    c'' ∈ c.calls ↔ c'' = c ∨ ∃ r ∈ c.own, ∃ c', r.call? = some c' ∧ c'' ∈ c'.calls := by
  unfold calls
  rw [List.mem_cons]
  refine or_congr_right ?_
  rw [List.mem_filterMap]
  constructor
  · rintro ⟨s, hs, hc⟩
    obtain ⟨r, hr, rfl | ⟨c', hc', hs⟩⟩ := mem_references.1 hs
    · exact ⟨s, hr, c'', hc, List.mem_cons_self⟩
    · exact ⟨r, hr, c', hc', List.mem_cons_of_mem _ (List.mem_filterMap.2 ⟨s, hs, hc⟩)⟩
  · rintro ⟨r, hr, c', hc', hc⟩
    rcases List.mem_cons.1 hc with rfl | hc
    · exact ⟨r, mem_references.2 ⟨r, hr, Or.inl rfl⟩, hc'⟩
    · obtain ⟨s, hs, hc⟩ := List.mem_filterMap.1 hc
      exact ⟨s, mem_references.2 ⟨r, hr, Or.inr ⟨c', hc', hs⟩⟩, hc⟩

/-- What holds of a call if it holds of the expansions of its own references holds of every call. -/
theorem induction {P : Call ε → Prop}
    (level : ∀ c, (∀ r ∈ c.own, ∀ c', r.call? = some c' → P c') → P c) (c : Call ε) : P c := by
  obtain ⟨ctx, d⟩ := c
  induction ctx using Context.descend_induction generalizing d with
  | level ctx ih =>
    refine level _ fun r hr c' hc' => ?_
    obtain ⟨name, -, rfl⟩ := List.mem_map.1 hr
    obtain ⟨d', -, -, hdepth, rfl⟩ := Reference.call?_eq_some hc'
    exact ih hdepth d'.name d'

/-- Every reference is one of the fields of the declaration of some call. -/
theorem exists_own_of_mem_references {c : Call ε} {s : Reference ε} (hs : s ∈ c.references) :
    ∃ c' ∈ c.calls, s ∈ c'.own := by
  induction c using induction with
  | level c ih =>
    obtain ⟨r, hr, rfl | ⟨c', hc', hs⟩⟩ := mem_references.1 hs
    · exact ⟨c, mem_calls.2 (Or.inl rfl), hr⟩
    · obtain ⟨c'', hc'', hs⟩ := ih r hr c' hc' hs
      exact ⟨c'', mem_calls.2 (Or.inr ⟨r, hr, c', hc', hc''⟩), hs⟩

/-- What every expansion keeps of a context holds in all calls. -/
theorem forall_ctx {P : Context ε → Prop} (hdescend : ∀ ctx name, P ctx → P (ctx.descend name))
    {c : Call ε} (h : P c.ctx) : ∀ c' ∈ c.calls, P c'.ctx := by
  induction c using induction with
  | level c ih =>
    intro c'' hc''
    rcases mem_calls.1 hc'' with rfl | ⟨r, hr, c', hc', hc''⟩
    · exact h
    · refine ih r hr c' hc' ?_ c'' hc''
      obtain ⟨d, -, -, -, rfl⟩ := Reference.call?_eq_some hc'
      obtain ⟨name, -, rfl⟩ := List.mem_map.1 hr
      exact hdescend _ _ h

theorem ctx_of_mem_own {c : Call ε} {r : Reference ε} (hr : r ∈ c.own) : r.ctx = c.ctx := by
  obtain ⟨name, -, rfl⟩ := List.mem_map.1 hr
  rfl

/-- All references ask the same catalog. -/
theorem catalog_of_mem_references {c : Call ε} {r : Reference ε} (hr : r ∈ c.references) :
    r.ctx.catalog = c.ctx.catalog := by
  obtain ⟨c', hc', hr⟩ := exists_own_of_mem_references hr
  rw [ctx_of_mem_own hr]
  exact forall_ctx (P := fun ctx => ctx.catalog = c.ctx.catalog) (fun _ _ h => h) rfl c' hc'

/-- A catalog that never fails answers every reference. -/
theorem answered_of_mem_references {c : Call ε}
    (hcatalog : ∀ name, ∃ found, c.ctx.catalog name = .ok found) :
    ∀ r ∈ c.references, ∃ found, r.ctx.catalog r.name = .ok found := by
  intro r hr
  rw [catalog_of_mem_references hr]
  exact hcatalog r.name

end Call

/-! ## What a generation shows -/

theorem resolveDeclaration_cases (ctx : Context ε) (expand : Expand ctx) (d : Declaration) :
    (d.isExpandable = true ∧ resolveDeclaration ctx expand d = resolveExpandable ctx expand d) ∨
      (d.isExpandable = false ∧ ∃ v, resolveDeclaration ctx expand d = pure v) := by
  unfold resolveDeclaration Declaration.isExpandable
  cases d.editable with
  | false => exact Or.inr ⟨rfl, _, rfl⟩
  | true =>
    cases d.kind with
    | record => exact Or.inl ⟨rfl, rfl⟩
    | plainClass => exact Or.inl ⟨rfl, rfl⟩
    | enumeration => exact Or.inr ⟨rfl, _, rfl⟩
    | interface => exact Or.inr ⟨rfl, _, rfl⟩

theorem ask_of_ok {catalog : Catalog ε} {name : Text} {found : List Declaration}
    (h : catalog name = .ok found) :
    ask catalog name = ⟨[.asked name, .answered name found.length], .ok found⟩ := by
  unfold ask
  rw [h]
  rfl

section Shows

variable {g : Call ε → List κ}

theorem resolveExpandable_shows {r : Reference ε} {expand : Expand r.ctx} {d : Declaration}
    (hd : r.target? = some d)
    (hexpand : ∀ c, r.call? = some c → ∀ h, Run.Shows view (g c) (expand c.declaration h)) :
    Run.Shows view
      ((r.cut?.map fun d => Event.cut d.name r.ctx.depth r.ctx.path).toList.filterMap view ++
        r.expansion g)
      (resolveExpandable r.ctx expand d) := by
  unfold resolveExpandable Reference.expansion
  rcases r.call?_cut?_of_target? hd with ⟨hpath, hdepth, hcall, hcut⟩ | ⟨hguard, hcall, hcut⟩
  · rw [dif_pos ⟨hpath, hdepth⟩, hcall, hcut]
    exact (hexpand _ hcall hdepth).map _
  · rw [dif_neg hguard, hcall, hcut]
    exact (Run.Shows.emit _).bind fun _ _ => .pure _

/-- A reference shows its own events, followed by what its expansion shows. -/
theorem resolveName_shows {r : Reference ε} {expand : Expand r.ctx} (hname : r.name ≠ [])
    {found : List Declaration} (hfound : r.ctx.catalog r.name = .ok found)
    (hexpand : ∀ c, r.call? = some c → ∀ h, Run.Shows view (g c) (expand c.declaration h)) :
    Run.Shows view (r.events.filterMap view ++ r.expansion g) (resolveName r.ctx expand r.name) := by
  unfold resolveName Reference.events
  rw [if_neg hname, ask_of_ok hfound, List.filterMap_append, List.append_assoc,
    Reference.found_of_ok hfound]
  refine Run.Shows.bind ⟨rfl, found, rfl⟩ ?_
  rintro _ ⟨⟩
  have hfixed : ∀ v, r.target? = none →
      Run.Shows view
        ((r.cut?.map fun d => Event.cut d.name r.ctx.depth r.ctx.path).toList.filterMap view ++
          r.expansion g)
        (pure v : Gen ε Value) := by
    intro v h
    obtain ⟨hcall, hcut⟩ := r.call?_cut?_of_target?_none h
    unfold Reference.expansion
    rw [hcall, hcut]
    exact .pure v
  cases hd : Declaration.preferred? found with
  | none =>
    refine hfixed _ ?_
    rw [Reference.target?_of_ok hfound, hd]
    rfl
  | some d =>
    rcases resolveDeclaration_cases r.ctx expand d with ⟨h, heq⟩ | ⟨h, v, heq⟩
    · have htarget : r.target? = some d := by
        rw [Reference.target?_of_ok hfound, hd, Option.filter_some, if_pos h]
      simp only [heq]
      exact resolveExpandable_shows htarget hexpand
    · simp only [heq]
      refine hfixed v ?_
      rw [Reference.target?_of_ok hfound, hd, Option.filter_some, h]
      rfl

/-- Over a catalog that answers every reference, a generation succeeds and shows the events of its
references, in order. -/
theorem generate_shows (view : Event → Option κ) (hresolving : ∀ base, view (.resolving base) = none)
    (hnoList : ∀ name, view (.noFieldList name) = none) (c : Call ε)
    (hcatalog : ∀ r ∈ c.references, ∃ found, r.ctx.catalog r.name = .ok found) :
    Run.Shows view (c.references.flatMap fun r => r.events.filterMap view)
      (generate c.ctx c.declaration) := by
  induction c using Call.induction with
  | level c ih =>
    rw [generate_eq, Call.references_eq, Call.own, List.flatMap_map, List.flatMap_assoc]
    refine generateWith_shows hresolving hnoList fun name hname => ?_
    have hr : ⟨c.ctx, name⟩ ∈ c.own := List.mem_map.2 ⟨name, hname, rfl⟩
    have hne := ((isLookedUp_iff c.ctx.moment).1 (Declaration.isLookedUp_of_mem_lookups hname)).1
    obtain ⟨found, hfound⟩ := hcatalog _ (Call.mem_references.2 ⟨_, hr, Or.inl rfl⟩)
    rw [List.flatMap_cons, Reference.flatMap_expansion]
    refine resolveName_shows (r := ⟨c.ctx, name⟩) hne hfound fun c' hc' _ => ?_
    have hshows := ih _ hr c' hc' fun s hs =>
      hcatalog s (Call.mem_references.2 ⟨_, hr, Or.inr ⟨c', hc', hs⟩⟩)
    obtain ⟨d', -, -, -, rfl⟩ := Reference.call?_eq_some hc'
    exact hshows

/-- Every reference that is cut off in the course of a generation is one that the guard cuts off. -/
theorem exists_cut?_of_mem_generate {c : Call ε} {name : Text} {depth : Int} {path : List Text}
    (h : .cut name depth path ∈ (generate c.ctx c.declaration).events)
    (hcatalog : ∀ r ∈ c.references, ∃ found, r.ctx.catalog r.name = .ok found) :
    ∃ r ∈ c.references, ∃ d, r.cut? = some d ∧ name = d.name ∧ depth = r.ctx.depth ∧
      path = r.ctx.path := by
  have hshows := generate_shows Event.cut? (fun _ => rfl) (fun _ => rfl) c hcatalog
  have hmem : (name, depth, path) ∈ (generate c.ctx c.declaration).events.filterMap Event.cut? :=
    List.mem_filterMap.2 ⟨_, h, rfl⟩
  rw [hshows.events] at hmem
  obtain ⟨r, hr, hmem⟩ := List.mem_flatMap.1 hmem
  refine ⟨r, hr, ?_⟩
  unfold Reference.events at hmem
  cases hcut : r.cut? with
  | none =>
    rw [hcut] at hmem
    cases hmem
  | some d =>
    rw [hcut] at hmem
    cases List.mem_singleton.1 hmem
    exact ⟨d, rfl, rfl, rfl, rfl⟩

end Shows

/-! ## The calls that a generation needs -/

/-- The skeleton of a declaration depends on the expansions of its own references only. -/
theorem generateWith_congr {c : Call ε} {expand expand' : Expand c.ctx}
    (h : ∀ r ∈ c.own, ∀ c', r.call? = some c' →
      ∀ hdepth, expand c'.declaration hdepth = expand' c'.declaration hdepth) :
    generateWith c.ctx expand c.declaration = generateWith c.ctx expand' c.declaration := by
  refine (generateWith_similar_eq rfl rfl rfl rfl fun name hname => ?_).eq
  have hr : ⟨c.ctx, name⟩ ∈ c.own := List.mem_map.2 ⟨name, hname, rfl⟩
  refine resolveName_similar_of_preference (valueRel_eq _) rfl (ask_similar_preference _ name) ?_
  intro found d hfound hd hexpandable
  have htarget : (Reference.mk c.ctx name).target? = some d := by
    rw [Reference.target?_of_ok hfound, hd, Option.filter_some, if_pos hexpandable]
  refine resolveExpandable_similar (T := Eq) Iff.rfl rfl rfl (fun _ _ => congrArg _) ?_
  intro hpath hdepth hdepth'
  rcases Reference.call?_cut?_of_target? htarget with ⟨-, -, hcall, -⟩ | ⟨hguard, -, -⟩
  · rw [h _ hr _ hcall hdepth]
    exact .refl _
  · exact absurd ⟨hpath, hdepth⟩ hguard

/-- Whatever satisfies the equation of the generation at a call and all calls that it leads to agrees
with the generation there. -/
theorem generate_eq_of_calls {G : Context ε → Declaration → Gen ε Text} {c : Call ε}
    (hG : ∀ c' ∈ c.calls, G c'.ctx c'.declaration =
      generateWith c'.ctx (fun d _ => G (c'.ctx.descend d.name) d) c'.declaration) :
    G c.ctx c.declaration = generate c.ctx c.declaration := by
  induction c using Call.induction with
  | level c ih =>
    rw [hG c (Call.mem_calls.2 (Or.inl rfl)), generate_eq]
    refine generateWith_congr fun r hr c' hc' _ => ?_
    have hc := ih r hr c' hc' fun c'' hc'' =>
      hG c'' (Call.mem_calls.2 (Or.inr ⟨r, hr, c', hc', hc''⟩))
    obtain ⟨d, -, -, -, rfl⟩ := Reference.call?_eq_some hc'
    rw [Call.ctx_of_mem_own hr] at hc
    exact hc

end RecordSkeleton
