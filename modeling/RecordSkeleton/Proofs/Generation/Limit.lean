import Mathlib.Data.Finset.Card
import RecordSkeleton.Proofs.Generation.Guard

/-!
# The depth limit

The names on a path are different names of the project, so a path is no longer than there are names.
Beyond that number the depth limit decides nothing: what the guard cuts off is a cycle.

1. A path that lacks a name of the project is shorter than there are names
   (`Guarded.depth_le_card`).
2. Two generations with limits beyond this number are the same run, and every reference that is cut off
   there leads back to its path (`generate_limit_irrelevant`).
-/

namespace RecordSkeleton

open Text

variable {ε : Type} {root : Text} {ctx : Context ε}

/-- The context with another depth limit. -/
def Context.withLimit (ctx : Context ε) (limit : Int) : Context ε := { ctx with maxDepth := limit }

/-- The names of the declarations of a list, but for the root's. -/
def otherNames (ds : List Declaration) (root : Text) : Finset Text :=
  (ds.map (·.name)).toFinset.erase root

/-- Below the root of a project, a path without a name of the project can grow by this name. -/
theorem Guarded.depth_le_card {ds : List Declaration} (h : Guarded (· ∈ ds.map (·.name)) root ctx)
    {name : Text} (hname : name ∈ ds.map (·.name)) (hpath : name ∉ ctx.path) :
    ctx.depth ≤ (otherNames ds root).card := by
  obtain ⟨names, hnames, hknown⟩ := h.path_eq
  have hnodup := h.nodup
  rw [hnames] at hpath hnodup
  have hlonger : (name :: names).Nodup :=
    List.nodup_cons.2 ⟨fun hmem => hpath (List.mem_cons_of_mem root hmem), hnodup.of_cons⟩
  have hsub : (name :: names).toFinset ⊆ otherNames ds root := by
    intro n hn
    rw [List.mem_toFinset] at hn
    refine Finset.mem_erase.2 ⟨?_, List.mem_toFinset.2 ?_⟩
    · rintro rfl
      rcases List.mem_cons.1 hn with rfl | hn
      · exact hpath List.mem_cons_self
      · exact (List.nodup_cons.1 hnodup).1 hn
    · rcases List.mem_cons.1 hn with rfl | hn
      · exact hname
      · exact hknown n hn
  have hcard := Finset.card_le_card hsub
  rw [List.toFinset_card_of_nodup hlonger, List.length_cons] at hcard
  rw [h.depth_eq, hnames, List.length_cons]
  exact_mod_cast hcard

/-- The guard decides in the same way under every limit beyond the number of names. -/
theorem Guarded.expands_iff {ds : List Declaration} (h : Guarded (· ∈ ds.map (·.name)) root ctx)
    {limit : Int} (hlimit : (otherNames ds root).card + 1 ≤ limit) {name : Text}
    (hname : name ∈ ds.map (·.name)) :
    name ∉ ctx.path ∧ ctx.depth < limit ↔ name ∉ ctx.path := by
  refine and_iff_left_of_imp fun hpath => ?_
  have hdepth := h.depth_le_card hname hpath
  omega

/-! ## Two limits -/

theorem mem_names_of_ofList {ds : List Declaration} {name : Text} {found : List Declaration}
    (hfound : (Catalog.ofList ds : Catalog ε) name = .ok found) {d : Declaration} (hd : d ∈ found) :
    d.name ∈ ds.map (·.name) := by
  cases hfound
  exact List.mem_map.2 ⟨d, (List.mem_filter.1 hd).1, rfl⟩

theorem target?_mem_names {ds : List Declaration} {c : Call ε}
    (hcatalog : c.ctx.catalog = Catalog.ofList ds) {r : Reference ε} (hr : r ∈ c.references)
    {d : Declaration} (hd : r.target? = some d) : d.name ∈ ds.map (·.name) := by
  have hanswer : r.ctx.catalog r.name = .ok (Catalog.named ds r.name) := by
    rw [Call.catalog_of_mem_references hr, hcatalog]
    rfl
  obtain ⟨hmem, -⟩ := Reference.target?_eq_some hd
  rw [Reference.found_of_ok hanswer] at hmem
  exact mem_names_of_ofList (ε := ε) rfl hmem

/-- What is generated for a guarded call under another limit obeys the equation of the generation under
the call's own one. -/
theorem generate_withLimit_eq {ds : List Declaration} (hcatalog : ctx.catalog = Catalog.ofList ds)
    (h : Guarded (· ∈ ds.map (·.name)) root ctx)
    (hown : (otherNames ds root).card + 1 ≤ ctx.maxDepth) {limit : Int}
    (hlimit : (otherNames ds root).card + 1 ≤ limit) (d : Declaration) :
    generate (ctx.withLimit limit) d =
      generateWith ctx (fun e _ => generate ((ctx.descend e.name).withLimit limit) e) d := by
  rw [generate_eq]
  refine Run.Similar.eq (generateWith_similar_eq rfl rfl rfl rfl fun name _ => ?_)
  refine resolveName_similar (valueRel_eq _) (by rfl) (by rfl) fun found e hfound he => ?_
  have hname : e.name ∈ ds.map (·.name) := by
    have hanswer : (Catalog.ofList ds : Catalog ε) name = .ok found := by
      rw [← hcatalog]
      exact hfound
    exact mem_names_of_ofList hanswer he
  refine resolveExpandable_similar (T := Eq) ?_ rfl rfl (fun _ _ => congrArg _) fun _ _ _ => .refl _
  exact (h.expands_iff hown hname).trans (h.expands_iff hlimit hname).symm

/-- Beyond the number of names in a project, the depth limit does not matter to a generation: whatever
is cut off leads back to the path. -/
theorem generate_limit_irrelevant (ds : List Declaration) (ctx : Context ε) (d : Declaration)
    (hcatalog : ctx.catalog = Catalog.ofList ds) (hdepth : ctx.depth = 1)
    (hpath : ctx.path = [d.name]) {limit limit' : Int}
    (hlimit : (otherNames ds d.name).card + 1 ≤ limit)
    (hlimit' : (otherNames ds d.name).card + 1 ≤ limit') :
    generate (ctx.withLimit limit) d = generate (ctx.withLimit limit') d ∧
      ∀ name depth path,
        .cut name depth path ∈ (generate (ctx.withLimit limit) d).events → name ∈ path := by
  have hguarded : ∀ c ∈ (Call.mk (ctx.withLimit limit) d).calls,
      Guarded (· ∈ ds.map (·.name)) d.name c.ctx :=
    guarded_of_mem_calls (.start hdepth hpath) fun r hr e he => target?_mem_names hcatalog hr he
  have hkeep : ∀ c ∈ (Call.mk (ctx.withLimit limit) d).calls,
      c.ctx.catalog = Catalog.ofList ds ∧ c.ctx.maxDepth = limit :=
    Call.forall_ctx (P := fun ctx => ctx.catalog = Catalog.ofList ds ∧ ctx.maxDepth = limit)
      (fun _ _ h => h) ⟨hcatalog, rfl⟩
  constructor
  · have h := generate_eq_of_calls (c := ⟨ctx.withLimit limit, d⟩)
      (G := fun ctx d => generate (ctx.withLimit limit') d) fun c hc =>
        generate_withLimit_eq (hkeep c hc).1 (hguarded c hc) ((hkeep c hc).2 ▸ hlimit) hlimit' _
    exact h.symm
  · intro name depth path hmem
    obtain ⟨r, hr, e, he, rfl, -, rfl⟩ :=
      exists_cut?_of_mem_generate (c := ⟨ctx.withLimit limit, d⟩) hmem
        (Call.answered_of_mem_references fun name => ⟨_, congrFun hcatalog name⟩)
    obtain ⟨htarget, hguard⟩ := Reference.cut?_eq_some he
    obtain ⟨c, hc, hown⟩ := Call.exists_own_of_mem_references hr
    have hexpands := (hguarded c hc).expands_iff hlimit (target?_mem_names hcatalog hr htarget)
    rw [← (hkeep c hc).2, ← Call.ctx_of_mem_own hown] at hexpands
    -- The limit alone cuts nothing off.
    rcases hguard with hpath | hdepth
    · exact hpath
    · by_contra hpath
      have hlt := (hexpands.2 hpath).2
      omega

/-- The declarations that the order refers to, and the order itself. -/
def orderProject : List Declaration :=
  [orderRecord, projectRecord "Person" "Order last, int age", projectRecord "Unit" ""]

theorem generate_limit_irrelevant_order :
    rootOrderContext.catalog = Catalog.ofList orderProject ∧ rootOrderContext.depth = 1 ∧
      rootOrderContext.path = [orderRecord.name] ∧
      (otherNames orderProject orderRecord.name).card + 1 ≤ (3 : Int) ∧
      (otherNames orderProject orderRecord.name).card + 1 ≤ (64 : Int) ∧
      generate (rootOrderContext.withLimit 3) orderRecord =
        generate (rootOrderContext.withLimit 64) orderRecord ∧
      ∀ name depth path,
        .cut name depth path ∈ (generate (rootOrderContext.withLimit 3) orderRecord).events →
          name ∈ path := by
  have hcard : (otherNames orderProject orderRecord.name).card = 2 := by decide
  have hthree : (otherNames orderProject orderRecord.name).card + 1 ≤ (3 : Int) := by
    rw [hcard]
    decide
  have hmany : (otherNames orderProject orderRecord.name).card + 1 ≤ (64 : Int) := by
    rw [hcard]
    decide
  exact ⟨rfl, rfl, rfl, hthree, hmany,
    generate_limit_irrelevant orderProject rootOrderContext orderRecord rfl rfl rfl hthree hmany⟩

end RecordSkeleton
