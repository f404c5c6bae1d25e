import Mathlib.Data.List.Nodup
import RecordSkeleton.Proofs.Generation.References

/-!
# The guard against endless expansion

A declaration is only expanded below the depth limit and when its name is not on the path of the
declarations that are being expanded. So a generation ends whatever the declarations refer to.

1. What the guard keeps of a context when a declaration is expanded (`Guarded.descend`), it keeps in
   every call (`guarded_of_mem_calls`).
2. The queries and the warnings of a generation are those of its references, and only a reference that
   is cut off has a warning (`queries_generate`, `warnings_generate`).
3. So a generation from depth one is bounded over every catalog that does not fail
   (`generate_guarded`).
-/

namespace RecordSkeleton

open Text

variable {ε : Type} {known : Text → Prop} {root : Text} {ctx : Context ε}

/-! ## The path of a call -/

/-- What the guard keeps of the contexts below a root: the depth counts the names on the path, which are
all different and, but for the root, known. -/
structure Guarded (known : Text → Prop) (root : Text) (ctx : Context ε) : Prop where
  depth_eq : ctx.depth = ctx.path.length
  nodup : ctx.path.Nodup
  depth_le : ctx.depth ≤ max 1 ctx.maxDepth
  path_eq : ∃ names, ctx.path = root :: names ∧ ∀ name ∈ names, known name

namespace Guarded

theorem start (hdepth : ctx.depth = 1) (hpath : ctx.path = [root]) : Guarded known root ctx where
  depth_eq := by rw [hdepth, hpath]; rfl
  nodup := by rw [hpath]; exact List.nodup_singleton root
  depth_le := by omega
  path_eq := ⟨[], hpath, fun _ h => (List.not_mem_nil h).elim⟩

theorem descend (h : Guarded known root ctx) {name : Text} (hname : known name)
    (hpath : name ∉ ctx.path) (hdepth : ctx.depth < ctx.maxDepth) :
    Guarded known root (ctx.descend name) := by
  obtain ⟨names, hnames, hknown⟩ := h.path_eq
  refine ⟨?_, ?_, ?_, names ++ [name], ?_, ?_⟩
  · simp only [Context.descend, List.length_append, List.length_singleton, h.depth_eq]
    omega
  · exact List.nodup_append.2 ⟨h.nodup, List.nodup_singleton name, by
      rintro a ha b hb rfl
      exact hpath (List.mem_singleton.1 hb ▸ ha)⟩
  · simp only [Context.descend]
    omega
  · simp only [Context.descend, hnames, List.cons_append]
  · intro n hn
    rcases List.mem_append.1 hn with hn | hn
    · exact hknown n hn
    · rw [List.mem_singleton.1 hn]
      exact hname

end Guarded

/-- Every call is guarded, when the targets of all references are known. -/
theorem guarded_of_mem_calls {c : Call ε} (h : Guarded known root c.ctx)
    (hknown : ∀ r ∈ c.references, ∀ d, r.target? = some d → known d.name) :
    ∀ c' ∈ c.calls, Guarded known root c'.ctx := by
  induction c using Call.induction with
  | level c ih =>
    intro c'' hc''
    rcases Call.mem_calls.1 hc'' with rfl | ⟨r, hr, c', hc', hc''⟩
    · exact h
    · refine ih r hr c' hc' ?_ (fun s hs => ?_) c'' hc''
      · obtain ⟨d, hd, hpath, hdepth, rfl⟩ := Reference.call?_eq_some hc'
        have hname := hknown r (Call.mem_references.2 ⟨r, hr, Or.inl rfl⟩) d hd
        rw [Call.ctx_of_mem_own hr] at hpath hdepth ⊢
        exact h.descend hname hpath hdepth
      · exact hknown s (Call.mem_references.2 ⟨r, hr, Or.inr ⟨c', hc', hs⟩⟩)

/-! ## The references of a run -/

/-- The queries of a generation are the names of its references. -/
theorem queries_generate {c : Call ε} (hcatalog : ∀ name, ∃ found, c.ctx.catalog name = .ok found) :
    queries (generate c.ctx c.declaration) = c.references.map (·.name) := by
  have h := generate_shows Event.query? (fun _ => rfl) (fun _ => rfl) c
    (Call.answered_of_mem_references hcatalog)
  unfold queries
  rw [h.events, List.map_eq_flatMap]
  refine congrArg (List.flatMap · _) (funext fun r => ?_)
  unfold Reference.events
  cases r.cut? <;> rfl

/-- The warnings of a generation are those of the references that are cut off. -/
theorem warnings_generate {c : Call ε} (hcatalog : ∀ name, ∃ found, c.ctx.catalog name = .ok found) :
    warnings (generate c.ctx c.declaration) = c.references.filterMap Reference.warning? := by
  have h := generate_shows (fun e => e.logged?.filter (·.isWarning)) (fun _ => rfl)
    (fun _ => rfl) c (Call.answered_of_mem_references hcatalog)
  unfold warnings
  rw [List.filter_filterMap, h.events, List.filterMap_eq_flatMap_toList]
  refine congrArg (List.flatMap · _) (funext fun r => ?_)
  unfold Reference.events Reference.warning?
  cases r.cut? <;> rfl

/-- The name of a record or class of the project that the catalog has answered a query with. -/
def Returned (catalog : Catalog ε) (asked : List Text) (name : Text) : Prop :=
  ∃ query ∈ asked, ∃ found, catalog query = .ok found ∧
    ∃ d ∈ found, d.name = name ∧ d.editable = true ∧ (d.kind = .record ∨ d.kind = .plainClass)

theorem returned_of_target? {c : Call ε}
    (hcatalog : ∀ name, ∃ found, c.ctx.catalog name = .ok found) {r : Reference ε}
    (hr : r ∈ c.references) {d : Declaration} (hd : r.target? = some d) :
    Returned c.ctx.catalog (queries (generate c.ctx c.declaration)) d.name := by
  obtain ⟨found, hanswer⟩ := Call.answered_of_mem_references hcatalog r hr
  obtain ⟨hmem, hproject⟩ := Reference.target?_eq_some hd
  rw [Reference.found_of_ok hanswer] at hmem
  rw [Call.catalog_of_mem_references hr] at hanswer
  refine ⟨r.name, ?_, found, hanswer, d, hmem, rfl, hproject⟩
  rw [queries_generate hcatalog]
  exact List.mem_map.2 ⟨r, hr, rfl⟩

/-- What the guard promises of a generation below a root. -/
structure BoundedExpansion (root : Text) (ctx : Context ε) (d : Declaration) : Prop where
  /-- The generation ends with a text. -/
  ends : ∃ text, (generate ctx d).result = .ok text
  /-- Its recursion goes through finitely many calls: these alone determine it. -/
  determined : ∀ G : Context ε → Declaration → Gen ε Text,
    (∀ c ∈ (Call.mk ctx d).calls, G c.ctx c.declaration =
      generateWith c.ctx (fun e _ => G (c.ctx.descend e.name) e) c.declaration) →
    G ctx d = generate ctx d
  /-- Every call keeps to its depth and its path. -/
  guarded : ∀ c ∈ (Call.mk ctx d).calls,
    Guarded (Returned ctx.catalog (queries (generate ctx d))) root c.ctx
  queries_eq : queries (generate ctx d) = (Call.mk ctx d).references.map (·.name)
  /-- Each reference that is cut off is logged once, and no other one is. -/
  warnings_eq : warnings (generate ctx d) =
    (Call.mk ctx d).references.filterMap Reference.warning?

/-- A generation from depth one is bounded by the guard, whatever the catalog answers with. -/
theorem generate_guarded (ctx : Context ε) (root : Text) (d : Declaration)
    (hcatalog : ∀ name, ∃ found, ctx.catalog name = .ok found) (hdepth : ctx.depth = 1)
    (hpath : ctx.path = [root]) : BoundedExpansion root ctx d where
  ends := by
    have h := generate_shows Event.query? (fun _ => rfl) (fun _ => rfl) ⟨ctx, d⟩
      (Call.answered_of_mem_references hcatalog)
    exact h.succeeds
  determined := fun _ hG => generate_eq_of_calls (c := ⟨ctx, d⟩) hG
  guarded := guarded_of_mem_calls (.start hdepth hpath) fun r hr e he =>
    returned_of_target? (c := ⟨ctx, d⟩) hcatalog hr he
  queries_eq := queries_generate (c := ⟨ctx, d⟩) hcatalog
  warnings_eq := warnings_generate (c := ⟨ctx, d⟩) hcatalog

/-- The context in which the order is generated on its own. -/
def rootOrderContext : Context Empty := { orderContext with path := ["Order".toList] }

theorem generate_guarded_order :
    (∀ name, ∃ found, rootOrderContext.catalog name = .ok found) ∧ rootOrderContext.depth = 1 ∧
      rootOrderContext.path = ["Order".toList] ∧
      BoundedExpansion "Order".toList rootOrderContext orderRecord := by
  have hcatalog : ∀ name, ∃ found, rootOrderContext.catalog name = .ok found :=
    fun name => ⟨_, rfl⟩
  exact ⟨hcatalog, rfl, rfl, generate_guarded rootOrderContext _ orderRecord hcatalog rfl rfl⟩

end RecordSkeleton
