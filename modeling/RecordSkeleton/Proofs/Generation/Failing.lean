import RecordSkeleton.Proofs.Generation.Similar
import RecordSkeleton.Proofs.Stop

/-!
# Catalogs that fail for some names

A catalog can be made to fail for some names and to answer as before for all others. A generation over
it is the one over the catalog as it was, stopped at the first question for such a name.

1. This holds of the generation of every declaration, because stopping passes through everything that
   it is made of (`generate_failing`).
-/

namespace RecordSkeleton

open Text

variable {ε ζ : Type}

/-- The catalog that fails for some names. An error of its own is kept. -/
def Catalog.failing (catalog : Catalog ε) (failure : Text → Option ζ) (keep : ε → ζ) : Catalog ζ :=
  fun name => match failure name with
    | some e => .error e
    | none => (catalog name).mapError keep

/-- The context over another catalog. -/
def Context.withCatalog (ctx : Context ε) (catalog : Catalog ζ) : Context ζ where
  catalog
  moment := ctx.moment
  indent := ctx.indent
  marker := ctx.marker
  externalPlaceholder := ctx.externalPlaceholder
  recursionPlaceholder := ctx.recursionPlaceholder
  maxDepth := ctx.maxDepth
  depth := ctx.depth
  path := ctx.path

/-- The context over a catalog that fails for some names. -/
def Context.failing (ctx : Context ε) (failure : Text → Option ζ) (keep : ε → ζ) : Context ζ :=
  ctx.withCatalog (ctx.catalog.failing failure keep)

/-- The error that a question for a name meets. -/
def Event.failure? (failure : Text → Option ζ) (event : Event) : Option ζ :=
  event.query?.bind failure

section

variable {failure : Text → Option ζ} {keep : ε → ζ}

theorem stopAt_emit_of_query? {event : Event} (h : event.query? = none) :
    (Run.emit event : Gen ε Unit).stopAt (Event.failure? failure) keep = Run.emit event := by
  rw [Run.stopAt_emit, Run.emitOrStop_of_none]
  unfold Event.failure?
  rw [h]
  rfl

theorem ask_failing (catalog : Catalog ε) (name : Text) :
    ask (catalog.failing failure keep) name =
      (ask catalog name).stopAt (Event.failure? failure) keep := by
  unfold ask Catalog.failing
  rw [Run.stopAt_bind, Run.stopAt_emit]
  cases h : failure name with
  | some e =>
    have hstop : Event.failure? failure (.asked name) = some e := h
    rw [Run.emitOrStop_of_some hstop]
    rfl
  | none =>
    have hstop : Event.failure? failure (.asked name) = none := h
    rw [Run.emitOrStop_of_none hstop]
    refine congrArg _ (funext fun _ => ?_)
    rw [Run.stopAt_bind, Run.stopAt_ofResult]
    refine congrArg _ (funext fun found => ?_)
    rw [Run.stopAt_bind, stopAt_emit_of_query? rfl]
    rfl

variable {ctx : Context ε} {expand : Expand ctx}
  {expand' : Expand (ctx.failing failure keep)}
  (hexpand : ∀ d h, expand' d h = (expand d h).stopAt (Event.failure? failure) keep)

include hexpand

theorem resolveExpandable_failing (d : Declaration) :
    resolveExpandable (ctx.failing failure keep) expand' d =
      (resolveExpandable ctx expand d).stopAt (Event.failure? failure) keep := by
  unfold resolveExpandable
  by_cases h : d.name ∉ ctx.path ∧ ctx.depth < ctx.maxDepth
  · rw [dif_pos h]
    refine (dif_pos h).trans ?_
    rw [Run.stopAt_map, hexpand]
  · rw [dif_neg h]
    refine (dif_neg h).trans ?_
    rw [Run.stopAt_bind, stopAt_emit_of_query? rfl]
    rfl

theorem resolveDeclaration_failing (d : Declaration) :
    resolveDeclaration (ctx.failing failure keep) expand' d =
      (resolveDeclaration ctx expand d).stopAt (Event.failure? failure) keep := by
  unfold resolveDeclaration
  cases d.editable with
  | false => rfl
  | true =>
    cases d.kind with
    | record => exact resolveExpandable_failing hexpand d
    | plainClass => exact resolveExpandable_failing hexpand d
    | enumeration => rfl
    | interface => rfl

theorem resolveName_failing (name : Text) :
    resolveName (ctx.failing failure keep) expand' name =
      (resolveName ctx expand name).stopAt (Event.failure? failure) keep := by
  unfold resolveName
  split
  · rfl
  · rw [Run.stopAt_bind, ← ask_failing]
    refine congrArg _ (funext fun found => ?_)
    cases Declaration.preferred? found with
    | none => rfl
    | some d => exact resolveDeclaration_failing hexpand d

theorem resolvePlain_failing (name : Text) :
    resolvePlain (ctx.failing failure keep) expand' name =
      (resolvePlain ctx expand name).stopAt (Event.failure? failure) keep := by
  have hmoment : (ctx.failing failure keep).moment = ctx.moment := rfl
  unfold resolvePlain
  rw [hmoment]
  cases Container.ofName? name with
  | some container => rfl
  | none =>
    cases literalOf? ctx.moment name with
    | some text => rfl
    | none => exact resolveName_failing hexpand name

theorem resolve_failing (t : TypeExpr) :
    resolve (ctx.failing failure keep) expand' t =
      (resolve ctx expand t).stopAt (Event.failure? failure) keep := by
  induction t using resolve.induct with
  | case1 name =>
    rw [resolve, resolve, Run.stopAt_bind, stopAt_emit_of_query? rfl]
    rfl
  | case2 name =>
    rw [resolve, resolve, Run.stopAt_bind, stopAt_emit_of_query? rfl]
    exact congrArg _ (funext fun _ => resolvePlain_failing hexpand name)
  | case3 name args ih =>
    unfold resolve
    rw [Run.stopAt_bind, stopAt_emit_of_query? rfl]
    refine congrArg _ (funext fun _ => ?_)
    split
    · rename_i hc
      simp only [hc] at ih
      rw [Run.stopAt_map, ih]
    · rename_i hc
      simp only [hc] at ih
      rw [Run.stopAt_bind, ih.1]
      refine congrArg _ (funext fun key => ?_)
      rw [Run.stopAt_bind, ih.2]
      rfl
    · rename_i hc
      simp only [hc] at ih
      exact ih
    · rfl
    · rfl

theorem generateWith_failing (d : Declaration) :
    generateWith (ctx.failing failure keep) expand' d =
      (generateWith ctx expand d).stopAt (Event.failure? failure) keep := by
  have hmarker : (ctx.failing failure keep).marker = ctx.marker := rfl
  unfold generateWith
  rw [hmarker]
  cases d.fieldList? ctx.marker with
  | none =>
    simp only
    rw [Run.stopAt_bind, stopAt_emit_of_query? rfl]
    rfl
  | some list =>
    simp only
    rw [Run.stopAt_bind, Run.stopAt_mapM]
    simp only [Run.stopAt_map, resolve_failing hexpand]
    rfl

end

/-- A generation over a catalog that fails for some names is the one over the catalog as it was, stopped
at the first question for one of them. -/
theorem generate_failing (failure : Text → Option ζ) (keep : ε → ζ) (ctx : Context ε)
    (d : Declaration) :
    generate (ctx.failing failure keep) d =
      (generate ctx d).stopAt (Event.failure? failure) keep := by
  induction ctx using Context.descend_induction generalizing d with
  | level ctx ih =>
    rw [generate_eq, generate_eq]
    refine generateWith_failing ?_ d
    exact fun found h => ih h found.name found

end RecordSkeleton
