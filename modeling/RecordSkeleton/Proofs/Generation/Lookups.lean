import RecordSkeleton.Generation
import RecordSkeleton.Proofs.Trace

/-!
# The names that are looked up

Which names a type is looked up by does not depend on the catalog: they are the names that stand for
no container and no type of the fixed table, among the arguments that the containers around them take.

1. A type expression looks up these names and no other ones (`resolve_shows`).
2. A declaration looks up the names of its fields' types (`generateWith_shows`).
-/

namespace RecordSkeleton

open Text

variable {ε κ : Type} {view : Event → Option κ}

/-- Whether a name without arguments is looked up in the catalog. -/
def isLookedUp (name : Text) : Bool :=
  name != [] && (Container.ofName? name).isNone && (primitiveDefaults.lookup name).isNone &&
    (DateTimeType.ofName? name).isNone

/-- The names that the default of a type is looked up by, in order. -/
def TypeExpr.lookups : TypeExpr → List Text
  | .unclosed _ => []
  | .plain name => if isLookedUp name then [name] else []
  | .generic name args =>
    match Container.ofName? name, args with
    | some .collection, a :: _ => a.lookups
    | some .map, a :: b :: _ => a.lookups ++ b.lookups
    | some .optional, a :: _ => a.lookups
    | _, _ => []

namespace Declaration

/-- The fields of a declaration, none if it has no field list. -/
def fields (d : Declaration) (marker : Text) : List Field :=
  match d.fieldList? marker with
  | none => []
  | some list => Field.listOfText list

theorem mem_fields {d : Declaration} {marker : Text} {f : Field} :
    f ∈ d.fields marker ↔ ∃ list, d.fieldList? marker = some list ∧ f ∈ Field.listOfText list := by
  unfold fields
  cases d.fieldList? marker <;> simp

/-- The names that the fields of a declaration are looked up by, in order. -/
def lookups (d : Declaration) (marker : Text) : List Text :=
  (d.fields marker).flatMap fun f => (TypeExpr.ofText f.type).lookups

end Declaration

theorem isLookedUp_iff (moment : Moment) {name : Text} :
    isLookedUp name = true ↔
      name ≠ [] ∧ Container.ofName? name = none ∧ literalOf? moment name = none := by
  simp [isLookedUp, literalOf?, and_assoc]

theorem TypeExpr.isLookedUp_of_mem_lookups {t : TypeExpr} {name : Text} (h : name ∈ t.lookups) :
    isLookedUp name = true := by
  induction t using TypeExpr.lookups.induct with
  | case1 base => cases h
  | case2 base hbase =>
    rw [TypeExpr.lookups, if_pos hbase] at h
    rw [List.mem_singleton.1 h]
    exact hbase
  | case3 base hbase =>
    rw [TypeExpr.lookups, if_neg hbase] at h
    cases h
  | case4 base a args hc ih =>
    simp only [TypeExpr.lookups, hc] at h
    exact ih h
  | case5 base a b args hc iha ihb =>
    simp only [TypeExpr.lookups, hc] at h
    rcases List.mem_append.1 h with h | h
    · exact iha h
    · exact ihb h
  | case6 base a args hc ih =>
    simp only [TypeExpr.lookups, hc] at h
    exact ih h
  | case7 base args hcollection hmap hoptional =>
    unfold TypeExpr.lookups at h
    split at h
    · rename_i hc
      exact (hcollection _ _ hc rfl).elim
    · rename_i hc
      exact (hmap _ _ _ hc rfl).elim
    · rename_i hc
      exact (hoptional _ _ hc rfl).elim
    · cases h

theorem Declaration.isLookedUp_of_mem_lookups {d : Declaration} {marker name : Text}
    (h : name ∈ d.lookups marker) : isLookedUp name = true := by
  obtain ⟨f, -, h⟩ := List.mem_flatMap.1 h
  exact TypeExpr.isLookedUp_of_mem_lookups h

section Resolve

variable {ctx : Context ε} {expand : Expand ctx}

/-- A name is looked up, or its value is fixed. -/
theorem resolvePlain_cases (ctx : Context ε) (expand : Expand ctx) (name : Text) :
    (isLookedUp name = true ∧ resolvePlain ctx expand name = resolveName ctx expand name) ∨
      (isLookedUp name = false ∧ ∃ v, resolvePlain ctx expand name = pure v) := by
  by_cases h : isLookedUp name = true
  · obtain ⟨-, hcontainer, hliteral⟩ := (isLookedUp_iff ctx.moment).1 h
    refine Or.inl ⟨h, ?_⟩
    unfold resolvePlain
    rw [hcontainer, hliteral]
  · refine Or.inr ⟨Bool.eq_false_iff.2 h, ?_⟩
    unfold resolvePlain
    split
    · exact ⟨_, rfl⟩
    · exact ⟨_, rfl⟩
    · -- The name is empty, and the empty name is not asked for.
      rename_i hcontainer hliteral
      unfold resolveName
      split
      · exact ⟨_, rfl⟩
      · rename_i hne
        exact absurd ((isLookedUp_iff ctx.moment).2 ⟨hne, hcontainer, hliteral⟩) h

/-- A type expression shows what the names show that it looks up. -/
theorem resolve_shows {g : Text → List κ} (hresolving : ∀ base, view (.resolving base) = none)
    (t : TypeExpr)
    (hname : ∀ name ∈ t.lookups, Run.Shows view (g name) (resolveName ctx expand name)) :
    Run.Shows view (t.lookups.flatMap g) (resolve ctx expand t) := by
  induction t using resolve.induct with
  | case1 name =>
    rw [resolve]
    exact .hide (hresolving _) (.pure _)
  | case2 name =>
    rw [resolve]
    refine .hide (hresolving _) ?_
    unfold TypeExpr.lookups at hname ⊢
    rcases resolvePlain_cases ctx expand name with ⟨h, heq⟩ | ⟨h, v, heq⟩
    · rw [if_pos h, List.flatMap_singleton, heq]
      exact hname name (by rw [if_pos h]; exact List.mem_singleton_self name)
    · rw [h, heq]
      exact .pure v
  | case3 name args ih =>
    unfold resolve
    refine .hide (hresolving _) ?_
    unfold TypeExpr.lookups at hname ⊢
    split
    · rename_i hc
      simp only [hc] at ih hname ⊢
      exact (ih hname).map _
    · rename_i hc
      simp only [hc] at ih hname ⊢
      rw [List.flatMap_append]
      refine (ih.1 fun n hn => hname n (List.mem_append_left _ hn)).bind fun k _ => ?_
      rw [← List.append_nil (List.flatMap g _)]
      exact (ih.2 fun n hn => hname n (List.mem_append_right _ hn)).bind fun v _ => .pure _
    · rename_i hc
      simp only [hc] at ih hname ⊢
      exact ih hname
    · -- The container is empty, or the name is that of no container.
      rename_i hcollection hmap hoptional
      split
      · rename_i hc
        exact (hcollection _ _ hc rfl).elim
      · rename_i hc
        exact (hmap _ _ _ hc rfl).elim
      · rename_i hc
        exact (hoptional _ _ hc rfl).elim
      · exact .pure _
      · exact .pure _

/-- The skeleton of a declaration shows what the names show that the declaration looks up. -/
theorem generateWith_shows {g : Text → List κ} (hresolving : ∀ base, view (.resolving base) = none)
    (hnoList : ∀ name, view (.noFieldList name) = none) {d : Declaration}
    (hname : ∀ name ∈ d.lookups ctx.marker,
      Run.Shows view (g name) (resolveName ctx expand name)) :
    Run.Shows view ((d.lookups ctx.marker).flatMap g) (generateWith ctx expand d) := by
  unfold Declaration.lookups Declaration.fields at hname ⊢
  unfold generateWith
  cases hlist : d.fieldList? ctx.marker with
  | none => exact .hide (hnoList _) (.pure _)
  | some list =>
    simp only [hlist] at hname
    simp only
    rw [List.flatMap_assoc, ← List.append_nil (List.flatMap _ _)]
    refine Run.Shows.bind (.mapM fun f hf => ?_) fun es _ => .pure _
    refine (resolve_shows hresolving _ fun name hn => ?_).map _
    exact hname name (List.mem_flatMap.2 ⟨f, hf, hn⟩)

end Resolve

end RecordSkeleton
