import RecordSkeleton.Proofs.Generation.Failing
import RecordSkeleton.Proofs.Generation.Limit

/-!
# What a generation depends on

Of all that a catalog could answer, a generation only depends on the preferred match of each name that
it asks for.

1. Over two catalogs that have the same preference for every name, the generations agree in all but the
   numbers of matches that are logged (`generate_similar_of_preference`).
2. The same preference for the names that are asked for is enough (`generate_of_preference`): if the
   catalogs fail for all other names, the first generation is not stopped by this, so neither is the
   second one.
-/

namespace RecordSkeleton

open Text

variable {ε : Type} {ctx : Context ε}

/-- An event without the number of matches. -/
def Event.withoutCount : Event → Event
  | answered name _ => answered name 0
  | event => event

/-- The events of two generations agree but for the numbers of matches, and so do their results. -/
abbrev Agree (x y : Gen ε Text) : Prop := Run.Similar (some ∘ Event.withoutCount) Eq x y

/-- The catalogs answer with the same preference, or fail with the same error. -/
abbrev SameAnswer (a b : Except ε (List Declaration)) : Prop := Run.ResultRel SamePreference a b

theorem ask_similar_of_preference {catalog catalog' : Catalog ε} {name : Text}
    (h : SameAnswer (catalog name) (catalog' name)) :
    Run.Similar (some ∘ Event.withoutCount)
      (fun a b => SamePreference a b ∧ catalog name = .ok a) (ask catalog name)
      (ask catalog' name) := by
  unfold ask
  refine (Run.Similar.emit rfl).bind fun _ _ _ => ?_
  generalize catalog name = a at h ⊢
  generalize catalog' name = a' at h ⊢
  cases h with
  | error e => exact ⟨rfl, .error e⟩
  | @ok found found' h =>
    refine Run.Similar.bind (R := fun b b' => b = found ∧ b' = found') ⟨rfl, .ok ⟨rfl, rfl⟩⟩ ?_
    rintro _ _ ⟨rfl, rfl⟩
    refine Run.Similar.bind (R := fun _ _ => True) ⟨rfl, .ok trivial⟩ fun _ _ _ => ?_
    exact .pure ⟨h, rfl⟩

/-- Generations over two catalogs that always have the same preference. -/
theorem generate_similar_of_preference (ctx : Context ε) (catalog : Catalog ε)
    (h : ∀ name, SameAnswer (ctx.catalog name) (catalog name)) (d : Declaration) :
    Agree (generate ctx d) (generate (ctx.withCatalog catalog) d) := by
  induction ctx using Context.descend_induction generalizing d with
  | level ctx ih =>
    rw [generate_eq, generate_eq]
    refine generateWith_similar_eq rfl rfl rfl rfl fun name _ => ?_
    refine resolveName_similar_of_preference (valueRel_eq _) (by rfl) ?_ fun found e _ _ _ => ?_
    · exact ask_similar_of_preference (h name)
    · refine resolveExpandable_similar (T := Eq) Iff.rfl rfl rfl (fun _ _ => congrArg _)
        fun _ hdepth _ => ?_
      exact ih hdepth e.name h e

/-! ## The names that are asked for -/

/-- The error of a name that is not among the given ones. -/
def unexpected? (names : List Text) (name : Text) : Option (Option ε) :=
  if name ∈ names then none else some none

theorem stopAt_queries {x : Gen ε Text} :
    x.stopAt (Event.failure? (unexpected? (queries x))) some = x.mapError some := by
  refine Run.stopAt_of_forall fun event hevent => ?_
  unfold Event.failure?
  cases hq : event.query? with
  | none => rfl
  | some name =>
    have hname : name ∈ queries x := List.mem_filterMap.2 ⟨event, hevent, hq⟩
    exact if_pos hname

/-- A run that is only stopped by unexpected names is not stopped when it is like a run without them. -/
theorem agree_of_stopAt {x y : Gen ε Text} (names : List Text)
    (h : Agree (x.mapError some) (y.stopAt (Event.failure? (unexpected? names)) some)) :
    Agree x y := by
  rcases Run.stopAt_cases (Event.failure? (unexpected? names)) some y with
    hall | ⟨us, t, vs, e, -, -, ht, hstop⟩
  · rw [Run.stopAt_of_forall hall] at h
    exact h.of_mapError (Option.some_injective ε)
  · exfalso
    have hresult := h.result
    rw [hstop] at hresult
    obtain ⟨name, -, hname⟩ := Option.bind_eq_some_iff.1 ht
    unfold unexpected? at hname
    split at hname
    · cases hname
    · cases hname
      unfold Run.mapError at hresult
      cases hx : x.result with
      | ok a =>
        rw [hx] at hresult
        cases hresult
      | error e =>
        rw [hx] at hresult
        cases hresult

theorem sameAnswer_failing {catalog catalog' : Catalog ε} {names : List Text}
    (h : ∀ name ∈ names, SameAnswer (catalog name) (catalog' name)) (name : Text) :
    SameAnswer (catalog.failing (unexpected? names) some name)
      (catalog'.failing (unexpected? names) some name) := by
  unfold Catalog.failing unexpected?
  by_cases hname : name ∈ names
  · rw [if_pos hname]
    exact (h name hname).mapError some
  · rw [if_neg hname]
    exact .error none

/-- Generations over two catalogs with the same preference for the names that are asked for. -/
theorem generate_similar_of_queries (ctx : Context ε) (catalog : Catalog ε) (d : Declaration)
    (h : ∀ name ∈ queries (generate ctx d), SameAnswer (ctx.catalog name) (catalog name)) :
    Agree (generate ctx d) (generate (ctx.withCatalog catalog) d) := by
  have hagree := generate_similar_of_preference
    (ctx.failing (unexpected? (queries (generate ctx d))) some) _ (sameAnswer_failing h) d
  rw [generate_failing, stopAt_queries] at hagree
  refine agree_of_stopAt (queries (generate ctx d)) ?_
  rw [← generate_failing]
  exact hagree

/-! ## What is the same -/

/-- Two generations with the same text or error, the same queries and the same warnings. -/
structure SameGeneration (x y : Gen ε Text) : Prop where
  result : y.result = x.result
  queries : queries y = queries x
  warnings : warnings y = warnings x

/-- What does not look at the numbers of matches sees the same in both generations. -/
theorem filterMap_of_agree {κ : Type} {x y : Gen ε Text} (h : Agree x y) {f : Event → Option κ}
    (hf : ∀ event, f event.withoutCount = f event) :
    y.events.filterMap f = x.events.filterMap f := by
  have hview : ∀ z : Gen ε Text,
      z.events.filterMap f = (z.events.filterMap (some ∘ Event.withoutCount)).filterMap f := by
    intro z
    rw [List.filterMap_filterMap]
    exact congrArg (List.filterMap · _) (funext fun event => (hf event).symm)
  rw [hview y, hview x, h.events]

theorem sameGeneration_of_agree {x y : Gen ε Text} (h : Agree x y) : SameGeneration x y where
  result := h.result.eq.symm
  queries := filterMap_of_agree h fun event => by cases event <;> rfl
  warnings := by
    unfold RecordSkeleton.warnings
    rw [List.filter_filterMap, List.filter_filterMap]
    exact filterMap_of_agree h fun event => by cases event <;> rfl

/-- A generation only depends on the preferred matches of the names that it asks for: over a catalog
that has the same preference for them, or that differs there by library matches only, it is the same. -/
theorem generate_of_preference (ctx : Context ε) (catalog : Catalog ε) (d : Declaration)
    (h : ∀ name ∈ queries (generate ctx d),
      Run.ResultRel
        (fun found found' => SamePreference found found' ∨
          Relation.ReflTransGen LibraryChange found found')
        (ctx.catalog name) (catalog name)) :
    SameGeneration (generate ctx d) (generate (ctx.withCatalog catalog) d) := by
  refine sameGeneration_of_agree (generate_similar_of_queries ctx catalog d fun name hname => ?_)
  refine (h name hname).mono fun found found' hfound => ?_
  rcases hfound with hsame | hchanges
  · exact hsame
  · exact LibraryChange.samePreference_of_changes hchanges

/-- A class of a library that has the name of a record of the project. -/
def libraryPerson : Declaration :=
  { projectRecord "Person" "" with kind := .plainClass, editable := false }

/-- The project with the library's class in front, and with a declaration that nothing refers to. -/
def extendedOrderProject : List Declaration :=
  libraryPerson :: orderProject ++ [projectRecord "Unused" "int x"]

theorem generate_of_preference_order :
    (∀ name ∈ queries (generate rootOrderContext orderRecord),
      Run.ResultRel
        (fun found found' => SamePreference found found' ∨
          Relation.ReflTransGen LibraryChange found found')
        (rootOrderContext.catalog name)
        ((Catalog.ofList extendedOrderProject : Catalog Empty) name)) ∧
      SameGeneration (generate rootOrderContext orderRecord)
        (generate (rootOrderContext.withCatalog (Catalog.ofList extendedOrderProject))
          orderRecord) := by
  have hqueries : queries (generate rootOrderContext orderRecord) =
      ["Unit".toList, "Person".toList, "Order".toList] := by decide +kernel
  have h : ∀ name ∈ queries (generate rootOrderContext orderRecord),
      Run.ResultRel
        (fun found found' => SamePreference found found' ∨
          Relation.ReflTransGen LibraryChange found found')
        (rootOrderContext.catalog name)
        ((Catalog.ofList extendedOrderProject : Catalog Empty) name) := by
    intro name hname
    rw [hqueries] at hname
    simp only [List.mem_cons, List.not_mem_nil, or_false] at hname
    rcases hname with rfl | rfl | rfl
    · exact .ok (Or.inl (.refl _))
    · refine .ok (Or.inr (.single ?_))
      exact @LibraryChange.insert [] _ _ _ rfl List.mem_cons_self rfl
    · exact .ok (Or.inl (.refl _))
  exact ⟨h, generate_of_preference rootOrderContext (Catalog.ofList extendedOrderProject) orderRecord h⟩

end RecordSkeleton
