import RecordSkeleton.Proofs.Generation.Failing
import RecordSkeleton.Proofs.Generation.References

/-!
# The first failure of a catalog

A generation over a catalog that fails for some names asks for the same names as the one over the
catalog as it was, in the same order, up to the first name that the catalog fails for. There it ends.

1. If the catalog fails for none of these names, nothing changes (`stopAt_of_answered`).
2. Else the failure for the first such name ends the generation, and it is the last one asked for
   (`stopAt_of_failure`).
-/

namespace RecordSkeleton

open Text

variable {ε ζ : Type} {failure : Text → Option ζ} {keep : ε → ζ} {x : Gen ε Text}

theorem failure?_eq_none_iff {event : Event} :
    Event.failure? failure event = none ↔ ∀ name, event.query? = some name → failure name = none :=
  Option.bind_eq_none_iff

/-- A generation whose questions are all answered is not stopped. -/
theorem stopAt_of_answered (h : ∀ name ∈ queries x, failure name = none) :
    x.stopAt (Event.failure? failure) keep = x.mapError keep := by
  refine Run.stopAt_of_forall fun event hevent => failure?_eq_none_iff.2 fun name hname => ?_
  exact h name (List.mem_filterMap.2 ⟨event, hevent, hname⟩)

/-- A generation is stopped at the first question that is not answered. -/
theorem stopAt_of_failure (keep : ε → ζ) {asked later : List Text} {name : Text} {e : ζ}
    (hx : queries x = asked ++ name :: later) (hasked : ∀ n ∈ asked, failure n = none)
    (hname : failure name = some e) :
    ∃ before event, before ++ [event] <+: x.events ∧
      (before ++ [event]).filterMap Event.query? = asked ++ [name] ∧
      x.stopAt (Event.failure? failure) keep = ⟨before ++ [event], .error e⟩ := by
  obtain ⟨front, back, hevents, hfront, hback⟩ := List.filterMap_eq_append_iff.1 hx
  obtain ⟨between, event, behind, rfl, hbetween, hevent, -⟩ := List.filterMap_eq_cons_iff.1 hback
  -- The events between the last answered question and the failing one ask for nothing.
  have hquiet : between.filterMap Event.query? = [] := List.filterMap_eq_nil_iff.2 hbetween
  have hsplit : x.events = (front ++ between) ++ event :: behind := by
    rw [hevents, List.append_assoc]
  refine ⟨front ++ between, event, ⟨behind, ?_⟩, ?_, ?_⟩
  · rw [hsplit, List.append_assoc, List.singleton_append]
  · rw [List.filterMap_append, List.filterMap_append, hfront, hquiet, List.append_nil,
      List.filterMap_cons_some hevent, List.filterMap_nil]
  · refine Run.stopAt_of_eq_append hsplit (fun u hu => failure?_eq_none_iff.2 fun n hn => ?_) ?_
    · rcases List.mem_append.1 hu with hu | hu
      · refine hasked n ?_
        rw [← hfront]
        exact List.mem_filterMap.2 ⟨u, hu, hn⟩
      · rw [hbetween u hu] at hn
        cases hn
    · unfold Event.failure?
      rw [hevent]
      exact hname

/-- What becomes of a generation `x` when its catalog fails for some names: the generation `y`. -/
structure EndsAtFirstFailure (failure : Text → Option ζ) (keep : ε → ζ) (x : Gen ε Text)
    (y : Gen ζ Text) : Prop where
  /-- If all questions of `x` are answered, the two generations are the same. -/
  answered : (∀ name ∈ queries x, failure name = none) →
    y.result = x.result.mapError keep ∧ queries y = queries x ∧ warnings y = warnings x
  /-- Otherwise the first question of `x` that fails is the last one of `y`, and its error is the
  result. What happened up to there is the same. -/
  failed : ∀ (asked : List Text) (name : Text) (later : List Text) (e : ζ),
    queries x = asked ++ name :: later → (∀ n ∈ asked, failure n = none) →
    failure name = some e →
    y.result = .error e ∧ queries y = asked ++ [name] ∧ y.events <+: x.events

/-- A failure of the catalog ends a generation at the first name that it concerns, and nowhere else. -/
theorem generate_endsAtFirstFailure (failure : Text → Option ζ) (keep : ε → ζ) (ctx : Context ε)
    (d : Declaration) :
    EndsAtFirstFailure failure keep (generate ctx d) (generate (ctx.failing failure keep) d) where
  answered := by
    intro h
    rw [generate_failing, stopAt_of_answered h]
    exact ⟨rfl, rfl, rfl⟩
  failed := by
    intro asked name later e hx hasked hname
    obtain ⟨before, event, hprefix, hqueries, hstop⟩ := stopAt_of_failure keep hx hasked hname
    rw [generate_failing, hstop]
    exact ⟨rfl, hqueries, hprefix⟩

end RecordSkeleton
