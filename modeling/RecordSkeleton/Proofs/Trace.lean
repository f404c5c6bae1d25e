import RecordSkeleton.Run

/-!
# Runs with a known trace

A run shows a list of observations when it succeeds and its events, as far as a view of events tells
them apart, are these.

1. What two runs in sequence show is what the first shows, followed by what the second shows
   (`Shows.bind`).
2. What a list of runs shows is what each of them shows, in order (`Shows.mapM`).
-/

namespace RecordSkeleton.Run

variable {τ κ ε α β ι : Type}

/-- The run succeeds, and through the view it shows these observations. -/
structure Shows (view : τ → Option κ) (seen : List κ) (x : Run τ ε α) : Prop where
  events : x.events.filterMap view = seen
  succeeds : ∃ a, x.result = .ok a

namespace Shows

variable {view : τ → Option κ} {seen seen' : List κ} {x : Run τ ε α}

theorem pure (a : α) : Shows view [] (pure a : Run τ ε α) := ⟨rfl, a, rfl⟩

theorem emit (t : τ) : Shows view ([t].filterMap view) (emit t : Run τ ε Unit) := ⟨rfl, (), rfl⟩

theorem bind {f : α → Run τ ε β} (h : Shows view seen x)
    (hf : ∀ a, x.result = .ok a → Shows view seen' (f a)) :
    Shows view (seen ++ seen') (x >>= f) := by
  obtain ⟨he, a, ha⟩ := h
  obtain ⟨he', hs⟩ := hf a ha
  rw [bind_ok ha]
  refine ⟨?_, hs⟩
  simp only [List.filterMap_append, he, he']

/-- An event that the view hides adds nothing. -/
theorem hide {t : τ} (ht : view t = none) (h : Shows view seen x) :
    Shows view seen (Run.emit t >>= fun _ => x) := by
  have hemit : Shows view ([t].filterMap view) (Run.emit t : Run τ ε Unit) := .emit t
  rw [List.filterMap_cons_none ht] at hemit
  exact hemit.bind fun _ _ => h

theorem map (f : α → β) (h : Shows view seen x) : Shows view seen (f <$> x) := by
  rw [map_eq_pure_bind, ← List.append_nil seen]
  exact h.bind fun a _ => .pure (f a)

/-- What a list of runs shows. -/
theorem mapM {l : List ι} {f : ι → Run τ ε α} {g : ι → List κ} (h : ∀ i ∈ l, Shows view (g i) (f i)) :
    Shows view (l.flatMap g) (l.mapM f) := by
  induction l with
  | nil => exact .pure []
  | cons i l ih =>
    rw [List.mapM_cons, List.flatMap_cons]
    refine (h i List.mem_cons_self).bind fun a _ => ?_
    rw [← List.append_nil (l.flatMap g)]
    exact (ih fun j hj => h j (List.mem_cons_of_mem i hj)).bind fun as _ => .pure (a :: as)

end Shows

end RecordSkeleton.Run
