import Mathlib.Data.List.Forall2
import RecordSkeleton.Run

/-!
# Two runs side by side

Two runs are similar when they show the same events, as far as a view of events tells them apart, and
end in the same way: with the same error, or with related results.

1. Similar runs go on similarly from related results (`Similar.bind`).
2. A list of similar runs gives related lists of results (`Similar.mapM`).
3. A run that is similar to itself says something about its own result (`Similar.of_ok`,
   `Similar.self`).
4. A list of runs that succeeds has the results of its runs (`forall₂_of_mapM`), and it succeeds when
   each of them does (`result_mapM_ok`).
-/

namespace RecordSkeleton.Run

variable {τ κ ε ζ α β γ δ ι : Type}

/-- The same error, or related values. -/
inductive ResultRel (R : α → β → Prop) : Except ε α → Except ε β → Prop
  | ok {a : α} {b : β} (h : R a b) : ResultRel R (.ok a) (.ok b)
  | error (e : ε) : ResultRel R (.error e) (.error e)

theorem ResultRel.mono {R R' : α → β → Prop} {r : Except ε α} {r' : Except ε β}
    (h : ResultRel R r r') (hR : ∀ a b, R a b → R' a b) : ResultRel R' r r' := by
  cases h with
  | ok hab => exact .ok (hR _ _ hab)
  | error e => exact .error e

theorem ResultRel.eq {r r' : Except ε α} (h : ResultRel Eq r r') : r = r' := by
  cases h with
  | ok hab => rw [hab]
  | error e => rfl

theorem ResultRel.error_eq {R : α → β → Prop} {e e' : ε}
    (h : ResultRel R (.error e) (.error e')) : e = e' := by
  cases h
  rfl

theorem ResultRel.mapError {R : α → β → Prop} {r : Except ε α} {r' : Except ε β}
    (h : ResultRel R r r') (f : ε → ζ) : ResultRel R (r.mapError f) (r'.mapError f) := by
  cases h with
  | ok hab => exact .ok hab
  | error e => exact .error (f e)

theorem ResultRel.of_mapError {R : α → β → Prop} {r : Except ε α} {r' : Except ε β} {f : ε → ζ}
    (hf : Function.Injective f) (h : ResultRel R (r.mapError f) (r'.mapError f)) :
    ResultRel R r r' := by
  cases r with
  | ok a =>
    cases r' with
    | ok b =>
      cases h with
      | ok hab => exact .ok hab
    | error e => cases h
  | error e =>
    cases r' with
    | ok b => cases h
    | error e' =>
      have he : e = e' := hf (ResultRel.error_eq h)
      rw [he]
      exact .error e'

/-- The same events through the view, and results that agree. -/
structure Similar (view : τ → Option κ) (R : α → β → Prop) (x : Run τ ε α) (y : Run τ ε β) :
    Prop where
  events : x.events.filterMap view = y.events.filterMap view
  result : ResultRel R x.result y.result

variable {view : τ → Option κ} {R : α → β → Prop} {S : γ → δ → Prop} {x : Run τ ε α} {y : Run τ ε β}

namespace Similar

theorem pure {a : α} {b : β} (h : R a b) : Similar view R (pure a : Run τ ε α) (pure b) :=
  ⟨rfl, .ok h⟩

theorem emit {t u : τ} (h : view t = view u) :
    Similar view (fun _ _ => True) (emit t : Run τ ε Unit) (emit u) := by
  refine ⟨?_, .ok trivial⟩
  show [t].filterMap view = [u].filterMap view
  simp only [List.filterMap_cons, List.filterMap_nil, h]

theorem mono {R' : α → β → Prop} (h : Similar view R x y) (hR : ∀ a b, R a b → R' a b) :
    Similar view R' x y := ⟨h.events, h.result.mono hR⟩

theorem bind {f : α → Run τ ε γ} {g : β → Run τ ε δ} (h : Similar view R x y)
    (hfg : ∀ a b, R a b → Similar view S (f a) (g b)) : Similar view S (x >>= f) (y >>= g) := by
  obtain ⟨xs, r⟩ := x
  obtain ⟨ys, r'⟩ := y
  obtain ⟨he, hr⟩ := h
  cases hr with
  | ok hab =>
    obtain ⟨he', hr'⟩ := hfg _ _ hab
    rw [bind_ok rfl, bind_ok rfl]
    refine ⟨?_, hr'⟩
    simp only [List.filterMap_append, he']
    exact congrArg (· ++ _) he
  | error e =>
    rw [bind_error rfl, bind_error rfl]
    exact ⟨he, .error e⟩

theorem map {f : α → γ} {g : β → δ} (h : Similar view R x y) (hfg : ∀ a b, R a b → S (f a) (g b)) :
    Similar view S (f <$> x) (g <$> y) := by
  rw [map_eq_pure_bind, map_eq_pure_bind]
  exact h.bind fun a b hab => .pure (hfg a b hab)

/-- Runs that are similar for every element of a list give related lists. -/
theorem mapM {l : List ι} {f : ι → Run τ ε α} {g : ι → Run τ ε β}
    (h : ∀ i ∈ l, Similar view R (f i) (g i)) :
    Similar view (List.Forall₂ R) (l.mapM f) (l.mapM g) := by
  induction l with
  | nil => exact .pure .nil
  | cons i l ih =>
    rw [List.mapM_cons, List.mapM_cons]
    refine (h i List.mem_cons_self).bind fun a b hab => ?_
    refine (ih fun j hj => h j (List.mem_cons_of_mem i hj)).bind fun as bs hs => ?_
    exact .pure (.cons hab hs)

/-- A result of the first run is related to one of the second. -/
theorem of_ok {a : α} (h : Similar view R x y) (ha : x.result = .ok a) :
    ∃ b, y.result = .ok b ∧ R a b := by
  have hr := h.result
  rw [ha] at hr
  generalize y.result = r at hr
  cases hr with
  | ok hab => exact ⟨_, rfl, hab⟩

/-- A run is similar to itself, with whatever is known of its result. -/
theorem self {P : α → Prop} (h : ∀ a, x.result = .ok a → P a) :
    Similar view (fun a b => a = b ∧ P a) x x := by
  refine ⟨rfl, ?_⟩
  cases ha : x.result with
  | ok a => exact .ok ⟨rfl, h a ha⟩
  | error e => exact .error e

/-- Runs that agree in everything are the same run. -/
theorem eq {y : Run τ ε α} (h : Similar some Eq x y) : x = y := by
  obtain ⟨xs, r⟩ := x
  obtain ⟨ys, r'⟩ := y
  obtain ⟨he, hr⟩ := h
  have hevents : xs = ys := by simpa only [List.filterMap_some] using he
  have hresult : r = r' := ResultRel.eq hr
  rw [hevents, hresult]

theorem of_mapError {y : Run τ ε β} {f : ε → ζ} (h : Similar view R (x.mapError f) (y.mapError f))
    (hf : Function.Injective f) : Similar view R x y := ⟨h.events, h.result.of_mapError hf⟩

theorem refl (x : Run τ ε α) : Similar view Eq x x := by
  refine ⟨rfl, ?_⟩
  cases x.result with
  | ok a => exact .ok rfl
  | error e => exact .error e

end Similar

/-! ## Results -/

theorem result_bind_ok {f : α → Run τ ε γ} {c : γ} (h : (x >>= f).result = .ok c) :
    ∃ a, x.result = .ok a ∧ (f a).result = .ok c := by
  rw [result_bind] at h
  cases ha : x.result with
  | ok a =>
    rw [ha] at h
    exact ⟨a, rfl, h⟩
  | error e =>
    rw [ha] at h
    cases h

theorem result_map_ok {f : α → γ} {c : γ} (h : (f <$> x).result = .ok c) :
    ∃ a, x.result = .ok a ∧ c = f a := by
  rw [map_eq_pure_bind] at h
  obtain ⟨a, ha, hc⟩ := result_bind_ok h
  cases hc
  exact ⟨a, ha, rfl⟩

/-- The results of a list of runs are the results of each of them. -/
theorem forall₂_of_mapM {l : List ι} {f : ι → Run τ ε α} {as : List α}
    (h : (l.mapM f).result = .ok as) : List.Forall₂ (fun i a => (f i).result = .ok a) l as := by
  induction l generalizing as with
  | nil =>
    cases h
    exact .nil
  | cons i l ih =>
    rw [List.mapM_cons] at h
    obtain ⟨a, ha, h⟩ := result_bind_ok h
    obtain ⟨bs, hbs, h⟩ := result_bind_ok h
    cases h
    exact .cons ha (ih hbs)

theorem result_mapM_ok {l : List ι} {f : ι → Run τ ε α} {g : ι → α}
    (h : ∀ i ∈ l, (f i).result = .ok (g i)) : (l.mapM f).result = .ok (l.map g) := by
  induction l with
  | nil => rfl
  | cons i l ih =>
    rw [List.mapM_cons, result_bind, h i List.mem_cons_self]
    show ((l.mapM f) >>= _).result = _
    rw [result_bind, ih fun j hj => h j (List.mem_cons_of_mem i hj)]
    rfl

end RecordSkeleton.Run
