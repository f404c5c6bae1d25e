import RecordSkeleton.Run

/-!
# Runs that are stopped

An event may stop a run: the run then ends with this event, and with an error in place of its result.

1. Stopping passes through runs in sequence (`stopAt_bind`) and lists of runs (`stopAt_mapM`).
2. A run is stopped at the first event that stops it, or not at all (`stopAt_cases`).
-/

namespace RecordSkeleton.Run

variable {τ ε ζ α β ι : Type}

/-- Records an event, and fails if it stops the run. -/
def emitOrStop (stop : τ → Option ζ) (t : τ) : Run τ ζ Unit :=
  match stop t with
  | some e => ⟨[t], .error e⟩
  | none => emit t

/-- Records events up to the first one that stops the run. -/
def replay (stop : τ → Option ζ) : List τ → Run τ ζ Unit
  | [] => pure ()
  | t :: ts => emitOrStop stop t >>= fun _ => replay stop ts

/-- The run up to the first event that stops it. An error of its own is kept. -/
def stopAt (stop : τ → Option ζ) (keep : ε → ζ) (x : Run τ ε α) : Run τ ζ α :=
  replay stop x.events >>= fun _ => ofResult (x.result.mapError keep)

variable {stop : τ → Option ζ} {keep : ε → ζ}

theorem emitOrStop_of_none {t : τ} (h : stop t = none) : emitOrStop stop t = emit t := by
  unfold emitOrStop
  rw [h]

theorem emitOrStop_of_some {t : τ} {e : ζ} (h : stop t = some e) :
    emitOrStop stop t = ⟨[t], .error e⟩ := by
  unfold emitOrStop
  rw [h]

theorem replay_append (ts us : List τ) :
    replay stop (ts ++ us) = replay stop ts >>= fun _ => replay stop us := by
  induction ts with
  | nil => rw [List.nil_append, replay, pure_bind]
  | cons t ts ih => rw [List.cons_append, replay, replay, ih, bind_assoc]

theorem replay_eq_emitAll {ts : List τ} (h : ∀ t ∈ ts, stop t = none) :
    replay stop ts = emitAll ts := by
  induction ts with
  | nil => rfl
  | cons t ts ih =>
    rw [replay, emitOrStop_of_none (h t List.mem_cons_self),
      ih fun u hu => h u (List.mem_cons_of_mem t hu)]
    rfl

/-! ## Stopping goes through -/

theorem stopAt_ofResult (r : Except ε α) :
    (ofResult r : Run τ ε α).stopAt stop keep = ofResult (r.mapError keep) := by
  cases r <;> rfl

theorem stopAt_emit (t : τ) :
    (emit t : Run τ ε Unit).stopAt stop keep = emitOrStop stop t := by
  show (emitOrStop stop t >>= fun _ => pure ()) >>= (fun _ => pure ()) = _
  rw [bind_assoc]
  exact bind_pure_right _

theorem stopAt_bind (x : Run τ ε α) (f : α → Run τ ε β) :
    (x >>= f).stopAt stop keep = x.stopAt stop keep >>= fun a => (f a).stopAt stop keep := by
  obtain ⟨ts, r⟩ := x
  unfold stopAt
  cases r with
  | ok a =>
    rw [show (⟨ts, .ok a⟩ : Run τ ε α) >>= f = _ from bind_ok rfl f, replay_append, bind_assoc,
      bind_assoc]
    rfl
  | error e =>
    rw [show (⟨ts, .error e⟩ : Run τ ε α) >>= f = _ from bind_error rfl f, bind_assoc]
    rfl

theorem stopAt_map (f : α → β) (x : Run τ ε α) :
    (f <$> x).stopAt stop keep = f <$> x.stopAt stop keep := by
  rw [map_eq_pure_bind, map_eq_pure_bind, stopAt_bind]
  rfl

theorem stopAt_mapM (l : List ι) (f : ι → Run τ ε α) :
    (l.mapM f).stopAt stop keep = l.mapM fun i => (f i).stopAt stop keep := by
  induction l with
  | nil => rfl
  | cons i l ih =>
    rw [List.mapM_cons, List.mapM_cons, stopAt_bind]
    refine congrArg _ (funext fun a => ?_)
    rw [stopAt_bind, ih]
    rfl

/-! ## Where a run is stopped -/

theorem replay_cases (stop : τ → Option ζ) (ts : List τ) :
    (∀ t ∈ ts, stop t = none) ∨
      ∃ us t vs e, ts = us ++ t :: vs ∧ (∀ u ∈ us, stop u = none) ∧ stop t = some e ∧
        replay stop ts = ⟨us ++ [t], .error e⟩ := by
  induction ts with
  | nil => exact Or.inl fun _ h => (List.not_mem_nil h).elim
  | cons t ts ih =>
    cases ht : stop t with
    | some e =>
      refine Or.inr ⟨[], t, ts, e, rfl, fun _ h => (List.not_mem_nil h).elim, ht, ?_⟩
      rw [replay, emitOrStop_of_some ht]
      exact bind_error rfl _
    | none =>
      rcases ih with hall | ⟨us, u, vs, e, rfl, hus, hu, hreplay⟩
      · exact Or.inl (List.forall_mem_cons.2 ⟨ht, hall⟩)
      · refine Or.inr ⟨t :: us, u, vs, e, rfl, List.forall_mem_cons.2 ⟨ht, hus⟩, hu, ?_⟩
        rw [replay, emitOrStop_of_none ht, hreplay]
        exact bind_ok rfl _

/-- A run that no event stops keeps its events and its result. -/
theorem stopAt_of_forall {x : Run τ ε α} (h : ∀ t ∈ x.events, stop t = none) :
    x.stopAt stop keep = x.mapError keep := by
  unfold stopAt
  rw [replay_eq_emitAll h, bind_ok rfl]
  show (⟨x.events ++ [], _⟩ : Run τ ζ α) = _
  rw [List.append_nil]
  rfl

/-- A run is stopped at the first event that stops it. -/
theorem stopAt_of_eq_append {x : Run τ ε α} {us vs : List τ} {t : τ} {e : ζ}
    (hx : x.events = us ++ t :: vs) (hus : ∀ u ∈ us, stop u = none) (ht : stop t = some e) :
    x.stopAt stop keep = ⟨us ++ [t], .error e⟩ := by
  have hreplay : replay stop x.events = ⟨us ++ [t], .error e⟩ := by
    rw [hx, replay_append, replay_eq_emitAll hus, replay, emitOrStop_of_some ht]
    exact bind_ok rfl _
  unfold stopAt
  rw [hreplay]
  exact bind_error rfl _

/-- A run is not stopped at all, or it is at the first event that stops it. -/
theorem stopAt_cases (stop : τ → Option ζ) (keep : ε → ζ) (x : Run τ ε α) :
    (∀ t ∈ x.events, stop t = none) ∨
      ∃ us t vs e, x.events = us ++ t :: vs ∧ (∀ u ∈ us, stop u = none) ∧ stop t = some e ∧
        x.stopAt stop keep = ⟨us ++ [t], .error e⟩ := by
  rcases replay_cases stop x.events with h | ⟨us, t, vs, e, hx, hus, ht, hreplay⟩
  · exact Or.inl h
  · refine Or.inr ⟨us, t, vs, e, hx, hus, ht, ?_⟩
    unfold stopAt
    rw [hreplay]
    exact bind_error rfl _

end RecordSkeleton.Run
