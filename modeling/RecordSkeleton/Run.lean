import RecordSkeleton.Text.Basic

/-!
# Runs

A run is a computation that leaves a trace of events and ends with a result or an error. The events
up to an error are kept.

1. The events of two runs in sequence are those of the first followed by those of the second, which
   only takes place when the first succeeds (`Run.bind_ok`, `Run.bind_error`).
2. Runs form a lawful monad.
-/

namespace RecordSkeleton

/-- The outcome of a computation: what happened on the way, and how it ended. -/
structure Run (τ ε α : Type) where
  events : List τ
  /-- The value, or the error that ended the run. -/
  result : Except ε α

namespace Run

variable {τ ε α β : Type}

/-- A run in which nothing happens. -/
protected def pure (a : α) : Run τ ε α := ⟨[], .ok a⟩

/-- Two runs in sequence. -/
protected def bind (x : Run τ ε α) (f : α → Run τ ε β) : Run τ ε β :=
  match x.result with
  | .ok a => ⟨x.events ++ (f a).events, (f a).result⟩
  | .error e => ⟨x.events, .error e⟩

instance : Monad (Run τ ε) where
  pure := Run.pure
  bind := Run.bind

/-- Records an event. -/
def emit (event : τ) : Run τ ε Unit := ⟨[event], .ok ()⟩

/-- Records events. -/
def emitAll (events : List τ) : Run τ ε Unit := ⟨events, .ok ()⟩

/-- Records nothing and takes over a result. -/
def ofResult (r : Except ε α) : Run τ ε α := ⟨[], r⟩

/-- The same run with its events renamed. -/
def mapEvents {σ : Type} (f : τ → σ) (x : Run τ ε α) : Run σ ε α := ⟨x.events.map f, x.result⟩

/-- The same run with its error renamed. -/
def mapError {ζ : Type} (f : ε → ζ) (x : Run τ ε α) : Run τ ζ α := ⟨x.events, x.result.mapError f⟩

@[simp] theorem pure_eq (a : α) : (pure a : Run τ ε α) = ⟨[], .ok a⟩ := rfl

theorem bind_ok {x : Run τ ε α} {a : α} (h : x.result = .ok a) (f : α → Run τ ε β) :
    x >>= f = ⟨x.events ++ (f a).events, (f a).result⟩ := by
  show x.bind f = _
  rw [Run.bind, h]

theorem bind_error {x : Run τ ε α} {e : ε} (h : x.result = .error e) (f : α → Run τ ε β) :
    x >>= f = ⟨x.events, .error e⟩ := by
  show x.bind f = _
  rw [Run.bind, h]

/-- The result of two runs in sequence. -/
theorem result_bind (x : Run τ ε α) (f : α → Run τ ε β) :
    (x >>= f).result = x.result.bind fun a => (f a).result := by
  cases h : x.result with
  | ok a => rw [bind_ok h]; rfl
  | error e => rw [bind_error h]; rfl

theorem bind_pure_right (x : Run τ ε α) : x >>= pure = x := by
  obtain ⟨events, r⟩ := x
  cases r with
  | ok a =>
    rw [bind_ok rfl]
    simp
  | error e => exact bind_error rfl _

theorem bind_bind (x : Run τ ε α) (f : α → Run τ ε β) {γ : Type} (g : β → Run τ ε γ) :
    x >>= f >>= g = x >>= fun a => f a >>= g := by
  cases h : x.result with
  | error e => rw [bind_error h, bind_error rfl, bind_error h]
  | ok a =>
    rw [bind_ok h, bind_ok h]
    cases h' : (f a).result with
    | error e => rw [bind_error h', bind_error rfl]
    | ok b => rw [bind_ok h', bind_ok rfl, List.append_assoc]

instance : LawfulMonad (Run τ ε) :=
  LawfulMonad.mk' (Run τ ε) bind_pure_right (fun a f => (bind_ok rfl f).trans rfl)
    (fun x f g => bind_bind x f g)

theorem map_eq (f : α → β) (x : Run τ ε α) : f <$> x = ⟨x.events, x.result.map f⟩ := by
  rw [map_eq_pure_bind]
  cases h : x.result with
  | ok a =>
    rw [bind_ok h, pure_eq, List.append_nil]
    rfl
  | error e =>
    rw [bind_error h]
    rfl

end Run

end RecordSkeleton
