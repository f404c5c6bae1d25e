import Mathlib.Data.List.Induction
import RecordSkeleton.Proofs.Command.Outcome

/-!
# The history of a command

One command is run again and again. The runs share a session: the clock goes on, and the texts that
were delivered and the failures that were reported are kept.

1. A run goes the same way in two sessions whose next reading of the clock is the same
   (`Session.turn_congr`).
2. One more run keeps the accounts of a history right (`Accounted.extend`), so they are right after
   any runs (`Session.history_accounted`).
-/

namespace RecordSkeleton

open Command

variable {ε δ : Type}

/-- The outcome of a run in the course of a session. -/
def Turn.outcome (settings : Settings) (clock : Nat → Moment) (t : Turn ε δ) : Outcome ε δ :=
  t.invocation.outcome settings (clock t.before.clockReads)

/-- The runs of a command so far, and the session after them. -/
structure History (ε δ : Type) where
  turns : List (Turn ε δ) := []
  session : Session := {}

namespace History

/-- What has happened in all runs. -/
def trace (h : History ε δ) : List Occurrence := h.turns.flatMap (·.trace)

/-- The history with one more run. -/
def extend (settings : Settings) (describe : Failure ε δ → Text) (clock : Nat → Moment)
    (h : History ε δ) (i : Invocation ε δ) : History ε δ :=
  let turn := h.session.turn settings describe clock i
  ⟨h.turns ++ [turn], turn.after⟩

theorem trace_extend (settings : Settings) (describe : Failure ε δ → Text) (clock : Nat → Moment)
    (h : History ε δ) (i : Invocation ε δ) :
    (h.extend settings describe clock i).trace =
      h.trace ++ (h.session.turn settings describe clock i).trace := by
  unfold trace extend
  rw [List.flatMap_append, List.flatMap_singleton]

end History

/-- The history of the runs of a new command. -/
def Session.history (settings : Settings) (describe : Failure ε δ → Text) (clock : Nat → Moment)
    (invocations : List (Invocation ε δ)) : History ε δ :=
  invocations.foldl (History.extend settings describe clock) {}

/-- The accounts of a history are right. -/
structure Accounted (settings : Settings) (describe : Failure ε δ → Text) (clock : Nat → Moment)
    (invocations : List (Invocation ε δ)) (h : History ε δ) : Prop where
  invocations_eq : h.turns.map (·.invocation) = invocations
  /-- Each run begins in the session that the one before has left. -/
  sessions_eq : h.turns.map (·.before) ++ [h.session] = {} :: h.turns.map (·.after)
  /-- Each run ends with its outcome, and with no other one. -/
  ends_iff : ∀ t ∈ h.turns, ∀ o,
    Ends settings describe (clock t.before.clockReads) t.invocation o t.returned
      (Seen.ofTrace t.trace) ↔ o = t.outcome settings clock
  /-- A run goes the same way in any session in which the clock shows the same. -/
  repeatable : ∀ t ∈ h.turns, ∀ (s : Session) (clock' : Nat → Moment),
    clock' s.clockReads = clock t.before.clockReads →
      (s.turn settings describe clock' t.invocation).returned = t.returned ∧
        (s.turn settings describe clock' t.invocation).trace = t.trace
  clockReads_eq : h.session.clockReads = (Seen.ofTrace h.trace).clockReads
  /-- The delivered texts are the returned ones. -/
  delivered_eq : h.session.delivered = h.turns.filterMap (·.returned)
  /-- The counter of reports is the number of failed runs, -/
  reported_eq : h.session.reported = h.turns.countP fun t => (t.outcome settings clock).isFailed
  /-- and of what the diagnostics were given. -/
  diagnosed_eq : h.session.reported = (Seen.ofTrace h.trace).reported.length

/-- A run only depends on the session through the next reading of the clock. -/
theorem Session.turn_congr {settings : Settings} {describe : Failure ε δ → Text}
    {clock clock' : Nat → Moment} {s s' : Session} (i : Invocation ε δ)
    (hclock : clock' s'.clockReads = clock s.clockReads) :
    (s'.turn settings describe clock' i).returned = (s.turn settings describe clock i).returned ∧
      (s'.turn settings describe clock' i).trace = (s.turn settings describe clock i).trace := by
  unfold turn run
  rw [hclock]
  generalize deliver settings i.catalog i.clipboard (clock s.clockReads) i.document = x
  obtain ⟨events, result⟩ := x
  rcases result with f | _ | text
  · exact ⟨rfl, rfl⟩
  · exact ⟨rfl, rfl⟩
  · exact ⟨rfl, rfl⟩

section Accounts

variable {settings : Settings} {describe : Failure ε δ → Text} {clock : Nat → Moment}
  {invocations : List (Invocation ε δ)} {h : History ε δ}

/-- One more run keeps the accounts right. -/
theorem Accounted.extend (ha : Accounted settings describe clock invocations h)
    (i : Invocation ε δ) :
    Accounted settings describe clock (invocations ++ [i])
      (h.extend settings describe clock i) := by
  obtain ⟨hends, hafter⟩ := h.session.turn_ends settings describe clock i
  rw [hends.record_eq h.session] at hafter
  constructor
  case invocations_eq =>
    unfold History.extend
    simp only [List.map_append, ha.invocations_eq, List.map_cons, List.map_nil]
    rfl
  case sessions_eq =>
    unfold History.extend
    simp only [List.map_append, List.map_cons, List.map_nil, ← List.cons_append, ← ha.sessions_eq]
    rfl
  case ends_iff =>
    intro t ht o
    rcases List.mem_append.1 ht with ht | ht
    · exact ha.ends_iff t ht o
    · obtain rfl := List.mem_singleton.1 ht
      refine ⟨fun ho => ho.eq_outcome, ?_⟩
      rintro rfl
      exact hends
  case repeatable =>
    intro t ht s clock' hclock
    rcases List.mem_append.1 ht with ht | ht
    · exact ha.repeatable t ht s clock' hclock
    · obtain rfl := List.mem_singleton.1 ht
      exact Session.turn_congr i hclock
  case clockReads_eq =>
    rw [History.trace_extend, Seen.ofTrace_append]
    exact (congrArg Session.clockReads hafter).trans (congrArg (· + _) ha.clockReads_eq)
  case delivered_eq =>
    unfold History.extend
    rw [List.filterMap_append, ← ha.delivered_eq]
    refine (congrArg Session.delivered hafter).trans (congrArg (h.session.delivered ++ ·) ?_)
    rw [List.filterMap_cons]
    cases (h.session.turn settings describe clock i).returned with
    | none => rfl
    | some text => rfl
  case reported_eq =>
    unfold History.extend
    rw [List.countP_append, List.countP_singleton, ← ha.reported_eq]
    exact (congrArg Session.reported hafter).trans (congrArg (_ + ·) hends.reported_length)
  case diagnosed_eq =>
    rw [History.trace_extend, Seen.ofTrace_append]
    refine (congrArg Session.reported hafter).trans ?_
    rw [ha.diagnosed_eq]
    exact (List.length_append).symm

/-- After any runs of a new command, its accounts are right. Every point of a history is the end of a
shorter one, so they are right at every point. -/
theorem Session.history_accounted (settings : Settings) (describe : Failure ε δ → Text)
    (clock : Nat → Moment) (invocations : List (Invocation ε δ)) :
    Accounted settings describe clock invocations
      (Session.history settings describe clock invocations) := by
  induction invocations using List.reverseRecOn with
  | nil =>
    refine ⟨rfl, rfl, ?_, ?_, rfl, rfl, rfl, rfl⟩
    · rintro t ⟨⟩
    · rintro t ⟨⟩
  | append_singleton invocations i ih =>
    unfold Session.history
    rw [List.foldl_concat]
    exact ih.extend i

end Accounts

end RecordSkeleton
