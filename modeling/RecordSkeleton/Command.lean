import RecordSkeleton.Clipboard
import RecordSkeleton.Document
import RecordSkeleton.Generation
import RecordSkeleton.Settings.Basic

/-!
# The command

The command generates the skeleton of a document's target and delivers it. Each run has one of three
kinds of outcome: there is no target and nothing happens, the skeleton is delivered, or the look-up
or the delivery fails and the failure is reported.

1. A run reads the clock once if there is a target and not at all otherwise
   (`Session.run`).
-/

namespace RecordSkeleton

namespace Command

/-- The context in which the declaration of the given name is generated. -/
def context {ε : Type} (settings : Settings) (catalog : Catalog ε) (moment : Moment)
    (name : Text) : Context ε where
  catalog
  moment
  indent := settings.indent
  marker := settings.marker
  externalPlaceholder := settings.externalPlaceholder
  recursionPlaceholder := settings.recursionPlaceholder
  maxDepth := settings.maxDepth
  path := [name]

/-- What happens in the course of a run. -/
inductive Occurrence where
  | clockRead
  | generation (event : Event)
  /-- The clipboard is given a text. -/
  | copying (text : Text)
  /-- The diagnostics are given a failure. -/
  | reporting (title message : Text)
  | output (o : Output)
  deriving DecidableEq, Repr

/-- Why a run fails. -/
inductive Failure (ε δ : Type) where
  | lookup (e : ε)
  | delivery (e : δ)

/-- A log entry of the command. -/
def logged (level : LogLevel) (message : Text) : Occurrence :=
  .output (.log ⟨level, "handler".toList, message⟩)

/-- The skeleton of a document's target, if it has one. -/
def generate {ε : Type} (settings : Settings) (catalog : Catalog ε) (moment : Moment)
    (doc : Document) : Run Occurrence ε (Option Text) :=
  match doc.target? settings.marker with
  | none => do
    Run.emit (logged .debug
      ("No eligible type in ".toList ++ doc.path.getD "None".toList))
    pure none
  | some d => do
    Run.emit (logged .debug ("Generating skeleton for ".toList ++ d.name))
    Run.emit .clockRead
    some <$> (RecordSkeleton.generate (context settings catalog moment d.name) d).mapEvents
      .generation

/-- Generates the skeleton of a document's target and delivers it. -/
def deliver {ε δ : Type} (settings : Settings) (catalog : Catalog ε)
    (clipboard : Text → Run Output δ Unit) (moment : Moment) (doc : Document) :
    Run Occurrence (Failure ε δ) (Option Text) := do
  match ← (generate settings catalog moment doc).mapError .lookup with
  | none => pure none
  | some text => do
    Run.emit (.copying text)
    ((clipboard text).mapEvents .output).mapError .delivery
    pure (some text)

/-- A failure is given to the diagnostics, which put it out. -/
def report (title message : Text) : List Occurrence :=
  .reporting title message :: (reportFailure title message).map .output

/-- What happens after a run has come to its end: a failure is reported, a delivery is logged. -/
def closing {ε δ : Type} (describe : Failure ε δ → Text) :
    Except (Failure ε δ) (Option Text) → List Occurrence
  | .error e => report "Error processing record".toList (describe e)
  | .ok none => []
  | .ok (some text) =>
    [logged .info ("Delivered skeleton (".toList ++ Text.ofNat text.length ++ " chars)".toList)]

end Command

/-- What has become of the runs of one command so far. -/
structure Session where
  clockReads : Nat := 0
  reported : Nat := 0
  delivered : List Text := []
  deriving DecidableEq, Repr

namespace Session

/-- The session after the clock has been read as often as a trace shows. -/
def afterReads (s : Session) (trace : List Command.Occurrence) : Session :=
  { s with clockReads := s.clockReads + trace.count .clockRead }

/-- One run of the command: the text that it returns, what happens in its course, and the session
after it. A failure is described by `describe`; the `n`-th reading of the clock is `clock n`. -/
def run {ε δ : Type} (settings : Settings) (describe : Command.Failure ε δ → Text)
    (clock : Nat → Moment) (catalog : Catalog ε) (clipboard : Text → Run Output δ Unit)
    (doc : Document) (s : Session) : Option Text × List Command.Occurrence × Session :=
  let run := Command.deliver settings catalog clipboard (clock s.clockReads) doc
  let trace := run.events ++ Command.closing describe run.result
  let after := s.afterReads run.events
  match run.result with
  | .error _ => (none, trace, { after with reported := s.reported + 1 })
  | .ok none => (none, trace, after)
  | .ok (some text) => (some text, trace, { after with delivered := s.delivered ++ [text] })

end Session

end RecordSkeleton
