import RecordSkeleton.Command
import RecordSkeleton.Proofs.Generation.References

/-!
# The outcome of a run of the command

The clock, the catalog, the clipboard and the diagnostics each see a part of a run of the command.
Together with the returned text, what they see is settled by the outcome of the run.

1. There is no target exactly when no top-level type is eligible (`Document.target?_eq_none_iff`).
2. A run has one of three outcomes: nothing happens, the text is delivered, or the look-up or the
   delivery fails and this is reported once (`Command.Ends`, `Session.turn_ends`).
3. It has no other one (`Command.Ends.eq_outcome`), and the session records what is seen of it
   (`Command.Ends.record_eq`).
-/

namespace RecordSkeleton

/-- Whether a skeleton is generated for such a type: a record, or a class with a marked constructor. -/
def Declaration.isEligible (marker : Text) (d : Declaration) : Bool :=
  d.kind == .record || d.kind == .plainClass && (Constructor.find? d.constructors marker).isSome

theorem Document.target?_eq_none_iff {doc : Document} {marker : Text} :
    doc.target? marker = none ↔ ∀ d ∈ doc.topLevel, d.isEligible marker = false := by
  unfold Document.target? Declaration.target? Declaration.isEligible
  rw [Option.or_eq_none_iff, List.find?_eq_none, List.find?_eq_none]
  constructor
  · rintro ⟨hrecord, hclass⟩ d hd
    exact Bool.or_eq_false_iff.2
      ⟨eq_false_of_ne_true (hrecord d hd), eq_false_of_ne_true (hclass d hd)⟩
  · intro h
    refine ⟨fun d hd => ?_, fun d hd => ?_⟩
    · exact ne_true_of_eq_false (Bool.or_eq_false_iff.1 (h d hd)).1
    · exact ne_true_of_eq_false (Bool.or_eq_false_iff.1 (h d hd)).2

namespace Command

variable {ε δ : Type}

/-! ## What the collaborators see -/

/-- What is seen of a run: how often the clock is read, the names that the catalog is asked for, the
texts that the clipboard is given, and the failures that the diagnostics are given. -/
structure Seen where
  clockReads : Nat := 0
  asked : List Text := []
  copied : List Text := []
  reported : List (Text × Text) := []

namespace Occurrence

/-- The name that the catalog is asked for. -/
def query? : Occurrence → Option Text
  | generation event => event.query?
  | _ => none

/-- The text that the clipboard is given. -/
def copied? : Occurrence → Option Text
  | copying text => some text
  | _ => none

/-- The title and the message that the diagnostics are given. -/
def reported? : Occurrence → Option (Text × Text)
  | reporting title message => some (title, message)
  | _ => none

end Occurrence

namespace Seen

/-- What is seen of the occurrences of a trace. -/
def ofTrace (trace : List Occurrence) : Seen where
  clockReads := trace.count .clockRead
  asked := trace.filterMap Occurrence.query?
  copied := trace.filterMap Occurrence.copied?
  reported := trace.filterMap Occurrence.reported?

instance : Append Seen where
  append a b := ⟨a.clockReads + b.clockReads, a.asked ++ b.asked, a.copied ++ b.copied,
    a.reported ++ b.reported⟩

@[simp] theorem mk_append_mk (m n : Nat) (as bs cs ds : List Text) (es fs : List (Text × Text)) :
    Seen.mk m as cs es ++ Seen.mk n bs ds fs = ⟨m + n, as ++ bs, cs ++ ds, es ++ fs⟩ := rfl

@[simp] theorem ofTrace_append (xs ys : List Occurrence) :
    ofTrace (xs ++ ys) = ofTrace xs ++ ofTrace ys := by
  unfold ofTrace
  rw [mk_append_mk, List.count_append, List.filterMap_append, List.filterMap_append,
    List.filterMap_append]

@[simp] theorem ofTrace_nil : ofTrace [] = {} := rfl

@[simp] theorem ofTrace_clockRead_cons (trace : List Occurrence) :
    ofTrace (.clockRead :: trace) = { clockReads := 1 } ++ ofTrace trace :=
  ofTrace_append [.clockRead] trace

@[simp] theorem ofTrace_copying_cons (text : Text) (trace : List Occurrence) :
    ofTrace (.copying text :: trace) = { copied := [text] } ++ ofTrace trace :=
  ofTrace_append [.copying text] trace

@[simp] theorem ofTrace_reporting_cons (title message : Text) (trace : List Occurrence) :
    ofTrace (.reporting title message :: trace) =
      { reported := [(title, message)] } ++ ofTrace trace :=
  ofTrace_append [.reporting title message] trace

@[simp] theorem ofTrace_map_output (outputs : List Output) : ofTrace (outputs.map .output) = {} := by
  induction outputs with
  | nil => rfl
  | cons o outputs ih => exact (ofTrace_append [.output o] _).trans (congrArg _ ih)

@[simp] theorem ofTrace_map_generation (events : List Event) :
    ofTrace (events.map .generation) = { asked := events.filterMap Event.query? } := by
  induction events with
  | nil => rfl
  | cons event events ih =>
    refine (ofTrace_append [.generation event] _).trans ?_
    rw [ih]
    cases event <;> rfl

@[simp] theorem ofTrace_logged_cons (level : LogLevel) (message : Text) (trace : List Occurrence) :
    ofTrace (logged level message :: trace) = {} ++ ofTrace trace :=
  ofTrace_append [logged level message] trace

end Seen

/-! ## The outcomes -/

/-- What becomes of a run. -/
inductive Outcome (ε δ : Type) where
  | idle
  | delivered (text : Text)
  | failed (f : Failure ε δ)

/-- Whether a run has failed. -/
def Outcome.isFailed : Outcome ε δ → Bool
  | failed _ => true
  | _ => false

/-- What one run of the command is given. The catalog and the clipboard may behave differently from
run to run. -/
structure Invocation (ε δ : Type) where
  catalog : Catalog ε
  clipboard : Text → Run Output δ Unit
  document : Document

/-- The generation for a target at a moment: at the first level, with nothing but the target on the
path. -/
def Invocation.generation (i : Invocation ε δ) (settings : Settings) (moment : Moment)
    (d : Declaration) : Gen ε Text :=
  RecordSkeleton.generate
    { catalog := i.catalog
      moment
      indent := settings.indent
      marker := settings.marker
      externalPlaceholder := settings.externalPlaceholder
      recursionPlaceholder := settings.recursionPlaceholder
      maxDepth := settings.maxDepth
      depth := 1
      path := [d.name] } d

/-- What the diagnostics are given of a failure. -/
def Failure.diagnostic (describe : Failure ε δ → Text) (f : Failure ε δ) : Text × Text :=
  ("Error processing record".toList, describe f)

/-- A run at a moment ends with this outcome: it returns this text, if any, and this is what is seen
of it. -/
inductive Ends (settings : Settings) (describe : Failure ε δ → Text) (moment : Moment)
    (i : Invocation ε δ) : Outcome ε δ → Option Text → Seen → Prop
  /-- There is no eligible type. Nothing is seen. -/
  | idle (h : ∀ d ∈ i.document.topLevel, d.isEligible settings.marker = false) :
    Ends settings describe moment i .idle none {}
  /-- The skeleton of the target is generated and the clipboard takes it. -/
  | delivered {d : Declaration} {text : Text} (htarget : i.document.target? settings.marker = some d)
    (hgenerated : (i.generation settings moment d).result = .ok text)
    (hcopied : (i.clipboard text).result = .ok ()) :
    Ends settings describe moment i (.delivered text) (some text)
      { clockReads := 1
        asked := queries (i.generation settings moment d)
        copied := [text] }
  /-- The catalog fails. The clipboard is given nothing. -/
  | lookupFailed {d : Declaration} {e : ε} (htarget : i.document.target? settings.marker = some d)
    (hfailed : (i.generation settings moment d).result = .error e) :
    Ends settings describe moment i (.failed (.lookup e)) none
      { clockReads := 1
        asked := queries (i.generation settings moment d)
        reported := [(Failure.lookup e).diagnostic describe] }
  /-- The clipboard fails. -/
  | deliveryFailed {d : Declaration} {text : Text} {e : δ}
    (htarget : i.document.target? settings.marker = some d)
    (hgenerated : (i.generation settings moment d).result = .ok text)
    (hfailed : (i.clipboard text).result = .error e) :
    Ends settings describe moment i (.failed (.delivery e)) none
      { clockReads := 1
        asked := queries (i.generation settings moment d)
        copied := [text]
        reported := [(Failure.delivery e).diagnostic describe] }

/-- The outcome of a run at a moment. -/
def Invocation.outcome (i : Invocation ε δ) (settings : Settings) (moment : Moment) : Outcome ε δ :=
  match i.document.target? settings.marker with
  | none => .idle
  | some d =>
    match (i.generation settings moment d).result with
    | .error e => .failed (.lookup e)
    | .ok text =>
      match (i.clipboard text).result with
      | .error e => .failed (.delivery e)
      | .ok () => .delivered text

variable {settings : Settings} {describe : Failure ε δ → Text} {moment : Moment} {i : Invocation ε δ}

namespace Ends

variable {o : Outcome ε δ} {returned : Option Text} {seen : Seen}

/-- A run ends with no other outcome. -/
theorem eq_outcome (h : Ends settings describe moment i o returned seen) :
    o = i.outcome settings moment := by
  unfold Invocation.outcome
  cases h with
  | idle h => rw [Document.target?_eq_none_iff.2 h]
  | delivered htarget hgenerated hcopied => simp only [htarget, hgenerated, hcopied]
  | lookupFailed htarget hfailed => simp only [htarget, hfailed]
  | deliveryFailed htarget hgenerated hfailed => simp only [htarget, hgenerated, hfailed]

theorem reported_length (h : Ends settings describe moment i o returned seen) :
    seen.reported.length = if o.isFailed then 1 else 0 := by
  cases h <;> rfl

end Ends

/-! ## The course of a run -/

section Course

theorem deliver_of_idle (h : i.document.target? settings.marker = none) :
    deliver settings i.catalog i.clipboard moment i.document =
      ⟨[logged .debug ("No eligible type in ".toList ++ i.document.path.getD "None".toList)],
        .ok none⟩ := by
  unfold deliver generate
  rw [h]
  rfl

/-- What has happened when a generation has come to its end. -/
def generated (settings : Settings) (moment : Moment) (i : Invocation ε δ) (d : Declaration) :
    List Occurrence :=
  logged .debug ("Generating skeleton for ".toList ++ d.name) :: .clockRead ::
    (i.generation settings moment d).events.map .generation

variable {d : Declaration} (htarget : i.document.target? settings.marker = some d)

include htarget

theorem generate_of_target? :
    generate settings i.catalog moment i.document =
      ⟨generated settings moment i d, (i.generation settings moment d).result.map some⟩ := by
  unfold generate
  rw [htarget]
  show (Run.emit _ >>= fun _ => Run.emit _ >>= fun _ => some <$> _) = _
  rw [Run.bind_ok rfl, Run.bind_ok rfl, Run.map_eq]
  rfl

theorem deliver_of_error {e : ε} (hfailed : (i.generation settings moment d).result = .error e) :
    deliver settings i.catalog i.clipboard moment i.document =
      ⟨generated settings moment i d, .error (.lookup e)⟩ := by
  unfold deliver
  rw [generate_of_target? htarget, hfailed]
  rfl

theorem deliver_of_ok {text : Text} (hgenerated : (i.generation settings moment d).result = .ok text) :
    deliver settings i.catalog i.clipboard moment i.document =
      ⟨generated settings moment i d ++ .copying text :: (i.clipboard text).events.map .output,
        ((i.clipboard text).result.mapError .delivery).map fun _ => some text⟩ := by
  have hcopy : (Run.emit (.copying text) >>= fun _ =>
      ((i.clipboard text).mapEvents .output).mapError .delivery >>= fun _ => pure (some text) :
        Run Occurrence (Failure ε δ) (Option Text)) =
      ⟨.copying text :: (i.clipboard text).events.map .output,
        ((i.clipboard text).result.mapError .delivery).map fun _ => some text⟩ := by
    rw [Run.bind_ok rfl, bind_pure_comp, Run.map_eq]
    rfl
  unfold deliver
  rw [generate_of_target? htarget, hgenerated, Run.bind_ok rfl]
  simp only [hcopy]
  rfl

end Course

theorem Seen.ofTrace_report (title message : Text) :
    Seen.ofTrace (report title message) = { reported := [(title, message)] } := by
  unfold report
  simp only [ofTrace_reporting_cons, ofTrace_map_output, mk_append_mk, Nat.add_zero, List.append_nil]

theorem Seen.ofTrace_generated (d : Declaration) :
    Seen.ofTrace (generated settings moment i d) =
      { clockReads := 1, asked := queries (i.generation settings moment d) } := by
  unfold generated queries
  simp only [ofTrace_logged_cons, ofTrace_clockRead_cons, ofTrace_map_generation, mk_append_mk,
    Nat.add_zero, Nat.zero_add, List.nil_append]

theorem Seen.ofTrace_copied (d : Declaration) (text : Text) (outputs : List Output) :
    Seen.ofTrace (generated settings moment i d ++ .copying text :: outputs.map .output) =
      { clockReads := 1
        asked := queries (i.generation settings moment d)
        copied := [text] } := by
  rw [ofTrace_append, ofTrace_generated, ofTrace_copying_cons, ofTrace_map_output]
  simp only [mk_append_mk, Nat.add_zero, List.append_nil, List.nil_append]

end Command

/-! ## A run in a session -/

open Command

variable {ε δ : Type}

/-- A run of the command in the course of a session. -/
structure Turn (ε δ : Type) where
  invocation : Invocation ε δ
  before : Session
  returned : Option Text
  trace : List Occurrence
  after : Session

namespace Session

/-- The run on an invocation. -/
def turn (settings : Settings) (describe : Failure ε δ → Text) (clock : Nat → Moment) (s : Session)
    (i : Invocation ε δ) : Turn ε δ :=
  let (returned, trace, after) :=
    s.run settings describe clock i.catalog i.clipboard i.document
  ⟨i, s, returned, trace, after⟩

/-- The session after a run with this outcome. -/
def record (s : Session) : Outcome ε δ → Session
  | .idle => s
  | .delivered text =>
    { s with clockReads := s.clockReads + 1, delivered := s.delivered ++ [text] }
  | .failed _ => { s with clockReads := s.clockReads + 1, reported := s.reported + 1 }

end Session

/-- The session after a run counts what is seen of it and keeps what it returns. -/
theorem Command.Ends.record_eq {settings : Settings} {describe : Failure ε δ → Text}
    {moment : Moment} {i : Invocation ε δ} {o : Outcome ε δ} {returned : Option Text} {seen : Seen}
    (h : Ends settings describe moment i o returned seen) (s : Session) :
    s.record o = ⟨s.clockReads + seen.clockReads, s.reported + seen.reported.length,
      s.delivered ++ returned.toList⟩ := by
  unfold Session.record
  cases h with
  | idle => rw [Option.toList_none, List.append_nil]; rfl
  | delivered => rfl
  | lookupFailed => rw [Option.toList_none, List.append_nil]; rfl
  | deliveryFailed => rw [Option.toList_none, List.append_nil]; rfl

namespace Session

section Turn

variable {settings : Settings} (describe : Failure ε δ → Text) (clock : Nat → Moment) (s : Session)
  {i : Invocation ε δ} {trace : List Occurrence} {n : Nat} {asked copied : List Text}

theorem turn_of_idle (h : i.document.target? settings.marker = none) :
    (s.turn settings describe clock i).returned = none ∧
      Seen.ofTrace (s.turn settings describe clock i).trace = {} ∧
      (s.turn settings describe clock i).after = s := by
  unfold turn run
  rw [deliver_of_idle h]
  exact ⟨rfl, rfl, rfl⟩

theorem turn_of_error {f : Failure ε δ}
    (h : deliver settings i.catalog i.clipboard (clock s.clockReads) i.document =
      ⟨trace, .error f⟩)
    (hseen : Seen.ofTrace trace = { clockReads := n, asked, copied }) :
    (s.turn settings describe clock i).returned = none ∧
      Seen.ofTrace (s.turn settings describe clock i).trace =
        { clockReads := n, asked, copied, reported := [f.diagnostic describe] } ∧
      (s.turn settings describe clock i).after =
        { s with clockReads := s.clockReads + n, reported := s.reported + 1 } := by
  have hreads : trace.count .clockRead = n := congrArg Seen.clockReads hseen
  unfold turn run
  rw [h]
  refine ⟨rfl, ?_, ?_⟩
  · show Seen.ofTrace (trace ++ report _ _) = _
    rw [Seen.ofTrace_append, hseen, Seen.ofTrace_report]
    simp only [Seen.mk_append_mk, Nat.add_zero, List.append_nil, List.nil_append]
    rfl
  · simp only [afterReads, hreads]

theorem turn_of_text {text : Text}
    (h : deliver settings i.catalog i.clipboard (clock s.clockReads) i.document =
      ⟨trace, .ok (some text)⟩)
    (hseen : Seen.ofTrace trace = { clockReads := n, asked, copied }) :
    (s.turn settings describe clock i).returned = some text ∧
      Seen.ofTrace (s.turn settings describe clock i).trace = { clockReads := n, asked, copied } ∧
      (s.turn settings describe clock i).after =
        { s with clockReads := s.clockReads + n, delivered := s.delivered ++ [text] } := by
  have hreads : trace.count .clockRead = n := congrArg Seen.clockReads hseen
  unfold turn run
  rw [h]
  refine ⟨rfl, ?_, ?_⟩
  · show Seen.ofTrace (trace ++ [logged _ _]) = _
    rw [Seen.ofTrace_append, hseen, Seen.ofTrace_logged_cons, Seen.ofTrace_nil]
    simp only [Seen.mk_append_mk, Nat.add_zero, List.append_nil]
  · simp only [afterReads, hreads]

end Turn

/-- A run ends with its outcome, and the session records it. -/
theorem turn_ends (settings : Settings) (describe : Failure ε δ → Text) (clock : Nat → Moment)
    (s : Session) (i : Invocation ε δ) :
    Ends settings describe (clock s.clockReads) i (i.outcome settings (clock s.clockReads))
        (s.turn settings describe clock i).returned
        (Seen.ofTrace (s.turn settings describe clock i).trace) ∧
      (s.turn settings describe clock i).after =
        s.record (i.outcome settings (clock s.clockReads)) := by
  cases htarget : i.document.target? settings.marker with
  | none =>
    have hends : Ends settings describe (clock s.clockReads) i .idle none {} :=
      .idle (Document.target?_eq_none_iff.1 htarget)
    obtain ⟨hreturned, hseen, hafter⟩ := turn_of_idle describe clock s htarget
    rw [← hends.eq_outcome, hreturned, hseen, hafter]
    exact ⟨hends, rfl⟩
  | some d =>
    cases hgenerated : (i.generation settings (clock s.clockReads) d).result with
    | error e =>
      have hends : Ends settings describe (clock s.clockReads) i (.failed (.lookup e)) none _ :=
        .lookupFailed htarget hgenerated
      obtain ⟨hreturned, hseen, hafter⟩ := turn_of_error describe clock s
        (deliver_of_error htarget hgenerated) (Seen.ofTrace_generated d)
      rw [← hends.eq_outcome, hreturned, hseen, hafter]
      exact ⟨hends, rfl⟩
    | ok text =>
      have hdeliver := deliver_of_ok htarget hgenerated
      cases hcopied : (i.clipboard text).result with
      | error e =>
        rw [hcopied] at hdeliver
        have hends : Ends settings describe (clock s.clockReads) i (.failed (.delivery e)) none _ :=
          .deliveryFailed htarget hgenerated hcopied
        obtain ⟨hreturned, hseen, hafter⟩ := turn_of_error describe clock s hdeliver
          (Seen.ofTrace_copied d text _)
        rw [← hends.eq_outcome, hreturned, hseen, hafter]
        exact ⟨hends, rfl⟩
      | ok u =>
        rw [hcopied] at hdeliver
        have hends : Ends settings describe (clock s.clockReads) i (.delivered text) (some text) _ :=
          .delivered htarget hgenerated hcopied
        obtain ⟨hreturned, hseen, hafter⟩ := turn_of_text describe clock s hdeliver
          (Seen.ofTrace_copied d text _)
        rw [← hends.eq_outcome, hreturned, hseen, hafter]
        exact ⟨hends, rfl⟩

end Session

end RecordSkeleton
