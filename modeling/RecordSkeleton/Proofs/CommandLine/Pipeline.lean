import RecordSkeleton.CommandLine.Program
import RecordSkeleton.Proofs.Command.Outcome
import RecordSkeleton.Proofs.ProjectCatalog.History
import RecordSkeleton.Proofs.Settings.Loading
import RecordSkeleton.Proofs.TypeExpr.Print

/-!
# A run of the program

A run on a file goes through stages: the settings are loaded, the options applied, the document loaded
and the directories found in which types are looked up. Then the skeleton is generated and printed.

1. A stage prints nothing. It goes on with what it has found, is aborted, or ends the run with status 1
   and a line on the error output (`Program.IsStage`). What follows a stage accounts for the whole
   (`Program.IsStage.accounts_bind`).
2. The stages find what the command works with (`Program.Setup`), and the command prints the skeleton
   of the document's target, or nothing (`Program.accounts_command`).
3. So a run that returns has printed the skeleton and nothing else, or nothing, and its status tells
   which (`Program.run_returns`).
-/

namespace RecordSkeleton

/-! ## What is put out -/

namespace Output

theorem standardText_append (xs ys : List Output) :
    standardText (xs ++ ys) = standardText xs ++ standardText ys := List.flatMap_append

theorem errorText_append (xs ys : List Output) :
    errorText (xs ++ ys) = errorText xs ++ errorText ys := List.flatMap_append

theorem calls_append (xs ys : List Output) : calls (xs ++ ys) = calls xs ++ calls ys :=
  List.filterMap_append

theorem standardText_map_log (entries : List LogEntry) : standardText (entries.map .log) = [] :=
  List.flatMap_eq_nil_iff.2 fun o ho => by
    obtain ⟨e, -, rfl⟩ := List.mem_map.1 ho
    rfl

theorem errorText_map_log (entries : List LogEntry) : errorText (entries.map .log) = [] :=
  List.flatMap_eq_nil_iff.2 fun o ho => by
    obtain ⟨e, -, rfl⟩ := List.mem_map.1 ho
    rfl

theorem calls_map_log (entries : List LogEntry) : calls (entries.map .log) = [] :=
  List.filterMap_eq_nil_iff.2 fun o ho => by
    obtain ⟨e, -, rfl⟩ := List.mem_map.1 ho
    rfl

end Output

/-- What is printed in an occurrence. -/
def Command.Occurrence.printed : Command.Occurrence → Text
  | output (.standard text) => text
  | _ => []

namespace Program

open Output (standardText standardText_append standardText_map_log)

theorem standardText_logged? (event : Event) :
    standardText (event.logged?.map .log).toList = [] := by
  cases event <;> rfl

/-- Of what happens in a run of the command, what its clipboard prints is printed and nothing else. -/
theorem standardText_outputOf (indexing : List LogEntry) (trace : List Command.Occurrence) :
    standardText (outputOf indexing trace) = trace.flatMap Command.Occurrence.printed := by
  fun_induction outputOf indexing trace with
  | case1 => rfl
  | case2 name rest =>
    rw [standardText_append, standardText_map_log, List.nil_append, List.flatMap_cons]
    show (List.flatMap _ rest).flatMap _ = rest.flatMap Command.Occurrence.printed
    rw [List.flatMap_assoc]
    refine List.flatMap_congr fun o _ => ?_
    cases o with
    | generation event => exact standardText_logged? event
    | output o => cases o <;> simp [Command.Occurrence.printed]
    | _ => rfl
  | case3 event rest hevent ih =>
    rw [standardText_append, standardText_logged?, ih]
    rfl
  | case4 o rest ih =>
    rw [List.flatMap_cons, ← ih]
    cases o <;> rfl
  | case5 rest ih => exact ih
  | case6 text rest ih => exact ih
  | case7 title message rest ih => exact ih

/-! ## Setups -/

/-- The value of an option, when it is given and not empty. -/
def textOf? : Option (OptionValue Text) → Option Text
  | some (.given (c :: text)) => some (c :: text)
  | _ => none

/-- The settings of a run, where there is room for so many spaces: the options that are given have replaced
the loaded settings, and nothing else has changed in what a skeleton depends on. -/
structure Applied (room : Nat) (args : Arguments) (loaded s : Settings) : Prop where
  marker_eq : s.marker = (textOf? args.marker).getD loaded.marker
  indent_eq : match textOf? args.indent with
    | some text => Settings.indentOfText room text = .ok s.indent
    | none => s.indent = loaded.indent
  maxDepth_eq : match args.maxDepth with
    | some (.given n) => Settings.depthOfInt n = .ok s.maxDepth
    | some .dropped => False
    | none => s.maxDepth = loaded.maxDepth
  externalPlaceholder_eq : s.externalPlaceholder = loaded.externalPlaceholder
  recursionPlaceholder_eq : s.recursionPlaceholder = loaded.recursionPlaceholder
  extensions_eq : s.extensions = loaded.extensions
  skipPatterns_eq : s.skipPatterns = loaded.skipPatterns

/-- A directory of the project: the one that is given, or else the project root of the file. -/
def IsProject (machine : Machine) (args : Arguments) (project : Path) : Prop :=
  match textOf? args.project with
  | some text => project = Path.ofText text
  | none => machine.tree.projectRoot (Path.ofText args.file) = .ok project

/-- What the command works with in a run on the file of the arguments. -/
structure Setup (machine : Machine) (args : Arguments) where
  loaded : Settings
  settings : Settings
  document : Document
  project : Path
  libraries : List Text
  loaded_eq : (Settings.load machine.tree machine.environment).result = .ok loaded
  applied : Applied machine.environment.room args loaded settings
  document_eq : Document.load .standard machine.tree (Path.ofText args.file) true = .ok document
  isProject : IsProject machine args project
  libraries_eq : args.libraries = libraries.map .given

namespace Setup

variable {machine : Machine} {args : Arguments}

/-- The only root of the project, and those of the libraries. -/
def scope (x : Setup machine args) : ProjectScope :=
  .ofSettings x.settings [x.project] (x.libraries.map Path.ofText)

/-- The context in which the skeleton of the target is generated, over a new catalog. -/
def context (x : Setup machine args) (target : Declaration) : Context CatalogError where
  catalog := ProjectCatalog.answerNew x.scope machine.tree
  moment := machine.now
  indent := x.settings.indent
  marker := x.settings.marker
  externalPlaceholder := x.settings.externalPlaceholder
  recursionPlaceholder := x.settings.recursionPlaceholder
  maxDepth := x.settings.maxDepth
  depth := 1
  path := [target.name]

end Setup

section Run

variable (machine : Machine) (args : Arguments)

/-- Why a run ends with status 1, with the message. -/
inductive Fails : Text → Prop
  /-- The depth limit that is given is none. -/
  | depth {n : Int} {fault : SettingFault} (h : args.maxDepth = some (.given n))
    (hfault : Settings.depthOfInt n = .error fault) :
    Fails ("--max-depth: ".toList ++ fault.message)
  /-- There is no such file. -/
  | missing (h : machine.tree.isFile (Path.ofText args.file) = .ok false) :
    Fails ("File not found: ".toList ++ args.file)
  /-- The file gives no document. -/
  | unloaded {e : LoadError}
    (h : Document.load .standard machine.tree (Path.ofText args.file) true = .error e) :
    Fails e.message
  /-- The catalog fails with an error of its own. -/
  | lookup (x : Setup machine args) {d : Declaration} {e : CatalogError}
    (htarget : x.document.target? x.settings.marker = some d)
    (hfailed : (generate (x.context d) d).result = .error e) (hown : e.isOwn = true) :
    Fails ("Error processing record: ".toList ++ e.message)

/-- The line on the error output that tells of a failure. -/
def errorLine (message : Text) : Output := .error ("Error: ".toList ++ message ++ ['\n'])

/-- How a run returns, with what it has put out. -/
inductive Returns : Nat → List Output → Prop
  /-- The skeleton of the target is printed, with a line feed behind it. -/
  | printed (x : Setup machine args) {d : Declaration} {text : Text} {output : List Output}
    (htarget : x.document.target? x.settings.marker = some d)
    (hgenerated : (generate (x.context d) d).result = .ok text)
    (hout : standardText output = text ++ ['\n']) : Returns 0 output
  /-- The document has no eligible type, and nothing is printed. -/
  | idle (x : Setup machine args) {output : List Output}
    (hnone : ∀ d ∈ x.document.topLevel, d.isEligible x.settings.marker = false)
    (hout : standardText output = []) : Returns 0 output
  /-- Nothing is printed, and a line on the error output tells why. -/
  | failed {message : Text} {output : List Output} (h : Fails machine args message)
    (hline : errorLine message ∈ output) (hout : standardText output = []) : Returns 1 output

end Run

/-! ## Stages -/

section Stages

variable {machine : Machine} {args : Arguments} {α : Type}

theorem Returns.append {status : Nat} {before output : List Output}
    (h : Returns machine args status output) (hbefore : standardText before = []) :
    Returns machine args status (before ++ output) := by
  have hout : standardText (before ++ output) = standardText output := by
    rw [standardText_append, hbefore, List.nil_append]
  cases h with
  | printed x htarget hgenerated h => exact .printed x htarget hgenerated (hout.trans h)
  | idle x hnone h => exact .idle x hnone (hout.trans h)
  | failed h hline hsilent => exact .failed h (List.mem_append_right _ hline) (hout.trans hsilent)

/-- A run that returns accounts for its status. -/
def Accounts (machine : Machine) (args : Arguments) (x : Run Output Stop Nat) : Prop :=
  ∀ status, endingOf x.result = .ok status → Returns machine args status x.events

/-- A stage of a run prints nothing. It goes on with a value of which something is known, is aborted,
or ends the run as failed. -/
structure IsStage (machine : Machine) (args : Arguments) (known : α → Prop) (x : Run Output Stop α) :
    Prop where
  silent : standardText x.events = []
  known_of_ok : ∀ a, x.result = .ok a → known a
  fails_of_exit : ∀ status, x.result = .error (.exit status) →
    status = 1 ∧ ∃ message, Fails machine args message ∧ errorLine message ∈ x.events

/-- What follows a stage accounts for the whole. -/
theorem IsStage.accounts_bind {known : α → Prop} {x : Run Output Stop α}
    {f : α → Run Output Stop Nat} (h : IsStage machine args known x)
    (hf : ∀ a, known a → Accounts machine args (f a)) : Accounts machine args (x >>= f) := by
  intro status hstatus
  cases hx : x.result with
  | ok a =>
    rw [Run.bind_ok hx] at hstatus ⊢
    exact (hf a (h.known_of_ok a hx) status hstatus).append h.silent
  | error stop =>
    rw [Run.bind_error hx] at hstatus ⊢
    cases stop with
    | abort a => cases hstatus
    | exit status' =>
      cases hstatus
      obtain ⟨rfl, message, hfails, hline⟩ := h.fails_of_exit status hx
      exact .failed hfails hline h.silent

theorem IsStage.bind {β : Type} {known : α → Prop} {known' : β → Prop} {x : Run Output Stop α}
    {f : α → Run Output Stop β} (h : IsStage machine args known x)
    (hf : ∀ a, known a → IsStage machine args known' (f a)) :
    IsStage machine args known' (x >>= f) := by
  cases hx : x.result with
  | ok a =>
    have ha := hf a (h.known_of_ok a hx)
    rw [Run.bind_ok hx]
    refine ⟨?_, ha.known_of_ok, fun status hstatus => ?_⟩
    · rw [standardText_append, h.silent, ha.silent]
      rfl
    · obtain ⟨hone, message, hfails, hline⟩ := ha.fails_of_exit status hstatus
      exact ⟨hone, message, hfails, List.mem_append_right _ hline⟩
  | error stop =>
    rw [Run.bind_error hx]
    refine ⟨h.silent, fun _ hb => (nomatch hb), fun status hstatus => ?_⟩
    cases hstatus
    exact h.fails_of_exit status hx

theorem isStage_log (level : LogLevel) (origin message : Text) :
    IsStage machine args (fun _ => True) (put (log level origin message)) :=
  ⟨rfl, fun _ _ => trivial, fun _ h => (nomatch h)⟩

theorem isStage_ofResult {ε : Type} (r : Except ε α) (abort : ε → Abort) :
    IsStage machine args (fun a => r = .ok a)
      (Run.ofResult (r.mapError fun e => .abort (abort e))) := by
  refine ⟨rfl, fun a ha => ?_, fun status hstatus => ?_⟩
  · cases r with
    | ok b => cases ha; rfl
    | error e => cases ha
  · cases r with
    | ok b => cases hstatus
    | error e => cases hstatus

theorem isStage_pure (known : α → Prop) {a : α} (h : known a) :
    IsStage machine args known (pure a) := by
  refine ⟨rfl, fun b hb => ?_, fun _ h => (nomatch h)⟩
  cases hb
  exact h

theorem isStage_abort (known : α → Prop) (a : Abort) :
    IsStage machine args known (Run.ofResult (.error (.abort a))) :=
  ⟨rfl, fun _ h => (nomatch h), fun _ h => (nomatch h)⟩

theorem isStage_fail (known : α → Prop) {message : Text} (h : Fails machine args message) :
    IsStage machine args known (fail message) := by
  refine ⟨rfl, fun _ h => (nomatch h), fun status hstatus => ?_⟩
  cases hstatus
  exact ⟨rfl, message, h, List.mem_singleton_self _⟩

theorem accounts_fail {message : Text} (h : Fails machine args message) :
    Accounts machine args (fail message) := by
  rintro status ⟨⟩
  exact .failed h (List.mem_singleton_self _) rfl

end Stages

/-! ## The stages of a run -/

section Options

variable (room : Nat) (args : Arguments)

/-- Settings with the marker that is given. -/
def withMarker (s : Settings) : Settings :=
  { s with marker := (textOf? args.marker).getD s.marker }

/-- Settings with the indent that is given, if there is no fault in it. -/
def withIndent (s : Settings) : Except SettingFault Settings :=
  match textOf? args.indent with
  | some text => (Settings.indentOfText room text).map fun indent => { s with indent }
  | none => .ok s

theorem applyOptions_eq (s : Settings) :
    applyOptions room args s =
      match withIndent room args (withMarker args s) with
      | .error fault => (withMarker args s, Run.ofResult (.error (.abort (.setting fault))))
      | .ok s =>
        match args.maxDepth with
        | none => (s, pure ())
        | some .dropped => (s, Run.ofResult (.error (.abort (.valueDropped .maxDepth))))
        | some (.given n) =>
          match Settings.depthOfInt n with
          | .ok d => ({ s with maxDepth := d }, pure ())
          | .error fault => (s, fail ("--max-depth: ".toList ++ fault.message)) := by
  obtain ⟨file, project, libraries, copy, marker, indent, maxDepth, check, verbosity⟩ := args
  rcases marker with _ | _ | _ | ⟨c, marker⟩ <;> rcases indent with _ | _ | _ | ⟨c', indent⟩ <;> rfl

variable {room args}

theorem eq_of_withIndent {s s' : Settings} (h : withIndent room args s = .ok s') :
    s' = { s with indent := s'.indent } ∧
      match textOf? args.indent with
      | some text => Settings.indentOfText room text = .ok s'.indent
      | none => s'.indent = s.indent := by
  unfold withIndent at h
  cases htext : textOf? args.indent with
  | none =>
    rw [htext] at h
    cases h
    exact ⟨rfl, rfl⟩
  | some text =>
    rw [htext] at h
    cases hindent : Settings.indentOfText room text with
    | error fault =>
      simp only [hindent] at h
      cases h
    | ok indent =>
      simp only [hindent] at h
      cases h
      exact ⟨rfl, hindent⟩

theorem applied_of_withIndent {loaded s : Settings}
    (h : withIndent room args (withMarker args loaded) = .ok s) {limit : Int}
    (hlimit : match args.maxDepth with
      | some (.given n) => Settings.depthOfInt n = .ok limit
      | some .dropped => False
      | none => limit = loaded.maxDepth) :
    Applied room args loaded { s with maxDepth := limit } := by
  obtain ⟨heq, hindent⟩ := eq_of_withIndent h
  rw [heq]
  exact ⟨rfl, hindent, hlimit, rfl, rfl, rfl, rfl⟩

end Options

section Stages

variable {machine : Machine} {args : Arguments}

/-- The options take the place of what they name in the loaded settings. -/
theorem isStage_applyOptions (loaded : Settings) :
    let applied := applyOptions machine.environment.room args loaded
    IsStage machine args (fun _ => Applied machine.environment.room args loaded applied.1)
      applied.2 := by
  dsimp only
  rw [applyOptions_eq]
  cases hindent : withIndent machine.environment.room args (withMarker args loaded) with
  | error fault => exact isStage_abort _ _
  | ok s =>
    cases hdepth : args.maxDepth with
    | none =>
      have hlimit : s.maxDepth = loaded.maxDepth := by
        rw [(eq_of_withIndent hindent).1]
        rfl
      exact isStage_pure _ (applied_of_withIndent hindent (by rw [hdepth]; exact hlimit))
    | some value =>
      cases value with
      | dropped => exact isStage_abort _ _
      | given n =>
        cases hlimit : Settings.depthOfInt n with
        | error fault =>
          simp only [hlimit]
          exact isStage_fail _ (.depth hdepth hlimit)
        | ok limit =>
          simp only [hlimit]
          exact isStage_pure _ (applied_of_withIndent hindent (by rw [hdepth]; exact hlimit))

theorem projectOf_eq (path : Path) :
    projectOf machine args path =
      match textOf? args.project with
      | some text => pure (Path.ofText text)
      | none => Run.ofResult ((machine.tree.projectRoot path).mapError fun e => .abort (.path e)) := by
  obtain ⟨file, project, libraries, copy, marker, indent, maxDepth, check, verbosity⟩ := args
  rcases project with _ | _ | _ | ⟨c, project⟩ <;> rfl

theorem isStage_projectOf :
    IsStage machine args (IsProject machine args) (projectOf machine args (Path.ofText args.file)) := by
  rw [projectOf_eq]
  unfold IsProject
  cases textOf? args.project with
  | some text => exact isStage_pure _ rfl
  | none => exact isStage_ofResult _ _

theorem isStage_librariesOf :
    IsStage machine args
      (fun paths => ∃ libraries : List Text,
        args.libraries = libraries.map .given ∧ paths = libraries.map Path.ofText)
      (librariesOf args) := by
  unfold librariesOf
  induction args.libraries with
  | nil => exact isStage_pure _ ⟨[], rfl, rfl⟩
  | cons value values ih =>
    rw [List.mapM_cons]
    cases value with
    | dropped => exact isStage_abort _ _
    | given library =>
      refine IsStage.bind (isStage_pure (· = Path.ofText library) rfl) ?_
      rintro path rfl
      refine ih.bind ?_
      rintro paths ⟨libraries, hlibraries, rfl⟩
      exact isStage_pure _ ⟨library :: libraries, by rw [hlibraries, List.map_cons], rfl⟩

end Stages

/-! ## The command -/

/-- The end of a run: what has happened in the run of the command is put out, and what its end leads
to. -/
def conclude (indexing : List LogEntry)
    (run : Run Command.Occurrence (Command.Failure CatalogError ClipboardError) (Option Text)) :
    Run Output Stop Nat := do
  Run.emitAll (outputOf indexing run.events)
  match run.result with
  | .error (.lookup (.inaccessible fault)) => Run.ofResult (.error (.abort (.path fault)))
  | .error (.delivery (.brokenOff fault)) => Run.ofResult (.error (.abort (.delivery fault)))
  | ending => do
    Run.emitAll (outputOf [] (Command.closing describe ending))
    pure (if ending.isOk then 0 else 1)

theorem generateFor_eq (machine : Machine) {args : Arguments} (settings : Settings) {path : Path}
    {doc : Document} (hcopy : args.copy = false)
    (hdoc : Document.load .standard machine.tree path true = .ok doc) :
    generateFor machine args settings path = (do
      let project ← projectOf machine args path
      put (log .info "cli".toList ("Resolving nested types under ".toList ++ project.toText))
      let libraries ← librariesOf args
      let index := (ProjectScope.ofSettings settings [project] libraries).index .standard machine.tree
      conclude index.events (Command.deliver settings (Catalog.ofResult index.result)
        (Clipboard.print machine.outputFault?) machine.now doc)) := by
  unfold generateFor clipboardOf
  simp only [hdoc, hcopy]
  rfl

section Conclude

variable {indexing : List LogEntry} {trace : List Command.Occurrence}

theorem conclude_of_ok (returned : Option Text) :
    conclude indexing ⟨trace, .ok returned⟩ =
      ⟨outputOf indexing trace ++ outputOf [] (Command.closing describe (.ok returned)), .ok 0⟩ := by
  show (⟨outputOf indexing trace ++ (outputOf [] (Command.closing describe (.ok returned)) ++ []),
    .ok 0⟩ : Run Output Stop Nat) = _
  rw [List.append_nil]

/-- Whether a failure of the command is reported, rather than aborting the run. -/
def IsReported : Command.Failure CatalogError ClipboardError → Prop
  | .lookup (.inaccessible _) | .delivery (.brokenOff _) => False
  | _ => True

theorem conclude_of_error {f : Command.Failure CatalogError ClipboardError} (h : IsReported f) :
    conclude indexing ⟨trace, .error f⟩ =
      ⟨outputOf indexing trace ++ reportFailure "Error processing record".toList (describe f),
        .ok 1⟩ := by
  unfold conclude
  rw [Run.bind_ok rfl]
  split
  · rename_i fault hfault
    cases hfault
    exact h.elim
  · rename_i fault hfault
    cases hfault
    exact h.elim
  · rw [Run.bind_ok rfl, Run.pure_eq, List.append_nil]
    rfl

theorem conclude_of_inaccessible (fault : PathError) :
    (conclude indexing ⟨trace, .error (.lookup (.inaccessible fault))⟩).result =
      .error (.abort (.path fault)) := rfl

end Conclude

theorem ofResult_index (scope : ProjectScope) (t : FileTree) :
    Catalog.ofResult (scope.index .standard t).result = ProjectCatalog.answerNew scope t :=
  funext fun name => (ProjectCatalog.answerNew_eq scope t name).symm

section Deliver

variable {machine : Machine} {args : Arguments} (x : Setup machine args)

/-- The run of the command in a run of the program. -/
def Setup.invocation : Command.Invocation CatalogError ClipboardError :=
  ⟨Catalog.ofResult (x.scope.index .standard machine.tree).result,
    Clipboard.print machine.outputFault?, x.document⟩

theorem Setup.generation_eq (d : Declaration) :
    x.invocation.generation x.settings machine.now d = generate (x.context d) d := by
  unfold Command.Invocation.generation Setup.invocation Setup.context
  rw [ofResult_index]

theorem errorLine_processing (message : Text) :
    errorLine ("Error processing record: ".toList ++ message) =
      .error ("Error: ".toList ++ "Error processing record".toList ++ ": ".toList ++ message ++
        ['\n']) := by
  have hsplit : "Error processing record: ".toList =
      "Error processing record".toList ++ ": ".toList := rfl
  unfold errorLine
  rw [hsplit]
  simp only [List.append_assoc]

/-- What happens while a skeleton is generated is not printed. -/
theorem printed_generated (i : Command.Invocation CatalogError ClipboardError) (settings : Settings)
    (moment : Moment) (d : Declaration) :
    (Command.generated settings moment i d).flatMap Command.Occurrence.printed = [] := by
  refine List.flatMap_eq_nil_iff.2 fun o ho => ?_
  unfold Command.generated at ho
  rcases List.mem_cons.1 ho with rfl | ho
  · rfl
  rcases List.mem_cons.1 ho with rfl | ho
  · rfl
  obtain ⟨event, -, rfl⟩ := List.mem_map.1 ho
  rfl

theorem print_of_fault {outputFault? : Text → Option DeliveryFault} {text : Text} {fault : DeliveryFault}
    (h : outputFault? (text ++ ['\n']) = some fault) :
    Clipboard.print outputFault? text = .ofResult (.error (.brokenOff fault)) := by
  unfold Clipboard.print
  rw [h]

theorem print_of_none {outputFault? : Text → Option DeliveryFault} {text : Text}
    (h : outputFault? (text ++ ['\n']) = none) :
    Clipboard.print outputFault? text = Run.emit (.standard (text ++ ['\n'])) := by
  unfold Clipboard.print
  rw [h]

/-- A skeleton that is printed is all that is printed, and the run ends with status 0. -/
theorem conclude_of_printed {i : Command.Invocation CatalogError ClipboardError}
    {settings : Settings} {moment : Moment} {d : Declaration} {text : Text}
    (hprint : i.clipboard text = Run.emit (.standard (text ++ ['\n'])))
    (htarget : i.document.target? settings.marker = some d)
    (hgenerated : (i.generation settings moment d).result = .ok text) (indexing : List LogEntry) :
    let run := conclude indexing
      (Command.deliver settings i.catalog i.clipboard moment i.document)
    endingOf run.result = .ok 0 ∧ standardText run.events = text ++ ['\n'] := by
  dsimp only
  rw [Command.deliver_of_ok htarget hgenerated, hprint]
  change endingOf (conclude indexing ⟨_, .ok (some text)⟩).result = _ ∧
    standardText (conclude indexing ⟨_, .ok (some text)⟩).events = _
  rw [conclude_of_ok]
  refine ⟨rfl, ?_⟩
  rw [standardText_append, standardText_outputOf, List.flatMap_append,
    printed_generated i settings moment d]
  show [] ++ ([] ++ ((text ++ ['\n']) ++ [])) ++ [] = text ++ ['\n']
  simp only [List.append_nil, List.nil_append]

/-- The command prints the skeleton of the document's target, or nothing. -/
theorem accounts_command (indexing : List LogEntry) :
    Accounts machine args (conclude indexing (Command.deliver x.settings x.invocation.catalog
      x.invocation.clipboard machine.now x.invocation.document)) := by
  intro status hstatus
  cases htarget : x.invocation.document.target? x.settings.marker with
  | none =>
    rw [Command.deliver_of_idle htarget, conclude_of_ok] at hstatus ⊢
    cases hstatus
    refine .idle x (Document.target?_eq_none_iff.1 htarget) ?_
    rw [standardText_append, standardText_outputOf]
    rfl
  | some d =>
    have hsilent := printed_generated x.invocation x.settings machine.now d
    cases hgenerated : (x.invocation.generation x.settings machine.now d).result with
    | error e =>
      rw [Command.deliver_of_error htarget hgenerated] at hstatus ⊢
      by_cases hown : e.isOwn = true
      · have hreported : IsReported (.lookup e) := by
          cases e with
          | inaccessible fault => cases hown
          | _ => trivial
        rw [conclude_of_error hreported] at hstatus ⊢
        cases hstatus
        rw [x.generation_eq] at hgenerated
        refine .failed (.lookup x htarget hgenerated hown) (List.mem_append_right _ ?_) ?_
        · rw [errorLine_processing]
          exact List.mem_cons_of_mem _ (List.mem_singleton_self _)
        · rw [standardText_append, standardText_outputOf, hsilent]
          rfl
      · cases e with
        | inaccessible fault =>
          rw [conclude_of_inaccessible] at hstatus
          cases hstatus
        | _ => exact absurd rfl hown
    | ok text =>
      cases hfault : machine.outputFault? (text ++ ['\n']) with
      | some fault =>
        have hprint : x.invocation.clipboard text = _ := print_of_fault hfault
        rw [Command.deliver_of_ok htarget hgenerated, hprint] at hstatus
        cases hstatus
      | none =>
        obtain ⟨hending, hout⟩ :=
          conclude_of_printed (print_of_none hfault) htarget hgenerated indexing
        cases hending.symm.trans hstatus
        rw [x.generation_eq] at hgenerated
        exact .printed x htarget hgenerated hout

end Deliver

/-! ## Runs -/

section Runs

variable {machine : Machine} {args : Arguments} {loaded s : Settings}
  (hloaded : (Settings.load machine.tree machine.environment).result = .ok loaded)
  (happlied : Applied machine.environment.room args loaded s)

include hloaded happlied in
theorem accounts_generateFor (hcopy : args.copy = false) :
    Accounts machine args (generateFor machine args s (Path.ofText args.file)) := by
  cases hdoc : Document.load .standard machine.tree (Path.ofText args.file) true with
  | error e =>
    unfold generateFor
    rw [hdoc]
    exact accounts_fail (.unloaded hdoc)
  | ok doc =>
    rw [generateFor_eq machine s hcopy hdoc]
    refine isStage_projectOf.accounts_bind fun project hproject => ?_
    refine (isStage_log _ _ _).accounts_bind fun _ _ => ?_
    refine isStage_librariesOf.accounts_bind ?_
    rintro _ ⟨libraries, hlibraries, rfl⟩
    exact accounts_command ⟨loaded, s, doc, project, libraries, hloaded, happlied, hdoc, hproject,
      hlibraries⟩ _

include hloaded happlied in
theorem accounts_runFile (hcheck : args.check = false) (hcopy : args.copy = false) :
    Accounts machine args (runFile machine args s) := by
  unfold runFile
  refine (isStage_ofResult _ _).accounts_bind fun isFile hisFile => ?_
  cases isFile with
  | false => exact accounts_fail (.missing hisFile)
  | true =>
    rw [hcheck]
    exact accounts_generateFor hloaded happlied hcopy

end Runs

section First

variable {machine : Machine} {argv : List Text} {args : Arguments}
  (hargs : Arguments.ofList argv = .ok args)

/-- What is logged while the settings are loaded. -/
def loadingLog (machine : Machine) : List Output :=
  ((Settings.load machine.tree machine.environment).events.map Settings.Dropped.logEntry).map .log

theorem events_settingsOf (machine : Machine) :
    (settingsOf machine none).events = loadingLog machine := by
  unfold loadingLog
  rw [List.map_map]
  rfl

theorem settingsOf_eq_ok {loaded : Settings}
    (h : (Settings.load machine.tree machine.environment).result = .ok loaded)
    (kept : Option Settings) : (settingsOf machine kept).result = .ok (kept.getD loaded) := by
  cases kept with
  | some s => rfl
  | none =>
    show (Settings.load machine.tree machine.environment).result.mapError _ = _
    rw [h]
    rfl

theorem settingsOf_eq_error {fault : LoadingFault}
    (h : (Settings.load machine.tree machine.environment).result = .error fault) :
    (settingsOf machine none).result = .error (.abort (.loading fault)) := by
  show (Settings.load machine.tree machine.environment).result.mapError _ = _
  rw [h]
  rfl

include hargs in
theorem ending_of_loading_error {fault : LoadingFault}
    (h : (Settings.load machine.tree machine.environment).result = .error fault) :
    (run machine none argv).ending = .error (.loading fault) := by
  unfold run
  simp only [hargs, settingsOf_eq_error h]
  rfl

include hargs in
/-- In the first run the options are applied to the loaded settings before the file is looked at. -/
theorem run_of_loaded {loaded : Settings}
    (h : (Settings.load machine.tree machine.environment).result = .ok loaded) :
    let applied := applyOptions machine.environment.room args loaded
    let rest := applied.2 >>= fun _ => runFile machine args applied.1
    (run machine none argv).output = loadingLog machine ++ rest.events ∧
      (run machine none argv).ending = endingOf rest.result := by
  unfold run
  simp only [hargs, settingsOf_eq_ok h, Option.getD_none, events_settingsOf, and_self]

end First

/-- The first run of the program, on arguments without a check and without a copy: when it returns, it
has printed the skeleton of the document's target, or it has printed nothing because there is no target,
or it has failed, with nothing printed and a line on the error output. -/
theorem run_returns (machine : Machine) {argv : List Text} {args : Arguments}
    (hargs : Arguments.ofList argv = .ok args) (hcheck : args.check = false)
    (hcopy : args.copy = false) {status : Nat}
    (hstatus : (run machine none argv).ending = .ok status) :
    Returns machine args status (run machine none argv).output := by
  cases hloaded : (Settings.load machine.tree machine.environment).result with
  | error fault =>
    rw [ending_of_loading_error hargs hloaded] at hstatus
    cases hstatus
  | ok loaded =>
    obtain ⟨houtput, hending⟩ := run_of_loaded hargs hloaded
    rw [hending] at hstatus
    rw [houtput]
    have haccounts := (isStage_applyOptions loaded).accounts_bind fun _ happlied =>
      accounts_runFile hloaded happlied hcheck hcopy
    exact (haccounts status hstatus).append (standardText_map_log _)

/-! ## A run -/

section Point

/-- The text of the only file of a machine. -/
def pointSource : Text := "record Point(int x, int y) \x7b\x7d".toList

/-- A machine with one file, which is in the working directory. -/
def pointMachine : Machine where
  tree :=
    { root := .directory [("Point.java".toList, .file (Utf8.encode pointSource))]
      current := [] }
  environment := { home? := some ['/'], room := 1024 }
  programs := ⟨fun _ => false, fun _ _ => .missing⟩
  now := ⟨2024, 3, 5, 14, 7, 9, 123456, none⟩
  outputFault? _ := none

/-- The file, with the working directory as the directory of the project. -/
def pointArguments : Arguments := { file := "Point.java".toList, project := some (.given ['.']) }

def pointDeclaration : Declaration where
  name := "Point".toList
  kind := .record
  source := pointSource
  editable := true
  constructors := []
  location := some "Point.java".toList
  nested := false

def pointDocument : Document := ⟨some "Point.java".toList, pointSource, [pointDeclaration]⟩

/-- The skeleton of the file with an indent. -/
def pointIndented (indent : Text) : Text :=
  renderObject ["\"x\": 0".toList, "\"y\": 0".toList] 1 indent

theorem place_point :
    pointMachine.tree.place (Path.ofText pointArguments.file) =
      .ok ⟨FileTree.linkLimit, ["Point.java".toList], .file (Utf8.encode pointSource)⟩ := by
  have hpath : Path.ofText pointArguments.file = ⟨0, ["Point.java".toList]⟩ := by decide
  have hroot : ReadableAt ⟨0, []⟩ pointMachine.tree.root :=
    .single (by decide) (by decide) (.file _ (by decide))
  rw [hpath]
  exact FileTree.place_from_root (fun _ => rfl) hroot (Access.grants_full _ _) rfl

theorem load_point :
    Document.load .standard pointMachine.tree (Path.ofText pointArguments.file) true =
      .ok pointDocument := by
  have hread : pointMachine.tree.read (Path.ofText pointArguments.file) =
      .ok (Utf8.encode pointSource) := by
    unfold FileTree.read
    rw [place_point]
    rfl
  have hdetect : (FormatRegistry.standard.detect? (Path.ofText pointArguments.file).name).isSome =
      true := by decide +kernel
  have hparse : Java.declarations (Utf8.unifyLineEnds pointSource)
      (some (Path.ofText pointArguments.file).toText) true = [pointDeclaration] := by decide +kernel
  obtain ⟨format, hformat⟩ := Option.isSome_iff_exists.1 hdetect
  obtain rfl := ProjectScope.detect?_standard hformat
  unfold Document.load
  simp only [hformat, hread, Utf8.decode_eq_ok_iff.2 rfl]
  show Except.ok (Document.mk _ _ (Java.declarations _ _ _)) = _
  rw [hparse]
  rfl

theorem generate_point {ctx : Context CatalogError} (hmarker : ctx.marker = "JsonCreator".toList)
    (hdepth : ctx.depth = 1) :
    (generate ctx pointDeclaration).result = .ok (pointIndented ctx.indent) := by
  have hlist : pointDeclaration.fieldList? "JsonCreator".toList = some "int x, int y".toList := by
    decide +kernel
  have hfields : Field.listOfText "int x, int y".toList =
      [⟨"x".toList, "int".toList⟩, ⟨"y".toList, "int".toList⟩] := by decide +kernel
  have htype : TypeExpr.ofText "int".toList = .plain "int".toList :=
    TypeExpr.ofText_name (by decide) (by decide)
  rw [generate_eq]
  unfold generateWith
  simp only [hmarker, hlist, hfields, hdepth, List.mapM_cons, List.mapM_nil, htype, resolve,
    resolvePlain]
  rfl

theorem conclude_point {s : Settings} (hmarker : s.marker = "JsonCreator".toList)
    (indexing : List LogEntry) (catalog : Catalog CatalogError) :
    let run := conclude indexing
      (Command.deliver s catalog (Clipboard.print pointMachine.outputFault?) pointMachine.now
        pointDocument)
    endingOf run.result = .ok 0 ∧ standardText run.events = pointIndented s.indent ++ ['\n'] := by
  have htarget : pointDocument.target? s.marker = some pointDeclaration := by
    rw [hmarker]
    decide +kernel
  let i : Command.Invocation CatalogError ClipboardError :=
    ⟨catalog, Clipboard.print pointMachine.outputFault?, pointDocument⟩
  have hgenerated : (i.generation s pointMachine.now pointDeclaration).result =
      .ok (pointIndented s.indent) := generate_point hmarker rfl
  exact conclude_of_printed (i := i) rfl htarget hgenerated indexing

theorem runFile_point {s : Settings} (hmarker : s.marker = "JsonCreator".toList) :
    let run := runFile pointMachine pointArguments s
    endingOf run.result = .ok 0 ∧ standardText run.events = pointIndented s.indent ++ ['\n'] := by
  have hisFile : pointMachine.tree.isFile (Path.ofText pointArguments.file) = .ok true := by
    unfold FileTree.isFile FileTree.holds
    rw [place_point]
    rfl
  let index := (ProjectScope.ofSettings s [Path.ofText ['.']] []).index .standard pointMachine.tree
  unfold runFile
  simp only [hisFile]
  show endingOf (generateFor pointMachine pointArguments s _).result = .ok 0 ∧
    standardText (generateFor pointMachine pointArguments s _).events = _
  rw [generateFor_eq pointMachine s rfl load_point]
  exact conclude_point hmarker index.events (Catalog.ofResult index.result)

/-- The arguments as they are written. -/
def pointLine : List Text := ["Point.java".toList, "-p".toList, ['.']]

theorem ofList_pointLine : Arguments.ofList pointLine = .ok pointArguments := by decide +kernel

/-- There is no configuration file, and nothing is set in the environment. -/
theorem load_pointSettings :
    (Settings.load pointMachine.tree pointMachine.environment).result = .ok {} := by
  have hplace : Settings.filePath pointMachine.environment =
      .ok ⟨1, [".config".toList, "jsonskel".toList, "config.toml".toList]⟩ := by decide +kernel
  have hpath : pointMachine.tree.hasPath
      ⟨1, [".config".toList, "jsonskel".toList, "config.toml".toList]⟩ = .ok false :=
    FileTree.hasPath_of_missing (FileTree.place_of_missing (Node.at?_nil _) rfl (by decide) rfl
      (by decide) (by decide) (by decide)) rfl
  rw [Settings.load_of_startsFrom hplace (.absent hpath)]
  rfl

theorem applyOptions_point (room : Nat) (s : Settings) :
    applyOptions room pointArguments s = (s, pure ()) := by
  rw [applyOptions_eq]
  rfl

theorem ending_point : (run pointMachine none pointLine).ending = .ok 0 := by
  rw [(run_of_loaded ofList_pointLine load_pointSettings).2, applyOptions_point]
  exact (runFile_point rfl).1

/-- The file is found, and its skeleton is printed. -/
theorem run_returns_point :
    Arguments.ofList pointLine = .ok pointArguments ∧ pointArguments.check = false ∧
      pointArguments.copy = false ∧ (run pointMachine none pointLine).ending = .ok 0 ∧
      Returns pointMachine pointArguments 0 (run pointMachine none pointLine).output :=
  ⟨ofList_pointLine, rfl, rfl, ending_point,
    run_returns pointMachine ofList_pointLine rfl rfl ending_point⟩

end Point

end Program

end RecordSkeleton
