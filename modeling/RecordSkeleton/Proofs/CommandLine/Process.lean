import RecordSkeleton.Proofs.CommandLine.Status

/-!
# Calls in one process

The program can be called several times in one process. The first call that needs the settings loads
them, and they are kept for the later calls, together with what each call's options have changed.

1. The options of a call replace some of the settings (`Program.applyOptions_fst`). What the calls so
   far have replaced stays in force, also that of a call which has failed (`Program.keptAfter_getD`).
2. A call depends on the settings only if it generates a skeleton (`Program.course_congr`).
3. So a call answers as one that is made first, unless it generates a skeleton and an option of an
   earlier call shows in its settings (`Program.runAll_answers`).
-/

namespace RecordSkeleton

namespace Program

open Output (standardText errorText standardText_append standardText_map_log)

/-! ## What options replace -/

/-- What options replace in settings. -/
structure Replacement where
  marker : Option Text := none
  indent : Option Text := none
  maxDepth : Option Int := none
  deriving DecidableEq, Repr

namespace Replacement

/-- Settings with what is replaced. -/
def applyTo (r : Replacement) (s : Settings) : Settings :=
  { s with
    marker := r.marker.getD s.marker
    indent := r.indent.getD s.indent
    maxDepth := r.maxDepth.getD s.maxDepth }

/-- Two replacements, one after the other. -/
def andThen (left own : Replacement) : Replacement where
  marker := own.marker.or left.marker
  indent := own.indent.or left.indent
  maxDepth := own.maxDepth.or left.maxDepth

/-- The depth limit that is given, if it is one. -/
def limitOf? : Option (OptionValue Int) → Option Int
  | some (.given n) => (Settings.depthOfInt n).toOption
  | _ => none

/-- What the options of the arguments replace, up to the first that cannot be used. -/
def ofArguments (room : Nat) (args : Arguments) : Replacement :=
  match (textOf? args.indent).map (Settings.indentOfText room) with
  | none => ⟨textOf? args.marker, none, limitOf? args.maxDepth⟩
  | some (.ok indent) => ⟨textOf? args.marker, some indent, limitOf? args.maxDepth⟩
  | some (.error _) => ⟨textOf? args.marker, none, none⟩

/-- What the arguments replace as they are written: nothing, if they are refused. -/
def ofLine (room : Nat) (argv : List Text) : Replacement :=
  match Arguments.ofList argv with
  | .ok args => ofArguments room args
  | .error _ => {}

/-- What has been replaced before shows behind `own`: something that `own` does not replace is not as
in the settings `s`. -/
def Shows (left own : Replacement) (s : Settings) : Prop :=
  (own.marker = none ∧ ∃ marker ∈ left.marker, marker ≠ s.marker) ∨
    (own.indent = none ∧ ∃ indent ∈ left.indent, indent ≠ s.indent) ∨
    own.maxDepth = none ∧ ∃ limit ∈ left.maxDepth, limit ≠ s.maxDepth

theorem applyTo_andThen (left own : Replacement) (s : Settings) :
    (left.andThen own).applyTo s = own.applyTo (left.applyTo s) := by
  unfold applyTo andThen
  simp only [Option.getD_or]

theorem getD_or_eq_iff {α : Type} (own left : Option α) (a : α) :
    (own.or left).getD a = own.getD a ↔ ¬ (own = none ∧ ∃ x ∈ left, x ≠ a) := by
  cases own <;> cases left <;> simp

/-- What has been replaced before makes a difference exactly if it shows. -/
theorem applyTo_applyTo_eq_iff {left own : Replacement} {s : Settings} :
    own.applyTo (left.applyTo s) = own.applyTo s ↔ ¬ left.Shows own s := by
  rw [← applyTo_andThen]
  unfold Shows
  rw [not_or, not_or, ← getD_or_eq_iff, ← getD_or_eq_iff, ← getD_or_eq_iff]
  unfold applyTo andThen
  simp only [Settings.mk.injEq, and_true, true_and]
  tauto

end Replacement

open Replacement (ofArguments ofLine)

section Options

variable (args : Arguments)

/-- The last of the options is applied to settings. -/
def withLimit (s : Settings) : Settings × Run Output Stop Unit :=
  match args.maxDepth with
  | none => (s, pure ())
  | some .dropped => (s, Run.ofResult (.error (.abort (.valueDropped .maxDepth))))
  | some (.given n) =>
    match Settings.depthOfInt n with
    | .ok d => ({ s with maxDepth := d }, pure ())
    | .error fault => (s, fail ("--max-depth: ".toList ++ fault.message))

theorem withLimit_fst (s : Settings) :
    (withLimit args s).1 =
      { s with maxDepth := (Replacement.limitOf? args.maxDepth).getD s.maxDepth } := by
  unfold withLimit Replacement.limitOf?
  rcases args.maxDepth with _ | _ | n
  · rfl
  · rfl
  · dsimp only
    cases Settings.depthOfInt n <;> rfl

theorem withLimit_snd (s s' : Settings) : (withLimit args s).2 = (withLimit args s').2 := by
  unfold withLimit
  rcases args.maxDepth with _ | _ | n
  · rfl
  · rfl
  · dsimp only
    cases Settings.depthOfInt n <;> rfl

/-- Applying the options replaces settings, also when one of the options cannot be used. -/
theorem applyOptions_fst (room : Nat) (s : Settings) :
    (applyOptions room args s).1 = (ofArguments room args).applyTo s := by
  rw [applyOptions_eq]
  unfold withIndent ofArguments
  cases textOf? args.indent with
  | none => exact withLimit_fst args (withMarker args s)
  | some text =>
    cases hindent : Settings.indentOfText room text with
    | error fault =>
      simp only [hindent, Option.map_some]
      rfl
    | ok indent =>
      simp only [hindent, Option.map_some]
      exact withLimit_fst args { withMarker args s with indent }

theorem applyOptions_snd (room : Nat) (s s' : Settings) :
    (applyOptions room args s).2 = (applyOptions room args s').2 := by
  rw [applyOptions_eq, applyOptions_eq]
  unfold withIndent
  cases textOf? args.indent with
  | none => exact withLimit_snd args _ _
  | some text =>
    cases hindent : Settings.indentOfText room text with
    | error fault =>
      simp only [hindent]
      rfl
    | ok indent =>
      simp only [hindent]
      exact withLimit_snd args _ _

end Options

/-! ## What a call depends on -/

section Course

variable {machine : Machine} {args : Arguments}

/-- Without a skeleton to generate, the settings make no difference. -/
theorem runFile_eq_of_unopened
    (h : ∀ doc, machine.tree.isFile (Path.ofText args.file) = .ok true → args.check = false →
      Document.load .standard machine.tree (Path.ofText args.file) true ≠ .ok doc)
    (s s' : Settings) : runFile machine args s = runFile machine args s' := by
  cases hisFile : machine.tree.isFile (Path.ofText args.file) with
  | error fault => rw [runFile_of_pathError hisFile, runFile_of_pathError hisFile]
  | ok there =>
    cases there with
    | false => rw [runFile_of_missing hisFile, runFile_of_missing hisFile]
    | true =>
      rw [runFile_of_isFile hisFile, runFile_of_isFile hisFile]
      cases hcheck : args.check with
      | true => rw [if_pos rfl, if_pos rfl]
      | false =>
        cases hdoc : Document.load .standard machine.tree (Path.ofText args.file) true with
        | error e => rw [generateFor_of_error hdoc, generateFor_of_error hdoc]
        | ok doc => exact absurd hdoc (h doc hisFile hcheck)

/-- What has been replaced in the settings shows in a call only if the call generates a skeleton. -/
theorem course_congr {left : Replacement} {loaded : Settings}
    (h : Nonempty (Opened machine args loaded) →
      ¬ left.Shows (ofArguments machine.environment.room args) loaded) :
    course machine args (left.applyTo loaded) = course machine args loaded := by
  have hsnd := applyOptions_snd args machine.environment.room (left.applyTo loaded) loaded
  obtain happlies | ⟨a, -, hstop⟩ | ⟨message, hstop⟩ := applyOptions_cases machine args loaded
  · rw [course_of_applies happlies, course_of_applies (hsnd.trans happlies), applyOptions_fst,
      applyOptions_fst]
    by_cases hopened : Nonempty (Opened machine args loaded)
    · rw [Replacement.applyTo_applyTo_eq_iff.2 (h hopened)]
    · exact runFile_eq_of_unopened (fun doc hisFile hcheck hdoc =>
        hopened ⟨⟨doc, happlies, hisFile, hcheck, hdoc⟩⟩) _ _
  · unfold course
    rw [hsnd, hstop, Run.bind_error rfl, Run.bind_error rfl]
  · unfold course
    rw [hsnd, hstop, Run.bind_error rfl, Run.bind_error rfl]

end Course

/-! ## The calls of a process -/

/-- A call of the program, with what the programs of the machine do by then, with the reading of the clock
and with what the standard output takes. -/
structure Launch where
  argv : List Text
  programs : Programs
  now : Moment
  outputFault? : Text → Option DeliveryFault

section Calls

variable (tree : FileTree) (environment : Environment)

/-- The machine on which a call is made. -/
def Launch.machine (c : Launch) : Machine :=
  ⟨tree, environment, c.programs, c.now, c.outputFault?⟩

/-- The report of a call, with the settings that are kept by then. -/
def Launch.report (kept : Option Settings) (c : Launch) : RunReport :=
  run (c.machine tree environment) kept c.argv

/-- The reports of calls in one process. -/
def runAll : Option Settings → List Launch → List RunReport
  | _, [] => []
  | kept, c :: later =>
    c.report tree environment kept :: runAll (c.report tree environment kept).settings later

/-- The settings that are kept after some calls. -/
def keptAfter (kept : Option Settings) (before : List Launch) : Option Settings :=
  before.foldl (fun kept c => (c.report tree environment kept).settings) kept

/-- What calls have replaced in the settings. The last call that replaces a setting has its way. -/
def leftBy (room : Nat) (before : List Launch) : Replacement :=
  before.foldl (fun left c => left.andThen (ofLine room c.argv)) {}

variable {tree environment}

theorem getElem?_runAll (kept : Option Settings) (before : List Launch) (c : Launch)
    (after : List Launch) :
    (runAll tree environment kept (before ++ c :: after))[before.length]? =
      some (c.report tree environment (keptAfter tree environment kept before)) := by
  induction before generalizing kept with
  | nil => rfl
  | cons b before ih => exact ih _

end Calls

/-! ## What is kept -/

section Kept

variable {machine : Machine} {kept : Option Settings} {argv : List Text} {args : Arguments}
  {loaded s : Settings}

theorem settings_run (hargs : Arguments.ofList argv = .ok args)
    (hs : (settingsOf machine kept).result = .ok s) :
    (run machine kept argv).settings =
      some ((ofArguments machine.environment.room args).applyTo s) := by
  rw [← applyOptions_fst]
  unfold run
  simp only [hargs, hs]

theorem run_of_refused {stop : UsageStop} (hargs : Arguments.ofList argv = .error stop) :
    run machine kept argv = { run machine none argv with settings := kept } := by
  unfold run
  simp only [hargs]
  cases stop <;> rfl

variable {tree : FileTree} {environment : Environment}

/-- One call replaces settings as its arguments say. -/
theorem settings_report (hloaded : (Settings.load tree environment).result = .ok loaded)
    (kept : Option Settings) (c : Launch) :
    ((c.report tree environment kept).settings).getD loaded =
      (ofLine environment.room c.argv).applyTo (kept.getD loaded) := by
  unfold Launch.report ofLine
  cases hargs : Arguments.ofList c.argv with
  | error stop =>
    rw [run_of_refused hargs]
    rfl
  | ok args =>
    have hs : (settingsOf (c.machine tree environment) kept).result = _ :=
      settingsOf_eq_ok hloaded kept
    rw [settings_run hargs hs]
    rfl

/-- The kept settings are the loaded ones with what all calls so far have replaced. -/
theorem keptAfter_getD (hloaded : (Settings.load tree environment).result = .ok loaded)
    (before : List Launch) :
    (keptAfter tree environment none before).getD loaded =
      (leftBy environment.room before).applyTo loaded := by
  -- The calls go on from any kept settings and from what has been replaced in them.
  suffices h : ∀ (kept : Option Settings) (left : Replacement),
      kept.getD loaded = left.applyTo loaded →
        (keptAfter tree environment kept before).getD loaded =
          (before.foldl (fun left c => left.andThen (ofLine environment.room c.argv)) left).applyTo
            loaded from
    h none {} rfl
  induction before with
  | nil => exact fun kept left hkept => hkept
  | cons c before ih =>
    intro kept left hkept
    refine ih _ _ ?_
    rw [settings_report hloaded, hkept, Replacement.applyTo_andThen]

theorem keptAfter_of_error {fault : LoadingFault}
    (hloaded : (Settings.load tree environment).result = .error fault) (before : List Launch) :
    keptAfter tree environment none before = none := by
  unfold keptAfter
  induction before with
  | nil => rfl
  | cons c before ih =>
    have hsettings : (c.report tree environment none).settings = none := by
      unfold Launch.report
      cases hargs : Arguments.ofList c.argv with
      | error stop => rw [run_of_refused hargs]
      | ok args =>
        have hfailed : (settingsOf (c.machine tree environment) none).result =
            .error (.abort (.loading fault)) := settingsOf_eq_error hloaded
        unfold run
        simp only [hargs, hfailed]
    rw [List.foldl_cons, hsettings]
    exact ih

end Kept

/-! ## Answers -/

/-- A call answers as a call that is made first in its process. Only what is logged while the settings
are loaded may be missing. -/
structure AnswersAs (machine : Machine) (report first : RunReport) : Prop where
  verbosity_eq : report.verbosity = first.verbosity
  ending_eq : report.ending = first.ending
  standardText_eq : standardText report.output = standardText first.output
  errorText_eq : errorText report.output = errorText first.output
  calls_eq : Output.calls report.output = Output.calls first.output
  output_eq : first.output = report.output ∨ first.output = loadingLog machine ++ report.output

/-- What a call does when others before it have replaced settings. -/
structure DoesAfter (left : Replacement) (machine : Machine) (args : Arguments) (loaded : Settings)
    (report first : RunReport) : Prop where
  /-- It goes on from the settings that the others have left, -/
  ending_eq : report.ending = endingOf (course machine args (left.applyTo loaded)).result
  output_eq : ∃ before, Quiet before ∧
    report.output = before ++ (course machine args (left.applyTo loaded)).events
  /-- leaves them with what its own options replace, -/
  settings_eq : report.settings =
    some ((left.andThen (ofArguments machine.environment.room args)).applyTo loaded)
  /-- and these are not the settings it would have had as the first call exactly if what the others have
  replaced shows. -/
  settings_ne_iff : report.settings ≠ first.settings ↔
    left.Shows (ofArguments machine.environment.room args) loaded

/-- A call generates a skeleton, and what has been replaced before shows in its settings. -/
def Influenced (left : Replacement) (machine : Machine) (argv : List Text) : Prop :=
  ∃ args loaded, Arguments.ofList argv = .ok args ∧
    (Settings.load machine.tree machine.environment).result = .ok loaded ∧
    Nonempty (Opened machine args loaded) ∧
    left.Shows (ofArguments machine.environment.room args) loaded

section Answers

variable {machine : Machine} {kept : Option Settings} {argv : List Text} {args : Arguments}
  {loaded : Settings} {left : Replacement}

theorem AnswersAs.of_output {report first : RunReport}
    (hverbosity : report.verbosity = first.verbosity) (hending : report.ending = first.ending)
    (h : first.output = report.output ∨ first.output = loadingLog machine ++ report.output) :
    AnswersAs machine report first := by
  obtain hsame | hlog := h
  · refine ⟨hverbosity, hending, ?_, ?_, ?_, .inl hsame⟩ <;> rw [hsame]
  · have hout := hlog
    unfold loadingLog at hout
    refine ⟨hverbosity, hending, ?_, ?_, ?_, .inr hlog⟩
    · rw [hout, standardText_append, standardText_map_log, List.nil_append]
    · rw [hout, Output.errorText_append, Output.errorText_map_log, List.nil_append]
    · rw [hout, Output.calls_append, Output.calls_map_log, List.nil_append]

theorem verbosity_run (hargs : Arguments.ofList argv = .ok args) (kept : Option Settings) :
    (run machine kept argv).verbosity = args.verbosity := by
  unfold run
  simp only [hargs]
  cases (settingsOf machine kept).result <;> rfl

theorem doesAfter_run (hargs : Arguments.ofList argv = .ok args)
    (hloaded : (Settings.load machine.tree machine.environment).result = .ok loaded)
    (hkept : kept.getD loaded = left.applyTo loaded) :
    DoesAfter left machine args loaded (run machine kept argv) (run machine none argv) := by
  have hs := settingsOf_eq_ok hloaded kept
  rw [hkept] at hs
  obtain ⟨hending, houtput⟩ := run_eq_course hargs hs
  have hsettings := settings_run hargs hs
  refine ⟨hending, ⟨_, quiet_settingsOf machine kept, houtput⟩, ?_, ?_⟩
  · rw [hsettings, Replacement.applyTo_andThen]
  · rw [hsettings, settings_run hargs (settingsOf_eq_ok hloaded none), Option.getD_none, ne_eq,
      Option.some.injEq, Replacement.applyTo_applyTo_eq_iff, not_not]

theorem answersAs_run (hargs : Arguments.ofList argv = .ok args)
    (hloaded : (Settings.load machine.tree machine.environment).result = .ok loaded)
    (hkept : kept.getD loaded = left.applyTo loaded)
    (h : Nonempty (Opened machine args loaded) →
      ¬ left.Shows (ofArguments machine.environment.room args) loaded) :
    AnswersAs machine (run machine kept argv) (run machine none argv) := by
  have hs := settingsOf_eq_ok hloaded kept
  rw [hkept] at hs
  obtain ⟨hending, houtput⟩ := run_eq_course hargs hs
  obtain ⟨hfirstEnding, hfirstOutput⟩ := run_eq_course hargs (settingsOf_eq_ok hloaded none)
  rw [course_congr h] at hending houtput
  rw [Option.getD_none] at hfirstEnding hfirstOutput
  refine .of_output ?_ (hending.trans hfirstEnding.symm) ?_
  · rw [verbosity_run hargs, verbosity_run hargs]
  · -- Only the call that loads the settings logs what is noted on the way.
    cases kept with
    | none => exact .inl (hfirstOutput.trans houtput.symm)
    | some s =>
      rw [events_settingsOf] at hfirstOutput
      exact .inr (hfirstOutput.trans (congrArg (loadingLog machine ++ ·) houtput.symm))

end Answers

/-- Calls in one process, with files and environment that stay as they are. A call answers as the same
call that is made first, unless it generates a skeleton and an option of an earlier call shows in its
settings. Each call with accepted arguments goes on from what the options of all earlier ones have
replaced, whatever became of these calls. -/
theorem runAll_answers (tree : FileTree) (environment : Environment) (before : List Launch)
    (c : Launch) (after : List Launch) :
    let machine := c.machine tree environment
    let first := run machine none c.argv
    ∃ report, (runAll tree environment none (before ++ c :: after))[before.length]? = some report ∧
      (¬ Influenced (leftBy environment.room before) machine c.argv →
        AnswersAs machine report first) ∧
      ∀ args loaded, Arguments.ofList c.argv = .ok args →
        (Settings.load tree environment).result = .ok loaded →
          DoesAfter (leftBy environment.room before) machine args loaded report first := by
  intro machine first
  refine ⟨_, getElem?_runAll none before c after, fun h => ?_, fun args loaded hargs hloaded =>
    doesAfter_run hargs hloaded (keptAfter_getD hloaded before)⟩
  unfold Launch.report
  cases hargs : Arguments.ofList c.argv with
  | error stop =>
    rw [run_of_refused hargs]
    exact .of_output rfl rfl (.inl rfl)
  | ok args =>
    cases hloaded : (Settings.load tree environment).result with
    | error fault =>
      rw [keptAfter_of_error hloaded]
      exact .of_output rfl rfl (.inl rfl)
    | ok loaded =>
      exact answersAs_run hargs hloaded (keptAfter_getD hloaded before)
        fun hopened hshows => h ⟨args, loaded, hargs, hloaded, hopened, hshows⟩

/-! ## Two calls -/

section Point

/-- A call on the machine with one file. -/
def pointLaunch (options : List Text) : Launch :=
  ⟨pointLine ++ options, pointMachine.programs, pointMachine.now, pointMachine.outputFault?⟩

/-- An indent, and a depth limit that is none. -/
def rejectedOptions : List Text := ["--indent".toList, ['2'], "--max-depth".toList, ['0']]

def rejectedArguments : Arguments :=
  { pointArguments with indent := some (.given ['2']), maxDepth := some (.given 0) }

theorem ofList_rejected :
    Arguments.ofList (pointLaunch rejectedOptions).argv = .ok rejectedArguments := by decide +kernel

theorem leftBy_rejected :
    leftBy pointMachine.environment.room [pointLaunch rejectedOptions] =
      { indent := some [' ', ' '] } := by
  have hline : ofLine pointMachine.environment.room (pointLaunch rejectedOptions).argv =
      { indent := some [' ', ' '] } := by
    unfold ofLine
    rw [ofList_rejected]
    decide +kernel
  unfold leftBy
  rw [List.foldl_cons, List.foldl_nil, hline]
  rfl

theorem standardText_of_quiet {output : List Output} (h : Quiet output) : standardText output = [] :=
  List.flatMap_eq_nil_iff.2 fun o ho => by
    obtain ⟨entry, rfl⟩ := h o ho
    rfl

theorem run_point {kept : Option Settings}
    (hmarker : (kept.getD {}).marker = "JsonCreator".toList) :
    (run pointMachine kept pointLine).ending = .ok 0 ∧
      standardText (run pointMachine kept pointLine).output =
        pointIndented (kept.getD {}).indent ++ ['\n'] := by
  obtain ⟨hending, houtput⟩ :=
    run_eq_course ofList_pointLine (settingsOf_eq_ok load_pointSettings kept)
  have hoptions := applyOptions_point pointMachine.environment.room (kept.getD {})
  rw [course_of_applies (congrArg Prod.snd hoptions), hoptions] at hending houtput
  obtain ⟨hstatus, hout⟩ := runFile_point hmarker
  refine ⟨hending.trans hstatus, ?_⟩
  rw [houtput, standardText_append, standardText_of_quiet (quiet_settingsOf _ _), hout]
  rfl

theorem run_rejected :
    (run pointMachine none (pointLaunch rejectedOptions).argv).ending = .ok 1 ∧
      standardText (run pointMachine none (pointLaunch rejectedOptions).argv).output = [] := by
  obtain ⟨hending, houtput⟩ :=
    run_eq_course ofList_rejected (settingsOf_eq_ok load_pointSettings none)
  have hoptions : (applyOptions pointMachine.environment.room rejectedArguments {}).2 =
      fail ("--max-depth: ".toList ++ (SettingFault.depthTooSmall 0).message) := by
    have hindent : withIndent pointMachine.environment.room rejectedArguments
        (withMarker rejectedArguments {}) = .ok { indent := [' ', ' '] } := by decide +kernel
    rw [applyOptions_eq, hindent]
    rfl
  have hcourse : course pointMachine rejectedArguments {} =
      fail ("--max-depth: ".toList ++ (SettingFault.depthTooSmall 0).message) := by
    unfold course
    rw [hoptions, Run.bind_error rfl]
    rfl
  rw [Option.getD_none, hcourse] at hending houtput
  refine ⟨hending, ?_⟩
  rw [houtput, standardText_append, standardText_of_quiet (quiet_settingsOf _ _)]
  rfl

/-- The first call is rejected with status 1. The indent that it was given is the indent of the second
one, which indents with tabs as the first call of a process. -/
theorem runAll_rejectedIndent :
    let reports := runAll pointMachine.tree pointMachine.environment none
      [pointLaunch rejectedOptions, pointLaunch []]
    reports.map (·.ending) = [.ok 1, .ok 0] ∧
      reports.map (fun report => standardText report.output) =
        [[], "\x7b\n  \"x\": 0,\n  \"y\": 0\n\x7d\n".toList] ∧
      standardText (run pointMachine none (pointLaunch []).argv).output =
        "\x7b\n\t\"x\": 0,\n\t\"y\": 0\n\x7d\n".toList := by
  let kept := keptAfter pointMachine.tree pointMachine.environment none [pointLaunch rejectedOptions]
  have hkept : kept.getD {} = { indent := [' ', ' '] } := by
    rw [keptAfter_getD load_pointSettings, leftBy_rejected]
    rfl
  obtain ⟨hending, hout⟩ := @run_point kept (by rw [hkept])
  rw [hkept] at hout
  obtain ⟨-, hfirst⟩ := @run_point none rfl
  refine ⟨?_, ?_, hfirst⟩
  · show [_, (run pointMachine kept pointLine).ending] = _
    rw [hending]
    exact congrArg (fun ending => [ending, .ok 0]) run_rejected.1
  · show [_, standardText (run pointMachine kept pointLine).output] = _
    rw [hout]
    exact congrArg (fun text => [text, _]) run_rejected.2

/-- A call with an indent of its own, behind one with another indent. -/
theorem runAll_answers_ownIndent :
    let before := [pointLaunch rejectedOptions]
    let c := pointLaunch ["--indent".toList, "tab".toList]
    let args := { pointArguments with indent := some (.given "tab".toList) }
    let first := run pointMachine none c.argv
    let left := leftBy pointMachine.environment.room before
    ¬ Influenced left pointMachine c.argv ∧ Arguments.ofList c.argv = .ok args ∧
      ∃ report, (runAll pointMachine.tree pointMachine.environment none (before ++ [c]))[1]? =
          some report ∧
        AnswersAs pointMachine report first ∧
        DoesAfter left pointMachine args {} report first := by
  intro before c args first left
  have hargs : Arguments.ofList c.argv = .ok args := by decide +kernel
  have hnot : ¬ Influenced left pointMachine c.argv := by
    rintro ⟨args', loaded, hargs', -, -, hshows⟩
    cases hargs.symm.trans hargs'
    rw [show left = _ from leftBy_rejected] at hshows
    obtain ⟨-, _, h, -⟩ | ⟨h, -⟩ | ⟨-, _, h, -⟩ := hshows
    · cases h
    · cases h
    · cases h
  obtain ⟨report, hreport, hanswers, hdoes⟩ :=
    runAll_answers pointMachine.tree pointMachine.environment before c []
  exact ⟨hnot, hargs, report, hreport, hanswers hnot, hdoes args {} hargs load_pointSettings⟩

end Point

end Program

end RecordSkeleton
