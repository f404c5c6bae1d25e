import RecordSkeleton.Text.Integer

/-!
# Command line arguments

The program takes one file and some options. A long option may be shortened as long as it stays
unambiguous, short options may be written together, and a value may follow its option or be joined
to it. After two hyphens everything is a file.

1. `Arguments.classify` tells options from other arguments; an argument that starts with a hyphen is
   none when it is a negative number or holds a space, unless it fits an option.
2. `Arguments.collect` goes through the classified arguments from left to right; each step uses up
   at least one of them.
-/

namespace RecordSkeleton

open Text

/-- The options of the program. -/
inductive CliOption where
  | help
  | project
  /-- A library directory; may be given several times. -/
  | library
  /-- Copies instead of printing. -/
  | copy
  /-- The marker of the canonical constructor. -/
  | marker
  | indent
  | maxDepth
  /-- Only reports whether there is a type to generate for. -/
  | check
  /-- Logs more; counts. -/
  | verbose
  deriving DecidableEq, Repr

namespace CliOption

/-- The written forms of the options, in the order in which they are looked through. -/
def forms : List (Text × CliOption) :=
  [("-h".toList, help), ("--help".toList, help), ("--project".toList, project),
    ("-p".toList, project), ("--library".toList, library), ("-l".toList, library),
    ("--copy".toList, copy), ("-c".toList, copy), ("--marker".toList, marker),
    ("--indent".toList, indent), ("--max-depth".toList, maxDepth), ("--check".toList, check),
    ("--verbose".toList, verbose), ("-v".toList, verbose)]

/-- Whether an option takes a value. -/
def takesValue : CliOption → Bool
  | project | library | marker | indent | maxDepth => true
  | help | copy | check | verbose => false

/-- All forms of an option, as they are shown in messages. -/
def shown (o : CliOption) : Text :=
  join ['/'] ((forms.filter fun f => f.2 == o).map (·.1))

end CliOption

/-- The value of an option. -/
inductive OptionValue (α : Type) where
  /-- Nothing: the option takes none, or two hyphens are joined to it. -/
  | dropped
  | given (value : α)
  deriving DecidableEq, Repr

/-- What the arguments ask for. -/
structure Arguments where
  file : Text := []
  project : Option (OptionValue Text) := none
  libraries : List (OptionValue Text) := []
  copy : Bool := false
  /-- The marker of the canonical constructor. -/
  marker : Option (OptionValue Text) := none
  indent : Option (OptionValue Text) := none
  maxDepth : Option (OptionValue Int) := none
  check : Bool := false
  verbosity : Nat := 0
  deriving DecidableEq, Repr

/-- Why arguments are refused. -/
inductive UsageFault where
  /-- A shortened option fits several ones. -/
  | ambiguous (given : Text) (candidates : List Text)
  | missingValue (option : CliOption)
  /-- An option that takes no value has one joined to it. -/
  | unexpectedValue (option : CliOption) (value : Text)
  | noInteger (option : CliOption) (value : Text)
  | missingFile
  | leftOver (arguments : List Text)
  deriving DecidableEq, Repr

/-- The message of a usage fault. -/
def UsageFault.message : UsageFault → Text
  | ambiguous given candidates =>
    "ambiguous option: ".toList ++ given ++ " could match ".toList ++ join [',', ' '] candidates
  | missingValue option =>
    "argument ".toList ++ option.shown ++ ": expected one argument".toList
  | unexpectedValue option value =>
    "argument ".toList ++ option.shown ++ ": ignored explicit argument ".toList ++ quoted value
  | noInteger option value =>
    "argument ".toList ++ option.shown ++ ": invalid int value: ".toList ++ quoted value
  | missingFile => "the following arguments are required: file".toList
  | leftOver arguments => "unrecognized arguments: ".toList ++ join [' '] arguments

/-- Why reading arguments ends without a result. -/
inductive UsageStop where
  | fault (f : UsageFault)
  | help
  deriving DecidableEq, Repr

namespace Arguments

/-! ## Classifying -/

/-- The form and the value of an option as it is written. -/
structure Written where
  option : CliOption
  short : Bool
  /-- The value that is joined to it. -/
  value : Option Text
  deriving DecidableEq, Repr

/-- What an argument is taken for. -/
inductive Class where
  /-- A file, or the value of the option before it. -/
  | plain (s : Text)
  /-- Two hyphens, behind which everything is plain. -/
  | divider
  | option (w : Written)
  /-- Something that looks like an option and is none. -/
  | unknown (s : Text)
  deriving DecidableEq, Repr

/-- Whether a text is a negative number: a hyphen and decimal digits with at most one point, which
digits follow. A line feed at the end does not count. -/
def isNegativeNumber (s : Text) : Bool :=
  let isDecimal (c : Char) : Bool := (decimalValue? c).isSome
  match s with
  | '-' :: r =>
    let r := if r.getLast? = some '\n' then r.dropLast else r
    match r.dropWhile isDecimal with
    | [] => r ≠ []
    | '.' :: t => t ≠ [] && t.all isDecimal
    | _ => false
  | _ => false

/-- Whether a form starts with a single hyphen. -/
def isShort (form : Text) : Bool := form.drop 1 |>.head?.any (· != '-')

/-- The options that an argument may be short for, each with its form. -/
def candidates (s : Text) : List (Text × Written) :=
  if isShort s then
    CliOption.forms.filterMap fun (form, o) =>
      if form = s.take 2 then some (form, ⟨o, true, some (s.drop 2)⟩) else none
  else
    let start := s.takeWhile (· != '=')
    let value := if '=' ∈ s then some (s.drop (start.length + 1)) else none
    CliOption.forms.filterMap fun (form, o) =>
      if start.isPrefixOf form then some (form, ⟨o, false, value⟩) else none

/-- What an argument in front of any divider is taken for. -/
def classify (s : Text) : Except UsageFault Class :=
  if s.head? ≠ some '-' then .ok (.plain s)
  else match CliOption.forms.lookup s with
  | some o => .ok (.option ⟨o, isShort s, none⟩)
  | none =>
    if s.length = 1 then .ok (.plain s)
    else
      let form := s.takeWhile (· != '=')
      match if '=' ∈ s then CliOption.forms.lookup form else none with
      | some o => .ok (.option ⟨o, isShort form, some (s.drop (form.length + 1))⟩)
      | none =>
        match candidates s with
        | [(_, w)] => .ok (.option w)
        | [] => .ok (if isNegativeNumber s || ' ' ∈ s then .plain s else .unknown s)
        | several => .error (.ambiguous s (several.map (·.1)))

/-- What the arguments are taken for. -/
def classifyAll : List Text → Except UsageFault (List Class)
  | [] => .ok []
  | s :: rest =>
    if s = ['-', '-'] then .ok (.divider :: rest.map .plain)
    else do
      let c ← classify s
      let cs ← classifyAll rest
      pure (c :: cs)

/-! ## Collecting -/

/-- The arguments so far, with what is still missing or left over. -/
structure Progress where
  result : Arguments := {}
  hasFile : Bool := false
  extras : List Text := []

/-- Applies an option with its value, if it takes one. -/
def Progress.apply (p : Progress) (o : CliOption) (value : OptionValue Text) :
    Except UsageStop Progress :=
  let set (a : Arguments) : Except UsageStop Progress := .ok { p with result := a }
  match o with
  | .help => .error .help
  | .project => set { p.result with project := some value }
  | .library => set { p.result with libraries := p.result.libraries ++ [value] }
  | .copy => set { p.result with copy := true }
  | .marker => set { p.result with marker := some value }
  | .indent => set { p.result with indent := some value }
  | .maxDepth =>
    match value with
    | .dropped => set { p.result with maxDepth := some .dropped }
    | .given s =>
      match Integer.read s with
      | .ok n => set { p.result with maxDepth := some (.given n) }
      | .error _ => .error (.fault (.noInteger o s))
  | .check => set { p.result with check := true }
  | .verbose => set { p.result with verbosity := p.result.verbosity + 1 }

/-- What an option as it is written leads to. -/
inductive Reading where
  /-- These options, each with its value. -/
  | complete (options : List (CliOption × OptionValue Text))
  /-- These options without values, and one that takes its value from the next argument. -/
  | awaits (options : List CliOption) (last : CliOption)

/-- A reading with an option that takes no value in front. -/
def Reading.cons (o : CliOption) : Reading → Reading
  | complete options => complete ((o, .dropped) :: options)
  | awaits options last => awaits (o :: options) last

/-- The value that is joined to an option. -/
def joinedValue (s : Text) : OptionValue Text := if s = ['-', '-'] then .dropped else .given s

/-- Reads short options written together: the letters behind an option `o` that takes no value. What
follows the first letter whose option takes a value is that value. -/
def readLetters (o : CliOption) : Text → Except UsageFault Reading
  | [] => .ok (.complete [(o, .dropped)])
  | c :: r =>
    match CliOption.forms.lookup ['-', c] with
    | none => .error (.unexpectedValue o (c :: r))
    | some next =>
      if next.takesValue then
        .ok (if r = [] then .awaits [o] next
          else .complete [(o, .dropped), (next, joinedValue r)])
      else (readLetters next r).map (.cons o)

/-- Reads an option as it is written. -/
def Written.read (w : Written) : Except UsageFault Reading :=
  match w.option.takesValue, w.value with
  | true, some v => .ok (.complete [(w.option, joinedValue v)])
  | true, none => .ok (.awaits [] w.option)
  | false, none => .ok (.complete [(w.option, .dropped)])
  | false, some v =>
    if w.short && v ≠ [] then readLetters w.option v
    else .error (.unexpectedValue w.option v)

/-- Applies options in order. -/
def Progress.applyAll (p : Progress) (options : List (CliOption × OptionValue Text)) :
    Except UsageStop Progress :=
  options.foldlM (fun p (o, v) => p.apply o v) p

/-- Whether another option, or something that looks like one, follows. -/
def hasOption (cs : List Class) : Bool :=
  cs.any fun
    | .option _ | .unknown _ => true
    | _ => false

/-- The written form of an argument that is no option. -/
def Class.text : Class → Text
  | plain s | unknown s => s
  | divider => ['-', '-']
  | option _ => []

/-- Takes up the arguments behind the last option: the file, with a divider before or behind it, and
arguments that are left over. -/
def Progress.finish (p : Progress) (cs : List Class) : Progress :=
  let withFile (s : Text) (rest : List Class) : Progress :=
    { result := { p.result with file := s }, hasFile := true,
      extras := p.extras ++ rest.map Class.text }
  match p.hasFile, cs with
  | false, .divider :: .plain s :: rest => withFile s rest
  | false, .plain s :: .divider :: rest => withFile s rest
  | false, .plain s :: rest => withFile s rest
  | _, rest => { p with extras := p.extras ++ rest.map Class.text }

/-- Takes up the arguments from left to right. -/
def Progress.collect (p : Progress) : List Class → Except UsageStop Progress
  | [] => .ok p
  | c :: cs =>
    if hasOption (c :: cs) then
      match c with
      | .plain s =>
        if p.hasFile then Progress.collect { p with extras := p.extras ++ [s] } cs
        else Progress.collect { p with result := { p.result with file := s }, hasFile := true } cs
      | .divider => .ok (p.finish (c :: cs))
      | .unknown s => Progress.collect { p with extras := p.extras ++ [s] } cs
      | .option w =>
        match w.read with
        | .error f => .error (.fault f)
        | .ok (.complete options) =>
          match p.applyAll options with
          | .error stop => .error stop
          | .ok p => Progress.collect p cs
        | .ok (.awaits options last) =>
          match cs with
          | .plain v :: rest =>
            match p.applyAll (options.map (·, .dropped) ++ [(last, .given v)]) with
            | .error stop => .error stop
            | .ok p => Progress.collect p rest
          | _ => .error (.fault (.missingValue last))
    else .ok (p.finish (c :: cs))

/-- Reads the arguments of the program. -/
def ofList (args : List Text) : Except UsageStop Arguments := do
  let cs ← (classifyAll args).mapError UsageStop.fault
  let p ← Progress.collect {} cs
  if !p.hasFile then .error (.fault .missingFile)
  else if p.extras ≠ [] then .error (.fault (.leftOver p.extras))
  else pure p.result

end Arguments

end RecordSkeleton
