import RecordSkeleton.Text.Integer
import RecordSkeleton.Toml.Value

/-!
# TOML lexemes

Reading the smallest parts of a TOML document: blanks and comments, strings, keys, dates, times and
numbers. Each reader takes a text and gives what it has read with the rest of the text.
-/

namespace RecordSkeleton.Toml

open Text

/-- Why a text is no TOML document. -/
inductive Fault where
  /-- It does not follow the grammar, or sets something twice. -/
  | syntaxFault
  | numeral (fault : Integer.Fault)
  deriving DecidableEq, Repr

/-- A reader of one part of a document. -/
abbrev Reader (α : Type) := Text → Except Fault (α × Text)

/-- The fault of a text that does not follow the grammar. -/
def refuse {α : Type} : Except Fault α := .error .syntaxFault

/-! ## Blanks and comments -/

/-- The blanks within a line. -/
def isSpace (c : Char) : Bool := c == ' ' || c == '\t'

/-- The text without the blanks at its front. -/
def skipSpaces (s : Text) : Text := s.dropWhile isSpace

/-- The control characters that stand nowhere in a document but between lines. -/
def isControl (c : Char) : Bool := (c.toNat < 0x20 && c != '\t') || c.toNat == 0x7F

/-- The text behind a comment, up to the end of its line. -/
def skipComment (s : Text) : Except Fault Text :=
  match s with
  | '#' :: r =>
    if (r.takeWhile (· != '\n')).any isControl then refuse else .ok (r.dropWhile (· != '\n'))
  | _ => .ok s

/-- The text behind blanks, line ends and comments, which may stand between the items of an array;
at most `n` lines are skipped. -/
def skipLines : Nat → Text → Except Fault Text
  | 0, s => .ok s
  | n + 1, s =>
    match s.dropWhile fun c => isSpace c || c == '\n' with
    | '#' :: r => do skipLines n (← skipComment ('#' :: r))
    | r => .ok r

/-! ## Strings -/

/-- The characters that hexadecimal digits stand for, if they are digits. -/
def hexValue? (ds : Text) : Option Nat :=
  ds.foldl (fun n? c => n?.bind fun n =>
    if c.isDigit then some (n * 16 + (c.toNat - '0'.toNat))
    else if 'a' ≤ c && c ≤ 'f' then some (n * 16 + (c.toNat - 'a'.toNat) + 10)
    else if 'A' ≤ c && c ≤ 'F' then some (n * 16 + (c.toNat - 'A'.toNat) + 10)
    else none) (some 0)

/-- The character given by its code point in so many hexadecimal digits. -/
def hexChar? (width : Nat) (s : Text) : Option Char :=
  if (s.take width).length = width then
    (hexValue? (s.take width)).bind fun n =>
      if n.isValidChar then some (Char.ofNat n) else none
  else none

/-- The character that a letter behind a backslash stands for. -/
def escaped? : Char → Option Char
  | 'b' => some '\x08'
  | 't' => some '\t'
  | 'n' => some '\n'
  | 'f' => some '\x0c'
  | 'r' => some '\r'
  | '"' => some '"'
  | '\\' => some '\\'
  | _ => none

/-- What comes next in a string. -/
inductive Piece where
  /-- The quotes that end it, with the text behind them. -/
  | close (rest : Text)
  /-- A character, written in so many. -/
  | char (c : Char) (length : Nat)
  /-- So many characters that stand for nothing. -/
  | gap (length : Nat)

/-- The next piece of a string between quotes of a kind, when it starts with a character that is no
backslash. Over several lines a string ends at three quotes, and may hold line feeds. -/
def plainPiece? (quote : Char) (multiline : Bool) (c : Char) (r : Text) : Option Piece :=
  if c = quote then
    if !multiline then some (.close r)
    else if r.take 2 = [quote, quote] then some (.close (r.drop 2))
    else some (.char c 1)
  else if isControl c && !(multiline && c == '\n') then none
  else some (.char c 1)

/-- What a backslash before a text stands for. Over several lines, a backslash at the end of a line
takes the blanks and line ends after it away. -/
def escapePiece? (multiline : Bool) (r : Text) : Option Piece :=
  if multiline && (r.dropWhile isSpace).head? == some '\n' then
    some (.gap ((r.takeWhile fun c => isSpace c || c == '\n').length + 1))
  else
    match r with
    | [] => none
    | 'u' :: r => (hexChar? 4 r).map (.char · 6)
    | 'U' :: r => (hexChar? 8 r).map (.char · 10)
    | e :: _ => (escaped? e).map (.char · 2)

/-- The next piece of a string between double quotes. -/
def basicPiece? (multiline : Bool) (c : Char) (r : Text) : Option Piece :=
  if c = '\\' then escapePiece? multiline r else plainPiece? '"' multiline c r

/-- The rest of a string of the given pieces, where so many characters are left out first. -/
def stringFrom (piece? : Char → Text → Option Piece) : Nat → Reader Text
  | _, [] => refuse
  | skip + 1, _ :: r => stringFrom piece? skip r
  | 0, c :: r =>
    match piece? c r with
    | none => refuse
    | some (.close rest) => .ok ([], rest)
    | some (.gap n) => stringFrom piece? (n - 1) r
    | some (.char d n) => (stringFrom piece? (n - 1) r).map fun (t, rest) => (d :: t, rest)

/-- The rest of a string between double quotes. -/
def basicFrom (multiline : Bool) : Reader Text := stringFrom (basicPiece? multiline) 0

/-- The rest of a string between single quotes. -/
def literalFrom (multiline : Bool) : Reader Text := stringFrom (plainPiece? '\'' multiline) 0

/-- Up to two quotes behind the three that end a string belong to the string. -/
def withExtraQuotes (quote : Char) (read : Text × Text) : Text × Text :=
  let extra := (read.2.take 2).takeWhile (· == quote)
  (read.1 ++ extra, read.2.drop extra.length)

/-- The text without a line feed at its front. -/
def skipLineFeed : Text → Text
  | '\n' :: r => r
  | s => s

/-- A string of any of the four kinds. -/
def string? (s : Text) : Option (Except Fault (Text × Text)) :=
  match s with
  | '"' :: '"' :: '"' :: r =>
    some ((basicFrom true (skipLineFeed r)).map (withExtraQuotes '"'))
  | '"' :: r => some (basicFrom false r)
  | '\'' :: '\'' :: '\'' :: r =>
    some ((literalFrom true (skipLineFeed r)).map (withExtraQuotes '\''))
  | '\'' :: r => some (literalFrom false r)
  | _ => none

/-! ## Keys -/

/-- The characters of a key without quotes. -/
def isBareKeyChar (c : Char) : Bool := c.isAlphanum || c == '-' || c == '_'

/-- One part of a key: a bare word or a string on one line. -/
def keyPart : Reader Text
  | '"' :: r => basicFrom false r
  | '\'' :: r => literalFrom false r
  | s =>
    match s.takeWhile isBareKeyChar with
    | [] => refuse
    | word => .ok (word, s.dropWhile isBareKeyChar)

/-- A key of at most `n` more parts, with dots between them. -/
def keyFrom : Nat → Reader (List Text)
  | 0, _ => refuse
  | n + 1, s => do
    let (part, r) ← keyPart s
    match skipSpaces r with
    | '.' :: r => do
      let (parts, r) ← keyFrom n (skipSpaces r)
      pure (part :: parts, r)
    | r => pure ([part], r)

/-- A key. -/
def key : Reader (List Text) := fun s => keyFrom (s.length + 1) s

/-! ## Dates and times -/

/-- A number of exactly so many digits between two bounds. -/
def fixedNumber? (width low high : Nat) (s : Text) : Option (Nat × Text) :=
  let ds := s.take width
  if ds.length = width ∧ ds.all Char.isDigit then
    let n := Binary64.digitsValue ds
    if low ≤ n ∧ n ≤ high then some (n, s.drop width) else none
  else none

/-- The text behind a character that must come first. -/
def expect? (c : Char) : Text → Option Text
  | d :: r => if c = d then some r else none
  | [] => none

/-- A fraction of a second, of which the first six digits count. -/
def fraction (s : Text) : Nat × Text :=
  match s with
  | '.' :: r =>
    let ds := r.takeWhile Char.isDigit
    if ds = [] then (0, s)
    else
      let kept := ds.take 6
      (Binary64.digitsValue kept * Nat.pow 10 (6 - kept.length), r.drop ds.length)
  | _ => (0, s)

/-- A time of day. -/
def time? (s : Text) : Option (Time × Text) := do
  let (hour, r) ← fixedNumber? 2 0 23 s
  let (minute, r) ← fixedNumber? 2 0 59 (← expect? ':' r)
  let (second, r) ← fixedNumber? 2 0 59 (← expect? ':' r)
  let (micro, r) := fraction r
  pure (⟨hour, minute, second, micro⟩, r)

/-- An offset from universal time, in minutes. -/
def offset? (s : Text) : Option (Int × Text) :=
  match s with
  | [] => none
  | c :: r =>
    if c = 'Z' ∨ c = 'z' then some (0, r)
    else if c = '+' ∨ c = '-' then do
      let (hour, r) ← fixedNumber? 2 0 23 r
      let (minute, r) ← fixedNumber? 2 0 59 (← expect? ':' r)
      let size : Int := hour * 60 + minute
      pure (if c = '-' then -size else size, r)
    else none

/-- A date, which need not be in the calendar. -/
def date? (s : Text) : Option (Date × Text) := do
  let (year, r) ← fixedNumber? 4 0 9999 s
  let (month, r) ← fixedNumber? 2 1 12 (← expect? '-' r)
  let (day, r) ← fixedNumber? 2 1 31 (← expect? '-' r)
  pure (⟨year, month, day⟩, r)

/-- The time of day behind a date, with its offset. -/
def timeOfDate? (s : Text) : Option (Time × Option Int × Text) :=
  match s with
  | [] => none
  | c :: r =>
    if c = 'T' ∨ c = 't' ∨ c = ' ' then
      (time? r).map fun (t, r) =>
        match offset? r with
        | some (o, r) => (t, some o, r)
        | none => (t, none, r)
    else none

/-- A date, a time, or both. -/
def moment? (s : Text) : Option (Except Fault (Value × Text)) :=
  match date? s with
  | some (d, r) =>
    if !d.isValid then some refuse
    else match timeOfDate? r with
      | some (t, o, r) => some (.ok (.dateTime d t o, r))
      | none => some (.ok (.date d, r))
  | none => (time? s).map fun (t, r) => .ok (.time t, r)

/-! ## Numbers -/

/-- The digits at the front of a text, with single underscores between two of them taken out, and
the rest. -/
def digitRun (isDigit : Char → Bool) : Text → Text × Text
  | '_' :: r => ([], '_' :: r)
  | c :: '_' :: d :: r =>
    if isDigit c then
      if isDigit d then
        let (ds, rest) := digitRun isDigit (d :: r)
        (c :: ds, rest)
      else ([c], '_' :: d :: r)
    else ([], c :: '_' :: d :: r)
  | c :: r =>
    if isDigit c then
      let (ds, rest) := digitRun isDigit r
      (c :: ds, rest)
    else ([], c :: r)
  | [] => ([], [])

/-- The value of digits in a base. -/
def baseValue (base : Nat) (ds : Text) : Nat :=
  ds.foldl (fun n c => n * base + (hexValue? [c]).getD 0) 0

/-- A whole number in base sixteen, eight or two. -/
def basedInteger? (s : Text) : Option (Nat × Text) :=
  let read (base : Nat) (isDigit : Char → Bool) (r : Text) : Option (Nat × Text) :=
    match digitRun isDigit r with
    | ([], _) => none
    | (ds, rest) => some (baseValue base ds, rest)
  match s with
  | '0' :: 'x' :: r => read 16 (fun c => (hexValue? [c]).isSome) r
  | '0' :: 'o' :: r => read 8 (fun c => '0' ≤ c && c ≤ '7') r
  | '0' :: 'b' :: r => read 2 (fun c => c == '0' || c == '1') r
  | _ => none

/-- The whole part of a decimal number: a single zero, or digits that do not start with one. -/
def wholePart? (s : Text) : Option (Text × Text) :=
  match s with
  | '0' :: r => some (['0'], r)
  | _ => match digitRun Char.isDigit s with
    | ([], _) => none
    | read => some read

/-- The fraction of a decimal number, with its point. -/
def fractionPart (s : Text) : Text × Text :=
  match s with
  | '.' :: r => match digitRun Char.isDigit r with
    | ([], _) => ([], s)
    | (ds, rest) => ('.' :: ds, rest)
  | _ => ([], s)

/-- The exponent of a decimal number, with its letter and sign. -/
def exponentPart (s : Text) : Text × Text :=
  match s with
  | e :: r =>
    if e = 'e' ∨ e = 'E' then
      let (sign, r) := match r with
        | '+' :: t => (['+'], t)
        | '-' :: t => (['-'], t)
        | t => ([], t)
      match digitRun Char.isDigit r with
      | ([], _) => ([], s)
      | (ds, rest) => (e :: sign ++ ds, rest)
    else ([], s)
  | [] => ([], [])

/-- A decimal number: a float when it has a fraction or an exponent, else a whole number, whose
digits are limited. -/
def decimal? (s : Text) : Option (Except Fault (Value × Text)) := do
  let (sign, r) := match s with
    | '+' :: t => (['+'], t)
    | '-' :: t => (['-'], t)
    | t => ([], t)
  let (whole, r) ← wholePart? r
  let (fraction, r) := fractionPart r
  let (exponent, r) := exponentPart r
  if fraction = [] ∧ exponent = [] then
    if Integer.digitLimit < whole.length then
      pure (.error (.numeral (.tooManyDigits whole.length)))
    else
      let n := Binary64.digitsValue whole
      pure (.ok (.integer (if sign = ['-'] then -(n : Int) else n), r))
  else pure (.ok (.float (Binary64.ofText (sign ++ whole ++ fraction ++ exponent)), r))

/-- An infinity or the number that is none. -/
def specialFloat? (s : Text) : Option (Value × Text) :=
  let (sign, r) := match s with
    | '+' :: t => (['+'], t)
    | '-' :: t => (['-'], t)
    | t => ([], t)
  let word := r.take 3
  if word = "inf".toList ∨ word = "nan".toList then
    some (.float (Binary64.ofText (sign ++ word)), r.drop 3)
  else none

/-- A number of any form. -/
def number? (s : Text) : Option (Except Fault (Value × Text)) :=
  match basedInteger? s with
  | some (n, r) => some (.ok (.integer n, r))
  | none => (decimal? s).or ((specialFloat? s).map .ok)

end RecordSkeleton.Toml
