import RecordSkeleton.Text.Utf8
import RecordSkeleton.Toml.Lexeme

/-!
# TOML documents

A document is a sequence of lines that set keys, open tables and add tables to arrays. Reading one
gives a table, or the first fault. A key is set once, a table is opened once, and an inline table or
array is closed to later lines.

1. Every reader of a nested value gets a number of steps that the length of the text bounds; a value
   uses up at least one character for two steps (`readValue`).
-/

namespace RecordSkeleton.Toml

open Text

/-- The entries of a table, in the order in which their keys were set. -/
abbrev Entries := List (Text × Value)

/-! ## Tables inside tables -/

/-- Replaces the value of a key that is there. -/
def Entries.replace (es : Entries) (key : Text) (v : Value) : Entries :=
  es.map fun e => if e.1 = key then (key, v) else e

/-- Changes the table that a key path leads to; tables that are missing on the way are added, and an
array of tables stands for its last table when `throughArrays`. There is no result when something
else is in the way, or when the change has none. -/
def alter (throughArrays : Bool) (change : Entries → Option Entries) :
    List Text → Entries → Option Entries
  | [], es => change es
  | k :: path, es =>
    match es.lookup k with
    | none => (alter throughArrays change path []).map fun inner => es ++ [(k, .table inner)]
    | some (.table inner) =>
      (alter throughArrays change path inner).map fun inner => es.replace k (.table inner)
    | some (.array items) =>
      match throughArrays, items.getLast? with
      | true, some (.table inner) =>
        (alter throughArrays change path inner).map fun inner =>
          es.replace k (.array (items.dropLast ++ [.table inner]))
      | _, _ => none
    | some _ => none

/-- Sets a key that is not there yet. -/
def setNew (key : Text) (v : Value) (es : Entries) : Option Entries :=
  if (es.lookup key).isSome then none else some (es ++ [(key, v)])

/-- Adds an empty table to the array of a key, which is added if it is missing. -/
def addTable (key : Text) (es : Entries) : Option Entries :=
  match es.lookup key with
  | none => some (es ++ [(key, .array [.table []])])
  | some (.array items) => some (es.replace key (.array (items ++ [.table []])))
  | some _ => none

/-- The part of a key path before its last key. -/
def parentOf (path : List Text) : List Text := path.dropLast

/-- The last key of a path. -/
def stemOf (path : List Text) : Text := path.getLast?.getD []

/-- Whether a value is closed to later lines. -/
def isClosed : Value → Bool
  | .array _ | .table _ => true
  | _ => false

/-- Whether a path leads to or into one of the closed paths. -/
def isFrozen (frozen : List (List Text)) (path : List Text) : Bool :=
  frozen.any (·.isPrefixOf path)

/-! ## Values -/

mutual

/-- Reads a value in at most so many steps. -/
def readValue : Nat → Reader Value
  | 0, _ => refuse
  | n + 1, s =>
    match string? s with
    | some read => read.map fun (t, r) => (.text t, r)
    | none =>
      if "true".toList.isPrefixOf s then .ok (.boolean true, s.drop 4)
      else if "false".toList.isPrefixOf s then .ok (.boolean false, s.drop 5)
      else match s with
        | '[' :: r => (readItems n [] r).map fun (items, r) => (.array items, r)
        | '{' :: r =>
          match skipSpaces r with
          | '}' :: r => .ok (.table [], r)
          | r => (readPairs n [] [] r).map fun (es, r) => (.table es, r)
        | _ => ((moment? s).or (number? s)).getD refuse

/-- Reads the items of an array that follow the given ones, and its closing bracket. -/
def readItems : Nat → List Value → Reader (List Value)
  | 0, _, _ => refuse
  | n + 1, items, s => do
    match ← skipLines s.length s with
    | ']' :: r => pure (items, r)
    | r => do
      let (v, r) ← readValue n r
      match ← skipLines r.length r with
      | ']' :: r => pure (items ++ [v], r)
      | ',' :: r => readItems n (items ++ [v]) r
      | _ => refuse

/-- Reads the entries of an inline table that follow the given ones, and its closing brace. -/
def readPairs : Nat → List (List Text) → Entries → Reader Entries
  | 0, _, _, _ => refuse
  | n + 1, frozen, es, s => do
    let (path, v, r) ← readPair n s
    if isFrozen frozen path then refuse
    else match alter false (setNew (stemOf path) v) (parentOf path) es with
      | none => refuse
      | some es =>
        match skipSpaces r with
        | '}' :: r => pure (es, r)
        | ',' :: r => readPairs n (if isClosed v then path :: frozen else frozen) es (skipSpaces r)
        | _ => refuse

/-- Reads a key path, an equals sign and a value. -/
def readPair : Nat → Text → Except Fault (List Text × Value × Text)
  | 0, _ => refuse
  | n + 1, s => do
    match ← key s with
    | (path, '=' :: r) => do
      let (v, r) ← readValue n (skipSpaces r)
      pure (path, v, r)
    | _ => refuse

end

/-! ## Lines -/

/-- What has been read of a document. -/
structure State where
  entries : Entries := []
  /-- The path of the table that keys are set in. -/
  header : List Text := []
  /-- The paths of tables that cannot be opened any more. -/
  opened : List (List Text) := []
  /-- The paths that will be closed to opening at the next header. -/
  pending : List (List Text) := []
  /-- The paths of inline values, closed with all that is below. -/
  frozen : List (List Text) := []

namespace State

/-- Closes the pending paths to opening. -/
def settle (st : State) : State := { st with opened := st.opened ++ st.pending, pending := [] }

/-- Opens the table of a path. -/
def openTable (st : State) (path : List Text) : Option State :=
  if path ∈ st.opened ∨ isFrozen st.frozen path then none
  else (alter true some path st.entries).map fun es =>
    { st with entries := es, header := path, opened := path :: st.opened }

/-- Adds a table to the array of a path; what is known of the paths below it is forgotten. -/
def openItem (st : State) (path : List Text) : Option State :=
  if isFrozen st.frozen path then none
  else (alter true (addTable (stemOf path)) (parentOf path) st.entries).map fun es =>
    { st with
      entries := es
      header := path
      opened := path :: st.opened.filter fun p => !path.isPrefixOf p
      frozen := st.frozen.filter fun p => !path.isPrefixOf p }

/-- The paths from the header to the tables that a dotted key passes through. -/
def passed (st : State) (path : List Text) : List (List Text) :=
  (List.range (path.length - 1)).map fun i => st.header ++ path.take (i + 1)

/-- Sets a key path, counted from the header. -/
def set (st : State) (path : List Text) (v : Value) : Option State :=
  let parent := st.header ++ parentOf path
  if (st.passed path).any (· ∈ st.opened) ∨ isFrozen st.frozen parent then none
  else (alter true (setNew (stemOf path) v) parent st.entries).map fun es =>
    { st with
      entries := es
      pending := st.pending ++ st.passed path
      frozen := if isClosed v then (st.header ++ path) :: st.frozen else st.frozen }

end State

/-- The result of a change that may be refused. -/
def orRefuse {α : Type} : Option α → Except Fault α
  | some a => .ok a
  | none => refuse

/-- Reads one statement, which starts at the front of the text and is no comment. -/
def readStatement (st : State) (s : Text) : Except Fault (State × Text) :=
  match s with
  | '[' :: '[' :: r => do
    let (path, r) ← key (skipSpaces r)
    let st ← orRefuse (st.settle.openItem path)
    match r with
    | ']' :: ']' :: r => pure (st, r)
    | _ => refuse
  | '[' :: r => do
    let (path, r) ← key (skipSpaces r)
    let st ← orRefuse (st.settle.openTable path)
    match r with
    | ']' :: r => pure (st, r)
    | _ => refuse
  | _ => do
    let (path, v, r) ← readPair (2 * s.length + 2) s
    let st ← orRefuse (st.set path v)
    pure (st, r)

/-- Reads at most so many lines. -/
def readLines : Nat → State → Text → Except Fault Entries
  | 0, _, _ => refuse
  | n + 1, st, s => do
    match skipSpaces s with
    | [] => pure st.entries
    | '\n' :: r => readLines n st r
    | c :: t => do
      let (st, r) ← if c = '#' then pure (st, c :: t) else readStatement st (c :: t)
      match ← skipComment (skipSpaces r) with
      | [] => pure st.entries
      | '\n' :: r => readLines n st r
      | _ => refuse

/-- The text with each carriage return before a line feed left out. -/
def unixLines : Text → Text
  | '\r' :: '\n' :: r => '\n' :: unixLines r
  | c :: r => c :: unixLines r
  | [] => []

/-- Reads a document. -/
def read (s : Text) : Except Fault Entries :=
  readLines (s.length + 1) {} (unixLines s)

end RecordSkeleton.Toml
