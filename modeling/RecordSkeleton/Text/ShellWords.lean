import RecordSkeleton.Text.Basic

/-!
# Shell words

A command line is cut into words at spaces, tabs and line ends. Single quotes keep everything up to
the next one, double quotes too, except that a backslash in them escapes a double quote or another
backslash. Outside quotes a backslash keeps the character behind it. An empty pair of quotes is a
word of its own.
-/

namespace RecordSkeleton.ShellWords

/-- Why a command line cannot be cut into words. -/
inductive Fault where
  | unclosedQuote
  | danglingEscape
  deriving DecidableEq, Repr

/-- The message of a fault. -/
def Fault.message : Fault → Text
  | unclosedQuote => "No closing quotation".toList
  | danglingEscape => "No escaped character".toList

/-- The characters between words. -/
def separates (c : Char) : Bool := c == ' ' || c == '\t' || c == '\r' || c == '\n'

/-- A word with a text added to it; a word that has not begun begins with it. -/
def extend (word : Option Text) (s : Text) : Option Text := some (word.getD [] ++ s)

/-- The words of a text, where `quote` is the quote that is open at the front and `word` is what has
been read of the first word, if it has begun. -/
def wordsFrom (quote : Option Char) (word : Option Text) : Text → Except Fault (List Text)
  | [] =>
    match quote with
    | none => .ok word.toList
    | some _ => .error .unclosedQuote
  | c :: r =>
    if quote = some c then wordsFrom none word r
    else if c = '\\' ∧ quote ≠ some '\'' then
      match r with
      | [] => .error .danglingEscape
      | d :: t =>
        if quote = none ∨ d = '\\' ∨ d = '"' then wordsFrom quote (extend word [d]) t
        else wordsFrom quote (extend word [c, d]) t
    else if quote ≠ none then wordsFrom quote (extend word [c]) r
    else if separates c then (wordsFrom none none r).map (word.toList ++ ·)
    else if c = '"' ∨ c = '\'' then wordsFrom (some c) (extend word []) r
    else wordsFrom none (extend word [c]) r

/-- The words of a command line. -/
def split (s : Text) : Except Fault (List Text) := wordsFrom none none s

end RecordSkeleton.ShellWords
