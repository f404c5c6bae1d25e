/-!
# Texts

A text is a list of code points, so every offset, length and count in the library is in code points.
This module holds the blank characters and what is cut along them: `Text.trim` removes them at both
ends and `Text.words` splits at them.

1. Trimming on the left gives nothing or a text that starts with a non-blank character
   (`Text.head_trimLeft`).
2. No cut makes a text longer (`Text.length_trim_le`).
-/

namespace RecordSkeleton

/-- A sequence of code points. -/
abbrev Text := List Char

-- Whether a text is a member of a list is decided with these.
instance : LawfulBEq Text := inferInstanceAs (LawfulBEq (List Char))

instance : LawfulBEq (List Text) := inferInstanceAs (LawfulBEq (List (List Char)))

namespace Text

/-- The length of a text in bytes of UTF-8. -/
def byteLength (s : Text) : Nat := s.foldr (fun c n => c.utf8Size + n) 0

/-- The characters of a text from offset `start` up to offset `stop`. -/
def slice (s : Text) (start stop : Nat) : Text := (s.drop start).take (stop - start)

/-- The character in front of an offset. -/
def charBefore? (s : Text) : Nat → Option Char
  | 0 => none
  | pos + 1 => s[pos]?

/-! ## Blanks -/

/-- The characters that count as blank: the ASCII blanks and separators, and the spaces and line
separators of the other blocks. -/
def isBlank (c : Char) : Bool :=
  let n := c.toNat
  (9 ≤ n && n ≤ 13) || (28 ≤ n && n ≤ 32) || n == 0x85 || n == 0xA0 || n == 0x1680 ||
    (0x2000 ≤ n && n ≤ 0x200A) || n == 0x2028 || n == 0x2029 || n == 0x202F || n == 0x205F ||
    n == 0x3000

/-- The text without its leading blanks. -/
def trimLeft (s : Text) : Text := s.dropWhile isBlank

/-- The text without its trailing blanks. -/
def trimRight (s : Text) : Text := (s.reverse.dropWhile isBlank).reverse

/-- The text without the blanks at its ends. -/
def trim (s : Text) : Text := trimRight (trimLeft s)

theorem length_dropWhile_le (p : Char → Bool) (s : Text) : (s.dropWhile p).length ≤ s.length :=
  (List.dropWhile_suffix p).length_le

theorem length_trimLeft_le (s : Text) : (trimLeft s).length ≤ s.length :=
  length_dropWhile_le _ s

theorem length_trimRight_le (s : Text) : (trimRight s).length ≤ s.length := by
  simpa [trimRight] using length_dropWhile_le isBlank s.reverse

theorem length_trim_le (s : Text) : (trim s).length ≤ s.length :=
  Nat.le_trans (length_trimRight_le _) (length_trimLeft_le s)

/-- What is left after trimming on the left starts with no blank. -/
theorem head_trimLeft (s : Text) (c : Char) (h : (trimLeft s).head? = some c) :
    isBlank c = false := by
  have := List.head?_dropWhile_not isBlank s
  rw [trimLeft] at h
  rw [h] at this
  simpa using this

theorem trimLeft_of_head {c : Char} {s : Text} (h : isBlank c = false) :
    trimLeft (c :: s) = c :: s := by
  simp [trimLeft, h]

/-- Trimming on the left a second time changes nothing. -/
@[simp] theorem trimLeft_trimLeft (s : Text) : trimLeft (trimLeft s) = trimLeft s := by
  cases h : trimLeft s with
  | nil => rfl
  | cons c r => exact trimLeft_of_head (head_trimLeft s c (by rw [h]; rfl))

/-! ## Words -/

/-- Puts a word before others, unless it is empty. -/
def consWord (w : Text) (ws : List Text) : List Text := if w.isEmpty then ws else w :: ws

/-- The word that starts right at the front, empty before a blank, and the words after it. -/
def wordsFrom : Text → Text × List Text
  | [] => ([], [])
  | c :: r =>
    let (w, ws) := wordsFrom r
    if isBlank c then ([], consWord w ws) else (c :: w, ws)

/-- The maximal runs of non-blank characters, in order. -/
def words (s : Text) : List Text :=
  let (w, ws) := wordsFrom s
  consWord w ws

/-! ## Joining -/

/-- The texts in order, with `sep` between two neighbours. -/
def join (sep : Text) (parts : List Text) : Text := (parts.intersperse sep).flatten

end Text

end RecordSkeleton
