import RecordSkeleton.Text.Numeral
import RecordSkeleton.Text.Quoted

/-!
# UTF-8

Decoding of bytes into code points. Decoding is strict, with the place and the cause of the first
fault (`Utf8.decode`), or lossy, with one replacement character for each faulty sequence
(`Utf8.decodeLossy`). A faulty sequence is the longest one that could still have begun a character,
and at least one byte.

1. Reading one character, or one faulty sequence, uses up at least one byte (`Utf8.read_lt`).
-/

namespace RecordSkeleton.Utf8

/-- Why a sequence of bytes is no character. -/
inductive Cause where
  /-- No character starts with this byte. -/
  | startByte
  /-- A byte follows that does not go on with the character. -/
  | continuationByte
  | endOfData
  deriving DecidableEq, Repr

/-- A faulty sequence of bytes. -/
structure Fault where
  start : Nat
  byte : UInt8
  length : Nat
  cause : Cause
  deriving DecidableEq, Repr

/-- What a first byte announces: the number of bytes that follow, the least and the greatest second
byte, and the bits that the first byte adds to the code point. -/
structure Lead where
  following : Nat
  low : Nat
  high : Nat
  /-- The bits of the code point in the first byte. -/
  bits : Nat

/-- What a byte announces when a character starts with it. -/
def lead? (b : UInt8) : Option Lead :=
  let n := b.toNat
  if n < 0x80 then some ⟨0, 0x80, 0xBF, n⟩
  else if n < 0xC2 then none
  else if n < 0xE0 then some ⟨1, 0x80, 0xBF, n - 0xC0⟩
  else if n < 0xF0 then
    some ⟨2, if n = 0xE0 then 0xA0 else 0x80, if n = 0xED then 0x9F else 0xBF, n - 0xE0⟩
  else if n < 0xF5 then
    some ⟨3, if n = 0xF0 then 0x90 else 0x80, if n = 0xF4 then 0x8F else 0xBF, n - 0xF0⟩
  else none

/-- Reads up to `n` continuation bytes, the first between `low` and `high`: how many there are, the
code point after their bits are added to `bits`, and the rest. -/
def continuation (low high : Nat) (bits : Nat) : Nat → List UInt8 → Nat × Nat × List UInt8
  | n + 1, b :: r =>
    if low ≤ b.toNat ∧ b.toNat ≤ high then
      let (k, point, rest) := continuation 0x80 0xBF (bits * 64 + (b.toNat - 0x80)) n r
      (k + 1, point, rest)
    else (0, bits, b :: r)
  | _, s => (0, bits, s)

/-- Reads the first character of the bytes `b :: r`: the character, or the cause and the length of a
fault, and the rest. -/
def read (b : UInt8) (r : List UInt8) : Except (Cause × Nat) Char × List UInt8 :=
  match lead? b with
  | none => (.error (.startByte, 1), r)
  | some l =>
    let (k, point, rest) := continuation l.low l.high l.bits l.following r
    if k = l.following then (.ok (Char.ofNat point), rest)
    else (.error (if rest.isEmpty then .endOfData else .continuationByte, k + 1), rest)

theorem length_continuation_le (low high bits n : Nat) (s : List UInt8) :
    (continuation low high bits n s).2.2.length ≤ s.length := by
  induction n generalizing low high bits s with
  | zero => simp [continuation]
  | succ n ih =>
    cases s with
    | nil => simp [continuation]
    | cons b r =>
      rw [continuation]
      split
      · exact Nat.le_succ_of_le (ih 0x80 0xBF (bits * 64 + (b.toNat - 0x80)) r)
      · exact Nat.le_refl _

/-- Reading uses up at least one byte. -/
theorem read_lt (b : UInt8) (r : List UInt8) : (read b r).2.length < (b :: r).length := by
  rw [List.length_cons, Nat.lt_succ_iff, read]
  split
  · exact Nat.le_refl _
  · rename_i l _
    have := length_continuation_le l.low l.high l.bits l.following r
    simp only
    split <;> exact this

/-- Decodes bytes of which the first stands at the given offset, up to the first fault. -/
def decodeFrom (offset : Nat) (s : List UInt8) : Except Fault Text :=
  match s with
  | [] => .ok []
  | b :: r =>
    match (read b r).1 with
    | .ok c => (decodeFrom (offset + c.utf8Size) (read b r).2).map (c :: ·)
    | .error (cause, length) => .error ⟨offset, b, length, cause⟩
termination_by s.length
decreasing_by exact read_lt b r

/-- The text that the bytes encode. -/
def decode (s : List UInt8) : Except Fault Text := decodeFrom 0 s

/-- The text that the bytes encode, with a replacement character for each faulty sequence. -/
def decodeLossy (s : List UInt8) : Text :=
  match s with
  | [] => []
  | b :: r =>
    match (read b r).1 with
    | .ok c => c :: decodeLossy (read b r).2
    | .error _ => '\uFFFD' :: decodeLossy (read b r).2
termination_by s.length
decreasing_by all_goals exact read_lt b r

/-- The bytes of a text. -/
def encode (s : Text) : List UInt8 := s.flatMap String.utf8EncodeChar

/-! ## The message of a fault -/

/-- The wording of a cause. -/
def Cause.message : Cause → Text
  | startByte => "invalid start byte".toList
  | continuationByte => "invalid continuation byte".toList
  | endOfData => "unexpected end of data".toList

/-- The message of a fault: the byte, or the first and last offset when there are several. -/
def Fault.message (f : Fault) : Text :=
  "'utf-8' codec can't decode ".toList ++
    (if f.length = 1 then
      "byte 0x".toList ++ Text.hexPadded 2 f.byte.toNat ++ " in position ".toList ++
        Text.ofNat f.start
    else
      "bytes in position ".toList ++ Text.ofNat f.start ++ ['-'] ++
        Text.ofNat (f.start + f.length - 1)) ++
    [':', ' '] ++ f.cause.message

/-! ## Line ends -/

/-- The text with every carriage return, and the line feed that may follow it, as one line feed. -/
def unifyLineEnds : Text → Text
  | '\r' :: '\n' :: r => '\n' :: unifyLineEnds r
  | '\r' :: r => '\n' :: unifyLineEnds r
  | c :: r => c :: unifyLineEnds r
  | [] => []

end RecordSkeleton.Utf8
