import RecordSkeleton.Text.Numeral

/-!
# Double precision numbers

Numbers in the double precision format, as a sign, a whole number and a power of two. A decimal is
read as the nearest number, a tie going to the even one, and a number is written with the fewest
digits that read back as it.
-/

namespace RecordSkeleton

/-- A double precision number. -/
inductive Binary64 where
  /-- The number `mantissa * 2 ^ exponent`, where the mantissa has at most 53 bits. -/
  | finite (negative : Bool) (mantissa : Nat) (exponent : Int)
  | infinite (negative : Bool)
  | notANumber
  deriving DecidableEq, Repr

namespace Binary64

open Text

/-! ## Rounding -/

/-- The least exponent of two. -/
def leastExponent : Int := -1074

/-- The greatest exponent of two. -/
def greatestExponent : Int := 971

/-- The quotient rounded to the nearest whole number, a tie going to the even one. -/
def roundQuotient (num den : Nat) : Nat :=
  let q := num / den
  let twice := 2 * (num % den)
  if twice < den then q else if den < twice then q + 1 else q + q % 2

/-- The fraction `num / den` divided by `2 ^ e`, as a fraction. -/
def scaleDown (num den : Nat) (e : Int) : Nat × Nat :=
  if 0 ≤ e then (num, den * Nat.pow 2 e.toNat) else (num * Nat.pow 2 (-e).toNat, den)

/-- The exponent for which the mantissa of `num / den` has 53 bits, or the least one. -/
def exponentOf (num den : Nat) : Int :=
  let guess : Int := (Nat.log2 num : Int) - Nat.log2 den - 52
  let (n, d) := scaleDown num den guess
  max leastExponent (if n < d * Nat.pow 2 52 then guess - 1 else guess)

/-- The number nearest to `num / den`. -/
def ofFraction (negative : Bool) (num den : Nat) : Binary64 :=
  if num = 0 then finite negative 0 leastExponent
  else
    let e := exponentOf num den
    let (n, d) := scaleDown num den e
    let m := roundQuotient n d
    let (m, e) := if m = Nat.pow 2 53 then (Nat.pow 2 52, e + 1) else (m, e)
    if greatestExponent < e then infinite negative else finite negative m e

/-- The number nearest to `digits * 10 ^ power`, where `digits` has `count` digits. Far outside the
range of the format the power is not worked out. -/
def ofDecimal (negative : Bool) (digits count : Nat) (power : Int) : Binary64 :=
  if digits = 0 ∨ power + count < -400 then finite negative 0 leastExponent
  else if 400 < power + count then infinite negative
  else if 0 ≤ power then ofFraction negative (digits * Nat.pow 10 power.toNat) 1
  else ofFraction negative digits (Nat.pow 10 (-power).toNat)

/-! ## Reading -/

/-- The value of a run of ASCII digits. -/
def digitsValue (s : Text) : Nat := s.foldl (fun n c => n * 10 + (c.toNat - '0'.toNat)) 0

/-- The sign at the front of a text, and the rest. -/
def splitSign : Text → Bool × Text
  | '-' :: r => (true, r)
  | '+' :: r => (false, r)
  | s => (false, s)

/-- Reads a number that is written as digits with an optional fraction and exponent, or as `inf` or
`nan`, behind an optional sign. -/
def ofText (s : Text) : Binary64 :=
  let (negative, r) := splitSign s
  if r = "inf".toList then infinite negative
  else if r = "nan".toList then notANumber
  else
    let whole := r.takeWhile Char.isDigit
    let r := r.dropWhile Char.isDigit
    let fraction := match r with
      | '.' :: t => t.takeWhile Char.isDigit
      | _ => []
    let r := r.dropWhile fun c => c == '.' || c.isDigit
    let power : Int := match r with
      | _ :: t =>
        let (minus, ds) := splitSign t
        if minus then -(digitsValue ds : Int) else digitsValue ds
      | [] => 0
    let digits := digitsValue (whole ++ fraction)
    ofDecimal negative digits (ofNat digits).length (power - fraction.length)

/-! ## Writing -/

/-- A positive decimal `0.d₁d₂… * 10 ^ point`. -/
structure Decimal where
  /-- The digits, the first of which is not zero. -/
  digits : Text
  /-- The place of the decimal point behind the start of the digits. -/
  point : Int
  deriving DecidableEq, Repr

/-- The fraction `num / den` divided by `10 ^ p`, as a fraction. -/
def scaleDownTen (num den : Nat) (p : Int) : Nat × Nat :=
  if 0 ≤ p then (num, den * Nat.pow 10 p.toNat) else (num * Nat.pow 10 (-p).toNat, den)

/-- The number of digits of the whole part of a positive fraction, or less than one when zeros
follow the point. The fraction must not be below `10 ^ -400`. -/
def pointOf (num den : Nat) : Int := ((ofNat (num * Nat.pow 10 400 / den)).length : Int) - 400

/-- The decimal `c * 10 ^ p` without the zeros at its end. -/
def trimmed (c : Nat) (p : Int) : Decimal :=
  let all := ofNat c
  ⟨(all.reverse.dropWhile (· == '0')).reverse, all.length + p⟩

/-- The multiple of `10 ^ p` that is nearest to the middle of an interval, among its two neighbours
that lie in the interval, if there is one. The interval has the ends `low` and `high` and the middle
`mid`, all over `den`; its ends belong to it when `closed`. -/
def nearestIn? (low mid high den : Nat) (closed : Bool) (p : Int) : Option Nat :=
  let (n, d) := scaleDownTen mid den p
  let c := n / d
  let inside (k : Nat) : Bool :=
    let (l, ld) := scaleDownTen low den p
    let (h, hd) := scaleDownTen high den p
    if closed then l ≤ k * ld && k * hd ≤ h else l < k * ld && k * hd < h
  match inside c, inside (c + 1) with
  | true, true => some (roundQuotient n d)
  | true, false => some c
  | false, true => some (c + 1)
  | false, false => none

/-- The shortest decimal that reads back as the positive number `m * 2 ^ e`, and the nearest to it
of those. The interval of the decimals that read back ends half way to the next numbers, which is
nearer below a power of two, and holds its ends when the mantissa is even. -/
def shortest (m : Nat) (e : Int) : Decimal :=
  let below := if m = Nat.pow 2 52 ∧ leastExponent < e then 1 else 2
  let unit : Nat × Nat := if 0 ≤ e - 2 then (Nat.pow 2 (e - 2).toNat, 1) else (1, Nat.pow 2 (2 - e).toNat)
  let scaled (k : Nat) : Nat := k * unit.1
  let point := pointOf (scaled (4 * m)) unit.2
  let attempt (n : Nat) : Option Decimal :=
    (nearestIn? (scaled (4 * m - below)) (scaled (4 * m)) (scaled (4 * m + 2)) unit.2
      (m % 2 = 0) (point - n)).map (trimmed · (point - n))
  ((List.range 17).findSome? fun n => attempt (n + 1)).getD (trimmed (scaled (4 * m) / unit.2) 0)

/-- Writes a decimal: positional from one ten-thousandth up to below ten to the sixteenth, always
with a fraction, and else with an exponent of at least two digits. -/
def Decimal.text (d : Decimal) : Text :=
  let zeros (n : Int) : Text := List.replicate n.toNat '0'
  if -3 ≤ d.point ∧ d.point ≤ 16 then
    if d.point ≤ 0 then ['0', '.'] ++ zeros (-d.point) ++ d.digits
    else
      let whole := d.digits.take d.point.toNat ++ zeros (d.point - d.digits.length)
      let fraction := d.digits.drop d.point.toNat
      whole ++ ['.'] ++ (if fraction = [] then ['0'] else fraction)
  else
    let power := d.point - 1
    d.digits.take 1 ++
      (if d.digits.length = 1 then [] else '.' :: d.digits.drop 1) ++
      ['e', if power < 0 then '-' else '+'] ++ ofNatPadded 2 power.natAbs

/-- The written form of a number. -/
def text : Binary64 → Text
  | finite negative m e =>
    (if negative then ['-'] else []) ++
      if m = 0 then "0.0".toList else (shortest m e).text
  | infinite negative => if negative then "-inf".toList else "inf".toList
  | notANumber => "nan".toList

/-- The whole part of a finite number. -/
def truncate (negative : Bool) (m : Nat) (e : Int) : Int :=
  let size : Nat := if 0 ≤ e then m * Nat.pow 2 e.toNat else m / Nat.pow 2 (-e).toNat
  if negative then -(size : Int) else size

end Binary64

end RecordSkeleton
