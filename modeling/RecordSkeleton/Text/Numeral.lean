import RecordSkeleton.Text.Basic

/-!
# Decimal numerals

The written form of whole numbers: digits without leading zeros, a minus sign in front of a negative
number, and zeros in front where a least width is asked for.
-/

namespace RecordSkeleton.Text

/-- The decimal digits of a natural number. -/
def ofNat (n : Nat) : Text := Nat.toDigits 10 n

/-- The decimal digits of an integer, behind a minus sign if it is negative. -/
def ofInt : Int → Text
  | .ofNat n => ofNat n
  | .negSucc n => '-' :: ofNat (n + 1)

/-- The decimal digits of a natural number behind as many zeros as make them `width` long. -/
def ofNatPadded (width n : Nat) : Text :=
  List.replicate (width - (ofNat n).length) '0' ++ ofNat n

end RecordSkeleton.Text
