import RecordSkeleton.Text.Numeral

/-!
# Dates and times in TOML

Dates, times of day and their combinations, with the two forms in which they are written: the plain
form, and the constructor form that is used inside other values.
-/

namespace RecordSkeleton.Toml

open Text

/-- A date. -/
structure Date where
  year : Nat
  /-- The month, from 1. -/
  month : Nat
  /-- The day of the month, from 1. -/
  day : Nat
  deriving DecidableEq, Repr

/-- A time of day. -/
structure Time where
  hour : Nat
  minute : Nat
  second : Nat
  microsecond : Nat
  deriving DecidableEq, Repr

namespace Date

/-- Whether a year has a day more than others. -/
def isLeapYear (year : Nat) : Bool := year % 4 == 0 && (year % 100 != 0 || year % 400 == 0)

/-- The number of days of a month. -/
def daysIn (year month : Nat) : Nat :=
  if month = 2 then if isLeapYear year then 29 else 28
  else if month = 4 ∨ month = 6 ∨ month = 9 ∨ month = 11 then 30
  else 31

/-- Whether the calendar has such a date; it begins with the year 1. -/
def isValid (d : Date) : Bool := 1 ≤ d.year && d.day ≤ daysIn d.year d.month

/-- The plain form of a date. -/
def text (d : Date) : Text :=
  ofNatPadded 4 d.year ++ ['-'] ++ ofNatPadded 2 d.month ++ ['-'] ++ ofNatPadded 2 d.day

/-- The fields of a date. -/
def fields (d : Date) : List Nat := [d.year, d.month, d.day]

end Date

namespace Time

/-- The plain form of a time, with microseconds when there are any. -/
def text (t : Time) : Text :=
  ofNatPadded 2 t.hour ++ [':'] ++ ofNatPadded 2 t.minute ++ [':'] ++ ofNatPadded 2 t.second ++
    if t.microsecond = 0 then [] else '.' :: ofNatPadded 6 t.microsecond

/-- The fields of a time, without seconds and microseconds at the end that are zero. -/
def fields (t : Time) : List Nat :=
  [t.hour, t.minute] ++
    if t.microsecond ≠ 0 then [t.second, t.microsecond]
    else if t.second ≠ 0 then [t.second]
    else []

end Time

/-- The plain form of an offset from universal time in minutes. -/
def offsetText (offset : Int) : Text :=
  (if offset < 0 then '-' else '+') :: ofNatPadded 2 (offset.natAbs / 60) ++ [':'] ++
    ofNatPadded 2 (offset.natAbs % 60)

/-- The constructor form of an offset in minutes. A negative one is a day less and the seconds of
the remaining day. -/
def offsetConstructor (offset : Int) : Text :=
  if offset = 0 then "datetime.timezone.utc".toList
  else
    "datetime.timezone(datetime.timedelta(".toList ++
      (if offset < 0 then "days=-1, ".toList else []) ++ "seconds=".toList ++
      ofInt (if offset < 0 then 86400 + offset * 60 else offset * 60) ++ "))".toList

/-- The constructor form of a date or time of the given kind. -/
def constructorText (kind : String) (fields : List Nat) (offset : Option Int) : Text :=
  "datetime.".toList ++ kind.toList ++ ['('] ++ join [',', ' '] (fields.map ofNat) ++
    (match offset with
      | some o => ", tzinfo=".toList ++ offsetConstructor o
      | none => []) ++ [')']

end RecordSkeleton.Toml
