import RecordSkeleton.Text.Numeral

/-!
# Moments

A moment is a local date and time with an optional offset from universal time. `DateTimeType` holds
the date and time types that a moment can be written for.

1. Every field but the year has a fixed width; the year is written without leading zeros.
2. The offset is written as hours and minutes behind its sign, or as `Z` when it is zero or absent.
   Parts of a minute are cut off.
-/

namespace RecordSkeleton

/-- A local date and time. -/
structure Moment where
  year : Nat
  /-- The month, from 1. -/
  month : Nat
  /-- The day of the month, from 1. -/
  day : Nat
  hour : Nat
  minute : Nat
  second : Nat
  microsecond : Nat
  /-- The offset from universal time in microseconds. -/
  offset : Option Int
  deriving DecidableEq, Repr

namespace Moment

open Text

/-- The year and the month. -/
def yearMonthText (m : Moment) : Text := ofNat m.year ++ ['-'] ++ ofNatPadded 2 m.month

/-- The date. -/
def dateText (m : Moment) : Text := m.yearMonthText ++ ['-'] ++ ofNatPadded 2 m.day

/-- The time of day to the millisecond. -/
def timeText (m : Moment) : Text :=
  ofNatPadded 2 m.hour ++ [':'] ++ ofNatPadded 2 m.minute ++ [':'] ++ ofNatPadded 2 m.second ++
    ['.'] ++ ofNatPadded 3 (m.microsecond / 1000)

/-- The offset in hours and minutes. -/
def offsetText (m : Moment) : Text :=
  match m.offset with
  | none => ['Z']
  | some offset =>
    if offset = 0 then ['Z']
    else
      let seconds := offset.tdiv 1000000
      let minutes := seconds.natAbs / 60
      (if 0 ≤ seconds then '+' else '-') :: ofNatPadded 2 (minutes / 60) ++ [':'] ++
        ofNatPadded 2 (minutes % 60)

/-- The date and the time of day. -/
def dateTimeText (m : Moment) : Text := m.dateText ++ ['T'] ++ m.timeText

end Moment

/-- The types whose default value is the current moment. -/
inductive DateTimeType where
  | localDate
  /-- A date and a time. -/
  | localDateTime
  /-- A year and a month. -/
  | yearMonth
  /-- A year. -/
  | year
  | localTime
  /-- A date and a time with an offset. -/
  | offsetDateTime
  /-- A date and a time in a zone, shown by its offset. -/
  | zonedDateTime
  deriving DecidableEq, Repr

namespace DateTimeType

/-- The type names. -/
def names : List (Text × DateTimeType) :=
  [("LocalDate".toList, localDate), ("LocalDateTime".toList, localDateTime),
    ("YearMonth".toList, yearMonth), ("Year".toList, year), ("LocalTime".toList, localTime),
    ("OffsetDateTime".toList, offsetDateTime), ("ZonedDateTime".toList, zonedDateTime)]

/-- The date and time type of the given name. -/
def ofName? (name : Text) : Option DateTimeType := names.lookup name

/-- The part of a moment that a type shows. -/
def fields (t : DateTimeType) (m : Moment) : Text :=
  match t with
  | localDate => m.dateText
  | localDateTime => m.dateTimeText
  | yearMonth => m.yearMonthText
  | year => Text.ofNat m.year
  | localTime => m.timeText
  | offsetDateTime | zonedDateTime => m.dateTimeText ++ m.offsetText

/-- A moment as a quoted string of the given type. -/
def quoted (t : DateTimeType) (m : Moment) : Text := ['"'] ++ t.fields m ++ ['"']

end DateTimeType

end RecordSkeleton
