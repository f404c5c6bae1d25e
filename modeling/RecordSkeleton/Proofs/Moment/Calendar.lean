import Mathlib.Order.Monotone.Basic
import RecordSkeleton.Moment
import RecordSkeleton.Proofs.Text.Numeral
import RecordSkeleton.Toml.DateTime

/-!
# Moments on the calendar

The fields of a moment that the calendar has lie within their bounds, and such moments of the years
with four digits are written in texts of one length.

1. `Moment.days` counts the days before a moment and `Moment.milliseconds` the whole milliseconds;
   both go by the local time.
2. Written dates are ordered as the days (`orderedAs_dateText`), and dates with times of day as the
   milliseconds (`orderedAs_dateTimeText`).
-/

namespace RecordSkeleton.Moment

open Text

/-- A moment that the calendar has, in a year of four digits. -/
structure OnCalendar (m : Moment) : Prop where
  year_ge : 1000 ≤ m.year
  year_le : m.year ≤ 9999
  month_ge : 1 ≤ m.month
  month_le : m.month ≤ 12
  day_ge : 1 ≤ m.day
  day_le : m.day ≤ Toml.Date.daysIn m.year m.month
  hour_lt : m.hour < 24
  minute_lt : m.minute < 60
  second_lt : m.second < 60
  microsecond_lt : m.microsecond < 1000000
  /-- An offset is less than a day. -/
  offset_lt : ∀ offset ∈ m.offset, offset.natAbs < 86400000000

/-! ## Counting time -/

/-- The days in front of a month; months count from the beginning of the year 0. -/
def daysBefore : Nat → Nat
  | 0 => 0
  | k + 1 => daysBefore k + Toml.Date.daysIn (k / 12) (k % 12 + 1)

theorem monotone_daysBefore : Monotone daysBefore :=
  monotone_nat_of_le_succ fun k => Nat.le_add_right (daysBefore k) _

/-- The months that have passed. -/
def months (m : Moment) : Nat := m.year * 12 + (m.month - 1)

/-- The days that have passed. -/
def days (m : Moment) : Nat := daysBefore m.months + (m.day - 1)

/-- The whole milliseconds of the day that have passed. -/
def timeOfDay (m : Moment) : Nat :=
  ((m.hour * 60 + m.minute) * 60 + m.second) * 1000 + m.microsecond / 1000

/-- The whole milliseconds that have passed in local time. -/
def milliseconds (m : Moment) : Nat := m.days * 86400000 + m.timeOfDay

theorem daysIn_le (year month : Nat) : Toml.Date.daysIn year month ≤ 31 := by
  unfold Toml.Date.daysIn
  split
  · split <;> decide
  · split <;> decide

namespace OnCalendar

variable {m : Moment}

/-- The month of a moment holds its day. -/
theorem days_lt (hm : m.OnCalendar) :
    daysBefore m.months + (m.day - 1) < daysBefore (m.months + 1) := by
  have hyear : m.months / 12 = m.year := by
    have := hm.month_le
    unfold months
    omega
  have hmonth : m.months % 12 + 1 = m.month := by
    have := hm.month_ge
    have := hm.month_le
    unfold months
    omega
  have hday := hm.day_ge
  have hday' := hm.day_le
  rw [daysBefore, hyear, hmonth]
  omega

theorem timeOfDay_lt (hm : m.OnCalendar) : m.timeOfDay < 86400000 := by
  have := hm.hour_lt
  have := hm.minute_lt
  have := hm.second_lt
  have := hm.microsecond_lt
  unfold timeOfDay
  omega

/-! ## The widths of the fields -/

theorem year_lt (hm : m.OnCalendar) : m.year < 10 ^ 4 := Nat.lt_succ_of_le hm.year_le

theorem month_lt (hm : m.OnCalendar) : m.month < 10 ^ 2 := hm.month_le.trans_lt (by decide)

theorem day_lt (hm : m.OnCalendar) : m.day < 10 ^ 2 :=
  (hm.day_le.trans (daysIn_le _ _)).trans_lt (by decide)

theorem millisecond_lt (hm : m.OnCalendar) : m.microsecond / 1000 < 10 ^ 3 :=
  Nat.div_lt_of_lt_mul hm.microsecond_lt

/-- The year has four digits, so it is written as a padded one. -/
theorem ofNat_year (hm : m.OnCalendar) : ofNat m.year = ofNatPadded 4 m.year :=
  (ofNatPadded_eq_ofNat hm.year_ge).symm

end OnCalendar

/-! ## The order of written moments -/

section

variable {m n : Moment} (hm : m.OnCalendar) (hn : n.OnCalendar)

include hm hn

theorem orderedAs_yearMonthText :
    OrderedAs m.yearMonthText n.yearMonthText m.months n.months := by
  have hyear : OrderedAs (ofNat m.year) (ofNat n.year) m.year n.year := by
    rw [hm.ofNat_year, hn.ofNat_year]
    exact orderedAs_ofNatPadded (by decide) hm.year_lt hn.year_lt
  have hmonth : OrderedAs (ofNatPadded 2 m.month) (ofNatPadded 2 n.month) (m.month - 1)
      (n.month - 1) :=
    (orderedAs_ofNatPadded (by decide) hm.month_lt hn.month_lt).pred hm.month_ge hn.month_ge
  exact (hyear.append_same ['-']).append_mul hmonth
    (Nat.sub_one_lt_of_le hm.month_ge hm.month_le) (Nat.sub_one_lt_of_le hn.month_ge hn.month_le)

/-- Written dates are ordered as the days before them. The months are of different lengths, so their
days are counted in blocks. -/
theorem orderedAs_dateText : OrderedAs m.dateText n.dateText m.days n.days := by
  have hday : OrderedAs (ofNatPadded 2 m.day) (ofNatPadded 2 n.day) (m.day - 1) (n.day - 1) :=
    (orderedAs_ofNatPadded (by decide) hm.day_lt hn.day_lt).pred hm.day_ge hn.day_ge
  exact ((orderedAs_yearMonthText hm hn).append_same ['-']).append monotone_daysBefore hday
    hm.days_lt hn.days_lt

theorem orderedAs_timeText : OrderedAs m.timeText n.timeText m.timeOfDay n.timeOfDay := by
  have htwo {a b : Nat} (ha : a < 60) (hb : b < 60) :
      OrderedAs (ofNatPadded 2 a) (ofNatPadded 2 b) a b :=
    orderedAs_ofNatPadded (by decide) (ha.trans (by decide)) (hb.trans (by decide))
  have hhour := htwo (hm.hour_lt.trans (by decide)) (hn.hour_lt.trans (by decide))
  have hminute := (hhour.append_same [':']).append_mul (htwo hm.minute_lt hn.minute_lt)
    hm.minute_lt hn.minute_lt
  have hsecond := (hminute.append_same [':']).append_mul (htwo hm.second_lt hn.second_lt)
    hm.second_lt hn.second_lt
  have hmillisecond := orderedAs_ofNatPadded (by decide) hm.millisecond_lt hn.millisecond_lt
  exact (hsecond.append_same ['.']).append_mul hmillisecond hm.millisecond_lt hn.millisecond_lt

/-- Written dates with times of day are ordered as the milliseconds before them. -/
theorem orderedAs_dateTimeText :
    OrderedAs m.dateTimeText n.dateTimeText m.milliseconds n.milliseconds :=
  ((orderedAs_dateText hm hn).append_same ['T']).append_mul (orderedAs_timeText hm hn)
    hm.timeOfDay_lt hn.timeOfDay_lt

end

end RecordSkeleton.Moment
