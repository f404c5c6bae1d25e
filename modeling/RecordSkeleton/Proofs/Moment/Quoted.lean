import RecordSkeleton.Proofs.Moment.Calendar
import RecordSkeleton.Proofs.Text.Words

/-!
# Reading quoted moments

The fields of a quoted date and time stand at fixed positions, with the offset behind them.

1. `Moment.ofQuoted?` reads a moment back from these positions, and it gets back what was written, up
   to the parts of a millisecond (`ofQuoted?_quoted`).
2. The offset is `Z` exactly when there is none or it is zero (`mem_quoted_iff`), and zero hours and
   minutes are written behind no sign (`OnCalendar.not_signed_zeros_infix`).
3. The other types are cut out of the same text, and without the offset it is ordered as the local
   time (`DateTimeType.orderedAs_quoted`).
-/

namespace RecordSkeleton

open Text

namespace Moment

/-! ## Reading -/

/-- The minutes that a text of hours and minutes writes. -/
def minutes? (s : Text) : Option Nat := do
  let hours ← decimal? (slice s 0 2)
  let minutes ← decimal? (slice s 3 5)
  some (hours * 60 + minutes)

/-- The offset in minutes that a text writes. -/
def offsetMinutes? : Text → Option Int
  | ['Z'] => some 0
  | '+' :: s => (minutes? s).map fun n : Nat => (n : Int)
  | '-' :: s => (minutes? s).map fun n : Nat => -(n : Int)
  | _ => none

/-- The moment whose fields a quoted text holds at the positions for them. -/
def ofQuoted? (s : Text) : Option Moment := do
  let year ← decimal? (slice s 1 5)
  let month ← decimal? (slice s 6 8)
  let day ← decimal? (slice s 9 11)
  let hour ← decimal? (slice s 12 14)
  let minute ← decimal? (slice s 15 17)
  let second ← decimal? (slice s 18 20)
  let millisecond ← decimal? (slice s 21 24)
  let offset ← offsetMinutes? (slice s 24 (s.length - 1))
  some ⟨year, month, day, hour, minute, second, millisecond * 1000, some (offset * 60000000)⟩

/-! ## Offsets -/

/-- An offset of whole minutes. -/
def WholeMinutes (m : Moment) : Prop := ∀ offset ∈ m.offset, 60000000 ∣ offset

section

variable {m : Moment} {k : Int}

/-- An offset of whole minutes is zero, or a number of minutes that is not. -/
theorem WholeMinutes.cases (hw : m.WholeMinutes) :
    m.offset.getD 0 = 0 ∨ ∃ k : Int, k ≠ 0 ∧ m.offset = some (k * 60000000) := by
  cases ho : m.offset with
  | none => exact .inl rfl
  | some offset =>
    obtain ⟨k, rfl⟩ := hw offset ho
    by_cases hk : k = 0
    · exact .inl (by rw [hk]; rfl)
    · exact .inr ⟨k, hk, by rw [Int.mul_comm]⟩

theorem offsetText_of_zero (h : m.offset.getD 0 = 0) : m.offsetText = ['Z'] := by
  unfold offsetText
  cases hm : m.offset with
  | none => rfl
  | some offset =>
    rw [hm] at h
    exact if_pos h

/-- Minutes as hours and minutes. -/
def minutesText (n : Nat) : Text := [ofNatPadded 2 (n / 60), [':'], ofNatPadded 2 (n % 60)].flatten

/-- The hours and minutes of an offset stand behind its sign. -/
theorem offsetText_of_minutes (hk : k ≠ 0) (ho : m.offset = some (k * 60000000)) :
    m.offsetText = (if 0 ≤ k then '+' else '-') :: minutesText k.natAbs := by
  have hseconds : (k * 60000000).tdiv 1000000 = k * 60 := by
    rw [show k * 60000000 = k * 60 * 1000000 by omega]
    exact Int.mul_tdiv_cancel _ (by decide)
  have hminutes : (k * 60).natAbs / 60 = k.natAbs := by omega
  have hsign : 0 ≤ k * 60 ↔ 0 ≤ k := by omega
  unfold offsetText
  simp only [ho]
  rw [if_neg (by omega), hseconds, hminutes]
  simp [hsign, minutesText]

/-- There are less than 24 hours in an offset. -/
theorem OnCalendar.hours_lt (hm : m.OnCalendar) (ho : m.offset = some (k * 60000000)) :
    k.natAbs / 60 < 24 := by
  have := hm.offset_lt _ ho
  omega

/-- Two digits hold the hours and minutes of less than a day. -/
theorem length_ofNatPadded_minutes {n : Nat} (hn : n / 60 < 24) :
    (ofNatPadded 2 (n / 60)).length = 2 ∧ (ofNatPadded 2 (n % 60)).length = 2 :=
  ⟨length_ofNatPadded (by decide) (hn.trans (by decide)),
    length_ofNatPadded (by decide) ((Nat.mod_lt n (by decide)).trans (by decide))⟩

theorem minutes?_minutesText {n : Nat} (hn : n / 60 < 24) : minutes? (minutesText n) = some n := by
  obtain ⟨hhours, hminutes⟩ := length_ofNatPadded_minutes hn
  have hfirst : slice (minutesText n) 0 2 = ofNatPadded 2 (n / 60) :=
    slice_flatten _ 0 rfl rfl (by rw [hhours])
  have hsecond : slice (minutesText n) 3 5 = ofNatPadded 2 (n % 60) :=
    slice_flatten _ 2 rfl (by simp [hhours]) (by rw [hminutes])
  unfold minutes?
  rw [hfirst, hsecond, decimal?_ofNatPadded, decimal?_ofNatPadded]
  exact congrArg some (Nat.div_add_mod' n 60)

/-- The offset of whole minutes is read back from its text. -/
theorem offsetMinutes?_offsetText (hm : m.OnCalendar) (hw : m.WholeMinutes) :
    (offsetMinutes? m.offsetText).map (· * 60000000) = some (m.offset.getD 0) := by
  rcases hw.cases with hz | ⟨k, hk, ho⟩
  · rw [offsetText_of_zero hz, hz]
    rfl
  · have hread := minutes?_minutesText (hm.hours_lt ho)
    have hoffset : offsetMinutes? m.offsetText = some k := by
      rw [offsetText_of_minutes hk ho]
      split
      · rw [offsetMinutes?, hread, Option.map_some]
        exact congrArg some (by omega)
      · rw [offsetMinutes?, hread, Option.map_some]
        exact congrArg some (by omega)
    rw [hoffset, ho]
    rfl

end

/-! ## The pieces of a quoted moment -/

/-- What a quoted date and time with an offset is put together from. -/
def pieces (m : Moment) : List Text :=
  [['"'], ofNat m.year, ['-'], ofNatPadded 2 m.month, ['-'], ofNatPadded 2 m.day, ['T'],
    ofNatPadded 2 m.hour, [':'], ofNatPadded 2 m.minute, [':'], ofNatPadded 2 m.second, ['.'],
    ofNatPadded 3 (m.microsecond / 1000), m.offsetText, ['"']]

/-- The lengths of the pieces in front of the offset. -/
def widths : List Nat := [1, 4, 1, 2, 1, 2, 1, 2, 1, 2, 1, 2, 1, 3]

theorem flatten_pieces (m : Moment) : m.pieces.flatten = DateTimeType.offsetDateTime.quoted m := by
  simp [pieces, DateTimeType.quoted, DateTimeType.fields, dateTimeText, dateText, yearMonthText,
    timeText]

namespace OnCalendar

variable {m : Moment} (hm : m.OnCalendar)

include hm

theorem length_month : (ofNatPadded 2 m.month).length = 2 :=
  length_ofNatPadded (by decide) hm.month_lt

theorem length_day : (ofNatPadded 2 m.day).length = 2 := length_ofNatPadded (by decide) hm.day_lt

theorem map_length_pieces : m.pieces.map List.length = widths ++ [m.offsetText.length, 1] := by
  have htwo {n : Nat} (hn : n < 60) : (ofNatPadded 2 n).length = 2 :=
    length_ofNatPadded (by decide) (hn.trans (by decide))
  simp [pieces, widths, hm.ofNat_year, length_ofNatPadded (by decide) hm.year_lt, hm.length_month,
    hm.length_day, htwo (hm.hour_lt.trans (by decide)), htwo hm.minute_lt, htwo hm.second_lt,
    length_ofNatPadded (by decide) hm.millisecond_lt]

theorem length_take_pieces {k : Nat} (hk : k ≤ 14) :
    (m.pieces.take k).flatten.length = (widths.take k).sum := by
  rw [List.length_flatten, List.map_take, hm.map_length_pieces, List.take_append_of_le_length hk]

/-- A piece in front of the offset is found between the widths in front of it and its own. -/
theorem slice_quoted (k i j : Nat) (hk : k < 14) {p : Text} (hp : m.pieces[k]? = some p)
    (hi : i = (widths.take k).sum) (hj : j = (widths.take (k + 1)).sum) :
    slice (DateTimeType.offsetDateTime.quoted m) i j = p := by
  have hstop : (m.pieces.take (k + 1)).flatten = (m.pieces.take k).flatten ++ p := by
    rw [List.take_add_one, hp]
    simp
  have hlength := congrArg List.length hstop
  rw [List.length_append, hm.length_take_pieces hk, hm.length_take_pieces hk.le] at hlength
  rw [← flatten_pieces]
  exact slice_flatten _ k hp (hi.trans (hm.length_take_pieces hk.le).symm) (by rw [hi, hj, hlength])

theorem slice_offset :
    slice (DateTimeType.offsetDateTime.quoted m) 24
      ((DateTimeType.offsetDateTime.quoted m).length - 1) = m.offsetText := by
  have hlength : (DateTimeType.offsetDateTime.quoted m).length = 24 + (m.offsetText.length + 1) := by
    rw [← flatten_pieces, List.length_flatten, hm.map_length_pieces, List.sum_append]
    rfl
  rw [hlength, ← flatten_pieces]
  exact slice_flatten _ 14 rfl (hm.length_take_pieces (Nat.le_refl 14)).symm rfl

/-- What is read at the positions of the fields is what was written there. -/
theorem ofQuoted?_quoted (hw : m.WholeMinutes) :
    ofQuoted? (DateTimeType.offsetDateTime.quoted m) =
      some { m with microsecond := m.microsecond / 1000 * 1000, offset := some (m.offset.getD 0) } := by
  obtain ⟨k, hk, hk'⟩ := Option.map_eq_some_iff.1 (offsetMinutes?_offsetText hm hw)
  unfold ofQuoted?
  rw [hm.slice_quoted 1 1 5 (by decide) rfl rfl rfl, hm.slice_quoted 3 6 8 (by decide) rfl rfl rfl,
    hm.slice_quoted 5 9 11 (by decide) rfl rfl rfl, hm.slice_quoted 7 12 14 (by decide) rfl rfl rfl,
    hm.slice_quoted 9 15 17 (by decide) rfl rfl rfl, hm.slice_quoted 11 18 20 (by decide) rfl rfl rfl,
    hm.slice_quoted 13 21 24 (by decide) rfl rfl rfl, hm.slice_offset, hm.ofNat_year]
  simp only [decimal?_ofNatPadded, hk, hk', Option.bind_eq_bind, Option.bind_some]

end OnCalendar

/-! ## Signs -/

/-- A sign with text behind it does not start in a part without the sign, nor at a character behind
that part that does not go on so. -/
theorem infix_of_infix_append {sign c : Char} {q x y : Text} (hx : sign ∉ x)
    (hc : c = sign → ¬ q <+: y) (h : sign :: q <:+: x ++ c :: y) : sign :: q <:+: y := by
  induction x with
  | nil =>
    rcases List.infix_cons_iff.1 h with hfront | hback
    · obtain ⟨hsign, hq⟩ := List.cons_prefix_cons.1 hfront
      exact absurd hq (hc hsign.symm)
    · exact hback
  | cons d x ih =>
    rcases List.infix_cons_iff.1 h with hfront | hback
    · exact absurd (List.cons_prefix_cons.1 hfront).1 (List.ne_of_not_mem_cons hx)
    · exact ih (List.not_mem_of_not_mem_cons hx) hback

theorem not_zeros_prefix {p r : Text} {c : Char} (hp : p.length = 2) (hc : c ≠ ':') :
    ¬ "00:00".toList <+: p ++ c :: r := by
  intro h
  match p, hp with
  | [_, _], _ =>
    have hrest := (List.cons_prefix_cons.1 (List.cons_prefix_cons.1 h).2).2
    exact hc (List.cons_prefix_cons.1 hrest).1.symm

theorem not_mem_timeText {c : Char} (hd : c.isDigit = false) (hc : c ∉ [':', '.']) (m : Moment) :
    c ∉ m.timeText := by
  simp only [List.mem_cons, List.not_mem_nil, or_false, not_or] at hc
  simp [timeText, not_mem_ofNatPadded hd, hc]

theorem not_mem_minutesText {c : Char} (hd : c.isDigit = false) (hc : c ≠ ':') (n : Nat) :
    c ∉ minutesText n := by
  simp [minutesText, not_mem_ofNatPadded hd, hc]

/-- Hours and minutes that are zero are those of no offset but zero. -/
theorem not_zeros_prefix_minutesText {n : Nat} (hn : n / 60 < 24) (h0 : n ≠ 0) (r : Text) :
    ¬ "00:00".toList <+: minutesText n ++ r := by
  obtain ⟨hhours, hminutes⟩ := length_ofNatPadded_minutes hn
  intro h
  have hlength : (minutesText n).length = 5 := by simp [minutesText, hhours, hminutes]
  have heq : "00:00".toList = minutesText n :=
    (List.prefix_of_prefix_length_le h (List.prefix_append _ r) (by rw [hlength]; decide)).eq_of_length
      (by rw [hlength]; rfl)
  have hread := minutes?_minutesText hn
  rw [← heq] at hread
  exact h0 (Option.some.inj hread).symm

/-- Zero hours and minutes behind a sign are written nowhere in a quoted moment. -/
theorem OnCalendar.not_signed_zeros_infix {m : Moment} (hm : m.OnCalendar) (hw : m.WholeMinutes)
    {sign : Char} (hsign : sign = '+' ∨ sign = '-') :
    ¬ sign :: "00:00".toList <:+: DateTimeType.offsetDateTime.quoted m := by
  have hdigit : sign.isDigit = false := by rcases hsign with rfl | rfl <;> rfl
  have hsigns : sign ∉ ['"', ':', '.', 'T', 'Z'] := by rcases hsign with rfl | rfl <;> decide
  simp only [List.mem_cons, List.not_mem_nil, or_false, not_or] at hsigns
  obtain ⟨hquote, hcolon, hpoint, hT, hZ⟩ := hsigns
  have hquoted : DateTimeType.offsetDateTime.quoted m =
      ('"' :: ofNat m.year) ++ '-' :: (ofNatPadded 2 m.month ++ '-' ::
        (ofNatPadded 2 m.day ++ 'T' :: (m.timeText ++ (m.offsetText ++ ['"'])))) := by
    simp [DateTimeType.quoted, DateTimeType.fields, dateTimeText, dateText, yearMonthText]
  intro h
  rw [hquoted] at h
  -- The dashes of the date are not followed by a colon at the third place.
  have hmonth := infix_of_infix_append (by simp [hquote, not_mem_ofNat hdigit])
    (fun _ => not_zeros_prefix hm.length_month (by decide)) h
  have hday := infix_of_infix_append (not_mem_ofNatPadded hdigit 2 m.month)
    (fun _ => not_zeros_prefix hm.length_day (by decide)) hmonth
  have htime : sign ∉ ofNatPadded 2 m.day ++ 'T' :: m.timeText := by
    simp [hT, not_mem_ofNatPadded hdigit, not_mem_timeText hdigit (by simp [hcolon, hpoint])]
  rw [← List.cons_append, ← List.append_assoc] at hday
  rcases hw.cases with hz | ⟨k, hk, ho⟩
  · rw [offsetText_of_zero hz] at hday
    have hend := infix_of_infix_append htime (fun hc => absurd hc.symm hZ) hday
    exact absurd hend.length_le (by simp)
  · rw [offsetText_of_minutes hk ho] at hday
    have hend := infix_of_infix_append htime (fun _ => not_zeros_prefix_minutesText (hm.hours_lt ho)
      (Int.natAbs_ne_zero.2 hk) _) hday
    have hmem := hend.subset List.mem_cons_self
    simp [hquote, not_mem_minutesText hdigit hcolon] at hmem

theorem mem_quoted_iff {m : Moment} (hw : m.WholeMinutes) :
    'Z' ∈ DateTimeType.offsetDateTime.quoted m ↔ m.offset.getD 0 = 0 := by
  have hdate : 'Z' ∉ m.dateTimeText := by
    simp [dateTimeText, dateText, yearMonthText, not_mem_ofNat (c := 'Z') rfl,
      not_mem_ofNatPadded (c := 'Z') rfl, not_mem_timeText (c := 'Z') rfl (by decide)]
  have hquoted : 'Z' ∈ DateTimeType.offsetDateTime.quoted m ↔ 'Z' ∈ m.offsetText := by
    simp [DateTimeType.quoted, DateTimeType.fields, hdate]
  rw [hquoted]
  rcases hw.cases with hz | ⟨k, hk, ho⟩
  · exact iff_of_true (by rw [offsetText_of_zero hz]; exact List.mem_singleton_self _) hz
  · refine iff_of_false ?_ (by rw [ho, Option.getD_some]; omega)
    rw [offsetText_of_minutes hk ho, List.mem_cons, not_or]
    exact ⟨by split <;> decide, not_mem_minutesText rfl (by decide) _⟩

end Moment

/-! ## The types side by side -/

namespace DateTimeType

variable {m n : Moment}

theorem dropLast_quoted (t : DateTimeType) (m : Moment) :
    (t.quoted m).dropLast = '"' :: t.fields m := List.dropLast_concat

/-- What stands in front of the offset is the date and time without it. -/
theorem quoted_localDateTime (hm : m.OnCalendar) :
    localDateTime.quoted m = (offsetDateTime.quoted m).take 24 ++ ['"'] := by
  have hfront : (m.pieces.take 14).flatten = '"' :: m.dateTimeText := by
    simp [Moment.pieces, Moment.dateTimeText, Moment.dateText, Moment.yearMonthText, Moment.timeText]
  have hlength : ('"' :: m.dateTimeText).length = 24 := by
    rw [← hfront, hm.length_take_pieces (Nat.le_refl 14)]
    rfl
  have hquoted : offsetDateTime.quoted m = ('"' :: m.dateTimeText) ++ (m.offsetText ++ ['"']) := by
    simp [quoted, fields]
  rw [hquoted, List.take_left' hlength]
  rfl

/-- A date and a time of day are quoted together as one. -/
theorem quoted_localDateTime_eq_append (m : Moment) :
    localDateTime.quoted m = (localDate.quoted m).dropLast ++ 'T' :: (localTime.quoted m).tail := by
  rw [dropLast_quoted]
  simp [quoted, fields, Moment.dateTimeText]

theorem yearMonth_prefix_localDateTime (m : Moment) :
    (yearMonth.quoted m).dropLast <+: localDateTime.quoted m := by
  rw [dropLast_quoted]
  exact ⟨'-' :: (ofNatPadded 2 m.day ++ 'T' :: (m.timeText ++ ['"'])), by
    simp [quoted, fields, Moment.dateTimeText, Moment.dateText]⟩

theorem year_prefix_yearMonth (m : Moment) :
    (year.quoted m).dropLast <+: (yearMonth.quoted m).dropLast := by
  rw [dropLast_quoted, dropLast_quoted]
  exact ⟨'-' :: ofNatPadded 2 m.month, by simp [fields, Moment.yearMonthText]⟩

/-- Quoted dates and times are ordered as local times to the millisecond. -/
theorem orderedAs_quoted (hm : m.OnCalendar) (hn : n.OnCalendar) :
    OrderedAs (localDateTime.quoted m) (localDateTime.quoted n) m.milliseconds n.milliseconds :=
  ((Moment.orderedAs_dateTimeText hm hn).prepend_same ['"']).append_same ['"']

/-- The quoted forms of a moment agree with each other and with the moment. With an offset, its fields
are read back at their positions. Without one, the forms are cut out of that text, and they are ordered
as local times. -/
theorem quoted_faithful (hm : m.OnCalendar) (hn : n.OnCalendar) (hw : m.WholeMinutes) :
    zonedDateTime.quoted m = offsetDateTime.quoted m ∧
      Moment.ofQuoted? (offsetDateTime.quoted m) =
        some { m with
          microsecond := m.microsecond / 1000 * 1000, offset := some (m.offset.getD 0) } ∧
      ('Z' ∈ offsetDateTime.quoted m ↔ m.offset.getD 0 = 0) ∧
      ¬ "+00:00".toList <:+: offsetDateTime.quoted m ∧
      ¬ "-00:00".toList <:+: offsetDateTime.quoted m ∧
      localDateTime.quoted m = (offsetDateTime.quoted m).take 24 ++ ['"'] ∧
      localDateTime.quoted m = (localDate.quoted m).dropLast ++ 'T' :: (localTime.quoted m).tail ∧
      (year.quoted m).dropLast <+: localDateTime.quoted m ∧
      (yearMonth.quoted m).dropLast <+: localDateTime.quoted m ∧
      (localDateTime.quoted m < localDateTime.quoted n ↔ m.milliseconds < n.milliseconds) ∧
      (localDateTime.quoted m = localDateTime.quoted n ↔ m.milliseconds = n.milliseconds) := by
  have hplus := hm.not_signed_zeros_infix hw (.inl rfl)
  have hminus := hm.not_signed_zeros_infix hw (.inr rfl)
  have hprefix := yearMonth_prefix_localDateTime m
  have hordered := orderedAs_quoted hm hn
  exact ⟨rfl, hm.ofQuoted?_quoted hw, Moment.mem_quoted_iff hw, hplus, hminus,
    quoted_localDateTime hm, quoted_localDateTime_eq_append m,
    (year_prefix_yearMonth m).trans hprefix, hprefix, hordered.lt_iff, hordered.eq_iff⟩

/-- The last moment of a leap day behind universal time, and the next midnight. -/
def leapEve : Moment := ⟨2024, 2, 29, 23, 59, 59, 999999, some (-19800000000)⟩

def afterLeapEve : Moment := ⟨2024, 3, 1, 0, 0, 0, 0, none⟩

theorem quoted_faithful_leapEve :
    leapEve.OnCalendar ∧ afterLeapEve.OnCalendar ∧ leapEve.WholeMinutes ∧
      offsetDateTime.quoted leapEve = "\"2024-02-29T23:59:59.999-05:30\"".toList ∧
      Moment.ofQuoted? "\"2024-02-29T23:59:59.999-05:30\"".toList =
        some ⟨2024, 2, 29, 23, 59, 59, 999000, some (-19800000000)⟩ ∧
      leapEve.milliseconds < afterLeapEve.milliseconds := by
  have hm : leapEve.OnCalendar := by constructor <;> decide
  have hn : afterLeapEve.OnCalendar := by constructor <;> decide
  have hw : leapEve.WholeMinutes := by
    intro offset ho
    cases ho
    decide
  have htext : offsetDateTime.quoted leapEve = "\"2024-02-29T23:59:59.999-05:30\"".toList := by decide
  have hbefore : localDateTime.quoted leapEve < localDateTime.quoted afterLeapEve := by decide
  obtain ⟨-, hread, -, -, -, -, -, -, -, hlt, -⟩ := quoted_faithful hm hn hw
  exact ⟨hm, hn, hw, htext, htext ▸ hread, hlt.1 hbefore⟩

end DateTimeType

end RecordSkeleton
