import RecordSkeleton.Proofs.Generation.Similar

/-!
# Fixed texts

The texts that the fixed table and the containers give without a catalog are a few words and numbers
and the quoted moments. A moment is written with digits and a few separators.

1. Every character of a written moment is one of these (`isMomentText_fields`).
2. A fixed text is one of five words, or a quoted text of such characters (`FixedText.cases`).
-/

namespace RecordSkeleton

open Text

/-- The characters that moments are written with. -/
def isMomentChar (c : Char) : Bool := c.isDigit || ['-', ':', '.', 'T', 'Z', '+'].contains c

/-! ## Moments -/

def IsMomentText (s : Text) : Prop := ∀ c ∈ s, isMomentChar c = true

namespace IsMomentText

theorem append {s t : Text} (hs : IsMomentText s) (ht : IsMomentText t) : IsMomentText (s ++ t) := by
  intro c hc
  rcases List.mem_append.1 hc with hc | hc
  · exact hs c hc
  · exact ht c hc

theorem singleton {c : Char} (hc : isMomentChar c = true) : IsMomentText [c] := by
  intro d hd
  rw [List.mem_singleton.1 hd]
  exact hc

theorem cons {c : Char} {s : Text} (hc : isMomentChar c = true) (hs : IsMomentText s) :
    IsMomentText (c :: s) := (singleton hc).append hs

theorem ofNat (n : Nat) : IsMomentText (ofNat n) := by
  intro c hc
  have hd : c.isDigit = true := Nat.isDigit_of_mem_toDigits (by decide) (by decide) hc
  unfold isMomentChar
  rw [hd]
  rfl

theorem ofNatPadded (width n : Nat) : IsMomentText (ofNatPadded width n) := by
  refine append (fun c hc => ?_) (ofNat n)
  rw [List.eq_of_mem_replicate hc]
  decide

theorem yearMonthText (m : Moment) : IsMomentText m.yearMonthText :=
  ((ofNat _).append (singleton (by decide))).append (ofNatPadded _ _)

theorem dateText (m : Moment) : IsMomentText m.dateText :=
  ((yearMonthText m).append (singleton (by decide))).append (ofNatPadded _ _)

theorem timeText (m : Moment) : IsMomentText m.timeText := by
  have hcolon : IsMomentText [':'] := singleton (by decide)
  exact (((((ofNatPadded _ _).append hcolon).append (ofNatPadded _ _)).append hcolon).append
    (ofNatPadded _ _)).append (singleton (by decide)) |>.append (ofNatPadded _ _)

theorem offsetText (m : Moment) : IsMomentText m.offsetText := by
  unfold Moment.offsetText
  split
  · exact singleton (by decide)
  · split
    · exact singleton (by decide)
    · refine (append ?_ (singleton (by decide))).append (ofNatPadded _ _)
      exact cons (by split <;> decide) (ofNatPadded _ _)

theorem dateTimeText (m : Moment) : IsMomentText m.dateTimeText :=
  ((dateText m).append (singleton (by decide))).append (timeText m)

end IsMomentText

theorem isMomentText_fields (t : DateTimeType) (m : Moment) : IsMomentText (t.fields m) := by
  cases t with
  | localDate => exact .dateText m
  | localDateTime => exact .dateTimeText m
  | yearMonth => exact .yearMonthText m
  | year => exact .ofNat m.year
  | localTime => exact .timeText m
  | offsetDateTime => exact (IsMomentText.dateTimeText m).append (.offsetText m)
  | zonedDateTime => exact (IsMomentText.dateTimeText m).append (.offsetText m)

/-! ## Fixed texts -/

/-- The fixed texts that show no moment. -/
def fixedWords : List Text :=
  [['"', '"'], "null".toList, "0".toList, "0.0".toList, "false".toList]

/-- A fixed text is one of the words or a quoted moment. -/
theorem FixedText.cases {moment : Moment} {text : Text} (h : FixedText moment text) :
    text ∈ fixedWords ∨ ∃ x, IsMomentText x ∧ text = '"' :: (x ++ ['"']) := by
  have hwords : ∀ p ∈ primitiveDefaults, p.2 ∈ fixedWords := by decide
  rcases h with rfl | rfl | ⟨name, h⟩
  · exact Or.inl (by decide)
  · exact Or.inl (by decide)
  · rcases Option.or_eq_some_iff.1 h with h | ⟨-, h⟩
    · obtain ⟨l, r, hl, -⟩ := List.lookup_eq_some_iff.1 h
      have hmem : (name, text) ∈ primitiveDefaults := by
        rw [hl]
        exact List.mem_append_right l List.mem_cons_self
      exact Or.inl (hwords _ hmem)
    · obtain ⟨t, -, rfl⟩ := Option.map_eq_some_iff.1 h
      exact Or.inr ⟨t.fields moment, isMomentText_fields t moment, rfl⟩

end RecordSkeleton
