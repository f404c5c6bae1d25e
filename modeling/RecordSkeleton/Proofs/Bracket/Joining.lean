import RecordSkeleton.Proofs.Bracket.Nesting

/-!
# Cutting joined texts

Texts that are joined with commas are cut again where they were joined when none of their own commas
stands at depth zero and the depth is back at zero behind each of them. Behind the last one it may be
anything (`segments_join`).
-/

namespace RecordSkeleton.BracketFamilies

open Text

variable {f : BracketFamilies}

/-- No comma of the text stands at depth zero. -/
def Uncut (f : BracketFamilies) (s : Text) : Prop :=
  ∀ i < s.length, s[i]? = some ',' → balance f.weight (s.take i) ≠ 0

instance (f : BracketFamilies) (s : Text) : Decidable (f.Uncut s) :=
  inferInstanceAs (Decidable (∀ i < s.length, s[i]? = some ',' → balance f.weight (s.take i) ≠ 0))

theorem Uncut.balance_ne {s : Text} (h : f.Uncut s) :
    ∀ p q, s = p ++ ',' :: q → balance f.weight p ≠ 0 := by
  rintro p q rfl
  have hp := h p.length (by simp) (by simp)
  rwa [List.take_left] at hp

/-- A text that is not cut and leaves the depth at zero. -/
theorem Uncut.solid {s : Text} (h : f.Uncut s) (hs : balance f.weight s = 0) : f.Solid s :=
  .of_commas hs h.balance_ne

theorem Uncut.segments_eq {s : Text} (h : f.Uncut s) : f.segments s = [s] := by
  have hcut := cut_append (d := 0) (t := []) fun p q hpq => by
    rw [Int.zero_add]
    exact h.balance_ne p q hpq
  rw [List.append_nil, cut, List.append_nil] at hcut
  rw [segments, hcut]

/-- Texts joined with commas are the segments of the joined text. -/
theorem segments_join (hcomma : f.weight ',' = 0) {parts : List Text} (hne : parts ≠ [])
    (hcut : ∀ s ∈ parts, f.Uncut s) (hbalance : ∀ s ∈ parts.dropLast, balance f.weight s = 0) :
    f.segments (join [','] parts) = parts := by
  induction parts with
  | nil => exact absurd rfl hne
  | cons s parts ih =>
    cases parts with
    | nil =>
      rw [join_cons]
      simpa using (hcut s List.mem_cons_self).segments_eq
    | cons t parts =>
      have hrest := ih (List.cons_ne_nil t parts) (fun u hu => hcut u (List.mem_cons_of_mem s hu))
        fun u hu => hbalance u (List.mem_cons_of_mem s hu)
      have hjoin : join [','] (s :: t :: parts) = s ++ ',' :: join [','] (t :: parts) := by
        rw [join_cons, join_cons]
        rfl
      rw [hjoin, segments_solid_comma hcomma, hrest]
      exact (hcut s List.mem_cons_self).solid (hbalance s List.mem_cons_self)

end RecordSkeleton.BracketFamilies
