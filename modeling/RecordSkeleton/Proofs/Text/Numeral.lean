import Mathlib.Algebra.GroupWithZero.Nat
import Mathlib.Order.Lattice
import RecordSkeleton.Text.Numeral

/-!
# Reading numerals

A numeral is read back from its digits, and numerals of one width stand in the order of their
numbers.

1. A padded numeral has the width that is asked for when its number fits (`length_ofNatPadded`), and
   the number is read back from it (`decimal?_ofNatPadded`).
2. `OrderedAs` says that two texts of one length are ordered as two numbers. It is kept when a field
   is put behind both texts, if the number in front says in which block of numbers the whole lies
   (`OrderedAs.append`).
3. Texts of digits are ordered as what they write (`orderedAs_digits`).
-/

namespace RecordSkeleton.Text

/-! ## Padded numerals -/

/-- The number that a text writes, if it consists of digits. -/
def decimal? (s : Text) : Option Nat :=
  if s ≠ [] ∧ s.all Char.isDigit then some (Nat.ofDigitChars 10 s 0) else none

theorem isDigit_of_mem_ofNatPadded {width n : Nat} {c : Char} (h : c ∈ ofNatPadded width n) :
    c.isDigit = true := by
  rcases List.mem_append.1 h with h | h
  · rw [List.eq_of_mem_replicate h]
    decide
  · exact Nat.isDigit_of_mem_toDigits (by decide) (by decide) h

theorem not_mem_ofNatPadded {c : Char} (hc : c.isDigit = false) (width n : Nat) :
    c ∉ ofNatPadded width n := by
  intro h
  rw [isDigit_of_mem_ofNatPadded h] at hc
  cases hc

theorem not_mem_ofNat {c : Char} (hc : c.isDigit = false) (n : Nat) : c ∉ ofNat n :=
  fun h => not_mem_ofNatPadded hc 0 n (List.mem_append_right _ h)

theorem ofDigitChars_ofNatPadded (width n : Nat) :
    Nat.ofDigitChars 10 (ofNatPadded width n) 0 = n := by
  rw [ofNatPadded, Nat.ofDigitChars_append, Nat.ofDigitChars_replicate_zero, Nat.mul_zero]
  exact Nat.ofDigitChars_toDigits (by decide) (by decide)

theorem length_ofNatPadded {width n : Nat} (hw : 0 < width) (hn : n < 10 ^ width) :
    (ofNatPadded width n).length = width := by
  have hle : (ofNat n).length ≤ width := (Nat.length_toDigits_le_iff (by decide) hw).2 hn
  simp only [ofNatPadded, List.length_append, List.length_replicate]
  omega

/-- A number that fills the width is not padded. -/
theorem ofNatPadded_eq_ofNat {width n : Nat} (hn : 10 ^ width ≤ n) :
    ofNatPadded (width + 1) n = ofNat n := by
  have hlen : width < (ofNat n).length := by
    rcases Nat.eq_zero_or_pos width with rfl | hw
    · exact Nat.length_toDigits_pos
    · exact Nat.lt_of_not_le fun hle =>
        Nat.not_lt.2 hn ((Nat.length_toDigits_le_iff (by decide) hw).1 hle)
  rw [ofNatPadded, Nat.sub_eq_zero_of_le hlen, List.replicate_zero, List.nil_append]

theorem decimal?_ofNatPadded (width n : Nat) :
    decimal? (ofNatPadded width n) = some n := by
  have hne : ofNatPadded width n ≠ [] :=
    List.append_ne_nil_of_right_ne_nil _ (List.ne_nil_of_length_pos Nat.length_toDigits_pos)
  have hdigits : (ofNatPadded width n).all Char.isDigit = true :=
    List.all_eq_true.2 fun _ => isDigit_of_mem_ofNatPadded
  rw [decimal?, if_pos ⟨hne, hdigits⟩, ofDigitChars_ofNatPadded]

/-! ## Texts in the order of numbers -/

/-- Between texts that start with parts of one length, those parts decide first. -/
theorem append_lt_append_iff {s t : Text} (h : s.length = t.length) (u v : Text) :
    s ++ u < t ++ v ↔ s < t ∨ s = t ∧ u < v := by
  induction s generalizing t with
  | nil =>
    obtain rfl := List.length_eq_zero_iff.1 h.symm
    simp
  | cons c s ih =>
    cases t with
    | nil => cases h
    | cons d t =>
      rw [List.cons_append, List.cons_append, List.cons_lt_cons_iff, List.cons_lt_cons_iff,
        ih (Nat.succ.inj h), List.cons.injEq, and_or_left, or_assoc, and_assoc]

/-- Numbers that lie in blocks, the block of `n` from `f n` up to `f (n + 1)`, are ordered by their
blocks and then by their places in the block. -/
theorem block_lt_block_iff {f : Nat → Nat} (hf : Monotone f) {a b i j : Nat}
    (hi : f a + i < f (a + 1)) (hj : f b + j < f (b + 1)) :
    f a + i < f b + j ↔ a < b ∨ a = b ∧ i < j := by
  rcases Nat.lt_trichotomy a b with h | rfl | h
  · have := hf (show a + 1 ≤ b from h)
    omega
  · omega
  · have := hf (show b + 1 ≤ a from h)
    omega

/-- Two texts of one length that are ordered as the numbers `a` and `b`. -/
structure OrderedAs (s t : Text) (a b : Nat) : Prop where
  length_eq : s.length = t.length
  lt_iff : s < t ↔ a < b
  eq_iff : s = t ↔ a = b

namespace OrderedAs

variable {s t u v : Text} {a b i j : Nat}

theorem append {f : Nat → Nat} (hf : Monotone f) (h : OrderedAs s t a b) (hu : OrderedAs u v i j)
    (hi : f a + i < f (a + 1)) (hj : f b + j < f (b + 1)) :
    OrderedAs (s ++ u) (t ++ v) (f a + i) (f b + j) where
  length_eq := by rw [List.length_append, List.length_append, h.length_eq, hu.length_eq]
  lt_iff := by
    rw [append_lt_append_iff h.length_eq, block_lt_block_iff hf hi hj, h.lt_iff, h.eq_iff,
      hu.lt_iff]
  eq_iff := by
    have hab := block_lt_block_iff hf hi hj
    have hba := block_lt_block_iff hf hj hi
    have happend : s ++ u = t ++ v ↔ s = t ∧ u = v :=
      ⟨fun he => List.append_inj he h.length_eq, fun he => by rw [he.1, he.2]⟩
    rw [happend, h.eq_iff, hu.eq_iff]
    omega

/-- A field behind texts of one length, the number in front counting units of `k`. -/
theorem append_mul {k : Nat} (h : OrderedAs s t a b) (hu : OrderedAs u v i j) (hi : i < k)
    (hj : j < k) : OrderedAs (s ++ u) (t ++ v) (a * k + i) (b * k + j) :=
  h.append (f := (· * k)) (fun _ _ hle => Nat.mul_le_mul_right k hle) hu
    (by simpa [Nat.succ_mul] using hi) (by simpa [Nat.succ_mul] using hj)

/-- The same text behind both changes nothing. -/
theorem append_same (h : OrderedAs s t a b) (u : Text) : OrderedAs (s ++ u) (t ++ u) a b where
  length_eq := by rw [List.length_append, List.length_append, h.length_eq]
  lt_iff := by
    rw [append_lt_append_iff h.length_eq, h.lt_iff]
    exact or_iff_left fun hu => List.lt_irrefl u hu.2
  eq_iff := by rw [List.append_cancel_right_eq, h.eq_iff]

/-- The same text in front of both changes nothing. -/
theorem prepend_same (h : OrderedAs s t a b) (u : Text) : OrderedAs (u ++ s) (u ++ t) a b where
  length_eq := by rw [List.length_append, List.length_append, h.length_eq]
  lt_iff := by
    rw [append_lt_append_iff rfl, h.lt_iff]
    exact ⟨fun hu => hu.elim (fun hu => absurd hu (List.lt_irrefl u)) And.right,
      fun hab => .inr ⟨rfl, hab⟩⟩
  eq_iff := by rw [List.append_cancel_left_eq, h.eq_iff]

/-- Counting from 0 instead of 1. -/
theorem pred (h : OrderedAs s t a b) (ha : 0 < a) (hb : 0 < b) :
    OrderedAs s t (a - 1) (b - 1) where
  length_eq := h.length_eq
  lt_iff := h.lt_iff.trans (by omega)
  eq_iff := h.eq_iff.trans (by omega)

end OrderedAs

theorem isDigit_bounds {c : Char} (h : c.isDigit = true) :
    '0'.toNat ≤ c.toNat ∧ c.toNat < '0'.toNat + 10 :=
  ⟨(Char.isDigit_iff_toNat.1 h).1, Nat.lt_succ_of_le (Char.isDigit_iff_toNat.1 h).2⟩

/-- The digits behind a first one add less than a unit of its place. -/
theorem ofDigitChars_lt {s : Text} (hs : ∀ c ∈ s, c.isDigit = true) :
    Nat.ofDigitChars 10 s 0 < 10 ^ s.length := by
  induction s with
  | nil => simp
  | cons c s ih =>
    have hc := isDigit_bounds (hs c List.mem_cons_self)
    have hlt := ih fun d hd => hs d (List.mem_cons_of_mem c hd)
    rw [Nat.ofDigitChars_cons, Nat.ofDigitChars_eq_ofDigitChars_zero, Nat.mul_zero, Nat.zero_add]
    calc 10 ^ s.length * (c.toNat - '0'.toNat) + Nat.ofDigitChars 10 s 0
        < 10 ^ s.length * (c.toNat - '0'.toNat) + 10 ^ s.length := Nat.add_lt_add_left hlt _
      _ = 10 ^ s.length * (c.toNat - '0'.toNat + 1) := (Nat.mul_succ _ _).symm
      _ ≤ 10 ^ s.length * 10 := Nat.mul_le_mul_left _ (by omega)
      _ = 10 ^ (c :: s).length := (Nat.pow_succ ..).symm

theorem orderedAs_digit {c d : Char} (hc : c.isDigit = true) (hd : d.isDigit = true) :
    OrderedAs [c] [d] (c.toNat - '0'.toNat) (d.toNat - '0'.toNat) where
  length_eq := rfl
  lt_iff := by
    have := isDigit_bounds hc
    have := isDigit_bounds hd
    have hlt : c < d ↔ c.toNat < d.toNat := Iff.rfl
    rw [List.cons_lt_cons_iff, hlt]
    simp only [List.not_lt_nil, and_false, or_false]
    omega
  eq_iff := by
    have := isDigit_bounds hc
    have := isDigit_bounds hd
    rw [List.cons.injEq, Char.toNat_inj.symm]
    simp only [and_true]
    omega

/-- Texts of digits that are as long as each other are ordered as the numbers that they write. -/
theorem orderedAs_digits {s t : Text} (hs : ∀ c ∈ s, c.isDigit = true)
    (ht : ∀ c ∈ t, c.isDigit = true) (h : s.length = t.length) :
    OrderedAs s t (Nat.ofDigitChars 10 s 0) (Nat.ofDigitChars 10 t 0) := by
  induction s generalizing t with
  | nil =>
    obtain rfl := List.length_eq_zero_iff.1 h.symm
    exact ⟨rfl, by simp, by simp⟩
  | cons c s ih =>
    cases t with
    | nil => cases h
    | cons d t =>
      have hs' : ∀ c ∈ s, c.isDigit = true := fun x hx => hs x (List.mem_cons_of_mem c hx)
      have ht' : ∀ c ∈ t, c.isDigit = true := fun x hx => ht x (List.mem_cons_of_mem d hx)
      have hlen : s.length = t.length := Nat.succ.inj h
      have hvt := ofDigitChars_lt ht'
      rw [← hlen] at hvt
      have := (orderedAs_digit (hs c List.mem_cons_self) (ht d List.mem_cons_self)).append_mul
        (ih hs' ht' hlen) (ofDigitChars_lt hs') hvt
      rw [Nat.ofDigitChars_cons, Nat.ofDigitChars_cons, Nat.ofDigitChars_eq_ofDigitChars_zero,
        Nat.ofDigitChars_eq_ofDigitChars_zero (l := t), ← hlen]
      simpa [Nat.mul_comm] using this

/-- Numerals of one width are ordered as their numbers. -/
theorem orderedAs_ofNatPadded {width a b : Nat} (hw : 0 < width) (ha : a < 10 ^ width)
    (hb : b < 10 ^ width) : OrderedAs (ofNatPadded width a) (ofNatPadded width b) a b := by
  have hdigits (n : Nat) : ∀ c ∈ ofNatPadded width n, c.isDigit = true :=
    fun _ => isDigit_of_mem_ofNatPadded
  have hlen : (ofNatPadded width a).length = (ofNatPadded width b).length := by
    rw [length_ofNatPadded hw ha, length_ofNatPadded hw hb]
  have := orderedAs_digits (hdigits a) (hdigits b) hlen
  rwa [ofDigitChars_ofNatPadded, ofDigitChars_ofNatPadded] at this

end RecordSkeleton.Text
