import RecordSkeleton.Proofs.Text.Words
import RecordSkeleton.Text.WordChar

/-!
# Identifiers

The identifiers that declarations are spelled with: an ASCII letter or an underscore, then ASCII
letters, digits and underscores. Their characters are word characters and never blanks, and no blank
is a word character.
-/

namespace RecordSkeleton.Text

/-- ASCII letters, digits and the underscore. -/
def isIdentifierChar (c : Char) : Bool := c.isAlphanum || c == '_'

/-- Whether a text is an identifier. -/
def isIdentifier : Text → Bool
  | [] => false
  | c :: r => (c.isAlpha || c == '_') && r.all isIdentifierChar

theorem ne_of_isIdentifierChar {c d : Char} (hc : isIdentifierChar c = true)
    (hd : isIdentifierChar d = false) : c ≠ d := by
  rintro rfl
  rw [hc] at hd
  cases hd

theorem toNat_between {c : Char} {a b : UInt32} (h : a ≤ c.val ∧ c.val ≤ b) :
    a.toNat ≤ c.toNat ∧ c.toNat ≤ b.toNat :=
  ⟨UInt32.le_iff_toNat_le.1 h.1, UInt32.le_iff_toNat_le.1 h.2⟩

theorem toNat_lt_of_isIdentifierChar {c : Char} (hc : isIdentifierChar c = true) :
    c.toNat < 0x80 ∧ 0x30 ≤ c.toNat := by
  have hcases : (c.isUpper || c.isLower || c.isDigit || c == '_') = true := hc
  simp only [Bool.or_eq_true, beq_iff_eq] at hcases
  rcases hcases with ((h | h) | h) | rfl
  · have hupper : 'A'.val ≤ c.val ∧ c.val ≤ 'Z'.val := of_decide_eq_true h
    have : 65 ≤ c.toNat ∧ c.toNat ≤ 90 := toNat_between hupper
    omega
  · have hlower : (decide ('a'.val ≤ c.val) && decide (c.val ≤ 'z'.val)) = true := h
    rw [Bool.and_eq_true, decide_eq_true_eq, decide_eq_true_eq] at hlower
    have : 97 ≤ c.toNat ∧ c.toNat ≤ 122 := toNat_between hlower
    omega
  · have : 48 ≤ c.toNat ∧ c.toNat ≤ 57 := Char.isDigit_iff_toNat.1 h
    omega
  · decide

theorem not_isBlank_of_isIdentifierChar {c : Char} (hc : isIdentifierChar c = true) :
    isBlank c = false := by
  have := toNat_lt_of_isIdentifierChar hc
  unfold isBlank
  grind

theorem isIdentifierChar_of_isBlank {c : Char} (hc : isBlank c = true) :
    isIdentifierChar c = false := by
  cases h : isIdentifierChar c with
  | false => rfl
  | true => rw [not_isBlank_of_isIdentifierChar h] at hc; cases hc

theorem isWordChar_of_isIdentifierChar {c : Char} (hc : isIdentifierChar c = true) :
    isWordChar c = true := by
  unfold isWordChar
  rw [if_pos (toNat_lt_of_isIdentifierChar hc).1]
  exact hc

def blankCodes : List Nat :=
  [0x09, 0x0A, 0x0B, 0x0C, 0x0D, 0x1C, 0x1D, 0x1E, 0x1F, 0x20, 0x85, 0xA0, 0x1680, 0x2000, 0x2001,
    0x2002, 0x2003, 0x2004, 0x2005, 0x2006, 0x2007, 0x2008, 0x2009, 0x200A, 0x2028, 0x2029, 0x202F,
    0x205F, 0x3000]

theorem toNat_mem_blankCodes {c : Char} (hc : isBlank c = true) : c.toNat ∈ blankCodes := by
  simp only [isBlank, Bool.or_eq_true, Bool.and_eq_true, decide_eq_true_eq, beq_iff_eq] at hc
  simp only [blankCodes, List.mem_cons, List.not_mem_nil, or_false]
  omega

theorem not_isWordChar_of_isBlank {c : Char} (hc : isBlank c = true) : isWordChar c = false := by
  have hall : ∀ n ∈ blankCodes, isWordChar (Char.ofNat n) = false := by decide +kernel
  have := hall c.toNat (toNat_mem_blankCodes hc)
  rwa [Char.ofNat_toNat] at this

theorem isIdentifier_cons {c : Char} {r : Text} (h : isIdentifier (c :: r) = true) :
    (c.isAlpha = true ∨ c = '_') ∧ ∀ x ∈ r, isIdentifierChar x = true := by
  simpa [isIdentifier] using h

theorem isIdentifierChar_of_mem {n : Text} (hn : isIdentifier n = true) :
    ∀ c ∈ n, isIdentifierChar c = true := by
  cases n with
  | nil => cases hn
  | cons d r =>
    obtain ⟨hd, hr⟩ := isIdentifier_cons hn
    intro c hc
    rcases List.mem_cons.1 hc with rfl | hc
    · unfold isIdentifierChar Char.isAlphanum
      rcases hd with hd | rfl
      · rw [hd]; rfl
      · decide
    · exact hr c hc

theorem ne_nil_of_isIdentifier {n : Text} (hn : isIdentifier n = true) : n ≠ [] := by
  rintro rfl
  cases hn

theorem not_isBlank_of_mem_identifier {n : Text} (hn : isIdentifier n = true) :
    ∀ c ∈ n, isBlank c = false :=
  fun c hc => not_isBlank_of_isIdentifierChar (isIdentifierChar_of_mem hn c hc)

theorem not_isBlank_of_head_identifier_append {n : Text} (hn : isIdentifier n = true) (s : Text) :
    ∀ c ∈ (n ++ s).head?, isBlank c = false := by
  cases n with
  | nil => cases hn
  | cons d r =>
    rintro c ⟨⟩
    exact not_isBlank_of_mem_identifier hn d List.mem_cons_self

theorem trim_identifier {n : Text} (hn : isIdentifier n = true) : trim n = n :=
  trim_eq_self (fun c hc => not_isBlank_of_mem_identifier hn c (List.mem_of_mem_head? hc))
    fun c hc => not_isBlank_of_mem_identifier hn c (List.mem_of_getLast? hc)

end RecordSkeleton.Text
