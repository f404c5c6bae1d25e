import RecordSkeleton.Text.Utf8

/-!
# Decoding and encoding

The texts that are decoded without a fault are the ones that were encoded. Between bytes and characters
stands the table of well-formed byte sequences, with the code point of each (`Utf8.IsForm`).

1. The encoding of a character is its only form (`Utf8.isForm_encodeChar`, `Utf8.IsForm.eq_encodeChar`).
2. A character is read from its form, whatever follows (`Utf8.IsForm.read_eq`), and from nothing else
   (`Utf8.exists_isForm_of_read`).
3. Bytes are decoded to a text exactly when they are its encoding (`Utf8.decode_eq_ok_iff`), and then
   both ways to decode agree (`Utf8.decodeLossy_encode`).
-/

namespace RecordSkeleton.Utf8

open String (utf8EncodeChar)

/-! ## Forms -/

/-- A byte that goes on with a character. -/
def IsTail (x : UInt8) : Prop := 0x80 ≤ x.toNat ∧ x.toNat ≤ 0xBF

/-- The well-formed byte sequences of one character, with their code points. After some first bytes the
second one is bounded further: the character would have a shorter form, or none. -/
inductive IsForm : List UInt8 → Nat → Prop
  | one {b : UInt8} {n : Nat} (hb : b.toNat < 0x80) (hn : n = b.toNat) : IsForm [b] n
  | two {b x : UInt8} {n : Nat} (hb : 0xC2 ≤ b.toNat ∧ b.toNat < 0xE0) (hx : IsTail x)
    (hn : n = (b.toNat - 0xC0) * 64 + (x.toNat - 0x80)) : IsForm [b, x] n
  | three {b x y : UInt8} {n : Nat} (hb : 0xE0 ≤ b.toNat ∧ b.toNat < 0xF0) (hx : IsTail x)
    (hlow : b.toNat = 0xE0 → 0xA0 ≤ x.toNat) (hhigh : b.toNat = 0xED → x.toNat ≤ 0x9F)
    (hy : IsTail y)
    (hn : n = ((b.toNat - 0xE0) * 64 + (x.toNat - 0x80)) * 64 + (y.toNat - 0x80)) :
    IsForm [b, x, y] n
  | four {b x y z : UInt8} {n : Nat} (hb : 0xF0 ≤ b.toNat ∧ b.toNat < 0xF5) (hx : IsTail x)
    (hlow : b.toNat = 0xF0 → 0x90 ≤ x.toNat) (hhigh : b.toNat = 0xF4 → x.toNat ≤ 0x8F)
    (hy : IsTail y) (hz : IsTail z)
    (hn : n = (((b.toNat - 0xF0) * 64 + (x.toNat - 0x80)) * 64 + (y.toNat - 0x80)) * 64 +
      (z.toNat - 0x80)) :
    IsForm [b, x, y, z] n

/-- The code point of a form is one of a character. -/
theorem IsForm.isValidChar {bytes : List UInt8} {n : Nat} (h : IsForm bytes n) : n.isValidChar := by
  unfold Nat.isValidChar
  cases h with
  | one hb hn => omega
  | two hb hx hn =>
    unfold IsTail at hx
    omega
  | three hb hx hlow hhigh hy hn =>
    unfold IsTail at hx hy
    omega
  | four hb hx hlow hhigh hy hz hn =>
    unfold IsTail at hx hy hz
    omega

theorem IsForm.toNat_eq {bytes : List UInt8} {n : Nat} (h : IsForm bytes n) :
    (Char.ofNat n).toNat = n := by
  unfold Char.ofNat
  rw [dif_pos h.isValidChar]
  rfl

theorem toNat_byte {n : Nat} (h : n < 256) : (UInt8.ofNat n).toNat = n :=
  UInt8.toNat_ofNat_of_lt' h

theorem byte_eq {n : Nat} {b : UInt8} (h : n = b.toNat) : UInt8.ofNat n = b := by
  rw [h, UInt8.ofNat_toNat]

theorem IsForm.eq_encodeChar {bytes : List UInt8} {n : Nat} (h : IsForm bytes n) :
    utf8EncodeChar (Char.ofNat n) = bytes := by
  have hval : (Char.ofNat n).val.toNat = n := h.toNat_eq
  unfold utf8EncodeChar
  rw [hval]
  cases h with
  | one hb hn =>
    rw [if_pos (by omega), hn, UInt8.ofNat_toNat]
  | two hb hx hn =>
    unfold IsTail at hx
    rw [if_neg (by omega), if_pos (by omega)]
    simp only [List.cons.injEq, and_true]
    exact ⟨byte_eq (by omega), byte_eq (by omega)⟩
  | three hb hx hlow hhigh hy hn =>
    unfold IsTail at hx hy
    rw [if_neg (by omega), if_neg (by omega), if_pos (by omega)]
    simp only [List.cons.injEq, and_true]
    exact ⟨byte_eq (by omega), byte_eq (by omega), byte_eq (by omega)⟩
  | four hb hx hlow hhigh hy hz hn =>
    unfold IsTail at hx hy hz
    rw [if_neg (by omega), if_neg (by omega), if_neg (by omega)]
    simp only [List.cons.injEq, and_true]
    exact ⟨byte_eq (by omega), byte_eq (by omega), byte_eq (by omega), byte_eq (by omega)⟩

theorem toNat_tail (m : Nat) : (UInt8.ofNat (m % 0x40 + 0x80)).toNat = m % 0x40 + 0x80 :=
  toNat_byte (by omega)

theorem isTail_tail (m : Nat) : IsTail (UInt8.ofNat (m % 0x40 + 0x80)) := by
  unfold IsTail
  rw [toNat_tail]
  omega

theorem isForm_encodeChar (c : Char) : IsForm (utf8EncodeChar c) c.toNat := by
  have hvalid : c.toNat.isValidChar := c.valid
  unfold Nat.isValidChar at hvalid
  unfold utf8EncodeChar
  rw [show c.val.toNat = c.toNat from rfl]
  generalize c.toNat = v at hvalid ⊢
  have hlast := toNat_tail v
  have hsecond := toNat_tail (v / 64)
  have hthird := toNat_tail (v / 4096)
  by_cases h₁ : v ≤ 0x7f
  · have hfirst : (UInt8.ofNat v).toNat = v := toNat_byte (by omega)
    rw [if_pos h₁]
    exact .one (by omega) hfirst.symm
  by_cases h₂ : v ≤ 0x7ff
  · have hfirst : (UInt8.ofNat (v / 64 % 0x20 + 0xc0)).toNat = v / 64 % 0x20 + 0xc0 :=
      toNat_byte (by omega)
    rw [if_neg h₁, if_pos h₂]
    exact .two (by omega) (isTail_tail v) (by omega)
  by_cases h₃ : v ≤ 0xffff
  · have hfirst : (UInt8.ofNat (v / 4096 % 0x10 + 0xe0)).toNat = v / 4096 % 0x10 + 0xe0 :=
      toNat_byte (by omega)
    rw [if_neg h₁, if_neg h₂, if_pos h₃]
    exact .three (by omega) (isTail_tail (v / 64)) (by omega) (by omega) (isTail_tail v) (by omega)
  · have hfirst : (UInt8.ofNat (v / 262144 % 0x08 + 0xf0)).toNat = v / 262144 % 0x08 + 0xf0 :=
      toNat_byte (by omega)
    rw [if_neg h₁, if_neg h₂, if_neg h₃]
    exact .four (by omega) (isTail_tail (v / 4096)) (by omega) (by omega) (isTail_tail (v / 64))
      (isTail_tail v) (by omega)

/-! ## Reading a character -/

/-- A continuation byte in its range is read. -/
theorem continuation_cons {low high bits n : Nat} {x : UInt8} {r : List UInt8}
    (h : low ≤ x.toNat ∧ x.toNat ≤ high) {k point : Nat} {rest : List UInt8}
    (hrest : continuation 0x80 0xBF (bits * 64 + (x.toNat - 0x80)) n r = (k, point, rest)) :
    continuation low high bits (n + 1) (x :: r) = (k + 1, point, rest) := by
  rw [continuation, if_pos h, hrest]

/-- When all continuation bytes are there, the first of them is in its range. -/
theorem exists_of_continuation {low high bits n point : Nat} {s rest : List UInt8}
    (h : continuation low high bits (n + 1) s = (n + 1, point, rest)) :
    ∃ x r, s = x :: r ∧ (low ≤ x.toNat ∧ x.toNat ≤ high) ∧
      continuation 0x80 0xBF (bits * 64 + (x.toNat - 0x80)) n r = (n, point, rest) := by
  cases s with
  | nil => cases h
  | cons x r =>
    rw [continuation] at h
    split at h
    · rename_i hx
      refine ⟨x, r, rfl, hx, ?_⟩
      generalize continuation 0x80 0xBF (bits * 64 + (x.toNat - 0x80)) n r = found at h ⊢
      obtain ⟨k, p, q⟩ := found
      cases h
      rfl
    · cases h

theorem continuation_zero (low high bits : Nat) (s : List UInt8) :
    continuation low high bits 0 s = (0, bits, s) := by
  rw [continuation]
  rintro _ _ _ ⟨⟩

/-- A character is read when all bytes are there that its first byte announces. -/
theorem read_eq_ok {b : UInt8} {r : List UInt8} {l : Lead} (hlead : lead? b = some l) {point : Nat}
    {rest : List UInt8}
    (h : continuation l.low l.high l.bits l.following r = (l.following, point, rest)) :
    read b r = (.ok (Char.ofNat point), rest) := by
  unfold read
  simp only [hlead, h, if_true]

/-- The bounds of a second byte `x`, after a first byte `b` of which the values `p` and `q` are special. -/
theorem bounds_iff {b p low q high : Nat} {x : UInt8} (hlow : 0x80 ≤ low) (hhigh : high ≤ 0xBF) :
    ((if b = p then low else 0x80) ≤ x.toNat ∧ x.toNat ≤ if b = q then high else 0xBF) ↔
      IsTail x ∧ (b = p → low ≤ x.toNat) ∧ (b = q → x.toNat ≤ high) := by
  unfold IsTail
  split <;> split <;> omega

/-- The first bytes of a character, with what they announce. -/
inductive IsLead (b : UInt8) : Lead → Prop
  | one (hb : b.toNat < 0x80) : IsLead b ⟨0, 0x80, 0xBF, b.toNat⟩
  | two (hb : 0xC2 ≤ b.toNat ∧ b.toNat < 0xE0) : IsLead b ⟨1, 0x80, 0xBF, b.toNat - 0xC0⟩
  | three (hb : 0xE0 ≤ b.toNat ∧ b.toNat < 0xF0) :
    IsLead b ⟨2, if b.toNat = 0xE0 then 0xA0 else 0x80, if b.toNat = 0xED then 0x9F else 0xBF,
      b.toNat - 0xE0⟩
  | four (hb : 0xF0 ≤ b.toNat ∧ b.toNat < 0xF5) :
    IsLead b ⟨3, if b.toNat = 0xF0 then 0x90 else 0x80, if b.toNat = 0xF4 then 0x8F else 0xBF,
      b.toNat - 0xF0⟩

theorem IsLead.lead?_eq {b : UInt8} {l : Lead} (h : IsLead b l) : lead? b = some l := by
  unfold lead?
  cases h with
  | one hb => rw [if_pos hb]
  | two hb => rw [if_neg (by omega), if_neg (by omega), if_pos (by omega)]
  | three hb => rw [if_neg (by omega), if_neg (by omega), if_neg (by omega), if_pos (by omega)]
  | four hb =>
    rw [if_neg (by omega), if_neg (by omega), if_neg (by omega), if_neg (by omega),
      if_pos (by omega)]

theorem isLead_of_lead? {b : UInt8} {l : Lead} (h : lead? b = some l) : IsLead b l := by
  unfold lead? at h
  by_cases h₁ : b.toNat < 0x80
  · rw [if_pos h₁] at h
    cases h
    exact .one h₁
  rw [if_neg h₁] at h
  by_cases h₂ : b.toNat < 0xC2
  · rw [if_pos h₂] at h
    cases h
  rw [if_neg h₂] at h
  by_cases h₃ : b.toNat < 0xE0
  · rw [if_pos h₃] at h
    cases h
    exact .two (by omega)
  rw [if_neg h₃] at h
  by_cases h₄ : b.toNat < 0xF0
  · rw [if_pos h₄] at h
    cases h
    exact .three (by omega)
  rw [if_neg h₄] at h
  by_cases h₅ : b.toNat < 0xF5
  · rw [if_pos h₅] at h
    cases h
    exact .four (by omega)
  · rw [if_neg h₅] at h
    cases h

theorem IsForm.read_eq {b : UInt8} {tail : List UInt8} {n : Nat} (h : IsForm (b :: tail) n)
    (r : List UInt8) : read b (tail ++ r) = (.ok (Char.ofNat n), r) := by
  cases h with
  | one hb hn =>
    rw [hn]
    exact read_eq_ok (IsLead.one hb).lead?_eq (continuation_zero _ _ _ r)
  | two hb hx hn =>
    rw [hn]
    exact read_eq_ok (IsLead.two hb).lead?_eq (continuation_cons hx (continuation_zero _ _ _ r))
  | three hb hx hlow hhigh hy hn =>
    rw [hn]
    have hbounds := (bounds_iff (by decide) (by decide)).2 ⟨hx, hlow, hhigh⟩
    exact read_eq_ok (IsLead.three hb).lead?_eq (continuation_cons hbounds
      (continuation_cons hy (continuation_zero _ _ _ r)))
  | four hb hx hlow hhigh hy hz hn =>
    rw [hn]
    have hbounds := (bounds_iff (by decide) (by decide)).2 ⟨hx, hlow, hhigh⟩
    exact read_eq_ok (IsLead.four hb).lead?_eq (continuation_cons hbounds
      (continuation_cons hy (continuation_cons hz (continuation_zero _ _ _ r))))

/-- What is read as a character has all bytes that its first byte announces. -/
theorem exists_of_read {b : UInt8} {r rest : List UInt8} {c : Char}
    (h : read b r = (.ok c, rest)) :
    ∃ l point, lead? b = some l ∧ c = Char.ofNat point ∧
      continuation l.low l.high l.bits l.following r = (l.following, point, rest) := by
  unfold read at h
  cases hlead : lead? b with
  | none =>
    rw [hlead] at h
    cases h
  | some l =>
    simp only [hlead] at h
    generalize hfound : continuation l.low l.high l.bits l.following r = found at h
    obtain ⟨k, point, q⟩ := found
    simp only at h
    split at h
    · rename_i hk
      cases h
      exact ⟨l, point, rfl, rfl, by rw [hfound, hk]⟩
    · cases h

/-- What is read as a character is one of its forms. -/
theorem exists_isForm_of_read {b : UInt8} {r rest : List UInt8} {c : Char}
    (h : read b r = (.ok c, rest)) :
    ∃ tail n, r = tail ++ rest ∧ IsForm (b :: tail) n ∧ c = Char.ofNat n := by
  obtain ⟨l, n, hlead, rfl, hread⟩ := exists_of_read h
  cases isLead_of_lead? hlead with
  | one hb =>
    rw [continuation_zero] at hread
    cases hread
    exact ⟨[], _, rfl, .one hb rfl, rfl⟩
  | two hb =>
    obtain ⟨x, r, rfl, hx, hread⟩ := exists_of_continuation hread
    rw [continuation_zero, Prod.mk.injEq, Prod.mk.injEq] at hread
    obtain ⟨-, hn, rfl⟩ := hread
    exact ⟨[x], n, rfl, .two hb hx hn.symm, rfl⟩
  | three hb =>
    obtain ⟨x, r, rfl, hx, hread⟩ := exists_of_continuation hread
    obtain ⟨y, r, rfl, hy, hread⟩ := exists_of_continuation hread
    rw [continuation_zero, Prod.mk.injEq, Prod.mk.injEq] at hread
    obtain ⟨-, hn, rfl⟩ := hread
    obtain ⟨hx, hlow, hhigh⟩ := (bounds_iff (by decide) (by decide)).1 hx
    exact ⟨[x, y], n, rfl, .three hb hx hlow hhigh hy hn.symm, rfl⟩
  | four hb =>
    obtain ⟨x, r, rfl, hx, hread⟩ := exists_of_continuation hread
    obtain ⟨y, r, rfl, hy, hread⟩ := exists_of_continuation hread
    obtain ⟨z, r, rfl, hz, hread⟩ := exists_of_continuation hread
    rw [continuation_zero, Prod.mk.injEq, Prod.mk.injEq] at hread
    obtain ⟨-, hn, rfl⟩ := hread
    obtain ⟨hx, hlow, hhigh⟩ := (bounds_iff (by decide) (by decide)).1 hx
    exact ⟨[x, y, z], n, rfl, .four hb hx hlow hhigh hy hz hn.symm, rfl⟩

/-! ## Decoding -/

theorem eq_encodeChar_of_read {b : UInt8} {r rest : List UInt8} {c : Char}
    (h : read b r = (.ok c, rest)) : b :: r = utf8EncodeChar c ++ rest := by
  obtain ⟨tail, n, rfl, hform, rfl⟩ := exists_isForm_of_read h
  rw [hform.eq_encodeChar]
  rfl

theorem exists_read_encodeChar (c : Char) (r : List UInt8) :
    ∃ b s, utf8EncodeChar c ++ r = b :: s ∧ read b s = (.ok c, r) := by
  have hform := isForm_encodeChar c
  cases hbytes : utf8EncodeChar c with
  | nil =>
    rw [hbytes] at hform
    cases hform
  | cons b tail =>
    rw [hbytes] at hform
    refine ⟨b, tail ++ r, rfl, ?_⟩
    rw [hform.read_eq, Char.ofNat_toNat]

theorem eq_encode_of_decodeFrom {offset : Nat} {s : List UInt8} {text : Text}
    (h : decodeFrom offset s = .ok text) : s = encode text := by
  fun_induction decodeFrom offset s generalizing text with
  | case1 =>
    cases h
    rfl
  | case2 offset b r c hread ih =>
    cases hrest : decodeFrom (offset + c.utf8Size) (read b r).2 with
    | error fault =>
      rw [hrest] at h
      cases h
    | ok rest =>
      rw [hrest] at h
      cases h
      have hbytes : b :: r = utf8EncodeChar c ++ (read b r).2 :=
        eq_encodeChar_of_read (Prod.ext hread rfl)
      rw [hbytes, ih hrest]
      rfl
  | case3 => cases h

theorem decodeFrom_encode (offset : Nat) (text : Text) :
    decodeFrom offset (encode text) = .ok text := by
  induction text generalizing offset with
  | nil => rw [encode, List.flatMap_nil, decodeFrom]
  | cons c text ih =>
    obtain ⟨b, s, hbytes, hread⟩ := exists_read_encodeChar c (encode text)
    have hencode : encode (c :: text) = b :: s := hbytes
    rw [hencode, decodeFrom, hread]
    simp only
    rw [ih]
    rfl

/-- Bytes are decoded to a text exactly when they are its encoding. -/
theorem decode_eq_ok_iff {s : List UInt8} {text : Text} : decode s = .ok text ↔ s = encode text := by
  constructor
  · exact eq_encode_of_decodeFrom
  · rintro rfl
    exact decodeFrom_encode 0 text

/-- Nothing is lost where there is no fault. -/
theorem decodeLossy_encode (text : Text) : decodeLossy (encode text) = text := by
  induction text with
  | nil => rw [encode, List.flatMap_nil, decodeLossy]
  | cons c text ih =>
    obtain ⟨b, s, hbytes, hread⟩ := exists_read_encodeChar c (encode text)
    have hencode : encode (c :: text) = b :: s := hbytes
    rw [hencode, decodeLossy, hread]
    simp only
    rw [ih]

/-- Bytes that encode no text have a fault. -/
theorem exists_fault {s : List UInt8} (h : ∀ text, s ≠ encode text) :
    ∃ fault, decode s = .error fault := by
  cases hdecode : decode s with
  | error fault => exact ⟨fault, rfl⟩
  | ok text => exact absurd (decode_eq_ok_iff.1 hdecode) (h text)

end RecordSkeleton.Utf8
