import RecordSkeleton.Proofs.Java.Components
import RecordSkeleton.Proofs.Java.MarkerPrefix
import RecordSkeleton.Proofs.Java.Scan

/-!
# What stands in front of a constructor

The markers of a constructor are read off the words between the end of the member in front and its name.

1. The search for that end goes backwards and passes over a text in which it may stop nowhere
   (`backwardBoundary?_append`), such as a *joined* text (`Joined`): one whose semicolons and braces all
   stand in round brackets. So the words are those of the joined text behind the last end of a member
   (`wordsBefore_joined`).
2. Blanks do not count when a text is put one space apart: its brackets stay nested
   (`exists_squeezeTail_nested`).
3. So the words of a prefix of markers and access modifiers, in any order, are such a prefix
   (`PrefixSpelling.prefixText`), and the names of its markers are read from them.
-/

namespace RecordSkeleton

open Text

theorem balance_reverse (w : Char → Int) (s : Text) : balance w s.reverse = balance w s := by
  induction s with
  | nil => rfl
  | cons c s ih =>
    rw [List.reverse_cons, balance_append, ih, balance_cons, balance_cons, balance_nil]
    omega

/-- No suffix of a nested text opens more brackets than it closes. -/
theorem Nested.balance_suffix {w : Char → Int} {s t : Text} (h : Nested w (s ++ t)) :
    balance w t ≤ 0 := by
  have h₁ := h.balance_eq
  have h₂ := h.nonneg s (List.prefix_append s t)
  rw [balance_append] at h₁
  omega

namespace Java

/-! ## The search for the end of a member -/

theorem endsMember_eq_false {c : Char} (h : c ∉ brackets ∧ c ≠ ';') : endsMember c = false := by
  obtain ⟨hb, hs⟩ := h
  have hne : ∀ d ∈ brackets, c ≠ d := fun d hd e => hb (e ▸ hd)
  unfold endsMember
  rw [beq_false_of_ne hs, beq_false_of_ne (hne _ (by decide)), beq_false_of_ne (hne _ (by decide))]
  rfl

theorem weight_round_of_endsMember {c : Char} (h : endsMember c = true) :
    Brackets.round.weight c = 0 := by
  refine Brackets.weight_eq_zero ?_ ?_ <;>
    · rintro rfl
      cases h

/-- The search, with depth `d` at the front of a text that is read backwards, may stop at offset `k`: a
character that ends a member stands there, and the round brackets in front of it make up for the depth. -/
def StopsAt (d : Int) (x : Text) (k : Nat) : Prop :=
  (∃ c ∈ x[k]?, endsMember c = true) ∧ balance Brackets.round.weight (x.take k) = d

section Search

variable {d : Int} {c : Char} {r x : Text} {k : Nat}

theorem StopsAt.lt_length (h : StopsAt d x k) : k < x.length := by
  obtain ⟨⟨c, hc, -⟩, -⟩ := h
  exact (List.getElem?_eq_some_iff.1 hc).1

theorem stopsAt_zero : StopsAt d (c :: r) 0 ↔ d = 0 ∧ endsMember c = true := by
  unfold StopsAt
  rw [List.take_zero, balance_nil, eq_comm (a := (0 : Int)), and_comm]
  simp

theorem stopsAt_succ :
    StopsAt d (c :: r) (k + 1) ↔ StopsAt (d - Brackets.round.weight c) r k := by
  unfold StopsAt
  rw [List.getElem?_cons_succ, List.take_succ_cons, balance_cons]
  refine and_congr_right fun _ => ?_
  omega

/-- One step of the search: it stops where it may, and goes on in front of any other character. -/
theorem backwardBoundary?_cons (d : Int) (c : Char) (r : Text) :
    backwardBoundary? d (c :: r) = if d = 0 ∧ endsMember c then some 0
      else (backwardBoundary? (d - Brackets.round.weight c) r).map (· + 1) := by
  rw [backwardBoundary?]
  by_cases hclose : c = ')'
  · subst hclose
    rw [if_pos rfl, if_neg fun h => absurd h.2 (by decide)]
    rfl
  · by_cases hopen : c = '('
    · subst hopen
      rw [if_neg hclose, if_pos rfl, if_neg fun h => absurd h.2 (by decide)]
      rfl
    · rw [if_neg hclose, if_neg hopen, Brackets.weight_eq_zero hopen hclose, Int.sub_zero]

/-- The search passes over a text, here read backwards, in which it may stop nowhere. -/
theorem backwardBoundary?_append (h : ∀ k, ¬ StopsAt d x k) (y : Text) :
    backwardBoundary? d (x ++ y) =
      (backwardBoundary? (d - balance Brackets.round.weight x) y).map (x.length + ·) := by
  induction x generalizing d with
  | nil => simp
  | cons c r ih =>
    have hstep := ih (d := d - Brackets.round.weight c) fun k hk => h (k + 1) (stopsAt_succ.2 hk)
    rw [List.cons_append, backwardBoundary?_cons, if_neg fun hstop => h 0 (stopsAt_zero.2 hstop), hstep,
      Option.map_map, balance_cons, Int.sub_sub]
    congr 1
    funext k
    simp only [Function.comp, List.length_cons]
    omega

end Search

/-- A text that the search for the end of a member passes over when it comes to it outside brackets. -/
def Joined (x : Text) : Prop :=
  ∀ y, backwardBoundary? 0 (x.reverse ++ y) = (backwardBoundary? 0 y).map (x.length + ·)

namespace Joined

theorem nil : Joined [] := by
  intro y
  simp

theorem append {x y : Text} (hx : Joined x) (hy : Joined y) : Joined (x ++ y) := by
  intro z
  rw [List.reverse_append, List.append_assoc, hy, hx, Option.map_map, List.length_append]
  congr 1
  funext k
  simp only [Function.comp]
  omega

theorem of_forall {x : Text} (h : ∀ c ∈ x, c ∉ brackets ∧ c ≠ ';') : Joined x := by
  intro y
  have hzero : balance Brackets.round.weight x.reverse = 0 :=
    balance_eq_zero fun c hc => weight_of_not_mem_brackets (h c (List.mem_reverse.1 hc)).1 _ round_mem
  have hnone : ∀ k, ¬ StopsAt 0 x.reverse k := by
    rintro k ⟨⟨c, hc, hends⟩, -⟩
    have hmem : c ∈ x := List.mem_reverse.1 (List.mem_of_getElem? hc)
    rw [endsMember_eq_false (h c hmem)] at hends
    cases hends
  have hpass := backwardBoundary?_append hnone y
  rwa [hzero, Int.sub_zero, List.length_reverse] at hpass

theorem singleton {c : Char} (h : c ∉ brackets ∧ c ≠ ';') : Joined [c] :=
  .of_forall fun d hd => by rw [List.mem_singleton.1 hd]; exact h

theorem of_allBlank {g : Text} (hg : AllBlank g) : Joined g := by
  refine .of_forall fun c hc => ⟨not_mem_brackets_of_isBlank (hg c hc), ?_⟩
  rintro rfl
  exact absurd (hg _ hc) (by decide)

theorem of_dottedName {n : Text} (hn : DottedName n) : Joined n := by
  refine .of_forall fun c hc => ⟨hn.not_mem_brackets c hc, ?_⟩
  rintro rfl
  rcases hn.char _ hc with hi | hi
  · cases hi
  · cases hi

/-- What is nested in round brackets is passed over, whatever it holds. -/
theorem group {a : Text} (ha : Nested Brackets.round.weight a) : Joined ('(' :: (a ++ [')'])) := by
  intro y
  have hreverse : ('(' :: (a ++ [')'])).reverse = ')' :: (a.reverse ++ ['(']) := by simp
  have hzero : balance Brackets.round.weight (')' :: (a.reverse ++ ['('])) = 0 := by
    rw [← hreverse, balance_reverse]
    exact (ha.wrap rfl rfl).balance_eq
  have hpass := backwardBoundary?_append (d := 0) (x := ')' :: (a.reverse ++ ['('])) ?_ y
  · rw [hreverse, hpass, hzero, Int.sub_zero]
    simp
  · intro k hk
    have hlt := hk.lt_length
    obtain ⟨⟨c, hc, hends⟩, hbalance⟩ := hk
    cases k with
    | zero =>
      cases hc
      cases hends
    | succ k =>
      -- In front of any other character stand the closing bracket and a suffix of the inside.
      have hle : k ≤ a.reverse.length := by
        simp only [List.length_cons, List.length_append, List.length_nil] at hlt
        omega
      have hsuffix : balance Brackets.round.weight (a.drop (a.length - k)) ≤ 0 := by
        refine Nested.balance_suffix (s := a.take (a.length - k)) ?_
        rwa [List.take_append_drop]
      have hclose : Brackets.round.weight ')' = -1 := rfl
      rw [List.take_succ_cons, List.take_append_of_le_length hle, List.take_reverse, balance_cons,
        balance_reverse, hclose] at hbalance
      omega

end Joined

/-- The words in front of a place are those of a joined text behind the end of a member or at the start
of the body. -/
theorem wordsBefore_joined {s u front x v : Text} {start pos : Nat} (hx : Joined x)
    (hfront : ∀ c ∈ front.getLast?, endsMember c = true) (hs : s = u ++ (front ++ (x ++ v)))
    (hstart : start = u.length) (hpos : pos = u.length + front.length + x.length) :
    wordsBefore s start pos = join [' '] (words x) := by
  have hslice : slice s start pos = front ++ x := by
    refine slice_eq (u := u) (w := v) ?_ hstart ?_
    · rw [hs, List.append_assoc]
    · rw [hpos, List.length_append, Nat.add_assoc]
  have hboundary : backwardBoundary? 0 (front ++ x).reverse =
      (backwardBoundary? 0 front.reverse).map (x.length + ·) := by
    rw [List.reverse_append, hx]
  have hfirst : ((memberBoundary? s start pos).map (· + 1)).getD start = u.length + front.length := by
    unfold memberBoundary?
    rw [hslice, hboundary]
    rcases List.eq_nil_or_concat front with rfl | ⟨t, c, rfl⟩
    · simpa [backwardBoundary?] using hstart
    · have hc : endsMember c = true := hfront c (by simp)
      rw [List.concat_eq_append] at hpos ⊢
      rw [List.reverse_append, List.reverse_singleton, List.singleton_append, backwardBoundary?_cons,
        if_pos ⟨rfl, hc⟩]
      simp only [List.length_append, List.length_singleton] at hpos ⊢
      simp only [Option.map_some, Option.getD_some]
      omega
  have hlast : slice s (u.length + front.length) pos = x := by
    refine slice_eq (u := u ++ front) (w := v) ?_ ?_ ?_
    · rw [hs, List.append_assoc]
    · rw [List.length_append]
    · rw [hpos, List.length_append]
  unfold wordsBefore
  simp only [hfirst, hlast]

/-! ## One space apart -/

section Squeeze

variable {w : Char → Int} {c : Char} (hw : ∀ b, isBlank b = true → w b = 0) (hc : isBlank c = false)

include hw hc

/-- Put one space apart, the text in front of a character that stays runs through the same balances. -/
theorem exists_squeezeTail_append (a x : Text) :
    ∃ a', squeezeTail (a ++ c :: x) = a' ++ c :: squeezeTail x ∧ balance w a' = balance w a ∧
      ∀ q, q <+: a' → ∃ p, p <+: a ∧ balance w q = balance w p := by
  induction a with
  | nil => exact ⟨[], squeezeTail_cons hc x, rfl, fun q hq => ⟨q, hq, rfl⟩⟩
  | cons b a ih =>
    obtain ⟨a', hsqueeze, hbalance, hprefix⟩ := ih
    by_cases hb : isBlank b = true
    · obtain ⟨v, hv, hs⟩ := squeezeTail_blanks_append (allBlank_cons hb allBlank_nil) (a ++ c :: x)
      have hzero : ∀ q, q <+: v → balance w q = 0 := fun q hq =>
        balance_eq_zero fun d hd => hw d (hv d (hq.subset hd))
      refine ⟨v ++ a', ?_, ?_, fun q hq => ?_⟩
      · rw [hsqueeze] at hs
        rw [List.append_assoc]
        exact hs
      · rw [balance_append, hzero v (List.prefix_refl v), balance_cons, hw b hb, hbalance]
      · rcases prefix_append_cases hq with hv' | ⟨r, hr, rfl⟩
        · exact ⟨[], List.nil_prefix, hzero q hv'⟩
        · obtain ⟨p, hp, he⟩ := hprefix r hr
          refine ⟨b :: p, List.cons_prefix_cons.2 ⟨rfl, hp⟩, ?_⟩
          rw [balance_append, hzero v (List.prefix_refl v), balance_cons, hw b hb, he]
    · refine ⟨b :: a', ?_, ?_, fun q hq => ?_⟩
      · rw [List.cons_append, squeezeTail_cons (by simpa using hb), hsqueeze, List.cons_append]
      · rw [balance_cons, balance_cons, hbalance]
      · cases q with
        | nil => exact ⟨[], List.nil_prefix, rfl⟩
        | cons d r =>
          obtain ⟨rfl, hr⟩ := List.cons_prefix_cons.1 hq
          obtain ⟨p, hp, he⟩ := hprefix r hr
          refine ⟨d :: p, List.cons_prefix_cons.2 ⟨rfl, hp⟩, ?_⟩
          rw [balance_cons, balance_cons, he]

/-- Put one space apart, a nested text stays nested. -/
theorem exists_squeezeTail_nested {a : Text} (ha : Nested w a) (x : Text) :
    ∃ a', squeezeTail (a ++ c :: x) = a' ++ c :: squeezeTail x ∧ Nested w a' := by
  obtain ⟨a', hsqueeze, hbalance, hprefix⟩ := exists_squeezeTail_append hw hc a x
  refine ⟨a', hsqueeze, by rw [hbalance, ha.balance_eq], fun q hq => ?_⟩
  obtain ⟨p, hp, he⟩ := hprefix q hq
  rw [he]
  exact ha.nonneg p hp

end Squeeze

/-! ## Prefixes -/

/-- What stands in front of the name of a constructor: markers, with or without arguments, and access
modifiers, in any order and each with blanks behind it. -/
inductive PrefixSpelling : List Text → Text → Prop
  | nil : PrefixSpelling [] []
  | modifier {m g p : Text} {ms : List Text} (hm : m ∈ accessModifiers) (hg : AllBlank g) (hne : g ≠ [])
    (hp : PrefixSpelling ms p) : PrefixSpelling ms (m ++ (g ++ p))
  | bare {n g p : Text} {ms : List Text} (hn : DottedName n) (hg : AllBlank g) (hne : g ≠ [])
    (hp : PrefixSpelling ms p) : PrefixSpelling (n :: ms) ('@' :: (n ++ (g ++ p)))
  | called {n a g p : Text} {ms : List Text} (hn : DottedName n)
    (hround : Nested Brackets.round.weight a) (hcurly : Nested Brackets.curly.weight a)
    (hg : AllBlank g) (hne : g ≠ [])
    (hp : PrefixSpelling ms p) : PrefixSpelling (n :: ms) ('@' :: (n ++ '(' :: (a ++ ')' :: (g ++ p))))

namespace PrefixSpelling

variable {ms : List Text} {p : Text}

theorem modifier_char {m : Text} (hm : m ∈ accessModifiers) :
    ∀ c ∈ m, isIdentifierChar c = true := by
  have hall : ∀ m ∈ accessModifiers, ∀ c ∈ m, isIdentifierChar c = true := by decide
  exact hall m hm

theorem joined (h : PrefixSpelling ms p) : Joined p := by
  induction h with
  | nil => exact .nil
  | modifier hm hg _ _ ih =>
    refine (Joined.of_forall fun c hc => ?_).append ((Joined.of_allBlank hg).append ih)
    have hi := modifier_char hm c hc
    exact ⟨not_mem_brackets_of_isIdentifierChar hi, ne_of_isIdentifierChar hi (by decide)⟩
  | bare hn hg _ _ ih =>
    exact (Joined.singleton (by decide)).append
      ((Joined.of_dottedName hn).append ((Joined.of_allBlank hg).append ih))
  | called hn hround _ hg _ _ ih =>
    have := (Joined.singleton (c := '@') (by decide)).append ((Joined.of_dottedName hn).append
      ((Joined.group hround).append ((Joined.of_allBlank hg).append ih)))
    simpa using this

theorem nested (h : PrefixSpelling ms p) : Nested Brackets.curly.weight p := by
  induction h with
  | nil => exact .nil
  | modifier hm hg _ _ ih =>
    refine (Nested.of_forall fun c hc => ?_).append ((Inert.of_allBlank hg).curly.append ih)
    exact weight_of_not_mem_brackets
      (not_mem_brackets_of_isIdentifierChar (modifier_char hm c hc)) _ curly_mem
  | bare hn hg _ _ ih =>
    exact .cons rfl (hn.inert.curly.append ((Inert.of_allBlank hg).curly.append ih))
  | called hn _ hcurly hg _ _ ih =>
    exact .cons rfl (hn.inert.curly.append (.cons rfl (hcurly.append
      (.cons rfl ((Inert.of_allBlank hg).curly.append ih)))))

/-- It ends in a blank, if it is not empty. -/
theorem isBlank_of_getLast? (h : PrefixSpelling ms p) : ∀ c ∈ p.getLast?, isBlank c = true := by
  have step : ∀ {u g p : Text}, AllBlank g → g ≠ [] → (∀ c ∈ p.getLast?, isBlank c = true) →
      ∀ c ∈ (u ++ (g ++ p)).getLast?, isBlank c = true := by
    intro u g p hg hne ih c hc
    rw [List.getLast?_append, List.getLast?_append] at hc
    cases hp : p.getLast? with
    | some d =>
      rw [hp] at hc
      cases hc
      exact ih _ hp
    | none =>
      obtain ⟨d, hd⟩ := Option.isSome_iff_exists.1 (List.getLast?_isSome.2 hne)
      rw [hp, hd] at hc
      cases hc
      exact hg.isBlank_of_getLast? hd
  induction h with
  | nil => exact fun c hc => nomatch hc
  | modifier _ hg hne _ ih => exact step hg hne ih
  | @bare n g p _ _ hg hne _ ih => exact step (u := '@' :: n) hg hne ih
  | @called n a g p _ _ _ _ hg hne _ ih =>
    have := step (u := '@' :: (n ++ '(' :: (a ++ [')']))) hg hne ih
    simpa using this

/-- Put one space apart, it stays a prefix of the same markers. -/
theorem prefixText (h : PrefixSpelling ms p) : PrefixText ms (join [' '] (words p)) := by
  have hspaced : ∀ {x g p : Text}, x ≠ [] → (∀ c ∈ x, isBlank c = false) → AllBlank g → g ≠ [] →
      join [' '] (words (x ++ (g ++ p))) = x ++ spaced (join [' '] (words p)) := by
    intro x g p hx hblank hg hne
    rw [words_append_blanks_append hg hne, words_of_forall hx hblank, List.singleton_append,
      join_space_cons fun _ => ne_nil_of_mem_words]
  induction h with
  | nil => exact .nil
  | @modifier m g p ms hm hg hne _ ih =>
    have hnil : ∀ m ∈ accessModifiers, m ≠ [] := by decide
    have hblank : ∀ c ∈ m, isBlank c = false := fun c hc =>
      not_isBlank_of_isIdentifierChar (modifier_char hm c hc)
    rw [hspaced (hnil m hm) hblank hg hne]
    exact .modifier hm ih
  | @bare n g p ms hn hg hne _ ih =>
    have hblank : ∀ c ∈ '@' :: n, isBlank c = false :=
      List.forall_mem_cons.2 ⟨by decide, hn.not_blank⟩
    have hwords := hspaced (p := p) (List.cons_ne_nil '@' n) hblank hg hne
    exact hwords ▸ .bare (Marker.isNameChar_of_mem hn) ih
  | @called n a g p ms hn hround _ hg hne _ ih =>
    -- The arguments stay nested when they are put one space apart.
    obtain ⟨a', hsqueeze, ha'⟩ := exists_squeezeTail_nested (c := ')')
      (fun b hb => weight_of_not_mem_brackets (not_mem_brackets_of_isBlank hb) _ round_mem) (by decide)
      hround (g ++ p)
    rw [join_words_cons (by decide), squeezeTail_append hn.not_blank, squeezeTail_cons (by decide),
      hsqueeze, squeezeTail_gap hg hne]
    exact .called (Marker.isNameChar_of_mem hn) ha' ih

/-- The markers of a prefix are read from its words, one space apart. -/
theorem markersOf?_words (h : PrefixSpelling ms p) : markersOf? (join [' '] (words p)) = some ms :=
  h.prefixText.markersOf?_eq

end PrefixSpelling

end Java

end RecordSkeleton
