import RecordSkeleton.Bracket
import RecordSkeleton.Proofs.Text.Words

/-!
# Nested texts

Every bracket count of the library runs along a text and adds a weight for each character. A text is
*nested* for a weight when its balance is zero and none of its prefixes has a negative one.

1. The search for a closing bracket passes over a nested text (`closeOffset?_nested`), so it finds
   the bracket behind one (`closeOffset?_closing`).
2. Cutting at commas leaves a nested text inside brackets whole (`cut_nested`). A *solid* text is
   never cut at depth zero either, and a comma behind it ends its segment (`segments_solid_comma`).
3. A comma behind a balanced text separates its segments from the later ones
   (`segments_balanced_comma`).
4. Blanks around a text do not change the parts it is cut into (`splitTopLevel_trim`).
-/

namespace RecordSkeleton

/-! ## Balance -/

/-- The sum of the weights of the characters of a text. -/
def balance (w : Char → Int) (s : Text) : Int := s.foldr (fun c n => w c + n) 0

/-- Every bracket of the text has its partner in it. -/
structure Nested (w : Char → Int) (s : Text) : Prop where
  balance_eq : balance w s = 0
  /-- No bracket closes before its partner has opened. -/
  nonneg : ∀ p, p <+: s → 0 ≤ balance w p

section Weight

variable {w : Char → Int} {s t : Text}

@[simp] theorem balance_nil : balance w [] = 0 := rfl

@[simp] theorem balance_cons (c : Char) (s : Text) : balance w (c :: s) = w c + balance w s := rfl

@[simp] theorem balance_append (s t : Text) : balance w (s ++ t) = balance w s + balance w t := by
  induction s with
  | nil => simp
  | cons c s ih => rw [List.cons_append, balance_cons, balance_cons, ih, Int.add_assoc]

theorem balance_eq_zero (h : ∀ c ∈ s, w c = 0) : balance w s = 0 := by
  induction s with
  | nil => rfl
  | cons c r ih =>
    rw [balance_cons, h c List.mem_cons_self, ih fun d hd => h d (List.mem_cons_of_mem c hd)]
    rfl

theorem balance_nonneg (h : ∀ c ∈ s, 0 ≤ w c) : 0 ≤ balance w s := by
  induction s with
  | nil => exact Int.le_refl 0
  | cons c r ih =>
    have h₁ := h c List.mem_cons_self
    have h₂ := ih fun d hd => h d (List.mem_cons_of_mem c hd)
    rw [balance_cons]
    omega

theorem balance_append_nested (hs : balance w s = 0) (ht : Nested w t) : balance w (s ++ t) = 0 := by
  rw [balance_append, hs, ht.balance_eq]
  rfl

theorem Nested.nil : Nested w [] := by
  refine ⟨rfl, fun p hp => ?_⟩
  rw [List.prefix_nil.1 hp]
  exact Int.le_refl 0

theorem Nested.of_forall (h : ∀ c ∈ s, w c = 0) : Nested w s := by
  refine ⟨balance_eq_zero h, fun p hp => ?_⟩
  exact Int.le_of_eq (balance_eq_zero fun c hc => h c (hp.subset hc)).symm

theorem prefix_append_cases {p : Text} (h : p <+: s ++ t) :
    p <+: s ∨ ∃ q, q <+: t ∧ p = s ++ q := by
  rcases Nat.le_total p.length s.length with hl | hl
  · exact Or.inl (List.prefix_of_prefix_length_le h (List.prefix_append s t) hl)
  · obtain ⟨q, rfl⟩ := List.prefix_of_prefix_length_le (List.prefix_append s t) h hl
    exact Or.inr ⟨q, (List.prefix_append_right_inj s).1 h, rfl⟩

theorem Nested.append (hs : Nested w s) (ht : Nested w t) : Nested w (s ++ t) := by
  refine ⟨by rw [balance_append, hs.balance_eq, ht.balance_eq]; rfl, fun p hp => ?_⟩
  rcases prefix_append_cases hp with hp | ⟨q, hq, rfl⟩
  · exact hs.nonneg p hp
  · rw [balance_append, hs.balance_eq, Int.zero_add]
    exact ht.nonneg q hq

theorem Nested.singleton {c : Char} (h : w c = 0) : Nested w [c] :=
  .of_forall fun d hd => by rw [List.mem_singleton.1 hd]; exact h

theorem Nested.cons {c : Char} (h : w c = 0) (hs : Nested w s) : Nested w (c :: s) :=
  (Nested.singleton h).append hs

theorem Nested.wrap {o c : Char} (ho : w o = 1) (hc : w c = -1) (hs : Nested w s) :
    Nested w (o :: (s ++ [c])) := by
  refine ⟨by simp [ho, hc, hs.balance_eq], fun p hp => ?_⟩
  cases p with
  | nil => exact Int.le_refl 0
  | cons d q =>
    obtain ⟨rfl, hq⟩ := List.cons_prefix_cons.1 hp
    rw [balance_cons, ho]
    rcases prefix_append_cases hq with hq | ⟨r, hr, rfl⟩
    · have := hs.nonneg q hq
      omega
    · rw [balance_append, hs.balance_eq]
      cases r with
      | nil => simp
      | cons e r' =>
        obtain ⟨rfl, hr'⟩ := List.cons_prefix_cons.1 hr
        rw [List.prefix_nil.1 hr', balance_cons, hc]
        simp

theorem nested_iff : Nested w s ↔ balance w s = 0 ∧ ∀ k < s.length + 1, 0 ≤ balance w (s.take k) := by
  refine ⟨fun h => ⟨h.balance_eq, fun k _ => h.nonneg _ (List.take_prefix k s)⟩, fun h => ⟨h.1, ?_⟩⟩
  intro p hp
  rw [List.prefix_iff_eq_take.1 hp]
  exact h.2 p.length (Nat.lt_succ_of_le hp.length_le)

instance : Decidable (Nested w s) := decidable_of_iff _ nested_iff.symm

end Weight

/-! ## The matching bracket -/

namespace Brackets

variable {b : Brackets}

/-- One for the opening bracket, minus one for the closing one, and zero for any other character. -/
def weight (b : Brackets) (c : Char) : Int :=
  if c = b.opening then 1 else if c = b.closing then -1 else 0

theorem weight_eq_zero {c : Char} (h₁ : c ≠ b.opening) (h₂ : c ≠ b.closing) : b.weight c = 0 := by
  unfold weight
  rw [if_neg h₁, if_neg h₂]

theorem neg_one_le_weight (b : Brackets) (c : Char) : -1 ≤ b.weight c := by
  unfold weight
  split
  · decide
  · split <;> decide

theorem eq_closing_of_weight {c : Char} (h : b.weight c = -1) : c = b.closing := by
  unfold weight at h
  split at h
  · cases h
  · split at h
    · assumption
    · cases h

/-- The depth of a text is its balance. -/
theorem depth_eq_balance (h : b.opening ≠ b.closing) (s : Text) : b.depth s = balance b.weight s := by
  induction s with
  | nil => rfl
  | cons c r ih =>
    rw [balance_cons, ← ih]
    unfold depth weight
    rw [List.count_cons, List.count_cons]
    by_cases h₁ : c = b.opening
    · subst h₁
      simp [h]
      omega
    · by_cases h₂ : c = b.closing
      · subst h₂
        simp [h₁]
        omega
      · simp [h₁, h₂]

/-- The search for the closing bracket does not see what follows when that has no such brackets. -/
theorem closeOffset?_append_of_not_mem {w : Text} (hw : ∀ c ∈ w, c ≠ b.opening ∧ c ≠ b.closing)
    (d : Int) (s : Text) : b.closeOffset? d (s ++ w) = b.closeOffset? d s := by
  induction s generalizing d with
  | nil =>
    induction w with
    | nil => rfl
    | cons c r ih =>
      have hc := hw c List.mem_cons_self
      have hr := ih fun e he => hw e (List.mem_cons_of_mem c he)
      show b.closeOffset? d (c :: r) = none
      rw [closeOffset?, if_neg hc.1, if_neg hc.2]
      exact congrArg (Option.map (· + 1)) hr
  | cons c r ih => rw [List.cons_append, closeOffset?, closeOffset?, ih, ih, ih]

/-- One step of the search: it ends at the character that brings the depth to zero. -/
theorem closeOffset?_cons {d : Int} (hd : 1 ≤ d) (c : Char) (r : Text) :
    b.closeOffset? d (c :: r) =
      if d + b.weight c = 0 then some 0 else (b.closeOffset? (d + b.weight c) r).map (· + 1) := by
  rw [closeOffset?]
  unfold weight
  by_cases hopen : c = b.opening
  · rw [if_pos hopen, if_pos hopen, if_neg (by omega)]
  · by_cases hclose : c = b.closing
    · rw [if_neg hopen, if_pos hclose, if_neg hopen, if_pos hclose]
      by_cases hone : d = 1
      · rw [if_pos hone, if_pos (by omega)]
      · rw [if_neg hone, if_neg (by omega)]
        rfl
    · rw [if_neg hopen, if_neg hclose, if_neg hopen, if_neg hclose, if_neg (by omega), Int.add_zero]

/-- The depth stays positive along a text with one more character in front of it. -/
theorem forall_prefix_cons {w : Char → Int} {d : Int} {c : Char} {r : Text} :
    (∀ p, p <+: c :: r → 1 ≤ d + balance w p) ↔
      1 ≤ d ∧ ∀ p, p <+: r → 1 ≤ d + w c + balance w p := by
  refine ⟨fun h => ⟨by simpa using h [] List.nil_prefix, fun p hp => ?_⟩, fun h p hp => ?_⟩
  · rw [Int.add_assoc]
    exact h (c :: p) (List.cons_prefix_cons.2 ⟨rfl, hp⟩)
  · cases p with
    | nil => simpa using h.1
    | cons e q =>
      obtain ⟨rfl, hq⟩ := List.cons_prefix_cons.1 hp
      rw [balance_cons, ← Int.add_assoc]
      exact h.2 q hq

/-- The search for the closing bracket passes over a text along which the depth stays positive. -/
theorem closeOffset?_append {d : Int} {s : Text} (h : ∀ p, p <+: s → 1 ≤ d + balance b.weight p)
    (t : Text) :
    b.closeOffset? d (s ++ t) =
      (b.closeOffset? (d + balance b.weight s) t).map (s.length + ·) := by
  induction s generalizing d with
  | nil => simp
  | cons c r ih =>
    obtain ⟨hd, hr⟩ := forall_prefix_cons.1 h
    have hc : 1 ≤ d + b.weight c := by simpa using hr [] List.nil_prefix
    rw [List.cons_append, closeOffset?_cons hd, if_neg (by omega), ih hr, balance_cons, Int.add_assoc,
      Option.map_map]
    congr 1
    funext k
    simp only [Function.comp, List.length_cons]
    omega

/-- The search for the closing bracket passes over a nested text. -/
theorem closeOffset?_nested {d : Int} {s : Text} (hd : 1 ≤ d) (hs : Nested b.weight s) (t : Text) :
    b.closeOffset? d (s ++ t) = (b.closeOffset? d t).map (s.length + ·) := by
  rw [closeOffset?_append fun p hp => by have := hs.nonneg p hp; omega, hs.balance_eq, Int.add_zero]

/-- The bracket behind a nested text closes the one in front of it. -/
theorem closeOffset?_closing {s : Text} (hb : b.closing ≠ b.opening) (hs : Nested b.weight s)
    (t : Text) : b.closeOffset? 1 (s ++ b.closing :: t) = some s.length := by
  rw [closeOffset?_nested (Int.le_refl 1) hs, closeOffset?, if_neg hb, if_pos rfl, if_pos rfl]
  rfl

/-- The bracket that is found stands behind a text along which the depth stays positive, and at whose
end it is one. -/
theorem closeOffset?_eq_some {d : Int} {s : Text} {k : Nat} (hd : 1 ≤ d)
    (h : b.closeOffset? d s = some k) :
    ∃ l t, s = l ++ b.closing :: t ∧ k = l.length ∧ d + balance b.weight l = 1 ∧
      ∀ p, p <+: l → 1 ≤ d + balance b.weight p := by
  induction s generalizing d k with
  | nil => cases h
  | cons c r ih =>
    rw [closeOffset?_cons hd] at h
    by_cases hzero : d + b.weight c = 0
    · rw [if_pos hzero] at h
      cases h
      have hlow := b.neg_one_le_weight c
      have hclose := eq_closing_of_weight (b := b) (c := c) (by omega)
      refine ⟨[], r, by rw [hclose]; rfl, rfl, by rw [balance_nil]; omega, fun p hp => ?_⟩
      rw [List.prefix_nil.1 hp]
      simpa using hd
    · rw [if_neg hzero] at h
      obtain ⟨j, hj, rfl⟩ := Option.map_eq_some_iff.1 h
      have hpos : 1 ≤ d + b.weight c := by
        have := b.neg_one_le_weight c
        omega
      -- The character goes to the text in front of the bracket, and the depth goes along with it.
      obtain ⟨l, t, rfl, rfl, hl, hp⟩ := ih hpos hj
      refine ⟨c :: l, t, rfl, rfl, ?_, forall_prefix_cons.2 ⟨hd, hp⟩⟩
      rw [balance_cons, ← Int.add_assoc, hl]

/-- No bracket is found exactly when the depth stays positive along the text. -/
theorem closeOffset?_eq_none_iff {d : Int} {s : Text} (hd : 1 ≤ d) :
    b.closeOffset? d s = none ↔ ∀ p, p <+: s → 1 ≤ d + balance b.weight p := by
  refine ⟨fun h => ?_, fun h => ?_⟩
  · induction s generalizing d with
    | nil =>
      intro p hp
      rw [List.prefix_nil.1 hp]
      simpa using hd
    | cons c r ih =>
      rw [closeOffset?_cons hd] at h
      by_cases hzero : d + b.weight c = 0
      · rw [if_pos hzero] at h
        cases h
      · rw [if_neg hzero] at h
        have hpos : 1 ≤ d + b.weight c := by
          have := b.neg_one_le_weight c
          omega
        exact forall_prefix_cons.2 ⟨hd, ih hpos (Option.map_eq_none_iff.1 h)⟩
  · have := closeOffset?_append h []
    rwa [List.append_nil] at this

/-- Behind an opening bracket, the bracket that is found stands behind a nested text. -/
theorem nested_of_closeOffset? {s : Text} {k : Nat} (h : b.closeOffset? 1 s = some k) :
    ∃ l t, s = l ++ b.closing :: t ∧ k = l.length ∧ Nested b.weight l := by
  obtain ⟨l, t, hs, hk, hl, hp⟩ := closeOffset?_eq_some (Int.le_refl 1) h
  refine ⟨l, t, hs, hk, by omega, fun p hprefix => ?_⟩
  have := hp p hprefix
  omega

theorem matchingClose?_nested {s : Text} (hb : b.closing ≠ b.opening) (hs : Nested b.weight s)
    (u t : Text) :
    b.matchingClose? (u ++ b.opening :: (s ++ b.closing :: t)) u.length =
      some (u.length + (s.length + 1)) := by
  unfold matchingClose?
  rw [List.drop_left, closeOffset?, if_pos rfl, Int.zero_add, closeOffset?_closing hb hs]
  rfl

end Brackets

/-! ## Cutting at commas -/

namespace BracketFamilies

variable {f : BracketFamilies}

/-- One for an opening bracket of any family, minus one for a closing one, and zero otherwise. -/
def weight (f : BracketFamilies) (c : Char) : Int :=
  if c ∈ f.openers then 1 else if c ∈ f.closers then -1 else 0

theorem weight_eq_zero {c : Char} (h₁ : c ∉ f.openers) (h₂ : c ∉ f.closers) : f.weight c = 0 := by
  unfold weight
  rw [if_neg h₁, if_neg h₂]

/-- A character that is no comma at depth zero goes to the segment it stands in. -/
theorem cut_cons {d : Int} {c : Char} (h : ¬ (f.weight c = 0 ∧ c = ',' ∧ d = 0)) (r : Text) :
    f.cut d (c :: r) = (c :: (f.cut (d + f.weight c) r).1, (f.cut (d + f.weight c) r).2) := by
  rw [cut]
  unfold weight at h ⊢
  by_cases h₁ : c ∈ f.openers
  · rw [if_pos h₁, if_pos h₁]
  · by_cases h₂ : c ∈ f.closers
    · rw [if_neg h₁, if_pos h₂, if_neg h₁, if_pos h₂]
      rfl
    · rw [if_neg h₁, if_neg h₂] at h
      have h₃ : ¬ (c = ',' ∧ d = 0) := fun hc => h ⟨rfl, hc⟩
      rw [if_neg h₁, if_neg h₂, if_neg h₃, if_neg h₁, if_neg h₂, Int.add_zero]

/-- A comma at depth zero ends a segment. -/
theorem cut_comma (h : f.weight ',' = 0) (r : Text) :
    f.cut 0 (',' :: r) = ([], f.segments r) := by
  unfold weight at h
  by_cases h₁ : ',' ∈ f.openers
  · rw [if_pos h₁] at h
    cases h
  · by_cases h₂ : ',' ∈ f.closers
    · rw [if_neg h₁, if_pos h₂] at h
      cases h
    · rw [cut, if_neg h₁, if_neg h₂, if_pos ⟨rfl, rfl⟩]
      rfl

/-- A text none of whose commas stands at depth zero is not cut. -/
theorem cut_append {d : Int} {s : Text}
    (h : ∀ p q, s = p ++ ',' :: q → d + balance f.weight p ≠ 0) (t : Text) :
    f.cut d (s ++ t) = (s ++ (f.cut (d + balance f.weight s) t).1,
      (f.cut (d + balance f.weight s) t).2) := by
  induction s generalizing d with
  | nil => simp
  | cons c r ih =>
    have hc : ¬ (f.weight c = 0 ∧ c = ',' ∧ d = 0) := by
      rintro ⟨-, rfl, rfl⟩
      exact h [] r rfl rfl
    have hr := ih (d := d + f.weight c) fun p q hpq => by
      have := h (c :: p) q (by rw [hpq, List.cons_append])
      rw [balance_cons] at this
      omega
    rw [List.cons_append, cut_cons hc, hr, balance_cons, Int.add_assoc]
    rfl

theorem cut_nested {d : Int} {s : Text} (hd : 1 ≤ d) (hs : Nested f.weight s) (t : Text) :
    f.cut d (s ++ t) = (s ++ (f.cut d t).1, (f.cut d t).2) := by
  have hcommas : ∀ p q, s = p ++ ',' :: q → d + balance f.weight p ≠ 0 := by
    rintro p q rfl
    have := hs.nonneg p (List.prefix_append p _)
    omega
  rw [cut_append hcommas, hs.balance_eq, Int.add_zero]

/-- A text that is not cut at depth zero and leaves the depth as it is. -/
def Solid (f : BracketFamilies) (s : Text) : Prop :=
  ∀ t, f.cut 0 (s ++ t) = (s ++ (f.cut 0 t).1, (f.cut 0 t).2)

theorem Solid.nil : f.Solid [] := fun _ => rfl

/-- A balanced text none of whose commas stands at depth zero is solid. -/
theorem Solid.of_commas {s : Text} (hs : balance f.weight s = 0)
    (h : ∀ p q, s = p ++ ',' :: q → balance f.weight p ≠ 0) : f.Solid s := by
  intro t
  rw [cut_append fun p q hpq => by rw [Int.zero_add]; exact h p q hpq, hs, Int.add_zero]

theorem Solid.append {s t : Text} (hs : f.Solid s) (ht : f.Solid t) : f.Solid (s ++ t) := by
  intro u
  rw [List.append_assoc, hs, ht, List.append_assoc]

theorem Solid.singleton {c : Char} (h : f.weight c = 0) (hc : c ≠ ',') : f.Solid [c] := by
  intro t
  rw [List.singleton_append, cut_cons fun h' => hc h'.2.1, h]
  rfl

theorem Solid.cons {c : Char} {s : Text} (h : f.weight c = 0) (hc : c ≠ ',') (hs : f.Solid s) :
    f.Solid (c :: s) := (Solid.singleton h hc).append hs

theorem Solid.of_forall {s : Text} (h : ∀ c ∈ s, f.weight c = 0 ∧ c ≠ ',') : f.Solid s := by
  induction s with
  | nil => exact .nil
  | cons c r ih =>
    have hc := h c List.mem_cons_self
    exact .cons hc.1 hc.2 (ih fun d hd => h d (List.mem_cons_of_mem c hd))

theorem Solid.wrap {o c : Char} {s : Text} (ho : f.weight o = 1) (hc : f.weight c = -1)
    (hs : Nested f.weight s) : f.Solid (o :: (s ++ [c])) := by
  intro t
  rw [List.cons_append, cut_cons (by rw [ho]; simp), List.append_assoc,
    cut_nested (by rw [ho]; decide) hs, List.singleton_append, cut_cons (by rw [hc]; simp), ho, hc]
  simp

theorem segments_solid {s : Text} (hs : f.Solid s) : f.segments s = [s] := by
  have := hs []
  rw [List.append_nil] at this
  rw [segments, this]
  simp [cut]

/-- A comma behind a solid text ends the first segment. -/
theorem segments_solid_comma (h : f.weight ',' = 0) {s : Text} (hs : f.Solid s) (t : Text) :
    f.segments (s ++ ',' :: t) = s :: f.segments t := by
  rw [segments, hs, cut_comma h, List.append_nil]

/-- A comma behind a balanced text separates its segments from the later ones. -/
theorem segments_balanced_comma (h : f.weight ',' = 0) {s : Text} (hs : balance f.weight s = 0)
    (t : Text) : f.segments (s ++ ',' :: t) = f.segments s ++ f.segments t := by
  have key : ∀ (s : Text) (d : Int), d + balance f.weight s = 0 →
      f.cut d (s ++ ',' :: t) = ((f.cut d s).1, (f.cut d s).2 ++ f.segments t) := by
    intro s
    induction s with
    | nil =>
      intro d hd
      rw [balance_nil, Int.add_zero] at hd
      rw [hd, List.nil_append, cut_comma h]
      rfl
    | cons c r ih =>
      intro d hd
      rw [balance_cons] at hd
      by_cases hc : f.weight c = 0 ∧ c = ',' ∧ d = 0
      · obtain ⟨hw, rfl, rfl⟩ := hc
        have hr := ih 0 (by omega)
        rw [List.cons_append, cut_comma h, cut_comma h, segments, hr]
        rfl
      · rw [List.cons_append, cut_cons hc, cut_cons hc, ih _ (by omega)]
  rw [segments, key s 0 (by omega)]
  rfl

theorem eq_of_segments_eq {s x : Text} (h : f.segments s = [x]) : x = s := by
  have key : ∀ (s : Text) (d : Int), (f.cut d s).2 = [] → (f.cut d s).1 = s := by
    intro s
    induction s with
    | nil => intro d _; rfl
    | cons c r ih =>
      intro d hd
      rw [cut] at hd ⊢
      split <;> rename_i h₁
      · rw [if_pos h₁] at hd
        rw [ih _ hd]
      · rw [if_neg h₁] at hd
        split <;> rename_i h₂
        · rw [if_pos h₂] at hd
          rw [ih _ hd]
        · rw [if_neg h₂] at hd
          split <;> rename_i h₃
          · rw [if_pos h₃] at hd
            cases hd
          · rw [if_neg h₃] at hd
            rw [ih _ hd]
  simp only [segments, List.cons.injEq] at h
  rw [← h.1, key s 0 h.2]

/-! ### Blanks around a text -/

section Blanks

open Text

theorem cut_allBlank {w : Text} (hw : AllBlank w) (d : Int) : f.cut d w = (w, []) := by
  induction w generalizing d with
  | nil => rfl
  | cons c r ih =>
    have hc : c ≠ ',' := by
      rintro rfl
      exact absurd hw.head (by decide)
    rw [cut_cons fun h => hc h.2.1, ih hw.tail]

/-- Blanks behind a text go to its last segment. -/
theorem cut_append_blanks {w : Text} (hw : AllBlank w) (d : Int) (s : Text) :
    ((f.cut d (s ++ w)).1 = (f.cut d s).1 ∨ (f.cut d (s ++ w)).1 = (f.cut d s).1 ++ w) ∧
      (f.cut d (s ++ w)).2.map trim = (f.cut d s).2.map trim := by
  induction s generalizing d with
  | nil => rw [List.nil_append, cut_allBlank hw]; exact ⟨Or.inr rfl, rfl⟩
  | cons c r ih =>
    by_cases hc : f.weight c = 0 ∧ c = ',' ∧ d = 0
    · obtain ⟨hw', rfl, rfl⟩ := hc
      rw [List.cons_append, cut_comma hw', cut_comma hw']
      obtain ⟨h₁, h₂⟩ := ih 0
      refine ⟨Or.inl rfl, ?_⟩
      simp only [segments, List.map_cons, h₂, List.cons.injEq, and_true]
      rcases h₁ with h₁ | h₁
      · rw [h₁]
      · rw [h₁]
        exact trim_blanks allBlank_nil hw _
    · rw [List.cons_append, cut_cons hc, cut_cons hc]
      obtain ⟨h₁, h₂⟩ := ih (d + f.weight c)
      refine ⟨?_, h₂⟩
      rcases h₁ with h₁ | h₁
      · exact Or.inl (congrArg (c :: ·) h₁)
      · exact Or.inr (congrArg (c :: ·) h₁)

variable (hf : ∀ c, isBlank c = true → f.weight c = 0)

include hf

theorem solid_of_allBlank {w : Text} (hw : AllBlank w) : f.Solid w :=
  .of_forall fun c hc => ⟨hf c (hw c hc), by rintro rfl; exact absurd (hw _ hc) (by decide)⟩

/-- The trimmed segments of a text do not depend on the blanks around it. -/
theorem map_trim_segments_blanks {v w : Text} (hv : AllBlank v) (hw : AllBlank w) (s : Text) :
    (f.segments (v ++ (s ++ w))).map trim = (f.segments s).map trim := by
  obtain ⟨h₁, h₂⟩ := cut_append_blanks hw 0 s
  rw [segments, solid_of_allBlank hf hv, segments, List.map_cons, List.map_cons, h₂]
  rcases h₁ with h₁ | h₁
  · rw [h₁]
    simpa using trim_blanks hv allBlank_nil _
  · rw [h₁]
    exact congrArg (· :: _) (trim_blanks hv hw _)

/-- Trimming a text first does not change the parts it is cut into. -/
theorem splitTopLevel_trim (s : Text) : f.splitTopLevel (trim s) = f.splitTopLevel s := by
  obtain ⟨v, w, hv, hw, h⟩ := eq_append_trim s
  unfold splitTopLevel
  conv => rhs; rw [h, map_trim_segments_blanks hf hv hw]

end Blanks

theorem dropEmptyLast_of_forall {parts : List Text} (h : ∀ p ∈ parts, p ≠ []) :
    dropEmptyLast parts = parts := by
  unfold dropEmptyLast
  rw [if_neg fun hl => h [] (List.mem_of_getLast? hl) rfl]

/-- Behind parts that are not empty, only the later ones can lose their last part. -/
theorem dropEmptyLast_append {parts : List Text} (h : ∀ p ∈ parts, p ≠ []) (rest : List Text) :
    dropEmptyLast (parts ++ rest) = parts ++ dropEmptyLast rest := by
  cases rest with
  | nil =>
    rw [List.append_nil, dropEmptyLast_of_forall h]
    exact (List.append_nil parts).symm
  | cons p ps =>
    have hlast : (parts ++ p :: ps).getLast? = (p :: ps).getLast? := by
      rw [List.getLast?_append, List.getLast?_cons]
      rfl
    unfold dropEmptyLast
    rw [hlast, List.dropLast_append_of_ne_nil (List.cons_ne_nil p ps)]
    split <;> rfl

end BracketFamilies

end RecordSkeleton
