import RecordSkeleton.Proofs.Java.Scan

/-!
# Text between declarations

What may stand in front of a declaration, between two of them and behind the last one of a body. An
*opaque* text is nested in curly brackets and holds no keyword outside them.

1. Reading a header fails at every offset of an opaque text outside its braces (`Opaque.read?_eq_none`).
2. A header that is read inside its braces ends in the text (`stop_le_of_read?`).
3. So the search for declarations passes over it (`sitesFrom_past`), at the same depth
   (`depthAt_append`).
-/

namespace RecordSkeleton.Java

open Text

/-- A text with partners for all of its braces that holds no keyword, as a word of its own, outside
them. -/
structure Opaque (t : Text) : Prop where
  /-- The braces are nested. -/
  nested : Nested Brackets.curly.weight t
  /-- A keyword outside braces is part of a longer name. -/
  noKeyword : ∀ u y v, t = u ++ (y ++ v) → y ∈ Header.words → balance Brackets.curly.weight u = 0 →
    (∃ c ∈ u.getLast?, Header.continuesName c = true) ∨
      ∃ c ∈ v.head?, Header.continuesName c = true

/-- A text that a declaration may stand behind. -/
structure SetOff (t : Text) : Prop where
  /-- It ends in a blank, a semicolon or a brace. -/
  ends : ∀ c ∈ t.getLast?, isBlank c = true ∨ c = ';' ∨ c = '}'
  /-- It leaves no sign `@` that the keyword `interface` could belong to. -/
  no_at : (trimRight t).getLast? ≠ some '@'

theorem opaque_iff {t : Text} : Opaque t ↔ Nested Brackets.curly.weight t ∧
    ∀ i < t.length + 1, ∀ y ∈ Header.words, y.isPrefixOf (t.drop i) = true →
      balance Brackets.curly.weight (t.take i) = 0 →
        (t.take i).getLast?.any Header.continuesName = true ∨
          ((t.drop i).drop y.length).head?.any Header.continuesName = true := by
  simp only [Option.any_eq_true]
  refine ⟨fun h => ⟨h.nested, fun i _ y hy hp hb => ?_⟩, fun h => ⟨h.1, fun u y v htu hy hb => ?_⟩⟩
  · obtain ⟨v, hv⟩ := List.isPrefixOf_iff_prefix.1 hp
    have := h.noKeyword (t.take i) y v (by rw [hv, List.take_append_drop]) hy hb
    rwa [← hv, List.drop_left]
  · have htake : t.take u.length = u := by rw [htu, List.take_left]
    have hdrop : t.drop u.length = y ++ v := by rw [htu, List.drop_left]
    have hlt : u.length < t.length + 1 := by
      rw [htu, List.length_append]
      omega
    have := h.2 u.length hlt y hy
    rw [htake, hdrop, List.drop_left] at this
    exact this (List.isPrefixOf_iff_prefix.2 (List.prefix_append y v)) hb

instance (t : Text) : Decidable (Opaque t) := decidable_of_iff _ opaque_iff.symm

theorem setOff_iff {t : Text} : SetOff t ↔
    (∀ c ∈ t.getLast?, isBlank c = true ∨ c = ';' ∨ c = '}') ∧ (trimRight t).getLast? ≠ some '@' :=
  ⟨fun h => ⟨h.ends, h.no_at⟩, fun h => ⟨h.1, h.2⟩⟩

instance (t : Text) : Decidable (SetOff t) := decidable_of_iff _ setOff_iff.symm

/-! ## Characters of a header -/

theorem hidesKeyword_of_continuesName {c : Char} (hc : Header.continuesName c = true) :
    Header.hidesKeyword c = true := by
  unfold Header.continuesName at hc
  unfold Header.hidesKeyword
  simp only [Bool.or_eq_true] at hc ⊢
  rcases hc with hc | hc
  · exact Or.inl (Or.inl (Or.inl hc))
  · exact Or.inl (Or.inr hc)

theorem not_continuesName_of_isBlank {c : Char} (hc : isBlank c = true) :
    Header.continuesName c = false := by
  have hne : c ≠ '$' := by
    rintro rfl
    exact absurd hc (by decide)
  unfold Header.continuesName
  rw [not_isWordChar_of_isBlank hc, beq_false_of_ne hne]
  rfl

theorem not_hidesKeyword_of_isBlank {c : Char} (hc : isBlank c = true) :
    Header.hidesKeyword c = false := by
  have hne : ∀ d, isBlank d = false → (c == d) = false := by
    intro d hd
    refine beq_false_of_ne ?_
    rintro rfl
    rw [hc] at hd
    cases hd
  unfold Header.hidesKeyword
  rw [not_isWordChar_of_isBlank hc, hne _ (by decide), hne _ (by decide), hne _ (by decide)]
  rfl

/-- What a keyword starts with, up to its word, has no braces and no end of a name. -/
theorem forall_prefix_of_keyword {a : Text} (ha : a = [] ∨ ∃ w, AllBlank w ∧ a = '@' :: w) :
    ∀ c ∈ a, c = '@' ∨ isBlank c = true := by
  rcases ha with rfl | ⟨w, hw, rfl⟩
  · exact fun c hc => (List.not_mem_nil hc).elim
  · intro c hc
    rcases List.mem_cons.1 hc with rfl | hc
    · exact Or.inl rfl
    · exact Or.inr (hw c hc)

theorem weight_curly_of_isBlank {c : Char} (hc : isBlank c = true) :
    Brackets.curly.weight c = 0 := by
  apply Brackets.weight_eq_zero <;>
    · rintro rfl
      exact absurd hc (by decide)

theorem not_brace_of_continuesName {c : Char} (hc : Header.continuesName c = true) : c ≠ '}' := by
  rintro rfl
  exact absurd hc (by decide)

/-! ## Headers in an opaque text -/

/-- No keyword starts in a text that is set off and reaches over its end. -/
theorem SetOff.not_prefix {t u x a y : Text} (ht : SetOff t) (htu : t = u ++ x) (hx : x ≠ [])
    (ha : a = [] ∨ ∃ w, AllBlank w ∧ a = '@' :: w) (hy : y ∈ Header.words) : ¬ x <+: a ++ y := by
  intro hp
  obtain ⟨z, c, rfl⟩ : ∃ z c, x = z ++ [c] :=
    ⟨x.dropLast, x.getLast hx, (List.dropLast_concat_getLast hx).symm⟩
  have hlast : t.getLast? = some c := by
    rw [htu, ← List.append_assoc, List.getLast?_concat]
  by_cases hxa : z ++ [c] <+: a
  · -- The text ends in a sign `@`, up to blanks.
    rcases ha with rfl | ⟨b, hb, rfl⟩
    · exact hx (List.prefix_nil.1 hxa)
    · cases z with
      | nil =>
        obtain ⟨rfl, -⟩ := List.cons_prefix_cons.1 hxa
        rcases ht.ends _ hlast with hc | hc | hc <;> exact absurd hc (by decide)
      | cons d z =>
        obtain ⟨rfl, hz⟩ := List.cons_prefix_cons.1 hxa
        have hblank : AllBlank (z ++ [c]) := fun d hd => hb d (hz.subset hd)
        have hat : ∀ d ∈ (u ++ ['@']).getLast?, isBlank d = false := by
          intro d hd
          rw [List.getLast?_concat] at hd
          cases hd
          decide
        refine ht.no_at ?_
        rw [htu, show u ++ ('@' :: z ++ [c]) = (u ++ ['@']) ++ (z ++ [c]) by simp,
          trimRight_blanks hblank, trimRight_eq_self hat, List.getLast?_concat]
  · -- The text ends in a letter of the word.
    obtain ⟨q, hq, hzq⟩ := (prefix_append_cases hp).resolve_left hxa
    have hmem : c ∈ q := by
      have hqne : q ≠ [] := by
        rintro rfl
        exact hxa (by simp [hzq])
      exact mem_of_getLast?_append hqne (by rw [← hzq, List.getLast?_concat])
    have hletters : ∀ y ∈ Header.words, ∀ c ∈ y, ¬ (isBlank c = true ∨ c = ';' ∨ c = '}') := by
      decide
    exact hletters y hy c (hq.subset hmem) (ht.ends c hlast)

/-- No keyword that a blank follows is a word of an opaque text outside its braces. -/
theorem Opaque.ne_append {t u a y v : Text} (ht : Opaque t)
    (hu : balance Brackets.curly.weight u = 0)
    (hhide : ∀ c ∈ u.getLast?, Header.hidesKeyword c = false)
    (ha : a = [] ∨ ∃ w, AllBlank w ∧ a = '@' :: w) (hy : y ∈ Header.words)
    (hv : ∀ c ∈ v.head?, isBlank c = true) : t ≠ u ++ (a ++ (y ++ v)) := by
  intro htu
  have hchars := forall_prefix_of_keyword ha
  have hbal : balance Brackets.curly.weight (u ++ a) = 0 := by
    have hzero : balance Brackets.curly.weight a = 0 := by
      refine balance_eq_zero fun c hc => ?_
      rcases hchars c hc with rfl | hc
      · decide
      · exact weight_curly_of_isBlank hc
    rw [balance_append, hu, hzero]
    rfl
  have hnot : ∀ {c : Char}, Header.hidesKeyword c = false → Header.continuesName c = true → False := by
    intro c h₁ h₂
    rw [hidesKeyword_of_continuesName h₂] at h₁
    cases h₁
  rcases ht.noKeyword (u ++ a) y v (by rw [htu, List.append_assoc]) hy hbal with
    ⟨c, hc, hcn⟩ | ⟨c, hc, hcn⟩
  · rcases ha with rfl | ⟨b, hb, rfl⟩
    · rw [List.append_nil] at hc
      exact hnot (hhide c hc) hcn
    · rcases hchars c (mem_of_getLast?_append (List.cons_ne_nil '@' b) hc) with rfl | hblank
      · exact absurd hcn (by decide)
      · rw [not_continuesName_of_isBlank hblank] at hcn
        cases hcn
  · rw [not_continuesName_of_isBlank (hv c hc)] at hcn
    cases hcn

/-- No header is read outside the braces of an opaque text, unless the name in front hides it. -/
theorem Opaque.read?_eq_none {t u x r : Text} (ht : Opaque t) (hset : r = [] ∨ SetOff t)
    (htu : t = u ++ x) (hx : x ≠ []) (hu : balance Brackets.curly.weight u = 0)
    (hhide : ∀ c ∈ u.getLast?, Header.hidesKeyword c = false) (i : Nat) :
    Header.read? i (x ++ r) = none := by
  refine Option.eq_none_iff_forall_ne_some.2 fun hd h => ?_
  obtain ⟨a, y, w, r', he, hy, hw, hne, ha, -, -⟩ := Header.read?_eq_some h
  rw [← List.append_assoc] at he
  have hblank : ∀ {v r₁ r₂ : Text}, w ++ r₁ = v ++ r₂ → ∀ c ∈ v.head?, isBlank c = true := by
    intro v r₁ r₂ hvw c hc
    obtain ⟨b, w', rfl⟩ := List.exists_cons_of_ne_nil hne
    cases v with
    | nil => cases hc
    | cons d v' =>
      cases hc
      rw [← (List.cons.inj hvw).1]
      exact hw.head
  rcases List.append_eq_append_iff.1 he with ⟨v, hv, hrest⟩ | ⟨v, hv, hrest⟩
  · rcases hset with rfl | hset
    · obtain ⟨-, hwr⟩ := List.append_eq_nil_iff.1 hrest.symm
      exact hne (List.append_eq_nil_iff.1 hwr).1
    · exact hset.not_prefix htu hx ha hy ⟨v, hv.symm⟩
  · exact ht.ne_append hu hhide ha hy (hblank hrest) (by rw [htu, hv, List.append_assoc])

/-- A header that is read inside the braces of a nested text ends in the text. -/
theorem stop_le_of_read? {t u x r : Text} (ht : Nested Brackets.curly.weight t) (htu : t = u ++ x)
    (hu : balance Brackets.curly.weight u ≠ 0) {i : Nat} {hd : Header}
    (h : Header.read? i (x ++ r) = some hd) : hd.stop ≤ i + x.length := by
  obtain ⟨a, y, w, r', he, hy, hw, -, ha, hstop, hname⟩ := Header.read?_eq_some h
  have hclose : '}' ∈ x := by
    refine Decidable.byContradiction fun hx => ?_
    have h₁ := ht.nonneg u ⟨x, htu.symm⟩
    have h₂ := ht.balance_eq
    have h₃ : 0 ≤ balance Brackets.curly.weight x := by
      refine balance_nonneg fun c hc => ?_
      have hne : c ≠ '}' := fun e => hx (e ▸ hc)
      unfold Brackets.weight
      rw [if_neg (c := c = Brackets.curly.closing) hne]
      split <;> decide
    rw [htu, balance_append] at h₂
    omega
  have hopen : '}' ∉ a ++ (y ++ (w ++ hd.name)) := by
    have hwords : ∀ y ∈ Header.words, '}' ∉ y := by decide
    simp only [List.mem_append, not_or]
    refine ⟨fun hc => ?_, hwords y hy, fun hc => absurd (hw _ hc) (by decide),
      fun hc => not_brace_of_continuesName (hname _ hc) rfl⟩
    rcases forall_prefix_of_keyword ha _ hc with hc | hc <;> exact absurd hc (by decide)
  refine Nat.le_of_not_lt fun hlt => hopen ?_
  have hle : x.length ≤ (a ++ (y ++ (w ++ hd.name))).length := by omega
  have hpre : x <+: a ++ (y ++ (w ++ hd.name)) := by
    refine List.prefix_of_prefix_length_le (List.prefix_append x r) ⟨r', ?_⟩ hle
    rw [he]
    simp only [List.append_assoc]
  exact hpre.subset hclose

/-! ## Passing over an opaque text -/

/-- The depth behind a piece of the text. -/
theorem depthAt_append {s pre t w : Text} {start : Nat} (hs : s = pre ++ (t ++ w))
    (hstart : start ≤ pre.length) :
    depthAt s start (pre.length + t.length) =
      depthAt s start pre.length + balance Brackets.curly.weight t := by
  have hlen : (pre.take start).length = start := by
    rw [List.length_take]
    omega
  have hdrop : (pre.take start).length + (pre.drop start).length = pre.length := by
    rw [← List.length_append, List.take_append_drop]
  have h₁ : slice s start pre.length = pre.drop start := by
    refine slice_eq (u := pre.take start) (w := t ++ w) ?_ hlen.symm hdrop.symm
    rw [hs, ← List.append_assoc (pre.take start), List.take_append_drop]
  have h₂ : slice s start (pre.length + t.length) = pre.drop start ++ t := by
    refine slice_eq (u := pre.take start) (w := w) ?_ hlen.symm ?_
    · rw [hs, ← List.append_assoc (pre.take start), ← List.append_assoc (pre.take start),
        List.take_append_drop, List.append_assoc]
    · rw [List.length_append]
      omega
  unfold depthAt
  rw [h₁, h₂, Brackets.depth_eq_balance (by decide), Brackets.depth_eq_balance (by decide),
    balance_append]

/-- The search for declarations passes over an opaque text that it starts in front of. -/
theorem sitesFrom_past {s pre t r w : Text} {start stop : Nat} {nested : Bool} (ht : Opaque t)
    (hset : r = [] ∨ SetOff t) (hs : s = pre ++ (t ++ (r ++ w)))
    (hstop : stop = pre.length + (t.length + r.length)) (hstart : start ≤ pre.length)
    (hd : depthAt s start pre.length = 0) :
    sitesFrom s start pre.length stop nested =
      sitesFrom s start (pre.length + t.length) stop nested := by
  refine sitesFrom_skip (Nat.le_add_right _ _) fun i hd' hi hi' hat => ?_
  obtain ⟨k, rfl⟩ := Nat.exists_eq_add_of_le hi
  have hk : k < t.length := by omega
  have htk : t = t.take k ++ t.drop k := (List.take_append_drop k t).symm
  have hlen : (t.take k).length = k := by
    rw [List.length_take]
    omega
  have hslice : slice s (pre.length + k) stop = t.drop k ++ r := by
    refine slice_eq (u := pre ++ t.take k) (w := w) ?_ (by rw [List.length_append, hlen]) ?_
    · rw [hs]
      conv => lhs; rw [htk]
      simp only [List.append_assoc]
    · simp only [hstop, List.length_append, List.length_take, List.length_drop]
      omega
  have hbefore : charBefore? s (pre.length + k) = (pre ++ t.take k).getLast? := by
    refine charBefore?_eq (v := t.drop k ++ (r ++ w)) ?_ (by rw [List.length_append, hlen])
    rw [hs]
    conv => lhs; rw [htk]
    simp only [List.append_assoc]
  have hdepth : depthAt s start (pre.length + k) = balance Brackets.curly.weight (t.take k) := by
    have := @depthAt_append s pre (t.take k) (t.drop k ++ (r ++ w)) start
      (by rw [hs, ← List.append_assoc (t.take k), ← htk]) hstart
    rw [hlen, hd, Int.zero_add] at this
    exact this
  unfold Header.at? at hat
  split at hat
  · cases hat
  · rename_i hhide
    rw [hslice] at hat
    by_cases hu : balance Brackets.curly.weight (t.take k) = 0
    · -- Outside braces there is no header at all.
      have hnone := ht.read?_eq_none hset htk (by
          intro e
          have := congrArg List.length e
          rw [List.length_drop, List.length_nil] at this
          omega) hu (fun c hc => by
        rw [hbefore, List.getLast?_append, hc] at hhide
        simpa using hhide) (pre.length + k)
      rw [hnone] at hat
      cases hat
    · -- Inside braces the header is at another depth, and a brace stands behind it.
      have hle := stop_le_of_read? ht.nested htk hu hat
      rw [List.length_drop] at hle
      exact ⟨by rw [hdepth]; exact hu, by omega⟩

/-- The depth behind an opaque text is the depth in front of it. -/
theorem depthAt_past {s pre t w : Text} {start : Nat} (ht : Opaque t) (hs : s = pre ++ (t ++ w))
    (hstart : start ≤ pre.length) (hd : depthAt s start pre.length = 0) :
    depthAt s start (pre.length + t.length) = 0 := by
  rw [depthAt_append hs hstart, hd, ht.nested.balance_eq]
  rfl

theorem SetOff.not_hidesKeyword {t : Text} (ht : SetOff t) :
    ∀ c ∈ t.getLast?, Header.hidesKeyword c = false := by
  intro c hc
  rcases ht.ends c hc with hb | rfl | rfl
  · exact not_hidesKeyword_of_isBlank hb
  · decide
  · decide

/-- A declaration behind an opaque text is found, with the declarations of its body and those behind
it. -/
theorem sitesFrom_past_declaration {s pre t body r w : Text} {h : Head} {start stop : Nat}
    {nested : Bool} (ht : Opaque t) (hset : SetOff t) (hh : h.Readable)
    (hbody : Nested Brackets.curly.weight body)
    (hs : s = pre ++ (t ++ ((h.text ++ '{' :: (body ++ '}' :: r)) ++ w)))
    (hstop : stop = pre.length + (t.length + (h.text ++ '{' :: (body ++ '}' :: r)).length))
    (hb : ∀ c ∈ pre.getLast?, Header.hidesKeyword c = false) (hstart : start ≤ pre.length)
    (hd : depthAt s start pre.length = 0) :
    sitesFrom s start pre.length stop nested =
      let first := pre.length + t.length
      let open_ := first + h.text.length
      let close := open_ + (body.length + 1)
      ⟨h.headerAt first, close + 1,
          if h.keyword.kind = .plainClass then constructorsIn s h.name (open_ + 1) close else [],
          nested⟩ ::
        (sitesFrom s (open_ + 1) (open_ + 1) close true ++
          sitesFrom s start (close + 1) stop nested) := by
  have hb' : ∀ c ∈ (pre ++ t).getLast?, Header.hidesKeyword c = false := by
    intro c hc
    rw [List.getLast?_append] at hc
    cases hl : t.getLast? with
    | none =>
      rw [hl] at hc
      exact hb c hc
    | some d =>
      rw [hl] at hc
      cases hc
      exact hset.not_hidesKeyword c hl
  have hs' : s = (pre ++ t) ++ ((h.text ++ '{' :: (body ++ '}' :: r)) ++ w) := by
    rw [hs, List.append_assoc pre]
  have hstop' : stop = (pre ++ t).length + (h.text ++ '{' :: (body ++ '}' :: r)).length := by
    rw [hstop, @List.length_append _ pre, Nat.add_assoc]
  have hd' : depthAt s start (pre ++ t).length = 0 := by
    rw [List.length_append]
    exact depthAt_past ht hs hstart hd
  rw [sitesFrom_past ht (Or.inr hset) hs hstop hstart hd, ← List.length_append]
  exact sitesFrom_declaration hh hbody hs' hstop' hb' hd'

/-! ## Blank texts -/

theorem Opaque.of_allBlank {w : Text} (hw : AllBlank w) : Opaque w where
  nested := .of_forall fun c hc => weight_curly_of_isBlank (hw c hc)
  noKeyword := by
    have hletter : ∀ y ∈ Header.words, ∃ c ∈ y, isBlank c = false := by decide
    rintro u y v rfl hy -
    obtain ⟨c, hc, hb⟩ := hletter y hy
    rw [hw c (List.mem_append_right u (List.mem_append_left v hc))] at hb
    cases hb

theorem SetOff.of_allBlank {w : Text} (hw : AllBlank w) : SetOff w where
  ends := fun c hc => Or.inl (hw.isBlank_of_getLast? hc)
  no_at := by
    rw [← List.nil_append w, trimRight_blanks hw]
    exact fun h => nomatch h

end RecordSkeleton.Java
