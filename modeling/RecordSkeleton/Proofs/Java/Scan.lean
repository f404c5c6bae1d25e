import RecordSkeleton.Java.Source
import RecordSkeleton.Proofs.Bracket.Nesting
import RecordSkeleton.Proofs.Text.Identifier

/-!
# One declaration in a masked text

How the search for declarations goes on from an offset of a masked text.

1. The search may start further on as long as no header is passed that it would have taken
   (`sitesFrom_skip`).
2. A declaration that stands right at the offset is found with its own span. The search goes on in
   its body, and behind the body as before (`sitesFrom_declaration`).
-/

namespace RecordSkeleton.Java

open Text

/-! ## Slices -/

theorem charBefore?_eq {s u v : Text} {i : Nat} (hs : s = u ++ v) (hi : i = u.length) :
    charBefore? s i = u.getLast? := by
  subst hs hi
  rcases List.eq_nil_or_concat u with rfl | ⟨r, c, rfl⟩
  · rfl
  · simp [charBefore?]

theorem slice_succ {s r : Text} {i j : Nat} {c : Char} (h : slice s i j = c :: r) :
    slice s (i + 1) j = r ∧ charBefore? s (i + 1) = some c := by
  unfold slice at h ⊢
  cases hd : s.drop i with
  | nil => rw [hd, List.take_nil] at h; cases h
  | cons e t =>
    obtain ⟨k, hk⟩ : ∃ k, j - i = k + 1 := by
      cases hj : j - i with
      | zero => rw [hj, List.take_zero] at h; cases h
      | succ k => exact ⟨k, rfl⟩
    rw [hd, hk, List.take_succ_cons, List.cons.injEq] at h
    have ht : s.drop (i + 1) = t := by rw [← List.drop_drop, hd]; rfl
    refine ⟨?_, ?_⟩
    · rw [ht, show j - (i + 1) = k by omega]
      exact h.2
    · have := congrArg List.head? hd
      rw [List.head?_drop] at this
      rw [charBefore?, this, ← h.1]
      rfl

/-! ## The search for a header, one offset at a time -/

/-- The header that starts right at an offset. -/
def Header.at? (s : Text) (i stop : Nat) : Option Header :=
  if (charBefore? s i).any hidesKeyword then none else read? i (slice s i stop)

namespace Header

theorem read?_nil (i : Nat) : read? i [] = none := rfl

theorem find?_eq_of_at? {s : Text} {i stop : Nat} {hd : Header} (h : at? s i stop = some hd) :
    find? s i stop = some hd := by
  unfold find?
  unfold at? at h
  cases hs : slice s i stop with
  | nil =>
    rw [hs, read?_nil] at h
    split at h <;> cases h
  | cons c r =>
    rw [hs] at h
    rw [search?, h]

theorem find?_succ {s : Text} {i stop : Nat} (h : at? s i stop = none) :
    find? s i stop = find? s (i + 1) stop := by
  unfold find?
  unfold at? at h
  cases hs : slice s i stop with
  | nil =>
    have : slice s (i + 1) stop = [] := by
      unfold slice at hs ⊢
      rcases List.take_eq_nil_iff.1 hs with h' | h'
      · rw [show stop - (i + 1) = 0 by omega, List.take_zero]
      · rw [← List.drop_drop, h', List.drop_nil, List.take_nil]
    rw [this]
    rfl
  | cons c r =>
    obtain ⟨h₁, h₂⟩ := slice_succ hs
    rw [hs] at h
    rw [search?, h, h₁, h₂]

theorem at?_bounds {s : Text} {i stop : Nat} {hd : Header} (h : at? s i stop = some hd) :
    hd.start = i ∧ i < hd.stop := by
  unfold at? at h
  split at h
  · cases h
  · have := read?_bounds h
    omega

end Header

/-! ### What a header starts with -/

namespace Header

/-- The words that announce a declaration. -/
def words : List Text := keywords.map (·.1)

theorem continuesName_of_startsName {c : Char} (hc : startsName c = true) :
    continuesName c = true := by
  unfold startsName at hc
  unfold continuesName
  simp only [Bool.or_eq_true, beq_iff_eq] at hc ⊢
  rcases hc with (hc | rfl) | rfl
  · refine Or.inl (isWordChar_of_isIdentifierChar ?_)
    unfold isIdentifierChar Char.isAlphanum
    rw [hc]
    rfl
  · exact Or.inl (by decide)
  · exact Or.inr rfl

/-- The spellings of the keyword that announces a shape. Blanks may stand behind the sign `@`. -/
inductive KeywordSpelling : Kind → Text → Prop
  | word {y : Text} {k : Kind} (h : (y, k) ∈ keywords) : KeywordSpelling k y
  | atSign {w : Text} (hw : AllBlank w) :
    KeywordSpelling .interface ('@' :: (w ++ "interface".toList))

theorem keyword?_spelling {x : Text} {k : Kind} {n : Nat} (h : keyword? x = some (k, n)) :
    ∃ y r, x = y ++ r ∧ n = y.length ∧ KeywordSpelling k y := by
  unfold keyword? at h
  split at h
  · rename_i r
    simp only at h
    split at h
    · rename_i hp
      simp only [Option.some.injEq, Prod.mk.injEq] at h
      obtain ⟨rfl, hn⟩ := h
      obtain ⟨t, ht⟩ := List.isPrefixOf_iff_prefix.1 hp
      refine ⟨'@' :: (r.takeWhile isBlank ++ "interface".toList), t, ?_, ?_,
        .atSign (.takeWhile r)⟩
      · rw [List.cons_append, List.append_assoc, ht, drop_length_takeWhile,
          List.takeWhile_append_dropWhile]
      · rw [← hn]
        simp only [List.length_cons, List.length_append]
        omega
    · cases h
  · obtain ⟨p, hp, he⟩ := Option.map_eq_some_iff.1 h
    have hpre := List.find?_some hp
    obtain ⟨t, ht⟩ := List.isPrefixOf_iff_prefix.1 hpre
    simp only [Prod.mk.injEq] at he
    obtain ⟨rfl, rfl⟩ := he
    exact ⟨p.1, t, ht.symm, rfl, .word (List.mem_of_find?_eq_some hp)⟩

/-- A keyword is one of the words, or the sign `@`, blanks and the word `interface`. -/
theorem keyword?_eq_some {x : Text} {k : Kind} {n : Nat} (h : keyword? x = some (k, n)) :
    ∃ a y r, x = a ++ (y ++ r) ∧ n = (a ++ y).length ∧ y ∈ words ∧
      (a = [] ∨ ∃ w, AllBlank w ∧ a = '@' :: w) := by
  obtain ⟨y, r, rfl, rfl, hy⟩ := keyword?_spelling h
  cases hy with
  | word hmem => exact ⟨[], y, r, rfl, rfl, List.mem_map_of_mem hmem, Or.inl rfl⟩
  | @atSign w hw =>
    refine ⟨'@' :: w, "interface".toList, r, ?_, rfl, by decide, Or.inr ⟨w, hw, rfl⟩⟩
    simp only [List.cons_append, List.append_assoc]

/-- A name at the front of a text. -/
theorem name?_eq_some {x n : Text} (h : name? x = some n) :
    (∃ r, x = n ++ r) ∧ ∀ c ∈ n, continuesName c = true := by
  unfold name? at h
  split at h
  · cases h
  · rename_i c r
    split at h
    · rename_i hc
      simp only [Option.some.injEq] at h
      subst h
      refine ⟨⟨r.dropWhile continuesName, ?_⟩, fun d hd => ?_⟩
      · rw [List.cons_append, List.takeWhile_append_dropWhile]
      · rcases List.mem_cons.1 hd with rfl | hd
        · exact continuesName_of_startsName hc
        · exact List.all_eq_true.1 List.all_takeWhile d hd
    · cases h

/-- A header that is read has a keyword in front of at least one blank and a name. -/
theorem read?_eq_some {i : Nat} {x : Text} {hd : Header} (h : read? i x = some hd) :
    ∃ a y w r, x = a ++ (y ++ (w ++ (hd.name ++ r))) ∧ y ∈ words ∧ AllBlank w ∧ w ≠ [] ∧
      (a = [] ∨ ∃ w, AllBlank w ∧ a = '@' :: w) ∧
      hd.stop = i + (a ++ (y ++ (w ++ hd.name))).length ∧ ∀ c ∈ hd.name, continuesName c = true := by
  unfold read? at h
  split at h
  · cases h
  · rename_i k n hk
    obtain ⟨a, y, t, rfl, rfl, hy, ha⟩ := keyword?_eq_some hk
    have hdrop : (a ++ (y ++ t)).drop (a ++ y).length = t := by
      rw [← List.append_assoc, List.drop_left]
    simp only [← List.drop_drop, hdrop, drop_length_takeWhile] at h
    split at h
    · cases h
    · rename_i hb
      obtain ⟨name, hn, rfl⟩ := Option.map_eq_some_iff.1 h
      obtain ⟨⟨r, hr⟩, hname⟩ := name?_eq_some hn
      refine ⟨a, y, t.takeWhile isBlank, r, ?_, hy, .takeWhile t, ?_, ha, ?_, hname⟩
      · simp only
        rw [← hr, List.takeWhile_append_dropWhile]
      · exact fun e => hb (by rw [e]; rfl)
      · simp only [List.length_append]
        omega

end Header

/-! ## The search for declarations, one header at a time -/

/-- How the search for declarations goes on, without the bounds that make it end. -/
theorem sitesFrom_eq (s : Text) (start pos stop : Nat) (nested : Bool) :
    sitesFrom s start pos stop nested = match Header.find? s pos stop with
      | none => []
      | some hd =>
        if depthAt s start hd.start ≠ 0 then sitesFrom s start hd.stop stop nested
        else match bodyOpen? s hd stop with
          | none => [⟨hd, stop, [], nested⟩]
          | some open_ =>
            ⟨hd, bodyClose s open_ stop + 1,
                if hd.kind = .plainClass then
                  constructorsIn s hd.name (open_ + 1) (bodyClose s open_ stop) else [], nested⟩ ::
              (sitesFrom s (open_ + 1) (open_ + 1) (bodyClose s open_ stop) true ++
                sitesFrom s start (bodyClose s open_ stop + 1) stop nested) := by
  rw [sitesFrom]
  split <;> rename_i h
  · rw [h]
  · rw [h]
    simp only
    split
    · rfl
    · split <;> rename_i h' <;> rw [h']

/-- The search for declarations may skip a range in which every header that it would stop at is at
another depth than zero and ends in the range. -/
theorem sitesFrom_skip {s : Text} {start stop : Nat} {nested : Bool} {p q : Nat} (hpq : p ≤ q)
    (h : ∀ i hd, p ≤ i → i < q → Header.at? s i stop = some hd →
      depthAt s start i ≠ 0 ∧ hd.stop ≤ q) :
    sitesFrom s start p stop nested = sitesFrom s start q stop nested := by
  generalize hn : q - p = n
  induction n using Nat.strongRecOn generalizing p with
  | _ n ih =>
    by_cases hlt : p < q
    · cases ha : Header.at? s p stop with
      | none =>
        have hstep := ih (q - (p + 1)) (by omega) (p := p + 1) (by omega)
          (fun i hd hi => h i hd (by omega)) rfl
        rw [← hstep, sitesFrom_eq, sitesFrom_eq s start (p + 1), Header.find?_succ ha]
      | some hd =>
        obtain ⟨hdepth, hstop⟩ := h p hd (Nat.le_refl p) hlt ha
        obtain ⟨hstart, hlt'⟩ := Header.at?_bounds ha
        have hstep := ih (q - hd.stop) (by omega) (p := hd.stop) hstop
          (fun i hd' hi => h i hd' (by omega)) rfl
        rw [← hstep, sitesFrom_eq, Header.find?_eq_of_at? ha]
        simp only [hstart]
        rw [if_pos hdepth]
    · rw [show p = q by omega]

/-! ## Headers as they are written -/

/-- The keywords that a declaration can start with. -/
inductive Keyword where
  /-- `record`. -/
  | record
  /-- `class`. -/
  | plainClass
  /-- `enum`. -/
  | enumeration
  /-- `interface`. -/
  | interface
  /-- `@interface`. -/
  | atInterface
  deriving DecidableEq, Repr

namespace Keyword

def text : Keyword → Text
  | record => "record".toList
  | plainClass => "class".toList
  | enumeration => "enum".toList
  | interface => "interface".toList
  | atInterface => "@interface".toList

/-- The shape that a keyword announces. -/
def kind : Keyword → Kind
  | record => .record
  | plainClass => .plainClass
  | enumeration => .enumeration
  | interface | atInterface => .interface

theorem keyword?_text (k : Keyword) (r : Text) :
    Header.keyword? (k.text ++ r) = some (k.kind, k.text.length) := by
  cases k <;> rfl

theorem not_brace (k : Keyword) : ∀ c ∈ k.text, c ≠ '{' ∧ c ≠ '}' := by cases k <;> decide

end Keyword

/-- The text of a kind of declaration behind its name that leads to the brace of its body: a record
has its component list there. -/
def LeadsToBody (kind : Kind) (tail : Text) : Prop :=
  match kind with
  | .record => ∃ u l v, tail = u ++ '(' :: (l ++ ')' :: v) ∧ '(' ∉ u ∧ '{' ∉ u ∧
      Nested Brackets.round.weight l ∧ '{' ∉ v
  | _ => '{' ∉ tail

/-- A declaration up to the brace of its body. -/
structure Head where
  /-- The keyword. -/
  keyword : Keyword
  /-- What stands between the keyword and the name. -/
  blanks : Text
  name : Text
  /-- What stands between the name and the body. -/
  tail : Text

namespace Head

def text (h : Head) : Text := h.keyword.text ++ (h.blanks ++ (h.name ++ h.tail))

/-- The header of a head that stands at the offset `p`. -/
def headerAt (h : Head) (p : Nat) : Header :=
  ⟨h.keyword.kind, h.name, p, p + (h.keyword.text.length + h.blanks.length + h.name.length)⟩

/-- A head that the search reads as it is meant. -/
structure Readable (h : Head) : Prop where
  /-- Only blanks stand between the keyword and the name. -/
  blanks : AllBlank h.blanks
  /-- At least one does. -/
  blanks_ne_nil : h.blanks ≠ []
  /-- The name is an identifier. -/
  name : isIdentifier h.name = true
  /-- The name ends where it is meant to end. -/
  apart : ∀ c ∈ h.tail.head?, Header.continuesName c = false
  /-- The body is found. -/
  leads : LeadsToBody h.keyword.kind h.tail

theorem length_text (h : Head) : h.text.length =
    h.keyword.text.length + h.blanks.length + h.name.length + h.tail.length := by
  simp only [text, List.length_append]
  omega

end Head

/-! ### The header of a head -/

theorem continuesName_of_isIdentifierChar {c : Char} (hc : isIdentifierChar c = true) :
    Header.continuesName c = true := by
  unfold Header.continuesName
  rw [isWordChar_of_isIdentifierChar hc]
  rfl

theorem name?_identifier {n r : Text} (hn : isIdentifier n = true)
    (hr : ∀ c ∈ r.head?, Header.continuesName c = false) : Header.name? (n ++ r) = some n := by
  cases n with
  | nil => cases hn
  | cons c t =>
    obtain ⟨hc, ht⟩ := isIdentifier_cons hn
    have hstart : Header.startsName c = true := by
      unfold Header.startsName
      rcases hc with hc | rfl
      · rw [hc]; rfl
      · decide
    rw [List.cons_append, Header.name?, if_pos hstart,
      takeWhile_append_stop (fun d hd => continuesName_of_isIdentifierChar (ht d hd)) hr]

theorem read?_head {h : Head} (hh : h.Readable) (i : Nat) (r : Text) :
    Header.read? i (h.text ++ '{' :: r) = some (h.headerAt i) := by
  obtain ⟨hb, hne, hn, ha, -⟩ := hh
  have hx : h.text ++ '{' :: r =
      h.keyword.text ++ (h.blanks ++ (h.name ++ (h.tail ++ '{' :: r))) := by
    simp only [Head.text, List.append_assoc]
  have hblanks : ((h.blanks ++ (h.name ++ (h.tail ++ '{' :: r))).takeWhile isBlank) = h.blanks :=
    takeWhile_append_stop hb (not_isBlank_of_head_identifier_append hn _)
  have hlen : h.blanks.length ≠ 0 := fun e => hne (List.length_eq_zero_iff.1 e)
  have hname : Header.name? (h.name ++ (h.tail ++ '{' :: r)) = some h.name := by
    refine name?_identifier hn ?_
    cases ht : h.tail with
    | nil =>
      rintro c ⟨⟩
      decide
    | cons c t =>
      rintro c ⟨⟩
      exact ha _ (by rw [ht]; rfl)
  unfold Header.read?
  rw [hx, Keyword.keyword?_text]
  simp only [List.drop_left, hblanks, if_neg hlen]
  rw [← List.drop_drop, List.drop_left, List.drop_left, hname]
  rfl

theorem at?_head {s pre r w : Text} {h : Head} (hh : h.Readable) {stop : Nat}
    (hs : s = pre ++ ((h.text ++ '{' :: r) ++ w))
    (hstop : stop = pre.length + (h.text ++ '{' :: r).length)
    (hb : ∀ c ∈ pre.getLast?, Header.hidesKeyword c = false) :
    Header.at? s pre.length stop = some (h.headerAt pre.length) := by
  have hhide : (pre.getLast?).any Header.hidesKeyword = false := by
    cases hl : pre.getLast? with
    | none => rfl
    | some c => exact hb c hl
  unfold Header.at?
  rw [charBefore?_eq hs rfl, hhide, slice_eq hs rfl hstop, read?_head hh]
  rfl

/-! ### The body behind a head -/

theorem charOffset?_eq {c : Char} {s a b : Text} {i stop : Nat} (hs : slice s i stop = a ++ c :: b)
    (ha : c ∉ a) : charOffset? c s i stop = some (i + a.length) := by
  have hnone : a.findIdx? (· == c) = none := by
    rw [List.findIdx?_eq_none_iff]
    intro d hd
    exact beq_eq_false_iff_ne.2 fun e => ha (e ▸ hd)
  unfold charOffset?
  rw [hs, List.findIdx?_append, hnone, List.findIdx?_cons]
  simp

theorem le_of_charOffset? {c : Char} {s a b : Text} {i stop k : Nat} (hs : slice s i stop = a ++ b)
    (ha : c ∉ a) (hk : charOffset? c s i stop = some k) : i + a.length ≤ k := by
  have hnone : a.findIdx? (· == c) = none := by
    rw [List.findIdx?_eq_none_iff]
    intro d hd
    exact beq_eq_false_iff_ne.2 fun e => ha (e ▸ hd)
  unfold charOffset? at hk
  rw [hs, List.findIdx?_append, hnone, Option.none_or, Option.map_map] at hk
  obtain ⟨j, _, rfl⟩ := Option.map_eq_some_iff.1 hk
  simp only [Function.comp]
  omega

/-- The body of a declaration opens behind its head. -/
theorem bodyOpen?_of_leadsToBody {s pre tail r w : Text} {hd : Header} {stop : Nat}
    (ht : LeadsToBody hd.kind tail) (hs : s = pre ++ ((tail ++ '{' :: r) ++ w))
    (hi : hd.stop = pre.length) (hstop : stop = pre.length + (tail ++ '{' :: r).length) :
    bodyOpen? s hd stop = some (pre.length + tail.length) := by
  have hslice : slice s hd.stop stop = tail ++ '{' :: r := slice_eq hs hi hstop
  unfold bodyOpen?
  by_cases hk : hd.kind = .record
  · -- The component list of a record is passed over, whatever braces it holds.
    rw [hk] at ht
    obtain ⟨u, l, v, rfl, hu, hu', hl, hv⟩ := ht
    have hparen : charOffset? '(' s hd.stop stop = some (hd.stop + u.length) :=
      charOffset?_eq (b := l ++ ')' :: (v ++ '{' :: r)) (hslice.trans (by simp)) hu
    have hbrace : (charOffset? '{' s hd.stop stop).all (hd.stop + u.length < ·) = true := by
      cases hc : charOffset? '{' s hd.stop stop with
      | none => rfl
      | some k =>
        have := le_of_charOffset? (a := u ++ ['(']) (b := l ++ ')' :: (v ++ '{' :: r))
          (hslice.trans (by simp)) (by simp [hu']) hc
        simp only [List.length_append, List.length_singleton] at this
        simp only [Option.all_some, decide_eq_true_eq]
        omega
    have hclose : Brackets.round.matchingClose? s (hd.stop + u.length) =
        some (hd.stop + u.length + (l.length + 1)) := by
      have := Brackets.matchingClose?_nested (b := Brackets.round) (by decide) hl (pre ++ u)
        ((v ++ '{' :: r) ++ w)
      rw [List.length_append, ← hi] at this
      rw [← this, hs]
      simp [Brackets.round]
    have hstart : bodySearchStart? s hd stop = some (hd.stop + u.length + (l.length + 1) + 1) := by
      unfold bodySearchStart?
      rw [hk, hparen]
      simp only [hbrace, if_true, hclose, Option.map_some]
    rw [hstart, Option.bind_some, charOffset?_eq (a := v) (b := r) (slice_eq
      (u := pre ++ (u ++ '(' :: (l ++ [')']))) (w := w) ?_ ?_ ?_) hv]
    · simp only [List.length_append, List.length_cons, hi, Option.some.injEq]
      omega
    · rw [hs]
      simp
    · simp only [List.length_append, List.length_cons, List.length_nil]
      omega
    · rw [hstop]
      simp only [List.length_append, List.length_cons, List.length_nil]
      omega
  · have hbrace : '{' ∉ tail := by
      unfold LeadsToBody at ht
      split at ht
      · rename_i h
        exact absurd h hk
      · exact ht
    have hstart : bodySearchStart? s hd stop = some hd.stop := by
      unfold bodySearchStart?
      split
      · rename_i h _
        exact absurd h hk
      · rfl
    rw [hstart, Option.bind_some, charOffset?_eq hslice hbrace, hi]

theorem bodyClose_eq {s pre body r : Text} {open_ stop : Nat} (hb : Nested Brackets.curly.weight body)
    (hs : s = pre ++ '{' :: (body ++ '}' :: r)) (hi : open_ = pre.length)
    (hstop : open_ + (body.length + 1) < stop) :
    bodyClose s open_ stop = open_ + (body.length + 1) := by
  have hclose : Brackets.curly.matchingClose? s open_ = some (open_ + (body.length + 1)) := by
    rw [hs, hi]
    exact Brackets.matchingClose?_nested (b := Brackets.curly) (by decide) hb pre r
  unfold bodyClose
  rw [hclose]
  exact if_pos hstop

/-- A declaration that stands at the offset of the search is found, with the declarations of its body
and those behind it. -/
theorem sitesFrom_declaration {s pre body r w : Text} {h : Head} {start stop : Nat} {nested : Bool}
    (hh : h.Readable) (hbody : Nested Brackets.curly.weight body)
    (hs : s = pre ++ ((h.text ++ '{' :: (body ++ '}' :: r)) ++ w))
    (hstop : stop = pre.length + (h.text ++ '{' :: (body ++ '}' :: r)).length)
    (hb : ∀ c ∈ pre.getLast?, Header.hidesKeyword c = false)
    (hd : depthAt s start pre.length = 0) :
    sitesFrom s start pre.length stop nested =
      let open_ := pre.length + h.text.length
      let close := open_ + (body.length + 1)
      ⟨h.headerAt pre.length, close + 1,
          if h.keyword.kind = .plainClass then constructorsIn s h.name (open_ + 1) close else [],
          nested⟩ ::
        (sitesFrom s (open_ + 1) (open_ + 1) close true ++
          sitesFrom s start (close + 1) stop nested) := by
  have hfind := Header.find?_eq_of_at? (at?_head hh hs hstop hb)
  have hopen : bodyOpen? s (h.headerAt pre.length) stop = some (pre.length + h.text.length) := by
    have hb : bodyOpen? s (h.headerAt pre.length) stop =
        some ((pre ++ (h.keyword.text ++ (h.blanks ++ h.name))).length + h.tail.length) :=
      bodyOpen?_of_leadsToBody (r := body ++ '}' :: r) (w := w) hh.leads
        (by rw [hs, Head.text]; simp) (by simp [Head.headerAt]; omega)
        (by rw [hstop, Head.text]; simp only [List.length_append]; omega)
    rw [hb, Head.length_text]
    simp only [List.length_append]
    congr 1
    omega
  have hclose : bodyClose s (pre.length + h.text.length) stop =
      pre.length + h.text.length + (body.length + 1) := by
    refine bodyClose_eq (r := r ++ w) hbody ?_ (@List.length_append _ pre h.text).symm ?_
    · rw [hs]
      simp
    · rw [hstop]
      simp only [List.length_append, List.length_cons]
      omega
  have hd' : ¬ depthAt s start (h.headerAt pre.length).start ≠ 0 := fun hne => hne hd
  rw [sitesFrom_eq, hfind]
  simp only [if_neg hd', hopen, hclose]
  rfl

end RecordSkeleton.Java
