import RecordSkeleton.Proofs.Java.RecordHeader

/-!
# The spans of the declarations

Every declaration takes a span of the masked text, also where brackets have no partner: a body that is
not closed in its range ends with the range.

1. The sites of a range lie in it, and their spans are well nested (`Family.sitesFrom`). A site is put
   in front of those in its body and of those behind it (`Family.cons_append`).
2. So the declarations of a text have well-nested spans, on any text (`declarations_wellNested`).
-/

namespace RecordSkeleton.Java

open Text

/-! ## Spans -/

/-- The offsets from `start` up to `stop`, the last one left out. -/
structure Span where
  start : Nat
  stop : Nat
  deriving DecidableEq, Repr

namespace Span

def Contains (a b : Span) : Prop := a.start ≤ b.start ∧ b.stop ≤ a.stop

def Disjoint (a b : Span) : Prop := a.stop ≤ b.start ∨ b.stop ≤ a.start

end Span

/-- The span of a site reaches from its keyword to the end of its declaration. -/
def Site.span (site : Site) : Span := ⟨site.header.start, site.stop⟩

/-- A declaration is the text of a span of `s`, which starts with its keyword, blanks and its name. -/
structure ShownAt (s : Text) (span : Span) (d : Declaration) : Prop where
  start_lt : span.start < span.stop
  stop_le : span.stop ≤ s.length
  source_eq : d.source = slice s span.start span.stop
  header : ∃ keyword blanks rest, Header.KeywordSpelling d.kind keyword ∧ AllBlank blanks ∧
    blanks ≠ [] ∧ d.source = keyword ++ (blanks ++ (d.name ++ rest))

/-- Declarations in the order of their keywords, each with its span in `s`. -/
structure WellNested (s : Text) (placed : List (Span × Declaration)) : Prop where
  shown : ∀ p ∈ placed, ShownAt s p.1 p.2
  increasing : placed.Pairwise fun p q => p.1.start < q.1.start
  /-- Of two spans that overlap, the earlier one holds the later one. -/
  laminar : placed.Pairwise fun p q => p.1.Disjoint q.1 ∨ p.1.Contains q.1
  /-- The nested ones are those that lie in the span of an earlier one. -/
  nested_iff : ∀ before p after, placed = before ++ p :: after →
    (p.2.nested = true ↔ ∃ q ∈ before, q.1.Contains p.1)

/-! ## The sites of a range -/

/-- What the search for declarations between `pos` and `stop` puts out, where `nested` says whether
the range is a body. -/
structure Family (pos stop : Nat) (nested : Bool) (l : List Site) : Prop where
  bounds : ∀ site ∈ l, pos ≤ site.span.start ∧ site.span.start < site.span.stop ∧ site.span.stop ≤ stop
  increasing : l.Pairwise fun a b => a.span.start < b.span.start
  laminar : l.Pairwise fun a b => a.span.Disjoint b.span ∨ a.span.Contains b.span
  nested_iff : ∀ before site after, l = before ++ site :: after →
    (site.nested = true ↔ nested = true ∨ ∃ x ∈ before, x.span.Contains site.span)

/-- A place in two lists side by side is one of the first or one of the second list. -/
theorem append_eq_append_cons {α : Type} {u v a b : List α} {x : α} (h : u ++ v = a ++ x :: b) :
    (∃ c, u = a ++ x :: c) ∨ ∃ c, a = u ++ c ∧ v = c ++ x :: b := by
  rcases List.append_eq_append_iff.1 h with ⟨c, ha, hv⟩ | ⟨c, hu, hx⟩
  · exact Or.inr ⟨c, ha, hv⟩
  · rcases List.cons_eq_append_iff.1 hx with ⟨rfl, hv⟩ | ⟨c, rfl, -⟩
    · exact Or.inr ⟨[], by simpa using hu.symm, hv⟩
    · exact Or.inl ⟨c, hu⟩

namespace Family

variable {pos stop : Nat} {nested : Bool}

theorem nil : Family pos stop nested [] := by
  refine ⟨fun _ hmem => (List.not_mem_nil hmem).elim, .nil, .nil, fun before site after h => ?_⟩
  cases before <;> cases h

theorem weaken {p q : Nat} {l : List Site} (hpos : pos ≤ p) (hstop : q ≤ stop)
    (h : Family p q nested l) : Family pos stop nested l := by
  refine ⟨fun site hmem => ?_, h.increasing, h.laminar, h.nested_iff⟩
  have := h.bounds site hmem
  omega

/-- The site of a declaration stands in front of the ones in its body. -/
theorem cons (site : Site) {open_ : Nat} {body : List Site} (hopen : site.span.start < open_)
    (hlt : site.span.start < site.span.stop) (hbody : Family open_ site.span.stop true body) :
    Family site.span.start site.span.stop site.nested (site :: body) := by
  have hlater : ∀ x ∈ body, site.span.start < x.span.start := by
    intro x hx
    have := hbody.bounds x hx
    omega
  have hcontains : ∀ x ∈ body, site.span.Contains x.span := fun x hx =>
    ⟨Nat.le_of_lt (hlater x hx), (hbody.bounds x hx).2.2⟩
  refine ⟨fun x hx => ?_, List.pairwise_cons.2 ⟨hlater, hbody.increasing⟩,
    List.pairwise_cons.2 ⟨fun x hx => Or.inr (hcontains x hx), hbody.laminar⟩,
    fun before x after h => ?_⟩
  · rcases List.mem_cons.1 hx with rfl | hx
    · exact ⟨Nat.le_refl _, hlt, Nat.le_refl _⟩
    · exact ⟨Nat.le_of_lt (hlater x hx), (hbody.bounds x hx).2⟩
  · rcases List.cons_eq_append_iff.1 h with ⟨rfl, hx⟩ | ⟨front, rfl, hx⟩
    · obtain ⟨rfl, -⟩ := List.cons.inj hx
      simp
    · have hmem : x ∈ body := by
        rw [hx]
        simp
      have htrue : x.nested = true := (hbody.nested_iff front x after hx).2 (Or.inl rfl)
      exact ⟨fun _ => Or.inr ⟨site, List.mem_cons_self, hcontains x hmem⟩, fun _ => htrue⟩

/-- Two ranges side by side. -/
theorem append {mid : Nat} {l m : List Site} (hl : Family pos mid nested l)
    (hm : Family mid stop nested m) (hpos : pos ≤ mid) (hstop : mid ≤ stop) :
    Family pos stop nested (l ++ m) := by
  have hapart : ∀ x ∈ l, ∀ y ∈ m, x.span.stop ≤ y.span.start := fun x hx y hy =>
    Nat.le_trans (hl.bounds x hx).2.2 (hm.bounds y hy).1
  refine ⟨fun x hx => ?_, List.pairwise_append.2 ⟨hl.increasing, hm.increasing, fun x hx y hy => ?_⟩,
    List.pairwise_append.2 ⟨hl.laminar, hm.laminar, fun x hx y hy => Or.inl (Or.inl (hapart x hx y hy))⟩,
    fun before x after h => ?_⟩
  · rcases List.mem_append.1 hx with hx | hx
    · have := hl.bounds x hx
      omega
    · have := hm.bounds x hx
      omega
  · have h₁ := (hl.bounds x hx).2.1
    have h₂ := hapart x hx y hy
    omega
  · rcases append_eq_append_cons h with ⟨back, hx⟩ | ⟨front, rfl, hx⟩
    · exact hl.nested_iff before x back hx
    · -- No span of the first range reaches into the second one.
      have hmem : x ∈ m := by
        rw [hx]
        simp
      rw [hm.nested_iff front x after hx]
      refine or_congr_right ⟨fun ⟨y, hy, hc⟩ => ⟨y, List.mem_append_right l hy, hc⟩, ?_⟩
      rintro ⟨y, hy, hc⟩
      rcases List.mem_append.1 hy with hy | hy
      · have h₁ := hapart y hy x hmem
        have h₂ := (hm.bounds x hmem).2.1
        have h₃ := hc.2
        omega
      · exact ⟨y, hy, hc⟩

/-- The sites of a range are well nested, whatever the text. -/
theorem sitesFrom (s : Text) (start pos stop : Nat) (nested : Bool) :
    Family pos stop nested (Java.sitesFrom s start pos stop nested) := by
  fun_induction Java.sitesFrom s start pos stop nested with
  | case1 => exact .nil
  | case2 start pos stop nested hd hfind hdepth ih =>
    have hbounds := Header.find?_bounds hfind
    exact ih.weaken (by omega) (Nat.le_refl stop)
  | case3 start pos stop nested hd hfind hdepth hopen =>
    -- The declaration has no body and takes the rest of the range.
    have hbounds := Header.find?_bounds hfind
    have hsite : Family hd.start stop nested [⟨hd, stop, [], nested⟩] :=
      cons ⟨hd, stop, [], nested⟩ hbounds.2.1 (by show hd.start < stop; omega) nil
    exact hsite.weaken hbounds.1 (Nat.le_refl stop)
  | case4 start pos stop nested hd hfind hdepth open_ hopen close constructors ihbody ihrest =>
    have hbounds := Header.find?_bounds hfind
    have hopens := bodyOpen?_bounds hopen
    have hcloses : open_ ≤ close ∧ close < stop := bodyClose_bounds hopens.2
    have hsite : Family hd.start (close + 1) nested (⟨hd, close + 1, constructors, nested⟩ ::
        Java.sitesFrom s (open_ + 1) (open_ + 1) close true) :=
      cons ⟨hd, close + 1, constructors, nested⟩ (by show hd.start < open_ + 1; omega)
        (by show hd.start < close + 1; omega)
        (ihbody.weaken (Nat.le_refl (open_ + 1)) (Nat.le_succ close))
    exact (hsite.weaken hbounds.1 (Nat.le_refl _)).append ihrest (by omega) (by omega)

end Family

/-! ## The declarations of a text -/

theorem Family.wellNested {s : Text} {l : List Site} {location : Option Text} {editable : Bool}
    (h : Family 0 s.length false l)
    (hshown : ∀ site ∈ l, ShownAt s site.span (site.declaration s location editable)) :
    WellNested s (l.map fun site => (site.span, site.declaration s location editable)) := by
  refine ⟨fun p hp => ?_, List.pairwise_map.2 h.increasing, List.pairwise_map.2 h.laminar,
    fun before p after heq => ?_⟩
  · obtain ⟨site, hsite, rfl⟩ := List.mem_map.1 hp
    exact hshown site hsite
  · obtain ⟨u, v, hl, rfl, hv⟩ := List.map_eq_append_iff.1 heq
    obtain ⟨site, w, rfl, rfl, -⟩ := List.map_eq_cons_iff.1 hv
    have hnested := h.nested_iff u site w hl
    simp only [Bool.false_eq_true, false_or] at hnested
    refine Iff.trans hnested ⟨fun ⟨x, hx, hc⟩ => ⟨_, List.mem_map_of_mem hx, hc⟩, fun ⟨q, hq, hc⟩ => ?_⟩
    obtain ⟨x, hx, rfl⟩ := List.mem_map.1 hq
    exact ⟨x, hx, hc⟩

/-- Every text has its declarations at well-nested spans of its masked form. -/
theorem declarations_wellNested (content : Text) (location : Option Text) (editable : Bool) :
    ∃ placed : List (Span × Declaration),
      placed.map (·.2) = declarations content location editable ∧ WellNested (mask content) placed := by
  have hfamily : Family 0 (mask content).length false (sites (mask content)) :=
    .sitesFrom (mask content) 0 0 (mask content).length false
  have hshown : ∀ site ∈ sites (mask content),
      ShownAt (mask content) site.span (site.declaration (mask content) location editable) := by
    intro site hsite
    have hbounds := hfamily.bounds site hsite
    have hmem : site.declaration (mask content) location editable ∈
        declarations content location editable := List.mem_map_of_mem hsite
    obtain ⟨y, w, r, hsource, hy, hw, hne, -⟩ := exists_spelling hmem
    exact ⟨hbounds.2.1, hbounds.2.2, rfl, y, w, r, hy, hw, hne, hsource⟩
  refine ⟨_, ?_, hfamily.wellNested hshown⟩
  rw [List.map_map]
  rfl

/-- A body that is not closed ends with the range, and so does the one in it. -/
example : (sites "class A \x7b enum B \x7b x".toList).map (fun site => (site.span, site.nested)) =
    [(⟨0, 20⟩, false), (⟨10, 19⟩, true)] := by decide +kernel

end RecordSkeleton.Java
