import RecordSkeleton.Proofs.Declaration.Header
import RecordSkeleton.Proofs.Java.Opaque

/-!
# The header of a record that was found

A record is found by the header that its text starts with, and its list is searched behind a header in
that text. The first search takes a name as far as it goes, the second one looks for a word boundary
behind the name.

1. The text of a record starts with its keyword, blanks and its name (`exists_leadingHeader`).
2. Its list is the one behind this header, unless the name ends in a dollar sign: then no word boundary
   is behind the name, and the header is passed over (`fieldList?_of_record`,
   `fieldList?_dollarRecord`).
-/

namespace RecordSkeleton.Java

open Text

/-! ## The header of a site -/

namespace Header

theorem KeywordSpelling.eq_record {y : Text} (h : KeywordSpelling .record y) :
    y = "record".toList := by
  cases h with
  | word hmem =>
    simp only [keywords, List.mem_cons, Prod.mk.injEq, List.not_mem_nil, or_false] at hmem
    rcases hmem with ⟨rfl, -⟩ | ⟨-, hk⟩ | ⟨-, hk⟩ | ⟨-, hk⟩
    · rfl
    · cases hk
    · cases hk
    · cases hk

/-- A name in front of a rest with which it does not go on. -/
structure MaximalName (name rest : Text) : Prop where
  ne_nil : name ≠ []
  starts : ∀ c ∈ name.head?, startsName c = true
  continues : ∀ c ∈ name, continuesName c = true
  ends : ∀ c ∈ rest.head?, continuesName c = false

theorem MaximalName.take {name rest : Text} (h : MaximalName name rest) (k : Nat) :
    MaximalName name (rest.take k) := by
  refine ⟨h.ne_nil, h.starts, h.continues, fun c hc => h.ends c ?_⟩
  rw [Option.mem_def, List.head?_take] at hc
  split at hc
  · cases hc
  · exact hc

theorem name?_maximal {x n : Text} (h : name? x = some n) : ∃ r, x = n ++ r ∧ MaximalName n r := by
  have hcontinues := (name?_eq_some h).2
  unfold name? at h
  split at h
  · cases h
  · rename_i c r
    split at h
    · rename_i hc
      cases h
      refine ⟨r.dropWhile continuesName, ?_, List.cons_ne_nil _ _, ?_, hcontinues, fun d hd => ?_⟩
      · rw [List.cons_append, List.takeWhile_append_dropWhile]
      · rintro _ ⟨⟩
        exact hc
      · have := List.head?_dropWhile_not continuesName r
        rw [Option.mem_def.1 hd] at this
        simpa using this
    · cases h

/-- A header that is read, with its keyword, the blanks behind that and what follows its name. -/
theorem read?_spelling {i : Nat} {x : Text} {hd : Header} (h : read? i x = some hd) :
    ∃ y w r, x = y ++ (w ++ (hd.name ++ r)) ∧ KeywordSpelling hd.kind y ∧ AllBlank w ∧ w ≠ [] ∧
      hd.stop = i + (y ++ (w ++ hd.name)).length ∧ MaximalName hd.name r := by
  unfold read? at h
  split at h
  · cases h
  · rename_i k n hkeyword
    simp only at h
    split at h
    · cases h
    · rename_i hblanks
      obtain ⟨name, hname, rfl⟩ := Option.map_eq_some_iff.1 h
      obtain ⟨y, t, rfl, rfl, hy⟩ := keyword?_spelling hkeyword
      rw [List.drop_left] at hblanks hname ⊢
      rw [← List.drop_drop, List.drop_left, drop_length_takeWhile] at hname
      obtain ⟨r, hr, hmaximal⟩ := name?_maximal hname
      refine ⟨y, t.takeWhile isBlank, r, ?_, hy, .takeWhile t, ?_, ?_, hmaximal⟩
      · show y ++ t = y ++ (t.takeWhile isBlank ++ (name ++ r))
        rw [← hr, List.takeWhile_append_dropWhile]
      · exact fun e => hblanks (by rw [e]; rfl)
      · simp only [List.length_append]
        omega

theorem search?_eq_some {before : Option Char} {i : Nat} {x : Text} {hd : Header}
    (h : search? before i x = some hd) :
    ∃ k, hd.start = i + k ∧ read? (i + k) (x.drop k) = some hd := by
  induction x generalizing before i with
  | nil => cases h
  | cons c r ih =>
    rw [search?] at h
    split at h
    · rename_i hd' hr
      cases h
      split at hr
      · cases hr
      · exact ⟨0, (read?_bounds hr).1, hr⟩
    · obtain ⟨k, hk, hr⟩ := ih h
      refine ⟨k + 1, by omega, ?_⟩
      rw [List.drop_succ_cons, ← hr]
      congr 1
      omega

theorem find?_eq_some {s : Text} {p q : Nat} {hd : Header} (h : find? s p q = some hd) :
    read? hd.start (slice s hd.start q) = some hd := by
  obtain ⟨k, hk, hr⟩ := search?_eq_some h
  rw [hk, ← hr]
  unfold slice
  rw [List.drop_take, List.drop_drop, Nat.sub_sub]

end Header

/-- The header of a site was found in a range that reaches to the site's end or beyond. -/
theorem exists_find?_of_mem_sitesFrom {s : Text} {start pos stop : Nat} {nested : Bool} {site : Site}
    (h : site ∈ sitesFrom s start pos stop nested) :
    ∃ p q, Header.find? s p q = some site.header ∧ site.header.stop ≤ site.stop ∧ site.stop ≤ q := by
  fun_induction sitesFrom s start pos stop nested with
  | case1 => cases h
  | case2 start pos stop nested hd hfind hdepth ih => exact ih h
  | case3 start pos stop nested hd hfind hdepth hopen =>
    rw [List.mem_singleton.1 h]
    have := Header.find?_bounds hfind
    exact ⟨pos, stop, hfind, this.2.2.1, Nat.le_refl stop⟩
  | case4 start pos stop nested hd hfind hdepth open_ hopen close constructors ihbody ihrest =>
    rcases List.mem_cons.1 h with rfl | h
    · have h₁ := bodyOpen?_bounds hopen
      have h₂ := bodyClose_bounds (s := s) h₁.2
      exact ⟨pos, stop, hfind, by simp only [close]; omega, by simp only [close]; omega⟩
    · rcases List.mem_append.1 h with h | h
      · exact ihbody h
      · exact ihrest h

/-! ## The header that a record starts with -/

/-- The text of a declaration is `record`, blanks, its name and a rest with which the name does not go
on. -/
structure LeadingHeader (d : Declaration) (blanks tail : Text) : Prop where
  source_eq : d.source = "record".toList ++ (blanks ++ (d.name ++ tail))
  allBlank : AllBlank blanks
  ne_nil : blanks ≠ []
  maximalName : Header.MaximalName d.name tail

variable {content : Text} {location : Option Text} {editable : Bool} {d : Declaration}

/-- The header that a declaration starts with. -/
theorem exists_spelling (hd : d ∈ declarations content location editable) :
    ∃ y w r, d.source = y ++ (w ++ (d.name ++ r)) ∧ Header.KeywordSpelling d.kind y ∧ AllBlank w ∧
      w ≠ [] ∧ Header.MaximalName d.name r := by
  obtain ⟨site, hsite, rfl⟩ := List.mem_map.1 hd
  obtain ⟨p, q, hfind, hstop, hq⟩ := exists_find?_of_mem_sitesFrom hsite
  obtain ⟨y, w, r, hslice, hy, hw, hne, hend, hname⟩ :=
    Header.read?_spelling (Header.find?_eq_some hfind)
  -- The text of the declaration may end before the range of the search does.
  have hsource : slice (mask content) site.header.start site.stop =
      (slice (mask content) site.header.start q).take (site.stop - site.header.start) := by
    unfold slice
    rw [List.take_take, Nat.min_eq_left (by omega)]
  have hsplit : y ++ (w ++ (site.header.name ++ r)) = (y ++ (w ++ site.header.name)) ++ r := by
    simp only [List.append_assoc]
  refine ⟨y, w, r.take (site.stop - site.header.stop), ?_, hy, hw, hne, hname.take _⟩
  show slice (mask content) site.header.start site.stop =
    y ++ (w ++ (site.header.name ++ r.take (site.stop - site.header.stop)))
  rw [hsource, hslice, hsplit, List.take_append, List.take_of_length_le (by omega)]
  simp only [List.append_assoc]
  rw [show site.stop - site.header.start - (y ++ (w ++ site.header.name)).length =
    site.stop - site.header.stop by omega]

theorem exists_leadingHeader (hd : d ∈ declarations content location editable)
    (hk : d.kind = .record) : ∃ blanks tail, LeadingHeader d blanks tail := by
  obtain ⟨y, w, r, hsource, hy, hw, hne, hname⟩ := exists_spelling hd
  rw [hk] at hy
  rw [hy.eq_record] at hsource
  exact ⟨w, r, hsource, hw, hne, hname⟩

theorem not_isBlank_of_startsName {c : Char} (hc : Header.startsName c = true) :
    isBlank c = false := by
  cases h : isBlank c with
  | false => rfl
  | true =>
    have := not_continuesName_of_isBlank h
    rw [Header.continuesName_of_startsName hc] at this
    cases this

namespace LeadingHeader

variable {blanks tail : Text} (h : LeadingHeader d blanks tail)

include h

theorem name_not_blank : ∀ c ∈ d.name.head?, isBlank c = false :=
  fun c hc => not_isBlank_of_startsName (h.maximalName.starts c hc)

/-- A word boundary is behind the name, unless the name ends in a dollar sign. -/
theorem isWordBoundary_eq :
    isWordBoundary d.name.getLast? tail.head? = !(d.name.getLast? == some '$') := by
  have hnext : tail.head?.any isWordChar = false := by
    cases hc : tail.head? with
    | none => rfl
    | some c =>
      have := h.maximalName.ends c hc
      unfold Header.continuesName at this
      rw [Bool.or_eq_false_iff] at this
      exact this.1
  obtain ⟨c, hc⟩ := Option.isSome_iff_exists.1 (List.getLast?_isSome.2 h.maximalName.ne_nil)
  have hcontinues := h.maximalName.continues c (List.mem_of_getLast? hc)
  unfold isWordBoundary
  rw [hnext, hc, Option.any_some]
  unfold Header.continuesName at hcontinues
  by_cases hdollar : c = '$'
  · rw [hdollar]
    decide
  · rw [beq_false_of_ne hdollar, Bool.or_false] at hcontinues
    rw [hcontinues, beq_false_of_ne (fun e => hdollar (Option.some.inj e))]
    rfl

/-- The list of a record whose name does not end in a dollar sign is looked for behind its header. -/
theorem fieldList?_eq (hk : d.kind = .record) (hlast : d.name.getLast? ≠ some '$') (marker : Text) :
    d.fieldList? marker = Declaration.listInterior? tail := by
  have hboundary : isWordBoundary d.name.getLast? tail.head? = true := by
    rw [h.isWordBoundary_eq, beq_false_of_ne hlast]
    rfl
  unfold Declaration.fieldList?
  rw [hk]
  simp only [h.source_eq]
  rw [Declaration.afterHeader?_of_boundary h.allBlank h.ne_nil h.maximalName.ne_nil h.name_not_blank
    hboundary]
  rfl

/-- The header of a record whose name ends in a dollar sign is passed over. -/
theorem fieldList?_eq_of_dollar (hk : d.kind = .record) (hlast : d.name.getLast? = some '$')
    (marker : Text) :
    d.fieldList? marker =
      (Declaration.afterHeader? d.name (some 'r') (d.source.drop 1)).bind
        Declaration.listInterior? := by
  have hboundary : isWordBoundary d.name.getLast? tail.head? = false := by
    rw [h.isWordBoundary_eq, hlast]
    rfl
  unfold Declaration.fieldList?
  rw [hk]
  simp only [h.source_eq]
  rw [Declaration.afterHeader?_of_not_boundary h.allBlank h.ne_nil h.maximalName.ne_nil h.name_not_blank
    hboundary]
  rfl

end LeadingHeader

/-- The list of a record that was found is the text between the first brackets behind the header that
its own text starts with, if they are closed there, as long as its name does not end in a dollar sign.
Otherwise this header is passed over, and a later one may be taken in its place. -/
theorem fieldList?_of_record (hd : d ∈ declarations content location editable)
    (hk : d.kind = .record) (marker : Text) :
    ∃ blanks tail, LeadingHeader d blanks tail ∧
      (d.name.getLast? ≠ some '$' →
        ∀ t, d.fieldList? marker = some t ↔ ∃ l, Declaration.FirstGroup tail l ∧ t = trim l) ∧
      (d.name.getLast? = some '$' →
        d.fieldList? marker =
          (Declaration.afterHeader? d.name (some 'r') (d.source.drop 1)).bind
            Declaration.listInterior?) := by
  obtain ⟨blanks, tail, h⟩ := exists_leadingHeader hd hk
  refine ⟨blanks, tail, h, fun hlast t => ?_, fun hlast => ?_⟩
  · rw [h.fieldList?_eq hk hlast]
    exact Declaration.listInterior?_eq_some_iff
  · exact h.fieldList?_eq_of_dollar hk hlast marker

/-- A record with a dollar sign in its name, which holds another record. -/
def outerRecord : Declaration where
  name := "Outer$1".toList
  kind := .record
  source := "record Outer$1 (int a, int[] b) \x7b record Outer(int c) \x7b\x7d \x7d".toList
  editable := true
  constructors := []
  location := none
  nested := false

theorem fieldList?_outerRecord :
    outerRecord ∈ declarations outerRecord.source none true ∧ outerRecord.kind = .record ∧
      ∃ blanks tail, LeadingHeader outerRecord blanks tail ∧
        (outerRecord.name.getLast? ≠ some '$' →
          ∀ t, outerRecord.fieldList? "JsonCreator".toList = some t ↔
            ∃ l, Declaration.FirstGroup tail l ∧ t = trim l) ∧
        (outerRecord.name.getLast? = some '$' →
          outerRecord.fieldList? "JsonCreator".toList =
            (Declaration.afterHeader? outerRecord.name (some 'r') (outerRecord.source.drop 1)).bind
              Declaration.listInterior?) := by
  have hmem : outerRecord ∈ declarations outerRecord.source none true := by decide +kernel
  exact ⟨hmem, rfl, fieldList?_of_record hmem rfl _⟩

/-- A record whose name ends in a dollar sign. -/
def dollarRecord : Declaration :=
  { outerRecord with name := "A$".toList, source := "record A$(int a) \x7b\x7d".toList }

/-- The list of a record whose name ends in a dollar sign is not found, although it is closed. -/
theorem fieldList?_dollarRecord :
    declarations dollarRecord.source none true = [dollarRecord] ∧
      LeadingHeader dollarRecord [' '] "(int a) \x7b\x7d".toList ∧
      Declaration.FirstGroup "(int a) \x7b\x7d".toList "int a".toList ∧
      dollarRecord.fieldList? "JsonCreator".toList = none := by
  refine ⟨by decide +kernel, ⟨rfl, by decide, by decide, by decide, by decide, by decide, by decide⟩,
    ⟨[], " \x7b\x7d".toList, rfl, by decide, by decide⟩, by decide +kernel⟩

end RecordSkeleton.Java
