import Mathlib.Logic.Relation
import RecordSkeleton.Declaration

/-!
# Preferred matches

Of the declarations that carry a name, the first one of the project is preferred, and a library's one
only stands for the fact that there is one. Two lists of matches have the same preference when they
agree so far.

1. The same preference picks the same declaration of the project, or one of a library in both lists
   (`SamePreference.cases`).
2. It is kept by every change that only concerns the matches of libraries (`LibraryChange`), one after
   the other (`LibraryChange.samePreference_of_changes`).
-/

namespace RecordSkeleton

/-- Two lists of matches agree: both are empty, both hold matches of libraries only, or the first match
of the project is the same. -/
inductive SamePreference : List Declaration → List Declaration → Prop
  | missing : SamePreference [] []
  | library {ds ds' : List Declaration} (hne : ds ≠ []) (hne' : ds' ≠ [])
    (h : ∀ d ∈ ds, d.editable = false) (h' : ∀ d ∈ ds', d.editable = false) : SamePreference ds ds'
  | project {ds ds' : List Declaration} {d : Declaration} (h : ds.find? (·.editable) = some d)
    (h' : ds'.find? (·.editable) = some d) : SamePreference ds ds'

namespace SamePreference

variable {ds ds' ds'' : List Declaration}

theorem find?_eq_none_of_library (h : ∀ d ∈ ds, d.editable = false) :
    ds.find? (·.editable) = none :=
  List.find?_eq_none.2 fun d hd => by rw [h d hd]; decide

/-- Of the matches of libraries the first is preferred. -/
theorem preferred?_of_library (hne : ds ≠ []) (h : ∀ d ∈ ds, d.editable = false) :
    ∃ d, Declaration.preferred? ds = some d ∧ d.editable = false := by
  cases ds with
  | nil => exact absurd rfl hne
  | cons d ds =>
    refine ⟨d, ?_, h d List.mem_cons_self⟩
    rw [Declaration.preferred?, find?_eq_none_of_library h]
    rfl

theorem preferred?_of_project {d : Declaration} (h : ds.find? (·.editable) = some d) :
    Declaration.preferred? ds = some d := by
  rw [Declaration.preferred?, h]
  rfl

/-- What is preferred in two lists with the same preference. -/
theorem cases (h : SamePreference ds ds') :
    (Declaration.preferred? ds = none ∧ Declaration.preferred? ds' = none) ∨
      (∃ d d', Declaration.preferred? ds = some d ∧ Declaration.preferred? ds' = some d' ∧
        d.editable = false ∧ d'.editable = false) ∨
      ∃ d, Declaration.preferred? ds = some d ∧ Declaration.preferred? ds' = some d ∧
        d.editable = true := by
  cases h with
  | missing => exact Or.inl ⟨rfl, rfl⟩
  | library hne hne' h h' =>
    obtain ⟨d, hd, he⟩ := preferred?_of_library hne h
    obtain ⟨d', hd', he'⟩ := preferred?_of_library hne' h'
    exact Or.inr (Or.inl ⟨d, d', hd, hd', he, he'⟩)
  | @project _ _ d h h' =>
    have he : d.editable = true := by simpa using List.find?_some h
    exact Or.inr (Or.inr ⟨d, preferred?_of_project h, preferred?_of_project h', he⟩)

theorem ne_nil_of_find? {d : Declaration} (h : ds.find? (·.editable) = some d) : ds ≠ [] :=
  List.ne_nil_of_mem (List.mem_of_find?_eq_some h)

/-- What counts is the first match of the project, and whether there is a match at all. -/
theorem iff_find? :
    SamePreference ds ds' ↔
      ds.find? (·.editable) = ds'.find? (·.editable) ∧ (ds = [] ↔ ds' = []) := by
  constructor
  · intro h
    cases h with
    | missing => exact ⟨rfl, Iff.rfl⟩
    | library hne hne' h h' =>
      exact ⟨(find?_eq_none_of_library h).trans (find?_eq_none_of_library h').symm,
        iff_of_false hne hne'⟩
    | project h h' =>
      exact ⟨h.trans h'.symm, iff_of_false (ne_nil_of_find? h) (ne_nil_of_find? h')⟩
  · rintro ⟨hfind, hempty⟩
    by_cases hne : ds = []
    · rw [hne, hempty.1 hne]
      exact .missing
    · cases h : ds.find? (·.editable) with
      | some d => exact .project h (hfind ▸ h)
      | none =>
        refine .library hne (mt hempty.2 hne) (fun d hd => ?_) fun d hd => ?_
        · simpa using List.find?_eq_none.1 h d hd
        · simpa using List.find?_eq_none.1 (hfind ▸ h) d hd

theorem refl (ds : List Declaration) : SamePreference ds ds := iff_find?.2 ⟨rfl, Iff.rfl⟩

theorem trans (h : SamePreference ds ds') (h' : SamePreference ds' ds'') :
    SamePreference ds ds'' := by
  rw [iff_find?] at h h' ⊢
  exact ⟨h.1.trans h'.1, h.2.trans h'.2⟩

end SamePreference

/-! ## Changes of library matches -/

/-- A change of a list of matches that only concerns those of libraries. -/
inductive LibraryChange : List Declaration → List Declaration → Prop
  /-- A match of a library is added to a list that holds one of the project. -/
  | insert {front back : List Declaration} {d e : Declaration} (hd : d.editable = false)
    (he : e ∈ front ++ back) (hproject : e.editable = true) :
    LibraryChange (front ++ back) (front ++ d :: back)
  /-- A match of a library occurs once more, anywhere. -/
  | duplicate {front back : List Declaration} {d : Declaration} (hd : d.editable = false)
    (hmem : d ∈ front ++ back) : LibraryChange (front ++ back) (front ++ d :: back)
  /-- A match of a library changes places with the one before or behind it. -/
  | swap {front back : List Declaration} {d e : Declaration}
    (h : d.editable = false ∨ e.editable = false) :
    LibraryChange (front ++ d :: e :: back) (front ++ e :: d :: back)

namespace LibraryChange

theorem find?_insert {d : Declaration} (hd : d.editable = false) (front back : List Declaration) :
    (front ++ d :: back).find? (·.editable) = (front ++ back).find? (·.editable) := by
  rw [List.find?_append, List.find?_append, List.find?_cons_of_neg (by rw [hd]; decide)]

theorem samePreference {ds ds' : List Declaration} (h : LibraryChange ds ds') :
    SamePreference ds ds' := by
  rw [SamePreference.iff_find?]
  cases h with
  | @insert front back d e hd he =>
    have hne : front ++ back ≠ [] := List.ne_nil_of_mem he
    exact ⟨(find?_insert hd front back).symm, iff_of_false hne (by simp)⟩
  | @duplicate front back d hd hmem =>
    have hne : front ++ back ≠ [] := List.ne_nil_of_mem hmem
    exact ⟨(find?_insert hd front back).symm, iff_of_false hne (by simp)⟩
  | @swap front back d e h =>
    refine ⟨?_, iff_of_false (by simp) (by simp)⟩
    rcases h with h | h
    · have hback := find?_insert h (front ++ [e]) back
      simp only [List.append_assoc, List.singleton_append] at hback
      rw [find?_insert h, hback]
    · have hback := find?_insert h (front ++ [d]) back
      simp only [List.append_assoc, List.singleton_append] at hback
      rw [find?_insert h, hback]

/-- Any number of such changes keeps the preference. -/
theorem samePreference_of_changes {ds ds' : List Declaration}
    (h : Relation.ReflTransGen LibraryChange ds ds') : SamePreference ds ds' := by
  induction h with
  | refl => exact .refl ds
  | tail _ hchange ih => exact ih.trans hchange.samePreference

end LibraryChange

end RecordSkeleton
