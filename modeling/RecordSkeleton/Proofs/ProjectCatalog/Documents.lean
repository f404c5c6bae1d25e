import RecordSkeleton.Proofs.ProjectCatalog.History
import RecordSkeleton.Proofs.Text.Utf8
import RecordSkeleton.SourceFile

/-!
# Documents of a project

A source file of a project is read in two ways: as a document, and for the index. Both find the same
declarations in it.

1. The declarations of an index that are from one file are those in this file: other files are written
   differently, and each file is read once (`ProjectCatalog.filter_sources`).
2. A file whose bytes encode a text is loaded, and the document has the declarations that the catalog
   finds in this file; other files give no document, but are indexed all the same
   (`ProjectCatalog.load_agrees`).
-/

namespace RecordSkeleton

/-! ## Parts of a list -/

/-- Of the parts of a list that are put together, a part is told by its elements. -/
theorem filter_flatMap_of_nodup {α β : Type} {l : List α} {f : α → List β} {q : β → Bool} {a : α}
    (hl : l.Nodup) (ha : a ∈ l) (hpart : ∀ x ∈ f a, q x = true)
    (hother : ∀ b ∈ l, b ≠ a → ∀ x ∈ f b, q x = false) : (l.flatMap f).filter q = f a := by
  obtain ⟨before, after, rfl⟩ := List.append_of_mem ha
  obtain ⟨-, hafter, hdisjoint⟩ := List.nodup_append.1 hl
  have hnone : ∀ m : List α, (∀ b ∈ m, b ∈ before ++ a :: after ∧ b ≠ a) →
      (m.flatMap f).filter q = [] := by
    intro m hm
    refine List.filter_eq_nil_iff.2 fun x hx => ?_
    obtain ⟨b, hb, hxb⟩ := List.mem_flatMap.1 hx
    rw [hother b (hm b hb).1 (hm b hb).2 x hxb]
    decide
  have hbefore : (before.flatMap f).filter q = [] := hnone before fun b hb =>
    ⟨List.mem_append_left _ hb, hdisjoint b hb a List.mem_cons_self⟩
  have hrest : (after.flatMap f).filter q = [] := hnone after fun b hb =>
    ⟨List.mem_append_right _ (List.mem_cons_of_mem a hb),
      fun h => (List.nodup_cons.1 hafter).1 (h ▸ hb)⟩
  rw [List.flatMap_append, List.flatMap_cons, List.filter_append, List.filter_append, hbefore, hrest,
    List.filter_eq_self.2 hpart, List.nil_append, List.append_nil]

namespace ProjectCatalog

variable {t : FileTree} {root p : Path} {extensions skipPatterns : List Text}

/-! ## The declarations of one file -/

theorem filter_sources (hwf : t.WellFormed) (hroot : root.IsNormal) {scope : ProjectScope}
    (hindex : scope.IsIndex t root) (hp : scope.IsSource t root p) :
    ((scope.sources t root).flatMap (declaredAt t true)).filter (·.location == some p.toText) =
      declaredAt t true p := by
  refine filter_flatMap_of_nodup hindex.lists.nodup ((hindex.lists.mem_iff p).2 hp) ?_ ?_
  · intro d hd
    rw [(mem_declaredAt hd).2]
    exact beq_self_eq_true _
  · intro q hq hne d hd
    rw [(mem_declaredAt hd).2, beq_eq_false_iff_ne]
    intro h
    have hnormal := ((hindex.lists.mem_iff q).1 hq).isNormal hwf hroot
    exact hne (Path.toText_inj hnormal (hp.isNormal hwf hroot) (Option.some.inj h))

theorem exists_answerNew_filter (hwf : t.WellFormed) (hroot : root.IsNormal) {scope : ProjectScope}
    (hown : scope.sourceRoots = [root]) (hforeign : scope.libraryRoots = [])
    (hclear : ∀ e, ¬ scope.Obstacle t root e) (hp : scope.IsSource t root p) (name : Text) :
    ∃ ds, answerNew scope t name = .ok ds ∧
      ds.filter (·.location == some p.toText) = Catalog.named (declaredAt t true p) name := by
  have hroots : scope.sourceRoots ++ scope.libraryRoots = [root] := by
    rw [hown, hforeign]
    rfl
  have hanswers : Answers scope t name (answerNew scope t name) := answers_new hwf name
  generalize answerNew scope t name = answer at hanswers
  cases hanswers with
  | failed hmem hobstacle =>
    rw [hroots, List.mem_singleton] at hmem
    exact absurd (hmem ▸ hobstacle) (hclear _)
  | found hindex =>
    refine ⟨_, rfl, ?_⟩
    have hdeclared : scope.declared t = (scope.sources t root).flatMap (declaredAt t true) := by
      unfold ProjectScope.declared
      rw [hown, hforeign, List.flatMap_singleton, List.flatMap_nil, List.append_nil]
    have hindexed : scope.IsIndex t root := hindex root (hroots ▸ List.mem_singleton_self root)
    unfold Catalog.named
    rw [List.filter_comm, hdeclared, filter_sources hwf hroot hindexed hp]

/-! ## Loading -/

theorem load_of_encode {text : Text}
    (hformat : (FormatRegistry.standard.detect? p.name).isSome = true)
    (hread : t.read p = .ok (Utf8.encode text)) :
    Document.load .standard t p true =
      .ok ⟨some p.toText, Utf8.unifyLineEnds text, declaredAt t true p⟩ := by
  obtain ⟨format, hformat⟩ := Option.isSome_iff_exists.1 hformat
  unfold Document.load declaredAt
  simp only [hformat, hread, Utf8.decode_eq_ok_iff.2 rfl, Utf8.decodeLossy_encode,
    ProjectScope.detect?_standard hformat]
  rfl

theorem load_of_ne_encode {bytes : List UInt8}
    (hformat : (FormatRegistry.standard.detect? p.name).isSome = true) (hread : t.read p = .ok bytes)
    (h : ∀ text, bytes ≠ Utf8.encode text) :
    ∃ fault, Document.load .standard t p true = .error (.notUtf8 p fault) := by
  obtain ⟨format, hformat⟩ := Option.isSome_iff_exists.1 hformat
  obtain ⟨fault, hfault⟩ := Utf8.exists_fault h
  refine ⟨fault, ?_⟩
  unfold Document.load
  simp only [hformat, hread, hfault]

theorem exists_read_of_isSource {scope : ProjectScope} (hclear : ∀ e, ¬ scope.Obstacle t root e)
    (hp : scope.IsSource t root p) : ∃ bytes, t.read p = .ok bytes := by
  cases hread : t.read p with
  | ok bytes => exact ⟨bytes, rfl⟩
  | error cause => exact absurd (.unreadable hp hread) (hclear _)

/-- Each source file of a project with one root is indexed with the declarations that it has as a
document. If its bytes encode no text it is no document, but the project is indexed. A root that is read
from a text is normal (`Path.isNormal_ofText`). -/
theorem load_agrees (hwf : t.WellFormed) (hroot : root.IsNormal)
    (hclear : ∀ e, ¬ ProjectScope.Obstacle ⟨[root], [], extensions, skipPatterns⟩ t root e)
    (hp : ProjectScope.IsSource ⟨[root], [], extensions, skipPatterns⟩ t root p) :
    ∃ bytes, t.read p = .ok bytes ∧
      (∀ text, bytes = Utf8.encode text →
        ∃ doc, Document.load .standard t p true = .ok doc ∧ ∀ name,
          ∃ ds, answerNew ⟨[root], [], extensions, skipPatterns⟩ t name = .ok ds ∧
            ds.filter (·.location == some p.toText) = doc.declarations.filter (·.name == name)) ∧
      ((∀ text, bytes ≠ Utf8.encode text) →
        (∃ fault, Document.load .standard t p true = .error (.notUtf8 p fault)) ∧ ∀ name,
          ∃ ds, answerNew ⟨[root], [], extensions, skipPatterns⟩ t name = .ok ds ∧
            ds.filter (·.location == some p.toText) =
              (declaredAt t true p).filter (·.name == name)) := by
  obtain ⟨bytes, hread⟩ := exists_read_of_isSource hclear hp
  have hfind := exists_answerNew_filter hwf hroot rfl rfl hclear hp
  refine ⟨bytes, hread, ?_, fun h => ⟨load_of_ne_encode hp.format hread h, hfind⟩⟩
  rintro text rfl
  exact ⟨_, load_of_encode hp.format hread, hfind⟩

theorem isSource_order (extensions : List Text) (hext : ".java".toList ∈ extensions)
    (skipPatterns : List Text) :
    ProjectScope.IsSource ⟨[⟨1, ["src".toList]⟩], [], extensions, skipPatterns⟩ orderTree
      ⟨1, ["src".toList]⟩ ⟨1, ["src".toList, "Order.java".toList]⟩ := by
  have hgrants := Access.grants_full [] orderTree.root
  have hsources : orderTree.Lists ⟨1, ["src".toList]⟩ _ :=
    ⟨_, FileTree.place_of_readable readable_orderTree hgrants rfl, rfl, rfl⟩
  have horder : orderTree.place ⟨1, ["src".toList, "Order.java".toList]⟩ =
      .ok ⟨FileTree.linkLimit, ["src".toList, "Order.java".toList],
        .file (Utf8.encode "record Order(Item i) \x7b\x7d".toList)⟩ :=
    FileTree.place_of_readable readable_orderTree hgrants rfl
  refine ⟨.below ⟨_, _, "Order.java".toList, .here _, hsources, by decide, rfl⟩
    ⟨FileTree.not_withholds_of_place horder, ?_, ?_⟩, by decide +kernel⟩
  · intro inner h
    rw [FileTree.node?_of_place horder] at h
    cases h
  · exact decide_eq_true hext

theorem load_agrees_orderTree :
    let root : Path := .ofText "/src".toList
    let scope : ProjectScope := .ofSettings {} [root] []
    let p : Path := ⟨1, ["src".toList, "Order.java".toList]⟩
    scope.IsSource orderTree root p ∧
      ∃ doc, Document.load .standard orderTree p true = .ok doc ∧ ∀ name,
        ∃ ds, answerNew scope orderTree name = .ok ds ∧
          ds.filter (·.location == some p.toText) = doc.declarations.filter (·.name == name) := by
  intro root scope p
  have hroot : root = ⟨1, ["src".toList]⟩ := by decide
  have hsource : scope.IsSource orderTree root p := by
    rw [show scope = .ofSettings {} [⟨1, ["src".toList]⟩] [] by rw [← hroot], hroot]
    exact isSource_order _ (by decide +kernel) _
  have hroots : ∀ r ∈ [root] ++ [], IsReadableRoot orderTree r := by
    rw [hroot]
    exact List.forall_mem_singleton.2 (isReadableRoot_orderTree rfl rfl)
  have hclear : ∀ e, ¬ scope.Obstacle orderTree root e :=
    (ProjectScope.index_ok_iff wellFormed_orderTree).1 (ProjectScope.exists_index {} _ _ hroots) _
      (List.mem_singleton_self _)
  obtain ⟨bytes, hread, hvalid, -⟩ :=
    load_agrees wellFormed_orderTree (Path.isNormal_ofText _) hclear hsource
  have hbytes : bytes = Utf8.encode "record Order(Item i) \x7b\x7d".toList := by
    unfold FileTree.read at hread
    rw [show orderTree.place p = .ok _ from
      FileTree.place_of_readable readable_orderTree (Access.grants_full _ _) rfl] at hread
    exact (Except.ok.inj hread).symm
  exact ⟨hsource, hvalid _ hbytes⟩

end ProjectCatalog

end RecordSkeleton
