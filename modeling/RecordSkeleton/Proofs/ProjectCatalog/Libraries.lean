import RecordSkeleton.Proofs.Generation.References
import RecordSkeleton.Proofs.Java.RecordHeader
import RecordSkeleton.Proofs.ProjectCatalog.History

/-!
# Libraries

Files of libraries are not expanded. Whether a declaration may be expanded is decided by the root that
its file is found from, and the same file may be found from several roots.

1. No declaration in a file of a library may be expanded exactly when no root of the project leads to
   the file as well; then a name that is declared in such files only stands for something external
   (`ProjectCatalog.library_editable_iff`).
2. A library inside a project is expanded (`ProjectCatalog.answerNew_libraryInside`).
-/

namespace RecordSkeleton

/-- What one path leads to lies at or below what another one leads to. Links are followed on the way to
both. -/
def FileTree.LiesUnder (t : FileTree) (dir p : Path) : Prop :=
  ∃ above below, t.place dir = .ok above ∧ t.place p = .ok below ∧ above.names <+: below.names

/-! ## Names -/

namespace Java

theorem Header.name_ne_nil {s : Text} {p q : Nat} {hd : Header} (h : find? s p q = some hd) :
    hd.name ≠ [] := by
  have h := find?_eq_some h
  unfold read? at h
  split at h
  · cases h
  · simp only at h
    split at h
    · cases h
    · obtain ⟨name, hname, heq⟩ := Option.map_eq_some_iff.1 h
      have heq : name = hd.name := congrArg Header.name heq
      exact heq ▸ List.ne_nil_of_length_pos (length_name?_pos hname)

theorem name_ne_nil {content : Text} {location : Option Text} {editable : Bool} {d : Declaration}
    (h : d ∈ declarations content location editable) : d.name ≠ [] := by
  obtain ⟨site, hsite, rfl⟩ := List.mem_map.1 h
  obtain ⟨p, q, hfind, -, -⟩ := exists_find?_of_mem_sitesFrom hsite
  exact Header.name_ne_nil hfind

end Java

theorem name_ne_nil_of_mem_declaredAt {t : FileTree} {editable : Bool} {p : Path} {d : Declaration}
    (h : d ∈ declaredAt t editable p) : d.name ≠ [] := by
  unfold declaredAt at h
  split at h
  · exact Java.name_ne_nil h
  · exact (List.not_mem_nil h).elim

/-! ## References to libraries -/

variable {ε : Type}

/-- A name that only libraries declare stands for something external, and nothing is expanded. -/
theorem resolveName_of_library {ctx : Context ε} {name : Text} {ds : List Declaration}
    (hname : name ≠ []) (hfound : ctx.catalog name = .ok ds) (hne : ds ≠ [])
    (hlibrary : ∀ d ∈ ds, d.editable = false) (expand : Expand ctx) :
    resolveName ctx expand name =
      ⟨[.asked name, .answered name ds.length], .ok (.literal ctx.externalPlaceholder)⟩ := by
  obtain ⟨d, hd, hexternal⟩ := SamePreference.preferred?_of_library hne hlibrary
  have hvalue : resolveDeclaration ctx expand d = pure (.literal ctx.externalPlaceholder) := by
    unfold resolveDeclaration
    rw [hexternal]
    rfl
  unfold resolveName
  rw [if_neg hname, ask_of_ok hfound, Run.bind_ok rfl]
  simp only [hd, hvalue]
  rfl

namespace ProjectCatalog

variable {scope : ProjectScope} {t : FileTree} {name : Text} {ds : List Declaration}

/-! ## Files of libraries -/

/-- A declaration is from a file that lies under a library root. -/
def IsLibraryDeclaration (scope : ProjectScope) (t : FileTree) (d : Declaration) : Prop :=
  ∃ location, d.location = some location ∧
    ∃ root ∈ scope.libraryRoots, t.LiesUnder root (Path.ofText location)

/-- No source file that is found from a root of the project, lies under a library root and declares
the name. -/
def IsApart (scope : ProjectScope) (t : FileTree) (name : Text) : Prop :=
  ∀ root ∈ scope.sourceRoots, ∀ p, scope.IsSource t root p →
    ∀ library ∈ scope.libraryRoots, t.LiesUnder library p → ∀ d ∈ declaredAt t true p, d.name ≠ name

theorem isLibraryDeclaration_iff {editable : Bool} {p : Path} {d : Declaration} (hp : p.IsNormal)
    (hd : d ∈ declaredAt t editable p) :
    IsLibraryDeclaration scope t d ↔ ∃ root ∈ scope.libraryRoots, t.LiesUnder root p := by
  unfold IsLibraryDeclaration
  rw [(mem_declaredAt hd).2]
  constructor
  · rintro ⟨location, hlocation, h⟩
    rw [← Option.some.inj hlocation, Path.ofText_toText hp] at h
    exact h
  · rintro h
    exact ⟨p.toText, rfl, by rwa [Path.ofText_toText hp]⟩

/-- What a new catalog answers: the declarations of the name in the source files of all roots. -/
theorem mem_answerNew (hwf : t.WellFormed) (h : answerNew scope t name = .ok ds) {d : Declaration} :
    d ∈ ds ↔ d.name = name ∧
      ((∃ root ∈ scope.sourceRoots, ∃ p, scope.IsSource t root p ∧ d ∈ declaredAt t true p) ∨
        ∃ root ∈ scope.libraryRoots, ∃ p, scope.IsSource t root p ∧ d ∈ declaredAt t false p) := by
  have hanswers : Answers scope t name (answerNew scope t name) := answers_new hwf name
  rw [h] at hanswers
  cases hanswers with
  | found hindex =>
    unfold Catalog.named
    rw [List.mem_filter, ProjectScope.mem_declared, beq_iff_eq, and_comm]
    refine and_congr_right fun _ => or_congr ?_ ?_
    · refine exists_congr fun root => and_congr_right fun hroot => exists_congr fun p => ?_
      rw [(hindex root (List.mem_append_left _ hroot)).lists.mem_iff]
    · refine exists_congr fun root => and_congr_right fun hroot => exists_congr fun p => ?_
      rw [(hindex root (List.mem_append_right _ hroot)).lists.mem_iff]

/-- Where the files of the project and of the libraries are apart, no declaration of a library may be
expanded. -/
theorem editable_eq_false (hwf : t.WellFormed) (hroots : ∀ root ∈ scope.sourceRoots, root.IsNormal)
    (h : answerNew scope t name = .ok ds) (hapart : IsApart scope t name) {d : Declaration}
    (hd : d ∈ ds) (hlibrary : IsLibraryDeclaration scope t d) : d.editable = false := by
  obtain ⟨hname, ⟨root, hroot, p, hp, hdeclared⟩ | ⟨root, hroot, p, hp, hdeclared⟩⟩ :=
    (mem_answerNew hwf h).1 hd
  · rw [isLibraryDeclaration_iff (hp.isNormal hwf (hroots root hroot)) hdeclared] at hlibrary
    obtain ⟨library, hmem, hunder⟩ := hlibrary
    exact absurd hname (hapart root hroot p hp library hmem hunder d hdeclared)
  · exact (mem_declaredAt hdeclared).1

/-- A file of a library that a root of the project leads to as well is one of the project. -/
theorem exists_editable (hwf : t.WellFormed) (hroots : ∀ root ∈ scope.sourceRoots, root.IsNormal)
    (h : answerNew scope t name = .ok ds) (hapart : ¬ IsApart scope t name) :
    ∃ d ∈ ds, IsLibraryDeclaration scope t d ∧ d.editable = true := by
  unfold IsApart at hapart
  push Not at hapart
  obtain ⟨root, hroot, p, hp, library, hmem, hunder, d, hd, hname⟩ := hapart
  refine ⟨d, (mem_answerNew hwf h).2 ⟨hname, Or.inl ⟨root, hroot, p, hp, hd⟩⟩, ?_,
    (mem_declaredAt hd).1⟩
  exact (isLibraryDeclaration_iff (hp.isNormal hwf (hroots root hroot)) hd).2 ⟨library, hmem, hunder⟩

/-- No declaration of a library may be expanded exactly when no root of the project leads to a file of
a library that declares the name. Then a name that only libraries declare stands for something external
wherever it is looked up. -/
theorem library_editable_iff (hwf : t.WellFormed)
    (hroots : ∀ root ∈ scope.sourceRoots, root.IsNormal) (h : answerNew scope t name = .ok ds) :
    ((∀ d ∈ ds, IsLibraryDeclaration scope t d → d.editable = false) ↔ IsApart scope t name) ∧
      (IsApart scope t name → ds ≠ [] → (∀ d ∈ ds, IsLibraryDeclaration scope t d) →
        ∀ (ctx : Context CatalogError) (expand : Expand ctx), ctx.catalog name = .ok ds →
          resolveName ctx expand name =
            ⟨[.asked name, .answered name ds.length], .ok (.literal ctx.externalPlaceholder)⟩) := by
  refine ⟨⟨fun hall => ?_, fun hapart d hd => editable_eq_false hwf hroots h hapart hd⟩, ?_⟩
  · by_contra hapart
    obtain ⟨d, hd, hlibrary, heditable⟩ := exists_editable hwf hroots h hapart
    rw [hall d hd hlibrary] at heditable
    cases heditable
  · intro hapart hne hall ctx expand hfound
    have hname : name ≠ [] := by
      obtain ⟨d, hd⟩ := List.exists_mem_of_ne_nil ds hne
      obtain ⟨rfl, ⟨_, _, p, _, hd⟩ | ⟨_, _, p, _, hd⟩⟩ := (mem_answerNew hwf h).1 hd
      · exact name_ne_nil_of_mem_declaredAt hd
      · exact name_ne_nil_of_mem_declaredAt hd
    exact resolveName_of_library hname hfound hne
      (fun d hd => editable_eq_false hwf hroots h hapart hd (hall d hd)) expand

/-- A library beside the project. -/
theorem library_editable_iff_orderTree :
    let scope : ProjectScope :=
      .ofSettings {} [Path.ofText "/src".toList] [Path.ofText "/lib".toList]
    orderTree.WellFormed ∧ (∀ root ∈ scope.sourceRoots, root.IsNormal) ∧
      ∃ ds, answerNew scope orderTree "Item".toList = .ok ds ∧
        ((∀ d ∈ ds, IsLibraryDeclaration scope orderTree d → d.editable = false) ↔
          IsApart scope orderTree "Item".toList) ∧
        (IsApart scope orderTree "Item".toList → ds ≠ [] →
          (∀ d ∈ ds, IsLibraryDeclaration scope orderTree d) →
          ∀ (ctx : Context CatalogError) (expand : Expand ctx),
            ctx.catalog "Item".toList = .ok ds →
              resolveName ctx expand "Item".toList =
                ⟨[.asked "Item".toList, .answered "Item".toList ds.length],
                  .ok (.literal ctx.externalPlaceholder)⟩) := by
  intro scope
  have hnormal : ∀ root ∈ scope.sourceRoots, root.IsNormal :=
    List.forall_mem_singleton.2 (Path.isNormal_ofText _)
  have hsources : Path.ofText "/src".toList = ⟨1, ["src".toList]⟩ := by decide
  have hlibrary : Path.ofText "/lib".toList = ⟨1, ["lib".toList]⟩ := by decide
  have hroots : ∀ root ∈ [Path.ofText "/src".toList] ++ [Path.ofText "/lib".toList],
      IsReadableRoot orderTree root := by
    rw [hsources, hlibrary]
    exact List.forall_mem_cons.2 ⟨isReadableRoot_orderTree rfl rfl,
      List.forall_mem_singleton.2 (isReadableRoot_orderTree rfl rfl)⟩
  obtain ⟨ds, hds⟩ := exists_answerNew {} _ _ hroots "Item".toList
  exact ⟨wellFormed_orderTree, hnormal, ds, hds, library_editable_iff wellFormed_orderTree hnormal hds⟩

/-! ## A library inside the project -/

/-- The file of a library. -/
def insideItem : Node := .file (Utf8.encode "record Item(int a) \x7b\x7d".toList)

/-- A project with a library inside. -/
def insideProject : Node :=
  .directory
    [("Order.java".toList, .file (Utf8.encode "record Order(Item i) \x7b\x7d".toList)),
      ("lib".toList, .directory [("Item.java".toList, insideItem)])]

def insideTree : FileTree where
  root := .directory [("p".toList, insideProject)]
  current := []

def insideScope : ProjectScope :=
  .ofSettings {} [⟨1, ["p".toList]⟩] [⟨1, ["p".toList, "lib".toList]⟩]

theorem readable_insideTree : ReadableAt ⟨1, []⟩ insideTree.root := by
  have hlibrary : ReadableAt ⟨1, ["p".toList, "lib".toList]⟩
      (.directory [("Item.java".toList, insideItem)]) :=
    .single (by decide) (by decide) (.file _ (by decide))
  have hproject : ReadableAt ⟨1, ["p".toList]⟩ insideProject :=
    .directory (by decide) (by decide) (by decide)
      (List.forall_mem_cons.2 ⟨.file _ (by decide), List.forall_mem_singleton.2 hlibrary⟩)
  exact .single (by decide) (by decide) hproject

theorem wellFormed_insideTree : insideTree.WellFormed := by
  have hlibrary : (Node.directory [("Item.java".toList, insideItem)]).WellFormed :=
    .directory (by decide) (by decide) (List.forall_mem_singleton.2 (.file _))
  have hproject : insideProject.WellFormed :=
    .directory (by decide) (by decide)
      (List.forall_mem_cons.2 ⟨.file _, List.forall_mem_singleton.2 hlibrary⟩)
  exact .directory (by decide) (by decide) (List.forall_mem_singleton.2 hproject)

theorem place_insideTree {names : List Text} {found : Node}
    (hfound : insideTree.root.at? names = some found) :
    insideTree.place ⟨1, names⟩ = .ok ⟨FileTree.linkLimit, names, found⟩ :=
  FileTree.place_of_readable readable_insideTree (Access.grants_full _ _) hfound

theorem place_insideItem :
    insideTree.place ⟨1, ["p".toList, "lib".toList, "Item.java".toList]⟩ =
      .ok ⟨FileTree.linkLimit, ["p".toList, "lib".toList, "Item.java".toList], insideItem⟩ :=
  place_insideTree rfl

/-- The file of the library is found from the root of the project. -/
theorem isSource_insideItem :
    insideScope.IsSource insideTree ⟨1, ["p".toList]⟩
      ⟨1, ["p".toList, "lib".toList, "Item.java".toList]⟩ := by
  have hproject : insideTree.Lists ⟨1, ["p".toList]⟩ _ := ⟨_, place_insideTree rfl, rfl, rfl⟩
  have hlibrary : insideTree.Lists ⟨1, ["p".toList, "lib".toList]⟩ _ :=
    ⟨_, place_insideTree rfl, rfl, rfl⟩
  have henters : insideScope.Enters insideTree ⟨1, ["p".toList]⟩ ⟨1, ["p".toList, "lib".toList]⟩ :=
    .inside hproject (by decide) hlibrary.node? (by decide +kernel) (.here _)
  have htakes : insideScope.Takes insideTree ⟨1, ["p".toList, "lib".toList, "Item.java".toList]⟩ := by
    refine ⟨FileTree.not_withholds_of_place place_insideItem, ?_, by decide +kernel⟩
    intro inner h
    rw [FileTree.node?_of_place place_insideItem] at h
    cases h
  exact ⟨.below ⟨_, _, "Item.java".toList, henters, hlibrary, by decide, rfl⟩ htakes,
    by decide +kernel⟩

/-- The record of the library, when it is taken for one of the project. -/
def insideDeclaration : Declaration where
  name := "Item".toList
  kind := .record
  source := "record Item(int a) \x7b\x7d".toList
  editable := true
  constructors := []
  location := some "/p/lib/Item.java".toList
  nested := false

theorem declaredAt_insideItem :
    declaredAt insideTree true ⟨1, ["p".toList, "lib".toList, "Item.java".toList]⟩ =
      [insideDeclaration] := by
  unfold declaredAt FileTree.read
  rw [place_insideItem]
  decide +kernel

/-- A library inside the project: its record may be expanded, so that the name does not stand for
something external. -/
theorem answerNew_libraryInside :
    ∃ ds, answerNew insideScope insideTree "Item".toList = .ok ds ∧
      (∃ d ∈ ds, IsLibraryDeclaration insideScope insideTree d ∧ d.editable = true ∧
        d.isExpandable = true) ∧
      ∃ d, Declaration.preferred? ds = some d ∧ d.editable = true := by
  have hroots : ∀ root ∈ [⟨1, ["p".toList]⟩] ++ [⟨1, ["p".toList, "lib".toList]⟩],
      IsReadableRoot insideTree root :=
    have hgrants := Access.grants_full [] insideTree.root
    List.forall_mem_cons.2 ⟨isReadableRoot_of_readable readable_insideTree hgrants rfl rfl,
      List.forall_mem_singleton.2 (isReadableRoot_of_readable readable_insideTree hgrants rfl rfl)⟩
  obtain ⟨ds, hds⟩ := exists_answerNew {} _ _ hroots "Item".toList
  have hdeclared : insideDeclaration ∈ declaredAt insideTree true
      ⟨1, ["p".toList, "lib".toList, "Item.java".toList]⟩ :=
    declaredAt_insideItem ▸ List.mem_singleton_self insideDeclaration
  have hmem : insideDeclaration ∈ ds :=
    (mem_answerNew wellFormed_insideTree hds).2
      ⟨rfl, Or.inl ⟨_, List.mem_singleton_self _, _, isSource_insideItem, hdeclared⟩⟩
  refine ⟨ds, hds, ⟨insideDeclaration, hmem, ?_, rfl, rfl⟩, ?_⟩
  · refine (isLibraryDeclaration_iff (by decide) hdeclared).2 ⟨_, List.mem_singleton_self _, ?_⟩
    exact ⟨_, _, place_insideTree rfl, place_insideItem,
      ⟨["Item.java".toList], rfl⟩⟩
  · have hsome : (ds.find? (·.editable)).isSome = true :=
      List.find?_isSome.2 ⟨insideDeclaration, hmem, rfl⟩
    obtain ⟨d, hd⟩ := Option.isSome_iff_exists.1 hsome
    exact ⟨d, SamePreference.preferred?_of_project hd, by simpa using List.find?_some hd⟩

end ProjectCatalog

end RecordSkeleton
