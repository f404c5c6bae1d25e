import RecordSkeleton.Proofs.ProjectCatalog.Contents
import RecordSkeleton.Proofs.ProjectCatalog.Reach

/-!
# What is indexed and what keeps it from being so

A project is indexed unless something is in the way: a root is missing, a directory cannot be listed, a
source file cannot be read, or it cannot be told what a path leads to.

1. The source files of a root are described by paths, with links followed
   (`ProjectScope.IsSource`), and so is what is in the way (`ProjectScope.Obstacle`).
2. A root is indexed exactly when nothing is in the way; the error tells what is otherwise
   (`ProjectScope.obstacle_of_indexRoot`, `ProjectScope.isIndex_of_indexRoot`).
3. The same holds of all roots (`ProjectScope.obstacle_of_index`, `ProjectScope.isIndex_of_index`).
-/

namespace RecordSkeleton

/-! ## Runs of a list -/

namespace Run

variable {τ ε ι α : Type}

theorem exists_of_mapM_error {l : List ι} {f : ι → Run τ ε α} {e : ε}
    (h : (l.mapM f).result = .error e) : ∃ i ∈ l, (f i).result = .error e := by
  induction l with
  | nil => cases h
  | cons i l ih =>
    rw [List.mapM_cons, result_bind] at h
    cases hi : (f i).result with
    | error e' =>
      rw [hi] at h
      cases h
      exact ⟨i, List.mem_cons_self, hi⟩
    | ok a =>
      rw [hi] at h
      have h : ((l.mapM f) >>= fun as => pure (a :: as)).result = .error e := h
      rw [result_bind] at h
      cases hl : (l.mapM f).result with
      | error e' =>
        rw [hl] at h
        cases h
        obtain ⟨j, hj, herror⟩ := ih hl
        exact ⟨j, List.mem_cons_of_mem i hj, herror⟩
      | ok as =>
        rw [hl] at h
        cases h

theorem exists_of_mapM_ok {l : List ι} {f : ι → Run τ ε α} {as : List α}
    (h : (l.mapM f).result = .ok as) : ∀ i ∈ l, ∃ a, (f i).result = .ok a := by
  intro i hi
  have hall := forall₂_of_mapM h
  clear h
  induction hall with
  | nil => exact (List.not_mem_nil hi).elim
  | cons hfirst _ ih =>
    rcases List.mem_cons.1 hi with rfl | hi
    · exact ⟨_, hfirst⟩
    · exact ih hi

end Run

namespace ProjectScope

variable {scope : ProjectScope} {t : FileTree} {root : Path}

/-! ## Source files and obstacles -/

/-- The file at a path is found from a root: the root itself, or a covered file below it. -/
inductive Finds (scope : ProjectScope) (t : FileTree) (root : Path) : Path → Prop
  | root {content : List UInt8} (h : t.node? root = some (.file content)) : Finds scope t root root
  | below {p : Path} (hmeets : scope.Meets t root p) (htakes : scope.Takes t p) :
    Finds scope t root p

/-- The file at a path is a source file of a root: it is found, and there is a format for it. -/
structure IsSource (scope : ProjectScope) (t : FileTree) (root p : Path) : Prop where
  finds : scope.Finds t root p
  format : (FormatRegistry.standard.detect? p.name).isSome = true

theorem IsSource.isNormal {p : Path} (h : scope.IsSource t root p) (hwf : t.WellFormed)
    (hroot : root.IsNormal) : p.IsNormal := by
  cases h.finds with
  | root => exact hroot
  | below hmeets => exact hmeets.isNormal hwf hroot

/-- What keeps a root from being indexed, with the error that tells of it. -/
inductive Obstacle (scope : ProjectScope) (t : FileTree) (root : Path) : CatalogError → Prop
  /-- Nothing stands at the root. -/
  | missing (h : t.node? root = none) (htold : ∀ fault, ¬ t.Withholds root fault) :
    Obstacle scope t root (.noRoot root)
  /-- It cannot be told whether something stands at the root. -/
  | withheld {fault : PathError} (h : t.Withholds root fault) :
    Obstacle scope t root (.inaccessible fault)
  /-- What stands at the root is neither a file nor a directory. -/
  | unlistable {node : Node} (h : t.node? root = some node) (hfile : node.isFile = false)
    (hdir : node.isDirectory = false) : Obstacle scope t root (.unlistable root .notDirectory)
  /-- The walk from the root is stopped: at a directory that may not be listed, or at a path of which it
  cannot be told what it leads to. -/
  | stopped {e : CatalogError} (h : scope.Stops t root e) : Obstacle scope t root e
  /-- A source file cannot be read. -/
  | unreadable {p : Path} {cause : FileError} (h : scope.IsSource t root p)
    (hread : t.read p = .error cause) : Obstacle scope t root (.unreadable p cause)

/-- All source files of a root, each once. -/
structure ListsSources (scope : ProjectScope) (t : FileTree) (root : Path) (listing : List Path) :
    Prop where
  mem_iff : ∀ p, p ∈ listing ↔ scope.IsSource t root p
  nodup : listing.Nodup

/-! ## One file -/

theorem exists_of_indexFile_error {editable : Bool} {p : Path} {e : CatalogError}
    (h : (indexFile FormatRegistry.standard t editable p).result = .error e) :
    (FormatRegistry.standard.detect? p.name).isSome = true ∧
      ∃ cause, t.read p = .error cause ∧ e = .unreadable p cause := by
  unfold indexFile at h
  cases hformat : FormatRegistry.standard.detect? p.name with
  | none =>
    rw [hformat] at h
    cases h
  | some format =>
    rw [hformat] at h
    cases hread : t.read p with
    | error cause =>
      rw [hread] at h
      cases h
      exact ⟨rfl, cause, rfl, rfl⟩
    | ok bytes =>
      rw [hread] at h
      cases h

theorem eq_of_indexFile_ok {editable : Bool} {p : Path} {ds : List Declaration}
    (h : (indexFile FormatRegistry.standard t editable p).result = .ok ds) :
    ((FormatRegistry.standard.detect? p.name).isSome = true → ∃ bytes, t.read p = .ok bytes) ∧
      ds = if (FormatRegistry.standard.detect? p.name).isSome then declaredAt t editable p else [] := by
  cases hread : t.read p with
  | ok bytes =>
    rw [result_indexFile editable hread] at h
    exact ⟨fun _ => ⟨bytes, rfl⟩, (Except.ok.inj h).symm⟩
  | error cause =>
    unfold indexFile at h
    cases hformat : FormatRegistry.standard.detect? p.name with
    | none =>
      rw [hformat] at h
      exact ⟨fun hsome => Bool.noConfusion hsome, (Except.ok.inj h).symm⟩
    | some format =>
      rw [hformat, hread] at h
      cases h

/-! ## One root -/

/-- Nothing is met below what is no directory, and nothing stops a walk there. -/
theorem not_meets_and_not_stops (scope : ProjectScope) {node : Node}
    (hnode : t.node? root = some node) (hdir : node.isDirectory = false) :
    (∀ p, ¬ scope.Meets t root p) ∧ ∀ e, ¬ scope.Stops t root e := by
  have hdirectory : ∀ entries, t.node? root ≠ some (.directory entries) := by
    intro entries h
    rw [hnode, Option.some.injEq] at h
    rw [h] at hdir
    cases hdir
  have henters : ∀ dir, scope.Enters t root dir → dir = root := by
    rintro dir (_ | ⟨hroot, -⟩)
    · rfl
    · exact absurd hroot.node? (hdirectory _)
  have hmeets : ∀ p, ¬ scope.Meets t root p := by
    rintro p ⟨dir, entries, name, hdir, hlists, -⟩
    obtain rfl := henters dir hdir
    exact hdirectory entries hlists.node?
  refine ⟨hmeets, ?_⟩
  rintro e (⟨hdir, hclosed⟩ | ⟨hmet, -⟩)
  · obtain rfl := henters _ hdir
    obtain ⟨entries, h⟩ := hclosed.node?
    exact hdirectory entries h
  · exact hmeets _ hmet

theorem explores_files (scope : ProjectScope) (hwf : t.WellFormed) {place : Place}
    (hplace : t.place root = .ok place)
    (hkind : place.node.isFile = true ∨ place.node.isDirectory = true) :
    Explores (scope.Stops t root) (scope.Finds t root) (scope.files t root) := by
  have hroot := FileTree.node?_of_place hplace
  obtain ⟨links, base, node⟩ := place
  unfold files
  rw [hplace]
  cases node with
  | file content =>
    obtain ⟨hmeets, hstops⟩ := not_meets_and_not_stops scope hroot rfl
    refine .emit hstops fun q => ?_
    constructor
    · rintro (_ | ⟨hmet, -⟩)
      · rfl
      · exact absurd hmet (hmeets q)
    · rintro rfl
      exact .root hroot
  | directory entries =>
    refine (explores_filesIn scope hwf hplace).congr (fun _ => Iff.rfl) fun p => ?_
    constructor
    · exact fun ⟨hmeets, htakes⟩ => .below hmeets htakes
    · rintro (h | ⟨hmeets, htakes⟩)
      · cases hroot.symm.trans h
      · exact ⟨hmeets, htakes⟩
  | link target => simp [Node.isFile, Node.isDirectory] at hkind
  | device => simp [Node.isFile, Node.isDirectory] at hkind

/-- The source files that the walk of a root finds. -/
def sources (scope : ProjectScope) (t : FileTree) (root : Path) : List Path :=
  (scope.files t root).events.filter fun p => (FormatRegistry.standard.detect? p.name).isSome

/-- Nothing is in the way at a root, so that the walk lists its source files. -/
structure IsIndex (scope : ProjectScope) (t : FileTree) (root : Path) : Prop where
  not_obstacle : ∀ e, ¬ scope.Obstacle t root e
  lists : scope.ListsSources t root (scope.sources t root)

variable {editable : Bool}

theorem indexRoot_of_withholds {fault : PathError} (h : t.Withholds root fault) :
    scope.indexRoot FormatRegistry.standard t editable root =
      .ofResult (.error (.inaccessible fault)) := by
  unfold indexRoot
  rw [show t.hasPath root = .error fault from h]
  rfl

theorem indexRoot_of_missing {cause : FileError} (hplace : t.place root = .error cause)
    (htold : cause.pathError? root = none) :
    scope.indexRoot FormatRegistry.standard t editable root = .ofResult (.error (.noRoot root)) := by
  unfold indexRoot
  rw [FileTree.hasPath_of_missing hplace htold]
  rfl

/-- Where a path does not lead there is nothing to index. -/
theorem obstacle_of_place {cause : FileError} (hplace : t.place root = .error cause) :
    ∃ e, (scope.indexRoot FormatRegistry.standard t editable root).result = .error e ∧
      scope.Obstacle t root e := by
  cases hcause : cause.pathError? root with
  | some fault =>
    have hwithheld : t.Withholds root fault := FileTree.withholds_iff.2 ⟨cause, hplace, hcause⟩
    rw [indexRoot_of_withholds hwithheld]
    exact ⟨_, rfl, .withheld hwithheld⟩
  | none =>
    have hnode : t.node? root = none := by
      unfold FileTree.node?
      rw [hplace]
      rfl
    rw [indexRoot_of_missing hplace hcause]
    refine ⟨_, rfl, .missing hnode fun fault hwithheld => ?_⟩
    obtain ⟨cause', hcause', hfault⟩ := FileTree.withholds_iff.1 hwithheld
    cases hplace.symm.trans hcause'
    cases hcause.symm.trans hfault

theorem files_of_not_listable {place : Place} (hplace : t.place root = .ok place)
    (hkind : ¬ (place.node.isFile = true ∨ place.node.isDirectory = true)) :
    scope.files t root = .ofResult (.error (.unlistable root .notDirectory)) := by
  obtain ⟨links, base, node⟩ := place
  unfold files
  rw [hplace]
  cases node with
  | file content => exact absurd (Or.inl rfl) hkind
  | directory entries => exact absurd (Or.inr rfl) hkind
  | link target => rfl
  | device => rfl

theorem obstacle_of_indexRoot (hwf : t.WellFormed) {e : CatalogError}
    (h : (scope.indexRoot FormatRegistry.standard t editable root).result = .error e) :
    scope.Obstacle t root e := by
  cases hplace : t.place root with
  | error cause =>
    obtain ⟨e', herror, hobstacle⟩ := obstacle_of_place hplace
    rw [herror] at h
    cases h
    exact hobstacle
  | ok place =>
    rw [result_indexRoot_of_place hplace] at h
    by_cases hkind : place.node.isFile = true ∨ place.node.isDirectory = true
    · have hexplores := explores_files scope hwf hplace hkind
      cases hfiles : ((scope.files t root).events.mapM
          (indexFile FormatRegistry.standard t editable)).result with
      | error e' =>
        rw [hfiles] at h
        cases h
        obtain ⟨p, hp, hfile⟩ := Run.exists_of_mapM_error hfiles
        obtain ⟨hformat, cause, hread, rfl⟩ := exists_of_indexFile_error hfile
        exact .unreadable ⟨hexplores.found_of_mem p hp, hformat⟩ hread
      | ok declared =>
        rw [hfiles] at h
        cases hresult : (scope.files t root).result with
        | ok u =>
          rw [hresult] at h
          cases h
        | error e' =>
          rw [hresult] at h
          cases h
          exact .stopped (hexplores.stops_of_error e hresult)
    · rw [files_of_not_listable hplace hkind] at h
      cases h
      rw [not_or, Bool.not_eq_true, Bool.not_eq_true] at hkind
      exact .unlistable (FileTree.node?_of_place hplace) hkind.1 hkind.2

theorem flatten_of_forall₂ {found : List Path} {declared : List (List Declaration)}
    (h : List.Forall₂
      (fun p ds => (indexFile FormatRegistry.standard t editable p).result = .ok ds) found declared) :
    declared.flatten =
      (found.filter fun p => (FormatRegistry.standard.detect? p.name).isSome).flatMap
        (declaredAt t editable) := by
  rw [flatMap_filter]
  induction h with
  | nil => rfl
  | cons hfirst _ ih =>
    rw [List.flatten_cons, List.flatMap_cons, ih, (eq_of_indexFile_ok hfirst).2]

/-- A root that is indexed is a file or a directory, its walk comes to the end, and every file that is
found is indexed. -/
theorem exists_of_indexRoot_ok {ds : List Declaration}
    (h : (scope.indexRoot FormatRegistry.standard t editable root).result = .ok ds) :
    ∃ place declared, t.place root = .ok place ∧
      (place.node.isFile = true ∨ place.node.isDirectory = true) ∧
      (scope.files t root).result = .ok () ∧
      ((scope.files t root).events.mapM (indexFile FormatRegistry.standard t editable)).result =
        .ok declared ∧
      ds = declared.flatten := by
  cases hplace : t.place root with
  | error cause =>
    obtain ⟨e, herror, -⟩ := obstacle_of_place hplace
    rw [herror] at h
    cases h
  | ok place =>
    rw [result_indexRoot_of_place hplace] at h
    cases hfiles : ((scope.files t root).events.mapM
        (indexFile FormatRegistry.standard t editable)).result with
    | error e =>
      rw [hfiles] at h
      cases h
    | ok declared =>
      rw [hfiles] at h
      cases hresult : (scope.files t root).result with
      | error e =>
        rw [hresult] at h
        cases h
      | ok u =>
        rw [hresult] at h
        cases h
        refine ⟨place, declared, rfl, ?_, rfl, rfl, rfl⟩
        by_contra hkind
        rw [files_of_not_listable hplace hkind] at hresult
        cases hresult

/-- Where the walk comes to the end and every source file can be read, nothing is in the way. -/
theorem isIndex_of_walk (hwf : t.WellFormed) {place : Place} (hplace : t.place root = .ok place)
    (hkind : place.node.isFile = true ∨ place.node.isDirectory = true)
    (hresult : (scope.files t root).result = .ok ())
    (hread : ∀ p, scope.IsSource t root p → ∃ bytes, t.read p = .ok bytes) :
    scope.IsIndex t root := by
  have hexplores := explores_files scope hwf hplace hkind
  have hnode := FileTree.node?_of_place hplace
  constructor
  case not_obstacle =>
    rintro e (⟨hnone, -⟩ | hwithheld | ⟨hstands, hfile, hdir⟩ | hstops | ⟨hsource, herror⟩)
    · cases hnone.symm.trans hnode
    · exact FileTree.not_withholds_of_place hplace _ hwithheld
    · rw [hnode, Option.some.injEq] at hstands
      rw [hstands, hfile, hdir] at hkind
      simp only [Bool.false_eq_true, or_self] at hkind
    · exact hexplores.not_stops hresult e hstops
    · obtain ⟨bytes, hbytes⟩ := hread _ hsource
      cases herror.symm.trans hbytes
  case lists =>
    refine ⟨fun p => ?_, (hexplores.nodup hresult).filter _⟩
    rw [sources, List.mem_filter]
    constructor
    · exact fun ⟨hp, hformat⟩ => ⟨hexplores.found_of_mem p hp, hformat⟩
    · exact fun ⟨hfound, hformat⟩ => ⟨hexplores.mem_of_found hresult p hfound, hformat⟩

theorem isIndex_of_indexRoot (hwf : t.WellFormed) {ds : List Declaration}
    (h : (scope.indexRoot FormatRegistry.standard t editable root).result = .ok ds) :
    scope.IsIndex t root ∧ ds = (scope.sources t root).flatMap (declaredAt t editable) := by
  obtain ⟨place, declared, hplace, hkind, hresult, hfiles, rfl⟩ := exists_of_indexRoot_ok h
  refine ⟨isIndex_of_walk hwf hplace hkind hresult fun p hp => ?_,
    flatten_of_forall₂ (Run.forall₂_of_mapM hfiles)⟩
  have hmem := (explores_files scope hwf hplace hkind).mem_of_found hresult p hp.finds
  obtain ⟨ds, hfile⟩ := Run.exists_of_mapM_ok hfiles p hmem
  exact (eq_of_indexFile_ok hfile).1 hp.format

/-! ## All roots -/

theorem obstacle_of_index (hwf : t.WellFormed) {e : CatalogError}
    (h : (scope.index FormatRegistry.standard t).result = .error e) :
    ∃ root ∈ scope.sourceRoots ++ scope.libraryRoots, scope.Obstacle t root e := by
  unfold index at h
  rw [Run.result_bind] at h
  cases hown : (scope.sourceRoots.mapM
      (scope.indexRoot FormatRegistry.standard t true)).result with
  | error e' =>
    rw [hown] at h
    cases h
    obtain ⟨root, hroot, hresult⟩ := Run.exists_of_mapM_error hown
    exact ⟨root, List.mem_append_left _ hroot, obstacle_of_indexRoot hwf hresult⟩
  | ok own =>
    rw [hown] at h
    change (scope.libraryRoots.mapM (scope.indexRoot FormatRegistry.standard t false) >>= _).result =
      _ at h
    rw [Run.result_bind] at h
    cases hforeign : (scope.libraryRoots.mapM
        (scope.indexRoot FormatRegistry.standard t false)).result with
    | error e' =>
      rw [hforeign] at h
      cases h
      obtain ⟨root, hroot, hresult⟩ := Run.exists_of_mapM_error hforeign
      exact ⟨root, List.mem_append_right _ hroot, obstacle_of_indexRoot hwf hresult⟩
    | ok foreign =>
      rw [hforeign] at h
      cases h

/-- The declarations of all source files, those of the project first: root by root, and file by
file. -/
def declared (scope : ProjectScope) (t : FileTree) : List Declaration :=
  (scope.sourceRoots.flatMap fun root => (scope.sources t root).flatMap (declaredAt t true)) ++
    scope.libraryRoots.flatMap fun root => (scope.sources t root).flatMap (declaredAt t false)

theorem mem_declared {d : Declaration} :
    d ∈ scope.declared t ↔
      (∃ root ∈ scope.sourceRoots, ∃ p ∈ scope.sources t root, d ∈ declaredAt t true p) ∨
        ∃ root ∈ scope.libraryRoots, ∃ p ∈ scope.sources t root, d ∈ declaredAt t false p := by
  unfold declared
  simp only [List.mem_append, List.mem_flatMap]

theorem isIndex_of_mapM (hwf : t.WellFormed) {roots : List Path} {dss : List (List Declaration)}
    (h : (roots.mapM (scope.indexRoot FormatRegistry.standard t editable)).result = .ok dss) :
    (∀ root ∈ roots, scope.IsIndex t root) ∧
      dss.flatten = roots.flatMap fun root => (scope.sources t root).flatMap (declaredAt t editable) := by
  have hall := Run.forall₂_of_mapM h
  clear h
  induction hall with
  | nil => exact ⟨fun root hroot => (List.not_mem_nil hroot).elim, rfl⟩
  | cons hfirst _ ih =>
    obtain ⟨hindex, hds⟩ := isIndex_of_indexRoot hwf hfirst
    exact ⟨List.forall_mem_cons.2 ⟨hindex, ih.1⟩, by rw [List.flatten_cons, List.flatMap_cons, hds, ih.2]⟩

/-- What is indexed, when nothing is in the way: the declarations of the source files of all roots. -/
theorem isIndex_of_index (hwf : t.WellFormed) {ds : List Declaration}
    (h : (scope.index FormatRegistry.standard t).result = .ok ds) :
    (∀ root ∈ scope.sourceRoots ++ scope.libraryRoots, scope.IsIndex t root) ∧
      ds = scope.declared t := by
  unfold index at h
  obtain ⟨own, hown, h⟩ := Run.result_bind_ok h
  obtain ⟨foreign, hforeign, h⟩ := Run.result_bind_ok h
  cases h
  obtain ⟨hindex, hdeclared⟩ := isIndex_of_mapM hwf hown
  obtain ⟨hindex', hdeclared'⟩ := isIndex_of_mapM hwf hforeign
  exact ⟨List.forall_mem_append.2 ⟨hindex, hindex'⟩, by rw [hdeclared, hdeclared', declared]⟩

/-- A project is indexed exactly when nothing is in the way. -/
theorem index_ok_iff (hwf : t.WellFormed) :
    (∃ ds, (scope.index FormatRegistry.standard t).result = .ok ds) ↔
      ∀ root ∈ scope.sourceRoots ++ scope.libraryRoots, ∀ e, ¬ scope.Obstacle t root e := by
  constructor
  · rintro ⟨ds, h⟩ root hroot
    exact ((isIndex_of_index hwf h).1 root hroot).not_obstacle
  · intro h
    cases hresult : (scope.index FormatRegistry.standard t).result with
    | ok ds => exact ⟨ds, rfl⟩
    | error e =>
      obtain ⟨root, hroot, hobstacle⟩ := obstacle_of_index hwf hresult
      exact absurd hobstacle (h root hroot e)

end ProjectScope

theorem wellFormed_orderTree : orderTree.WellFormed := by
  have hbuild : orderBuild.WellFormed :=
    .directory (by decide) (by decide) (List.forall_mem_singleton.2 (.file _))
  have hmodel : orderModel.WellFormed :=
    .directory (by decide) (by decide)
      (List.forall_mem_cons.2 ⟨.file _, List.forall_mem_singleton.2 (.file _)⟩)
  have hsources : orderSources.WellFormed :=
    .directory (by decide) (by decide)
      (List.forall_mem_cons.2 ⟨.file _,
        List.forall_mem_cons.2 ⟨hbuild, List.forall_mem_singleton.2 hmodel⟩⟩)
  have hlibrary : orderLibrary.WellFormed :=
    .directory (by decide) (by decide) (List.forall_mem_singleton.2 (.file _))
  exact .directory (by decide) (by decide)
    (List.forall_mem_cons.2 ⟨hsources, List.forall_mem_singleton.2 hlibrary⟩)

end RecordSkeleton
