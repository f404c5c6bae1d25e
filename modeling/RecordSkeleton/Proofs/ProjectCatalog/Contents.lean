import RecordSkeleton.Proofs.ProjectCatalog.Walk
import RecordSkeleton.Proofs.Similar

/-!
# What a project catalog contains

A new catalog over readable directories answers from the declarations of the files that are indexed
there. Which these are is said of each file by its own names (`IsIndexed`).

1. Of the files that are found below a root, those with a format are indexed
   (`exists_indexRoot`).
2. A new catalog looks a name up among their declarations: root by root, the files of a root in the
   order of their names, the declarations of a file in their order (`ProjectCatalog.find_indexed`).
-/

namespace RecordSkeleton

/-- At the path there is a directory, all below it is readable, and nothing there is refused. -/
def IsReadableRoot (t : FileTree) (root : Path) : Prop :=
  ∃ place, t.place root = .ok place ∧ place.node.isDirectory = true ∧ ReadableAt root place.node ∧
    t.access.Grants place.names place.node

/-- In a tree that is readable as a whole each directory may be a root. -/
theorem isReadableRoot_of_readable {t : FileTree} (h : ReadableAt ⟨1, []⟩ t.root)
    (hgrants : t.access.Grants [] t.root) {names : List Text} {dir : Node}
    (hdir : t.root.at? names = some dir) (hisDirectory : dir.isDirectory = true) :
    IsReadableRoot t ⟨1, names⟩ :=
  ⟨_, FileTree.place_of_readable h hgrants hdir, hisDirectory, (h.at? hdir).1, hgrants.at? hdir⟩

/-! ## Indexed files -/

/-- The file of a name in the last of some directories, one inside the other from `dir` on, is
indexed: its ending is one of those in the settings, case aside, and has a format, and no pattern in
the settings leaves out one of the directories. -/
structure IsIndexed (settings : Settings) (dir : Node) (dirs : List Text) (name : Text) : Prop where
  exists_file : ∃ found, dir.at? (dirs ++ [name]) = some found ∧ found.isDirectory = false
  extension : ∃ ext ∈ settings.extensions, Text.lower (Path.suffixOf name) = Text.lower ext
  format : (FormatRegistry.standard.detect? name).isSome = true
  entered : ∀ d ∈ dirs, ∀ pattern ∈ settings.skipPatterns, Wildcard.isMatch pattern d = false

/-- The names, below a root, of all indexed files there: each once and in order. -/
structure Indexes (settings : Settings) (t : FileTree) (root : Path) (listing : List (List Text)) :
    Prop where
  mem_iff : ∀ names, names ∈ listing ↔ ∃ dir dirs name, t.node? root = some dir ∧
    names = dirs ++ [name] ∧ IsIndexed settings dir dirs name
  ordered : listing.Pairwise (List.Lex Text.Before)
  nodup : listing.Nodup
  readable : ∀ names ∈ listing, ∃ bytes, t.read (root.below names) = .ok bytes

/-- The declarations in the file at a path, and none when it cannot be read. -/
def declaredAt (t : FileTree) (editable : Bool) (p : Path) : List Declaration :=
  match t.read p with
  | .ok bytes =>
    Java.declarations (Utf8.unifyLineEnds (Utf8.decodeLossy bytes)) (some p.toText) editable
  | .error _ => []

/-- The declarations in the listed files below a root, file by file. -/
def declaredBelow (t : FileTree) (editable : Bool) (listing : List (List Text)) (root : Path) :
    List Declaration :=
  listing.flatMap fun names => declaredAt t editable (root.below names)

theorem mem_declaredAt {t : FileTree} {editable : Bool} {p : Path} {d : Declaration}
    (h : d ∈ declaredAt t editable p) : d.editable = editable ∧ d.location = some p.toText := by
  unfold declaredAt at h
  split at h
  · obtain ⟨site, -, rfl⟩ := List.mem_map.1 h
    exact ⟨rfl, rfl⟩
  · exact (List.not_mem_nil h).elim

theorem flatMap_filter {α β : Type} (l : List α) (p : α → Bool) (f : α → List β) :
    (l.filter p).flatMap f = l.flatMap fun a => if p a then f a else [] := by
  induction l with
  | nil => rfl
  | cons a l ih =>
    rw [List.flatMap_cons, ← ih]
    cases hp : p a with
    | true =>
      rw [List.filter_cons_of_pos hp, List.flatMap_cons]
      rfl
    | false =>
      rw [List.filter_cons_of_neg (Bool.eq_false_iff.1 hp)]
      rfl

namespace ProjectScope

theorem covers_ofSettings {settings : Settings} {own foreign : List Path} {name : Text} :
    (ofSettings settings own foreign).covers name = true ↔
      ∃ ext ∈ settings.extensions, Text.lower (Path.suffixOf name) = Text.lower ext := by
  unfold covers ofSettings
  rw [decide_eq_true_iff, List.mem_map]
  exact exists_congr fun ext => and_congr_right fun _ => eq_comm

theorem skips_ofSettings {settings : Settings} {own foreign : List Path} {name : Text} :
    (ofSettings settings own foreign).skips name = false ↔
      ∀ pattern ∈ settings.skipPatterns, Wildcard.isMatch pattern name = false := by
  unfold skips ofSettings
  rw [List.any_eq_false]
  exact forall₂_congr fun pattern _ => Bool.eq_false_iff.symm

theorem isIndexed_iff {settings : Settings} (own foreign : List Path) {dir : Node}
    {dirs : List Text} {name : Text} :
    IsIndexed settings dir dirs name ↔
      IsFound (ofSettings settings own foreign) dir dirs name ∧
        (FormatRegistry.standard.detect? name).isSome = true := by
  constructor
  · rintro ⟨hfile, hext, hformat, hentered⟩
    exact ⟨⟨hfile, covers_ofSettings.2 hext, fun d hd => skips_ofSettings.2 (hentered d hd)⟩, hformat⟩
  · rintro ⟨⟨hfile, hext, hentered⟩, hformat⟩
    exact ⟨hfile, covers_ofSettings.1 hext, hformat, fun d hd => skips_ofSettings.1 (hentered d hd)⟩

/-! ## The index -/

/-- All files with a format are Java files. -/
theorem detect?_standard {name : Text} {format : SourceFormat}
    (h : FormatRegistry.standard.detect? name = some format) : format = Java.format := by
  unfold FormatRegistry.detect? at h
  split at h
  · obtain ⟨before, after, hstandard, -⟩ := List.lookup_eq_some_iff.1 h
    have hmem : (_, format) ∈ FormatRegistry.standard :=
      hstandard ▸ List.mem_append_right before List.mem_cons_self
    have hone : FormatRegistry.standard = [(Text.lower ".java".toList, Java.format)] := rfl
    rw [hone, List.mem_singleton] at hmem
    exact congrArg Prod.snd hmem
  · cases h

theorem result_indexFile {t : FileTree} {p : Path} {bytes : List UInt8} (editable : Bool)
    (h : t.read p = .ok bytes) :
    (indexFile FormatRegistry.standard t editable p).result =
      .ok (if (FormatRegistry.standard.detect? p.name).isSome then declaredAt t editable p
        else []) := by
  unfold indexFile declaredAt
  rw [h]
  cases hformat : FormatRegistry.standard.detect? p.name with
  | none => rfl
  | some format =>
    rw [detect?_standard hformat]
    rfl

/-- The walk below a readable root finds the files that are listed below it. -/
theorem exists_files (scope : ProjectScope) {t : FileTree} {root : Path} {place : Place}
    (hplace : t.place root = .ok place) (hdir : place.node.isDirectory = true)
    (h : ReadableAt root place.node) (hgrants : t.access.Grants place.names place.node) :
    ∃ listing, Lists scope place.node listing ∧
      scope.files t root = Run.emitAll (listing.map root.below) := by
  obtain ⟨entries, hentries⟩ := Node.exists_of_isDirectory hdir
  obtain ⟨listing, hlists, hfiles⟩ := exists_filesIn scope h place.linksLeft hentries hgrants
  refine ⟨listing, hlists, ?_⟩
  unfold files
  simp only [hplace, hentries]
  exact hfiles

/-- Whether there is a format for the file of some names below a root. -/
def hasFormat (root : Path) (names : List Text) : Bool :=
  (FormatRegistry.standard.detect? (root.below names).name).isSome

variable {settings : Settings} {own foreign : List Path} {t : FileTree} {root : Path} {place : Place}
  {listing : List (List Text)}

theorem exists_read_of_lists {scope : ProjectScope} (hplace : t.place root = .ok place)
    (hreadable : ReadableAt root place.node) (hgrants : t.access.Grants place.names place.node)
    (h : Lists scope place.node listing) :
    ∀ names ∈ listing, ∃ bytes, t.read (root.below names) = .ok bytes := by
  intro names hnames
  obtain ⟨dirs, name, rfl, ⟨found, hfound, hfile⟩, -, -⟩ := (h.mem_iff names).1 hnames
  exact FileTree.exists_read hplace hreadable hgrants hfound hfile

/-- Of the files that are found below a root, those with a format are indexed. -/
theorem indexes_filter (hplace : t.place root = .ok place) (hreadable : ReadableAt root place.node)
    (hgrants : t.access.Grants place.names place.node)
    (h : Lists (ofSettings settings own foreign) place.node listing) :
    Indexes settings t root (listing.filter (hasFormat root)) := by
  have hnode : t.node? root = some place.node := by
    unfold FileTree.node?
    rw [hplace]
    rfl
  have hordered := h.ordered.filter (hasFormat root)
  have hnodup : (listing.filter (hasFormat root)).Nodup := by
    apply hordered.imp
    rintro names _ hlt rfl
    exact (List.Lex.asymm Text.Before).asymm names names hlt hlt
  have hread := exists_read_of_lists hplace hreadable hgrants h
  refine ⟨fun names => ?_, hordered, hnodup, fun names hnames =>
    hread names (List.mem_filter.1 hnames).1⟩
  rw [List.mem_filter, h.mem_iff]
  constructor
  · rintro ⟨⟨dirs, name, rfl, hfound⟩, hformat⟩
    rw [hasFormat, Path.name_below] at hformat
    exact ⟨place.node, dirs, name, hnode, rfl, (isIndexed_iff own foreign).2 ⟨hfound, hformat⟩⟩
  · rintro ⟨dir, dirs, name, hdir, rfl, hindexed⟩
    have hdir : place.node = dir := Option.some.inj (hnode.symm.trans hdir)
    obtain ⟨hfound, hformat⟩ := (isIndexed_iff own foreign).1 hindexed
    refine ⟨⟨dirs, name, rfl, hdir ▸ hfound⟩, ?_⟩
    rw [hasFormat, Path.name_below]
    exact hformat

theorem result_indexRoot_of_place {scope : ProjectScope} (hplace : t.place root = .ok place)
    (editable : Bool) :
    (scope.indexRoot FormatRegistry.standard t editable root).result =
      ((scope.files t root).events.mapM (indexFile FormatRegistry.standard t editable)).result.bind
        fun declared => (scope.files t root).result.map fun _ => declared.flatten := by
  unfold indexRoot
  rw [FileTree.hasPath_of_place hplace, Run.result_bind]
  show (((scope.files t root).events.mapM (indexFile FormatRegistry.standard t editable)) >>=
    fun declared => Run.ofResult (scope.files t root).result >>= fun _ =>
      pure declared.flatten).result = _
  rw [Run.result_bind]
  refine congrArg _ (funext fun declared => ?_)
  rw [Run.result_bind]
  cases h : (scope.files t root).result with
  | ok u => rfl
  | error e => rfl

theorem result_indexRoot {scope : ProjectScope} (hplace : t.place root = .ok place)
    (hfiles : scope.files t root = Run.emitAll (listing.map root.below))
    (hread : ∀ names ∈ listing, ∃ bytes, t.read (root.below names) = .ok bytes) (editable : Bool) :
    (scope.indexRoot FormatRegistry.standard t editable root).result =
      .ok (declaredBelow t editable (listing.filter (hasFormat root)) root) := by
  have hindexed : ((listing.map root.below).mapM
      (indexFile FormatRegistry.standard t editable)).result =
        .ok ((listing.map root.below).map fun p =>
          if (FormatRegistry.standard.detect? p.name).isSome then declaredAt t editable p else []) := by
    refine Run.result_mapM_ok fun p hp => ?_
    obtain ⟨names, hnames, rfl⟩ := List.mem_map.1 hp
    obtain ⟨bytes, hbytes⟩ := hread names hnames
    exact result_indexFile editable hbytes
  rw [result_indexRoot_of_place hplace, hfiles]
  show (((listing.map root.below).mapM (indexFile FormatRegistry.standard t editable)).result.bind
    fun declared => .ok declared.flatten) = _
  rw [hindexed, declaredBelow, flatMap_filter, List.map_map]
  rfl

/-- A readable root is indexed: of the files that are found there, those with a format. -/
theorem exists_indexRoot (settings : Settings) (own foreign : List Path)
    (h : IsReadableRoot t root) :
    ∃ listing, Indexes settings t root listing ∧ ∀ editable,
      ((ofSettings settings own foreign).indexRoot FormatRegistry.standard t editable root).result =
        .ok (declaredBelow t editable listing root) := by
  obtain ⟨place, hplace, hisDirectory, hreadable, hgrants⟩ := h
  obtain ⟨listing, hlists, hfiles⟩ :=
    exists_files (ofSettings settings own foreign) hplace hisDirectory hreadable hgrants
  exact ⟨_, indexes_filter hplace hreadable hgrants hlists,
    result_indexRoot hplace hfiles (exists_read_of_lists hplace hreadable hgrants hlists)⟩

theorem result_index {scope : ProjectScope} {formats : FormatRegistry}
    (declared : Bool → Path → List Declaration)
    (hown : ∀ root ∈ scope.sourceRoots,
      (scope.indexRoot formats t true root).result = .ok (declared true root))
    (hforeign : ∀ root ∈ scope.libraryRoots,
      (scope.indexRoot formats t false root).result = .ok (declared false root)) :
    (scope.index formats t).result = .ok
      (scope.sourceRoots.flatMap (declared true) ++ scope.libraryRoots.flatMap (declared false)) := by
  unfold index
  rw [Run.result_bind, Run.result_mapM_ok hown]
  show (scope.libraryRoots.mapM (scope.indexRoot formats t false) >>= _).result = _
  rw [Run.result_bind, Run.result_mapM_ok hforeign]
  rfl

theorem exists_index (settings : Settings) (own foreign : List Path)
    (hroots : ∀ root ∈ own ++ foreign, IsReadableRoot t root) :
    ∃ ds, ((ofSettings settings own foreign).index FormatRegistry.standard t).result = .ok ds := by
  have hindex := fun root hroot => exists_indexRoot settings own foreign (hroots root hroot)
  choose! listing hlisting hresult using hindex
  exact ⟨_, result_index (fun editable root => declaredBelow t editable (listing root) root)
    (fun root hroot => hresult root (List.mem_append_left foreign hroot) true)
    (fun root hroot => hresult root (List.mem_append_right own hroot) false)⟩

end ProjectScope

/-! ## Looking a name up -/

theorem ProjectCatalog.find_new (scope : ProjectScope) (formats : FormatRegistry) (t : FileTree)
    (name : Text) :
    (find ⟨scope, none⟩ formats t name).1 = (Catalog.named · name) <$> scope.index formats t := rfl

/-- A new catalog over readable directories answers with the declarations of the name in the indexed
files below them, those of the project first. -/
theorem ProjectCatalog.find_indexed (settings : Settings) (own foreign : List Path) (t : FileTree)
    (hroots : ∀ root ∈ own ++ foreign, IsReadableRoot t root) (name : Text) :
    ∃ listing : Path → List (List Text),
      (∀ root ∈ own ++ foreign, Indexes settings t root (listing root)) ∧
      (find ⟨.ofSettings settings own foreign, none⟩ FormatRegistry.standard t name).1.result =
        .ok (((own.flatMap fun root => declaredBelow t true (listing root) root) ++
          foreign.flatMap fun root => declaredBelow t false (listing root) root).filter
            (·.name == name)) ∧
      ∀ editable p, ∀ d ∈ declaredAt t editable p,
        d.editable = editable ∧ d.location = some p.toText := by
  have hindex := fun root hroot =>
    ProjectScope.exists_indexRoot settings own foreign (hroots root hroot)
  choose! listing hlisting hresult using hindex
  refine ⟨listing, hlisting, ?_, fun editable p d hd => mem_declaredAt hd⟩
  have hall : (ProjectScope.index (.ofSettings settings own foreign) FormatRegistry.standard t).result =
      .ok _ :=
    ProjectScope.result_index
      (fun editable root => declaredBelow t editable (listing root) root)
      (fun root hroot => hresult root (List.mem_append_left foreign hroot) true)
      (fun root hroot => hresult root (List.mem_append_right own hroot) false)
  rw [find_new, Run.map_eq, hall]
  rfl

/-- A directory that is left out. -/
def orderBuild : Node :=
  .directory [("Item.java".toList, .file (Utf8.encode "record Item(int b) \x7b\x7d".toList))]

/-- A directory that is indexed, with a file that is not. -/
def orderModel : Node :=
  .directory
    [("Item.JAVA".toList, .file (Utf8.encode "record Item(int c) \x7b\x7d".toList)),
      ("notes.txt".toList, .file [])]

/-- The sources of a project. -/
def orderSources : Node :=
  .directory
    [("Order.java".toList, .file (Utf8.encode "record Order(Item i) \x7b\x7d".toList)),
      ("build".toList, orderBuild), ("Model".toList, orderModel)]

/-- The sources of a library, with a type that the project has too. -/
def orderLibrary : Node :=
  .directory [("Item.java".toList, .file (Utf8.encode "class Item \x7b\x7d".toList))]

/-- A project and a library. -/
def orderTree : FileTree where
  root := .directory [("src".toList, orderSources), ("lib".toList, orderLibrary)]
  current := []

theorem readable_orderTree : ReadableAt ⟨1, []⟩ orderTree.root := by
  have hbuild : ReadableAt ⟨1, ["src".toList, "build".toList]⟩ orderBuild :=
    .single (by decide) (by decide) (.file _ (by decide))
  have hmodel : ReadableAt ⟨1, ["src".toList, "Model".toList]⟩ orderModel :=
    .directory (by decide) (by decide) (by decide)
      (List.forall_mem_cons.2 ⟨.file _ (by decide),
        List.forall_mem_singleton.2 (.file _ (by decide))⟩)
  have hsources : ReadableAt ⟨1, ["src".toList]⟩ orderSources :=
    .directory (by decide) (by decide) (by decide)
      (List.forall_mem_cons.2 ⟨.file _ (by decide),
        List.forall_mem_cons.2 ⟨hbuild, List.forall_mem_singleton.2 hmodel⟩⟩)
  have hlibrary : ReadableAt ⟨1, ["lib".toList]⟩ orderLibrary :=
    .single (by decide) (by decide) (.file _ (by decide))
  exact .directory (by decide) (by decide) (by decide)
    (List.forall_mem_cons.2 ⟨hsources, List.forall_mem_singleton.2 hlibrary⟩)

theorem isReadableRoot_orderTree {names : List Text} {dir : Node}
    (hdir : orderTree.root.at? names = some dir) (hisDirectory : dir.isDirectory = true) :
    IsReadableRoot orderTree ⟨1, names⟩ :=
  isReadableRoot_of_readable readable_orderTree (Access.grants_full _ _) hdir hisDirectory

/-- Looking up a type that a project and a library have. -/
theorem ProjectCatalog.find_indexed_orderTree :
    (∀ root ∈ [⟨1, ["src".toList]⟩] ++ [⟨1, ["lib".toList]⟩], IsReadableRoot orderTree root) ∧
      ∃ listing : Path → List (List Text),
        (∀ root ∈ [⟨1, ["src".toList]⟩] ++ [⟨1, ["lib".toList]⟩],
          Indexes {} orderTree root (listing root)) ∧
        (find ⟨.ofSettings {} [⟨1, ["src".toList]⟩] [⟨1, ["lib".toList]⟩], none⟩
          FormatRegistry.standard orderTree "Item".toList).1.result =
          .ok ((([⟨1, ["src".toList]⟩].flatMap fun root =>
              declaredBelow orderTree true (listing root) root) ++
            [⟨1, ["lib".toList]⟩].flatMap fun root =>
              declaredBelow orderTree false (listing root) root).filter
                (·.name == "Item".toList)) ∧
        ∀ editable p, ∀ d ∈ declaredAt orderTree editable p,
          d.editable = editable ∧ d.location = some p.toText := by
  have hroots : ∀ root ∈ [⟨1, ["src".toList]⟩] ++ [⟨1, ["lib".toList]⟩],
      IsReadableRoot orderTree root :=
    List.forall_mem_cons.2 ⟨isReadableRoot_orderTree rfl rfl,
      List.forall_mem_singleton.2 (isReadableRoot_orderTree rfl rfl)⟩
  exact ⟨hroots, find_indexed {} _ _ orderTree hroots "Item".toList⟩

end RecordSkeleton
