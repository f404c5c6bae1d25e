import RecordSkeleton.Proofs.FileTree.WellFormed
import RecordSkeleton.Proofs.ProjectCatalog.Walk

/-!
# What is reached from a root

What the walk below a root comes to is described by paths alone, with links followed: the entries of
the directories that it goes into (`ProjectScope.Meets`), and of these the files that are covered. The
walk ends early at a directory that may not be listed, and at a path of which it cannot be told what it
leads to (`ProjectScope.Stops`).

1. What is met below a directory, or stops the walk there, is so through one of its entries
   (`ProjectScope.meets_iff`, `ProjectScope.stops_iff`).
2. A walk over entries explores what each of the visits explores (`Explores.forM`).
3. The walk below a directory finds each covered file once, or ends with the error of what stops it
   (`ProjectScope.explores_filesIn`).
-/

namespace RecordSkeleton

/-! ## Directories -/

namespace FileTree

/-- The directory at a path has these entries, and they can be listed. -/
def Lists (t : FileTree) (dir : Path) (entries : List (Text × Node)) : Prop :=
  ∃ place, t.place dir = .ok place ∧ place.node = .directory entries ∧
    t.access.read place.names = none

/-- The directory at a path may not be listed. -/
def IsClosed (t : FileTree) (dir : Path) (cause : Refusal) : Prop :=
  ∃ place, t.place dir = .ok place ∧ place.node.isDirectory = true ∧
    t.access.read place.names = some cause

variable {t : FileTree} {dir : Path} {entries : List (Text × Node)}

theorem Lists.node? (h : t.Lists dir entries) : t.node? dir = some (.directory entries) := by
  obtain ⟨place, hplace, hnode, -⟩ := h
  rw [node?_of_place hplace, hnode]

theorem Lists.unique {entries' : List (Text × Node)} (h : t.Lists dir entries)
    (h' : t.Lists dir entries') : entries = entries' := by
  have hnode := h.node?.symm.trans h'.node?
  rwa [Option.some.injEq, Node.directory.injEq] at hnode

theorem Lists.not_isClosed (h : t.Lists dir entries) (cause : Refusal) : ¬ t.IsClosed dir cause := by
  obtain ⟨place, hplace, -, hread⟩ := h
  rintro ⟨place', hplace', -, hrefused⟩
  cases hplace.symm.trans hplace'
  cases hread.symm.trans hrefused

theorem IsClosed.node? {cause : Refusal} (h : t.IsClosed dir cause) :
    ∃ entries, t.node? dir = some (.directory entries) := by
  obtain ⟨place, hplace, hdir, -⟩ := h
  obtain ⟨entries, hnode⟩ := Node.exists_of_isDirectory hdir
  exact ⟨entries, by rw [node?_of_place hplace, hnode]⟩

end FileTree

namespace ProjectScope

variable {scope : ProjectScope} {t : FileTree}

/-! ## Descriptions by paths -/

/-- The walk goes on from one directory to another, through directories, or links to directories,
that are not left out. -/
inductive Enters (scope : ProjectScope) (t : FileTree) : Path → Path → Prop
  | here (dir : Path) : Enters scope t dir dir
  | inside {dir last : Path} {entries inner : List (Text × Node)} {name : Text}
    (hdir : t.Lists dir entries) (hname : name ∈ entries.map Prod.fst)
    (hinner : t.node? (dir.child name) = some (.directory inner))
    (hskip : scope.skips name = false) (h : Enters scope t (dir.child name) last) :
    Enters scope t dir last

/-- The walk from a directory comes to a path: that of an entry of a directory it goes into. -/
def Meets (scope : ProjectScope) (t : FileTree) (root p : Path) : Prop :=
  ∃ dir entries name, scope.Enters t root dir ∧ t.Lists dir entries ∧
    name ∈ entries.map Prod.fst ∧ p = dir.child name

/-- The walk goes on behind the entry of this name. -/
def IsEntered (scope : ProjectScope) (t : FileTree) (dir : Path) (name : Text) : Prop :=
  (∃ inner, t.node? (dir.child name) = some (.directory inner)) ∧ scope.skips name = false

/-- The walk comes to a path through the entry of this name. -/
def MeetsThrough (scope : ProjectScope) (t : FileTree) (dir : Path) (name : Text) (p : Path) : Prop :=
  p = dir.child name ∨ scope.IsEntered t dir name ∧ scope.Meets t (dir.child name) p

/-- A path that the walk takes for a covered file. A link that leads nowhere counts as a file. -/
structure Takes (scope : ProjectScope) (t : FileTree) (p : Path) : Prop where
  told : ∀ fault, ¬ t.Withholds p fault
  not_directory : ∀ inner, t.node? p ≠ some (.directory inner)
  covered : scope.covers p.name = true

/-- What stops the walk, with the error that tells of it: a directory that may not be listed, or a path
of which it cannot be told what it leads to. -/
inductive Stops (scope : ProjectScope) (t : FileTree) (root : Path) : CatalogError → Prop
  | closed {dir : Path} {cause : Refusal} (henters : scope.Enters t root dir)
    (hclosed : t.IsClosed dir cause) : Stops scope t root (.unlistable dir (.refused cause))
  | withheld {p : Path} {fault : PathError} (hmeets : scope.Meets t root p)
    (hwithheld : t.Withholds p fault) : Stops scope t root (.inaccessible fault)

/-- The walk is stopped at the entry of this name, or behind it. -/
def StopsThrough (scope : ProjectScope) (t : FileTree) (dir : Path) (name : Text) (e : CatalogError) :
    Prop :=
  (∃ fault, t.Withholds (dir.child name) fault ∧ e = .inaccessible fault) ∨
    scope.IsEntered t dir name ∧ scope.Stops t (dir.child name) e

section Listed

variable {root : Path} {entries : List (Text × Node)} (hroot : t.Lists root entries)

include hroot

theorem enters_iff {last : Path} :
    scope.Enters t root last ↔
      last = root ∨ ∃ e ∈ entries, scope.IsEntered t root e.1 ∧
        scope.Enters t (root.child e.1) last := by
  constructor
  · rintro (_ | ⟨hdir, hname, hinner, hskip, h⟩)
    · exact Or.inl rfl
    · obtain rfl := hroot.unique hdir
      obtain ⟨e, he, rfl⟩ := List.mem_map.1 hname
      exact Or.inr ⟨e, he, ⟨⟨_, hinner⟩, hskip⟩, h⟩
  · rintro (rfl | ⟨e, he, ⟨⟨inner, hinner⟩, hskip⟩, h⟩)
    · exact .here _
    · exact .inside hroot (List.mem_map_of_mem he) hinner hskip h

theorem meets_iff {p : Path} :
    scope.Meets t root p ↔ ∃ e ∈ entries, scope.MeetsThrough t root e.1 p := by
  constructor
  · rintro ⟨dir, inside, name, henters, hdir, hname, rfl⟩
    rcases (enters_iff hroot).1 henters with rfl | ⟨e, he, hentered, h⟩
    · obtain rfl := hroot.unique hdir
      obtain ⟨e, he, rfl⟩ := List.mem_map.1 hname
      exact ⟨e, he, Or.inl rfl⟩
    · exact ⟨e, he, Or.inr ⟨hentered, dir, inside, name, h, hdir, hname, rfl⟩⟩
  · rintro ⟨e, he, rfl | ⟨hentered, dir, inside, name, h, hdir, hname, rfl⟩⟩
    · exact ⟨root, entries, e.1, .here root, hroot, List.mem_map_of_mem he, rfl⟩
    · exact ⟨dir, inside, name, (enters_iff hroot).2 (Or.inr ⟨e, he, hentered, h⟩), hdir, hname, rfl⟩

theorem stops_iff {error : CatalogError} :
    scope.Stops t root error ↔ ∃ e ∈ entries, scope.StopsThrough t root e.1 error := by
  constructor
  · rintro (⟨henters, hclosed⟩ | ⟨hmeets, hwithheld⟩)
    · rcases (enters_iff hroot).1 henters with rfl | ⟨e, he, hentered, h⟩
      · exact absurd hclosed (hroot.not_isClosed _)
      · exact ⟨e, he, Or.inr ⟨hentered, .closed h hclosed⟩⟩
    · obtain ⟨e, he, rfl | ⟨hentered, h⟩⟩ := (meets_iff hroot).1 hmeets
      · exact ⟨e, he, Or.inl ⟨_, hwithheld, rfl⟩⟩
      · exact ⟨e, he, Or.inr ⟨hentered, .withheld h hwithheld⟩⟩
  · rintro ⟨e, he, ⟨fault, hwithheld, rfl⟩ | ⟨hentered, ⟨henters, hclosed⟩ | ⟨hmeets, hwithheld⟩⟩⟩
    · exact .withheld ((meets_iff hroot).2 ⟨e, he, Or.inl rfl⟩) hwithheld
    · exact .closed ((enters_iff hroot).2 (Or.inr ⟨e, he, hentered, henters⟩)) hclosed
    · exact .withheld ((meets_iff hroot).2 ⟨e, he, Or.inr ⟨hentered, hmeets⟩⟩) hwithheld

end Listed

theorem Enters.exists_below {root dir : Path} (h : scope.Enters t root dir) :
    ∃ names, dir = root.below names := by
  induction h with
  | here dir => exact ⟨[], dir.below_nil.symm⟩
  | @inside dir last _ _ name _ _ _ _ _ ih =>
    obtain ⟨names, hnames⟩ := ih
    exact ⟨name :: names, hnames.trans (dir.child_below name names)⟩

theorem Meets.exists_below {root p : Path} (h : scope.Meets t root p) :
    ∃ names, p = root.below names := by
  obtain ⟨dir, entries, name, henters, -, -, rfl⟩ := h
  obtain ⟨names, rfl⟩ := henters.exists_below
  refine ⟨names ++ [name], ?_⟩
  unfold Path.below Path.child
  rw [List.append_assoc]

theorem Enters.isNormal {root dir : Path} (h : scope.Enters t root dir) (hwf : t.WellFormed)
    (hroot : root.IsNormal) : dir.IsNormal := by
  induction h with
  | here dir => exact hroot
  | inside hdir hname _ _ _ ih => exact ih (hroot.child (hwf.isFileName hdir.node? hname).toIsPart)

theorem Meets.isNormal {root p : Path} (h : scope.Meets t root p) (hwf : t.WellFormed)
    (hroot : root.IsNormal) : p.IsNormal := by
  obtain ⟨dir, entries, name, henters, hdir, hname, rfl⟩ := h
  exact (henters.isNormal hwf hroot).child (hwf.isFileName hdir.node? hname).toIsPart

theorem MeetsThrough.exists_below {dir p : Path} {name : Text}
    (h : scope.MeetsThrough t dir name p) : ∃ names, p = dir.below (name :: names) := by
  rcases h with rfl | ⟨-, hmeets⟩
  · exact ⟨[], rfl⟩
  · obtain ⟨names, rfl⟩ := hmeets.exists_below
    exact ⟨names, dir.child_below name names⟩

/-- No path is met through two entries. -/
theorem MeetsThrough.name_eq {dir p : Path} {a b : Text} (ha : scope.MeetsThrough t dir a p)
    (hb : scope.MeetsThrough t dir b p) : a = b := by
  obtain ⟨names, rfl⟩ := ha.exists_below
  obtain ⟨names', h⟩ := hb.exists_below
  have h := congrArg Path.names h
  exact (List.cons.inj (List.append_cancel_left h)).1

end ProjectScope

/-! ## Exploring -/

/-- A run explores what there is to find: it records what is found, each once, and fails exactly when
something stops it, with the error that tells of it. -/
structure Explores (stops : CatalogError → Prop) (found : Path → Prop)
    (x : Run Path CatalogError Unit) : Prop where
  found_of_mem : ∀ p ∈ x.events, found p
  stops_of_error : ∀ e, x.result = .error e → stops e
  not_stops : x.result = .ok () → ∀ e, ¬ stops e
  mem_of_found : x.result = .ok () → ∀ p, found p → p ∈ x.events
  nodup : x.result = .ok () → x.events.Nodup

namespace Explores

variable {stops stops' : CatalogError → Prop} {found found' : Path → Prop}
  {x : Run Path CatalogError Unit}

theorem congr (h : Explores stops found x) (hstops : ∀ e, stops e ↔ stops' e)
    (hfound : ∀ p, found p ↔ found' p) : Explores stops' found' x := by
  obtain rfl : stops = stops' := funext fun e => propext (hstops e)
  obtain rfl : found = found' := funext fun p => propext (hfound p)
  exact h

theorem nothing (hstops : ∀ e, ¬ stops e) (hfound : ∀ p, ¬ found p) :
    Explores stops found (pure ()) := by
  constructor
  · exact fun p hp => (List.not_mem_nil hp).elim
  · exact fun e he => nomatch he
  · exact fun _ => hstops
  · exact fun _ p hp => (hfound p hp).elim
  · exact fun _ => List.nodup_nil

theorem emit {p : Path} (hstops : ∀ e, ¬ stops e) (hfound : ∀ q, found q ↔ q = p) :
    Explores stops found (Run.emit p) := by
  constructor
  · exact fun q hq => (hfound q).2 (List.mem_singleton.1 hq)
  · exact fun e he => nomatch he
  · exact fun _ => hstops
  · exact fun _ q hq => List.mem_singleton.2 ((hfound q).1 hq)
  · exact fun _ => List.pairwise_singleton _ p

theorem fail {e : CatalogError} (hstops : stops e) :
    Explores stops found (.ofResult (.error e)) := by
  constructor
  · exact fun q hq => (List.not_mem_nil hq).elim
  · rintro e ⟨⟩
    exact hstops
  · exact fun hok => nomatch hok
  · exact fun hok => nomatch hok
  · exact fun hok => nomatch hok

/-- A sequence of runs explores what each of them explores, if no path is found by two of them. -/
theorem forM {ι : Type} {l : List ι} {f : ι → Run Path CatalogError Unit}
    {stops : ι → CatalogError → Prop} {found : ι → Path → Prop}
    (h : ∀ i ∈ l, Explores (stops i) (found i) (f i))
    (hdistinct : l.Pairwise fun i j => ∀ p, found i p → ¬ found j p) :
    Explores (fun e => ∃ i ∈ l, stops i e) (fun p => ∃ i ∈ l, found i p) (forM l f) := by
  induction l with
  | nil =>
    refine nothing ?_ ?_
    · rintro e ⟨i, hi, -⟩
      exact (List.not_mem_nil hi).elim
    · rintro p ⟨i, hi, -⟩
      exact List.not_mem_nil hi
  | cons i l ih =>
    obtain ⟨hi, hl⟩ := List.forall_mem_cons.1 h
    obtain ⟨hfirst, hrest⟩ := List.pairwise_cons.1 hdistinct
    have ih := ih hl hrest
    rw [List.forM_cons]
    cases hresult : (f i).result with
    | error e =>
      rw [Run.bind_error hresult]
      constructor
      · exact fun p hp => ⟨i, List.mem_cons_self, hi.found_of_mem p hp⟩
      · rintro e' ⟨⟩
        exact ⟨i, List.mem_cons_self, hi.stops_of_error e hresult⟩
      · exact fun hok => nomatch hok
      · exact fun hok => nomatch hok
      · exact fun hok => nomatch hok
    | ok u =>
      rw [Run.bind_ok hresult]
      constructor
      · intro p hp
        rcases List.mem_append.1 hp with hp | hp
        · exact ⟨i, List.mem_cons_self, hi.found_of_mem p hp⟩
        · obtain ⟨j, hj, hfound⟩ := ih.found_of_mem p hp
          exact ⟨j, List.mem_cons_of_mem i hj, hfound⟩
      · intro e he
        obtain ⟨j, hj, hstops⟩ := ih.stops_of_error e he
        exact ⟨j, List.mem_cons_of_mem i hj, hstops⟩
      · rintro hok e ⟨j, hj, hstops⟩
        rcases List.mem_cons.1 hj with rfl | hj
        · exact hi.not_stops hresult e hstops
        · exact ih.not_stops hok e ⟨j, hj, hstops⟩
      · rintro hok p ⟨j, hj, hp⟩
        rcases List.mem_cons.1 hj with rfl | hj
        · exact List.mem_append_left _ (hi.mem_of_found hresult p hp)
        · exact List.mem_append_right _ (ih.mem_of_found hok p ⟨j, hj, hp⟩)
      · intro hok
        refine List.nodup_append.2 ⟨hi.nodup hresult, ih.nodup hok, ?_⟩
        rintro p hp q hq rfl
        obtain ⟨j, hj, hfound⟩ := ih.found_of_mem p hq
        exact hfirst j hj p (hi.found_of_mem p hp) hfound

end Explores

/-! ## The walk -/

namespace ProjectScope

variable {scope : ProjectScope} {t : FileTree} {path : Path} {place : Place}
  {entries : List (Text × Node)} {e : Text × Node}

/-- A run explores what the walk comes to below a directory. -/
def ExploresBelow (scope : ProjectScope) (t : FileTree) (dir : Path) (x : Run Path CatalogError Unit) :
    Prop :=
  Explores (scope.Stops t dir) (fun p => scope.Meets t dir p ∧ scope.Takes t p) x

/-- A run explores what the walk comes to through the entry of this name. -/
def ExploresThrough (scope : ProjectScope) (t : FileTree) (dir : Path) (name : Text)
    (x : Run Path CatalogError Unit) : Prop :=
  Explores (scope.StopsThrough t dir name)
    (fun p => scope.MeetsThrough t dir name p ∧ scope.Takes t p) x

section Entry

variable {name : Text}

/-- Through an entry that is a directory, what is inside is met as well, if it is not skipped. -/
theorem explores_directory {child : Place} (hchild : t.place (path.child name) = .ok child)
    {inner : List (Text × Node)} (hdir : child.node = .directory inner)
    {x : Run Path CatalogError Unit} (hx : scope.ExploresBelow t (path.child name) x) :
    scope.ExploresThrough t path name (if scope.skips name then pure () else x) := by
  have htold := FileTree.not_withholds_of_place hchild
  have hnode : t.node? (path.child name) = some (.directory inner) :=
    hdir ▸ FileTree.node?_of_place hchild
  cases hskip : scope.skips name with
  | true =>
    have hnone : ¬ scope.IsEntered t path name :=
      fun hentered => Bool.noConfusion (hskip.symm.trans hentered.2)
    refine .nothing ?_ ?_
    · rintro e (⟨fault, hwithheld, -⟩ | ⟨hentered, -⟩)
      · exact htold fault hwithheld
      · exact hnone hentered
    · rintro p ⟨rfl | ⟨hentered, -⟩, htakes⟩
      · exact htakes.not_directory inner hnode
      · exact hnone hentered
  | false =>
    have hentered : scope.IsEntered t path name := ⟨⟨inner, hnode⟩, hskip⟩
    refine Explores.congr hx (fun e => ?_) fun p => and_congr_left fun htakes => ?_
    · constructor
      · exact fun h => Or.inr ⟨hentered, h⟩
      · rintro (⟨fault, hwithheld, -⟩ | ⟨-, h⟩)
        · exact absurd hwithheld (htold fault)
        · exact h
    · constructor
      · exact fun hp => Or.inr ⟨hentered, hp⟩
      · rintro (rfl | ⟨-, hp⟩)
        · exact absurd hnode (htakes.not_directory inner)
        · exact hp

/-- Through an entry that is no directory, only its own path is met, and taken if it is covered. -/
theorem explores_asFile (htold : ∀ fault, ¬ t.Withholds (path.child name) fault)
    (hdir : ∀ inner, t.node? (path.child name) ≠ some (.directory inner)) :
    scope.ExploresThrough t path name (scope.asFile path name) := by
  have hleaf : ¬ scope.IsEntered t path name := fun ⟨⟨inner, h⟩, _⟩ => hdir inner h
  have hstops : ∀ e, ¬ scope.StopsThrough t path name e := by
    rintro e (⟨fault, hwithheld, -⟩ | ⟨hentered, -⟩)
    · exact htold fault hwithheld
    · exact hleaf hentered
  have hmet : ∀ p, scope.MeetsThrough t path name p ↔ p = path.child name :=
    fun p => or_iff_left fun h => hleaf h.1
  have hname : (path.child name).name = name := Path.name_below path [] name
  unfold asFile
  cases hcovers : scope.covers name with
  | true =>
    refine .emit hstops fun p => ?_
    rw [hmet, and_iff_left_iff_imp]
    rintro rfl
    exact ⟨htold, hdir, hname.symm ▸ hcovers⟩
  | false =>
    refine .nothing hstops ?_
    rintro p ⟨hp, htakes⟩
    have hcovered := htakes.covered
    rw [(hmet p).1 hp, hname, hcovers] at hcovered
    cases hcovered

theorem explores_asMissing {cause : FileError} (hchild : t.place (path.child name) = .error cause) :
    scope.ExploresThrough t path name (scope.asMissing path name cause) := by
  have hnode : t.node? (path.child name) = none := by
    unfold FileTree.node?
    rw [hchild]
    rfl
  unfold asMissing
  cases hcause : cause.pathError? (path.child name) with
  | some fault =>
    exact .fail (Or.inl ⟨fault, FileTree.withholds_iff.2 ⟨cause, hchild, hcause⟩, rfl⟩)
  | none =>
    refine explores_asFile (fun fault hwithheld => ?_) fun inner h => ?_
    · obtain ⟨cause', hcause', hfault⟩ := FileTree.withholds_iff.1 hwithheld
      cases hchild.symm.trans hcause'
      cases hcause.symm.trans hfault
    · cases hnode.symm.trans h

end Entry

section Visit

variable (hwf : t.WellFormed) (hplace : t.place path = .ok place)
  (hnode : place.node = .directory entries) (he : e ∈ entries)

include hwf hplace hnode in
theorem wellFormed_entries : (Node.directory entries).WellFormed := by
  have h := hwf.at? (FileTree.at?_of_place hplace)
  rwa [hnode] at h

include hwf hplace hnode he in
theorem visit_eq :
    visit scope t place.linksLeft place.names path e =
      match t.place (path.child e.1) with
      | .error cause => scope.asMissing path e.1 cause
      | .ok ⟨left, names, .directory inner⟩ =>
        if scope.skips e.1 then pure () else filesIn scope t left names (path.child e.1) inner
      | .ok _ => scope.asFile path e.1 := by
  have hentries := wellFormed_entries hwf hplace hnode
  have hname := (hentries.isFileName he).toIsEntryName
  have hbase := FileTree.at?_of_place hplace
  rw [hnode] at hbase
  have hlookup := Node.lookup_of_mem hentries.distinct he
  unfold visit
  by_cases hlong : FileTree.pathLimit < (path.child e.1).byteLength
  · rw [if_pos hlong, FileTree.place_child_of_long hplace hname hlong]
  · have hshort := Nat.le_of_not_lt hlong
    rw [if_neg hlong]
    cases hsearch : t.access.search place.names with
    | some cause => rw [FileTree.place_child_of_refused hplace hname hshort hnode hsearch]
    | none =>
      have hentry : (∀ target, e.2 ≠ .link target) →
          t.follow place.linksLeft place.names [e.1] = _ :=
        FileTree.follow_entry hbase hname hsearch hlookup
      rw [FileTree.place_child hplace hname hshort]
      obtain ⟨name, node⟩ := e
      cases node with
      | file content => rw [hentry (fun _ h => nomatch h)]
      | device => rw [hentry (fun _ h => nomatch h)]
      | directory inner => rw [hentry (fun _ h => nomatch h)]
      | link target =>
        simp only
        cases hfollow : t.follow place.linksLeft place.names [name] with
        | error cause => rfl
        | ok found =>
          have hlt := FileTree.linksLeft_lt_of_link hbase hname hlookup hfollow
          obtain ⟨left, names, node⟩ := found
          cases node with
          | directory inner => simp only [if_pos hlt]
          | _ => rfl

include hwf hplace hnode he in
/-- A directory that is gone into is smaller, or a link has been used up on the way. -/
theorem visit_lt {left : Nat} {names : List Text} {inner : List (Text × Node)}
    (hchild : t.place (path.child e.1) = .ok ⟨left, names, .directory inner⟩) :
    Prod.Lex (· < ·) (· < ·) (left, sizeOf inner) (place.linksLeft, sizeOf entries) := by
  have hentries := wellFormed_entries hwf hplace hnode
  have hname := (hentries.isFileName he).toIsEntryName
  have hbase := FileTree.at?_of_place hplace
  rw [hnode] at hbase
  have hlookup := Node.lookup_of_mem hentries.distinct he
  have hshort : (path.child e.1).byteLength ≤ FileTree.pathLimit := by
    by_contra hlong
    rw [FileTree.place_child_of_long hplace hname (Nat.lt_of_not_le hlong)] at hchild
    cases hchild
  by_cases hlink : ∃ target, e.2 = .link target
  · obtain ⟨target, htarget⟩ := hlink
    rw [FileTree.place_child hplace hname hshort] at hchild
    rw [htarget] at hlookup
    exact Prod.Lex.left _ _ (FileTree.linksLeft_lt_of_link hbase hname hlookup hchild)
  · cases hsearch : t.access.search place.names with
    | some cause =>
      rw [FileTree.place_child_of_refused hplace hname hshort hnode hsearch] at hchild
      cases hchild
    | none =>
      rw [FileTree.place_child hplace hname hshort,
        FileTree.follow_entry hbase hname hsearch hlookup fun target h => hlink ⟨target, h⟩] at hchild
      obtain ⟨rfl, -, hinner⟩ := Place.mk.inj (Except.ok.inj hchild)
      refine Prod.Lex.right _ ?_
      have hlt := List.sizeOf_lt_of_mem he
      obtain ⟨name, node⟩ := e
      simp only at hinner
      simp only [hinner, Prod.mk.sizeOf_spec, Node.directory.sizeOf_spec] at hlt
      omega

include hwf hplace hnode he in
/-- A visit explores what is met through the entry, if the walk does so inside. -/
theorem explores_visit
    (hinner : ∀ left names inner, t.place (path.child e.1) = .ok ⟨left, names, .directory inner⟩ →
      scope.ExploresBelow t (path.child e.1) (filesIn scope t left names (path.child e.1) inner)) :
    scope.ExploresThrough t path e.1 (visit scope t place.linksLeft place.names path e) := by
  rw [visit_eq hwf hplace hnode he]
  split
  case h_1 cause hchild => exact explores_asMissing hchild
  case h_2 left names inner hchild =>
    exact explores_directory hchild rfl (hinner left names inner hchild)
  case h_3 child hdir hchild =>
    refine explores_asFile (FileTree.not_withholds_of_place hchild) fun inner h => ?_
    rw [FileTree.node?_of_place hchild, Option.some.injEq] at h
    exact hdir child.linksLeft child.names inner (h ▸ rfl)

end Visit

/-- The walk below a directory finds the covered files there, each once, unless something stops it. -/
theorem explores_filesIn (scope : ProjectScope) (hwf : t.WellFormed) {path : Path} {links : Nat}
    {base : List Text} {entries : List (Text × Node)}
    (hplace : t.place path = .ok ⟨links, base, .directory entries⟩) :
    scope.ExploresBelow t path (filesIn scope t links base path entries) := by
  cases hread : t.access.read base with
  | some cause =>
    rw [filesIn_of_refused hread]
    exact .fail (.closed (.here path) ⟨_, hplace, rfl, hread⟩)
  | none =>
    have hroot : t.Lists path entries := ⟨_, hplace, rfl, hread⟩
    have hdistinct := (wellFormed_entries hwf hplace rfl).distinct
    have hvisit : ∀ e ∈ sorted entries,
        scope.ExploresThrough t path e.1 (visit scope t links base path e) := by
      intro e he
      have he := mem_sorted.1 he
      exact explores_visit hwf hplace rfl he fun left names inner hchild =>
        explores_filesIn scope hwf hchild
    rw [filesIn_eq hread]
    refine (Explores.forM hvisit ?_).congr (fun error => ?_) fun p => ?_
    · -- A path tells the entry that it is met through.
      refine (pairwise_sorted hdistinct).imp fun {a b} hlt p ha hb => ?_
      rw [ha.1.name_eq hb.1] at hlt
      exact Text.not_before hlt hlt
    · simp only [stops_iff hroot, mem_sorted]
    · simp only [meets_iff hroot, mem_sorted, ← and_assoc, exists_and_right]
termination_by (links, sizeOf entries)
decreasing_by exact visit_lt hwf hplace rfl he hchild

end ProjectScope

end RecordSkeleton
