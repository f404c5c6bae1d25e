import RecordSkeleton.Proofs.FileTree.Readable
import RecordSkeleton.Proofs.Path.Written

/-!
# Well-formed trees

The entries of a directory have distinct names, and each name can be looked up and can be a part of
a path. Links are allowed, so a path may lead anywhere.

1. From a directory that a path leads to, and that may be searched, an entry's name leads to the entry, or
   to where the entry's link leads (`FileTree.place_child`, `FileTree.follow_entry`).
2. Following a link uses up one of the links left (`FileTree.linksLeft_lt_of_link`).
3. What stands at a path is withheld where following the path fails for its length or for a directory that
   may not be searched (`FileTree.withholds_iff`).
4. Trees stay well-formed when something is written at names that files can have, or removed
   (`FileTree.WellFormed.write`, `FileTree.WellFormed.remove`).
-/

namespace RecordSkeleton

/-- The name of a file: it can be looked up and be a part of a path. -/
structure IsFileName (name : Text) : Prop extends IsEntryName name, Path.IsPart name

instance decidableIsFileName (name : Text) : Decidable (IsFileName name) :=
  decidable_of_iff (IsEntryName name ∧ Path.IsPart name)
    ⟨fun ⟨hentry, hpart⟩ => ⟨hentry, hpart.no_slash⟩,
      fun h => ⟨h.toIsEntryName, h.toIsPart⟩⟩

/-- A tree whose directories have entries with distinct names that files can have. -/
inductive Node.WellFormed : Node → Prop
  | file (content : List UInt8) : WellFormed (.file content)
  | link (target : Text) : WellFormed (.link target)
  | device : WellFormed .device
  | directory {entries : List (Text × Node)} (hdistinct : (entries.map Prod.fst).Nodup)
    (hname : ∀ e ∈ entries, IsFileName e.1) (hentry : ∀ e ∈ entries, WellFormed e.2) :
    WellFormed (.directory entries)

namespace Node.WellFormed

theorem distinct {entries : List (Text × Node)} (h : (Node.directory entries).WellFormed) :
    (entries.map Prod.fst).Nodup := by
  cases h
  assumption

theorem isFileName {entries : List (Text × Node)} (h : (Node.directory entries).WellFormed)
    {e : Text × Node} (he : e ∈ entries) : IsFileName e.1 := by
  cases h with
  | directory _ hname _ => exact hname e he

theorem at? {node : Node} (h : node.WellFormed) {names : List Text} {found : Node}
    (hfound : node.at? names = some found) : found.WellFormed := by
  induction names generalizing node with
  | nil =>
    rw [Node.at?_nil, Option.some.injEq] at hfound
    exact hfound ▸ h
  | cons name names ih =>
    obtain ⟨entries, inner, rfl, hinner, hrest⟩ := Node.at?_cons_eq_some hfound
    cases h with
    | directory _ _ hentry => exact ih (hentry _ (Node.mem_of_lookup hinner)) hrest

end Node.WellFormed

/-- A tree that is well-formed as a whole. -/
def FileTree.WellFormed (t : FileTree) : Prop := t.root.WellFormed

namespace FileTree

variable {t : FileTree}

/-! ## Links -/

/-- Following names leaves no more links than there were. -/
theorem linksLeft_le_of_follow {links : Nat} {base names : List Text} {place : Place}
    (h : t.follow links base names = .ok place) : place.linksLeft ≤ links := by
  fun_induction follow t links base names with
  | case1 links base node hnode =>
    cases h
    exact Nat.le_refl _
  | case3 links base rest entries hbase ih => exact ih h
  | case5 links base rest entries hbase hsearch hnil ih => exact ih h
  | case6 links base rest entries hbase hsearch hnil hdot ih => exact ih h
  | case10 base name rest entries hbase hnil hsearch hdot hdots hname target hlookup left ih =>
    exact Nat.le_succ_of_le (ih h)
  | case11 links base name rest entries hbase hnil hsearch hdot hdots hname node hlink hlookup ih =>
    exact ih h
  | case2 | case4 | case7 | case8 | case9 | case12 => cases h

section Entry

variable {links : Nat} {base : List Text} {entries : List (Text × Node)} {name : Text}
  (hbase : t.root.at? base = some (.directory entries)) (hname : IsEntryName name)

include hbase hname in
/-- The name of an entry that is no link leads to the entry. -/
theorem follow_entry {node : Node} (hsearch : t.access.search base = none)
    (hlookup : entries.lookup name = some node) (hlink : ∀ target, node ≠ .link target) :
    t.follow links base [name] = .ok ⟨links, base ++ [name], node⟩ := by
  have hhere : t.root.at? (base ++ [name]) = some node := by
    rw [Node.at?_append, hbase]
    exact (Node.at?_singleton entries name).trans hlookup
  rw [follow_into hbase hname hsearch hlookup hlink, follow, hhere]

include hbase hname in
/-- Following an entry that is a link uses up one of the links left. -/
theorem linksLeft_lt_of_link {target : Text} (hlookup : entries.lookup name = some (.link target))
    {place : Place} (h : t.follow links base [name] = .ok place) : place.linksLeft < links := by
  cases hsearch : t.access.search base with
  | some cause =>
    rw [follow_of_refused hbase hname hsearch] at h
    cases h
  | none =>
    rw [follow, hbase] at h
    simp only [if_neg hname.ne_nil, hsearch, if_neg hname.ne_dot, if_neg hname.ne_dots,
      if_neg (Nat.not_lt.2 hname.short), hlookup] at h
    cases links with
    | zero => cases h
    | succ left => exact Nat.lt_succ_of_le (linksLeft_le_of_follow h)

end Entry

/-! ## Places -/

theorem at?_of_place {p : Path} {place : Place} (h : t.place p = .ok place) :
    t.root.at? place.names = some place.node := by
  unfold FileTree.place at h
  split at h
  · cases h
  · split at h
    · cases h
    · exact at?_of_follow h

/-- The entries of a directory have names that files can have. -/
theorem WellFormed.isFileName (h : t.WellFormed) {dir : Path} {entries : List (Text × Node)}
    (hdir : t.node? dir = some (.directory entries)) {name : Text}
    (hname : name ∈ entries.map Prod.fst) : IsFileName name := by
  obtain ⟨place, hplace, hnode⟩ := exists_place hdir
  obtain ⟨e, he, rfl⟩ := List.mem_map.1 hname
  have hwf := Node.WellFormed.at? h (at?_of_place hplace)
  rw [hnode] at hwf
  exact hwf.isFileName he

/-- It cannot be told whether something stands at a path, for the given reason. -/
def Withholds (t : FileTree) (p : Path) (fault : PathError) : Prop := t.hasPath p = .error fault

theorem withholds_iff {p : Path} {fault : PathError} :
    t.Withholds p fault ↔ ∃ cause, t.place p = .error cause ∧ cause.pathError? p = some fault := by
  unfold Withholds hasPath holds
  cases t.place p with
  | ok place => simp
  | error cause => cases hcause : cause.pathError? p <;> simp [hcause]

theorem not_withholds_of_place {p : Path} {place : Place} (h : t.place p = .ok place)
    (fault : PathError) : ¬ t.Withholds p fault := by
  rw [withholds_iff, h]
  rintro ⟨cause, ⟨⟩, -⟩

theorem hasPath_of_missing {p : Path} {cause : FileError} (h : t.place p = .error cause)
    (htold : cause.pathError? p = none) : t.hasPath p = .ok false := by
  unfold hasPath holds
  simp only [h, htold]

/-- A path that starts with a name that is too long. -/
theorem place_of_longName {p : Path} {entries : List (Text × Node)} {name : Text} {rest : List Text}
    (hbase : t.root.at? (t.baseOf p) = some (.directory entries)) (hnames : p.names = name :: rest)
    (hname : name ≠ [] ∧ name ≠ ['.'] ∧ name ≠ ['.', '.'])
    (hsearch : t.access.search (t.baseOf p) = none) (hlong : nameLimit < Text.byteLength name)
    (hnull : p.hasNull = false) : t.place p = .error .nameTooLong := by
  unfold FileTree.place
  rw [hnull, if_neg Bool.false_ne_true, hnames]
  split
  · rfl
  · rw [follow, hbase]
    simp only [if_neg hname.1, hsearch, if_neg hname.2.1, if_neg hname.2.2, if_pos hlong]

/-- A path that starts with a name that stands for nothing. -/
theorem place_of_missing {p : Path} {entries : List (Text × Node)} {name : Text} {rest : List Text}
    (hbase : t.root.at? (t.baseOf p) = some (.directory entries)) (hnames : p.names = name :: rest)
    (hname : IsEntryName name) (hsearch : t.access.search (t.baseOf p) = none)
    (hlookup : entries.lookup name = none) (hnull : p.hasNull = false)
    (hshort : p.byteLength ≤ pathLimit) : t.place p = .error .notFound := by
  unfold FileTree.place
  rw [hnull, if_neg Bool.false_ne_true, if_neg (Nat.not_lt.2 hshort), hnames, follow, hbase]
  simp only [if_neg hname.ne_nil, hsearch, if_neg hname.ne_dot, if_neg hname.ne_dots,
    if_neg (Nat.not_lt.2 hname.short), hlookup]

section Child

variable {p : Path} {place : Place} (hplace : t.place p = .ok place) {name : Text}
  (hname : IsEntryName name)

include hplace hname in
theorem hasNull_child : (p.child name).hasNull = false := by
  have hp : p.hasNull = false := by
    unfold FileTree.place at hplace
    split at hplace
    · cases hplace
    · exact eq_false_of_ne_true ‹_›
  have hsingle : ([name].any fun n => '\x00' ∈ n) = false :=
    List.any_eq_false.2 fun n hn => by
      rw [List.mem_singleton.1 hn, decide_eq_true_iff]
      exact hname.no_null
  have h := Path.hasNull_below p [name]
  rw [hp, hsingle] at h
  exact h

include hplace hname in
/-- A name inside is followed from where the path has led. -/
theorem place_child (hshort : (p.child name).byteLength ≤ pathLimit) :
    t.place (p.child name) = t.follow place.linksLeft place.names [name] := by
  have hfollow : t.follow linkLimit (t.baseOf p) p.names = .ok place := by
    unfold FileTree.place at hplace
    split at hplace
    · cases hplace
    · split at hplace
      · cases hplace
      · exact hplace
  unfold FileTree.place
  rw [hasNull_child hplace hname, if_neg Bool.false_ne_true, if_neg (Nat.not_lt.2 hshort)]
  exact follow_append hfollow [name]

include hplace hname in
theorem place_child_of_long (hlong : pathLimit < (p.child name).byteLength) :
    t.place (p.child name) = .error .nameTooLong := by
  unfold FileTree.place
  rw [hasNull_child hplace hname, if_neg Bool.false_ne_true, if_pos hlong]

include hplace hname in
theorem place_child_of_refused (hshort : (p.child name).byteLength ≤ pathLimit)
    {entries : List (Text × Node)} (hnode : place.node = .directory entries) {cause : Refusal}
    (hsearch : t.access.search place.names = some cause) :
    t.place (p.child name) = .error (.refused cause) := by
  rw [place_child hplace hname hshort]
  exact follow_of_refused (hnode ▸ at?_of_place hplace) hname hsearch []

end Child

end FileTree

/-! ## Changes -/

namespace Node.WellFormed

variable {entries : List (Text × Node)} {name : Text} {node : Node}

theorem ofLookup (h : (Node.directory entries).WellFormed) (hlookup : entries.lookup name = some node) :
    IsFileName name ∧ node.WellFormed := by
  have hmem := Node.mem_of_lookup hlookup
  cases h with
  | directory _ hname hentry => exact ⟨hname _ hmem, hentry _ hmem⟩

/-- An entry may be set to a name that files can have. -/
theorem setEntry (h : (Node.directory entries).WellFormed) (hname : IsFileName name)
    (hnode : node.WellFormed) : (Node.directory (Node.setEntry entries name node)).WellFormed := by
  obtain _ | _ | _ | ⟨hdistinct, hnames, hentries⟩ := h
  unfold Node.setEntry
  by_cases hany : entries.any (·.1 == name) = true
  · have hfst : (entries.map fun e => if e.1 == name then (name, node) else e).map Prod.fst =
        entries.map Prod.fst := by
      rw [List.map_map]
      refine List.map_congr_left fun e _ => ?_
      by_cases he : e.1 = name
      · simp [he]
      · simp [he]
    rw [if_pos hany]
    refine .directory (hfst ▸ hdistinct) ?_ ?_
    · refine List.forall_mem_map.2 fun e he => ?_
      split
      · exact hname
      · exact hnames e he
    · refine List.forall_mem_map.2 fun e he => ?_
      split
      · exact hnode
      · exact hentries e he
  · have hnew : name ∉ entries.map Prod.fst := by
      intro hmem
      obtain ⟨e, he, rfl⟩ := List.mem_map.1 hmem
      exact hany (List.any_eq_true.2 ⟨e, he, beq_self_eq_true _⟩)
    rw [if_neg hany]
    refine .directory ?_ ?_ ?_
    · rw [List.map_append, List.map_singleton]
      refine List.nodup_append.2 ⟨hdistinct, List.pairwise_singleton _ name, ?_⟩
      rintro a ha b hb rfl
      have hname : a = name := List.mem_singleton.1 hb
      exact hnew (hname ▸ ha)
    · exact List.forall_mem_append.2 ⟨hnames, List.forall_mem_singleton.2 hname⟩
    · exact List.forall_mem_append.2 ⟨hentries, List.forall_mem_singleton.2 hnode⟩

theorem empty : (Node.directory []).WellFormed :=
  .directory List.nodup_nil (fun _ he => (List.not_mem_nil he).elim)
    fun _ he => (List.not_mem_nil he).elim

theorem put {names : List Text} {base : Node} (hnames : ∀ name ∈ names, IsFileName name)
    (hnode : node.WellFormed) (h : base.WellFormed) : (Node.put node names base).WellFormed := by
  fun_induction Node.put node names base with
  | case1 => exact hnode
  | case2 name rest entries ih =>
    obtain ⟨hname, hrest⟩ := List.forall_mem_cons.1 hnames
    refine h.setEntry hname (ih hrest ?_)
    cases hlookup : entries.lookup name with
    | none => exact empty
    | some inner => exact (h.ofLookup hlookup).2
  | case3 => exact h

theorem removeAt {names : List Text} {base : Node} (h : base.WellFormed) :
    (Node.removeAt names base).WellFormed := by
  fun_induction Node.removeAt names base with
  | case1 => exact h
  | case2 name entries =>
    obtain _ | _ | _ | ⟨hdistinct, hnames, hentries⟩ := h
    exact .directory (hdistinct.sublist (List.filter_sublist.map _))
      (fun e he => hnames e (List.mem_filter.1 he).1) fun e he => hentries e (List.mem_filter.1 he).1
  | case3 name rest entries hrest inner hlookup ih =>
    obtain ⟨hname, hinner⟩ := h.ofLookup hlookup
    exact h.setEntry hname (ih hinner)
  | case4 => exact h
  | case5 => exact h

end Node.WellFormed

namespace FileTree

variable {t : FileTree}

/-- The names at which a node is put that is written to a path: for a file those behind all links. -/
def writtenNames (t : FileTree) (p : Path) (node : Node) : List Text :=
  match node, t.canonicalPath p with
  | .file _, .ok target => target.names
  | _, _ => t.ownNames p

theorem WellFormed.write (h : t.WellFormed) {p : Path} {node : Node} (hnode : node.WellFormed)
    (hnames : ∀ name ∈ t.writtenNames p node, IsFileName name) : (t.write p node).WellFormed :=
  Node.WellFormed.put hnames hnode h

theorem WellFormed.remove (h : t.WellFormed) (p : Path) : (t.remove p).WellFormed :=
  Node.WellFormed.removeAt h

end FileTree

end RecordSkeleton
