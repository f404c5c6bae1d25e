import RecordSkeleton.FileTree

/-!
# Readable trees

A tree below a path is readable when there are no links in it, all of its names and paths can be used,
and nothing in it is refused.

1. Names that are followed from the end of others are followed from the place where these have led
   (`FileTree.follow_append`).
2. Below a readable directory a path leads to what stands at its names (`FileTree.place_below`), so each
   file there can be read (`FileTree.exists_read`).
-/

namespace RecordSkeleton

/-! ## Paths below a path -/

/-- The path of names inside. -/
def Path.below (p : Path) (names : List Text) : Path := ⟨p.slashes, p.names ++ names⟩

@[simp] theorem Path.below_nil (p : Path) : p.below [] = p := by
  unfold below
  rw [List.append_nil]

theorem Path.child_below (p : Path) (name : Text) (names : List Text) :
    (p.child name).below names = p.below (name :: names) := by
  unfold below child
  rw [List.append_assoc]
  rfl

/-- The last name of a path below a path. -/
theorem Path.name_below (p : Path) (names : List Text) (name : Text) :
    (p.below (names ++ [name])).name = name := by
  unfold below Path.name
  simp only [← List.append_assoc, List.getLast?_concat, Option.getD_some]

theorem Path.hasNull_below (p : Path) (names : List Text) :
    (p.below names).hasNull = (p.hasNull || names.any ('\x00' ∈ ·)) := by
  unfold hasNull below
  rw [List.any_append]

/-! ## Nodes below a node -/

namespace Node

/-- Whether a node is a directory. -/
def isDirectory : Node → Bool
  | directory _ => true
  | _ => false

theorem exists_of_isDirectory {node : Node} (h : node.isDirectory = true) :
    ∃ entries, node = directory entries := by
  cases node with
  | directory entries => exact ⟨entries, rfl⟩
  | file | link | device => cases h

theorem at?_nil (node : Node) : node.at? [] = some node := by
  cases node <;> rfl

theorem at?_append (node : Node) (names rest : List Text) :
    node.at? (names ++ rest) = (node.at? names).bind (·.at? rest) := by
  fun_induction at? node names with
  | case1 node => rfl
  | case2 entries name names ih =>
    rw [List.cons_append, at?]
    cases entries.lookup name with
    | none => rfl
    | some inner => exact ih inner
  | case3 node name names hnode =>
    cases node with
    | directory entries => exact absurd rfl (hnode entries)
    | _ => rfl

theorem at?_singleton (entries : List (Text × Node)) (name : Text) :
    (directory entries).at? [name] = entries.lookup name := by
  rw [at?]
  cases entries.lookup name with
  | none => rfl
  | some inner => exact at?_nil inner

/-- Names lead on only from a directory. -/
theorem at?_cons_eq_some {node found : Node} {name : Text} {rest : List Text}
    (h : node.at? (name :: rest) = some found) :
    ∃ entries inner, node = directory entries ∧ entries.lookup name = some inner ∧
      inner.at? rest = some found := by
  cases node with
  | directory entries =>
    obtain ⟨inner, hinner, hrest⟩ := Option.bind_eq_some_iff.1 h
    exact ⟨entries, inner, rfl, hinner, hrest⟩
  | _ => cases h

theorem mem_of_lookup {entries : List (Text × Node)} {name : Text} {node : Node}
    (h : entries.lookup name = some node) : (name, node) ∈ entries := by
  obtain ⟨before, after, rfl, -⟩ := List.lookup_eq_some_iff.1 h
  exact List.mem_append_right _ List.mem_cons_self

/-- An entry is found by its name when the names are distinct. -/
theorem lookup_of_mem {entries : List (Text × Node)} (hd : (entries.map Prod.fst).Nodup)
    {e : Text × Node} (he : e ∈ entries) : entries.lookup e.1 = some e.2 := by
  obtain ⟨before, after, rfl⟩ := List.append_of_mem he
  refine List.lookup_eq_some_iff.2 ⟨before, after, rfl, fun p hp => bne_iff_ne.2 fun heq => ?_⟩
  rw [List.map_append, List.map_cons, List.nodup_append] at hd
  exact hd.2.2 _ (List.mem_map_of_mem hp) _ List.mem_cons_self heq.symm

end Node

/-! ## Readable trees -/

/-- A name that an entry of a directory can have. -/
structure IsEntryName (name : Text) : Prop where
  ne_nil : name ≠ []
  ne_dot : name ≠ ['.']
  ne_dots : name ≠ ['.', '.']
  no_null : '\x00' ∉ name
  short : Text.byteLength name ≤ FileTree.nameLimit

instance decidableIsEntryName (name : Text) : Decidable (IsEntryName name) :=
  decidable_of_iff
    (name ≠ [] ∧ name ≠ ['.'] ∧ name ≠ ['.', '.'] ∧ '\x00' ∉ name ∧
      Text.byteLength name ≤ FileTree.nameLimit)
    ⟨fun ⟨hnil, hdot, hdots, hnull, hshort⟩ => ⟨hnil, hdot, hdots, hnull, hshort⟩,
      fun ⟨hnil, hdot, hdots, hnull, hshort⟩ => ⟨hnil, hdot, hdots, hnull, hshort⟩⟩

/-- There are no links at and below a path, and all names and paths there can be used. -/
inductive ReadableAt : Path → Node → Prop
  | file {p : Path} (content : List UInt8) (hp : p.byteLength ≤ FileTree.pathLimit) :
    ReadableAt p (.file content)
  | device {p : Path} (hp : p.byteLength ≤ FileTree.pathLimit) : ReadableAt p .device
  /-- A directory whose entries have distinct names. -/
  | directory {p : Path} {entries : List (Text × Node)} (hp : p.byteLength ≤ FileTree.pathLimit)
    (hdistinct : (entries.map Prod.fst).Nodup) (hname : ∀ e ∈ entries, IsEntryName e.1)
    (hentry : ∀ e ∈ entries, ReadableAt (p.child e.1) e.2) : ReadableAt p (.directory entries)

namespace ReadableAt

variable {p : Path} {node : Node}

/-- A directory with one entry. -/
theorem single {name : Text} (hp : p.byteLength ≤ FileTree.pathLimit) (hname : IsEntryName name)
    (h : ReadableAt (p.child name) node) : ReadableAt p (.directory [(name, node)]) :=
  .directory hp (List.pairwise_singleton _ _) (List.forall_mem_singleton.2 hname)
    (List.forall_mem_singleton.2 h)

theorem byteLength_le (h : ReadableAt p node) : p.byteLength ≤ FileTree.pathLimit := by
  cases h <;> assumption

theorem ne_link (h : ReadableAt p node) (target : Text) : node ≠ .link target := by
  rintro rfl
  cases h

/-- What is said of a path is said of the paths below. -/
theorem at? (h : ReadableAt p node) {names : List Text} {found : Node}
    (hfound : node.at? names = some found) :
    ReadableAt (p.below names) found ∧ ∀ name ∈ names, IsEntryName name := by
  induction names generalizing p node with
  | nil =>
    rw [Node.at?_nil, Option.some.injEq] at hfound
    rw [Path.below_nil, ← hfound]
    exact ⟨h, fun _ hname => (List.not_mem_nil hname).elim⟩
  | cons name names ih =>
    obtain ⟨entries, inner, rfl, hinner, hrest⟩ := Node.at?_cons_eq_some hfound
    have hmem := Node.mem_of_lookup hinner
    cases h with
    | directory _ _ hname hentry =>
      obtain ⟨hbelow, hnames⟩ := ih (hentry _ hmem) hrest
      rw [Path.child_below] at hbelow
      exact ⟨hbelow, List.forall_mem_cons.2 ⟨hname _ hmem, hnames⟩⟩

end ReadableAt

/-- Nothing is refused of a node that stands at some names, and of what is inside. -/
structure Access.Grants (a : Access) (base : List Text) (node : Node) : Prop where
  read : ∀ names found, node.at? names = some found → a.read (base ++ names) = none
  search : ∀ names entries, node.at? names = some (.directory entries) →
    a.search (base ++ names) = none

theorem Access.grants_full (base : List Text) (node : Node) : Access.full.Grants base node :=
  ⟨fun _ _ _ => rfl, fun _ _ _ => rfl⟩

namespace Access.Grants

variable {a : Access} {base : List Text} {node : Node}

theorem read_self (h : a.Grants base node) : a.read base = none := by
  have hread := h.read [] node (Node.at?_nil node)
  rwa [List.append_nil] at hread

theorem search_self {entries : List (Text × Node)} (h : a.Grants base (.directory entries)) :
    a.search base = none := by
  have hsearch := h.search [] entries (Node.at?_nil _)
  rwa [List.append_nil] at hsearch

theorem at? (h : a.Grants base node) {names : List Text} {found : Node}
    (hfound : node.at? names = some found) : a.Grants (base ++ names) found := by
  constructor
  · intro rest inner hinner
    rw [List.append_assoc]
    refine h.read _ inner ?_
    rw [Node.at?_append, hfound]
    exact hinner
  · intro rest entries hinner
    rw [List.append_assoc]
    refine h.search _ entries ?_
    rw [Node.at?_append, hfound]
    exact hinner

end Access.Grants

/-! ## Following names -/

namespace FileTree

variable {t : FileTree}

/-- Following leads to what stands at the names that it gives. -/
theorem at?_of_follow {links : Nat} {base names : List Text} {place : Place}
    (h : t.follow links base names = .ok place) : t.root.at? place.names = some place.node := by
  fun_induction follow t links base names with
  | case1 links base node hnode =>
    cases h
    exact hnode
  | case3 links base rest entries hbase ih => exact ih h
  | case5 links base rest entries hbase hnil hsearch ih => exact ih h
  | case6 links base rest entries hbase hsearch hnil hdot ih => exact ih h
  | case10 base name rest entries hbase hnil hsearch hdot hdots hname target hlookup left ih =>
    exact ih h
  | case11 links base name rest entries hbase hnil hsearch hdot hdots hname node hlink hlookup ih =>
    exact ih h
  | case2 | case4 | case7 | case8 | case9 | case12 => cases h

/-- Names behind others are followed from where these have led. -/
theorem follow_append {links : Nat} {base names : List Text} {place : Place}
    (h : t.follow links base names = .ok place) (rest : List Text) :
    t.follow links base (names ++ rest) = t.follow place.linksLeft place.names rest := by
  fun_induction follow t links base names with
  | case1 links base node hnode =>
    cases h
    rfl
  | case3 links base names entries hbase ih =>
    rw [List.cons_append, follow, hbase]
    exact ih h
  | case5 links base names entries hbase hsearch hnil ih =>
    rw [List.cons_append, follow, hbase]
    simp only [if_neg hnil, hsearch]
    exact ih h
  | case6 links base names entries hbase hsearch hnil hdot ih =>
    rw [List.cons_append, follow, hbase]
    simp only [if_neg hnil, hsearch]
    exact ih h
  | case10 base name names entries hbase hnil hsearch hdot hdots hname target hlookup left ih =>
    rw [List.cons_append, follow, hbase]
    simp only [if_neg hnil, hsearch, if_neg hdot, if_neg hdots, if_neg hname, hlookup]
    rw [← List.append_assoc]
    exact ih h
  | case11 links base name names entries hbase hnil hsearch hdot hdots hname node hlink hlookup ih =>
    rw [List.cons_append, follow, hbase]
    simp only [if_neg hnil, hsearch, if_neg hdot, if_neg hdots, if_neg hname, hlookup]
    exact ih h
  | case2 | case4 | case7 | case8 | case9 | case12 => cases h

section Cons

variable {links : Nat} {base : List Text} {entries : List (Text × Node)} {name : Text}
  (hbase : t.root.at? base = some (.directory entries)) (hname : IsEntryName name)

include hbase hname

/-- No name is looked up in a directory that may not be searched. -/
theorem follow_of_refused {cause : Refusal} (hsearch : t.access.search base = some cause)
    (rest : List Text) : t.follow links base (name :: rest) = .error (.refused cause) := by
  rw [follow, hbase]
  simp only [if_neg hname.ne_nil, hsearch]

/-- What is no link is gone into. -/
theorem follow_into {node : Node} (hsearch : t.access.search base = none)
    (hlookup : entries.lookup name = some node) (hlink : ∀ target, node ≠ .link target)
    (rest : List Text) :
    t.follow links base (name :: rest) = t.follow links (base ++ [name]) rest := by
  rw [follow, hbase]
  cases node with
  | link target => exact absurd rfl (hlink target)
  | _ =>
    simp only [if_neg hname.ne_nil, hsearch, if_neg hname.ne_dot, if_neg hname.ne_dots,
      if_neg (Nat.not_lt.2 hname.short), hlookup]

end Cons

/-- Below a readable node names lead to what stands at them, and no link is used up. -/
theorem follow_below {p : Path} {node : Node} (h : ReadableAt p node) (links : Nat)
    {base names : List Text} (hbase : t.root.at? base = some node)
    (hgrants : t.access.Grants base node) {found : Node} (hfound : node.at? names = some found) :
    t.follow links base names = .ok ⟨links, base ++ names, found⟩ := by
  induction names generalizing p node base with
  | nil =>
    rw [Node.at?_nil] at hfound
    rw [follow, hbase, hfound, List.append_nil]
  | cons name names ih =>
    obtain ⟨entries, inner, rfl, hinner, hrest⟩ := Node.at?_cons_eq_some hfound
    have hentry : (Node.directory entries).at? [name] = some inner := by
      rw [Node.at?_singleton, hinner]
    obtain ⟨hreadable, hnames⟩ := h.at? hentry
    have hhere : t.root.at? (base ++ [name]) = some inner := by
      rw [Node.at?_append, hbase]
      exact hentry
    rw [follow_into hbase (hnames name List.mem_cons_self) hgrants.search_self hinner
      hreadable.ne_link, ih hreadable hhere (hgrants.at? hentry) hrest, List.append_assoc]
    rfl

/-! ## Paths below a readable directory -/

theorem exists_place {p : Path} {node : Node} (h : t.node? p = some node) :
    ∃ place, t.place p = .ok place ∧ place.node = node := by
  unfold node? at h
  cases hplace : t.place p with
  | error e =>
    rw [hplace] at h
    cases h
  | ok place =>
    rw [hplace] at h
    exact ⟨place, rfl, Option.some.inj h⟩

/-- What follows a path to a readable node leads to what stands at it. -/
theorem place_below {root : Path} {place : Place} (hplace : t.place root = .ok place)
    (h : ReadableAt root place.node) (hgrants : t.access.Grants place.names place.node)
    {names : List Text} {found : Node} (hfound : place.node.at? names = some found) :
    t.place (root.below names) = .ok ⟨place.linksLeft, place.names ++ names, found⟩ := by
  obtain ⟨hbelow, hnames⟩ := h.at? hfound
  unfold FileTree.place at hplace ⊢
  split at hplace
  · cases hplace
  · rename_i hroot
    split at hplace
    · cases hplace
    · have hnull : (root.below names).hasNull = false := by
        rw [Path.hasNull_below, Bool.eq_false_iff.2 hroot, Bool.false_or, List.any_eq_false]
        intro name hmem
        exact fun hin => (hnames name hmem).no_null (of_decide_eq_true hin)
      rw [hnull, if_neg Bool.false_ne_true, if_neg (Nat.not_lt.2 hbelow.byteLength_le)]
      show t.follow linkLimit (t.baseOf root) (root.names ++ names) = _
      rw [follow_append hplace]
      exact follow_below h _ (at?_of_follow hplace) hgrants hfound

theorem node?_of_place {p : Path} {place : Place} (h : t.place p = .ok place) :
    t.node? p = some place.node := by
  unfold node?
  rw [h]
  rfl

theorem hasPath_of_place {p : Path} {place : Place} (h : t.place p = .ok place) :
    t.hasPath p = .ok true := by
  unfold hasPath holds
  rw [h]

/-- In a tree that is readable as a whole, paths that are read from the root lead to what stands at their
names. -/
theorem place_from_root {slashes : Nat} (hbase : slashes = 0 → t.current = [])
    (h : ReadableAt ⟨slashes, []⟩ t.root) (hgrants : t.access.Grants [] t.root) {names : List Text}
    {found : Node} (hfound : t.root.at? names = some found) :
    t.place ⟨slashes, names⟩ = .ok ⟨linkLimit, names, found⟩ := by
  have hroot : t.place ⟨slashes, []⟩ = .ok ⟨linkLimit, [], t.root⟩ := by
    have hbaseOf : t.baseOf ⟨slashes, []⟩ = [] := ite_eq_right_iff.2 hbase
    have hnull : Path.hasNull ⟨slashes, []⟩ = false := rfl
    unfold place
    rw [hnull, if_neg Bool.false_ne_true, if_neg (Nat.not_lt.2 h.byteLength_le), hbaseOf]
    show t.follow linkLimit [] [] = _
    rw [follow, Node.at?_nil]
  exact place_below hroot h hgrants hfound

theorem place_of_readable (h : ReadableAt ⟨1, []⟩ t.root) (hgrants : t.access.Grants [] t.root)
    {names : List Text} {found : Node} (hfound : t.root.at? names = some found) :
    t.place ⟨1, names⟩ = .ok ⟨linkLimit, names, found⟩ :=
  place_from_root (fun hzero => absurd hzero Nat.one_ne_zero) h hgrants hfound

/-- What stands below a readable node, and is no directory, can be read. -/
theorem exists_read {root : Path} {place : Place} (hplace : t.place root = .ok place)
    (h : ReadableAt root place.node) (hgrants : t.access.Grants place.names place.node)
    {names : List Text} {found : Node} (hfound : place.node.at? names = some found)
    (hdir : found.isDirectory = false) : ∃ bytes, t.read (root.below names) = .ok bytes := by
  unfold read
  rw [place_below hplace h hgrants hfound]
  simp only [hgrants.read names found hfound]
  cases found with
  | file content => exact ⟨content, rfl⟩
  | link target => exact absurd rfl ((h.at? hfound).1.ne_link target)
  | device => exact ⟨[], rfl⟩
  | directory entries => cases hdir

end FileTree

end RecordSkeleton
