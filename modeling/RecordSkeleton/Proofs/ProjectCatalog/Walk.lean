import Mathlib.Data.List.Lex
import Mathlib.Tactic.Choose
import RecordSkeleton.ProjectCatalog
import RecordSkeleton.Proofs.FileTree.Readable

/-!
# The walk below a root

The files below a readable directory are found as they are described: the covered files that are
reached through directories that are not left out. Their names come in lexicographic order.

1. The entries of a directory are visited in the strict order of their names (`pairwise_sorted`).
2. A description of the files below each entry makes one of the files below the directory
   (`lists_directory`).
3. The walk below a readable directory finds the files of such a description (`exists_filesIn`).
-/

namespace RecordSkeleton

/-! ## Runs that only record events -/

namespace Run

variable {τ ε ι : Type}

theorem forM_emitAll {l : List ι} {f : ι → Run τ ε Unit} {g : ι → List τ}
    (h : ∀ i ∈ l, f i = emitAll (g i)) : forM l f = emitAll (l.flatMap g) := by
  induction l with
  | nil => rfl
  | cons i l ih =>
    rw [List.forM_cons, h i List.mem_cons_self, ih fun j hj => h j (List.mem_cons_of_mem i hj),
      List.flatMap_cons]
    rfl

end Run

/-! ## The order of names -/

namespace Text

/-- The order of texts, code point by code point. -/
def Before : Text → Text → Prop := List.Lex fun x y => x.toNat < y.toNat

instance asymm_toNat : Std.Asymm fun x y : Char => x.toNat < y.toNat :=
  ⟨fun _ _ => Nat.lt_asymm⟩

instance trichotomous_toNat : Std.Trichotomous fun x y : Char => x.toNat < y.toNat :=
  ⟨fun _ _ hxy hyx => Char.toNat_inj.1 (by omega)⟩

instance asymm_before : Std.Asymm Before := List.Lex.asymm _

variable {a b c : Text}

theorem not_before (h : a.Before b) : ¬ b.Before a := asymm_before.asymm a b h

theorem Before.trans (h : a.Before b) (h' : b.Before c) : a.Before c :=
  List.lex_trans Nat.lt_trans h h'

theorem before_or_before (h : a ≠ b) : a.Before b ∨ b.Before a := by
  by_contra hneither
  rw [not_or] at hneither
  exact h ((List.Lex.trichotomous _).trichotomous a b hneither.1 hneither.2)

theorem not_before_trans (h : ¬ b.Before a) (h' : ¬ c.Before b) : ¬ c.Before a := by
  intro hca
  by_cases hbc : b = c
  · exact h (hbc ▸ hca)
  · exact h (((before_or_before hbc).resolve_right h').trans hca)

end Text

namespace ProjectScope

variable {scope : ProjectScope}

/-! ## The order of entries -/

theorem mem_sorted {entries : List (Text × Node)} {e : Text × Node} :
    e ∈ sorted entries ↔ e ∈ entries := (List.mergeSort_perm entries _).mem_iff

theorem lex_eq_true_iff (a b : Text) :
    List.lex a b (fun x y => x.toNat < y.toNat) = true ↔ a.Before b := by
  rw [List.lex_eq_true_iff_lex]
  simp only [decide_eq_true_eq]
  rfl

/-- Entries with distinct names are visited in the strict order of their names. -/
theorem pairwise_sorted {entries : List (Text × Node)} (hd : (entries.map Prod.fst).Nodup) :
    (sorted entries).Pairwise fun a b => a.1.Before b.1 := by
  have hle : ∀ a b : Text × Node,
      (!List.lex b.1 a.1 fun x y => x.toNat < y.toNat) = true ↔ ¬ b.1.Before a.1 := by
    intro a b
    rw [Bool.not_eq_true', Bool.eq_false_iff, ne_eq, lex_eq_true_iff]
  have hsorted : (sorted entries).Pairwise fun a b => ¬ b.1.Before a.1 := by
    refine (List.pairwise_mergeSort ?_ ?_ entries).imp fun h => (hle _ _).1 h
    · intro a b c hab hbc
      exact (hle a c).2 (Text.not_before_trans ((hle a b).1 hab) ((hle b c).1 hbc))
    · intro a b
      rw [Bool.or_eq_true, hle, hle]
      by_contra hboth
      rw [not_or, not_not, not_not] at hboth
      exact Text.not_before hboth.1 hboth.2
  have hne : (sorted entries).Pairwise fun a b => a.1 ≠ b.1 := by
    rw [← List.pairwise_map]
    exact (((List.mergeSort_perm entries _).map Prod.fst).nodup_iff).2 hd
  exact hsorted.imp₂ (fun _ _ hab hne => (Text.before_or_before hne).resolve_right hab) hne

/-! ## The files that a directory holds -/

/-- The file of a name in the last of some directories, one inside the other from `dir` on, is
found: its name is covered, and none of the directories is left out. -/
structure IsFound (scope : ProjectScope) (dir : Node) (dirs : List Text) (name : Text) : Prop where
  exists_file : ∃ found, dir.at? (dirs ++ [name]) = some found ∧ found.isDirectory = false
  covered : scope.covers name = true
  entered : ∀ d ∈ dirs, scope.skips d = false

/-- The names of all files that are found below a directory, in order. -/
structure Lists (scope : ProjectScope) (dir : Node) (listing : List (List Text)) : Prop where
  mem_iff : ∀ names, names ∈ listing ↔ ∃ dirs name, names = dirs ++ [name] ∧
    IsFound scope dir dirs name
  ordered : listing.Pairwise (List.Lex Text.Before)

/-- The names of all files that are found through one entry of a directory, in order. -/
structure ListsEntry (scope : ProjectScope) (e : Text × Node) (listing : List (List Text)) :
    Prop where
  mem_iff : ∀ names, names ∈ listing ↔
    names = [e.1] ∧ e.2.isDirectory = false ∧ scope.covers e.1 = true ∨
      ∃ dirs name, names = e.1 :: (dirs ++ [name]) ∧ scope.skips e.1 = false ∧
        IsFound scope e.2 dirs name
  ordered : listing.Pairwise (List.Lex Text.Before)

theorem isFound_nil_iff {entries : List (Text × Node)} {name : Text} :
    IsFound scope (.directory entries) [] name ↔
      ∃ found, entries.lookup name = some found ∧ found.isDirectory = false ∧
        scope.covers name = true := by
  constructor
  · rintro ⟨⟨found, hfound, hdir⟩, hcovered, -⟩
    rw [List.nil_append, Node.at?_singleton] at hfound
    exact ⟨found, hfound, hdir, hcovered⟩
  · rintro ⟨found, hfound, hdir, hcovered⟩
    refine ⟨⟨found, ?_, hdir⟩, hcovered, fun _ h => (List.not_mem_nil h).elim⟩
    rw [List.nil_append, Node.at?_singleton, hfound]

theorem isFound_cons_iff {entries : List (Text × Node)} {dir name : Text} {dirs : List Text} :
    IsFound scope (.directory entries) (dir :: dirs) name ↔
      ∃ inner, entries.lookup dir = some inner ∧ scope.skips dir = false ∧
        IsFound scope inner dirs name := by
  constructor
  · rintro ⟨⟨found, hfound, hdir⟩, hcovered, hentered⟩
    obtain ⟨hskip, hentered⟩ := List.forall_mem_cons.1 hentered
    obtain ⟨inner, hinner, hrest⟩ := Option.bind_eq_some_iff.1 hfound
    exact ⟨inner, hinner, hskip, ⟨found, hrest, hdir⟩, hcovered, hentered⟩
  · rintro ⟨inner, hinner, hskip, ⟨found, hfound, hdir⟩, hcovered, hentered⟩
    refine ⟨⟨found, ?_, hdir⟩, hcovered, List.forall_mem_cons.2 ⟨hskip, hentered⟩⟩
    rw [List.cons_append, Node.at?, hinner]
    exact hfound

/-- Nothing is found below what is no directory. -/
theorem not_isFound {node : Node} (hnode : node.isDirectory = false) (dirs : List Text)
    (name : Text) : ¬ IsFound scope node dirs name := by
  rintro ⟨⟨found, hfound, -⟩, -, -⟩
  have hne : dirs ++ [name] ≠ [] := List.append_ne_nil_of_right_ne_nil _ (List.cons_ne_nil _ _)
  obtain ⟨first, rest, hcons⟩ := List.exists_cons_of_ne_nil hne
  rw [hcons] at hfound
  obtain ⟨entries, -, rfl, -⟩ := Node.at?_cons_eq_some hfound
  cases hnode

/-! ## Descriptions of a directory -/

/-- Names that are listed through an entry start with its name. -/
theorem ListsEntry.head {e : Text × Node} {listing : List (List Text)}
    (h : ListsEntry scope e listing) {names : List Text} (hmem : names ∈ listing) :
    ∃ rest, names = e.1 :: rest := by
  rcases (h.mem_iff names).1 hmem with ⟨rfl, -⟩ | ⟨dirs, name, rfl, -⟩
  · exact ⟨[], rfl⟩
  · exact ⟨dirs ++ [name], rfl⟩

/-- What is found below a directory is found through its entries. -/
theorem lists_directory {entries : List (Text × Node)} (hd : (entries.map Prod.fst).Nodup)
    {through : Text × Node → List (List Text)}
    (h : ∀ e ∈ entries, ListsEntry scope e (through e)) :
    Lists scope (.directory entries) ((sorted entries).flatMap through) := by
  constructor
  · intro names
    rw [List.mem_flatMap]
    constructor
    · rintro ⟨e, he, hnames⟩
      have he := mem_sorted.1 he
      have hlookup := Node.lookup_of_mem hd he
      rcases ((h e he).mem_iff names).1 hnames with
        ⟨rfl, hdir, hcovered⟩ | ⟨dirs, name, rfl, hskip, hfound⟩
      · exact ⟨[], e.1, rfl, isFound_nil_iff.2 ⟨e.2, hlookup, hdir, hcovered⟩⟩
      · exact ⟨e.1 :: dirs, name, rfl, isFound_cons_iff.2 ⟨e.2, hlookup, hskip, hfound⟩⟩
    · rintro ⟨dirs, name, rfl, hfound⟩
      cases dirs with
      | nil =>
        obtain ⟨found, hlookup, hdir, hcovered⟩ := isFound_nil_iff.1 hfound
        have he := Node.mem_of_lookup hlookup
        exact ⟨_, mem_sorted.2 he, ((h _ he).mem_iff _).2 (Or.inl ⟨rfl, hdir, hcovered⟩)⟩
      | cons dir dirs =>
        obtain ⟨inner, hlookup, hskip, hinner⟩ := isFound_cons_iff.1 hfound
        have he := Node.mem_of_lookup hlookup
        exact ⟨_, mem_sorted.2 he,
          ((h _ he).mem_iff _).2 (Or.inr ⟨dirs, name, rfl, hskip, hinner⟩)⟩
  · -- Names through one entry are in order, and those through two are in the order of these.
    refine List.pairwise_flatMap.2 ⟨fun e he => (h e (mem_sorted.1 he)).ordered, ?_⟩
    refine (pairwise_sorted hd).imp_of_mem fun {a b} ha hb hlt x hx y hy => ?_
    obtain ⟨rest, rfl⟩ := (h a (mem_sorted.1 ha)).head hx
    obtain ⟨rest', rfl⟩ := (h b (mem_sorted.1 hb)).head hy
    exact List.Lex.rel hlt

/-- An entry that is no directory is listed when its name is covered. -/
theorem listsEntry_file {e : Text × Node} (he : e.2.isDirectory = false) :
    ListsEntry scope e (if scope.covers e.1 then [[e.1]] else []) := by
  constructor
  · intro names
    constructor
    · intro hnames
      split at hnames
      · exact Or.inl ⟨List.mem_singleton.1 hnames, he, ‹_›⟩
      · exact (List.not_mem_nil hnames).elim
    · rintro (⟨rfl, -, hcovered⟩ | ⟨dirs, name, -, -, hfound⟩)
      · rw [if_pos hcovered]
        exact List.mem_singleton_self _
      · exact (not_isFound he dirs name hfound).elim
  · split
    · exact List.pairwise_singleton _ _
    · exact .nil

/-- Through a directory that is left out nothing is listed. -/
theorem listsEntry_skipped {name : Text} {inner : List (Text × Node)}
    (hskip : scope.skips name = true) : ListsEntry scope (name, .directory inner) [] := by
  refine ⟨fun names => ⟨fun h => (List.not_mem_nil h).elim, ?_⟩, .nil⟩
  rintro (⟨-, hdir, -⟩ | ⟨dirs, name, -, hentered, -⟩)
  · cases hdir
  · rw [hskip] at hentered
    cases hentered

/-- Through another directory its files are listed. -/
theorem listsEntry_directory {name : Text} {inner : List (Text × Node)}
    {listing : List (List Text)} (hskip : scope.skips name = false)
    (h : Lists scope (.directory inner) listing) :
    ListsEntry scope (name, .directory inner) (listing.map (name :: ·)) := by
  constructor
  · intro names
    rw [List.mem_map]
    constructor
    · rintro ⟨below, hbelow, rfl⟩
      obtain ⟨dirs, last, rfl, hfound⟩ := (h.mem_iff below).1 hbelow
      exact Or.inr ⟨dirs, last, rfl, hskip, hfound⟩
    · rintro (⟨-, hdir, -⟩ | ⟨dirs, last, rfl, -, hfound⟩)
      · cases hdir
      · exact ⟨_, (h.mem_iff _).2 ⟨dirs, last, rfl, hfound⟩, rfl⟩
  · exact List.pairwise_map.2 (h.ordered.imp fun hlt => List.Lex.cons hlt)

/-! ## The walk -/

/-- What is done at one entry of a directory that can be listed. -/
def visit (scope : ProjectScope) (t : FileTree) (links : Nat) (base : List Text) (path : Path)
    (e : Text × Node) : Run Path CatalogError Unit :=
  if FileTree.pathLimit < (path.child e.1).byteLength then scope.asMissing path e.1 .nameTooLong
  else match t.access.search base with
    | some cause => scope.asMissing path e.1 (.refused cause)
    | none => match e.2 with
      | .directory inner =>
        if scope.skips e.1 then pure ()
        else filesIn scope t links (base ++ [e.1]) (path.child e.1) inner
      | .link _ =>
        match t.follow links base [e.1] with
        | .ok ⟨left, names, .directory inner⟩ =>
          if scope.skips e.1 then pure ()
          else if left < links then filesIn scope t left names (path.child e.1) inner
          else pure ()
        | .ok _ => scope.asFile path e.1
        | .error cause => scope.asMissing path e.1 cause
      | .file _ | .device => scope.asFile path e.1

section Listed

variable {t : FileTree} {base : List Text}

theorem filesIn_of_refused {cause : Refusal} (hread : t.access.read base = some cause)
    (scope : ProjectScope) (links : Nat) (path : Path) (entries : List (Text × Node)) :
    filesIn scope t links base path entries =
      .ofResult (.error (.unlistable path (.refused cause))) := by
  rw [filesIn, hread]

/-- A directory that can be listed is walked entry by entry. -/
theorem filesIn_eq (hread : t.access.read base = none) (scope : ProjectScope) (links : Nat)
    (path : Path) (entries : List (Text × Node)) :
    filesIn scope t links base path entries =
      forM (sorted entries) (visit scope t links base path) := by
  have hattach : forM (sorted entries) (visit scope t links base path) =
      forM (sorted entries).attach fun e => visit scope t links base path e.val := by
    have h := List.forM_map (l := (sorted entries).attach) (g := Subtype.val)
      (f := visit scope t links base path)
    rwa [List.attach_map_subtype_val] at h
  rw [filesIn, hread]
  dsimp only
  rw [List.forM_eq_forM, hattach]
  refine congrArg _ (funext fun ⟨⟨name, node⟩, hmem⟩ => ?_)
  cases node <;> rfl

end Listed

variable {t : FileTree} {links : Nat} {base : List Text} {path : Path}

theorem visit_directory {name : Text} {inner : List (Text × Node)}
    (hshort : (path.child name).byteLength ≤ FileTree.pathLimit)
    (hsearch : t.access.search base = none) :
    visit scope t links base path (name, .directory inner) =
      if scope.skips name then pure ()
      else filesIn scope t links (base ++ [name]) (path.child name) inner := by
  unfold visit
  rw [if_neg (Nat.not_lt.2 hshort), hsearch]

theorem visit_file {name : Text} {node : Node} (hdir : node.isDirectory = false)
    (h : ReadableAt (path.child name) node) (hsearch : t.access.search base = none) :
    visit scope t links base path (name, node) = scope.asFile path name := by
  unfold visit
  rw [if_neg (Nat.not_lt.2 h.byteLength_le), hsearch]
  cases h with
  | file | device => rfl
  | directory => cases hdir

/-- A visit finds the files that are listed through the entry, if the walk does so inside. -/
theorem exists_visit {e : Text × Node} (h : ReadableAt (path.child e.1) e.2)
    (hsearch : t.access.search base = none) (hinner : ∀ inner, e.2 = .directory inner → ∃ listing, Lists scope e.2 listing ∧
      filesIn scope t links (base ++ [e.1]) (path.child e.1) inner =
        Run.emitAll (listing.map (path.child e.1).below)) :
    ∃ listing, ListsEntry scope e listing ∧
      visit scope t links base path e = Run.emitAll (listing.map path.below) := by
  obtain ⟨name, node⟩ := e
  cases hdir : node.isDirectory with
  | false =>
    refine ⟨_, listsEntry_file hdir, ?_⟩
    rw [visit_file hdir h hsearch]
    unfold asFile
    split
    · rfl
    · rfl
  | true =>
    obtain ⟨inner, rfl⟩ := Node.exists_of_isDirectory hdir
    rw [visit_directory h.byteLength_le hsearch]
    cases hskip : scope.skips name with
    | true => exact ⟨[], listsEntry_skipped hskip, rfl⟩
    | false =>
      obtain ⟨listing, hlists, hfiles⟩ := hinner inner rfl
      refine ⟨_, listsEntry_directory hskip hlists, ?_⟩
      rw [if_neg Bool.false_ne_true, hfiles, List.map_map]
      exact congrArg _ (List.map_congr_left fun names _ => path.child_below name names)

/-- The walk below a readable directory finds the files that are listed below it. -/
theorem exists_filesIn (scope : ProjectScope) {node : Node} (h : ReadableAt path node)
    (links : Nat) {entries : List (Text × Node)} (hnode : node = .directory entries)
    {base : List Text} (hgrants : t.access.Grants base node) :
    ∃ listing, Lists scope node listing ∧
      filesIn scope t links base path entries = Run.emitAll (listing.map path.below) := by
  induction h generalizing base entries with
  | file | device => cases hnode
  | @directory path entries _ hdistinct _ hentry ih =>
    cases hnode
    have hinside : ∀ e ∈ entries, t.access.Grants (base ++ [e.1]) e.2 := fun e he =>
      hgrants.at? ((Node.at?_singleton entries e.1).trans (Node.lookup_of_mem hdistinct he))
    have hvisit := fun e he => exists_visit (hentry e he) hgrants.search_self fun inner hinner =>
      ih e he hinner (hinside e he)
    choose! through hthrough using hvisit
    refine ⟨_, lists_directory hdistinct fun e he => (hthrough e he).1, ?_⟩
    rw [filesIn_eq hgrants.read_self, List.map_flatMap]
    exact Run.forM_emitAll fun e he => (hthrough e (mem_sorted.1 he)).2

end ProjectScope

end RecordSkeleton
