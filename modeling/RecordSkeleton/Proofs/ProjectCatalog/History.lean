import Mathlib.Data.List.DropRight
import Mathlib.Data.List.Induction
import RecordSkeleton.Proofs.ProjectCatalog.Index

/-!
# The history of a catalog

A catalog is asked and refreshed while the files around it change. What it answers from is a snapshot:
the files as they were at the first look-up that returned, since the catalog is new or was refreshed
last.

1. A new catalog answers from the source files of its roots, or fails because of what is in the way
   there (`ProjectCatalog.answers_new`).
2. In each step the catalog keeps the index of the snapshot, and of nothing else
   (`ProjectCatalog.Holds.extend`).
3. So each look-up in a history answers as a new catalog would from the snapshot, or from the files
   as they are when there is none (`ProjectCatalog.history_snapshots`).
4. A root of which it cannot be told whether something stands there ends a look-up with an error that is
   none of the catalog's own (`ProjectCatalog.answerNew_of_withholds`).
-/

namespace RecordSkeleton

/-- Whether an error is one of the catalog's own. The others come from asking about a path, and pass
through it. -/
def CatalogError.isOwn : CatalogError → Bool
  | noRoot _ | unlistable _ _ | unreadable _ _ => true
  | inaccessible _ => false

namespace ProjectCatalog

variable {scope : ProjectScope} {t : FileTree}

/-! ## A new catalog -/

/-- What a new catalog answers: the declarations of a name in the source files of all roots, if nothing
is in the way at any of them, and else an error that tells what is. -/
inductive Answers (scope : ProjectScope) (t : FileTree) (name : Text) :
    Except CatalogError (List Declaration) → Prop
  | found (h : ∀ root ∈ scope.sourceRoots ++ scope.libraryRoots, scope.IsIndex t root) :
    Answers scope t name (.ok (Catalog.named (scope.declared t) name))
  | failed {root : Path} {e : CatalogError} (hroot : root ∈ scope.sourceRoots ++ scope.libraryRoots)
    (h : scope.Obstacle t root e) : Answers scope t name (.error e)

/-- What a new catalog answers. -/
def answerNew (scope : ProjectScope) (t : FileTree) (name : Text) :
    Except CatalogError (List Declaration) :=
  (find ⟨scope, none⟩ FormatRegistry.standard t name).1.result

theorem answerNew_eq (scope : ProjectScope) (t : FileTree) (name : Text) :
    answerNew scope t name =
      (scope.index FormatRegistry.standard t).result.map (Catalog.named · name) := by
  unfold answerNew
  rw [find_new, Run.map_eq]

theorem exists_answerNew (settings : Settings) (own foreign : List Path)
    (hroots : ∀ root ∈ own ++ foreign, IsReadableRoot t root) (name : Text) :
    ∃ ds, answerNew (.ofSettings settings own foreign) t name = .ok ds := by
  obtain ⟨ds, hds⟩ := ProjectScope.exists_index settings own foreign hroots
  rw [answerNew_eq, hds]
  exact ⟨_, rfl⟩

theorem answers_new (hwf : t.WellFormed) (name : Text) :
    Answers scope t name (answerNew scope t name) := by
  rw [answerNew_eq]
  cases hresult : (scope.index FormatRegistry.standard t).result with
  | ok ds =>
    obtain ⟨hindex, rfl⟩ := ProjectScope.isIndex_of_index hwf hresult
    exact .found hindex
  | error e =>
    obtain ⟨root, hroot, hobstacle⟩ := ProjectScope.obstacle_of_index hwf hresult
    exact .failed hroot hobstacle

theorem Answers.error_iff {name : Text} {answer : Except CatalogError (List Declaration)}
    (h : Answers scope t name answer) :
    (∃ e, answer = .error e) ↔
      ∃ root ∈ scope.sourceRoots ++ scope.libraryRoots, ∃ e, scope.Obstacle t root e := by
  cases h with
  | found hindex =>
    refine ⟨fun ⟨_, he⟩ => (nomatch he), ?_⟩
    rintro ⟨root, hroot, e, hobstacle⟩
    exact absurd hobstacle ((hindex root hroot).not_obstacle e)
  | failed hroot hobstacle => exact ⟨fun _ => ⟨_, hroot, _, hobstacle⟩, fun _ => ⟨_, rfl⟩⟩

/-- It cannot be told whether something stands at a root or at a path that the walk from it comes to: it
is too long, or a directory on the way may not be searched. -/
def IsWithheld (scope : ProjectScope) (t : FileTree) (fault : PathError) : Prop :=
  ∃ root ∈ scope.sourceRoots ++ scope.libraryRoots, ∃ p,
    (p = root ∨ scope.Meets t root p) ∧ t.Withholds p fault

/-- A catalog fails with an error of its own, or with that of a path of which nothing can be told. -/
theorem Answers.isOwn_or {name : Text} {e : CatalogError} (h : Answers scope t name (.error e)) :
    e.isOwn = true ∨ ∃ fault, IsWithheld scope t fault ∧ e = .inaccessible fault := by
  cases h with
  | failed hroot hobstacle =>
    cases hobstacle with
    | withheld hwithheld => exact Or.inr ⟨_, ⟨_, hroot, _, Or.inl rfl, hwithheld⟩, rfl⟩
    | stopped hstops =>
      cases hstops with
      | closed => exact Or.inl rfl
      | withheld hmet hwithheld => exact Or.inr ⟨_, ⟨_, hroot, _, Or.inr hmet, hwithheld⟩, rfl⟩
    | missing | unlistable | unreadable => exact Or.inl rfl

/-! ## Steps -/

/-- What is done with a catalog, or to the files around it. -/
inductive Step where
  | find (name : Text)
  | refresh
  | write (p : Path) (node : Node)
  | remove (p : Path)
  /-- Sets what is refused from now on. -/
  | permit (access : Access)

/-- The files after a step. -/
def Step.change : Step → FileTree → FileTree
  | .write p node, t => t.write p node
  | .remove p, t => t.remove p
  | .permit access, t => { t with access := access }
  | .find _, t | .refresh, t => t

/-- What a step writes is well-formed, and its names are such that files can have them. -/
def Step.IsSound (step : Step) (t : FileTree) : Prop :=
  ∀ p node, step = .write p node →
    node.WellFormed ∧ ∀ name ∈ t.writtenNames p node, IsFileName name

theorem Step.wellFormed_change {step : Step} (h : t.WellFormed) (hsound : step.IsSound t) :
    (step.change t).WellFormed := by
  cases step with
  | find | refresh | permit => exact h
  | write p node =>
    obtain ⟨hnode, hnames⟩ := hsound p node rfl
    exact h.write hnode hnames
  | remove p => exact h.remove p

/-- One step in the course of a history. -/
structure Turn where
  step : Step
  /-- The files before the step. -/
  tree : FileTree
  /-- What the catalog has answered, if it was asked. -/
  answer : Option (Except CatalogError (List Declaration))
  /-- The catalog after the step. -/
  after : ProjectCatalog

/-- Whether a look-up has returned in a turn. -/
def Turn.hasReturned (u : Turn) : Bool :=
  match u.answer with
  | some (.ok _) => true
  | _ => false

/-- Whether the catalog was refreshed in a turn. -/
def Turn.isRefresh (u : Turn) : Bool :=
  match u.step with
  | .refresh => true
  | _ => false

/-- One step with a catalog. -/
def Step.turn (c : ProjectCatalog) (t : FileTree) : Step → Turn
  | .find name =>
    let (run, after) := c.find .standard t name
    ⟨.find name, t, some run.result, after⟩
  | .refresh => ⟨.refresh, t, none, c.refresh⟩
  | .write p node => ⟨.write p node, t, none, c⟩
  | .remove p => ⟨.remove p, t, none, c⟩
  | .permit access => ⟨.permit access, t, none, c⟩

@[simp] theorem Step.turn_step (c : ProjectCatalog) (t : FileTree) (step : Step) :
    (step.turn c t).step = step := by
  cases step <;> rfl

@[simp] theorem Step.turn_tree (c : ProjectCatalog) (t : FileTree) (step : Step) :
    (step.turn c t).tree = t := by
  cases step <;> rfl

/-- The steps so far, with the files and the catalog after them. -/
structure History where
  turns : List Turn := []
  tree : FileTree
  catalog : ProjectCatalog

/-- The history with one more step. -/
def History.extend (h : History) (step : Step) : History :=
  let u := step.turn h.catalog h.tree
  ⟨h.turns ++ [u], step.change h.tree, u.after⟩

/-- The history of a new catalog. -/
def history (scope : ProjectScope) (t : FileTree) (steps : List Step) : History :=
  steps.foldl History.extend ⟨[], t, ⟨scope, none⟩⟩

/-! ## Snapshots -/

/-- The files at the first look-up that has returned since the last refresh. -/
def snapshot? (turns : List Turn) : Option FileTree :=
  ((turns.rtakeWhile (!·.isRefresh)).find? (·.hasReturned)).map (·.tree)

theorem snapshot?_refresh (turns : List Turn) {u : Turn} (h : u.isRefresh = true) :
    snapshot? (turns ++ [u]) = none := by
  unfold snapshot?
  rw [List.rtakeWhile_concat_neg _ _ _ (by rw [h]; decide)]
  rfl

/-- A snapshot stays until a refresh. -/
theorem snapshot?_append (turns : List Turn) {u : Turn} (h : u.isRefresh = false) :
    snapshot? (turns ++ [u]) =
      (snapshot? turns).or (if u.hasReturned then some u.tree else none) := by
  unfold snapshot?
  rw [List.rtakeWhile_concat_pos _ _ _ (by rw [h]; rfl), List.find?_append, Option.map_or,
    List.find?_singleton]
  cases u.hasReturned <;> rfl

theorem snapshot?_unchanged (turns : List Turn) {u : Turn} (h : u.isRefresh = false)
    (hreturned : u.hasReturned = false) : snapshot? (turns ++ [u]) = snapshot? turns := by
  rw [snapshot?_append turns h, hreturned, if_neg Bool.false_ne_true, Option.or_none]

/-- A catalog holds the index of a snapshot, or nothing when there is none. -/
inductive Holds (scope : ProjectScope) : Option FileTree → ProjectCatalog → Prop
  | nothing : Holds scope none ⟨scope, none⟩
  | index {t : FileTree} {ds : List Declaration}
    (h : (scope.index FormatRegistry.standard t).result = .ok ds) :
    Holds scope (some t) ⟨scope, some ds⟩

theorem Holds.find {snapshot : Option FileTree} {c : ProjectCatalog} (h : Holds scope snapshot c)
    (t : FileTree) (name : Text) :
    (c.find FormatRegistry.standard t name).1.result = answerNew scope (snapshot.getD t) name := by
  cases h with
  | nothing => rfl
  | index hindex =>
    rw [answerNew_eq, Option.getD_some, hindex]
    rfl

theorem Holds.find_ok {taken : FileTree} {c : ProjectCatalog} (h : Holds scope (some taken) c)
    (t : FileTree) (name : Text) :
    ∃ ds, (c.find FormatRegistry.standard t name).1.result = .ok ds := by
  cases h with
  | index hindex => exact ⟨_, rfl⟩

theorem Holds.find_error {snapshot : Option FileTree} {c : ProjectCatalog}
    (h : Holds scope snapshot c) {name : Text} {e : CatalogError}
    (he : (c.find FormatRegistry.standard t name).1.result = .error e) :
    (c.find FormatRegistry.standard t name).2 = ⟨scope, none⟩ := by
  cases h with
  | index hindex => cases he
  | nothing =>
    have hindex : (scope.index FormatRegistry.standard t).result = .error e := by
      have h := answerNew_eq scope t name
      rw [answerNew, he] at h
      cases hresult : (scope.index FormatRegistry.standard t).result with
      | error e' =>
        rw [hresult] at h
        exact h.symm
      | ok ds =>
        rw [hresult] at h
        cases h
    unfold ProjectCatalog.find contents
    simp only [hindex]

theorem find_new_ok {name : Text} {ds : List Declaration}
    (h : (find ⟨scope, none⟩ FormatRegistry.standard t name).1.result = .ok ds) :
    Holds scope (some t) (find ⟨scope, none⟩ FormatRegistry.standard t name).2 := by
  rw [find_new] at h
  obtain ⟨all, hall, -⟩ := Run.result_map_ok h
  unfold ProjectCatalog.find contents
  simp only [hall]
  exact .index hall

/-- A look-up keeps the index of a snapshot, and makes one of the files as they are when there is no
snapshot and the look-up returns. -/
theorem Holds.find_extend {turns : List Turn} {c : ProjectCatalog}
    (h : Holds scope (snapshot? turns) c) (t : FileTree) (name : Text) :
    Holds scope (snapshot? (turns ++ [(Step.find name).turn c t]))
      (c.find FormatRegistry.standard t name).2 := by
  rw [snapshot?_append turns rfl]
  generalize snapshot? turns = snapshot at h ⊢
  cases h with
  | index hindex => exact .index hindex
  | nothing =>
    rw [Option.none_or]
    cases hresult : (ProjectCatalog.find ⟨scope, none⟩ FormatRegistry.standard t name).1.result with
    | ok ds =>
      have hreturned : ((Step.find name).turn ⟨scope, none⟩ t).hasReturned = true := by
        unfold Turn.hasReturned Step.turn
        simp only [hresult]
      rw [if_pos hreturned]
      exact find_new_ok hresult
    | error e =>
      have hreturned : ((Step.find name).turn ⟨scope, none⟩ t).hasReturned = false := by
        unfold Turn.hasReturned Step.turn
        simp only [hresult]
      rw [hreturned, if_neg Bool.false_ne_true, Holds.find_error .nothing hresult]
      exact .nothing

/-- One more step: the catalog holds what the steps so far have left. -/
theorem Holds.extend {turns : List Turn} {c : ProjectCatalog} (h : Holds scope (snapshot? turns) c)
    (t : FileTree) (step : Step) :
    Holds scope (snapshot? (turns ++ [step.turn c t])) (step.turn c t).after := by
  cases step with
  | find name => exact h.find_extend t name
  | refresh =>
    rw [snapshot?_refresh turns rfl]
    generalize snapshot? turns = snapshot at h
    cases h <;> exact .nothing
  | write | remove | permit =>
    rw [snapshot?_unchanged turns rfl rfl]
    exact h

/-! ## Histories -/

/-- A look-up of a name in the course of a history, after the given turns. -/
structure IsAnswered (scope : ProjectScope) (before : List Turn) (u : Turn) (name : Text) : Prop where
  /-- It answers as a new catalog would from the snapshot, or else from the files as they are. -/
  answer_eq : u.answer = some (answerNew scope ((snapshot? before).getD u.tree) name)
  /-- What a new catalog answers from a tree of files. -/
  answers : ((snapshot? before).getD u.tree).WellFormed →
    Answers scope ((snapshot? before).getD u.tree) name
      (answerNew scope ((snapshot? before).getD u.tree) name)
  /-- From a snapshot it answers, whatever has become of the files. -/
  of_snapshot : ∀ t, snapshot? before = some t → ∃ ds, u.answer = some (.ok ds)
  /-- Without a snapshot it fails exactly when something is in the way in the files as they are. -/
  error_iff : u.tree.WellFormed → snapshot? before = none →
    ((∃ e, u.answer = some (.error e)) ↔
      ∃ root ∈ scope.sourceRoots ++ scope.libraryRoots, ∃ e, scope.Obstacle u.tree root e)
  /-- A failure leaves no trace. -/
  after_eq : ∀ e, u.answer = some (.error e) →
    u.after = ⟨scope, none⟩ ∧ snapshot? (before ++ [u]) = none
  /-- A failure is one of the catalog's own, unless nothing can be told of a path. -/
  isOwn_or : u.tree.WellFormed → ∀ e, u.answer = some (.error e) →
    e.isOwn = true ∨ ∃ fault, IsWithheld scope u.tree fault ∧ e = .inaccessible fault

/-- What a history shows. -/
structure IsSnapshotted (scope : ProjectScope) (t : FileTree) (steps : List Step) (h : History) :
    Prop where
  steps_eq : h.turns.map (·.step) = steps
  /-- The files change in steps that write, remove or permit, and in no others. -/
  trees_eq : h.turns.map (·.tree) ++ [h.tree] = t :: h.turns.map fun u => u.step.change u.tree
  /-- They stay well-formed where each step is sound. -/
  wellFormed : t.WellFormed → (∀ u ∈ h.turns, u.step.IsSound u.tree) →
    h.tree.WellFormed ∧ ∀ u ∈ h.turns, u.tree.WellFormed
  /-- The catalog holds the index of the snapshot. -/
  holds : Holds scope (snapshot? h.turns) h.catalog
  isAnswered : ∀ before u later name, h.turns = before ++ u :: later → u.step = .find name →
    IsAnswered scope before u name

theorem Holds.isAnswered {turns : List Turn} {c : ProjectCatalog}
    (h : Holds scope (snapshot? turns) c) (t : FileTree) (name : Text) :
    IsAnswered scope turns ((Step.find name).turn c t) name := by
  have hanswer := h.find t name
  constructor
  case answer_eq => exact congrArg some hanswer
  case answers => exact fun hwf => answers_new hwf name
  case of_snapshot =>
    intro taken htaken
    rw [htaken] at h
    obtain ⟨ds, hds⟩ := h.find_ok t name
    exact ⟨ds, congrArg some hds⟩
  case error_iff =>
    intro hwf hsnapshot
    rw [hsnapshot, Option.getD_none] at hanswer
    have hanswers : Answers scope t name (answerNew scope t name) := answers_new hwf name
    rw [← hanswer] at hanswers
    refine Iff.trans ?_ hanswers.error_iff
    exact exists_congr fun e => Option.some_inj
  case after_eq =>
    intro e he
    have hafter := h.find_error (Option.some.inj he)
    have hextended := h.find_extend t name
    rw [hafter] at hextended
    refine ⟨hafter, ?_⟩
    generalize snapshot? (turns ++ [(Step.find name).turn c t]) = snapshot at hextended ⊢
    cases hextended
    rfl
  case isOwn_or =>
    intro hwf e he
    have he := Option.some.inj he
    cases hsnapshot : snapshot? turns with
    | some taken =>
      rw [hsnapshot] at h
      obtain ⟨ds, hds⟩ := h.find_ok t name
      cases he.symm.trans hds
    | none =>
      rw [hsnapshot, Option.getD_none] at hanswer
      have hanswers : Answers scope t name (answerNew scope t name) := answers_new hwf name
      rw [hanswer.symm.trans he] at hanswers
      exact hanswers.isOwn_or

theorem IsSnapshotted.extend {steps : List Step} {h : History} (hs : IsSnapshotted scope t steps h)
    (step : Step) : IsSnapshotted scope t (steps ++ [step]) (h.extend step) := by
  constructor
  case steps_eq =>
    unfold History.extend
    rw [List.map_append, hs.steps_eq, List.map_singleton, Step.turn_step]
  case trees_eq =>
    unfold History.extend
    rw [List.map_append, List.map_append, List.map_singleton, List.map_singleton, Step.turn_tree,
      Step.turn_step, hs.trees_eq]
    rfl
  case wellFormed =>
    intro hwf hsound
    change ∀ u ∈ h.turns ++ [step.turn h.catalog h.tree], u.step.IsSound u.tree at hsound
    obtain ⟨hturns, hlast⟩ := List.forall_mem_append.1 hsound
    obtain ⟨htree, hall⟩ := hs.wellFormed hwf hturns
    have hstep := hlast _ (List.mem_singleton_self _)
    rw [Step.turn_step, Step.turn_tree] at hstep
    refine ⟨Step.wellFormed_change htree hstep, List.forall_mem_append.2 ⟨hall, ?_⟩⟩
    exact List.forall_mem_singleton.2 ((Step.turn_tree _ _ _).symm ▸ htree)
  case holds => exact hs.holds.extend h.tree step
  case isAnswered =>
    intro before u later name hturns hstep
    change h.turns ++ [step.turn h.catalog h.tree] = _ at hturns
    rcases List.eq_nil_or_concat later with rfl | ⟨later, last, rfl⟩
    · obtain ⟨rfl, hlast⟩ := List.append_inj' hturns rfl
      obtain rfl := (List.cons.inj hlast).1
      rw [Step.turn_step] at hstep
      rw [hstep]
      exact hs.holds.isAnswered h.tree name
    · rw [List.concat_eq_append, ← List.cons_append, ← List.append_assoc] at hturns
      exact hs.isAnswered before u later name (List.append_inj' hturns rfl).1 hstep

/-- A new catalog answers from snapshots in any history. -/
theorem history_snapshots (scope : ProjectScope) (t : FileTree) (steps : List Step) :
    IsSnapshotted scope t steps (history scope t steps) := by
  induction steps using List.reverseRecOn with
  | nil =>
    refine ⟨rfl, rfl, fun hwf _ => ⟨hwf, fun u hu => (List.not_mem_nil hu).elim⟩, .nothing, ?_⟩
    intro before u later name hturns
    exact absurd hturns (List.append_ne_nil_of_right_ne_nil before (List.cons_ne_nil u later)).symm
  | append_singleton steps step ih =>
    unfold history
    rw [List.foldl_concat]
    exact ih.extend step

/-! ## Paths of which nothing can be told -/

/-- A source root of which nothing can be told ends each look-up with an error that is none of the
catalog's own. -/
theorem answerNew_of_withholds {root : Path} {own : List Path} (hscope : scope.sourceRoots = root :: own)
    {fault : PathError} (h : t.Withholds root fault) (name : Text) :
    answerNew scope t name = .error (.inaccessible fault) := by
  rw [answerNew_eq]
  unfold ProjectScope.index
  rw [hscope, List.mapM_cons, ProjectScope.indexRoot_of_withholds h]
  rfl

/-- A path with a name of 256 letters. -/
def longRoot : Path := ⟨0, [List.replicate 256 'a']⟩

/-- A project with a root that does not exist: no file has a name of this length. -/
def longScope : ProjectScope := ⟨[longRoot], [], [".java".toList], []⟩

/-- Nothing stands at the root of this project in an empty directory, but this is not what the error of
the catalog tells. -/
theorem history_longScope :
    let t : FileTree := { root := .directory [], current := [] }
    let error : CatalogError := .inaccessible (.nameTooLong longRoot)
    t.node? longRoot = none ∧
      (history longScope t [.find ['A']]).turns.map (·.answer) = [some (.error error)] ∧
      error.isOwn = false := by
  intro t error
  have hplace : t.place longRoot = .error .nameTooLong :=
    FileTree.place_of_longName (Node.at?_nil _) rfl (by decide +kernel) rfl (by decide +kernel)
      (by decide +kernel)
  have hwithheld : t.Withholds longRoot (.nameTooLong longRoot) :=
    FileTree.withholds_iff.2 ⟨_, hplace, rfl⟩
  refine ⟨?_, ?_, rfl⟩
  · unfold FileTree.node?
    rw [hplace]
    rfl
  · exact congrArg (fun answer => [some answer]) (answerNew_of_withholds rfl hwithheld ['A'])

end ProjectCatalog

end RecordSkeleton
