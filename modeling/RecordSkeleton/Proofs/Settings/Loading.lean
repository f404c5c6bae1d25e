import RecordSkeleton.Proofs.FileTree.WellFormed
import RecordSkeleton.Proofs.Settings.Environment
import RecordSkeleton.Proofs.Text.Utf8

/-!
# Loading settings

The settings are loaded in two layers. The configuration file replaces defaults, and the environment
replaces settings of the file.

1. A file is applied as a whole or dropped as a whole (`fromFile_of_startsFrom`), if it does not end
   the loading (`startsFrom_or_fails`). A dropped one is as good as none (`load_of_drops`).
2. Loading fails for a fault beyond all bounds, or when it cannot be told whether there is a
   configuration file, and for nothing else (`load_returns_unless`).
3. Settings that are loaded are those of the two layers (`load_layers`).
-/

namespace RecordSkeleton

namespace Settings

variable {t : FileTree} {env : Environment} {path : Path} {room : Nat}

/-! ## The configuration file -/

/-- The document of a configuration file, or why there is none. -/
def document? (t : FileTree) (path : Path) : Except FileFault Toml.Entries := do
  let bytes ← (t.read path).mapError (.unreadable path)
  let text ← (Utf8.decode bytes).mapError .notUtf8
  (Toml.read text).mapError .toml

theorem ofFile_eq (room : Nat) (t : FileTree) (path : Path) :
    ofFile room t path =
      document? t path >>= fun data => (applyTable room data {}).mapError .setting := by
  unfold ofFile document?
  simp only [bind_assoc]

/-- A file without a document is dropped for that. -/
theorem dropsFile_of_document? {fault : FileFault} (h : document? t path = .error fault) :
    dropsFile fault = true := by
  -- Each of the three steps has faults of its own, and none of them is one of a setting.
  unfold document? at h
  cases hread : t.read path with
  | error cause =>
    rw [hread] at h
    cases h
    rfl
  | ok bytes =>
    replace h : (Utf8.decode bytes).mapError .notUtf8 >>=
        (fun text => (Toml.read text).mapError .toml) = .error fault := by
      rw [hread] at h
      exact h
    cases hdecode : Utf8.decode bytes with
    | error _ =>
      rw [hdecode] at h
      cases h
      rfl
    | ok text =>
      replace h : (Toml.read text).mapError .toml = .error fault := by
        rw [hdecode] at h
        exact h
      cases hdata : Toml.read text <;> rw [hdata] at h <;> cases h
      rfl

/-- Why a configuration file is dropped: there is no document, or its first fault is one within
bounds. -/
inductive Drops (room : Nat) (t : FileTree) (path : Path) : FileFault → Prop
  | unread {fault : FileFault} (h : document? t path = .error fault) : Drops room t path fault
  | faulty {data : Toml.Entries} {fault : SettingFault} (hdata : document? t path = .ok data)
    (hfault : firstFault? room data = some fault) (hbounded : fault.isUnbounded = false) :
    Drops room t path (.setting fault)

/-- The settings that a configuration file leads to, before the environment, and what is noted. -/
inductive StartsFrom (room : Nat) (t : FileTree) (path : Path) : List Dropped → Settings → Prop
  | absent (hpath : t.hasPath path = .ok false) : StartsFrom room t path [] {}
  | dropped {fault : FileFault} (hpath : t.hasPath path = .ok true) (h : Drops room t path fault) :
    StartsFrom room t path [⟨path, fault⟩] {}
  | applied {data : Toml.Entries} {s : Settings} (hpath : t.hasPath path = .ok true)
    (hdata : document? t path = .ok data) (h : Replaces room data {} s) : StartsFrom room t path [] s

/-- Why a configuration file ends the loading. -/
inductive FileFails (room : Nat) (t : FileTree) (path : Path) : LoadingFault → Prop
  | path {fault : PathError} (hpath : t.hasPath path = .error fault) :
    FileFails room t path (.path fault)
  | setting {data : Toml.Entries} {fault : SettingFault} (hpath : t.hasPath path = .ok true)
    (hdata : document? t path = .ok data) (h : Exceeds room data fault) :
    FileFails room t path (.setting fault)

theorem ofFile_of_document {data : Toml.Entries} (hdata : document? t path = .ok data) :
    ofFile room t path = (applyTable room data {}).mapError .setting := by
  rw [ofFile_eq, hdata]
  rfl

theorem fromFile_of_dropsFile {fault : FileFault} (hpath : t.hasPath path = .ok true)
    (h : ofFile room t path = .error fault) (hdrops : dropsFile fault = true) :
    fromFile room t path = ⟨[⟨path, fault⟩], .ok {}⟩ := by
  unfold fromFile
  rw [hpath, h]
  cases fault with
  | setting fault =>
    show Run.bind (Run.ofResult (.ok true)) _ = _
    simp only [Run.bind, Run.ofResult, hdrops, if_true, List.nil_append]
  | _ => rfl

theorem fromFile_of_startsFrom {dropped : List Dropped} {s : Settings}
    (h : StartsFrom room t path dropped s) : fromFile room t path = ⟨dropped, .ok s⟩ := by
  cases h with
  | absent hpath =>
    unfold fromFile
    rw [hpath]
    rfl
  | dropped hpath h =>
    cases h with
    | unread h =>
      exact fromFile_of_dropsFile hpath (by rw [ofFile_eq, h]; rfl) (dropsFile_of_document? h)
    | faulty hdata hfault hbounded =>
      refine fromFile_of_dropsFile hpath ?_ (by rw [dropsFile, hbounded]; rfl)
      rw [ofFile_of_document hdata, applyTable_eq_error_iff.2 hfault]
      rfl
  | applied hpath hdata h =>
    unfold fromFile
    rw [hpath, ofFile_of_document hdata, applyTable_eq_ok_iff.2 h]
    rfl

theorem fromFile_of_fails {fault : LoadingFault} (h : FileFails room t path fault) :
    fromFile room t path = ⟨[], .error fault⟩ := by
  unfold fromFile
  cases h with
  | path hpath => rw [hpath]; rfl
  | @setting data fault hpath hdata h =>
    obtain ⟨hfault, hunbounded⟩ := exceeds_iff.2 h
    have hdrops : dropsFile (.setting fault) = false := by rw [dropsFile, hunbounded]; rfl
    have hfile : ofFile room t path = .error (.setting fault) := by
      rw [ofFile_of_document hdata, applyTable_eq_error_iff.2 hfault]
      rfl
    rw [hpath, hfile]
    show Run.bind (Run.ofResult (.ok true)) _ = _
    simp only [Run.bind, Run.ofResult, hdrops, List.nil_append]
    rfl

/-- There is no third way for a configuration file. -/
theorem startsFrom_or_fails (room : Nat) (t : FileTree) (path : Path) :
    (∃ dropped s, StartsFrom room t path dropped s) ∨ ∃ fault, FileFails room t path fault := by
  cases hpath : t.hasPath path with
  | error fault => exact .inr ⟨_, .path hpath⟩
  | ok there =>
    cases there with
    | false => exact .inl ⟨_, _, .absent hpath⟩
    | true =>
      cases hdata : document? t path with
      | error fault => exact .inl ⟨_, _, .dropped hpath (.unread hdata)⟩
      | ok data =>
        cases happly : applyTable room data {} with
        | ok s => exact .inl ⟨_, _, .applied hpath hdata (applyTable_eq_ok_iff.1 happly)⟩
        | error fault =>
          -- The kind of the first fault decides between dropping the file and ending the loading.
          have hfault := applyTable_eq_error_iff.1 happly
          cases hunbounded : fault.isUnbounded with
          | true => exact .inr ⟨_, .setting hpath hdata (exceeds_iff.1 ⟨hfault, hunbounded⟩)⟩
          | false => exact .inl ⟨_, _, .dropped hpath (.faulty hdata hfault hunbounded)⟩

/-! ## Both layers -/

/-- Why settings cannot be loaded. -/
inductive Fails (t : FileTree) (env : Environment) : LoadingFault → Prop
  | unplaced {fault : LoadingFault} (hplace : filePath env = .error fault) : Fails t env fault
  | file {path : Path} {fault : LoadingFault} (hplace : filePath env = .ok path)
    (h : FileFails env.room t path fault) : Fails t env fault
  | indent {path : Path} {dropped : List Dropped} {base : Settings} {fault : SettingFault}
    (hplace : filePath env = .ok path) (hfile : StartsFrom env.room t path dropped base)
    (h : IndentExceeds env fault) : Fails t env (.setting fault)

theorem load_eq {path : Path} (hplace : filePath env = .ok path) :
    load t env = fromFile env.room t path >>= fun s =>
      Run.ofResult ((applyEnvironment env s).mapError .setting) := by
  unfold load
  rw [hplace]
  rfl

theorem load_of_startsFrom {path : Path} (hplace : filePath env = .ok path) {dropped : List Dropped}
    {base : Settings} (h : StartsFrom env.room t path dropped base) :
    load t env = ⟨dropped, (applyEnvironment env base).mapError .setting⟩ := by
  rw [load_eq hplace, fromFile_of_startsFrom h, Run.bind_ok rfl]
  exact congrArg (Run.mk · _) (List.append_nil _)

theorem load_of_fileFails {path : Path} (hplace : filePath env = .ok path) {fault : LoadingFault}
    (h : FileFails env.room t path fault) : load t env = ⟨[], .error fault⟩ := by
  rw [load_eq hplace, fromFile_of_fails h, Run.bind_error rfl]

theorem load_of_unplaced {fault : LoadingFault} (hplace : filePath env = .error fault) :
    load t env = ⟨[], .error fault⟩ := by
  unfold load
  rw [hplace]
  rfl

theorem load_of_overlays {path : Path} (hplace : filePath env = .ok path) {dropped : List Dropped}
    {base s : Settings} (hfile : StartsFrom env.room t path dropped base) (h : Overlays env base s) :
    load t env = ⟨dropped, .ok s⟩ := by
  rw [load_of_startsFrom hplace hfile, applyEnvironment_eq_ok_iff.2 h]
  rfl

theorem result_of_fails {fault : LoadingFault} (h : Fails t env fault) :
    (load t env).result = .error fault := by
  cases h with
  | unplaced hplace => rw [load_of_unplaced hplace]
  | file hplace hfile => rw [load_of_fileFails hplace hfile]
  | indent hplace hfile hindent =>
    rw [load_of_startsFrom hplace hfile, applyEnvironment_eq_error_iff.2 hindent]
    rfl

/-- Loading goes through both layers or fails, and there is no third way. -/
theorem overlays_or_fails (t : FileTree) (env : Environment) :
    (∃ path dropped base s, filePath env = .ok path ∧ StartsFrom env.room t path dropped base ∧
      Overlays env base s) ∨ ∃ fault, Fails t env fault := by
  cases hplace : filePath env with
  | error fault => exact .inr ⟨fault, .unplaced hplace⟩
  | ok path =>
    obtain ⟨dropped, base, hfile⟩ | ⟨fault, hfile⟩ := startsFrom_or_fails env.room t path
    · cases happly : applyEnvironment env base with
      | ok s => exact .inl ⟨path, dropped, base, s, rfl, hfile, applyEnvironment_eq_ok_iff.1 happly⟩
      | error fault =>
        exact .inr ⟨_, .indent hplace hfile (applyEnvironment_eq_error_iff.1 happly)⟩
    · exact .inr ⟨fault, .file hplace hfile⟩

/-- Loading fails for these reasons, and for nothing else. -/
theorem load_eq_error_iff {fault : LoadingFault} :
    (load t env).result = .error fault ↔ Fails t env fault := by
  refine ⟨fun h => ?_, result_of_fails⟩
  obtain ⟨path, dropped, base, s, hplace, hfile, hoverlays⟩ | ⟨fault', hfails⟩ :=
    overlays_or_fails t env
  · rw [load_of_overlays hplace hfile hoverlays] at h
    cases h
  · cases (result_of_fails hfails).symm.trans h
    exact hfails

/-- A dropped file is as good as none, but for what is noted. -/
theorem load_of_drops {path : Path} {fault : FileFault} {t' : FileTree}
    (hplace : filePath env = .ok path) (hpath : t.hasPath path = .ok true)
    (h : Drops env.room t path fault) (hpath' : t'.hasPath path = .ok false) :
    load t env = ⟨[⟨path, fault⟩], (load t' env).result⟩ := by
  rw [load_of_startsFrom hplace (.dropped hpath h), load_of_startsFrom hplace (.absent hpath')]

/-- The place of the configuration file does not depend on the settings in the environment. -/
theorem filePath_without {name : String} (h : Invalid env name) :
    filePath (env.without name) = filePath env := by
  unfold filePath homeOf
  rw [Environment.lookup_without, Environment.lookup_without]
  cases h <;> rfl

/-- An invalid variable is as good as none. -/
theorem load_without {name : String} (h : Invalid env name) :
    load t (env.without name) = load t env := by
  unfold load
  simp only [filePath_without h, applyEnvironment_without h]
  rfl

/-- An invalid value is no reason for the loading to fail: a file with one is dropped, with a note, and
a variable with one is passed over. The loading only fails for a value beyond all bounds, or when it
cannot be told whether there is a configuration file. -/
theorem load_returns_unless (t : FileTree) (env : Environment) :
    (∀ fault, (load t env).result = .error fault ↔ Fails t env fault) ∧
    (∀ path fault t', filePath env = .ok path → t.hasPath path = .ok true →
      Drops env.room t path fault →
      t'.hasPath path = .ok false → load t env = ⟨[⟨path, fault⟩], (load t' env).result⟩) ∧
    ∀ name, Invalid env name → load t env = load t (env.without name) :=
  ⟨fun _ => load_eq_error_iff,
    fun _ _ _ hplace hpath h hpath' => load_of_drops hplace hpath h hpath',
    fun _ h => (load_without h).symm⟩

/-- A file tree with nothing but a configuration file. -/
def configured (content : String) : FileTree where
  root := .directory [("xdg".toList, .directory [("jsonskel".toList, .directory
    [("config.toml".toList, .file (Utf8.encode content.toList))])])]
  current := []

def emptyTree : FileTree where
  root := .directory []
  current := []

def configPath : Path := ⟨0, ["xdg".toList, "jsonskel".toList, "config.toml".toList]⟩

/-- An environment that tells where the configuration file is, and in which the depth limit is invalid. -/
def configEnvironment : Environment where
  bindings := [("XDG_CONFIG_HOME".toList, "xdg".toList), ("JSONSKEL_MAX_DEPTH".toList, ['0'])]
  room := 1024

theorem filePath_configured {env : Environment}
    (h : env.lookup "XDG_CONFIG_HOME".toList = some "xdg".toList) : filePath env = .ok configPath := by
  unfold filePath
  rw [h]
  exact congrArg Except.ok (by decide)

theorem place_configured (content : String) :
    (configured content).place configPath =
      .ok ⟨FileTree.linkLimit, configPath.names, .file (Utf8.encode content.toList)⟩ := by
  have hfile : ReadableAt configPath (.file (Utf8.encode content.toList)) := .file _ (by decide)
  have hroot : ReadableAt ⟨0, []⟩ (configured content).root :=
    .single (by decide) (by decide) (.single (by decide) (by decide)
      (.single (by decide) (by decide) hfile))
  exact FileTree.place_from_root (fun _ => rfl) hroot (Access.grants_full _ _) rfl

theorem document?_configured (content : String) :
    document? (configured content) configPath = (Toml.read content.toList).mapError .toml := by
  have hread : (configured content).read configPath = .ok (Utf8.encode content.toList) := by
    unfold FileTree.read
    rw [place_configured]
    rfl
  unfold document?
  rw [hread]
  show (Utf8.decode _).mapError _ >>= _ = _
  rw [Utf8.decode_eq_ok_iff.2 rfl]
  rfl

/-- The first fault of a configuration file that is a document. -/
theorem exists_document {content : String} {fault : SettingFault}
    (h : (Toml.read content.toList).toOption.bind (firstFault? room) = some fault) :
    ∃ data, document? (configured content) configPath = .ok data ∧
      firstFault? room data = some fault := by
  rw [document?_configured]
  cases hdata : Toml.read content.toList with
  | error _ =>
    rw [hdata] at h
    cases h
  | ok data =>
    rw [hdata] at h
    exact ⟨data, rfl, h⟩

theorem hasPath_emptyTree : emptyTree.hasPath configPath = .ok false :=
  FileTree.hasPath_of_missing (FileTree.place_of_missing (Node.at?_nil _) rfl (by decide) rfl rfl
    (by decide) (by decide)) rfl

theorem load_returns_unless_negative :
    filePath configEnvironment = .ok configPath ∧
      Drops 1024 (configured "output.indent=-1") configPath (.setting (.indentNegative (-1))) ∧
      Invalid configEnvironment "JSONSKEL_MAX_DEPTH" ∧
      load (configured "output.indent=-1") configEnvironment =
        ⟨[⟨configPath, .setting (.indentNegative (-1))⟩],
          (load emptyTree configEnvironment).result⟩ ∧
      load emptyTree configEnvironment =
        load emptyTree (configEnvironment.without "JSONSKEL_MAX_DEPTH") := by
  have hplace : filePath configEnvironment = .ok configPath := filePath_configured rfl
  have hpath := FileTree.hasPath_of_place (place_configured "output.indent=-1")
  have hfault : (Toml.read "output.indent=-1".toList).toOption.bind (firstFault? 1024) =
      some (.indentNegative (-1)) := by decide +kernel
  obtain ⟨data, hdata, hfirst⟩ := exists_document hfault
  have hdrops : Drops 1024 (configured "output.indent=-1") configPath
      (.setting (.indentNegative (-1))) := .faulty hdata hfirst rfl
  have hinvalid : Invalid configEnvironment "JSONSKEL_MAX_DEPTH" :=
    .maxDepth (v := ['0']) rfl rfl
  exact ⟨hplace, hdrops, hinvalid,
    (load_returns_unless _ _).2.1 _ _ _ hplace hpath hdrops hasPath_emptyTree,
    (load_returns_unless _ _).2.2 _ hinvalid⟩

/-- The environment with an indent of its own. -/
def indentedEnvironment (digits : String) : Environment :=
  { configEnvironment with
    bindings := ("JSONSKEL_INDENT".toList, digits.toList) :: configEnvironment.bindings }

theorem load_of_indented {digits : String} {fault : SettingFault}
    (h : SettingFault.of? (indentOfText 1024 digits.toList) = some fault)
    (hunbounded : fault.isUnbounded = true) :
    (load emptyTree (indentedEnvironment digits)).result = .error (.setting fault) := by
  have hexceeds : TooManySpaces 1024 (.text digits.toList) fault :=
    unbounded_indentOfText_iff.1 ⟨SettingFault.of?_eq_some_iff.1 h, hunbounded⟩
  exact load_eq_error_iff.2
    (.indent (filePath_configured rfl) (.absent hasPath_emptyTree) ⟨_, rfl, hexceeds⟩)

/-- Values within their types that end the loading: a depth limit without bound in the file, an indent of
more spaces than any text can have, and one of more than there is room for. -/
theorem load_overflow :
    (load (configured "output.max_depth=inf") configEnvironment).result =
        .error (.setting .depthInfinite) ∧
      (load emptyTree (indentedEnvironment "99999999999999999999")).result =
        .error (.setting .indentTooLarge) ∧
      (load emptyTree (indentedEnvironment "99999999999999")).result =
        .error (.setting .outOfMemory) := by
  have hpath := FileTree.hasPath_of_place (place_configured "output.max_depth=inf")
  have hfault : (Toml.read "output.max_depth=inf".toList).toOption.bind (firstFault? 1024) =
      some .depthInfinite := by decide +kernel
  obtain ⟨data, hdata, hfirst⟩ := exists_document hfault
  have hfails : FileFails 1024 (configured "output.max_depth=inf") configPath _ :=
    .setting hpath hdata (exceeds_iff.1 ⟨hfirst, rfl⟩)
  exact ⟨load_eq_error_iff.2 (.file (filePath_configured rfl) hfails),
    load_of_indented (by decide +kernel) rfl, load_of_indented (by decide +kernel) rfl⟩

theorem StartsFrom.one_le_maxDepth {dropped : List Dropped} {s : Settings}
    (h : StartsFrom room t path dropped s) : 1 ≤ s.maxDepth := by
  cases h with
  | applied hpath hdata h =>
    exact h.one_le_maxDepth (by decide)
  | _ => decide

/-- Settings that are loaded start from the defaults, with the values of the configuration file in their
place if it is applied, and from nothing else if it is absent or dropped. Then each of them that has a
variable is replaced by its converted text. No depth limit is below one. -/
theorem load_layers {dropped : List Dropped} {s : Settings} :
    load t env = ⟨dropped, .ok s⟩ ↔
      ∃ path base, filePath env = .ok path ∧ StartsFrom env.room t path dropped base ∧
        Overlays env base s ∧ 1 ≤ s.maxDepth := by
  constructor
  · intro h
    obtain ⟨path, dropped', base, s', hplace, hfile, hoverlays⟩ | ⟨fault, hfails⟩ :=
      overlays_or_fails t env
    · cases (load_of_overlays hplace hfile hoverlays).symm.trans h
      exact ⟨path, base, hplace, hfile, hoverlays, hoverlays.one_le_maxDepth hfile.one_le_maxDepth⟩
    · cases (result_of_fails hfails).symm.trans (congrArg Run.result h)
  · rintro ⟨path, base, hplace, hfile, hoverlays, -⟩
    exact load_of_overlays hplace hfile hoverlays

end Settings

end RecordSkeleton
