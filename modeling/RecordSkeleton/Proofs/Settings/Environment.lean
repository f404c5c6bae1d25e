import RecordSkeleton.Proofs.Settings.Document

/-!
# Settings from the environment

The environment is applied variable by variable, like a document key by key. What a setting becomes
depends on its own variable alone.

1. A variable replaces its setting by its converted text. One that does not convert leaves it as it is
   (`applyEnvironment_eq_ok_iff`), as if it were not set (`applyEnvironment_without`).
2. The environment is only refused for an indent beyond all bounds (`applyEnvironment_eq_error_iff`).
-/

namespace RecordSkeleton

/-- The environment in which a variable is not set. -/
def Environment.without (env : Environment) (name : String) : Environment :=
  { env with bindings := env.bindings.filter fun v => v.1 != name.toList }

namespace Environment

theorem lookup_without (env : Environment) (name other : String) :
    (env.without name).lookup other.toList =
      if other.toList = name.toList then none else env.lookup other.toList := by
  unfold without lookup
  dsimp only
  induction env.bindings with
  | nil => split <;> rfl
  | cons v bindings ih =>
    obtain ⟨key, value⟩ := v
    rw [List.filter_cons, List.lookup_cons]
    by_cases hkey : key = name.toList
    · rw [if_neg (by simpa using hkey), ih]
      split
      · rfl
      · rename_i h
        rw [beq_false_of_ne (hkey ▸ h)]
    · rw [if_pos (bne_iff_ne.2 hkey), List.lookup_cons, ih]
      split
      · rename_i h
        split
        · rename_i h'
          exact absurd ((beq_iff_eq.1 h).symm.trans h') hkey
        · rfl
      · rfl

end Environment

namespace Settings

variable {α : Type} {env : Environment}

/-- What a variable makes of a setting: its converted value, and the current setting if the variable is
not set or does not convert. A fault beyond all bounds remains one. -/
def overlaid (env : Environment) (name : String) (convert : Text → Except SettingFault α)
    (current : α) : Except SettingFault α :=
  match env.lookup name.toList with
  | none => .ok current
  | some value =>
    match convert value with
    | .ok x => .ok x
    | .error fault => if fault.isUnbounded then .error fault else .ok current

/-- A variable changes the settings by what it makes of one of them. -/
theorem applyVariable_eq (env : Environment) (name : String)
    (convert : Text → Except SettingFault α) (set : Settings → α → Settings) {current : α}
    {s : Settings} (hset : set s current = s) :
    applyVariable env name (fun s v => (convert v).map (set s)) s =
      (overlaid env name convert current).map (set s) := by
  unfold applyVariable overlaid
  cases env.lookup name.toList with
  | none => exact congrArg Except.ok hset.symm
  | some value =>
    dsimp only
    cases convert value with
    | ok x => rfl
    | error fault =>
      show (if _ then _ else _) = Except.map (set s) (if _ then _ else _)
      split
      · rfl
      · exact congrArg Except.ok hset.symm

theorem applyVariable_ok_eq (env : Environment) (name : String) (convert : Text → α)
    (set : Settings → α → Settings) {current : α} {s : Settings} (hset : set s current = s) :
    applyVariable env name (fun s v => .ok (set s (convert v))) s =
      (overlaid env name (fun v => .ok (convert v)) current).map (set s) :=
  applyVariable_eq env name (fun v => .ok (convert v)) set hset

/-- The settings are others with what the environment makes of each. No variable is for the file name
endings or for the directories that are skipped. -/
structure Overlays (env : Environment) (base s : Settings) : Prop where
  indent : overlaid env "JSONSKEL_INDENT" (indentOfText env.room) base.indent = .ok s.indent
  externalPlaceholder : overlaid env "JSONSKEL_EXTERNAL_PLACEHOLDER" .ok base.externalPlaceholder =
    .ok s.externalPlaceholder
  recursionPlaceholder : overlaid env "JSONSKEL_RECURSION_PLACEHOLDER" .ok
    base.recursionPlaceholder = .ok s.recursionPlaceholder
  maxDepth : overlaid env "JSONSKEL_MAX_DEPTH" depthOfText base.maxDepth = .ok s.maxDepth
  marker : overlaid env "JSONSKEL_MARKER" .ok base.marker = .ok s.marker
  clipboardCommand : overlaid env "JSONSKEL_CLIPBOARD_COMMAND" (fun v => .ok (some v))
    base.clipboardCommand = .ok s.clipboardCommand
  extensions : s.extensions = base.extensions
  skipPatterns : s.skipPatterns = base.skipPatterns

/-- The environment is applied setting by setting: no variable looks at what those before have set. -/
theorem applyEnvironment_eq (env : Environment) (base : Settings) :
    applyEnvironment env base = (do
      let indent ← overlaid env "JSONSKEL_INDENT" (indentOfText env.room) base.indent
      let externalPlaceholder ←
        overlaid env "JSONSKEL_EXTERNAL_PLACEHOLDER" .ok base.externalPlaceholder
      let recursionPlaceholder ←
        overlaid env "JSONSKEL_RECURSION_PLACEHOLDER" .ok base.recursionPlaceholder
      let maxDepth ← overlaid env "JSONSKEL_MAX_DEPTH" depthOfText base.maxDepth
      let marker ← overlaid env "JSONSKEL_MARKER" .ok base.marker
      (overlaid env "JSONSKEL_CLIPBOARD_COMMAND" (fun v => .ok (some v)) base.clipboardCommand).map
        fun clipboardCommand => ⟨indent, externalPlaceholder, recursionPlaceholder, maxDepth, marker,
          base.extensions, base.skipPatterns, clipboardCommand⟩) := by
  have hindent (s : Settings) := applyVariable_eq (s := s) env "JSONSKEL_INDENT"
    (indentOfText env.room) (fun s x => { s with indent := x }) rfl
  have hexternal (s : Settings) := applyVariable_ok_eq (s := s) env "JSONSKEL_EXTERNAL_PLACEHOLDER"
    (fun v => v) (fun s x => { s with externalPlaceholder := x }) rfl
  have hrecursion (s : Settings) := applyVariable_ok_eq (s := s) env
    "JSONSKEL_RECURSION_PLACEHOLDER" (fun v => v)
    (fun s x => { s with recursionPlaceholder := x }) rfl
  have hdepth (s : Settings) := applyVariable_eq (s := s) env "JSONSKEL_MAX_DEPTH" depthOfText
    (fun s x => { s with maxDepth := x }) rfl
  have hmarker (s : Settings) := applyVariable_ok_eq (s := s) env "JSONSKEL_MARKER" (fun v => v)
    (fun s x => { s with marker := x }) rfl
  have hcommand (s : Settings) := applyVariable_ok_eq (s := s) env "JSONSKEL_CLIPBOARD_COMMAND" some
    (fun s x => { s with clipboardCommand := x }) rfl
  unfold applyEnvironment
  simp only [hindent, hexternal, hrecursion, hdepth, hmarker, hcommand, SettingFault.map_bind]

theorem applyEnvironment_eq_ok_iff {base s : Settings} :
    applyEnvironment env base = .ok s ↔ Overlays env base s := by
  rw [applyEnvironment_eq]
  simp only [SettingFault.bind_eq_ok_iff]
  constructor
  · rintro ⟨_, hindent, _, hexternal, _, hrecursion, _, hdepth, _, hmarker, h⟩
    obtain ⟨_, hcommand, rfl⟩ := SettingFault.map_eq_ok_iff.1 h
    exact ⟨hindent, hexternal, hrecursion, hdepth, hmarker, hcommand, rfl, rfl⟩
  · intro h
    obtain ⟨indent, externalPlaceholder, recursionPlaceholder, maxDepth, marker, extensions,
      skipPatterns, clipboardCommand⟩ := s
    obtain rfl : extensions = _ := h.extensions
    obtain rfl : skipPatterns = _ := h.skipPatterns
    exact ⟨_, h.indent, _, h.externalPlaceholder, _, h.recursionPlaceholder, _, h.maxDepth, _,
      h.marker, SettingFault.map_eq_ok_iff.2 ⟨_, h.clipboardCommand, rfl⟩⟩

theorem of_overlaid {P : α → Prop} {name : String} {convert : Text → Except SettingFault α}
    {current x : α} (h : overlaid env name convert current = .ok x) (hcurrent : P current)
    (hconvert : ∀ v x, convert v = .ok x → P x) : P x := by
  unfold overlaid at h
  split at h
  · cases h
    exact hcurrent
  · split at h
    · cases h
      exact hconvert _ _ ‹_›
    · split at h <;> cases h
      exact hcurrent

theorem Overlays.one_le_maxDepth {base s : Settings} (h : Overlays env base s)
    (hbase : 1 ≤ base.maxDepth) : 1 ≤ s.maxDepth :=
  of_overlaid h.maxDepth hbase fun _ _ => one_le_of_depthOfText

theorem overlaid_eq_error_iff {name : String} {convert : Text → Except SettingFault α} {current : α}
    {fault : SettingFault} :
    overlaid env name convert current = .error fault ↔
      ∃ v, env.lookup name.toList = some v ∧ convert v = .error fault ∧
        fault.isUnbounded = true := by
  unfold overlaid
  cases env.lookup name.toList with
  | none => simp
  | some v =>
    cases hv : convert v with
    | ok x => simp [hv]
    | error fault' =>
      by_cases hunbounded : fault'.isUnbounded = true
      · simp only [if_pos hunbounded, Except.error.injEq, Option.some.injEq, exists_eq_left', hv]
        exact ⟨fun h => ⟨h, h ▸ hunbounded⟩, And.left⟩
      · simp only [if_neg hunbounded, reduceCtorEq, Option.some.injEq, exists_eq_left', hv,
          Except.error.injEq, false_iff]
        rintro ⟨rfl, h⟩
        exact hunbounded h

theorem exists_overlaid (env : Environment) {convert : Text → Except SettingFault α}
    (hconvert : ∀ v, Bounded (convert v)) (name : String) (current : α) :
    ∃ x, overlaid env name convert current = .ok x := by
  cases h : overlaid env name convert current with
  | ok x => exact ⟨x, rfl⟩
  | error fault =>
    obtain ⟨v, -, hv, hunbounded⟩ := overlaid_eq_error_iff.1 h
    cases (hconvert v fault hv).symm.trans hunbounded

theorem bounded_ok (x : α) : Bounded (.ok x) := fun _ h => nomatch h

/-- The variable for the indent asks for too many spaces. -/
def IndentExceeds (env : Environment) (fault : SettingFault) : Prop :=
  ∃ v, env.lookup "JSONSKEL_INDENT".toList = some v ∧ TooManySpaces env.room (.text v) fault

/-- The environment is refused for the indent, and for nothing else. -/
theorem applyEnvironment_eq_error_iff {base : Settings} {fault : SettingFault} :
    applyEnvironment env base = .error fault ↔ IndentExceeds env fault := by
  obtain ⟨_, hexternal⟩ := exists_overlaid env bounded_ok "JSONSKEL_EXTERNAL_PLACEHOLDER"
    base.externalPlaceholder
  obtain ⟨_, hrecursion⟩ := exists_overlaid env bounded_ok "JSONSKEL_RECURSION_PLACEHOLDER"
    base.recursionPlaceholder
  obtain ⟨_, hdepth⟩ := exists_overlaid env bounded_depthOfText "JSONSKEL_MAX_DEPTH"
    base.maxDepth
  obtain ⟨_, hmarker⟩ := exists_overlaid env bounded_ok "JSONSKEL_MARKER" base.marker
  obtain ⟨_, hcommand⟩ := exists_overlaid env (fun v => bounded_ok (some v))
    "JSONSKEL_CLIPBOARD_COMMAND" base.clipboardCommand
  have hindent : overlaid env "JSONSKEL_INDENT" (indentOfText env.room) base.indent = .error fault ↔
      IndentExceeds env fault := by
    simp only [overlaid_eq_error_iff, unbounded_indentOfText_iff, IndentExceeds]
  rw [applyEnvironment_eq, ← hindent]
  simp only [hexternal, hrecursion, hdepth, hmarker, hcommand]
  cases overlaid env "JSONSKEL_INDENT" (indentOfText env.room) base.indent with
  | ok _ => exact ⟨fun h => (nomatch h), fun h => (nomatch h)⟩
  | error _ =>
    exact ⟨fun h => congrArg _ (Except.error.inj h), fun h => congrArg _ (Except.error.inj h)⟩

/-- A variable is set to a text that does not convert. Only an indent and a depth limit can be such. -/
inductive Invalid (env : Environment) : String → Prop
  | indent {v : Text} {fault : SettingFault} (hset : env.lookup "JSONSKEL_INDENT".toList = some v)
    (h : indentOfText env.room v = .error fault) (hbounded : fault.isUnbounded = false) :
    Invalid env "JSONSKEL_INDENT"
  | maxDepth {v : Text} {fault : SettingFault}
    (hset : env.lookup "JSONSKEL_MAX_DEPTH".toList = some v) (h : depthOfText v = .error fault) :
    Invalid env "JSONSKEL_MAX_DEPTH"

theorem overlaid_of_error {name : String} {convert : Text → Except SettingFault α} {current : α}
    {v : Text} {fault : SettingFault} (hset : env.lookup name.toList = some v)
    (h : convert v = .error fault) (hbounded : fault.isUnbounded = false) :
    overlaid env name convert current = .ok current := by
  unfold overlaid
  simp only [hset, h, hbounded, if_neg Bool.false_ne_true]

/-- A setting does not depend on the variables of the others. -/
theorem overlaid_without (name other : String) (convert : Text → Except SettingFault α)
    (current : α) : overlaid (env.without name) other convert current =
      if other.toList = name.toList then .ok current else overlaid env other convert current := by
  unfold overlaid
  rw [Environment.lookup_without]
  by_cases h : other.toList = name.toList
  · rw [if_pos h, if_pos h]
  · rw [if_neg h, if_neg h]

/-- A variable that does not convert is as good as not set. -/
theorem applyEnvironment_without {name : String} (h : Invalid env name) (base : Settings) :
    applyEnvironment (env.without name) base = applyEnvironment env base := by
  rw [applyEnvironment_eq, applyEnvironment_eq]
  simp only [overlaid_without]
  cases h with
  | indent hset h hbounded =>
    rw [show (env.without _).room = env.room from rfl, overlaid_of_error hset h hbounded]
    rfl
  | maxDepth hset h =>
    rw [overlaid_of_error hset h (bounded_depthOfText _ _ h)]
    rfl

end Settings

end RecordSkeleton
