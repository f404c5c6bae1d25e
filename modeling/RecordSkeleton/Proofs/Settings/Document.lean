import RecordSkeleton.Settings.Layers

/-!
# Settings from a document

A document is applied key by key, each time to settings that the keys before may have changed. Here it is
seen setting by setting instead: what a setting becomes depends on its own key alone.

1. A document without a fault replaces each setting by the converted value of its key, if the key is
   there (`applyTable_eq_ok_iff`).
2. Any other one is refused for the first of its faults (`applyTable_eq_error_iff`).
3. Only two keys can have a fault beyond all bounds: an indent of too many spaces, and an infinite depth
   limit (`exceeds_iff`).
-/

namespace RecordSkeleton

namespace SettingFault

variable {α β : Type}

/-- The fault of a computation, if it has one. -/
def of? : Except SettingFault α → Option SettingFault
  | .ok _ => none
  | .error fault => some fault

@[simp] theorem of?_ok (a : α) : of? (.ok a) = none := rfl

@[simp] theorem of?_error (fault : SettingFault) : of? (.error fault : Except _ α) = some fault := rfl

theorem of?_eq_some_iff {x : Except SettingFault α} {fault : SettingFault} :
    of? x = some fault ↔ x = .error fault := by
  cases x <;> simp

theorem of?_map (f : α → β) (x : Except SettingFault α) : of? (x.map f) = of? x := by
  cases x <;> rfl

/-- The fault of two computations of which the second has the same fault whatever the first gives. -/
theorem of?_bind {x : Except SettingFault α} {f : α → Except SettingFault β}
    {later : Option SettingFault} (h : ∀ a, of? (f a) = later) :
    of? (x >>= f) = (of? x).or later := by
  cases x with
  | ok a => exact h a
  | error fault => rfl

theorem bind_eq_ok_iff {x : Except SettingFault α} {f : α → Except SettingFault β} {b : β} :
    x >>= f = .ok b ↔ ∃ a, x = .ok a ∧ f a = .ok b := by
  cases x with
  | ok a => exact ⟨fun h => ⟨a, rfl, h⟩, by rintro ⟨_, ⟨⟩, h⟩; exact h⟩
  | error fault => exact ⟨fun h => (nomatch h), by rintro ⟨_, ⟨⟩, _⟩⟩

theorem map_eq_ok_iff {f : α → β} {x : Except SettingFault α} {b : β} :
    x.map f = .ok b ↔ ∃ a, x = .ok a ∧ f a = b := by
  cases x with
  | ok a => exact ⟨fun h => ⟨a, rfl, Except.ok.inj h⟩, by rintro ⟨_, ⟨⟩, rfl⟩; rfl⟩
  | error fault => exact ⟨fun h => (nomatch h), by rintro ⟨_, ⟨⟩, _⟩⟩

theorem map_map (f : α → β) {γ : Type} (g : β → γ) (x : Except SettingFault α) :
    (x.map f).map g = x.map fun a => g (f a) := by
  cases x <;> rfl

theorem map_bind (f : α → β) (x : Except SettingFault α) {γ : Type}
    (g : β → Except SettingFault γ) : x.map f >>= g = x >>= fun a => g (f a) := by
  cases x <;> rfl

end SettingFault

namespace Settings

open SettingFault (of?)

variable {α : Type} {data : Toml.Entries} {room : Nat}

/-! ## One setting -/

/-- The value of a key in a section of a document, if both are there. -/
def valueAt? (data : Toml.Entries) (section_ key : String) : Except SettingFault (Option Toml.Value) :=
  match data.lookup section_.toList with
  | none => .ok none
  | some v => member? v key.toList

/-- What a document makes of a setting: the converted value of its key, if that is there, and else the
current setting. -/
def layered (data : Toml.Entries) (section_ key : String)
    (convert : Toml.Value → Except SettingFault α) (current : α) : Except SettingFault α :=
  match valueAt? data section_ key with
  | .error fault => .error fault
  | .ok none => .ok current
  | .ok (some v) => convert v

/-- The fault of a document at a key, if there is one. -/
def faultAt? (data : Toml.Entries) (section_ key : String)
    (convert : Toml.Value → Except SettingFault α) : Option SettingFault :=
  match valueAt? data section_ key with
  | .error fault => some fault
  | .ok none => none
  | .ok (some v) => of? (convert v)

theorem of?_layered (section_ key : String) (convert : Toml.Value → Except SettingFault α)
    (current : α) : of? (layered data section_ key convert current) =
      faultAt? data section_ key convert := by
  unfold layered faultAt?
  cases valueAt? data section_ key with
  | error fault => rfl
  | ok value => cases value <;> rfl

/-- A property of a setting that holds of the current one and of every converted value. -/
theorem of_layered {P : α → Prop} {section_ key : String}
    {convert : Toml.Value → Except SettingFault α} {current x : α}
    (h : layered data section_ key convert current = .ok x) (hcurrent : P current)
    (hconvert : ∀ v x, convert v = .ok x → P x) : P x := by
  unfold layered at h
  split at h
  · cases h
  · cases h
    exact hcurrent
  · exact hconvert _ _ h

/-- A key that sets one setting changes the settings by what the document makes of that one. -/
theorem applyKey_eq (data : Toml.Entries) (section_ key : String)
    (convert : Toml.Value → Except SettingFault α) (set : Settings → α → Settings) {current : α}
    {s : Settings} (hset : set s current = s) :
    applyKey data section_ key (fun s v => (convert v).map (set s)) s =
      (layered data section_ key convert current).map (set s) := by
  unfold applyKey layered valueAt?
  cases data.lookup section_.toList with
  | none => exact congrArg Except.ok hset.symm
  | some v =>
    dsimp only
    cases member? v key.toList with
    | error fault => rfl
    | ok value =>
      cases value with
      | none => exact congrArg Except.ok hset.symm
      | some value => rfl

/-- The clipboard command that a value stands for, none for an empty text. -/
def commandOf (v : Toml.Value) : Except SettingFault (Option Text) :=
  (textOf v).map fun x => if x = [] then none else some x

/-! ## All settings -/

/-- The settings are others with what a document makes of each, where there is room for so many
spaces. -/
structure Replaces (room : Nat) (data : Toml.Entries) (base s : Settings) : Prop where
  indent : layered data "output" "indent" (indentOf room) base.indent = .ok s.indent
  externalPlaceholder : layered data "output" "external_placeholder" textOf
    base.externalPlaceholder = .ok s.externalPlaceholder
  recursionPlaceholder : layered data "output" "recursion_placeholder" textOf
    base.recursionPlaceholder = .ok s.recursionPlaceholder
  maxDepth : layered data "output" "max_depth" depthOf base.maxDepth = .ok s.maxDepth
  marker : layered data "parser" "marker" textOf base.marker = .ok s.marker
  extensions : layered data "catalog" "extensions" listOf base.extensions = .ok s.extensions
  skipPatterns : layered data "catalog" "skip_patterns" listOf base.skipPatterns =
    .ok s.skipPatterns
  clipboardCommand : layered data "clipboard" "command" commandOf base.clipboardCommand =
    .ok s.clipboardCommand

/-- The first fault of a document, in the order in which its keys are applied. -/
def firstFault? (room : Nat) (data : Toml.Entries) : Option SettingFault :=
  (faultAt? data "output" "indent" (indentOf room)).or <|
  (faultAt? data "output" "external_placeholder" textOf).or <|
  (faultAt? data "output" "recursion_placeholder" textOf).or <|
  (faultAt? data "output" "max_depth" depthOf).or <|
  (faultAt? data "parser" "marker" textOf).or <|
  (faultAt? data "catalog" "extensions" listOf).or <|
  (faultAt? data "catalog" "skip_patterns" listOf).or <|
  faultAt? data "clipboard" "command" commandOf

/-- A document is applied setting by setting: no key looks at what the keys before have set. -/
theorem applyTable_eq (room : Nat) (data : Toml.Entries) (base : Settings) :
    applyTable room data base = (do
      let indent ← layered data "output" "indent" (indentOf room) base.indent
      let externalPlaceholder ←
        layered data "output" "external_placeholder" textOf base.externalPlaceholder
      let recursionPlaceholder ←
        layered data "output" "recursion_placeholder" textOf base.recursionPlaceholder
      let maxDepth ← layered data "output" "max_depth" depthOf base.maxDepth
      let marker ← layered data "parser" "marker" textOf base.marker
      let extensions ← layered data "catalog" "extensions" listOf base.extensions
      let skipPatterns ← layered data "catalog" "skip_patterns" listOf base.skipPatterns
      (layered data "clipboard" "command" commandOf base.clipboardCommand).map
        fun clipboardCommand => ⟨indent, externalPlaceholder, recursionPlaceholder, maxDepth, marker,
          extensions, skipPatterns, clipboardCommand⟩) := by
  have hindent (s : Settings) := applyKey_eq (s := s) data "output" "indent" (indentOf room)
    (fun s x => { s with indent := x }) rfl
  have hexternal (s : Settings) := applyKey_eq (s := s) data "output"
    "external_placeholder" textOf (fun s x => { s with externalPlaceholder := x }) rfl
  have hrecursion (s : Settings) := applyKey_eq (s := s) data "output"
    "recursion_placeholder" textOf (fun s x => { s with recursionPlaceholder := x }) rfl
  have hdepth (s : Settings) := applyKey_eq (s := s) data "output" "max_depth" depthOf
    (fun s x => { s with maxDepth := x }) rfl
  have hmarker (s : Settings) := applyKey_eq (s := s) data "parser" "marker" textOf
    (fun s x => { s with marker := x }) rfl
  have hextensions (s : Settings) := applyKey_eq (s := s) data "catalog" "extensions"
    listOf (fun s x => { s with extensions := x }) rfl
  have hpatterns (s : Settings) := applyKey_eq (s := s) data "catalog" "skip_patterns"
    listOf (fun s x => { s with skipPatterns := x }) rfl
  have hcommand (s : Settings) := applyKey_eq (s := s) data "clipboard" "command"
    commandOf (fun s x => { s with clipboardCommand := x }) rfl
  -- The empty command is told apart while it is set, rather than when it is converted.
  simp only [commandOf, SettingFault.map_map] at hcommand
  unfold applyTable
  simp only [hindent, hexternal, hrecursion, hdepth, hmarker, hextensions, hpatterns,
    hcommand, SettingFault.map_bind]

theorem applyTable_eq_ok_iff {base s : Settings} :
    applyTable room data base = .ok s ↔ Replaces room data base s := by
  rw [applyTable_eq]
  simp only [SettingFault.bind_eq_ok_iff]
  constructor
  · rintro ⟨_, hindent, _, hexternal, _, hrecursion, _, hdepth, _, hmarker, _, hextensions, _,
      hpatterns, h⟩
    obtain ⟨_, hcommand, rfl⟩ := SettingFault.map_eq_ok_iff.1 h
    exact ⟨hindent, hexternal, hrecursion, hdepth, hmarker, hextensions, hpatterns, hcommand⟩
  · intro h
    exact ⟨_, h.indent, _, h.externalPlaceholder, _, h.recursionPlaceholder, _, h.maxDepth, _,
      h.marker, _, h.extensions, _, h.skipPatterns,
      SettingFault.map_eq_ok_iff.2 ⟨_, h.clipboardCommand, rfl⟩⟩

/-- The fault for which a document is refused is its first one. -/
theorem fault?_applyTable (base : Settings) : of? (applyTable room data base) = firstFault? room data := by
  rw [applyTable_eq, firstFault?, ← of?_layered "output" "indent" (indentOf room) base.indent,
    ← of?_layered "output" "external_placeholder" textOf base.externalPlaceholder,
    ← of?_layered "output" "recursion_placeholder" textOf base.recursionPlaceholder,
    ← of?_layered "output" "max_depth" depthOf base.maxDepth,
    ← of?_layered "parser" "marker" textOf base.marker,
    ← of?_layered "catalog" "extensions" listOf base.extensions,
    ← of?_layered "catalog" "skip_patterns" listOf base.skipPatterns,
    ← of?_layered "clipboard" "command" commandOf base.clipboardCommand]
  repeat refine SettingFault.of?_bind fun _ => ?_
  exact SettingFault.of?_map _ _

theorem applyTable_eq_error_iff {base : Settings} {fault : SettingFault} :
    applyTable room data base = .error fault ↔ firstFault? room data = some fault := by
  rw [← fault?_applyTable base, SettingFault.of?_eq_some_iff]

/-! ## Depth limits -/

theorem one_le_of_depthOfText {s : Text} {d : Int} (h : depthOfText s = .ok d) : 1 ≤ d := by
  unfold depthOfText at h
  split at h
  · exact one_le_of_depthOfInt h
  · cases h

theorem one_le_of_depthOf {v : Toml.Value} {d : Int} (h : depthOf v = .ok d) : 1 ≤ d := by
  unfold depthOf at h
  split at h
  case h_2 => exact one_le_of_depthOfInt h
  case h_3 => exact one_le_of_depthOfText h
  case h_4 => exact one_le_of_depthOfInt h
  all_goals cases h

/-- A document leaves no depth limit below one. -/
theorem Replaces.one_le_maxDepth {base s : Settings} (h : Replaces room data base s)
    (hbase : 1 ≤ base.maxDepth) : 1 ≤ s.maxDepth :=
  of_layered h.maxDepth hbase fun _ _ => one_le_of_depthOf

/-! ## Faults beyond all bounds -/

/-- So many spaces are beyond all bounds: for their number itself, or for want of room. -/
inductive Excess (room : Nat) (n : Int) : SettingFault → Prop
  | size (h : sizeLimit < n) : Excess room n .indentTooLarge
  | memory (hsize : n ≤ sizeLimit) (h : room < n) : Excess room n .outOfMemory

/-- A value that asks for too many spaces: a whole number, or a text of digits. -/
inductive TooManySpaces (room : Nat) : Toml.Value → SettingFault → Prop
  | number {n : Int} {fault : SettingFault} (h : Excess room n fault) :
    TooManySpaces room (.integer n) fault
  | digits {s : Text} {n : Int} {fault : SettingFault}
    (htab : Text.lower s ∉ ["tab".toList, ['\\', 't'], ['\t']])
    (hdigits : s ≠ [] ∧ s.all Text.isDigit) (hread : Integer.read s = .ok n)
    (h : Excess room n fault) : TooManySpaces room (.text s) fault

theorem unbounded_spaces_iff {n : Int} {fault : SettingFault} :
    spaces room n = .error fault ∧ fault.isUnbounded = true ↔ Excess room n fault := by
  constructor
  · rintro ⟨h, hunbounded⟩
    unfold spaces at h
    split at h
    · cases h
      cases hunbounded
    · split at h
      · cases h
        exact .size ‹_›
      · split at h
        · cases h
          exact .memory (Int.not_lt.1 ‹_›) ‹_›
        · cases h
  · have hlimit : 0 ≤ sizeLimit := by decide
    unfold spaces
    rintro (h | ⟨hsize, h⟩)
    · rw [if_neg (by omega), if_pos h]
      exact ⟨rfl, rfl⟩
    · rw [if_neg (by omega), if_neg (Int.not_lt.2 hsize), if_pos h]
      exact ⟨rfl, rfl⟩

theorem unbounded_indentOfText_iff {s : Text} {fault : SettingFault} :
    indentOfText room s = .error fault ∧ fault.isUnbounded = true ↔
      TooManySpaces room (.text s) fault := by
  unfold indentOfText
  constructor
  · rintro ⟨h, hunbounded⟩
    split at h
    · cases h
    · split at h
      · rename_i htab hdigits
        split at h
        · rename_i n hread
          exact .digits htab hdigits hread (unbounded_spaces_iff.1 ⟨h, hunbounded⟩)
        · cases h
          cases hunbounded
      · cases h
  · rintro (_ | ⟨htab, hdigits, hread, hn⟩)
    rw [if_neg htab, if_pos hdigits, hread]
    exact unbounded_spaces_iff.2 hn

theorem unbounded_indentOf_iff {v : Toml.Value} {fault : SettingFault} :
    indentOf room v = .error fault ∧ fault.isUnbounded = true ↔ TooManySpaces room v fault := by
  cases v with
  | integer n => exact unbounded_spaces_iff.trans ⟨.number, fun | .number h => h⟩
  | text s => exact unbounded_indentOfText_iff
  | _ =>
    -- Any other value is no indent, by its kind.
    refine ⟨?_, by rintro ⟨⟩⟩
    rintro ⟨h, hunbounded⟩
    unfold indentOf at h
    cases h
    split at hunbounded <;> cases hunbounded

/-- No fault of the computation is beyond all bounds. -/
def Bounded (x : Except SettingFault α) : Prop :=
  ∀ fault, x = .error fault → fault.isUnbounded = false

theorem bounded_depthOfInt (n : Int) : Bounded (depthOfInt n) := by
  intro fault h
  unfold depthOfInt at h
  split at h
  · cases h
    rfl
  · cases h

theorem bounded_depthOfText (s : Text) : Bounded (depthOfText s) := by
  intro fault h
  unfold depthOfText at h
  split at h
  · exact bounded_depthOfInt _ fault h
  · cases h
    rfl

theorem unbounded_depthOf_iff {v : Toml.Value} {fault : SettingFault} :
    depthOf v = .error fault ∧ fault.isUnbounded = true ↔
      fault = .depthInfinite ∧ ∃ negative, v = .float (.infinite negative) := by
  constructor
  · rintro ⟨h, hunbounded⟩
    unfold depthOf at h
    split at h
    case h_2 => cases (bounded_depthOfInt _ _ h).symm.trans hunbounded
    case h_3 => cases (bounded_depthOfText _ _ h).symm.trans hunbounded
    case h_4 => cases (bounded_depthOfInt _ _ h).symm.trans hunbounded
    case h_5 => cases h; exact ⟨rfl, _, rfl⟩
    all_goals cases h; cases hunbounded
  · rintro ⟨rfl, negative, rfl⟩
    exact ⟨rfl, rfl⟩

theorem bounded_textOf (v : Toml.Value) : Bounded (textOf v) := by
  intro fault h
  unfold textOf at h
  split at h
  · cases h
    rfl
  · cases h

theorem bounded_commandOf (v : Toml.Value) : Bounded (commandOf v) := by
  intro fault h
  unfold commandOf at h
  cases hv : textOf v with
  | ok x => rw [hv] at h; cases h
  | error _ => rw [hv] at h; cases h; exact bounded_textOf v _ hv

theorem bounded_mapM_textOf (items : List Toml.Value) : Bounded (items.mapM textOf) := by
  induction items with
  | nil => exact fun _ h => nomatch h
  | cons v items ih =>
    intro fault h
    rw [List.mapM_cons] at h
    cases hv : textOf v with
    | error _ => rw [hv] at h; cases h; exact bounded_textOf v _ hv
    | ok x =>
      cases hitems : items.mapM textOf with
      | error _ => rw [hv, hitems] at h; cases h; exact ih _ hitems
      | ok xs => rw [hv, hitems] at h; cases h

theorem bounded_listOf (v : Toml.Value) : Bounded (listOf v) := by
  intro fault h
  unfold listOf at h
  split at h
  · exact bounded_mapM_textOf _ fault h
  all_goals cases h
  rfl

theorem bounded_member? (v : Toml.Value) (key : Text) : Bounded (member? v key) := by
  intro fault h
  unfold member? at h
  split at h
  · cases h
  · split at h <;> cases h
    rfl
  · dsimp only at h
    split at h <;> cases h
    rfl
  · cases h
    rfl

theorem bounded_valueAt? (section_ key : String) : Bounded (valueAt? data section_ key) := by
  intro fault h
  unfold valueAt? at h
  split at h
  · cases h
  · exact bounded_member? _ _ fault h

/-- A fault beyond all bounds at a key is one of the value there. -/
theorem faultAt?_unbounded_iff {section_ key : String} {convert : Toml.Value → Except SettingFault α}
    {fault : SettingFault} :
    faultAt? data section_ key convert = some fault ∧ fault.isUnbounded = true ↔
      ∃ v, valueAt? data section_ key = .ok (some v) ∧
        convert v = .error fault ∧ fault.isUnbounded = true := by
  unfold faultAt?
  cases h : valueAt? data section_ key with
  | error _ =>
    refine ⟨?_, by rintro ⟨_, ⟨⟩, _⟩⟩
    rintro ⟨⟨⟩, hunbounded⟩
    cases (bounded_valueAt? _ _ _ h).symm.trans hunbounded
  | ok value =>
    cases value with
    | none => simp
    | some v => simp [SettingFault.of?_eq_some_iff]

theorem faultAt?_bounded {section_ key : String} {convert : Toml.Value → Except SettingFault α}
    (hconvert : ∀ v, Bounded (convert v)) {fault : SettingFault} :
    ¬ (faultAt? data section_ key convert = some fault ∧ fault.isUnbounded = true) := by
  rw [faultAt?_unbounded_iff]
  rintro ⟨v, -, h, hunbounded⟩
  cases (hconvert v fault h).symm.trans hunbounded

/-- The faults of a document that are beyond all bounds. A depth limit is only looked at where the keys
before it have no fault. -/
inductive Exceeds (room : Nat) (data : Toml.Entries) : SettingFault → Prop
  | indent {v : Toml.Value} {fault : SettingFault}
    (hvalue : valueAt? data "output" "indent" = .ok (some v)) (h : TooManySpaces room v fault) :
    Exceeds room data fault
  | maxDepth {negative : Bool} (hindent : faultAt? data "output" "indent" (indentOf room) = none)
    (hexternal : faultAt? data "output" "external_placeholder" textOf = none)
    (hrecursion : faultAt? data "output" "recursion_placeholder" textOf = none)
    (hvalue : valueAt? data "output" "max_depth" = .ok (some (.float (.infinite negative)))) :
    Exceeds room data .depthInfinite

theorem exceeds_iff {fault : SettingFault} :
    firstFault? room data = some fault ∧ fault.isUnbounded = true ↔ Exceeds room data fault := by
  unfold firstFault?
  simp only [Option.or_eq_some_iff, or_and_right, and_assoc]
  simp only [faultAt?_bounded bounded_textOf, faultAt?_bounded bounded_listOf,
    faultAt?_bounded bounded_commandOf, faultAt?_unbounded_iff, and_false, false_or, or_false,
    unbounded_indentOf_iff, unbounded_depthOf_iff]
  constructor
  · rintro (⟨v, hvalue, h⟩ | ⟨hindent, hexternal, hrecursion, _, hvalue, rfl, negative, rfl⟩)
    · exact .indent hvalue h
    · exact .maxDepth hindent hexternal hrecursion hvalue
  · rintro (⟨hvalue, h⟩ | ⟨hindent, hexternal, hrecursion, hvalue⟩)
    · exact .inl ⟨_, hvalue, h⟩
    · exact .inr ⟨hindent, hexternal, hrecursion, _, hvalue, rfl, _, rfl⟩

end Settings

end RecordSkeleton
