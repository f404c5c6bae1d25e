import RecordSkeleton.Proofs.Generation.Guard
import RecordSkeleton.Proofs.TypeExpr.Spelling

/-!
# Containers

The text of a container has its arguments between the outermost angle brackets, with commas between
them. An argument may be any text that is not cut at one of its own commas (`IsArgument`).

1. The arguments in front of a text are the first types that it is cut into (`exists_splitTopLevel`).
2. So the default of a container is made of those of its arguments' own texts, which are resolved one
   after the other, and no other argument is; a name in front of angle brackets that is no container
   stands for an empty object (`resolveText_bracketed`).
-/

namespace RecordSkeleton

open Text

/-! ## Arguments -/

/-- A text that is one argument: it is not blank, as many angle brackets open as close in it, and none of
its commas stands where as many have opened as have closed. -/
structure IsArgument (a : Text) : Prop where
  not_blank : ¬ AllBlank a
  count_eq : a.count '<' = a.count '>'
  comma : ∀ p q, a = p ++ ',' :: q → p.count '<' ≠ p.count '>'

theorem isArgument_iff {a : Text} : IsArgument a ↔ ¬ AllBlank a ∧ a.count '<' = a.count '>' ∧
    ∀ i < a.length, a[i]? = some ',' → (a.take i).count '<' ≠ (a.take i).count '>' := by
  refine ⟨fun h => ⟨h.not_blank, h.count_eq, fun i hi hc => ?_⟩, fun h => ⟨h.1, h.2.1, ?_⟩⟩
  · exact h.comma (a.take i) (a.drop (i + 1)) (take_append_cons_drop hc).symm
  · rintro p q rfl
    have := h.2.2 p.length (by simp)
    rw [List.take_left] at this
    exact this (by simp)

instance (a : Text) : Decidable (IsArgument a) := decidable_of_iff _ isArgument_iff.symm

/-- A text that starts with these arguments, one comma between two neighbours and blanks around each.
Behind a comma after the last of them anything may follow. -/
inductive StartsWith : List Text → Text → Prop
  /-- Nothing follows. -/
  | last {a v w : Text} (hv : AllBlank v) (ha : IsArgument a) (hw : AllBlank w) :
    StartsWith [a] (v ++ (a ++ w))
  /-- Something follows that is not looked at. -/
  | further {a v w : Text} (hv : AllBlank v) (ha : IsArgument a) (hw : AllBlank w) (rest : Text) :
    StartsWith [a] (v ++ (a ++ w) ++ ',' :: rest)
  /-- Another argument follows. -/
  | comma {a v w s : Text} {as : List Text} (hv : AllBlank v) (ha : IsArgument a) (hw : AllBlank w)
    (hs : StartsWith as s) : StartsWith (a :: as) (v ++ (a ++ w) ++ ',' :: s)

/-- The balance of angle brackets counts those that open against those that close. -/
theorem BracketFamilies.balance_angle (s : Text) :
    balance angle.weight s = s.count '<' - s.count '>' := by
  have hweight : angle.weight = Brackets.weight ⟨'<', '>'⟩ := by
    funext c
    simp [weight, Brackets.weight, angle]
  rw [hweight, ← Brackets.depth_eq_balance (by decide)]
  rfl

namespace IsArgument

variable {a v w : Text}

/-- An argument is not cut, and neither are the blanks around it. -/
theorem solid (ha : IsArgument a) (hv : AllBlank v) (hw : AllBlank w) :
    BracketFamilies.angle.Solid (v ++ (a ++ w)) := by
  have hsolid : BracketFamilies.angle.Solid a := by
    refine .of_commas ?_ fun p q hpq => ?_
    · rw [BracketFamilies.balance_angle, ha.count_eq, Int.sub_self]
    · have := ha.comma p q hpq
      rw [BracketFamilies.balance_angle]
      omega
  exact (TypeExpr.solid_angle_blanks hv).append (hsolid.append (TypeExpr.solid_angle_blanks hw))

theorem trim_ne_nil (ha : IsArgument a) : trim a ≠ [] := by
  intro h
  obtain ⟨v, w, hv, hw, heq⟩ := eq_append_trim a
  rw [h] at heq
  exact ha.not_blank (heq ▸ hv.append (allBlank_nil.append hw))

end IsArgument

/-- The segments of a text that starts with arguments are these, but for the blanks around them, and
then those of what follows. -/
theorem StartsWith.exists_segments {as : List Text} {s : Text} (h : StartsWith as s) :
    ∃ rest, (BracketFamilies.angle.segments s).map trim = as.map trim ++ rest := by
  have hcomma : BracketFamilies.angle.weight ',' = 0 := by decide
  induction h with
  | last hv ha hw =>
    refine ⟨[], ?_⟩
    rw [BracketFamilies.segments_solid (ha.solid hv hw), List.map_singleton, trim_blanks hv hw]
    rfl
  | further hv ha hw rest =>
    refine ⟨(BracketFamilies.angle.segments rest).map trim, ?_⟩
    rw [BracketFamilies.segments_solid_comma hcomma (ha.solid hv hw), List.map_cons,
      trim_blanks hv hw]
    rfl
  | comma hv ha hw _ ih =>
    obtain ⟨rest, hrest⟩ := ih
    refine ⟨rest, ?_⟩
    rw [BracketFamilies.segments_solid_comma hcomma (ha.solid hv hw), List.map_cons,
      trim_blanks hv hw, hrest]
    rfl

theorem StartsWith.isArgument {as : List Text} {s : Text} (h : StartsWith as s) :
    ∀ a ∈ as, IsArgument a := by
  induction h with
  | last _ ha _ => exact List.forall_mem_singleton.2 ha
  | further _ ha _ _ => exact List.forall_mem_singleton.2 ha
  | comma _ ha _ _ ih => exact List.forall_mem_cons.2 ⟨ha, ih⟩

/-- The arguments in front of a text are the first types that it is cut into. -/
theorem StartsWith.exists_splitTopLevel {as : List Text} {s : Text} (h : StartsWith as s) :
    ∃ rest, (BracketFamilies.angle.splitTopLevel s).map TypeExpr.ofText =
      as.map TypeExpr.ofText ++ rest := by
  obtain ⟨rest, hrest⟩ := h.exists_segments
  have hne : ∀ p ∈ as.map trim, p ≠ [] :=
    List.forall_mem_map.2 fun a ha => (h.isArgument a ha).trim_ne_nil
  refine ⟨(BracketFamilies.dropEmptyLast rest).map TypeExpr.ofText, ?_⟩
  rw [BracketFamilies.splitTopLevel, hrest, BracketFamilies.dropEmptyLast_append hne,
    List.map_append, List.map_map]
  exact congrArg (· ++ _) (List.map_congr_left fun a _ => TypeExpr.ofText_trim a)

/-! ## Names in front of brackets -/

/-- The written forms of a name with a text in angle brackets behind it: blanks may stand around the name
and behind the brackets. -/
inductive Bracketed (name inner : Text) : Text → Prop
  | intro {g g₁ g₂ : Text} (hg : AllBlank g) (hg₁ : AllBlank g₁) (hg₂ : AllBlank g₂) :
    Bracketed name inner (g ++ (name ++ g₁) ++ '<' :: (inner ++ '>' :: g₂))

/-- A name in front of brackets is read with what is cut from between them. -/
theorem Bracketed.ofText_eq {name inner s : Text} (h : Bracketed name inner s) (hname : '<' ∉ name) :
    TypeExpr.ofText s = .generic (trim name)
      ((BracketFamilies.angle.splitTopLevel inner).map TypeExpr.ofText) := by
  obtain ⟨hg, hg₁, hg₂⟩ := h
  rename_i g g₁ g₂
  have hblank : ∀ {w : Text}, AllBlank w → '<' ∉ w := fun hw hmem => absurd (hw _ hmem) (by decide)
  have hlt : '<' ∉ g ++ (name ++ g₁) := by
    simp only [List.mem_append, not_or]
    exact ⟨hblank hg, hname, hblank hg₁⟩
  rw [TypeExpr.ofText_bracketed hlt hg₂, trim_blanks hg hg₁]

/-! ## The default of a container -/

theorem Container.ofName?_of_mem_collectionNames {name : Text} (h : name ∈ collectionNames) :
    ofName? name = some .collection := by
  unfold ofName?
  rw [if_pos h]

theorem Container.ofName?_of_mem_mapNames {name : Text} (h : name ∈ mapNames) :
    ofName? name = some .map := by
  have hdisjoint : ∀ n ∈ mapNames, n ∉ collectionNames := by decide
  unfold ofName?
  rw [if_neg (hdisjoint name h), if_pos h]

/-- The names of containers hold no brackets and no blanks around them. -/
theorem Container.bare_of_ofName? {name : Text} {c : Container} (h : ofName? name = some c) :
    '<' ∉ name ∧ trim name = name := by
  have hnames : ∀ n ∈ collectionNames ++ (mapNames ++ [optionalName]), '<' ∉ n ∧ trim n = n := by
    decide
  refine hnames name ?_
  simp only [List.mem_append, List.mem_singleton]
  unfold ofName? at h
  split at h
  · exact Or.inl ‹_›
  · split at h
    · exact Or.inr (Or.inl ‹_›)
    · split at h
      · exact Or.inr (Or.inr ‹_›)
      · cases h

section Resolve

variable {ε : Type} (ctx : Context ε) {name inner s : Text}

/-- What is resolved for a name in front of brackets. -/
theorem Bracketed.resolveText_eq (h : Bracketed name inner s) (hname : '<' ∉ name) :
    resolveText ctx s = resolve ctx (fun found _ => generate (ctx.descend found.name) found)
      (.generic (trim name) ((BracketFamilies.angle.splitTopLevel inner).map TypeExpr.ofText)) := by
  unfold resolveText
  rw [h.ofText_eq hname]

/-- What is resolved for a container whose text starts with arguments. -/
theorem Bracketed.exists_resolveText_eq {c : Container} {as : List Text} (h : Bracketed name inner s)
    (hc : Container.ofName? name = some c) (has : StartsWith as inner) :
    ∃ rest, resolveText ctx s =
      resolve ctx (fun found _ => generate (ctx.descend found.name) found)
        (.generic name (as.map TypeExpr.ofText ++ rest)) := by
  obtain ⟨hlt, htrim⟩ := Container.bare_of_ofName? hc
  obtain ⟨rest, hrest⟩ := has.exists_splitTopLevel
  exact ⟨rest, by rw [h.resolveText_eq ctx hlt, htrim, hrest]⟩

end Resolve

/-- The default of a container is made of those of its arguments' texts. They are resolved one after the
other, so that an error of the first of two ends it; an argument that the container does not take is not
resolved. Any other name in front of brackets stands for an empty object, and nothing is resolved. -/
theorem resolveText_bracketed {ε : Type} (ctx : Context ε) {name inner s : Text}
    (h : Bracketed name inner s) :
    (∀ a, name ∈ Container.collectionNames → StartsWith [a] inner →
      resolveText ctx s = (do
        Run.emit (.resolving name)
        let item ← resolveText ctx a
        pure (.array item))) ∧
    (∀ a b, name ∈ Container.mapNames → StartsWith [a, b] inner →
      resolveText ctx s = (do
        Run.emit (.resolving name)
        let key ← resolveText ctx a
        let value ← resolveText ctx b
        pure (.object [(key, value)]))) ∧
    (∀ a, name = Container.optionalName → StartsWith [a] inner →
      resolveText ctx s = (do
        Run.emit (.resolving name)
        resolveText ctx a)) ∧
    ('<' ∉ name → trim name ∉ Container.collectionNames → trim name ∉ Container.mapNames →
      trim name ≠ Container.optionalName →
      resolveText ctx s = ⟨[.resolving (trim name)], .ok (.object [])⟩) := by
  refine ⟨fun a hname ha => ?_, fun a b hname hab => ?_, fun a hname ha => ?_,
    fun hlt hcollection hmap hoptional => ?_⟩
  · have hc := Container.ofName?_of_mem_collectionNames hname
    obtain ⟨rest, heq⟩ := h.exists_resolveText_eq ctx hc ha
    rw [heq]
    unfold resolve
    simp only [hc, map_eq_pure_bind]
    rfl
  · have hc := Container.ofName?_of_mem_mapNames hname
    obtain ⟨rest, heq⟩ := h.exists_resolveText_eq ctx hc hab
    rw [heq]
    unfold resolve
    simp only [hc]
    rfl
  · subst hname
    have hc : Container.ofName? Container.optionalName = some .optional := by decide
    obtain ⟨rest, heq⟩ := h.exists_resolveText_eq ctx hc ha
    rw [heq]
    unfold resolve
    simp only [hc]
    rfl
  · have hc : Container.ofName? (trim name) = none := by
      unfold Container.ofName?
      rw [if_neg hcollection, if_neg hmap, if_neg hoptional]
    rw [h.resolveText_eq ctx hlt]
    unfold resolve
    simp only [hc]
    rfl

/-- Two arguments, and a third one that is not even balanced. -/
def ordersInner : Text := "List<Unit> , Optional<Order>, x<".toList

def ordersText : Text := " Map <List<Unit> , Optional<Order>, x<> ".toList

theorem startsWith_ordersInner :
    StartsWith ["List<Unit>".toList, "Optional<Order>".toList] ordersInner := by
  have hlist : IsArgument "List<Unit>".toList := by decide
  have hoptional : IsArgument "Optional<Order>".toList := by decide
  have hspace : AllBlank [' '] := by decide
  exact .comma allBlank_nil hlist hspace
    (.further hspace hoptional allBlank_nil " x<".toList)

theorem resolveText_bracketed_orders :
    Bracketed "Map".toList ordersInner ordersText ∧ "Map".toList ∈ Container.mapNames ∧
      StartsWith ["List<Unit>".toList, "Optional<Order>".toList] ordersInner ∧
      resolveText rootOrderContext ordersText = (do
        Run.emit (.resolving "Map".toList)
        let key ← resolveText rootOrderContext "List<Unit>".toList
        let value ← resolveText rootOrderContext "Optional<Order>".toList
        pure (.object [(key, value)])) := by
  have hspace : AllBlank [' '] := by decide
  have hmap : "Map".toList ∈ Container.mapNames := by decide
  have h : Bracketed "Map".toList ordersInner ordersText := .intro hspace hspace hspace
  exact ⟨h, hmap, startsWith_ordersInner,
    (resolveText_bracketed rootOrderContext h).2.1 _ _ hmap startsWith_ordersInner⟩

end RecordSkeleton
