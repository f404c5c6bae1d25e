import RecordSkeleton.Proofs.Generation.FixedText
import RecordSkeleton.Proofs.Text.Lines

/-!
# Nested skeletons

A declaration that is expanded inside another one has the skeleton that it has on its own, with one
more unit in front of every line but the first.

1. The values of the two generations differ by the shift only: shifting passes through containers
   (`valueRel_shift`) and through a multi-line object (`shiftLines_renderObject`).
2. The guard of the expansion decides in the same way one level deeper, as long as the name on top of
   the path is the name of no declaration that is found (`generate_nestedUnder_similar`).
3. So the two generations end in the same way, with the same queries (`generate_nestedUnder`).
-/

namespace RecordSkeleton

open Text

variable {ε : Type} {indent : Text}

/-- The context one level deeper, inside an expansion of the name `r`. -/
def Context.nestedUnder (r : Text) (ctx : Context ε) : Context ε :=
  { ctx with depth := ctx.depth + 1, maxDepth := ctx.maxDepth + 1, path := r :: ctx.path }

theorem Context.descend_nestedUnder (r name : Text) (ctx : Context ε) :
    (ctx.nestedUnder r).descend name = (ctx.descend name).nestedUnder r := rfl

/-! ## Shifted texts -/

/-- The second text is the first one shifted, which ends in no line feed. -/
structure Shifted (indent x y : Text) : Prop where
  eq : y = shiftLines indent x
  last : x.getLast? ≠ some '\n'

namespace Shifted

theorem of_not_mem {x : Text} (hx : '\n' ∉ x) : Shifted indent x x :=
  ⟨(shiftLines_of_not_mem hx).symm, getLast?_ne_of_not_mem hx⟩

theorem append {x y x' y' : Text} (h : Shifted indent x y) (h' : Shifted indent x' y') :
    Shifted indent (x ++ x') (y ++ y') := by
  refine ⟨by rw [shiftLines_append h.last, h.eq, h'.eq], fun hl => ?_⟩
  rw [List.getLast?_append] at hl
  cases hx : x'.getLast? with
  | none =>
    rw [hx] at hl
    exact h.last hl
  | some c =>
    rw [hx] at hl
    exact h'.last (hx.trans hl)

end Shifted

/-- The relation of the values of two generations. -/
def ShiftedValue (indent : Text) (v v' : Value) : Prop := Shifted indent v.render v'.render

theorem not_mem_fixedText {moment : Moment} {text : Text} (h : FixedText moment text) :
    '\n' ∉ text := by
  have hwords : ∀ w ∈ fixedWords, '\n' ∉ w := by decide
  rcases h.cases with h | ⟨x, hx, rfl⟩
  · exact hwords text h
  · have hx' : '\n' ∉ x := fun hc => absurd (hx _ hc) (by decide)
    simp [hx']

theorem valueRel_shift (moment : Moment) (indent : Text) :
    ValueRel moment (ShiftedValue indent) where
  literal := fun text h => Shifted.of_not_mem (not_mem_fixedText h)
  emptyArray := Shifted.of_not_mem (by decide)
  emptyObject := Shifted.of_not_mem (by decide)
  array := by
    intro a b h
    have hopen : Shifted indent ['[', ' '] ['[', ' '] := .of_not_mem (by decide)
    exact (hopen.append h).append (.of_not_mem (by decide))
  pair := by
    intro k k' v v' hk hv
    have hopen : Shifted indent ['\x7b', ' '] ['\x7b', ' '] := .of_not_mem (by decide)
    have hcolon : Shifted indent [':', ' '] [':', ' '] := .of_not_mem (by decide)
    have hpair := (hopen.append ((hk.append hcolon).append hv)).append
      (.of_not_mem (x := [' ', '\x7d']) (by decide))
    unfold ShiftedValue Value.render Value.renderPairs Value.renderPairs
    simpa only [join, List.intersperse, List.flatten_cons, List.flatten_nil, List.append_nil]
      using hpair

/-! ## Entries -/

theorem not_mem_name {list : Text} {f : Field} (hf : f ∈ Field.listOfText list) : '\n' ∉ f.name := by
  obtain ⟨s, -, hs⟩ := List.mem_filterMap.1 hf
  unfold Field.ofText? at hs
  simp only at hs
  split at hs
  · rename_i name t ts hlast _
    cases hs
    intro hc
    have := not_isBlank_of_mem_words (List.mem_of_getLast? hlast) _ hc
    exact absurd this (by decide)
  · cases hs

/-- The relation of the entries of two generations. -/
structure ShiftedEntry (indent e e' : Text) : Prop extends Shifted indent e e' where
  entry : IsEntry e

theorem shiftedEntry {name : Text} (hname : '\n' ∉ name) {v v' : Value}
    (h : ShiftedValue indent v v') : ShiftedEntry indent (entry name v) (entry name v') := by
  have hkey : '\n' ∉ ['"'] ++ name ++ ['"', ':', ' '] := by simp [hname]
  have hs : Shifted indent (entry name v) (entry name v') := (Shifted.of_not_mem hkey).append h
  exact ⟨hs, ⟨'"', _, rfl, by decide⟩, hs.last⟩

theorem shiftedEntries {es es' : List Text} (h : List.Forall₂ (ShiftedEntry indent) es es') :
    (∀ e ∈ es, IsEntry e) ∧ es' = es.map (shiftLines indent) := by
  induction h with
  | nil => exact ⟨fun e he => (List.not_mem_nil he).elim, rfl⟩
  | cons hab _ ih =>
    refine ⟨fun e he => ?_, by rw [List.map_cons, hab.eq, ih.2]⟩
    rcases List.mem_cons.1 he with rfl | he
    · exact hab.entry
    · exact ih.1 e he

theorem shifted_renderObject {es es' : List Text} {depth : Int} (hi : '\n' ∉ indent)
    (hd : 1 ≤ depth) (h : List.Forall₂ (ShiftedEntry indent) es es') :
    Shifted indent (renderObject es depth indent) (renderObject es' (depth + 1) indent) := by
  obtain ⟨hes, rfl⟩ := shiftedEntries h
  refine ⟨(shiftLines_renderObject hi hd hes).symm, ?_⟩
  have hlast : ∀ x y : Text, ('\x7b' :: '\n' :: (x ++ '\n' :: (y ++ ['\x7d']))).getLast? = some '\x7d' := by
    intro x y
    rw [show '\x7b' :: '\n' :: (x ++ '\n' :: (y ++ ['\x7d'])) =
      ('\x7b' :: '\n' :: (x ++ '\n' :: y)) ++ ['\x7d'] by simp, List.getLast?_concat]
  rw [renderObject_eq, hlast]
  decide

/-! ## Nested generations -/

/-- Two generations of a declaration, one of them inside an expansion of a name that no declaration
carries, are similar: they ask the same questions, and the texts differ by a shift. -/
theorem generate_nestedUnder_similar {r : Text} (ctx : Context ε) (hdepth : 1 ≤ ctx.depth)
    (hindent : '\n' ∉ ctx.indent) (hexternal : '\n' ∉ ctx.externalPlaceholder)
    (hrecursion : '\n' ∉ ctx.recursionPlaceholder)
    (hr : ∀ name found, ctx.catalog name = .ok found → ∀ d ∈ found, d.name ≠ r)
    (d : Declaration) :
    Run.Similar Event.query? (Shifted ctx.indent) (generate ctx d)
      (generate (ctx.nestedUnder r) d) := by
  induction ctx using Context.descend_induction generalizing d with
  | level ctx ih =>
    have hV := valueRel_shift ctx.moment ctx.indent
    rw [generate_eq, generate_eq]
    refine generateWith_similar (V := ShiftedValue ctx.indent) (E := ShiftedEntry ctx.indent) rfl
      (.of_not_mem (by decide)) ?_ ?_ ?_
    · -- Every name is answered in the same way, and what is expanded is expanded one level deeper.
      have hcatalog : (ctx.nestedUnder r).catalog = ctx.catalog := rfl
      refine resolve_similar hV rfl fun name => ?_
      refine resolveName_similar hV hcatalog (Shifted.of_not_mem hexternal) fun found f hfound hf => ?_
      have hne : f.name ≠ r := hr name found hfound f hf
      refine resolveExpandable_similar (T := Shifted ctx.indent) ?_ rfl
        (Shifted.of_not_mem hrecursion) (fun t t' h => h) fun _ hlt _ => ?_
      · have hmem : f.name ∈ r :: ctx.path ↔ f.name ∈ ctx.path := by simp [hne]
        show f.name ∉ r :: ctx.path ∧ ctx.depth + 1 < ctx.maxDepth + 1 ↔ _
        rw [hmem, Int.add_lt_add_iff_right]
      · have hdepth' : 1 ≤ (ctx.descend f.name).depth := Int.le_trans hdepth (Int.le_add_one (Int.le_refl _))
        rw [Context.descend_nestedUnder]
        exact ih hlt f.name hdepth' hindent hexternal hrecursion hr f
    · exact fun list _ f hf v v' h => shiftedEntry (not_mem_name hf) h
    · exact fun es es' h => shifted_renderObject hindent hdepth h

/-- A declaration that is expanded one level deeper, inside an expansion of a name that no declaration
of the catalog carries, has its own skeleton, shifted by one unit: both generations ask the catalog
for the same names and end with the same error, if with any. -/
theorem generate_nestedUnder {r : Text} (ctx : Context ε) (hdepth : 1 ≤ ctx.depth)
    (hindent : '\n' ∉ ctx.indent) (hexternal : '\n' ∉ ctx.externalPlaceholder)
    (hrecursion : '\n' ∉ ctx.recursionPlaceholder)
    (hr : ∀ name found, ctx.catalog name = .ok found → ∀ d ∈ found, d.name ≠ r)
    (d : Declaration) :
    (generate (ctx.nestedUnder r) d).result =
        (generate ctx d).result.map (shiftLines ctx.indent) ∧
      (generate (ctx.nestedUnder r) d).events.filterMap Event.query? =
        (generate ctx d).events.filterMap Event.query? := by
  have h := generate_nestedUnder_similar ctx hdepth hindent hexternal hrecursion hr d
  refine ⟨?_, h.events.symm⟩
  have hresult := h.result
  generalize (generate ctx d).result = x at hresult
  generalize (generate (ctx.nestedUnder r) d).result = y at hresult
  cases hresult with
  | ok hxy => exact congrArg Except.ok hxy.eq
  | error e => rfl

theorem generate_nestedUnder_order :
    1 ≤ orderContext.depth ∧ '\n' ∉ orderContext.indent ∧ '\n' ∉ orderContext.externalPlaceholder ∧
      '\n' ∉ orderContext.recursionPlaceholder ∧
      (∀ name found, orderContext.catalog name = .ok found → ∀ d ∈ found, d.name ≠ "Root".toList) ∧
      (generate (orderContext.nestedUnder "Root".toList) orderRecord).result =
          (generate orderContext orderRecord).result.map (shiftLines orderContext.indent) ∧
        (generate (orderContext.nestedUnder "Root".toList) orderRecord).events.filterMap Event.query? =
          (generate orderContext orderRecord).events.filterMap Event.query? := by
  have hr : ∀ name found, orderContext.catalog name = .ok found →
      ∀ d ∈ found, d.name ≠ "Root".toList := by
    rintro name _ ⟨⟩ d hd
    have hnames : ∀ d ∈ [orderRecord, projectRecord "Person" "Order last, int age",
        projectRecord "Unit" ""], d.name ≠ "Root".toList := by decide
    exact hnames d (List.mem_filter.1 hd).1
  exact ⟨by decide, by decide, by decide, by decide, hr,
    generate_nestedUnder orderContext (by decide) (by decide) (by decide) (by decide) hr orderRecord⟩

end RecordSkeleton
