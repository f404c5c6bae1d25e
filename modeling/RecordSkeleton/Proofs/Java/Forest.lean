import RecordSkeleton.Proofs.Java.Masking
import RecordSkeleton.Proofs.Java.Opaque

/-!
# Declaration forests

A source without literals and comments is a forest: opaque text with declarations in between, the
body of each declaration being a forest again.

1. The print of a well-formed forest is nested in curly brackets (`Forest.WellFormed.nested`), so the
   depth at every offset where the search for declarations starts again is zero.
2. Searching the print of a forest finds its declarations in pre-order (`map_sitesFrom_print`).
3. Reading a source undoes printing its forest (`declarations_print`).
-/

namespace RecordSkeleton.Java

open Text

/-- The text of a file or of a body: opaque text, with declarations in between. -/
inductive Forest where
  /-- Text up to the end. -/
  | last (t : Text)
  /-- Text, a declaration with the forest of its body, and what follows. -/
  | declaration (t : Text) (h : Head) (body rest : Forest)

namespace Forest

def print : Forest → Text
  | last t => t
  | declaration t h body rest => t ++ (h.text ++ '{' :: (body.print ++ '}' :: rest.print))

/-- The texts are opaque, those in front of a declaration end where it may start, and the heads are
readable and have no braces. -/
inductive WellFormed : Forest → Prop
  | last {t : Text} (ht : Opaque t) : WellFormed (.last t)
  | declaration {t : Text} {h : Head} {body rest : Forest} (ht : Opaque t) (hset : SetOff t)
    (hh : h.Readable) (htail : '{' ∉ h.tail ∧ '}' ∉ h.tail) (hbody : WellFormed body)
    (hrest : WellFormed rest) : WellFormed (.declaration t h body rest)

/-- The declarations of a forest in pre-order, without their constructors. -/
def outline (location : Option Text) (editable : Bool) (nested : Bool) : Forest → List Declaration
  | last _ => []
  | declaration _ h body rest =>
    { name := h.name
      kind := h.keyword.kind
      source := h.text ++ '{' :: (body.print ++ ['}'])
      editable
      constructors := []
      location
      nested } :: (body.outline location editable true ++ rest.outline location editable nested)

end Forest

/-- The declaration without its constructors. -/
def outlined (d : Declaration) : Declaration := { d with constructors := [] }

/-! ## Depth -/

theorem Head.Readable.nested {h : Head} (hh : h.Readable) (htail : '{' ∉ h.tail ∧ '}' ∉ h.tail) :
    Nested Brackets.curly.weight h.text := by
  refine .of_forall fun c hc => ?_
  have hne : c ≠ '{' ∧ c ≠ '}' := by
    simp only [Head.text, List.mem_append] at hc
    rcases hc with hc | hc | hc | hc
    · exact h.keyword.not_brace c hc
    · have hb := hh.blanks c hc
      exact ⟨by rintro rfl; exact absurd hb (by decide), by rintro rfl; exact absurd hb (by decide)⟩
    · have hi := isIdentifierChar_of_mem hh.name c hc
      exact ⟨ne_of_isIdentifierChar hi (by decide), ne_of_isIdentifierChar hi (by decide)⟩
    · exact ⟨fun e => htail.1 (e ▸ hc), fun e => htail.2 (e ▸ hc)⟩
  exact Brackets.weight_eq_zero hne.1 hne.2

theorem nested_declaration {t b : Text} {h : Head} (ht : Opaque t) (hh : h.Readable)
    (htail : '{' ∉ h.tail ∧ '}' ∉ h.tail) (hb : Nested Brackets.curly.weight b) :
    Nested Brackets.curly.weight (t ++ (h.text ++ '{' :: (b ++ ['}']))) :=
  ht.nested.append ((hh.nested htail).append (hb.wrap (by decide) (by decide)))

theorem Forest.WellFormed.nested {f : Forest} (hf : f.WellFormed) :
    Nested Brackets.curly.weight f.print := by
  induction hf with
  | last ht => exact ht.nested
  | declaration ht _ hh htail _ _ ihb ihr =>
    have := (nested_declaration ht hh htail ihb).append ihr
    unfold Forest.print
    simpa using this

theorem depthAt_self (s : Text) (i : Nat) : depthAt s i i = 0 := by
  unfold depthAt slice
  rw [Nat.sub_self, List.take_zero]
  rfl

theorem sitesFrom_self (s : Text) (start i : Nat) (nested : Bool) :
    sitesFrom s start i i nested = [] := by
  have hfind : Header.find? s i i = none := by
    unfold Header.find? slice
    rw [Nat.sub_self, List.take_zero]
    rfl
  rw [sitesFrom_eq, hfind]

/-! ## Reading a print -/

theorem hidesKeyword_of_getLast?_brace {x : Text} {b : Char} (hb : b = '{' ∨ b = '}') :
    ∀ c ∈ (x ++ [b]).getLast?, Header.hidesKeyword c = false := by
  intro c hc
  rw [List.getLast?_concat] at hc
  cases hc
  rcases hb with rfl | rfl <;> decide

section Declaration

variable {s pre t body r : Text} {h : Head} {start : Nat}

theorem slice_declaration (hs : s = pre ++ (t ++ (h.text ++ '{' :: (body ++ '}' :: r)))) :
    slice s (pre.length + t.length)
        (pre.length + t.length + h.text.length + (body.length + 1) + 1) =
      h.text ++ '{' :: (body ++ ['}']) := by
  refine slice_eq (u := pre ++ t) (w := r) ?_ List.length_append.symm ?_
  · rw [hs]
    simp only [List.append_assoc, List.cons_append, List.nil_append]
  · simp only [List.length_append, List.length_cons, List.length_nil]
    omega

theorem depthAt_past_declaration (ht : Opaque t) (hh : h.Readable)
    (htail : '{' ∉ h.tail ∧ '}' ∉ h.tail) (hbody : Nested Brackets.curly.weight body)
    (hs : s = pre ++ (t ++ (h.text ++ '{' :: (body ++ '}' :: r)))) (hstart : start ≤ pre.length)
    (hd : depthAt s start pre.length = 0) :
    depthAt s start (pre ++ (t ++ (h.text ++ '{' :: (body ++ ['}'])))).length = 0 := by
  have hs' : s = pre ++ ((t ++ (h.text ++ '{' :: (body ++ ['}']))) ++ r) := by
    rw [hs]
    simp only [List.append_assoc, List.cons_append, List.nil_append]
  rw [List.length_append, depthAt_append hs' hstart, hd,
    (nested_declaration ht hh htail hbody).balance_eq]
  rfl

end Declaration

/-- The search for declarations finds those of a forest that is printed in the range, in pre-order.
The range may start anywhere as long as the depth is zero there. -/
theorem map_sitesFrom_print {f : Forest} (hf : f.WellFormed) {s pre w : Text} {start stop : Nat}
    {nested : Bool} (hs : s = pre ++ (f.print ++ w)) (hstop : stop = pre.length + f.print.length)
    (hb : ∀ c ∈ pre.getLast?, Header.hidesKeyword c = false) (hstart : start ≤ pre.length)
    (hd : depthAt s start pre.length = 0) (location : Option Text) (editable : Bool) :
    (sitesFrom s start pre.length stop nested).map
        (fun site => outlined (site.declaration s location editable)) =
      f.outline location editable nested := by
  induction hf generalizing pre w start stop nested with
  | @last t ht =>
    have hskip : sitesFrom s start pre.length stop nested =
        sitesFrom s start (pre.length + t.length) stop nested :=
      sitesFrom_past (r := []) ht (Or.inl rfl) hs hstop hstart hd
    have hend : pre.length + t.length = stop := hstop.symm
    rw [hskip, hend, sitesFrom_self]
    rfl
  | @declaration t h body rest ht hset hh htail hbody hrest ihb ihr =>
    have hs' : s = pre ++ (t ++ ((h.text ++ '{' :: (body.print ++ '}' :: rest.print)) ++ w)) := by
      rw [hs, Forest.print, List.append_assoc]
    have hs'' : s = pre ++ (t ++ (h.text ++ '{' :: (body.print ++ '}' :: (rest.print ++ w)))) := by
      rw [hs']
      simp only [List.append_assoc, List.cons_append]
    have hstop' : stop =
        pre.length + (t.length + (h.text ++ '{' :: (body.print ++ '}' :: rest.print)).length) := by
      rw [hstop, Forest.print, List.length_append]
    have hinner : (sitesFrom s (pre.length + t.length + h.text.length + 1)
        (pre.length + t.length + h.text.length + 1)
        (pre.length + t.length + h.text.length + (body.print.length + 1)) true).map
          (fun site => outlined (site.declaration s location editable)) =
        body.outline location editable true := by
      have hopen : (pre ++ (t ++ h.text) ++ ['{']).length =
          pre.length + t.length + h.text.length + 1 := by
        simp only [List.length_append, List.length_singleton]
        omega
      have hs₁ : s = (pre ++ (t ++ h.text) ++ ['{']) ++
          (body.print ++ ('}' :: (rest.print ++ w))) := by
        rw [hs'']
        simp only [List.append_assoc, List.cons_append, List.nil_append]
      have := @ihb _ _ _ _ true hs₁ rfl (hidesKeyword_of_getLast?_brace (Or.inl rfl))
        (Nat.le_refl _) (depthAt_self _ _)
      rw [hopen, Nat.add_assoc _ 1, Nat.add_comm 1] at this
      exact this
    have hlater : (sitesFrom s start
        (pre.length + t.length + h.text.length + (body.print.length + 1) + 1) stop nested).map
          (fun site => outlined (site.declaration s location editable)) =
        rest.outline location editable nested := by
      have hclose : (pre ++ (t ++ (h.text ++ '{' :: (body.print ++ ['}'])))).length =
          pre.length + t.length + h.text.length + (body.print.length + 1) + 1 := by
        simp only [List.length_append, List.length_cons, List.length_nil]
        omega
      have hs₂ : s = (pre ++ (t ++ (h.text ++ '{' :: (body.print ++ ['}'])))) ++
          (rest.print ++ w) := by
        rw [hs'']
        simp only [List.append_assoc, List.cons_append, List.nil_append]
      have hlast : ∀ c ∈ (pre ++ (t ++ (h.text ++ '{' :: (body.print ++ ['}'])))).getLast?,
          Header.hidesKeyword c = false := by
        rw [show pre ++ (t ++ (h.text ++ '{' :: (body.print ++ ['}']))) =
          (pre ++ (t ++ (h.text ++ '{' :: body.print))) ++ ['}'] by simp]
        exact hidesKeyword_of_getLast?_brace (Or.inr rfl)
      have hdepth := depthAt_past_declaration ht hh htail hbody.nested hs'' hstart hd
      rw [← hclose]
      refine ihr hs₂ ?_ hlast ?_ hdepth
      · rw [hclose, hstop']
        simp only [List.length_append, List.length_cons]
        omega
      · rw [List.length_append]
        omega
    rw [sitesFrom_past_declaration ht hset hh hbody.nested hs' hstop' hb hstart hd]
    simp only [List.map_cons, List.map_append]
    rw [hinner, hlater, Forest.outline, Site.declaration, outlined]
    simp only [Head.headerAt, slice_declaration hs'']

/-- Reading a source undoes printing its forest: each declaration is found once, in pre-order, with its
name, its kind and the text from its keyword to its closing brace, and the ones in a body are marked as
nested. -/
theorem declarations_print {f : Forest} (hf : f.WellFormed)
    (hq : '"' ∉ f.print ∧ '\'' ∉ f.print) (hl : ¬ ['/', '/'] <:+: f.print)
    (hb : ¬ ['/', '*'] <:+: f.print) (location : Option Text) (editable : Bool) :
    (declarations f.print location editable).map outlined = f.outline location editable false := by
  unfold declarations sites
  rw [mask_eq_self hq hl hb, List.map_map]
  exact @map_sitesFrom_print f hf f.print [] [] 0 f.print.length false (by simp) (by simp)
    (fun c hc => nomatch hc) (Nat.zero_le _) rfl location editable

/-- A record with a member, behind an import and in front of an annotation type. Its body also has a
method whose class is no member. -/
def pointForest : Forest :=
  .declaration "import a.Record;\npublic ".toList
    ⟨.record, " ".toList, "Point".toList, "(int[] x, Map<K, V> y)\n  implements I ".toList⟩
    (.declaration "\n  void m() \x7b class Local \x7b\x7d \x7d\n  ".toList
      ⟨.enumeration, "  ".toList, "Kind_1".toList, []⟩ (.last " A, B ".toList)
      (.last " int record1;".toList))
    (.declaration "\n".toList ⟨.atInterface, " ".toList, "Mark".toList, " ".toList⟩ (.last [])
      (.last "\n".toList))

theorem pointForest_wellFormed : pointForest.WellFormed := by
  refine .declaration (by decide +kernel) (by decide +kernel) ?_ (by decide) ?_ ?_
  · exact ⟨by decide, by decide, by decide, by decide, [], "int[] x, Map<K, V> y".toList,
      "\n  implements I ".toList, by decide, by decide, by decide, by decide +kernel, by decide⟩
  · exact .declaration (by decide +kernel) (by decide +kernel)
      ⟨by decide, by decide, by decide, fun c hc => (nomatch hc), List.not_mem_nil⟩
      ⟨List.not_mem_nil, List.not_mem_nil⟩ (.last (by decide +kernel)) (.last (by decide +kernel))
  · exact .declaration (by decide +kernel) (by decide +kernel)
      ⟨by decide, by decide, by decide, by decide, (by decide : ('{' : Char) ∉ " ".toList)⟩
      (by decide) (.last (by decide +kernel)) (.last (by decide +kernel))

/-- The declarations of the forest, read from its print. -/
theorem declarations_pointForest :
    pointForest.WellFormed ∧ ('"' ∉ pointForest.print ∧ '\'' ∉ pointForest.print) ∧
      ¬ ['/', '/'] <:+: pointForest.print ∧ ¬ ['/', '*'] <:+: pointForest.print ∧
      (declarations pointForest.print none true).map outlined = pointForest.outline none true false := by
  have hq : '"' ∉ pointForest.print ∧ '\'' ∉ pointForest.print := by decide +kernel
  have hslash : '/' ∉ pointForest.print := by decide +kernel
  have hl : ¬ ['/', '/'] <:+: pointForest.print := fun h => hslash (h.subset List.mem_cons_self)
  have hb : ¬ ['/', '*'] <:+: pointForest.print := fun h => hslash (h.subset List.mem_cons_self)
  exact ⟨pointForest_wellFormed, hq, hl, hb,
    declarations_print pointForest_wellFormed hq hl hb none true⟩

end RecordSkeleton.Java
