import RecordSkeleton.Proofs.Java.FieldList

/-!
# The constructors of a spelled class

A class body is spelled as a sequence of constructors and of other members. In what stands outside
braces, the name of the class is called nowhere but in its constructors.

1. The search for calls passes over another member (`callsBehind_member`) and puts out a constructor
   once, with its markers and its parameters (`ConstructorText.Spelled.filterMap_callsBehind`).
2. So it puts out the constructors of the body, in order (`BodySpelling.filterMap_callsBehind`).
3. The first declaration of a class has one constructor for each one that is spelled
   (`constructors_of_spelling`).
-/

namespace RecordSkeleton.Java

open Text

variable {name : Text}

/-! ## Members -/

/-- A constructor as it is written, up to the name of its class. -/
structure ConstructorText where
  /-- The names of its markers. -/
  markers : List Text
  /-- Its markers and access modifiers as they are written. -/
  lead : Text
  /-- What stands between the name and the parameters. -/
  gap : Text
  parameters : Text
  /-- What stands between the parameters and the block. -/
  clause : Text
  block : Text

namespace ConstructorText

/-- What stands behind the opening bracket of the parameters. -/
def tail (k : ConstructorText) : Text :=
  k.parameters ++ ')' :: (k.clause ++ '{' :: (k.block ++ ['}']))

def text (name : Text) (k : ConstructorText) : Text :=
  k.lead ++ (name ++ (k.gap ++ '(' :: k.tail))

/-- What is to be found of it. -/
def descriptor (k : ConstructorText) : Constructor := ⟨k.markers, '(' :: (k.parameters ++ [')'])⟩

/-- A constructor with partners for its brackets, in which the class is called by its own name only. -/
structure Spelled (name : Text) (k : ConstructorText) : Prop where
  lead : PrefixSpelling k.markers k.lead
  gap : AllBlank k.gap
  round : Nested Brackets.round.weight k.parameters
  curly : Nested Brackets.curly.weight k.parameters
  clause : ∀ c ∈ k.clause, c ∉ ['(', ')', '{', '}', ';']
  block : Nested Brackets.curly.weight k.block
  /-- The only call outside braces is the one of its name. -/
  call : ∀ u v, k.text name = u ++ v → CallAt name u v → u = k.lead

end ConstructorText

/-- Another member with partners for its braces, in which the class is not called. -/
structure Member (name m : Text) : Prop where
  curly : Nested Brackets.curly.weight m
  ends : ∃ c ∈ m.getLast?, c = ';' ∨ c = '}'
  /-- No call is outside braces. -/
  call : ∀ u v, m = u ++ v → ¬ CallAt name u v

theorem Member.endsMember {m : Text} (hm : Member name m) : ∃ c ∈ m.getLast?, endsMember c = true := by
  obtain ⟨c, hc, hends⟩ := hm.ends
  refine ⟨c, hc, ?_⟩
  rcases hends with rfl | rfl <;> rfl

/-- The spellings of a class body with the given constructors, which are found among other members. -/
inductive BodySpelling (name : Text) : List Constructor → Text → Prop
  | last {g : Text} (hg : AllBlank g) : BodySpelling name [] g
  | cons {g r : Text} {k : ConstructorText} {cs : List Constructor} (hg : AllBlank g)
    (hk : k.Spelled name) (hr : BodySpelling name cs r) :
    BodySpelling name (k.descriptor :: cs) (g ++ (k.text name ++ r))
  | member {g m r : Text} {cs : List Constructor} (hg : AllBlank g) (hm : Member name m)
    (hr : BodySpelling name cs r) : BodySpelling name cs (g ++ (m ++ r))

/-! ## The search in a body -/

/-- The search passes over blanks. -/
theorem callsBehind_blanks (hn : isIdentifier name = true) (start : Nat) {front g : Text}
    (hg : AllBlank g) (r : Text) :
    callsBehind name start front (g ++ r) = callsBehind name start (front ++ g) r := by
  refine callsBehind_append hn start fun u v hgv hv => not_callAt_of_head hn ?_
  obtain ⟨d, t, rfl⟩ := List.exists_cons_of_ne_nil hv
  rintro c ⟨⟩
  rw [hgv] at hg
  exact isIdentifierChar_of_isBlank (hg d (List.mem_append_right u List.mem_cons_self))

/-- The search passes over another member. -/
theorem callsBehind_member (hn : isIdentifier name = true) (start : Nat) {front m : Text}
    (hfront : balance Brackets.curly.weight front = 0) (hm : Member name m) (r : Text) :
    callsBehind name start front (m ++ r) = callsBehind name start (front ++ m) r := by
  refine callsBehind_append hn start fun u v hmv hv hcall => ?_
  exact hm.call u v hmv (hcall.of_context hn hfront hm.endsMember hmv hv)

namespace ConstructorText

variable {k : ConstructorText}

theorem text_eq (name : Text) (k : ConstructorText) :
    k.text name = (k.lead ++ (name ++ (k.gap ++ ['(']))) ++ k.tail := by
  unfold text
  simp only [List.append_assoc, List.singleton_append]

theorem Spelled.nested (hn : isIdentifier name = true) (hk : k.Spelled name) :
    Nested Brackets.curly.weight (k.text name) := by
  have hclause : Nested Brackets.curly.weight k.clause := by
    refine .of_forall fun c hc => Brackets.weight_eq_zero ?_ ?_ <;>
      · rintro rfl
        exact hk.clause _ hc (by decide)
  have hblock : Nested Brackets.curly.weight ('{' :: (k.block ++ ['}'])) := hk.block.wrap rfl rfl
  unfold text tail
  exact hk.lead.nested.append ((Inert.of_identifier hn).curly.append
    ((Inert.of_allBlank hk.gap).curly.append (.cons rfl (hk.curly.append
      (.cons rfl (hclause.append hblock))))))

theorem endsMember (name : Text) (k : ConstructorText) :
    ∃ c ∈ (k.text name).getLast?, Java.endsMember c = true := by
  have htext : k.text name = (k.lead ++ (name ++ (k.gap ++ '(' :: (k.parameters ++
      ')' :: (k.clause ++ '{' :: k.block))))) ++ ['}'] := by
    unfold text tail
    simp only [List.append_assoc, List.cons_append]
  rw [htext, List.getLast?_concat]
  exact ⟨'}', rfl, rfl⟩

/-- The search passes over a piece of a constructor that does not hold its name. -/
theorem Spelled.callsBehind_append {front u m v : Text} (hn : isIdentifier name = true)
    (hk : k.Spelled name) (hfront : balance Brackets.curly.weight front = 0)
    (htext : k.text name = u ++ (m ++ v)) (hm : ∀ a b, m = a ++ b → b ≠ [] → u ++ a ≠ k.lead)
    (start : Nat) (r : Text) :
    callsBehind name start (front ++ u) (m ++ (v ++ r)) =
      callsBehind name start (front ++ (u ++ m)) (v ++ r) := by
  rw [Java.callsBehind_append hn start fun a b hab hb hcall => ?_, List.append_assoc]
  have hsplit : k.text name = (u ++ a) ++ (b ++ v) := by
    rw [htext, hab]
    simp only [List.append_assoc]
  rw [List.append_assoc, ← List.append_assoc b] at hcall
  exact hm a b hab hb (hk.call _ _ hsplit (hcall.of_context hn hfront (endsMember name k) hsplit
    (List.append_ne_nil_of_left_ne_nil hb v)))

/-- The search puts out a constructor and goes on behind it. -/
theorem Spelled.filterMap_callsBehind {s u front g r w : Text} {start : Nat}
    (hn : isIdentifier name = true) (hk : k.Spelled name) (hg : AllBlank g)
    (hdepth : balance Brackets.curly.weight front = 0)
    (hfront : ∀ c ∈ front.getLast?, Java.endsMember c = true)
    (hs : s = u ++ (front ++ (g ++ (k.text name ++ (r ++ w))))) (hstart : start = u.length) :
    (callsBehind name start front (g ++ (k.text name ++ r))).filterMap (constructorAt? s start) =
      k.descriptor ::
        (callsBehind name start (front ++ (g ++ k.text name)) r).filterMap (constructorAt? s start) := by
  have hbehind : balance Brackets.curly.weight (front ++ g) = 0 :=
    balance_append_nested hdepth (Inert.of_allBlank hg).curly
  -- Up to the name, at the name, and behind its bracket.
  have hlead := hk.callsBehind_append (u := []) (m := k.lead) hn hbehind rfl (fun a b hab hb he => by
    rw [List.nil_append] at he
    rw [he] at hab
    exact hb (List.self_eq_append_right.1 hab)) start r
  have hcall : CallAt name (front ++ (g ++ k.lead)) (name ++ (k.gap ++ '(' :: (k.tail ++ r))) :=
    hk.lead.callAt hdepth hfront hg hk.gap
  have hname := callsBehind_call hn start hk.gap hcall
  have htail := hk.callsBehind_append (m := k.tail) (v := []) hn hbehind
    (by rw [text_eq, List.append_nil]) (fun a b hab hb he => by
      have := congrArg List.length he
      simp only [List.length_append, List.length_singleton] at this
      omega) start r
  have hat : constructorAt? s start (start + (front ++ (g ++ k.lead)).length,
      start + (front ++ (g ++ k.lead)).length + (name.length + k.gap.length)) = some k.descriptor := by
    refine constructorAt?_eq (u := u) (w := k.clause ++ '{' :: (k.block ++ '}' :: (r ++ w))) hfront
      ((Joined.of_allBlank hg).append hk.lead.joined) ?_ hk.round ?_ hstart
    · rw [words_blanks_append hg]
      exact hk.lead.markersOf?_words
    · rw [hs]
      unfold text tail
      simp only [List.append_assoc, List.cons_append, List.nil_append]
  simp only [List.append_assoc, List.nil_append, List.append_nil, List.cons_append] at hlead hname htail
  rw [callsBehind_blanks hn start hg]
  unfold text
  simp only [List.append_assoc, List.cons_append]
  rw [hlead, hname, htail, List.filterMap_cons, hat]

end ConstructorText

/-- Behind a member, the braces have partners and the end of a member was just passed. -/
theorem behind_member {front g m : Text} (hdepth : balance Brackets.curly.weight front = 0)
    (hg : AllBlank g) (hm : Nested Brackets.curly.weight m)
    (hends : ∃ c ∈ m.getLast?, endsMember c = true) :
    balance Brackets.curly.weight (front ++ (g ++ m)) = 0 ∧
      ∀ c ∈ (front ++ (g ++ m)).getLast?, endsMember c = true := by
  constructor
  · exact balance_append_nested hdepth ((Inert.of_allBlank hg).curly.append hm)
  · obtain ⟨d, hd, hends⟩ := hends
    intro c hc
    rw [List.getLast?_append, List.getLast?_append, hd] at hc
    cases hc
    exact hends

/-- The constructors of a spelled body are found in order, one member after the other. -/
theorem BodySpelling.filterMap_callsBehind {s u front body w : Text} {cs : List Constructor}
    {start : Nat} (hn : isIdentifier name = true) (h : BodySpelling name cs body)
    (hdepth : balance Brackets.curly.weight front = 0)
    (hfront : ∀ c ∈ front.getLast?, endsMember c = true) (hs : s = u ++ (front ++ (body ++ w)))
    (hstart : start = u.length) :
    (callsBehind name start front body).filterMap (constructorAt? s start) = cs := by
  induction h generalizing front with
  | @last g hg =>
    rw [← List.append_nil g, callsBehind_blanks hn start hg]
    rfl
  | @cons g r k cs hg hk _ ih =>
    obtain ⟨hdepth', hfront'⟩ := behind_member hdepth hg (hk.nested hn) (k.endsMember name)
    have hs' : s = u ++ (front ++ (g ++ (k.text name ++ (r ++ w)))) := by
      rw [hs]
      simp only [List.append_assoc]
    have hrest := ih hdepth' hfront' (by rw [hs']; simp only [List.append_assoc])
    rw [hk.filterMap_callsBehind hn hg hdepth hfront hs' hstart, hrest]
  | @member g m r cs hg hm _ ih =>
    obtain ⟨hdepth', hfront'⟩ := behind_member hdepth hg hm.curly hm.endsMember
    have hbehind : balance Brackets.curly.weight (front ++ g) = 0 :=
      balance_append_nested hdepth (Inert.of_allBlank hg).curly
    have hrest := ih hdepth' hfront' (by rw [hs]; simp only [List.append_assoc])
    rw [callsBehind_blanks hn start hg, callsBehind_member hn start hbehind hm, List.append_assoc, hrest]

theorem BodySpelling.nested {body : Text} {cs : List Constructor} (hn : isIdentifier name = true)
    (h : BodySpelling name cs body) : Nested Brackets.curly.weight body := by
  induction h with
  | last hg => exact (Inert.of_allBlank hg).curly
  | cons hg hk _ ih => exact (Inert.of_allBlank hg).curly.append ((hk.nested hn).append ih)
  | member hg hm _ ih => exact (Inert.of_allBlank hg).curly.append (hm.curly.append ih)

/-! ## The first declaration -/

/-- The first declaration of a class that is spelled with some constructors has these constructors, each
with the names of its own markers and with its own parameter list. -/
theorem constructors_of_spelling {s g₀ g₁ g₂ body rest : Text} {cs : List Constructor}
    (hn : isIdentifier name = true) (hg₀ : AllBlank g₀) (hg₁ : AllBlank g₁) (hne : g₁ ≠ [])
    (hg₂ : AllBlank g₂) (hbody : BodySpelling name cs body)
    (hs : s = g₀ ++ ("class".toList ++ (g₁ ++ (name ++ (g₂ ++ '{' :: (body ++ '}' :: rest))))))
    (hquotes : '"' ∉ s ∧ '\'' ∉ s) (hline : ¬ ['/', '/'] <:+: s) (hblock : ¬ ['/', '*'] <:+: s)
    (location : Option Text) (editable : Bool) :
    ∃ d ds, declarations s location editable = d :: ds ∧ d.name = name ∧ d.kind = .plainClass ∧
      d.constructors = cs := by
  have hmask : mask s = s := mask_eq_self hquotes hline hblock
  obtain ⟨u, d, ds, hbehind, hds, hname, hkind, hconstructors⟩ :=
    declarations_plainClass hn (hmask.trans hs) hg₀ hg₁ hne hg₂ (hbody.nested hn) location editable
  have hfront : ∀ c ∈ ([] : Text).getLast?, endsMember c = true := fun c hc => nomatch hc
  refine ⟨d, ds, hds, hname, hkind, ?_⟩
  rw [hconstructors]
  exact hbody.filterMap_callsBehind hn rfl hfront hbehind rfl

/-- A text is split at one of its offsets. -/
theorem forall_splits {P : Text → Text → Prop} {s : Text} :
    (∀ u v, s = u ++ v → P u v) ↔ ∀ i < s.length + 1, P (s.take i) (s.drop i) := by
  refine ⟨fun h i _ => h _ _ (List.take_append_drop i s).symm, fun h u v huv => ?_⟩
  have := h u.length (by rw [huv, List.length_append]; omega)
  rwa [huv, List.take_left, List.drop_left] at this

/-- A member with a call of something else. -/
def countField : Text := "int n = f(1);".toList

/-- A member with a call of the class inside braces. -/
def orderMethod : Text := "void g() \x7b new Order(0); \x7d".toList

theorem countField_spelled : Member "Order".toList countField :=
  ⟨by decide +kernel, ⟨';', by decide +kernel, Or.inl rfl⟩, forall_splits.2 (by decide +kernel)⟩

theorem orderMethod_spelled : Member "Order".toList orderMethod :=
  ⟨by decide +kernel, ⟨'}', by decide +kernel, Or.inr rfl⟩, forall_splits.2 (by decide +kernel)⟩

/-- A constructor with markers on both sides of its access modifier, one of them with braces in its
arguments. -/
def markedConstructor : ConstructorText where
  markers := ["Main".toList, "a.B".toList]
  lead := "@Main public @a.B(\x7b C, f(9) \x7d)\n".toList
  gap := []
  parameters := "@Max(9) int n".toList
  clause := " throws E ".toList
  block := " new Order(n); ".toList

def plainConstructor : ConstructorText where
  markers := []
  lead := "private ".toList
  gap := " ".toList
  parameters := []
  clause := []
  block := []

theorem markedConstructor_spelled : markedConstructor.Spelled "Order".toList := by
  have hdotted : DottedName "a.B".toList :=
    .qualified (n := "a".toList) (m := "B".toList) (by decide) (.simple (by decide))
  have hlast : PrefixSpelling ["a.B".toList]
      ('@' :: ("a.B".toList ++ '(' :: ("\x7b C, f(9) \x7d".toList ++ ')' :: ("\n".toList ++ [])))) :=
    .called hdotted (by decide) (by decide) (by decide) (by decide) .nil
  have hlead : PrefixSpelling ["Main".toList, "a.B".toList]
      ('@' :: ("Main".toList ++ (" ".toList ++ ("public".toList ++ (" ".toList ++ _))))) :=
    .bare (.simple (by decide)) (by decide) (by decide)
      (.modifier (by decide) (by decide) (by decide) hlast)
  refine ⟨hlead, by decide, by decide, by decide, by decide, by decide, ?_⟩
  exact forall_splits.2 (by decide +kernel)

theorem plainConstructor_spelled : plainConstructor.Spelled "Order".toList := by
  have hlead : PrefixSpelling [] ("private".toList ++ (" ".toList ++ [])) :=
    .modifier (by decide) (by decide) (by decide) .nil
  refine ⟨hlead, by decide, by decide, by decide, by decide, by decide, ?_⟩
  exact forall_splits.2 (by decide +kernel)

/-- A class with two constructors and two other members. -/
def orderSource : Text :=
  "class Order \x7b int n = f(1); @Main public @a.B(\x7b C, f(9) \x7d)\nOrder(@Max(9) int n)".toList ++
    " throws E \x7b new Order(n); \x7d void g() \x7b new Order(0); \x7d private Order ()\x7b\x7d \x7d".toList

def orderConstructors : List Constructor :=
  [⟨["Main".toList, "a.B".toList], "(@Max(9) int n)".toList⟩, ⟨[], "()".toList⟩]

theorem orderSource_spelled : ∃ body, BodySpelling "Order".toList orderConstructors body ∧
    orderSource = [] ++ ("class".toList ++ (" ".toList ++ ("Order".toList ++ (" ".toList ++
      '{' :: (body ++ '}' :: []))))) := by
  have hgap : AllBlank " ".toList := by decide
  have hbody := BodySpelling.member hgap countField_spelled (.cons hgap markedConstructor_spelled
    (.member hgap orderMethod_spelled (.cons hgap plainConstructor_spelled (.last hgap))))
  exact ⟨_, hbody, by decide +kernel⟩

/-- The two constructors of the class. -/
theorem constructors_of_orderSource :
    ∃ body, BodySpelling "Order".toList orderConstructors body ∧
      ∃ d ds, declarations orderSource none true = d :: ds ∧ d.name = "Order".toList ∧
        d.kind = .plainClass ∧ d.constructors = orderConstructors := by
  obtain ⟨body, hbody, hsource⟩ := orderSource_spelled
  have hplain : ('"' ∉ orderSource ∧ '\'' ∉ orderSource) ∧ ¬ ['/', '/'] <:+: orderSource ∧
      ¬ ['/', '*'] <:+: orderSource := by decide +kernel
  exact ⟨body, hbody, constructors_of_spelling (by decide) (by decide) (by decide) (by decide) (by decide)
    hbody hsource hplain.1 hplain.2.1 hplain.2.2 none true⟩

end RecordSkeleton.Java
