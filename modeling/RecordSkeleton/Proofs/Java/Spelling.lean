import RecordSkeleton.Proofs.Java.Masking
import RecordSkeleton.Proofs.TypeExpr.Spelling

/-!
# Spelled component lists

The grammar of the sources that a list of components is written as: a record with these components,
or a class with a marked constructor that has them as parameters. What may stand between two tokens
and inside a marker's argument list is a parameter, a `Lexis`.

1. In a source, gaps are blanks and comments and arguments are nested code with string literals.
2. In a masked source, gaps are blank, and all that counts of arguments is that they are nested for
   every bracket count (`Inert`).
3. Masking a spelling in the first lexis gives a spelling of the same list in the second
   (`DeclarationSpelling.exists_masked`).
-/

namespace RecordSkeleton.Java

open Text

/-! ## Marker arguments -/

/-- The brackets that nest in a marker's arguments. -/
def argumentBrackets : List Brackets := [⟨'(', ')'⟩, ⟨'{', '}'⟩, ⟨'[', ']'⟩]

/-- The characters that stand for themselves in a marker's arguments: neither brackets nor quotes. -/
def isArgumentChar (c : Char) : Bool :=
  !(['(', ')', '{', '}', '[', ']', '<', '>', '"', '\''].contains c)

/-- The texts that a marker may have for arguments: nested code without angle brackets, comments and
character literals. A string literal holds no quote, backslash or line feed, and no other one stands
right behind it. -/
inductive Arguments : Text → Prop
  | nil : Arguments []
  /-- A character of code that opens no comment. -/
  | char {c : Char} {a : Text} (hc : isArgumentChar c = true)
    (hs : c = '/' → a.head? ≠ some '/' ∧ a.head? ≠ some '*') (ha : Arguments a) :
    Arguments (c :: a)
  | literal {x a : Text} (hx : ∀ c ∈ x, c ≠ '"' ∧ c ≠ '\\' ∧ c ≠ '\n') (hn : a.head? ≠ some '"')
    (ha : Arguments a) : Arguments ('"' :: (x ++ '"' :: a))
  | group {b : Brackets} {x a : Text} (hb : b ∈ argumentBrackets) (hx : Arguments x)
    (ha : Arguments a) : Arguments (b.opening :: (x ++ b.closing :: a))

/-! ### Bracket counts -/

/-- The bracket counts that run over a component list. -/
def bracketCounts : List (Char → Int) :=
  [Brackets.round.weight, Brackets.curly.weight, BracketFamilies.all.weight]

theorem round_mem : Brackets.round.weight ∈ bracketCounts := List.mem_cons_self

theorem curly_mem : Brackets.curly.weight ∈ bracketCounts :=
  List.mem_cons_of_mem _ List.mem_cons_self

theorem all_mem : BracketFamilies.all.weight ∈ bracketCounts := by simp [bracketCounts]

/-- A text is inert when it is nested for every bracket count. -/
def Inert (s : Text) : Prop := ∀ w ∈ bracketCounts, Nested w s

/-- The brackets of all families. -/
def brackets : Text := ['(', ')', '{', '}', '[', ']', '<', '>']

theorem weight_of_not_mem_brackets {c : Char} (h : c ∉ brackets) :
    ∀ w ∈ bracketCounts, w c = 0 := by
  have hne : ∀ d ∈ brackets, c ≠ d := fun d hd e => h (e ▸ hd)
  intro w hw
  simp only [bracketCounts, List.mem_cons, List.not_mem_nil, or_false] at hw
  rcases hw with rfl | rfl | rfl
  · exact Brackets.weight_eq_zero (hne _ (by decide)) (hne _ (by decide))
  · exact Brackets.weight_eq_zero (hne _ (by decide)) (hne _ (by decide))
  · apply BracketFamilies.weight_eq_zero <;>
      · intro hm
        simp only [BracketFamilies.all, List.mem_cons, List.not_mem_nil, or_false] at hm
        rcases hm with hm | hm | hm | hm <;> exact hne _ (by decide) hm

/-- A class of characters without brackets. -/
theorem not_mem_brackets {p : Char → Bool} (hp : ∀ d ∈ brackets, p d = false) {c : Char}
    (hc : p c = true) : c ∉ brackets := by
  intro h
  rw [hp c h] at hc
  cases hc

theorem not_mem_brackets_of_isBlank {c : Char} (hc : isBlank c = true) : c ∉ brackets :=
  not_mem_brackets (by decide) hc

theorem not_mem_brackets_of_isIdentifierChar {c : Char} (hc : isIdentifierChar c = true) :
    c ∉ brackets := not_mem_brackets (by decide) hc

namespace Inert

theorem nil : Inert [] := fun _ _ => .nil

theorem append {s t : Text} (hs : Inert s) (ht : Inert t) : Inert (s ++ t) :=
  fun w hw => (hs w hw).append (ht w hw)

theorem of_forall {s : Text} (h : ∀ c ∈ s, c ∉ brackets) : Inert s :=
  fun w hw => .of_forall fun c hc => weight_of_not_mem_brackets (h c hc) w hw

theorem cons {c : Char} {s : Text} (hc : c ∉ brackets) (hs : Inert s) : Inert (c :: s) :=
  fun w hw => .cons (weight_of_not_mem_brackets hc w hw) (hs w hw)

theorem of_allBlank {s : Text} (hs : AllBlank s) : Inert s :=
  .of_forall fun c hc => not_mem_brackets_of_isBlank (hs c hc)

theorem of_identifier {n : Text} (hn : isIdentifier n = true) : Inert n :=
  .of_forall fun c hc => not_mem_brackets_of_isIdentifierChar (isIdentifierChar_of_mem hn c hc)

theorem curly {s : Text} (h : Inert s) : Nested Brackets.curly.weight s := h _ curly_mem

theorem round {s : Text} (h : Inert s) : Nested Brackets.round.weight s := h _ round_mem

/-- In each count, the brackets of an argument group are partners or do not count. -/
theorem weight_argumentBrackets : ∀ b ∈ argumentBrackets, ∀ w ∈ bracketCounts,
    w b.opening = 1 ∧ w b.closing = -1 ∨ w b.opening = 0 ∧ w b.closing = 0 := by
  decide

theorem group {b : Brackets} (hb : b ∈ argumentBrackets) {s : Text} (hs : Inert s) :
    Inert (b.opening :: (s ++ [b.closing])) := by
  intro w hw
  rcases weight_argumentBrackets b hb w hw with ⟨ho, hc⟩ | ⟨ho, hc⟩
  · exact (hs w hw).wrap ho hc
  · exact .cons ho ((hs w hw).append (.singleton hc))

end Inert

/-- Arguments are masked to an inert text when what follows them neither goes on with a comment nor
is a quote. -/
theorem Arguments.exists_masked {a : Text} (h : Arguments a) :
    ∃ q, Inert q ∧ ∀ r : Text, (∀ c ∈ r.head?, c ≠ '/' ∧ c ≠ '*' ∧ c ≠ '"') →
      maskFrom .code (a ++ r) = q ++ maskFrom .code r := by
  induction h with
  | nil => exact ⟨[], .nil, fun _ _ => rfl⟩
  | @char c a hc hs _ ih =>
    obtain ⟨q, hq, hm⟩ := ih
    have hne : ∀ d, isArgumentChar d = false → c ≠ d := by
      rintro d hd rfl
      rw [hc] at hd
      cases hd
    refine ⟨c :: q, .cons (not_mem_brackets (by decide) hc) hq, fun r hr => ?_⟩
    have hcomment : c = '/' → (a ++ r).head? ≠ some '/' ∧ (a ++ r).head? ≠ some '*' := by
      intro hc'
      cases a with
      | nil => exact ⟨fun e => (hr _ e).1 rfl, fun e => (hr _ e).2.1 rfl⟩
      | cons d t => exact hs hc'
    rw [List.cons_append, maskFrom_code_cons ⟨hne _ (by decide), hne _ (by decide)⟩ hcomment, hm r hr,
      List.cons_append]
  | @literal x a hx hn _ ih =>
    obtain ⟨q, hq, hm⟩ := ih
    refine ⟨'"' :: (List.replicate x.length ' ' ++ '"' :: q), ?_, fun r hr => ?_⟩
    · refine .cons (by decide) (.append (.of_forall fun c hc => ?_) (.cons (by decide) hq))
      rw [List.eq_of_mem_replicate hc]
      decide
    · have hquote : (a ++ r).head? ≠ some '"' := by
        cases a with
        | nil => exact fun e => (hr _ e).2.2 rfl
        | cons d t => exact hn
      rw [show '"' :: (x ++ '"' :: a) ++ r = '"' :: (x ++ '"' :: (a ++ r)) by simp,
        maskFrom_literal hx hquote, hm r hr]
      simp
  | @group b x a hb _ _ ihx iha =>
    obtain ⟨q, hq, hm⟩ := ihx
    obtain ⟨q', hq', hm'⟩ := iha
    have hplain : ∀ b ∈ argumentBrackets, (b.opening ≠ '"' ∧ b.opening ≠ '\'' ∧ b.opening ≠ '/') ∧
        (b.closing ≠ '"' ∧ b.closing ≠ '\'' ∧ b.closing ≠ '/' ∧ b.closing ≠ '*') := by decide
    obtain ⟨ho, hc⟩ := hplain b hb
    refine ⟨b.opening :: (q ++ b.closing :: q'), ?_, fun r hr => ?_⟩
    · have := (hq.group hb).append hq'
      rwa [List.cons_append, List.append_assoc] at this
    · rw [show b.opening :: (x ++ b.closing :: a) ++ r =
          b.opening :: (x ++ b.closing :: (a ++ r)) by simp,
        maskFrom_code_cons ⟨ho.1, ho.2.1⟩ (fun e => absurd e ho.2.2), hm,
        maskFrom_code_cons ⟨hc.1, hc.2.1⟩ (fun e => absurd e hc.2.2.1), hm' r hr]
      · simp
      · rintro c ⟨⟩
        exact ⟨hc.2.2.1, hc.2.2.2, hc.1⟩

/-! ## Component lists -/

/-- What may stand between two tokens and in a marker's argument list. -/
structure Lexis where
  gap : Text → Prop
  arguments : Text → Prop

/-- A source as it is written. -/
def Lexis.source : Lexis := ⟨Gap, Arguments⟩

/-- A masked source. -/
def Lexis.masked : Lexis := ⟨AllBlank, Inert⟩

/-- The name of a marker: identifiers with dots between them. -/
inductive DottedName : Text → Prop
  | simple {n : Text} (hn : isIdentifier n = true) : DottedName n
  | qualified {n m : Text} (hn : isIdentifier n = true) (hm : DottedName m) :
    DottedName (n ++ '.' :: m)

theorem DottedName.char {n : Text} (h : DottedName n) :
    ∀ c ∈ n, isIdentifierChar c = true ∨ c = '.' := by
  induction h with
  | simple hn => exact fun c hc => Or.inl (isIdentifierChar_of_mem hn c hc)
  | qualified hn _ ih =>
    intro c hc
    rcases List.mem_append.1 hc with hc | hc
    · exact Or.inl (isIdentifierChar_of_mem hn c hc)
    · rcases List.mem_cons.1 hc with rfl | hc
      · exact Or.inr rfl
      · exact ih c hc

theorem DottedName.not_blank {n : Text} (h : DottedName n) : ∀ c ∈ n, isBlank c = false := by
  intro c hc
  rcases h.char c hc with hi | rfl
  · exact not_isBlank_of_isIdentifierChar hi
  · decide

theorem DottedName.not_mem_brackets {n : Text} (h : DottedName n) : ∀ c ∈ n, c ∉ brackets := by
  intro c hc
  rcases h.char c hc with hi | rfl
  · exact not_mem_brackets_of_isIdentifierChar hi
  · decide

/-- The spellings of a sequence of markers, each with what stands behind it. -/
inductive MarkersSpelling (L : Lexis) : Text → Prop
  | nil : MarkersSpelling L []
  | bare {n g m : Text} (hn : DottedName n) (hg : L.gap g) (hne : g ≠ [])
    (hm : MarkersSpelling L m) : MarkersSpelling L ('@' :: (n ++ (g ++ m)))
  | called {n a g m : Text} (hn : DottedName n) (ha : L.arguments a) (hg : L.gap g)
    (hm : MarkersSpelling L m) : MarkersSpelling L ('@' :: (n ++ '(' :: (a ++ ')' :: (g ++ m))))

/-- A component of a record or a parameter of a constructor. -/
structure Component where
  name : Text
  type : TypeExpr

/-- The spellings of a component: markers, a type, and a name set off from it. -/
inductive ComponentSpelling (L : Lexis) (c : Component) : Text → Prop
  | mk {g m t g₁ g₂ : Text} (hg : L.gap g) (hm : MarkersSpelling L m)
    (ht : TypesSpelling L.gap [c.type] t) (hg₁ : L.gap g₁) (hne : g₁ ≠ [])
    (hn : isIdentifier c.name = true) (hg₂ : L.gap g₂) :
    ComponentSpelling L c (g ++ (m ++ (t ++ (g₁ ++ (c.name ++ g₂)))))

/-- The spellings of a list of components, separated by commas. -/
inductive ListSpelling (L : Lexis) : List Component → Text → Prop
  | nil {g : Text} (hg : L.gap g) : ListSpelling L [] g
  | single {c : Component} {s : Text} (hc : ComponentSpelling L c s) : ListSpelling L [c] s
  | cons {c d : Component} {ds : List Component} {s t : Text} (hc : ComponentSpelling L c s)
    (hds : ListSpelling L (d :: ds) t) : ListSpelling L (c :: d :: ds) (s ++ ',' :: t)

/-- The spellings of a declaration `name` with the given components: a record, or a class whose
constructor carries the marker `JsonCreator`. -/
inductive DeclarationSpelling (L : Lexis) (name : Text) (components : List Component) : Text → Prop
  | record {g₀ g₁ g₂ l g₃ g₄ g₅ : Text} (hg₀ : L.gap g₀) (hg₁ : L.gap g₁) (hne : g₁ ≠ [])
    (hg₂ : L.gap g₂) (hl : ListSpelling L components l) (hg₃ : L.gap g₃) (hg₄ : L.gap g₄)
    (hg₅ : L.gap g₅) :
    DeclarationSpelling L name components (g₀ ++ ("record".toList ++ (g₁ ++ (name ++ (g₂ ++
      '(' :: (l ++ ')' :: (g₃ ++ '{' :: (g₄ ++ '}' :: g₅))))))))
  | plainClass {g₀ g₁ g₂ g₃ g₄ g₅ l g₆ g₇ g₈ g₉ : Text} (hg₀ : L.gap g₀) (hg₁ : L.gap g₁)
    (hne₁ : g₁ ≠ []) (hg₂ : L.gap g₂) (hg₃ : L.gap g₃) (hg₄ : L.gap g₄) (hne₄ : g₄ ≠ [])
    (hg₅ : L.gap g₅) (hl : ListSpelling L components l) (hg₆ : L.gap g₆) (hg₇ : L.gap g₇)
    (hg₈ : L.gap g₈) (hg₉ : L.gap g₉) :
    DeclarationSpelling L name components (g₀ ++ ("class".toList ++ (g₁ ++ (name ++ (g₂ ++
      '{' :: (g₃ ++ ("@JsonCreator".toList ++ (g₄ ++ (name ++ (g₅ ++
        '(' :: (l ++ ')' :: (g₆ ++ '{' :: (g₇ ++ '}' :: (g₈ ++ '}' :: g₉))))))))))))))

/-! ## Masking a spelling -/

theorem MaskedTo.of_identifier {n : Text} (hn : isIdentifier n = true) : MaskedTo n n :=
  .of_forall fun c hc => by
    have hi := isIdentifierChar_of_mem hn c hc
    exact ⟨ne_of_isIdentifierChar hi (by decide), ne_of_isIdentifierChar hi (by decide),
      ne_of_isIdentifierChar hi (by decide)⟩

theorem DottedName.maskedTo {n : Text} (h : DottedName n) : MaskedTo n n := by
  refine .of_forall fun c hc => ?_
  rcases h.char c hc with hi | rfl
  · exact ⟨ne_of_isIdentifierChar hi (by decide), ne_of_isIdentifierChar hi (by decide),
      ne_of_isIdentifierChar hi (by decide)⟩
  · decide

theorem exists_maskedTo_types {ts : List TypeExpr} {s : Text} (h : TypesSpelling Gap ts s) :
    ∃ q, TypesSpelling AllBlank ts q ∧ MaskedTo s q := by
  induction h with
  | name hg hn hg' =>
    obtain ⟨w, hw, hm⟩ := hg.exists_maskedTo
    obtain ⟨w', hw', hm'⟩ := hg'.exists_maskedTo
    exact ⟨_, .name hw hn hw', hm.append ((MaskedTo.of_identifier hn).append hm')⟩
  | generic hg hn hg₁ _ hg₂ ih =>
    obtain ⟨w, hw, hm⟩ := hg.exists_maskedTo
    obtain ⟨w₁, hw₁, hm₁⟩ := hg₁.exists_maskedTo
    obtain ⟨q, hq, hmq⟩ := ih
    obtain ⟨w₂, hw₂, hm₂⟩ := hg₂.exists_maskedTo
    exact ⟨_, .generic hw hn hw₁ hq hw₂, hm.append ((MaskedTo.of_identifier hn).append
      (hm₁.append (.cons (by decide) (hmq.append (.cons (by decide) hm₂)))))⟩
  | comma _ _ ih ih' =>
    obtain ⟨q, hq, hm⟩ := ih
    obtain ⟨q', hq', hm'⟩ := ih'
    exact ⟨_, .comma hq hq', hm.append (.cons (by decide) hm')⟩

theorem Arguments.exists_maskedTo {a : Text} (h : Arguments a) :
    ∃ q, Inert q ∧ MaskedTo ('(' :: (a ++ [')'])) ('(' :: (q ++ [')'])) := by
  obtain ⟨q, hq, hm⟩ := h.exists_masked
  refine ⟨q, hq, fun r => ?_⟩
  have hclose : maskFrom .code (')' :: r) = ')' :: maskFrom .code r :=
    MaskedTo.cons (p := []) (q := []) (by decide) .nil r
  rw [show '(' :: (a ++ [')']) ++ r = '(' :: (a ++ ')' :: r) by simp,
    maskFrom_code_cons (by decide) (fun e => absurd e (by decide)), hm, hclose]
  · simp
  · rintro c ⟨⟩
    decide

theorem MarkersSpelling.exists_maskedTo {m : Text} (h : MarkersSpelling .source m) :
    ∃ q, MarkersSpelling .masked q ∧ MaskedTo m q := by
  induction h with
  | nil => exact ⟨[], .nil, .nil⟩
  | bare hn hg hne _ ih =>
    obtain ⟨w, hw, hm⟩ := Gap.exists_maskedTo hg
    obtain ⟨q, hq, hmq⟩ := ih
    exact ⟨_, .bare hn hw (hm.ne_nil hne) hq, .cons (by decide) (hn.maskedTo.append (hm.append hmq))⟩
  | called hn ha hg _ ih =>
    obtain ⟨a', ha', hma⟩ := Arguments.exists_maskedTo ha
    obtain ⟨w, hw, hm⟩ := Gap.exists_maskedTo hg
    obtain ⟨q, hq, hmq⟩ := ih
    refine ⟨_, .called hn ha' hw hq, .cons (by decide) (hn.maskedTo.append ?_)⟩
    simpa using hma.append (hm.append hmq)

theorem ComponentSpelling.exists_maskedTo {c : Component} {s : Text}
    (h : ComponentSpelling .source c s) : ∃ q, ComponentSpelling .masked c q ∧ MaskedTo s q := by
  obtain ⟨hg, hm, ht, hg₁, hne, hn, hg₂⟩ := h
  obtain ⟨w, hw, hmw⟩ := Gap.exists_maskedTo hg
  obtain ⟨q, hq, hmq⟩ := hm.exists_maskedTo
  obtain ⟨t', ht', hmt⟩ := exists_maskedTo_types ht
  obtain ⟨w₁, hw₁, hmw₁⟩ := Gap.exists_maskedTo hg₁
  obtain ⟨w₂, hw₂, hmw₂⟩ := Gap.exists_maskedTo hg₂
  exact ⟨_, .mk hw hq ht' hw₁ (hmw₁.ne_nil hne) hn hw₂, hmw.append (hmq.append (hmt.append
    (hmw₁.append ((MaskedTo.of_identifier hn).append hmw₂))))⟩

theorem ListSpelling.exists_maskedTo {cs : List Component} {s : Text}
    (h : ListSpelling .source cs s) : ∃ q, ListSpelling .masked cs q ∧ MaskedTo s q := by
  induction h with
  | nil hg =>
    obtain ⟨w, hw, hm⟩ := Gap.exists_maskedTo hg
    exact ⟨_, .nil hw, hm⟩
  | single hc =>
    obtain ⟨q, hq, hm⟩ := hc.exists_maskedTo
    exact ⟨_, .single hq, hm⟩
  | cons hc _ ih =>
    obtain ⟨q, hq, hm⟩ := hc.exists_maskedTo
    obtain ⟨q', hq', hm'⟩ := ih
    exact ⟨_, .cons hq hq', hm.append (.cons (by decide) hm')⟩

/-- The masked form of a spelled source is a spelling of the same declaration. -/
theorem DeclarationSpelling.exists_masked {name : Text} {cs : List Component} {s : Text}
    (hn : isIdentifier name = true) (h : DeclarationSpelling .source name cs s) :
    DeclarationSpelling .masked name cs (mask s) := by
  have hname := MaskedTo.of_identifier hn
  cases h with
  | record hg₀ hg₁ hne hg₂ hl hg₃ hg₄ hg₅ =>
    obtain ⟨w₀, hw₀, hm₀⟩ := Gap.exists_maskedTo hg₀
    obtain ⟨w₁, hw₁, hm₁⟩ := Gap.exists_maskedTo hg₁
    obtain ⟨w₂, hw₂, hm₂⟩ := Gap.exists_maskedTo hg₂
    obtain ⟨l', hl', hml⟩ := hl.exists_maskedTo
    obtain ⟨w₃, hw₃, hm₃⟩ := Gap.exists_maskedTo hg₃
    obtain ⟨w₄, hw₄, hm₄⟩ := Gap.exists_maskedTo hg₄
    obtain ⟨w₅, hw₅, hm₅⟩ := Gap.exists_maskedTo hg₅
    have hkey : MaskedTo "record".toList "record".toList := .of_forall (by decide)
    have hm := hm₀.append (hkey.append (hm₁.append (hname.append (hm₂.append (.cons (c := '(')
      (by decide) (hml.append (.cons (c := ')') (by decide) (hm₃.append (.cons (c := '{') (by decide)
        (hm₄.append (.cons (c := '}') (by decide) hm₅)))))))))))
    rw [hm.mask_eq]
    exact .record hw₀ hw₁ (hm₁.ne_nil hne) hw₂ hl' hw₃ hw₄ hw₅
  | plainClass hg₀ hg₁ hne₁ hg₂ hg₃ hg₄ hne₄ hg₅ hl hg₆ hg₇ hg₈ hg₉ =>
    obtain ⟨w₀, hw₀, hm₀⟩ := Gap.exists_maskedTo hg₀
    obtain ⟨w₁, hw₁, hm₁⟩ := Gap.exists_maskedTo hg₁
    obtain ⟨w₂, hw₂, hm₂⟩ := Gap.exists_maskedTo hg₂
    obtain ⟨w₃, hw₃, hm₃⟩ := Gap.exists_maskedTo hg₃
    obtain ⟨w₄, hw₄, hm₄⟩ := Gap.exists_maskedTo hg₄
    obtain ⟨w₅, hw₅, hm₅⟩ := Gap.exists_maskedTo hg₅
    obtain ⟨l', hl', hml⟩ := hl.exists_maskedTo
    obtain ⟨w₆, hw₆, hm₆⟩ := Gap.exists_maskedTo hg₆
    obtain ⟨w₇, hw₇, hm₇⟩ := Gap.exists_maskedTo hg₇
    obtain ⟨w₈, hw₈, hm₈⟩ := Gap.exists_maskedTo hg₈
    obtain ⟨w₉, hw₉, hm₉⟩ := Gap.exists_maskedTo hg₉
    have hkey : MaskedTo "class".toList "class".toList := .of_forall (by decide)
    have hmark : MaskedTo "@JsonCreator".toList "@JsonCreator".toList := .of_forall (by decide)
    have hm := hm₀.append (hkey.append (hm₁.append (hname.append (hm₂.append (.cons (c := '{')
      (by decide) (hm₃.append (hmark.append (hm₄.append (hname.append (hm₅.append (.cons (c := '(')
        (by decide) (hml.append (.cons (c := ')') (by decide) (hm₆.append (.cons (c := '{')
          (by decide) (hm₇.append (.cons (c := '}') (by decide) (hm₈.append (.cons (c := '}')
            (by decide) hm₉)))))))))))))))))))
    rw [hm.mask_eq]
    exact .plainClass hw₀ hw₁ (hm₁.ne_nil hne₁) hw₂ hw₃ hw₄ (hm₄.ne_nil hne₄) hw₅ hl' hw₆ hw₇ hw₈ hw₉

end RecordSkeleton.Java
