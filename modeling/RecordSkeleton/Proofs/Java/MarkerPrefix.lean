import RecordSkeleton.Java.ConstructorSite
import RecordSkeleton.Proofs.Marker.Leading

/-!
# Prefixes of markers and access modifiers

The reading of the markers in front of a constructor goes on in rounds: the markers in front come off, and
then one access modifier.

1. A round either ends the reading or takes a modifier off, so there are no more rounds than characters and
   one (`exists_reads`).
2. The prefixes that are read are those of `PrefixText`: access modifiers and markers, a space apart. Nothing
   has to set off what follows the arguments of a marker, and those of the last one need not be closed. From
   each of them the names of its markers are read (`PrefixText.markersOf?_eq`).
3. A text whose words are a space apart is read only if it is such a prefix (`prefixText_of_markersOf?`).
-/

namespace RecordSkeleton.Java

open Text

/-! ## Reading the markers -/

/-- How the markers are read, without the bound that makes the reading end. -/
theorem markersOf?_eq (s : Text) :
    markersOf? s =
      if (Marker.split s).2 = [] then some (Marker.split s).1
      else if (firstWord (Marker.split s).2).1 ∈ accessModifiers then
        (markersOf? (firstWord (Marker.split s).2).2).map ((Marker.split s).1 ++ ·)
      else none := by
  rw [markersOf?]
  rfl

theorem markersOf?_blanks {b : Text} (hb : AllBlank b) (s : Text) :
    markersOf? (b ++ s) = markersOf? s := by
  rw [markersOf?_eq (b ++ s), Marker.split_blanks hb, ← markersOf?_eq]

/-- A marker that is peeled off is one of the markers. -/
theorem markersOf?_cons {s t n : Text}
    (h : Marker.split s = (n :: (Marker.split t).1, (Marker.split t).2)) :
    markersOf? s = (markersOf? t).map (n :: ·) := by
  rw [markersOf?_eq s, markersOf?_eq t, h]
  simp only
  by_cases hnil : (Marker.split t).2 = []
  · rw [if_pos hnil, if_pos hnil]
    rfl
  · rw [if_neg hnil, if_neg hnil]
    by_cases hword : (firstWord (Marker.split t).2).1 ∈ accessModifiers
    · rw [if_pos hword, if_pos hword, Option.map_map]
      rfl
    · rw [if_neg hword, if_neg hword]
      rfl

/-- An access modifier and the space behind it are skipped. -/
theorem markersOf?_modifier {m t : Text} (hm : m ∈ accessModifiers) (ht : ∀ c ∈ t.head?, c = ' ') :
    markersOf? (m ++ t) = markersOf? (t.drop 1) := by
  have hplain : ∀ m ∈ accessModifiers, m ≠ [] ∧ (∀ c ∈ m.head?, isBlank c = false ∧ c ≠ '@') ∧
      ∀ c ∈ m, (c != ' ') = true := by decide
  obtain ⟨hne, hhead, hspace⟩ := hplain m hm
  obtain ⟨c, r, rfl⟩ := List.exists_cons_of_ne_nil hne
  obtain ⟨hblank, hat⟩ := hhead c rfl
  have hsplit : Marker.split (c :: r ++ t) = ([], c :: r ++ t) := Marker.split_of_ne hblank hat _
  have hstop : ∀ d ∈ t.head?, (d != ' ') = false := by
    intro d hd
    rw [ht d hd]
    rfl
  have hword : firstWord (c :: r ++ t) = (c :: r, t.drop 1) := by
    unfold firstWord
    rw [takeWhile_append_stop hspace hstop, dropWhile_append_stop hspace hstop]
  have hnil : c :: r ++ t ≠ [] := List.cons_ne_nil c _
  rw [markersOf?_eq, hsplit, if_neg hnil, hword, if_pos hm]
  exact Option.map_id'

/-- After `k` rounds on the text `s`, the reading ends with the result. -/
inductive Reads : Nat → Text → Option (List Text) → Prop
  /-- Nothing is left behind the markers in front. -/
  | done {s : Text} (h : (Marker.split s).2 = []) : Reads 1 s (some (Marker.split s).1)
  /-- What is left starts with another word than an access modifier. -/
  | refused {s : Text} (h : (Marker.split s).2 ≠ [])
    (hword : (firstWord (Marker.split s).2).1 ∉ accessModifiers) : Reads 1 s none
  /-- An access modifier comes off, too. -/
  | next {k : Nat} {s : Text} {result : Option (List Text)} (h : (Marker.split s).2 ≠ [])
    (hword : (firstWord (Marker.split s).2).1 ∈ accessModifiers)
    (hrest : Reads k (firstWord (Marker.split s).2).2 result) :
    Reads (k + 1) s (result.map ((Marker.split s).1 ++ ·))

theorem exists_reads (s : Text) : ∃ k ≤ s.length + 1, Reads k s (markersOf? s) := by
  fun_induction markersOf? s with
  | case1 s h => exact ⟨1, Nat.le_add_left 1 _, .done h⟩
  | case2 s h hword ih =>
    obtain ⟨k, hk, hreads⟩ := ih
    refine ⟨k + 1, Nat.succ_le_succ (Nat.le_trans hk ?_), .next h hword hreads⟩
    have hne : (firstWord (Marker.split s).2).1 ≠ [] := by
      intro hnil
      rw [hnil] at hword
      revert hword
      decide
    exact Nat.le_trans (length_firstWord_le _ hne) (Marker.length_split_le s)
  | case3 s h hword => exact ⟨1, Nat.le_add_left 1 _, .refused h hword⟩

/-! ## Prefixes -/

theorem markersOf?_spaced (p : Text) : markersOf? (spaced p) = markersOf? p := by
  unfold spaced
  split
  · rename_i h
    rw [h]
  · exact markersOf?_blanks (b := [' ']) (by decide) p

/-- The text is a prefix of access modifiers and of markers of the given names, in order. -/
inductive PrefixText : List Text → Text → Prop
  | nil : PrefixText [] []
  | modifier {m p : Text} {ms : List Text} (hm : m ∈ accessModifiers) (hp : PrefixText ms p) :
    PrefixText ms (m ++ spaced p)
  | bare {n p : Text} {ms : List Text} (hn : ∀ c ∈ n, Marker.isNameChar c = true)
    (hp : PrefixText ms p) : PrefixText (n :: ms) ('@' :: (n ++ spaced p))
  | called {n a p : Text} {ms : List Text} (hn : ∀ c ∈ n, Marker.isNameChar c = true)
    (ha : Nested Brackets.round.weight a) (hp : PrefixText ms p) :
    PrefixText (n :: ms) ('@' :: (n ++ '(' :: (a ++ ')' :: spaced p)))
  /-- Nothing sets off what follows the arguments. -/
  | adjoined {n a p : Text} {ms : List Text} (hn : ∀ c ∈ n, Marker.isNameChar c = true)
    (ha : Nested Brackets.round.weight a) (hp : PrefixText ms p) :
    PrefixText (n :: ms) ('@' :: (n ++ '(' :: (a ++ ')' :: p)))
  /-- No bracket closes the arguments. -/
  | unclosed {n a : Text} (hn : ∀ c ∈ n, Marker.isNameChar c = true)
    (ha : ∀ p, p <+: a → 0 ≤ balance Brackets.round.weight p) :
    PrefixText [n] ('@' :: (n ++ '(' :: a))

theorem isNameChar_head_group (r : Text) :
    ∀ c ∈ ('(' :: r).head?, Marker.isNameChar c = false := by
  rintro c ⟨⟩
  decide

/-- The names of the markers of a prefix are read. -/
theorem PrefixText.markersOf?_eq {ms : List Text} {s : Text} (h : PrefixText ms s) :
    markersOf? s = some ms := by
  induction h with
  | nil =>
    rw [Java.markersOf?_eq, Marker.split_of_head (by decide)]
    rfl
  | @modifier m p ms hm hp ih => rw [markersOf?_modifier hm (head_spaced p), drop_spaced, ih]
  | @bare n p ms hn hp ih =>
    have hends : ∀ c ∈ (spaced p).head?, Marker.isNameChar c = false := by
      intro c hc
      rw [head_spaced p c hc]
      decide
    have hafter : Marker.afterArguments? (spaced p) = some (spaced p) :=
      Marker.afterArguments?_of_head fun hc => absurd (head_spaced p _ hc) (by decide)
    rw [markersOf?_cons (Marker.split_cons hn hends hafter), markersOf?_spaced, ih]
    rfl
  | called hn ha hp ih =>
    rw [markersOf?_cons (Marker.split_cons hn (isNameChar_head_group _)
      (Marker.afterArguments?_group ha _)), markersOf?_spaced, ih]
    rfl
  | adjoined hn ha hp ih =>
    rw [markersOf?_cons (Marker.split_cons hn (isNameChar_head_group _)
      (Marker.afterArguments?_group ha _)), ih]
    rfl
  | @unclosed n a hn ha =>
    have hdrop := dropWhile_append_stop hn (isNameChar_head_group a)
    have hnone : Marker.afterArguments? ((n ++ '(' :: a).dropWhile Marker.isNameChar) = none := by
      rw [hdrop]
      exact Marker.afterArguments?_eq_none_iff.2 ⟨a, rfl, ha⟩
    rw [Java.markersOf?_eq, Marker.split_unclosed hnone,
      takeWhile_append_stop hn (isNameChar_head_group a), if_pos rfl]

/-! ## What is read is a prefix -/

/-- Where a blank stands, a space sets off what follows. -/
theorem exists_spaced {t : Text} (ht : SingleSpaced t) (hblank : ∀ c ∈ t.head?, isBlank c = true) :
    ∃ p, t = spaced p ∧ p <:+ t ∧ ∀ c ∈ p.head?, isBlank c = false := by
  cases t with
  | nil =>
    refine ⟨[], rfl, List.suffix_refl _, fun c hc => ?_⟩
    cases hc
  | cons c r =>
    obtain ⟨rfl, d, hd, hdblank⟩ := ht c r (List.suffix_refl _) (hblank c rfl)
    refine ⟨r, (spaced_of_ne_nil ?_).symm, List.suffix_cons _ _, fun e he => ?_⟩
    · rintro rfl
      cases hd
    · cases hd.symm.trans he
      exact hdblank

theorem isBlank_head_cases (t : Text) :
    (∀ c ∈ t.head?, isBlank c = false) ∨ ∀ c ∈ t.head?, isBlank c = true := by
  cases t with
  | nil => exact .inl fun c hc => (nomatch hc)
  | cons d r =>
    cases hd : isBlank d with
    | false => exact .inl fun c hc => Option.some.inj hc ▸ hd
    | true => exact .inr fun c hc => Option.some.inj hc ▸ hd

/-- A suffix in front of which no blank stands is a prefix of markers and modifiers, if it is read. -/
def SuffixesRead (r : Text) : Prop :=
  ∀ p, p <:+ r → (∀ c ∈ p.head?, isBlank c = false) → ∀ ms, markersOf? p = some ms → PrefixText ms p

/-- A marker in front of a prefix makes it a longer one. -/
theorem prefixText_marker {r : Text} {ms : List Text} (hs : SingleSpaced r) (ih : SuffixesRead r)
    (h : markersOf? ('@' :: r) = some ms) : PrefixText ms ('@' :: r) := by
  have hname : ∀ c ∈ r.takeWhile Marker.isNameChar, Marker.isNameChar c = true :=
    fun _ hc => List.all_eq_true.1 List.all_takeWhile _ hc
  have hr : r.takeWhile Marker.isNameChar ++ r.dropWhile Marker.isNameChar = r :=
    List.takeWhile_append_dropWhile
  cases ha : Marker.afterArguments? (r.dropWhile Marker.isNameChar) with
  | none =>
    obtain ⟨a, hdrop, hopen⟩ := Marker.afterArguments?_eq_none_iff.1 ha
    rw [markersOf?_eq, Marker.split_unclosed ha, if_pos rfl] at h
    cases h
    have hunclosed := PrefixText.unclosed hname hopen
    rwa [← hdrop, hr] at hunclosed
  | some t =>
    have hsplit : Marker.split ('@' :: r) =
        (r.takeWhile Marker.isNameChar :: (Marker.split t).1, (Marker.split t).2) := by
      rw [Marker.split_eq, trimLeft_of_head (by decide)]
      simp only [ha]
    rw [markersOf?_cons hsplit] at h
    obtain ⟨ms, hms, rfl⟩ := Option.map_eq_some_iff.1 h
    have hsuffix := Marker.suffix_behind ha
    -- Behind a blank, the rest is read like what a space sets off.
    have hspaced : (∀ c ∈ t.head?, isBlank c = true) → ∃ p, t = spaced p ∧ PrefixText ms p := by
      intro hblank
      obtain ⟨p, rfl, hp, hhead⟩ := exists_spaced (hs.suffix hsuffix) hblank
      rw [markersOf?_spaced] at hms
      exact ⟨p, rfl, ih p (hp.trans hsuffix) hhead ms hms⟩
    obtain ⟨a, hnested, hdrop⟩ | ⟨hopen, rfl⟩ := Marker.afterArguments?_cases ha
    · rw [hdrop] at hr
      obtain hhead | hblank := isBlank_head_cases t
      · have hprefix := PrefixText.adjoined hname hnested (ih t hsuffix hhead ms hms)
        rwa [hr] at hprefix
      · obtain ⟨p, rfl, hp⟩ := hspaced hblank
        have hprefix := PrefixText.called hname hnested hp
        rwa [hr] at hprefix
    · obtain ⟨p, hp, hprefix⟩ := hspaced fun c hc => by
        have hstop := List.head?_dropWhile_not Marker.isNameChar r
        rw [hc] at hstop
        have hne : c ≠ '(' := by
          rintro rfl
          exact hopen hc
        simpa [Marker.isNameChar, hne] using hstop
      have hprefix := PrefixText.bare hname hprefix
      rwa [← hp, hr] at hprefix

/-- A text that starts with another word is a prefix behind an access modifier. -/
theorem prefixText_word {c : Char} {r : Text} {ms : List Text} (hs : SingleSpaced (c :: r))
    (hblank : isBlank c = false) (hc : c ≠ '@') (ih : SuffixesRead r)
    (h : markersOf? (c :: r) = some ms) : PrefixText ms (c :: r) := by
  have hspace : (c != ' ') = true := by
    rw [bne_iff_ne]
    rintro rfl
    cases hblank
  rw [markersOf?_eq, Marker.split_of_ne hblank hc, if_neg (List.cons_ne_nil c r)] at h
  by_cases hword : (firstWord (c :: r)).1 ∈ accessModifiers
  · rw [if_pos hword] at h
    obtain ⟨ms, hms, rfl⟩ := Option.map_eq_some_iff.1 h
    -- The word ends in front of a space or at the end of the text.
    have hdrop : (c :: r).dropWhile (· != ' ') = r.dropWhile (· != ' ') :=
      List.dropWhile_cons_of_pos (p := (· != ' ')) hspace
    have hsuffix : (c :: r).dropWhile (· != ' ') <:+ r := hdrop ▸ List.dropWhile_suffix _
    obtain ⟨p, hp, hpsuffix, hhead⟩ := exists_spaced
      (hs.suffix (hsuffix.trans (List.suffix_cons c r))) fun d hd => by
        have hstop := List.head?_dropWhile_not (· != ' ') (c :: r)
        rw [hd] at hstop
        obtain rfl : d = ' ' := by simpa using hstop
        decide
    have hrest : (firstWord (c :: r)).2 = p := by
      unfold firstWord
      rw [hp, drop_spaced]
    rw [hrest] at hms
    have hprefix := PrefixText.modifier hword (ih p (hpsuffix.trans hsuffix) hhead ms hms)
    rw [← hp] at hprefix
    exact List.takeWhile_append_dropWhile (p := (· != ' ')) (l := c :: r) ▸ hprefix
  · rw [if_neg hword] at h
    cases h

theorem prefixText_of_markersOf? {s : Text} (hs : SingleSpaced s)
    (hhead : ∀ c ∈ s.head?, isBlank c = false) {ms : List Text} (h : markersOf? s = some ms) :
    PrefixText ms s := by
  induction hn : s.length using Nat.strongRecOn generalizing s ms with
  | _ n ih =>
    cases s with
    | nil =>
      cases PrefixText.nil.markersOf?_eq.symm.trans h
      exact .nil
    | cons c r =>
      have hread : SuffixesRead r := fun p hp hphead ms hms => by
        have hlt : p.length < n := by
          have := hp.length_le
          rw [List.length_cons] at hn
          omega
        exact ih _ hlt (hs.suffix (hp.trans (List.suffix_cons c r))) hphead hms rfl
      by_cases hc : c = '@'
      · subst hc
        exact prefixText_marker (hs.suffix (List.suffix_cons _ r)) hread h
      · exact prefixText_word hs (hhead c rfl) hc hread h

/-! ## Items -/

/-- What may stand in front of the name of a constructor. -/
inductive PrefixItem where
  | modifier (word : Text)
  /-- A marker without arguments. -/
  | bare (name : Text)
  | called (name arguments : Text)

namespace PrefixItem

/-- The text of an item. -/
def text : PrefixItem → Text
  | modifier word => word
  | bare name => '@' :: name
  | called name arguments => '@' :: (name ++ '(' :: (arguments ++ [')']))

/-- The name of a marker. -/
def marker? : PrefixItem → Option Text
  | modifier _ => none
  | bare name | called name _ => some name

/-- A name of a marker: not empty, and without blanks and opening brackets. -/
def IsName (name : Text) : Prop := name ≠ [] ∧ ∀ c ∈ name, isBlank c = false ∧ c ≠ '('

/-- The item is an access modifier, or a marker whose name is one and whose arguments are nested. -/
def IsItem : PrefixItem → Prop
  | modifier word => word ∈ accessModifiers
  | bare name => IsName name
  | called name arguments => IsName name ∧ Nested Brackets.round.weight arguments

theorem IsName.isNameChar {name : Text} (h : IsName name) :
    ∀ c ∈ name, Marker.isNameChar c = true := by
  intro c hc
  obtain ⟨hblank, hopen⟩ := h.2 c hc
  unfold Marker.isNameChar
  rw [hblank, bne_iff_ne.2 hopen]
  rfl

theorem text_ne_nil {item : PrefixItem} (h : item.IsItem) : item.text ≠ [] := by
  cases item with
  | modifier word =>
    have hne : ∀ word ∈ accessModifiers, word ≠ [] := by decide
    exact hne word h
  | bare name => exact List.cons_ne_nil _ _
  | called name arguments => exact List.cons_ne_nil _ _

/-- Items a space apart are a prefix. -/
theorem prefixText_join {items : List PrefixItem} (h : ∀ item ∈ items, item.IsItem) :
    PrefixText (items.filterMap marker?) (join [' '] (items.map text)) := by
  induction items with
  | nil => exact .nil
  | cons item items ih =>
    have hrest := ih fun i hi => h i (List.mem_cons_of_mem item hi)
    have hne : ∀ x ∈ items.map text, x ≠ [] := by
      intro x hx
      obtain ⟨i, hi, rfl⟩ := List.mem_map.1 hx
      exact text_ne_nil (h i (List.mem_cons_of_mem item hi))
    rw [List.map_cons, join_space_cons hne]
    have hitem := h item List.mem_cons_self
    cases item with
    | modifier word => exact .modifier hitem hrest
    | bare name => exact .bare hitem.isNameChar hrest
    | called name arguments =>
      have htext (x : Text) : (called name arguments).text ++ x =
          '@' :: (name ++ '(' :: (arguments ++ ')' :: x)) := by simp [text]
      rw [htext]
      exact .called hitem.1.isNameChar hitem.2 hrest

end PrefixItem

/-- From items a space apart the names of the markers are read, in order. And of any text whose words are
put a space apart, the reading is over after at most one round more than it has characters, and it gives
names exactly when the text is a prefix of access modifiers and of markers of these names. -/
theorem markersOf?_items :
    (∀ items : List PrefixItem, (∀ item ∈ items, item.IsItem) →
      markersOf? (join [' '] (items.map PrefixItem.text)) =
        some (items.filterMap PrefixItem.marker?)) ∧
    ∀ t : Text,
      (∃ k ≤ (join [' '] (words t)).length + 1,
        Reads k (join [' '] (words t)) (markersOf? (join [' '] (words t)))) ∧
      ∀ ms, markersOf? (join [' '] (words t)) = some ms ↔ PrefixText ms (join [' '] (words t)) := by
  refine ⟨fun items h => (PrefixItem.prefixText_join h).markersOf?_eq, fun t => ?_⟩
  refine ⟨exists_reads _, fun ms => ⟨fun h => ?_, fun h => h.markersOf?_eq⟩⟩
  exact prefixText_of_markersOf? (singleSpaced_join_words t) (head_join_words t) h

/-- Items of each kind; and a prefix with an empty name, with nothing behind closed arguments, and with
arguments that are never closed. -/
theorem markersOf?_items_order :
    (∀ item ∈ [.modifier "public".toList, .called "p.A".toList "f(x, y)".toList, .bare "B".toList],
      PrefixItem.IsItem item) ∧
      markersOf? "public @p.A(f(x, y)) @B".toList = some ["p.A".toList, "B".toList] ∧
      join [' '] (words "@\tprotected @A(x)@B((y)\n z".toList) =
        "@ protected @A(x)@B((y) z".toList ∧
      markersOf? "@ protected @A(x)@B((y) z".toList = some [[], "A".toList, "B".toList] := by
  have hitems : ∀ item ∈ [.modifier "public".toList, .called "p.A".toList "f(x, y)".toList,
      .bare "B".toList], PrefixItem.IsItem item := by
    simp only [List.forall_mem_cons]
    refine ⟨?_, ⟨?_, ?_⟩, ?_, fun _ h => (nomatch h)⟩
    · show "public".toList ∈ accessModifiers
      decide
    · exact ⟨by decide, by decide⟩
    · decide
    · exact ⟨by decide, by decide⟩
  have hwords : join [' '] (words "@\tprotected @A(x)@B((y)\n z".toList) =
      "@ protected @A(x)@B((y) z".toList := by decide
  have hprefix : PrefixText [[], "A".toList, "B".toList] "@ protected @A(x)@B((y) z".toList := by
    have hopen : ∀ p, p <+: "(y) z".toList → 0 ≤ balance Brackets.round.weight p := by
      intro p hp
      rw [List.prefix_iff_eq_take.1 hp]
      have htake : ∀ k < 6, 0 ≤ balance Brackets.round.weight ("(y) z".toList.take k) := by decide
      exact htake p.length (Nat.lt_succ_of_le hp.length_le)
    exact .bare (n := []) (by decide) (.modifier (m := "protected".toList) (by decide)
      (.adjoined (n := "A".toList) (a := "x".toList) (by decide) (by decide)
        (.unclosed (n := "B".toList) (by decide) hopen)))
  obtain ⟨hread, hall⟩ := markersOf?_items
  refine ⟨hitems, hread _ hitems, hwords, ?_⟩
  have hnames := (hall "@\tprotected @A(x)@B((y)\n z".toList).2 [[], "A".toList, "B".toList]
  rw [hwords] at hnames
  exact hnames.2 hprefix

end RecordSkeleton.Java
