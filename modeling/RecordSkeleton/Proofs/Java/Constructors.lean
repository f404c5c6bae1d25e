import RecordSkeleton.Proofs.Java.Calls
import RecordSkeleton.Proofs.Java.ConstructorPrefix

/-!
# The constructors of a class

How the constructors are found in the body of a class, one call of its name after the other.

1. A call behind nothing but markers and access modifiers is a constructor with these markers and with
   the parameter list behind its name (`constructorAt?_eq`).
2. A name behind a prefix of markers and access modifiers is a call (`PrefixSpelling.callAt`), so the
   constructor behind a marker is the first one of its body (`callsBehind_marked`).
-/

namespace RecordSkeleton.Java

open Text

variable {name : Text}

/-- A call is a constructor if the words in front of it are those of a prefix of markers and access
modifiers. -/
theorem constructorAt?_eq {s u front x g l w : Text} {ms : List Text} {start : Nat}
    (hfront : ∀ c ∈ front.getLast?, endsMember c = true) (hx : Joined x)
    (hms : markersOf? (join [' '] (words x)) = some ms) (hl : Nested Brackets.round.weight l)
    (hs : s = u ++ (front ++ (x ++ (name ++ (g ++ '(' :: (l ++ ')' :: w))))))
    (hstart : start = u.length) :
    constructorAt? s start (start + (front ++ x).length,
        start + (front ++ x).length + (name.length + g.length)) =
      some ⟨ms, '(' :: (l ++ [')'])⟩ := by
  have hwords : wordsBefore s start (start + (front ++ x).length) = join [' '] (words x) := by
    refine wordsBefore_joined hx hfront hs hstart ?_
    rw [hstart, List.length_append, Nat.add_assoc]
  have hbefore : s = (u ++ (front ++ (x ++ (name ++ g)))) ++ '(' :: (l ++ ')' :: w) := by
    rw [hs]
    simp only [List.append_assoc]
  have hopen : start + (front ++ x).length + (name.length + g.length) =
      (u ++ (front ++ (x ++ (name ++ g)))).length := by
    rw [hstart]
    simp only [List.length_append]
    omega
  have hclose : Brackets.round.matchingClose? s
      (start + (front ++ x).length + (name.length + g.length)) =
        some (start + (front ++ x).length + (name.length + g.length) + (l.length + 1)) := by
    rw [hopen, hbefore]
    exact Brackets.matchingClose?_nested (b := Brackets.round) (by decide) hl _ _
  have hparameters : slice s (start + (front ++ x).length + (name.length + g.length))
      (start + (front ++ x).length + (name.length + g.length) + (l.length + 1) + 1) =
        '(' :: (l ++ [')']) := by
    refine slice_eq (w := w) ?_ hopen ?_
    · rw [hbefore]
      simp only [List.append_assoc, List.cons_append, List.nil_append]
    · rw [hopen]
      simp only [List.length_append, List.length_cons, List.length_nil]
      omega
  unfold constructorAt?
  simp only [hwords, hms, hclose, hparameters, Option.map_some]

/-- The name behind a prefix of markers and access modifiers is a call, if a bracket follows. -/
theorem PrefixSpelling.callAt {front g p g' r : Text} {ms : List Text} (hp : PrefixSpelling ms p)
    (hdepth : balance Brackets.curly.weight front = 0)
    (hfront : ∀ c ∈ front.getLast?, endsMember c = true) (hg : AllBlank g) (hg' : AllBlank g') :
    CallAt name (front ++ (g ++ p)) (name ++ (g' ++ '(' :: r)) := by
  refine ⟨?_, ?_, g', r, hg', rfl⟩
  · exact balance_append_nested hdepth ((Inert.of_allBlank hg).curly.append hp.nested)
  · rw [List.getLast?_append, List.getLast?_append]
    cases hc : p.getLast? with
    | some c => exact hidesCall_of_isBlank (hp.isBlank_of_getLast? c hc)
    | none =>
      cases hc : g.getLast? with
      | some c => exact hidesCall_of_isBlank (hg.isBlank_of_getLast? hc)
      | none =>
        cases hc : front.getLast? with
        | none => rfl
        | some c => rcases endsMember_cases (hfront c hc) with rfl | rfl | rfl <;> decide

/-! ## The marked constructor -/

theorem callLength?_of_not_mem {v x : Text} (hn : isIdentifier name = true) (hv : '(' ∉ v)
    (hlast : ∃ c ∈ v.getLast?, isBlank c = true) (hx : ∀ c ∈ x.head?, isIdentifierChar c = true) :
    callLength? name (v ++ x) = none := by
  cases hc : callLength? name (v ++ x) with
  | none => rfl
  | some n =>
    obtain ⟨g, r, hg, heq, -⟩ := callLength?_eq_some_iff.1 hc
    obtain ⟨c, hlast, hblank⟩ := hlast
    have hother : ∀ c, c = '(' ∨ isBlank c = true → isIdentifierChar c ≠ true := by
      rintro c (rfl | hc)
      · decide
      · rw [isIdentifierChar_of_isBlank hc]
        exact Bool.false_ne_true
    rcases List.append_eq_append_iff.1 heq with ⟨t, hname, -⟩ | ⟨t, rfl, hrest⟩
    · -- The text ends in the name, which holds no blank.
      have hmem : c ∈ name := by
        rw [hname]
        exact List.mem_append_left t (List.mem_of_getLast? hlast)
      exact absurd (isIdentifierChar_of_mem hn c hmem) (hother c (Or.inr hblank))
    · -- It ends behind the name, but not behind the bracket: a blank or the bracket would follow it.
      rcases List.append_eq_append_iff.1 hrest with ⟨b, rfl, hb⟩ | ⟨b, rfl, rfl⟩
      · cases b with
        | nil =>
          obtain rfl : '(' :: r = x := hb
          exact absurd (hx '(' rfl) (hother _ (Or.inl rfl))
        | cons d b =>
          obtain ⟨rfl, -⟩ := List.cons.inj hb
          exact absurd (List.mem_append_right name (List.mem_append_right g List.mem_cons_self)) hv
      · cases b with
        | nil => exact absurd (hx '(' rfl) (hother _ (Or.inl rfl))
        | cons d b =>
          exact absurd (hx d rfl) (hother d (Or.inr (hg d (List.mem_append_right t List.mem_cons_self))))

theorem not_callAt_of_not_mem {x rest : Text} (hn : isIdentifier name = true) (hx : '(' ∉ x)
    (hlast : ∀ c ∈ x.getLast?, isBlank c = true) (hrest : ∀ c ∈ rest.head?, isIdentifierChar c = true)
    (front a b : Text) (hab : x = a ++ b) (hb : b ≠ []) : ¬ CallAt name (front ++ a) (b ++ rest) := by
  intro hcall
  obtain ⟨c, hc⟩ := Option.isSome_iff_exists.1 (List.getLast?_isSome.2 hb)
  have hnone : callLength? name (b ++ rest) = none := by
    refine callLength?_of_not_mem hn (fun hmem => hx ?_) ⟨c, hc, hlast c ?_⟩ hrest
    · rw [hab]
      exact List.mem_append_right a hmem
    · rw [hab, List.getLast?_append, hc]
      rfl
  have hsome := (callAt_iff.1 hcall).2.2
  rw [hnone] at hsome
  cases hsome

/-- The constructor behind a marker is the first one of its body. -/
theorem callsBehind_marked {s u g m g' g'' l r w : Text} (hn : isIdentifier name = true)
    (hg : AllBlank g) (hm : isIdentifier m = true) (hg' : AllBlank g') (hne : g' ≠ [])
    (hg'' : AllBlank g'') (hl : Nested Brackets.round.weight l)
    (hs : s = u ++ ((g ++ '@' :: (m ++ g')) ++ (name ++ (g'' ++ '(' :: (l ++ ')' :: r))) ++ w)) :
    ∃ later, (callsBehind name u.length []
        ((g ++ '@' :: (m ++ g')) ++ (name ++ (g'' ++ '(' :: (l ++ ')' :: r))))).filterMap
          (constructorAt? s u.length) = ⟨[m], '(' :: (l ++ [')'])⟩ :: later := by
  have hprefix : PrefixSpelling [m] ('@' :: (m ++ g')) := by
    simpa using PrefixSpelling.bare (.simple hm) hg' hne .nil
  have hlast : ∀ c ∈ (g ++ '@' :: (m ++ g')).getLast?, isBlank c = true := by
    intro c hc
    rw [← List.cons_append, ← List.append_assoc] at hc
    exact hg' c (mem_of_getLast?_append hne hc)
  have hbracket : '(' ∉ g ++ '@' :: (m ++ g') := by
    intro hmem
    rcases List.mem_append.1 hmem with hmem | hmem
    · exact absurd (hg _ hmem) (by decide)
    · rcases List.mem_cons.1 hmem with hmem | hmem
      · cases hmem
      · rcases List.mem_append.1 hmem with hmem | hmem
        · exact absurd (isIdentifierChar_of_mem hm _ hmem) (by decide)
        · exact absurd (hg' _ hmem) (by decide)
  have hname : ∀ c ∈ (name ++ (g'' ++ '(' :: (l ++ ')' :: r))).head?, isIdentifierChar c = true := by
    obtain ⟨d, t, rfl⟩ := List.exists_cons_of_ne_nil (ne_nil_of_isIdentifier hn)
    rintro c ⟨⟩
    exact isIdentifierChar_of_mem hn d List.mem_cons_self
  -- The marker may have the name of the class, but no bracket follows it.
  have hsearch := callsBehind_append hn u.length (not_callAt_of_not_mem hn hbracket hlast hname [])
  have hfront : ∀ c ∈ ([] : Text).getLast?, endsMember c = true := fun c hc => nomatch hc
  have hcall : CallAt name ([] ++ (g ++ '@' :: (m ++ g'))) (name ++ (g'' ++ '(' :: (l ++ ')' :: r))) :=
    hprefix.callAt rfl hfront hg hg''
  have hms : markersOf? (join [' '] (words (g ++ '@' :: (m ++ g')))) = some [m] := by
    rw [words_blanks_append hg]
    exact hprefix.markersOf?_words
  have hs' : s = u ++ ([] ++ ((g ++ '@' :: (m ++ g')) ++
      (name ++ (g'' ++ '(' :: (l ++ ')' :: (r ++ w)))))) := by
    rw [hs]
    simp only [List.append_assoc, List.cons_append, List.nil_append]
  have hat := constructorAt?_eq hfront ((Joined.of_allBlank hg).append hprefix.joined) hms hl hs' rfl
  rw [List.nil_append] at hsearch hcall hat
  rw [hsearch, callsBehind_call hn u.length hg'' hcall, List.filterMap_cons, hat]
  exact ⟨_, rfl⟩

end RecordSkeleton.Java
