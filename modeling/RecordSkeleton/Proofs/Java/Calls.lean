import RecordSkeleton.Java.ConstructorSite
import RecordSkeleton.Proofs.Java.Opaque

/-!
# Calls of a name

A *call* of a name is a place of a text, outside braces, at which the name stands in front of an
opening round bracket, with nothing but blanks between the two.

1. No call starts inside another one (`not_call_inside`), so the search for calls may forget up to where
   the last one reached (`callSites_resume`).
2. The search passes over a text without calls (`callsBehind_append`) and puts out a call with the
   places of its name and of its bracket (`callsBehind_call`).
3. A call of a text that ends a member is one of the text itself, whatever stands around it
   (`CallAt.of_context`).
-/

namespace RecordSkeleton.Java

open Text

variable {name : Text}

/-- The characters right behind which no call is looked for. -/
def hidesCall (before : Option Char) : Bool := before.any fun b => isWordChar b || b == '.' || b == '$'

/-- A call of the name stands between the texts `u` and `v`, at the front of `v`. -/
structure CallAt (name u v : Text) : Prop where
  /-- The call is outside braces. -/
  depth : balance Brackets.curly.weight u = 0
  /-- The name is no part of a longer one. -/
  apart : hidesCall u.getLast? = false
  call : ∃ g r, AllBlank g ∧ v = name ++ (g ++ '(' :: r)

/-! ## What a call looks like -/

theorem hidesCall_of_isWordChar {c : Char} (hc : isWordChar c = true) : hidesCall (some c) = true := by
  unfold hidesCall
  rw [Option.any_some, hc]
  rfl

theorem hidesCall_of_isBlank {c : Char} (hc : isBlank c = true) : hidesCall (some c) = false := by
  have h := not_hidesKeyword_of_isBlank hc
  unfold Header.hidesKeyword at h
  simp only [Bool.or_eq_false_iff] at h
  unfold hidesCall
  rw [Option.any_some, h.1.1.1, h.1.1.2, h.1.2]
  rfl

theorem hidesCall_of_append {u v : Text} (h : hidesCall (u ++ v).getLast? = false) :
    hidesCall v.getLast? = false := by
  rw [List.getLast?_append] at h
  cases hv : v.getLast? with
  | none => rfl
  | some c => rwa [hv] at h

theorem callLength?_eq_some_iff {v : Text} {n : Nat} :
    callLength? name v = some n ↔
      ∃ g r, AllBlank g ∧ v = name ++ (g ++ '(' :: r) ∧ n = name.length + g.length := by
  constructor
  · intro h
    unfold callLength? at h
    split at h
    · rename_i hprefix
      obtain ⟨t, rfl⟩ := List.isPrefixOf_iff_prefix.1 hprefix
      rw [List.drop_left] at h
      simp only at h
      split at h
      · rename_i r hr
        cases h
        refine ⟨t.takeWhile isBlank, r, .takeWhile t, ?_, rfl⟩
        rw [← hr, List.takeWhile_append_dropWhile]
      · cases h
    · cases h
  · rintro ⟨g, r, hg, rfl, rfl⟩
    have hstop : ∀ c ∈ ('(' :: r).head?, isBlank c = false := by
      rintro c ⟨⟩
      decide
    unfold callLength?
    rw [if_pos (List.isPrefixOf_iff_prefix.2 (List.prefix_append _ _)), List.drop_left]
    simp only [dropWhile_append_stop hg hstop, takeWhile_append_stop hg hstop]

theorem callLength?_name {g r : Text} (hg : AllBlank g) :
    callLength? name (name ++ (g ++ '(' :: r)) = some (name.length + g.length) :=
  callLength?_eq_some_iff.2 ⟨g, r, hg, rfl, rfl⟩

theorem callAt_iff {u v : Text} : CallAt name u v ↔ balance Brackets.curly.weight u = 0 ∧
    hidesCall u.getLast? = false ∧ (callLength? name v).isSome = true := by
  constructor
  · rintro ⟨hdepth, hapart, g, r, hg, rfl⟩
    rw [callLength?_name hg]
    exact ⟨hdepth, hapart, rfl⟩
  · rintro ⟨hdepth, hapart, hcall⟩
    obtain ⟨n, hn⟩ := Option.isSome_iff_exists.1 hcall
    obtain ⟨g, r, hg, hv, -⟩ := callLength?_eq_some_iff.1 hn
    exact ⟨hdepth, hapart, g, r, hg, hv⟩

instance (u v : Text) : Decidable (CallAt name u v) := decidable_of_iff _ callAt_iff.symm

/-- A call starts with a character of a name. -/
theorem callLength?_of_head {v : Text} (hn : isIdentifier name = true)
    (hv : ∀ c ∈ v.head?, isIdentifierChar c = false) : callLength? name v = none := by
  cases hc : callLength? name v with
  | none => rfl
  | some n =>
    obtain ⟨g, r, -, rfl, -⟩ := callLength?_eq_some_iff.1 hc
    obtain ⟨d, t, rfl⟩ := List.exists_cons_of_ne_nil (ne_nil_of_isIdentifier hn)
    have hd := hv d rfl
    rw [isIdentifierChar_of_mem hn d List.mem_cons_self] at hd
    cases hd

/-- Inside a call, the rest of its name stands behind a character of the name, and what follows the name
starts with none. -/
theorem not_call_inside {g r u v : Text} (hn : isIdentifier name = true) (hg : AllBlank g)
    (h : name ++ (g ++ '(' :: r) = u ++ v) (hne : u ≠ []) (hle : u.length ≤ name.length + g.length) :
    hidesCall u.getLast? = true ∨ callLength? name v = none := by
  rcases prefix_append_cases (h ▸ List.prefix_append u v) with hu | ⟨q, hq, rfl⟩
  · obtain ⟨c, hc⟩ := Option.isSome_iff_exists.1 (List.getLast?_isSome.2 hne)
    have hmem := hu.subset (List.mem_of_getLast? hc)
    rw [hc]
    exact Or.inl (hidesCall_of_isWordChar
      (isWordChar_of_isIdentifierChar (isIdentifierChar_of_mem hn c hmem)))
  · rw [List.append_assoc] at h
    have hv : g ++ '(' :: r = q ++ v := List.append_cancel_left h
    have hqg : q <+: g := by
      refine List.prefix_of_prefix_length_le (hv ▸ List.prefix_append q v) (List.prefix_append g _) ?_
      rw [List.length_append] at hle
      omega
    obtain ⟨b, rfl⟩ := hqg
    rw [List.append_assoc] at hv
    obtain rfl : b ++ '(' :: r = v := List.append_cancel_left hv
    refine Or.inr (callLength?_of_head hn ?_)
    cases b with
    | nil =>
      rintro c ⟨⟩
      decide
    | cons c b =>
      rintro _ ⟨⟩
      exact isIdentifierChar_of_isBlank (hg c (List.mem_append_right q List.mem_cons_self))

/-! ## The search for calls -/

/-- The search for calls, on behind the text `front`, which stands at the offset `start`. -/
def callsBehind (name : Text) (start : Nat) (front rest : Text) : List (Nat × Nat) :=
  callSites name front.getLast? (balance Brackets.curly.weight front) (start + front.length) 0 rest

/-- Of the character in front, only whether it hides a call counts. -/
theorem callSites_before {b b' : Option Char} (h : hidesCall b = hidesCall b') (depth : Int)
    (offset resume : Nat) (x : Text) :
    callSites name b depth offset resume x = callSites name b' depth offset resume x := by
  cases x with
  | nil => rfl
  | cons c r =>
    unfold hidesCall at h
    rw [callSites, callSites, h]

/-- The offset before which no call is looked for does not count as long as none starts before it. -/
theorem callSites_resume {before : Option Char} {depth : Int} {offset resume : Nat} {x : Text}
    (h : ∀ u v, x = u ++ v → offset + u.length < resume →
      hidesCall (u.getLast?.or before) = true ∨ callLength? name v = none) :
    callSites name before depth offset resume x = callSites name before depth offset 0 x := by
  induction x generalizing before depth offset with
  | nil => rfl
  | cons c r ih =>
    have hrest : ∀ deeper, callSites name (some c) deeper (offset + 1) resume r =
        callSites name (some c) deeper (offset + 1) 0 r := by
      intro deeper
      refine ih fun u v hr hlt => ?_
      have := h (c :: u) v (by rw [hr]; rfl) (by rw [List.length_cons]; omega)
      rw [List.getLast?_cons, Option.some_or] at this
      cases hu : u.getLast? with
      | none => rwa [hu] at this
      | some d => rwa [hu] at this
    have hzero : decide (offset < 0) = false := by
      rw [decide_eq_false_iff_not]
      omega
    by_cases hlt : offset < resume
    · -- No call starts here, so the search goes on either way.
      have hnone : (if hidesCall before then none else callLength? name (c :: r)) = none := by
        rcases h [] (c :: r) rfl (by simpa using hlt) with hb | hc
        · exact if_pos hb
        · rw [hc, ite_self]
      unfold hidesCall at hnone
      rw [callSites, callSites]
      simp only [decide_eq_true hlt, Bool.true_or, if_true, hzero, Bool.false_or, hnone]
      exact hrest _
    · rw [callSites, callSites]
      simp only [decide_eq_false hlt, hzero, Bool.false_or, hrest]

/-- The search for calls from the front of a text. -/
theorem callSites_eq_callsBehind {before : Option Char} (hb : hidesCall before = false) (start : Nat)
    (x : Text) : callSites name before 0 start start x = callsBehind name start [] x := by
  rw [callSites_resume fun u v _ hlt => absurd hlt (by omega)]
  exact callSites_before (by rw [hb]; rfl) 0 start 0 x

theorem callsBehind_concat (start : Nat) (front r : Text) (c : Char) :
    callSites name (some c) (balance Brackets.curly.weight front + Brackets.curly.depth [c])
      (start + front.length + 1) 0 r = callsBehind name start (front ++ [c]) r := by
  unfold callsBehind
  rw [List.getLast?_concat, balance_append, Brackets.depth_eq_balance (by decide), List.length_append]
  rfl

/-- One step of the search. -/
theorem callsBehind_step (hn : isIdentifier name = true) (start : Nat) (front r : Text) (c : Char) :
    callsBehind name start front (c :: r) =
      match if hidesCall front.getLast? then none else callLength? name (c :: r) with
      | some n =>
        if balance Brackets.curly.weight front = 0 then
          (start + front.length, start + front.length + n) :: callsBehind name start (front ++ [c]) r
        else callsBehind name start (front ++ [c]) r
      | none => callsBehind name start (front ++ [c]) r := by
  have hzero : decide (start + front.length < 0) = false := by
    rw [decide_eq_false_iff_not]
    omega
  have hhides : (front.getLast?.any fun b => isWordChar b || b == '.' || b == '$') =
      hidesCall front.getLast? := rfl
  rw [callsBehind, callSites]
  simp only [hzero, Bool.false_or, hhides, callsBehind_concat]
  cases hcall : if hidesCall front.getLast? then none else callLength? name (c :: r) with
  | some n =>
    -- No call starts in the one that is found, so the search forgets where it ends.
    have hlater : callSites name (some c) (balance Brackets.curly.weight front +
        Brackets.curly.depth [c]) (start + front.length + 1) (start + front.length + n + 1) r =
          callsBehind name start (front ++ [c]) r := by
      rw [← callsBehind_concat]
      refine callSites_resume fun u v hr hlt => ?_
      split at hcall
      · cases hcall
      · obtain ⟨g, t, hg, hv, rfl⟩ := callLength?_eq_some_iff.1 hcall
        have hinside := not_call_inside (u := c :: u) (v := v) hn hg (by rw [← hv, hr]; rfl)
          (List.cons_ne_nil c u) (by rw [List.length_cons]; omega)
        rw [List.getLast?_cons] at hinside
        cases hu : u.getLast? with
        | none => rwa [hu] at hinside
        | some d => rwa [hu] at hinside
    simp only [hlater]
  | none => rfl

/-- The search passes over a text in which no call starts. -/
theorem callsBehind_append (hn : isIdentifier name = true) (start : Nat) {front m r : Text}
    (h : ∀ u v, m = u ++ v → v ≠ [] → ¬ CallAt name (front ++ u) (v ++ r)) :
    callsBehind name start front (m ++ r) = callsBehind name start (front ++ m) r := by
  induction m generalizing front with
  | nil => rw [List.nil_append, List.append_nil]
  | cons c m ih =>
    have hrest : callsBehind name start (front ++ [c]) (m ++ r) =
        callsBehind name start ((front ++ [c]) ++ m) r := ih fun u v hm hv => by
      have := h (c :: u) v (by rw [hm]; rfl) hv
      rwa [List.append_assoc]
    have hnone := h [] (c :: m) rfl (List.cons_ne_nil c m)
    rw [List.append_nil, callAt_iff] at hnone
    rw [List.append_assoc, List.singleton_append] at hrest
    rw [← hrest, List.cons_append, callsBehind_step hn]
    split
    · rename_i n hcall
      rw [if_neg]
      intro hdepth
      split at hcall
      · cases hcall
      · rename_i hhides
        refine hnone ⟨hdepth, by simpa using hhides, ?_⟩
        rw [List.cons_append, hcall]
        rfl
    · rfl

/-- The search puts out a call and goes on behind its bracket. -/
theorem callsBehind_call (hn : isIdentifier name = true) (start : Nat) {front g r : Text}
    (hg : AllBlank g) (h : CallAt name front (name ++ (g ++ '(' :: r))) :
    callsBehind name start front (name ++ (g ++ '(' :: r)) =
      (start + front.length, start + front.length + (name.length + g.length)) ::
        callsBehind name start (front ++ (name ++ (g ++ ['(']))) r := by
  obtain ⟨c, t, ht⟩ := List.exists_cons_of_ne_nil (ne_nil_of_isIdentifier hn)
  have hx : name ++ (g ++ '(' :: r) = c :: (t ++ (g ++ ['('])) ++ r := by
    rw [ht]
    simp only [List.cons_append, List.append_assoc, List.nil_append]
  have hrest : callsBehind name start (front ++ [c]) ((t ++ (g ++ ['('])) ++ r) =
      callsBehind name start (front ++ (name ++ (g ++ ['(']))) r := by
    rw [callsBehind_append hn start fun u v hm hv hcall => ?_]
    · rw [ht]
      simp only [List.cons_append, List.append_assoc, List.nil_append]
    · -- What is passed over is the inside of the call.
      have hlength := congrArg List.length hm
      have hpos := List.length_pos_iff.2 hv
      simp only [List.length_append, List.length_singleton] at hlength
      have hinside := not_call_inside (u := c :: u) (v := v ++ r) hn hg
        (by rw [hx, List.cons_append, hm, List.append_assoc]; rfl) (List.cons_ne_nil c u)
        (by rw [ht, List.length_cons, List.length_cons]; omega)
      rw [callAt_iff, List.append_assoc, List.singleton_append] at hcall
      obtain ⟨-, hapart, hsome⟩ := hcall
      rcases hinside with hhides | hnone
      · rw [hidesCall_of_append hapart] at hhides
        cases hhides
      · rw [hnone] at hsome
        cases hsome
  rw [← hrest, hx, List.cons_append, callsBehind_step hn, h.apart, ← List.cons_append, ← hx,
    callLength?_name hg]
  simp only [h.depth, if_true, Bool.false_eq_true, if_false]

/-! ## Calls and what stands around them -/

theorem endsMember_cases {c : Char} (h : endsMember c = true) : c = ';' ∨ c = '{' ∨ c = '}' := by
  unfold endsMember at h
  simpa only [Bool.or_eq_true, beq_iff_eq, or_assoc] using h

theorem not_mem_call {g : Text} {c : Char} (hn : isIdentifier name = true) (hg : AllBlank g)
    (hc : endsMember c = true) : c ∉ name ++ (g ++ ['(']) := by
  have hother : isIdentifierChar c = false ∧ isBlank c = false ∧ c ≠ '(' := by
    rcases endsMember_cases hc with rfl | rfl | rfl <;> decide
  intro hmem
  rcases List.mem_append.1 hmem with hmem | hmem
  · rw [isIdentifierChar_of_mem hn c hmem] at hother
    cases hother.1
  · rcases List.mem_append.1 hmem with hmem | hmem
    · rw [hg c hmem] at hother
      cases hother.2.1
    · exact hother.2.2 (List.mem_singleton.1 hmem)

/-- A call that starts in a member, which is a text that ends as one, is a call of that text. What stands
in front of the member has partners for its braces. -/
theorem CallAt.of_context {front m u v r : Text} (hn : isIdentifier name = true)
    (hfront : balance Brackets.curly.weight front = 0) (hm : ∃ c ∈ m.getLast?, endsMember c = true)
    (hmv : m = u ++ v) (hv : v ≠ []) (h : CallAt name (front ++ u) (v ++ r)) : CallAt name u v := by
  obtain ⟨hdepth, hapart, g, t, hg, hcall⟩ := h
  obtain ⟨c, hc, hends⟩ := hm
  rw [hmv] at hc
  have hmem : c ∈ v := mem_of_getLast?_append hv hc
  refine ⟨?_, hidesCall_of_append hapart, ?_⟩
  · rw [balance_append, hfront] at hdepth
    omega
  · have hprefix : name ++ (g ++ ['(']) <+: v ++ r := by
      refine ⟨t, ?_⟩
      rw [hcall]
      simp only [List.append_assoc, List.singleton_append]
    rcases prefix_append_cases hprefix with ⟨s, hs⟩ | ⟨q, -, hq⟩
    · refine ⟨g, s, hg, ?_⟩
      rw [← hs]
      simp only [List.append_assoc, List.singleton_append]
    · -- The call would hold the end of the member.
      refine absurd ?_ (not_mem_call hn hg hends)
      rw [hq]
      exact List.mem_append_left q hmem

/-- No call starts in blanks. -/
theorem not_callAt_of_head {u v : Text} (hn : isIdentifier name = true)
    (hv : ∀ c ∈ v.head?, isIdentifierChar c = false) : ¬ CallAt name u v := by
  intro h
  have := (callAt_iff.1 h).2.2
  rw [callLength?_of_head hn hv] at this
  cases this

end RecordSkeleton.Java
