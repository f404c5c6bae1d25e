import Mathlib.Data.List.Forall2
import RecordSkeleton.Proofs.Json.Reader
import RecordSkeleton.Proofs.Text.Lines

/-!
# Readable texts

A text is readable as a value when the reader gets behind it wherever a value may stand. The reader
only looks at the top of its stack, so this already follows when the text is read on its own.

1. A run on a stack is a run on any larger one (`run_above`), and the start of an array or object is
   no obstacle to a value (`run_first`).
2. The texts that are read on their own are the readable ones (`readable_iff`).
3. Quoted texts, arrays and inline objects of readable texts are readable, and so is a multi-line object
   whatever its depth (`readable_renderObject`).
-/

namespace RecordSkeleton.Json

open Text

variable {S : List Frame} {s t : State} {v : Json} {c : Char} {x y r : Text}

/-! ## Runs -/

theorem run_append (s : State) (x y : Text) : run s (x ++ y) = (run s x).bind (run · y) :=
  List.foldlM_append

theorem run_cons (h : step s c = some t) (r : Text) : run s (c :: r) = run t r := by
  show (step s c).bind (run · r) = _
  rw [h]
  rfl

/-- The same state on a larger stack. -/
def State.above (S : List Frame) (s : State) : State := ⟨s.mode, s.stack ++ S⟩

theorem begin?_above (A : List Frame) : begin? (A ++ S) c = (begin? A c).map (·.above S) := by
  simp only [begin?, apply_ite (Option.map (State.above S)), Option.map_some, Option.map_none]
  rfl

theorem closeEmpty?_above {A : List Frame} (h : closeEmpty? A c = some t) :
    closeEmpty? (A ++ S) c = some (t.above S) := by
  unfold closeEmpty? at h
  split at h
  · split at h <;> cases h
    rename_i hc
    exact if_pos hc
  · split at h <;> cases h
    rename_i hc
    exact if_pos hc
  · cases h

/-- What starts a value closes nothing. -/
theorem closeEmpty?_eq_none (h : begin? S c = some t) (A : List Frame) : closeEmpty? A c = none := by
  have hbracket : c ≠ ']' := by
    rintro rfl
    cases h
  have hbrace : c ≠ '\x7d' := by
    rintro rfl
    cases h
  unfold closeEmpty?
  split
  · exact if_neg hbracket
  · exact if_neg hbrace
  · rfl

theorem follow?_above {A : List Frame} (h : follow? A v c = some t) :
    follow? (A ++ S) v c = some (t.above S) := by
  unfold follow? at h ⊢
  by_cases hc : isSpace c = true
  · rw [if_pos hc] at h ⊢
    cases h
    rfl
  · rw [if_neg hc] at h ⊢
    cases A with
    | nil => cases h
    | cons frame A =>
      cases frame <;> simp only [List.cons_append] at h ⊢ <;> grind [State.above]

theorem step_above (h : step s c = some t) : step (s.above S) c = some (t.above S) := by
  obtain ⟨mode, A⟩ := s
  cases mode <;> simp only [step, State.above] at h ⊢
  case value =>
    by_cases hc : isSpace c = true
    · rw [if_pos hc] at h ⊢
      cases h
      rfl
    · rw [if_neg hc] at h ⊢
      rw [begin?_above, h]
      rfl
  case first =>
    by_cases hc : isSpace c = true
    · rw [if_pos hc] at h ⊢
      cases h
      rfl
    · rw [if_neg hc] at h ⊢
      rcases Option.or_eq_some_iff.1 h with h | ⟨-, h⟩
      · rw [closeEmpty?_above h]
        rfl
      · rw [closeEmpty?_eq_none h, begin?_above, h]
        rfl
  case after v => exact follow?_above h
  case word w n =>
    by_cases hc : w.text[n]? = some c
    · rw [if_pos hc] at h ⊢
      cases h
      rfl
    · rw [if_neg hc] at h
      cases h
  case number u lexeme =>
    cases hu : u.next? c with
    | some u' =>
      rw [hu] at h
      cases h
      rfl
    | none =>
      rw [hu] at h
      by_cases he : u.ends = true
      · simp only [if_pos he] at h ⊢
        exact follow?_above h
      · simp only [if_neg he] at h
        cases h
  case string units =>
    by_cases hq : c = '"'
    · rw [if_pos hq] at h ⊢
      cases h
      rfl
    rw [if_neg hq] at h ⊢
    by_cases hb : c = '\\'
    · rw [if_pos hb] at h ⊢
      cases h
      rfl
    rw [if_neg hb] at h ⊢
    by_cases hn : c.toNat < 0x20
    · rw [if_pos hn] at h
      cases h
    · rw [if_neg hn] at h ⊢
      cases h
      rfl
  case escape units =>
    by_cases hu : c = 'u'
    · rw [if_pos hu] at h ⊢
      cases h
      rfl
    · rw [if_neg hu] at h ⊢
      obtain ⟨u, he, rfl⟩ := Option.map_eq_some_iff.1 h
      rw [he]
      rfl
  case unicode units n code =>
    obtain ⟨u, hu, rfl⟩ := Option.map_eq_some_iff.1 h
    rw [hu]
    rfl

/-- A run on a stack is a run on any larger stack. -/
theorem run_above (h : run s x = some t) : run (s.above S) x = some (t.above S) := by
  induction x generalizing s with
  | nil =>
    cases h
    rfl
  | cons c r ih =>
    obtain ⟨u, hu, hr⟩ := Option.bind_eq_some_iff.1 h
    rw [run_cons (step_above hu)]
    exact ih hr

/-! ## Values -/

/-- The reader is behind the value on this stack, or in a number that may end here. -/
inductive Behind (S : List Frame) : Json → State → Prop
  | after (v : Json) : Behind S v ⟨.after v, S⟩
  | number {u : NumberState} (h : u.ends = true) (lexeme : Text) :
    Behind S (.number lexeme) ⟨.number u lexeme, S⟩

/-- The characters that may stand behind a value: a number ends in front of them. -/
def isDelimiter (c : Char) : Bool := isSpace c || [',', ':', ']', '\x7d'].contains c

theorem NumberState.next?_delimiter (hc : isDelimiter c = true) (u : NumberState) :
    u.next? c = none := by
  have hdelimiters : ∀ d ∈ [' ', '\t', '\n', '\r', ',', ':', ']', '\x7d'],
      d.isDigit = false ∧ d ∉ ['.', 'e', 'E', '+', '-'] := by decide
  have hmem : c ∈ [' ', '\t', '\n', '\r', ',', ':', ']', '\x7d'] := by
    simp only [isDelimiter, isSpace, List.contains_iff_mem, Bool.or_eq_true, beq_iff_eq,
      or_assoc] at hc
    simpa only [List.mem_cons] using hc
  obtain ⟨hdigit, hother⟩ := hdelimiters c hmem
  have hzero : c ≠ '0' := by
    rintro rfl
    cases hdigit
  simp only [List.mem_cons, List.not_mem_nil, or_false, not_or] at hother
  obtain ⟨hpoint, he, hE, hplus, hminus⟩ := hother
  have hexponent : ¬ (c = 'e' ∨ c = 'E') := fun h => h.elim he hE
  have hsign : ¬ (c = '+' ∨ c = '-') := fun h => h.elim hplus hminus
  cases u <;> simp only [NumberState.next?, hdigit, if_neg hpoint, if_neg hexponent, if_neg hsign,
    if_neg hzero, Bool.false_eq_true, if_false]

namespace Behind

theorem step (h : Behind S v s) (hc : isDelimiter c = true) : step s c = follow? S v c := by
  cases h with
  | after => rfl
  | number hu lexeme =>
    unfold Json.step
    simp only [NumberState.next?_delimiter hc, if_pos hu]

theorem above {A : List Frame} (h : Behind A v s) : Behind (A ++ S) v (s.above S) := by
  cases h with
  | after => exact .after v
  | number hu lexeme => exact .number hu lexeme

theorem finish?_iff : finish? s = some v ↔ Behind [] v s := by
  constructor
  · intro h
    obtain ⟨mode, A⟩ := s
    cases A with
    | cons frame A => cases mode <;> cases h
    | nil =>
      cases mode with
      | after w =>
        cases h
        exact .after v
      | number u lexeme =>
        by_cases hu : u.ends = true
        · rw [finish?, if_pos hu] at h
          cases h
          exact .number hu lexeme
        · rw [finish?, if_neg hu] at h
          cases h
      | _ => cases h
  · intro h
    cases h with
    | after => rfl
    | number hu lexeme => exact if_pos hu

end Behind

/-- The text is read as the value wherever a value may stand. -/
def Readable (x : Text) (v : Json) : Prop := ∀ S, ∃ s, run ⟨.value, S⟩ x = some s ∧ Behind S v s

/-- The texts that are readable are those that are read on their own. -/
theorem readable_iff : Readable x v ↔ read x = some v := by
  constructor
  · intro h
    obtain ⟨s, hs, hb⟩ := h []
    unfold read
    rw [hs]
    exact Behind.finish?_iff.2 hb
  · intro h S
    obtain ⟨s, hs, hv⟩ := Option.bind_eq_some_iff.1 h
    exact ⟨s.above S, run_above hs, (Behind.finish?_iff.1 hv).above⟩

theorem step_space {m : Mode} (hm : m = .value ∨ m = .first ∨ ∃ v, m = .after v)
    (hc : isSpace c = true) : step ⟨m, S⟩ c = some ⟨m, S⟩ := by
  rcases hm with rfl | rfl | ⟨v, rfl⟩
  · exact if_pos hc
  · exact if_pos hc
  · exact if_pos hc

theorem run_spaces {m : Mode} {w : Text} (hm : m = .value ∨ m = .first ∨ ∃ v, m = .after v)
    (hw : ∀ c ∈ w, isSpace c = true) (r : Text) : run ⟨m, S⟩ (w ++ r) = run ⟨m, S⟩ r := by
  induction w with
  | nil => rfl
  | cons c w ih =>
    rw [List.cons_append, run_cons (step_space hm (hw c List.mem_cons_self))]
    exact ih fun d hd => hw d (List.mem_cons_of_mem c hd)

/-- A value is read in the same way right behind the start of an array or object. -/
theorem run_first (h : run ⟨.value, S⟩ x = some s) (hb : Behind S v s) :
    run ⟨.first, S⟩ x = some s := by
  induction x with
  | nil =>
    cases h
    cases hb
  | cons c x ih =>
    by_cases hc : isSpace c = true
    · rw [run_cons (step_space (Or.inl rfl) hc)] at h
      rw [run_cons (step_space (Or.inr (Or.inl rfl)) hc)]
      exact ih h
    · obtain ⟨t, ht, hx⟩ := Option.bind_eq_some_iff.1 h
      have hbegin : begin? S c = some t := (if_neg hc).symm.trans ht
      have hfirst : step ⟨.first, S⟩ c = some t := by
        show (if isSpace c = true then _ else (closeEmpty? S c).or (begin? S c)) = _
        rw [if_neg hc, closeEmpty?_eq_none hbegin, hbegin]
        rfl
      rw [run_cons hfirst]
      exact hx

/-! ## Texts of values -/

/-- The characters that stand for themselves in a string. -/
def isOrdinary (c : Char) : Bool := c != '"' && c != '\\' && 0x20 ≤ c.toNat

theorem run_ordinary (hx : ∀ c ∈ x, isOrdinary c = true) (units : List Nat) (r : Text) :
    run ⟨.string units, S⟩ (x ++ r) = run ⟨.string (units ++ x.flatMap utf16), S⟩ r := by
  induction x generalizing units with
  | nil => simp
  | cons c x ih =>
    have hc := hx c List.mem_cons_self
    unfold isOrdinary at hc
    simp only [Bool.and_eq_true, bne_iff_ne, ne_eq, decide_eq_true_eq] at hc
    obtain ⟨⟨hquote, hslash⟩, hcontrol⟩ := hc
    have hstep : step ⟨.string units, S⟩ c = some ⟨.string (units ++ utf16 c), S⟩ := by
      simp only [step, if_neg hquote, if_neg hslash, if_neg (Nat.not_lt.2 hcontrol)]
    rw [List.cons_append, run_cons hstep, ih fun d hd => hx d (List.mem_cons_of_mem c hd)]
    rw [List.flatMap_cons, List.append_assoc]

theorem readable_quoted (hx : ∀ c ∈ x, isOrdinary c = true) :
    Readable ('"' :: (x ++ ['"'])) (ofText x) := by
  intro S
  refine ⟨⟨.after (ofText x), S⟩, ?_, .after _⟩
  have hopen : step ⟨.value, S⟩ '"' = some ⟨.string [], S⟩ := rfl
  rw [run_cons hopen, run_ordinary hx]
  rfl

namespace Readable

/-- Behind a readable text and a delimiter the reader goes on behind the value. -/
theorem run_append (h : Readable x v) {m : Mode} (hm : m = .value ∨ m = .first)
    (hc : isDelimiter c = true) (r : Text) :
    run ⟨m, S⟩ (x ++ c :: r) = (follow? S v c).bind (run · r) := by
  obtain ⟨s, hs, hb⟩ := h S
  have hrun : run ⟨m, S⟩ x = some s := by
    rcases hm with rfl | rfl
    · exact hs
    · exact run_first hs hb
  rw [Json.run_append, hrun, ← hb.step hc]
  rfl

theorem array (h : Readable x v) : Readable (['[', ' '] ++ x ++ [' ', ']']) (.array [v]) := by
  intro S
  refine ⟨⟨.after (.array [v]), S⟩, ?_, .after _⟩
  rw [List.append_assoc]
  show run ⟨.first, .array [] :: S⟩ (x ++ ' ' :: [']']) = _
  rw [h.run_append (Or.inr rfl) (by decide)]
  rfl

theorem pair {k : Text} {key : Json} (hk : Readable k key) (h : Readable x v) :
    Readable (['\x7b', ' '] ++ (k ++ [':', ' '] ++ x) ++ [' ', '\x7d']) (.object [(key, v)]) := by
  intro S
  refine ⟨⟨.after (.object [(key, v)]), S⟩, ?_, .after _⟩
  simp only [List.append_assoc]
  show run ⟨.first, .key [] :: S⟩ (k ++ ':' :: ' ' :: (x ++ ' ' :: ['\x7d'])) = _
  rw [hk.run_append (Or.inr rfl) (by decide)]
  show run ⟨.value, .member [] key :: S⟩ (x ++ ' ' :: ['\x7d']) = _
  rw [h.run_append (Or.inl rfl) (by decide)]
  rfl

end Readable

/-! ## Multi-line objects -/

/-- The entry of an object is read as a member. -/
def IsMember (e : Text) (m : Json × Json) : Prop :=
  ∃ k x, e = k ++ [':', ' '] ++ x ∧ Readable k m.1 ∧ Readable x m.2

theorem IsMember.run {e : Text} {p : Json × Json} (h : IsMember e p) {m : Mode}
    (hm : m = .value ∨ m = .first) (ms : List (Json × Json)) (hc : isDelimiter c = true) (r : Text) :
    run ⟨m, .key ms :: S⟩ (e ++ c :: r) = (follow? (.member ms p.1 :: S) p.2 c).bind (run · r) := by
  obtain ⟨k, x, rfl, hk, hx⟩ := h
  simp only [List.append_assoc]
  show Json.run ⟨m, .key ms :: S⟩ (k ++ ':' :: ' ' :: (x ++ c :: r)) = _
  rw [hk.run_append hm (by decide)]
  exact hx.run_append (Or.inl rfl) hc r

theorem isSpace_of_mem_margin {indent : Text} (hi : ∀ c ∈ indent, isSpace c = true) (d : Int) :
    ∀ c ∈ margin indent d, isSpace c = true := by
  intro c hc
  obtain ⟨l, hl, hc⟩ := List.mem_flatten.1 hc
  rw [List.eq_of_mem_replicate hl] at hc
  exact hi c hc

/-- The entries behind the first one, each on a line of its own, and the closing brace. -/
theorem run_entries {w w' : Text} (hw : ∀ c ∈ w, isSpace c = true) (hw' : ∀ c ∈ w', isSpace c = true)
    {es : List Text} {members : List (Json × Json)} (h : List.Forall₂ IsMember es members)
    {e : Text} {p : Json × Json} (he : IsMember e p) {m : Mode} (hm : m = .value ∨ m = .first)
    (ms : List (Json × Json)) :
    run ⟨m, .key ms :: S⟩
        (e ++ ((es.map (w ++ ·)).flatMap ([',', '\n'] ++ ·) ++ '\n' :: (w' ++ ['\x7d']))) =
      some ⟨.after (.object (ms ++ p :: members)), S⟩ := by
  induction h generalizing e p m ms with
  | nil =>
    rw [List.map_nil, List.flatMap_nil, List.nil_append, he.run hm ms (by decide)]
    show run ⟨.after p.2, .member ms p.1 :: S⟩ (w' ++ ['\x7d']) = _
    rw [run_spaces (Or.inr (Or.inr ⟨p.2, rfl⟩)) hw']
    rfl
  | @cons e' q es members hq _ ih =>
    have hassoc : ∀ F r : Text, [',', '\n'] ++ (w ++ e') ++ F ++ r =
        ',' :: '\n' :: (w ++ (e' ++ (F ++ r))) := by simp
    rw [List.map_cons, List.flatMap_cons, hassoc, he.run hm ms (by decide)]
    show run ⟨.value, .key (ms ++ [p]) :: S⟩ (w ++ (e' ++ _)) = _
    rw [run_spaces (Or.inl rfl) hw, ih hq (Or.inl rfl), List.append_assoc]
    rfl

/-- A multi-line object of members is read as the object of them, at any depth. -/
theorem readable_renderObject {indent : Text} (hi : ∀ c ∈ indent, isSpace c = true) (depth : Int)
    {es : List Text} {members : List (Json × Json)} (h : List.Forall₂ IsMember es members) :
    Readable (renderObject es depth indent) (.object members) := by
  intro S
  refine ⟨⟨.after (.object members), S⟩, ?_, .after _⟩
  have hmargin := isSpace_of_mem_margin hi
  rw [renderObject_eq]
  show run ⟨.first, .key [] :: S⟩ (join [',', '\n'] (es.map (margin indent depth ++ ·)) ++
    '\n' :: (margin indent (depth - 1) ++ ['\x7d'])) = _
  cases h with
  | nil =>
    show run ⟨.first, .key [] :: S⟩ (margin indent (depth - 1) ++ ['\x7d']) = _
    rw [run_spaces (Or.inr (Or.inl rfl)) (hmargin _)]
    rfl
  | cons he hes =>
    rw [List.map_cons, join_cons, List.append_assoc, List.append_assoc,
      run_spaces (Or.inr (Or.inl rfl)) (hmargin _)]
    exact run_entries (hmargin _) (hmargin _) hes he (Or.inr rfl) []

end RecordSkeleton.Json
