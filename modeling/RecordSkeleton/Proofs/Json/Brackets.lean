import RecordSkeleton.Proofs.Json.Reader
import RecordSkeleton.Proofs.Text.Words

/-!
# Matching brackets

A check that knows nothing of values: outside quoted texts every bracket that closes must be the one
that the innermost open bracket asks for, and at the end nothing is open. The reader holds at least as
much in its state as this check does, so it accepts no text whose brackets do not match
(`bracketsMatch_of_read`).
-/

namespace RecordSkeleton.Json

/-- Where a character stands. -/
inductive Quoting where
  | outside
  | inside
  /-- Right behind a backslash in a quoted text. -/
  | escaped
  deriving DecidableEq

structure BracketState where
  quoting : Quoting
  /-- The brackets that still have to come, the next one first. -/
  owed : List Char
  deriving DecidableEq

def closeBracket? (owed : List Char) (c : Char) : Option BracketState :=
  match owed with
  | d :: rest => if c = d then some ⟨.outside, rest⟩ else none
  | [] => none

def bracketStep (s : BracketState) (c : Char) : Option BracketState :=
  match s.quoting with
  | .outside =>
    if c = '"' then some ⟨.inside, s.owed⟩
    else if c = '[' then some ⟨.outside, ']' :: s.owed⟩
    else if c = '\x7b' then some ⟨.outside, '\x7d' :: s.owed⟩
    else if c = ']' ∨ c = '\x7d' then closeBracket? s.owed c
    else some s
  | .inside =>
    if c = '"' then some ⟨.outside, s.owed⟩
    else if c = '\\' then some ⟨.escaped, s.owed⟩
    else some s
  | .escaped => some ⟨.inside, s.owed⟩

/-- All brackets of the text match, and so do its quotes. -/
def BracketsMatch (x : Text) : Prop := x.foldlM bracketStep ⟨.outside, []⟩ = some ⟨.outside, []⟩

instance (x : Text) : Decidable (BracketsMatch x) :=
  inferInstanceAs (Decidable (x.foldlM bracketStep ⟨.outside, []⟩ = some ⟨.outside, []⟩))

example : BracketsMatch "[\x7b\"]\\\"\" : 1\x7d]".toList ∧ ¬ BracketsMatch "[\x7b]\x7d".toList := by
  decide

/-! ## What the reader knows of brackets -/

def Mode.quoting : Mode → Quoting
  | string _ | unicode _ _ _ => .inside
  | escape _ => .escaped
  | _ => .outside

def Frame.owed : Frame → Char
  | array _ => ']'
  | key _ | member _ _ => '\x7d'

def State.brackets (s : State) : BracketState := ⟨s.mode.quoting, s.stack.map Frame.owed⟩

variable {s t : State} {S : List Frame} {v : Json} {c : Char} {owed : List Char}

/-- The characters that count outside quoted texts. -/
def marks : List Char := ['"', '[', '\x7b', ']', '\x7d']

theorem bracketStep_plain (hc : c ∉ marks) :
    bracketStep ⟨.outside, owed⟩ c = some ⟨.outside, owed⟩ := by
  unfold marks at hc
  simp only [List.mem_cons, List.not_mem_nil, or_false, not_or] at hc
  obtain ⟨hquote, hbracket, hbrace, hbracket', hbrace'⟩ := hc
  have hclose : ¬ (c = ']' ∨ c = '\x7d') := fun h => h.elim hbracket' hbrace'
  simp only [bracketStep, if_neg hquote, if_neg hbracket, if_neg hbrace, if_neg hclose]

theorem not_mem_marks_of_isSpace (hc : isSpace c = true) : c ∉ marks := by
  have hmarks : ∀ d ∈ marks, isSpace d = false := by decide
  intro h
  rw [hmarks c h] at hc
  cases hc

theorem not_mem_marks_of_next? {u u' : NumberState} (h : u.next? c = some u') : c ∉ marks := by
  intro hc
  simp only [marks, List.mem_cons, List.not_mem_nil, or_false] at hc
  rcases hc with rfl | rfl | rfl | rfl | rfl <;> cases u <;> cases h

theorem brackets_begin? (h : begin? S c = some t) :
    bracketStep ⟨.outside, S.map Frame.owed⟩ c = some t.brackets := by
  by_cases hc : c ∈ marks
  · simp only [marks, List.mem_cons, List.not_mem_nil, or_false] at hc
    rcases hc with rfl | rfl | rfl | rfl | rfl <;> cases h <;> rfl
  · rw [bracketStep_plain hc]
    simp only [marks, List.mem_cons, List.not_mem_nil, or_false, not_or] at hc
    unfold begin? at h
    rw [if_neg hc.1, if_neg hc.2.1, if_neg hc.2.2.1] at h
    repeat' split at h
    all_goals cases h
    all_goals rfl

theorem brackets_closeEmpty? (h : closeEmpty? S c = some t) :
    bracketStep ⟨.outside, S.map Frame.owed⟩ c = some t.brackets := by
  unfold closeEmpty? at h
  split at h
  · split at h <;> cases h
    rename_i hc
    rw [hc]
    rfl
  · split at h <;> cases h
    rename_i hc
    rw [hc]
    rfl
  · cases h

theorem brackets_follow? (h : follow? S v c = some t) :
    bracketStep ⟨.outside, S.map Frame.owed⟩ c = some t.brackets := by
  unfold follow? at h
  split at h
  · rename_i hc
    cases h
    exact bracketStep_plain (not_mem_marks_of_isSpace hc)
  · repeat' split at h
    all_goals cases h
    all_goals rename_i hc
    all_goals rw [hc]
    all_goals rfl

/-- The check follows every step of the reader. -/
theorem brackets_step (h : step s c = some t) : bracketStep s.brackets c = some t.brackets := by
  obtain ⟨mode, A⟩ := s
  cases mode <;> simp only [step] at h
  case value =>
    split at h
    · rename_i hc
      cases h
      exact bracketStep_plain (not_mem_marks_of_isSpace hc)
    · exact brackets_begin? h
  case first =>
    split at h
    · rename_i hc
      cases h
      exact bracketStep_plain (not_mem_marks_of_isSpace hc)
    · rcases Option.or_eq_some_iff.1 h with h | ⟨-, h⟩
      · exact brackets_closeEmpty? h
      · exact brackets_begin? h
  case after v => exact brackets_follow? h
  case word w n =>
    have hletters : ∀ w : Word, ∀ d ∈ w.text, d ∉ marks := by
      intro w
      cases w <;> decide
    split at h <;> cases h
    rename_i hc
    refine (bracketStep_plain (hletters w c (List.mem_of_getElem? hc))).trans ?_
    unfold State.brackets
    split <;> rfl
  case number u lexeme =>
    split at h
    · rename_i hu
      cases h
      exact bracketStep_plain (not_mem_marks_of_next? hu)
    · split at h
      · exact brackets_follow? h
      · cases h
  case string units =>
    show (if c = '"' then _ else if c = '\\' then _ else _) = _
    split at h
    · rename_i hc
      cases h
      exact if_pos hc
    rename_i hquote
    rw [if_neg hquote]
    split at h
    · rename_i hc
      cases h
      exact if_pos hc
    rename_i hslash
    rw [if_neg hslash]
    split at h <;> cases h
    rfl
  case escape units =>
    split at h
    · cases h
      rfl
    · obtain ⟨u, -, rfl⟩ := Option.map_eq_some_iff.1 h
      rfl
  case unicode units n code =>
    obtain ⟨u, hu, rfl⟩ := Option.map_eq_some_iff.1 h
    have hquote : c ≠ '"' := by
      rintro rfl
      cases hu
    have hslash : c ≠ '\\' := by
      rintro rfl
      cases hu
    show (if c = '"' then _ else if c = '\\' then _ else _) = _
    rw [if_neg hquote, if_neg hslash]
    unfold State.brackets
    split <;> rfl

theorem brackets_run {x : Text} (h : run s x = some t) :
    x.foldlM bracketStep s.brackets = some t.brackets := by
  induction x generalizing s with
  | nil =>
    cases h
    rfl
  | cons c r ih =>
    obtain ⟨u, hu, hr⟩ := Option.bind_eq_some_iff.1 h
    rw [List.foldlM_cons, brackets_step hu]
    exact ih hr

/-- The brackets of a text that is read match. -/
theorem bracketsMatch_of_read {x : Text} (h : read x = some v) : BracketsMatch x := by
  obtain ⟨⟨mode, A⟩, hs, hv⟩ := Option.bind_eq_some_iff.1 h
  have hrun := brackets_run hs
  cases A with
  | cons frame A => cases mode <;> cases hv
  | nil =>
    cases mode with
    | after w => exact hrun
    | number u lexeme => exact hrun
    | _ => cases hv

end RecordSkeleton.Json
