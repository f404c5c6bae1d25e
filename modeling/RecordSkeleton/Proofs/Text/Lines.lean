import RecordSkeleton.Proofs.Text.Words
import RecordSkeleton.Value

/-!
# Shifting lines

`shiftLines indent s` puts an indent in front of every non-empty line of a text but the first.

1. Shifting goes through a text piece by piece, as long as a piece does not end in a line feed
   (`shiftLines_append`).
2. A multi-line object of shifted entries that is laid out one level deeper is the shifted object
   (`shiftLines_renderObject`).
-/

namespace RecordSkeleton.Text

/-- The line behind an indent, unless it is empty. -/
def shiftLine (indent l : Text) : Text := if l = [] then [] else indent ++ l

/-- The text with an indent in front of every non-empty line after the first. -/
def shiftLines (indent s : Text) : Text :=
  match s.splitOn '\n' with
  | [] => []
  | first :: rest => ['\n'].intercalate (first :: rest.map (shiftLine indent))

variable {indent : Text}

/-! ## One character -/

theorem exists_splitOn_eq_cons (s : Text) : ∃ l ls, s.splitOn '\n' = l :: ls :=
  List.exists_cons_of_ne_nil (List.splitOn_ne_nil '\n' s)

theorem shiftLines_nil : shiftLines indent [] = [] := rfl

theorem shiftLines_cons {c : Char} (hc : c ≠ '\n') (r : Text) :
    shiftLines indent (c :: r) = c :: shiftLines indent r := by
  obtain ⟨l, ls, h⟩ := exists_splitOn_eq_cons r
  have hc' : (c == '\n') = false := beq_false_of_ne hc
  unfold shiftLines
  rw [List.splitOn_cons_eq_if_modifyHead, h, hc']
  simp only [List.modifyHead_cons, Bool.false_eq_true, if_false]
  cases ls <;> simp [List.intercalate]

/-- The line behind a line feed is shifted if it starts with a character of its own. -/
theorem shiftLines_feed {c : Char} (hc : c ≠ '\n') (r : Text) :
    shiftLines indent ('\n' :: c :: r) = '\n' :: (indent ++ shiftLines indent (c :: r)) := by
  obtain ⟨l, ls, h⟩ := exists_splitOn_eq_cons r
  have hc' : (c == '\n') = false := beq_false_of_ne hc
  have hline : (c :: r).splitOn '\n' = (c :: l) :: ls := by
    rw [List.splitOn_cons_eq_if_modifyHead, h, hc']
    rfl
  unfold shiftLines
  rw [List.splitOn_cons_eq_if_modifyHead, hline]
  cases ls <;> simp [List.intercalate, shiftLine]

theorem shiftLines_feed_feed (r : Text) :
    shiftLines indent ('\n' :: '\n' :: r) = '\n' :: shiftLines indent ('\n' :: r) := by
  obtain ⟨l, ls, h⟩ := exists_splitOn_eq_cons r
  have hline : ('\n' :: r).splitOn '\n' = [] :: l :: ls := by
    rw [List.splitOn_cons_eq_if_modifyHead, h]
    rfl
  unfold shiftLines
  rw [List.splitOn_cons_eq_if_modifyHead, hline]
  simp [List.intercalate, shiftLine]

/-! ## Pieces -/

theorem shiftLines_append {a : Text} (ha : a.getLast? ≠ some '\n') (b : Text) :
    shiftLines indent (a ++ b) = shiftLines indent a ++ shiftLines indent b := by
  induction a with
  | nil => rfl
  | cons c a ih =>
    cases a with
    | nil =>
      have hc : c ≠ '\n' := by
        rintro rfl
        exact ha rfl
      show shiftLines indent (c :: b) = _
      rw [shiftLines_cons hc, shiftLines_cons hc, shiftLines_nil]
      rfl
    | cons d a =>
      have ih : shiftLines indent (d :: (a ++ b)) = _ := ih (by rwa [List.getLast?_cons_cons] at ha)
      show shiftLines indent (c :: d :: (a ++ b)) = _
      by_cases hc : c = '\n'
      · subst hc
        by_cases hd : d = '\n'
        · subst hd
          rw [shiftLines_feed_feed, ih, shiftLines_feed_feed]
          rfl
        · rw [shiftLines_feed hd, ih, shiftLines_feed hd, List.cons_append, List.append_assoc]
      · rw [shiftLines_cons hc, ih, shiftLines_cons hc]
        rfl

theorem shiftLines_of_not_mem {a : Text} (ha : '\n' ∉ a) : shiftLines indent a = a := by
  unfold shiftLines
  rw [List.splitOn_eq_singleton ha]
  simp [List.intercalate]

theorem getLast?_ne_of_not_mem {a : Text} (ha : '\n' ∉ a) : a.getLast? ≠ some '\n' :=
  fun h => ha (List.mem_of_getLast? h)

/-- A line feed, a margin and a text that starts with a character of its own. -/
theorem shiftLines_line {m r : Text} {c : Char} (hm : '\n' ∉ m) (hc : c ≠ '\n') :
    shiftLines indent ('\n' :: (m ++ c :: r)) = '\n' :: (indent ++ (m ++ shiftLines indent (c :: r))) := by
  have hpiece : shiftLines indent (m ++ c :: r) = m ++ shiftLines indent (c :: r) := by
    rw [shiftLines_append (getLast?_ne_of_not_mem hm), shiftLines_of_not_mem hm]
  rw [← hpiece]
  cases m with
  | nil => exact shiftLines_feed hc r
  | cons d m =>
    have hd : d ≠ '\n' := fun h => hm (h ▸ List.mem_cons_self)
    exact shiftLines_feed hd (m ++ c :: r)

/-! ## Multi-line objects -/

/-- The margin of a line `d` units deep. -/
def margin (indent : Text) (d : Int) : Text := (List.replicate d.toNat indent).flatten

theorem margin_succ {d : Int} (hd : 0 ≤ d) : margin indent (d + 1) = indent ++ margin indent d := by
  unfold margin
  rw [show (d + 1).toNat = d.toNat + 1 by omega, List.replicate_succ, List.flatten_cons]

theorem not_mem_margin (hi : '\n' ∉ indent) (d : Int) : '\n' ∉ margin indent d := by
  intro h
  obtain ⟨l, hl, hc⟩ := List.mem_flatten.1 h
  rw [List.eq_of_mem_replicate hl] at hc
  exact hi hc

/-- An entry of a multi-line object: it starts a line with a character of its own and does not end in
a line feed. -/
def IsEntry (e : Text) : Prop := (∃ c r, e = c :: r ∧ c ≠ '\n') ∧ e.getLast? ≠ some '\n'

theorem shiftLines_entry {m e : Text} (hm : '\n' ∉ m) (he : IsEntry e) (r : Text) :
    shiftLines indent ('\n' :: (m ++ (e ++ r))) =
      '\n' :: (indent ++ m ++ (shiftLines indent e ++ shiftLines indent r)) := by
  obtain ⟨⟨c, t, rfl, hc⟩, hlast⟩ := he
  rw [← shiftLines_append hlast, List.cons_append, shiftLines_line hm hc, List.append_assoc]

/-- The entries behind the first one, each on a line of its own. -/
theorem shiftLines_entries {m r : Text} {es : List Text} (hm : '\n' ∉ m) (hes : ∀ e ∈ es, IsEntry e) :
    shiftLines indent ((es.map (m ++ ·)).flatMap ([',', '\n'] ++ ·) ++ r) =
      ((es.map (shiftLines indent)).map (indent ++ m ++ ·)).flatMap ([',', '\n'] ++ ·) ++
        shiftLines indent r := by
  induction es with
  | nil => rfl
  | cons e es ih =>
    have ih := ih fun e' he' => hes e' (List.mem_cons_of_mem e he')
    simp only [List.map_cons, List.flatMap_cons]
    have hassoc : ∀ F : Text, [',', '\n'] ++ (m ++ e) ++ F ++ r =
        ',' :: '\n' :: (m ++ (e ++ (F ++ r))) := by simp
    rw [hassoc, shiftLines_cons (by decide), shiftLines_entry hm (hes e List.mem_cons_self), ih]
    simp

/-- The lines of a multi-line object behind its opening brace. -/
theorem renderObject_eq (es : List Text) (depth : Int) (indent : Text) :
    renderObject es depth indent =
      '\x7b' :: '\n' :: (join [',', '\n'] (es.map (margin indent depth ++ ·)) ++
        '\n' :: (margin indent (depth - 1) ++ ['\x7d'])) := by
  unfold renderObject margin
  simp only [List.append_assoc, List.cons_append, List.nil_append]

/-- Shifted entries laid out one level deeper make the shifted object. -/
theorem shiftLines_renderObject {es : List Text} {depth : Int} (hi : '\n' ∉ indent)
    (hd : 1 ≤ depth) (hes : ∀ e ∈ es, IsEntry e) :
    shiftLines indent (renderObject es depth indent) =
      renderObject (es.map (shiftLines indent)) (depth + 1) indent := by
  have hclose : shiftLines indent ('\n' :: (margin indent (depth - 1) ++ ['\x7d'])) =
      '\n' :: (margin indent depth ++ ['\x7d']) := by
    have hsucc := @margin_succ indent (depth - 1) (by omega)
    rw [Int.sub_add_cancel] at hsucc
    rw [shiftLines_line (not_mem_margin hi _) (by decide), hsucc, List.append_assoc]
    rfl
  rw [renderObject_eq, renderObject_eq, shiftLines_cons (by decide), Int.add_sub_cancel,
    margin_succ (by omega)]
  cases es with
  | nil =>
    show '\x7b' :: shiftLines indent ('\n' :: '\n' :: (margin indent (depth - 1) ++ ['\x7d'])) = _
    rw [shiftLines_feed_feed, hclose]
    rfl
  | cons e es =>
    have hm := not_mem_margin hi depth
    have hrest := @shiftLines_entries indent (margin indent depth)
      ('\n' :: (margin indent (depth - 1) ++ ['\x7d'])) es hm
      fun e' he' => hes e' (List.mem_cons_of_mem e he')
    simp only [List.map_cons, join_cons, List.append_assoc]
    rw [shiftLines_entry hm (hes e List.mem_cons_self), hrest, hclose]
    simp only [List.append_assoc]

end RecordSkeleton.Text
