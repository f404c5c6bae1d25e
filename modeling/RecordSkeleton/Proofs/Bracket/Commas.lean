import RecordSkeleton.Proofs.Bracket.Joining

/-!
# The commas that separate

A text is cut at its commas at depth zero, where the depth counts all opening brackets in front against
all closing ones, of whatever family.

1. A comma at depth zero parts the text: its commas are those in front, itself, and those behind, counted
   from there (`commas_append`).
2. A text has one segment more than such commas, and what follows the last comma is the last segment
   (`segments_commas`).
3. So cutting undoes joining with commas, up to blanks, and the number of parts of any text is known from
   its commas (`splitTopLevel_undoes_join`).
-/

namespace RecordSkeleton.BracketFamilies

open Text

variable {f : BracketFamilies}

/-! ## The depth -/

/-- The number of characters that open a bracket less the number of those that close one. -/
def depth (f : BracketFamilies) (s : Text) : Int :=
  s.countP (· ∈ f.openers) - s.countP (· ∈ f.closers)

/-- No character both opens and closes a bracket, and a comma does neither. -/
structure Apart (f : BracketFamilies) : Prop where
  disjoint : ∀ c ∈ f.openers, c ∉ f.closers
  not_opens : ',' ∉ f.openers
  not_closes : ',' ∉ f.closers

theorem depth_append (s t : Text) : f.depth (s ++ t) = f.depth s + f.depth t := by
  unfold depth
  rw [List.countP_append, List.countP_append]
  omega

theorem Apart.weight_comma (hf : f.Apart) : f.weight ',' = 0 :=
  weight_eq_zero hf.not_opens hf.not_closes

/-- The depth is what the counter of the cut comes to. -/
theorem Apart.depth_eq_balance (hf : f.Apart) (s : Text) : f.depth s = balance f.weight s := by
  induction s with
  | nil => rfl
  | cons c r ih =>
    rw [balance_cons, ← ih]
    unfold depth weight
    rw [List.countP_cons, List.countP_cons]
    by_cases hopens : c ∈ f.openers
    · have hcloses := hf.disjoint c hopens
      simp [hopens, hcloses]
      omega
    · by_cases hcloses : c ∈ f.closers
      · simp [hopens, hcloses]
        omega
      · simp [hopens, hcloses]

theorem Apart.depth_comma_cons (hf : f.Apart) (s : Text) : f.depth (',' :: s) = f.depth s := by
  rw [hf.depth_eq_balance, hf.depth_eq_balance, balance_cons, hf.weight_comma, Int.zero_add]

/-! ## The commas at depth zero -/

/-- The offsets of the commas at depth zero, in order. -/
def commas (f : BracketFamilies) (s : Text) : List Nat :=
  (List.range s.length).filter fun i => s[i]? = some ',' ∧ f.depth (s.take i) = 0

/-- What follows the last comma at depth zero: the whole text, if there is none. -/
def lastPart (f : BracketFamilies) (s : Text) : Text :=
  match (f.commas s).getLast? with
  | some i => s.drop (i + 1)
  | none => s

theorem mem_commas {s : Text} {i : Nat} :
    i ∈ f.commas s ↔ s[i]? = some ',' ∧ f.depth (s.take i) = 0 := by
  unfold commas
  rw [List.mem_filter, List.mem_range, decide_eq_true_iff]
  refine ⟨fun h => h.2, fun h => ⟨?_, h⟩⟩
  exact (List.getElem?_eq_some_iff.1 h.1).1

theorem Apart.uncut (hf : f.Apart) {s : Text} (h : f.commas s = []) : f.Uncut s := by
  intro i _ hi hbalance
  rw [← hf.depth_eq_balance] at hbalance
  have hmem : i ∈ f.commas s := mem_commas.2 ⟨hi, hbalance⟩
  rw [h] at hmem
  cases hmem

/-- A comma at depth zero parts the text. -/
theorem Apart.commas_append (hf : f.Apart) {u : Text} (hu : f.depth u = 0) (v : Text) :
    f.commas (u ++ ',' :: v) = f.commas u ++ u.length :: (f.commas v).map (u.length + 1 + ·) := by
  have hlength : (u ++ ',' :: v).length = u.length + 1 + v.length := by
    rw [List.length_append, List.length_cons]
    omega
  unfold commas
  rw [hlength, List.range_add, List.range_succ, List.filter_append, List.filter_append,
    List.append_assoc, List.filter_map]
  congr 1
  · -- In front of the comma, the text behind does not count.
    refine List.filter_congr fun i hi => ?_
    have hlt := List.mem_range.1 hi
    rw [List.getElem?_append_left hlt, List.take_append_of_le_length (Nat.le_of_lt hlt)]
  · have hself : [u.length].filter (fun i => (u ++ ',' :: v)[i]? = some ',' ∧
        f.depth ((u ++ ',' :: v).take i) = 0) = [u.length] := by
      simp [hu]
    rw [hself, List.singleton_append]
    congr 2
    -- Behind the comma, the depth is that of the text behind.
    refine List.filter_congr fun i _ => ?_
    have hget : (u ++ ',' :: v)[u.length + 1 + i]? = v[i]? := by
      rw [Nat.add_assoc, List.getElem?_append_right (Nat.le_add_right _ _), Nat.add_sub_cancel_left,
        Nat.add_comm, List.getElem?_cons_succ]
    have htake : (u ++ ',' :: v).take (u.length + 1 + i) = u ++ ',' :: v.take i := by
      rw [Nat.add_assoc, List.take_length_add_append, Nat.add_comm, List.take_succ_cons]
    simp only [Function.comp, hget, htake, depth_append, hu, hf.depth_comma_cons, Int.zero_add]

/-- What follows the last comma of a text stands behind every comma. -/
theorem Apart.lastPart_append (hf : f.Apart) {u : Text} (hu : f.depth u = 0) (v : Text) :
    f.lastPart (u ++ ',' :: v) = f.lastPart v := by
  have hdrop : ∀ k, (u ++ ',' :: v).drop (u.length + 1 + k) = v.drop k := by
    intro k
    rw [Nat.add_assoc, ← List.drop_drop, List.drop_left, Nat.add_comm, List.drop_succ_cons]
  unfold lastPart
  rw [hf.commas_append hu, List.getLast?_append, List.getLast?_cons, List.getLast?_map]
  cases (f.commas v).getLast? with
  | none => exact hdrop 0
  | some k => exact hdrop (k + 1)

/-! ## Segments and parts -/

/-- A text has one segment more than commas at depth zero. The last one follows the last comma. -/
theorem Apart.segments_commas (hf : f.Apart) (s : Text) :
    (f.segments s).length = (f.commas s).length + 1 ∧
      (f.segments s).getLast? = some (f.lastPart s) := by
  -- A comma at depth zero leaves a shorter text on each side.
  induction hn : s.length using Nat.strongRecOn generalizing s with
  | _ n ih =>
    cases hcommas : f.commas s with
    | nil =>
      have hlast : f.lastPart s = s := by
        unfold lastPart
        rw [hcommas]
        rfl
      rw [(hf.uncut hcommas).segments_eq, hlast]
      exact ⟨rfl, rfl⟩
    | cons i is =>
      rw [← hcommas]
      obtain ⟨hi, hdepth⟩ := mem_commas.1 (hcommas ▸ List.mem_cons_self : i ∈ f.commas s)
      obtain ⟨hlt, -⟩ := List.getElem?_eq_some_iff.1 hi
      have hs : s = s.take i ++ ',' :: s.drop (i + 1) := (take_append_cons_drop hi).symm
      obtain ⟨hfront, -⟩ := ih _ (by rw [← hn, List.length_take]; omega) (s.take i) rfl
      obtain ⟨hback, hlast⟩ := ih _ (by rw [← hn, List.length_drop]; omega) (s.drop (i + 1)) rfl
      have hsegments := segments_balanced_comma hf.weight_comma
        ((hf.depth_eq_balance _).symm.trans hdepth) (s.drop (i + 1))
      rw [hs, hsegments, hf.commas_append hdepth, hf.lastPart_append hdepth]
      refine ⟨?_, ?_⟩
      · simp only [List.length_append, List.length_cons, List.length_map, hfront, hback]
        omega
      · rw [List.getLast?_append, hlast]
        rfl

theorem dropEmptyLast_map_trim (parts : List Text) :
    dropEmptyLast (parts.map trim) =
      (if ∀ s ∈ parts.getLast?, AllBlank s then parts.dropLast else parts).map trim := by
  have hblank : (∀ s ∈ parts.getLast?, AllBlank s) ↔
      parts = [] ∨ (parts.map trim).getLast? = some [] := by
    rw [List.getLast?_map]
    cases hlast : parts.getLast? with
    | none =>
      exact ⟨fun _ => .inl (List.getLast?_eq_none_iff.1 hlast), fun _ s hs => (nomatch hs)⟩
    | some last =>
      have hne : parts ≠ [] := by
        rintro rfl
        cases hlast
      simp [hne, trim_eq_nil_iff]
  unfold dropEmptyLast
  by_cases hall : ∀ s ∈ parts.getLast?, AllBlank s
  · rw [if_pos hall]
    obtain rfl | hnil := hblank.1 hall
    · rfl
    · rw [if_pos hnil, List.map_dropLast]
  · rw [if_neg hall, if_neg fun hnil => hall (hblank.2 (.inr hnil))]

theorem Apart.length_splitTopLevel (hf : f.Apart) (s : Text) :
    (f.splitTopLevel s).length =
      (f.commas s).length + if AllBlank (f.lastPart s) then 0 else 1 := by
  obtain ⟨hlength, hlast⟩ := hf.segments_commas s
  rw [splitTopLevel, dropEmptyLast_map_trim, hlast, List.length_map]
  by_cases hblank : AllBlank (f.lastPart s)
  · have hall : ∀ p ∈ some (f.lastPart s), AllBlank p := fun p hp => Option.some.inj hp ▸ hblank
    rw [if_pos hall, if_pos hblank, List.length_dropLast, hlength]
    rfl
  · rw [if_neg fun hall => hblank (hall _ rfl), if_neg hblank, hlength]

/-- Parts without a comma at depth zero, in each of which as many brackets open as close, are what their
joined text is cut into, trimmed and without a blank last one. And any text has one part for each comma at
depth zero, and one more if what follows the last one is not blank. -/
theorem splitTopLevel_undoes_join (hf : f.Apart) :
    (∀ parts : List Text, (∀ s ∈ parts, f.depth s = 0 ∧ f.commas s = []) →
      f.splitTopLevel (join [','] parts) =
        (if ∀ s ∈ parts.getLast?, AllBlank s then parts.dropLast else parts).map trim) ∧
    ∀ s : Text, (f.splitTopLevel s).length =
      (f.commas s).length + if AllBlank (f.lastPart s) then 0 else 1 := by
  refine ⟨fun parts h => ?_, hf.length_splitTopLevel⟩
  rw [← dropEmptyLast_map_trim]
  by_cases hne : parts = []
  · rw [hne]
    rfl
  · have hbalance : ∀ s ∈ parts.dropLast, balance f.weight s = 0 := fun s hs => by
      rw [← hf.depth_eq_balance, (h s (List.dropLast_subset parts hs)).1]
    rw [splitTopLevel, segments_join hf.weight_comma hne (fun s hs => hf.uncut (h s hs).2) hbalance]

/-- Parts of all kinds: one with commas in brackets, one whose brackets close before they open, a blank
one, and a blank last one. -/
theorem splitTopLevel_undoes_join_all :
    all.Apart ∧
      (∀ s ∈ ["Map<K, V> m".toList, "\t".toList, "x)(".toList, " ".toList],
        all.depth s = 0 ∧ all.commas s = []) ∧
      all.splitTopLevel "Map<K, V> m,\t,x)(, ".toList = ["Map<K, V> m".toList, [], "x)(".toList] ∧
      (all.splitTopLevel "a),b,(c,d".toList).length = 2 := by
  have hf : all.Apart := ⟨by decide, by decide, by decide⟩
  have hparts : ∀ s ∈ ["Map<K, V> m".toList, "\t".toList, "x)(".toList, " ".toList],
      all.depth s = 0 ∧ all.commas s = [] := by decide
  obtain ⟨hjoin, hlength⟩ := splitTopLevel_undoes_join hf
  exact ⟨hf, hparts, (hjoin _ hparts).trans (by decide), (hlength _).trans (by decide)⟩

end RecordSkeleton.BracketFamilies
