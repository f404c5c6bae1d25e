import Mathlib.Data.List.Forall2
import RecordSkeleton.Field
import RecordSkeleton.Proofs.Bracket.Joining
import RecordSkeleton.Proofs.Marker.Peeling

/-!
# Entries of a list of fields

A list is cut into its entries before the markers of each entry are peeled off. The cut counts angle
brackets in the arguments of a marker too, though they may be meant as operators.

1. The fields of a list are those of its segments as they stand: blanks around an entry do not count,
   and an empty entry is no field (`listOfText_eq`).
2. Markers in front of the entries do not change the fields as long as the list is cut into the same
   entries with them (`listOfText_marked`).
-/

namespace RecordSkeleton.Field

open Text

/-! ## Entries -/

theorem ofText?_of_words {s v n : Text} {t : List Text}
    (h : words (Marker.strip s) = v :: t ++ [n]) :
    ofText? s = some ⟨n, join [' '] (v :: t)⟩ := by
  unfold ofText?
  simp only [h, List.getLast?_concat, List.dropLast_concat]

theorem ofText?_nil : ofText? [] = none := by
  unfold ofText?
  rw [Marker.strip_of_head (by decide)]
  rfl

theorem ofText?_trim (s : Text) : ofText? (trim s) = ofText? s := by
  obtain ⟨w, hw, hs⟩ := eq_trimRight_append (trimLeft s)
  obtain ⟨v, hv, hstrip⟩ := Marker.exists_strip_append hw (trim s)
  have hwords : words (Marker.strip s) = words (Marker.strip (trim s)) := by
    calc words (Marker.strip s) = words (Marker.strip (trim s ++ w)) := by
          rw [← Marker.strip_trimLeft, hs]
          rfl
      _ = words (Marker.strip (trim s) ++ v) := by rw [hstrip]
      _ = words (Marker.strip (trim s)) := words_append_blanks hv _
  unfold ofText?
  rw [hwords]

/-- Markers in front of an entry do not change the field that it is read as. -/
theorem ofText?_marked {t u : Text} {names : List Text} (h : Marker.Marked t names u) :
    ofText? u = ofText? t := by
  unfold ofText?
  rw [Marker.strip_marked h]

/-! ## Lists -/

/-- An empty entry is no field, so it does not count whether a last one is dropped. -/
theorem filterMap_dropEmptyLast (parts : List Text) :
    (BracketFamilies.dropEmptyLast parts).filterMap ofText? = parts.filterMap ofText? := by
  unfold BracketFamilies.dropEmptyLast
  split
  · rename_i h
    obtain ⟨front, rfl⟩ := List.getLast?_eq_some_iff.1 h
    rw [List.dropLast_concat, List.filterMap_append, List.filterMap_cons, ofText?_nil,
      List.filterMap_nil, List.append_nil]
  · rfl

theorem listOfText_eq (s : Text) :
    listOfText s = (BracketFamilies.all.segments s).filterMap ofText? := by
  unfold listOfText BracketFamilies.splitTopLevel
  rw [filterMap_dropEmptyLast, List.filterMap_map]
  exact List.filterMap_congr fun p _ => ofText?_trim p

/-- The fields of joined entries are those of the entries one by one, when the list is cut into these. -/
theorem listOfText_join {parts : List Text} (hcut : ∀ s ∈ parts, BracketFamilies.all.Uncut s)
    (hbalance : ∀ s ∈ parts.dropLast, balance BracketFamilies.all.weight s = 0) :
    listOfText (join [','] parts) = parts.filterMap ofText? := by
  by_cases hne : parts = []
  · have hnil : BracketFamilies.all.segments [] = [[]] := rfl
    rw [hne, listOfText_eq, join, List.intersperse_nil, List.flatten_nil, hnil, List.filterMap_cons,
      ofText?_nil]
  · rw [listOfText_eq, BracketFamilies.segments_join (by decide) hne hcut hbalance]

/-- Markers in front of the entries of a list do not change its fields. Of the brackets in them, the
angle brackets among them, as many must open as close, but for the last entry, and no comma may stand
at depth zero. -/
theorem listOfText_marked {ts us : List Text}
    (hmarked : List.Forall₂ (fun t u => ∃ names, Marker.Marked t names u) ts us)
    (ht : ∀ t ∈ ts, BracketFamilies.all.Uncut t ∧ balance BracketFamilies.all.weight t = 0)
    (hu : ∀ u ∈ us, BracketFamilies.all.Uncut u)
    (hbalance : ∀ u ∈ us.dropLast, balance BracketFamilies.all.weight u = 0) :
    listOfText (join [','] us) = listOfText (join [','] ts) := by
  rw [listOfText_join hu hbalance,
    listOfText_join (fun t h => (ht t h).1) fun t h => (ht t (List.dropLast_subset ts h)).2]
  clear ht hu hbalance
  induction hmarked with
  | nil => rfl
  | cons h _ ih =>
    obtain ⟨names, h⟩ := h
    rw [List.filterMap_cons, List.filterMap_cons, ofText?_marked h, ih]

/-- A component with a comma between angle brackets and one without, and both behind markers: the first
marker shifts to both sides, the last one to one side only. -/
def plainEntries : List Text := ["Map<K,V> m".toList, " int b".toList]

def markedEntries : List Text :=
  ["@A @Size(max = 1 << 3 >> 2, v = \x7b1, 2\x7d)\tMap<K,V> m".toList, " @Max(1<<4) int b".toList]

theorem forall₂_markedEntries :
    List.Forall₂ (fun t u => ∃ names, Marker.Marked t names u) plainEntries markedEntries := by
  refine .cons ⟨["A".toList, "Size".toList], ?_⟩ (.cons ⟨["Max".toList], ?_⟩ .nil)
  · exact .bare (n := "A".toList) (by decide) (by decide) (.blanks (w := [' ']) (by decide)
      (.called (n := "Size".toList) (a := "max = 1 << 3 >> 2, v = \x7b1, 2\x7d".toList) (by decide)
        (by decide) (.blanks (w := ['\t']) (by decide) .refl)))
  · exact .blanks (w := [' ']) (by decide)
      (.called (n := "Max".toList) (a := "1<<4".toList) (by decide) (by decide) .refl)

theorem listOfText_markedEntries :
    List.Forall₂ (fun t u => ∃ names, Marker.Marked t names u) plainEntries markedEntries ∧
      (∀ t ∈ plainEntries,
        BracketFamilies.all.Uncut t ∧ balance BracketFamilies.all.weight t = 0) ∧
      (∀ u ∈ markedEntries, BracketFamilies.all.Uncut u) ∧
      (∀ u ∈ markedEntries.dropLast, balance BracketFamilies.all.weight u = 0) ∧
      listOfText (join [','] markedEntries) = listOfText (join [','] plainEntries) := by
  have hentries : ∀ t ∈ plainEntries,
      BracketFamilies.all.Uncut t ∧ balance BracketFamilies.all.weight t = 0 := by decide
  have hcut : ∀ u ∈ markedEntries, BracketFamilies.all.Uncut u := by decide +kernel
  have hbalance : ∀ u ∈ markedEntries.dropLast, balance BracketFamilies.all.weight u = 0 := by decide
  exact ⟨forall₂_markedEntries, hentries, hcut, hbalance,
    listOfText_marked forall₂_markedEntries hentries hcut hbalance⟩

/-- A shift in the arguments of a marker opens two brackets for the cut, so the comma behind its entry
does not separate it from the next one. -/
theorem listOfText_shifted :
    (∀ b ∈ [Brackets.round, Brackets.curly, ⟨'[', ']'⟩], Nested b.weight "1 << 3".toList) ∧
      List.Forall₂ (fun t u => ∃ names, Marker.Marked t names u) ["int a".toList, "int b".toList]
        ["@Max(1 << 3) int a".toList, "int b".toList] ∧
      (∀ t ∈ ["int a".toList, "int b".toList],
        BracketFamilies.all.Uncut t ∧ balance BracketFamilies.all.weight t = 0) ∧
      listOfText (join [','] ["int a".toList, "int b".toList]) =
        [⟨"a".toList, "int".toList⟩, ⟨"b".toList, "int".toList⟩] ∧
      listOfText (join [','] ["@Max(1 << 3) int a".toList, "int b".toList]) =
        [⟨"b".toList, "int a,int".toList⟩] := by
  have hmarked : ∀ t, Marker.Marked t ["Max".toList] ("@Max(1 << 3) ".toList ++ t) := fun t =>
    .called (n := "Max".toList) (a := "1 << 3".toList) (by decide) (by decide)
      (.blanks (w := [' ']) (by decide) .refl)
  have hread : ∀ {s : Text}, (trimLeft s).head? ≠ some '@' → words (Marker.strip s) = words s :=
    fun h => by rw [Marker.strip_of_head h, words_trimLeft]
  refine ⟨by decide, .cons ⟨_, hmarked _⟩ (.cons ⟨_, .refl⟩ .nil), by decide, ?_, ?_⟩
  · have hsegments : BracketFamilies.all.segments (join [','] ["int a".toList, "int b".toList]) =
        ["int a".toList, "int b".toList] := by decide
    rw [listOfText_eq, hsegments, List.filterMap_cons,
      ofText?_of_words (v := "int".toList) (t := []) (n := "a".toList), List.filterMap_cons,
      ofText?_of_words (v := "int".toList) (t := []) (n := "b".toList)]
    · rfl
    · exact (hread (by decide)).trans (by decide)
    · exact (hread (by decide)).trans (by decide)
  · have hsegments : BracketFamilies.all.segments
        (join [','] ["@Max(1 << 3) int a".toList, "int b".toList]) =
          ["@Max(1 << 3) ".toList ++ "int a,int b".toList] := by decide
    rw [listOfText_eq, hsegments, List.filterMap_cons, ofText?_marked (hmarked _),
      ofText?_of_words (v := "int".toList) (t := ["a,int".toList]) (n := "b".toList)]
    · decide
    · exact (hread (by decide)).trans (by decide)

end RecordSkeleton.Field
