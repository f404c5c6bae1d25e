import RecordSkeleton.Path
import RecordSkeleton.Proofs.Text.Words

/-!
# Written paths

A path that has been read is in normal form, and a path in normal form is read back from its written
form. So the written form tells such paths apart.

1. The texts between the slashes of joined names are these names (`Path.splitSlashes_join`).
2. Reading gives a normal path (`Path.isNormal_ofText`), and undoes writing one
   (`Path.ofText_toText`).
-/

namespace RecordSkeleton.Path

open Text

/-- A name that stays when a path is read. -/
structure IsPart (name : Text) : Prop where
  ne_nil : name ≠ []
  ne_dot : name ≠ ['.']
  no_slash : '/' ∉ name

/-- A path as it is read from a text. -/
structure IsNormal (p : Path) : Prop where
  slashes_le : p.slashes ≤ 2
  isPart : ∀ name ∈ p.names, IsPart name

instance decidableIsPart (name : Text) : Decidable (IsPart name) :=
  decidable_of_iff (name ≠ [] ∧ name ≠ ['.'] ∧ '/' ∉ name)
    ⟨fun ⟨hnil, hdot, hslash⟩ => ⟨hnil, hdot, hslash⟩,
      fun ⟨hnil, hdot, hslash⟩ => ⟨hnil, hdot, hslash⟩⟩

instance decidableIsNormal (p : Path) : Decidable (IsNormal p) :=
  decidable_of_iff (p.slashes ≤ 2 ∧ ∀ name ∈ p.names, IsPart name)
    ⟨fun ⟨hslashes, hpart⟩ => ⟨hslashes, hpart⟩, fun ⟨hslashes, hpart⟩ => ⟨hslashes, hpart⟩⟩

/-! ## Between slashes -/

theorem splitSlashes_ne_nil (s : Text) : splitSlashes s ≠ [] := by
  cases s with
  | nil => exact List.cons_ne_nil _ _
  | cons c r =>
    rw [splitSlashes]
    split
    · exact List.cons_ne_nil _ _
    · split <;> exact List.cons_ne_nil _ _

theorem not_mem_of_mem_splitSlashes {s name : Text} (h : name ∈ splitSlashes s) : '/' ∉ name := by
  induction s generalizing name with
  | nil =>
    rw [splitSlashes, List.mem_singleton] at h
    rw [h]
    exact List.not_mem_nil
  | cons c r ih =>
    rw [splitSlashes] at h
    by_cases hc : c = '/'
    · rw [if_pos hc] at h
      rcases List.mem_cons.1 h with rfl | h
      · exact List.not_mem_nil
      · exact ih h
    · rw [if_neg hc] at h
      cases hr : splitSlashes r with
      | nil => exact absurd hr (splitSlashes_ne_nil r)
      | cons first rest =>
        rw [hr] at h
        rcases List.mem_cons.1 h with rfl | h
        · rw [List.mem_cons, not_or]
          exact ⟨Ne.symm hc, ih (hr ▸ List.mem_cons_self)⟩
        · exact ih (hr ▸ List.mem_cons_of_mem first h)

theorem splitSlashes_of_not_mem {s : Text} (h : '/' ∉ s) : splitSlashes s = [s] := by
  induction s with
  | nil => rfl
  | cons c r ih =>
    rw [List.mem_cons, not_or] at h
    rw [splitSlashes, if_neg (Ne.symm h.1), ih h.2]

theorem splitSlashes_append_slash {s : Text} (h : '/' ∉ s) (t : Text) :
    splitSlashes (s ++ '/' :: t) = s :: splitSlashes t := by
  induction s with
  | nil => rfl
  | cons c r ih =>
    rw [List.mem_cons, not_or] at h
    rw [List.cons_append, splitSlashes, if_neg (Ne.symm h.1), ih h.2]

theorem splitSlashes_join {name : Text} {names : List Text} (h : ∀ n ∈ name :: names, '/' ∉ n) :
    splitSlashes (join ['/'] (name :: names)) = name :: names := by
  induction names generalizing name with
  | nil =>
    rw [join_cons, List.flatMap_nil, List.append_nil]
    exact splitSlashes_of_not_mem (h name List.mem_cons_self)
  | cons next names ih =>
    have hjoin : join ['/'] (name :: next :: names) = name ++ '/' :: join ['/'] (next :: names) := by
      rw [join_cons, join_cons, List.flatMap_cons]
      rfl
    rw [hjoin, splitSlashes_append_slash (h name List.mem_cons_self),
      ih fun n hn => h n (List.mem_cons_of_mem name hn)]

theorem splitSlashes_slashes (n : Nat) (s : Text) :
    splitSlashes (List.replicate n '/' ++ s) = List.replicate n [] ++ splitSlashes s := by
  induction n with
  | zero => rfl
  | succ n ih =>
    rw [List.replicate_succ, List.cons_append, splitSlashes, if_pos rfl, ih]
    rfl

/-! ## Reading -/

/-- Whether a name stays when a path is read. -/
theorem isPart_of_mem_splitSlashes {s name : Text} (h : name ∈ splitSlashes s)
    (hne : name ≠ [] ∧ name ≠ ['.']) : IsPart name :=
  ⟨hne.1, hne.2, not_mem_of_mem_splitSlashes h⟩

/-- A path that is read is normal. -/
theorem isNormal_ofText (s : Text) : (ofText s).IsNormal := by
  constructor
  · unfold ofText
    simp only
    split <;> omega
  · intro name hname
    obtain ⟨hmem, hne⟩ := List.mem_filter.1 hname
    exact isPart_of_mem_splitSlashes hmem (of_decide_eq_true hne)

theorem names_ofText_slashes (n : Nat) {names : List Text} (h : ∀ name ∈ names, IsPart name) :
    (ofText (List.replicate n '/' ++ join ['/'] names)).names = names := by
  have hslashes : (List.replicate n ([] : Text)).filter (fun p => p ≠ [] ∧ p ≠ ['.']) = [] :=
    List.filter_eq_nil_iff.2 fun name hname => by
      rw [List.eq_of_mem_replicate hname]
      decide
  unfold ofText
  simp only [splitSlashes_slashes, List.filter_append, hslashes, List.nil_append]
  cases names with
  | nil => rfl
  | cons name names =>
    rw [splitSlashes_join fun n hn => (h n hn).no_slash]
    exact List.filter_eq_self.2 fun n hn => decide_eq_true ⟨(h n hn).ne_nil, (h n hn).ne_dot⟩

theorem head?_join {names : List Text} (h : ∀ name ∈ names, IsPart name) :
    ∀ c ∈ (join ['/'] names).head?, (c == '/') = false := by
  cases names with
  | nil => exact fun c hc => nomatch hc
  | cons name names =>
    intro c hc
    have hname := h name List.mem_cons_self
    obtain ⟨first, rest, rfl⟩ := List.exists_cons_of_ne_nil hname.ne_nil
    rw [join_cons, List.cons_append, List.head?_cons, Option.mem_some_iff] at hc
    rw [beq_eq_false_iff_ne, ← hc]
    rintro rfl
    exact hname.no_slash List.mem_cons_self

/-- Reading a path undoes writing it. -/
theorem ofText_toText {p : Path} (h : p.IsNormal) : ofText p.toText = p := by
  obtain ⟨slashes, names⟩ := p
  obtain ⟨hle, hpart⟩ := h
  simp only at hle hpart
  by_cases hdot : slashes = 0 ∧ names = []
  · obtain ⟨rfl, rfl⟩ := hdot
    rfl
  · have htext : toText ⟨slashes, names⟩ = List.replicate slashes '/' ++ join ['/'] names := by
      cases slashes with
      | succ n => rfl
      | zero =>
        cases names with
        | nil => exact absurd ⟨rfl, rfl⟩ hdot
        | cons name names => rfl
    have hnames := names_ofText_slashes slashes hpart
    have hlength : ((List.replicate slashes '/' ++ join ['/'] names).takeWhile (· == '/')).length =
        slashes := by
      rw [takeWhile_append_stop (fun c hc => beq_iff_eq.2 (List.eq_of_mem_replicate hc))
        (head?_join hpart), List.length_replicate]
    rw [htext]
    unfold ofText at hnames ⊢
    simp only at hnames
    simp only [hnames, hlength, Path.mk.injEq, and_true]
    obtain rfl | rfl | rfl : slashes = 0 ∨ slashes = 1 ∨ slashes = 2 := by omega
    · rfl
    · rfl
    · rfl

theorem toText_inj {p q : Path} (hp : p.IsNormal) (hq : q.IsNormal) (h : p.toText = q.toText) :
    p = q := by
  rw [← ofText_toText hp, h, ofText_toText hq]

/-- The path of a name inside a normal path is normal. -/
theorem IsNormal.child {p : Path} (h : p.IsNormal) {name : Text} (hname : IsPart name) :
    (p.child name).IsNormal := by
  refine ⟨h.slashes_le, fun n hn => ?_⟩
  rcases List.mem_append.1 hn with hn | hn
  · exact h.isPart n hn
  · rw [List.mem_singleton.1 hn]
    exact hname

end RecordSkeleton.Path
