import Mathlib.Algebra.Order.Group.Nat
import Mathlib.Data.List.Infix
import Mathlib.Data.Nat.Find

/-!
# Occurrences of a pattern in a text that grows

A text is searched for a pattern (`find`) while more of it is still to come. An
occurrence that is found stays the first one (`find_append`). If there is none,
all but the end of the text is done with: the longest end that is a beginning of
the pattern (`overlap`) may still become an occurrence, and nothing before it can,
whatever follows (`free_of_find_eq_none`). What is done with may be cut off, and
the rest of the text be searched alone (`find_free`, `overlap_free`).
-/

namespace Occurrence

variable {α : Type} [DecidableEq α] {pat xs ys a b : List α} {i j n : ℕ}

/-- **The place of the first occurrence** of a pattern, which is not empty. -/
def find (pat : List α) : List α → Option ℕ
  | [] => none
  | x :: xs => if pat <+: x :: xs then some 0 else (find pat xs).map (· + 1)

/-- The longest of the first `n` beginnings of the pattern that the text ends
with. -/
def overlapWithin (pat xs : List α) : ℕ → ℕ
  | 0 => 0
  | n + 1 => if pat.take (n + 1) <:+ xs then n + 1 else overlapWithin pat xs n

/-- **The longest end of the text that is a beginning of the pattern**, and not
all of it. -/
def overlap (pat xs : List α) : ℕ :=
  overlapWithin pat xs (min (pat.length - 1) xs.length)

/-! ## The first occurrence -/

theorem find_eq_some_iff (hp : pat ≠ []) : find pat xs = some i
    ↔ pat <+: xs.drop i ∧ ∀ j < i, ¬ pat <+: xs.drop j := by
  induction xs generalizing i with
  | nil =>
    refine ⟨fun h => absurd h (by simp [find]), fun h => ?_⟩
    rw [List.drop_nil] at h
    exact absurd (List.prefix_nil.mp h.1) hp
  | cons x xs ih =>
    unfold find
    by_cases h : pat <+: x :: xs
    · rw [if_pos h]
      refine ⟨fun hi => ?_, fun hi => ?_⟩
      · grind
      · cases i with
        | zero => rfl
        | succ i => exact absurd h (hi.2 0 (Nat.succ_pos i))
    · rw [if_neg h]
      cases i with
      | zero =>
        refine ⟨fun hi => ?_, fun hi => absurd hi.1 h⟩
        obtain ⟨k, -, hk⟩ := Option.map_eq_some_iff.mp hi
        cases hk
      | succ i =>
        rw [Option.map_eq_some_iff]
        have hsucc : (∃ k, find pat xs = some k ∧ k + 1 = i + 1)
            ↔ find pat xs = some i := by
          grind
        rw [hsucc, ih]
        refine and_congr_right fun _ => ⟨fun hj j hlt => ?_, fun hj j hlt => ?_⟩
        · cases j with
          | zero => exact h
          | succ j => exact hj j (Nat.lt_of_succ_lt_succ hlt)
        · exact hj (j + 1) (Nat.succ_lt_succ hlt)

theorem find_eq_none_iff (hp : pat ≠ []) :
    find pat xs = none ↔ ∀ j, ¬ pat <+: xs.drop j := by
  refine ⟨fun h j hj => ?_, fun h => ?_⟩
  · -- the least place with an occurrence would have been found
    classical
    have hex : ∃ j, pat <+: xs.drop j := ⟨j, hj⟩
    have hfound : find pat xs = some (Nat.find hex) :=
      (find_eq_some_iff hp).mpr ⟨Nat.find_spec hex, fun k hk => Nat.find_min hex hk⟩
    rw [h] at hfound
    cases hfound
  · cases hfind : find pat xs with
    | none => rfl
    | some i => exact absurd ((find_eq_some_iff hp).mp hfind).1 (h i)

omit [DecidableEq α] in
theorem add_length_le_of_prefix_drop (hp : pat ≠ [])
    (h : pat <+: xs.drop i) : i + pat.length ≤ xs.length := by
  have hlen := h.length_le
  have hpos := List.length_pos_iff.mpr hp
  rw [List.length_drop] at hlen
  omega

theorem add_length_le_of_find (hp : pat ≠ []) (h : find pat xs = some i) :
    i + pat.length ≤ xs.length :=
  add_length_le_of_prefix_drop hp ((find_eq_some_iff hp).mp h).1

omit [DecidableEq α] in
theorem prefix_drop_append_iff (hle : j + pat.length ≤ xs.length) :
    pat <+: (xs ++ ys).drop j ↔ pat <+: xs.drop j := by
  grind [List.prefix_of_prefix_length_le]

theorem find_append (hp : pat ≠ []) (h : find pat xs = some i) (ys : List α) :
    find pat (xs ++ ys) = some i := by
  grind [add_length_le_of_find, find_eq_some_iff, prefix_drop_append_iff]

theorem find_of_find_append (hp : pat ≠ []) (h : find pat (xs ++ ys) = some i)
    (hle : i + pat.length ≤ xs.length) : find pat xs = some i := by
  grind [find_eq_some_iff, prefix_drop_append_iff]

theorem find_eq_none_of_append (hp : pat ≠ []) (h : find pat (xs ++ ys) = some i)
    (hlt : xs.length < i + pat.length) : find pat xs = none := by
  cases hfind : find pat xs with
  | none => rfl
  | some j =>
    have hle := add_length_le_of_find hp hfind
    have hsame := find_append hp hfind ys
    rw [h] at hsame
    cases hsame
    omega

theorem find_eq_none_left (hp : pat ≠ []) (h : find pat (xs ++ ys) = none) :
    find pat xs = none := by
  cases hfind : find pat xs with
  | none => rfl
  | some j =>
    rw [find_append hp hfind ys] at h
    cases h

theorem find_eq_none_of_length_lt (hp : pat ≠ []) (h : xs.length < pat.length) :
    find pat xs = none := by
  refine (find_eq_none_iff hp).mpr fun j hj => ?_
  have := add_length_le_of_prefix_drop hp hj
  omega

/-! ## The end that may still become an occurrence -/

theorem overlapWithin_le : overlapWithin pat xs n ≤ n := by
  induction n with
  | zero => exact le_rfl
  | succ n ih =>
    unfold overlapWithin
    split
    · exact le_rfl
    · exact ih.trans (Nat.le_succ n)

theorem take_overlapWithin_suffix : pat.take (overlapWithin pat xs n) <:+ xs := by
  induction n with
  | zero => exact List.nil_suffix
  | succ n ih =>
    unfold overlapWithin
    split
    · assumption
    · exact ih

theorem le_overlapWithin {k : ℕ} (hk : k ≤ n) (h : pat.take k <:+ xs) :
    k ≤ overlapWithin pat xs n := by
  induction n with
  | zero => exact hk
  | succ n ih => grind [overlapWithin]

theorem overlapWithin_congr (h : ∀ k ≤ n, pat.take k <:+ xs ↔ pat.take k <:+ ys) :
    overlapWithin pat xs n = overlapWithin pat ys n := by
  induction n with
  | zero => rfl
  | succ n ih =>
    unfold overlapWithin
    rw [ih fun k hk => h k (hk.trans (Nat.le_succ n))]
    simp only [h (n + 1) le_rfl]

theorem overlap_le_length : overlap pat xs ≤ xs.length :=
  overlapWithin_le.trans (Nat.min_le_right _ _)

theorem overlap_lt (hp : pat ≠ []) (xs : List α) : overlap pat xs < pat.length := by
  have hle : overlap pat xs ≤ pat.length - 1 :=
    overlapWithin_le.trans (Nat.min_le_left _ _)
  have hpos := List.length_pos_iff.mpr hp
  omega

theorem take_overlap_suffix (pat xs : List α) : pat.take (overlap pat xs) <:+ xs :=
  take_overlapWithin_suffix

theorem drop_overlap (hp : pat ≠ []) :
    xs.drop (xs.length - overlap pat xs) = pat.take (overlap pat xs) := by
  have hlen : (pat.take (overlap pat xs)).length = overlap pat xs := by
    rw [List.length_take]
    exact Nat.min_eq_left (overlap_lt hp xs).le
  have hsuffix := List.suffix_iff_eq_drop.mp (take_overlap_suffix pat xs)
  rw [hlen] at hsuffix
  exact hsuffix.symm

theorem length_drop_le_overlap (hlt : xs.length - j < pat.length)
    (h : xs.drop j <+: pat) : xs.length - j ≤ overlap pat xs := by
  refine le_overlapWithin (by omega) ?_
  have hlen : (xs.drop j).length = xs.length - j := List.length_drop
  rw [← hlen, ← List.prefix_iff_eq_take.mp h]
  exact List.drop_suffix j xs

/-! ## What is done with -/

/-- The pattern may occur at the start of a text, or the text be a beginning of
it. -/
def Begins (pat xs : List α) : Prop := pat <+: xs ∨ xs <+: pat

/-- **Nothing of `a` can be part of an occurrence** in `a ++ b`, or in what may
follow it. -/
def Free (pat a b : List α) : Prop := ∀ j < a.length, ¬ Begins pat ((a ++ b).drop j)

omit [DecidableEq α] in
theorem Free.tail {x : α} (h : Free pat (x :: a) b) : Free pat a b :=
  fun j hj => h (j + 1) (Nat.succ_lt_succ hj)

omit [DecidableEq α] in
theorem free_of_not_mem {p : α} {ps : List α} (h : p ∉ a) : Free (p :: ps) a b := by
  intro j hj hbegins
  refine h ?_
  rw [List.drop_append_of_le_length hj.le, List.drop_eq_getElem_cons hj] at hbegins
  rcases hbegins with hocc | hshort
  · grind
  · grind

theorem find_free (h : Free pat a b) :
    find pat (a ++ b) = (find pat b).map (a.length + ·) := by
  induction a with
  | nil =>
    simp only [List.nil_append, List.length_nil, Nat.zero_add, Option.map_id']
  | cons x a ih =>
    have hstart : ¬ pat <+: x :: (a ++ b) := fun hocc =>
      h 0 (Nat.succ_pos _) (.inl hocc)
    rw [List.cons_append, find, if_neg hstart, ih h.tail, Option.map_map]
    congr 1
    funext k
    show a.length + k + 1 = a.length + 1 + k
    omega

theorem overlap_free (hp : pat ≠ []) (h : Free pat a b) :
    overlap pat (a ++ b) = overlap pat b := by
  refine le_antisymm ?_ ?_
  · have hlen : overlap pat (a ++ b) ≤ a.length + b.length := by
      rw [← List.length_append]
      exact overlap_le_length
    by_contra hgt
    -- the end that is kept would start in `a`, or be an end of `b`
    by_cases hin : overlap pat (a ++ b) ≤ b.length
    · refine hgt (le_overlapWithin ?_ ?_)
      · have := overlap_lt hp (a ++ b)
        omega
      · grind [List.suffix_of_suffix_length_le, take_overlap_suffix, List.length_take]
    · have hj : a.length + b.length - overlap pat (a ++ b) < a.length := by omega
      refine h _ hj (.inr ?_)
      rw [← List.length_append, drop_overlap hp]
      exact List.take_prefix _ _
  · refine le_overlapWithin ?_
      ((take_overlap_suffix _ _).trans (List.suffix_append a b))
    have h₁ := overlap_lt hp b
    have h₂ : overlap pat b ≤ b.length := overlap_le_length
    rw [List.length_append]
    omega

theorem free_of_find_eq_none (hp : pat ≠ []) (h : find pat xs = none) (ys : List α) :
    Free pat (xs.take (xs.length - overlap pat xs))
      (xs.drop (xs.length - overlap pat xs) ++ ys) := by
  intro j hj hbegins
  rw [← List.append_assoc, List.take_append_drop] at hbegins
  rw [List.length_take] at hj
  have hnone := (find_eq_none_iff hp).mp h
  rw [List.drop_append_of_le_length (by omega)] at hbegins
  -- either way the text from `j` on is a beginning of the pattern
  have hbeginning : xs.drop j <+: pat := by
    rcases hbegins with hocc | hshort
    · grind [List.prefix_or_prefix_of_prefix]
    · exact (List.prefix_append _ _).trans hshort
  have hlen := hbeginning.length_le
  rw [List.length_drop] at hlen
  rcases hlen.lt_or_eq with hlt | heq
  · have := length_drop_le_overlap hlt hbeginning
    omega
  · have hwhole : xs.drop j = pat :=
      hbeginning.eq_of_length (by rw [List.length_drop]; exact heq)
    exact hnone j (hwhole ▸ List.prefix_refl _)

end Occurrence
