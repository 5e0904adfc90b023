import Coire.Dict
import Mathlib.Data.List.Sort

/-!
# Splitting a list by whole groups

The rows of a list, counted from one, are grouped by their values: a dictionary from
each value to its rows, in the order of the first occurrences. To split the rows in
two, the groups are put in the order of a key, and taken from the front until they have
as many rows as wanted; the last one is never taken. The rows of the groups that are
taken are one side, the others are the other.

The two sides are then a partition of the rows that keeps equal values together, and
neither is empty if there are two values (`wholeGroups`). The side that is taken has as
many rows as wanted, or all but those of the last group (`min_le_length_taken`).
-/

namespace GroupSplit

variable {α : Type} [DecidableEq α]

/-- `groups[value].append(row)`. -/
def addRow (groups : Dict α (List ℕ)) (entry : α × ℕ) : Dict α (List ℕ) :=
  groups.set entry.1 ((groups.get? entry.1).getD [] ++ [entry.2])

def groups (xs : List α) : Dict α (List ℕ) := (xs.zipIdx 1).foldl addRow Dict.empty

def rows (xs : List α) (a : α) : List ℕ := ((groups xs).get? a).getD []

def values (xs : List α) : List α := (groups xs).items.map Prod.fst

def ordered (key : α → ℕ) (xs : List α) : List α :=
  (values xs).insertionSort (fun a b => key a ≤ key b)

/-- **Groups are taken from the front** until they have as many rows as wanted. -/
def takeGroups (size : α → ℕ) (target : ℕ) : ℕ → List α → List α
  | _, [] => []
  | count, a :: rest =>
    if target ≤ count + size a then [a]
    else a :: takeGroups size target (count + size a) rest

/-- The values whose groups are taken: never the last one. -/
def selected (key : α → ℕ) (target : ℕ) (xs : List α) : List α :=
  takeGroups (fun a => (rows xs a).length) target 0 (ordered key xs).dropLast

def taken (key : α → ℕ) (target : ℕ) (xs : List α) : List ℕ :=
  ((selected key target xs).flatMap (rows xs)).insertionSort (· ≤ ·)

def others (key : α → ℕ) (target : ℕ) (xs : List α) : List ℕ :=
  (((values xs).filter fun a => a ∉ selected key target xs).flatMap (rows xs)).insertionSort
    (· ≤ ·)

/-- **A split by whole groups**: two sorted sides that are not empty. -/
structure WholeGroups (xs : List α) (left right : List ℕ) : Prop where
  sortedLeft : left.Pairwise (· < ·)
  sortedRight : right.Pairwise (· < ·)
  leftNonempty : left ≠ []
  rightNonempty : right ≠ []
  disjoint : ∀ row ∈ left, row ∉ right
  exact : ∀ row, row ∈ left ∨ row ∈ right ↔ 1 ≤ row ∧ row ≤ xs.length
  together : ∀ row ∈ left, ∀ row' ∈ right, xs[row - 1]? ≠ xs[row' - 1]?

variable {xs : List α} {a : α} {row : ℕ}

/-! ## Groups -/

theorem foldl_addRow (es : List (α × ℕ)) (g : Dict α (List ℕ)) (a : α) :
    ((es.foldl addRow g).get? a).getD []
      = (g.get? a).getD [] ++ (es.filter fun e => e.1 = a).map Prod.snd := by
  induction es generalizing g with
  | nil => grind
  | cons e es ih =>
    rw [List.foldl_cons, ih]
    unfold addRow
    by_cases he : e.1 = a
    · grind
    · grind

theorem rows_eq (xs : List α) (a : α) :
    rows xs a = ((xs.zipIdx 1).filter fun e => e.1 = a).map Prod.snd := by
  unfold rows groups
  rw [foldl_addRow, Dict.get?_empty, Option.getD_none, List.nil_append]

theorem mem_rows : row ∈ rows xs a ↔ 1 ≤ row ∧ xs[row - 1]? = some a := by
  rw [rows_eq, List.mem_map]
  constructor
  · grind
  · intro h
    exact ⟨(a, row), List.mem_filter.mpr
      ⟨List.mk_mem_zipIdx_iff_le_and_getElem?_sub.mpr h, decide_eq_true rfl⟩, rfl⟩

theorem nodup_rows (xs : List α) (a : α) : (rows xs a).Nodup := by
  grind [rows_eq, List.zipIdx_map_snd, List.nodup_range']

theorem isSome_foldl_addRow (es : List (α × ℕ)) (g : Dict α (List ℕ)) (a : α) :
    ((es.foldl addRow g).get? a).isSome = true
      ↔ (g.get? a).isSome = true ∨ ∃ e ∈ es, e.1 = a := by
  induction es generalizing g with
  | nil => simp
  | cons e es ih =>
    grind [addRow]

theorem mem_values : a ∈ values xs ↔ a ∈ xs := by
  unfold values groups
  rw [Dict.mem_keys, ← Option.isSome_iff_exists, isSome_foldl_addRow, Dict.get?_empty]
  constructor
  · rintro (h | ⟨e, he, rfl⟩)
    · cases h
    · exact List.fst_mem_of_mem_zipIdx he
  · intro ha
    obtain ⟨i, hi⟩ := List.mem_iff_getElem?.mp ha
    exact .inr ⟨(a, i + 1), List.mk_mem_zipIdx_iff_le_and_getElem?_sub.mpr
      ⟨Nat.le_add_left 1 i, by rwa [Nat.add_sub_cancel]⟩, rfl⟩

theorem nodup_values (xs : List α) : (values xs).Nodup := (groups xs).nodup

theorem two_le_length_values : 2 ≤ (values xs).length ↔ ∃ a ∈ xs, ∃ b ∈ xs, a ≠ b := by
  constructor
  · intro hlength
    obtain ⟨a, b, rest, hvalues⟩ : ∃ a b rest, values xs = a :: b :: rest := by
      match h : values xs with
      | [] => rw [h] at hlength; cases hlength
      | [_] => rw [h, List.length_singleton] at hlength; omega
      | a :: b :: rest => exact ⟨a, b, rest, rfl⟩
    have hmem {c : α} (hc : c ∈ a :: b :: rest) : c ∈ xs := mem_values.mp (hvalues ▸ hc)
    have hnodup := nodup_values xs
    rw [hvalues] at hnodup
    refine ⟨a, hmem List.mem_cons_self, b, hmem (List.mem_cons_of_mem _ List.mem_cons_self), ?_⟩
    rintro rfl
    exact (List.nodup_cons.mp hnodup).1 List.mem_cons_self
  · rintro ⟨a, ha, b, hb, hne⟩
    have hpair : [a, b].Nodup := by simpa using hne
    refine List.Subperm.length_le (hpair.subperm fun c hc => mem_values.mpr ?_)
    rcases List.mem_pair.mp hc with rfl | rfl
    · exact ha
    · exact hb

/-! ## The rows of several groups -/

theorem mem_flatMap_rows {as : List α} :
    row ∈ as.flatMap (rows xs) ↔ 1 ≤ row ∧ ∃ a ∈ as, xs[row - 1]? = some a := by
  rw [List.mem_flatMap]
  constructor
  · rintro ⟨a, ha, hrow⟩
    exact ⟨(mem_rows.mp hrow).1, a, ha, (mem_rows.mp hrow).2⟩
  · rintro ⟨hpos, a, ha, hrow⟩
    exact ⟨a, ha, mem_rows.mpr ⟨hpos, hrow⟩⟩

theorem nodup_flatMap_rows {as : List α} (has : as.Nodup) : (as.flatMap (rows xs)).Nodup := by
  refine List.nodup_flatMap.mpr ⟨fun a _ => nodup_rows xs a, ?_⟩
  refine List.Pairwise.imp (fun hne => ?_) has
  intro row hrow hrow'
  exact hne (Option.some.inj ((mem_rows.mp hrow).2.symm.trans (mem_rows.mp hrow').2))

theorem pairwise_sorted {as : List α} (has : as.Nodup) :
    ((as.flatMap (rows xs)).insertionSort (· ≤ ·)).Pairwise (· < ·) := by
  have hnodup : ((as.flatMap (rows xs)).insertionSort (· ≤ ·)).Nodup :=
    (List.perm_insertionSort (· ≤ ·) _).nodup_iff.mpr (nodup_flatMap_rows has)
  have hle := List.pairwise_insertionSort (· ≤ ·) (as.flatMap (rows xs))
  exact (hle.and hnodup).imp fun h => Nat.lt_of_le_of_ne h.1 h.2

/-! ## The groups that are taken -/

section Selected

omit [DecidableEq α] in
theorem takeGroups_spec (size : α → ℕ) (target count : ℕ) (as : List α) :
    takeGroups size target count as <+: as
    ∧ (as ≠ [] → takeGroups size target count as ≠ [])
    ∧ (target ≤ count + ((takeGroups size target count as).map size).sum
      ∨ takeGroups size target count as = as) := by
  induction as generalizing count with
  | nil => exact ⟨List.prefix_rfl, fun h => absurd rfl h, .inr rfl⟩
  | cons a as ih =>
    rw [takeGroups]
    split
    case isTrue henough =>
      refine ⟨(List.prefix_append [a] as), fun _ => List.cons_ne_nil _ _, .inl ?_⟩
      rwa [List.map_singleton, List.sum_singleton]
    case isFalse hmore =>
      obtain ⟨hbegins, -, henough⟩ := ih (count + size a)
      refine ⟨(List.cons_prefix_cons.mpr ⟨rfl, hbegins⟩), fun _ => List.cons_ne_nil _ _, ?_⟩
      rw [List.map_cons, List.sum_cons, ← Nat.add_assoc]
      exact henough.imp id fun h => congrArg (a :: ·) h

variable (key : α → ℕ)

theorem ordered_perm (xs : List α) : (ordered key xs).Perm (values xs) :=
  List.perm_insertionSort _ _

theorem nodup_ordered (xs : List α) : (ordered key xs).Nodup :=
  (ordered_perm key xs).nodup_iff.mpr (nodup_values xs)

theorem selected_sublist (target : ℕ) (xs : List α) :
    (selected key target xs).Sublist (ordered key xs) :=
  (takeGroups_spec ..).1.sublist.trans (List.dropLast_sublist _)

theorem nodup_selected (target : ℕ) (xs : List α) : (selected key target xs).Nodup :=
  (nodup_ordered key xs).sublist (selected_sublist key target xs)

theorem mem_of_mem_selected {target : ℕ} (ha : a ∈ selected key target xs) : a ∈ xs :=
  mem_values.mp ((ordered_perm key xs).mem_iff.mp ((selected_sublist key target xs).subset ha))

theorem getLast_not_mem_selected (target : ℕ) (hne : ordered key xs ≠ []) :
    (ordered key xs).getLast hne ∉ selected key target xs := by
  intro hmem
  have hbefore := (takeGroups_spec ..).1.subset hmem
  have hnodup := nodup_ordered key xs
  rw [← List.dropLast_append_getLast hne] at hnodup
  exact (List.nodup_append.mp hnodup).2.2 _ hbefore _ (List.mem_singleton_self _) rfl

/-! ## The two sides -/

theorem mem_taken {target : ℕ} : row ∈ taken key target xs ↔
    1 ≤ row ∧ ∃ a ∈ selected key target xs, xs[row - 1]? = some a :=
  (List.mem_insertionSort _).trans mem_flatMap_rows

theorem mem_others {target : ℕ} : row ∈ others key target xs ↔
    1 ≤ row ∧ ∃ a, a ∉ selected key target xs ∧ xs[row - 1]? = some a := by
  refine (List.mem_insertionSort _).trans (mem_flatMap_rows.trans ?_)
  refine and_congr_right fun _ => exists_congr fun a => ?_
  rw [List.mem_filter, mem_values, decide_eq_true_iff]
  constructor
  · rintro ⟨⟨-, ha⟩, hrow⟩
    exact ⟨ha, hrow⟩
  · grind

theorem dropLast_ordered_ne_nil (htwo : ∃ a ∈ xs, ∃ b ∈ xs, a ≠ b) :
    (ordered key xs).dropLast ≠ [] := by
  have hlength := two_le_length_values.mpr htwo
  rw [← (ordered_perm key xs).length_eq] at hlength
  refine List.ne_nil_of_length_pos ?_
  rw [List.length_dropLast]
  omega

theorem wholeGroups (target : ℕ) (htwo : ∃ a ∈ xs, ∃ b ∈ xs, a ≠ b) :
    WholeGroups xs (others key target xs) (taken key target xs) where
  sortedLeft := pairwise_sorted ((nodup_values xs).filter _)
  sortedRight := pairwise_sorted (nodup_selected key target xs)
  leftNonempty := by
    have hne : ordered key xs ≠ [] := fun h =>
      dropLast_ordered_ne_nil key htwo (by rw [h]; rfl)
    have hlast : (ordered key xs).getLast hne ∈ xs :=
      mem_values.mp ((ordered_perm key xs).mem_iff.mp (List.getLast_mem hne))
    obtain ⟨i, hi⟩ := List.mem_iff_getElem?.mp hlast
    refine List.ne_nil_of_mem (a := i + 1) ((mem_others key).mpr ⟨Nat.le_add_left 1 i, _,
      getLast_not_mem_selected key target hne, ?_⟩)
    rwa [Nat.add_sub_cancel]
  rightNonempty := by
    obtain ⟨a, ha⟩ := List.exists_mem_of_ne_nil _
      ((takeGroups_spec ..).2.1 (dropLast_ordered_ne_nil key htwo))
    obtain ⟨i, hi⟩ := List.mem_iff_getElem?.mp (mem_of_mem_selected key ha)
    refine List.ne_nil_of_mem (a := i + 1) ((mem_taken key).mpr ⟨Nat.le_add_left 1 i, a, ha, ?_⟩)
    rwa [Nat.add_sub_cancel]
  disjoint row hleft hright := by
    obtain ⟨-, a, ha, hrow⟩ := (mem_others key).mp hleft
    obtain ⟨-, b, hb, hrow'⟩ := (mem_taken key).mp hright
    rw [hrow] at hrow'
    exact ha (Option.some.inj hrow' ▸ hb)
  exact row := by
    constructor
    · grind [mem_others, mem_taken]
    · rintro ⟨hpos, hle⟩
      have hrow := List.getElem?_eq_getElem (show row - 1 < xs.length by omega)
      by_cases ha : xs[row - 1] ∈ selected key target xs
      · exact .inr ((mem_taken key).mpr ⟨hpos, _, ha, hrow⟩)
      · exact .inl ((mem_others key).mpr ⟨hpos, _, ha, hrow⟩)
  together row hleft row' hright heq := by
    obtain ⟨-, a, ha, hrow⟩ := (mem_others key).mp hleft
    obtain ⟨-, b, hb, hrow'⟩ := (mem_taken key).mp hright
    rw [hrow, hrow'] at heq
    exact ha (Option.some.inj heq ▸ hb)

theorem length_flatMap_rows (as : List α) :
    (as.flatMap (rows xs)).length = (as.map fun a => (rows xs a).length).sum :=
  List.length_flatMap

theorem sum_length_rows (xs : List α) :
    ((ordered key xs).map fun a => (rows xs a).length).sum = xs.length := by
  rw [← length_flatMap_rows]
  have hperm : ((ordered key xs).flatMap (rows xs)).Perm (List.range' 1 xs.length) := by
    refine (List.perm_ext_iff_of_nodup (nodup_flatMap_rows (nodup_ordered key xs))
      List.nodup_range').mpr fun row => ?_
    rw [mem_flatMap_rows, List.mem_range'_1]
    constructor
    · grind
    rintro ⟨hpos, hlt⟩
    have hrow := List.getElem?_eq_getElem (show row - 1 < xs.length by omega)
    exact ⟨hpos, _, (ordered_perm key xs).mem_iff.mpr
      (mem_values.mpr (List.getElem_mem _)), hrow⟩
  rw [hperm.length_eq, List.length_range']

theorem min_le_length_taken (target : ℕ) {last : α}
    (hlast : (ordered key xs).getLast? = some last) :
    min target (xs.length - (rows xs last).length) ≤ (taken key target xs).length := by
  have hlength : (taken key target xs).length
      = ((selected key target xs).map fun a => (rows xs a).length).sum := by
    unfold taken
    rw [List.length_insertionSort, length_flatMap_rows]
  rw [hlength]
  obtain ⟨-, -, henough | hall⟩ := 
    takeGroups_spec (fun a => (rows xs a).length) target 0 (ordered key xs).dropLast
  · rw [Nat.zero_add] at henough
    exact (Nat.min_le_left _ _).trans henough
  refine (Nat.min_le_right _ _).trans ?_
  have htotal := sum_length_rows key xs
  rw [← List.dropLast_append_getLast? last hlast, List.map_append, List.sum_append,
    List.map_singleton, List.sum_singleton] at htotal
  unfold selected
  rw [hall]
  omega

end Selected

end GroupSplit
