import Mathlib.Algebra.GroupWithZero.Nat
import Mathlib.Algebra.Order.BigOperators.Group.Finset

/-!
# Insertion-ordered dictionaries

The dictionary of the source language: distinct keys in insertion order, where writing
an existing key keeps its place and writing a new one appends it. A database table is
the same thing.

Everything downstream reads a dictionary through `get?`, so each operation comes with
the equation of its `get?`. `Dict.total` sums a weight over the entries; a write moves
it by the difference at the written key (`Dict.total_set`), and two dictionaries are
compared key by key (`Dict.total_le_total`). `Dict.Rel` relates two dictionaries of the
same keys value by value: what a series of updates in place does to a table.
-/

/-- **An insertion-ordered dictionary**: its entries, no key twice. -/
structure Dict (κ α : Type) where
  /-- The entries, in insertion order. -/
  items : List (κ × α)
  /-- No key occurs twice. -/
  nodup : (items.map Prod.fst).Nodup

namespace Dict

variable {κ α : Type} [DecidableEq κ]

/-- The value a list of entries gives a key. -/
def lookup (k : κ) : List (κ × α) → Option α
  | [] => none
  | (j, v) :: es => if j = k then some v else lookup k es

/-- Writes a key of a list of entries: in its place if it is there, at the
end if it is not. -/
def put (k : κ) (v : α) : List (κ × α) → List (κ × α)
  | [] => [(k, v)]
  | (j, w) :: es => if j = k then (k, v) :: es else (j, w) :: put k v es

variable {d : Dict κ α} {es : List (κ × α)} {v : α} {j k : κ} {w : κ → α → ℕ}

theorem mem_keys_put : j ∈ (put k v es).map Prod.fst ↔ j = k ∨ j ∈ es.map Prod.fst := by
  induction es with
  | nil => simp [put]
  | cons e es ih =>
    unfold put
    split
    · rename_i hek
      simp [hek]
    · grind

theorem nodup_put
    (h : (es.map Prod.fst).Nodup) : ((put k v es).map Prod.fst).Nodup := by
  induction es with
  | nil => simp [put]
  | cons e es ih =>
    rw [List.map_cons, List.nodup_cons] at h
    unfold put
    split
    · grind
    · grind [mem_keys_put]

def empty : Dict κ α := ⟨[], List.nodup_nil⟩

instance [DecidableEq α] : DecidableEq (Dict κ α) := fun d e =>
  decidable_of_iff (d.items = e.items) ⟨fun h => by
    cases d; cases e; cases h; rfl, fun h => h ▸ rfl⟩

def get? (d : Dict κ α) (k : κ) : Option α := lookup k d.items

def set (d : Dict κ α) (k : κ) (v : α) : Dict κ α :=
  ⟨put k v d.items, nodup_put d.nodup⟩

/-- Rewrites the value at a key, if there is one. -/
def modify (d : Dict κ α) (k : κ) (f : α → α) : Dict κ α :=
  match d.get? k with
  | none => d
  | some v => d.set k (f v)

/-- `d.pop(k, None)`. -/
def erase (d : Dict κ α) (k : κ) : Dict κ α :=
  ⟨d.items.filter (fun e => e.1 ≠ k),
    d.nodup.sublist (List.filter_sublist.map Prod.fst)⟩

def setDefault (d : Dict κ α) (k : κ) (v : α) : Dict κ α :=
  if (d.get? k).isSome then d else d.set k v

def mapValues (d : Dict κ α) (f : κ → α → α) : Dict κ α :=
  ⟨d.items.map (fun e => (e.1, f e.1 e.2)), by
    rw [List.map_map]
    exact d.nodup⟩

def values (d : Dict κ α) : List α := d.items.map Prod.snd

/-! ## Reading -/

@[simp] theorem get?_empty (k : κ) : (empty : Dict κ α).get? k = none := rfl

theorem lookup_put (k j : κ) (v : α) (es : List (κ × α)) :
    lookup j (put k v es) = if j = k then some v else lookup j es := by
  induction es with
  | nil => simp [put, lookup, eq_comm]
  | cons e es ih =>
    unfold put
    by_cases hek : e.1 = k
    · grind [lookup]
    · grind [lookup]

@[grind =] theorem get?_set (d : Dict κ α) (k j : κ) (v : α) :
    (d.set k v).get? j = if j = k then some v else d.get? j :=
  lookup_put k j v d.items

@[simp] theorem get?_set_self (d : Dict κ α) (k : κ) (v : α) :
    (d.set k v).get? k = some v := by
  rw [get?_set, if_pos rfl]

theorem get?_set_ne (d : Dict κ α) (h : j ≠ k) (v : α) :
    (d.set k v).get? j = d.get? j := by
  rw [get?_set, if_neg h]

theorem get?_set_eq_some {w : α} : (d.set k v).get? j = some w
      ↔ j = k ∧ w = v ∨ j ≠ k ∧ d.get? j = some w := by
  rw [get?_set]
  split
  · rename_i h
    simp [h, eq_comm]
  · rename_i h
    simp [h]

theorem isSome_get?_set (d : Dict κ α) (k : κ) (v : α)
    (h : (d.get? j).isSome) : ((d.set k v).get? j).isSome := by
  rw [get?_set]
  split
  · rfl
  · exact h

theorem get?_set_of_none {w : α} (hk : d.get? k = none) (hj : d.get? j = some w) :
    (d.set k v).get? j = some w := by
  rw [get?_set_ne, hj]
  rintro rfl
  rw [hk] at hj
  cases hj

@[grind =] theorem get?_modify (d : Dict κ α) (k j : κ) (f : α → α) :
    (d.modify k f).get? j = if j = k then (d.get? k).map f else d.get? j := by
  grind [modify]

theorem get?_modify_self {f : α → α} (h : d.get? k = some v) :
    (d.modify k f).get? k = some (f v) := by
  rw [get?_modify, if_pos rfl, h, Option.map_some]

@[grind =] theorem get?_setDefault (d : Dict κ α) (k j : κ) (v : α) :
    (d.setDefault k v).get? j
      = if j = k then some ((d.get? k).getD v) else d.get? j := by
  unfold setDefault
  cases hk : d.get? k with
  | none =>
    rw [if_neg (by simp), get?_set]
    rfl
  | some u =>
    rw [if_pos (by simp)]
    split
    · rename_i hj
      rw [hj, hk]
      rfl
    · rfl

theorem get?_foldl_set {β : Type} (key : β → κ) (val : β → α) (xs : List β)
    (d : Dict κ α) (k : κ) :
    (xs.foldl (fun d x => d.set (key x) (val x)) d).get? k = d.get? k
      ∨ ∃ x ∈ xs, key x = k ∧ (xs.foldl (fun d x => d.set (key x) (val x)) d).get? k
          = some (val x) := by
  induction xs generalizing d with
  | nil => exact Or.inl rfl
  | cons x xs ih => grind

theorem get?_foldl_set_ne_none {β : Type} (key : β → κ) (val : β → α)
    {xs : List β} {x : β} (hx : x ∈ xs) (d : Dict κ α) :
    (xs.foldl (fun d x => d.set (key x) (val x)) d).get? (key x) ≠ none := by
  induction xs generalizing d with
  | nil => exact absurd hx List.not_mem_nil
  | cons y ys ih =>
    rcases List.mem_cons.mp hx with rfl | hx
    · rw [List.foldl_cons]
      rcases get?_foldl_set key val ys (d.set (key x) (val x)) (key x) with
        h | ⟨y, -, -, h⟩
      · grind
      · rw [h]
        exact Option.some_ne_none _
    · exact ih hx (d.set (key y) (val y))

theorem items_set_of_none (v : α) (h : d.get? k = none) :
    (d.set k v).items = d.items ++ [(k, v)] := by
  show put k v d.items = _
  have h : lookup k d.items = none := h
  generalize d.items = es at h ⊢
  induction es with
  | nil => rfl
  | cons e es ih =>
    rw [lookup] at h
    unfold put
    by_cases hek : e.1 = k
    · rw [if_pos hek] at h
      cases h
    · grind

theorem keys_set_of_none (v : α) (h : d.get? k = none) :
    (d.set k v).items.map Prod.fst = d.items.map Prod.fst ++ [k] := by
  rw [items_set_of_none v h, List.map_append]
  rfl

theorem keys_set_of_some {u : α} (v : α) (h : d.get? k = some u) :
    (d.set k v).items.map Prod.fst = d.items.map Prod.fst := by
  show (put k v d.items).map Prod.fst = _
  have h : lookup k d.items = some u := h
  generalize d.items = es at h ⊢
  induction es with
  | nil => cases h
  | cons e es ih =>
    rw [lookup] at h
    unfold put
    by_cases hek : e.1 = k
    · grind
    · grind

theorem put_self (h : lookup k es = some v) : put k v es = es := by
  induction es with
  | nil => exact absurd h (by simp [lookup])
  | cons e es ih =>
    rw [lookup] at h
    unfold put
    by_cases hek : e.1 = k
    · grind
    · rw [if_neg hek] at h ⊢
      rw [ih h]

theorem set_self (hk : d.get? k = some v) : d.set k v = d := by
  obtain ⟨items, nodup⟩ := d
  show (⟨put k v items, _⟩ : Dict κ α) = ⟨items, nodup⟩
  congr 1
  exact put_self hk

theorem modify_id (d : Dict κ α) (k : κ) : d.modify k id = d := by
  unfold modify
  split
  · rfl
  · exact set_self ‹_›

@[grind =] theorem get?_mapValues (d : Dict κ α) (f : κ → α → α) (k : κ) :
    (d.mapValues f).get? k = (d.get? k).map (f k) := by
  obtain ⟨items, nodup⟩ := d
  show lookup k (items.map _) = (lookup k items).map (f k)
  clear nodup
  induction items with
  | nil => rfl
  | cons e es ih => grind [lookup]

theorem lookup_eq_some_iff (h : (es.map Prod.fst).Nodup) :
    lookup k es = some v ↔ (k, v) ∈ es := by
  induction es with
  | nil => simp [lookup]
  | cons e es ih => grind [lookup]

theorem mem_items : (k, v) ∈ d.items ↔ d.get? k = some v :=
  (lookup_eq_some_iff d.nodup).symm

theorem get?_erase_eq_some :
    (d.erase k).get? j = some v ↔ j ≠ k ∧ d.get? j = some v := by
  rw [← mem_items, ← mem_items]
  show (j, v) ∈ d.items.filter _ ↔ _
  rw [List.mem_filter, decide_eq_true_iff]
  exact and_comm

theorem get?_erase (d : Dict κ α) (k j : κ) :
    (d.erase k).get? j = if j = k then none else d.get? j := by
  refine Option.ext fun v => get?_erase_eq_some.trans ?_
  split <;> rename_i hj
  · grind
  · exact and_iff_right hj

theorem mem_values : v ∈ d.values ↔ ∃ k, d.get? k = some v := by
  unfold values
  rw [List.mem_map]
  constructor
  · rintro ⟨⟨k, w⟩, hkw, rfl⟩
    exact ⟨k, mem_items.mp hkw⟩
  · rintro ⟨k, hk⟩
    exact ⟨(k, v), mem_items.mpr hk, rfl⟩

theorem mem_keys : k ∈ d.items.map Prod.fst ↔ ∃ v, d.get? k = some v := by
  rw [List.mem_map]
  constructor
  · rintro ⟨⟨j, v⟩, hjv, rfl⟩
    exact ⟨v, mem_items.mp hjv⟩
  · rintro ⟨v, hv⟩
    exact ⟨(k, v), mem_items.mpr hv, rfl⟩

/-- **One dictionary for some keys, another for the rest.** -/
def overlay (d e : Dict κ α) (p : κ → Bool) : Dict κ α :=
  ⟨d.items.filter (fun x => p x.1) ++ e.items.filter (fun x => !p x.1), by
    rw [List.map_append, List.nodup_append]
    refine ⟨d.nodup.sublist (List.filter_sublist.map _),
      e.nodup.sublist (List.filter_sublist.map _), ?_⟩
    rintro k hk j hj rfl
    obtain ⟨x, hx, rfl⟩ := List.mem_map.mp hk
    obtain ⟨y, hy, hyx⟩ := List.mem_map.mp hj
    have hpx := (List.mem_filter.mp hx).2
    have hpy := (List.mem_filter.mp hy).2
    rw [hyx, hpx] at hpy
    exact Bool.false_ne_true hpy⟩

theorem get?_overlay (d e : Dict κ α) (p : κ → Bool) (k : κ) :
    (d.overlay e p).get? k = if p k then d.get? k else e.get? k := by
  refine Option.ext (fun v => ?_)
  rw [← mem_items]
  unfold overlay
  rw [List.mem_append, List.mem_filter, List.mem_filter, mem_items, mem_items]
  cases p k <;> simp

/-! ## Sums over the entries -/

def total (d : Dict κ α) (w : κ → α → ℕ) : ℕ :=
  (d.items.map (fun e => w e.1 e.2)).sum

/-- The weight a dictionary gives a key: none where the key is absent. -/
def weight (d : Dict κ α) (w : κ → α → ℕ) (k : κ) : ℕ :=
  (d.get? k).elim 0 (w k)

theorem sum_put (k : κ) (v : α) (w : κ → α → ℕ) (h : (es.map Prod.fst).Nodup) :
    ((put k v es).map (fun e => w e.1 e.2)).sum + (lookup k es).elim 0 (w k)
      = (es.map (fun e => w e.1 e.2)).sum + w k v := by
  induction es with
  | nil => simp [put, lookup]
  | cons e es ih =>
    rw [List.map_cons, List.nodup_cons] at h
    unfold put lookup
    by_cases hek : e.1 = k
    · grind
    · grind

theorem total_set (d : Dict κ α) (k : κ) (v : α) (w : κ → α → ℕ) :
    (d.set k v).total w + d.weight w k = d.total w + w k v :=
  sum_put k v w d.nodup

theorem total_eq_sum (d : Dict κ α) (w : κ → α → ℕ) :
    d.total w = ∑ k ∈ (d.items.map Prod.fst).toFinset, d.weight w k := by
  rw [List.sum_toFinset _ d.nodup, List.map_map]
  refine congrArg List.sum (List.map_congr_left (fun e he => ?_))
  rw [Function.comp_apply, weight, mem_items.mp (show (e.1, e.2) ∈ d.items from he),
    Option.elim_some]

theorem weight_of_get? (h : d.get? k = some v)
    (w : κ → α → ℕ) : d.weight w k = w k v := by
  rw [weight, h, Option.elim_some]

theorem weight_eq_zero
    (h : k ∉ (d.items.map Prod.fst).toFinset) : d.weight w k = 0 := by
  rw [List.mem_toFinset, mem_keys, not_exists] at h
  unfold weight
  cases hk : d.get? k with
  | none => rfl
  | some v => exact absurd hk (h v)

theorem total_le_total {d' : Dict κ α} {w' : κ → α → ℕ}
    (h : ∀ k v, d.get? k = some v → w k v ≤ d'.weight w' k) :
    d.total w ≤ d'.total w' := by
  have hw : ∀ k, d.weight w k ≤ d'.weight w' k := by
    intro k
    cases hk : d.get? k with
    | none => rw [weight, hk]; exact Nat.zero_le _
    | some v => rw [weight, hk]; exact h k v hk
  rw [total_eq_sum, total_eq_sum]
  calc ∑ k ∈ (d.items.map Prod.fst).toFinset, d.weight w k
      ≤ ∑ k ∈ (d.items.map Prod.fst).toFinset, d'.weight w' k :=
        Finset.sum_le_sum (fun k _ => hw k)
    _ ≤ ∑ k ∈ (d'.items.map Prod.fst).toFinset, d'.weight w' k :=
        Finset.sum_le_sum_of_ne_zero (fun k _ hk => by
          by_contra hkd
          exact hk (weight_eq_zero hkd))

theorem total_congr {w' : κ → α → ℕ} (h : ∀ k v, d.get? k = some v → w k v = w' k v) :
    d.total w = d.total w' :=
  congrArg List.sum (List.map_congr_left (fun e he =>
    h e.1 e.2 (mem_items.mp he)))

theorem total_set_of_weight_eq {v' : α} (hk : d.get? k = some v) (hw : w k v' = w k v) :
    (d.set k v').total w = d.total w := by
  have h := d.total_set k v' w
  rw [weight, hk, Option.elim_some, hw] at h
  exact Nat.add_right_cancel h

theorem total_set_le {v' : α} (hk : d.get? k = some v) (hw : w k v' ≤ w k v) :
    (d.set k v').total w ≤ d.total w := by
  have h := d.total_set k v' w
  rw [weight, hk, Option.elim_some] at h
  omega

theorem total_set_of_none
    (hk : d.get? k = none) : (d.set k v).total w = d.total w + w k v := by
  have h := d.total_set k v w
  rw [weight, hk, Option.elim_none] at h
  exact h

theorem total_eq_zero (h : ∀ k v, d.get? k = some v → w k v = 0) : d.total w = 0 := by
  refine List.sum_eq_zero (fun x hx => ?_)
  obtain ⟨e, he, rfl⟩ := List.mem_map.mp hx
  exact h e.1 e.2 (mem_items.mp he)

omit [DecidableEq κ] in
theorem total_mapValues (d : Dict κ α) (f : κ → α → α) (w : κ → α → ℕ) :
    (d.mapValues f).total w = d.total (fun k v => w k (f k v)) := by
  unfold total mapValues
  rw [List.map_map]
  rfl

theorem total_split (d : Dict κ α) (w : κ → α → ℕ) (k : κ) : d.total w
      = d.total (fun j v => if j = k then 0 else w j v) + d.weight w k := by
  have hother : ∀ j, d.weight (fun j v => if j = k then 0 else w j v) j
      = if j = k then 0 else d.weight w j := by
    intro j
    unfold weight
    cases d.get? j with
    | none => exact (ite_self 0).symm
    | some v => rfl
  rw [total_eq_sum, total_eq_sum, Finset.sum_congr rfl (fun j _ => hother j)]
  by_cases hk : k ∈ (d.items.map Prod.fst).toFinset
  · rw [← Finset.sum_erase_add _ _ hk, ← Finset.sum_erase_add _ _ hk,
      if_pos rfl, Nat.add_zero]
    refine congrArg (· + _) (Finset.sum_congr rfl (fun j hj => ?_))
    rw [if_neg (Finset.ne_of_mem_erase hj)]
  · rw [weight_eq_zero hk, Nat.add_zero]
    refine Finset.sum_congr rfl (fun j hj => ?_)
    rw [if_neg]
    rintro rfl
    exact hk hj

theorem total_set_split (d : Dict κ α) (k : κ) (v : α) (w : κ → α → ℕ) :
    (d.set k v).total w = d.total (fun j u => if j = k then 0 else w j u) + w k v := by
  have hset := d.total_set k v w
  have hsplit := d.total_split w k
  omega

omit [DecidableEq κ] in
theorem total_add (d : Dict κ α) (w w' : κ → α → ℕ) :
    d.total (fun k v => w k v + w' k v) = d.total w + d.total w' :=
  List.sum_map_add

theorem sum_weight (d : Dict κ α) (w : κ → α → ℕ) {ks : List κ} (h : ks.Nodup) :
    (ks.map (d.weight w)).sum = d.total (fun k v => if k ∈ ks then w k v else 0) := by
  induction ks with
  | nil => exact (total_eq_zero (fun k v _ => if_neg List.not_mem_nil)).symm
  | cons k ks ih =>
    obtain ⟨hk, hks⟩ := List.nodup_cons.mp h
    have hrest : d.total (fun j v => if j ∈ ks then w j v else 0)
        = d.total (fun j v => if j = k then 0
          else if j ∈ k :: ks then w j v else 0) := by
      grind
    have hself : d.weight w k
        = d.weight (fun j v => if j ∈ k :: ks then w j v else 0) k := by
      unfold weight
      cases d.get? k with
      | none => rfl
      | some v => exact (if_pos List.mem_cons_self).symm
    rw [List.map_cons, List.sum_cons, ih hks, hrest, hself, Nat.add_comm,
      ← d.total_split]

omit [DecidableEq κ] in
theorem sum_filter (d : Dict κ α) (p : κ × α → Bool) (w : κ × α → ℕ) :
    ((d.items.filter p).map w).sum
      = d.total (fun k v => if p (k, v) then w (k, v) else 0) := by
  unfold total
  induction d.items with
  | nil => rfl
  | cons e es ih => grind

theorem any_items {p : κ × α → Bool} :
    d.items.any p = true ↔ ∃ k v, d.get? k = some v ∧ p (k, v) = true := by
  rw [List.any_eq_true]
  constructor
  · rintro ⟨⟨k, v⟩, he, hp⟩
    exact ⟨k, v, mem_items.mp he, hp⟩
  · rintro ⟨k, v, hk, hp⟩
    exact ⟨(k, v), mem_items.mpr hk, hp⟩

/-! ## Dictionaries related value by value -/

/-- **Two dictionaries with the same keys**, their values related key by
key. -/
def Rel (R : α → α → Prop) (d d' : Dict κ α) : Prop :=
  ∀ k, Option.Rel R (d.get? k) (d'.get? k)

section Rel

variable {R : α → α → Prop} {d d' e : Dict κ α} {k : κ} {v w : α}

theorem Rel.get? (h : Rel R d d') (hk : d.get? k = some v) :
    ∃ w, d'.get? k = some w ∧ R v w := by
  have := h k
  rw [hk] at this
  cases hw : d'.get? k with
  | none => rw [hw] at this; cases this
  | some w =>
    rw [hw] at this
    cases this with
    | some h => exact ⟨w, rfl, h⟩

theorem Rel.get?_back (h : Rel R d d') (hk : d'.get? k = some w) :
    ∃ v, d.get? k = some v ∧ R v w := by
  have := h k
  rw [hk] at this
  cases hv : d.get? k with
  | none => rw [hv] at this; cases this
  | some v =>
    rw [hv] at this
    cases this with
    | some h => exact ⟨v, rfl, h⟩

theorem Rel.mono {S : α → α → Prop} (h : Rel R d d')
    (hRS : ∀ {v w}, R v w → S v w) : Rel S d d' := fun k => by
  have := h k
  cases hv : d.get? k with
  | none => cases hw : d'.get? k with
    | none => exact .none
    | some w => rw [hv, hw] at this; cases this
  | some v =>
    obtain ⟨w, hw, hvw⟩ := h.get? hv
    rw [hw]
    exact .some (hRS hvw)

theorem rel_refl (hR : ∀ v, R v v) (d : Dict κ α) : Rel R d d := fun k => by
  cases d.get? k with
  | none => exact .none
  | some v => exact .some (hR v)

theorem Rel.trans (hR : ∀ {u v w}, R u v → R v w → R u w) (h : Rel R d d')
    (h' : Rel R d' e) : Rel R d e := fun k => by
  cases hv : d.get? k with
  | none =>
    cases he : e.get? k with
    | none => exact .none
    | some w =>
      obtain ⟨u, hu, _⟩ := h'.get?_back he
      obtain ⟨v, hd, _⟩ := h.get?_back hu
      rw [hv] at hd
      cases hd
  | some v =>
    obtain ⟨u, hu, hvu⟩ := h.get? hv
    obtain ⟨w, hw, huw⟩ := h'.get? hu
    rw [hw]
    exact .some (hR hvu huw)

theorem rel_set (hR : ∀ v, R v v) (hk : d.get? k = some v) (h : R v w) :
    Rel R d (d.set k w) := fun j => by
  rw [get?_set]
  split
  · rename_i hj
    rw [hj, hk]
    exact .some h
  · exact rel_refl hR d j

theorem rel_modify {f : α → α} (hR : ∀ v, R v v)
    (h : ∀ v, d.get? k = some v → R v (f v)) : Rel R d (d.modify k f) := by
  unfold modify
  split
  · exact rel_refl hR d
  · rename_i v hv
    exact rel_set hR hv (h v hv)

end Rel

end Dict
