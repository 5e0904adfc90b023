import Mathlib.Algebra.GroupWithZero.Nat
import Mathlib.Data.List.Infix
import Mathlib.Algebra.Order.BigOperators.Group.List

/-!
# The shortest prefix that covers a need

Elements of a list carry weights, and a greedy loop takes them from the front
until they cover a need. What it takes is the shortest prefix whose weight
covers the need, which is how it is stated here; `cover_cons` is the loop.
-/

namespace CoveringPrefix

variable {α : Type} (w : α → ℕ)

def weight (xs : List α) : ℕ := (xs.map w).sum

/-- **The shortest prefix that covers the need**, if any does. -/
def cover (need : ℕ) (xs : List α) : Option (List α) :=
  xs.inits.find? (fun p => decide (need ≤ weight w p))

theorem weight_cons (x : α) (xs : List α) : weight w (x :: xs) = w x + weight w xs := by
  unfold weight
  rw [List.map_cons, List.sum_cons]

variable {w}

variable {xs : List α} {need : ℕ}

theorem cover_nil (h : 0 < need) : cover w need [] = none :=
  List.find?_eq_none.mpr (fun p hp => by
    obtain rfl := List.mem_singleton.mp hp
    rw [decide_eq_true_eq]
    exact Nat.not_le_of_lt h)

theorem cover_zero (xs : List α) : cover w 0 xs = some [] := by
  unfold cover
  cases xs <;> rfl

theorem cover_cons (h : 0 < need) (x : α) (xs : List α) : cover w need (x :: xs)
      = if need ≤ w x then some [x]
        else (cover w (need - w x) xs).map (x :: ·) := by
  have hrest : cover w need (x :: xs)
      = (xs.inits.find? (fun p => decide (need ≤ w x + weight w p))).map (x :: ·) := by
    unfold cover
    rw [List.inits_cons, List.find?_cons_of_neg]
    · rw [List.find?_map]
      refine congrArg (Option.map _) (congrFun (congrArg _ ?_) _)
      funext p
      rw [Function.comp_apply, weight_cons]
    · rw [decide_eq_true_eq]
      exact Nat.not_le_of_lt h
  rw [hrest]
  split
  · rename_i hx
    have hfirst : xs.inits.find? (fun p => decide (need ≤ w x + weight w p))
        = some [] := by
      cases xs <;>
        exact List.find?_cons_of_pos (decide_eq_true (Nat.le_add_right_of_le hx))
    rw [hfirst, Option.map_some]
  · rename_i hx
    refine congrArg (Option.map _) (congrFun (congrArg _ ?_) _)
    funext p
    exact decide_eq_decide.mpr (by omega)

theorem cover_spec {p : List α} (h : cover w need xs = some p) :
    need ≤ weight w p ∧ p <+: xs := by
  have hp : decide (need ≤ weight w p) = true :=
    List.find?_some (p := fun p => decide (need ≤ weight w p)) h
  exact ⟨of_decide_eq_true hp, (List.mem_inits p xs).mp (List.mem_of_find?_eq_some h)⟩

theorem weight_append (xs ys : List α) :
    weight w (xs ++ ys) = weight w xs + weight w ys := by
  unfold weight
  rw [List.map_append, List.sum_append]

/-- **Some prefix covers the need exactly if the whole list does.** -/
theorem cover_isSome : (cover w need xs).isSome = true ↔ need ≤ weight w xs := by
  unfold cover
  rw [List.find?_isSome]
  constructor
  · rintro ⟨p, hp, hneed⟩
    obtain ⟨rest, rfl⟩ := (List.mem_inits p xs).mp hp
    rw [weight_append]
    exact Nat.le_add_right_of_le (of_decide_eq_true hneed)
  · intro h
    exact ⟨xs, (List.mem_inits xs xs).mpr List.prefix_rfl, decide_eq_true h⟩

theorem cover_shortest {p q : List α} (h : cover w need xs = some p)
    (hq : q <+: xs) (hneed : need ≤ weight w q) : p.length ≤ q.length := by
  induction xs generalizing need p q with
  | nil =>
    obtain rfl := List.prefix_nil.mp (cover_spec h).2
    exact Nat.zero_le _
  | cons x xs ih =>
    rcases Nat.eq_zero_or_pos need with rfl | hpos
    · rw [cover_zero] at h
      obtain rfl := Option.some.inj h
      exact Nat.zero_le _
    · rw [cover_cons hpos] at h
      -- something is needed, so `q` takes the front element too
      obtain ⟨q, rfl, hq'⟩ : ∃ q', q = x :: q' ∧ q' <+: xs := by
        cases q with
        | nil => exact absurd hneed (Nat.not_le_of_lt hpos)
        | cons y q => grind
      split at h
      · grind
      · obtain ⟨p, hp, rfl⟩ := Option.map_eq_some_iff.mp h
        rw [weight_cons] at hneed
        exact Nat.succ_le_succ (ih hp hq' (by omega))

theorem cover_dropLast {p : List α} (h : cover w need xs = some p)
    (hp : p ≠ []) : weight w p.dropLast < need := by
  by_contra hneed
  have hle := cover_shortest h (p.dropLast_prefix.trans (cover_spec h).2)
    (Nat.le_of_not_lt hneed)
  have hlength := List.length_pos_iff.mpr hp
  rw [List.length_dropLast] at hle
  omega

end CoveringPrefix
