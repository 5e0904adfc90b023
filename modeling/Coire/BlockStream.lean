import Mathlib.Algebra.Order.Group.Nat
import Mathlib.Data.List.Basic

/-!
# A stream that comes in blocks

A stream whose items come in blocks of one length, block after block. A reader
that knows the number of its block and how far it is in it has read a certain
beginning of the stream: `upTo`. The end of a block and the start of the next
one are two names of one beginning (`upTo_succ_zero`), and to read on is to append
(`upTo_add`), so a reader that crosses from block to block can be followed by
the list it has read and nothing else.

What is read can be dealt out to several readers in turn, each taking every
`w`-th item from its own place on: `stride`, as `items[r::w]`. Together the
readers have everything (`mem_iff_mem_stride`), and two of them merge to the
items in their order (`interleave_stride`).
-/

namespace BlockStream

variable {α β : Type}

/-! ## Beginnings of the stream -/

/-- The beginning of the stream that is read at `cursor` in the block
`epoch`. -/
def upTo (block : ℕ → List α) (epoch cursor : ℕ) : List α :=
  (List.range epoch).flatMap block ++ (block epoch).take cursor

section

variable {block : ℕ → List α} {epoch cursor L : ℕ}

theorem upTo_succ_zero (h : (block epoch).length = L) :
    upTo block (epoch + 1) 0 = upTo block epoch L := by
  unfold upTo
  rw [List.range_succ, List.flatMap_append, List.flatMap_singleton,
    List.take_zero, List.append_nil, ← h, List.take_length]

theorem upTo_add (count : ℕ) : upTo block epoch (cursor + count)
    = upTo block epoch cursor ++ ((block epoch).drop cursor).take count := by
  unfold upTo
  rw [List.take_add, List.append_assoc]

theorem length_upTo (h : ∀ e ≤ epoch, (block e).length = L)
    (hc : cursor ≤ L) : (upTo block epoch cursor).length = epoch * L + cursor := by
  have hblocks : ((List.range epoch).map fun e => (block e).length)
      = List.replicate epoch L := by
    grind [List.eq_replicate_iff, List.length_map]
  unfold upTo
  rw [List.length_append, List.length_flatMap, hblocks,
    List.sum_replicate_nat, List.length_take, h epoch le_rfl,
    Nat.min_eq_left hc]

theorem upTo_subset {e : ℕ} (he : e ≤ epoch) :
    upTo block e 0 ⊆ upTo block epoch cursor := by
  grind [upTo]

theorem exists_mem_of_mem_upTo {x : α} (hx : x ∈ upTo block epoch cursor) :
    ∃ e ≤ epoch, x ∈ block e := by
  rcases List.mem_append.mp hx with h | h
  · grind
  · exact ⟨epoch, le_rfl, List.mem_of_mem_take h⟩

end

/-! ## Dealing out in turn -/

/-- `items[r::w]`: skip `r` items, take one, skip `w - 1`, and so on. -/
def stride (w : ℕ) : ℕ → List α → List α
  | _, [] => []
  | 0, x :: xs => x :: stride w (w - 1) xs
  | r + 1, _ :: xs => stride w r xs

@[simp] theorem stride_nil (w r : ℕ) : stride w r ([] : List α) = [] := by
  cases r <;> rfl

@[simp] theorem stride_zero_cons (w : ℕ) (x : α) (xs : List α) :
    stride w 0 (x :: xs) = x :: stride w (w - 1) xs := rfl

@[simp] theorem stride_succ_cons (w r : ℕ) (x : α) (xs : List α) :
    stride w (r + 1) (x :: xs) = stride w r xs := rfl

theorem stride_map (w : ℕ) (f : α → β) (r : ℕ) (xs : List α) :
    stride w r (xs.map f) = (stride w r xs).map f := by
  induction xs generalizing r with
  | nil => simp
  | cons x xs ih => cases r <;> simp [ih]

theorem stride_one (xs : List α) : stride 1 0 xs = xs := by
  induction xs with
  | nil => rfl
  | cons x xs ih =>
    show x :: stride 1 0 xs = x :: xs
    rw [ih]

theorem stride_sublist (w r : ℕ) (xs : List α) : (stride w r xs).Sublist xs := by
  induction xs generalizing r with
  | nil => simp
  | cons x xs ih =>
    cases r with
    | zero => exact (ih _).cons_cons x
    | succ r => exact (ih r).cons x

theorem stride_ne_nil (w : ℕ) {r : ℕ} {xs : List α} (h : r < xs.length) :
    stride w r xs ≠ [] := by
  induction xs generalizing r with
  | nil => cases h
  | cons x xs ih =>
    cases r with
    | zero => exact List.cons_ne_nil _ _
    | succ r => exact ih (Nat.lt_of_succ_lt_succ h)

theorem mem_iff_mem_stride {w : ℕ} (hw : 0 < w) {x : α} {xs : List α} :
    x ∈ xs ↔ ∃ r < w, x ∈ stride w r xs := by
  refine ⟨fun h => ?_, fun ⟨r, _, h⟩ => (stride_sublist w r xs).mem h⟩
  induction xs with
  | nil => cases h
  | cons y ys ih =>
    cases h with
    | head => exact ⟨0, hw, List.mem_cons_self⟩
    | tail _ h =>
      obtain ⟨r, hr, hmem⟩ := ih h
      -- the reader after `r` has it, or the first one if `r` is the last
      by_cases hlast : r + 1 < w
      · exact ⟨r + 1, hlast, hmem⟩
      have hr' : w - 1 = r := by omega
      refine ⟨0, hw, ?_⟩
      rw [stride_zero_cons, hr']
      exact List.mem_cons_of_mem _ hmem

/-- Two lists merged in turn, the first one starting. -/
def interleave : List α → List α → List α
  | [], ys => ys
  | x :: xs, [] => x :: xs
  | x :: xs, y :: ys => x :: y :: interleave xs ys

theorem interleave_map (f : α → β) : ∀ xs ys : List α,
    (interleave xs ys).map f = interleave (xs.map f) (ys.map f)
  | [], _ => rfl
  | _ :: _, [] => rfl
  | x :: xs, y :: ys => by
    show f x :: f y :: (interleave xs ys).map f = _
    rw [interleave_map f xs ys]
    rfl

theorem interleave_stride : ∀ xs : List α,
    interleave (stride 2 0 xs) (stride 2 1 xs) = xs
  | [] => rfl
  | [x] => rfl
  | x :: y :: xs => by
    show x :: y :: interleave (stride 2 0 xs) (stride 2 1 xs) = x :: y :: xs
    rw [interleave_stride xs]

end BlockStream
