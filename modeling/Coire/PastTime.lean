import Mathlib.Data.List.Induction

/-!
# Properties of a history

What a monitor reports at some moment is a property of everything it has seen so far,
a list with the oldest element first. Many such properties have the form *`p` since
`q`*: at some moment of the past `q` held, and `p` has held at every moment after it.
A monitor computes such a property one element at a time, and `since_snoc` is what it
has to compute; `since_first` says that it does not matter whether the first or any
other moment of `q` is meant, where `q` itself does not end what it begins.
-/

namespace PastTime

variable {α : Type*} {p q : List α → Prop}

/-- **`p` since `q`**: `q` held of some beginning of the history, and `p` of every
longer one. -/
def Since (p q : List α → Prop) (h : List α) : Prop :=
  ∃ n ≤ h.length, q (h.take n) ∧ ∀ m ≤ h.length, n < m → p (h.take m)

theorem since_nil : Since p q [] ↔ q [] := by
  constructor
  · grind [Since]
  · intro hq
    exact ⟨0, Nat.le_refl 0, hq, fun m hm hlt => absurd hm (Nat.not_le_of_lt hlt)⟩

theorem since_snoc (h : List α) (a : α) :
    Since p q (h ++ [a]) ↔ q (h ++ [a]) ∨ p (h ++ [a]) ∧ Since p q h := by
  have hwhole : (h ++ [a]).take (h.length + 1) = h ++ [a] :=
    List.take_of_length_le (Nat.le_of_eq List.length_append)
  have hold {n : ℕ} (hn : n ≤ h.length) : (h ++ [a]).take n = h.take n :=
    List.take_append_of_le_length hn
  unfold Since
  rw [List.length_append, List.length_singleton]
  constructor
  · rintro ⟨n, hn, hq, hp⟩
    rcases Nat.lt_or_eq_of_le hn with hlt | rfl
    · grind
    · rw [hwhole] at hq
      exact .inl hq
  · grind

theorem since_exists {ι : Type*} {q : ι → List α → Prop} {h : List α} :
    Since p (fun h => ∃ i, q i h) h ↔ ∃ i, Since p (q i) h := by
  constructor
  · grind [Since]
  · grind [Since]

/-- **The first `q` of those that count**: before it, it was not so. -/
def First (p q : List α → Prop) (h : List α) : Prop :=
  q h ∧ ¬ Since p q h.dropLast

/-- **It is so since the first `q`**, where `q` does not end what it begins. -/
theorem since_first (hqp : ∀ h, q h → p h) (hnil : ¬ q []) (h : List α) :
    Since p (First p q) h ↔ Since p q h := by
  induction h using List.reverseRecOn with
  | nil => grind [Since, First]
  | append_singleton h a ih => grind [since_snoc, Since, First]

end PastTime
