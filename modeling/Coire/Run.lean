import Mathlib.Data.List.Basic

/-!
# Runs of a step function

A system here is a step function `σ → α → σ`: what the environment chooses –
the interleaving, the outcome of a call, the moment of a step – is part of
the label, so a run is a list of labels and the state it ends in is a fold.

Some statements about runs are wanted again and again. One is that a property
holds in every state a run reaches, provided each of its steps meets a
condition on the state before it (`Run.throughout_of_invariant`). Another is
that the condition is exact: the property holds in every state of the run *if
and only if* every step meets it (`Run.throughout_iff_along`). The third is that
a run reaches some state (`Run.Sometime`).
-/

namespace Run

variable {σ α : Type*} {step : σ → α → σ} {P Q : σ → α → Prop}
  {Good : σ → Prop}

def last (step : σ → α → σ) (s : σ) (as : List α) : σ :=
  as.foldl step s

/-- **Every step of the run meets a condition** on the state before it. -/
def Along (step : σ → α → σ) (P : σ → α → Prop) : σ → List α → Prop
  | _, [] => True
  | s, a :: as => P s a ∧ Along step P (step s a) as

@[simp] theorem along_nil (s : σ) : Along step P s [] := trivial

@[simp] theorem along_cons (s : σ) (a : α) (as : List α) :
    Along step P s (a :: as) ↔ P s a ∧ Along step P (step s a) as := Iff.rfl

theorem along_append (s : σ) (as bs : List α) : Along step P s (as ++ bs)
      ↔ Along step P s as ∧ Along step P (last step s as) bs := by
  induction as generalizing s with
  | nil => exact (and_iff_right trivial).symm
  | cons a as ih => exact (and_congr_right fun _ => ih _).trans and_assoc.symm

theorem along_and : ∀ {s : σ} {as : List α}, Along step P s as →
    Along step Q s as → Along step (fun s a => P s a ∧ Q s a) s as
  | _, [], _, _ => trivial
  | _, _ :: _, hP, hQ => ⟨⟨hP.1, hQ.1⟩, along_and hP.2 hQ.2⟩

instance Along.decidable [∀ s a, Decidable (P s a)] :
    ∀ s as, Decidable (Along step P s as)
  | _, [] => isTrue trivial
  | s, a :: as =>
    @instDecidableAnd _ _ _ (Along.decidable (step s a) as)

/-- **A property of every state the run reaches**, its first and last
included. -/
def Throughout (step : σ → α → σ) (Good : σ → Prop) (s : σ) (as : List α) :
    Prop :=
  ∀ n, Good (last step s (as.take n))

theorem throughout_nil (s : σ) : Throughout step Good s [] ↔ Good s :=
  ⟨fun h => h 0, fun h n => by rw [List.take_nil]; exact h⟩

theorem throughout_cons (s : σ) (a : α) (as : List α) : Throughout step Good s (a :: as)
      ↔ Good s ∧ Throughout step Good (step s a) as := by
  constructor
  · exact fun h => ⟨h 0, fun n => h (n + 1)⟩
  · rintro ⟨h0, h⟩ (_ | n)
    · exact h0
    · exact h n

/-- **A property of some state the run reaches.** -/
def Sometime (step : σ → α → σ) (Good : σ → Prop) (s : σ) (as : List α) :
    Prop :=
  ∃ n, Good (last step s (as.take n))

theorem sometime_nil (s : σ) : Sometime step Good s [] ↔ Good s :=
  ⟨fun ⟨n, h⟩ => by rw [List.take_nil] at h; exact h, fun h => ⟨0, h⟩⟩

theorem sometime_cons (s : σ) (a : α) (as : List α) : Sometime step Good s (a :: as)
      ↔ Good s ∨ Sometime step Good (step s a) as := by
  constructor
  · rintro ⟨_ | n, h⟩
    · exact .inl h
    · exact .inr ⟨n, h⟩
  · rintro (h | ⟨n, h⟩)
    · exact ⟨0, h⟩
    · exact ⟨n + 1, h⟩

theorem not_sometime_of_invariant (Inv : σ → Prop) (hbad : ∀ s, Inv s → ¬ Good s)
    (hstep : ∀ s a, Inv s → P s a → Inv (step s a)) :
    ∀ {s : σ} {as : List α}, Inv s → Along step P s as → ¬ Sometime step Good s as
  | s, [], hs, _ => fun h => hbad s hs ((sometime_nil s).mp h)
  | s, a :: as, hs, h => fun hsome =>
    ((sometime_cons s a as).mp hsome).elim (hbad s hs)
      (not_sometime_of_invariant Inv hbad hstep (hstep s a hs h.1) h.2)

/-- **The invariant rule**, for what holds in every state. -/
theorem throughout_of_invariant (Inv : σ → Prop) (hgood : ∀ s, Inv s → Good s)
    (hstep : ∀ s a, Inv s → P s a → Inv (step s a)) :
    ∀ {s : σ} {as : List α}, Inv s → Along step P s as → Throughout step Good s as
  | s, [], hs, _ => (throughout_nil s).mpr (hgood s hs)
  | s, a :: as, hs, h => (throughout_cons s a as).mpr
      ⟨hgood s hs, throughout_of_invariant Inv hgood hstep (hstep s a hs h.1) h.2⟩

theorem throughout_of_kept (Inv : σ → Prop) (hgood : ∀ s, Inv s → Good s)
    (hstep : ∀ s a, Inv s → Inv (step s a)) :
    ∀ {s : σ} {as : List α}, Inv s → Throughout step Good s as
  | s, [], hs => (throughout_nil s).mpr (hgood s hs)
  | s, a :: as, hs => (throughout_cons s a as).mpr
      ⟨hgood s hs, throughout_of_kept Inv hgood hstep (hstep s a hs)⟩

theorem last_of_kept (Inv : σ → Prop) (hstep : ∀ s a, Inv s → Inv (step s a)) :
    ∀ {s : σ} (as : List α), Inv s → Inv (last step s as)
  | _, [], hs => hs
  | s, a :: as, hs => last_of_kept Inv hstep as (hstep s a hs)

theorem along_of_invariant (Inv : σ → Prop)
    (hstep : ∀ s a, Inv s → P s a → Inv (step s a))
    (hQ : ∀ s a, Inv s → P s a → Q s a) :
    ∀ {s : σ} {as : List α}, Inv s → Along step P s as → Along step Q s as
  | _, [], _, _ => trivial
  | _, _ :: _, hs, h =>
    ⟨hQ _ _ hs h.1, along_of_invariant Inv hstep hQ (hstep _ _ hs h.1) h.2⟩

theorem along_of_kept (Inv : σ → Prop) (hstep : ∀ s a, Inv s → Inv (step s a))
    (hQ : ∀ s a, Inv s → Q s a) :
    ∀ {s : σ} (as : List α), Inv s → Along step Q s as
  | _, [], _ => trivial
  | s, a :: as, hs => ⟨hQ s a hs, along_of_kept Inv hstep hQ as (hstep s a hs)⟩

/-- **The rule for what never changes back**: a preorder that every step goes up in. -/
theorem rel_of_step (R : σ → σ → Prop) (hrefl : ∀ s, R s s)
    (htrans : ∀ {r s t}, R r s → R s t → R r t) (hstep : ∀ s a, R s (step s a))
    {n m : ℕ} (hle : n ≤ m) (s : σ) (as : List α) :
    R (last step s (as.take n)) (last step s (as.take m)) := by
  have hrun : ∀ (bs : List α) (t : σ), R t (last step t bs) := by
    intro bs
    induction bs with
    | nil => exact hrefl
    | cons b bs ih => exact fun t => htrans (hstep t b) (ih (step t b))
  have hsplit : as.take m = as.take n ++ (as.take m).drop n := by
    conv_lhs => rw [← List.take_append_drop n (as.take m)]
    rw [List.take_take, Nat.min_eq_left hle]
  unfold last at hrun ⊢
  rw [hsplit, List.foldl_append]
  exact hrun _ _

/-- **The condition is exact**, where a step that does not meet it breaks the property
at once. -/
theorem throughout_iff_along (Inv : σ → Prop) (hgood : ∀ s, Inv s → Good s)
    (hstep : ∀ s a, Inv s → P s a → Inv (step s a))
    (hbreak : ∀ s a, Inv s → ¬ P s a → ¬ Good (step s a)) :
    ∀ {s : σ} {as : List α}, Inv s → (Throughout step Good s as ↔ Along step P s as)
  | s, [], hs => by
    rw [throughout_nil]
    exact iff_of_true (hgood s hs) trivial
  | s, a :: as, hs => by
    rw [throughout_cons, along_cons]
    by_cases hP : P s a
    · rw [throughout_iff_along Inv hgood hstep hbreak (hstep s a hs hP)]
      exact and_congr_left' (iff_of_true (hgood s hs) hP)
    · refine iff_of_false (fun h => hbreak s a hs hP ?_) (fun h => hP h.1)
      exact h.2 0

end Run
