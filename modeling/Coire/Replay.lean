import Mathlib.Data.List.Basic

/-!
# Replaying a log

A log is read by an automaton that may refuse: `next s a` is the reader's state after
the entry `a`, or nothing where `a` cannot stand there. That a log *replays* says two
things at once: every entry was acceptable where it stands, and the whole of it adds
up to one final state. An invariant of a system that appends to a log is then a
single equation, kept by each append through `replay_snoc`, and what it says of an
entry in the middle is read off `of_replay_split`.
-/

namespace Replay

variable {σ α : Type*} {next : σ → α → Option σ} {s t : σ} {as bs : List α} {a : α}

/-- The reader's state after the entries. -/
def replay (next : σ → α → Option σ) (s : σ) : List α → Option σ
  | [] => some s
  | a :: as => (next s a).bind (replay next · as)

theorem replay_append (s : σ) (as bs : List α) :
    replay next s (as ++ bs) = (replay next s as).bind (replay next · bs) := by
  induction as generalizing s with
  | nil => rfl
  | cons a as ih =>
    show (next s a).bind (replay next · (as ++ bs)) = _
    rw [funext fun t => ih t]
    exact (Option.bind_assoc ..).symm

theorem replay_snoc (s : σ) (as : List α) (a : α) :
    replay next s (as ++ [a]) = (replay next s as).bind (next · a) := by
  rw [replay_append]
  refine congrArg _ (funext fun t => ?_)
  show (next t a).bind some = next t a
  exact Option.bind_fun_some _

theorem of_replay_split (h : replay next s (as ++ a :: bs) = some t) :
    ∃ u v, replay next s as = some u ∧ next u a = some v
      ∧ replay next v bs = some t := by
  rw [replay_append] at h
  obtain ⟨u, hu, h⟩ := Option.bind_eq_some_iff.mp h
  obtain ⟨v, hv, h⟩ := Option.bind_eq_some_iff.mp h
  exact ⟨u, v, hu, hv, h⟩

theorem eq_nil_of_final (hfinal : ∀ a, next s a = none)
    (h : replay next s as = some t) : as = [] ∧ t = s := by
  cases as with
  | nil => exact ⟨rfl, (Option.some.inj h).symm⟩
  | cons a as =>
    unfold replay at h
    rw [hfinal a] at h
    exact nomatch h

end Replay
