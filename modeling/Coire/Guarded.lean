import Mathlib.Tactic.Common

/-!
# Calls that may be refused

A call checks its preconditions one after the other and raises at the first that
fails; what it has done by then is undone with its transaction. In the error monad
a check is `refuse c e`, a call is a chain of checks that ends in the new state,
and the state after a call that raised is the state before it (`settle`).

What such a chain says when it *returns* is the conjunction of its checks:
`check_bind_eq_ok` takes the first one off, `refuse_eq_ok` reads it.
-/

namespace Guarded

variable {ε σ : Type*} {α β : Type}

/-- Raise `e` where `c` holds. -/
def refuse (c : Prop) [Decidable c] (e : ε) : Except ε Unit :=
  if c then .error e else .ok ()

@[simp] theorem refuse_eq_ok {c : Prop} [Decidable c] {e : ε} {u : Unit} :
    refuse c e = .ok u ↔ ¬ c := by
  unfold refuse
  by_cases h : c
  · grind
  · rw [if_neg h]
    exact iff_of_true rfl h

/-- A check that is made only where `c` holds. -/
def checkIf (c : Prop) [Decidable c] (x : Except ε Unit) : Except ε Unit :=
  if c then x else .ok ()

/-- Raise `e` where there is nothing. -/
def require (x : Option α) (e : ε) : Except ε α :=
  match x with
  | none => .error e
  | some a => .ok a

@[simp] theorem require_eq_ok {x : Option α} {e : ε} {a : α} :
    require x e = .ok a ↔ x = some a := by
  cases x with
  | none => exact iff_of_false (fun h => nomatch h) (fun h => nomatch h)
  | some b =>
    exact ⟨fun h => congrArg some (Except.ok.inj h),
      fun h => congrArg Except.ok (Option.some.inj h)⟩

theorem bind_eq_ok {x : Except ε α} {f : α → Except ε β} {b : β} :
    (x >>= f) = .ok b ↔ ∃ a, x = .ok a ∧ f a = .ok b := by
  cases x with
  | error e => exact iff_of_false (fun h => nomatch h) (fun ⟨_, h, _⟩ => nomatch h)
  | ok a => exact ⟨fun h => ⟨a, rfl, h⟩, fun ⟨_, ha, h⟩ => Except.ok.inj ha ▸ h⟩

theorem check_bind_eq_ok {x : Except ε Unit} {f : Unit → Except ε β} {b : β} :
    (x >>= f) = .ok b ↔ x = .ok () ∧ f () = .ok b := by
  rw [bind_eq_ok]
  exact ⟨fun ⟨_, hx, hf⟩ => ⟨hx, hf⟩, fun ⟨hx, hf⟩ => ⟨(), hx, hf⟩⟩

theorem map_eq_ok {x : Except ε α} {g : α → β} {b : β} :
    x.map g = .ok b ↔ ∃ a, x = .ok a ∧ g a = b := by
  cases x with
  | error e => exact iff_of_false (fun h => nomatch h) (fun ⟨_, h, _⟩ => nomatch h)
  | ok a =>
    exact ⟨fun h => ⟨a, rfl, Except.ok.inj h⟩,
      fun ⟨_, ha, h⟩ => congrArg Except.ok (Except.ok.inj ha ▸ h)⟩

/-- **The state after a call**: a call that raised has changed nothing. -/
def settle (s : σ) : Except ε (σ × α) → σ
  | .error _ => s
  | .ok (s', _) => s'

@[simp] theorem settle_error (s : σ) (e : ε) :
    settle s (.error e : Except ε (σ × α)) = s := rfl

@[simp] theorem settle_ok (s s' : σ) (a : α) :
    settle s (.ok (s', a) : Except ε (σ × α)) = s' := rfl

theorem settle_induction {P : σ → Prop} {s : σ} {x : Except ε (σ × α)} (hs : P s)
    (h : ∀ s' a, x = .ok (s', a) → P s') : P (settle s x) := by
  cases x with
  | error e => exact hs
  | ok r => exact h r.1 r.2 rfl

end Guarded
