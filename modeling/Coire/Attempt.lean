import Mathlib.Tactic.Common

/-!
# Programs that may stop half-way

A program that writes as it goes and may stop at any of its steps leaves behind what it
has written by then: its result is a value or an error, *and* the state it has reached
in either case. `Attempt σ ε α` is that, with the usual sequencing: after an error the
rest is not run, and nothing is undone.

What holds after such a program is two things, one for each way to end. `Triple P x Q E`
says that from a state with `P` the program `x` ends in `Q`, with its value, or in `E`,
with its error. `Keeps I x` is the case of an invariant, which holds however the program
ends; it is closed under everything a program is built from.
-/

/-- A program over states `σ` with errors `ε`. -/
def Attempt (σ ε α : Type) : Type := σ → Except ε α × σ

namespace Attempt

variable {σ ε α β : Type}

/-- The rest of a program, where the first part has not stopped. -/
def andThen (x : Attempt σ ε α) (f : α → Attempt σ ε β) : Attempt σ ε β := fun s =>
  match x s with
  | (.ok a, s') => f a s'
  | (.error e, s') => (.error e, s')

instance : Monad (Attempt σ ε) where
  pure a := fun s => (.ok a, s)
  bind := andThen

def read (p : σ → α) : Attempt σ ε α := fun s => (.ok (p s), s)

def change (f : σ → σ) : Attempt σ ε Unit := fun s => (.ok (), f s)

def raise (e : ε) : Attempt σ ε α := fun s => (.error e, s)

def refuse (c : Prop) [Decidable c] (e : ε) : Attempt σ ε Unit :=
  if c then raise e else pure ()

def require (x : Option α) (e : ε) : Attempt σ ε α :=
  match x with
  | none => raise e
  | some a => pure a

/-- A program whose errors, as far as `caught` reads them, become its result. -/
def observe {δ : Type} (caught : ε → Option δ) (x : Attempt σ ε α) :
    Attempt σ ε (Except δ α) := fun s =>
  match x s with
  | (.ok a, s') => (.ok (.ok a), s')
  | (.error e, s') =>
    match caught e with
    | some d => (.ok (.error d), s')
    | none => (.error e, s')

/-! ## What holds after a program -/

def Ends (Q : α → σ → Prop) (E : ε → σ → Prop) : Except ε α × σ → Prop
  | (.ok a, s) => Q a s
  | (.error e, s) => E e s

/-- **From `P` the program ends in `Q`, or by an error in `E`.** -/
def Triple (P : σ → Prop) (x : Attempt σ ε α) (Q : α → σ → Prop) (E : ε → σ → Prop) :
    Prop :=
  ∀ s, P s → Ends Q E (x s)

section Rules

variable {P P' : σ → Prop} {Q Q' : α → σ → Prop} {R : β → σ → Prop}
  {E E' : ε → σ → Prop} {x : Attempt σ ε α} {f : α → Attempt σ ε β}

theorem Ends.mono {r : Except ε α × σ} (h : Ends Q E r) (hQ : ∀ a s, Q a s → Q' a s)
    (hE : ∀ e s, E e s → E' e s) : Ends Q' E' r := by
  obtain ⟨⟨e⟩ | ⟨a⟩, s⟩ := r
  · exact hE e s h
  · exact hQ a s h

theorem Triple.mono (h : Triple P x Q E) (hP : ∀ s, P' s → P s)
    (hQ : ∀ a s, Q a s → Q' a s) (hE : ∀ e s, E e s → E' e s) : Triple P' x Q' E' :=
  fun s hs => (h s (hP s hs)).mono hQ hE

theorem Triple.assuming {p : Prop} (hp : ∀ s, P s → p) (h : p → Triple P x Q E) :
    Triple P x Q E :=
  fun s hs => h (hp s hs) s hs

theorem Triple.or (h : Triple P x Q E) (h' : Triple P' x Q E) :
    Triple (fun s => P s ∨ P' s) x Q E :=
  fun s hs => hs.elim (h s) (h' s)

theorem Triple.bind (hx : Triple P x Q E) (hf : ∀ a, Triple (Q a) (f a) R E) :
    Triple P (x >>= f) R E := by
  intro s hs
  show Ends R E (andThen x f s)
  have h := hx s hs
  unfold andThen
  split
  case h_1 a s' heq =>
    rw [heq] at h
    exact hf a s' h
  case h_2 e s' heq =>
    rw [heq] at h
    exact h

theorem Triple.read {δ : Type} {p : σ → δ} {g : δ → Attempt σ ε α}
    (h : ∀ d, Triple (fun s => P s ∧ p s = d) (g d) Q E) :
    Triple P (read p >>= g) Q E :=
  fun s hs => h (p s) s ⟨hs, rfl⟩

theorem Triple.change {g : σ → σ} {Q : Unit → σ → Prop} (h : ∀ s, P s → Q () (g s)) :
    Triple (ε := ε) P (change g) Q E := h

theorem Triple.refuse {c : Prop} [Decidable c] {e : ε} {Q : Unit → σ → Prop}
    (hE : ∀ s, P s → c → E e s) (hQ : ∀ s, P s → ¬ c → Q () s) :
    Triple P (refuse c e) Q E := by
  unfold Attempt.refuse
  split
  case isTrue hc => exact fun s hs => hE s hs hc
  case isFalse hc => exact fun s hs => hQ s hs hc

theorem Triple.refuse_bind {c : Prop} [Decidable c] {e : ε} {f : Unit → Attempt σ ε β}
    (hE : c → ∀ s, P s → E e s) (hf : ¬ c → Triple P (f ()) R E) :
    Triple P (Attempt.refuse c e >>= f) R E := by
  unfold Attempt.refuse
  split
  case isTrue hc => exact hE hc
  case isFalse hc => exact hf hc

theorem Triple.require {o : Option α} {e : ε} (hE : ∀ s, P s → E e s)
    (hQ : ∀ s a, P s → o = some a → Q a s) : Triple P (require o e) Q E := by
  cases o with
  | none => exact hE
  | some a => exact fun s hs => hQ s a hs rfl

theorem Triple.ite {c : Prop} [Decidable c] {y : Attempt σ ε α} (hx : Triple P x Q E)
    (hy : Triple P y Q E) : Triple P (if c then x else y) Q E := by
  split
  · exact hx
  · exact hy

theorem Triple.observe {δ : Type} {caught : ε → Option δ} (hx : Triple P x Q E) :
    Triple P (observe caught x)
      (fun r s => match r with
        | .ok a => Q a s
        | .error d => ∃ e, caught e = some d ∧ E e s) E := by
  intro s hs
  have h := hx s hs
  unfold Attempt.observe
  split
  case h_1 a s' heq =>
    rw [heq] at h
    exact h
  case h_2 e s' heq =>
    rw [heq] at h
    split
    case h_1 d hd => exact ⟨e, hd, h⟩
    case h_2 => exact h

end Rules

/-! ## Invariants -/

/-- **The program keeps `I`**, however it ends. -/
def Keeps (I : σ → Prop) (x : Attempt σ ε α) : Prop :=
  Triple I x (fun _ => I) (fun _ => I)

section Keeps

variable {I : σ → Prop} {x y : Attempt σ ε α} {f : α → Attempt σ ε β}

theorem Keeps.pure (a : α) : Keeps (ε := ε) I (pure a) := fun _ h => h

theorem Keeps.raise (e : ε) : Keeps I (raise e : Attempt σ ε α) := fun _ h => h

theorem Keeps.bind (hx : Keeps I x) (hf : ∀ a, Keeps I (f a)) : Keeps I (x >>= f) :=
  Triple.bind hx hf

theorem Keeps.read (p : σ → α) : Keeps (ε := ε) I (read p) := fun _ h => h

theorem Keeps.change {g : σ → σ} (h : ∀ s, I s → I (g s)) :
    Keeps (ε := ε) I (change g) := h

theorem Keeps.refuse (c : Prop) [Decidable c] (e : ε) : Keeps I (refuse c e) :=
  Triple.refuse (fun _ h _ => h) (fun _ h _ => h)

theorem Keeps.require (o : Option α) (e : ε) : Keeps I (require o e) :=
  Triple.require (fun _ h => h) (fun _ _ h _ => h)

theorem Keeps.observe {δ : Type} (caught : ε → Option δ) (hx : Keeps I x) :
    Keeps I (observe caught x) := by
  refine (Triple.observe hx).mono (fun _ h => h) ?_ (fun _ _ h => h)
  intro r s h
  cases r with
  | error d => exact h.elim fun _ hd => hd.2
  | ok a => exact h

theorem Keeps.ite {c : Prop} [Decidable c] (hx : Keeps I x) (hy : Keeps I y) :
    Keeps I (if c then x else y) :=
  Triple.ite hx hy

end Keeps

end Attempt
