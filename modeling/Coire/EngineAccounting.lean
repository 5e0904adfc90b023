import Coire.EngineManager
import Coire.Run

/-!
# Every spawned process is accounted for

A process is *owed* from its spawn until a liveness test of the manager answers that it
is gone. The budget is sound only if every owed process is one of the summands of
`committed_bytes`. Most paths keep it so: a state that is not counted is written only
after a liveness test.

Two paths do not. A start replaces the entry of its engine id, whose object may be
stopping or an orphan; and the readiness probe that times out marks the engine failed
before it terminates it. These are the only two (`EngineManager.accounted_iff`).
-/

namespace Engine

def Owed (e : Engine) : Prop := e.spawned = true ∧ e.observedDead = false
  deriving Decidable

structure Keeps (e e' : Engine) : Prop where
  engineId : e'.engineId = e.engineId
  estimate : e'.estimateBytes = e.estimateBytes
  owed : e'.Owed → e.Owed
  counted : e'.Owed → e.state.counted = true → e'.state.counted = true

theorem Keeps.refl (e : Engine) : e.Keeps e := ⟨rfl, rfl, id, fun _ => id⟩

theorem Keeps.of_observedDead {e e' : Engine}
    (hi : e'.engineId = e.engineId) (he : e'.estimateBytes = e.estimateBytes)
    (hd : e'.observedDead = true) : e.Keeps e' :=
  have hno : ¬ e'.Owed := fun h => absurd h.2 (by rw [hd]; decide)
  ⟨hi, he, fun h => absurd h hno, fun h => absurd h hno⟩

theorem Keeps.of_counted {e e' : Engine} (hi : e'.engineId = e.engineId)
    (he : e'.estimateBytes = e.estimateBytes)
    (ho : e'.Owed → e.Owed) (hc : e'.state.counted = true) : e.Keeps e' :=
  ⟨hi, he, ho, fun _ _ => hc⟩

theorem keeps_checkOnce (e : Engine) (alive : Bool) (resident : Option ℕ) :
    e.Keeps (e.checkOnce alive resident) := by
  unfold checkOnce
  split
  · split
    · exact ⟨rfl, rfl, id, fun _ => id⟩
    · split <;> exact Keeps.of_observedDead rfl rfl rfl
  · exact Keeps.refl e

theorem keeps_reconcile (e : Engine) (x : ReconcileExpectation)
    (alive alive' : Bool) : e.Keeps (e.reconcile x alive alive') := by
  unfold reconcile
  split
  · exact Keeps.of_counted rfl rfl id rfl
  split
  · split
    · exact Keeps.refl e
    · exact Keeps.of_observedDead rfl rfl rfl
  · split <;> exact Keeps.of_observedDead rfl rfl rfl

end Engine

namespace EngineManager

/-! ## Actions -/

/-- **An action** of one of the manager's threads, each atomic. -/
inductive Action
  | start (req : EngineStartRequest) (env : StartEnv)
  | stop (engineId : ℕ)
  | terminate (r : ℕ) (survives : Bool)
  | finishTerminate (r : ℕ)
  | probeExited (r : ℕ)
  | markStartFailure (r : ℕ)
  | probeReady (r : ℕ) (resident : Option ℕ)
  | probeTimeout (r : ℕ)
  | checkOnce (alive : ℕ → Bool) (resident : ℕ → Option ℕ)
  | findOrphan (p : OrphanProcess)
  | reconcile (expected : List (ReconcileExpectation × Bool × Bool))

def step (budget : ℕ) (m : EngineManager) : Action → EngineManager
  | .start req env => (m.start budget req env).2
  | .stop engineId => m.stop engineId
  | .terminate r survives => m.terminate r survives
  | .finishTerminate r => m.finishTerminate r
  | .probeExited r => m.probeExited r
  | .markStartFailure r => m.markStartFailure r
  | .probeReady r resident => m.probeReady r resident
  | .probeTimeout r => m.probeTimeout r
  | .checkOnce alive resident => m.checkOnce alive resident
  | .findOrphan p => m.findOrphan p
  | .reconcile expected => m.reconcile expected

variable (m : EngineManager)

/-! ## Accounting -/

def Accounted : Prop :=
  ∀ (r : ℕ) (e : Engine), m.objects[r]? = some e → e.Owed →
    r ∈ m.engines.values ∧ e.holding = e.estimateBytes

structure Ledgered : Prop where
  keyed : ∀ k r, m.engines.get? k = some r →
    ∃ e, m.objects[r]? = some e ∧ e.engineId = k
  owed : ∀ (r : ℕ) (e : Engine), m.objects[r]? = some e → e.Owed →
    m.engines.get? e.engineId = some r ∧ e.state.counted = true
  estimate : ∀ (r : ℕ) (e : Engine), m.objects[r]? = some e → e.Owed → 1 ≤ e.estimateBytes

variable {m}

theorem Ledgered.init : EngineManager.init.Ledgered :=
  ⟨fun _ _ h => absurd h (by simp [EngineManager.init]),
    fun _ _ h => absurd h (by simp [EngineManager.init]),
    fun _ _ h => absurd h (by simp [EngineManager.init])⟩

theorem holding_eq_estimate {e : Engine} (hc : e.state.counted = true)
    (he : 1 ≤ e.estimateBytes) : e.holding = e.estimateBytes := by
  unfold Engine.holding Engine.charge
  rw [if_pos hc, if_pos (by omega)]

theorem Ledgered.accounted (h : m.Ledgered) : m.Accounted := by
  intro r e hr ho
  obtain ⟨hreg, hc⟩ := h.owed r e hr ho
  exact ⟨Dict.mem_values.mpr ⟨_, hreg⟩, holding_eq_estimate hc (h.estimate r e hr ho)⟩

theorem objects_update (m : EngineManager) (r j : ℕ) (f : Engine → Engine) :
    (m.update r f).objects[j]?
      = (m.objects[j]?).map (fun e => if r = j then f e else e) :=
  List.getElem?_modify ..

theorem Ledgered.update (h : m.Ledgered) (r : ℕ) {f : Engine → Engine}
    (hf : ∀ e, m.objects[r]? = some e → e.Keeps (f e)) :
    (m.update r f).Ledgered := by
  have hget : ∀ (j : ℕ) e', (m.update r f).objects[j]? = some e' →
      ∃ e : Engine, m.objects[j]? = some e ∧ e.Keeps e' := by
    intro j e' hj
    rw [objects_update] at hj
    obtain ⟨e, he, rfl⟩ := Option.map_eq_some_iff.mp hj
    refine ⟨e, he, ?_⟩
    by_cases hrj : r = j
    · rw [if_pos hrj]
      exact hf e (hrj ▸ he)
    · rw [if_neg hrj]
      exact Engine.Keeps.refl e
  refine ⟨?_, ?_, ?_⟩
  · intro k j hk
    obtain ⟨e, he, hid⟩ := h.keyed k j hk
    obtain ⟨e', he'⟩ : ∃ e', (m.update r f).objects[j]? = some e' := by
      rw [objects_update, he]
      exact ⟨_, rfl⟩
    obtain ⟨e₀, he₀, hkeep⟩ := hget j e' he'
    rw [he, Option.some.injEq] at he₀
    exact ⟨e', he', hkeep.engineId.trans (he₀ ▸ hid)⟩
  · intro j e' hj ho
    obtain ⟨e, he, hkeep⟩ := hget j e' hj
    obtain ⟨hreg, hc⟩ := h.owed j e he (hkeep.owed ho)
    exact ⟨by rw [hkeep.engineId]; exact hreg, hkeep.counted ho hc⟩
  · intro j e' hj ho
    obtain ⟨e, he, hkeep⟩ := hget j e' hj
    rw [hkeep.estimate]
    exact h.estimate j e he (hkeep.owed ho)

theorem Ledgered.register (h : m.Ledgered) {e : Engine}
    (hc : e.state.counted = true) (he : e.Owed → 1 ≤ e.estimateBytes)
    (hold : ∀ e', m.engine? e.engineId = some e' → ¬ e'.Owed) :
    (m.register e).Ledgered := by
  have hlt : ∀ k r, m.engines.get? k = some r → r < m.objects.length := by
    intro k r hk
    obtain ⟨e', he', -⟩ := h.keyed k r hk
    exact (List.getElem?_eq_some_iff.mp he').1
  have hget : ∀ r, r < m.objects.length →
      (m.register e).objects[r]? = m.objects[r]? := fun r hr =>
    List.getElem?_append_left hr
  have hnew : (m.register e).objects[m.objects.length]? = some e := by
    unfold EngineManager.register
    simp
  have hcase : ∀ (r : ℕ) e', (m.register e).objects[r]? = some e' →
      (r = m.objects.length ∧ e' = e)
        ∨ r < m.objects.length ∧ m.objects[r]? = some e' := by
    intro r e' hr
    rcases lt_trichotomy r m.objects.length with hlt | rfl | hgt
    · exact Or.inr ⟨hlt, hget r hlt ▸ hr⟩
    · grind
    have hlen := (List.getElem?_eq_some_iff.mp hr).1
    simp only [EngineManager.register, List.length_append,
      List.length_singleton] at hlen
    omega
  refine ⟨?_, ?_, ?_⟩
  · intro k r hk
    simp only [EngineManager.register, Dict.get?_set] at hk
    split at hk
    · grind
    · grind [cases Ledgered]
  · intro r e' hr ho
    simp only [EngineManager.register, Dict.get?_set]
    rcases hcase r e' hr with ⟨rfl, rfl⟩ | ⟨-, hr⟩
    · exact ⟨if_pos rfl, hc⟩
    obtain ⟨hreg, hc'⟩ := h.owed r e' hr ho
    refine ⟨?_, hc'⟩
    rw [if_neg]
    · exact hreg
    · intro hid
      refine hold e' ?_ ho
      rw [← hid, engine?, hreg, Option.bind_some, hr]
  · grind [cases Ledgered]

/-! ## The two paths that lose a process -/

variable (m)

/-- `start` passes all its checks and spawns. -/
def spawns (budget : ℕ) (req : EngineStartRequest) (env : StartEnv) : Bool :=
  match m.startDecision budget req env with
  | .ok (.spawn ..) => true
  | _ => false

/-- **No owed process is let go.** A start that spawns does not find an owed
process registered under its id, and the readiness probe does not time out on
an owed process that is starting. -/
def KeepsOwed (budget : ℕ) : Action → Prop
  | .start req env => m.spawns budget req env = true →
      ∀ e ∈ m.engine? req.engineId, ¬ e.Owed
  | .probeTimeout r => ∀ e ∈ m.objects[r]?, e.state = .starting → ¬ e.Owed
  | _ => True

variable {m}

theorem Ledgered.start (h : m.Ledgered) (budget : ℕ)
    (req : EngineStartRequest) (env : StartEnv)
    (ha : m.KeepsOwed budget (.start req env)) :
    (m.start budget req env).2.Ledgered := by
  unfold EngineManager.start
  split
  · exact h
  · exact h
  rename_i port pid resident hspawn
  refine h.register rfl (fun _ => req.estimate_pos) (ha ?_)
  unfold spawns
  rw [hspawn]

theorem Ledgered.foldl {α : Type} (h : m.Ledgered) (xs : List α)
    (f : EngineManager → α → EngineManager)
    (hf : ∀ m x, m.Ledgered → (f m x).Ledgered) :
    (xs.foldl f m).Ledgered := by
  induction xs generalizing m with
  | nil => exact h
  | cons x xs ih => exact ih (hf m x h)

theorem Ledgered.step (h : m.Ledgered) (budget : ℕ) (a : Action)
    (ha : m.KeepsOwed budget a) : (m.step budget a).Ledgered := by
  cases a with
  | start req env => exact h.start budget req env ha
  | stop engineId =>
    show (m.stop engineId).Ledgered
    unfold EngineManager.stop
    split
    · exact h
    · exact h.update _ (fun e _ => Engine.Keeps.of_counted rfl rfl id rfl)
  | terminate r survives =>
    show (m.terminate r survives).Ledgered
    unfold EngineManager.terminate
    split
    · exact h
    · exact h.update r (fun e _ => Engine.Keeps.of_observedDead rfl rfl rfl)
  | finishTerminate r =>
    refine h.update r (fun e _ => ?_)
    split
    · exact Engine.Keeps.of_observedDead rfl rfl ‹_›
    · exact Engine.Keeps.refl e
  | probeExited r =>
    exact h.update r (fun e _ => Engine.Keeps.of_observedDead rfl rfl rfl)
  | markStartFailure r =>
    refine h.update r (fun e _ => ?_)
    split
    · exact Engine.Keeps.of_observedDead rfl rfl ‹_›
    · exact Engine.Keeps.refl e
  | probeReady r resident =>
    refine h.update r (fun e _ => ?_)
    split
    · exact Engine.Keeps.of_counted rfl rfl id rfl
    · exact Engine.Keeps.refl e
  | probeTimeout r =>
    refine h.update r (fun e he => ?_)
    split
    · rename_i hs
      have hno : ¬ e.Owed := ha e he hs
      exact ⟨rfl, rfl, fun ho => absurd ho hno, fun ho => absurd ho hno⟩
    · exact Engine.Keeps.refl e
  | checkOnce alive resident =>
    exact h.foldl _ _ (fun m r hm =>
      hm.update r (fun e _ => e.keeps_checkOnce _ _))
  | findOrphan p =>
    show (m.findOrphan p).Ledgered
    unfold EngineManager.findOrphan
    split
    · exact h
    rename_i hnew
    refine h.register rfl (fun ho => absurd ho.1 Bool.false_ne_true) ?_
    intro e he
    have hnone : m.engines.get? p.engineId = none := by
      cases hk : m.engines.get? p.engineId with
      | none => rfl
      | some r => rw [hk] at hnew; simp at hnew
    unfold engine? at he
    rw [hnone] at he
    exact absurd he (by simp)
  | reconcile expected =>
    refine h.foldl _ _ (fun m x hm => ?_)
    split
    · exact hm
    · exact hm.update _ (fun e _ => e.keeps_reconcile _ _ _)

/-- **A start over an owed process loses it.** Its object stays on the heap and
is registered nowhere. -/
theorem Ledgered.start_loses (h : m.Ledgered) {budget : ℕ}
    {req : EngineStartRequest} {env : StartEnv}
    (hspawn : m.spawns budget req env = true) {e : Engine}
    (he : m.engine? req.engineId = some e) (ho : e.Owed) :
    ¬ (m.start budget req env).2.Accounted := by
  obtain ⟨r, hr, hobj⟩ : ∃ r, m.engines.get? req.engineId = some r
      ∧ m.objects[r]? = some e := Option.bind_eq_some_iff.mp he
  have hlt : r < m.objects.length := (List.getElem?_eq_some_iff.mp hobj).1
  unfold spawns at hspawn
  unfold EngineManager.start
  split at hspawn
  · rename_i port pid resident hdec
    rw [hdec]
    intro hacc
    obtain ⟨hmem, -⟩ := hacc r e ((List.getElem?_append_left hlt).trans hobj) ho
    obtain ⟨k, hk⟩ := Dict.mem_values.mp hmem
    simp only [EngineManager.register, spawnedEngine, Dict.get?_set] at hk
    split at hk
    · exact absurd (Option.some.inj hk) (by omega)
    rename_i hne
    -- an object is registered under its own id only
    obtain ⟨e', he', hid'⟩ := h.keyed k r hk
    obtain ⟨e'', he'', hid⟩ := h.keyed req.engineId r hr
    rw [hobj, Option.some.injEq] at he' he''
    subst he' he''
    exact hne (hid'.symm.trans hid)
  · exact absurd hspawn (by decide)

/-- **A timeout on an owed process loses it.** It is marked failed, which is
not counted, before it is terminated. -/
theorem Ledgered.probeTimeout_loses (h : m.Ledgered) {r : ℕ} {e : Engine}
    (he : m.objects[r]? = some e) (hs : e.state = .starting) (ho : e.Owed) :
    ¬ (m.probeTimeout r).Accounted := by
  intro hacc
  have hobj : (m.probeTimeout r).objects[r]? = some { e with state := .failed } := by
    rw [EngineManager.probeTimeout, objects_update, he, Option.map_some]
    simp only [if_true, if_pos hs]
  have hzero : (0 : ℕ) = e.estimateBytes := (hacc r _ hobj ho).2
  have hpos := h.estimate r e he ho
  omega

/-- **When every spawned process is accounted for**: exactly when no action lets an owed
process go. -/
theorem accounted_iff (budget : ℕ) (actions : List Action) :
    Run.Throughout (step budget) Accounted init actions
      ↔ Run.Along (step budget) (fun m a => m.KeepsOwed budget a) init
        actions := by
  refine Run.throughout_iff_along Ledgered (fun m h => h.accounted)
    (fun m a h ha => h.step budget a ha) ?_ Ledgered.init
  intro m a h ha
  cases a with
  | start req env =>
    simp only [KeepsOwed, not_forall, not_not] at ha
    obtain ⟨hspawn, e, he, ho⟩ := ha
    exact h.start_loses hspawn he ho
  | probeTimeout r =>
    simp only [KeepsOwed, not_forall, not_not] at ha
    obtain ⟨e, he, hs, ho⟩ := ha
    exact h.probeTimeout_loses he hs ho
  | _ => exact absurd trivial ha

/-- A start of the model `llm`, estimated at 6, on a node that has everything
for it. -/
def startLlm : Action :=
  .start ⟨1, "llm", none, .mlxLm, 6, by decide⟩
    ⟨true, true, 0, some 9000, some (100, none)⟩

/-- **Processes are lost**, by a start under the same id and by a probe that times out.
-/
theorem committedBytes_misses_processes :
    let restarted := Run.last (step 12) init [startLlm, .stop 1, startLlm]
    let timedOut := Run.last (step 12) init
      [startLlm, .probeTimeout 0, .terminate 0 true]
    restarted.objects.map (fun e => (decide e.Owed, e.estimateBytes))
        = [(true, 6), (true, 6)]
      ∧ restarted.committedBytes = 6
      ∧ timedOut.objects.map (fun e => (decide e.Owed, e.estimateBytes)) = [(true, 6)]
      ∧ timedOut.committedBytes = 0 := by
  decide

end EngineManager
