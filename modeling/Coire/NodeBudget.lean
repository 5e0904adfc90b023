import Coire.NodeAgent
import Coire.Run

/-!
# A Studio is never over-committed

The callbacks of the agent differ from owner to owner, but they agree in what
matters: whichever owner admits work, what the five owners then have committed
together fits the budget (`NodeAgent.committed_le_budget`). An image worker is
never admitted beside training or a measurement, nor the other way round.

Footprints enter only where a process measures more than was recorded for it.
With the recorded amounts never exceeded, each owner's committed bytes are
what it recorded, and every call either leaves the recorded amounts of its
owner no larger or was admitted against all the others.
-/

/-! ## Engines -/

namespace EngineManager

def Placed (m : EngineManager) : Prop :=
  ∀ k r, m.engines.get? k = some r → r < m.objects.length

variable {m : EngineManager}

theorem holding_spawnedEngine (req : EngineStartRequest) (port pid : ℕ)
    (resident : Option ℕ) :
    (spawnedEngine req port pid resident).holding = req.estimateBytes := by
  have h := req.estimate_pos
  show (if req.estimateBytes ≠ 0 then req.estimateBytes else _) = _
  rw [if_pos (by omega)]

theorem Placed.register (hm : m.Placed) (e : Engine) : (m.register e).Placed
      ∧ (m.register e).committedBytes ≤ m.committedBytes + e.holding := by
  constructor
  · intro k r hk
    show r < (m.objects ++ [e]).length
    rw [List.length_append, List.length_singleton]
    replace hk : (m.engines.set e.engineId m.objects.length).get? k = some r :=
      hk
    rw [Dict.get?_set] at hk
    split at hk
    · grind
    · exact Nat.lt_succ_of_lt (hm k r hk)
  · have hold : m.engines.total (fun _ r => (m.register e).holdingAt r)
        = m.committedBytes := by
      refine Dict.total_congr (fun k r hk => ?_)
      show ((m.objects ++ [e])[r]?).elim 0 _ = (m.objects[r]?).elim 0 _
      rw [List.getElem?_append_left (hm k r hk)]
    have hnew : (m.register e).holdingAt m.objects.length = e.holding := by
      show ((m.objects ++ [e])[m.objects.length]?).elim 0 _ = _
      rw [List.getElem?_concat_length, Option.elim_some]
    have hset := m.engines.total_set e.engineId m.objects.length
      (fun _ r => (m.register e).holdingAt r)
    rw [hold, hnew] at hset
    show (m.engines.set e.engineId m.objects.length).total _ ≤ _
    omega

theorem Placed.start (hm : m.Placed) (budget : ℕ) (req : EngineStartRequest)
    (env : StartEnv) :
    (m.start budget req env).2.Placed
      ∧ ((m.start budget req env).2.committedBytes ≤ m.committedBytes
        ∨ (m.start budget req env).2.committedBytes + env.additional ≤ budget) := by
  unfold EngineManager.start
  split
  · exact ⟨hm, Or.inl le_rfl⟩
  · exact ⟨hm, Or.inl le_rfl⟩
  rename_i port pid resident hdec
  have hroom : m.committedBytes + env.additional + req.estimateBytes ≤ budget := by
    grind [startDecision]
  obtain ⟨hplaced, hle⟩ := hm.register (spawnedEngine req port pid resident)
  rw [holding_spawnedEngine] at hle
  refine ⟨hplaced, Or.inr ?_⟩
  show (m.register _).committedBytes + env.additional ≤ budget
  omega

theorem Placed.stopConfirmed (hm : m.Placed) (engineId : ℕ) :
    (m.stopConfirmed engineId).Placed
      ∧ (m.stopConfirmed engineId).committedBytes ≤ m.committedBytes := by
  unfold EngineManager.stopConfirmed
  split
  · exact ⟨hm, le_rfl⟩
  rename_i r hr
  have hobjects : (((m.stop engineId).terminate r false).finishTerminate
      r).objects = m.objects.modify r (fun e => { e with
        state := .stopped, residentBytes := none, observedDead := true }) := by
    unfold EngineManager.stop
    rw [hr]
    show ((m.objects.modify r _).modify r _).modify r _ = _
    rw [List.modify_modify_eq, List.modify_modify_eq]
    rfl
  have hengines : (((m.stop engineId).terminate r false).finishTerminate
      r).engines = m.engines := by
    unfold EngineManager.stop
    rw [hr]
    rfl
  refine ⟨fun k j hk => ?_, ?_⟩
  · rw [hobjects, List.length_modify]
    exact hm k j (hengines ▸ hk)
  unfold committedBytes
  rw [hengines]
  refine Dict.total_le_total (fun k j hk => ?_)
  rw [Dict.weight, hk, Option.elim_some, holdingAt, holdingAt, hobjects,
    List.getElem?_modify]
  cases m.objects[j]? with
  | none => exact le_rfl
  | some e =>
    show (if r = j then _ else e).holding ≤ e.holding
    split
    · exact Nat.zero_le _
    · exact le_rfl

end EngineManager

namespace NodeAgent

/-! ## Recorded amounts -/

structure Within (n : NodeAgent) (f : Footprints) : Prop where
  reservation : ∀ id h, n.reservations.items.get? id = some h →
    h.reservation.state ≠ .released → id ∈ n.reservations.owners →
      (f.reservation id).getD 0 ≤ h.reservation.memoryBytes
  training : ∀ id a, n.training.attempts.get? id = some a →
    a.released = false → (f.training id).getD 0 ≤ a.memoryBytes
  measurement : ∀ id a, n.measurements.attempts.get? id = some a →
    a.released = false → (f.measurement id).getD 0 ≤ a.memoryBytes

theorem within_none (n : NodeAgent) : n.Within Footprints.none :=
  ⟨fun _ _ _ _ _ => Nat.zero_le _, fun _ _ _ _ => Nat.zero_le _,
    fun _ _ _ _ => Nat.zero_le _⟩

/-- **A node on which nothing is committed.** Work that ended may have left its
records. -/
structure Idle (budget : ℕ) (n : NodeAgent) : Prop where
  placed : n.engines.Placed
  settled : n.images.Settled
  committed : n.committed budget Footprints.none = 0

theorem idle_init (budget : ℕ) (node : StudioName) : (init node).Idle budget :=
  ⟨fun _ _ h => absurd h (by simp [init, EngineManager.init]),
    fun h => absurd h (by simp [init, ImageSupervisor.init]), rfl⟩

variable {budget : ℕ} {n : NodeAgent} {f : Footprints}

namespace Within

variable (h : n.Within f)
include h

theorem memory_eq : n.reservations.memory f.reservation = n.reservations.recorded :=
  ReservationLedger.memory_eq_recorded h.reservation

theorem training_eq : n.training.committedBytes f.training = n.training.recorded :=
  TrainingJournal.committedBytes_eq_recorded h.training

theorem measurement_eq :
    n.measurements.committedBytes f.measurement = n.measurements.recorded :=
  TrainingJournal.committedBytes_eq_recorded h.measurement

theorem heldBytes_eq {held : ℕ} (hheld : n.heldBytes f = some held) :
    held = n.reservations.recorded := by
  unfold heldBytes ReservationLedger.heldBytes at hheld
  split at hheld
  · exact absurd hheld (by simp)
  · rw [← Option.some.inj hheld, h.memory_eq]

theorem committed_eq : n.committed budget f
    = n.engines.committedBytes + n.reservations.recorded
      + n.images.committedBytes budget + n.training.recorded
      + n.measurements.recorded := by
  unfold committed
  rw [h.memory_eq, h.training_eq, h.measurement_eq]

theorem additional_eq {additional : ℕ}
    (ha : n.additionalCommittedBytes budget f = some additional) :
    additional = n.images.committedBytes budget + n.reservations.recorded
      + n.training.recorded + n.measurements.recorded := by
  obtain ⟨held, hheld, rfl⟩ := Option.map_eq_some_iff.mp ha
  rw [h.heldBytes_eq hheld, h.training_eq, h.measurement_eq]

theorem committedEngineBytes_eq : n.committedEngineBytes budget f
    = n.engines.committedBytes + n.images.committedBytes budget
      + n.training.recorded + n.measurements.recorded := by
  unfold committedEngineBytes
  rw [h.training_eq, h.measurement_eq]

theorem apart_of_admits {req : ImageWorkerLoadRequest} {env : ImageStartEnv}
    (hadm : n.images.admits budget req (n.imageEnv budget f env) = true) :
    n.training.recorded = 0 ∧ n.measurements.recorded = 0
      ∧ n.engines.committedBytes + n.reservations.recorded
        + req.reservationBytes ≤ budget := by
  obtain ⟨-, -, -, other, hother, hroom⟩ := ImageSupervisor.free_of_admits hadm
  obtain ⟨held, hheld, rfl⟩ := Option.map_eq_some_iff.mp hother
  rw [h.heldBytes_eq hheld, h.training_eq, h.measurement_eq] at hroom
  have hpos := req.reservation_pos
  split at hroom
  · omega
  · grind

theorem apart_of_trainingMemory {available : ℕ} (hpos : 0 < available)
    (ha : n.trainingMemoryAvailable budget f = some available) :
    n.images.committedBytes budget = 0 ∧ n.measurements.recorded = 0 ∧ available
        = budget - n.engines.committedBytes - n.reservations.recorded := by
  unfold trainingMemoryAvailable at ha
  rw [h.measurement_eq] at ha
  split at ha
  · rename_i hfree
    obtain ⟨held, hheld, rfl⟩ := Option.map_eq_some_iff.mp ha
    rw [h.heldBytes_eq hheld]
    exact ⟨hfree.1, hfree.2, by omega⟩
  · grind

theorem apart_of_guard (hg : n.guardMeasurement budget f = true) {available : ℕ}
    (ha : n.measurementMemoryAvailable budget f = some available) :
    n.images.committedBytes budget = 0 ∧ available = budget - n.engines.committedBytes
        - n.reservations.recorded - n.training.recorded := by
  unfold guardMeasurement at hg
  rw [Bool.and_eq_true, Bool.and_eq_true, decide_eq_true_eq] at hg
  obtain ⟨held, hheld, rfl⟩ := Option.map_eq_some_iff.mp ha
  rw [h.heldBytes_eq hheld, h.training_eq, hg.1.1]
  exact ⟨rfl, by omega⟩

end Within

/-! ## One call, and runs -/

structure Fits (budget : ℕ) (n : NodeAgent) : Prop where
  placed : n.engines.Placed
  settled : n.images.Settled
  total : n.engines.committedBytes + n.reservations.recorded
    + n.images.committedBytes budget + n.training.recorded
    + n.measurements.recorded ≤ budget
  apart : n.images.committedBytes budget = 0
    ∨ n.training.recorded = 0 ∧ n.measurements.recorded = 0

theorem Idle.fits (h : n.Idle budget) : n.Fits budget := by
  have hzero := h.committed
  rw [(within_none n).committed_eq] at hzero
  exact ⟨h.placed, h.settled, by omega, by omega⟩

namespace Fits

variable (h : n.Fits budget)
include h

/-! Each owner may shrink, or grow to what was admitted beside the others. -/

theorem engines {m : EngineManager} (hm : m.Placed)
    (hle : m.committedBytes ≤ n.engines.committedBytes
      ∨ m.committedBytes + (n.images.committedBytes budget
        + n.reservations.recorded + n.training.recorded
        + n.measurements.recorded) ≤ budget) :
    Fits budget { n with engines := m } := by
  refine ⟨hm, h.settled, ?_, h.apart⟩
  have htotal := h.total
  dsimp only
  omega

theorem reservations {l : ReservationLedger} (hle : l.recorded ≤ n.reservations.recorded
      ∨ n.engines.committedBytes + n.images.committedBytes budget
        + n.training.recorded + n.measurements.recorded + l.recorded
        ≤ budget) :
    Fits budget { n with reservations := l } := by
  refine ⟨h.placed, h.settled, ?_, h.apart⟩
  have htotal := h.total
  dsimp only
  omega

theorem images {w : ImageSupervisor} (hw : w.Settled)
    (hle : w.committedBytes budget ≤ n.images.committedBytes budget
      ∨ n.training.recorded = 0 ∧ n.measurements.recorded = 0
        ∧ n.engines.committedBytes + n.reservations.recorded
          + w.committedBytes budget ≤ budget) :
    Fits budget { n with images := w } := by
  have htotal := h.total
  have hapart := h.apart
  refine ⟨h.placed, hw, ?_, ?_⟩
  · dsimp only
    omega
  · dsimp only
    omega

theorem training {j : TrainingJournal} (hle : j.recorded ≤ n.training.recorded
      ∨ n.images.committedBytes budget = 0 ∧ n.measurements.recorded = 0
        ∧ n.engines.committedBytes + n.reservations.recorded + j.recorded ≤ budget) :
    Fits budget { n with training := j } := by
  have htotal := h.total
  have hapart := h.apart
  refine ⟨h.placed, h.settled, ?_, ?_⟩
  · dsimp only
    omega
  · dsimp only
    omega

theorem measurements {j : TrainingJournal} (hle : j.recorded ≤ n.measurements.recorded
      ∨ n.images.committedBytes budget = 0
        ∧ n.engines.committedBytes + n.reservations.recorded
          + n.training.recorded + j.recorded ≤ budget) :
    Fits budget { n with measurements := j } := by
  have htotal := h.total
  have hapart := h.apart
  refine ⟨h.placed, h.settled, ?_, ?_⟩
  · dsimp only
    omega
  · dsimp only
    omega

end Fits

theorem prepareMeasurement_eq (n : NodeAgent) (cmd : TrainingPrepareRequest)
    (env again : PrepareEnv) (available : ℕ) :
    n.prepareMeasurement cmd env again available = (n.measurements.prepare cmd
        { env with memoryAvailable := available }).2 := by
  unfold prepareMeasurement
  split
  · rename_i hp
    rw [hp]
  rename_i hp
  obtain ⟨c, hc⟩ := TrainingJournal.accepted_of_prepare hp
  rw [hp]
  exact TrainingJournal.prepare_accepted hc again

theorem Fits.engineStart (h : n.Fits budget) (hf : n.Within f)
    (req : EngineStartRequest) (env : StartEnv) :
    (n.call budget f (.engineStart req env)).Fits budget := by
  unfold NodeAgent.call
  dsimp only
  split
  · exact h
  rename_i additional ha
  obtain ⟨hplaced, hle⟩ := h.placed.start budget req
    { env with additional := additional }
  refine h.engines hplaced ?_
  rw [← hf.additional_eq ha]
  exact hle

theorem Fits.imageStart (h : n.Fits budget) (hf : n.Within f)
    (req : ImageWorkerLoadRequest) (env : ImageStartEnv) :
    (n.call budget f (.imageStart req env)).Fits budget := by
  obtain ⟨hsettled, hsame | ⟨hadm, -, heq⟩⟩ :=
    ImageSupervisor.start_committedBytes h.settled budget req (n.imageEnv budget f env)
  · exact h.images hsettled (Or.inl (by rw [hsame]))
  · refine h.images hsettled (Or.inr ?_)
    rw [heq]
    exact hf.apart_of_admits hadm

theorem Fits.trainingPrepare (h : n.Fits budget) (hf : n.Within f)
    (cmd : TrainingPrepareRequest) (admitted : Bool) (env : PrepareEnv) :
    (n.call budget f (.trainingPrepare cmd admitted env)).Fits budget := by
  unfold NodeAgent.call
  dsimp only
  split
  · rename_i available ha
    refine h.training ?_
    obtain hsame | ⟨-, hpos, hle⟩ := n.training.prepare_recorded cmd
      { env with memoryAvailable := available }
    · exact Or.inl hsame.le
    · obtain ⟨hi, hm, rfl⟩ := hf.apart_of_trainingMemory hpos ha
      dsimp only at hpos hle
      exact Or.inr ⟨hi, hm, by omega⟩
  · exact h

theorem Fits.measurementPrepare (h : n.Fits budget) (hf : n.Within f)
    (cmd : TrainingPrepareRequest) (admitted : Bool) (env again : PrepareEnv) :
    (n.call budget f (.measurementPrepare cmd admitted env again)).Fits
      budget := by
  unfold NodeAgent.call
  dsimp only
  split
  · rename_i available hg ha
    rw [prepareMeasurement_eq]
    refine h.measurements ?_
    obtain hsame | ⟨-, hpos, hle⟩ := n.measurements.prepare_recorded cmd
      { env with memoryAvailable := available }
    · exact Or.inl hsame.le
    · obtain ⟨hi, rfl⟩ := hf.apart_of_guard (Bool.and_eq_true _ _ ▸ hg).2 ha
      dsimp only at hpos hle
      exact Or.inr ⟨hi, by omega⟩
  · exact h

theorem Fits.call (h : n.Fits budget) (hf : n.Within f) (c : Call) :
    (n.call budget f c).Fits budget := by
  cases c with
  | engineStart req env => exact h.engineStart hf req env
  | engineStopConfirmed engineId =>
    obtain ⟨hplaced, hle⟩ := h.placed.stopConfirmed engineId
    exact h.engines hplaced (Or.inl hle)
  | hold req scope env =>
    refine h.reservations ?_
    rw [← hf.committedEngineBytes_eq]
    exact (ReservationLedger.hold_recorded budget req scope
      (show n.reservations.memory (n.holdEnv budget f env).measured = _
        from hf.memory_eq)).imp_left le_of_eq
  | bindOwner id saved =>
    exact h.reservations (Or.inl (n.reservations.bindOwner_recorded id saved).le)
  | release id confirmed saved =>
    exact h.reservations
      (Or.inl (n.reservations.release_recorded_le id confirmed saved))
  | imageStart req env => exact h.imageStart hf req env
  | imageStop instanceId outcome =>
    obtain ⟨hsettled, hle⟩ := ImageSupervisor.stop_committedBytes h.settled
      budget instanceId outcome
    exact h.images hsettled (Or.inl hle)
  | trainingPrepare cmd admitted env => exact h.trainingPrepare hf cmd _ env
  | trainingObserve attemptId liveness =>
    exact h.training (Or.inl (n.training.setLiveness_recorded attemptId liveness).le)
  | trainingRelease attemptId =>
    exact h.training (Or.inl (n.training.releaseAfterDeath_recorded_le attemptId))
  | measurementPrepare cmd admitted env again =>
    exact h.measurementPrepare hf cmd _ env again
  | measurementObserve attemptId liveness =>
    exact h.measurements
      (Or.inl (n.measurements.setLiveness_recorded attemptId liveness).le)
  | measurementRelease attemptId =>
    exact h.measurements
      (Or.inl (n.measurements.releaseAfterDeath_recorded_le attemptId))

/-- The image worker holds nothing, or training and measurements do not. -/
def Apart (budget : ℕ) (n : NodeAgent) (f : Footprints) : Prop :=
  n.images.committedBytes budget = 0
    ∨ n.training.committedBytes f.training = 0
      ∧ n.measurements.committedBytes f.measurement = 0

/-- **An image start is admitted only beside no training and no
measurement.** -/
def ImageAlone (budget : ℕ) (n : NodeAgent) : Footprints × Call → Prop
  | (f, .imageStart req env) =>
    n.images.admits budget req (n.imageEnv budget f env) = true →
      n.training.committedBytes f.training = 0
        ∧ n.measurements.committedBytes f.measurement = 0
  | _ => True

/-- **A Studio is never over-committed**, over any sequence of calls whose footprints
stay within the recorded amounts, and an image worker does not share it with training or
a measurement. -/
theorem committed_le_budget (budget : ℕ) (n : NodeAgent) (hn : n.Idle budget)
    (calls : List (Footprints × Call))
    (hc : Run.Along (step budget) (fun n a => n.Within a.1) n calls) :
    Run.Throughout (step budget) (fun n => ∀ f, n.Within f →
          n.committed budget f ≤ budget ∧ n.Apart budget f) n calls
      ∧ Run.Along (step budget) (ImageAlone budget) n calls := by
  have hstep : ∀ (n : NodeAgent) (a : Footprints × Call), n.Fits budget →
      n.Within a.1 → (step budget n a).Fits budget :=
    fun n a h hf => h.call hf a.2
  constructor
  · refine Run.throughout_of_invariant (Fits budget) ?_ hstep hn.fits hc
    intro n h f hf
    refine ⟨?_, ?_⟩
    · rw [hf.committed_eq]
      exact h.total
    · unfold Apart
      rw [hf.training_eq, hf.measurement_eq]
      exact h.apart
  · refine Run.along_of_invariant (Fits budget) hstep ?_ hn.fits hc
    rintro n ⟨f, c⟩ - hf
    cases c with
    | imageStart req env =>
      intro hadm
      obtain ⟨ht, hm, -⟩ := hf.apart_of_admits hadm
      exact ⟨hf.training_eq.trans ht, hf.measurement_eq.trans hm⟩
    | _ => trivial

/-- An engine of 4 is started, training of 5 prepared, and an image worker of
1 asked for. -/
def busyCalls : List (Footprints × Call) :=
  [(.none, .engineStart ⟨1, "llm", none, .mlxLm, 4, by decide⟩
      ⟨true, true, 0, some 9000, some (100, none)⟩),
    (.none, .trainingPrepare
      ⟨1, 1, 1, 1, 0, .edgeA, 0, 1, 20000000,
        ⟨1, 1, 1, 1, 0, 1, 1, Nat.one_pos, Nat.one_pos, Nat.one_pos,
          Nat.one_pos, Nat.one_pos, Nat.one_pos⟩, 1, false, 0⟩ true
        ⟨0, 0, 100, 10⟩),
    (.none, .imageStart ⟨7, "manifest", "mflux-0.20.0", 1, Nat.one_pos⟩
      ⟨true, true, none, .recorded⟩)]

theorem committed_le_budget_busy :
    let last := Run.last (step 10) (init .edgeA) busyCalls
    last.committed 10 .none = 9 ∧ last.images.committedBytes 10 = 0
      ∧ Run.Throughout (step 10) (fun n => ∀ f, n.Within f →
          n.committed 10 f ≤ 10 ∧ n.Apart 10 f) (init .edgeA) busyCalls
      ∧ Run.Along (step 10) (ImageAlone 10) (init .edgeA) busyCalls :=
  ⟨by decide, by decide, committed_le_budget 10 (init .edgeA)
    (idle_init 10 .edgeA) busyCalls
    ⟨within_none _, within_none _, within_none _, trivial⟩⟩

end NodeAgent
