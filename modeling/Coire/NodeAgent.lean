import Coire.EngineManager
import Coire.ImageSupervisor
import Coire.ReservationLedger
import Coire.TrainingJournal

/-!
# The node agent: five owners of one memory budget

Engines, the image worker, reservations, training and measurements each admit work
against the same budget, and each is handed a callback that says what the others hold.
The agent wires these callbacks, and no two of them are the same: the engines and the
ledger count every other owner; the image worker counts engines and reservations, and
the whole budget as soon as training or a measurement holds anything; training is
offered what engines and reservations leave, and nothing beside an image worker or a
measurement; a measurement is offered what the other four leave, and its guard wants
three of them empty.

All calls are made under one lock, so the agent is a state machine whose steps are the
calls. What processes measure comes with the call.
-/

/-- What the processes of the owners measure, by hold or attempt. -/
structure Footprints where
  reservation : ℕ → Option ℕ
  training : ℕ → Option ℕ
  measurement : ℕ → Option ℕ

def Footprints.none : Footprints :=
  ⟨fun _ => .none, fun _ => .none, fun _ => .none⟩

structure NodeAgent where
  engines : EngineManager
  images : ImageSupervisor
  reservations : ReservationLedger
  training : TrainingJournal
  measurements : TrainingJournal

/-- An engine is stopped, its process terminated, and its death confirmed. -/
def EngineManager.stopConfirmed (m : EngineManager) (engineId : ℕ) :
    EngineManager :=
  match m.engines.get? engineId with
  | none => m
  | some r => ((m.stop engineId).terminate r false).finishTerminate r

namespace NodeAgent

def init (node : StudioName) : NodeAgent where
  engines := .init
  images := .init
  reservations := .init
  training := .init node
  measurements := .init node

variable (budget : ℕ) (n : NodeAgent) (f : Footprints)

/-- **What the five owners have committed together.** A ledger that raises
still holds what it holds. -/
def committed : ℕ :=
  n.engines.committedBytes + n.reservations.memory f.reservation
    + n.images.committedBytes budget + n.training.committedBytes f.training
    + n.measurements.committedBytes f.measurement

/-! ## The callbacks -/

/-- `held_bytes` of the ledger, which raises once a write has failed. -/
def heldBytes : Option ℕ := n.reservations.heldBytes f.reservation

def additionalCommittedBytes : Option ℕ :=
  (n.heldBytes f).map (fun held =>
    n.images.committedBytes budget + held + n.training.committedBytes f.training
      + n.measurements.committedBytes f.measurement)

/-- `other_committed_bytes` of the image worker. -/
def otherCommittedBytes : Option ℕ :=
  (n.heldBytes f).map (fun held =>
    n.engines.committedBytes + held
      + if n.training.committedBytes f.training ≠ 0
          ∨ n.measurements.committedBytes f.measurement ≠ 0 then budget
        else 0)

def committedEngineBytes : ℕ :=
  n.engines.committedBytes + n.images.committedBytes budget
    + n.training.committedBytes f.training
    + n.measurements.committedBytes f.measurement

def trainingMemoryAvailable : Option ℕ :=
  if n.images.committedBytes budget = 0
      ∧ n.measurements.committedBytes f.measurement = 0 then
    (n.heldBytes f).map (fun held =>
      budget - n.engines.committedBytes - held
        - n.measurements.committedBytes f.measurement)
  else some 0

def measurementMemoryAvailable : Option ℕ :=
  (n.heldBytes f).map (fun held =>
    budget - n.engines.committedBytes - n.images.committedBytes budget - held
      - n.training.committedBytes f.training)

def guardMeasurement : Bool :=
  decide (n.images.committedBytes budget = 0)
    && decide (n.training.committedBytes f.training = 0)
    && decide (n.heldBytes f = some 0)

/-! ## Calls -/

/-- **A call of the agent**, with what it meets outside the node's memory. The
amounts the callbacks answer are filled in by the wiring. -/
inductive Call
  | engineStart (req : EngineStartRequest) (env : StartEnv)
  | engineStopConfirmed (engineId : ℕ)
  | hold (req : ReservationRequest) (scope : HoldScope) (env : HoldEnv)
  | bindOwner (id : ℕ) (saved : Bool)
  | release (id : ℕ) (confirmed saved : Bool)
  | imageStart (req : ImageWorkerLoadRequest) (env : ImageStartEnv)
  | imageStop (instanceId : ℕ) (outcome : StopOutcome)
  /-- `admitted`: admission is open, the attempt was not rejected before, and
  a collective can be launched. -/
  | trainingPrepare (cmd : TrainingPrepareRequest) (admitted : Bool)
      (env : PrepareEnv)
  | trainingObserve (attemptId : ℕ) (liveness : TrainingLiveness)
  | trainingRelease (attemptId : ℕ)
  /-- `admitted`: also the rest of the guard, about processes and leases. -/
  | measurementPrepare (cmd : TrainingPrepareRequest) (admitted : Bool)
      (env again : PrepareEnv)
  | measurementObserve (attemptId : ℕ) (liveness : TrainingLiveness)
  | measurementRelease (attemptId : ℕ)

def imageEnv (env : ImageStartEnv) : ImageStartEnv :=
  { env with otherCommitted := n.otherCommittedBytes budget f }

def holdEnv (env : HoldEnv) : HoldEnv :=
  { env with
    engineBytes := n.committedEngineBytes budget f
    measured := f.reservation }

/-- `prepare_measurement`: the journal is written under the lock, and then
once more by the parent's `prepare`, without the guard. -/
def prepareMeasurement (cmd : TrainingPrepareRequest) (env again : PrepareEnv)
    (available : ℕ) : TrainingJournal :=
  match n.measurements.prepare cmd
      { env with memoryAvailable := available } with
  | (.error _, j) => j
  | (.ok _, j) => (j.prepare cmd again).2

/-- **One call.** A callback that raises fails the call and changes nothing. -/
def call : Call → NodeAgent
  | .engineStart req env =>
    match n.additionalCommittedBytes budget f with
    | none => n
    | some additional => { n with
        engines := (n.engines.start budget req
          { env with additional := additional }).2 }
  | .engineStopConfirmed engineId =>
    { n with engines := n.engines.stopConfirmed engineId }
  | .hold req scope env => { n with
      reservations := (n.reservations.hold budget req scope
        (n.holdEnv budget f env)).2 }
  | .bindOwner id saved =>
    { n with reservations := n.reservations.bindOwner id saved }
  | .release id confirmed saved => { n with
      reservations := (n.reservations.release id confirmed saved).2 }
  | .imageStart req env => { n with
      images := (n.images.start budget req (n.imageEnv budget f env)).2 }
  | .imageStop instanceId outcome =>
    { n with images := (n.images.stop instanceId outcome).2 }
  | .trainingPrepare cmd admitted env =>
    match admitted, n.trainingMemoryAvailable budget f with
    | true, some available => { n with
        training := (n.training.prepare cmd
          { env with memoryAvailable := available }).2 }
    | _, _ => n
  | .trainingObserve attemptId liveness =>
    { n with training := n.training.setLiveness attemptId liveness }
  | .trainingRelease attemptId =>
    { n with training := (n.training.releaseAfterDeath attemptId).2 }
  | .measurementPrepare cmd admitted env again =>
    match admitted && n.guardMeasurement budget f,
        n.measurementMemoryAvailable budget f with
    | true, some available => { n with
        measurements := n.prepareMeasurement cmd env again available }
    | _, _ => n
  | .measurementObserve attemptId liveness =>
    { n with measurements := n.measurements.setLiveness attemptId liveness }
  | .measurementRelease attemptId =>
    { n with measurements := (n.measurements.releaseAfterDeath attemptId).2 }

def step (budget : ℕ) (n : NodeAgent) (a : Footprints × Call) : NodeAgent :=
  n.call budget a.1 a.2

end NodeAgent
