import Coire.Dict

/-!
# Engine processes of a Studio

The manager keeps one `_Engine` object for each engine it knows, by engine id, and
admits a start while the bytes of the engines that may hold memory leave room for it.
Several threads hold references to the same objects: the probe that waits for readiness,
the thread that terminates a stopped engine, the health loop. A reference outlives its
place in the dictionary, so objects live in a heap, and the dictionary maps an engine id
to the place of its object.

What happens outside the manager is given with each call: whether the store has a
verified copy, the bytes other owners have committed, the port and the process a spawn
yields, and what a liveness test answers. Beside what the source keeps it is recorded of
a process that this manager spawned it, and that a liveness test has answered that it is
gone.
-/

inductive EngineState
  | starting
  | ready
  | stopping
  | stopped
  | failed
  | orphan
  deriving DecidableEq

/-- `LIVE_ENGINE_STATES`: the states that hold memory. -/
def EngineState.live : EngineState → Bool
  | .starting | .ready | .stopping => true
  | .stopped | .failed | .orphan => false

/-- The states `committed_bytes` counts. -/
def EngineState.counted (s : EngineState) : Bool :=
  s.live || decide (s = .orphan)

inductive EngineBackend
  | mlxLm
  | mlxVlm
  | mflux
  | auxiliary
  deriving DecidableEq

/-- **What an engine serves**: a model variant, and an adapter with its
manifest or neither. -/
structure InferenceTarget where
  modelId : ℕ
  variantId : ℕ
  adapterId : Option ℕ
  baseManifestSha256 : String
  adapterManifestSha256 : Option String
  exact_artifacts : adapterId.isNone = adapterManifestSha256.isNone
  deriving DecidableEq

structure Engine where
  engineId : ℕ
  slug : Option String
  target : Option InferenceTarget
  backend : EngineBackend
  port : ℕ
  pid : ℕ
  estimateBytes : ℕ
  residentBytes : Option ℕ
  state : EngineState
  spawned : Bool
  /-- A liveness test of the manager has answered that it is gone. -/
  observedDead : Bool
  deriving DecidableEq

namespace Engine

def charge (e : Engine) : ℕ :=
  if e.estimateBytes ≠ 0 then e.estimateBytes else e.residentBytes.getD 0

/-- What the engine adds to `committed_bytes`. -/
def holding (e : Engine) : ℕ :=
  if e.state.counted then e.charge else 0

/-- `_sample`: the footprint measured now. -/
def sample (e : Engine) (resident : Option ℕ) : Engine :=
  { e with residentBytes := resident }

/-- A liveness test answers that the process is gone. -/
def seenDead (e : Engine) : Engine := { e with observedDead := true }

/-- One engine in `check_once`: a death is noticed, and marked unless the
ready-probe thread owns that transition; else the footprint is refreshed. -/
def checkOnce (e : Engine) (alive : Bool) (resident : Option ℕ) : Engine :=
  if e.state = .ready ∨ e.state = .starting ∨ e.state = .orphan then
    if alive then e.sample resident
    else if e.state = .starting then e.seenDead
    else { e.seenDead with state := .failed, residentBytes := none }
  else e

end Engine

structure EngineStartRequest where
  engineId : ℕ
  slug : String
  target : Option InferenceTarget
  backend : EngineBackend
  estimateBytes : ℕ
  /-- `estimate_bytes: int = Field(ge=1)`. -/
  estimate_pos : 1 ≤ estimateBytes

structure StartEnv where
  /-- `_admission_check` does not raise. -/
  admissionOpen : Bool
  /-- The store has a verified copy, unchanged since it was verified, and the
  exact adapter artifact. -/
  copyVerified : Bool
  /-- `_additional_committed_bytes`. -/
  additional : ℕ
  /-- `_allocate_port`, `none` where no port is free. -/
  port : Option ℕ
  /-- The process `Popen` starts and its footprint, `none` where it raises. -/
  process : Option (ℕ × Option ℕ)

inductive StartError
  | admissionClosed
  | backendMismatch (detail : String)
  | copyMissing
  | budgetExceeded (required committed budget : ℕ)
  | noFreePort
  | spawnFailed
  deriving DecidableEq

/-- What `start` does when it does not refuse. -/
inductive StartDecision
  | alreadyRunning
  | spawn (port pid : ℕ) (resident : Option ℕ)
  deriving DecidableEq

structure ReconcileExpectation where
  engineId : ℕ
  slug : String
  backend : EngineBackend
  target : Option InferenceTarget
  deriving DecidableEq

def ReconcileExpectation.Matches (x : ReconcileExpectation) (e : Engine) :
    Prop :=
  e.target = x.target ∧ e.slug = some x.slug ∧ e.backend = x.backend
  deriving Decidable

/-- One expectation in `reconcile`, with the answers of its two liveness
tests. -/
def Engine.reconcile (e : Engine) (x : ReconcileExpectation)
    (alive alive' : Bool) : Engine :=
  if alive ∧ ¬ x.Matches e then { e with state := .orphan }
  else if x.Matches e ∧ alive' then
    if alive then e else e.seenDead
  else if e.state = .stopped ∨ e.state = .failed then e.seenDead
  else { e.seenDead with state := .failed }

structure OrphanProcess where
  engineId : ℕ
  slug : Option String
  backend : EngineBackend
  port : ℕ
  pid : ℕ
  resident : Option ℕ

/-- **The manager**: the objects, and `_engines`, from engine ids to them. -/
structure EngineManager where
  objects : List Engine
  engines : Dict ℕ ℕ

namespace EngineManager

def init : EngineManager := ⟨[], Dict.empty⟩

variable (m : EngineManager)

def engine? (engineId : ℕ) : Option Engine :=
  (m.engines.get? engineId).bind (fun r => m.objects[r]?)

def registered : List Engine :=
  m.engines.values.filterMap (fun r => m.objects[r]?)

/-- What one object adds to `committed_bytes`. -/
def holdingAt (r : ℕ) : ℕ := (m.objects[r]?).elim 0 Engine.holding

/-- **`committed_bytes`**: the engines that may hold memory, at their
estimates. -/
def committedBytes : ℕ := m.engines.total (fun _ r => m.holdingAt r)

def serving? (slug : String) (target : Option InferenceTarget)
    (engineId : Option ℕ) : Option Engine :=
  m.registered.find? (fun e =>
    decide (e.slug = some slug) && decide (e.target = target)
      && engineId.all (fun i => decide (e.engineId = i))
      && (decide (e.state = .starting) || decide (e.state = .ready)))

def startDecision (budget : ℕ) (req : EngineStartRequest) (env : StartEnv) :
    Except StartError StartDecision :=
  if env.admissionOpen = false then .error .admissionClosed
  else if (m.engine? req.engineId).any (fun e =>
      decide (e.slug ≠ some req.slug) || decide (e.target ≠ req.target)) then
    .error (.backendMismatch "engine identity already binds another target")
  else
    match m.serving? req.slug req.target
        (if req.target.isSome then some req.engineId else none) with
    | some e =>
      if e.backend ≠ req.backend then
        .error (.backendMismatch "model is already served by another backend")
      else .ok .alreadyRunning
    | none =>
      if env.copyVerified = false then .error .copyMissing
      else if req.target.any (fun t => t.adapterId.isSome)
          && decide (req.backend ≠ .mlxLm) then
        .error (.backendMismatch "adapter serving requires the text backend")
      else
        let committed := m.committedBytes + env.additional
        if budget < committed + req.estimateBytes then
          .error (.budgetExceeded req.estimateBytes committed budget)
        else
          match env.port, env.process with
          | none, _ => .error .noFreePort
          | some _, none => .error .spawnFailed
          | some port, some (pid, resident) => .ok (.spawn port pid resident)

def register (e : Engine) : EngineManager :=
  ⟨m.objects ++ [e], m.engines.set e.engineId m.objects.length⟩

def update (r : ℕ) (f : Engine → Engine) : EngineManager :=
  { m with objects := m.objects.modify r f }

def spawnedEngine (req : EngineStartRequest) (port pid : ℕ)
    (resident : Option ℕ) : Engine where
  engineId := req.engineId
  slug := some req.slug
  target := req.target
  backend := req.backend
  port := port
  pid := pid
  estimateBytes := req.estimateBytes
  residentBytes := resident
  state := .starting
  spawned := true
  observedDead := false

/-- **`start`**: whether the engine was already running, and the new state. An
entry of the same id is replaced. -/
def start (budget : ℕ) (req : EngineStartRequest) (env : StartEnv) :
    Except StartError Bool × EngineManager :=
  match m.startDecision budget req env with
  | .error e => (.error e, m)
  | .ok .alreadyRunning => (.ok true, m)
  | .ok (.spawn port pid resident) =>
    (.ok false, m.register (spawnedEngine req port pid resident))

def stop (engineId : ℕ) : EngineManager :=
  match m.engines.get? engineId with
  | none => m
  | some r => m.update r (fun e => { e with state := .stopping })

/-- `_terminate` up to its last liveness test: the process survives `SIGKILL`,
or it is gone. -/
def terminate (r : ℕ) (survives : Bool) : EngineManager :=
  if survives then m else m.update r Engine.seenDead

/-- The end of `_terminate`, reached once the process is gone. -/
def finishTerminate (r : ℕ) : EngineManager :=
  m.update r (fun e => if e.observedDead then
    { e with state := .stopped, residentBytes := none } else e)

def probeExited (r : ℕ) : EngineManager := m.update r Engine.seenDead

/-- `_mark_start_failure`, reached once the process exited. -/
def markStartFailure (r : ℕ) : EngineManager :=
  m.update r (fun e => if e.observedDead then
    { e with state := .failed } else e)

def probeReady (r : ℕ) (resident : Option ℕ) : EngineManager :=
  m.update r (fun e => if e.state = .starting then
    { e.sample resident with state := .ready } else e)

/-- The readiness probe times out, if the engine is still starting; it goes on
to terminate it. -/
def probeTimeout (r : ℕ) : EngineManager :=
  m.update r (fun e => if e.state = .starting then
    { e with state := .failed } else e)

/-- **`check_once`**: one health pass over the registered engines. -/
def checkOnce (alive : ℕ → Bool) (resident : ℕ → Option ℕ) : EngineManager :=
  m.engines.values.foldl (fun m r =>
    m.update r (fun e => e.checkOnce (alive r) (resident r))) m

/-- `find_orphans`, one discovered process: registered as an orphan unless its
pid is known. -/
def findOrphan (p : OrphanProcess) : EngineManager :=
  if m.registered.any (fun e => decide (e.pid = p.pid))
      || (m.engines.get? p.engineId).isSome then m
  else
    m.register
      { engineId := p.engineId
        slug := p.slug
        target := none
        backend := p.backend
        port := p.port
        pid := p.pid
        estimateBytes := 0
        residentBytes := p.resident
        state := .orphan
        spawned := false
        observedDead := false }

/-- **`reconcile`**, after the orphans are found: the loop over what the
registry expects. -/
def reconcile (expected : List (ReconcileExpectation × Bool × Bool)) :
    EngineManager :=
  expected.foldl (fun m x =>
    match m.engines.get? x.1.engineId with
    | none => m
    | some r => m.update r (fun e => e.reconcile x.1 x.2.1 x.2.2)) m

end EngineManager
