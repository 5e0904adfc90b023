import Mathlib.Data.List.Sort
import Coire.Dict
import Coire.Run

/-!
# A training job and its attempts

A training job owns a numbered sequence of *attempts*: each takes a fence one past the
last, starts from the job's latest checkpoint and trains on one or two Studios. The
job's row, its attempts and its checkpoints are read and written by many hands, one
database transaction at a time, each under the lock of the job's row. The model is that
row machine: a state is one job with its attempts and checkpoints, a label is one
transaction with what it found outside these tables.

A checkpoint is *complete* when its `completed_update` is the job's number of
optimizer updates. Only `advance_training` ends a job from there, and only when
it finds it running or recovering with no attempt left (`finalizable`).
-/

namespace TrainingJobs

inductive TrainingJobState
  | queued | preflighting | reserving | running | pausing | paused
  | recovering | finalizing | cancelling | succeeded | failed | cancelled
  deriving DecidableEq, Repr

def TrainingJobState.terminal (x : TrainingJobState) : Bool :=
  x ∈ [.succeeded, .failed, .cancelled]

inductive AttemptState
  | preparing | running | stopping | unknown | stopped
  deriving DecidableEq, Repr

def AttemptState.active (x : AttemptState) : Bool :=
  x ∈ [.preparing, .running, .stopping, .unknown]

inductive CheckpointState
  | staging | replicating | committed | corrupt | purged
  deriving DecidableEq, Repr

inductive PauseOrigin
  | admin | protective | evaluation
  deriving DecidableEq, Repr

structure TrainingCheckpointRow where
  attemptId : ℕ
  fence : ℕ
  completedUpdate : ℕ
  state : CheckpointState
  deriving DecidableEq

/-- A `TrainingAttemptRow`, with what its participants' rows say of each rank. -/
structure TrainingAttemptRow where
  fence : ℕ
  worldSize : ℕ
  state : AttemptState
  resumeCheckpointId : Option ℕ
  pids : List ℕ
  startReceipts : List ℕ
  stopProofs : List ℕ
  deriving DecidableEq

/-- A `TrainingJobRow`; `updates` and `checkpointUpdates` are its resolved
specification's optimizer updates and evaluation boundaries. -/
structure TrainingJobRow where
  updates : ℕ
  checkpointUpdates : List ℕ
  state : TrainingJobState
  fence : ℕ
  latestCheckpointId : Option ℕ
  completedUpdate : ℕ
  pauseOrigin : Option PauseOrigin
  recoveryAttempts : ℕ
  deriving DecidableEq

/-- One job with its attempts and its checkpoints, each in the order they were
created. -/
structure State where
  job : TrainingJobRow
  attempts : Dict ℕ TrainingAttemptRow
  checkpoints : Dict ℕ TrainingCheckpointRow

def State.submitted (updates : ℕ) (checkpointUpdates : List ℕ) : State :=
  ⟨⟨updates, checkpointUpdates, .queued, 0, none, 0, none, 0⟩,
    .empty, .empty⟩

/-! ## The rows -/

def State.active (s : State) : Option ℕ :=
  (s.attempts.items.find? fun e => e.2.state.active).map Prod.fst

def State.setState (s : State) (x : TrainingJobState) : State :=
  { s with job := { s.job with state := x } }

def State.setAttempt (s : State) (a : ℕ) (x : AttemptState) : State :=
  { s with attempts := s.attempts.modify a fun A => { A with state := x } }

def State.setCheckpoint (s : State) (c : ℕ) (x : CheckpointState) : State :=
  { s with
    checkpoints := s.checkpoints.modify c fun C => { C with state := x } }

/-- `enqueue_controls(…, "stop")`: the attempt is being stopped, unless it is
proved stopped already. -/
def enqueueStop (s : State) (a : ℕ) : State :=
  match s.attempts.get? a with
  | some A => if A.state = .stopped then s else s.setAttempt a .stopping
  | none => s

/-! ## Checkpoints -/

/-- `current_attempt`: what an observation of the worker must belong to;
`leased` says that the attempt's lease has not run out. -/
def currentAttempt (s : State) (a fence : ℕ) (leased : Bool) : Bool :=
  match s.attempts.get? a with
  | some A =>
    A.fence = fence ∧ s.job.fence = fence ∧ A.state ∈ [.running, .stopping]
      ∧ s.job.state ∈ [.running, .pausing] ∧ leased
  | none => false

/-- `stage_checkpoint`, from the event of a worker that has just carried out
`update`: a worker carries out no more updates than its job has. -/
def stageCheckpoint (s : State) (c a update : ℕ) (leased : Bool) : State :=
  if !currentAttempt s a s.job.fence leased || update > s.job.updates then s
  else if (s.checkpoints.get? c).isSome then s
  else if s.checkpoints.values.any fun C =>
      C.attemptId = a ∧ C.completedUpdate = update then s
  else
    { s with
      checkpoints := s.checkpoints.set c ⟨a, s.job.fence, update, .staging⟩ }

/-- Whether the checkpoint is a boundary at which an evaluation is due;
`refused` when `ensure_checkpoint_trigger` raises, `existing` when the trigger
is there already. -/
inductive Trigger
  | none | existing | created | refused
  deriving DecidableEq

/-- `ensure_checkpoint_trigger`: at a declared boundary a running job is paused
for its evaluation. -/
def ensureCheckpointTrigger (s : State) (C : TrainingCheckpointRow)
    (trigger : Trigger) : Option State :=
  if C.completedUpdate ∈ s.job.checkpointUpdates then
    match trigger with
    | .refused => none
    | .created =>
      if s.job.state = .running ∧ s.job.pauseOrigin = none then
        some { s with job := { s.job with
          state := .pausing, pauseOrigin := some .evaluation } }
      else some s
    | _ => some s
  else some s

def further (s : State) (C : TrainingCheckpointRow) : Bool :=
  match s.job.latestCheckpointId.bind s.checkpoints.get? with
  | some L => L.completedUpdate < C.completedUpdate
  | none => true

/-- `commit_checkpoint`: committed, it is the latest if it is further than the one
before. A refused trigger takes the whole transaction back. -/
def commitCheckpoint (s : State) (c : ℕ) (leased verified : Bool)
    (trigger : Trigger) : State :=
  match s.checkpoints.get? c with
  | none => s
  | some C =>
    if C.state = .committed then
      (ensureCheckpointTrigger s C trigger).getD s
    else if !currentAttempt s C.attemptId C.fence leased
        || C.state ∉ [.staging, .replicating] || !verified then s
    else
      let latest := if further s C then some c else s.job.latestCheckpointId
      let s' := s.setCheckpoint c .committed
      let s' := { s' with job := { s.job with latestCheckpointId := latest } }
      (ensureCheckpointTrigger s' C trigger).getD s

/-- The committed checkpoints, the furthest first and the newest first among
equals. -/
def candidates (s : State) : List ℕ :=
  (((s.checkpoints.items.filter fun e => e.2.state = .committed).reverse
    ).insertionSort fun d e => e.2.completedUpdate ≤ d.2.completedUpdate
    ).map Prod.fst

/-- `recovery_checkpoint`: the first candidate with a valid manifest and both
copies; the candidates before it are marked corrupt. -/
def recoveryCheckpoint (s : State) (intact : ℕ → Bool) : State × Option ℕ :=
  (((candidates s).takeWhile fun c => !intact c).foldl
      (fun s c => s.setCheckpoint c .corrupt) s,
    (candidates s).find? intact)

/-- The job resumes from the checkpoint `recovery_checkpoint` chose. -/
def select (s : State) (intact : ℕ → Bool) : State :=
  let (s', found) := recoveryCheckpoint s intact
  { s' with job := { s'.job with
    latestCheckpointId := found
    completedUpdate :=
      ((found.bind s.checkpoints.get?).map (·.completedUpdate)).getD 0 } }

/-! ## The administrator -/

def controlPause (s : State) : State :=
  let overriding : Bool := s.job.pauseOrigin = some .evaluation
    ∧ s.job.state ∈ [.pausing, .paused]
  if s.job.state.terminal then s
  else if s.job.state ∉ [.running, .queued] && !overriding then s
  else { s with job := { s.job with
    state := if s.job.state ∈ [.queued, .paused] then .paused else .pausing
    pauseOrigin := some .admin } }

/-- `control_training`, `resume`: `permitted` gathers what it finds outside these rows.
-/
def controlResume (s : State) (permitted : Bool) (intact : ℕ → Bool) : State :=
  if s.job.state ≠ .paused ∨ !permitted ∨ s.active.isSome then s
  else
    if s.job.completedUpdate ≠ 0 ∧ (recoveryCheckpoint s intact).2 = none then s
    else
      let s' := select s intact
      { s' with job := { s'.job with state := .queued, pauseOrigin := none } }

def controlCancel (s : State) : State :=
  if s.job.state.terminal then s
  else match s.active with
    | none => s.setState .cancelled
    | some a => enqueueStop (s.setState .cancelling) a

/-! ## The controller -/

/-- A protective pause: the worker asks for one, or the guard's measurements
call for one. -/
def protectivePause (s : State) : State :=
  if s.job.state = .running then
    { s with job := { s.job with
      state := .pausing, pauseOrigin := some .protective } }
  else s

/-- `_resume_automatic`: `eligible` gathers what it finds outside these rows. It keeps
the job's latest checkpoint as it is. -/
def resumeAutomatic (s : State) (origin : PauseOrigin) (eligible : Bool) :
    State :=
  if s.job.state ≠ .paused ∨ s.job.pauseOrigin ≠ some origin
      ∨ s.active.isSome ∨ !eligible then s
  else { s with job := { s.job with state := .queued, pauseOrigin := none } }

/-- The except branch of `_observe_node`: the node could not be observed. -/
def unreachable (s : State) (a : ℕ) : State :=
  match s.attempts.get? a with
  | none => s
  | some A =>
    if A.state.active then
      let s' := s.setAttempt a .unknown
      if s.job.state ∈ [.reserving, .running] then s'.setState .recovering
      else s'
    else s

/-- `tick` with training switched off. -/
def trainingDisabled (s : State) : State :=
  if s.active = none ∧ s.job.state ≠ .finalizing then s
  else if s.job.state ∈ [.cancelling, .cancelled, .failed, .succeeded] then s
  else s.setState .cancelling

/-- How `_finalize` ends: the adapter is extracted and smoked, or extraction
runs out of time. -/
def finalize (s : State) (ok : Bool) : State :=
  if s.job.state = .finalizing then
    s.setState (if ok then .succeeded else .failed)
  else s

/-! ## Receipts, observations and worker events -/

/-- `reduce_command_receipt` for a `TrainingPrepared` that is not ready because
the checkpoint it was to resume from is invalid. -/
def checkpointInvalid (s : State) (a : ℕ) : State :=
  match s.attempts.get? a with
  | none => s
  | some A =>
    if A.fence ≠ s.job.fence ∨ !A.state.active then s
    else match A.resumeCheckpointId with
      | none => s
      | some c => s.setCheckpoint c .corrupt

/-- `reduce_command_receipt` for a `TrainingStartReceipt` of one rank. -/
def startReceipt (s : State) (a rank : ℕ) (leased : Bool) : State :=
  match s.attempts.get? a with
  | none => s
  | some A =>
    if A.fence ≠ s.job.fence ∨ !A.state.active ∨ rank ∈ A.startReceipts
        ∨ A.worldSize ≤ rank then s
    else
      let A' := { A with
        pids := rank :: A.pids, startReceipts := rank :: A.startReceipts }
      let s' := { s with attempts := s.attempts.set a A' }
      let missing : Bool := (List.range A.worldSize).any (· ∉ A'.pids)
      if !missing ∧ s.job.state = .reserving ∧ leased then
        (s'.setAttempt a .running).setState .running
      else if s.job.state ∉ [.reserving, .running] ∨ !leased then
        s'.setAttempt a .stopping
      else s'

/-- `observe_training` for a process that is not proved stopped: `running`
teaches the process's identity, `unknown` withdraws the attempt's liveness. -/
inductive Liveness
  | running | unknown
  deriving DecidableEq

def observeTraining (s : State) (a rank : ℕ) (liveness : Liveness) : State :=
  match s.attempts.get? a with
  | none => s
  | some A =>
    if A.fence ≠ s.job.fence ∨ A.worldSize ≤ rank ∨ A.state = .stopped then s
    else match liveness with
      | .running =>
        let s' := { s with
          attempts := s.attempts.set a { A with pids := rank :: A.pids } }
        if s.job.state ∈ [.cancelling, .recovering] then enqueueStop s' a
        else s'
      | .unknown =>
        let s' := s.setAttempt a .unknown
        if s.job.state ∈ [.cancelling, .pausing, .succeeded, .failed,
            .cancelled, .paused] then s'
        else s'.setState .recovering

/-- `ingest_training_event` for a worker's failure. -/
def ingestFailure (s : State) (a : ℕ) : State :=
  match s.attempts.get? a with
  | none => s
  | some A =>
    if A.fence ≠ s.job.fence ∨ s.job.state ∈ [.cancelling, .pausing,
        .succeeded, .failed, .cancelled, .paused] then s
    else s.setState .recovering

/-- `fail_attempt`: a rank component is lost. -/
def failAttempt (s : State) (a : ℕ) : State :=
  match s.attempts.get? a with
  | none => s
  | some A =>
    if A.fence ≠ s.job.fence ∨ A.state = .stopped then s
    else if s.job.state ∈ [.cancelling, .pausing, .recovering, .cancelled,
        .failed, .succeeded] then enqueueStop s a
    else enqueueStop (s.setState .recovering) a

/-- `record_stop_proof`: the last rank's proof stops the attempt, and then the
job is cancelled, paused at its recovery checkpoint, or recovering. -/
def recordStopProof (s : State) (a rank : ℕ) (intact : ℕ → Bool) : State :=
  match s.attempts.get? a with
  | none => s
  | some A =>
    if A.worldSize ≤ rank ∨ A.state = .stopped then s
    else
      let A' := { A with stopProofs := rank :: A.stopProofs }
      let s' := { s with attempts := s.attempts.set a A' }
      if (List.range A.worldSize).any (· ∉ A'.stopProofs) then s'
      else
        let s' := s'.setAttempt a .stopped
        if s.job.fence ≠ A.fence then s'
        else match s.job.state with
          | .cancelling => s'.setState .cancelled
          | .pausing => (select s' intact).setState .paused
          | .succeeded | .failed | .cancelled | .finalizing => s'
          | _ => s'.setState .recovering

/-- The proof is the last one of the current attempt, and its job is pausing. -/
def pauses (s : State) (a rank : ℕ) : Bool :=
  match s.attempts.get? a with
  | none => false
  | some A =>
    rank < A.worldSize ∧ A.state ≠ .stopped
      ∧ (∀ r ∈ List.range A.worldSize, r ∈ rank :: A.stopProofs)
      ∧ s.job.fence = A.fence ∧ s.job.state = .pausing

/-! ## The scheduler -/

inductive Admission
  | admitted (id worldSize : ℕ)
  | waits
  | fails
  | raises
  deriving DecidableEq

/-- What one `advance_training` finds outside the job's rows. -/
structure Tick where
  authorized : Bool := true
  allowed : Bool := true
  queueExpired : Bool := false
  executionExpired : Bool := false
  leaseExpired : Bool := false
  /-- The job has been pausing for a minute. -/
  pauseOverdue : Bool := false
  /-- The resolved inputs are unchanged. -/
  rechecked : Bool := true
  intact : ℕ → Bool := fun _ => true
  admission : Admission := .waits
  /-- Every prepare receipt is in, and whether all of them are ready. -/
  prepared : Option Bool := none
  /-- The start commands and the renewed lease are granted. -/
  renewed : Bool := true

/-- `admit_training`: the attempt takes the next fence and resumes from the
job's latest checkpoint. -/
def admitTraining (s : State) (id worldSize : ℕ) : State :=
  { s with
    job := { s.job with fence := s.job.fence + 1, state := .reserving }
    attempts := s.attempts.set id ⟨s.job.fence + 1, worldSize, .preparing,
      s.job.latestCheckpointId, [], [], []⟩ }

/-- The job's latest checkpoint is committed, is its current attempt's and has
all its updates. -/
def finalizable (s : State) : Bool :=
  match s.job.latestCheckpointId.bind s.checkpoints.get? with
  | some C => C.state = .committed ∧ C.fence = s.job.fence
      ∧ C.completedUpdate = s.job.updates
  | none => false

/-- The admission at the end of a tick; `recovering` counts against the job's
recoveries. -/
def admission (s : State) (outcome : Admission) (recovering : Bool) :
    Option State :=
  match outcome with
  | .raises => none
  | .waits => some s
  | .fails => some (s.setState .failed)
  | .admitted id worldSize =>
    -- identities are drawn at random, so an attempt's is a new one
    if (s.attempts.get? id).isSome then some s
    else
      let s' := admitTraining s id worldSize
      some { s' with job := { s'.job with recoveryAttempts :=
        s'.job.recoveryAttempts + if recovering then 1 else 0 } }

/-- The part of `advance_training` that an idle job reaches: finalize, or look
for a recovery checkpoint and ask for admission. -/
def advanceIdle (s : State) (t : Tick) : Option State :=
  if s.job.state ∈ [.running, .recovering] ∧ finalizable s then
    if t.rechecked then some (s.setState .finalizing) else none
  else match s.job.state with
    | .preflighting => admission (s.setState .queued) t.admission false
    | .recovering =>
      if s.job.recoveryAttempts ≥ 3 then some (s.setState .failed)
      else if s.job.latestCheckpointId ≠ none
          ∧ (recoveryCheckpoint s t.intact).2 = none then
        some ((recoveryCheckpoint s t.intact).1.setState .failed)
      else admission (select s t.intact) t.admission true
    | _ => some s

/-- The part of `advance_training` after authority and deadlines. -/
def advanceLive (s : State) (t : Tick) : Option State :=
  match s.job.state, s.active with
  | .cancelling, some a => some (enqueueStop s a)
  | .cancelling, none => some (s.setState .cancelled)
  | .pausing, some a => some (if t.pauseOverdue then enqueueStop s a else s)
  | .recovering, some a => some (enqueueStop s a)
  | .reserving, some a =>
    if t.prepared = some false then
      some (enqueueStop (s.setState .recovering) a)
    else if t.renewed then some s else none
  | .running, some _ => if t.renewed then some s else none
  | .queued, none => some (if t.allowed then s.setState .preflighting else s)
  | .preflighting, none => if t.allowed then advanceIdle s t else some s
  | .recovering, none => if t.allowed then advanceIdle s t else some s
  | _, none => advanceIdle s t
  | _, some _ => some s

/-- `advance_training`: `none` when it raises, which takes it back. -/
def advanceTraining (s : State) (t : Tick) : Option State :=
  if s.job.state ∈ [.succeeded, .failed, .cancelled, .paused] then some s
  else if s.active = none ∧ s.job.state ∈ [.queued, .preflighting, .recovering]
      ∧ t.queueExpired then some (s.setState .failed)
  else
    let s := if t.authorized then s else s.setState .cancelling
    let s := if t.executionExpired
        ∧ (s.active.isSome ∨ s.job.state = .finalizing)
      then s.setState .cancelling else s
    let s := if s.active.isSome ∧ t.leaseExpired
        ∧ s.job.state ∈ [.running, .reserving]
      then s.setState .recovering else s
    advanceLive s t

/-- The tick takes the job back to a recovery checkpoint and asks for
admission. -/
def recovers (s : State) (t : Tick) : Bool :=
  s.job.state = .recovering ∧ s.active = none ∧ !t.queueExpired ∧ t.authorized
    ∧ t.allowed ∧ !finalizable s ∧ s.job.recoveryAttempts < 3
    ∧ (s.job.latestCheckpointId = none
      ∨ (recoveryCheckpoint s t.intact).2 ≠ none)

/-- `_advance`: where the reducer raised, teardown is committed in a fresh
transaction. -/
def advance (s : State) (t t' : Tick) : State :=
  match advanceTraining s t with
  | some s' => s'
  | none =>
    let s' := if s.job.state.terminal ∨ s.job.state ∈ [.paused, .cancelling]
      then s else s.setState .cancelling
    (advanceTraining s' t').getD s

/-! ## Steps -/

inductive Label
  | pause
  | resume (permitted : Bool) (intact : ℕ → Bool)
  | cancel
  | protectivePause
  | resumeAutomatic (origin : PauseOrigin) (eligible : Bool)
  | unreachable (attempt : ℕ)
  | trainingDisabled
  | finalize (ok : Bool)
  | checkpointInvalid (attempt : ℕ)
  | startReceipt (attempt rank : ℕ) (leased : Bool)
  | observe (attempt rank : ℕ) (liveness : Liveness)
  | failure (attempt : ℕ)
  | failAttempt (attempt : ℕ)
  | stopProof (attempt rank : ℕ) (intact : ℕ → Bool)
  | stage (checkpoint attempt update : ℕ) (leased : Bool)
  | replicate (checkpoint : ℕ)
  | commit (checkpoint : ℕ) (leased verified : Bool) (trigger : Trigger)
  | purge (checkpoint : ℕ)
  | advance (t t' : Tick)

def step (s : State) : Label → State
  | .pause => controlPause s
  | .resume permitted intact => controlResume s permitted intact
  | .cancel => controlCancel s
  | .protectivePause => protectivePause s
  | .resumeAutomatic origin eligible => resumeAutomatic s origin eligible
  | .unreachable a => unreachable s a
  | .trainingDisabled => trainingDisabled s
  | .finalize ok => finalize s ok
  | .checkpointInvalid a => checkpointInvalid s a
  | .startReceipt a rank leased => startReceipt s a rank leased
  | .observe a rank liveness => observeTraining s a rank liveness
  | .failure a => ingestFailure s a
  | .failAttempt a => failAttempt s a
  | .stopProof a rank intact => recordStopProof s a rank intact
  | .stage c a update leased => stageCheckpoint s c a update leased
  -- `mirror_checkpoint` starts the second copy
  | .replicate c =>
    if (s.checkpoints.get? c).map (·.state) = some .staging then
      s.setCheckpoint c .replicating
    else s
  | .commit c leased verified trigger =>
    commitCheckpoint s c leased verified trigger
  -- retention never takes the job's latest checkpoint
  | .purge c =>
    if s.job.latestCheckpointId = some c then s
    else if (s.checkpoints.get? c).map (·.state) = some .committed then
      s.setCheckpoint c .purged
    else s
  | .advance t t' => advance s t t'

end TrainingJobs
