import Coire.Dict

/-!
# The training journal of a Studio

One attempt at a time holds the training slot of a node. The journal records
the attempts with the memory and disk they hold, the commands it accepted with
their digests, and the fence of each job: a command below the highest fence
among the job's attempts is refused, and a command id cannot change its
content. An attempt is prepared with its full envelope and released only after
its process is known to have stopped.

Training and measurement have one journal each, of the same kind. The digest
of a command is a hash of all its fields, and is given with it.
-/

inductive StudioName
  | edgeA
  | edgeB
  deriving DecidableEq

@[ext]
structure TrainingResourceEnvelope where
  weightBytes : ℕ
  adapterBytes : ℕ
  optimizerBytes : ℕ
  activationBytes : ℕ
  bufferBytes : ℕ
  safetyBytes : ℕ
  checkpointBytes : ℕ
  /-- `weight_bytes: int = Field(ge=1)`. -/
  weight_pos : 1 ≤ weightBytes
  adapter_pos : 1 ≤ adapterBytes
  optimizer_pos : 1 ≤ optimizerBytes
  activation_pos : 1 ≤ activationBytes
  safety_pos : 1 ≤ safetyBytes
  checkpoint_pos : 1 ≤ checkpointBytes

instance : DecidableEq TrainingResourceEnvelope :=
  fun _ _ => decidable_of_iff _ TrainingResourceEnvelope.ext_iff.symm

def TrainingResourceEnvelope.memoryBytes (e : TrainingResourceEnvelope) : ℕ :=
  e.weightBytes + e.adapterBytes + e.optimizerBytes + e.activationBytes
    + e.bufferBytes + e.safetyBytes

theorem TrainingResourceEnvelope.memoryBytes_pos
    (e : TrainingResourceEnvelope) : 0 < e.memoryBytes := by
  have h := e.weight_pos
  unfold memoryBytes
  omega

/-- `TrainingPrepareRequest`, the fields the journal reads. -/
structure TrainingPrepareRequest where
  commandId : ℕ
  jobId : ℕ
  attemptId : ℕ
  fence : ℕ
  requestSha256 : ℕ
  node : StudioName
  rank : ℕ
  worldSize : ℕ
  leaseExpiresAt : ℤ
  envelope : TrainingResourceEnvelope
  keepLastCheckpoints : ℕ
  /-- The resolved specification is a `ResolvedTrainingSpecV3`. -/
  preference : Bool
  /-- `command_digest`. -/
  digest : ℕ
  deriving DecidableEq

inductive TrainingLiveness
  | prepared
  | running
  | stopping
  | stopped
  | unknown
  deriving DecidableEq

structure TrainingAttempt where
  prepare : TrainingPrepareRequest
  memoryBytes : ℕ
  diskBytes : ℕ
  released : Bool
  liveness : TrainingLiveness
  leaseExpiresAt : ℤ
  deriving DecidableEq

structure AcceptedCommand where
  digest : ℕ
  receipt : Option String
  deriving DecidableEq

structure TrainingJournal where
  node : StudioName
  attempts : Dict ℕ TrainingAttempt
  commands : Dict ℕ AcceptedCommand

structure PrepareEnv where
  now : ℤ
  memoryAvailable : ℕ
  diskAvailable : ℕ
  diskFloor : ℕ

inductive TrainingError
  | conflict (detail : String)
  | validation (detail : String)
  deriving DecidableEq

def gib : ℕ := 1024 ^ 3

namespace TrainingJournal

def init (node : StudioName) : TrainingJournal :=
  ⟨node, Dict.empty, Dict.empty⟩

variable (j : TrainingJournal)

/-- What an attempt counts for memory: its envelope, or more if its process
measures more. A released one counts nothing. -/
def memoryOf (measured : ℕ → Option ℕ) (id : ℕ) (a : TrainingAttempt) : ℕ :=
  if a.released then 0 else max a.memoryBytes ((measured id).getD 0)

def committedBytes (measured : ℕ → Option ℕ) : ℕ :=
  j.attempts.total (memoryOf measured)

def heldDisk : ℕ := j.attempts.total (fun _ a => a.diskBytes)

def latestFence (jobId : ℕ) : Option ℕ :=
  ((j.attempts.values.filter (fun a => a.prepare.jobId = jobId)).map
    (fun a => a.prepare.fence)).max?

/-- The lease ends within the next thirty seconds. -/
def leaseInWindow (leaseExpiresAt now : ℤ) : Bool :=
  decide (0 < leaseExpiresAt - now)
    && decide (leaseExpiresAt - now ≤ 30 * 1000000)

/-- `accept`: `none` for a new command, which is recorded, and the receipt of
one accepted before. -/
def accept (cmd : TrainingPrepareRequest) (requireLease : Bool) (now : ℤ) :
    Except TrainingError (Option String × TrainingJournal) :=
  if cmd.node ≠ j.node then
    .error (.conflict "Command targets another Studio")
  else if (j.latestFence cmd.jobId).any (fun f => decide (cmd.fence < f)) then
    .error (.conflict "Training command is fenced")
  else if requireLease && !leaseInWindow cmd.leaseExpiresAt now then
    .error (.conflict "Execution lease must expire within thirty seconds")
  else
    match j.commands.get? cmd.commandId with
    | some c =>
      if c.digest ≠ cmd.digest then
        .error (.conflict "Immutable training command changed")
      else .ok (some (c.receipt.getD ""), j)
    | none =>
      .ok (none, { j with
        commands := j.commands.set cmd.commandId ⟨cmd.digest, none⟩ })

def scopedTo (a : TrainingAttempt) (cmd : TrainingPrepareRequest) :
    Except TrainingError Unit :=
  if cmd.digest ≠ a.prepare.digest then
    .error (.conflict "Training preparation changed after reservation")
  else if cmd.jobId ≠ a.prepare.jobId ∨ cmd.attemptId ≠ a.prepare.attemptId
      ∨ cmd.fence ≠ a.prepare.fence ∨ cmd.node ≠ a.prepare.node
      ∨ cmd.rank ≠ a.prepare.rank ∨ cmd.worldSize ≠ a.prepare.worldSize
      ∨ cmd.requestSha256 ≠ a.prepare.requestSha256 then
    .error (.conflict "Command differs from prepared execution scope")
  else .ok ()

/-- The lease of a preference run renewed since its command was signed stands
in for the command's own. -/
def renewed (cmd : TrainingPrepareRequest) (now : ℤ) :
    Except TrainingError Bool :=
  match cmd.preference, j.attempts.get? cmd.attemptId with
  | true, some a =>
    (scopedTo a cmd).map (fun _ =>
      !a.released && decide (a.liveness = .prepared)
        && decide (cmd.leaseExpiresAt < a.leaseExpiresAt)
        && decide (now < a.leaseExpiresAt))
  | _, _ => .ok false

/-- The disk a preparation holds: the retained checkpoints, one being staged
and one being mirrored. -/
def diskOf (cmd : TrainingPrepareRequest) : ℕ :=
  cmd.envelope.checkpointBytes * (cmd.keepLastCheckpoints + 2)

def attemptOf (cmd : TrainingPrepareRequest) : TrainingAttempt where
  prepare := cmd
  memoryBytes := cmd.envelope.memoryBytes
  diskBytes := diskOf cmd
  released := false
  liveness := .prepared
  leaseExpiresAt := cmd.leaseExpiresAt

/-- The checks of `prepare` on a command not seen before. -/
def admission (cmd : TrainingPrepareRequest) (env : PrepareEnv) :
    Except TrainingError Unit :=
  if j.attempts.values.any (fun a => !a.released) then
    .error (.conflict "Studio training slot is held")
  else if (j.attempts.get? cmd.attemptId).isSome then
    .error (.conflict "Attempt preparation is immutable")
  else if 20 * gib < diskOf cmd
      ∨ env.memoryAvailable < cmd.envelope.memoryBytes
      ∨ env.diskAvailable < diskOf cmd + j.heldDisk + env.diskFloor then
    .error (.validation
      "Training memory or aggregate disk headroom unavailable")
  else .ok ()

/-- **`prepare`**: the attempt, new or as it is after a replay. A refusal rolls
everything back. -/
def prepare (cmd : TrainingPrepareRequest) (env : PrepareEnv) :
    Except TrainingError TrainingAttempt × TrainingJournal :=
  match j.renewed cmd env.now with
  | .error e => (.error e, j)
  | .ok renewed =>
    match j.accept cmd (!renewed) env.now with
    | .error e => (.error e, j)
    | .ok (some _, j') =>
      match j'.attempts.get? cmd.attemptId with
      | some a => (.ok a, j')
      | none => (.error (.conflict "Training attempt is not prepared"), j)
    | .ok (none, j') =>
      match j'.admission cmd env with
      | .error e => (.error e, j)
      | .ok () =>
        (.ok (attemptOf cmd), { j' with
          attempts := j'.attempts.set cmd.attemptId (attemptOf cmd)
          commands := j'.commands.set cmd.commandId
            ⟨cmd.digest, some "prepared"⟩ })

/-- The supervisor saves what it knows of the process. -/
def setLiveness (attemptId : ℕ) (liveness : TrainingLiveness) :
    TrainingJournal :=
  { j with
    attempts := j.attempts.modify attemptId
      (fun a => { a with liveness := liveness }) }

/-- **`release_after_death`**: whether the attempt was still held. -/
def releaseAfterDeath (attemptId : ℕ) :
    Except TrainingError Bool × TrainingJournal :=
  match j.attempts.get? attemptId with
  | none => (.error (.conflict "Training attempt is not prepared"), j)
  | some a =>
    if a.liveness ≠ .stopped then
      (.error (.conflict
        "Unknown or live process cannot release a training hold"), j)
    else
      (.ok (!a.released), { j with
        attempts := j.attempts.set attemptId { a with released := true } })

/-! ## What the calls do to the memory held -/

/-- What an attempt records, whatever its process measures. -/
def recordedOf (a : TrainingAttempt) : ℕ :=
  if a.released then 0 else a.memoryBytes

def recorded : ℕ := j.attempts.total (fun _ a => recordedOf a)

variable {j}

theorem committedBytes_eq_recorded {measured : ℕ → Option ℕ}
    (hm : ∀ id a, j.attempts.get? id = some a → a.released = false →
      (measured id).getD 0 ≤ a.memoryBytes) :
    j.committedBytes measured = j.recorded := by
  refine Dict.total_congr (fun id a hid => ?_)
  unfold memoryOf recordedOf
  split
  · rfl
  · grind

variable {cmd : TrainingPrepareRequest}

theorem accept_attempts {requireLease : Bool}
    {now : ℤ} {r : Option String} {j' : TrainingJournal}
    (h : j.accept cmd requireLease now = .ok (r, j')) :
    j'.attempts = j.attempts := by
  grind [accept]

theorem free_of_admission {env : PrepareEnv} (h : j.admission cmd env = .ok ()) :
    j.recorded = 0 ∧ j.attempts.get? cmd.attemptId = none
      ∧ cmd.envelope.memoryBytes ≤ env.memoryAvailable := by
  unfold admission at h
  split at h
  · exact absurd h (by simp)
  rename_i hheld
  split at h
  · exact absurd h (by simp)
  rename_i hnew
  split at h
  · exact absurd h (by simp)
  rename_i hroom
  refine ⟨Dict.total_eq_zero (fun id a hid => ?_), ?_, by omega⟩
  · unfold recordedOf
    rw [if_pos]
    by_contra hr
    refine hheld (List.any_eq_true.mpr ⟨a, Dict.mem_values.mpr ⟨id, hid⟩, ?_⟩)
    rw [Bool.not_eq_true] at hr
    rw [hr]
    rfl
  · exact Option.not_isSome_iff_eq_none.mp hnew

theorem prepare_recorded (j : TrainingJournal) (cmd : TrainingPrepareRequest)
    (env : PrepareEnv) :
    (j.prepare cmd env).2.recorded = j.recorded
      ∨ j.recorded = 0 ∧ 0 < env.memoryAvailable
        ∧ (j.prepare cmd env).2.recorded ≤ env.memoryAvailable := by
  unfold prepare
  split
  · exact Or.inl rfl
  split
  · exact Or.inl rfl
  · rename_i hacc
    split
    · exact Or.inl (congrArg (Dict.total · _) (accept_attempts hacc))
    · exact Or.inl rfl
  · rename_i j' hacc
    split
    · exact Or.inl rfl
    rename_i hadm
    obtain ⟨hzero, hnew, hroom⟩ := free_of_admission hadm
    have hsame : j'.recorded = j.recorded :=
      congrArg (Dict.total · _) (accept_attempts hacc)
    have hset : (j'.attempts.set cmd.attemptId (attemptOf cmd)).total
        (fun _ a => recordedOf a)
        = j'.recorded + cmd.envelope.memoryBytes :=
      Dict.total_set_of_none hnew
    have hpos := cmd.envelope.memoryBytes_pos
    refine Or.inr ⟨hsame ▸ hzero, by omega, ?_⟩
    show Dict.total _ _ ≤ _
    rw [hset, hzero]
    omega

theorem setLiveness_recorded (j : TrainingJournal) (attemptId : ℕ)
    (liveness : TrainingLiveness) :
    (j.setLiveness attemptId liveness).recorded = j.recorded := by
  show (j.attempts.modify attemptId _).total _ = j.attempts.total _
  unfold Dict.modify
  split
  · rfl
  · rename_i a ha
    exact Dict.total_set_of_weight_eq ha rfl

theorem releaseAfterDeath_recorded_le (j : TrainingJournal) (attemptId : ℕ) :
    (j.releaseAfterDeath attemptId).2.recorded ≤ j.recorded := by
  unfold releaseAfterDeath
  split
  · exact le_rfl
  rename_i a ha
  split
  · exact le_rfl
  · exact Dict.total_set_le ha (Nat.zero_le _)

theorem accepted_of_prepare {env : PrepareEnv}
    {a : TrainingAttempt} {j' : TrainingJournal}
    (h : j.prepare cmd env = (.ok a, j')) :
    ∃ c, j'.commands.get? cmd.commandId = some c := by
  unfold prepare at h
  split at h
  · exact absurd (Prod.mk.inj h).1 (by simp)
  split at h
  · exact absurd (Prod.mk.inj h).1 (by simp)
  · grind [accept]
  · grind [Dict.get?_set_self]

theorem prepare_accepted {c : AcceptedCommand}
    (hc : j.commands.get? cmd.commandId = some c) (env : PrepareEnv) :
    (j.prepare cmd env).2 = j := by
  unfold prepare
  split
  · rfl
  rename_i renewed _
  have hacc : ∀ r j', j.accept cmd (!renewed) env.now = .ok (r, j') →
      r.isSome ∧ j' = j := by
    grind [accept]
  split
  · rfl
  · rename_i h
    obtain ⟨-, rfl⟩ := hacc _ _ h
    split <;> rfl
  · grind

end TrainingJournal
