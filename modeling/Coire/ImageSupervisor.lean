import Mathlib.Data.Nat.Basic
import Mathlib.Data.Option.Basic

/-!
# The image worker of a Studio

At most one image worker runs on a node. A start is admitted against what the
other owners have committed, spawns the worker, and records it in a private
file; only then is the record kept in memory. If something fails after the
spawn the process is killed, and if its death cannot be confirmed the bytes
asked for stay held. A record file without a record in memory, left by an
earlier agent, holds the whole budget. A stop frees the worker's bytes only
once its process is gone.
-/

/-- `ImageWorkerLoadRequest`, the fields a start reads. The verified copy it
names is the environment's concern. -/
structure ImageWorkerLoadRequest where
  instanceId : ℕ
  manifestSha256 : String
  runtimeVersion : String
  reservationBytes : ℕ
  /-- `reservation_bytes: int = Field(ge=1)`. -/
  reservation_pos : 1 ≤ reservationBytes
  deriving DecidableEq

structure ImageSupervisor where
  record : Option ImageWorkerLoadRequest
  recordFile : Option ImageWorkerLoadRequest
  lastStopped : Option ℕ
  stoppedFile : Option ℕ
  uncertainReservedBytes : ℕ

inductive SpawnOutcome
  | recorded
  | failed
  /-- Something failed, and the process could not be killed. -/
  | uncertain
  deriving DecidableEq

structure ImageStartEnv where
  admissionOpen : Bool
  launchable : Bool
  /-- `other_committed_bytes`, `none` where it raises. -/
  otherCommitted : Option ℕ
  spawn : SpawnOutcome

inductive StopOutcome
  /-- The process is not known to be gone, or a file does not read. -/
  | unconfirmed
  /-- It is gone, and its private state could not be removed. -/
  | notRemoved
  | removed
  deriving DecidableEq

namespace ImageSupervisor

def init : ImageSupervisor := ⟨none, none, none, none, 0⟩

variable (w : ImageSupervisor)

def committedBytes (budget : ℕ) : ℕ :=
  match w.record with
  | some r => r.reservationBytes
  | none => if w.recordFile.isSome then budget else w.uncertainReservedBytes

def admits (budget : ℕ) (req : ImageWorkerLoadRequest)
    (env : ImageStartEnv) : Bool :=
  env.admissionOpen && w.record.isNone
    && decide (w.uncertainReservedBytes = 0) && w.recordFile.isNone
    && decide (req.runtimeVersion = "mflux-0.20.0") && env.launchable
    && env.otherCommitted.any (fun committed =>
      decide (committed + req.reservationBytes ≤ budget))

/-- **`_start`**: whether a worker of this request runs, and the new state. -/
def start (budget : ℕ) (req : ImageWorkerLoadRequest) (env : ImageStartEnv) :
    Bool × ImageSupervisor :=
  if w.admits budget req env then
    match env.spawn with
    | .recorded =>
      (true, { w with record := some req, recordFile := some req })
    | .failed => (false, w)
    | .uncertain =>
      (false, { w with uncertainReservedBytes := req.reservationBytes })
  else (env.admissionOpen && decide (w.record = some req), w)

/-- **`_stop`**: whether the worker is known to have stopped, and the new
state. -/
def stop (instanceId : ℕ) (outcome : StopOutcome) : Bool × ImageSupervisor :=
  match w.record with
  | some r =>
    if r.instanceId ≠ instanceId then (false, w)
    else
      match outcome with
      | .unconfirmed => (false, w)
      | .notRemoved => (false, { w with stoppedFile := some instanceId })
      | .removed =>
        (true, { w with
          record := none
          recordFile := none
          lastStopped := some instanceId
          stoppedFile := some instanceId })
  | none =>
    if w.lastStopped = some instanceId then (true, w)
    else
      match w.recordFile with
      | none =>
        match w.stoppedFile with
        | some i =>
          if i = instanceId then (true, { w with lastStopped := some i })
          else (false, w)
        | none =>
          -- `_instance_process_absent`: the bytes held stay held
          match outcome with
          | .removed =>
            (true, { w with
              lastStopped := some instanceId
              stoppedFile := some instanceId })
          | _ => (false, w)
      | some r =>
        if r.instanceId ≠ instanceId then (false, w)
        else
          match outcome with
          | .unconfirmed => (false, w)
          | .notRemoved => (false, { w with stoppedFile := some instanceId })
          | .removed =>
            (true, { w with
              recordFile := none
              lastStopped := some instanceId
              stoppedFile := some instanceId
              uncertainReservedBytes := 0 })

/-! ## What the calls do to the bytes committed -/

def Settled : Prop := w.record.isSome → w.uncertainReservedBytes = 0

variable {w}

theorem free_of_admits {budget : ℕ} {req : ImageWorkerLoadRequest}
    {env : ImageStartEnv} (h : w.admits budget req env = true) :
    w.record = none ∧ w.recordFile = none ∧ w.uncertainReservedBytes = 0
      ∧ ∃ other, env.otherCommitted = some other
        ∧ other + req.reservationBytes ≤ budget := by
  grind [admits, Option.isNone_iff_eq_none, Option.any_eq_true]

theorem start_committedBytes (hw : w.Settled) (budget : ℕ)
    (req : ImageWorkerLoadRequest) (env : ImageStartEnv) :
    (w.start budget req env).2.Settled ∧ ((w.start budget req env).2 = w
        ∨ w.admits budget req env = true ∧ w.committedBytes budget = 0
          ∧ (w.start budget req env).2.committedBytes budget
            = req.reservationBytes) := by
  unfold start
  split
  · rename_i hadm
    obtain ⟨hr, hf, hu, -⟩ := free_of_admits hadm
    have hzero : w.committedBytes budget = 0 := by
      unfold committedBytes
      rw [hr, hf]
      exact hu
    split
    · exact ⟨fun _ => hu, Or.inr ⟨hadm, hzero, rfl⟩⟩
    · exact ⟨hw, Or.inl rfl⟩
    refine ⟨fun h => absurd h (by rw [hr]; simp), Or.inr ⟨hadm, hzero, ?_⟩⟩
    unfold committedBytes
    rw [hr, hf]
    rfl
  · exact ⟨hw, Or.inl rfl⟩

theorem stop_committedBytes (hw : w.Settled) (budget instanceId : ℕ)
    (outcome : StopOutcome) :
    (w.stop instanceId outcome).2.Settled
      ∧ (w.stop instanceId outcome).2.committedBytes budget
        ≤ w.committedBytes budget := by
  obtain ⟨record, recordFile, lastStopped, stoppedFile, uncertain⟩ := w
  have hnone : ∀ f s t u, Settled ⟨none, f, s, t, u⟩ := by
    intro f s t u h
    exact absurd h (by simp)
  unfold stop
  cases record with
  | some r =>
    dsimp only
    split
    · exact ⟨hw, le_rfl⟩
    cases outcome with
    | unconfirmed => exact ⟨hw, le_rfl⟩
    | notRemoved => exact ⟨hw, le_rfl⟩
    | removed =>
      refine ⟨hnone _ _ _ _, ?_⟩
      -- the record in memory leaves nothing uncertain to fall back to
      have hu : uncertain = 0 := hw rfl
      rw [hu]
      exact Nat.zero_le _
  | none =>
    dsimp only
    split
    · exact ⟨hw, le_rfl⟩
    cases recordFile with
    | none =>
      cases stoppedFile with
      | none => cases outcome <;> exact ⟨hw, le_rfl⟩
      | some i =>
        dsimp only
        split <;> exact ⟨hw, le_rfl⟩
    | some r =>
      dsimp only
      split
      · exact ⟨hw, le_rfl⟩
      cases outcome with
      | unconfirmed => exact ⟨hw, le_rfl⟩
      | notRemoved => exact ⟨hw, le_rfl⟩
      | removed => exact ⟨hnone _ _ _ _, Nat.zero_le _⟩

end ImageSupervisor
