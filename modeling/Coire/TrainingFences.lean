import Coire.TrainingResume

/-!
# At most one attempt of a training job is live

An attempt may have a trainer until all its ranks have proved that they stopped. The
job's state says whether there may be one to stop (`TrainingJobState.rests`). A new
attempt is admitted only where no other is active, so only the attempt of the last fence
is ever live (`one_attempt_live`), and a job that has ended is left alone by every
transaction (`ended_job_final`).
-/

namespace TrainingJobs

variable {s s' : State} {a : ℕ}

/-- The states of a job that has nothing to stop. -/
def TrainingJobState.rests : TrainingJobState → Bool
  | .reserving | .running | .pausing | .recovering | .cancelling => false
  | _ => true

/-- **The attempts of a job are fenced**: no two have one fence, only that of the last
may have a trainer, and it has none where the job rests. -/
structure Fenced (s : State) : Prop where
  numbered : Numbered s
  rests : s.job.state.rests → AllStopped s

/-- **A job as it has ended**: it goes nowhere, and its attempts are those it had. -/
def Ended (s s' : State) : Prop :=
  s'.job.state = s.job.state ∧ s'.job.fence = s.job.fence ∧ s'.attempts = s.attempts

/-- **What a transaction does that admits no attempt.** -/
structure Leaves (s s' : State) : Prop where
  fence : s'.job.fence = s.job.fence
  attempts : s.attempts.Rel TrainingAttemptRow.Winds s'.attempts
  rests : s'.job.state.rests → s.job.state.rests ∨ AllStopped s'

theorem Fenced.idle (h : Fenced s) (hi : s.job.state.idle) : AllStopped s :=
  h.rests (by revert hi; cases s.job.state <;> decide)

theorem Fenced.leaves (h : Fenced s) (hl : Leaves s s') : Fenced s' where
  numbered := h.numbered.same hl.fence hl.attempts
  rests := fun hr => (hl.rests hr).elim (fun hr a A' hA' => by
    obtain ⟨A, hA, hw⟩ := hl.attempts.get?_back hA'
    exact hw.stopped (h.rests hr a A hA)) id

theorem Fenced.keeps (h : Fenced s) (hk : Keeps s s')
    (hs : s'.job.state.rests → s.job.state.rests ∨ s.active = none) : Fenced s' :=
  h.leaves ⟨hk.fence, hk.attempts,
    fun hr => (hs hr).imp id fun hnone => (allStopped_of_active hnone).keeps hk⟩

theorem Fenced.same (h : Fenced s)
    (hr : s'.job.state.rests → s.job.state.rests ∨ s.active = none)
    (hs : s'.attempts = s.attempts ∧ s'.job.fence = s.job.fence) : Fenced s' :=
  h.leaves ⟨hs.2, hs.1 ▸ Dict.rel_refl .refl _, fun h => (hr h).imp id fun hnone =>
    fun a A hA => allStopped_of_active hnone a A (hs.1 ▸ hA)⟩

theorem enqueueStop_job (s : State) (a : ℕ) : (enqueueStop s a).job = s.job := by
  grind [enqueueStop, State.setAttempt]

theorem recordStopProof_rests (hs : Numbered s) (rank : ℕ) (intact : ℕ → Bool) :
    (recordStopProof s a rank intact).job.state.rests →
      s.job.state.rests ∨ AllStopped (recordStopProof s a rank intact) := by
  unfold recordStopProof
  split
  · exact .inl
  rename_i A hA
  split
  · exact .inl
  extract_lets A' s₁ s₂
  split
  · exact .inl
  split
  · exact .inl
  rename_i hf
  -- the attempt has the last fence, so any other was stopped before
  have hall : AllStopped s₂ := by
    intro b B hB
    have hB : ((s.attempts.set a A').modify a _).get? b = some B := hB
    by_contra hlive
    have hne : b ≠ a := by grind
    rw [Dict.get?_modify, Dict.get?_set] at hB
    grind [hs.single, hs.last]
  split
  · exact fun _ => .inr hall
  · exact fun _ => .inr (hall.select intact)
  all_goals first | exact .inl | exact nofun

theorem Fenced.stopProof (h : Fenced s) (a rank : ℕ) (intact : ℕ → Bool) :
    Fenced (recordStopProof s a rank intact) := by
  have hrests := @recordStopProof_rests s a h.numbered rank intact
  obtain ⟨-, hk⟩ | ⟨-, s₂, hk, -, -, -, heq⟩ :=
    recordStopProof_proves h.numbered h.idle a rank intact
  · exact h.leaves ⟨hk.fence, hk.attempts, hrests⟩
  · have hr := keeps_recoveryCheckpoint s₂ intact
    exact h.leaves ⟨heq ▸ hr.fence.trans hk.fence,
      heq ▸ hk.attempts.trans .trans hr.attempts, hrests⟩

theorem Fenced.admission (h : Numbered s) (hall : AllStopped s) {outcome : Admission}
    {recovering : Bool} (hadm : admission s outcome recovering = some s') :
    Fenced s' := by
  unfold TrainingJobs.admission at hadm
  split at hadm
  · cases hadm
  · cases hadm
    exact ⟨h, fun _ => hall⟩
  · cases hadm
    exact ⟨⟨h.fences, h.single, h.last⟩, fun _ => hall⟩
  · rename_i id worldSize
    split at hadm <;> cases hadm
    · exact ⟨h, fun _ => hall⟩
    · have ha := h.admitTraining hall id worldSize
      exact ⟨⟨ha.fences, ha.single, ha.last⟩, nofun⟩

theorem advanceTraining_rests {t : Tick} (h : advanceTraining s t = some s')
    (hr : s'.job.state.rests) : s.job.state.rests ∨ s.active = none := by
  rw [advanceTraining_eq] at h
  obtain ⟨-, hactive⟩ := keeps_overdue s t
  have : (overdue s t).job.state = s.job.state
      ∨ (overdue s t).job.state.rests = false := by
    grind [overdue, lapse, State.setState, TrainingJobState.rests]
  grind [advanceLive, State.setState, TrainingJobState.rests, enqueueStop_job]

theorem Fenced.advanceTraining {t : Tick} (h : Fenced s)
    (hadv : TrainingJobs.advanceTraining s t = some s') : Fenced s' := by
  obtain ⟨-, hk⟩ | ⟨-, hst, hnone, hadm⟩ | ⟨hr, hadm⟩ := advanceTraining_advances hadv
  · exact h.keeps hk (advanceTraining_rests hadv)
  · have hk : Keeps s (s.setState .queued) :=
      keeps_setState (by rw [hst]; exact Nat.le_refl _) fun _ => by rw [hst]; rfl
    exact .admission (h.numbered.same hk.fence hk.attempts)
      (allStopped_of_active hnone) hadm
  · obtain ⟨-, hnone, -⟩ := recovers_iff.mp hr
    have hk := keeps_recoveryCheckpoint s t.intact
    exact .admission
      (@Numbered.same _ (select s t.intact) h.numbered hk.fence hk.attempts)
      ((allStopped_of_active hnone).select t.intact) hadm

theorem advance_rests {t : Tick} (h : advanceTraining s t = none) (t' : Tick)
    (hr : (advance s t t').job.state.rests) : s.job.state.rests ∨ s.active = none := by
  unfold advance at hr
  rw [h] at hr
  extract_lets s₁ at hr
  have h₁ : s₁ = s ∨ s₁ = s.setState .cancelling := by grind
  cases hagain : advanceTraining s₁ t' with
  | none =>
    rw [hagain] at hr
    exact .inl hr
  | some s' =>
    rw [hagain] at hr
    obtain hs | hs := h₁ <;> rw [hs] at hagain
    · exact advanceTraining_rests hagain hr
    · exact .inr ((advanceTraining_rests hagain hr).resolve_left nofun)

/-- A transaction other than a tick or a stop proof: the job comes to rest only where it
has no trainer, and stays as it ended. -/
theorem step_job (l : Label)
    (hl : match l with | .advance _ _ | .stopProof _ _ _ => False | _ => True) :
    ((step s l).job.state.rests → s.job.state.rests ∨ s.active = none)
    ∧ (s.job.state.terminal → AllStopped s → Ended s (step s l)) := by
  refine ⟨fun hr => ?_, fun hend hall => ?_⟩ <;> cases l with
  | advance | stopProof => exact hl.elim
  | resume permitted intact =>
    have hjob := recoveryCheckpoint_job s intact
    grind [step, controlResume, TrainingJobState.rests, TrainingJobState.terminal,
      State.setState, Ended]
  | commit c leased verified trigger =>
    cases trigger <;> grind [step, commitCheckpoint, ensureCheckpointTrigger,
      TrainingJobState.rests, TrainingJobState.terminal, State.setCheckpoint, Ended]
  | _ =>
    grind [step, controlPause, controlCancel, protectivePause, resumeAutomatic,
      unreachable, trainingDisabled, finalize, checkpointInvalid, startReceipt,
      observeTraining, ingestFailure, failAttempt, stageCheckpoint, enqueueStop_job,
      TrainingJobState.rests, TrainingJobState.terminal, State.setState,
      State.setAttempt, State.setCheckpoint, AllStopped, active_ne_stopped, Ended]

theorem Fenced.step (h : Fenced s) (l : Label) : Fenced (step s l) := by
  have hrests := fun hl => (@step_job s l hl).1
  cases l with
  | pause => exact h.keeps (keeps_controlPause s) (hrests trivial)
  | cancel => exact h.keeps (keeps_controlCancel s) (hrests trivial)
  | protectivePause => exact h.keeps (keeps_protectivePause s) (hrests trivial)
  | unreachable a => exact h.keeps (keeps_unreachable s a) (hrests trivial)
  | trainingDisabled => exact h.keeps (keeps_trainingDisabled s) (hrests trivial)
  | finalize ok => exact h.keeps (keeps_finalize s ok) (hrests trivial)
  | checkpointInvalid a => exact h.keeps (keeps_checkpointInvalid s a) (hrests trivial)
  | startReceipt a rank leased =>
    exact h.keeps (keeps_startReceipt s a rank leased) (hrests trivial)
  | observe a rank liveness =>
    exact h.keeps (keeps_observeTraining s a rank liveness) (hrests trivial)
  | failure a => exact h.keeps (keeps_ingestFailure s a) (hrests trivial)
  | failAttempt a => exact h.keeps (keeps_failAttempt h.idle a) (hrests trivial)
  | replicate c => exact h.keeps (keeps_replicate s c) (hrests trivial)
  | purge c => exact h.keeps (keeps_purge s c) (hrests trivial)
  | stage c a update leased =>
    exact h.same (hrests trivial) (by grind [TrainingJobs.step, stageCheckpoint])
  | resumeAutomatic origin eligible =>
    exact h.same (hrests trivial) (by grind [TrainingJobs.step, resumeAutomatic])
  | commit c leased verified trigger =>
    refine h.same (hrests trivial) ?_
    cases trigger <;> grind [TrainingJobs.step, commitCheckpoint,
      ensureCheckpointTrigger, State.setCheckpoint]
  | resume permitted intact =>
    have hk := keeps_recoveryCheckpoint s intact
    show Fenced (controlResume s permitted intact)
    unfold controlResume
    split
    · exact h
    split
    · exact h
    rename_i hpaused _
    rw [not_or, not_not] at hpaused
    exact h.leaves ⟨hk.fence, hk.attempts, fun _ => .inl (by rw [hpaused.1]; rfl)⟩
  | stopProof a rank intact => exact h.stopProof a rank intact
  | advance t t' =>
    cases hadv : TrainingJobs.advanceTraining s t with
    | none => exact h.keeps (keeps_advance_of_none hadv t') (advance_rests hadv t')
    | some s' =>
      show Fenced (advance s t t')
      unfold advance
      rw [hadv]
      exact h.advanceTraining hadv

theorem ended_step (h : Fenced s) (hend : s.job.state.terminal) (l : Label) :
    Ended s (step s l) := by
  have hall : AllStopped s := h.rests (by revert hend; cases s.job.state <;> decide)
  cases l with
  | advance t t' =>
    grind [step, advance, advanceTraining, TrainingJobState.terminal, Ended]
  | stopProof a rank intact => grind [step, recordStopProof, AllStopped, Ended]
  | _ => exact (step_job _ trivial).2 hend hall

theorem fenced_submitted (updates : ℕ) (checkpointUpdates : List ℕ) :
    Fenced (State.submitted updates checkpointUpdates) :=
  ⟨(inv_submitted updates checkpointUpdates).numbered, fun _ _ _ h => nomatch h⟩

/-- **At most one attempt of a job may have a trainer**, in every run: it is the one of
the last fence, and where the job waits, is finalized or has ended there is none. -/
theorem one_attempt_live (updates : ℕ) (checkpointUpdates : List ℕ) (as : List Label) :
    Run.Throughout step (fun s =>
      (∀ a b A B, s.attempts.get? a = some A → s.attempts.get? b = some B →
        A.state ≠ .stopped → B.state ≠ .stopped → a = b ∧ A.fence = s.job.fence)
      ∧ (s.job.state.rests → AllStopped s))
      (State.submitted updates checkpointUpdates) as := by
  refine Run.throughout_of_kept Fenced
    (fun s h => ⟨fun a b A B hA hB ha hb => ?_, h.rests⟩) (fun s l h => h.step l)
    (fenced_submitted updates checkpointUpdates)
  have hlast := h.numbered.last hA ha
  exact ⟨h.numbered.single hA hB (hlast.trans (h.numbered.last hB hb).symm), hlast⟩

/-- **An ended job stays as it ended**, and is given no further attempt. -/
theorem ended_job_final (updates : ℕ) (checkpointUpdates : List ℕ) (as : List Label) :
    Run.Throughout step
      (fun s => s.job.state.terminal → ∀ bs, Ended s (Run.last step s bs))
      (State.submitted updates checkpointUpdates) as := by
  refine Run.throughout_of_kept Fenced (fun s hs hend bs => ?_) (fun s l h => h.step l)
    (fenced_submitted updates checkpointUpdates)
  refine (Run.last_of_kept (fun t => Fenced t ∧ Ended s t) (fun t l ht => ?_) bs
    ⟨hs, rfl, rfl, rfl⟩).2
  obtain ⟨ht, hstate, hfence, hattempts⟩ := ht
  obtain ⟨h₁, h₂, h₃⟩ := ended_step ht (hstate ▸ hend) l
  exact ⟨ht.step l, h₁.trans hstate, h₂.trans hfence, h₃.trans hattempts⟩

end TrainingJobs
