import Coire.TrainingJobs

/-!
# A fully trained job is trained again only by way of a resume

A job whose last checkpoint is complete is meant to be finalized, and where it loses its
trainer while running or recovering it is: `advance_training` looks at its latest
checkpoint first. A paused job is not looked at. Paused after its complete checkpoint
was committed and then resumed, it goes back to the queue and is admitted with that
checkpoint to resume from, which every worker refuses (`finished_job_retrained`).

That is the only way. Where no resume finds a complete checkpoint that is committed or
is the job's latest, no attempt ever resumes from a complete one
(`never_retrained_of_resumable`).
-/

namespace TrainingJobs

/-! ## What is kept by almost every transaction -/

/-- **Before training (0), in training (1), set aside (2).** -/
def TrainingJobState.phase : TrainingJobState → ℕ
  | .queued | .preflighting | .reserving => 0
  | .running | .recovering | .finalizing => 1
  | _ => 2

def TrainingJobState.idle (x : TrainingJobState) : Bool :=
  x ∈ [.queued, .preflighting, .paused]

def CheckpointState.settled (x : CheckpointState) : Bool :=
  x ∈ [.committed, .corrupt, .purged]

structure TrainingCheckpointRow.Same (C C' : TrainingCheckpointRow) :
    Prop where
  attemptId : C'.attemptId = C.attemptId
  fence : C'.fence = C.fence
  completedUpdate : C'.completedUpdate = C.completedUpdate
  settled : C.state.settled → C'.state.settled

/-- A checkpoint's row under every write but its commit. -/
structure TrainingCheckpointRow.Fades (C C' : TrainingCheckpointRow) : Prop
    extends C.Same C' where
  committed : C'.state = .committed → C.state = .committed

structure TrainingAttemptRow.Winds (A A' : TrainingAttemptRow) : Prop where
  fence : A'.fence = A.fence
  resume : A'.resumeCheckpointId = A.resumeCheckpointId
  stopped : A.state = .stopped → A'.state = .stopped

theorem TrainingCheckpointRow.Same.refl (C : TrainingCheckpointRow) :
    C.Same C := ⟨rfl, rfl, rfl, id⟩

theorem TrainingCheckpointRow.Fades.refl (C : TrainingCheckpointRow) :
    C.Fades C := ⟨.refl C, id⟩

variable {s s' : State} {t : Tick} {A : TrainingAttemptRow} {C : TrainingCheckpointRow}
  {a c : ℕ}

theorem TrainingCheckpointRow.Fades.trans {C' C'' : TrainingCheckpointRow}
    (h : C.Fades C') (h' : C'.Fades C'') : C.Fades C'' :=
  ⟨⟨h'.attemptId.trans h.attemptId, h'.fence.trans h.fence,
    h'.completedUpdate.trans h.completedUpdate, h'.settled ∘ h.settled⟩,
    h.committed ∘ h'.committed⟩

theorem TrainingAttemptRow.Winds.refl (A : TrainingAttemptRow) : A.Winds A :=
  ⟨rfl, rfl, id⟩

theorem TrainingAttemptRow.Winds.trans {A' A'' : TrainingAttemptRow}
    (h : A.Winds A') (h' : A'.Winds A'') : A.Winds A'' :=
  ⟨h'.fence.trans h.fence, h'.resume.trans h.resume, h'.stopped ∘ h.stopped⟩

/-- **What a transaction keeps** that neither creates nor commits nor selects. -/
structure Keeps (s s' : State) : Prop where
  updates : s'.job.updates = s.job.updates
  fence : s'.job.fence = s.job.fence
  latest : s'.job.latestCheckpointId = s.job.latestCheckpointId
  phase : s.job.state.phase ≤ s'.job.state.phase
  idle : s'.job.state.idle → s.job.state.idle
  attempts : s.attempts.Rel TrainingAttemptRow.Winds s'.attempts
  checkpoints : s.checkpoints.Rel TrainingCheckpointRow.Fades s'.checkpoints

theorem Keeps.refl (s : State) : Keeps s s :=
  ⟨rfl, rfl, rfl, Nat.le_refl _, id, Dict.rel_refl .refl _, Dict.rel_refl .refl _⟩

theorem Keeps.trans {s'' : State} (h : Keeps s s') (h' : Keeps s' s'') : Keeps s s'' :=
  ⟨h'.updates.trans h.updates, h'.fence.trans h.fence,
    h'.latest.trans h.latest, h.phase.trans h'.phase, h.idle ∘ h'.idle,
    h.attempts.trans .trans h'.attempts,
    h.checkpoints.trans .trans h'.checkpoints⟩

theorem TrainingJobState.phase_le (x : TrainingJobState) : x.phase ≤ 2 := by
  cases x <;> decide

theorem keeps_setState {x : TrainingJobState}
    (h : s.job.state.phase ≤ x.phase) (hi : x.idle → s.job.state.idle) :
    Keeps s (s.setState x) :=
  { Keeps.refl s with phase := h, idle := hi }

theorem keeps_setAside {x : TrainingJobState} (h : x.phase = 2)
    (hi : x.idle = false) : Keeps s (s.setState x) :=
  keeps_setState (h ▸ s.job.state.phase_le) fun h => by
    rw [hi] at h
    cases h

theorem keeps_pause {x : TrainingJobState} (h : x.phase = 2)
    (hi : x.idle → s.job.state.idle) (o : Option PauseOrigin) :
    Keeps s { s with job := { s.job with state := x, pauseOrigin := o } } :=
  { Keeps.refl s with phase := h ▸ s.job.state.phase_le, idle := hi }

theorem keeps_setAttempts {A' : TrainingAttemptRow}
    (hA : s.attempts.get? a = some A) (h : A.Winds A') :
    Keeps s { s with attempts := s.attempts.set a A' } :=
  { Keeps.refl s with attempts := Dict.rel_set .refl hA h }

theorem keeps_setAttempt (hA : s.attempts.get? a = some A) (x : AttemptState)
    (h : A.state = .stopped → x = .stopped) : Keeps s (s.setAttempt a x) :=
  { Keeps.refl s with
    attempts := Dict.rel_modify .refl fun B hB => by
      rw [hA] at hB
      cases hB
      exact ⟨rfl, rfl, h⟩ }

theorem keeps_setCheckpoint {x : CheckpointState} (hx : x ≠ .committed)
    (h : ∀ C, s.checkpoints.get? c = some C → C.state.settled → x.settled) :
    Keeps s (s.setCheckpoint c x) :=
  { Keeps.refl s with
    checkpoints := Dict.rel_modify .refl fun C hC =>
      ⟨⟨rfl, rfl, rfl, h C hC⟩, fun hc => absurd hc hx⟩ }

theorem keeps_enqueueStop (s : State) (a : ℕ) : Keeps s (enqueueStop s a) := by
  unfold enqueueStop
  split
  · rename_i A hA
    split
    · exact .refl s
    · rename_i hA'
      exact keeps_setAttempt hA _ fun h => absurd h hA'
  · exact .refl s

theorem keeps_ensureCheckpointTrigger {t : Trigger}
    (h : ensureCheckpointTrigger s C t = some s') : Keeps s s' := by
  unfold ensureCheckpointTrigger at h
  split at h
  · split at h
    · cases h
    · split at h <;> cases h
      · exact keeps_pause (x := .pausing) rfl nofun _
      · exact .refl s
    · cases h
      exact .refl s
  · cases h
    exact .refl s

/-! ### `recovery_checkpoint` -/

theorem keeps_corrupt (s : State) (cs : List ℕ) :
    Keeps s (cs.foldl (fun s c => s.setCheckpoint c .corrupt) s) := by
  induction cs generalizing s with
  | nil => exact .refl s
  | cons c cs ih =>
    exact (keeps_setCheckpoint (by decide) fun _ _ _ => rfl).trans (ih _)

theorem keeps_recoveryCheckpoint (s : State) (intact : ℕ → Bool) :
    Keeps s (recoveryCheckpoint s intact).1 := keeps_corrupt s _

theorem recoveryCheckpoint_committed {intact : ℕ → Bool}
    (h : (recoveryCheckpoint s intact).2 = some c) :
    ∃ C, s.checkpoints.get? c = some C ∧ C.state = .committed := by
  have hc : c ∈ candidates s := List.mem_of_find?_eq_some h
  unfold candidates at hc
  rw [List.mem_map] at hc
  obtain ⟨⟨k, C⟩, he, rfl⟩ := hc
  rw [List.mem_insertionSort, List.mem_reverse, List.mem_filter] at he
  exact ⟨C, Dict.mem_items.mp he.1, of_decide_eq_true he.2⟩

/-! ## The invariant -/

/-- No checkpoint that a resume could choose is complete: neither a committed
one nor the job's latest. -/
def unfinished (s : State) : Bool :=
  s.checkpoints.items.all fun e =>
    e.2.completedUpdate ≠ s.job.updates
      ∨ (e.2.state ≠ .committed ∧ s.job.latestCheckpointId ≠ some e.1)

theorem unfinished_iff : unfinished s ↔ ∀ c C, s.checkpoints.get? c = some C →
      C.completedUpdate = s.job.updates →
      C.state ≠ .committed ∧ s.job.latestCheckpointId ≠ some c := by
  unfold unfinished
  simp only [List.all_eq_true, decide_eq_true_eq, ne_eq]
  constructor
  · intro h c C hC hu
    exact (h (c, C) (Dict.mem_items.mpr hC)).resolve_left (not_not_intro hu)
  intro h e he
  by_cases hu : e.2.completedUpdate = s.job.updates
  · exact .inr (h e.1 e.2 (Dict.mem_items.mp he) hu)
  · exact .inl hu

structure Numbered (s : State) : Prop where
  fences : ∀ {a A}, s.attempts.get? a = some A → A.fence ≤ s.job.fence
  single : ∀ {a b A B}, s.attempts.get? a = some A →
    s.attempts.get? b = some B → A.fence = B.fence → a = b
  last : ∀ {a A}, s.attempts.get? a = some A → A.state ≠ .stopped →
    A.fence = s.job.fence

/-- **What holds of the rows of a job**, whatever state it is in. -/
structure Rows (s : State) : Prop where
  /-- Fences are handed out in order, -/
  fences : ∀ {a A}, s.attempts.get? a = some A → A.fence ≤ s.job.fence
  single : ∀ {a b A B}, s.attempts.get? a = some A →
    s.attempts.get? b = some B → A.fence = B.fence → a = b
  /-- and only the last attempt may have a trainer. -/
  last : ∀ {a A}, s.attempts.get? a = some A → A.state ≠ .stopped →
    A.fence = s.job.fence
  /-- A checkpoint carries its attempt's fence, -/
  owned : ∀ {c C}, s.checkpoints.get? c = some C →
    ∃ A, s.attempts.get? C.attemptId = some A ∧ A.fence = C.fence
  /-- an attempt has one checkpoint to an update, -/
  distinct : ∀ {c d C D}, s.checkpoints.get? c = some C →
    s.checkpoints.get? d = some D → C.attemptId = D.attemptId →
    C.completedUpdate = D.completedUpdate → c = d
  /-- and no update is past the last. -/
  bounded : ∀ {c C}, s.checkpoints.get? c = some C →
    C.completedUpdate ≤ s.job.updates
  resumes : ∀ {a A c}, s.attempts.get? a = some A →
    A.resumeCheckpointId = some c →
    ∃ C, s.checkpoints.get? c = some C ∧ C.completedUpdate ≠ s.job.updates

def AllStopped (s : State) : Prop :=
  ∀ a A, s.attempts.get? a = some A → A.state = .stopped

structure Inv (s : State) : Prop extends Rows s where
  idle : s.job.state.idle → AllStopped s
  latest : ∀ {l}, s.job.latestCheckpointId = some l →
    ∃ L, s.checkpoints.get? l = some L ∧ L.state.settled
  /-- Before training no complete checkpoint counts. -/
  fresh : s.job.state.phase = 0 → unfinished s
  /-- In training a complete checkpoint counts only if it is the current
  attempt's, and then it is the latest. -/
  training : s.job.state.phase = 1 → ∀ {c C}, s.checkpoints.get? c = some C →
    C.completedUpdate = s.job.updates →
    (C.state = .committed →
      C.fence = s.job.fence ∧ s.job.latestCheckpointId = some c)
    ∧ (s.job.latestCheckpointId = some c → C.fence = s.job.fence)

theorem inv_submitted (updates : ℕ) (checkpointUpdates : List ℕ) :
    Inv (State.submitted updates checkpointUpdates) where
  fences := nofun
  single := nofun
  last := nofun
  idle := fun _ _ _ => nofun
  owned := nofun
  distinct := nofun
  bounded := nofun
  latest := nofun
  resumes := nofun
  fresh := fun _ => rfl
  training := fun h => nomatch h

theorem Keeps.unfinished (h : Keeps s s') (hs : unfinished s) : unfinished s' := by
  rw [unfinished_iff] at hs ⊢
  intro c C' hC' hu
  obtain ⟨C, hC, hf⟩ := h.checkpoints.get?_back hC'
  rw [hf.completedUpdate, h.updates] at hu
  obtain ⟨hstate, hlatest⟩ := hs c C hC hu
  exact ⟨hstate ∘ hf.committed, h.latest ▸ hlatest⟩

theorem training_of_unfinished (h : unfinished s) (hC : s.checkpoints.get? c = some C)
    (hu : C.completedUpdate = s.job.updates) :
    (C.state = .committed → C.fence = s.job.fence ∧ s.job.latestCheckpointId = some c)
    ∧ (s.job.latestCheckpointId = some c → C.fence = s.job.fence) := by
  obtain ⟨hstate, hlatest⟩ := unfinished_iff.mp h c C hC hu
  exact ⟨fun h => absurd h hstate, fun h => absurd h hlatest⟩

theorem AllStopped.keeps (h : AllStopped s) (hk : Keeps s s') :
    AllStopped s' := fun a A' hA' => by
  obtain ⟨A, hA, hw⟩ := hk.attempts.get?_back hA'
  exact hw.stopped (h a A hA)

theorem Rows.numbered (hs : Rows s) : Numbered s :=
  ⟨hs.fences, hs.single, hs.last⟩

theorem Numbered.same (hs : Numbered s) (hf : s'.job.fence = s.job.fence)
    (ha : s.attempts.Rel TrainingAttemptRow.Winds s'.attempts) :
    Numbered s' where
  fences hA' := by
    obtain ⟨A, hA, hw⟩ := ha.get?_back hA'
    rw [hw.fence, hf]
    exact hs.fences hA
  single hA' hB' heq := by
    obtain ⟨A, hA, hw⟩ := ha.get?_back hA'
    obtain ⟨B, hB, hw'⟩ := ha.get?_back hB'
    rw [hw.fence, hw'.fence] at heq
    exact hs.single hA hB heq
  last hA' hne := by
    obtain ⟨A, hA, hw⟩ := ha.get?_back hA'
    rw [hw.fence, hf]
    exact hs.last hA (hne ∘ hw.stopped)

theorem Rows.same (hs : Rows s)
    (hu : s'.job.updates = s.job.updates) (hf : s'.job.fence = s.job.fence)
    (ha : s.attempts.Rel TrainingAttemptRow.Winds s'.attempts)
    (hc : s.checkpoints.Rel TrainingCheckpointRow.Same s'.checkpoints) :
    Rows s' where
  fences := (hs.numbered.same hf ha).fences
  single := (hs.numbered.same hf ha).single
  last := (hs.numbered.same hf ha).last
  owned hC' := by
    obtain ⟨C, hC, hsame⟩ := hc.get?_back hC'
    obtain ⟨A, hA, hAC⟩ := hs.owned hC
    obtain ⟨A', hA', hw⟩ := ha.get? hA
    exact ⟨A', hsame.attemptId ▸ hA', by rw [hw.fence, hsame.fence, hAC]⟩
  distinct hC' hD' hatt hupd := by
    obtain ⟨C, hC, hsame⟩ := hc.get?_back hC'
    obtain ⟨D, hD, hsame'⟩ := hc.get?_back hD'
    rw [hsame.attemptId, hsame'.attemptId] at hatt
    rw [hsame.completedUpdate, hsame'.completedUpdate] at hupd
    exact hs.distinct hC hD hatt hupd
  bounded hC' := by
    obtain ⟨C, hC, hsame⟩ := hc.get?_back hC'
    rw [hsame.completedUpdate, hu]
    exact hs.bounded hC
  resumes hA' hr := by
    obtain ⟨A, hA, hw⟩ := ha.get?_back hA'
    obtain ⟨C, hC, hne⟩ := hs.resumes hA (hw.resume ▸ hr)
    obtain ⟨C', hC', hsame⟩ := hc.get? hC
    exact ⟨C', hC', by rw [hsame.completedUpdate, hu]; exact hne⟩

theorem Inv.keeps (hs : Inv s) (h : Keeps s s') : Inv s' where
  toRows := hs.toRows.same h.updates h.fence h.attempts (h.checkpoints.mono (·.toSame))
  idle hi := (hs.idle (h.idle hi)).keeps h
  latest {l} hl := by
    obtain ⟨L, hL, hset⟩ := hs.latest (h.latest ▸ hl)
    obtain ⟨L', hL', hf⟩ := h.checkpoints.get? hL
    exact ⟨L', hL', hf.settled hset⟩
  fresh h0 := by
    have := h.phase
    exact h.unfinished (hs.fresh (by omega))
  training h1 {c C'} hC' hu := by
    -- a job in training was so before, or was before training
    obtain h0 | h1 : s.job.state.phase = 0 ∨ s.job.state.phase = 1 := by
      have := h.phase
      omega
    · exact training_of_unfinished (h.unfinished (hs.fresh h0)) hC' hu
    obtain ⟨C, hC, hf⟩ := h.checkpoints.get?_back hC'
    rw [hf.completedUpdate, h.updates] at hu
    obtain ⟨hcommit, hlatest⟩ := hs.training h1 hC hu
    rw [hf.fence, h.fence, h.latest]
    exact ⟨hcommit ∘ hf.committed, hlatest⟩

theorem Inv.requeue (hs : Inv s) (h : unfinished s) (hp : s.job.state = .paused) :
    Inv { s with job := { s.job with state := .queued, pauseOrigin := none } } :=
  { hs with
    idle := fun _ => hs.idle (by rw [hp]; rfl)
    fresh := fun _ => h
    training := nofun }

/-! ## The administrator and the controller -/

theorem keeps_controlPause (s : State) : Keeps s (controlPause s) := by
  unfold controlPause
  split
  · exact .refl s
  extract_lets overriding
  split
  · exact .refl s
  refine keeps_pause ?_ ?_ _
  · split <;> rfl
  split
  · -- in the queue, or in place of an evaluation's pause
    rename_i h
    intro _
    rw [List.mem_pair] at h
    rcases h with h | h <;> rw [h] <;> rfl
  · exact nofun

theorem keeps_controlCancel (s : State) : Keeps s (controlCancel s) := by
  unfold controlCancel
  split
  · exact .refl s
  · split
    · exact keeps_setAside rfl rfl
    · exact (keeps_setAside rfl rfl).trans (keeps_enqueueStop _ _)

theorem keeps_protectivePause (s : State) : Keeps s (protectivePause s) := by
  unfold protectivePause
  split
  · exact keeps_pause (x := .pausing) rfl nofun _
  · exact .refl s

theorem inv_resumeAutomatic {origin : PauseOrigin} {eligible : Bool} (hs : Inv s)
    (h : s.job.state = .paused → unfinished s) :
    Inv (resumeAutomatic s origin eligible) := by
  unfold resumeAutomatic
  split
  · exact hs
  · rename_i hp
    simp only [not_or, ne_eq, not_not] at hp
    exact hs.requeue (h hp.1) hp.1

theorem keeps_unreachable (s : State) (a : ℕ) : Keeps s (unreachable s a) := by
  unfold unreachable
  split
  · exact .refl s
  rename_i A hA
  split
  · rename_i hact
    have hk : Keeps s (s.setAttempt a .unknown) :=
      keeps_setAttempt hA _ fun h => by rw [h] at hact; cases hact
    split
    · rename_i hst
      refine hk.trans (keeps_setState ?_ nofun)
      show s.job.state.phase ≤ 1
      rw [List.mem_pair] at hst
      rcases hst with h | h <;> rw [h] <;> decide
    · exact hk
  · exact .refl s

theorem keeps_trainingDisabled (s : State) : Keeps s (trainingDisabled s) := by
  unfold trainingDisabled
  split
  · exact .refl s
  · split
    · exact .refl s
    · exact keeps_setAside rfl rfl

theorem keeps_finalize (s : State) (ok : Bool) : Keeps s (finalize s ok) := by
  unfold finalize
  split
  · cases ok <;> exact keeps_setAside rfl rfl
  · exact .refl s

/-! ## Receipts, observations and events -/

theorem keeps_checkpointInvalid (s : State) (a : ℕ) :
    Keeps s (checkpointInvalid s a) := by
  unfold checkpointInvalid
  split
  · exact .refl s
  split
  · exact .refl s
  · split
    · exact .refl s
    · exact keeps_setCheckpoint (by decide) fun _ _ _ => rfl

theorem active_ne_stopped {x : AttemptState} (h : x.active = true) : x ≠ .stopped := by
  rintro rfl
  cases h

theorem keeps_startReceipt (s : State) (a rank : ℕ) (leased : Bool) :
    Keeps s (startReceipt s a rank leased) := by
  unfold startReceipt
  split
  · exact .refl s
  rename_i A hA
  split
  · exact .refl s
  rename_i hlive
  simp only [not_or, Bool.not_eq_true, Bool.not_eq_false'] at hlive
  have hne : A.state ≠ .stopped := active_ne_stopped hlive.2.1
  extract_lets A' s' missing
  have hk : Keeps s s' := keeps_setAttempts hA ⟨rfl, rfl, id⟩
  have hA' : s'.attempts.get? a = some A' := Dict.get?_set_self _ _ _
  have hset (x) : Keeps s (s'.setAttempt a x) :=
    hk.trans (keeps_setAttempt hA' x fun h => absurd h hne)
  split
  · rename_i h
    refine (hset .running).trans (keeps_setState ?_ nofun)
    show s.job.state.phase ≤ 1
    rw [h.2.1]
    decide
  · split
    · exact hset .stopping
    · exact hk

theorem keeps_observeTraining (s : State) (a rank : ℕ) (liveness : Liveness) :
    Keeps s (observeTraining s a rank liveness) := by
  unfold observeTraining
  split
  · exact .refl s
  rename_i A hA
  split
  · exact .refl s
  rename_i hlive
  simp only [not_or] at hlive
  cases liveness with
  | running =>
    have hk : Keeps s { s with
        attempts := s.attempts.set a { A with pids := rank :: A.pids } } :=
      keeps_setAttempts hA ⟨rfl, rfl, id⟩
    show Keeps s (if _ then _ else _)
    split
    · exact hk.trans (keeps_enqueueStop _ _)
    · exact hk
  | unknown =>
    have hk : Keeps s (s.setAttempt a .unknown) :=
      keeps_setAttempt hA _ fun h => absurd h hlive.2.2
    show Keeps s (if _ then _ else _)
    split
    · exact hk
    rename_i hst
    refine hk.trans (keeps_setState ?_ nofun)
    show s.job.state.phase ≤ 1
    cases h : s.job.state <;> rw [h] at hst <;> first
      | decide
      | exact absurd (by decide) hst

theorem keeps_ingestFailure (s : State) (a : ℕ) : Keeps s (ingestFailure s a) := by
  unfold ingestFailure
  split
  · exact .refl s
  split
  · exact .refl s
  rename_i hst
  refine keeps_setState ?_ nofun
  cases h : s.job.state <;> rw [h] at hst <;> first
    | decide
    | exact absurd (.inr (by decide)) hst

theorem keeps_failAttempt (hidle : s.job.state.idle → AllStopped s)
    (a : ℕ) : Keeps s (failAttempt s a) := by
  unfold failAttempt
  split
  · exact .refl s
  rename_i A hA
  split
  · exact .refl s
  rename_i hlive
  simp only [not_or] at hlive
  split
  · exact keeps_enqueueStop _ _
  rename_i hst
  refine (keeps_setState (x := .recovering) ?_ nofun).trans (keeps_enqueueStop _ _)
  cases h : s.job.state <;> rw [h] at hst <;> first
    | decide
    | exact absurd (by decide) hst
    -- a paused job has no attempt to fail
    | exact absurd (hidle (by rw [h]; rfl) a A hA) hlive.2

/-! ## Checkpoints -/

theorem recoveryCheckpoint_job (s : State) (intact : ℕ → Bool) :
    (recoveryCheckpoint s intact).1.job = s.job := by
  unfold recoveryCheckpoint
  generalize (candidates s).takeWhile (fun c => !intact c) = cs
  show (cs.foldl _ s).job = s.job
  induction cs generalizing s with
  | nil => rfl
  | cons c cs ih => exact ih (s.setCheckpoint c .corrupt)

def NoneCommitted (s : State) : Prop :=
  ∀ c C, s.checkpoints.get? c = some C → C.completedUpdate = s.job.updates →
    C.state ≠ .committed

theorem noneCommitted_of_unfinished (h : unfinished s) :
    NoneCommitted s := fun c C hC hu => (unfinished_iff.mp h c C hC hu).1

theorem Inv.noneCommitted (hs : Inv s)
    (h1 : s.job.state.phase = 1) (h : ¬ finalizable s) : NoneCommitted s := by
  grind [Inv, NoneCommitted, finalizable]

theorem unfinished_select (h : NoneCommitted s)
    (intact : ℕ → Bool) : unfinished (select s intact) := by
  rw [unfinished_iff]
  have hk := keeps_recoveryCheckpoint s intact
  intro c C' hC' hu
  obtain ⟨C, hC, hf⟩ := hk.checkpoints.get?_back hC'
  have hu : C.completedUpdate = s.job.updates := by
    rw [← hf.completedUpdate, ← hk.updates]
    exact hu
  refine ⟨h c C hC hu ∘ hf.committed, fun hl => ?_⟩
  obtain ⟨D, hD, hcommit⟩ := recoveryCheckpoint_committed hl
  rw [hC] at hD
  cases hD
  exact h c C hC hu hcommit

/-- **Selecting a recovery checkpoint** is safe for a job set aside, and for any
job with nothing complete that is committed. -/
theorem inv_select (hs : Inv s) (intact : ℕ → Bool)
    (h : s.job.state.phase = 2 ∨ NoneCommitted s) : Inv (select s intact) := by
  have hk := keeps_recoveryCheckpoint s intact
  have hphase : (select s intact).job.state.phase = s.job.state.phase := by
    show (recoveryCheckpoint s intact).1.job.state.phase = _
    rw [recoveryCheckpoint_job]
  have hunfinished : s.job.state.phase ≠ 2 → unfinished (select s intact) :=
    fun h2 => unfinished_select (h.resolve_left h2) intact
  exact { hs.keeps hk with
    latest := fun {l} hl => by
      obtain ⟨C, hC, hcommit⟩ := recoveryCheckpoint_committed hl
      obtain ⟨C', hC', hf⟩ := hk.checkpoints.get? hC
      exact ⟨C', hC', hf.settled (by rw [hcommit]; rfl)⟩
    fresh := fun h0 => hunfinished (by rw [← hphase, h0]; decide)
    training := fun h1 =>
      training_of_unfinished (hunfinished (by rw [← hphase, h1]; decide)) }

theorem AllStopped.select (h : AllStopped s) (intact : ℕ → Bool) :
    AllStopped (select s intact) :=
  show AllStopped (recoveryCheckpoint s intact).1 from
    h.keeps (keeps_recoveryCheckpoint s intact)

theorem inv_controlResume {permitted : Bool} {intact : ℕ → Bool}
    (hs : Inv s) (h : s.job.state = .paused → unfinished s) :
    Inv (controlResume s permitted intact) := by
  unfold controlResume
  split
  · exact hs
  rename_i hp
  simp only [not_or, ne_eq, not_not] at hp
  split
  · exact hs
  refine (inv_select hs intact (.inl (by rw [hp.1]; rfl))).requeue
    (unfinished_select (noneCommitted_of_unfinished (h hp.1)) intact) ?_
  show (recoveryCheckpoint s intact).1.job.state = _
  rw [recoveryCheckpoint_job, hp.1]

theorem Inv.park (hs : Inv s) (h : AllStopped s) : Inv (s.setState .paused) :=
  { hs with idle := fun _ => h, fresh := nofun, training := nofun }

inductive Proves (s : State) (a rank : ℕ) (intact : ℕ → Bool) (s' : State) :
    Prop
  | keeps (hp : pauses s a rank = false) (h : Keeps s s')
  | parks (hp : pauses s a rank = true) (s₂ : State) (hk : Keeps s s₂)
    (hjob : s₂.job = s.job) (hc : s₂.checkpoints = s.checkpoints)
    (hall : AllStopped s₂) (h : s' = (select s₂ intact).setState .paused)

theorem pauses_of_attempt
    (hA : s.attempts.get? a = some A) (rank : ℕ) : pauses s a rank = true ↔
      rank < A.worldSize ∧ A.state ≠ .stopped
      ∧ (∀ r ∈ List.range A.worldSize, r ∈ rank :: A.stopProofs)
      ∧ s.job.fence = A.fence ∧ s.job.state = .pausing := by
  unfold pauses
  rw [hA]
  exact decide_eq_true_iff

theorem recordStopProof_proves (hs : Numbered s)
    (hidle : s.job.state.idle → AllStopped s) (a rank : ℕ)
    (intact : ℕ → Bool) :
    Proves s a rank intact (recordStopProof s a rank intact) := by
  unfold recordStopProof
  split
  · rename_i hA
    refine .keeps ?_ (.refl s)
    unfold pauses
    rw [hA]
  · rename_i A hA
    have hpauses := pauses_of_attempt hA rank
    split
    · rename_i hdone
      refine .keeps (Bool.eq_false_iff.mpr fun hp => ?_) (.refl s)
      obtain ⟨hlt, hne, -⟩ := hpauses.mp hp
      exact hdone.elim (Nat.not_le_of_lt hlt) hne
    · rename_i hlive
      rw [not_or] at hlive
      extract_lets A' s₁ s₂
      have hk₁ : Keeps s s₁ := keeps_setAttempts hA ⟨rfl, rfl, id⟩
      split
      · rename_i hmissing
        refine .keeps (Bool.eq_false_iff.mpr fun hp => ?_) hk₁
        obtain ⟨r, hr, hnot⟩ := List.any_eq_true.mp hmissing
        exact of_decide_eq_true hnot ((hpauses.mp hp).2.2.1 r hr)
      · rename_i hproved
        have hA' : s₁.attempts.get? a = some A' := Dict.get?_set_self _ _ _
        have hk : Keeps s s₂ :=
          hk₁.trans (keeps_setAttempt hA' _ fun _ => rfl)
        split
        · grind [cases Numbered]
        · rename_i hfence
          rw [ne_eq, not_not] at hfence
          -- the attempt was the only one left, so now all are stopped
          have hall : AllStopped s₂ := by
            intro b B hB
            by_cases hb : b = a
            · subst hb
              have hstopped : s₂.attempts.get? b = some { A' with state := .stopped } :=
                Dict.get?_modify_self hA'
              cases hstopped.symm.trans hB
              rfl
            · obtain ⟨B₀, hB₀, hw⟩ := hk.attempts.get?_back hB
              refine hw.stopped (Classical.byContradiction fun hne => hb ?_)
              exact hs.single hB₀ hA ((hs.last hB₀ hne).trans hfence)
          have hother {x : TrainingJobState} (hx : s.job.state = x)
              (hne : x ≠ .pausing) : pauses s a rank = false :=
            Bool.eq_false_iff.mpr fun hp =>
              hne (hx.symm.trans (hpauses.mp hp).2.2.2.2)
          split
          · exact .keeps (hother ‹_› (by decide)) (hk.trans (keeps_setAside rfl rfl))
          · rename_i hst
            refine .parks (hpauses.mpr ⟨Nat.lt_of_not_le hlive.1, hlive.2,
              fun r hr => ?_, hfence, hst⟩) s₂ hk rfl rfl hall rfl
            by_contra hnot
            exact hproved (List.any_eq_true.mpr ⟨r, hr, decide_eq_true hnot⟩)
          · exact .keeps (hother ‹_› (by decide)) hk
          · exact .keeps (hother ‹_› (by decide)) hk
          · exact .keeps (hother ‹_› (by decide)) hk
          · exact .keeps (hother ‹_› (by decide)) hk
          · rename_i hpausing _ _ _ _
            refine .keeps (Bool.eq_false_iff.mpr fun hp =>
              hpausing (hpauses.mp hp).2.2.2.2)
              (hk.trans (keeps_setState (x := .recovering) ?_ nofun))
            show s.job.state.phase ≤ 1
            cases h : s.job.state <;> first
              | decide
              | exact absurd h ‹_›
              -- a paused job had no attempt to stop
              | exact absurd (hidle (by rw [h]; rfl) a A hA) hlive.2

theorem inv_recordStopProof (hs : Inv s) (a rank : ℕ)
    (intact : ℕ → Bool) : Inv (recordStopProof s a rank intact) := by
  obtain ⟨-, hk⟩ | ⟨hp, s₂, hk, hjob, -, hall, heq⟩ :=
    recordStopProof_proves hs.numbered hs.idle a rank intact
  · exact hs.keeps hk
  have h2 : s₂.job.state.phase = 2 := by
    unfold pauses at hp
    split at hp
    · cases hp
    · rw [hjob, (of_decide_eq_true hp).2.2.2.2]
      rfl
  rw [heq]
  exact (inv_select (hs.keeps hk) intact (.inl h2)).park (hall.select intact)

theorem currentAttempt_spec {fence : ℕ} {leased : Bool}
    (h : currentAttempt s a fence leased = true) :
    ∃ A, s.attempts.get? a = some A ∧ A.fence = fence ∧ s.job.fence = fence
      ∧ s.job.state ∈ [.running, .pausing] := by
  unfold currentAttempt at h
  split at h
  · grind
  · cases h

theorem inv_stageCheckpoint (hs : Inv s) (c a update : ℕ)
    (leased : Bool) : Inv (stageCheckpoint s c a update leased) := by
  unfold stageCheckpoint
  split
  · exact hs
  rename_i hcur
  simp only [Bool.or_eq_true, Bool.not_eq_true', decide_eq_true_eq, not_or,
    Bool.not_eq_false, Nat.not_lt] at hcur
  obtain ⟨A, hA, hfence, _, hst⟩ := currentAttempt_spec hcur.1
  split
  · exact hs
  rename_i hnew
  rw [Bool.not_eq_true, Option.isSome_eq_false_iff, Option.isNone_iff_eq_none] at hnew
  split
  · exact hs
  rename_i hdup
  have hdup : ∀ {d D}, s.checkpoints.get? d = some D →
      D.attemptId = a → D.completedUpdate ≠ update := by
    intro d D hD ha hu
    refine hdup (List.any_eq_true.mpr
      ⟨D, Dict.mem_values.mpr ⟨d, hD⟩, decide_eq_true ⟨ha, hu⟩⟩)
  have hne : s.job.state.phase ≠ 0 := by
    rw [List.mem_pair] at hst
    rcases hst with h | h <;> rw [h] <;> decide
  exact { hs with
    owned := fun hD => by
      obtain ⟨-, rfl⟩ | ⟨-, hold⟩ := Dict.get?_set_eq_some.mp hD
      · exact ⟨A, hA, hfence⟩
      · exact hs.owned hold
    distinct := fun hD hE ha hu => by
      obtain ⟨rfl, rfl⟩ | ⟨-, hD'⟩ := Dict.get?_set_eq_some.mp hD
      · grind
      · obtain ⟨rfl, rfl⟩ | ⟨-, hE'⟩ := Dict.get?_set_eq_some.mp hE
        · exact absurd hu (hdup hD' ha)
        · exact hs.distinct hD' hE' ha hu
    bounded := fun hD => by
      obtain ⟨-, rfl⟩ | ⟨-, hold⟩ := Dict.get?_set_eq_some.mp hD
      · exact hcur.2
      · exact hs.bounded hold
    latest := fun hl => by
      obtain ⟨L, hL, hset⟩ := hs.latest hl
      exact ⟨L, Dict.get?_set_of_none hnew hL, hset⟩
    resumes := fun hB hd => by
      obtain ⟨D, hD, hne⟩ := hs.resumes hB hd
      exact ⟨D, Dict.get?_set_of_none hnew hD, hne⟩
    fresh := fun h0 => absurd h0 hne
    training := fun h1 {d D} hD hu => by
      obtain ⟨rfl, rfl⟩ | ⟨-, hold⟩ := Dict.get?_set_eq_some.mp hD
      · refine ⟨nofun, fun hl => ?_⟩
        -- the latest checkpoint was there before
        obtain ⟨L, hL, -⟩ := hs.latest hl
        exact absurd (hnew.symm.trans hL) nofun
      · exact hs.training h1 hold hu }

/-- The current attempt's complete checkpoint is further than the latest: one
as far would be the same attempt's and the same. -/
theorem Inv.further (hs : Inv s) (h1 : s.job.state.phase = 1)
    (hC : s.checkpoints.get? c = some C) (hfence : C.fence = s.job.fence)
    (hnew : C.state.settled = false)
    (hu : C.completedUpdate = s.job.updates) : further s C := by
  unfold TrainingJobs.further
  split
  · rename_i L hL
    obtain ⟨l, hl, hL⟩ := Option.bind_eq_some_iff.mp hL
    refine decide_eq_true (Nat.lt_of_le_of_ne (hu ▸ hs.bounded hL) fun heq => ?_)
    have hLf : L.fence = s.job.fence :=
      (hs.training h1 hL (heq.trans hu)).2 hl
    obtain ⟨A, hA, hAL⟩ := hs.owned hL
    obtain ⟨B, hB, hBC⟩ := hs.owned hC
    have hatt : L.attemptId = C.attemptId :=
      hs.single hA hB (by rw [hAL, hBC, hLf, hfence])
    obtain rfl : l = c := hs.distinct hL hC hatt heq
    obtain ⟨L', hL', hset⟩ := hs.latest hl
    rw [hC] at hL'
    cases hL'
    rw [hnew] at hset
    cases hset
  · rfl

theorem Inv.commit (hs : Inv s)
    (hC : s.checkpoints.get? c = some C) (hfence : C.fence = s.job.fence)
    (hnew : C.state.settled = false) (hphase : s.job.state.phase ≠ 0)
    {latest : Option ℕ} (hlatest : latest
      = if TrainingJobs.further s C then some c else s.job.latestCheckpointId) :
    Inv { s.setCheckpoint c .committed with
      job := { s.job with latestCheckpointId := latest } } := by
  subst hlatest
  have hrel : s.checkpoints.Rel TrainingCheckpointRow.Same
      (s.setCheckpoint c .committed).checkpoints :=
    Dict.rel_modify .refl fun _ _ => ⟨rfl, rfl, rfl, fun _ => rfl⟩
  have hself : (s.setCheckpoint c .committed).checkpoints.get? c
      = some { C with state := .committed } := Dict.get?_modify_self hC
  have hother {d : ℕ} (hd : d ≠ c) : (s.setCheckpoint c .committed).checkpoints.get? d
        = s.checkpoints.get? d := by
    show (Dict.modify _ _ _).get? d = _
    rw [Dict.get?_modify, if_neg hd]
  refine
    { toRows := hs.toRows.same rfl rfl (Dict.rel_refl .refl _) hrel
      idle := hs.idle
      latest := ?_
      fresh := fun h0 => absurd h0 hphase
      training := ?_ }
  · intro l hl
    simp only at hl
    split at hl
    · cases hl
      exact ⟨_, hself, rfl⟩
    · grind [cases Inv]
  · intro h1 d D hD hu
    by_cases hd : d = c
    · grind [further]
    · have hD : s.checkpoints.get? d = some D := (hother hd) ▸ hD
      obtain ⟨hcommit, hlatest⟩ := hs.training h1 hD hu
      constructor
      · intro hst
        refine ⟨(hcommit hst).1, (if_neg ?_).trans (hcommit hst).2⟩
        -- nothing is further than a complete checkpoint
        unfold TrainingJobs.further
        rw [(hcommit hst).2, Option.bind_some, hD]
        have := hs.bounded hC
        simp only [decide_eq_true_eq, Nat.not_lt, hu]
        exact this
      · grind

theorem inv_commitCheckpoint (hs : Inv s) (c : ℕ)
    (leased verified : Bool) (trigger : Trigger) :
    Inv (commitCheckpoint s c leased verified trigger) := by
  have hget {t : State} {C} (ht : Inv t) :
      Inv ((ensureCheckpointTrigger t C trigger).getD s) := by
    cases h : ensureCheckpointTrigger t C trigger with
    | none => exact hs
    | some t' => exact ht.keeps (keeps_ensureCheckpointTrigger h)
  unfold commitCheckpoint
  split
  · exact hs
  rename_i C hC
  split
  · exact hget hs
  split
  · exact hs
  rename_i hcur
  simp only [Bool.or_eq_true, Bool.not_eq_true', decide_eq_true_eq,
    not_or, Bool.not_eq_false, not_not] at hcur
  obtain ⟨⟨hcur, hnew⟩, -⟩ := hcur
  obtain ⟨A, hA, -, hfence, hst⟩ := currentAttempt_spec hcur
  refine hget (hs.commit hC hfence.symm ?_ ?_ rfl)
  · rw [List.mem_pair] at hnew
    rcases hnew with h | h <;> rw [h] <;> rfl
  · rw [List.mem_pair] at hst
    rcases hst with h | h <;> rw [h] <;> decide

/-! ## The scheduler -/

theorem allStopped_of_active (h : s.active = none) : AllStopped s := by
  unfold State.active at h
  rw [Option.map_eq_none_iff, List.find?_eq_none] at h
  intro a A hA
  have := h (a, A) (Dict.mem_items.mpr hA)
  cases hst : A.state <;> rw [hst] at this <;> first
    | rfl
    | exact absurd rfl this

theorem Numbered.admitTraining (hs : Numbered s)
    (hidle : AllStopped s) (id worldSize : ℕ) :
    Numbered (admitTraining s id worldSize) where
  fences hA := by
    obtain ⟨-, rfl⟩ | ⟨-, hold⟩ := Dict.get?_set_eq_some.mp hA
    · exact Nat.le_refl _
    · exact Nat.le_succ_of_le (hs.fences hold)
  single hA hB heq := by
    -- the new fence is past all the old ones
    obtain ⟨rfl, rfl⟩ | ⟨-, hA'⟩ := Dict.get?_set_eq_some.mp hA
    · obtain ⟨rfl, -⟩ | ⟨-, hB'⟩ := Dict.get?_set_eq_some.mp hB
      · rfl
      · grind [cases Numbered]
    · obtain ⟨rfl, rfl⟩ | ⟨-, hB'⟩ := Dict.get?_set_eq_some.mp hB
      · grind [cases Numbered]
      · exact hs.single hA' hB' heq
  last hA hne := by
    obtain ⟨-, rfl⟩ | ⟨-, hold⟩ := Dict.get?_set_eq_some.mp hA
    · rfl
    · exact absurd (hidle _ _ hold) hne

theorem Inv.admitTraining (hs : Inv s) (h : unfinished s) (hidle : AllStopped s)
    {id : ℕ} (hid : s.attempts.get? id = none) (worldSize : ℕ) :
    Inv (admitTraining s id worldSize) where
  fences := (hs.numbered.admitTraining hidle id worldSize).fences
  single := (hs.numbered.admitTraining hidle id worldSize).single
  last := (hs.numbered.admitTraining hidle id worldSize).last
  owned hC := by
    obtain ⟨A, hA, hf⟩ := hs.owned hC
    exact ⟨A, Dict.get?_set_of_none hid hA, hf⟩
  distinct := hs.distinct
  bounded := hs.bounded
  resumes hA hc := by
    obtain ⟨-, rfl⟩ | ⟨-, hold⟩ := Dict.get?_set_eq_some.mp hA
    · obtain ⟨L, hL, -⟩ := hs.latest hc
      exact ⟨L, hL, fun hu => (unfinished_iff.mp h _ L hL hu).2 hc⟩
    · exact hs.resumes hold hc
  idle := nofun
  latest := hs.latest
  fresh := fun _ => h
  training := nofun

theorem inv_admission (hs : Inv s) (h : unfinished s) (hidle : AllStopped s)
    {outcome : Admission} {recovering : Bool}
    (hadm : admission s outcome recovering = some s') : Inv s' := by
  unfold admission at hadm
  split at hadm
  · cases hadm
  · cases hadm
    exact hs
  · cases hadm
    exact hs.keeps (keeps_setAside rfl rfl)
  · split at hadm <;> cases hadm
    · exact hs
    · rename_i hid
      rw [Bool.not_eq_true, Option.isSome_eq_false_iff,
        Option.isNone_iff_eq_none] at hid
      exact (hs.admitTraining h hidle hid _).keeps { Keeps.refl _ with }

inductive Advances (s : State) (t : Tick) (s' : State) : Prop
  | keeps (hr : recovers s t = false) (h : Keeps s s')
  | admits (hr : recovers s t = false) (hst : s.job.state = .preflighting)
    (hnone : s.active = none)
    (h : admission (s.setState .queued) t.admission false = some s')
  | recovers (hr : recovers s t = true)
    (h : admission (select s t.intact) t.admission true = some s')

theorem recovers_iff : recovers s t = true ↔
    s.job.state = .recovering ∧ s.active = none ∧ t.queueExpired = false
      ∧ t.authorized = true ∧ t.allowed = true ∧ ¬ finalizable s = true
      ∧ s.job.recoveryAttempts < 3
      ∧ (s.job.latestCheckpointId = none
        ∨ (recoveryCheckpoint s t.intact).2 ≠ none) := by
  unfold recovers
  simp only [decide_eq_true_eq, Bool.not_eq_true', Bool.not_eq_true]

def lapse (s : State) (t : Tick) : State :=
  let s := if t.executionExpired
      ∧ (s.active.isSome ∨ s.job.state = .finalizing)
    then s.setState .cancelling else s
  if s.active.isSome ∧ t.leaseExpired ∧ s.job.state ∈ [.running, .reserving]
    then s.setState .recovering else s

/-- What authority and the deadlines make of a job before its own state is looked
at. -/
def overdue (s : State) (t : Tick) : State :=
  lapse (if t.authorized then s else s.setState .cancelling) t

theorem advanceTraining_eq (s : State) (t : Tick) : advanceTraining s t =
    if s.job.state ∈ [.succeeded, .failed, .cancelled, .paused] then some s
    else if s.active = none ∧ s.job.state ∈ [.queued, .preflighting, .recovering]
        ∧ t.queueExpired then some (s.setState .failed)
    else advanceLive (overdue s t) t := rfl

theorem keeps_lapse (s : State) (t : Tick) :
    Keeps s (lapse s t) ∧ (lapse s t).active = s.active := by
  unfold lapse
  extract_lets s₁
  have h₁ : Keeps s s₁ ∧ s₁.active = s.active := by
    show Keeps s (if _ then _ else _) ∧ State.active (if _ then _ else _) = _
    split
    · exact ⟨keeps_setAside rfl rfl, rfl⟩
    · exact ⟨.refl s, rfl⟩
  split
  · rename_i hst
    refine ⟨h₁.1.trans (keeps_setState (x := .recovering) ?_ nofun), h₁.2⟩
    have := hst.2.2
    rw [List.mem_pair] at this
    rcases this with h | h <;> rw [h] <;> decide
  · exact h₁

theorem keeps_overdue (s : State) (t : Tick) :
    Keeps s (overdue s t) ∧ (overdue s t).active = s.active := by
  unfold overdue
  split
  · exact keeps_lapse s t
  · obtain ⟨hk, hactive⟩ := keeps_lapse (s.setState .cancelling) t
    exact ⟨(keeps_setAside rfl rfl).trans hk, hactive⟩

theorem lapse_of_none (hnone : s.active = none) (t : Tick) :
    lapse s t = if t.executionExpired ∧ s.job.state = .finalizing
      then s.setState .cancelling else s := by
  have hcancelled : (s.setState .cancelling).active = none := hnone
  unfold lapse
  simp only [hnone, Option.isSome_none, Bool.false_eq_true, false_or]
  split
  · grind
  · grind

theorem overdue_of_none (hnone : s.active = none) :
    overdue s t = s ∧ t.authorized = true ∨ (overdue s t).job.state = .cancelling := by
  unfold overdue
  split
  · rw [lapse_of_none hnone]
    split
    · exact .inr rfl
    · exact .inl ⟨rfl, ‹_›⟩
  · rw [lapse_of_none (s := s.setState .cancelling) hnone, if_neg nofun]
    exact .inr rfl

theorem advanceTraining_of_recovers (h : recovers s t = true) :
    advanceTraining s t = admission (select s t.intact) t.admission true := by
  obtain ⟨hst, hnone, hqueue, hauth, hallowed, hfin, hattempts, hfound⟩ :=
    recovers_iff.mp h
  have hidle : advanceIdle s t = admission (select s t.intact) t.admission true := by
    grind [advanceIdle]
  have hlive : advanceLive s t = advanceIdle s t := by
    unfold advanceLive
    rw [hst, hnone]
    exact if_pos hallowed
  have hsame : overdue s t = s := by
    grind [overdue, lapse_of_none]
  rw [advanceTraining_eq, if_neg (by rw [hst]; decide),
    if_neg (fun hexpired => by rw [hqueue] at hexpired; cases hexpired.2.2),
    hsame, hlive, hidle]

theorem advanceIdle_cases (h : advanceIdle s t = some s') : Keeps s s'
    ∨ s.job.state = .preflighting
      ∧ admission (s.setState .queued) t.admission false = some s'
    ∨ s.job.state = .recovering ∧ ¬ finalizable s = true ∧ s.job.recoveryAttempts < 3
      ∧ (s.job.latestCheckpointId = none
        ∨ (recoveryCheckpoint s t.intact).2 ≠ none) := by
  unfold advanceIdle at h
  split at h
  · -- the trained job is finalized
    rename_i hfin
    split at h <;> cases h
    refine .inl (keeps_setState ?_ nofun)
    obtain ⟨hst, -⟩ := hfin
    rw [List.mem_pair] at hst
    rcases hst with h | h <;> rw [h] <;> exact Nat.le_refl _
  · rename_i hfin
    split at h
    · exact .inr (.inl ⟨‹_›, h⟩)
    · rename_i hst
      split at h
      · cases h
        exact .inl (keeps_setAside rfl rfl)
      rename_i hattempts
      split at h
      · cases h
        exact .inl ((keeps_recoveryCheckpoint s _).trans (keeps_setAside rfl rfl))
      · grind
    · cases h
      exact .inl (.refl s)

theorem advanceLive_cases (h : advanceLive s t = some s') : Keeps s s'
    ∨ s.active = none ∧ s.job.state ≠ .cancelling ∧ advanceIdle s t = some s'
      ∧ (s.job.state = .recovering → t.allowed = true) := by
  unfold advanceLive at h
  split at h
  · cases h
    exact .inl (keeps_enqueueStop _ _)
  · cases h
    exact .inl (keeps_setAside rfl rfl)
  · cases h
    split
    · exact .inl (keeps_enqueueStop _ _)
    · exact .inl (.refl s)
  · cases h
    exact .inl (keeps_enqueueStop _ _)
  · rename_i hst _
    split at h
    · cases h
      exact .inl ((keeps_setState (x := .recovering)
        (by rw [hst]; decide) nofun).trans (keeps_enqueueStop _ _))
    · split at h <;> cases h
      exact .inl (.refl s)
  · split at h <;> cases h
    exact .inl (.refl s)
  · rename_i hst _
    cases h
    split
    · exact .inl (keeps_setState (by rw [hst]; exact Nat.le_refl _)
        fun _ => by rw [hst]; rfl)
    · exact .inl (.refl s)
  · rename_i hst hnone
    split at h
    · exact .inr ⟨hnone, by rw [hst]; decide, h, fun _ => ‹_›⟩
    · cases h
      exact .inl (.refl s)
  · rename_i hst hnone
    split at h
    · grind
    · cases h
      exact .inl (.refl s)
  · grind
  · cases h
    exact .inl (.refl s)

theorem advanceTraining_advances
    (h : advanceTraining s t = some s') : Advances s t s' := by
  cases hr : recovers s t with
  | true =>
    rw [advanceTraining_of_recovers hr] at h
    exact .recovers hr h
  | false =>
    rw [advanceTraining_eq] at h
    split at h
    · cases h
      exact .keeps hr (.refl s)
    split at h
    · cases h
      exact .keeps hr (keeps_setAside rfl rfl)
    rename_i hqueue
    obtain ⟨hk, hactive⟩ := keeps_overdue s t
    obtain hkeeps | ⟨hnone, hne, hidle, hallowed⟩ := advanceLive_cases h
    · exact .keeps hr (hk.trans hkeeps)
    rw [hactive] at hnone
    -- a job that is not set aside was left as it is
    obtain ⟨heq, hauth⟩ := (overdue_of_none hnone).resolve_right hne
    rw [heq] at hidle hallowed
    obtain hkeeps | ⟨hst, hadm⟩ | ⟨hst, hfin, hattempts, hfound⟩ :=
      advanceIdle_cases hidle
    · exact .keeps hr hkeeps
    · exact .admits hr hst hnone hadm
    refine absurd (recovers_iff.mpr ⟨hst, hnone, ?_, hauth, hallowed hst,
      hfin, hattempts, hfound⟩) (Bool.eq_false_iff.mp hr)
    exact Bool.eq_false_iff.mpr fun hexpired =>
      hqueue ⟨hnone, by rw [hst]; decide, hexpired⟩

theorem inv_advanceTraining (hs : Inv s)
    (h : advanceTraining s t = some s') : Inv s' := by
  obtain ⟨-, hk⟩ | ⟨-, hst, hnone, hadm⟩ | ⟨hr, hadm⟩ :=
    advanceTraining_advances h
  · exact hs.keeps hk
  · have hk : Keeps s (s.setState .queued) :=
      keeps_setState (by rw [hst]; exact Nat.le_refl _) fun _ => by rw [hst]; rfl
    exact inv_admission (hs.keeps hk) (hk.unfinished (hs.fresh (by rw [hst]; rfl)))
      (allStopped_of_active hnone) hadm
  · obtain ⟨hst, hnone, -, -, -, hfin, -⟩ := recovers_iff.mp hr
    have hnc : NoneCommitted s := hs.noneCommitted (by rw [hst]; rfl) hfin
    exact inv_admission (inv_select hs _ (.inr hnc)) (unfinished_select hnc _)
      ((allStopped_of_active hnone).select t.intact) hadm

theorem keeps_advance_of_none
    (h : advanceTraining s t = none) (t' : Tick) : Keeps s (advance s t t') := by
  unfold advance
  rw [h]
  extract_lets s₁
  have haside : Keeps s s₁ ∧ s₁.job.state.phase = 2 := by
    show Keeps s (if _ then _ else _) ∧ (ite _ _ _ : State).job.state.phase = 2
    split
    · rename_i hst
      refine ⟨.refl s, ?_⟩
      revert hst
      cases s.job.state <;> decide
    · exact ⟨keeps_setAside rfl rfl, rfl⟩
  obtain ⟨hk, hphase⟩ := haside
  cases hagain : advanceTraining s₁ t' with
  | none => exact .refl s
  | some s' =>
    obtain ⟨-, hk'⟩ | ⟨-, hst, -⟩ | ⟨hr, -⟩ := advanceTraining_advances hagain
    · exact hk.trans hk'
    · rw [hst] at hphase
      cases hphase
    · rw [(recovers_iff.mp hr).1] at hphase
      cases hphase

theorem inv_advance (hs : Inv s) (t t' : Tick) : Inv (advance s t t') := by
  cases h : advanceTraining s t with
  | none => exact hs.keeps (keeps_advance_of_none h t')
  | some s' =>
    unfold advance
    rw [h]
    exact inv_advanceTraining hs h

/-! ## Runs -/

/-- **The condition on a step**: where it resumes a paused job, no checkpoint
that is committed or is the job's latest is complete. -/
def Resumable (s : State) : Label → Prop
  | .resume _ _ | .resumeAutomatic _ _ =>
    s.job.state = .paused → unfinished s = true
  | _ => True

instance (s : State) (l : Label) : Decidable (Resumable s l) := by
  unfold Resumable
  split <;> infer_instance

theorem keeps_replicate (s : State) (c : ℕ) : Keeps s (step s (.replicate c)) := by
  show Keeps s (if _ then _ else _)
  split
  · rename_i hst
    refine keeps_setCheckpoint (by decide) fun C hC hset => ?_
    rw [hC, Option.map_some, Option.some_inj] at hst
    rw [hst] at hset
    cases hset
  · exact .refl s

theorem keeps_purge (s : State) (c : ℕ) : Keeps s (step s (.purge c)) := by
  show Keeps s (if _ then _ else if _ then _ else _)
  split
  · exact .refl s
  · split
    · exact keeps_setCheckpoint (by decide) fun _ _ _ => rfl
    · exact .refl s

theorem inv_step (s : State) (l : Label) (hs : Inv s) (h : Resumable s l) :
    Inv (step s l) := by
  cases l with
  | pause => exact hs.keeps (keeps_controlPause s)
  | resume => exact inv_controlResume hs h
  | cancel => exact hs.keeps (keeps_controlCancel s)
  | protectivePause => exact hs.keeps (keeps_protectivePause s)
  | resumeAutomatic => exact inv_resumeAutomatic hs h
  | unreachable a => exact hs.keeps (keeps_unreachable s a)
  | trainingDisabled => exact hs.keeps (keeps_trainingDisabled s)
  | finalize ok => exact hs.keeps (keeps_finalize s ok)
  | checkpointInvalid a => exact hs.keeps (keeps_checkpointInvalid s a)
  | startReceipt a rank leased =>
    exact hs.keeps (keeps_startReceipt s a rank leased)
  | observe a rank liveness =>
    exact hs.keeps (keeps_observeTraining s a rank liveness)
  | failure a => exact hs.keeps (keeps_ingestFailure s a)
  | failAttempt a => exact hs.keeps (keeps_failAttempt hs.idle a)
  | stopProof a rank intact => exact inv_recordStopProof hs a rank intact
  | stage c a update leased => exact inv_stageCheckpoint hs c a update leased
  | replicate c => exact hs.keeps (keeps_replicate s c)
  | commit c leased verified trigger =>
    exact inv_commitCheckpoint hs c leased verified trigger
  | purge c => exact hs.keeps (keeps_purge s c)
  | advance t t' => exact inv_advance hs t t'

/-- **No attempt resumes from a complete checkpoint**: one whose
`completed_update` is the job's number of optimizer updates. -/
def NeverRetrained (s : State) : Prop :=
  ∀ a A c C, s.attempts.get? a = some A → A.resumeCheckpointId = some c →
    s.checkpoints.get? c = some C → C.completedUpdate ≠ s.job.updates

/-- **A fully trained job is not trained again** in any run none of whose
resumes finds a complete checkpoint that is committed or the job's latest. -/
theorem never_retrained_of_resumable (updates : ℕ)
    (checkpointUpdates : List ℕ) (as : List Label)
    (h : Run.Along step Resumable (State.submitted updates checkpointUpdates) as) :
    Run.Throughout step NeverRetrained
      (State.submitted updates checkpointUpdates) as := by
  refine Run.throughout_of_invariant Inv (fun s hs a A c C hA hc hC => ?_)
    inv_step (inv_submitted updates checkpointUpdates) h
  obtain ⟨C', hC', hne⟩ := hs.resumes hA hc
  rw [hC] at hC'
  cases hC'
  exact hne

def trains (attempt : ℕ) : List Label :=
  [.advance {} {}, .advance { admission := .admitted attempt 1 } {},
    .startReceipt attempt 0 true]

def saves (checkpoint attempt update : ℕ) : List Label :=
  [.stage checkpoint attempt update true, .replicate checkpoint,
    .commit checkpoint true true .none]

def pausesAndResumes (attempt : ℕ) : List Label :=
  [.pause, .stopProof attempt 0 fun _ => true, .resume true fun _ => true]

/-- A job of two updates paused after its first is resumed from there. -/
theorem never_retrained_halfway :
    Run.Throughout step NeverRetrained (State.submitted 2 [])
      ((((trains 1).append (saves 1 1 1)).append (pausesAndResumes 1)).append
        (trains 2)) :=
  never_retrained_of_resumable 2 [] _ (by decide +kernel)

/-- **A finished job is trained again.** -/
theorem finished_job_retrained :
    ¬ Run.Throughout step NeverRetrained (State.submitted 1 [])
      ((((trains 1).append (saves 1 1 1)).append (pausesAndResumes 1)).append
        (trains 2)) := by
  intro h
  exact h 12 2 ⟨2, 1, .running, some 1, [0], [0], []⟩ 1
    ⟨1, 1, 1, .committed⟩ (by decide +kernel) rfl (by decide +kernel)
    (by decide +kernel)

end TrainingJobs
