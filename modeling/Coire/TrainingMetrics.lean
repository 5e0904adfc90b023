import Coire.TrainingResume

/-!
# The loss curve of a training job

Every attempt of a job reports metrics of the updates it carries out, and the rows that
are not *rolled back* are the job's loss curve. Three transactions take a job back to an
older checkpoint, and each marks other rows: the scheduler's recovery marks every row
past the checkpoint, the stop proof that ends a pause only those of the attempt that was
paused, and the administrator's resume none.

The last two are enough as long as the checkpoint they choose is no older than the one
before. Then every update has one live row of each kind in every run
(`one_live_point_of_restoring`). Where that checkpoint is lost and an older one is
chosen, the updates between the two are reported twice (`resume_from_older_repeats`).
-/

namespace TrainingMetrics

open TrainingJobs (TrainingAttemptRow currentAttempt recoveryCheckpoint select
  candidates admission admitTraining pauses recovers Tick Keeps Numbered
  AllStopped)

/-! ## Metrics -/

inductive MetricKind
  | train
  | validation
  deriving DecidableEq

inductive PreferenceObjective
  | dpo
  | orpo
  deriving DecidableEq

/-- A `TrainingMetricSample`; with a fence and an objective it is a
`PreferenceMetricSample`. What is measured is its `metric`. -/
structure Sample (μ : Type) where
  attemptId : ℕ
  update : ℕ
  kind : MetricKind
  preference : Option (ℕ × PreferenceObjective)
  metric : μ
  deriving DecidableEq

structure TrainingMetricRow (μ : Type) where
  attemptId : ℕ
  completedUpdate : ℕ
  kind : MetricKind
  metric : Sample μ
  rolledBack : Bool

structure Curve (μ : Type) where
  /-- The objective of the resolved specification, if that is of version 3. -/
  objective : Option PreferenceObjective
  rows : TrainingJobs.State
  metrics : List (TrainingMetricRow μ)

def Curve.submitted (μ : Type) (objective : Option PreferenceObjective)
    (updates : ℕ) (checkpointUpdates : List ℕ) : Curve μ :=
  ⟨objective, .submitted updates checkpointUpdates, []⟩

section Definitions

variable {μ : Type} [DecidableEq μ]

/-- Preference runs are measured in pairs, of their objective, and no others. -/
def Curve.suits (y : Curve μ) (sample : Sample μ) (fence : ℕ) : Bool :=
  match sample.preference with
  | some (fence', objective) => fence' = fence ∧ y.objective = some objective
  | none => y.objective = none

/-- **`record_metric`**, `none` where it raises: a row for each attempt, update
and kind, which is never written again. -/
def Curve.recordMetric (y : Curve μ) (sample : Sample μ) (fence : ℕ)
    (leased : Bool) : Option (Curve μ × TrainingMetricRow μ) :=
  if !currentAttempt y.rows sample.attemptId fence leased then none
  else if !y.suits sample fence then none
  else
    match y.metrics.find? (fun r => r.attemptId = sample.attemptId
      ∧ r.completedUpdate = sample.update ∧ r.kind = sample.kind) with
    | some existing => if existing.metric = sample then some (y, existing) else none
    | none =>
      let row := ⟨sample.attemptId, sample.update, sample.kind, sample, false⟩
      let job := { y.rows.job with
        completedUpdate := if sample.kind = .train
          then max y.rows.job.completedUpdate sample.update
          else y.rows.job.completedUpdate }
      some ({ y with
        rows := { y.rows with job := job }
        metrics := y.metrics ++ [row] }, row)

end Definitions

variable {μ : Type}

def mark (p : TrainingMetricRow μ → Bool) (rows : List (TrainingMetricRow μ)) :
    List (TrainingMetricRow μ) :=
  rows.map (fun r => if p r then { r with rolledBack := true } else r)

def Curve.marks (y : Curve μ) : TrainingJobs.Label → List (TrainingMetricRow μ)
  | .stopProof a rank intact =>
    if pauses y.rows a rank then
      let update :=
        (TrainingJobs.recordStopProof y.rows a rank intact).job.completedUpdate
      mark (fun r => r.attemptId = a ∧ r.completedUpdate > update) y.metrics
    else y.metrics
  | .advance t _ =>
    if recovers y.rows t ∧ t.admission ≠ .raises then
      let update := (select y.rows t.intact).job.completedUpdate
      mark (fun r => r.completedUpdate > update) y.metrics
    else y.metrics
  | _ => y.metrics

theorem Curve.marks_stopProof (y : Curve μ) (a rank : ℕ) (intact : ℕ → Bool) :
    y.marks (.stopProof a rank intact) = if pauses y.rows a rank then
      mark (fun r => r.attemptId = a ∧ r.completedUpdate
        > (TrainingJobs.recordStopProof y.rows a rank intact).job.completedUpdate)
        y.metrics
    else y.metrics := rfl

theorem Curve.marks_advance (y : Curve μ) (t t' : Tick) :
    y.marks (.advance t t') = if recovers y.rows t ∧ t.admission ≠ .raises then
      mark (fun r => r.completedUpdate
        > (select y.rows t.intact).job.completedUpdate) y.metrics
    else y.metrics := rfl

inductive Label (μ : Type)
  | record (sample : Sample μ) (fence : ℕ) (leased : Bool)
  | job (label : TrainingJobs.Label)

def step [DecidableEq μ] (y : Curve μ) : Label μ → Curve μ
  | .record sample fence leased =>
    ((y.recordMetric sample fence leased).map Prod.fst).getD y
  | .job label =>
    { y with rows := TrainingJobs.step y.rows label, metrics := y.marks label }

/-! ## What is to hold, and when -/

def Curve.live (y : Curve μ) (update : ℕ) (kind : MetricKind) :
    List (TrainingMetricRow μ) :=
  y.metrics.filter (fun r =>
    r.completedUpdate = update ∧ r.kind = kind ∧ r.rolledBack = false)

def OnePoint (y : Curve μ) : Prop :=
  ∀ update kind, (y.live update kind).length ≤ 1

def updateOf (s : TrainingJobs.State) (c : Option ℕ) : ℕ :=
  ((c.bind s.checkpoints.get?).map (·.completedUpdate)).getD 0

def resumeUpdate (s : TrainingJobs.State) (a : ℕ) : ℕ :=
  updateOf s ((s.attempts.get? a).bind (·.resumeCheckpointId))

/-- **An attempt reports only updates above its resume checkpoint.** -/
def Reports (y : Curve μ) : Label μ → Prop
  | .record sample _ _ => resumeUpdate y.rows sample.attemptId < sample.update
  | _ => True

/-- A checkpoint at an update or past it is committed and intact; none is needed
for update zero. -/
def Remains (s : TrainingJobs.State) (intact : ℕ → Bool) (update : ℕ) : Prop :=
  update = 0 ∨ s.checkpoints.items.any (fun e =>
    e.2.state = .committed ∧ intact e.1 ∧ update ≤ e.2.completedUpdate) = true

/-- **What a transaction that takes a job back is to find**: a checkpoint no older than
that the job was paused at, or that its attempt had resumed from. -/
def Restores (y : Curve μ) : Label μ → Prop
  | .job (.resume _ intact) => y.rows.job.state = .paused →
    Remains y.rows intact (updateOf y.rows y.rows.job.latestCheckpointId)
  | .job (.stopProof a rank intact) => pauses y.rows a rank = true →
    Remains y.rows intact (resumeUpdate y.rows a)
  | _ => True

instance (y : Curve μ) (label : Label μ) : Decidable (Reports y label) :=
  match label with
  | .record sample _ _ =>
    inferInstanceAs (Decidable (resumeUpdate y.rows sample.attemptId
      < sample.update))
  | .job _ => isTrue trivial

instance (s : TrainingJobs.State) (intact : ℕ → Bool) (update : ℕ) :
    Decidable (Remains s intact update) :=
  inferInstanceAs (Decidable (_ ∨ _))

instance (y : Curve μ) (label : Label μ) : Decidable (Restores y label) := by
  unfold Restores
  split <;> infer_instance

/-! ## Marking rows -/

/-- Two rows that are not both live points of one update and kind. -/
def Apart (r r' : TrainingMetricRow μ) : Prop :=
  r.rolledBack = false → r'.rolledBack = false →
    ¬ (r.completedUpdate = r'.completedUpdate ∧ r.kind = r'.kind)

variable {p : TrainingMetricRow μ → Bool} {rows : List (TrainingMetricRow μ)}
  {r : TrainingMetricRow μ}

theorem mark_none (rows : List (TrainingMetricRow μ)) :
    mark (fun _ => false) rows = rows :=
  List.map_id rows

theorem live_of_mem_mark (h : r ∈ mark p rows) (hlive : r.rolledBack = false) :
    r ∈ rows ∧ p r = false := by
  obtain ⟨r₀, hr₀, rfl⟩ := List.mem_map.mp h
  cases hp : p r₀ with
  | true =>
    rw [hp] at hlive
    cases hlive
  | false => exact ⟨hr₀, hp⟩

theorem attemptId_of_mem_mark (h : r ∈ mark p rows) :
    ∃ r₀ ∈ rows, r₀.attemptId = r.attemptId := by
  obtain ⟨r₀, hr₀, rfl⟩ := List.mem_map.mp h
  refine ⟨r₀, hr₀, ?_⟩
  split <;> rfl

theorem apart_mark (h : rows.Pairwise Apart) : (mark p rows).Pairwise Apart := by
  refine List.pairwise_map.mpr (h.imp fun {r r'} hrr' hlive hlive' => ?_)
  cases hp : p r with
  | true =>
    rw [hp] at hlive
    cases hlive
  | false =>
    cases hp' : p r' with
    | true =>
      rw [hp'] at hlive'
      cases hlive'
    | false => grind [Apart]

theorem onePoint_of_apart {y : Curve μ} (h : y.metrics.Pairwise Apart) :
    OnePoint y := by
  intro update kind
  have hlive : ∀ r ∈ y.live update kind, r.completedUpdate = update
      ∧ r.kind = kind ∧ r.rolledBack = false := fun r hr =>
    of_decide_eq_true (List.mem_filter.mp hr).2
  have happart : (y.live update kind).Pairwise Apart := h.filter _
  revert hlive happart
  cases y.live update kind with
  | nil => exact fun _ _ => Nat.zero_le _
  | cons r rs =>
    cases rs with
    | nil => exact fun _ _ => Nat.le_refl _
    | cons r' rs => grind [Apart]

/-! ## The checkpoint that is chosen -/

theorem find?_of_pairwise {α : Type} {R : α → α → Prop} {p : α → Bool} {y : α} :
    ∀ {l : List α}, l.Pairwise R → y ∈ l → p y = true →
      ∃ x, l.find? p = some x ∧ (x = y ∨ R x y)
  | z :: l, hl, hy, hp => by
    obtain ⟨hz, hl⟩ := List.pairwise_cons.mp hl
    cases hpz : p z with
    | true =>
      refine ⟨z, List.find?_cons_of_pos hpz, ?_⟩
      obtain rfl | hy := List.mem_cons.mp hy
      · exact .inl rfl
      · exact .inr (hz y hy)
    | false =>
      rw [List.find?_cons_of_neg (by rw [hpz]; exact Bool.false_ne_true)]
      obtain rfl | hy := List.mem_cons.mp hy
      · rw [hpz] at hp
        cases hp
      · exact find?_of_pairwise hl hy hp

def Further (d e : ℕ × TrainingJobs.TrainingCheckpointRow) : Prop :=
  e.2.completedUpdate ≤ d.2.completedUpdate

instance : DecidableRel Further := fun _ _ => Nat.decLe _ _

instance : Std.Total Further := ⟨fun _ _ => Nat.le_total _ _⟩

instance : IsTrans _ Further := ⟨fun _ _ _ h h' => Nat.le_trans h' h⟩

variable {intact : ℕ → Bool}

theorem le_select {s : TrainingJobs.State} {update : ℕ} (h : Remains s intact update) :
    update ≤ (select s intact).job.completedUpdate := by
  obtain rfl | hany := h
  · exact Nat.zero_le _
  obtain ⟨e, he, hremains⟩ := List.any_eq_true.mp hany
  obtain ⟨hcommitted, hintact, hle⟩ := of_decide_eq_true hremains
  have hmem (d) : d ∈ ((s.checkpoints.items.filter fun e =>
      e.2.state = .committed).reverse).insertionSort Further
        ↔ d ∈ s.checkpoints.items ∧ d.2.state = .committed := by
    rw [List.mem_insertionSort, List.mem_reverse, List.mem_filter, decide_eq_true_iff]
  obtain ⟨d, hfind, hde⟩ := find?_of_pairwise (p := intact ∘ Prod.fst)
    (List.pairwise_insertionSort Further _) ((hmem e).mpr ⟨he, hcommitted⟩) hintact
  have hd := Dict.mem_items.mp ((hmem d).mp (List.mem_of_find?_eq_some hfind)).1
  have hfound : (recoveryCheckpoint s intact).2 = some d.1 := by
    show (candidates s).find? intact = _
    unfold candidates
    rw [List.find?_map]
    exact congrArg (Option.map Prod.fst) hfind
  have hselect : (select s intact).job.completedUpdate = d.2.completedUpdate := by
    show (((recoveryCheckpoint s intact).2.bind s.checkpoints.get?).map _).getD 0 = _
    rw [hfound, Option.bind_some, hd]
    rfl
  rw [hselect]
  obtain rfl | hde := hde
  · exact hle
  · exact hle.trans hde

/-! ## The invariant -/

structure Kept (y : Curve μ) : Prop where
  numbered : Numbered y.rows
  idle : y.rows.job.state.idle → AllStopped y.rows
  latest : ∀ l, y.rows.job.latestCheckpointId = some l →
    (y.rows.checkpoints.get? l).isSome
  resumes : ∀ a A, y.rows.attempts.get? a = some A →
    ∀ c, A.resumeCheckpointId = some c → (y.rows.checkpoints.get? c).isSome
  known : ∀ r ∈ y.metrics, (y.rows.attempts.get? r.attemptId).isSome
  apart : y.metrics.Pairwise Apart
  /-- What other attempts have reported is not past the checkpoint that an attempt
  with a trainer resumed from, -/
  below : ∀ a A, y.rows.attempts.get? a = some A → A.state ≠ .stopped →
    ∀ r ∈ y.metrics, r.rolledBack = false → r.attemptId ≠ a →
      r.completedUpdate ≤ updateOf y.rows A.resumeCheckpointId
  /-- and nothing is past the one that an idle job is to resume from. -/
  floor : y.rows.job.state.idle → ∀ r ∈ y.metrics, r.rolledBack = false →
    r.completedUpdate ≤ updateOf y.rows y.rows.job.latestCheckpointId

/-- **What every transaction but an admission keeps of a job.** -/
structure Stands (s s' : TrainingJobs.State) : Prop where
  fence : s'.job.fence = s.job.fence
  attempts : s.attempts.Rel TrainingAttemptRow.Winds s'.attempts
  checkpoints : ∀ c C, s.checkpoints.get? c = some C →
    ∃ C', s'.checkpoints.get? c = some C'
      ∧ C'.completedUpdate = C.completedUpdate

variable {s s' : TrainingJobs.State} {y : Curve μ}

theorem stands_of_keeps (h : Keeps s s') : Stands s s' where
  fence := h.fence
  attempts := h.attempts
  checkpoints c C hC := by
    obtain ⟨C', hC', hfades⟩ := h.checkpoints.get? hC
    exact ⟨C', hC', hfades.completedUpdate⟩

theorem Stands.isSome (h : Stands s s') {c : ℕ}
    (hc : (s.checkpoints.get? c).isSome) : (s'.checkpoints.get? c).isSome := by
  obtain ⟨C, hC⟩ := Option.isSome_iff_exists.mp hc
  obtain ⟨C', hC', -⟩ := h.checkpoints c C hC
  rw [hC']
  rfl

theorem Stands.updateOf (h : Stands s s') {c : Option ℕ}
    (hc : ∀ l, c = some l → (s.checkpoints.get? l).isSome) :
    updateOf s' c = updateOf s c := by
  cases c with
  | none => rfl
  | some l =>
    obtain ⟨C, hC⟩ := Option.isSome_iff_exists.mp (hc l rfl)
    obtain ⟨C', hC', hupdate⟩ := h.checkpoints l C hC
    unfold TrainingMetrics.updateOf
    rw [Option.bind_some, Option.bind_some, hC, hC']
    exact hupdate

theorem Kept.stands (h : Kept y) (hs : Stands y.rows s')
    (hidle : s'.job.state.idle → AllStopped s')
    (hlatest : ∀ l, s'.job.latestCheckpointId = some l → (s'.checkpoints.get? l).isSome)
    (p : TrainingMetricRow μ → Bool)
    (hfloor : s'.job.state.idle → ∀ r ∈ y.metrics, r.rolledBack = false →
      p r = false → r.completedUpdate ≤ updateOf s' s'.job.latestCheckpointId) :
    Kept { y with rows := s', metrics := mark p y.metrics } where
  numbered := h.numbered.same hs.fence hs.attempts
  idle := hidle
  latest := hlatest
  resumes := fun a A' hA' c hc => by
    obtain ⟨A, hA, hw⟩ := hs.attempts.get?_back hA'
    exact hs.isSome (h.resumes a A hA c (hw.resume ▸ hc))
  known := fun r hr => by
    obtain ⟨r₀, hr₀, hid⟩ := attemptId_of_mem_mark hr
    obtain ⟨A, hA⟩ := Option.isSome_iff_exists.mp (h.known r₀ hr₀)
    obtain ⟨A', hA', -⟩ := hs.attempts.get? hA
    rw [← hid, hA']
    rfl
  apart := apart_mark h.apart
  below := fun a A' hA' hne r hr hlive hother => by
    obtain ⟨A, hA, hw⟩ := hs.attempts.get?_back hA'
    rw [hw.resume, hs.updateOf (h.resumes a A hA)]
    exact h.below a A hA (hne ∘ hw.stopped) r (live_of_mem_mark hr hlive).1 hlive hother
  floor := fun hst r hr hlive => by
    obtain ⟨hr, hp⟩ := live_of_mem_mark hr hlive
    exact hfloor hst r hr hlive hp

theorem Kept.stands_unmarked (h : Kept y) (hs : Stands y.rows s')
    (hidle : s'.job.state.idle → AllStopped s')
    (hlatest : ∀ l, s'.job.latestCheckpointId = some l → (s'.checkpoints.get? l).isSome)
    (hfloor : s'.job.state.idle → ∀ r ∈ y.metrics, r.rolledBack = false →
      r.completedUpdate ≤ updateOf s' s'.job.latestCheckpointId) :
    Kept { y with rows := s' } := by
  have hkept := h.stands hs hidle hlatest (fun _ => false)
    (fun hst r hr hlive _ => hfloor hst r hr hlive)
  rw [mark_none] at hkept
  exact hkept

theorem Kept.keeps (h : Kept y) (hk : Keeps y.rows s') :
    Kept { y with rows := s' } := by
  have hs := stands_of_keeps hk
  refine h.stands_unmarked hs (fun hi => (h.idle (hk.idle hi)).keeps hk)
    (fun l hl => hs.isSome (h.latest l (hk.latest ▸ hl)))
    (fun hi r hr hlive => ?_)
  rw [hk.latest, hs.updateOf h.latest]
  exact h.floor (hk.idle hi) r hr hlive

theorem kept_submitted (objective : Option PreferenceObjective) (updates : ℕ)
    (checkpointUpdates : List ℕ) :
    Kept (Curve.submitted μ objective updates checkpointUpdates) where
  numbered := (TrainingJobs.inv_submitted updates checkpointUpdates).numbered
  idle := (TrainingJobs.inv_submitted updates checkpointUpdates).idle
  latest := fun _ hl => by cases hl
  resumes := fun _ _ hA => by cases hA
  known := fun _ hr => absurd hr List.not_mem_nil
  apart := .nil
  below := fun _ _ hA => by cases hA
  floor := fun _ _ hr => absurd hr List.not_mem_nil

/-! ## Reports -/

theorem currentAttempt_live {a fence : ℕ} {leased : Bool}
    (h : currentAttempt s a fence leased = true) :
    ∃ A, s.attempts.get? a = some A ∧ A.state ≠ .stopped := by
  unfold currentAttempt at h
  split at h
  · grind
  · cases h

theorem Kept.report (h : Kept y) {a : ℕ} {A : TrainingAttemptRow}
    (hA : y.rows.attempts.get? a = some A) (hlive : A.state ≠ .stopped)
    (hbusy : y.rows.job.state.idle = false) {row : TrainingMetricRow μ}
    (hrow : row.attemptId = a)
    (hpast : updateOf y.rows A.resumeCheckpointId < row.completedUpdate)
    (hnew : ∀ r ∈ y.metrics, ¬ (r.attemptId = a
      ∧ r.completedUpdate = row.completedUpdate ∧ r.kind = row.kind)) :
    Kept { y with metrics := y.metrics ++ [row] } where
  numbered := h.numbered
  idle := h.idle
  latest := h.latest
  resumes := h.resumes
  known := fun r hr => by
    obtain hr | hr := List.mem_append.mp hr
    · exact h.known r hr
    · rw [List.mem_singleton.mp hr, hrow, hA]
      rfl
  apart := by
    refine List.pairwise_append.mpr ⟨h.apart, List.pairwise_singleton _ _, ?_⟩
    intro r hr row' hrow' hr_live _ hsame
    obtain rfl := List.mem_singleton.mp hrow'
    by_cases hown : r.attemptId = a
    · exact hnew r hr ⟨hown, hsame⟩
    · grind [cases Kept]
  below := fun b B hB hne r hr hr_live hother => by
    obtain hr | hr := List.mem_append.mp hr
    · exact h.below b B hB hne r hr hr_live hother
    -- only one attempt has a trainer
    rw [List.mem_singleton.mp hr, hrow] at hother
    exact absurd (h.numbered.single hA hB ((h.numbered.last hA hlive).trans
      (h.numbered.last hB hne).symm)) hother
  floor := fun hidle => absurd hidle (by rw [hbusy]; exact Bool.false_ne_true)

theorem Kept.record [DecidableEq μ] (h : Kept y) {sample : Sample μ} {fence : ℕ}
    {leased : Bool} (hreports : Reports y (.record sample fence leased)) :
    Kept (step y (.record sample fence leased)) := by
  show Kept (((y.recordMetric sample fence leased).map Prod.fst).getD y)
  unfold Curve.recordMetric
  split
  · exact h
  rename_i hcurrent
  rw [Bool.not_eq_true', Bool.not_eq_false] at hcurrent
  obtain ⟨A, hA, hlive⟩ := currentAttempt_live hcurrent
  obtain ⟨-, -, -, -, hst⟩ := TrainingJobs.currentAttempt_spec hcurrent
  split
  · exact h
  split
  · split <;> exact h
  rename_i hnone
  rw [List.find?_eq_none] at hnone
  have hk : Keeps y.rows { y.rows with job := { y.rows.job with
      completedUpdate := if sample.kind = .train
        then max y.rows.job.completedUpdate sample.update
        else y.rows.job.completedUpdate } } := { Keeps.refl y.rows with }
  refine (h.keeps hk).report hA hlive ?_ rfl ?_ ?_
  · show y.rows.job.state.idle = false
    rw [List.mem_pair] at hst
    obtain hst | hst := hst <;> rw [hst] <;> rfl
  · have hpast : resumeUpdate y.rows sample.attemptId < sample.update :=
      hreports
    unfold resumeUpdate at hpast
    rw [hA] at hpast
    exact hpast
  · grind

/-! ## Checkpoints -/

theorem Kept.stage (h : Kept y) (c a update : ℕ) (leased : Bool) :
    Kept { y with rows := TrainingJobs.stageCheckpoint y.rows c a update leased } := by
  unfold TrainingJobs.stageCheckpoint
  split
  · exact h
  split
  · exact h
  rename_i hnew
  rw [Bool.not_eq_true, Option.isSome_eq_false_iff, Option.isNone_iff_eq_none] at hnew
  split
  · exact h
  have hs : Stands y.rows { y.rows with
      checkpoints := (y.rows.checkpoints.set c
        ⟨a, y.rows.job.fence, update, .staging⟩) } :=
    ⟨rfl, Dict.rel_refl .refl _, fun d D hD =>
      ⟨D, Dict.get?_set_of_none hnew hD, rfl⟩⟩
  refine h.stands_unmarked hs h.idle (fun l hl => hs.isSome (h.latest l hl))
    (fun hi r hr hlive => ?_)
  rw [hs.updateOf h.latest]
  exact h.floor hi r hr hlive

theorem Kept.commit (h : Kept y) (c : ℕ) (leased verified : Bool)
    (trigger : TrainingJobs.Trigger) :
    Kept { y with rows :=
      TrainingJobs.commitCheckpoint y.rows c leased verified trigger } := by
  have hget {t : TrainingJobs.State} {C} (ht : Kept { y with rows := t }) :
      Kept { y with rows :=
        (TrainingJobs.ensureCheckpointTrigger t C trigger).getD y.rows } := by
    cases htrigger : TrainingJobs.ensureCheckpointTrigger t C trigger with
    | none => exact h
    | some t' =>
      exact ht.keeps (TrainingJobs.keeps_ensureCheckpointTrigger htrigger)
  unfold TrainingJobs.commitCheckpoint
  split
  · exact h
  rename_i C hC
  split
  · exact hget h
  split
  · exact h
  rename_i hcurrent
  simp only [Bool.or_eq_true, Bool.not_eq_true', decide_eq_true_eq,
    not_or, Bool.not_eq_false, not_not] at hcurrent
  obtain ⟨-, -, -, -, hst⟩ :=
    TrainingJobs.currentAttempt_spec hcurrent.1.1
  have hbusy : y.rows.job.state.idle = false := by
    rw [List.mem_pair] at hst
    obtain hst | hst := hst <;> rw [hst] <;> rfl
  have hrel : y.rows.checkpoints.Rel TrainingJobs.TrainingCheckpointRow.Same
      (y.rows.setCheckpoint c .committed).checkpoints :=
    Dict.rel_modify .refl fun _ _ => ⟨rfl, rfl, rfl, fun _ => rfl⟩
  refine hget (h.stands_unmarked ⟨rfl, Dict.rel_refl .refl _, fun d D hD => ?_⟩
    ?_ (fun l hl => ?_) ?_)
  · obtain ⟨D', hD', hsame⟩ := hrel.get? hD
    exact ⟨D', hD', hsame.completedUpdate⟩
  · grind
  · have hsome {l : ℕ} (hl : (y.rows.checkpoints.get? l).isSome) :
        ((y.rows.setCheckpoint c .committed).checkpoints.get? l).isSome := by
      obtain ⟨L, hL⟩ := Option.isSome_iff_exists.mp hl
      obtain ⟨L', hL', -⟩ := hrel.get? hL
      rw [hL']
      rfl
    refine hsome ?_
    simp only at hl
    split at hl
    · cases hl
      rw [hC]
      rfl
    · exact h.latest l hl
  · grind

/-! ## Going back -/

theorem stands_select (s : TrainingJobs.State) (intact : ℕ → Bool) :
    Stands s (select s intact) := by
  have hs := stands_of_keeps (TrainingJobs.keeps_recoveryCheckpoint s intact)
  exact ⟨hs.fence, hs.attempts, hs.checkpoints⟩

theorem isSome_select {l : ℕ} (hl : (select s intact).job.latestCheckpointId = some l) :
    (s.checkpoints.get? l).isSome := by
  obtain ⟨C, hC, -⟩ := TrainingJobs.recoveryCheckpoint_committed hl
  rw [hC]
  rfl

theorem updateOf_select (s : TrainingJobs.State) (intact : ℕ → Bool) :
    updateOf (select s intact) (select s intact).job.latestCheckpointId
      = (select s intact).job.completedUpdate :=
  (stands_select s intact).updateOf (fun _ hl => isSome_select hl)

/-- **The administrator's resume** leaves no live row past the checkpoint it
chooses, if that is no older than the one the job was paused at. -/
theorem Kept.resume (h : Kept y) {permitted : Bool}
    (hremains : y.rows.job.state = .paused →
      Remains y.rows intact (updateOf y.rows y.rows.job.latestCheckpointId)) :
    Kept { y with rows := TrainingJobs.controlResume y.rows permitted intact } := by
  unfold TrainingJobs.controlResume
  split
  · exact h
  rename_i hpaused
  simp only [not_or, ne_eq, not_not] at hpaused
  have hst := hpaused.1
  have hidle : y.rows.job.state.idle := by
    rw [hst]
    rfl
  split
  · exact h
  have hs := stands_select y.rows intact
  refine h.stands_unmarked ⟨hs.fence, hs.attempts, hs.checkpoints⟩
    (fun _ => (h.idle hidle).select intact)
    (fun l hl => hs.isSome (isSome_select hl)) (fun _ r hr hlive => ?_)
  show r.completedUpdate ≤ updateOf (select y.rows intact)
    (select y.rows intact).job.latestCheckpointId
  rw [updateOf_select]
  exact (h.floor hidle r hr hlive).trans (le_select (hremains hst))

theorem Kept.resumeAutomatic (h : Kept y) (origin : TrainingJobs.PauseOrigin)
    (eligible : Bool) :
    Kept { y with rows := TrainingJobs.resumeAutomatic y.rows origin eligible } := by
  unfold TrainingJobs.resumeAutomatic
  split
  · exact h
  rename_i hpaused
  simp only [not_or, ne_eq, not_not] at hpaused
  have hidle : y.rows.job.state.idle := by
    rw [hpaused.1]
    rfl
  exact h.stands_unmarked ⟨rfl, Dict.rel_refl .refl _, fun _ C hC => ⟨C, hC, rfl⟩⟩
    (fun _ => h.idle hidle) h.latest (fun _ => h.floor hidle)

/-- **The end of a pause** leaves no live row past the checkpoint it chooses, if that is
no older than the one the attempt had resumed from. -/
theorem Kept.stopProof (h : Kept y) {a rank : ℕ}
    (hremains : pauses y.rows a rank = true →
      Remains y.rows intact (resumeUpdate y.rows a)) :
    Kept { y with
      rows := TrainingJobs.recordStopProof y.rows a rank intact
      metrics := y.marks (.stopProof a rank intact) } := by
  rw [Curve.marks_stopProof]
  obtain ⟨hp, hk⟩ | ⟨hp, s₂, hk, hjob, hc, hall, heq⟩ :=
    TrainingJobs.recordStopProof_proves h.numbered h.idle a rank intact
  · rw [hp, if_neg Bool.false_ne_true]
    exact h.keeps hk
  rw [hp, if_pos rfl, heq]
  have hs₂ := stands_of_keeps hk
  have hs := stands_select s₂ intact
  have hstands : Stands y.rows ((select s₂ intact).setState .paused) :=
    ⟨hs.fence.trans hs₂.fence, hs₂.attempts.trans .trans hs.attempts,
      fun c C hC => by
        obtain ⟨C', hC', hu⟩ := hs₂.checkpoints c C hC
        obtain ⟨C'', hC'', hu'⟩ := hs.checkpoints c C' hC'
        exact ⟨C'', hC'', hu'.trans hu⟩⟩
  refine h.stands hstands (fun _ => hall.select intact)
    (fun l hl => hs.isSome (isSome_select hl)) _ (fun _ r hr hlive hmark => ?_)
  show r.completedUpdate ≤ updateOf (select s₂ intact)
    (select s₂ intact).job.latestCheckpointId
  rw [updateOf_select]
  by_cases hown : r.attemptId = a
  · exact Nat.le_of_not_lt fun hlt => of_decide_eq_false hmark ⟨hown, hlt⟩
  have hchosen : resumeUpdate y.rows a ≤ (select s₂ intact).job.completedUpdate := by
    refine le_select ?_
    unfold Remains
    rw [hc]
    exact hremains hp
  cases hA : y.rows.attempts.get? a with
  | none =>
    unfold pauses at hp
    rw [hA] at hp
    cases hp
  | some A =>
    have hlive_A := ((TrainingJobs.pauses_of_attempt hA _).mp hp).2.1
    refine le_trans ?_ hchosen
    unfold resumeUpdate
    rw [hA]
    exact h.below a A hA hlive_A r hr hlive hown

/-! ## Admission -/

theorem Kept.admitTraining (h : Kept y) (hall : AllStopped y.rows)
    (hfloor : ∀ r ∈ y.metrics, r.rolledBack = false →
      r.completedUpdate ≤ updateOf y.rows y.rows.job.latestCheckpointId)
    (id worldSize : ℕ) :
    Kept { y with rows := admitTraining y.rows id worldSize } where
  numbered := h.numbered.admitTraining hall id worldSize
  idle := fun hi => by cases hi
  latest := h.latest
  resumes := fun a A hA c hc => by
    obtain ⟨-, rfl⟩ | ⟨-, hold⟩ := Dict.get?_set_eq_some.mp hA
    · exact h.latest c hc
    · exact h.resumes a A hold c hc
  known := fun r hr => Dict.isSome_get?_set _ _ _ (h.known r hr)
  apart := h.apart
  below := fun a A hA hne r hr hlive _ => by
    obtain ⟨-, rfl⟩ | ⟨-, hold⟩ := Dict.get?_set_eq_some.mp hA
    · exact hfloor r hr hlive
    · exact absurd (hall a A hold) hne
  floor := fun hi => by cases hi

theorem Kept.admitted (h : Kept y) (hall : AllStopped y.rows)
    (hfloor : ∀ r ∈ y.metrics, r.rolledBack = false →
      r.completedUpdate ≤ updateOf y.rows y.rows.job.latestCheckpointId)
    {outcome : TrainingJobs.Admission} {recovering : Bool}
    (hadm : admission y.rows outcome recovering = some s') :
    Kept { y with rows := s' } := by
  unfold TrainingJobs.admission at hadm
  split at hadm
  · cases hadm
  · cases hadm
    exact h
  · cases hadm
    exact h.keeps (TrainingJobs.keeps_setAside rfl rfl)
  · split at hadm <;> cases hadm
    · exact h
    · exact (h.admitTraining hall hfloor _ _).keeps { Keeps.refl _ with }

theorem Kept.admits (h : Kept y) (hst : y.rows.job.state = .preflighting)
    {t : Tick} (hadm : admission (y.rows.setState .queued) t.admission false = some s') :
    Kept { y with rows := s' } := by
  have hidle : y.rows.job.state.idle := by
    rw [hst]
    rfl
  have hqueued : Kept { y with rows := y.rows.setState .queued } :=
    h.keeps (TrainingJobs.keeps_setState (by rw [hst]; exact Nat.le_refl _)
      fun _ => hidle)
  exact hqueued.admitted (h.idle hidle) (h.floor hidle) hadm

theorem Kept.recover (h : Kept y) {t : Tick} (hr : recovers y.rows t = true)
    (hadm : admission (select y.rows t.intact) t.admission true = some s') :
    Kept { y with
      rows := s'
      metrics := mark (fun r => r.completedUpdate
        > (select y.rows t.intact).job.completedUpdate) y.metrics } := by
  obtain ⟨hst, hnone, -⟩ := TrainingJobs.recovers_iff.mp hr
  have hall := TrainingJobs.allStopped_of_active hnone
  have hbusy : ¬ (select y.rows t.intact).job.state.idle = true := by
    show ¬ (recoveryCheckpoint y.rows t.intact).1.job.state.idle = true
    rw [TrainingJobs.recoveryCheckpoint_job, hst]
    decide
  have hmarked : Kept { y with
      rows := select y.rows t.intact
      metrics := mark (fun r => r.completedUpdate
        > (select y.rows t.intact).job.completedUpdate) y.metrics } :=
    h.stands (stands_select y.rows t.intact) (fun hi => absurd hi hbusy)
      (fun l hl => (stands_select y.rows t.intact).isSome (isSome_select hl)) _
      (fun hi => absurd hi hbusy)
  refine hmarked.admitted (hall.select t.intact) (fun r hr hlive => ?_) hadm
  show _ ≤ updateOf (select y.rows t.intact)
    (select y.rows t.intact).job.latestCheckpointId
  rw [updateOf_select]
  exact Nat.le_of_not_lt (of_decide_eq_false (live_of_mem_mark hr hlive).2)

theorem admission_eq_none {outcome : TrainingJobs.Admission} {recovering : Bool} :
    admission s outcome recovering = none ↔ outcome = .raises := by
  unfold TrainingJobs.admission
  cases outcome with
  | raises => exact iff_of_true rfl rfl
  | waits => exact iff_of_false nofun nofun
  | fails => exact iff_of_false nofun nofun
  | admitted id worldSize =>
    refine iff_of_false ?_ nofun
    dsimp only
    split <;> exact Option.some_ne_none _

theorem Kept.advance (h : Kept y) (t t' : Tick) :
    Kept { y with
      rows := TrainingJobs.advance y.rows t t'
      metrics := y.marks (.advance t t') } := by
  have hunmarked (hr : ¬ (recovers y.rows t = true ∧ t.admission ≠ .raises)) :
      y.marks (.advance t t') = y.metrics := by
    rw [Curve.marks_advance, if_neg hr]
  cases hadvance : TrainingJobs.advanceTraining y.rows t with
  | some s' =>
    have hrows : TrainingJobs.advance y.rows t t' = s' := by
      unfold TrainingJobs.advance
      rw [hadvance]
    rw [hrows]
    obtain ⟨hr, hk⟩ | ⟨hr, hst, -, hadm⟩ | ⟨hr, hadm⟩ :=
      TrainingJobs.advanceTraining_advances hadvance
    · rw [hunmarked (fun hboth => by rw [hr] at hboth; cases hboth.1)]
      exact h.keeps hk
    · rw [hunmarked (fun hboth => by rw [hr] at hboth; cases hboth.1)]
      exact h.admits hst hadm
    rw [Curve.marks_advance, if_pos ⟨hr, fun hraises => by
      rw [admission_eq_none.mpr hraises] at hadm
      cases hadm⟩]
    exact h.recover hr hadm
  | none =>
    rw [hunmarked (fun hboth => hboth.2 (admission_eq_none.mp
      ((TrainingJobs.advanceTraining_of_recovers hboth.1).symm.trans hadvance)))]
    exact h.keeps (TrainingJobs.keeps_advance_of_none hadvance t')

/-! ## Runs -/

theorem Kept.step [DecidableEq μ] (h : Kept y) {label : Label μ}
    (hreports : Reports y label) (hrestores : Restores y label) :
    Kept (step y label) := by
  cases label with
  | record sample fence leased => exact h.record hreports
  | job label =>
    cases label with
    | pause => exact h.keeps (TrainingJobs.keeps_controlPause _)
    | resume permitted intact => exact h.resume hrestores
    | cancel => exact h.keeps (TrainingJobs.keeps_controlCancel _)
    | protectivePause => exact h.keeps (TrainingJobs.keeps_protectivePause _)
    | resumeAutomatic origin eligible => exact h.resumeAutomatic origin eligible
    | unreachable a => exact h.keeps (TrainingJobs.keeps_unreachable _ a)
    | trainingDisabled => exact h.keeps (TrainingJobs.keeps_trainingDisabled _)
    | finalize ok => exact h.keeps (TrainingJobs.keeps_finalize _ ok)
    | checkpointInvalid a =>
      exact h.keeps (TrainingJobs.keeps_checkpointInvalid _ a)
    | startReceipt a rank leased =>
      exact h.keeps (TrainingJobs.keeps_startReceipt _ a rank leased)
    | observe a rank liveness =>
      exact h.keeps (TrainingJobs.keeps_observeTraining _ a rank liveness)
    | failure a => exact h.keeps (TrainingJobs.keeps_ingestFailure _ a)
    | failAttempt a => exact h.keeps (TrainingJobs.keeps_failAttempt h.idle a)
    | stopProof a rank intact => exact h.stopProof hrestores
    | stage c a update leased => exact h.stage c a update leased
    | replicate c => exact h.keeps (TrainingJobs.keeps_replicate _ c)
    | commit c leased verified trigger => exact h.commit c leased verified trigger
    | purge c => exact h.keeps (TrainingJobs.keeps_purge _ c)
    | advance t t' => exact h.advance t t'

/-- **The loss curve has one live point per update** and kind, in every run that takes
no job back to an older checkpoint. -/
theorem one_live_point_of_restoring [DecidableEq μ]
    (objective : Option PreferenceObjective) (updates : ℕ)
    (checkpointUpdates : List ℕ) (labels : List (Label μ))
    (hreports : Run.Along step Reports
      (Curve.submitted μ objective updates checkpointUpdates) labels)
    (hrestores : Run.Along step Restores
      (Curve.submitted μ objective updates checkpointUpdates) labels) :
    Run.Throughout step OnePoint
      (Curve.submitted μ objective updates checkpointUpdates) labels :=
  Run.throughout_of_invariant Kept (fun _ h => onePoint_of_apart h.apart)
    (fun _ _ h hboth => h.step hboth.1 hboth.2)
    (kept_submitted objective updates checkpointUpdates)
    (Run.along_and hreports hrestores)

def report (attempt update : ℕ) : Label Unit :=
  .record ⟨attempt, update, .train, none, ()⟩ attempt true

def trains (attempt : ℕ) : List (Label Unit) :=
  (TrainingJobs.trains attempt).map .job

/-- An update is reported and then kept in a checkpoint of its number. -/
def keepsUpdate (attempt update : ℕ) : List (Label Unit) :=
  report attempt update :: (TrainingJobs.saves update attempt update).map .job

/-- A pause, the trainer's stop and the resume, with the checkpoints still intact then.
-/
def pausesAndResumes (attempt : ℕ) (atPause atResume : ℕ → Bool) :
    List (Label Unit) :=
  [.job .pause, .job (.stopProof attempt 0 atPause), .job (.resume true atResume)]

/-- A job that is paused after its first update and resumed reports its second
once. -/
theorem one_live_point_resumed :
    Run.Throughout step OnePoint (Curve.submitted Unit none 3 [])
      (trains 1 ++ keepsUpdate 1 1 ++ [report 1 2]
        ++ pausesAndResumes 1 (fun _ => true) (fun _ => true)
        ++ trains 2 ++ [report 2 2]) :=
  one_live_point_of_restoring none 3 [] _ (by decide +kernel) (by decide +kernel)

/-- The second of two checkpoints is lost between the pause and the resume. -/
def lostBeforeResume : List (Label Unit) :=
  trains 1 ++ keepsUpdate 1 1 ++ keepsUpdate 1 2
    ++ pausesAndResumes 1 (fun _ => true) (fun c => c ≠ 2)
    ++ trains 2 ++ [report 2 2]

def lostBeforePause : List (Label Unit) :=
  trains 1 ++ keepsUpdate 1 1 ++ keepsUpdate 1 2
    ++ pausesAndResumes 1 (fun _ => true) (fun _ => true)
    ++ trains 2 ++ pausesAndResumes 2 (fun c => c ≠ 2) (fun _ => true)
    ++ trains 3 ++ [report 3 2]

/-- **An older checkpoint repeats the updates after it.** -/
theorem resume_from_older_repeats :
    (Run.Along step Reports (Curve.submitted Unit none 3 []) lostBeforeResume
      ∧ (Curve.live (Run.last step (Curve.submitted Unit none 3 [])
        lostBeforeResume) 2 .train).length = 2)
    ∧ Run.Along step Reports (Curve.submitted Unit none 3 []) lostBeforePause
      ∧ (Curve.live (Run.last step (Curve.submitted Unit none 3 [])
        lostBeforePause) 2 .train).length = 2 := by
  decide +kernel

end TrainingMetrics
