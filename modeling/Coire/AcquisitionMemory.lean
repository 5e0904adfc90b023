import Coire.AdmissionPlan
import Coire.Run

/-!
# The memory of a conversion

An acquisition is a durable workflow of stages, each tried five times and replayed from
its start after a crash. The convert stage reserves memory on the origin node and
releases it in a `finally`, so a conversion that succeeds or fails leaves nothing.

A crash is not an exception. It leaves the reservation held, and the replay asks for it
again, against a ledger that already counts it. Without room for the conversion twice
the replay is refused until its tries are used up, and the workflow fails with its
memory held (`failed_acquisition_holds_memory`). In every run without that nothing is
left (`conversion_memory_released`).
-/

namespace AcquisitionWorkflow

inductive AcquisitionStage
  | inspect | pull | convert | validate | replicate | done | failed
  deriving DecidableEq

inductive AcquisitionState
  | queued | running | waitingForCapacity | succeeded | failed | cancelled
  deriving DecidableEq

inductive StageStatus
  | pending | running | succeeded | failed | skipped
  deriving DecidableEq

def AcquisitionStage.value : AcquisitionStage → String
  | .inspect => "inspect"
  | .pull => "pull"
  | .convert => "convert"
  | .validate => "validate"
  | .replicate => "replicate"
  | .done => "done"
  | .failed => "failed"

/-- What an acquisition was asked for: `derived` where it names a source variant
to convert from. -/
structure Acquisition where
  workflowId : ℕ
  originId : ℕ
  memoryEstimateBytes : ℕ
  sourceIsMlx : Bool
  derived : Bool
  /-- The raw source, or the source variant, is there already. -/
  skipPull : Bool
  keepRaw : Bool

namespace Acquisition

variable (c : Acquisition)

def key : RowKey := ⟨c.originId, .conversion, c.workflowId⟩

def memoryBytes : ℕ := max 1 c.memoryEstimateBytes

/-- The source is the variant already: there is nothing to convert. -/
def noop : Bool := c.sourceIsMlx && !c.derived

end Acquisition

structure AcquisitionWorkflowRow where
  stage : AcquisitionStage
  state : AcquisitionState
  failureCode : Option String
  attempt : ℕ
  deriving DecidableEq

/-- `AcquisitionStageRow`: of its result, whether it names a manifest. -/
structure AcquisitionStageRow where
  status : StageStatus
  manifest : Option Bool
  deriving DecidableEq

inductive CommandState
  | pending
  | succeeded (manifest : Bool)
  | failed
  deriving DecidableEq

structure NodeMemoryLedgerRow where
  budgetBytes : ℕ
  measuredResidentBytes : Option ℕ
  deriving DecidableEq

/-- **Where the workflow is**: before which transaction of which step. -/
inductive Pc
  /-- `stage_complete`. -/
  | checking (stage : AcquisitionStage)
  /-- `run_stage`, before `_start_stage`. -/
  | start (stage : AcquisitionStage)
  /-- Before `_hold_conversion_memory`. -/
  | hold
  /-- Before the command's row is written. -/
  | submit (stage : AcquisitionStage)
  | waiting (stage : AcquisitionStage)
  /-- Before `_release_conversion_memory`, in the `finally`. -/
  | release (manifest : Option Bool)
  /-- Before `_finish_stage`. -/
  | finish (stage : AcquisitionStage) (manifest : Bool)
  /-- `run_stage` has ended, its result not yet recorded. -/
  | returning (stage : AcquisitionStage) (result : Bool)
  /-- `run_stage` has raised for the last time, not yet recorded. -/
  | raised (stage : AcquisitionStage)
  /-- `mark_failed`. -/
  | failing (stage : AcquisitionStage)
  | marked (stage : AcquisitionStage)
  /-- `cleanup_raw`, before its command, polling it, and before it finalizes. -/
  | cleanup | cleaning | finalize
  | ended
  deriving DecidableEq

structure State where
  table : ReservationTable
  ledger : Option NodeMemoryLedgerRow
  workflow : AcquisitionWorkflowRow
  stages : Dict (AcquisitionStage × ℕ) AcquisitionStageRow
  commands : Dict (AcquisitionStage × ℕ) CommandState
  pc : Pc
  tries : ℕ

def State.init (c : Acquisition) (table : ReservationTable)
    (ledger : Option NodeMemoryLedgerRow) : State :=
  let inspected := Dict.empty.set (.inspect, 1) ⟨.succeeded, some false⟩
  let stage := if c.skipPull then .convert else .pull
  let stages :=
    if c.skipPull then inspected.set (.pull, 1) ⟨.skipped, some false⟩
    else inspected
  ⟨table, ledger, ⟨stage, .queued, none, 1⟩, stages, .empty, .checking .pull, 0⟩

/-- What a transaction reads beside these rows. -/
structure Env where
  core : Bool := true
  admission : Bool := true
  training : Bool := true
  verified : Bool := true
  now : ℤ := 0

namespace State

variable (s : State)

def goto (pc : Pc) : State := { s with pc := pc }

/-- An exception in `run_stage`, which is tried `max_attempts` times. -/
def raise (stage : AcquisitionStage) : State :=
  if s.tries + 1 < 5 then
    { s with pc := .start stage, tries := s.tries + 1 }
  else s.goto (.raised stage)

/-- `PHYSICAL_STAGES`: what follows a stage. -/
def next (stage : AcquisitionStage) : State :=
  let pc : Pc := match stage with
    | .pull => .checking .convert
    | .convert => .checking .validate
    | .validate => .checking .replicate
    | _ => .cleanup
  { s with pc := pc, tries := 0 }

/-- `stage_complete` with `reusable_stage_results`: a no-op does not stand in
for a derived variant. -/
def stageComplete (c : Acquisition) (stage : AcquisitionStage) : Bool :=
  let rows := (s.stages.items.filter fun e => e.1.1 = stage
    ∧ e.2.status ∈ [.succeeded, .skipped]).map fun e => e.2.manifest
  if stage = .convert ∧ c.derived then rows.any (· = some true)
  else !rows.isEmpty

/-- `_start_stage`, and what `_run_command_stage` does first. -/
def startStage (c : Acquisition) (stage : AcquisitionStage) (e : Env) : State :=
  if s.workflow.state = .queued ∧ (!e.core ∨ !e.admission) then
    s.goto (.returning stage false)
  else
    let pc : Pc :=
      if stage = .convert then if c.noop then .finish .convert false else .hold
      else .submit stage
    { s with
      stages := s.stages.setDefault (stage, s.workflow.attempt) ⟨.running, none⟩
      workflow := { s.workflow with stage := stage, state := .running }
      pc := pc }

def held (c : Acquisition) : Bool :=
  (s.table.get? c.key).any (·.state = .held)

/-- The node has room for the conversion, beside every reservation of its ledger
that counts. -/
def fits (c : Acquisition) : Bool :=
  match s.ledger with
  | none => false
  | some ledger =>
    match effectiveOccupiedBytes (s.table.activeRows c.originId)
        ledger.measuredResidentBytes with
    | none => false
    | some occupied => occupied + c.memoryBytes ≤ ledger.budgetBytes

def holdRow (c : Acquisition) (e : Env) : MemoryReservationRow :=
  match s.table.get? c.key with
  | none => ⟨c.memoryBytes, false, .held, e.now⟩
  | some row => { row with bytes := c.memoryBytes, state := .held }

/-- `_hold_conversion_memory`. Maintenance is not a failure: the step returns
and is run again. -/
def hold (c : Acquisition) (e : Env) : State :=
  if !e.core then s.goto (.returning .convert false)
  else if s.ledger.isNone then s.raise .convert
  else if !e.admission then s.goto (.returning .convert false)
  else if !e.training then s.raise .convert
  else if !s.fits c then s.raise .convert
  else { s with table := s.table.set c.key (s.holdRow c e), pc := .submit .convert }

def submit (stage : AcquisitionStage) (pc : Pc) : State :=
  { s with
    commands := s.commands.setDefault (stage, s.workflow.attempt) .pending
    pc := pc }

def poll (stage : AcquisitionStage) (e : Env) : State :=
  -- the `finally` of the convert stage comes before the exception
  let fail := if stage = .convert then s.goto (.release none) else s.raise stage
  match s.commands.get? (stage, s.workflow.attempt) with
  | some .pending => s
  | some (.succeeded manifest) =>
    if !e.verified then fail
    else if stage = .convert then s.goto (.release (some manifest))
    else s.goto (.finish stage manifest)
  | some .failed | none => fail

def release (c : Acquisition) (manifest : Option Bool) : State :=
  let s' := { s with
    table := s.table.modify c.key fun row => { row with state := .released } }
  match manifest with
  | some manifest => s'.goto (.finish .convert manifest)
  | none => s'.raise .convert

def finish (stage : AcquisitionStage) (manifest : Bool) : State :=
  { s with
    stages := s.stages.modify (stage, s.workflow.attempt) fun row =>
      { row with status := .succeeded, manifest := some manifest }
    pc := .returning stage true }

def markFailed (stage : AcquisitionStage) : State :=
  { s with
    stages := s.stages.modify (stage, s.workflow.attempt) fun row =>
      { row with status := .failed }
    workflow := ⟨.failed, .failed, some (stage.value ++ "_failed"),
      s.workflow.attempt⟩
    pc := .marked stage }

/-- The poll of the cleanup command. The workflow ends, unmarked, when the
cleanup has raised for the last time. -/
def pollCleanup : State :=
  match s.commands.get? (.done, s.workflow.attempt) with
  | some .pending => s
  | some (.succeeded _) => s.goto .finalize
  | some .failed | none =>
    if s.tries + 1 < 5 then { s with pc := .cleanup, tries := s.tries + 1 }
    else s.goto .ended

def proceed (c : Acquisition) (e : Env) : State :=
  match s.pc with
  | .checking stage =>
    if s.stageComplete c stage then s.next stage
    else { s with pc := .start stage, tries := 0 }
  | .start stage => s.startStage c stage e
  | .hold => s.hold c e
  | .submit stage => s.submit stage (.waiting stage)
  | .waiting stage => s.poll stage e
  | .release manifest => s.release c manifest
  | .finish stage manifest => s.finish stage manifest
  | .returning stage true => s.next stage
  | .returning stage false => { s with pc := .start stage, tries := 0 }
  | .raised stage => s.goto (.failing stage)
  | .failing stage => s.markFailed stage
  | .marked _ => s.goto .ended
  | .cleanup =>
    if !c.keepRaw ∧ !c.sourceIsMlx then s.submit .done .cleaning
    else s.goto .finalize
  | .cleaning => s.pollCleanup
  | .finalize => { s with
      workflow := { s.workflow with stage := .done, state := .succeeded }
      pc := .ended }
  | .ended => s

/-- `retry`: another attempt of a failed acquisition, from its first stage that
has not succeeded. -/
def retry : State :=
  if s.workflow.state ≠ .failed ∨ s.pc ≠ .ended then s
  else
    let succeeded := fun stage => s.stages.items.any fun e =>
      e.1.1 = stage ∧ e.2.status = .succeeded
    let stage := ([.inspect, .pull, .convert, .validate, .replicate].find?
      fun stage => !succeeded stage).getD s.workflow.stage
    { s with
      workflow := ⟨stage, .queued, none, s.workflow.attempt + 1⟩
      pc := .checking .pull
      tries := 0 }

end State

/-- Where a workflow resumes after a crash: at the start of the step that was
interrupted. -/
def Pc.recovered : Pc → Pc
  | .start stage | .submit stage | .waiting stage | .finish stage _
  | .returning stage _ | .raised stage => .start stage
  | .hold | .release _ => .start .convert
  | .failing stage | .marked stage => .failing stage
  | .cleaning | .finalize => .cleanup
  | .checking stage => .checking stage
  | .cleanup => .cleanup
  | .ended => .ended

inductive Label
  /-- The workflow takes its next transaction. -/
  | proceed (e : Env)
  | crash
  | command (stage : AcquisitionStage) (attempt : ℕ) (state : CommandState)
  /-- Other work writes a reservation of its own. -/
  | reserve (key : RowKey) (row : MemoryReservationRow)
  | ledger (row : Option NodeMemoryLedgerRow)
  | retry

def step (c : Acquisition) (s : State) : Label → State
  | .proceed e => s.proceed c e
  | .crash => { s with pc := s.pc.recovered, tries := 0 }
  | .command stage attempt x => { s with
      commands := s.commands.modify (stage, attempt) fun y =>
        if y = .pending then x else y }
  | .reserve key row =>
    if key = c.key then s else { s with table := s.table.set key row }
  | .ledger row => { s with ledger := row }
  | .retry => s.retry

def Pc.stagesDone : Pc → Bool
  | .cleanup | .cleaning | .finalize | .ended => true
  | _ => false

/-- **Nothing is left behind** by a workflow that has failed or completed its stages. -/
def LeavesNothing (c : Acquisition) (s : State) : Prop :=
  s.workflow.state = .failed ∨ s.pc.stagesDone → s.held c = false

/-- **A hold that is held already is not refused**: training allows the node's
work, and the ledger, which counts the reservation, has room for it again. -/
def Roomy (c : Acquisition) (s : State) : Label → Prop
  | .proceed e => s.pc = .hold → s.held c → e.training ∧ s.fits c
  | _ => True

instance (c : Acquisition) (s : State) : ∀ l, Decidable (Roomy c s l)
  | .proceed e => inferInstanceAs (Decidable
      (s.pc = .hold → s.held c → e.training ∧ s.fits c))
  | .crash | .command _ _ _ | .reserve _ _ | .ledger _ | .retry =>
    inferInstanceAs (Decidable True)

/-! ## Where the memory can be held -/

/-- The workflow is in the convert stage, or about to run it again. -/
def Pc.holding : Pc → Bool
  | .start .convert | .hold | .submit .convert | .waiting .convert | .release _
  | .returning .convert false => true
  | _ => false

def Pc.givenUp : Pc → Bool
  | .failing _ | .marked _ | .ended => true
  | _ => false

section

variable {c : Acquisition} {s s' : State}

structure Inv (c : Acquisition) (s : State) : Prop where
  holding : s.held c → s.pc.holding
  real : s.held c ∨ s.pc = .hold → c.noop = false
  failed : s.workflow.state = .failed → s.pc.givenUp

theorem Inv.leavesNothing (hs : Inv c s) : LeavesNothing c s := by
  intro h
  by_contra hheld
  have hpc := hs.holding (Bool.of_not_eq_false hheld)
  rcases h with hf | hd
  · have := hs.failed hf
    cases hp : s.pc <;> simp_all [Pc.holding, Pc.givenUp]
  · cases hp : s.pc <;> simp_all [Pc.holding, Pc.stagesDone]

theorem Inv.free (hs : Inv c s) (h : s.pc.holding = false) : s.held c = false := by
  by_contra hheld
  rw [hs.holding (Bool.of_not_eq_false hheld)] at h
  cases h

theorem Inv.unfailed (hs : Inv c s) (h : s.pc.givenUp = false) :
    s.workflow.state ≠ .failed := by
  intro hf
  rw [hs.failed hf] at h
  cases h

theorem inv_of_free (hfree : s.held c = false) (hhold : s.pc ≠ .hold)
    (hf : s.workflow.state = .failed → s.pc.givenUp) : Inv c s := by
  grind [Inv]

theorem Inv.move (hs : Inv c s) (ht : s'.held c = s.held c)
    (hpc : s.held c → s'.pc.holding) (hhold : s'.pc = .hold → c.noop = false)
    (hf : s'.workflow.state ≠ .failed) : Inv c s' := by
  grind [Inv]

theorem inv_raise (hfree : s.held c = false) (hf : s.workflow.state ≠ .failed)
    (stage : AcquisitionStage) : Inv c (s.raise stage) := by
  unfold State.raise
  split
  · exact inv_of_free hfree nofun fun h => absurd h hf
  · exact inv_of_free hfree nofun fun h => absurd h hf

theorem inv_next (hfree : s.held c = false) (hf : s.workflow.state ≠ .failed)
    (stage : AcquisitionStage) : Inv c (s.next stage) := by
  refine inv_of_free hfree ?_ fun h => absurd h hf
  cases stage <;> exact nofun

theorem Inv.startStage (hs : Inv c s) {stage : AcquisitionStage}
    (hpc : s.pc = .start stage) (e : Env) : Inv c (s.startStage c stage e) := by
  have hconvert : s.held c → stage = .convert := by
    intro h
    have := hs.holding h
    rw [hpc] at this
    cases stage <;> first | rfl | cases this
  unfold State.startStage
  split
  · refine hs.move rfl (fun h => ?_) nofun (hs.unfailed (by rw [hpc]; rfl))
    rw [hconvert h]
    rfl
  · extract_lets pc
    refine hs.move rfl (fun h => ?_) (fun h => ?_) nofun
    · show pc.holding = true
      unfold pc
      rw [if_pos (hconvert h), hs.real (.inl h)]
      rfl
    · grind

theorem Inv.hold (hs : Inv c s) (hpc : s.pc = .hold) {e : Env}
    (h : s.held c → e.training ∧ s.fits c) : Inv c (s.hold c e) := by
  have hf : s.workflow.state ≠ .failed := hs.unfailed (by rw [hpc]; rfl)
  have hreal := hs.real (.inr hpc)
  -- a refusal is of a reservation that is not held
  have hrefused : e.training = false ∨ s.fits c = false → s.held c = false := by
    grind
  unfold State.hold
  split
  · exact hs.move rfl (fun _ => rfl) nofun hf
  split
  · rename_i hl
    refine inv_raise (hrefused (.inr ?_)) hf .convert
    unfold State.fits
    rw [Option.isNone_iff_eq_none.mp hl]
  split
  · exact hs.move rfl (fun _ => rfl) nofun hf
  split
  · rename_i ht
    exact inv_raise (hrefused (.inl (by simpa using ht))) hf .convert
  split
  · rename_i hfits
    exact inv_raise (hrefused (.inr (by simpa using hfits))) hf .convert
  · exact ⟨fun _ => rfl, fun _ => hreal, fun h => absurd h hf⟩

theorem Inv.poll (hs : Inv c s) {stage : AcquisitionStage}
    (hpc : s.pc = .waiting stage) (e : Env) : Inv c (s.poll stage e) := by
  have hf : s.workflow.state ≠ .failed := hs.unfailed (by rw [hpc]; rfl)
  have hother : stage ≠ .convert → s.held c = false := by
    intro hne
    refine hs.free ?_
    rw [hpc]
    cases stage <;> first | rfl | exact absurd rfl hne
  unfold State.poll
  extract_lets fail
  have hfail : Inv c fail := by
    unfold fail
    split
    · exact hs.move rfl (fun _ => rfl) nofun hf
    · exact inv_raise (hother ‹_›) hf stage
  split
  · exact hs
  · split
    · exact hfail
    · split
      · exact hs.move rfl (fun _ => rfl) nofun hf
      · exact inv_of_free (hother ‹_›) nofun fun h => absurd h hf
  · exact hfail
  · exact hfail

theorem release_free (s : State) (c : Acquisition) :
    State.held { s with table := s.table.modify c.key fun row =>
      { row with state := .released } } c = false := by
  unfold State.held
  rw [Dict.get?_modify, if_pos rfl]
  cases s.table.get? c.key with
  | none => rfl
  | some row => rfl

theorem Inv.release (hs : Inv c s) {manifest : Option Bool}
    (hpc : s.pc = .release manifest) : Inv c (s.release c manifest) := by
  have hf : s.workflow.state ≠ .failed := hs.unfailed (by rw [hpc]; rfl)
  unfold State.release
  extract_lets s'
  split
  · exact inv_of_free (release_free s c) nofun fun h => absurd h hf
  · exact inv_raise (release_free s c) hf .convert

theorem inv_pollCleanup (hfree : s.held c = false) (hs : Inv c s)
    (hf : s.workflow.state ≠ .failed) : Inv c s.pollCleanup := by
  unfold State.pollCleanup
  split
  · exact hs
  · exact inv_of_free hfree nofun fun h => absurd h hf
  all_goals
    split
    · exact inv_of_free hfree nofun fun h => absurd h hf
    · exact inv_of_free hfree nofun fun h => absurd h hf

theorem Inv.proceed (hs : Inv c s) {e : Env} (h : Roomy c s (.proceed e)) :
    Inv c (s.proceed c e) := by
  -- where the convert stage is not being run, nothing is held
  have hfree := fun hp : s.pc.holding = false => hs.free hp
  have hf := fun hp : s.pc.givenUp = false => hs.unfailed hp
  unfold State.proceed
  split <;> rename_i hpc <;> rw [hpc] at hfree hf
  case h_1 stage =>
    split
    · exact inv_next (hfree rfl) (hf rfl) stage
    · exact inv_of_free (hfree rfl) nofun fun h => absurd h (hf rfl)
  case h_2 => exact hs.startStage hpc e
  case h_3 => exact hs.hold hpc (h hpc)
  case h_4 stage =>
    refine hs.move rfl (fun h => ?_) nofun (hf rfl)
    have := hs.holding h
    rw [hpc] at this
    cases stage <;> first | rfl | cases this
  case h_5 => exact hs.poll hpc e
  case h_6 => exact hs.release hpc
  case h_7 => exact inv_of_free (hfree rfl) nofun fun h => absurd h (hf rfl)
  case h_8 stage =>
    refine inv_next (hfree ?_) (hf rfl) stage
    cases stage <;> rfl
  case h_9 stage =>
    refine hs.move rfl (fun h => ?_) nofun (hf rfl)
    have := hs.holding h
    rw [hpc] at this
    cases stage <;> first | rfl | cases this
  case h_10 => exact inv_of_free (hfree rfl) nofun fun _ => rfl
  case h_11 => exact inv_of_free (hfree rfl) nofun fun _ => rfl
  case h_12 => exact inv_of_free (hfree rfl) nofun fun _ => rfl
  case h_13 =>
    split
    · exact inv_of_free (hfree rfl) nofun fun h => absurd h (hf rfl)
    · exact inv_of_free (hfree rfl) nofun fun h => absurd h (hf rfl)
  case h_14 => exact inv_pollCleanup (hfree rfl) hs (hf rfl)
  case h_15 => exact inv_of_free (hfree rfl) nofun nofun
  case h_16 => exact hs

theorem recovered_holding {pc : Pc} (h : pc.holding) : pc.recovered.holding := by
  unfold Pc.holding at h
  split at h <;> first | rfl | cases h

theorem recovered_givenUp {pc : Pc} (h : pc.givenUp) : pc.recovered.givenUp := by
  cases pc <;> first | rfl | cases h

theorem recovered_ne_hold (pc : Pc) : pc.recovered ≠ .hold := by
  cases pc <;> exact nofun

theorem inv_retry (hs : Inv c s) : Inv c s.retry := by
  unfold State.retry
  split
  · exact hs
  · rename_i h
    rw [not_or, not_not, not_not] at h
    exact inv_of_free (hs.free (by rw [h.2]; rfl)) nofun nofun

theorem inv_step (hs : Inv c s) {l : Label} (h : Roomy c s l) : Inv c (step c s l) := by
  cases l with
  | proceed e => exact hs.proceed h
  | crash =>
    refine ⟨fun h => recovered_holding (hs.holding h), ?_,
      fun h => recovered_givenUp (hs.failed h)⟩
    rintro (h | h)
    · exact hs.real (.inl h)
    · exact absurd h (recovered_ne_hold s.pc)
  | command stage attempt x => exact ⟨hs.holding, hs.real, hs.failed⟩
  | reserve key row =>
    show Inv c (if key = c.key then s else _)
    split
    · exact hs
    rename_i hkey
    have hheld : State.held { s with table := s.table.set key row } c = s.held c := by
      unfold State.held
      rw [Dict.get?_set_ne _ (Ne.symm hkey)]
    refine ⟨fun h => hs.holding (hheld ▸ h), ?_, hs.failed⟩
    rintro (h | h)
    · exact hs.real (.inl (hheld ▸ h))
    · exact hs.real (.inr h)
  | ledger row => exact ⟨hs.holding, hs.real, hs.failed⟩
  | retry => exact inv_retry hs

end

/-- **A finished acquisition leaves no conversion memory behind, unless a replay is
refused its own.** -/
theorem conversion_memory_released (c : Acquisition) (table : ReservationTable)
    (ledger : Option NodeMemoryLedgerRow) (as : List Label)
    (hfresh : table.get? c.key = none)
    (h : Run.Along (step c) (Roomy c) (.init c table ledger) as) :
    Run.Throughout (step c) (LeavesNothing c) (.init c table ledger) as := by
  refine Run.throughout_of_invariant (Inv c) (fun _ hs => hs.leavesNothing)
    (fun _ _ hs h => inv_step hs h) (inv_of_free ?_ nofun nofun) h
  show (table.get? c.key).any _ = false
  rw [hfresh]
  rfl

def sixBytes : Acquisition := ⟨0, 0, 6, false, false, true, true⟩

def crashedAndFailed : List Label :=
  .append (.replicate 4 (.proceed {})) (.append [.crash, .proceed {},
    .proceed {}, .proceed {}, .command .convert 1 .failed]
    (.replicate 24 (.proceed {})))

/-- With room for the conversion twice, the failed workflow holds nothing. -/
theorem crashedAndFailed_released : Run.Throughout (step sixBytes)
    (LeavesNothing sixBytes) (.init sixBytes .empty (some ⟨12, none⟩))
    crashedAndFailed :=
  conversion_memory_released sixBytes .empty (some ⟨12, none⟩) crashedAndFailed
    rfl (by decide +kernel)

theorem failed_acquisition_holds_memory : ¬ Run.Throughout (step sixBytes)
    (LeavesNothing sixBytes) (.init sixBytes .empty (some ⟨10, none⟩))
    (.append (.replicate 4 (.proceed {})) (.cons .crash
      (.replicate 12 (.proceed {})))) := by
  intro h
  exact absurd (h 17 (.inl (by decide +kernel))) (by decide +kernel)

end AcquisitionWorkflow
