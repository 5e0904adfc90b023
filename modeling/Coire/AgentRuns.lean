import Coire.Dict
import Coire.Run
import Mathlib.Data.List.Sort

/-!
# Agent runs, their commands and their workflows

An agent run is a container on a Studio. Its durable workflow places it, executes it –
create, start, wait, logs, collect, each a command in a table – and finalizes it. One
executor carries the commands out in order; commands that kill have tasks of their own.
A kill is requested from several places, and a second workflow carries it through.

Every step of the model is one transaction, one call to a node, or one reply of a node;
what the rest of the system answers comes with the step. A workflow step that raises is
tried again from its start, a hundred times for placing and executing and five for
finalizing; a crash of the scheduler starts every unfinished step again and drops the
executor's tasks. The operations sent to nodes are recorded beside the tables.
-/

namespace AgentRuns

inductive AgentRunState
  | queued
  | placing
  | creating
  | running
  | collecting
  | succeeded
  | failed
  | resultCollectionFailed
  | timedOut
  | killRequested
  | killed
  deriving DecidableEq

def AgentRunState.terminal : AgentRunState → Bool
  | .succeeded | .failed | .resultCollectionFailed | .timedOut | .killed => true
  | .queued | .placing | .creating | .running | .collecting
  | .killRequested => false

def AgentRunState.stopped : AgentRunState → Bool
  | .killRequested | .killed => true
  | _ => false

inductive RunOperation
  | create
  | start
  | logs
  | wait
  | collect
  | remove
  | kill
  | reconcile
  deriving DecidableEq

inductive RunCommandState
  | pending
  | running
  | succeeded
  | failed
  deriving DecidableEq

def RunCommandState.isOpen : RunCommandState → Bool
  | .pending | .running => true
  | .succeeded | .failed => false

structure AgentRunRow where
  state : AgentRunState
  nodeId : Option ℕ
  containerId : Option String
  /-- `purpose == "evaluation"`. -/
  evaluation : Bool
  requestedAt : ℕ
  /-- `task_class == "write"`. -/
  write : Bool
  exitCode : Option ℤ
  failureCode : Option String
  deriving DecidableEq

structure RunDetail where
  containerId : Option String
  exitCode : Option ℤ
  /-- `state == "timed_out"`. -/
  timedOut : Bool
  failureCode : Option String
  deriving DecidableEq

def RunDetail.empty : RunDetail := ⟨none, none, false, none⟩

/-- **`run_command_id`**: a run has one command of each operation, its attempt
being 1. -/
structure RunCommandId where
  run : ℕ
  operation : RunOperation
  deriving DecidableEq

structure RunCommandRow where
  nodeId : ℕ
  state : RunCommandState
  detail : RunDetail
  deriving DecidableEq

structure NodeRow where
  name : String
  /-- `role == STUDIO`. -/
  studio : Bool
  /-- `reachability == HEALTHY`. -/
  healthy : Bool
  lastSeenAt : ℕ
  /-- `control_host is not None`. -/
  controlHost : Bool
  deriving DecidableEq

structure Settings where
  placementSandboxBytes : ℕ
  placementHealthFreshness : ℕ
  runConcurrencyCap : ℕ
  upgradesEnabled : Bool

inductive PlacePc
  | advance
  | check
  | choose
  | commit (node : ℕ)
  | returning
  deriving DecidableEq

/-- Where an attempt of `execute_run` stands. -/
inductive ExecutePc
  | begin
  | creating
  /-- A command is to be submitted, with the state read at the beginning and the wait's
  detail. -/
  | submit (operation : RunOperation) (current : Option AgentRunState)
      (waited : RunDetail)
  | await (operation : RunOperation) (current : Option AgentRunState)
      (waited : RunDetail)
  | store (containerId : String)
  | running
  | record (waited : RunDetail)
  | observe
  | collecting
  | artifact
  | returning (detail : Option String)
  deriving DecidableEq

/-- Where an attempt of `finalize_run` stands. -/
inductive FinalizePc
  | activity
  | settle
  | reconcileChat
  | submitRemove
  | awaitRemove
  | returning
  deriving DecidableEq

/-- **Where the workflow of a run stands.** -/
inductive Pc
  | place (pc : PlacePc)
  /-- `place_run` is recorded; the state of the run is read once more. -/
  | placed
  | execute (pc : ExecutePc)
  | finalize (succeeded : Bool) (detail : String) (pc : FinalizePc)
  | done
  deriving DecidableEq

structure Workflow where
  pc : Pc
  attempt : ℕ
  deriving DecidableEq

/-- **Where `run_kill_workflow` stands.** It has no steps, so that a crash
starts it from the beginning. -/
inductive KillPc
  | check
  | activity
  | submit
  | await
  | settle
  | reconcileChat
  | done
  /-- It raised: a workflow that failed is not started again. -/
  | error
  deriving DecidableEq

inductive Outcome
  | succeeded (detail : RunDetail)
  | failed (code : String)
  deriving DecidableEq

inductive TaskPc
  | picked
  | taken
  | minted
  | calling
  | replied (outcome : Outcome)
  deriving DecidableEq

structure KillTask where
  nodeId : ℕ
  pc : TaskPc
  deriving DecidableEq

structure State where
  runs : Dict ℕ AgentRunRow
  commands : Dict RunCommandId RunCommandRow
  nodes : Dict ℕ NodeRow
  workflows : Dict ℕ Workflow
  killWorkflows : Dict ℕ KillPc
  lane : Option (RunCommandId × TaskPc)
  kills : Dict ℕ KillTask
  scannedRuns : List ℕ
  scannedKills : List ℕ
  scannedKillCommands : List (ℕ × ℕ)
  sent : List RunCommandId

def State.init : State :=
  ⟨.empty, .empty, .empty, .empty, .empty, none, .empty, [], [], [], []⟩

/-! ## Rows -/

/-- **`transition`** of a run, `none` where it raises `RunConflict`. -/
def AgentRunRow.transition (row : AgentRunRow) (state : AgentRunState) :
    Option AgentRunRow :=
  if row.state.terminal then none
  else if row.state = .killRequested ∧ state ≠ .killed then none
  else some { row with state := state }

/-- **`_advance`** on the row: the row afterwards, and whether the step may go
on. -/
def AgentRunRow.advance (row : AgentRunRow) (allowed : Bool)
    (state : AgentRunState) : AgentRunRow × Bool :=
  if row.state = .queued ∧ allowed = false then (row, false)
  else if row.state ≠ state ∧ row.state.terminal = false then
    if row.state = .killRequested then (row, true)
    else ((row.transition state).getD row, true)
  else (row, true)

def finalState (succeeded : Bool) (detail : String) : AgentRunState :=
  if succeeded then .succeeded
  else if "run_timeout".toList <:+: detail.toList then .timedOut
  else if "run_result_".toList <:+: detail.toList then .resultCollectionFailed
  else .failed

def failureCode (detail : String) : String :=
  if detail = "" then "run_failed" else String.ofList (detail.toList.take 64)

def AgentRunRow.finalize (row : AgentRunRow) (succeeded : Bool)
    (detail : String) : AgentRunRow :=
  if row.state.terminal = false ∧ row.state ≠ .killRequested then
    let failing := if succeeded then row
      else { row with failureCode := some (AgentRuns.failureCode detail) }
    (failing.transition (finalState succeeded detail)).getD failing
  else row

/-! ## Submitting a command -/

/-- The text of the exception of `_submit` for a run without a node. -/
def noPlacement : String := "run has no Studio placement"

def killIsRequested : String := "run kill requested"

/-- **The first transaction of `_submit`**: the command is added if it is not
there. -/
def submit (s : State) (r : ℕ) (operation : RunOperation) :
    Except String State :=
  match s.runs.get? r with
  | none => .error noPlacement
  | some row =>
    match row.nodeId with
    | none => .error noPlacement
    | some node =>
      if row.state = .killRequested ∧ operation ≠ .kill ∧ operation ≠ .remove
      then .error killIsRequested
      else .ok { s with commands :=
        s.commands.setDefault ⟨r, operation⟩ ⟨node, .pending, .empty⟩ }

/-- **One poll of `_submit`**: the detail of a command that succeeded, `none`
while it is open. -/
def poll (s : State) (r : ℕ) (operation : RunOperation) :
    Except String (Option RunDetail) :=
  match s.commands.get? ⟨r, operation⟩ with
  | none => .error "run command disappeared"
  | some command =>
    match command.state with
    | .succeeded => .ok (some command.detail)
    | .failed => .error (command.detail.failureCode.getD "run_command_failed")
    | .pending | .running => .ok none

/-! ## Placing -/

/-- How the health probe of a node ends. -/
inductive Probe
  | failed
  | imagesUnconfigured
  | ready
  deriving DecidableEq

structure StepEnv where
  now : ℕ
  /-- `allows_core_work` for the API and the scheduler. -/
  coreWork : Bool
  /-- `allows_admission` for the node. -/
  admission : Bool
  /-- The target of a writing run is verified on the node. -/
  qualified : Bool
  /-- `authorize_evaluation_child` does not raise. -/
  authorised : Bool
  /-- The nodes with a verified copy of the run's model. -/
  copies : List ℕ
  probe : ℕ → Probe
  /-- What the workflow is told when the attempts of a step are used up. -/
  exhausted : String

/-- The order of `requested_at, id`. -/
def requestedBefore (a b : ℕ × AgentRunRow) : Prop :=
  a.2.requestedAt < b.2.requestedAt
    ∨ a.2.requestedAt = b.2.requestedAt ∧ a.1 ≤ b.1

instance : DecidableRel requestedBefore := fun a b =>
  inferInstanceAs (Decidable (a.2.requestedAt < b.2.requestedAt
    ∨ a.2.requestedAt = b.2.requestedAt ∧ a.1 ≤ b.1))

def waiting (s : State) : List (ℕ × AgentRunRow) :=
  s.runs.items.filter fun x =>
    x.2.nodeId.isNone && (x.2.state = .queued || x.2.state = .placing)

def fifoHead (s : State) : Option ℕ :=
  ((waiting s).insertionSort requestedBefore).head?.map Prod.fst

def activeOn (s : State) (r node : ℕ) : ℕ :=
  (s.runs.items.filter fun x =>
    x.2.nodeId = some node && !x.2.state.terminal && x.1 != r).length

structure RankKey where
  noCopy : Bool
  count : ℕ
  name : String

def RankKey.le (a b : RankKey) : Prop :=
  a.noCopy < b.noCopy ∨ a.noCopy = b.noCopy ∧
    (a.count < b.count ∨ a.count = b.count ∧ a.name ≤ b.name)

instance : DecidableRel RankKey.le := fun a b =>
  inferInstanceAs (Decidable (a.noCopy < b.noCopy ∨ a.noCopy = b.noCopy ∧
    (a.count < b.count ∨ a.count = b.count ∧ a.name ≤ b.name)))

def rankStudioCandidates (nodes : List (ℕ × NodeRow)) (counts : ℕ → ℕ)
    (copies : List ℕ) (cap : ℕ) : List (ℕ × NodeRow) :=
  let key (x : ℕ × NodeRow) : RankKey :=
    ⟨!copies.contains x.1, counts x.1, x.2.name⟩
  (nodes.filter fun x =>
      x.2.studio && x.2.healthy && decide (counts x.1 < cap)).insertionSort
    fun x y => (key x).le (key y)

def firstRunReadyStudio (candidates : List (ℕ × NodeRow))
    (probe : ℕ → Probe) : Option ℕ :=
  (candidates.find? fun x => probe x.1 = .ready).map Prod.fst

def chooseStudio (cfg : Settings) (s : State) (r : ℕ) (env : StepEnv) :
    Option ℕ :=
  if cfg.placementSandboxBytes = 0 then none
  else if fifoHead s ≠ some r then none
  else
    let nodes := s.nodes.items.filter fun x =>
      x.2.studio && x.2.healthy
        && decide (env.now ≤ x.2.lastSeenAt + cfg.placementHealthFreshness)
        && x.2.controlHost
    firstRunReadyStudio
      (rankStudioCandidates nodes (activeOn s r) env.copies
        cfg.runConcurrencyCap) env.probe

/-- **`commit_run_placement`** on the row: the row afterwards, and whether the
placement is done. -/
def AgentRunRow.commitRunPlacement (cfg : Settings) (env : StepEnv)
    (node : ℕ) (row : AgentRunRow) : AgentRunRow × Bool :=
  if cfg.upgradesEnabled && !env.coreWork then (row, false)
  else if row.state.terminal || row.state = .killRequested then (row, true)
  else if row.nodeId.isSome then (row, true)
  else if cfg.upgradesEnabled && !env.admission then (row, false)
  else if cfg.upgradesEnabled && row.write && !env.qualified then (row, false)
  else ({ row with nodeId := some node }, true)

/-! ## The workflow of a run -/

def State.setWorkflow (s : State) (r : ℕ) (w : Workflow) : State :=
  { s with workflows := s.workflows.set r w }

def State.goto (s : State) (r : ℕ) (w : Workflow) (pc : Pc) : State :=
  s.setWorkflow r { w with pc := pc }

def State.enter (s : State) (r : ℕ) (pc : Pc) : State :=
  s.setWorkflow r ⟨pc, 1⟩

def State.retry (s : State) (r : ℕ) (w : Workflow) (pc : Pc) : State :=
  s.setWorkflow r ⟨pc, w.attempt + 1⟩

def State.setRun (s : State) (r : ℕ) (row : AgentRunRow) : State :=
  { s with runs := s.runs.set r row }

def State.modifyRun (s : State) (r : ℕ) (f : AgentRunRow → AgentRunRow) :
    State :=
  { s with runs := s.runs.modify r f }

/-- **An exception** in the workflow of a run: the step is tried again while attempts
are left. -/
def raised (s : State) (r : ℕ) (w : Workflow) (text : String) : State :=
  match w.pc with
  | .place _ =>
    if w.attempt < 100 then s.retry r w (.place .advance)
    else s.enter r (.finalize false text .activity)
  | .placed => s.enter r (.finalize false text .activity)
  | .execute _ =>
    if w.attempt < 100 then s.retry r w (.execute .begin)
    else s.enter r (.finalize false text .activity)
  | .finalize succeeded detail .submitRemove
  | .finalize succeeded detail .awaitRemove =>
    s.goto r w (.finalize succeeded detail .returning)
  | .finalize succeeded detail _ =>
    if w.attempt < 5 then
      s.retry r w (.finalize succeeded detail .activity)
    else s.goto r w .done
  | .done => s

def placeStep (cfg : Settings) (s : State) (r : ℕ) (w : Workflow)
    (env : StepEnv) : PlacePc → State
  | .advance =>
    match s.runs.get? r with
    | none => s.goto r w (.place .check)
    | some row =>
      let (row', go) :=
        row.advance (!cfg.upgradesEnabled || env.coreWork) .placing
      (s.setRun r row').goto r w (.place (if go then .check else .advance))
  | .check =>
    match s.runs.get? r with
    | none => s.goto r w (.place .returning)
    | some row =>
      if row.state.stopped then s.goto r w (.place .returning)
      else if row.evaluation && row.nodeId.isSome then
        if env.authorised then s.goto r w (.place .returning)
        else raised s r w env.exhausted
      else s.goto r w (.place .choose)
  | .choose =>
    match chooseStudio cfg s r env with
    | none => s.goto r w (.place .advance)
    | some node => s.goto r w (.place (.commit node))
  | .commit node =>
    match s.runs.get? r with
    -- A run that is gone is placed, unless the fence holds back its caller.
    | none => s.goto r w (.place
        (if cfg.upgradesEnabled && !env.coreWork then .advance else .returning))
    | some row =>
      let (row', placed) := row.commitRunPlacement cfg env node
      (s.setRun r row').goto r w
        (.place (if placed then .returning else .advance))
  | .returning => s.enter r .placed

def afterCommand (operation : RunOperation) (current : Option AgentRunState)
    (waited detail : RunDetail) : Except String ExecutePc :=
  match operation with
  | .create =>
    match detail.containerId with
    | none => .error "'container_id'"
    | some containerId => .ok (.store containerId)
  | .start =>
    .ok (if current = some .queued ∨ current = some .placing
        ∨ current = some .creating then .running
      else .submit .wait none .empty)
  | .wait => .ok (.submit .logs current detail)
  | .logs => .ok (.record waited)
  | .collect => .ok .artifact
  | .remove | .kill | .reconcile => .ok (.returning none)

def executeStep (s : State) (r : ℕ) (w : Workflow) (env : StepEnv) :
    ExecutePc → State
  | .begin =>
    let row := s.runs.get? r
    s.goto r w (.execute
      (if (row.bind AgentRunRow.containerId).isNone then .creating
      else .submit .start (row.map AgentRunRow.state) .empty))
  | .creating =>
    (s.modifyRun r fun row => (row.advance true .creating).1).goto r w
      (.execute (.submit .create none .empty))
  | .submit operation current waited =>
    match submit s r operation with
    | .error _ => raised s r w env.exhausted
    | .ok s' => s'.goto r w (.execute (.await operation current waited))
  | .await operation current waited =>
    match poll s r operation with
    | .error _ => raised s r w env.exhausted
    | .ok none => s
    | .ok (some detail) =>
      match afterCommand operation current waited detail with
      | .error _ => raised s r w env.exhausted
      | .ok pc => s.goto r w (.execute pc)
  | .store containerId =>
    (s.modifyRun r fun row => { row with containerId := some containerId }).goto
      r w (.execute (.submit .start (some .creating) .empty))
  | .running =>
    (s.modifyRun r fun row => (row.advance true .running).1).goto r w
      (.execute (.submit .wait none .empty))
  | .record waited =>
    (s.modifyRun r fun row => { row with exitCode := waited.exitCode }).goto r w
      (.execute
        (if waited.timedOut then .returning (some "run_timeout")
        else if waited.exitCode ≠ none ∧ waited.exitCode ≠ some 0 then
          .returning (some "run_container_failed")
        else .observe))
  | .observe =>
    s.goto r w (.execute
      (if (s.runs.get? r).map AgentRunRow.state = some .collecting then
        .submit .collect none .empty
      else .collecting))
  | .collecting =>
    (s.modifyRun r fun row => (row.advance true .collecting).1).goto r w
      (.execute (.submit .collect none .empty))
  | .artifact => s.goto r w (.execute (.returning none))
  | .returning detail =>
    s.enter r (.finalize detail.isNone (detail.getD "") .activity)

def finalizeStep (s : State) (r : ℕ) (w : Workflow) (succeeded : Bool)
    (detail : String) : FinalizePc → State
  | .activity => s.goto r w (.finalize succeeded detail .settle)
  | .settle =>
    match s.runs.get? r with
    | none => s.goto r w (.finalize succeeded detail .returning)
    | some row =>
      (s.setRun r (row.finalize succeeded detail)).goto r w
        (.finalize succeeded detail .reconcileChat)
  | .reconcileChat => s.goto r w (.finalize succeeded detail .submitRemove)
  | .submitRemove =>
    match submit s r .remove with
    | .error _ => s.goto r w (.finalize succeeded detail .returning)
    | .ok s' => s'.goto r w (.finalize succeeded detail .awaitRemove)
  | .awaitRemove =>
    match poll s r .remove with
    | .ok none => s
    | .error _ | .ok (some _) =>
      s.goto r w (.finalize succeeded detail .returning)
  | .returning => s.goto r w .done

/-- **The next transaction of `run_workflow`.** -/
def workflowStep (cfg : Settings) (s : State) (r : ℕ) (w : Workflow)
    (env : StepEnv) : State :=
  match w.pc with
  | .place pc => placeStep cfg s r w env pc
  | .placed =>
    match s.runs.get? r with
    | none => s.goto r w .done
    | some row =>
      if row.state.stopped then s.goto r w .done
      else s.enter r (.execute .begin)
  | .execute pc => executeStep s r w env pc
  | .finalize succeeded detail pc => finalizeStep s r w succeeded detail pc
  | .done => s

/-- Where a workflow resumes after a crash: at the start of its step. -/
def Workflow.recover (w : Workflow) : Workflow :=
  match w.pc with
  | .place _ => ⟨.place .advance, 1⟩
  | .placed => w
  | .execute _ => ⟨.execute .begin, 1⟩
  | .finalize succeeded detail _ => ⟨.finalize succeeded detail .activity, 1⟩
  | .done => w

/-! ## The kill -/

def State.killGoto (s : State) (r : ℕ) (pc : KillPc) : State :=
  { s with killWorkflows := s.killWorkflows.set r pc }

def killStep (s : State) (r : ℕ) : KillPc → State
  | .check =>
    match s.runs.get? r with
    | none => s.killGoto r .done
    | some row =>
      if row.state ≠ .killRequested then s.killGoto r .done
      else s.killGoto r (if row.nodeId.isSome then .activity else .settle)
  | .activity => s.killGoto r .submit
  | .submit =>
    match submit s r .kill with
    | .error _ => s.killGoto r .error
    | .ok s' => s'.killGoto r .await
  | .await =>
    match poll s r .kill with
    | .error _ => s.killGoto r .error
    | .ok none => s
    | .ok (some _) => s.killGoto r .settle
  | .settle =>
    (s.modifyRun r fun row =>
      if row.state = .killRequested then (row.transition .killed).getD row
      else row).killGoto r .reconcileChat
  | .reconcileChat => s.killGoto r .done
  | .done | .error => s

/-- Where a kill workflow resumes after a crash. -/
def KillPc.recover : KillPc → KillPc
  | .done => .done
  | .error => .error
  | _ => .check

def State.addKill (s : State) (r : ℕ) (row : AgentRunRow) : State :=
  match row.nodeId with
  | none => s
  | some node =>
    { s with commands :=
      s.commands.setDefault ⟨r, .kill⟩ ⟨node, .pending, .empty⟩ }

/-- **`kill_run`** of an administrator, and **`_kill_run`** of a confirmed
operations action: a run that is stopped already is left alone by the one and
refused by the other. -/
def killRun (s : State) (r : ℕ) : State :=
  match s.runs.get? r with
  | none => s
  | some row =>
    match row.transition .killRequested with
    | none => s
    | some row' => (s.setRun r row').addKill r row

/-- **`request_coding_kill`** of the owner: a run without a node is killed at
once. -/
def requestCodingKill (s : State) (r : ℕ) : State :=
  match s.runs.get? r with
  | none => s
  | some row =>
    if row.state.terminal then s
    else if row.nodeId.isSome then
      (s.setRun r { row with state := .killRequested }).addKill r row
    else s.setRun r { row with state := .killed }

def stopChild (s : State) (r : ℕ) : State :=
  s.modifyRun r fun row =>
    if row.state.terminal = false ∧ row.state ≠ .killRequested then
      { row with state := .killRequested }
    else row

/-- **`enqueue_kills`**: a task for every scanned command that has none, within
the cap of its node. -/
def enqueueKills (cap : ℕ) (kills : Dict ℕ KillTask) :
    List (ℕ × ℕ) → Dict ℕ KillTask
  | [] => kills
  | (r, node) :: rows =>
    if (kills.get? r).isSome
        ∨ cap ≤ (kills.values.filter fun t => t.nodeId = node).length
    then enqueueKills cap kills rows
    else enqueueKills cap (kills.set r ⟨node, .picked⟩) rows

/-! ## The executor -/

inductive TaskEvent
  | begin (nodeKnown : Bool) (refused : Option String)
  /-- The transaction that mints the token, with what its other checks say. -/
  | mint (refused : Option String)
  | send
  | returns (detail : RunDetail)
  | raises (code : String)
  /-- A retryable error of the node, or an error of the outcome's transaction:
  the command is left as it is. -/
  | abandon
  | finish
  deriving DecidableEq

/-- The failure code of an exception of the executor itself. -/
def runtimeError : String := "runtimeerror"

def recordOutcome (s : State) (c : RunCommandId) (o : Outcome) : State :=
  { s with commands := s.commands.modify c fun command =>
    match o with
    | .succeeded detail =>
      { command with state := .succeeded, detail := detail }
    | .failed code =>
      { command with
        state := .failed
        detail := { RunDetail.empty with
          failureCode := some (String.ofList (code.toList.take 64)) } } }

/-- The first transaction of `_execute`. -/
def beginCommand (s : State) (c : RunCommandId) (nodeKnown : Bool)
    (refused : Option String) : State × Option TaskPc :=
  match s.commands.get? c, s.runs.get? c.run with
  | some command, some row =>
    if nodeKnown = false then (s, some (.replied (.failed runtimeError)))
    else if row.state = .killRequested ∧ c.operation ≠ .kill
        ∧ c.operation ≠ .remove then
      (s, some (.replied (.failed runtimeError)))
    else
      match if c.operation = .start then refused else none with
      | some code => (s, some (.replied (.failed code)))
      | none =>
        ({ s with commands :=
            s.commands.set c { command with state := .running } },
          some .taken)
  | _, _ => (s, some (.replied (.failed runtimeError)))

def mintToken (s : State) (c : RunCommandId) (refused : Option String) :
    TaskPc :=
  match s.runs.get? c.run with
  | none => .replied (.failed runtimeError)
  | some row =>
    if row.state = .killRequested then .replied (.failed runtimeError)
    else
      match refused with
      | some code => .replied (.failed code)
      | none => .minted

/-- **`_execute_safely`**, one event at a time: the state afterwards, and where
the execution stands, `none` once it is over. -/
def executeCommand (s : State) (c : RunCommandId) (pc : TaskPc) :
    TaskEvent → State × Option TaskPc
  | .begin nodeKnown refused =>
    if pc = .picked then beginCommand s c nodeKnown refused else (s, some pc)
  | .mint refused =>
    if pc = .taken ∧ c.operation = .create then
      (s, some (mintToken s c refused))
    else (s, some pc)
  | .send =>
    if pc = .taken ∧ c.operation = .reconcile then
      (s, some (.replied (.failed runtimeError)))
    else if pc = .minted ∨ pc = .taken ∧ c.operation ≠ .create then
      ({ s with sent := s.sent ++ [c] }, some .calling)
    else (s, some pc)
  | .returns detail =>
    -- A create finds the container of an earlier attempt without a call.
    if pc = .calling ∨ pc = .taken ∧ c.operation = .create then
      (s, some (.replied (.succeeded detail)))
    else (s, some pc)
  | .raises code =>
    match pc with
    | .replied o => (s, some (.replied o))
    | _ => (s, some (.replied (.failed code)))
  | .abandon => (s, none)
  | .finish =>
    match pc with
    | .replied o => (recordOutcome s c o, none)
    | pc => (s, some pc)

/-- **`_next`**: the oldest open command that does not kill. -/
def nextCommand (s : State) : Option RunCommandId :=
  (s.commands.items.find? fun x =>
    x.1.operation != .kill && x.2.state.isOpen).map Prod.fst

/-! ## The system -/

inductive Label
  /-- A run is requested. Only the child of an evaluation comes with a node. -/
  | request (r : ℕ) (evaluation : Bool) (node : Option ℕ) (requestedAt : ℕ)
      (write : Bool)
  | registry (node : ℕ) (row : NodeRow)
  /-- The dispatcher reads the runs to start workflows for. -/
  | scanRuns
  | startWorkflow (r : ℕ)
  | workflow (r : ℕ) (env : StepEnv)
  | raise (r : ℕ) (text : String)
  | crash
  | killRun (r : ℕ)
  | requestCodingKill (r : ℕ)
  | stopChild (r : ℕ)
  /-- The dispatcher reads the runs to kill, and the open kill commands. -/
  | scanKills
  | startKill (r : ℕ)
  | enqueueKills
  | killWorkflow (r : ℕ)
  | killRaise (r : ℕ)
  | next
  | lane (event : TaskEvent)
  | killTask (r : ℕ) (event : TaskEvent)

def requestedRun (evaluation : Bool) (node : Option ℕ) (requestedAt : ℕ)
    (write : Bool) : AgentRunRow :=
  ⟨.queued, if evaluation then node else none, none, evaluation, requestedAt,
    write, none, none⟩

def step (cfg : Settings) (s : State) : Label → State
  | .request r evaluation node requestedAt write =>
    { s with runs :=
        s.runs.setDefault r (requestedRun evaluation node requestedAt write) }
  | .registry node row => { s with nodes := s.nodes.set node row }
  | .scanRuns =>
    { s with scannedRuns := (s.runs.items.filter fun x =>
        !x.2.state.terminal && x.2.state != .killRequested).map Prod.fst }
  | .startWorkflow r =>
    if r ∈ s.scannedRuns then
      { s with workflows := s.workflows.setDefault r ⟨.place .advance, 1⟩ }
    else s
  | .workflow r env =>
    match s.workflows.get? r with
    | none => s
    | some w => workflowStep cfg s r w env
  | .raise r text =>
    match s.workflows.get? r with
    | none => s
    | some w => raised s r w text
  | .crash =>
    { s with
      workflows := s.workflows.mapValues fun _ w => w.recover
      killWorkflows := s.killWorkflows.mapValues fun _ pc => pc.recover
      lane := none
      kills := .empty
      scannedRuns := []
      scannedKills := []
      scannedKillCommands := [] }
  | .killRun r => killRun s r
  | .requestCodingKill r => requestCodingKill s r
  | .stopChild r => stopChild s r
  | .scanKills =>
    { s with
      scannedKills := (s.runs.items.filter fun x =>
        x.2.state = .killRequested).map Prod.fst
      scannedKillCommands := (s.commands.items.filter fun x =>
        x.1.operation = .kill && x.2.state.isOpen).map fun x =>
          (x.1.run, x.2.nodeId) }
  | .startKill r =>
    if r ∈ s.scannedKills then
      { s with killWorkflows := s.killWorkflows.setDefault r .check }
    else s
  | .enqueueKills =>
    { s with
      kills := enqueueKills cfg.runConcurrencyCap s.kills s.scannedKillCommands
      scannedKillCommands := [] }
  | .killWorkflow r =>
    match s.killWorkflows.get? r with
    | none => s
    | some pc => killStep s r pc
  | .killRaise r =>
    match s.killWorkflows.get? r with
    | some .done | none => s
    | some _ => s.killGoto r .error
  | .next =>
    match s.lane with
    | some _ => s
    | none => { s with lane := (nextCommand s).map fun c => (c, .picked) }
  | .lane event =>
    match s.lane with
    | none => s
    | some (c, pc) =>
      let (s', pc') := executeCommand s c pc event
      { s' with lane := pc'.map fun pc => (c, pc) }
  | .killTask r event =>
    match s.kills.get? r with
    | none => s
    | some t =>
      let (s', pc') := executeCommand s ⟨r, .kill⟩ t.pc event
      match pc' with
      | none => { s' with kills := s'.kills.erase r }
      | some pc => { s' with kills := s'.kills.set r { t with pc := pc } }

/-! ### A small cluster -/

/-- A node answers every probe, and nothing holds a run back. -/
def calm : StepEnv := ⟨0, true, true, true, true, [], fun _ => .ready, ""⟩

def oneStudio : Settings := ⟨1, 0, 1, false⟩

def workflowSteps (n : ℕ) : List Label := List.replicate n (.workflow 0 calm)

/-! ## What a transaction does to the row -/

theorem advance_cases (row : AgentRunRow) (allowed : Bool)
    (state : AgentRunState) : (row.advance allowed state).1 = row
      ∨ row.state.terminal = false ∧ row.state ≠ .killRequested
        ∧ (row.advance allowed state).1 = { row with state := state } := by
  grind [AgentRunRow.advance, AgentRunRow.transition]

theorem commit_cases (cfg : Settings) (env : StepEnv) (node : ℕ)
    (row : AgentRunRow) : (row.commitRunPlacement cfg env node).1 = row
      ∨ row.nodeId = none ∧ row.state.terminal = false ∧ row.state ≠ .killRequested
        ∧ (row.commitRunPlacement cfg env node).1
          = { row with nodeId := some node } := by
  cases hnode : row.nodeId <;> grind [AgentRunRow.commitRunPlacement]

theorem finalState_spec (succeeded : Bool) (detail : String) :
    finalState succeeded detail ≠ .killed ∧ finalState succeeded detail ≠ .queued
      ∧ finalState succeeded detail ≠ .placing := by
  unfold finalState
  repeat' split
  all_goals decide

theorem finalize_cases (row : AgentRunRow) (succeeded : Bool)
    (detail : String) : row.finalize succeeded detail = row
      ∨ row.state.terminal = false ∧ ∃ code, row.finalize succeeded detail
        = { row with failureCode := code, state := finalState succeeded detail } := by
  unfold AgentRunRow.finalize
  split
  · rename_i h
    refine .inr ⟨h.1,
      if succeeded then row.failureCode else some (failureCode detail), ?_⟩
    cases succeeded <;> simp [AgentRunRow.transition, h]
  · exact .inl rfl

/-! ## What a step leaves alone -/

/-- **Everything outside a run is as before.** -/
structure Own (r : ℕ) (s s' : State) : Prop where
  runs : ∀ q, q ≠ r → s'.runs.get? q = s.runs.get? q
  workflows : ∀ q, q ≠ r → s'.workflows.get? q = s.workflows.get? q
  commands : ∀ c : RunCommandId, c.run ≠ r →
    s'.commands.get? c = s.commands.get? c
  lane : s'.lane = s.lane
  scanned : s'.scannedRuns = s.scannedRuns
  sent : s'.sent = s.sent

section Own

variable {cfg : Settings} {r : ℕ} {s s' s'' : State} {w : Workflow}

theorem Own.refl (r : ℕ) (s : State) : Own r s s :=
  ⟨fun _ _ => rfl, fun _ _ => rfl, fun _ _ => rfl, rfl, rfl, rfl⟩

theorem Own.trans (h : Own r s s') (h' : Own r s' s'') : Own r s s'' where
  runs q hq := (h'.runs q hq).trans (h.runs q hq)
  workflows q hq := (h'.workflows q hq).trans (h.workflows q hq)
  commands c hc := (h'.commands c hc).trans (h.commands c hc)
  lane := h'.lane.trans h.lane
  scanned := h'.scanned.trans h.scanned
  sent := h'.sent.trans h.sent

theorem own_setWorkflow (r : ℕ) (s : State) (w : Workflow) :
    Own r s (s.setWorkflow r w) :=
  { Own.refl r s with workflows := fun _ hq => Dict.get?_set_ne _ hq _ }

theorem Own.goto (h : Own r s s') (w : Workflow) (pc : Pc) : Own r s (s'.goto r w pc) :=
  h.trans (own_setWorkflow r s' _)

theorem own_goto (r : ℕ) (s : State) (w : Workflow) (pc : Pc) :
    Own r s (s.goto r w pc) :=
  own_setWorkflow r s _

theorem own_enter (r : ℕ) (s : State) (pc : Pc) : Own r s (s.enter r pc) :=
  own_setWorkflow r s _

theorem own_modifyRun (r : ℕ) (s : State) (f : AgentRunRow → AgentRunRow) :
    Own r s (s.modifyRun r f) :=
  { Own.refl r s with
    runs := fun _ hq => (Dict.get?_modify ..).trans (if_neg hq) }

theorem own_setRun (r : ℕ) (s : State) (row : AgentRunRow) : Own r s (s.setRun r row) :=
  { Own.refl r s with runs := fun _ hq => Dict.get?_set_ne _ hq _ }

theorem own_killGoto (r : ℕ) (s : State) (pc : KillPc) : Own r s (s.killGoto r pc) :=
  { Own.refl r s with }

theorem own_addCommand (r : ℕ) (s : State) (operation : RunOperation)
    (command : RunCommandRow) :
    Own r s { s with commands :=
      s.commands.setDefault ⟨r, operation⟩ command } :=
  { Own.refl r s with
    commands := fun c hc => by
      rw [Dict.get?_setDefault, if_neg (fun h => hc (congrArg _ h))] }

theorem own_addKill (r : ℕ) (s : State) (row : AgentRunRow) :
    Own r s (s.addKill r row) := by
  unfold State.addKill
  split
  · exact .refl r s
  · exact own_addCommand r s _ _

theorem submit_ok {operation : RunOperation} (h : submit s r operation = .ok s') :
    ∃ row node, s.runs.get? r = some row ∧ row.nodeId = some node
      ∧ s' = { s with commands :=
          s.commands.setDefault ⟨r, operation⟩ ⟨node, .pending, .empty⟩ } := by
  unfold submit at h
  cases hrow : s.runs.get? r with
  | none => rw [hrow] at h; exact nomatch h
  | some row => grind

theorem own_submit {operation : RunOperation}
    (h : submit s r operation = .ok s') : Own r s s' := by
  obtain ⟨row, node, -, -, rfl⟩ := submit_ok h
  exact own_addCommand r s _ _

theorem own_raised (r : ℕ) (s : State) (w : Workflow) (text : String) :
    Own r s (raised s r w text) := by
  unfold raised
  repeat' split
  all_goals first | exact own_setWorkflow r s _ | exact .refl r s

theorem own_placeStep (env : StepEnv) (pc : PlacePc) :
    Own r s (placeStep cfg s r w env pc) := by
  unfold placeStep
  repeat' split
  all_goals first
    | exact own_goto r s w _
    | exact (own_setRun r s _).goto w _
    | exact own_raised r s w _
    | exact own_enter r s _

theorem own_executeStep (env : StepEnv) (pc : ExecutePc) :
    Own r s (executeStep s r w env pc) := by
  unfold executeStep
  repeat' split
  all_goals first
    | exact own_goto r s w _
    | exact (own_modifyRun r s _).goto w _
    | exact own_raised r s w _
    | exact own_enter r s _
    | exact .refl r s
    | rename_i hs; exact (own_submit hs).goto w _

theorem own_finalizeStep (succeeded : Bool) (detail : String)
    (pc : FinalizePc) : Own r s (finalizeStep s r w succeeded detail pc) := by
  unfold finalizeStep
  repeat' split
  all_goals first
    | exact own_goto r s w _
    | exact (own_setRun r s _).goto w _
    | exact .refl r s
    | rename_i hs; exact (own_submit hs).goto w _

theorem own_workflowStep (env : StepEnv) : Own r s (workflowStep cfg s r w env) := by
  unfold workflowStep
  repeat' split
  all_goals first
    | exact own_placeStep env _
    | exact own_executeStep env _
    | exact own_finalizeStep _ _ _
    | exact own_goto r s w _
    | exact own_enter r s _
    | exact .refl r s

theorem own_killStep (pc : KillPc) : Own r s (killStep s r pc) := by
  unfold killStep
  repeat' split
  all_goals first
    | exact own_killGoto r s _
    | exact (own_modifyRun r s _).trans (own_killGoto r _ _)
    | exact .refl r s
    | rename_i hs; exact (own_submit hs).trans (own_killGoto r _ _)

theorem own_killRun : Own r s (killRun s r) := by
  unfold killRun
  repeat' split
  all_goals first
    | exact .refl r s
    | exact (own_setRun r s _).trans (own_addKill r _ _)

theorem own_requestCodingKill : Own r s (requestCodingKill s r) := by
  unfold requestCodingKill
  repeat' split
  all_goals first
    | exact .refl r s
    | exact (own_setRun r s _).trans (own_addKill r _ _)
    | exact own_setRun r s _

end Own

structure Executes (s s' : State) (c : RunCommandId) : Prop where
  runs : s'.runs = s.runs
  workflows : s'.workflows = s.workflows
  lane : s'.lane = s.lane
  scanned : s'.scannedRuns = s.scannedRuns
  other : ∀ c', c' ≠ c → s'.commands.get? c' = s.commands.get? c'
  own : s'.commands.get? c = s.commands.get? c
    ∨ ∃ old new, s.commands.get? c = some old ∧ s'.commands.get? c = some new
  sent : s'.sent = s.sent ∨ s'.sent = s.sent ++ [c]

theorem Executes.refl (s : State) (c : RunCommandId) : Executes s s c :=
  ⟨rfl, rfl, rfl, rfl, fun _ _ => rfl, .inl rfl, .inl rfl⟩

theorem executes_beginCommand (s : State) (c : RunCommandId) (known : Bool)
    (refused : Option String) :
    Executes s (beginCommand s c known refused).1 c := by
  unfold beginCommand
  split
  · rename_i command row hc hrow
    repeat' split
    all_goals first
      | exact .refl s c
      | exact { Executes.refl s c with
          other := fun c' hne => Dict.get?_set_ne _ hne _
          own := .inr ⟨command, _, hc, Dict.get?_set_self _ _ _⟩ }
  · exact .refl s c

theorem executes_recordOutcome (s : State) (c : RunCommandId) (o : Outcome) :
    Executes s (recordOutcome s c o) c where
  runs := rfl
  workflows := rfl
  lane := rfl
  scanned := rfl
  other _ hne := (Dict.get?_modify ..).trans (if_neg hne)
  own := by
    have hget : (recordOutcome s c o).commands.get? c
        = (s.commands.get? c).map _ := (Dict.get?_modify ..).trans (if_pos rfl)
    cases hc : s.commands.get? c with
    | none =>
      rw [hget, hc]
      exact .inl rfl
    | some command => grind
  sent := .inl rfl

theorem executes_executeCommand (s : State) (c : RunCommandId) (pc : TaskPc)
    (event : TaskEvent) : Executes s (executeCommand s c pc event).1 c := by
  cases event with
  | begin known refused =>
    rw [executeCommand]
    split
    · exact executes_beginCommand s c known refused
    · exact .refl s c
  | send =>
    rw [executeCommand]
    split
    · exact .refl s c
    split
    · exact { Executes.refl s c with sent := .inr rfl }
    · exact .refl s c
  | finish =>
    cases pc with
    | replied o => exact executes_recordOutcome s c o
    | _ => exact .refl s c
  | mint refused | returns detail =>
    rw [executeCommand]
    split <;> exact .refl s c
  | raises code => cases pc <;> exact .refl s c
  | abandon => exact .refl s c

end AgentRuns
