import Coire.AdmissionPlan

/-!
# Placement decisions, their workflows, and the command executor

A placement decision is carried out by a durable workflow, one transaction after the
other: it runs the admission pass on each node in turn, has the planned victims unloaded
one by one, writes its own reservation once more, queues the load and waits for it. An
exception marks the decision failed, and its pending reservation with it; the step is
tried three times, and again after a crash of the scheduler. Loads and unloads are
commands in a table, which one executor carries out in order, each in two transactions:
the effect on the reservation, then the outcome.

Every step of the model is one transaction. Answers of the rest of the system come with
the step. The latest admission of each reservation, and how many there were, are
recorded beside the tables.
-/

inductive PlacementState
  | requested
  | waitingForDrain
  | evicting
  | reserving
  | loading
  | ready
  | refused
  | failed
  deriving DecidableEq

inductive InstanceState
  | requested
  | reserving
  | launching
  | warming
  | ready
  | draining
  | stopped
  | failed
  deriving DecidableEq

inductive CommandState
  | pending
  | running
  | succeeded
  | failed
  deriving DecidableEq

def CommandState.isOpen : CommandState → Bool
  | .pending | .running => true
  | .succeeded | .failed => false

inductive Operation
  | load
  | unload
  deriving DecidableEq

/-- **`_command_id`**, of a decision, an operation and a target. The target of
a load is the engine of the decision's holder on the node, so that the row it
loads for says as much. -/
structure CommandId where
  decision : ℕ
  operation : Operation
  row : RowKey
  deriving DecidableEq

/-- `PlacementDecisionRow`. The holder is the instance of the decision, or its
model if it has none. -/
structure PlacementDecision where
  holderId : ℕ
  requiredBytes : ℕ
  /-- The policy starts with `pinned:`. -/
  pinned : Bool
  /-- The policy is `idle-ttl`. -/
  idleTtl : Bool
  state : PlacementState
  selectedNodeId : Option ℕ
  refusalCode : Option String
  occupants : List PlacementOccupant

def PlacementDecision.target (d : PlacementDecision) (node : ℕ) :
    PlacementTarget :=
  ⟨⟨node, .model, d.holderId⟩, d.requiredBytes, d.pinned, rfl⟩

structure RequestLease where
  row : RowKey
  expiresAt : ℤ
  released : Bool

def RequestLease.active (l : RequestLease) (now : ℤ) : Bool :=
  !l.released && decide (now < l.expiresAt)

structure ModelInstance where
  state : InstanceState
  placementDecisionId : Option ℕ

/-- **Where the workflow of a decision stands**: the transaction it will run
next. -/
inductive WorkflowPc
  /-- An attempt of `execute_placement` will start. -/
  | idle
  /-- The nodes still to try, and what kept the earlier ones from admitting. -/
  | nodes (rest : List ℕ) (maintenanceWait profileRefused : Bool)
      (occupants : List PlacementOccupant)
  | evict (node : ℕ) (victims : List RowKey)
  | awaitUnload (node : ℕ) (victim : RowKey) (rest : List RowKey)
  | awaitLoad (node : ℕ)
  | markReady (node : ℕ)
  | failing (name : String)
  /-- The step is over, but not yet recorded as done. -/
  | returning
  | finished
  deriving DecidableEq

structure Workflow where
  pc : WorkflowPc
  attempt : ℕ

inductive ExecutorPc
  | idle
  | running (c : CommandId)
  | applied (c : CommandId)
  deriving DecidableEq

/-- **An admission**: its number, the decision, its bytes, and the victims it
planned. -/
structure Admission where
  serial : ℕ
  decision : ℕ
  bytes : ℕ
  victims : List RowKey

structure Placement where
  now : ℤ
  rows : ReservationTable
  leases : Dict ℕ RequestLease
  decisions : Dict ℕ PlacementDecision
  commands : Dict CommandId CommandState
  instances : Dict ℕ ModelInstance
  workflows : Dict ℕ Workflow
  executor : ExecutorPc
  /-- How many admissions there were. -/
  serial : ℕ
  admissions : Dict RowKey Admission

namespace Placement

variable (s : Placement)

def activeLeases (k : RowKey) : ℕ :=
  s.leases.values.countP (fun l => decide (l.row = k) && l.active s.now)

def pc? (d : ℕ) : Option WorkflowPc := (s.workflows.get? d).map Workflow.pc

def goto (d : ℕ) (pc : WorkflowPc) : Placement :=
  { s with workflows := s.workflows.modify d (fun w => { w with pc := pc }) }

/-- The step returned `False`: the workflow sleeps and calls it again. -/
def again (d : ℕ) : Placement :=
  { s with workflows := s.workflows.modify d (fun _ => ⟨.idle, 1⟩) }

def updateDecision (d : ℕ) (f : PlacementDecision → PlacementDecision) :
    Placement :=
  { s with decisions := s.decisions.modify d f }

def setState (k : RowKey) (state : MemoryReservationState) : Placement :=
  { s with rows := s.rows.modify k (fun r => { r with state := state }) }

def record (target : PlacementTarget) : Placement :=
  { s with rows := s.rows.recordPending target s.now }

def queue (c : CommandId) : Placement :=
  { s with commands := s.commands.setDefault c .pending }

def setCommand (c : CommandId) (state : CommandState) : Placement :=
  { s with commands := s.commands.modify c (fun _ => state) }

/-! ## The transactions of a decision -/

/-- What the start of `_run_ordinary_decision` reads. -/
structure BeginEnv where
  coreWork : Bool
  registered : Bool
  nodes : List ℕ

def begin (d : ℕ) (env : BeginEnv) : Placement :=
  match s.pc? d with
  | some .idle =>
    if env.coreWork = false then s.again d
    else
      match s.decisions.get? d with
      | none => s.goto d .returning
      | some decision =>
        if decision.state = .ready then s.goto d .returning
        else if env.registered = false then s.goto d (.failing "runtimeerror")
        else
          match env.nodes with
          | [] => (s.updateDecision d (fun r => { r with
              state := .refused
              refusalCode := some "no_healthy_verified_copy" })).goto d
                .returning
          | n :: ns => s.goto d (.nodes (n :: ns) false false [])
  | _ => s

structure AdmitEnv where
  coreWork : Bool
  /-- The decision's model, variant and ledger are there. -/
  registered : Bool
  admissionOpen : Bool
  mixAllowed : Bool
  validationSmoke : Bool
  measured : Option ℕ
  /-- With a drain wait configured, the leases that end during it. -/
  ended : Option (RowKey → ℕ)

/-- The pass reads the leases before a drain wait and, if it has to wait, again
after it. No lease is granted on the node in between. -/
def passEnv (env : AdmitEnv) : PassEnv where
  admissionOpen := env.admissionOpen
  mixAllowed := env.mixAllowed
  validationSmoke := env.validationSmoke
  upgradeSmoke := false
  measured := env.measured
  inFlight := fun k => s.activeLeases k + env.ended.elim 0 (· k)
  drained := env.ended.map (fun _ => s.activeLeases)

def admitted (d : ℕ) (target : PlacementTarget) (plan : AdmissionPlan)
    (rows : ReservationTable) : Placement :=
  { s with
    rows := rows
    decisions := s.decisions.modify d (fun r => { r with
      selectedNodeId := some target.key.node
      state := if plan.evictions = [] then .reserving else .evicting
      occupants := plan.occupants })
    workflows := s.workflows.modify d (fun w => { w with
      pc := .evict target.key.node plan.evictions })
    serial := s.serial + 1
    admissions := s.admissions.set target.key
      ⟨s.serial + 1, d, target.requiredBytes, plan.evictions⟩ }

def admission (budget : ℕ → ℕ) (d : ℕ) (env : AdmitEnv) : Placement :=
  match s.pc? d, s.decisions.get? d with
  | some (.nodes (n :: ns) wait profile occupants), some decision =>
    if env.coreWork = false then s.again d
    else if env.registered = false then s.goto d (.failing "runtimeerror")
    else
      match s.rows.admissionPass (budget n) (decision.target n)
          (s.passEnv env) s.now with
      | .maintenanceWait => s.goto d (.nodes ns true profile occupants)
      | .profileRefused => s.goto d (.nodes ns wait true occupants)
      | .unplanned .notPositive => s.goto d (.failing "valueerror")
      | .unplanned .invalidOccupant => s.goto d (.failing "validationerror")
      | .unplanned (.refused occupants waited) =>
        (if waited then s.updateDecision d (fun r =>
          { r with state := .waitingForDrain }) else s).goto d
            (.nodes ns wait profile occupants)
      | .skipped => s.goto d (.nodes ns wait profile occupants)
      | .trainingConflict => s.goto d (.failing "trainingconflict")
      | .admitted plan rows => s.admitted d (decision.target n) plan rows
  | some (.nodes (_ :: _) _ _ _), none => s.goto d (.failing "runtimeerror")
  | _, _ => s

/-- **No node is left**: the decision waits for maintenance, or is refused. -/
def refuse (d : ℕ) : Placement :=
  match s.pc? d with
  | some (.nodes [] wait profile occupants) =>
    if wait then s.again d
    else (s.updateDecision d (fun r => { r with
      state := .refused
      refusalCode := some (if profile then "unmeasured_image_mix"
        else "capacity")
      occupants := occupants })).goto d .returning
  | _ => s

def evict (d : ℕ) (engineRuns : Bool) : Placement :=
  match s.pc? d with
  | some (.evict n (v :: vs)) =>
    if s.rows.get? v = none ∨ s.decisions.get? d = none
        ∨ engineRuns = false then
      s.goto d (.failing "runtimeerror")
    else
      ((s.setState v .releasing).queue ⟨d, .unload, v⟩).goto d
        (.awaitUnload n v vs)
  | _ => s

structure ReserveEnv where
  coreWork : Bool
  admissionOpen : Bool
  /-- The decision's model and variant are there, and its exact identity. -/
  registered : Bool

def reserve (d : ℕ) (env : ReserveEnv) : Placement :=
  match s.pc? d, s.decisions.get? d with
  | some (.evict n []), some decision =>
    if env.coreWork = false then s.again d
    else if env.registered = false then s.goto d (.failing "runtimeerror")
    else if env.admissionOpen = false then s.again d
    else if s.rows.fenced (decision.target n).key decision.requiredBytes then
      s.goto d (.failing "trainingconflict")
    else
      (((s.record (decision.target n)).queue
        ⟨d, .load, (decision.target n).key⟩).updateDecision d (fun r =>
          { r with state := .loading })).goto d (.awaitLoad n)
  | some (.evict _ []), none => s.goto d (.failing "runtimeerror")
  | _, _ => s

/-- `_wait_command` looks at the command once. -/
def await (d : ℕ) (c : CommandId) (next : WorkflowPc) : Placement :=
  match s.commands.get? c with
  | none => s.goto d (.failing "runtimeerror")
  | some .succeeded => s.goto d next
  | some .failed => s.goto d (.failing "runtimeerror")
  | some .pending | some .running => s

def poll (d : ℕ) : Placement :=
  match s.pc? d, s.decisions.get? d with
  | some (.awaitUnload n v vs), _ => s.await d ⟨d, .unload, v⟩ (.evict n vs)
  | some (.awaitLoad n), some decision =>
    s.await d ⟨d, .load, (decision.target n).key⟩ (.markReady n)
  | _, _ => s

def markReady (d : ℕ) : Placement :=
  match s.pc? d with
  | some (.markReady _) =>
    (s.updateDecision d (fun r => { r with state := .ready })).goto d .returning
  | _ => s

/-- An exception is raised in a running attempt. -/
def throw (d : ℕ) (name : String) : Placement :=
  match s.pc? d with
  | none | some .idle | some (.failing _) | some .returning
  | some .finished => s
  | some _ => s.goto d (.failing name)

def failIfPending (r : MemoryReservationRow) : MemoryReservationRow :=
  if r.state = .pending then { r with state := .failed } else r

/-- The pending reservation of a failed decision, on the node it selected,
fails. -/
def failPending (d : ℕ) : Placement :=
  match s.decisions.get? d with
  | none => s
  | some decision =>
    match decision.selectedNodeId with
    | none => s
    | some n =>
      { s with rows := s.rows.modify (decision.target n).key failIfPending }

/-- The step is tried again, three times in all. -/
def retry (d : ℕ) : Placement :=
  { s with workflows := s.workflows.modify d (fun w =>
      if w.attempt < 3 then ⟨.idle, w.attempt + 1⟩
      else { w with pc := .returning }) }

/-- **The exception handler** of `execute_placement`. An exact target that is
not confirmed keeps its decision and its hold. -/
def fail (d : ℕ) (exact : Bool) : Placement :=
  match s.pc? d with
  | some (.failing name) =>
    if exact then s.retry d
    else
      ((s.failPending d).updateDecision d (fun r => { r with
        state := .failed
        refusalCode := some name })).retry d
  | _ => s

def complete (d : ℕ) : Placement :=
  match s.pc? d with
  | some .returning => s.goto d .finished
  | _ => s

def crash (d : ℕ) : Placement :=
  match s.pc? d with
  | none | some .finished => s
  | some _ => s.again d

/-! ## The executor -/

def execNext : Placement :=
  match s.executor, s.commands.items.find? (fun e => e.2.isOpen) with
  | .idle, some e =>
    { s.setCommand e.1 .running with executor := .running e.1 }
  | _, _ => s

def execFail : Placement :=
  match s.executor with
  | .running c => { s.setCommand c .failed with executor := .idle }
  | _ => s

def applyUnload (c : CommandId) : Placement :=
  { s.setState c.row .released with
    instances := s.instances.modify c.row.holderId (fun i =>
      if i.state = .ready ∨ i.state = .draining then
        { i with state := .stopped }
      else i)
    decisions := s.decisions.modify c.decision (fun r =>
      if r.idleTtl then { r with state := .ready } else r) }

/-- A load is refused where it would reactivate a row beside training. -/
def loadFenced (k : RowKey) : Bool :=
  s.rows.trainingHeld k.node && (s.rows.get? k).any (fun r =>
    decide (r.state ≠ .pending ∧ r.state ≠ .held))

/-- **The command is carried out** and its effect written. -/
def execApply : Placement :=
  match s.executor with
  | .running c =>
    match c.operation with
    | .unload => { s.applyUnload c with executor := .applied c }
    | .load =>
      if s.loadFenced c.row then s.execFail
      else { s.setState c.row .held with executor := .applied c }
  | _ => s

def execFinish : Placement :=
  match s.executor with
  | .applied c => { s.setCommand c .succeeded with executor := .idle }
  | _ => s

/-- A retryable error, or a restart of the executor: the command will be run
again. -/
def execRetry : Placement := { s with executor := .idle }

/-! ## Leases, pins, idle models -/

def leasable (k : RowKey) (lease : ℕ) : Bool :=
  (s.rows.get? k).any (fun r => decide (r.state = .held))
    && (s.leases.get? lease).isNone

/-- **`acquire_lease`** on a held reservation, if its instance is ready and
training allows it. -/
def acquireLease (k : RowKey) (lease : ℕ) (ttl : ℤ) (allowed : Bool) :
    Placement :=
  if s.leasable k lease && allowed then
    { s with
      leases := s.leases.set lease ⟨k, s.now + ttl, false⟩
      rows := s.rows.modify k (fun r => { r with lastUsedAt := s.now }) }
  else s

def refreshLease (lease : ℕ) (ttl : ℤ) : Placement :=
  { s with leases := s.leases.modify lease (fun l =>
      if l.active s.now ∧ 0 < ttl then { l with expiresAt := s.now + ttl }
      else l) }

def releaseLease (lease : ℕ) : Placement :=
  { s with leases := s.leases.modify lease (fun l =>
      { l with released := true }) }

def pinnable (k : RowKey) : Bool :=
  (s.rows.get? k).any (fun r =>
    decide (k.holderType = .model) && decide (r.state ≠ .releasing)
      || decide (k.holderType = .image) && decide (r.state = .held))

def setPin (k : RowKey) (pinned allowed : Bool) : Placement :=
  if s.pinnable k && allowed then
    { s with rows := s.rows.modify k (fun r => { r with pinned := pinned }) }
  else s

structure TtlEnv where
  ttl : RowKey → Option ℤ
  served : RowKey → Bool
  decisionId : RowKey → ℕ

def idleExpired (env : TtlEnv) (k : RowKey) (r : MemoryReservationRow) : Bool :=
  decide (k.holderType = .model) && decide (r.state = .held) && !r.pinned
    && (env.ttl k).any (fun ttl => decide (r.lastUsedAt + ttl ≤ s.now))
    && decide (s.activeLeases k = 0) && env.served k

def idleRows (env : TtlEnv) : List (RowKey × MemoryReservationRow) :=
  s.rows.items.filter (fun e => s.idleExpired env e.1 e.2)

def ttlDecision (k : RowKey) (r : MemoryReservationRow) :
    PlacementDecision where
  holderId := k.holderId
  requiredBytes := r.bytes
  pinned := false
  idleTtl := true
  state := .evicting
  selectedNodeId := some k.node
  refusalCode := none
  occupants := []

def unloadIdle (env : TtlEnv) : Placement :=
  { s with
    rows := s.rows.mapValues (fun k r =>
      if s.idleExpired env k r then { r with state := .releasing } else r)
    decisions := (s.idleRows env).foldl (fun ds e =>
      ds.set (env.decisionId e.1) (ttlDecision e.1 e.2)) s.decisions
    commands := (s.idleRows env).foldl (fun cs e =>
      cs.set ⟨env.decisionId e.1, .unload, e.1⟩ .pending) s.commands }

/-- **`execute_idle_ttl_pass`**, in one transaction. A decision id that is
taken aborts it. -/
def idleTtlPass (env : TtlEnv) : Placement :=
  if (s.idleRows env).any (fun e =>
      (s.decisions.get? (env.decisionId e.1)).isSome) then s
  else s.unloadIdle env

/-! ## The launch of an instance -/

def ended (i : InstanceState) : Bool :=
  decide (i = .ready) || decide (i = .draining) || decide (i = .stopped)
    || decide (i = .failed)

/-- The launch gives up: the instance has failed, and its reservations that
count with it. -/
def launchFail (i : ℕ) : Placement :=
  { s with
    instances := s.instances.modify i (fun r => { r with state := .failed })
    rows := s.rows.mapValues (fun k r =>
      if k.holderType = .model ∧ k.holderId = i ∧ r.state.active then
        { r with state := .failed }
      else r) }

def launchPoll (i : ℕ) : Placement :=
  match s.instances.get? i with
  | none => s
  | some inst =>
    if ended inst.state then s
    else
      match inst.placementDecisionId.bind s.decisions.get? with
      | none => s
      | some decision =>
        match decision.state with
        | .refused | .failed => s.launchFail i
        | .loading =>
          { s with instances := s.instances.modify i (fun r =>
              if r.state = .reserving then { r with state := .launching }
              else r) }
        | _ => s

/-- The end of a launch whose decision is ready, if its reservation is held and
its engine runs. -/
def launchReady (i : ℕ) (engineRuns : Bool) : Placement :=
  match s.instances.get? i with
  | none => s
  | some inst =>
    if ended inst.state || !engineRuns then s
    else
      match inst.placementDecisionId.bind s.decisions.get? with
      | none => s
      | some decision =>
        if decision.state = .ready ∧ decision.selectedNodeId.any (fun n =>
            (s.rows.get? ⟨n, .model, i⟩).any (fun r =>
              decide (r.state = .held))) then
          { s with instances := s.instances.modify i (fun r =>
              { r with state := .ready }) }
        else s

/-! ## Steps -/

/-- **A step**: one transaction of one of the processes, or the passing of
time. -/
inductive Step
  | begin (d : ℕ) (env : BeginEnv)
  | admission (d : ℕ) (env : AdmitEnv)
  | refuse (d : ℕ)
  | evict (d : ℕ) (engineRuns : Bool)
  | reserve (d : ℕ) (env : ReserveEnv)
  | poll (d : ℕ)
  | markReady (d : ℕ)
  | throw (d : ℕ) (name : String)
  | fail (d : ℕ) (exact : Bool)
  | complete (d : ℕ)
  | crash (d : ℕ)
  | execNext
  | execApply
  | execFail
  | execFinish
  | execRetry
  | acquireLease (k : RowKey) (lease : ℕ) (ttl : ℤ) (allowed : Bool)
  | refreshLease (lease : ℕ) (ttl : ℤ)
  | releaseLease (lease : ℕ)
  | setPin (k : RowKey) (pinned allowed : Bool)
  | idleTtlPass (env : TtlEnv)
  | launchPoll (i : ℕ)
  | launchReady (i : ℕ) (engineRuns : Bool)
  | tick (elapsed : ℕ)

def step (budget : ℕ → ℕ) (s : Placement) : Step → Placement
  | .begin d env => s.begin d env
  | .admission d env => s.admission budget d env
  | .refuse d => s.refuse d
  | .evict d engineRuns => s.evict d engineRuns
  | .reserve d env => s.reserve d env
  | .poll d => s.poll d
  | .markReady d => s.markReady d
  | .throw d name => s.throw d name
  | .fail d exact => s.fail d exact
  | .complete d => s.complete d
  | .crash d => s.crash d
  | .execNext => s.execNext
  | .execApply => s.execApply
  | .execFail => s.execFail
  | .execFinish => s.execFinish
  | .execRetry => s.execRetry
  | .acquireLease k lease ttl allowed => s.acquireLease k lease ttl allowed
  | .refreshLease lease ttl => s.refreshLease lease ttl
  | .releaseLease lease => s.releaseLease lease
  | .setPin k pinned allowed => s.setPin k pinned allowed
  | .idleTtlPass env => s.idleTtlPass env
  | .launchPoll i => s.launchPoll i
  | .launchReady i engineRuns => s.launchReady i engineRuns
  | .tick elapsed => { s with now := s.now + elapsed }

end Placement
