import Coire.TrainingJournal

/-!
# The training supervisor of a Studio

The node's side of a training attempt. A `TrainingSupervisor` keeps a durable journal –
the attempts it has prepared and the commands it has accepted, each with its receipt –
and, beside it, the files of the attempts it refused for good and the birth files its
workers write. What it holds in memory is lost when the agent crashes; the workers live
on.

A trainer is spawned between two transactions of `start`: the first commits the
*intent*, the spawn nonce, the second the process. So a journal with an intent and no
process may or may not have a trainer behind it, and is asked about it through the birth
file or a scan of the processes. What the operating system answers is true
(`observeProcess`).

Every call is cut where the agent can crash: at its transactions and at the spawn. The
steps of the call that owns the lock are `proceed`.
-/

namespace TrainingSupervision

structure ProcessIdentity where
  pid : ℕ
  createTime : ℕ
  deriving DecidableEq

structure TrainingCommand where
  commandId : ℕ
  jobId : ℕ
  attemptId : ℕ
  fence : ℕ
  requestSha256 : ℕ
  node : StudioName
  rank : ℕ
  worldSize : ℕ
  deriving DecidableEq

inductive Request
  | prepare (command : TrainingCommand) (reservationId : ℕ)
  | start (command : TrainingCommand) (preparedCommandId spawnNonce : ℕ)
  | stop (command : TrainingCommand) (reason : ℕ)
  deriving DecidableEq

def Request.command : Request → TrainingCommand
  | .prepare c _ | .start c _ _ | .stop c _ => c

structure TrainingPrepared where
  attemptId : ℕ
  fence : ℕ
  node : StudioName
  reservationId : ℕ
  ready : Bool
  deriving DecidableEq

structure TrainingStartReceipt where
  attemptId : ℕ
  fence : ℕ
  process : ProcessIdentity
  reservationId : ℕ
  deriving DecidableEq

structure TrainingStopReceipt where
  attemptId : ℕ
  fence : ℕ
  node : StudioName
  process : Option ProcessIdentity
  stopped : Bool
  deriving DecidableEq

structure NodeTrainingStatus where
  attemptId : ℕ
  jobId : ℕ
  fence : ℕ
  node : StudioName
  liveness : TrainingLiveness
  process : Option ProcessIdentity
  deriving DecidableEq

inductive Reply
  | prepared (receipt : TrainingPrepared)
  | started (receipt : TrainingStartReceipt)
  | stopped (receipt : TrainingStopReceipt)
  | status (status : NodeTrainingStatus)
  deriving DecidableEq

inductive Receipt
  | prepared
  | started (receipt : TrainingStartReceipt)
  | stopped (receipt : TrainingStopReceipt)
  deriving DecidableEq

structure AttemptRecord where
  prepare : TrainingCommand
  reservationId : ℕ
  released : Bool
  liveness : TrainingLiveness
  spawnNonce : Option ℕ
  process : Option ProcessIdentity
  reason : Option ℕ
  /-- The attempt's files were cleaned up. -/
  cleaned : Bool
  deriving DecidableEq

/-- An accepted command. Its digest covers every field, so comparing digests is
comparing requests. -/
structure CommandEntry where
  request : Request
  receipt : Option Receipt
  deriving DecidableEq

structure Worker where
  attemptId : ℕ
  spawnNonce : ℕ
  identity : ProcessIdentity
  alive : Bool
  deriving DecidableEq

/-- The call that owns the supervisor's lock, between its transactions. -/
inductive Task
  /-- `start`, its intent committed. -/
  | spawning (command : TrainingCommand) (request : Request)
      (value : AttemptRecord)
  /-- `start`, its process spawned. -/
  | started (command : TrainingCommand) (request : Request)
      (value : AttemptRecord) (process : ProcessIdentity)
  /-- `stop`, its reason committed, waiting for preparations. -/
  | stopping (command : TrainingCommand) (request : Request)
  /-- `stop`, the record read. -/
  | killing (command : TrainingCommand) (request : Request)
      (value : AttemptRecord) (complete : Bool)
  /-- `stop`, the process dealt with. -/
  | settling (command : TrainingCommand) (request : Request)
      (value : AttemptRecord) (state : TrainingLiveness)
  deriving DecidableEq

def Task.command : Task → TrainingCommand
  | .spawning c _ _ | .started c _ _ _ | .stopping c _ | .killing c _ _ _
  | .settling c _ _ _ => c

structure Supervisor where
  node : StudioName
  records : Dict ℕ AttemptRecord
  commands : Dict ℕ CommandEntry
  /-- The `rejected-attempt` files. -/
  rejections : Dict ℕ TrainingCommand
  /-- The `birth.json` files. -/
  births : Dict ℕ ProcessIdentity
  workers : List Worker
  task : Option Task

namespace Supervisor

def init (node : StudioName) : Supervisor :=
  ⟨node, .empty, .empty, .empty, .empty, [], none⟩

variable (s : Supervisor)

/-! ## The operating system -/

def alive (i : ProcessIdentity) : Bool :=
  s.workers.any fun w => w.identity = i ∧ w.alive

/-- `NativeProcesses.observe`: what is `seen` of a process, as far as it can be
true. -/
def observeProcess (i : ProcessIdentity) (seen : TrainingLiveness) :
    TrainingLiveness :=
  match seen with
  | .running => if s.alive i then .running else .unknown
  | .stopped => if s.alive i then .unknown else .stopped
  | _ => .unknown

/-- `NativeProcesses.discover`: the one process with these arguments, if the
scan was `certain`. Absence proves nothing. -/
def discover (attemptId spawnNonce : ℕ) (certain : Bool) :
    TrainingLiveness × Option ProcessIdentity :=
  match s.workers.filter fun w =>
      w.attemptId = attemptId ∧ w.spawnNonce = spawnNonce ∧ w.alive with
  | [w] => if certain then (.running, some w.identity) else (.unknown, none)
  | _ => (.unknown, none)

/-! ## The journal -/

def insert (a : ℕ) (v : AttemptRecord) : Supervisor :=
  { s with records := s.records.set a v }

def save (a : ℕ) (v : AttemptRecord) : Supervisor :=
  { s with records := s.records.modify a fun _ => v }

def receipt (r : Request) (x : Receipt) : Supervisor :=
  { s with commands := s.commands.set r.command.commandId ⟨r, some x⟩ }

def latestFence (jobId : ℕ) : Option ℕ :=
  ((s.records.values.filter fun v => v.prepare.jobId = jobId).map
    fun v => v.prepare.fence).max?

/-- `accept`: `none` when the command is refused, `some none` when it is new,
and otherwise the entry it was accepted with. -/
def accept (r : Request) (leased : Bool) : Option (Option CommandEntry) :=
  let c := r.command
  if c.node ≠ s.node then none
  else if (s.latestFence c.jobId).any fun f => c.fence < f then none
  else if !leased then none
  else match s.commands.get? c.commandId with
    | some e => if e.request ≠ r then none else some (some e)
    | none => some none

/-- The fields in which a command must agree with what it is about. -/
def sameScope (c d : TrainingCommand) : Bool :=
  c.jobId = d.jobId ∧ c.attemptId = d.attemptId ∧ c.fence = d.fence
    ∧ c.node = d.node ∧ c.rank = d.rank ∧ c.worldSize = d.worldSize
    ∧ c.requestSha256 = d.requestSha256

def scopedTo (c : TrainingCommand) : Option AttemptRecord :=
  match s.records.get? c.attemptId with
  | some v => if sameScope c v.prepare then some v else none
  | none => none

def releaseAfterDeath (a : ℕ) : Supervisor :=
  match s.records.get? a with
  | some v =>
    if v.liveness = .stopped then s.save a { v with released := true } else s
  | none => s

/-! ## Rejections -/

/-- `pristine`: nothing of the attempt is in the journal, on disk (`tidy`) or
among the processes. -/
def pristine (a : ℕ) (tidy : Bool) : Bool :=
  (s.records.get? a).isNone && tidy
    && !s.workers.any fun w => w.attemptId = a ∧ w.alive

/-- `PrepareRejections.read`: `none` when what it finds is unresolved. -/
def readRejection (a : ℕ) (tidy : Bool) : Option (Option TrainingCommand) :=
  match s.rejections.get? a with
  | none => some none
  | some c =>
    if c.attemptId ≠ a ∨ c.node ≠ s.node ∨ !s.pristine a tidy then none
    else some (some c)

/-- `PrepareRejections.record` and `record_stop`: the attempt is fenced for good
if nothing of it is here. -/
def reject (c : TrainingCommand) (tidy : Bool) : Supervisor :=
  if c.node ≠ s.node ∨ !s.pristine c.attemptId tidy then s
  else { s with rejections := s.rejections.set c.attemptId c }

/-! ## Requests -/

/-- What a request meets outside the supervisor's tables. -/
structure Env where
  leased : Bool := true
  fits : Bool := true
  admits : Bool := true
  inputs : Bool := true
  tidy : Bool := true
  seen : TrainingLiveness := .unknown

def recordOf (c : TrainingCommand) (reservationId : ℕ) : AttemptRecord :=
  ⟨c, reservationId, false, .prepared, none, none, none, false⟩

def journalPrepare (c : TrainingCommand) (reservationId : ℕ) (e : Env) :
    Option Supervisor :=
  match s.accept (.prepare c reservationId) e.leased with
  | none => none
  | some (some _) => if (s.records.get? c.attemptId).isSome then some s else none
  | some none =>
    if s.records.values.any (fun v => !v.released) then none
    else if (s.records.get? c.attemptId).isSome then none
    else if !e.fits then none
    else some ((s.insert c.attemptId (recordOf c reservationId)).receipt
      (.prepare c reservationId) .prepared)

/-- `prepare`: a refusal is made durable while nothing of the attempt is here. -/
def prepare (c : TrainingCommand) (reservationId : ℕ) (e : Env) : Supervisor :=
  if !e.admits then s
  else match s.readRejection c.attemptId e.tidy with
    | some none =>
      match s.journalPrepare c reservationId e with
      | some s' => s'
      | none => s.reject c e.tidy
    | _ => s

def startReceipt (c : TrainingCommand) (v : AttemptRecord)
    (i : ProcessIdentity) : TrainingStartReceipt :=
  ⟨c.attemptId, c.fence, i, v.reservationId⟩

/-- `start` up to its first transaction. The intent is committed for a prepared
attempt only; one that has an intent already is never spawned again. -/
def start (c : TrainingCommand) (preparedCommandId spawnNonce : ℕ) (e : Env) :
    Supervisor × List Reply :=
  let r := Request.start c preparedCommandId spawnNonce
  if s.task.isSome ∨ !e.inputs then (s, [])
  else match s.readRejection c.attemptId e.tidy, s.accept r e.leased,
      s.scopedTo c with
    | some none, some prior, some v =>
      if preparedCommandId ≠ v.prepare.commandId then (s, [])
      else match prior.bind (·.receipt) with
        | some (.started receipt) => (s, [.started receipt])
        | some _ => (s, [])
        | none =>
          if v.released then (s, [])
          else match v.spawnNonce with
            | some nonce =>
              match v.process with
              | some i =>
                if nonce = spawnNonce ∧ s.observeProcess i e.seen = .running
                then
                  (s.receipt r (.started (startReceipt c v i)),
                    [.started (startReceipt c v i)])
                else (s, [])
              | none => (s, [])
            | none =>
              if v.liveness ≠ .prepared ∨ v.reason ≠ none ∨ !e.admits then
                (s, [])
              else
                let v' := { v with
                  spawnNonce := some spawnNonce, liveness := .unknown }
                let s' := { s with commands :=
                  s.commands.setDefault c.commandId ⟨r, none⟩ }
                ({ s'.save c.attemptId v' with
                  task := some (.spawning c r v') }, [])
    | _, _, _ => (s, [])

/-- The receipt of a `stop` for an attempt that was never prepared here. -/
def rejectedReceipt (c : TrainingCommand) : TrainingStopReceipt :=
  ⟨c.attemptId, c.fence, c.node, none, true⟩

def stopRejected (c : TrainingCommand) (reason : ℕ)
    (rejected : TrainingCommand) : Supervisor × List Reply :=
  let r := Request.stop c reason
  if !sameScope c rejected then (s, [])
  else match s.accept r true with
    | none => (s, [])
    | some prior =>
      match prior.bind (·.receipt) with
      | some (.stopped receipt) => (s, [.stopped receipt])
      | some _ => (s, [])
      | none =>
        (s.receipt r (.stopped (rejectedReceipt c)),
          [.stopped (rejectedReceipt c)])

/-- `stop` of a prepared attempt, up to its first transaction: the reason is
committed, and with it that an attempt without intent is not to start. -/
def stopPrepared (c : TrainingCommand) (reason : ℕ) :
    Supervisor × List Reply :=
  let r := Request.stop c reason
  if s.task.isSome then (s, [])
  else match s.accept r true, s.scopedTo c with
    | some prior, some v =>
      match prior.bind (·.receipt) with
      | some (.stopped receipt) => (s, [.stopped receipt])
      | some _ => (s, [])
      | none =>
        let v' := { v with
          reason := some reason
          liveness := if v.spawnNonce = none then .stopping else v.liveness }
        let s' := { s with commands :=
          s.commands.setDefault c.commandId ⟨r, none⟩ }
        ({ s'.save c.attemptId v' with task := some (.stopping c r) }, [])
    | _, _ => (s, [])

/-- `stop`: an attempt of which nothing is here is fenced before its absence is
acknowledged. -/
def stop (c : TrainingCommand) (reason : ℕ) (tidy : Bool) :
    Supervisor × List Reply :=
  match s.readRejection c.attemptId tidy with
  | none => (s, [])
  | some (some rejected) => s.stopRejected c reason rejected
  | some none =>
    if s.pristine c.attemptId tidy then
      if c.node ≠ s.node then (s, [])
      else (s.reject c tidy).stopRejected c reason c
    else s.stopPrepared c reason

/-! ## Observation -/

def observed (a : ℕ) (v : AttemptRecord) (seen : TrainingLiveness) :
    AttemptRecord :=
  match v.spawnNonce with
  | none => v
  | some nonce =>
    if v.cleaned then v
    else match v.process with
      | some i => { v with liveness := s.observeProcess i seen }
      | none =>
        match s.births.get? a with
        | some i =>
          { v with liveness := s.observeProcess i seen, process := some i }
        | none =>
          let found := s.discover a nonce (seen = .running)
          { v with liveness := found.1, process := found.2 }

def statusOf (a : ℕ) (v : AttemptRecord) : NodeTrainingStatus :=
  ⟨a, v.prepare.jobId, v.prepare.fence, v.prepare.node, v.liveness, v.process⟩

def observe (a : ℕ) (seen : TrainingLiveness) (tidy : Bool) :
    Supervisor × List Reply :=
  match s.readRejection a tidy with
  | none => (s, [])
  | some (some c) =>
    (s, [.status ⟨a, c.jobId, c.fence, c.node, .stopped, none⟩])
  | some none =>
    match s.records.get? a with
    | none => (s, [])
    | some v =>
      (s.save a (s.observed a v seen),
        [.status (statusOf a (s.observed a v seen))])

/-! ## The call that owns the lock -/

/-- What the next step of the call meets. -/
structure ProceedEnv where
  spawned : Option ProcessIdentity := none
  complete : Bool := true
  exits : Bool := true
  seen : TrainingLiveness := .unknown

def exit (i : ProcessIdentity) : Supervisor :=
  { s with workers := s.workers.map fun w =>
      if w.identity = i then { w with alive := false } else w }

def signal (v : AttemptRecord) (exits : Bool) : Supervisor :=
  match v.process with
  | some i => if exits then s.exit i else s
  | none => s

def stopReceipt (c : TrainingCommand) (v : AttemptRecord)
    (state : TrainingLiveness) : TrainingStopReceipt :=
  ⟨c.attemptId, c.fence, c.node, v.process, state = .stopped⟩

/-- The spawn between the two transactions of `start`. -/
def spawn (c : TrainingCommand) (r : Request) (v : AttemptRecord)
    (i : Option ProcessIdentity) : Supervisor :=
  match i, v.spawnNonce with
  | some i, some nonce =>
    { s with
      workers := ⟨c.attemptId, nonce, i, true⟩ :: s.workers
      task := some (.started c r v i) }
  | _, _ => { s with task := none }

/-- The state `stop` finds once the process is signalled: without a process, an
attempt without intent has stopped if its preparations have. -/
def settledState (v : AttemptRecord) (complete : Bool)
    (seen : TrainingLiveness) : TrainingLiveness :=
  match v.process with
  | some i => s.observeProcess i seen
  | none =>
    if v.spawnNonce = none then if complete then .stopped else .unknown
    else v.liveness

/-- One step of the call that owns the lock. -/
def proceed (e : ProceedEnv) : Supervisor × List Reply :=
  match s.task with
  | none => (s, [])
  | some (.spawning c r v) => (s.spawn c r v e.spawned, [])
  | some (.started c r v i) =>
    let v' := { v with process := some i, liveness := .running }
    let s' := (s.save c.attemptId v').receipt r (.started (startReceipt c v i))
    ({ s' with task := none }, [.started (startReceipt c v i)])
  | some (.stopping c r) =>
    match s.records.get? c.attemptId with
    | none => ({ s with task := none }, [])
    | some v =>
      let v' := s.observed c.attemptId v e.seen
      ({ s.save c.attemptId v' with
        task := some (.killing c r v' e.complete) }, [])
  | some (.killing c r v complete) =>
    let s' := s.signal v e.exits
    let state := s'.settledState v complete e.seen
    ({ s' with task := some (.settling c r v state) }, [])
  | some (.settling c r v state) =>
    let s' := (s.save c.attemptId { v with liveness := state }).receipt r
      (.stopped (stopReceipt c v state))
    ({ s' with task := none }, [.stopped (stopReceipt c v state)])

/-! ## Steps -/

inductive Label
  | request (r : Request) (e : Env)
  /-- The reply to a preparation, read from the record after it. -/
  | prepared (attemptId : ℕ) (ready : Bool)
  | proceed (e : ProceedEnv)
  | observe (attemptId : ℕ) (seen : TrainingLiveness) (tidy : Bool)
  /-- The watchdog's own `stop` of an attempt whose lease or pause ran out. -/
  | watchdog (attemptId commandId reason : ℕ) (tidy : Bool)
  | release (attemptId : ℕ)
  | clean (attemptId : ℕ)
  | birth (attemptId : ℕ) (i : ProcessIdentity)
  | exit (i : ProcessIdentity)
  | crash

def step : Label → Supervisor × List Reply
  | .request (.prepare c reservationId) e => (s.prepare c reservationId e, [])
  | .request (.start c prepared nonce) e => s.start c prepared nonce e
  | .request (.stop c reason) e => s.stop c reason e.tidy
  | .prepared a ready =>
    match s.records.get? a with
    | none => (s, [])
    | some v =>
      (s, [.prepared ⟨a, v.prepare.fence, v.prepare.node, v.reservationId,
        ready && !(v.liveness = .stopped || v.released)⟩])
  | .proceed e => s.proceed e
  | .observe a seen tidy => s.observe a seen tidy
  | .watchdog a commandId reason tidy =>
    match s.records.get? a with
    | none => (s, [])
    | some v => s.stop { v.prepare with commandId := commandId } reason tidy
  | .release a => (s.releaseAfterDeath a, [])
  | .clean a =>
    match s.records.get? a with
    | some v =>
      (if v.released then s.save a { v with cleaned := true } else s, [])
    | none => (s, [])
  | .birth a i =>
    (if s.workers.any (fun w => w.attemptId = a ∧ w.identity = i ∧ w.alive)
      then { s with births := s.births.setDefault a i } else s, [])
  | .exit i => (s.exit i, [])
  | .crash => ({ s with task := none }, [])

end Supervisor

end TrainingSupervision
