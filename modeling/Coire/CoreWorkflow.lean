import Coire.Attempt
import Coire.ExecutorJournal
import Coire.UpgradeLabels

/-!
# The Core upgrade workflow, against the API

The executor of a Core upgrade and the API keep one numbered history twice. The
executor writes its progress to its own receipt journal first and sends it later
(`replayReceipts`); only the intent to migrate or to activate goes the other way: the
API appends it when it consumes the grant, and the executor writes it down when it has
the acknowledgment (`consumeBoundary`).

One step of the executor, `advanceCoreStep`, is a program over the world of both. It may
stop at any of its writes and requests, and what it has done by then stays. What happens
to it from outside is a list of *fates*, one for each write, request and look at the
clock: whether the process stops there, whether the reply is lost, whether an
administrator cancels just then, whether a deadline has passed.

The effects on containers and on the schema succeed when they are attempted, and what
the executor observes of containers is what it expects.
-/

namespace Upgrades.Workflow

open Guarded (settle)
open Executor (UpgradeActivationConsume)
open Attempt (change observe)

/-- **Evidence as text**: what is written reads back, and is not empty. -/
structure Papers extends Documents where
  evidence : UpgradeEvidence → String
  readEvidence_evidence : ∀ e, readEvidence (evidence e) = e
  evidence_ne : ∀ e, evidence e ≠ ""

/-- The plan of a Core upgrade: `client.bind` accepts no other. -/
structure CorePlan extends AcceptedPlan where
  core : operation.kind = .controlPlane

/-! ## The world -/

structure Disk where
  receipts : List UpgradeReceipt := []
  acknowledged : ℕ := 0
  recoveryCapturedAt : Option ℤ := none
  activations : List UpgradeActivationConsume := []
  /-- `consume-migration.json` and `consume-runtime.json`. -/
  consumes : Boundary → Option UpgradeActivationConsume := fun _ => none
  sourceSnapshot : Bool := false
  migrationEffects : Bool := false
  migrationStarted : Bool := false
  migrationProof : Option UpgradeMigrationExecution := none
  migrationNotStarted : Option UpgradeMigrationNotStarted := none
  /-- Every candidate of the cohort has been started. -/
  replaced : Bool := false
  /-- `authority.claim.state == "committed"`. -/
  committed : Bool := false

def Disk.latest (d : Disk) : Option UpgradeReceipt := d.receipts.getLast?

def Disk.activationOf (d : Disk) (b : Boundary) : Option UpgradeActivationConsume :=
  d.activations.find? fun a => a.grant.boundary = b

def Disk.page (d : Disk) (after : ℕ) : List UpgradeReceipt :=
  (d.receipts.drop after).take 32

def Disk.nextSequence (d : Disk) : ℕ :=
  match d.latest with
  | none => 1
  | some latest => latest.sequence + 1

def Disk.isAt (d : Disk) (phases : List UpgradePhase) : Bool :=
  d.latest.any fun r => r.phase ∈ phases

def Disk.isExactly (d : Disk) (phase : UpgradePhase) (outcome : Outcome) : Bool :=
  d.latest.any fun r => r.phase = phase ∧ r.outcome = outcome

def Disk.isTerminal (d : Disk) : Bool := d.latest.any fun r => r.phase.terminal

inductive Op
  | receipts | status | inventory | schema | grant | consume | migration | fence | smoke
  /-- The writes that follow a consumed grant. -/
  | record
  | dispatch
  | file
  | clock
  deriving DecidableEq

/-- **What happens around one operation** of the executor, and what the others
answer. -/
structure Fate where
  /-- The process ends before the operation. -/
  stop : Op → Bool := fun _ => false
  /-- The request is processed and its reply lost. -/
  lost : Op → Bool := fun _ => false
  /-- An administrator cancels before the operation. -/
  cancel : Bool := false
  /-- What the API checks of every request. -/
  answer : Except Refusal Unit := .ok ()
  ingest : IngestEnv := ⟨.ok (), .ok (), 0⟩
  boundary : BoundaryEnv :=
    ⟨0, 0, 0, .ok (), .ok (), ("", ""), .ok (), .ok (), .ok ()⟩
  now : ℤ := 0
  /-- The deadline that is looked at has passed. -/
  expired : Bool := false
  idle : Bool := true
  /-- The number of tokens and the digest of the output. -/
  smoke : ℕ × String := (10, "")
  digest : String := ""

/-- The API's row, the executor's files, the schema, and what is still to happen in the
step. -/
structure World where
  row : OperationRow
  disk : Disk := {}
  schema : String × String
  fates : List Fate := []

/-- How a step ends that does not return: it raises, or the process ends. -/
inductive Halt
  | raised (error : Refusal)
  | ended

abbrev M := Attempt World Halt

def raise {α : Type} (e : Refusal) : M α := Attempt.raise (.raised e)

def refuse (c : Prop) [Decidable c] (e : Refusal) : M Unit :=
  Attempt.refuse c (.raised e)

def disk : M Disk := Attempt.read World.disk

/-- `except CoireError`. -/
def caught : Halt → Option Refusal
  | .raised e => some e
  | .ended => none

def cancelled (D : Documents) (s : OperationRow) : OperationRow :=
  settle s (requestCancel D s ⟨.ok (), .error .notFound, ⟨.ok (), .ok (), 0⟩⟩)

section Programs

variable (P : CorePlan) (D : Papers)

/-! ## Operations -/

/-- The fate of the next operation. Where none is given, nothing happens. -/
def World.fate (w : World) : Fate := w.fates.headD {}

/-- The world when an operation is come to: an administrator may have cancelled. -/
def World.next (w : World) : World :=
  { w with
    fates := w.fates.tail
    row := if w.fate.cancel then cancelled D.toDocuments w.row else w.row }

/-- What happens before an operation: a cancellation, or the end of the process. -/
def tick (op : Op) : M Fate := fun w =>
  if w.fate.stop op then (.error .ended, w.next D) else (.ok w.fate, w.next D)

def write (op : Op) (f : Fate → Disk → Disk) : M Unit := do
  let fate ← tick D op
  change fun w => { w with disk := f fate w.disk }

/-- `datetime.now(UTC) >= deadline`. -/
def expired : M Bool := do
  let fate ← tick D .clock
  return fate.expired

/-- `datetime.now(UTC) < deadline`. -/
def notExpired : M Bool := do
  let late ← expired D
  return !late

/-- What `_request` makes of a refusal of the API. -/
def transported : Refusal → Refusal
  | .forbidden _ => .forbidden "Restricted executor request was refused"
  | .conflict _ => .conflict "Core refused the accepted executor transition"
  | _ => .unavailable "Core executor protocol is unavailable"

/-- **`_request`**: the API processes a request in one transaction, and the reply may
be lost. -/
def request {α : Type} (op : Op)
    (process : Fate → World → Except Refusal (OperationRow × α)) : M α := do
  let fate ← tick D op
  let result ← Attempt.read fun w => do
    fate.answer
    process fate w
  match result with
  | .error e => raise (transported e)
  | .ok (row, a) =>
    change fun w => { w with row := row }
    if fate.lost op then raise (.unavailable "Core executor protocol is unavailable")
    else return a

/-! ## The journals -/

def captureRecovery : M Unit := do
  let d ← disk
  if d.recoveryCapturedAt = none then
    write D .file fun fate d => { d with recoveryCapturedAt := some fate.now }
  else return ()

def append (receipt : UpgradeReceipt) : M Unit := do
  let d ← disk
  refuse ((receipt.jobId, receipt.generation)
      ≠ (P.operation.jobId, P.operation.generation))
    (.conflict "Receipt belongs to another local owner")
  match d.receipts[receipt.sequence - 1]? with
  | some existing =>
    refuse (D.receiptSha256 existing ≠ D.receiptSha256 receipt)
      (.conflict "Receipt replay contains different evidence")
  | none =>
    refuse (receipt.sequence ≠ d.receipts.length + 1)
      (.conflict "Local receipt sequence is not contiguous")
    change fun w =>
      { w with disk := { w.disk with receipts := w.disk.receipts ++ [receipt] } }

def acknowledge (sequence : ℕ) : M Unit := do
  let d ← disk
  refuse (d.receipts.length < sequence ∨ sequence < d.acknowledged)
    (.conflict "Durable receipt acknowledgment differs")
  write D .file fun _ d => { d with acknowledged := sequence }

/-- `phase.value.replace("_", "-")`. -/
def slug : UpgradePhase → String
  | .accepted => "accepted"
  | .preflight => "preflight"
  | .fencing => "fencing"
  | .draining => "draining"
  | .staged => "staged"
  | .smokeBefore => "smoke-before"
  | .migrating => "migrating"
  | .activating => "activating"
  | .verifying => "verifying"
  | .qualifying => "qualifying"
  | .committing => "committing"
  | .restoring => "restoring"
  | .verifyingSource => "verifying-source"
  | .recoveryRequired => "recovery-required"
  | .succeeded => "succeeded"
  | .failedUnchanged => "failed-unchanged"
  | .cancelledUnchanged => "cancelled-unchanged"
  | .rolledBack => "rolled-back"

def outcomeValue : Outcome → String
  | .intent => "intent"
  | .complete => "complete"
  | .failed => "failed"
  | .unknown => "unknown"

structure Emission where
  phase : UpgradePhase
  outcome : Outcome := .complete
  evidence : Option UpgradeEvidence := none
  source : Bool := true
  restoration : Restoration := .notRequired
  occurredAt : Option ℤ := none
  reason : Option String := none

def Emission.receipt (e : Emission) (now : ℤ) (n : ℕ)
    (h : 1 ≤ n ∧ n ≤ 2 ^ 63 - 1) : UpgradeReceipt where
  jobId := P.operation.jobId
  generation := P.operation.generation
  sequence := n
  effectId := "core-" ++ slug e.phase ++ "-" ++ outcomeValue e.outcome
  phase := e.phase
  occurredAt := e.occurredAt.getD now
  outcome := e.outcome
  observedSha256 := some (if e.source then P.source else P.target).manifestSha256
  reason := e.reason
  evidence := (e.evidence.map D.evidence).getD ""
  restoration := e.restoration
  sequence_bounds := h

/-- **`emit`.** A receipt that is not valid ends the process. -/
def emit (e : Emission) : M (Option UpgradeReceipt) := do
  let fate ← tick D .file
  let d ← disk
  if h : 1 ≤ d.nextSequence ∧ d.nextSequence ≤ 2 ^ 63 - 1 then
    let receipt := e.receipt P D fate.now d.nextSequence h
    append P D receipt
    return some receipt
  else Attempt.raise .ended

/-! ## Requests -/

def sendReceipts (batch : List UpgradeReceipt) : M ℕ := do
  refuse (∃ r ∈ batch, (r.jobId, r.generation)
      ≠ (P.operation.jobId, P.operation.generation))
    (.conflict "Executor receipt belongs to another accepted operation")
  let sequence ← request D .receipts fun fate w => do
    let row ← ingestAll D.toDocuments fate.ingest batch w.row
    return (row, row.operation.receiptSequence)
  refuse (∃ r ∈ batch, sequence < r.sequence)
    (.conflict "Core acknowledgment differs from its accepted durable cursor")
  return sequence

/-- The loop of `replay_receipts`, which comes to its end: every page is
acknowledged to its last receipt before the next one is read. -/
def replayPages : ℕ → M Unit
  | 0 => return ()
  | fuel + 1 => do
    let d ← disk
    match (d.page d.acknowledged).getLast? with
    | none => return ()
    | some last =>
      let sequence ← sendReceipts P D (d.page d.acknowledged)
      refuse (sequence ≠ last.sequence)
        (.conflict "Core acknowledged receipts outside the replayed page")
      acknowledge D sequence
      replayPages fuel

def replayReceipts : M Unit := do
  let d ← disk
  replayPages P D d.receipts.length

def status : M UpgradeOperation := do
  let operation ← request D .status fun _ w => return (w.row, w.row.operation)
  refuse (operation.authoritySha256 ≠ P.operation.authoritySha256)
    (.conflict "Core executor status authority changed")
  return operation

/-- `client.inventory`: whether it is idle. -/
def inventory : M Bool :=
  request D .inventory fun fate w => return (w.row, fate.idle)

def schema : M (String × String) :=
  request D .schema fun _ w => return (w.row, w.schema)

def grant (boundary : Boundary) : M UpgradeActivationGrant := do
  let g ← request D .grant fun fate w => issue D.toDocuments w.row
    ⟨P.operation.generation, P.operation.sourceSha256, boundary⟩
    { fate.boundary with schema := w.schema }
  refuse ((g.jobId, g.generation, g.boundary)
      ≠ (P.operation.jobId, P.operation.generation, boundary))
    (.conflict "Core activation grant belongs to another boundary")
  let late ← expired D
  refuse late (.conflict "Core activation grant deadline is stale or differs")
  return g

def consume (retained : UpgradeActivationConsume) : M ℕ := do
  refuse ((retained.grant.jobId, retained.grant.generation,
        retained.intent.observedSha256)
      ≠ (P.operation.jobId, P.operation.generation, some P.operation.sourceSha256))
    (.conflict "Executor consumed intent differs from accepted authority")
  let sequence ← request D .consume fun fate w => do
    let (row, _) ← Upgrades.consume D.toDocuments w.row retained.grant retained.intent
      { fate.boundary with schema := w.schema }
    return (row, row.operation.receiptSequence)
  refuse (sequence < retained.intent.sequence)
    (.conflict "Core acknowledgment differs from its accepted durable cursor")
  return sequence

/-- `client.smoke`: the tokens generated and the digest of the output. -/
def smoke (restored : Bool) : M (ℕ × String) := do
  let result ← request D .smoke fun fate w => do
    Guarded.refuse (w.row.operation.phase
          ≠ (if restored then .verifyingSource else .verifying)
        ∨ (¬ restored ∧ w.row.operation.cancelRequested))
      (.conflict "Serving smoke is outside its accepted live stage")
    return (w.row, fate.smoke)
  let late ← expired D
  refuse (result.1 < 10 ∨ late)
    (.conflict "Core smoke evidence differs from the accepted registry asset")
  return result

def consumedGrant (s : OperationRow) : Option UpgradeGrantRow :=
  s.grants.find? fun g => g.jobId = s.operation.jobId
    ∧ g.generation = s.operation.generation ∧ g.boundary = .migration
    ∧ g.consumedAt ≠ none

def migrationOwner : String × ℕ × String :=
  (P.operation.jobId, P.operation.generation, P.authoritySha256)

def fenceNotStarted (s : OperationRow) (schema : String × String)
    (fenced : Except Refusal Unit) :
    Except Refusal (OperationRow × UpgradeMigrationNotStarted) := do
  Guarded.refuse (¬ P.needsMigration ∨ P.operation.kind ≠ .controlPlane
      ∨ s.executionPlan.map AcceptedPlan.authoritySha256 ≠ some P.authoritySha256
      ∨ s.operation.authoritySha256 ≠ P.operation.authoritySha256
      ∨ s.operation.finishedAt ≠ none)
    (.conflict "Migration fence differs from accepted recovery authority")
  match s.migrationExecution with
  | some (.execution _) => .error (.conflict
      "A claimed migration cannot be declared not started")
  | some (.notStarted previous) =>
    Guarded.refuse ((previous.jobId, previous.generation, previous.planSha256)
        ≠ migrationOwner P)
      (.conflict "Retained migration fence authority differs")
    return (s, previous)
  | none =>
    let grant ← Guarded.require (consumedGrant s)
      (.conflict "Migration fence requires its consumed activation")
    fenced
    Guarded.refuse ((some schema.1, some schema.2)
        ≠ (P.initialSchemaHead, P.initialSchemaSha256))
      (.conflict "Unstarted migration Source schema changed")
    let proof : UpgradeMigrationNotStarted := ⟨P.operation.jobId,
      P.operation.generation, P.authoritySha256, grant.id, schema.1, schema.2⟩
    return ({ s with migrationExecution := some (.notStarted proof) }, proof)

def fenceMigrationNotStarted : M UpgradeMigrationNotStarted := do
  let proof ← request D .fence fun fate w =>
    fenceNotStarted P w.row w.schema fate.boundary.fenced
  refuse ((proof.jobId, proof.generation, proof.planSha256) ≠ migrationOwner P
      ∨ (some proof.schemaHead, some proof.schemaSha256)
        ≠ (P.initialSchemaHead, P.initialSchemaSha256))
    (.conflict "Core migration fence differs from accepted Source")
  return proof

def migration : M UpgradeMigrationExecution :=
  request D .migration fun _ w =>
    match w.row.migrationExecution with
    | some (.execution proof) => do
      Guarded.refuse ((proof.jobId, proof.generation, proof.planSha256)
          ≠ migrationOwner P)
        (.conflict "Retained migration proof authority differs")
      return (w.row, proof)
    | _ => .error (.unavailable
        "Accepted migration has no retained execution observation")

/-! ## The migration -/

/-- `claim_migration`: whether the container may run, and with which grant. A
complete migration is not run again. -/
def claimMigration (s : OperationRow) (schema : String × String) (fate : Fate) :
    Except Refusal (Option UpgradeGrantRow) := do
  Guarded.refuse (s.executionPlan.map AcceptedPlan.authoritySha256
        ≠ some P.authoritySha256
      ∨ P.operation.kind ≠ .controlPlane ∨ ¬ P.needsMigration
      ∨ s.operation.authoritySha256 ≠ P.operation.authoritySha256)
    (.conflict "Managed migration authority differs")
  match s.migrationExecution with
  | some (.notStarted _) => .error (.conflict
      "Migration execution was durably fenced before starting")
  | some (.execution previous) =>
    Guarded.refuse (previous.state ≠ .complete)
      (.conflict "Migration uncertainty forbids automatic re-execution")
    return none
  | none =>
    Guarded.refuse (s.operation.phase ≠ .migrating ∨ s.operation.cancelRequested
        ∨ s.operation.finishedAt ≠ none)
      (.conflict "Managed migration is outside its accepted activation boundary")
    let grant ← Guarded.require (consumedGrant s)
      (.conflict "Managed migration lacks its consumed durable activation")
    Guarded.refuse (¬ s.receipts.getLast?.any fun proof => proof.phase = .migrating
        ∧ proof.outcome = .intent
        ∧ proof.observedSha256 = some P.operation.sourceSha256)
      (.conflict "Managed migration lacks its consumed durable activation")
    Guarded.refuse fate.expired
      (.forbidden "Managed migration captured deadline has elapsed")
    fate.boundary.authorized
    fate.boundary.fenced
    fate.boundary.migrationBackup
    Guarded.refuse ((some schema.1, some schema.2)
        ≠ (P.initialSchemaHead, P.initialSchemaSha256))
      (.conflict "Managed migration Source schema changed")
    return some grant

/-- The record of a migration that has run: `record_migration`, after a zero exit. -/
def completedMigration (grant : UpgradeGrantRow) (before : String × String)
    (after digest : String) (now : ℤ) : UpgradeMigrationExecution where
  jobId := P.operation.jobId
  generation := P.operation.generation
  planSha256 := P.authoritySha256
  grantId := grant.id
  state := .complete
  schemaBeforeHead := before.1
  schemaBeforeSha256 := before.2
  expectedSchemaHead := after
  schemaAfterHead := some after
  schemaAfterSha256 := some digest
  exitCode := some 0
  completedAt := some now

/-- **The container of the migration**: it claims, migrates and records, or exits
without a record. -/
def runMigration (fate : Fate) (w : World) : World :=
  match claimMigration P w.row w.schema fate, P.schemaHeadAfter with
  | .ok (some grant), some after => { w with
      row := { w.row with migrationExecution := some (.execution
        (completedMigration P grant w.schema after fate.digest fate.now)) }
      schema := (after, fate.digest) }
  | _, _ => w

def startMigration : M Unit := do
  let fate ← tick D .dispatch
  change (runMigration P fate)
  change fun w => { w with disk := { w.disk with migrationStarted := true } }

/-- **`migrate`.** The container is started once. -/
def migrate : M UpgradeMigrationExecution := do
  let d ← disk
  refuse (d.activationOf .migration = none)
    (.forbidden "Migration has no retained consumed activation")
  write D .file fun _ d => { d with migrationEffects := true }
  refuse (¬ P.needsMigration)
    (.forbidden "Accepted plan does not require a migration")
  match d.migrationProof with
  | some proof =>
    refuse (proof.state ≠ .complete)
      (.conflict "Migration failed with positively unchanged Source schema")
    return proof
  | none =>
    let late ← expired D
    refuse late (.unavailable
      "Migration exceeded its retained deadline; maintenance remains")
    (if d.migrationStarted then pure () else startMigration P D)
    let proof ← migration P D
    write D .file fun _ d => { d with migrationProof := some proof }
    refuse (proof.state ≠ .complete)
      (.conflict "Migration failed with positively unchanged Source schema")
    return proof

/-! ## Verification -/

def failedUnchanged (proof : UpgradeMigrationExecution) : Bool :=
  proof.state = .uncertain ∧ proof.exitCode ≠ none ∧ proof.exitCode ≠ some 0
    ∧ proof.completedAt ≠ none
    ∧ proof.schemaAfterHead = some proof.schemaBeforeHead
    ∧ proof.schemaAfterSha256 = some proof.schemaBeforeSha256

/-- The part of `verify_schema` for a migration that was activated and never
dispatched: it is fenced, and the schema read again. -/
def fenceUnstarted (d : Disk) : M (String × String) := do
  let late ← expired D
  refuse (d.recoveryCapturedAt = none ∨ late)
    (.unavailable "Unstarted migration recovery deadline elapsed")
  refuse d.migrationEffects
    (.unavailable "Migration dispatch uncertainty retains recovery ownership")
  let proof ← fenceMigrationNotStarted P D
  refuse (¬ (d.activationOf .migration).any fun a => a.grant.grantId = proof.grantId)
    (.conflict "Unstarted migration fence grant differs")
  let late ← expired D
  refuse late (.unavailable "Unstarted migration proof exceeded recovery deadline")
  write D .file fun _ d => { d with migrationNotStarted := some proof }
  schema D

def verifySchema (restored : Bool) : M (String × String) := do
  let observed ← schema D
  let d ← disk
  let migrated := (d.activationOf .migration).isSome
  let unstarted : Bool := migrated && restored && d.migrationProof.isNone
  let observed ← (if unstarted then fenceUnstarted P D d else pure observed)
  refuse (migrated ∧ ((d.migrationProof = none ∧ ¬ unstarted)
      ∨ ∃ proof ∈ d.migrationProof,
        ¬ (proof.state = .complete ∨ (restored ∧ failedUnchanged proof))
          ∨ (proof.jobId, proof.generation, proof.planSha256) ≠ migrationOwner P))
    (.unavailable "Uncertain schema migration retains recovery ownership")
  refuse (d.migrationProof ≠ none ∧ ¬ migrated)
    (.conflict "Schema proof lacks its retained migration activation")
  let completed := d.migrationProof.filter fun proof => proof.state = .complete
  let expected := match completed with
    | some proof => (P.schemaHeadAfter, proof.schemaAfterSha256)
    | none => (P.initialSchemaHead, P.initialSchemaSha256)
  let release := if restored then P.source else P.target
  refuse ((some observed.1, some observed.2) ≠ expected
      ∨ observed.1 ∉ release.readableSchemaHeads)
    (.conflict "Selected Core runtime has a changed or incompatible schema")
  return observed

def sourceSnapshot : M Unit := do
  let d ← disk
  refuse (¬ d.sourceSnapshot)
    (.unavailable "Core recovery has no retained Source snapshot")

def restoredRuntime : M Unit := do
  sourceSnapshot
  let _ ← verifySchema P D true
  let late ← expired D
  let d ← disk
  refuse (d.recoveryCapturedAt = none ∨ late)
    (.unavailable "Source selection exceeds its retained recovery deadline")

def selectedRuntime : M Unit := do
  sourceSnapshot
  let d ← disk
  refuse (¬ d.replaced) (.unavailable "Selected candidate has no completed owned start")
  let _ ← verifySchema P D false
  let late ← expired D
  let d ← disk
  refuse (d.recoveryCapturedAt ≠ none ∨ late)
    (.unavailable "Candidate selection exceeded its retained activation window")

def restoreCohort : M Unit := do
  captureRecovery D
  sourceSnapshot

def cleanupCandidates : M Unit := do
  restoredRuntime P D
  restoredRuntime P D

def replaceCohort : M Unit := do
  sourceSnapshot
  let d ← disk
  refuse (P.needsMigration ∧ ¬ d.migrationProof.any fun proof => proof.state = .complete)
    (.forbidden "Runtime replacement requires completed migration evidence")
  let late ← expired D
  refuse late (.unavailable "Service outcome exceeded its retained deadline")
  write D .file fun _ d => { d with replaced := true }

def commitRuntime : M Unit := do
  let operation ← status P D
  let d ← disk
  let decision := operation.phase = .committing ∧ ¬ operation.cancelRequested
    ∧ operation.finishedAt = none ∧ d.isExactly .committing .complete
    ∧ d.latest.any (fun latest => latest.sequence = operation.receiptSequence
      ∧ d.acknowledged = latest.sequence
      ∧ latest.observedSha256 = some P.target.manifestSha256)
  refuse (¬ decision ∧ (¬ operation.phase.terminal ∨ operation.finishedAt = none))
    (.conflict "Runtime commit requires ingested terminal progress")
  (if operation.phase = .succeeded ∨ operation.phase = .committing then
    selectedRuntime P D
  else restoredRuntime P D)
  let confirmed ← status P D
  refuse (confirmed ≠ operation)
    (.conflict "Terminal progress changed during physical runtime verification")
  refuse (operation.phase = .succeeded ∧ ¬ d.committed)
    (.conflict "Target terminal replay requires already committed ownership")
  write D .file fun _ d => { d with committed := true }

def servingEvidence (restored : Bool) (probe : ℕ × String) : M UpgradeEvidence := do
  let observed ← verifySchema P D restored
  let release := if restored then P.source else P.target
  return {
    releaseSha256 := some release.manifestSha256
    runtimeSha256 := some release.manifestSha256
    schemaHead := some observed.1
    serviceImageIds := release.services
    modelId := some P.modelId
    modelVariantId := some P.modelVariantId
    modelManifestSha256 := some P.modelManifestSha256
    generatedTokens := some probe.1
    outputSha256 := some probe.2
    check := some (if restored then .source else .gateway)
    sourceVerified := if restored then some true else none
    cleanupVerified := some true
    configurationVerified := some true }

/-! ## Activation -/

/-- What a runtime activation must find in the receipt journal, where the plan has a
migration. -/
def migrationProved (d : Disk) : Except Refusal Unit := do
  Guarded.refuse (d.activationOf .migration = none)
    (.conflict "Runtime activation has no retained migration boundary")
  let proof ← Guarded.require d.latest
    (.conflict "Runtime activation requires retained terminal migration evidence")
  Guarded.refuse (proof.phase ≠ .migrating ∨ proof.outcome ≠ .complete
      ∨ proof.evidence = "")
    (.conflict "Runtime activation requires retained terminal migration evidence")
  let evidence := D.readEvidence proof.evidence
  Guarded.refuse (evidence.migrationExitCode ≠ some 0
      ∨ evidence.schemaHead ≠ P.schemaHeadAfter ∨ evidence.schemaAfterSha256 = none)
    (.conflict "Runtime activation requires the expected zero-exit schema")

/-- **`journal.activation`**: with an acknowledgment it may begin recovery. -/
def activation (consumed : UpgradeActivationConsume) (acknowledged : Bool) (fate : Fate)
    (d : Disk) : Except Refusal Disk := do
  let captured : Disk := if acknowledged ∧ d.recoveryCapturedAt = none then
    { d with recoveryCapturedAt := some (min fate.now consumed.grant.expiresAt) } else d
  match d.activationOf consumed.grant.boundary with
  | some existing =>
    Guarded.refuse (existing ≠ consumed) (.conflict "Executor activation replay differs")
    return captured
  | none =>
    Guarded.refuse (fate.expired ∧ ¬ acknowledged)
      (.forbidden "Executor activation authorization expired")
    Guarded.refuse (d.recoveryCapturedAt ≠ none ∧ ¬ acknowledged)
      (.forbidden "Recovery cannot accept a candidate activation")
    Guarded.checkIf (consumed.grant.boundary = .runtime ∧ P.needsMigration)
      (migrationProved P D d)
    return { captured with activations := d.activations ++ [consumed] }

/-- An activation that is refused is recorded for recovery, with the acknowledgment. -/
def acknowledgedActivation (consumed : UpgradeActivationConsume) (fate : Fate)
    (d : Disk) : Except Refusal Disk :=
  match activation P D consumed false fate d with
  | .error (.forbidden _) => activation P D consumed true fate d
  | result => result

def recordActivation (consumed : UpgradeActivationConsume) : M Unit := do
  let fate ← tick D .record
  let d ← disk
  match acknowledgedActivation P D consumed fate d with
  | .error e => raise e
  | .ok d' => change fun w => { w with disk := d' }

def boundaryValue : Boundary → String
  | .migration => "migration"
  | .runtime => "runtime"

def retainConsume (boundary : Boundary) : M UpgradeActivationConsume := do
  let d ← disk
  match d.consumes boundary with
  | some retained => return retained
  | none =>
    let g ← grant P D boundary
    let fate ← tick D .file
    let d ← disk
    if h : 1 ≤ d.nextSequence ∧ d.nextSequence ≤ 2 ^ 63 - 1 then
      let intent : UpgradeReceipt := {
        jobId := P.operation.jobId
        generation := P.operation.generation
        sequence := d.nextSequence
        effectId := "core-" ++ boundaryValue boundary ++ "-activation"
        phase := boundary.phase
        occurredAt := fate.now
        outcome := .intent
        observedSha256 := some P.operation.sourceSha256
        reason := none
        evidence := ""
        restoration := .notRequired
        sequence_bounds := h }
      if hg : (g.jobId, g.generation) = (intent.jobId, intent.generation)
          ∧ isIntent g.boundary intent ∧ intent.occurredAt < g.expiresAt then
        let retained : UpgradeActivationConsume := ⟨g, intent, hg.1, hg.2.1, hg.2.2⟩
        change fun w => { w with disk := { w.disk with
          consumes := Function.update w.disk.consumes boundary (some retained) } }
        return retained
      else Attempt.raise .ended
    else Attempt.raise .ended

/-- What is written once a grant is consumed: the activation, and then the intent. -/
def recordConsumed (retained : UpgradeActivationConsume) : M Unit := do
  recordActivation P D retained
  let _ ← tick D .record
  append P D retained.intent

def consumeBoundary (boundary : Boundary) : M (Option UpgradeReceipt) := do
  let d ← disk
  refuse d.committed
    (.forbidden "Committed runtime cannot consume another activation")
  let retained ← retainConsume P D boundary
  refuse (retained.grant.boundary ≠ boundary
      ∨ (retained.intent.jobId, retained.intent.generation,
          retained.intent.observedSha256)
        ≠ (P.operation.jobId, P.operation.generation, some P.operation.sourceSha256))
    (.conflict "Retained activation consume request differs from accepted plan")
  let d ← disk
  let existing := d.activationOf boundary
  refuse (existing ≠ none ∧ existing ≠ some retained)
    (.conflict "Retained consumed activation identity changed")
  if existing ≠ none ∧ retained.intent.sequence ≤ d.acknowledged then
    refuse ((d.page (retained.intent.sequence - 1)).head? ≠ some retained.intent)
      (.conflict "Consumed activation differs from retained receipt bytes")
    return some retained.intent
  else
    let sequence ← consume P D retained
    refuse (sequence ≠ retained.intent.sequence)
      (.conflict "Activation acknowledgment differs from exact consumed intent")
    recordConsumed P D retained
    acknowledge D sequence
    return some retained.intent

/-! ## The steps -/

/-- The end of `recover_step`, where no runtime was activated: the source is verified
unchanged. -/
def declareUnchanged : M (Option UpgradeReceipt) := do
  let observed ← verifySchema P D true
  let operation ← status P D
  let d ← disk
  let digest (f : UpgradeMigrationExecution → Option String) : Option String :=
    match d.migrationProof, d.migrationNotStarted with
    | some proof, _ => f proof
    | none, some notStarted => some notStarted.schemaSha256
    | none, none => none
  let evidence : UpgradeEvidence := {
    releaseSha256 := some P.source.manifestSha256
    schemaHead := some observed.1
    serviceImageIds := P.source.services
    sourceVerified := some true
    configurationVerified := some true
    cleanupVerified := some true
    migrationExitCode := d.migrationProof.bind fun proof => proof.exitCode
    schemaBeforeSha256 := digest fun proof => some proof.schemaBeforeSha256
    schemaAfterSha256 := digest fun proof => proof.schemaAfterSha256
    migrationNotStartedSha256 := d.migrationNotStarted.map D.notStartedSha256 }
  let late ← expired D
  refuse late
    (.unavailable "Unchanged Source proof exceeded original recovery deadline")
  emit P D {
    phase := if operation.cancelRequested then .cancelledUnchanged else .failedUnchanged
    evidence := some evidence
    restoration := .verified
    reason := some (if operation.cancelRequested then "cancelled"
      else "candidate_failed") }

def verifySource : M (Option UpgradeReceipt) := do
  replayReceipts P D
  restoredRuntime P D
  let probe ← smoke D true
  restoredRuntime P D
  let evidence ← servingEvidence P D true probe
  let late ← expired D
  refuse late
    (.unavailable "Source serving proof exceeded original recovery deadline")
  emit P D {
    phase := .verifyingSource
    evidence := some evidence
    restoration := .verified }

def recoverStep : M (Option UpgradeReceipt) := do
  captureRecovery D
  let d ← disk
  let activated := (d.activationOf .runtime).isSome
  if d.isTerminal then
    replayReceipts P D
    commitRuntime P D
    return none
  else
    let verified ← (if activated ∧ d.isExactly .verifyingSource .complete then
      notExpired D else pure false)
    if verified then
      restoredRuntime P D
      emit P D {
        phase := .rolledBack
        evidence := d.latest.map fun latest => D.readEvidence latest.evidence
        restoration := .verified }
    else
      let late ← expired D
      if late then
        if d.isAt [.recoveryRequired] then
          replayReceipts P D
          return none
        else emit P D {
          phase := .recoveryRequired
          outcome := .unknown
          restoration := .failed
          reason := some "recovery_deadline" }
      else if activated
          ∧ ¬ d.isAt [.restoring, .verifyingSource, .recoveryRequired] then
        emit P D {
          phase := .restoring
          outcome := .intent
          restoration := .pending
          occurredAt := d.recoveryCapturedAt }
      else if activated ∧ d.isAt [.verifyingSource] then
        verifySource P D
      else
        restoreCohort D
        cleanupCandidates P D
        if activated then
          emit P D {
            phase := .verifyingSource
            outcome := .intent
            restoration := .pending }
        else declareUnchanged P D

/-- The target is verified: the part of `forward_step` at an announced
verification. -/
def verifyTarget : M (Option UpgradeReceipt) := do
  selectedRuntime P D
  let probe ← smoke D false
  selectedRuntime P D
  let evidence ← servingEvidence P D false probe
  let late ← expired D
  refuse late
    (.unavailable "Target serving proof exceeded original readiness deadline")
  emit P D { phase := .verifying, evidence := some evidence, source := false }

def Disk.verification (d : Disk) : Option UpgradeReceipt :=
  (d.page (d.nextSequence - 1 - 32)).reverse.find? fun receipt =>
    receipt.phase = .verifying ∧ receipt.outcome = .complete

def stagedEvidence : UpgradeEvidence where
  releaseSha256 := some P.target.manifestSha256
  artifactsVerified := some true
  configurationVerified := some true
  serviceImageIds := P.target.services
  backupValidationSha256 := P.backup

def migratedEvidence (proof : UpgradeMigrationExecution) : UpgradeEvidence where
  schemaHead := proof.schemaAfterHead
  schemaBeforeSha256 := some proof.schemaBeforeSha256
  schemaAfterSha256 := proof.schemaAfterSha256
  migrationExitCode := proof.exitCode

def reportMigration : M (Option UpgradeReceipt) := do
  let proof ← migrate P D
  emit P D { phase := .migrating, evidence := some (migratedEvidence proof) }

def forwardStep : M (Option UpgradeReceipt) := do
  let d ← disk
  match d.latest with
  | none =>
    write D .file fun _ d => { d with sourceSnapshot := true }
    let _ ← verifySchema P D true
    emit P D { phase := .preflight }
  | some latest =>
    match latest.phase, latest.outcome with
    | .preflight, _ =>
      let _ ← inventory D
      emit P D { phase := .fencing }
    | .fencing, _ => emit P D { phase := .draining, outcome := .intent }
    | .draining, _ =>
      let late ← expired D
      if late then
        captureRecovery D
        recoverStep P D
      else
        let idle ← inventory D
        if idle then
          let _ ← verifySchema P D true
          emit P D { phase := .staged, evidence := some (stagedEvidence P) }
        else return none
    | .staged, _ => consumeBoundary P D (if P.needsMigration then .migration else .runtime)
    | .migrating, .complete => consumeBoundary P D .runtime
    | .migrating, _ => reportMigration P D
    | .activating, _ =>
      replaceCohort P D
      emit P D { phase := .verifying, outcome := .intent, source := false }
    | .verifying, .complete =>
      selectedRuntime P D
      emit P D { phase := .committing, outcome := .intent, source := false }
    | .verifying, _ => verifyTarget P D
    | .committing, outcome =>
      let verification ← Attempt.require d.verification .ended
      let evidence := D.readEvidence verification.evidence
      if outcome ≠ .complete then
        selectedRuntime P D
        emit P D { phase := .committing, evidence := some evidence, source := false }
      else
        commitRuntime P D
        emit P D { phase := .succeeded, evidence := some evidence, source := false }
    | _, _ => raise (.conflict "Core worker encountered an unsupported retained phase")

/-- `isinstance(error, (UpgradeForbidden, UpgradeConflict))`. -/
def Refusal.rejects : Refusal → Bool
  | .forbidden _ | .conflict _ => true
  | _ => false

/-- `isinstance(error, UpgradeUnavailable)`. -/
def Refusal.isUnavailable : Refusal → Bool
  | .unavailable _ => true
  | _ => false

/-- The handler of `advance_core_step` where the API has not been reached, or has
refused: `d` is the disk as the step found it. -/
def unreached (d : Disk) (error : Refusal) : M (Option UpgradeReceipt) := do
  let now ← disk
  if Refusal.rejects error ∧ ¬ d.isExactly .committing .complete ∧ ¬ now.committed then
    captureRecovery D
    recoverStep P D
  else
    let late ← (if ¬ now.committed ∧ d.latest ≠ none ∧ ¬ d.isTerminal
        ∧ ¬ d.isAt [.committing] ∧ ¬ d.isExactly .verifying .complete then expired D
      else pure false)
    if late then
      captureRecovery D
      recoverStep P D
    else if d.isExactly .activating .intent ∧ (d.activationOf .runtime).isSome then
      match ← observe caught (do
          replaceCohort P D
          emit P D { phase := .verifying, outcome := .intent, source := false }) with
      | .ok receipt => return receipt
      | .error e =>
        captureRecovery D
        raise e
    else raise error

/-- The handler of `advance_core_step` where the forward step has raised. -/
def failed (d : Disk) (error : Refusal) : M (Option UpgradeReceipt) := do
  if d.isExactly .committing .complete then raise error
  else
    let waits ← (if Refusal.isUnavailable error
        ∧ d.isAt [.preflight, .fencing, .draining] then notExpired D
      else pure false)
    if waits then return none
    else
      captureRecovery D
      raise error

def advanceCoreStep : M (Option UpgradeReceipt) := do
  let d ← disk
  if d.recoveryCapturedAt ≠ none then recoverStep P D
  else
    match ← observe caught (do
        replayReceipts P D
        status P D) with
    | .error e => unreached P D d e
    | .ok operation =>
      if operation.finishedAt ≠ none then
        refuse (¬ d.latest.any fun latest => latest.phase = operation.phase
            ∧ latest.sequence = operation.receiptSequence)
          (.conflict "Terminal API progress differs from retained local receipts")
        commitRuntime P D
        return none
      else if operation.cancelRequested then
        captureRecovery D
        recoverStep P D
      else if d.isTerminal then
        raise (.conflict "Terminal local progress has no matching ingested acknowledgment")
      else
        match ← observe caught (forwardStep P D) with
        | .ok receipt => return receipt
        | .error e => failed D d e

/-! ## Runs -/

inductive Label
  | cancel
  | advance (fates : List Fate)

/-- The world when the operation has been accepted and nothing has happened yet. -/
def start (schema : String × String) : World where
  row := {
    operation := { P.operation with
      phase := .accepted
      finishedAt := none
      cancelRequested := false
      cancellationAllowed := true
      receiptSequence := 0 }
    executionPlan := some P.toAcceptedPlan }
  schema := schema

def step (w : World) : Label → World
  | .cancel => { w with row := cancelled D.toDocuments w.row }
  | .advance fates =>
    { (advanceCoreStep P D { w with fates := fates }).2 with fates := [] }

end Programs

end Upgrades.Workflow
