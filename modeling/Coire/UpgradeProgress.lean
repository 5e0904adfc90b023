import Mathlib.Data.Fintype.Pi
import Coire.Guarded
import Coire.UpgradeJournal

/-!
# The progress of an upgrade, as the API records it

An accepted operation is a row: its state, its execution plan, its receipts, the
activation grants issued for it and what is recorded of its migration. `ingestReceipt`
appends a receipt of the executor or of the node, after `validateProgress` has compared
it with the table of phases, with the whole history and, for a terminal receipt, with
the evidence; `consume` appends the one receipt that `ingestReceipt` never accepts, the
intent to activate or to migrate, against a grant that `issue` gave for this boundary.
`requestCancel` sets a flag that the other two read, and asks the node of a Studio
first.

What the API asks of other components is the environment of a call and part of its
label. How evidence is written and read, and the digests, are a parameter: `Documents`.
-/

namespace Upgrades

open Guarded

/-! ## Documents -/

inductive Refusal
  | conflict (message : String)
  | forbidden (message : String)
  | unavailable (message : String)
  | notFound
  /-- A document that its model does not accept. -/
  | invalid
  deriving DecidableEq

/-- Times are in microseconds, the resolution of the clock. -/
def seconds (n : ℤ) : ℤ := n * 1000000

inductive UpgradeKind
  | studio | controlPlane
  deriving DecidableEq

/-- `ServiceName`, in the order of `COHORT_ORDER`. -/
inductive ServiceName
  | fileWorker | ops | mcp | scheduler | api | web
  deriving DecidableEq

instance : Fintype ServiceName :=
  ⟨{.fileWorker, .ops, .mcp, .scheduler, .api, .web}, fun x => by cases x <;> decide⟩

abbrev ServiceImages := ServiceName → Option String

inductive SmokeCheck
  | node | gateway | collective | source
  deriving DecidableEq

inductive Boundary
  | migration | runtime
  deriving DecidableEq

def UpgradePhase.terminal : UpgradePhase → Bool
  | .succeeded | .failedUnchanged | .cancelledUnchanged | .rolledBack => true
  | _ => false

/-- **`UpgradeEvidence`**, in the fields that a check reads. -/
structure UpgradeEvidence where
  runtimeSha256 : Option String := none
  releaseSha256 : Option String := none
  schemaHead : Option String := none
  schemaBeforeSha256 : Option String := none
  schemaAfterSha256 : Option String := none
  modelId : Option String := none
  modelVariantId : Option String := none
  peerRuntimeSha256 : Option String := none
  collectiveVerified : Option Bool := none
  modelManifestSha256 : Option String := none
  outputSha256 : Option String := none
  backupValidationSha256 : Option String := none
  check : Option SmokeCheck := none
  generatedTokens : Option ℕ := none
  serviceImageIds : ServiceImages := fun _ => none
  sourceVerified : Option Bool := none
  artifactsVerified : Option Bool := none
  configurationVerified : Option Bool := none
  migrationExitCode : Option ℕ := none
  migrationNotStartedSha256 : Option String := none
  cleanupVerified : Option Bool := none
  deriving DecidableEq

structure UpgradeOperation where
  jobId : String
  generation : ℕ
  kind : UpgradeKind
  sourceSha256 : String
  targetSha256 : String
  authoritySha256 : String
  phase : UpgradePhase := .accepted
  finishedAt : Option ℤ := none
  cancelRequested : Bool := false
  cancellationAllowed : Bool := true
  receiptSequence : ℕ := 0
  deriving DecidableEq

structure UpgradeRelease where
  manifestSha256 : String
  environmentSha256 : Option String
  services : ServiceImages
  readableSchemaHeads : List String
  pairedRequired : Bool
  deriving DecidableEq

/-- What `bound_authority` requires of the schema of a plan: a Core plan names the
schema before and after, and both releases read what is left behind. -/
def SchemaBound (source target : UpgradeRelease) :
    UpgradeKind → Option String → Option String → Option String → Prop
  | .controlPlane, some before, some _, some after =>
    before ∈ source.readableSchemaHeads ∧ after ∈ source.readableSchemaHeads
      ∧ after ∈ target.readableSchemaHeads
  | .studio, none, none, none => True
  | _, _, _, _ => False

/-- **`UpgradeExecutionPlan`**, as the API reads it; the journal's part of it is
`AcceptedPlan.journal`. -/
structure AcceptedPlan where
  operation : UpgradeOperation
  source : UpgradeRelease
  target : UpgradeRelease
  drainDeadlineAt : ℤ
  modelId : String
  modelVariantId : String
  modelManifestSha256 : String
  peerRuntimeSha256 : Option String
  /-- The digest under which the backup was validated. -/
  backup : Option String
  initialSchemaHead : Option String
  initialSchemaSha256 : Option String
  schemaHeadAfter : Option String
  authoritySha256 : String
  source_sha256 : operation.sourceSha256 = source.manifestSha256
  target_sha256 : operation.targetSha256 = target.manifestSha256
  schema_bound : SchemaBound source target operation.kind initialSchemaHead
    initialSchemaSha256 schemaHeadAfter
  deriving DecidableEq

def AcceptedPlan.needsMigration (plan : AcceptedPlan) : Bool :=
  plan.initialSchemaHead ≠ plan.schemaHeadAfter

def AcceptedPlan.journal (plan : AcceptedPlan) : UpgradeExecutionPlan :=
  ⟨plan.operation.jobId, plan.operation.generation, plan.authoritySha256⟩

structure UpgradeMigrationNotStarted where
  jobId : String
  generation : ℕ
  planSha256 : String
  grantId : ℕ
  schemaHead : String
  schemaSha256 : String
  deriving DecidableEq

inductive MigrationState
  | intent | complete | uncertain
  deriving DecidableEq

structure UpgradeMigrationExecution where
  jobId : String
  generation : ℕ
  planSha256 : String
  grantId : ℕ
  state : MigrationState
  schemaBeforeHead : String
  schemaBeforeSha256 : String
  expectedSchemaHead : String
  schemaAfterHead : Option String
  schemaAfterSha256 : Option String
  exitCode : Option ℕ
  completedAt : Option ℤ
  deriving DecidableEq

/-- What `UpgradeOperationRow.migration_execution` holds. -/
inductive MigrationRecord
  | notStarted (proof : UpgradeMigrationNotStarted)
  | execution (proof : UpgradeMigrationExecution)
  deriving DecidableEq

/-- `UpgradeGrantRow`. The ids are given in order: `uuid4` never gives one
twice. -/
structure UpgradeGrantRow where
  id : ℕ
  jobId : String
  generation : ℕ
  boundary : Boundary
  expiresAt : ℤ
  consumedAt : Option ℤ
  deriving DecidableEq

structure UpgradeActivationGrant where
  jobId : String
  generation : ℕ
  boundary : Boundary
  grantId : ℕ
  expiresAt : ℤ
  deriving DecidableEq

structure UpgradeActivationRequest where
  generation : ℕ
  sourceSha256 : String
  boundary : Boundary
  deriving DecidableEq

/-- **How evidence is read, and the digests.** A receipt's evidence has been read once,
so reading it again does not fail. -/
structure Documents where
  readEvidence : String → UpgradeEvidence
  Sha256 : Type
  decidableEq : DecidableEq Sha256
  receiptSha256 : UpgradeReceipt → Sha256
  receiptSha256_injective : Function.Injective receiptSha256
  notStartedSha256 : UpgradeMigrationNotStarted → String

instance (D : Documents) : DecidableEq D.Sha256 := D.decidableEq

structure OperationRow where
  operation : UpgradeOperation
  executionPlan : Option AcceptedPlan := none
  receipts : List UpgradeReceipt := []
  grants : List UpgradeGrantRow := []
  migrationExecution : Option MigrationRecord := none
  /-- Which grant appended which intent: history only, no function reads it. -/
  consumed : List (ℕ × UpgradeReceipt) := []

/-! ## The rules of progress -/

def Boundary.phase : Boundary → UpgradePhase
  | .migration => .migrating
  | .runtime => .activating

def isIntent (b : Boundary) (r : UpgradeReceipt) : Bool :=
  r.phase = b.phase ∧ r.outcome = .intent

def forward : UpgradePhase → List UpgradePhase
  | .accepted => [.preflight]
  | .preflight => [.fencing, .staged]
  | .fencing => [.draining]
  | .draining => [.staged]
  | .staged => [.fencing, .smokeBefore, .migrating, .activating]
  | .smokeBefore => [.activating]
  | .migrating => [.activating]
  | .activating => [.verifying]
  | .verifying => [.qualifying, .committing]
  | .qualifying => [.committing]
  | .committing => [.succeeded]
  | .restoring => [.verifyingSource]
  | .verifyingSource => [.rolledBack]
  | .recoveryRequired => [.restoring, .verifyingSource]
  | _ => []

def permitted (activated : Bool) (phase : UpgradePhase) : List UpgradePhase :=
  forward phase ++ [phase, .recoveryRequired]
    ++ if activated then [.restoring] else [.failedUnchanged, .cancelledUnchanged]

def isExpiredRecovery (receipt : UpgradeReceipt) : Bool :=
  "expired-recovery-".toList.isPrefixOf receipt.effectId.toList

/-- `selection_decision`: the Core decision to publish the target. -/
def selectionDecision (kind : UpgradeKind) (receipt : UpgradeReceipt) : Bool :=
  kind = .controlPlane ∧ receipt.phase = .committing ∧ receipt.outcome = .complete

/-- The fields that a terminal receipt shares with the verification it rests
on. -/
structure Binding where
  modelId : Option String
  modelVariantId : Option String
  modelManifestSha256 : Option String
  outputSha256 : Option String
  generatedTokens : Option ℕ
  runtimeSha256 : Option String
  serviceImageIds : ServiceImages
  schemaHead : Option String
  check : Option SmokeCheck
  collectiveVerified : Option Bool
  peerRuntimeSha256 : Option String
  deriving DecidableEq

def UpgradeEvidence.binding (e : UpgradeEvidence) : Binding :=
  ⟨e.modelId, e.modelVariantId, e.modelManifestSha256, e.outputSha256,
    e.generatedTokens, e.runtimeSha256, e.serviceImageIds, e.schemaHead, e.check,
    e.collectiveVerified, e.peerRuntimeSha256⟩

/-- A completed verification of a release: what the search through the history
looks for. -/
def verifies (phase : UpgradePhase) (release : UpgradeRelease)
    (r : UpgradeReceipt) : Bool :=
  r.phase = phase ∧ r.outcome = .complete
    ∧ r.observedSha256 = some release.manifestSha256 ∧ r.evidence ≠ ""

/-- The first part of `validate_progress`: who may report which phase next. -/
def phaseRules (op : UpgradeOperation) (receipt : UpgradeReceipt)
    (plan : AcceptedPlan) (history : List UpgradeReceipt)
    (activationAuthorized : Bool) : Except Refusal Unit := do
  refuse (isExpiredRecovery receipt) (.conflict
    "Ordinary progress cannot resolve a distinct expired recovery intent")
  refuse ((receipt.jobId, receipt.generation) ≠ (op.jobId, op.generation)
      ∨ op.authoritySha256 ≠ plan.operation.authoritySha256 ∨ op.phase.terminal)
    (.conflict "Progress owner is stale or terminal")
  let activated := history.any (isIntent .runtime)
  refuse (receipt.phase ∈ [.activating, .migrating] ∧ receipt.outcome = .intent
      ∧ ¬ activationAuthorized)
    (.conflict "External activation intent requires consumed live authority")
  refuse (receipt.phase ∈ [.activating, .migrating] ∧ receipt.outcome ≠ .intent
      ∧ ¬ history.any fun item =>
        item.phase = receipt.phase ∧ item.outcome = .intent)
    (.conflict "Activation completion has no consumed intent")
  refuse (receipt.phase ∈ [.verifying, .qualifying, .committing, .succeeded]
      ∧ ¬ activated)
    (.conflict "Candidate progress has no consumed runtime activation")
  refuse (receipt.phase ∉ permitted activated op.phase)
    (.conflict "Progress transition differs from the recovery protocol")

section Rules

variable (D : Documents)

/-- What a terminal receipt that changed nothing has to show of the schema. -/
def unchangedRules (op : UpgradeOperation) (plan : AcceptedPlan)
    (evidence : UpgradeEvidence) (history : List UpgradeReceipt)
    (migrationNotStarted : Option UpgradeMigrationNotStarted) :
    Except Refusal Unit := do
  refuse (history.any (isIntent .runtime))
    (.conflict "An activated runtime requires restoration")
  if history.any (isIntent .migration) then
    let completed := evidence.migrationExitCode = some 0
      ∧ evidence.schemaHead = plan.schemaHeadAfter
    let unchanged := evidence.migrationExitCode ≠ none
      ∧ evidence.migrationExitCode ≠ some 0
      ∧ evidence.schemaHead = plan.initialSchemaHead
      ∧ evidence.schemaBeforeSha256 = plan.initialSchemaSha256
      ∧ evidence.schemaAfterSha256 = plan.initialSchemaSha256
    let notStarted := ∃ proof ∈ migrationNotStarted,
      (proof.jobId, proof.generation, proof.planSha256, some proof.schemaHead,
          some proof.schemaSha256)
        = (op.jobId, op.generation, plan.authoritySha256, plan.initialSchemaHead,
          plan.initialSchemaSha256)
      ∧ evidence.migrationNotStartedSha256 = some (D.notStartedSha256 proof)
      ∧ evidence.migrationExitCode = none
      ∧ evidence.schemaHead = plan.initialSchemaHead
      ∧ evidence.schemaBeforeSha256 = plan.initialSchemaSha256
      ∧ evidence.schemaAfterSha256 = plan.initialSchemaSha256
    refuse (¬ (completed ∨ unchanged ∨ notStarted)
        ∨ ∀ head ∈ evidence.schemaHead, head ∉ plan.source.readableSchemaHeads)
      (.conflict "Uncertain or incompatible schema retains recovery ownership")
  else pure ()

def servingRules (op : UpgradeOperation) (plan : AcceptedPlan) (success : Bool)
    (expected : UpgradeRelease) (evidence : UpgradeEvidence)
    (history : List UpgradeReceipt) : Except Refusal Unit := do
  let phase : UpgradePhase := if success then .verifying else .verifyingSource
  match history.reverse.find? (verifies phase expected) with
  | none => .error (.conflict
      "Terminal progress requires durable post-activation verification")
  | some verification =>
    refuse ((D.readEvidence verification.evidence).binding ≠ evidence.binding)
      (.conflict "Terminal serving proof differs from its durable verification")
    refuse ((∀ tokens ∈ evidence.generatedTokens, tokens < 10)
        ∨ evidence.outputSha256 = none ∨ evidence.modelId ≠ some plan.modelId
        ∨ evidence.modelVariantId ≠ some plan.modelVariantId
        ∨ evidence.modelManifestSha256 ≠ some plan.modelManifestSha256)
      (.conflict "Terminal verification requires exact fresh serving evidence")
    refuse (op.kind = .studio ∧ success
        ∧ (plan.source.pairedRequired ∨ plan.target.pairedRequired)
        ∧ (evidence.collectiveVerified ≠ some true
          ∨ evidence.peerRuntimeSha256 ≠ plan.peerRuntimeSha256))
      (.conflict "Success requires exact peer collective qualification")

/-- The second part of `validate_progress`: what a terminal receipt, or the Core
selection decision, has to show. -/
def terminalRules (op : UpgradeOperation) (receipt : UpgradeReceipt)
    (plan : AcceptedPlan) (history : List UpgradeReceipt)
    (migrationNotStarted : Option UpgradeMigrationNotStarted) :
    Except Refusal Unit := do
  refuse (receipt.outcome ≠ .complete ∨ receipt.evidence = "")
    (.conflict "Terminal progress requires completed verification")
  let evidence := D.readEvidence receipt.evidence
  refuse (evidence.cleanupVerified ≠ some true)
    (.conflict "Terminal progress requires owned cleanup verification")
  let success : Bool := receipt.phase = .succeeded || selectionDecision op.kind receipt
  refuse (op.kind = .controlPlane ∧ receipt.phase = .succeeded
      ∧ ¬ history.any fun item =>
        item.phase = .committing ∧ item.outcome = .complete)
    (.conflict "Core success requires an acknowledged selection decision")
  refuse (success ∧ op.cancelRequested)
    (.conflict "Cancelled activation requires restoration before termination")
  let expected := if success then plan.target else plan.source
  refuse (receipt.observedSha256 ≠ some expected.manifestSha256)
    (.conflict "Terminal observed release differs")
  refuse (¬ success ∧ evidence.sourceVerified ≠ some true)
    (.conflict "Recovery requires positive source verification")
  refuse (op.kind = .studio ∧ evidence.runtimeSha256 ≠ expected.environmentSha256)
    (.conflict "Terminal runtime differs from the selected environment")
  refuse (op.kind ≠ .studio ∧ evidence.serviceImageIds ≠ expected.services)
    (.conflict "Terminal Core cohort differs from the selected images")
  refuse (op.kind = .controlPlane
      ∧ ((∀ head ∈ evidence.schemaHead, head ∉ expected.readableSchemaHeads)
        ∨ (success ∧ evidence.schemaHead ≠ plan.schemaHeadAfter)))
    (.conflict "Terminal Core schema is unknown or incompatible")
  if receipt.phase = .failedUnchanged ∨ receipt.phase = .cancelledUnchanged then
    unchangedRules D op plan evidence history migrationNotStarted
  else
    servingRules D op plan success expected evidence history

def validateProgress (op : UpgradeOperation) (receipt : UpgradeReceipt)
    (plan : AcceptedPlan) (history : List UpgradeReceipt)
    (activationAuthorized : Bool)
    (migrationNotStarted : Option UpgradeMigrationNotStarted) :
    Except Refusal Unit := do
  phaseRules op receipt plan history activationAuthorized
  checkIf (receipt.phase.terminal || selectionDecision op.kind receipt)
    (terminalRules D op receipt plan history migrationNotStarted)

/-! ## Receipts -/

/-- `session.get(UpgradeReceiptRow, (job_id, generation, sequence))`. -/
def OperationRow.stored (s : OperationRow) (jobId : String) (generation sequence : ℕ) :
    Option UpgradeReceipt :=
  s.receipts.find? fun r =>
    r.jobId = jobId ∧ r.generation = generation ∧ r.sequence = sequence

def appendReceipt (s : OperationRow) (receipt : UpgradeReceipt) :
    Except Refusal (OperationRow × Bool) := do
  refuse (receipt.jobId ≠ s.operation.jobId) .notFound
  refuse (s.operation.generation ≠ receipt.generation)
    (.conflict "Receipt owner is stale")
  match s.stored receipt.jobId receipt.generation receipt.sequence with
  | some existing =>
    refuse (D.receiptSha256 existing ≠ D.receiptSha256 receipt)
      (.conflict "Receipt sequence has conflicting evidence")
    return (s, false)
  | none =>
    refuse (receipt.sequence ≠ s.operation.receiptSequence + 1)
      (.conflict "Receipt sequence is not contiguous")
    return ({ s with
      receipts := s.receipts ++ [receipt]
      operation := { s.operation with receiptSequence := receipt.sequence } }, true)

structure IngestEnv where
  authorized : Except Refusal Unit
  published : Except Refusal Unit
  now : ℤ

/-- The operation after a receipt: the end of `ingest_receipt`. -/
def UpgradeOperation.advance (op : UpgradeOperation) (receipt : UpgradeReceipt)
    (now : ℤ) : UpgradeOperation :=
  { op with
    phase := receipt.phase
    cancellationAllowed :=
      if receipt.phase.terminal then false
      else if selectionDecision op.kind receipt then false
      else if op.kind = .controlPlane ∧ receipt.phase = .restoring then true
      else op.cancellationAllowed
    finishedAt := if receipt.phase.terminal then some now else op.finishedAt }

def OperationRow.notStarted (s : OperationRow) : Option UpgradeMigrationNotStarted :=
  match s.migrationExecution with
  | some (.notStarted proof) => some proof
  | _ => none

def ingestReceipt (s : OperationRow) (receipt : UpgradeReceipt) (env : IngestEnv) :
    Except Refusal (OperationRow × Bool) := do
  refuse (isExpiredRecovery receipt) (.conflict
    "After-deadline resolution requires distinct linked recovery authority")
  refuse (receipt.jobId ≠ s.operation.jobId) .notFound
  match s.stored receipt.jobId receipt.generation receipt.sequence with
  | some _ => appendReceipt D s receipt
  | none =>
    match s.executionPlan with
    | none => .error (.conflict
        "Progress requires an accepted immutable execution plan")
    | some plan =>
      refuse (s.receipts.length ≠ s.operation.receiptSequence
          ∨ 4096 ≤ s.receipts.length)
        (.unavailable "Progress history is incomplete or exceeds its bound")
      refuse (s.receipts.map UpgradeReceipt.sequence
          ≠ List.range' 1 s.receipts.length)
        (.unavailable "Progress history failed content verification")
      refuse (256 * 1024 <
          ((s.receipts ++ [receipt]).map fun r => r.evidence.utf8ByteSize).sum)
        (.conflict "Operation diagnostic evidence exceeds its retained bound")
      validateProgress D s.operation receipt plan s.receipts false s.notStarted
      checkIf (selectionDecision s.operation.kind receipt) env.authorized
      checkIf (s.operation.kind = .controlPlane ∧ receipt.phase = .succeeded)
        env.published
      let (s', appended) ← appendReceipt D s receipt
      return ({ s' with operation := if appended
        then s'.operation.advance receipt env.now else s'.operation }, appended)

/-! ## Grants -/

/-- What the API sees of the world while it checks an activation boundary. -/
structure BoundaryEnv where
  now : ℤ
  readyAt : ℤ
  later : ℤ
  fenced : Except Refusal Unit
  migrationBackup : Except Refusal Unit
  schema : String × String
  backup : Except Refusal Unit
  drained : Except Refusal Unit
  authorized : Except Refusal Unit

def coreReady (op : UpgradeOperation) (boundary : Boundary) (plan : AcceptedPlan)
    (proof : UpgradeReceipt) (env : BoundaryEnv) : Except Refusal Unit := do
  refuse (proof.evidence = "")
    (.conflict "Core activation requires verified prepared artifacts")
  let evidence := D.readEvidence proof.evidence
  if op.phase = .staged then
    refuse (proof.phase ≠ .staged ∨ evidence.artifactsVerified ≠ some true
        ∨ evidence.configurationVerified ≠ some true
        ∨ evidence.releaseSha256 ≠ some op.targetSha256
        ∨ evidence.serviceImageIds ≠ plan.target.services
        ∨ (decide (boundary = .migration) ≠ plan.needsMigration))
      (.conflict "Prepared Core evidence or activation boundary differs")
    checkIf plan.needsMigration env.migrationBackup
    refuse (plan.needsMigration ∧ (plan.backup = none
        ∨ evidence.backupValidationSha256 ≠ plan.backup))
      (.conflict "Migration requires the accepted restore-validated backup")
  else
    refuse (op.phase ≠ .migrating ∨ proof.phase ≠ .migrating
        ∨ boundary ≠ .runtime ∨ ¬ plan.needsMigration
        ∨ evidence.schemaHead ≠ plan.schemaHeadAfter
        ∨ evidence.migrationExitCode ≠ some 0)
      (.conflict "Runtime activation requires the expected completed schema")

/-- The Studio part of `verify_activation_ready`. -/
def studioReady (op : UpgradeOperation) (plan : AcceptedPlan)
    (proof : UpgradeReceipt) : Except Refusal Unit := do
  refuse (op.phase ≠ .smokeBefore)
    (.conflict "Studio activation requires completed pre-switch smoke")
  refuse (proof.phase ≠ .smokeBefore ∨ proof.evidence = "")
    (.conflict "Activation requires completed pre-switch smoke")
  let evidence := D.readEvidence proof.evidence
  refuse (evidence.modelId ≠ some plan.modelId
      ∨ evidence.modelVariantId ≠ some plan.modelVariantId
      ∨ evidence.modelManifestSha256 ≠ some plan.modelManifestSha256
      ∨ evidence.outputSha256 = none ∨ evidence.runtimeSha256 = none
      ∨ evidence.check ≠ some .node ∨ evidence.cleanupVerified ≠ some true)
    (.conflict "Smoke evidence differs from accepted registry asset")
  refuse (evidence.runtimeSha256 ≠ plan.target.environmentSha256)
    (.conflict "Smoke evidence differs from exact candidate runtime")
  refuse (∀ tokens ∈ evidence.generatedTokens, tokens < 10)
    (.conflict "Activation requires real tiny-model generation evidence")

def verifyActivationReady (s : OperationRow) (boundary : Boundary)
    (plan : AcceptedPlan) (env : BoundaryEnv) : Except Refusal Unit := do
  let op := s.operation
  refuse (op.authoritySha256 ≠ plan.operation.authoritySha256)
    (.conflict "Accepted immutable operation authority differs")
  refuse (op.phase ∉ [.staged, .smokeBefore, .migrating])
    (.conflict "Operation is no longer at an activation boundary")
  refuse (op.phase ≠ .migrating ∧ plan.drainDeadlineAt ≤ env.readyAt)
    (.conflict "Captured drain deadline elapsed before activation")
  match s.receipts.getLast? with
  | none => .error (.conflict
      "Activation requires current source verification evidence")
  | some proof =>
    refuse (proof.outcome ≠ .complete
        ∨ proof.observedSha256 ≠ some op.sourceSha256)
      (.conflict "Activation requires current source verification evidence")
    match op.kind with
    | .controlPlane => coreReady D op boundary plan proof env
    | .studio => studioReady D op plan proof

def verifyCurrentSchema (s : OperationRow) (plan : AcceptedPlan)
    (env : BoundaryEnv) : Except Refusal Unit := do
  if s.operation.kind ≠ .controlPlane then pure ()
  else if s.operation.phase = .staged then
    refuse ((some env.schema.1, some env.schema.2)
        ≠ (plan.initialSchemaHead, plan.initialSchemaSha256))
      (.conflict "Deployed schema changed after accepted preparation")
  else
    match s.migrationExecution with
    | some (.execution proof) =>
      refuse (proof.state ≠ .complete ∨ proof.jobId ≠ s.operation.jobId
          ∨ proof.generation ≠ s.operation.generation
          ∨ proof.planSha256 ≠ plan.authoritySha256
          ∨ (some env.schema.1, some env.schema.2)
            ≠ (proof.schemaAfterHead, proof.schemaAfterSha256)
          ∨ some env.schema.1 ≠ plan.schemaHeadAfter)
        (.conflict "Deployed schema differs from completed migration")
    | _ => .error (.conflict "Completed migration proof is unavailable")

/-- The checks that `issue` and `consume` share. -/
def boundaryChecks (s : OperationRow) (boundary : Boundary) (plan : AcceptedPlan)
    (env : BoundaryEnv) : Except Refusal Unit := do
  env.fenced
  verifyActivationReady D s boundary plan env
  verifyCurrentSchema s plan env
  env.backup
  env.drained
  env.authorized

/-- **`issue`**: the grant of a boundary is renewed until it is consumed, and
never given again after that. -/
def issue (s : OperationRow) (request : UpgradeActivationRequest)
    (env : BoundaryEnv) : Except Refusal (OperationRow × UpgradeActivationGrant) := do
  let op := s.operation
  refuse (request.generation ≠ op.generation
      ∨ request.sourceSha256 ≠ op.sourceSha256 ∨ op.finishedAt ≠ none
      ∨ op.cancelRequested ∨ op.phase ∉ [.staged, .smokeBefore, .migrating])
    (.conflict "Activation boundary differs from current operation")
  refuse (request.boundary = .migration ∧ op.kind ≠ .controlPlane)
    (.conflict "Studio activation cannot request a schema migration")
  match s.executionPlan with
  | none => .error (.conflict "Accepted execution plan is unavailable")
  | some plan =>
    boundaryChecks D s request.boundary plan env
    let expiresAt := env.later + seconds 30
    match s.grants.find? fun g => g.jobId = op.jobId
        ∧ g.generation = op.generation ∧ g.boundary = request.boundary with
    | some existing =>
      refuse (existing.consumedAt ≠ none)
        (.conflict "Activation authority was already consumed")
      return ({ s with grants := s.grants.map fun g =>
          if g.id = existing.id then { g with expiresAt := expiresAt } else g },
        ⟨op.jobId, op.generation, request.boundary, existing.id, expiresAt⟩)
    | none =>
      return ({ s with grants := s.grants ++ [⟨s.grants.length, op.jobId,
          op.generation, request.boundary, expiresAt, none⟩] },
        ⟨op.jobId, op.generation, request.boundary, s.grants.length, expiresAt⟩)

/-- The check of `consume` on a grant that is consumed already. -/
def consumedReplay (s : OperationRow) (authority : UpgradeGrantRow)
    (consumedAt : ℤ) (grant : UpgradeActivationGrant) (intent : UpgradeReceipt)
    (now : ℤ) : Except Refusal Unit := do
  match s.stored intent.jobId intent.generation intent.sequence with
  | none => .error (.conflict
      "Consumed activation replay differs from its retained intent")
  | some retained =>
    refuse (authority.expiresAt ≠ grant.expiresAt
        ∨ (authority.jobId, authority.generation, authority.boundary)
          ≠ (grant.jobId, grant.generation, grant.boundary)
        ∨ s.operation.generation ≠ grant.generation
        ∨ (intent.jobId, intent.generation)
          ≠ (s.operation.jobId, s.operation.generation)
        ∨ intent.phase ≠ grant.boundary.phase ∨ intent.outcome ≠ .intent
        ∨ D.receiptSha256 retained ≠ D.receiptSha256 intent ∨ retained ≠ intent
        ∨ authority.expiresAt ≤ consumedAt ∨ now < consumedAt
        ∨ consumedAt < intent.occurredAt)
      (.conflict "Consumed activation replay differs from its retained intent")

def consume (s : OperationRow) (grant : UpgradeActivationGrant)
    (intent : UpgradeReceipt) (env : BoundaryEnv) :
    Except Refusal (OperationRow × Unit) := do
  refuse (grant.jobId ≠ s.operation.jobId) .notFound
  let op := s.operation
  match s.grants.find? fun g => g.id = grant.grantId with
  | none => .error (.conflict "Activation grant is stale, expired or mismatched")
  | some authority =>
    match authority.consumedAt with
    | some consumedAt =>
      -- A durable acknowledgment, not another activation.
      consumedReplay D s authority consumedAt grant intent env.now
      return (s, ())
    | none =>
      refuse (authority.expiresAt ≤ env.now
          ∨ authority.expiresAt ≠ grant.expiresAt
          ∨ (authority.jobId, authority.generation, authority.boundary)
            ≠ (grant.jobId, grant.generation, grant.boundary)
          ∨ op.generation ≠ grant.generation ∨ op.finishedAt ≠ none
          ∨ op.cancelRequested
          ∨ (intent.jobId, intent.generation) ≠ (op.jobId, op.generation)
          ∨ intent.phase ≠ grant.boundary.phase ∨ intent.outcome ≠ .intent
          ∨ ¬ (0 ≤ env.now - intent.occurredAt
            ∧ env.now - intent.occurredAt ≤ seconds 30))
        (.conflict "Activation grant is stale, expired or mismatched")
      match s.executionPlan with
      | none => .error (.conflict "Accepted execution plan is unavailable")
      | some plan =>
        boundaryChecks D s grant.boundary plan env
        refuse (authority.expiresAt ≤ env.later ∨ ¬ (0 ≤ env.later - intent.occurredAt
            ∧ env.later - intent.occurredAt ≤ seconds 30))
          (.conflict "Activation authority expired during prerequisite verification")
        let (s', _) ← appendReceipt D s intent
        return ({ s' with
          grants := s'.grants.map fun g =>
            if g.id = authority.id then { g with consumedAt := some env.later } else g
          operation := { s'.operation with phase := grant.boundary.phase }
          consumed := s'.consumed ++ [(authority.id, intent)] }, ())

/-! ## Cancellation -/

/-- `NodeUpgradeStatus`, the node's answer to a cancellation: its phase and the
receipts after those the API has. The node's phase is that of its latest receipt,
and it writes none after a terminal one. -/
structure NodeUpgradeStatus where
  phase : UpgradePhase
  receipts : List UpgradeReceipt
  terminal_of_mem : ∀ r ∈ receipts, r.phase.terminal → phase.terminal

structure CancelEnv where
  authorized : Except Refusal Unit
  node : Except Refusal NodeUpgradeStatus
  ingest : IngestEnv

def OperationRow.cancel (s : OperationRow) : OperationRow :=
  { s with operation := { s.operation with cancelRequested := true } }

/-- `for receipt in status.receipts: await ingest_receipt(...)`. -/
def ingestAll (env : IngestEnv) :
    List UpgradeReceipt → OperationRow → Except Refusal OperationRow
  | [], s => .ok s
  | r :: rest, s => do
    let (s', _) ← ingestReceipt D s r env
    ingestAll env rest s'

def requestCancel (s : OperationRow) (env : CancelEnv) :
    Except Refusal (OperationRow × Unit) := do
  env.authorized
  if s.operation.finishedAt ≠ none ∨ s.operation.cancelRequested then
    return (s, ())
  else
    refuse (s.operation.kind = .controlPlane ∧ ¬ s.operation.cancellationAllowed)
      (.conflict
        "Core runtime selection is being published; cancellation boundary has passed")
    refuse (s.operation.kind = .controlPlane ∧ s.operation.phase = .committing
        ∧ ∃ decision ∈ s.stored s.operation.jobId s.operation.generation
            s.operation.receiptSequence,
          decision.phase = .committing ∧ decision.outcome = .complete)
      (.conflict
        "Core runtime selection is being published; cancellation boundary has passed")
    match s.operation.kind with
    | .controlPlane => return (s.cancel, ())
    | .studio =>
      refuse (s.executionPlan = none)
        (.unavailable "Studio cancellation has no accepted node authority")
      let status ← env.node
      let s' ← ingestAll D env.ingest status.receipts s
      if status.phase.terminal then
        refuse (s'.operation.finishedAt = none)
          (.unavailable "Studio terminal cancellation progress is still reconciling")
        return (s', ())
      else return (s'.cancel, ())

/-- `prepare_plan`: the plan is made once, of the operation as it stands. -/
def preparePlan (s : OperationRow) (plan : AcceptedPlan)
    (authorized : Except Refusal Unit) : Except Refusal (OperationRow × Unit) := do
  refuse (s.operation.finishedAt ≠ none)
    (.conflict "Accepted operation changed before preparation")
  if s.executionPlan ≠ none then return (s, ())
  else
    authorized
    refuse (plan.operation ≠ s.operation)
      (.conflict "Accepted operation changed before preparation")
    return ({ s with executionPlan := some plan }, ())

/-! ## Runs -/

inductive ApiCall
  | ingestReceipt (receipt : UpgradeReceipt) (env : IngestEnv)
  | issue (request : UpgradeActivationRequest) (env : BoundaryEnv)
  | consume (grant : UpgradeActivationGrant) (intent : UpgradeReceipt)
      (env : BoundaryEnv)
  | requestCancel (env : CancelEnv)

def runCall (s : OperationRow) : ApiCall → Except Refusal (OperationRow × Unit)
  | .ingestReceipt receipt env => (ingestReceipt D s receipt env).map fun r => (r.1, ())
  | .issue request env => (issue D s request env).map fun r => (r.1, ())
  | .consume grant intent env => consume D s grant intent env
  | .requestCancel env => requestCancel D s env

inductive ApiEvent
  | call (c : ApiCall)
  | preparePlan (plan : AcceptedPlan) (authorized : Except Refusal Unit)
  | migration (record : MigrationRecord)

/-- **One step**: a call that raises changes nothing. -/
def apiStep (s : OperationRow) : ApiEvent → OperationRow
  | .call c => settle s (runCall D s c)
  | .preparePlan plan authorized => settle s (preparePlan s plan authorized)
  | .migration record => { s with migrationExecution := some record }

end Rules

end Upgrades
