import Coire.UpgradeProgress

/-!
# The effect journal of the Core executor

`ExecutorJournal`: what the executor of a Core upgrade may do, and until when, as it is
kept on its disk. One file, the epoch, holds the consumed activations and the deadlines
that follow from them; each effect has a file of its own, which says whether it is
intended, possibly done, or done.

An effect is admitted by `intent` against a deadline of the epoch, and sent by
`dispatchIntent`, which looks at the effect's own deadline, at the outage budget and at
whether recovery has begun, and marks the effect as possibly done before it returns.
Other calls write the epoch and the effects in between, each with its own idea of the
time; the executor may stop at any point and read everything again.
-/

namespace Upgrades.Executor

open Guarded

/-! ## Documents -/

structure ExecutorPlan extends AcceptedPlan where
  cohort : List ServiceName
  project : Option String
  readinessS : ℤ
  recoveryS : ℤ
  gatewayOutageS : ℤ
  readiness_bounds : 1 ≤ readinessS ∧ readinessS ≤ 120
  recovery_bounds : 1 ≤ recoveryS ∧ recoveryS ≤ 300
  outage_bounds : 1 ≤ gatewayOutageS ∧ gatewayOutageS ≤ 300

structure UpgradeActivationConsume where
  grant : UpgradeActivationGrant
  intent : UpgradeReceipt
  same_owner : (grant.jobId, grant.generation) = (intent.jobId, intent.generation)
  is_intent : isIntent grant.boundary intent
  in_time : intent.occurredAt < grant.expiresAt
  deriving DecidableEq

structure CoreServiceWindow where
  service : ServiceName
  capturedAt : ℤ
  deadlineAt : ℤ
  bounded : 0 < deadlineAt - capturedAt ∧ deadlineAt - capturedAt ≤ seconds 120
  deriving DecidableEq

def CoreServiceWindow.make (service : ServiceName) (capturedAt deadlineAt : ℤ) :
    Except Refusal CoreServiceWindow :=
  if h : 0 < deadlineAt - capturedAt ∧ deadlineAt - capturedAt ≤ seconds 120 then
    .ok ⟨service, capturedAt, deadlineAt, h⟩
  else .error .invalid

/-- `CoreExecutorEpoch`, before it is validated. -/
structure CoreExecutorEpoch where
  jobId : String
  generation : ℕ
  planSha256 : String
  activations : List UpgradeActivationConsume := []
  readinessDeadline : Option ℤ := none
  serviceWindows : List CoreServiceWindow := []
  outageCapturedAt : Option ℤ := none
  outageDeadline : Option ℤ := none
  recoveryCapturedAt : Option ℤ := none
  recoveryDeadline : Option ℤ := none
  deriving DecidableEq

/-- A budget is captured with its deadline, five minutes later at most. -/
def Budget : Option ℤ → Option ℤ → Prop
  | none, none => True
  | some capture, some deadline =>
    0 < deadline - capture ∧ deadline - capture ≤ seconds 300
  | _, _ => False

instance : ∀ capture deadline, Decidable (Budget capture deadline)
  | none, none => isTrue trivial
  | some _, some _ => inferInstanceAs (Decidable (_ ∧ _))
  | none, some _ => isFalse id
  | some _, none => isFalse id

def CoreExecutorEpoch.activationOf (e : CoreExecutorEpoch) (b : Boundary) :
    Option UpgradeActivationConsume :=
  e.activations.find? fun a => a.grant.boundary = b

def CoreExecutorEpoch.windowOf (e : CoreExecutorEpoch) (service : ServiceName) :
    Option CoreServiceWindow :=
  e.serviceWindows.find? fun w => w.service = service

def CoreExecutorEpoch.Coherent (e : CoreExecutorEpoch) : Prop :=
  (e.serviceWindows.map CoreServiceWindow.service).Nodup
    ∧ (e.serviceWindows ≠ [] → (e.activationOf .runtime).isSome)
    ∧ (e.activations.map fun a => a.grant.boundary).Nodup
    ∧ (∀ a ∈ e.activations,
      (a.grant.jobId, a.grant.generation) = (e.jobId, e.generation))
    ∧ Budget e.outageCapturedAt e.outageDeadline
    ∧ Budget e.recoveryCapturedAt e.recoveryDeadline
    ∧ (e.activationOf .runtime).isSome = e.readinessDeadline.isSome

instance (e : CoreExecutorEpoch) : Decidable e.Coherent :=
  inferInstanceAs (Decidable (_ ∧ _))

abbrev Epoch := { e : CoreExecutorEpoch // e.Coherent }

inductive Action
  | migration | createMigration | startMigration
  | stopSource | createCandidate | startCandidate
  | stopCandidate | removeCandidate | removeMigration | startSource
  deriving DecidableEq

def Action.recovery : Action → Bool
  | .stopCandidate | .removeCandidate | .removeMigration | .startSource => true
  | _ => false

def Action.migrates : Action → Bool
  | .migration | .createMigration | .startMigration => true
  | _ => false

def Action.needsContainer : Action → Bool
  | .stopSource | .startCandidate | .stopCandidate | .removeCandidate
  | .removeMigration | .startSource | .startMigration => true
  | _ => false

inductive EffectOutcome
  | intent | complete | unknown
  deriving DecidableEq

structure CoreExecutorEffect where
  jobId : String
  generation : ℕ
  planSha256 : String
  effectId : String
  action : Action
  service : Option ServiceName
  containerId : Option String
  imageId : String
  capturedAt : ℤ
  deadline : ℤ
  outcome : EffectOutcome
  observedContainerId : Option String
  scope_eq : (action.migrates || action = .removeMigration) = service.isNone
  timely : capturedAt < deadline
  identified : action.needsContainer → containerId.isSome
  deriving DecidableEq

/-- What an effect was admitted for: all of it but its outcome. -/
def CoreExecutorEffect.sameAs (e e' : CoreExecutorEffect) : Prop :=
  { e with outcome := .intent, observedContainerId := none }
    = { e' with outcome := .intent, observedContainerId := none }

instance (e e' : CoreExecutorEffect) : Decidable (e.sameAs e') :=
  inferInstanceAs (Decidable (_ = _))

structure UpgradeDockerContainer where
  containerId : String
  project : String
  service : ServiceName
  imageId : String
  observedAt : ℤ
  running : Bool
  healthy : Bool

structure Files where
  epoch : Option Epoch := none
  effects : Dict String CoreExecutorEffect := Dict.empty
  latest : Option UpgradeReceipt := none
  migrationProof : Option UpgradeMigrationExecution := none
  /-- The effects whose dispatch has returned: history only. -/
  dispatched : List String := []

section Calls

variable (P : ExecutorPlan) (D : Documents) (s : Files)

def validate (jobId : String) (generation : ℕ) (planSha256 : String) :
    Except Refusal Unit :=
  refuse ((jobId, generation, planSha256)
      ≠ (P.operation.jobId, P.operation.generation, P.authoritySha256))
    (.conflict "Executor journal belongs to another accepted epoch")

def state : Except Refusal Epoch :=
  match s.epoch with
  | none => .error (.unavailable "Executor epoch is absent")
  | some e => do
    validate P e.1.jobId e.1.generation e.1.planSha256
    return e

def writeEpoch (e : CoreExecutorEpoch) : Except Refusal (Files × CoreExecutorEpoch) :=
  if h : e.Coherent then .ok ({ s with epoch := some ⟨e, h⟩ }, e)
  else .error .invalid

def readEffect (effectId : String) : Except Refusal (Option CoreExecutorEffect) :=
  if validKey (effectId ++ ".json") then .ok (s.effects.get? effectId)
  else .error (.conflict "Upgrade data key is invalid")

def openJournal : Except Refusal (Files × Unit) :=
  match s.epoch with
  | none => do
    let (s', _) ← writeEpoch s
      { jobId := P.operation.jobId
        generation := P.operation.generation
        planSha256 := P.authoritySha256 }
    return (s', ())
  | some e => do
    validate P e.1.jobId e.1.generation e.1.planSha256
    return (s, ())

def CoreExecutorEpoch.recoverFrom (e : CoreExecutorEpoch) (capture : ℤ) :
    CoreExecutorEpoch :=
  { e with
    recoveryCapturedAt := some capture
    recoveryDeadline := some (capture + seconds P.recoveryS) }

def migrationDeadline (a : UpgradeActivationConsume) : ℤ :=
  a.intent.occurredAt + seconds P.readinessS

/-- What a runtime activation must find in the receipt journal, where the plan has
a migration. -/
def migrationProved (e : CoreExecutorEpoch) : Except Refusal Unit := do
  refuse (e.activationOf .migration = none)
    (.conflict "Runtime activation has no retained migration boundary")
  match s.latest with
  | none => .error (.conflict
      "Runtime activation requires retained terminal migration evidence")
  | some proof =>
    refuse (proof.phase ≠ .migrating ∨ proof.outcome ≠ .complete
        ∨ proof.evidence = "")
      (.conflict "Runtime activation requires retained terminal migration evidence")
    let evidence := D.readEvidence proof.evidence
    refuse (evidence.migrationExitCode ≠ some 0
        ∨ evidence.schemaHead ≠ P.schemaHeadAfter
        ∨ evidence.schemaAfterSha256 = none)
      (.conflict "Runtime activation requires the expected zero-exit schema")

def firstWindow (e : CoreExecutorEpoch) (consumed : UpgradeActivationConsume) :
    Except Refusal (List CoreServiceWindow) :=
  match P.cohort.head? with
  | none => .ok e.serviceWindows
  | some service => do
    let window ← CoreServiceWindow.make service consumed.intent.occurredAt
      (consumed.intent.occurredAt + seconds P.readinessS)
    return [window]

def activated (e : CoreExecutorEpoch) (consumed : UpgradeActivationConsume) :
    Except Refusal CoreExecutorEpoch :=
  match consumed.grant.boundary with
  | .migration => .ok { e with activations := e.activations ++ [consumed] }
  | .runtime => do
    let windows ← firstWindow P e consumed
    return { e with
      activations := e.activations ++ [consumed]
      readinessDeadline := some (consumed.intent.occurredAt
        + seconds (P.readinessS * max 1 P.cohort.length))
      serviceWindows := windows }

/-- **`activation`**: a consumed grant is recorded once; an acknowledged replay
may begin recovery with it. -/
def activation (consumed : UpgradeActivationConsume) (now : ℤ)
    (recoveryAck : Option UpgradeReceiptAck) :
    Except Refusal (Files × CoreExecutorEpoch) := do
  refuse (∃ ack ∈ recoveryAck, (ack.jobId, ack.generation, ack.sequence)
      ≠ (consumed.intent.jobId, consumed.intent.generation, consumed.intent.sequence))
    (.conflict "Consumed recovery acknowledgment differs from its exact intent")
  let e ← state P s
  refuse ((consumed.grant.jobId, consumed.grant.generation)
      ≠ (e.1.jobId, e.1.generation))
    (.conflict "Activation belongs to another executor epoch")
  let recovers : Bool := recoveryAck.isSome && e.1.recoveryCapturedAt.isNone
  let capture := min now consumed.grant.expiresAt
  match e.1.activationOf consumed.grant.boundary with
  | some existing =>
    refuse (existing ≠ consumed) (.conflict "Executor activation replay differs")
    if recovers then writeEpoch s (e.1.recoverFrom P capture)
    else return (s, e.1)
  | none =>
    refuse (consumed.intent.observedSha256 ≠ some P.operation.sourceSha256)
      (.conflict "Executor activation source differs")
    refuse (now < consumed.intent.occurredAt
        ∨ (consumed.grant.expiresAt ≤ now ∧ recoveryAck = none))
      (.forbidden "Executor activation authorization expired")
    refuse (e.1.recoveryCapturedAt ≠ none ∧ recoveryAck = none)
      (.forbidden "Recovery cannot accept a candidate activation")
    checkIf (consumed.grant.boundary = .runtime ∧ P.needsMigration)
      (migrationProved P D s e.1)
    let updated ← activated P e.1 consumed
    writeEpoch s (if recovers then updated.recoverFrom P capture else updated)

def serviceWindow (service : ServiceName) (now : ℤ) :
    Except Refusal (Files × CoreServiceWindow) := do
  let e ← state P s
  refuse (service ∉ P.cohort)
    (.forbidden "Service readiness is outside the accepted changed cohort")
  match e.1.windowOf service with
  | some retained => return (s, retained)
  | none =>
    match e.1.readinessDeadline with
    | none => .error (.forbidden
        "Core service readiness cannot renew expired runtime authority")
    | some readiness =>
      refuse (readiness ≤ now ∨ e.1.recoveryCapturedAt ≠ none)
        (.forbidden "Core service readiness cannot renew expired runtime authority")
      let budget := min (now + seconds P.readinessS) readiness
      let deadline := (e.1.outageDeadline.map (min budget)).getD budget
      refuse (deadline ≤ now)
        (.forbidden "Core service readiness exceeds the captured outage budget")
      let window ← CoreServiceWindow.make service now deadline
      let (s', _) ← writeEpoch s
        { e.1 with serviceWindows := e.1.serviceWindows ++ [window] }
      return (s', window)

def captureOutage (now : ℤ) : Except Refusal (Files × CoreExecutorEpoch) := do
  let e ← state P s
  if e.1.outageCapturedAt ≠ none then return (s, e.1)
  else
    refuse ((∀ readiness ∈ e.1.readinessDeadline, readiness ≤ now)
        ∨ e.1.recoveryCapturedAt ≠ none)
      (.forbidden "Executor cannot begin a new outage outside runtime activation")
    writeEpoch s { e.1 with
      outageCapturedAt := some now
      outageDeadline := some (now + seconds P.gatewayOutageS) }

def expiredMigration (e : CoreExecutorEpoch) (now : ℤ) :
    Except Refusal (List ℤ) :=
  match e.activationOf .migration with
  | none => .ok []
  | some a => do
    refuse (∃ proof ∈ s.migrationProof,
        (proof.jobId, proof.generation, proof.planSha256)
          ≠ (e.jobId, e.generation, e.planSha256))
      (.conflict "Recovery migration proof belongs to another epoch")
    if ∃ proof ∈ s.migrationProof, proof.state = .complete then return []
    else
      let failedAt := ((s.migrationProof.bind
        UpgradeMigrationExecution.completedAt).map
          (min (migrationDeadline P a))).getD (migrationDeadline P a)
      return if failedAt ≤ now then [failedAt] else []

def cohortOrder : List ServiceName :=
  [.fileWorker, .ops, .mcp, .scheduler, .api, .web]

def serviceText : ServiceName → String
  | .fileWorker => "coire-file-worker"
  | .ops => "coire-ops"
  | .mcp => "coire-mcp"
  | .scheduler => "coire-scheduler"
  | .api => "coire-api"
  | .web => "coire-web"

def expiredWindows (now : ℤ) : List CoreServiceWindow → Except Refusal (List ℤ)
  | [] => .ok []
  | window :: rest => do
    let completion ← readEffect s ("core-start-candidate-" ++ serviceText window.service)
    match completion with
    | none => pure ()
    | some effect =>
      validate P effect.jobId effect.generation effect.planSha256
      refuse (effect.action ≠ .startCandidate ∨ effect.service ≠ some window.service)
        (.conflict "Service readiness completion authority differs")
    let lastService := cohortOrder.reverse.find? (· ∈ P.cohort)
    let others ← expiredWindows now rest
    return if window.deadlineAt ≤ now
        ∧ (completion.map CoreExecutorEffect.outcome ≠ some .complete
          ∨ some window.service = lastService)
      then window.deadlineAt :: others else others

def expiredForwardDeadlines (now : ℤ) : Except Refusal (List ℤ) := do
  let e ← state P s
  if ∃ latest ∈ s.latest, (latest.phase = .verifying ∧ latest.outcome = .complete)
      ∨ latest.phase = .committing then return []
  else
    let migration ← expiredMigration P s e.1 now
    let windows ← expiredWindows P s now e.1.serviceWindows
    return ((e.1.readinessDeadline.toList ++ e.1.outageDeadline.toList).filter
      (· ≤ now)) ++ migration ++ windows

/-- **`capture_recovery`**: from now, or from the first deadline that was missed. -/
def captureRecovery (now : ℤ) : Except Refusal (Files × CoreExecutorEpoch) := do
  let e ← state P s
  if e.1.recoveryCapturedAt ≠ none then return (s, e.1)
  else
    let deadlines ← expiredForwardDeadlines P s now
    writeEpoch s (e.1.recoverFrom P (deadlines.foldl min now))

def expectedDeadline (e : CoreExecutorEpoch) (effect : CoreExecutorEffect) :
    Option ℤ :=
  if effect.action.migrates then (e.activationOf .migration).map (migrationDeadline P)
  else if effect.action.recovery then e.recoveryDeadline
  else match effect.service with
    | some service => (e.windowOf service).map CoreServiceWindow.deadlineAt
    | none => e.readinessDeadline

/-- What `intent` finds in the prepared artifact: the image and the restart policy
of the migration service. -/
abbrev Prepared := Except Refusal (String × String)

/-- **`intent`**: an effect is admitted against a deadline of the epoch. -/
def intent (effect : CoreExecutorEffect) (now : ℤ) (prepared : Prepared) :
    Except Refusal (Files × CoreExecutorEffect) := do
  validate P effect.jobId effect.generation effect.planSha256
  let previous ← readEffect s effect.effectId
  match previous with
  | some previous =>
    validate P previous.jobId previous.generation previous.planSha256
    refuse (¬ previous.sameAs effect) (.conflict "Executor effect replay differs")
    return (s, previous)
  | none =>
    let e ← state P s
    refuse (expectedDeadline P e.1 effect ≠ some effect.deadline
        ∨ effect.deadline ≤ now ∨ now < effect.capturedAt
        ∨ effect.outcome ≠ .intent)
      (.forbidden "Executor effect has no current captured deadline")
    refuse (¬ effect.action.recovery ∧ e.1.recoveryCapturedAt ≠ none)
      (.forbidden "Executor recovery forbids another candidate effect")
    if effect.service = none then
      let migration ← prepared
      refuse (migration.1 ≠ effect.imageId ∨ migration.2 ≠ "no")
        (.conflict "Migration image or one-shot policy differs")
      return ({ s with effects := s.effects.set effect.effectId effect }, effect)
    else
      refuse (∃ service ∈ effect.service, service ∉ P.cohort)
        (.forbidden "Executor effect is outside the changed cohort")
      let release := if effect.action = .stopSource ∨ effect.action = .startSource
        then P.source else P.target
      refuse (∃ service ∈ effect.service,
          release.services service ≠ some effect.imageId)
        (.conflict "Executor effect image differs from its accepted role")
      return ({ s with effects := s.effects.set effect.effectId effect }, effect)

/-- **`observe`**: a fresh observation closes an effect. -/
def observe (effectId : String) (observed : UpgradeDockerContainer) (now : ℤ) :
    Except Refusal (Files × CoreExecutorEffect) := do
  refuse (¬ (0 ≤ now - observed.observedAt ∧ now - observed.observedAt ≤ seconds 5))
    (.conflict "Executor effect observation is stale or from the future")
  let found ← readEffect s effectId
  match found with
  | none => .error (.conflict
      "Executor observation has no preceding durable intent")
  | some effect =>
    validate P effect.jobId effect.generation effect.planSha256
    refuse (effect.action ∈ [.migration, .removeCandidate, .removeMigration])
      (.conflict "This effect requires its dedicated completion protocol")
    refuse ((some observed.service, some observed.project, observed.imageId)
          ≠ (effect.service, P.project, effect.imageId)
        ∨ (effect.containerId ≠ none ∧ effect.containerId ≠ some observed.containerId))
      (.conflict "Executor observation belongs to another container identity")
    refuse (effect.action ∈ [.stopSource, .stopCandidate] ∧ observed.running)
      (.conflict "Executor stop outcome remains running")
    refuse (effect.action ∈ [.startSource, .startCandidate]
        ∧ ¬ (observed.running ∧ observed.healthy))
      (.conflict "Executor start outcome is not freshly healthy")
    if effect.outcome = .complete then
      refuse (effect.observedContainerId ≠ some observed.containerId)
        (.conflict "Executor completion replay differs")
      return (s, effect)
    else
      let updated := { effect with
        outcome := .complete
        observedContainerId := some observed.containerId }
      return ({ s with effects := s.effects.set effectId updated }, updated)

/-- **`uncertain`**: a lost response. -/
def uncertain (effectId : String) : Except Refusal (Files × CoreExecutorEffect) := do
  let found ← readEffect s effectId
  match found with
  | none => .error (.conflict
      "Executor uncertainty has no preceding durable intent")
  | some effect =>
    validate P effect.jobId effect.generation effect.planSha256
    if effect.outcome ≠ .intent then return (s, effect)
    else
      let updated := { effect with outcome := .unknown }
      return ({ s with effects := s.effects.set effectId updated }, updated)

/-- What `dispatch_intent` asks of the executor's authority, which it verifies
twice. -/
structure Authority where
  verified : Except Refusal Unit
  active : Bool
  planSha256 : String
  verifiedAgain : Except Refusal Unit

/-- **`dispatch_intent`**: the effect is marked as possibly done, and returned to be
carried out. -/
def dispatchIntent (effectId : String) (authority : Authority) (now : ℤ) :
    Except Refusal (Files × CoreExecutorEffect) := do
  authority.verified
  refuse (¬ authority.active)
    (.forbidden "Committed runtime ownership cannot dispatch another effect")
  refuse (authority.planSha256 ≠ P.authoritySha256)
    (.forbidden "Executor kernel owner belongs to another plan")
  let found ← readEffect s effectId
  match found with
  | none => .error (.conflict
      "Executor transport has no preceding durable intent")
  | some effect =>
    validate P effect.jobId effect.generation effect.planSha256
    refuse (effect.outcome ≠ .intent)
      (.conflict "Executor transport replay requires actual-state reconciliation")
    let e ← state P s
    refuse (effect.deadline ≤ now ∨ now < effect.capturedAt
        ∨ (e.1.recoveryCapturedAt ≠ none ∧ ¬ effect.action.recovery))
      (.forbidden "Executor transport deadline or recovery epoch changed")
    refuse (effect.action = .stopSource
        ∧ (∃ service ∈ effect.service, service ∈ [.api, .scheduler, .web])
        ∧ e.1.outageDeadline = none)
      (.conflict "Gateway-affecting stop has no captured outage budget")
    refuse (¬ effect.action.recovery
        ∧ ∃ outage ∈ e.1.outageDeadline, outage ≤ now)
      (.forbidden "Executor transport exceeds its captured gateway outage budget")
    authority.verifiedAgain
    let updated := { effect with outcome := .unknown }
    return ({ s with
      effects := s.effects.set effectId updated
      dispatched := s.dispatched ++ [effectId] }, updated)

/-! ## Runs -/

/-- A call of the journal, a restart, and what other parts of the executor write. -/
inductive Call
  | openJournal
  | activation (consumed : UpgradeActivationConsume) (now : ℤ)
      (recoveryAck : Option UpgradeReceiptAck)
  | serviceWindow (service : ServiceName) (now : ℤ)
  | captureOutage (now : ℤ)
  | captureRecovery (now : ℤ)
  | intent (effect : CoreExecutorEffect) (now : ℤ) (prepared : Prepared)
  | dispatchIntent (effectId : String) (authority : Authority) (now : ℤ)
  | observe (effectId : String) (observed : UpgradeDockerContainer) (now : ℤ)
  | uncertain (effectId : String)
  | closed (effectId : String) (containerId : String)
  | receipt (latest : UpgradeReceipt)
  | migrationProof (proof : UpgradeMigrationExecution)

def CoreExecutorEffect.close (containerId : String) (effect : CoreExecutorEffect) :
    CoreExecutorEffect :=
  { effect with outcome := .complete, observedContainerId := some containerId }

end Calls

def step (P : ExecutorPlan) (D : Documents) (s : Files) : Call → Files
  | .openJournal => settle s (openJournal P s)
  | .activation consumed now ack => settle s (activation P D s consumed now ack)
  | .serviceWindow service now => settle s (serviceWindow P s service now)
  | .captureOutage now => settle s (captureOutage P s now)
  | .captureRecovery now => settle s (captureRecovery P s now)
  | .intent effect now prepared => settle s (intent P s effect now prepared)
  | .dispatchIntent effectId authority now =>
    settle s (dispatchIntent P s effectId authority now)
  | .observe effectId observed now => settle s (observe P s effectId observed now)
  | .uncertain effectId => settle s (uncertain P s effectId)
  | .closed effectId containerId =>
    { s with effects := s.effects.modify effectId (.close containerId) }
  | .receipt latest => { s with latest := some latest }
  | .migrationProof proof => { s with migrationProof := some proof }

end Upgrades.Executor
