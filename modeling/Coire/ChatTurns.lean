import Coire.Dict
import Coire.Guarded
import Coire.Run
import Mathlib.Data.List.Sort
import Mathlib.Data.Rat.Defs

/-!
# Chat turns and their event log

A conversation is four tables: the conversation's own row, its messages, its turns, and
the events that the browser reads. A turn is admitted with a message for the question
and an empty one for the answer; a stream fills the answer, piece by piece, and says how
it ended; the owner may ask it to stop; a sweeper ends the turns whose process has gone.

Four writers thus append to one log – `admitTurn`, `persistNativeEvent`,
`requestTurnStop` and `recoverTurn` – and each keeps by itself what is derived from it:
the cursor of the last event, the turn that is active, the saved text, the state of the
turn. Each of them is one transaction behind the lock of the conversation; a stream may
still run when its turn has been stopped or swept.
-/

namespace Chat

open Guarded

abbrev Uuid := ℕ

abbrev Instant := ℤ

/-! ## Rows and events -/

inductive Refusal
  | notFound
  | conflict (detail : String)
  /-- `ChatStopRequested`. -/
  | stopRequested
  | forbidden
  | contextExceeded (detail : String)
  | assertion
  | validation
  | integrity
  deriving DecidableEq

inductive Mode
  | chat
  | code
  deriving DecidableEq

inductive TurnAction
  | chat
  | research
  | plan
  | apply
  deriving DecidableEq

inductive TurnState
  | accepted
  | queued
  | loading
  | running
  | stopRequested
  | completed
  | failed
  | stopped
  | interrupted
  deriving DecidableEq

/-- `{"completed", "failed", "stopped", "interrupted"}`: the others are
`ACTIVE_STATES`. -/
def TurnState.terminal : TurnState → Bool
  | .completed | .failed | .stopped | .interrupted => true
  | _ => false

inductive Channel
  | answer
  | reasoning
  deriving DecidableEq

inductive RecoveryMode
  | retry
  | continuation
  deriving DecidableEq

inductive Role
  | user
  | assistant
  deriving DecidableEq

inductive StopReason
  | userStop
  | navigation
  | conversationDeleted
  deriving DecidableEq

structure ChatUsage where
  promptTokens : ℕ
  completionTokens : ℕ
  deriving DecidableEq

inductive AttachmentMode
  | text
  | visual
  deriving DecidableEq

structure ChatAttachmentSelection where
  fileId : Uuid
  mode : AttachmentMode
  pages : List ℕ
  deriving DecidableEq

structure ChatConversationRow where
  ownerUserId : Uuid
  mode : Mode
  selectedModelId : Option Uuid
  revision : ℕ
  contextRevision : ℕ
  activeTurnId : Option Uuid
  eventCursor : ℕ
  updatedAt : Instant
  deletedAt : Option Instant
  deriving DecidableEq

structure ChatMessageRow where
  conversationId : Uuid
  position : ℕ
  role : Role
  text : String
  reasoning : String
  promptContent : Option String
  attachmentSelections : List ChatAttachmentSelection
  usage : Option ChatUsage
  createdAt : Instant
  deriving DecidableEq

def ChatMessageRow.saved (m : ChatMessageRow) : Channel → String
  | .answer => m.text
  | .reasoning => m.reasoning

def ChatMessageRow.append (m : ChatMessageRow) (channel : Channel) (text : String) :
    ChatMessageRow :=
  match channel with
  | .answer => { m with text := m.text ++ text }
  | .reasoning => { m with reasoning := m.reasoning ++ text }

structure ChatTurnRow where
  conversationId : Uuid
  clientRequestId : Uuid
  requestHash : String
  acceptedRevision : ℕ
  inputMessageId : Uuid
  assistantMessageId : Uuid
  modelId : Uuid
  modelDisplayName : String
  action : TurnAction := .chat
  state : TurnState := .accepted
  eventCursor : ℕ
  retryOf : Option Uuid
  recoveryMode : Option RecoveryMode
  codingCallId : Option Uuid := none
  runId : Option Uuid := none
  ownerProcess : Option String
  leaseExpiresAt : Option Instant
  stopReason : Option StopReason := none
  usage : Option ChatUsage := none
  failureCode : Option String := none
  createdAt : Instant
  updatedAt : Instant
  finishedAt : Option Instant := none
  deriving DecidableEq

structure ChatTurn where
  id : Uuid
  conversationId : Uuid
  clientRequestId : Uuid
  acceptedRevision : ℕ
  inputMessageId : Uuid
  assistantMessageId : Uuid
  modelId : Uuid
  modelDisplayName : String
  state : TurnState
  action : TurnAction
  codingCallId : Option Uuid
  retryOf : Option Uuid
  recoveryMode : Option RecoveryMode
  usage : Option ChatUsage
  createdAt : Instant
  updatedAt : Instant
  valid : 1 ≤ acceptedRevision
    ∧ 1 ≤ modelDisplayName.length ∧ modelDisplayName.length ≤ 120
  deriving DecidableEq

def projectTurn (id : Uuid) (row : ChatTurnRow) : Except Refusal ChatTurn :=
  if h : 1 ≤ row.acceptedRevision
      ∧ 1 ≤ row.modelDisplayName.length ∧ row.modelDisplayName.length ≤ 120 then
    .ok { row with id := id, valid := h }
  else .error .validation

/-- `512 * 1024`: what an answer, or its reasoning, may hold. -/
def outputLimit : ℕ := 512 * 1024

structure ChatMessageDelta where
  messageId : Uuid
  channel : Channel
  text : String
  offset : ℕ
  valid : (1 ≤ text.length ∧ text.length ≤ 64 * 1024)
    ∧ 1 ≤ offset ∧ offset ≤ outputLimit
  deriving DecidableEq

structure ChatTurnTerminal where
  state : TurnState
  usage : Option ChatUsage
  answerLength : ℕ
  reasoningLength : ℕ
  safeError : Option String
  valid : state.terminal ∧ answerLength ≤ outputLimit ∧ reasoningLength ≤ outputLimit
    ∧ ∀ e ∈ safeError, e.length ≤ 500
  deriving DecidableEq

inductive ChatEventPayload
  | accepted (turn : ChatTurn)
  | status (state : TurnState) (estimateSeconds : Option ℚ)
  | delta (delta : ChatMessageDelta)
  | terminal (terminal : ChatTurnTerminal)
  | deleted (conversationId : Uuid) (revision : ℕ)
  deriving DecidableEq

structure ChatEvent where
  conversationId : Uuid
  cursor : ℕ
  turnId : Option Uuid
  createdAt : Instant
  payload : ChatEventPayload
  deriving DecidableEq

structure Db where
  conversations : Dict Uuid ChatConversationRow := Dict.empty
  messages : Dict Uuid ChatMessageRow := Dict.empty
  turns : Dict Uuid ChatTurnRow := Dict.empty
  events : List ChatEvent := []

/-- The end of every transaction that appends an event about a turn. -/
def Db.log (db : Db) (conversationId turnId : Uuid) (conversation : ChatConversationRow)
    (turn : ChatTurnRow) (payload : ChatEventPayload) (now : Instant) :
    Db × ChatEvent :=
  let cursor := conversation.eventCursor + 1
  let event := { conversationId, cursor, turnId := some turnId, createdAt := now, payload }
  ({ db with
    conversations := db.conversations.set conversationId
      { conversation with eventCursor := cursor, updatedAt := now }
    turns := db.turns.set turnId { turn with updatedAt := now }
    events := db.events ++ [event] }, event)

def addRow {α : Type} (rows : Dict Uuid α) (id : Uuid) (row : α) :
    Except Refusal (Dict Uuid α) := do
  refuse ((rows.get? id).isSome) .integrity
  return rows.set id row

/-! ## Admission -/

structure NativeChatSampling where
  temperature : ℚ
  topP : ℚ
  topK : ℕ
  minP : ℚ
  seed : Option ℕ
  deriving DecidableEq

structure ChatTurnCreate where
  clientRequestId : Uuid
  expectedRevision : ℕ
  modelId : Uuid
  content : String
  attachments : List ChatAttachmentSelection := []
  action : TurnAction := .chat
  retryOf : Option Uuid := none
  recoveryMode : Option RecoveryMode := none
  workspaceId : Option Uuid := none
  sourceRevision : Option String := none
  planId : Option Uuid := none
  researchId : Option Uuid := none
  sampling : Option NativeChatSampling := none
  valid : 1 ≤ expectedRevision ∧ (retryOf = none ↔ recoveryMode = none)

structure ModelRow where
  source : String
  backend : String
  displayName : String

structure AdmitEnv where
  owner : Except Refusal Uuid
  pending : Bool
  model : Option ModelRow
  eligible : Bool
  prompt : Except Refusal String
  context : Except Refusal Unit
  now : Instant
  process : String
  inputId : Uuid
  assistantId : Uuid
  turnId : Uuid

/-- Two functions of the host: the digest of a request, and `str.isspace`. -/
structure Host where
  requestHash : ChatTurnCreate → String
  isSpace : Char → Bool

def leaseSeconds : Instant := 30 * 1000000

structure Admission where
  turnId : Uuid
  conversationId : Uuid
  event : Option ChatEvent
  replay : Bool

def Db.saved (db : Db) (conversationId : Uuid) : List (Uuid × ChatMessageRow) :=
  (db.messages.items.filter (·.2.conversationId = conversationId)).insertionSort
    (·.2.position ≤ ·.2.position)

section Transactions

variable (H : Host) (db : Db)

def sourceInput (conversationId : Uuid) (body : ChatTurnCreate) :
    Except Refusal (Option (Uuid × ChatMessageRow)) :=
  match body.retryOf with
  | none => .ok none
  | some retryOf => do
    let latest := Refusal.conflict
      "only the latest interrupted response can be recovered"
    let source ← require (db.turns.get? retryOf) latest
    let last ← require (db.saved conversationId).getLast? latest
    refuse (source.conversationId ≠ conversationId ∨ source.action ≠ .chat
      ∨ source.state ∉ [.failed, .stopped, .interrupted]
      ∨ last.1 ≠ source.assistantMessageId) latest
    if body.recoveryMode = some .retry then
      let kept := Refusal.conflict
        "retry must keep the original input and file choices"
      let input ← require
        ((db.saved conversationId).find? (·.1 = source.inputMessageId)) kept
      refuse (input.2.role ≠ .user ∨ input.2.text ≠ body.content
        ∨ input.2.attachmentSelections ≠ body.attachments) kept
      return some input
    else
      refuse (body.recoveryMode ≠ some .continuation
        ∨ body.content ≠ "Continue the previous response."
        ∨ body.attachments ≠ [] ∨ last.2.text.toList.all H.isSpace)
        (.conflict "continuation requires a saved partial answer")
      return none

def addMessages (conversationId : Uuid) (body : ChatTurnCreate) (env : AdmitEnv)
    (prompt : String) (source : Option (Uuid × ChatMessageRow)) :
    Except Refusal (Dict Uuid ChatMessageRow) := do
  let position := ((db.saved conversationId).getLast?.map (·.2.position + 1)).getD 1
  let assistant position : ChatMessageRow :=
    { conversationId, position, role := .assistant, text := "", reasoning := "",
      promptContent := none, attachmentSelections := [], usage := none,
      createdAt := env.now }
  match source with
  | none =>
    let messages ← addRow db.messages env.inputId
      { conversationId, position, role := .user, text := body.content, reasoning := "",
        promptContent := some prompt, attachmentSelections := body.attachments,
        usage := none, createdAt := env.now }
    addRow messages env.assistantId (assistant (position + 1))
  | some _ => addRow db.messages env.assistantId (assistant position)

def admitTurn (conversationId : Uuid) (body : ChatTurnCreate) (env : AdmitEnv) :
    Except Refusal (Db × Admission) := do
  let owner ← env.owner
  let conversation ← require (db.conversations.get? conversationId) .notFound
  refuse (conversation.ownerUserId ≠ owner ∨ conversation.deletedAt ≠ none) .notFound
  match db.turns.items.find? (fun row => row.2.conversationId = conversationId
      ∧ row.2.clientRequestId = body.clientRequestId) with
  | some existing =>
    refuse (existing.2.requestHash ≠ H.requestHash body)
      (.conflict "request ID already used with different content")
    return (db, ⟨existing.1, conversationId, none, true⟩)
  | none =>
    refuse (conversation.revision ≠ body.expectedRevision)
      (.conflict "conversation changed; reload before sending")
    refuse (conversation.activeTurnId ≠ none) (.conflict "a turn is already active")
    refuse env.pending (.conflict "comparison_pending")
    refuse (body.action ≠ .chat)
      (.conflict "this conversation cannot accept that action yet")
    refuse (body.workspaceId ≠ none ∨ body.sourceRevision ≠ none ∨ body.planId ≠ none
      ∨ body.researchId ≠ none) (.conflict "coding inputs require code mode")
    refuse (conversation.mode ≠ .chat) (.conflict "text chat requires chat mode")
    let model ← require env.model .notFound
    refuse (¬ env.eligible) .notFound
    refuse (body.sampling ≠ none ∧ (model.source ≠ "studio" ∨ model.backend ≠ "mlx_lm"))
      (.conflict "native sampling requires a local text model")
    let source ← sourceInput H db conversationId body
    let prompt ← env.prompt
    refuse (∃ input ∈ source, prompt ≠ input.2.promptContent.getD input.2.text)
      (.conflict "retry input changed; upload a new file or send a new turn")
    env.context
    let turn : ChatTurnRow :=
      { conversationId
        clientRequestId := body.clientRequestId
        requestHash := H.requestHash body
        acceptedRevision := body.expectedRevision
        inputMessageId := (source.map Prod.fst).getD env.inputId
        assistantMessageId := env.assistantId
        modelId := body.modelId
        modelDisplayName := model.displayName
        retryOf := body.retryOf
        recoveryMode := body.recoveryMode
        ownerProcess := some env.process
        leaseExpiresAt := some (env.now + leaseSeconds)
        eventCursor := conversation.eventCursor + 1
        createdAt := env.now
        updatedAt := env.now }
    let projected ← projectTurn env.turnId turn
    let messages ← addMessages db conversationId body env prompt source
    let turns ← addRow db.turns env.turnId turn
    let event : ChatEvent :=
      { conversationId
        cursor := conversation.eventCursor + 1
        turnId := some env.turnId
        createdAt := env.now
        payload := .accepted projected }
    return (
      { conversations := db.conversations.set conversationId
          { conversation with
            activeTurnId := some env.turnId
            selectedModelId := some body.modelId
            revision := conversation.revision + 1
            contextRevision := (if conversation.contextRevision = 0 then 1
              else conversation.contextRevision) + 1
            eventCursor := conversation.eventCursor + 1
            updatedAt := env.now }
        messages, turns, events := db.events ++ [event] },
      ⟨env.turnId, conversationId, some event, false⟩)

/-! ## The stream -/

inductive Kind
  | status
  | delta
  | terminal
  deriving DecidableEq

structure NativeEvent where
  kind : Kind
  state : Option TurnState := none
  text : Option String := none
  channel : Channel := .answer
  usage : Option ChatUsage := none
  safeError : Option String := none
  estimateSeconds : Option ℚ := none

/-- The model of a piece of text: the offset is where the piece *ends*. -/
def makeDelta (messageId : Uuid) (channel : Channel) (current text : String) :
    Except Refusal ChatMessageDelta :=
  if h : (1 ≤ text.length ∧ text.length ≤ 64 * 1024)
      ∧ 1 ≤ current.length + text.length
      ∧ current.length + text.length ≤ outputLimit then
    .ok ⟨messageId, channel, text, current.length + text.length, h⟩
  else .error .validation

def makeTerminal (state : TurnState) (usage : Option ChatUsage)
    (answerLength reasoningLength : ℕ) (safeError : Option String) :
    Except Refusal ChatTurnTerminal :=
  if h : state.terminal ∧ answerLength ≤ outputLimit ∧ reasoningLength ≤ outputLimit
      ∧ ∀ e ∈ safeError, e.length ≤ 500 then
    .ok ⟨state, usage, answerLength, reasoningLength, safeError, h⟩
  else .error .validation

def persistNativeEvent (turnId conversationId : Uuid) (ev : NativeEvent)
    (now : Instant) : Except Refusal (Db × ChatEvent) := do
  let conversation ← require (db.conversations.get? conversationId) .notFound
  refuse (conversation.deletedAt ≠ none) .notFound
  let turn ← require (db.turns.get? turnId) .notFound
  refuse (turn.conversationId ≠ conversationId) .notFound
  let answer ← require (db.messages.get? turn.assistantMessageId) .notFound
  refuse turn.state.terminal (.conflict "turn is already terminal")
  refuse (turn.state = .stopRequested
    ∧ (ev.kind ≠ .terminal ∨ ev.state ≠ some .stopped)) .stopRequested
  match ev.kind with
  | .status =>
    let state ← require ev.state .assertion
    refuse (state ∉ [.queued, .loading, .running]) .assertion
    refuse (∃ estimate ∈ ev.estimateSeconds, estimate < 0) .validation
    return db.log conversationId turnId conversation { turn with state }
      (.status state ev.estimateSeconds) now
  | .delta =>
    let text ← require ev.text .assertion
    refuse (text = "") .assertion
    let current := answer.saved ev.channel
    refuse (outputLimit < current.length + text.length)
      (.conflict "assistant output limit exceeded")
    let delta ← makeDelta turn.assistantMessageId ev.channel current text
    let messages :=
      db.messages.set turn.assistantMessageId (answer.append ev.channel text)
    return { db with messages }.log conversationId turnId conversation turn
      (.delta delta) now
  | .terminal =>
    let state ← require ev.state .assertion
    refuse (¬ state.terminal) .assertion
    let terminal ← makeTerminal state ev.usage answer.text.length
      answer.reasoning.length ev.safeError
    let messages :=
      db.messages.set turn.assistantMessageId { answer with usage := ev.usage }
    return { db with messages }.log conversationId turnId
      { conversation with activeTurnId := none }
      { turn with
        state
        finishedAt := some now
        ownerProcess := none
        leaseExpiresAt := none
        usage := ev.usage }
      (.terminal terminal) now

/-! ## Stops and the sweeper -/

/-- **`request_turn_stop`**: `kill` is what `request_coding_kill` answers for a turn
that is a coding run. -/
def requestTurnStop (userId conversationId turnId : Uuid) (reason : StopReason)
    (kill : Except Refusal Bool) (now : Instant) :
    Except Refusal (Db × ChatTurnRow) := do
  let conversation ← require (db.conversations.get? conversationId) .notFound
  refuse (conversation.ownerUserId ≠ userId ∨ conversation.deletedAt ≠ none) .notFound
  let turn ← require (db.turns.get? turnId) .notFound
  refuse (turn.conversationId ≠ conversationId) .notFound
  if turn.state.terminal ∨ turn.state = .stopRequested then return (db, turn)
  else
    refuse (turn.action ≠ .chat ∧ (turn.runId = none ∨ turn.codingCallId = none))
      (.conflict "coding run is not assigned")
    let stoppedBeforePlacement ← if turn.action ≠ .chat then kill else pure false
    if stoppedBeforePlacement then
      let terminal ← makeTerminal .stopped none 0 0 none
      let stopped := { turn with state := .stopped, stopReason := some reason }
      let (db', _) := db.log conversationId turnId
        { conversation with
          activeTurnId := if conversation.activeTurnId = some turnId then none
            else conversation.activeTurnId }
        stopped (.terminal terminal) now
      return (db', { stopped with updatedAt := now })
    else
      let stopping := { turn with state := .stopRequested, stopReason := some reason }
      let (db', _) := db.log conversationId turnId conversation stopping
        (.status .stopRequested none) now
      return (db', { stopping with updatedAt := now })

def renewTurnLease (process : String) (turnId : Uuid) (now : Instant) :
    Except Refusal (Db × Bool) :=
  match db.turns.get? turnId with
  | none => .ok (db, false)
  | some turn =>
    if turn.ownerProcess = some process ∧ ¬ turn.state.terminal then
      let renewed := { turn with leaseExpiresAt := some (now + leaseSeconds) }
      .ok ({ db with turns := db.turns.set turnId renewed }, true)
    else .ok (db, false)

/-- A lease that has run out, or none and no change since. -/
def ChatTurnRow.expired (turn : ChatTurnRow) (now : Instant) : Bool :=
  match turn.leaseExpiresAt with
  | some lease => lease ≤ now
  | none => turn.updatedAt ≤ now - leaseSeconds

/-- **`sweep_stale_turns`, the selection**: turns and their conversations. -/
def staleTurns (now : Instant) : List (Uuid × Uuid) :=
  let stale := db.turns.items.filter fun row =>
    row.2.action = .chat ∧ ¬ row.2.state.terminal ∧ row.2.expired now
  let ordered := stale.insertionSort fun a b =>
    a.2.updatedAt < b.2.updatedAt ∨ (a.2.updatedAt = b.2.updatedAt ∧ a.1 ≤ b.1)
  (ordered.take 100).map fun row => (row.1, row.2.conversationId)

/-- **`sweep_stale_turns`, one candidate**: looked at again, at `checkedAt`, and ended
if nothing has changed. -/
def recoverTurn (turnId conversationId : Uuid) (checkedAt terminalAt : Instant) :
    Except Refusal (Db × Bool) :=
  match db.conversations.get? conversationId, db.turns.get? turnId with
  | some conversation, some turn =>
    if turn.action ≠ .chat ∨ turn.state.terminal ∨ ¬ turn.expired checkedAt then
      .ok (db, false)
    else match db.messages.get? turn.assistantMessageId with
      | none => .ok (db, false)
      | some answer => do
        let state : TurnState :=
          if turn.state = .stopRequested then .stopped else .interrupted
        let terminal ← makeTerminal state none answer.text.length
          answer.reasoning.length
          (some (if state = .stopped then "stopped by user"
            else "connection interrupted; your partial answer was saved"))
        let (db', _) := db.log conversationId turnId
          { conversation with
            activeTurnId := if conversation.activeTurnId = some turnId then none
              else conversation.activeTurnId }
          { turn with
            state
            failureCode := some "chat_lease_expired"
            finishedAt := some terminalAt
            leaseExpiresAt := none
            ownerProcess := none }
          (.terminal terminal) terminalAt
        return (db', true)
  | _, _ => .ok (db, false)

/-! ## Conversations -/

def createConversation (id owner : Uuid) (mode : Mode) (modelId : Option Uuid)
    (eligible : Bool) (now : Instant) : Except Refusal (Db × Unit) := do
  refuse (modelId ≠ none ∧ ¬ eligible) .notFound
  let conversations ← addRow db.conversations id
    { ownerUserId := owner, mode, selectedModelId := modelId, revision := 1,
      contextRevision := 1, activeTurnId := none, eventCursor := 0, updatedAt := now,
      deletedAt := none }
  return ({ db with conversations }, ())

def stopForDeletion (conversation : ChatConversationRow) (now : Instant) :
    Except Refusal (Dict Uuid ChatTurnRow) :=
  match conversation.activeTurnId with
  | none => .ok db.turns
  | some turnId =>
    match db.turns.get? turnId with
    | none => .ok db.turns
    | some turn =>
      if turn.state.terminal then .ok db.turns
      else do
        refuse (turn.action ≠ .chat)
          (.conflict "code run deletion requires the coding kill path")
        return db.turns.set turnId
          { turn with
            state := .stopRequested
            stopReason := some .conversationDeleted
            updatedAt := now }

/-- **`delete_conversation`**: a tombstone; `withdrawn` is what the feedback's
withdrawal answers. -/
def deleteConversation (owner : Except Refusal Uuid) (conversationId : Uuid)
    (expectedRevision : ℕ) (withdrawn : Except Refusal Unit) (now : Instant) :
    Except Refusal (Db × Unit) := do
  let owner ← owner
  let conversation ← require (db.conversations.get? conversationId) .notFound
  refuse (conversation.ownerUserId ≠ owner) .notFound
  if conversation.deletedAt ≠ none then return (db, ())
  else
    refuse (conversation.revision ≠ expectedRevision)
      (.conflict "conversation changed; reload before deleting")
    let turns ← stopForDeletion db conversation now
    withdrawn
    let event : ChatEvent :=
      { conversationId
        cursor := conversation.eventCursor + 1
        turnId := none
        createdAt := now
        payload := .deleted conversationId (conversation.revision + 1) }
    return ({ db with
      conversations := db.conversations.set conversationId
        { conversation with
          deletedAt := some now
          updatedAt := now
          revision := conversation.revision + 1
          eventCursor := conversation.eventCursor + 1 }
      turns
      events := db.events ++ [event] }, ())

end Transactions

/-! ## Runs -/

structure Service where
  db : Db := {}
  candidates : List (Uuid × Uuid) := []

/-- A transaction of the service. A sweep is its selection, and later one transaction
for each candidate. -/
inductive Call
  | createConversation (id owner : Uuid) (mode : Mode) (modelId : Option Uuid)
      (eligible : Bool) (now : Instant)
  | admitTurn (conversationId : Uuid) (body : ChatTurnCreate) (env : AdmitEnv)
  | persistNativeEvent (turnId conversationId : Uuid) (ev : NativeEvent) (now : Instant)
  | requestTurnStop (userId conversationId turnId : Uuid) (reason : StopReason)
      (kill : Except Refusal Bool) (now : Instant)
  | renewTurnLease (process : String) (turnId : Uuid) (now : Instant)
  | selectStaleTurns (now : Instant)
  | recoverTurn (candidate : ℕ) (checkedAt terminalAt : Instant)
  | deleteConversation (owner : Except Refusal Uuid) (conversationId : Uuid)
      (expectedRevision : ℕ) (withdrawn : Except Refusal Unit) (now : Instant)

def Service.commit {α : Type} (s : Service) (x : Except Refusal (Db × α)) : Service :=
  { s with db := settle s.db x }

def step (H : Host) (s : Service) : Call → Service
  | .createConversation id owner mode modelId eligible now =>
    s.commit (createConversation s.db id owner mode modelId eligible now)
  | .admitTurn conversationId body env =>
    s.commit (admitTurn H s.db conversationId body env)
  | .persistNativeEvent turnId conversationId ev now =>
    s.commit (persistNativeEvent s.db turnId conversationId ev now)
  | .requestTurnStop userId conversationId turnId reason kill now =>
    s.commit (requestTurnStop s.db userId conversationId turnId reason kill now)
  | .renewTurnLease process turnId now =>
    s.commit (renewTurnLease s.db process turnId now)
  | .selectStaleTurns now =>
    { s with candidates := s.candidates ++ staleTurns s.db now }
  | .recoverTurn candidate checkedAt terminalAt =>
    match s.candidates[candidate]? with
    | none => s
    | some (turnId, conversationId) =>
      s.commit (recoverTurn s.db turnId conversationId checkedAt terminalAt)
  | .deleteConversation owner conversationId expectedRevision withdrawn now =>
    s.commit (deleteConversation s.db owner conversationId expectedRevision withdrawn now)

end Chat
