import Coire.TrainingJobs
import Coire.TrainingDeath

/-!
# Training memory is freed only on proof of death

The API's side of training attempts, over a network that loses, delays, repeats and
reorders. The API sends the requests of an attempt to the supervisors of its ranks and
reduces what they answer: `reduce_command_receipt`, `observe_training` and
`record_stop_proof`, each one transaction. A message is an entry of a history that only
grows.

The memory reservations of an attempt are released in one place, when every one of its
participants has a stop proof. A proof may come without a process – the trainer was
never spawned – so it is worth as much as the supervisor that gave it.
-/

namespace TrainingFleet

open TrainingSupervision
open TrainingJobs (TrainingJobState AttemptState)

/-- The states of a `MemoryReservationRow` of a participant. -/
inductive ReservationState
  | pending | held | released
  deriving DecidableEq

inductive CommandState
  | pending | dispatching | succeeded
  deriving DecidableEq

/-- A `TrainingParticipantRow`, with its memory reservation and the rows of its
prepare and start commands. -/
structure TrainingParticipantRow where
  node : StudioName
  rank : ℕ
  reservationId : ℕ
  commandId : ℕ
  startCommandId : ℕ
  spawnNonce : ℕ
  requestSha256 : ℕ
  process : Option ProcessIdentity
  stopProof : Option TrainingStopReceipt
  reservation : ReservationState
  prepare : Option (CommandState × Option TrainingPrepared)
  start : Option (CommandState × Option TrainingStartReceipt)
  deriving DecidableEq

structure TrainingAttemptRow where
  jobId : ℕ
  fence : ℕ
  worldSize : ℕ
  state : AttemptState
  participants : List TrainingParticipantRow
  deriving DecidableEq

structure TrainingJobRow where
  fence : ℕ
  state : TrainingJobState
  deriving DecidableEq

structure Api where
  jobs : Dict ℕ TrainingJobRow
  attempts : Dict ℕ TrainingAttemptRow

def TrainingAttemptRow.update (A : TrainingAttemptRow) (n : StudioName)
    (f : TrainingParticipantRow → TrainingParticipantRow) :
    TrainingAttemptRow :=
  { A with participants :=
      A.participants.map fun p => if p.node = n then f p else p }

namespace Api

variable (api : Api)

def saveAttempt (a : ℕ) (A : TrainingAttemptRow) : Api :=
  { api with attempts := api.attempts.modify a fun _ => A }

def setJob (j : ℕ) (x : TrainingJobState) : Api :=
  { api with jobs := api.jobs.modify j fun J => { J with state := x } }

/-- `admit_training`: an attempt for a job that has none left, its participants
on Studios of their own with pending reservations. -/
def admitTraining (a j : ℕ) (ps : List TrainingParticipantRow) : Api :=
  match api.jobs.get? j with
  | none => api
  | some J =>
    if (api.attempts.get? a).isSome
        ∨ api.attempts.values.any (fun A => A.jobId = j ∧ A.state.active)
        ∨ ¬ (ps.map (·.node)).Nodup
        ∨ ps.any (fun p => p.reservation ≠ .pending ∨ p.process ≠ none
          ∨ p.stopProof ≠ none ∨ p.prepare ≠ none ∨ p.start ≠ none) then api
    else
      { jobs := api.jobs.set j ⟨J.fence + 1, .reserving⟩
        attempts := api.attempts.set a
          ⟨j, J.fence + 1, ps.length, .preparing, ps⟩ }

def attemptStopped (j fence : ℕ) : Api :=
  match api.jobs.get? j with
  | none => api
  | some J =>
    if J.fence ≠ fence then api
    else match J.state with
      | .cancelling => api.setJob j .cancelled
      | .pausing => api.setJob j .paused
      | .succeeded | .failed | .cancelled | .finalizing => api
      | _ => api.setJob j .recovering

/-- `record_stop_proof`: `none` when it raises. The last proof stops the attempt
and releases its reservations; `timely` says that the proof was observed within
the attempt's lifetime. -/
def recordStopProof (a : ℕ) (proof : TrainingStopReceipt) (timely : Bool) :
    Option Api :=
  match api.attempts.get? a with
  | none => none
  | some A =>
    if proof.attemptId ≠ a ∨ proof.fence ≠ A.fence then none
    else match A.participants.find? (·.node = proof.node) with
      | none => none
      | some p =>
        let learn : Bool := p.process = none ∧ proof.process ≠ none
        -- an unknown process must have a start command behind it
        let matched : Bool := match p.start with
          | some (state, _) => state ∈ [.dispatching, .succeeded]
          | none => false
        if !proof.stopped then none
        else if learn && !matched then none
        else if !learn && p.process ≠ proof.process then none
        else if !timely then none
        else if A.state = .stopped then
          if p.stopProof = none then none else some api
        else
          let A := A.update proof.node fun p => { p with
            process := if learn then proof.process else p.process
            stopProof := p.stopProof.or (some proof) }
          if A.participants.length ≠ A.worldSize
              ∨ A.participants.any (·.stopProof = none) then
            some (api.saveAttempt a A)
          else
            let A := { A with
              state := .stopped
              participants := A.participants.map fun p =>
                { p with reservation := .released } }
            some ((api.saveAttempt a A).attemptStopped A.jobId A.fence)

/-- The checks that `reduce_command_receipt` makes of an attempt. -/
def live (A : TrainingAttemptRow) (fence : ℕ) : Bool :=
  match api.jobs.get? A.jobId with
  | some J => A.fence = J.fence ∧ fence = A.fence ∧ A.state.active
  | none => false

def reducePrepared (a rank : ℕ) (receipt : TrainingPrepared) : Option Api :=
  match api.attempts.get? a with
  | none => none
  | some A =>
    if !api.live A receipt.fence ∨ receipt.attemptId ≠ a
        ∨ A.participants.all (·.reservationId ≠ receipt.reservationId) then none
    else match A.participants.find? (·.rank = rank) with
      | none => none
      | some p =>
        if receipt.node ≠ p.node then none
        else match p.prepare with
          | none => none
          | some (_, some prior) => if prior ≠ receipt then none else some api
          | some (_, none) =>
            some (api.saveAttempt a (A.update p.node fun p =>
              { p with prepare := some (.succeeded, some receipt) }))

/-- `reduce_command_receipt` for a `TrainingStartReceipt`: the process is known,
its reservation is held, and with the last of them the attempt runs. -/
def reduceStarted (a rank : ℕ) (receipt : TrainingStartReceipt)
    (leased : Bool) : Option Api :=
  match api.attempts.get? a, api.attempts.get? a |>.bind
      fun A => api.jobs.get? A.jobId with
  | some A, some J =>
    if !api.live A receipt.fence ∨ receipt.attemptId ≠ a then none
    else match A.participants.find? (·.rank = rank),
        A.participants.find? (·.reservationId = receipt.reservationId) with
      | some command, some p =>
        match command.start with
        | none => none
        | some (_, some prior) => if prior ≠ receipt then none else some api
        | some (_, none) =>
          let A := A.update command.node fun q =>
            { q with start := some (.succeeded, some receipt) }
          let A := A.update p.node fun q => { q with
            process := some receipt.process, reservation := .held }
          if A.participants.all (·.process ≠ none) ∧ J.state = .reserving
              ∧ leased then
            some ((api.saveAttempt a { A with state := .running }).setJob
              A.jobId .running)
          else if J.state ∉ [.reserving, .running] ∨ !leased then
            some (api.saveAttempt a { A with state := .stopping })
          else some (api.saveAttempt a A)
      | _, _ => none
  | _, _ => none

def enqueueStop (a : ℕ) : Api :=
  match api.attempts.get? a with
  | none => api
  | some A =>
    if A.state = .stopped then api
    else api.saveAttempt a { A with state := .stopping }

def observeTraining (status : NodeTrainingStatus) (timely : Bool) :
    Option Api :=
  let a := status.attemptId
  match api.attempts.get? a, api.jobs.get? status.jobId with
  | some A, some J =>
    if A.jobId ≠ status.jobId ∨ A.fence ≠ status.fence ∨ A.fence ≠ J.fence then
      none
    else match A.participants.find? (·.node = status.node) with
      | none => none
      | some p =>
        if A.state = .stopped ∧ status.liveness ≠ .stopped then none
        else if status.process ≠ none ∧ p.process ≠ none
            ∧ p.process ≠ status.process then none
        else
          let api := api.saveAttempt a (A.update status.node fun p =>
            { p with process := status.process.or p.process })
          match status.liveness with
          | .stopped => api.recordStopProof a
              ⟨a, A.fence, status.node, status.process, true⟩ timely
          | .unknown =>
            let A := A.update status.node fun p =>
              { p with process := status.process.or p.process }
            let api := api.saveAttempt a { A with state := .unknown }
            if J.state ∈ [.cancelling, .pausing, .succeeded, .failed,
                .cancelled, .paused] then some api
            else some (api.setJob A.jobId .recovering)
          | .running =>
            if J.state ∈ [.cancelling, .recovering] then
              some (api.enqueueStop a)
            else some api
          | _ => some api
  | _, _ => none

/-- The except branch of `_observe_node`. -/
def unreachable (a : ℕ) : Api :=
  match api.attempts.get? a with
  | none => api
  | some A =>
    if !A.state.active then api
    else
      let api := api.saveAttempt a { A with state := .unknown }
      match api.jobs.get? A.jobId with
      | some J =>
        if J.state ∈ [.reserving, .running] then
          api.setJob A.jobId .recovering
        else api
      | none => api

def authorised (A : TrainingAttemptRow) : Bool :=
  match api.jobs.get? A.jobId with
  | some J => A.fence = J.fence ∧ A.state = .preparing ∧ J.state = .reserving
      ∧ A.participants.length = A.worldSize
  | none => false

def enqueuePrepare (a : ℕ) : Api :=
  match api.attempts.get? a with
  | none => api
  | some A =>
    if !api.authorised A then api
    else api.saveAttempt a { A with participants := A.participants.map fun p =>
      { p with prepare := p.prepare.or (some (.pending, none)) } }

/-- `enqueue_attempt_commands(…, "start")`: every rank must be prepared before
any rank starts. -/
def enqueueStart (a : ℕ) : Api :=
  match api.attempts.get? a with
  | none => api
  | some A =>
    if !api.authorised A ∨ A.participants.any (fun p =>
        ((p.prepare.bind Prod.snd).map (·.ready)) ≠ some true) then api
    else api.saveAttempt a { A with participants := A.participants.map fun p =>
      { p with start := p.start.or (some (.pending, none)) } }

end Api

/-! ## The fleet -/

inductive Message
  | request (r : Request)
  | reply (r : Reply)
  deriving DecidableEq

/-- **The fleet**: the API, the supervisor of each Studio, and everything that
was ever sent. -/
structure Fleet where
  api : Api
  nodes : StudioName → Supervisor
  sent : List Message

def Fleet.init : Fleet := ⟨⟨.empty, .empty⟩, Supervisor.init, []⟩

def commandOf (a : ℕ) (A : TrainingAttemptRow) (p : TrainingParticipantRow)
    (commandId : ℕ) : TrainingCommand :=
  ⟨commandId, A.jobId, a, A.fence, p.requestSha256, p.node, p.rank, A.worldSize⟩

/-- What a prepare or start command needs to be dispatched. -/
def dispatchable (api : Api) (A : TrainingAttemptRow) (leased : Bool) : Bool :=
  match api.jobs.get? A.jobId with
  | some J => A.fence = J.fence ∧ J.state ∈ [.reserving, .running, .pausing]
      ∧ leased
  | none => false

/-- `dispatch_training_command` for one rank: dispatch is made durable before
the request is sent. A row that is answered is not sent again. -/
def dispatchPrepare (s : Fleet) (a rank : ℕ) (leased : Bool) : Fleet :=
  match s.api.attempts.get? a with
  | none => s
  | some A => match A.participants.find? (·.rank = rank) with
    | none => s
    | some p => match p.prepare with
      | some (state, prior) =>
        if state = .succeeded ∨ !dispatchable s.api A leased then s
        else { s with
          api := s.api.saveAttempt a (A.update p.node fun p =>
            { p with prepare := some (.dispatching, prior) })
          sent := .request (.prepare (commandOf a A p p.commandId)
            p.reservationId) :: s.sent }
      | none => s

def dispatchStart (s : Fleet) (a rank : ℕ) (leased : Bool) : Fleet :=
  match s.api.attempts.get? a with
  | none => s
  | some A => match A.participants.find? (·.rank = rank) with
    | none => s
    | some p => match p.start with
      | some (state, prior) =>
        if state = .succeeded ∨ !dispatchable s.api A leased then s
        else { s with
          api := s.api.saveAttempt a (A.update p.node fun p =>
            { p with start := some (.dispatching, prior) })
          sent := .request (.start (commandOf a A p p.startCommandId)
            p.commandId p.spawnNonce) :: s.sent }
      | none => s

def dispatchStop (s : Fleet) (a rank commandId reason : ℕ) : Fleet :=
  match s.api.attempts.get? a with
  | none => s
  | some A => match A.participants.find? (·.rank = rank) with
    | none => s
    | some p => { s with
      sent := .request (.stop (commandOf a A p commandId) reason) :: s.sent }

def nodeStep (s : Fleet) (n : StudioName) (l : Supervisor.Label) : Fleet :=
  { s with
    nodes := Function.update s.nodes n ((s.nodes n).step l).1
    sent := ((s.nodes n).step l).2.map Message.reply ++ s.sent }

/-- The API reduces a reply; `rank` is the rank whose command it answers. -/
def reduce (api : Api) (rank : ℕ) (leased timely : Bool) : Reply → Option Api
  | .prepared receipt => api.reducePrepared receipt.attemptId rank receipt
  | .started receipt => api.reduceStarted receipt.attemptId rank receipt leased
  | .stopped receipt => api.recordStopProof receipt.attemptId receipt timely
  | .status status => api.observeTraining status timely

inductive Label
  | submit (job : ℕ)
  /-- Another transaction moves the job: control, deadlines, checkpoints. -/
  | job (job : ℕ) (state : TrainingJobState)
  | admitTraining (attempt job : ℕ) (participants : List TrainingParticipantRow)
  | enqueuePrepare (attempt : ℕ)
  | enqueueStart (attempt : ℕ)
  | enqueueStop (attempt : ℕ)
  | dispatchPrepare (attempt rank : ℕ) (leased : Bool)
  | dispatchStart (attempt rank : ℕ) (leased : Bool)
  | dispatchStop (attempt rank commandId reason : ℕ)
  | unreachable (attempt : ℕ)
  /-- The API reduces a reply, some time after it was sent. -/
  | receive (message rank : ℕ) (leased timely : Bool)
  /-- A node handles a request, some time after it was sent. -/
  | deliver (node : StudioName) (message : ℕ) (e : Supervisor.Env)
  | node (node : StudioName) (l : Supervisor.Label)

def step (s : Fleet) : Label → Fleet
  | .submit j => { s with api := { s.api with
      jobs := s.api.jobs.setDefault j ⟨0, .queued⟩ } }
  | .job j x => { s with api := s.api.setJob j x }
  | .admitTraining a j ps => { s with api := s.api.admitTraining a j ps }
  | .enqueuePrepare a => { s with api := s.api.enqueuePrepare a }
  | .enqueueStart a => { s with api := s.api.enqueueStart a }
  | .enqueueStop a => { s with api := s.api.enqueueStop a }
  | .dispatchPrepare a rank leased => dispatchPrepare s a rank leased
  | .dispatchStart a rank leased => dispatchStart s a rank leased
  | .dispatchStop a rank commandId reason =>
    dispatchStop s a rank commandId reason
  | .unreachable a => { s with api := s.api.unreachable a }
  | .receive i rank leased timely =>
    match s.sent[i]? with
    | some (.reply r) =>
      { s with api := (reduce s.api rank leased timely r).getD s.api }
    | _ => s
  | .deliver n i e =>
    match s.sent[i]? with
    | some (.request r) => nodeStep s n (.request r e)
    | _ => s
  -- a node handles no request that was not sent to it
  | .node _ (.request _ _) => s
  | .node n l => nodeStep s n l

/-! ## What the API's transactions do to an attempt -/

section Api

variable {dead : StudioName → ℕ → Prop} {api api' : Api} {a : ℕ}
  {A A' : TrainingAttemptRow}

structure AttemptOk (dead : StudioName → ℕ → Prop) (a : ℕ)
    (A : TrainingAttemptRow) : Prop where
  stopped : A.state = .stopped → ∀ p ∈ A.participants,
    p.reservation = .released ∧ p.stopProof ≠ none
  released : ∀ p ∈ A.participants, p.reservation = .released →
    A.state = .stopped
  proofs : ∀ p ∈ A.participants, p.stopProof ≠ none → dead p.node a

structure Follows (dead : StudioName → ℕ → Prop) (a : ℕ)
    (A A' : TrainingAttemptRow) : Prop where
  state : A.state = .stopped → A'.state = .stopped
  ok : AttemptOk dead a A → AttemptOk dead a A'

theorem Follows.refl (A : TrainingAttemptRow) : Follows dead a A A := ⟨id, id⟩

theorem Follows.trans {A'' : TrainingAttemptRow} (h : Follows dead a A A')
    (h' : Follows dead a A' A'') : Follows dead a A A'' :=
  ⟨fun hs => h'.state (h.state hs), fun hok => h'.ok (h.ok hok)⟩

theorem follows_of_same (hs : A'.state = A.state)
    (hp : ∀ p' ∈ A'.participants, ∃ p ∈ A.participants, p'.node = p.node
      ∧ p'.reservation = p.reservation ∧ p'.stopProof = p.stopProof) :
    Follows dead a A A' := by
  refine ⟨fun h => hs.trans h, fun hok => ⟨fun h p' hp' => ?_,
    fun p' hp' hr => ?_, fun p' hp' hr => ?_⟩⟩
  · obtain ⟨p, hmem, -, hres, hproof⟩ := hp p' hp'
    rw [hres, hproof]
    exact hok.stopped (hs.symm.trans h) p hmem
  · obtain ⟨p, hmem, -, hres, -⟩ := hp p' hp'
    rw [hs]
    exact hok.released p hmem (hres.symm.trans hr)
  · obtain ⟨p, hmem, hn, -, hproof⟩ := hp p' hp'
    rw [hn]
    exact hok.proofs p hmem (hproof ▸ hr)

theorem follows_of_live (hA : A.state ≠ .stopped) (hA' : A'.state ≠ .stopped)
    (hp : ∀ p' ∈ A'.participants, ∃ p ∈ A.participants, p'.node = p.node
      ∧ (p'.reservation = .released → p.reservation = .released)
      ∧ (p'.stopProof ≠ none → p.stopProof ≠ none ∨ dead p.node a)) :
    Follows dead a A A' := by
  refine ⟨fun h => absurd h hA, fun hok => ⟨fun h => absurd h hA',
    fun p' hp' hr => ?_, fun p' hp' hr => ?_⟩⟩
  · obtain ⟨p, hmem, -, hres, -⟩ := hp p' hp'
    exact absurd (hok.released p hmem (hres hr)) hA
  · obtain ⟨p, hmem, hn, -, hproof⟩ := hp p' hp'
    rw [hn]
    exact (hproof hr).elim (hok.proofs p hmem) id

variable {n : StudioName} {f : TrainingParticipantRow → TrainingParticipantRow}

theorem mem_update
    {p' : TrainingParticipantRow} (h : p' ∈ (A.update n f).participants) :
    ∃ p ∈ A.participants, p' = p ∨ p.node = n ∧ p' = f p := by
  obtain ⟨p, hp, rfl⟩ := List.mem_map.mp h
  refine ⟨p, hp, ?_⟩
  split
  · rename_i hn
    exact .inr ⟨hn, rfl⟩
  · exact .inl rfl

theorem follows_update
    (hf : ∀ p, (f p).node = p.node ∧ (f p).reservation = p.reservation
      ∧ (f p).stopProof = p.stopProof) : Follows dead a A (A.update n f) := by
  refine follows_of_same rfl fun p' hp' => ?_
  obtain ⟨p, hp, rfl | ⟨-, rfl⟩⟩ := mem_update hp'
  · exact ⟨p', hp, rfl, rfl, rfl⟩
  · exact ⟨p, hp, hf p⟩

/-- **What a transaction of the API does to its attempts.** -/
structure Grows (dead : StudioName → ℕ → Prop) (api api' : Api) : Prop where
  old : ∀ {a A}, api.attempts.get? a = some A →
    ∃ A', api'.attempts.get? a = some A' ∧ Follows dead a A A'
  new : ∀ {a A'}, api'.attempts.get? a = some A' →
    (∃ A, api.attempts.get? a = some A) ∨ AttemptOk dead a A'

theorem grows_of_attempts (h : api'.attempts = api.attempts) : Grows dead api api' :=
  ⟨fun hA => ⟨_, h ▸ hA, .refl _⟩, fun hA => .inl ⟨_, h ▸ hA⟩⟩

theorem Grows.refl (api : Api) : Grows dead api api := grows_of_attempts rfl

theorem Grows.trans {api'' : Api} (h : Grows dead api api')
    (h' : Grows dead api' api'') : Grows dead api api'' := by
  refine ⟨fun hA => ?_, fun hA'' => ?_⟩
  · obtain ⟨A', hA', hf⟩ := h.old hA
    obtain ⟨A'', hA'', hf'⟩ := h'.old hA'
    exact ⟨A'', hA'', hf.trans hf'⟩
  · rcases h'.new hA'' with ⟨A', hA'⟩ | hok
    · rcases h.new hA' with hA | hok
      · exact .inl hA
      · obtain ⟨B, hB, hf⟩ := h'.old hA'
        cases hB.symm.trans hA''
        exact .inr (hf.ok hok)
    · exact .inr hok

theorem grows_setJob (j : ℕ) (x : TrainingJobState) :
    Grows dead api (api.setJob j x) := grows_of_attempts rfl

theorem grows_attemptStopped (j fence : ℕ) :
    Grows dead api (api.attemptStopped j fence) := by
  refine grows_of_attempts ?_
  unfold Api.attemptStopped
  split
  · rfl
  · split_ifs
    · rfl
    · split <;> rfl

theorem grows_saveAttempt (hA : api.attempts.get? a = some A)
    (h : Follows dead a A A') : Grows dead api (api.saveAttempt a A') := by
  refine ⟨fun {b B} hB => ?_, fun {b B} hB => ?_⟩
  · show ∃ B', (api.attempts.modify a _).get? b = some B' ∧ _
    rw [Dict.get?_modify]
    split
    · grind
    · exact ⟨B, hB, .refl B⟩
  · have hB : (api.attempts.modify a _).get? b = some B := hB
    rw [Dict.get?_modify] at hB
    split at hB
    · rename_i hb
      exact .inl ⟨A, hb ▸ hA⟩
    · exact .inl ⟨B, hB⟩

theorem saveAttempt_get (hA : api.attempts.get? a = some A) :
    (api.saveAttempt a A').attempts.get? a = some A' :=
  Dict.get?_modify_self hA

theorem grows_admitTraining (j : ℕ) (ps : List TrainingParticipantRow) :
    Grows dead api (api.admitTraining a j ps) := by
  unfold Api.admitTraining
  split
  · exact .refl api
  split
  · exact .refl api
  rename_i h
  simp only [not_or, Bool.not_eq_true, Option.isSome_eq_false_iff,
    Option.isNone_iff_eq_none, List.any_eq_false] at h
  obtain ⟨hnew, -, -, hps⟩ := h
  refine ⟨fun hA => ⟨_, Dict.get?_set_of_none hnew hA, .refl _⟩, fun hA => ?_⟩
  obtain ⟨-, rfl⟩ | ⟨-, hold⟩ := Dict.get?_set_eq_some.mp hA
  · refine .inr ⟨nofun, fun p hp hr => ?_, fun p hp hr => ?_⟩
    · grind
    · grind
  · exact .inl ⟨_, hold⟩

theorem follows_stopProof {proof : TrainingStopReceipt}
    {f : TrainingParticipantRow → Option ProcessIdentity}
    (hA : A.state ≠ .stopped) (hdead : dead n a) :
    Follows dead a A (A.update n fun p => { p with
      process := f p, stopProof := p.stopProof.or (some proof) }) := by
  refine follows_of_live hA hA fun p' hp' => ?_
  obtain ⟨p, hp, rfl | ⟨rfl, rfl⟩⟩ := mem_update hp'
  · exact ⟨p', hp, rfl, id, .inl⟩
  · exact ⟨p, hp, rfl, id, fun _ => .inr hdead⟩

theorem follows_release (hA : ¬ A.participants.any (·.stopProof = none)) :
    Follows dead a A { A with
      state := .stopped
      participants := A.participants.map fun p =>
        { p with reservation := .released } } := by
  have hproved : ∀ p ∈ A.participants, p.stopProof ≠ none := by
    simpa using hA
  refine ⟨fun _ => rfl, fun hok => ⟨fun _ p' hp' => ?_, fun _ _ _ => rfl,
    fun p' hp' hr => ?_⟩⟩
  all_goals obtain ⟨p, hp, rfl⟩ := List.mem_map.mp hp'
  · exact ⟨rfl, hproved p hp⟩
  · exact hok.proofs p hp hr

theorem grows_recordStopProof {proof : TrainingStopReceipt} {timely : Bool}
    (hproof : proof.stopped = true → dead proof.node proof.attemptId)
    (h : api.recordStopProof a proof timely = some api') :
    Grows dead api api' := by
  unfold Api.recordStopProof at h
  split at h
  · cases h
  rename_i A hA
  split at h
  · cases h
  rename_i hid
  rw [not_or, not_not, not_not] at hid
  split at h
  · cases h
  extract_lets learn matched A₁ A₂ at h
  split_ifs at h with hstopped _ _ _ hA' hp' hlast
  · cases h
    exact .refl api
  all_goals
    rw [Bool.not_eq_true', Bool.not_eq_false] at hstopped
    have hnoted : Follows dead a A A₁ :=
      follows_stopProof hA' (hid.1 ▸ hproof hstopped)
    cases h
  · exact grows_saveAttempt hA hnoted
  · have hall : Follows dead a A₁ A₂ := follows_release fun h => hlast (.inr h)
    exact (grows_saveAttempt hA (hnoted.trans hall)).trans (grows_attemptStopped _ _)

theorem ne_stopped_of_live {fence : ℕ} (h : ¬ (!api.live A fence) = true) :
    A.state ≠ .stopped := by
  intro hs
  refine h ?_
  unfold Api.live
  split
  · simp [hs, AttemptState.active]
  · rfl

theorem grows_reducePrepared {rank : ℕ} {receipt : TrainingPrepared}
    (h : api.reducePrepared a rank receipt = some api') :
    Grows dead api api' := by
  unfold Api.reducePrepared at h
  split at h
  · cases h
  rename_i A hA
  split at h
  · cases h
  split at h
  · cases h
  split at h
  · cases h
  split at h
  · cases h
  · split_ifs at h
    cases h
    exact .refl api
  · cases h
    exact grows_saveAttempt hA (follows_update fun _ => ⟨rfl, rfl, rfl⟩)

theorem follows_started {m : StudioName} {x : AttemptState}
    {r : Option (CommandState × Option TrainingStartReceipt)}
    {i : Option ProcessIdentity} (hA : A.state ≠ .stopped) (hx : x ≠ .stopped) :
    Follows dead a A { (A.update n fun q => { q with start := r }).update m
      fun q => { q with process := i, reservation := .held } with
      state := x } := by
  refine follows_of_live hA hx fun p'' hp'' => ?_
  obtain ⟨p', hp', h''⟩ := mem_update hp''
  obtain ⟨p, hp, h'⟩ := mem_update hp'
  refine ⟨p, hp, ?_⟩
  rcases h'' with rfl | ⟨-, rfl⟩ <;> rcases h' with rfl | ⟨-, rfl⟩
  · exact ⟨rfl, id, .inl⟩
  · exact ⟨rfl, id, .inl⟩
  · exact ⟨rfl, nofun, .inl⟩
  · exact ⟨rfl, nofun, .inl⟩

theorem grows_reduceStarted {rank : ℕ} {receipt : TrainingStartReceipt}
    {leased : Bool} (h : api.reduceStarted a rank receipt leased = some api') :
    Grows dead api api' := by
  unfold Api.reduceStarted at h
  split at h
  · rename_i A J hA _
    split at h
    · cases h
    rename_i hlive
    have hns := ne_stopped_of_live fun hl => hlive (.inl hl)
    split at h
    · split at h
      · cases h
      · split_ifs at h
        cases h
        exact .refl api
      · extract_lets A₁ A₂ at h
        split_ifs at h
        all_goals cases h
        · exact (grows_saveAttempt hA
            (follows_started (x := .running) hns nofun)).trans (grows_setJob _ _)
        · exact grows_saveAttempt hA (follows_started (x := .stopping) hns nofun)
        · exact grows_saveAttempt hA (follows_started (x := A.state) hns hns)
    · cases h
  · cases h

theorem follows_state {x : AttemptState} (hA : A.state ≠ .stopped)
    (hx : x ≠ .stopped) : Follows dead a A { A with state := x } :=
  follows_of_live hA hx fun p hp => ⟨p, hp, rfl, id, .inl⟩

theorem grows_enqueueStop : Grows dead api (api.enqueueStop a) := by
  unfold Api.enqueueStop
  split
  · exact .refl api
  rename_i A hA
  split
  · exact .refl api
  · exact grows_saveAttempt hA (follows_state ‹_› nofun)

theorem grows_unreachable : Grows dead api (api.unreachable a) := by
  unfold Api.unreachable
  split
  · exact .refl api
  rename_i A hA
  split
  · exact .refl api
  rename_i hactive
  have hns : A.state ≠ .stopped := by
    intro hs
    simp [hs, AttemptState.active] at hactive
  have hsave : Grows dead api (api.saveAttempt a { A with state := .unknown }) :=
    grows_saveAttempt hA (follows_state hns nofun)
  extract_lets api₁
  split
  · split_ifs
    · exact hsave.trans (grows_setJob _ _)
    · exact hsave
  · exact hsave

theorem follows_map (hf : ∀ p, (f p).node = p.node ∧ (f p).reservation = p.reservation
      ∧ (f p).stopProof = p.stopProof) :
    Follows dead a A { A with participants := A.participants.map f } := by
  grind [follows_of_same]

theorem grows_enqueuePrepare : Grows dead api (api.enqueuePrepare a) := by
  unfold Api.enqueuePrepare
  split
  · exact .refl api
  rename_i A hA
  split
  · exact .refl api
  · exact grows_saveAttempt hA (follows_map fun _ => ⟨rfl, rfl, rfl⟩)

theorem grows_enqueueStart : Grows dead api (api.enqueueStart a) := by
  unfold Api.enqueueStart
  split
  · exact .refl api
  rename_i A hA
  split
  · exact .refl api
  · exact grows_saveAttempt hA (follows_map fun _ => ⟨rfl, rfl, rfl⟩)

theorem grows_observeTraining {status : NodeTrainingStatus} {timely : Bool}
    (hproof : status.liveness = .stopped → dead status.node status.attemptId)
    (h : api.observeTraining status timely = some api') :
    Grows dead api api' := by
  unfold Api.observeTraining at h
  extract_lets a at h
  split at h
  · rename_i A J hA _
    split at h
    · cases h
    split at h
    · cases h
    split at h
    · cases h
    rename_i hstopped
    split at h
    · cases h
    extract_lets api₁ A₁ api₂ at h
    have hnoted : Follows dead a A A₁ := follows_update fun _ => ⟨rfl, rfl, rfl⟩
    have hsave : Grows dead api api₁ := grows_saveAttempt hA hnoted
    split at h
    · rename_i hl
      exact hsave.trans (grows_recordStopProof (fun _ => hproof hl) h)
    · rename_i hl
      have hns : A.state ≠ .stopped := fun hs =>
        hstopped ⟨hs, by rw [hl]; exact nofun⟩
      have hsave₂ : Grows dead api api₂ := hsave.trans
        (grows_saveAttempt (saveAttempt_get hA) (follows_state hns nofun))
      split_ifs at h
      all_goals rw [← Option.some.inj h]
      · exact hsave₂
      · exact hsave₂.trans (grows_setJob _ _)
    · split_ifs at h
      all_goals rw [← Option.some.inj h]
      · exact hsave.trans grows_enqueueStop
      · exact hsave
    · rw [← Option.some.inj h]
      exact hsave
  · cases h

end Api

/-! ## What holds of the fleet -/

section Fleet

variable {s : Fleet}

def Fleet.Dead (s : Fleet) (n : StudioName) (a : ℕ) : Prop :=
  ((s.nodes n).view a).Dead

structure Fleet.Ok (s : Fleet) : Prop where
  nodes : ∀ n, (s.nodes n).Good ∧ (s.nodes n).node = n
  sent : ∀ r, .reply r ∈ s.sent → ∀ n a, r.proof = some (n, a) → s.Dead n a
  attempts : ∀ a A, s.api.attempts.get? a = some A → AttemptOk s.Dead a A

/-- What a step of the fleet keeps: the dead stay dead and the stopped stay
stopped. -/
structure Fleet.Goes (s t : Fleet) : Prop where
  ok : t.Ok
  dead : ∀ n a, s.Dead n a → t.Dead n a
  stopped : ∀ a A, s.api.attempts.get? a = some A → A.state = .stopped →
    ∃ B, t.api.attempts.get? a = some B ∧ B.state = .stopped

theorem Fleet.Ok.refl (hs : s.Ok) : s.Goes s :=
  ⟨hs, fun _ _ => id, fun _ A hA hx => ⟨A, hA, hx⟩⟩

theorem Fleet.ok_init : Fleet.init.Ok where
  nodes n := ⟨Supervisor.good_init n, rfl⟩
  sent _ h := absurd h List.not_mem_nil
  attempts _ _ h := nomatch h

theorem Fleet.Ok.transact (hs : s.Ok) {api : Api} {sent : List Message}
    (hapi : Grows s.Dead s.api api)
    (hsent : ∀ r, .reply r ∈ sent → .reply r ∈ s.sent) :
    s.Goes ⟨api, s.nodes, sent⟩ := by
  refine ⟨⟨hs.nodes, fun r hr => hs.sent r (hsent r hr), fun a B hB => ?_⟩,
    fun _ _ => id, fun a A hA hx => ?_⟩
  · rcases hapi.new hB with ⟨A, hA⟩ | hok
    · obtain ⟨B', hB', hf⟩ := hapi.old hA
      cases hB'.symm.trans hB
      exact hf.ok (hs.attempts a A hA)
    · exact hok
  · obtain ⟨B, hB, hf⟩ := hapi.old hA
    exact ⟨B, hB, hf.state hx⟩

theorem AttemptOk.mono {dead dead' : StudioName → ℕ → Prop} {a : ℕ}
    {A : TrainingAttemptRow} (h : AttemptOk dead a A)
    (hd : ∀ n a, dead n a → dead' n a) : AttemptOk dead' a A :=
  ⟨h.stopped, h.released, fun p hp hr => hd _ _ (h.proofs p hp hr)⟩

theorem Fleet.Ok.nodeStep (hs : s.Ok) (n : StudioName) (l : Supervisor.Label) :
    s.Goes (nodeStep s n l) := by
  have hsound := (hs.nodes n).1.sound_step l
  have hdead : ∀ m a, s.Dead m a → (TrainingFleet.nodeStep s n l).Dead m a := by
    intro m a hd
    show ((Function.update s.nodes n _ m).view a).Dead
    by_cases hm : m = n
    · subst hm
      rw [Function.update_self]
      exact hsound.dead hd
    · rw [Function.update_of_ne hm]
      exact hd
  refine ⟨⟨fun m => ?_, fun r hr m a hp => ?_, fun a A hA =>
    (hs.attempts a A hA).mono hdead⟩, hdead, fun a A hA hx => ⟨A, hA, hx⟩⟩
  · show (Function.update s.nodes n _ m).Good ∧ (Function.update s.nodes n _ m).node = m
    by_cases hm : m = n
    · subst hm
      rw [Function.update_self]
      exact ⟨hsound.good, hsound.node.trans (hs.nodes m).2⟩
    · grind [cases Fleet.Ok]
  · rcases List.mem_append.mp hr with hnew | hold
    · obtain ⟨r', hr', he⟩ := List.mem_map.mp hnew
      cases he
      obtain ⟨rfl, hd⟩ := hsound.replies hr' hp
      show ((Function.update s.nodes n _ (s.nodes n).node).view a).Dead
      rw [(hs.nodes n).2, Function.update_self]
      exact hd
    · exact hdead m a (hs.sent r hold m a hp)

theorem grows_reduce {dead : StudioName → ℕ → Prop} {api api' : Api} {r : Reply}
    {rank : ℕ} {leased timely : Bool}
    (hr : ∀ n a, r.proof = some (n, a) → dead n a)
    (h : reduce api rank leased timely r = some api') : Grows dead api api' := by
  cases r with
  | prepared receipt => exact grows_reducePrepared h
  | started receipt => exact grows_reduceStarted h
  | stopped receipt =>
    refine grows_recordStopProof (fun hp => hr _ _ ?_) h
    exact Reply.proof_stopped.mpr ⟨hp, rfl, rfl⟩
  | status status =>
    refine grows_observeTraining (fun hl => hr _ _ ?_) h
    exact Reply.proof_status.mpr ⟨hl, rfl, rfl⟩

theorem reply_mem_of_request {r : Reply} {q : Request} {sent : List Message}
    (h : .reply r ∈ .request q :: sent) : .reply r ∈ sent := by
  rcases List.mem_cons.mp h with he | h
  · cases he
  · exact h

theorem Fleet.Ok.dispatchPrepare (hs : s.Ok) (a rank : ℕ) (leased : Bool) :
    s.Goes (dispatchPrepare s a rank leased) := by
  unfold TrainingFleet.dispatchPrepare
  split
  · exact hs.refl
  rename_i A hA
  split
  · exact hs.refl
  split
  · split
    · exact hs.refl
    · refine hs.transact ?_ fun _ => reply_mem_of_request
      exact grows_saveAttempt hA (follows_update fun _ => ⟨rfl, rfl, rfl⟩)
  · exact hs.refl

theorem Fleet.Ok.dispatchStart (hs : s.Ok) (a rank : ℕ) (leased : Bool) :
    s.Goes (dispatchStart s a rank leased) := by
  unfold TrainingFleet.dispatchStart
  split
  · exact hs.refl
  rename_i A hA
  split
  · exact hs.refl
  split
  · split
    · exact hs.refl
    · refine hs.transact ?_ fun _ => reply_mem_of_request
      exact grows_saveAttempt hA (follows_update fun _ => ⟨rfl, rfl, rfl⟩)
  · exact hs.refl

theorem Fleet.Ok.dispatchStop (hs : s.Ok) (a rank commandId reason : ℕ) :
    s.Goes (dispatchStop s a rank commandId reason) := by
  unfold TrainingFleet.dispatchStop
  split
  · exact hs.refl
  · split
    · exact hs.refl
    · exact hs.transact (.refl _) fun _ => reply_mem_of_request

theorem Fleet.Ok.step (hs : s.Ok) (l : Label) : s.Goes (step s l) := by
  cases l with
  | submit j => exact hs.transact (grows_of_attempts rfl) fun _ => id
  | job j x => exact hs.transact (grows_setJob j x) fun _ => id
  | admitTraining a j ps =>
    exact hs.transact (grows_admitTraining j ps) fun _ => id
  | enqueuePrepare a => exact hs.transact grows_enqueuePrepare fun _ => id
  | enqueueStart a => exact hs.transact grows_enqueueStart fun _ => id
  | enqueueStop a => exact hs.transact grows_enqueueStop fun _ => id
  | dispatchPrepare a rank leased => exact hs.dispatchPrepare a rank leased
  | dispatchStart a rank leased => exact hs.dispatchStart a rank leased
  | dispatchStop a rank commandId reason =>
    exact hs.dispatchStop a rank commandId reason
  | unreachable a => exact hs.transact grows_unreachable fun _ => id
  | receive i rank leased timely =>
    show s.Goes (match s.sent[i]? with | some (.reply r) => _ | _ => s)
    split
    · rename_i r hr
      refine hs.transact ?_ fun _ => id
      cases h : reduce s.api rank leased timely r with
      | none => exact .refl _
      | some api =>
        exact grows_reduce (hs.sent r (List.mem_of_getElem? hr)) h
    · exact hs.refl
  | deliver n i e =>
    show s.Goes (match s.sent[i]? with | some (.request r) => _ | _ => s)
    split
    · exact hs.nodeStep n _
    · exact hs.refl
  | node n l =>
    cases l with
    | request => exact hs.refl
    | _ => exact hs.nodeStep n _

theorem Fleet.Ok.run (hs : s.Ok) (as : List Label) :
    s.Goes (Run.last TrainingFleet.step s as) := by
  induction as generalizing s with
  | nil => exact hs.refl
  | cons l as ih =>
    have hl := hs.step l
    have has := ih hl.ok
    refine ⟨has.ok, fun n a hd => has.dead n a (hl.dead n a hd), fun a A hA hx => ?_⟩
    obtain ⟨B, hB, hy⟩ := hl.stopped a A hA hx
    exact has.stopped a B hB hy

end Fleet

/-- **Training memory is freed only on proof of death.** -/
theorem released_training_stays_dead (as bs : List Label) {a : ℕ}
    {A : TrainingAttemptRow} {p : TrainingParticipantRow}
    (hA : (Run.last step Fleet.init as).api.attempts.get? a = some A)
    (hp : p ∈ A.participants) (hr : p.reservation = .released) :
    let t := Run.last step (Run.last step Fleet.init as) bs
    (∃ B, t.api.attempts.get? a = some B ∧ B.state = .stopped
      ∧ ∀ q ∈ B.participants, q.reservation = .released)
    ∧ ∀ q ∈ A.participants, ∀ w ∈ (t.nodes q.node).workers,
        w.attemptId = a → w.alive = false := by
  intro t
  have hs := (Fleet.ok_init.run as).ok
  have hgoes := hs.run bs
  have hok := hs.attempts a A hA
  have hstopped := hok.released p hp hr
  constructor
  · obtain ⟨B, hB, hx⟩ := hgoes.stopped a A hA hstopped
    refine ⟨B, hB, hx, fun q hq => ?_⟩
    exact ((hgoes.ok.attempts a B hB).stopped hx q hq).1
  · intro q hq w hw ha
    have hproof := (hok.stopped hstopped q hq).2
    have hdead := hgoes.dead _ _ (hok.proofs q hq hproof)
    exact hdead.1 w (List.mem_filter.mpr ⟨hw, decide_eq_true ha⟩)

/-- One rank's attempt is prepared, started and stopped. -/
def trainedAndStopped : List Label :=
  let n := StudioName.edgeA
  [.submit 0, .admitTraining 0 0
      [⟨n, 0, 0, 1, 2, 3, 0, none, none, .pending, none, none⟩],
    .enqueuePrepare 0, .dispatchPrepare 0 0 true, .deliver n 0 {},
    .node n (.prepared 0 true), .receive 0 0 true true,
    .enqueueStart 0, .dispatchStart 0 0 true, .deliver n 0 {},
    .node n (.proceed { spawned := some ⟨7, 0⟩ }), .node n (.proceed {}),
    .receive 0 0 true true, .enqueueStop 0, .dispatchStop 0 0 4 0,
    .deliver n 0 {}, .node n (.proceed {}),
    .node n (.proceed { seen := .stopped }), .node n (.proceed {}),
    .receive 0 0 true true]

/-- The start request, its receipt and the preparation arrive once more. -/
def lateMessages : List Label :=
  let n := StudioName.edgeA
  [.receive 2 0 true true, .deliver n 3 {}, .deliver n 5 {}, .node n .crash,
    .node n (.proceed { spawned := some ⟨8, 0⟩ })]

def stoppedAttempt : TrainingAttemptRow :=
  ⟨0, 1, 1, .stopped, [⟨.edgeA, 0, 0, 1, 2, 3, 0, some ⟨7, 0⟩,
    some ⟨0, 1, .edgeA, some ⟨7, 0⟩, true⟩, .released,
    some (.succeeded, some ⟨0, 1, .edgeA, 0, true⟩),
    some (.succeeded, some ⟨0, 1, ⟨7, 0⟩, 0⟩)⟩]⟩

theorem trained_and_stopped_stays_dead :
    let t := Run.last step (Run.last step Fleet.init trainedAndStopped) lateMessages
    (∃ B, t.api.attempts.get? 0 = some B ∧ B.state = .stopped
      ∧ ∀ q ∈ B.participants, q.reservation = .released)
    ∧ ∀ q ∈ stoppedAttempt.participants, ∀ w ∈ (t.nodes q.node).workers,
        w.attemptId = 0 → w.alive = false :=
  released_training_stays_dead trainedAndStopped lateMessages
    (show _ = some stoppedAttempt by decide +kernel)
    (List.mem_singleton.mpr rfl) rfl

/-- **An attempt is spawned at most once on a node**, whatever is lost, delayed or
repeated and wherever the agents crash. What its journal and its birth file name is
this trainer, and an attempt that was rejected has none. -/
theorem attempt_spawned_once (as : List Label) (n : StudioName) (a : ℕ) :
    let s := (Run.last step Fleet.init as).nodes n
    let trainers := s.workers.filter fun w => w.attemptId = a
    trainers.length ≤ 1
    ∧ (∀ i, s.births.get? a = some i ∨ (s.records.get? a).bind (·.process) = some i →
      ∃ w ∈ trainers, w.identity = i)
    ∧ ((s.rejections.get? a).isSome → trainers = [] ∧ s.records.get? a = none) := by
  intro s trainers
  have hok := ((Fleet.ok_init.run as).ok.nodes n).1.ok a
  refine ⟨hok.single, ?_, fun hrejected => ?_⟩
  · rintro i (hborn | hknown)
    · exact hok.born hborn
    · obtain ⟨x, hx, hi⟩ := Option.bind_eq_some_iff.mp hknown
      exact hok.known hx hi
  · have hnone := hok.rejected hrejected
    exact ⟨(hok.blank hnone).1, hnone⟩

end TrainingFleet
