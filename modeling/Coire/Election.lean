import Coire.Dict
import Coire.FailoverModels

/-!
# One member's view of the election

Core is first in the promotion order, then the two Studios. A member campaigns
only when every member before it has been unreachable for the promotion
threshold and it can see a majority, unless an authentic break-glass override
is current. Whoever is elected keeps serving until a member before it has been
healthy for the longer demotion threshold, and then drains.

An `ElectionParticipant` is what the constructor fixes, an `ElectionState` is
what its methods change. A method that returns a value returns it beside the
new state. The Studio's subclass is here too: it refuses to vote or campaign
before `restartFenceUntil`, and its listener writes the lease file.
-/

inductive MemberHealth
  | healthy
  | degraded
  | unreachable
  deriving DecidableEq

inductive ServiceRole
  | standby
  | candidate
  | elected
  | draining
  deriving DecidableEq

structure MemberObservation where
  name : Member
  health : MemberHealth
  since : ℤ
  deriving DecidableEq

structure ElectionTimings where
  promotion : ℤ
  demotion : ℤ
  lease : ℤ
  drain : ℤ
  /-- What the constructor of a participant checks. -/
  demotion_slower : promotion < demotion

inductive FailoverEventKind
  | promoted
  | draining
  | fenced
  | handback
  | breakGlass
  deriving DecidableEq

/-- A journal entry. The source stores a digest of the proof; here the proof
it digests stands for it. -/
structure FailoverEvent (Sig : Type) where
  term : ℕ
  kind : FailoverEventKind
  host : Member
  occurredAt : ℤ
  proof : Option (PromotionProof Sig)
  deriving DecidableEq

/-- **A participant**: what its constructor fixes. -/
structure ElectionParticipant (Sig : Type) where
  name : Member
  membership : FailoverMembershipConfig
  privateKey : String
  timings : ElectionTimings
  crypto : Ed25519 Sig
  /-- A restarted Studio neither votes nor campaigns before this moment;
  `none` for a member that has no such fence. -/
  restartFenceUntil : Option ℤ
  /-- The `on_change` listener is `StudioParticipant.publish_lease`. -/
  publishesLease : Bool

structure ElectionState (Sig : Type) where
  role : ServiceRole
  term : ℕ
  proof : Option (PromotionProof Sig)
  inFlight : ℕ
  observations : List MemberObservation
  override : Option (FailoverOverride Sig)
  /-- Votes for this member, by term and voter, its own included. -/
  received : Dict (ℕ × Member) (ElectionVoteGrant Sig)
  /-- Votes this member gave to others, by term. -/
  issued : Dict ℕ (ElectionVoteGrant Sig)
  closed : Bool
  outage : Bool
  reclaimSince : Option ℤ
  drainStarted : Option ℤ
  now : ℤ
  /-- The role and proof the listener was last told of. -/
  published : Option (ServiceRole × Option (PromotionProof Sig))
  leaseFile : Option (FailoverLease Sig)
  journal : List (FailoverEvent Sig)

/-- A third of a duration, rounded to the microsecond as `timedelta / 3`
is. -/
def third (d : ℤ) : ℤ :=
  if 3 < 2 * (d % 3) then d / 3 + 1 else d / 3

namespace ElectionParticipant

variable {Sig : Type} [DecidableEq Sig]

/-- The state the constructor leaves, at the moment `start`. Core's starts
with an outage behind it. -/
def init (start : ℤ) (outage : Bool) : ElectionState Sig where
  role := .standby
  term := 1
  proof := none
  inFlight := 0
  observations := []
  override := none
  received := Dict.empty
  issued := Dict.empty
  closed := false
  outage := outage
  reclaimSince := none
  drainStarted := none
  now := start
  published := none
  leaseFile := none
  journal := []

variable (c : ElectionParticipant Sig) (s : ElectionState Sig)

/-! ## What the member observes -/

def observed (name : Member) : Option MemberObservation :=
  s.observations.find? (fun o => o.name = name)

def overrideIsAuthentic (o : FailoverOverride Sig) : Bool :=
  c.crypto.verify (.override o.toOverrideBody) o.signature
    (c.membership.publicKey .core)

def inhibitApplies (now : ℤ) : Bool :=
  decide (c.name ≠ .core)
    && s.override.any (fun o =>
      decide (o.kind = .inhibit) && o.isCurrent now)

def breakGlassOk (now : ℤ) : Bool :=
  s.override.any (fun o =>
    decide (o.kind = .breakGlassPromote) && o.isCurrent now)

def visible : Finset Member :=
  insert c.name (((c.membership.members.map FailoverMember.name).filter
    (fun n => decide (n ≠ c.name) && (observed s n).any
      (fun o => decide (o.health ≠ .unreachable)))).toFinset)

def quorum : Bool := decide (2 ≤ (c.visible s).card)

def lowerVisible : Bool :=
  c.membership.members.any (fun m =>
    decide (c.membership.priority c.name < m.priority)
      && decide (m.name ∈ c.visible s))

/-- `_higher_recovered`: a member before this one has been healthy for the
demotion threshold. -/
def higherRecovered (now : ℤ) : Bool :=
  c.membership.members.any (fun m =>
    decide (m.priority < c.membership.priority c.name)
      && (observed s m.name).any (fun o =>
        decide (o.health = .healthy)
          && decide (c.timings.demotion ≤ now - o.since)))

/-- What a member before this one means for its own turn. -/
inductive HigherStatus
  | wait
  | down
  | leader
  deriving DecidableEq

def higherStatus (name : Member) (now : ℤ) : HigherStatus :=
  match observed s name with
  | none => .wait
  | some o =>
    if o.health = .unreachable then
      if c.timings.promotion ≤ now - o.since then .down else .wait
    else .leader

def eligibleAmong (now : ℤ) : List FailoverMember → Option Member
  | [] => none
  | m :: ms =>
    if m.name = c.name then
      if c.inhibitApplies s now then none else some c.name
    else
      match c.higherStatus s m.name now with
      | .down => eligibleAmong now ms
      | .wait => none
      | .leader => some m.name

/-- `eligible_leader`: the first member not confirmed unreachable past the
threshold. -/
def eligibleLeader (now : ℤ) : Option Member :=
  c.eligibleAmong s now c.membership.byPriority

def fenced (now : ℤ) : Bool :=
  c.restartFenceUntil.any (fun t => decide (now < t))

/-! ## Leases -/

def signGrant (term : ℕ) (candidate : Member) (expiresAt : ℤ) :
    ElectionVoteGrant Sig :=
  let body : VoteGrantBody :=
    ⟨c.membership.epoch, term, candidate, c.name, expiresAt⟩
  ⟨body, c.crypto.sign (.voteGrant body) c.privateKey⟩

def proofOk (now : ℤ) : Bool :=
  s.proof.any (fun p =>
    p.isCurrent now && p.isValidFor c.crypto c.membership now)

/-- **`serving`**: true only for the current elected lease. -/
def serving (now : ℤ) : Bool :=
  decide (s.role = .elected)
    && ((breakGlassOk s now && s.proof.isNone) || c.proofOk s now)

/-- **`lease`**: the proof if there is one, else the break-glass override,
else nothing. -/
def lease : Option (FailoverLease Sig) :=
  if s.role = .elected then
    match s.proof with
    | some p => some ⟨c.name, some p, none⟩
    | none =>
      match s.override with
      | some o =>
        if o.kind = .breakGlassPromote then some ⟨c.name, none, some o⟩
        else none
      | none => none
  else none

/-- `_received`'s vote of one voter, if it can enter a proof at `now`. -/
def usableGrant (now : ℤ) (voter : Member) :
    Option (ElectionVoteGrant Sig) :=
  (s.received.get? (s.term, voter)).filter (fun g =>
    decide (g.candidate = c.name) && g.isCurrent now
      && c.crypto.verify (.voteGrant g.toVoteGrantBody) g.signature
        (c.membership.publicKey voter))

/-- `_try_proof`: the member's own vote and that of the first other voter, in
the order of their names. -/
def tryProof (now : ℤ) : Option (PromotionProof Sig) :=
  match c.usableGrant s now c.name with
  | none => none
  | some own =>
    match ([Member.core, .edgeA, .edgeB].filter (· ≠ c.name)).findSome?
        (c.usableGrant s now) with
    | none => none
    | some other =>
      match PromotionProof.build? c.membership.epoch s.term c.name
          [own, other] with
      | none => none
      | some p =>
        if p.isValidFor c.crypto c.membership now then some p else none

/-- A vote this member gave to somebody else is still current. -/
def backsOther (now : ℤ) (candidate : Member) : Bool :=
  s.issued.values.any (fun g =>
    decide (g.candidate ≠ candidate) && g.isCurrent now)

/-- `_ensure_self_grant`: vote for itself, unless a vote for somebody else is
current or its own is fresh. -/
def ensureSelfGrant (now : ℤ) : ElectionState Sig :=
  if backsOther s now c.name then s
  else if (s.received.get? (s.term, c.name)).any (fun g =>
      g.isCurrent now && decide (g.candidate = c.name)
        && decide (third c.timings.lease < g.expiresAt - now)) then s
  else
    { s with
      received := s.received.set (s.term, c.name)
        (c.signGrant s.term c.name (now + c.timings.lease)) }

/-! ## Transitions -/

def record (kind : FailoverEventKind) (proof : Option (PromotionProof Sig)) :
    ElectionState Sig :=
  { s with journal := s.journal ++ [⟨s.term, kind, c.name, s.now, proof⟩] }

/-- `_emit`: tell the listener, if the role or the proof changed. -/
def emit : ElectionState Sig :=
  if s.published = some (s.role, s.proof) then s
  else
    { s with
      published := some (s.role, s.proof)
      leaseFile := if c.publishesLease then c.lease s else s.leaseFile }

def fence (outage : Bool) : ElectionState Sig :=
  let s' : ElectionState Sig := { s with
    role := .standby
    proof := none
    closed := true
    outage := s.outage || outage }
  if s.role = .elected ∨ s.role = .draining then
    c.record s' .fenced s.proof
  else s'

def beginDrain (now : ℤ) : ElectionState Sig :=
  if s.role = .draining then s
  else
    c.record { s with
      role := .draining
      proof := none
      drainStarted := some now } .draining s.proof

def finishDrainIfIdle : ElectionState Sig :=
  if s.role ≠ .draining then s
  else if 0 < s.inFlight ∧ s.drainStarted.any (fun t =>
      decide (s.now - t < c.timings.drain)) then s
  else c.record { s with role := .standby, closed := true } .handback none

def promote (proof : Option (PromotionProof Sig)) (breakGlass : Bool) :
    ElectionState Sig :=
  let s' : ElectionState Sig := { s with
    proof := proof
    role := .elected
    outage := false
    reclaimSince := none }
  if s.role ≠ .elected then
    c.record s' (if breakGlass then .breakGlass else .promoted) proof
  else s'

def mayCampaign (now : ℤ) (leader : Option Member) :
    Bool × ElectionState Sig :=
  if c.fenced now then (false, s)
  else if !(c.quorum s
      || (breakGlassOk s now && decide (leader = some c.name))) then
    (false, s)
  else if s.outage && c.lowerVisible s then
    let since := s.reclaimSince.getD now
    (!decide (now - since < c.timings.demotion),
      { s with reclaimSince := some since })
  else (true, { s with reclaimSince := none })

/-- The candidacy `_campaign` opens: a standby member whose last term closed
starts the next one, with no votes. -/
def openCandidacy : ElectionState Sig :=
  if s.role = .standby then
    if s.closed then
      { s with
        term := s.term + 1
        received := Dict.empty
        closed := false
        role := .candidate }
    else { s with closed := false, role := .candidate }
  else s

/-- The step back `_campaign` makes when it may not campaign. -/
def withdraw (leader : Option Member) : ElectionState Sig :=
  let s' : ElectionState Sig := { s with
    reclaimSince := if leader ≠ some c.name then none else s.reclaimSince }
  if s.role = .candidate then
    { s' with role := .standby, proof := none }
  else s'

def campaign (now : ℤ) : ElectionState Sig :=
  let leader := c.eligibleLeader s now
  if leader ≠ some c.name then c.withdraw s leader
  else
    match c.mayCampaign s now leader with
    | (false, s') => c.withdraw s' leader
    | (true, s') =>
      let s'' := c.ensureSelfGrant (openCandidacy s') now
      match c.tryProof s'' now with
      | some p => c.promote s'' (some p) false
      | none =>
        if breakGlassOk s'' now then c.promote s'' none true else s''

def proofFresh (now : ℤ) : Bool :=
  s.proof.any (fun p => p.grants.all (fun g =>
    decide (third c.timings.lease < g.expiresAt - now)))

def holdOrFence (now : ℤ) : ElectionState Sig :=
  if !c.quorum s && !breakGlassOk s now then c.fence s true
  else if c.proofOk s now && c.proofFresh s now then s
  else if s.proof.isNone && breakGlassOk s now then s
  else
    let s' := c.ensureSelfGrant s now
    match c.tryProof s' now with
    | some p => { s' with proof := some p }
    | none =>
      if c.proofOk s now then s'
      else { s' with role := .candidate, proof := none }

/-- What `_advance` does before it emits. -/
def transition (now : ℤ) : ElectionState Sig :=
  if c.inhibitApplies s now then c.fence s false
  else if (s.role = .elected ∨ s.role = .draining)
      ∧ c.higherRecovered s now then
    c.finishDrainIfIdle (c.beginDrain s now)
  else if s.role = .draining then c.finishDrainIfIdle s
  else if s.role = .elected then c.holdOrFence s now
  else c.campaign s now

def advance (now : ℤ) : ElectionState Sig :=
  c.emit (c.transition s now)

/-! ## The public methods -/

def feed (observations : List MemberObservation) (now : ℤ)
    (inFlight : ℕ) (override : Option (FailoverOverride Sig)) :
    ElectionState Sig :=
  { s with
    observations := observations
    override := override.filter c.overrideIsAuthentic
    inFlight := inFlight
    now := now }

def observe (observations : List MemberObservation) (now : ℤ)
    (inFlight : ℕ) (override : Option (FailoverOverride Sig)) :
    ElectionState Sig :=
  c.advance (c.feed s observations now inFlight override) now

/-- **`vote`**: grant one vote for the current priority leader, replaying a
fresh one. -/
def vote (epoch term : ℕ) (candidate : Member) (now : ℤ) :
    Option (ElectionVoteGrant Sig) × ElectionState Sig :=
  if c.fenced now then (none, s)
  else if epoch ≠ c.membership.epoch ∨ candidate = c.name then (none, s)
  else if c.eligibleLeader s now ≠ some candidate then (none, s)
  else if s.role = .elected ∨ s.role = .draining then (none, s)
  else if backsOther s now candidate then (none, s)
  else if term < s.term then (none, s)
  else
    -- a request of a later term moves this member to it, even if the vote is
    -- refused after all
    let s' : ElectionState Sig := { s with term := max s.term term }
    let existing := s'.issued.get? s'.term
    if existing.any (fun g =>
        decide (g.candidate ≠ candidate) && g.isCurrent now) then (none, s')
    else if existing.any (fun g =>
        g.isCurrent now
          && decide (third c.timings.lease < g.expiresAt - now)) then
      (existing, s')
    else
      let signed := c.signGrant s'.term candidate (now + c.timings.lease)
      (some signed, { s' with issued := s'.issued.set s'.term signed })

/-- **`receive_grant`**: accept one current vote for our own term. -/
def receiveGrant (grant : ElectionVoteGrant Sig) (now : ℤ) :
    Bool × ElectionState Sig :=
  if grant.candidate ≠ c.name ∨ grant.epoch ≠ c.membership.epoch
      ∨ grant.term ≠ s.term ∨ grant.isCurrent now = false then (false, s)
  else if c.crypto.verify (.voteGrant grant.toVoteGrantBody) grant.signature
      (c.membership.publicKey grant.voter) = false then (false, s)
  else
    match (s.received.get? (grant.term, grant.voter)).filter
        (fun g => g.isCurrent now) with
    | some existing =>
      if existing.candidate ≠ grant.candidate
          ∨ grant.expiresAt < existing.expiresAt then (false, s)
      else if grant.expiresAt = existing.expiresAt then
        (decide (existing.signature = grant.signature), s)
      else
        (true, { s with
          received := s.received.set (grant.term, grant.voter) grant })
    | none =>
      (true, { s with
        received := s.received.set (grant.term, grant.voter) grant })

/-- **`accept_handback`**: drain when the priority successor presents a
current signed notice. -/
def acceptHandback (notice : HandbackNotice Sig) (now : ℤ) :
    Bool × ElectionState Sig :=
  if notice.holder ≠ c.name ∨ notice.epoch ≠ c.membership.epoch
      ∨ notice.isCurrent now = false
      ∨ c.membership.priority c.name
        ≤ c.membership.priority notice.successor then (false, s)
  else if c.crypto.verify (.handback notice.toHandbackBody) notice.signature
      (c.membership.publicKey notice.successor) = false then (false, s)
  else if s.role = .standby then (true, s)
  else if s.role = .candidate then (false, s)
  else
    (true, c.emit (c.finishDrainIfIdle
      (c.beginDrain { s with now := now } now)))

/-- **`adopt_term`**: move to a later term, unless serving or draining. -/
def adoptTerm (term : ℕ) : ElectionState Sig :=
  if term ≤ s.term ∨ s.role = .elected ∨ s.role = .draining then s
  else { s with term := term, received := Dict.empty }

/-- **`issue_vote_request`**: ask the peers for this term, as the eligible
leader. -/
def issueVoteRequest : Option (ElectionVoteRequest Sig) :=
  if s.role ≠ .candidate ∧ s.role ≠ .elected then none
  else if c.eligibleLeader s s.now ≠ some c.name then none
  else
    let body : VoteRequestBody := ⟨c.membership.epoch, s.term, c.name⟩
    some ⟨body, c.crypto.sign (.voteRequest body) c.privateKey⟩

/-! ## Calls -/

/-- A member of the deployed cluster, with no restart fence. -/
def standard (name : Member) (timings : ElectionTimings) :
    ElectionParticipant (Payload × String) where
  name := name
  membership := .standard
  privateKey := FailoverMembershipConfig.standard.publicKey name
  timings := timings
  crypto := .transparent
  restartFenceUntil := none
  publishesLease := true

inductive Call (Sig : Type)
  | observe (observations : List MemberObservation) (now : ℤ) (inFlight : ℕ)
      (override : Option (FailoverOverride Sig))
  | vote (epoch term : ℕ) (candidate : Member) (now : ℤ)
  | receiveGrant (grant : ElectionVoteGrant Sig) (now : ℤ)
  | adoptTerm (term : ℕ)
  | acceptHandback (notice : HandbackNotice Sig) (now : ℤ)

def Call.time : Call Sig → Option ℤ
  | .observe _ now _ _ => some now
  | .vote _ _ _ now => some now
  | .receiveGrant _ now => some now
  | .adoptTerm _ => none
  | .acceptHandback _ now => some now

def call (s : ElectionState Sig) : Call Sig → ElectionState Sig
  | .observe observations now inFlight override =>
    c.observe s observations now inFlight override
  | .vote epoch term candidate now => (c.vote s epoch term candidate now).2
  | .receiveGrant grant now => (c.receiveGrant s grant now).2
  | .adoptTerm term => ElectionParticipant.adoptTerm s term
  | .acceptHandback notice now => (c.acceptHandback s notice now).2

end ElectionParticipant
