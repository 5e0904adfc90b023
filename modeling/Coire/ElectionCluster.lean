import Coire.PeerLiveness

/-!
# The three members together

Core and the two Studios hold one election: one membership, one clock that
never goes back, and a network that may lose, delay, repeat and reorder what
they send each other. A step of the cluster is one call of one member's
methods or one probe of a peer. The observations of a poll are those the
member's `PeerLiveness` makes of its probes.

What the network can deliver is kept in two lists. A vote request is one that
some member issued. A vote that verifies is one that its voter signed – this
is what unforgeable signatures mean – and `signed` records the votes signed so
far, also those a member gave itself. A step that the clock or the network
does not allow changes nothing.
-/

structure Cluster (Sig : Type) where
  membership : FailoverMembershipConfig
  crypto : Ed25519 Sig
  privateKey : Member → String
  timings : Member → ElectionTimings
  restartFenceUntil : Member → Option ℤ
  liveness : Member → LivenessSettings

structure ClusterState (Sig : Type) where
  clock : ℤ
  member : Member → ElectionState Sig
  liveness : Member → PeerLiveness
  requests : List (ElectionVoteRequest Sig)
  signed : List VoteGrantBody

inductive ClusterStep (Sig : Type)
  | probe (m peer : Member) (ok : Bool) (latencyMs : ℚ) (now : ℤ)
  | observe (m : Member) (now : ℤ) (inFlight : ℕ)
      (override : Option (FailoverOverride Sig))
  | issueVoteRequest (m : Member)
  | vote (m : Member) (request : ElectionVoteRequest Sig) (now : ℤ)
  | receiveGrant (m : Member) (grant : ElectionVoteGrant Sig) (now : ℤ)
  | adoptTerm (m : Member) (term : ℕ)
  | acceptHandback (m : Member) (notice : HandbackNotice Sig) (now : ℤ)

namespace Cluster

variable {Sig : Type} (k : Cluster Sig)

def participant (m : Member) : ElectionParticipant Sig where
  name := m
  membership := k.membership
  privateKey := k.privateKey m
  timings := k.timings m
  crypto := k.crypto
  restartFenceUntil := k.restartFenceUntil m
  publishesLease := decide (m ≠ .core)

def init (start : ℤ) (outage : Member → Bool) : ClusterState Sig where
  clock := start
  member := fun m => ElectionParticipant.init start (outage m)
  liveness := fun _ => PeerLiveness.init
  requests := []
  signed := []

def ownVote (m : Member) (s : ElectionState Sig) : List VoteGrantBody :=
  ((s.received.get? (s.term, m)).map (fun g => g.toVoteGrantBody)).toList

/-- The network can deliver a vote: it does not verify, or it was signed. -/
def Deliverable (s : ClusterState Sig) (g : ElectionVoteGrant Sig) : Prop :=
  k.crypto.verify (.voteGrant g.toVoteGrantBody) g.signature
      (k.membership.publicKey g.voter) = false
    ∨ g.toVoteGrantBody ∈ s.signed

instance (s : ClusterState Sig) (g : ElectionVoteGrant Sig) :
    Decidable (k.Deliverable s g) :=
  inferInstanceAs (Decidable (_ ∨ _))

variable [DecidableEq Sig]

def step (s : ClusterState Sig) : ClusterStep Sig → ClusterState Sig
  | .probe m peer ok latencyMs now =>
    if s.clock ≤ now ∧ peer ≠ m then
      { s with
        clock := now
        liveness := Function.update s.liveness m
          ((s.liveness m).note (k.liveness m) peer ok latencyMs now) }
    else s
  | .observe m now inFlight override =>
    if s.clock ≤ now ∧ ∀ o ∈ override, o.kind ≠ .breakGlassPromote then
      let view := (s.liveness m).observations m now
      let s' := (k.participant m).observe (s.member m) view.1 now inFlight
        override
      { s with
        clock := now
        member := Function.update s.member m s'
        liveness := Function.update s.liveness m view.2
        signed := ownVote m s' ++ s.signed }
    else s
  | .issueVoteRequest m =>
    { s with
      requests := ((k.participant m).issueVoteRequest (s.member m)).toList
        ++ s.requests }
  | .vote m request now =>
    if s.clock ≤ now ∧ request ∈ s.requests then
      let r := (k.participant m).vote (s.member m) request.epoch request.term
        request.candidate now
      { s with
        clock := now
        member := Function.update s.member m r.2
        signed := (r.1.map (fun g => g.toVoteGrantBody)).toList ++ s.signed }
    else s
  | .receiveGrant m grant now =>
    if s.clock ≤ now ∧ k.Deliverable s grant then
      { s with
        clock := now
        member := Function.update s.member m
          ((k.participant m).receiveGrant (s.member m) grant now).2 }
    else s
  | .adoptTerm m term =>
    { s with
      member := Function.update s.member m
        (ElectionParticipant.adoptTerm (s.member m) term) }
  | .acceptHandback m notice now =>
    if s.clock ≤ now then
      { s with
        clock := now
        member := Function.update s.member m
          ((k.participant m).acceptHandback (s.member m) notice now).2 }
    else s

end Cluster
