import Coire.LeaseQuorum
import Mathlib.Data.List.Sort

/-!
# The contracts of the failover tier

The signed values the three control-plane members exchange: votes and the requests for
them, the promotion proof two votes make, operator overrides, hand-back notices, and the
lease a member shows while it serves.

Every value is signed over its canonical JSON, which holds all its fields but the
signature. That is a function of the fields, and values of different classes never
encode alike, so a `Payload` is the fields themselves, tagged by the class. The Ed25519
primitives come from a third-party package and are a parameter (`Ed25519`); nothing
about them is assumed here.

Moments and durations are integers, in microseconds, which is the resolution the
source's `datetime` and `timedelta` have.
-/

/-- `FAILOVER_MEMBER_NAMES`: `coire-core`, `coire-edge-a` and
`coire-edge-b`, in the order of their names. -/
inductive Member
  | core
  | edgeA
  | edgeB
  deriving DecidableEq

namespace Member

instance : Fintype Member :=
  ⟨{core, edgeA, edgeB}, fun m => by cases m <;> decide⟩

/-- The position of a member's name in the alphabetical order. -/
def rank : Member → ℕ
  | core => 0
  | edgeA => 1
  | edgeB => 2

theorem card : Fintype.card Member = 3 := rfl

end Member

structure FailoverMember where
  name : Member
  priority : ℕ
  publicKey : String
  deriving DecidableEq

/-- **The membership**: the three members exactly once, with distinct
priorities (`fixed_three_member_cluster`). -/
structure FailoverMembershipConfig where
  epoch : ℕ
  members : List FailoverMember
  /-- `epoch: int = Field(ge=1)`. -/
  epoch_pos : 1 ≤ epoch
  /-- `members: list = Field(min_length=3, max_length=3)`. -/
  length_members : members.length = 3
  /-- `priority: int = Field(ge=0, le=2)`. -/
  priority_le : ∀ m ∈ members, m.priority ≤ 2
  name_mem : ∀ n : Member, n ∈ members.map FailoverMember.name
  nodup_priority : (members.map FailoverMember.priority).Nodup

namespace FailoverMembershipConfig

def byPriority (m : FailoverMembershipConfig) : List FailoverMember :=
  m.members.insertionSort (fun a b => a.priority ≤ b.priority)

def publicKey (m : FailoverMembershipConfig) (name : Member) : String :=
  ((m.members.find? (fun x => x.name = name)).map
    FailoverMember.publicKey).getD ""

def priority (m : FailoverMembershipConfig) (name : Member) : ℕ :=
  ((m.members.find? (fun x => x.name = name)).map
    FailoverMember.priority).getD 0

end FailoverMembershipConfig

/-- The deployed cluster: core first, then the two Studios. A member's public
key is its name. -/
def FailoverMembershipConfig.standard : FailoverMembershipConfig where
  epoch := 1
  members := [⟨.core, 0, "coire-core"⟩, ⟨.edgeA, 1, "coire-edge-a"⟩,
    ⟨.edgeB, 2, "coire-edge-b"⟩]
  epoch_pos := le_refl 1
  length_members := rfl
  priority_le := by decide
  name_mem := by decide
  nodup_priority := by decide

structure VoteRequestBody where
  epoch : ℕ
  term : ℕ
  candidate : Member
  deriving DecidableEq

/-- The signed fields of an `ElectionVoteGrant`. -/
structure VoteGrantBody where
  epoch : ℕ
  term : ℕ
  candidate : Member
  voter : Member
  expiresAt : ℤ
  deriving DecidableEq

inductive FailoverOverrideKind
  | inhibit
  | breakGlassPromote
  deriving DecidableEq

/-- The signed fields of a `FailoverOverride`. -/
structure OverrideBody where
  kind : FailoverOverrideKind
  actorId : ℕ
  reason : String
  expiresAt : ℤ
  deriving DecidableEq

/-- The signed fields of a `HandbackNotice`. -/
structure HandbackBody where
  epoch : ℕ
  term : ℕ
  holder : Member
  successor : Member
  expiresAt : ℤ
  deriving DecidableEq

/-- **What is signed**: the canonical encoding of a value, which determines
its class and its fields. -/
inductive Payload
  | voteRequest (b : VoteRequestBody)
  | voteGrant (b : VoteGrantBody)
  | override (b : OverrideBody)
  | handback (b : HandbackBody)
  deriving DecidableEq

/-- The two Ed25519 helpers: `sign_ed25519 payload private_key` and
`verify_ed25519 payload signature public_key`. -/
structure Ed25519 (Sig : Type) where
  sign : Payload → String → Sig
  verify : Payload → Sig → String → Bool

/-- Signatures that show what was signed and with which key, for concrete
runs: private and public key are the same text. -/
def Ed25519.transparent : Ed25519 (Payload × String) where
  sign := fun payload key => (payload, key)
  verify := fun payload signature key => decide (signature = (payload, key))

variable {Sig : Type} [DecidableEq Sig]

/-- A candidate asks one peer for its grant in a term. -/
structure ElectionVoteRequest (Sig : Type) extends VoteRequestBody where
  signature : Sig
  deriving DecidableEq

/-- **A vote**: the voter backs the candidate until `expiresAt`. -/
structure ElectionVoteGrant (Sig : Type) extends VoteGrantBody where
  signature : Sig
  deriving DecidableEq

structure FailoverOverride (Sig : Type) extends OverrideBody where
  signature : Sig
  deriving DecidableEq

/-- The priority successor asks the holder to drain. -/
structure HandbackNotice (Sig : Type) extends HandbackBody where
  signature : Sig
  deriving DecidableEq

def VoteGrantBody.lease (b : VoteGrantBody) : Lease Member ℤ :=
  ⟨b.voter, b.candidate, b.expiresAt⟩

/-- The grant can contribute to a lease at `now`. -/
def VoteGrantBody.isCurrent (b : VoteGrantBody) (now : ℤ) : Bool :=
  decide (now < b.expiresAt)

def OverrideBody.isCurrent (b : OverrideBody) (now : ℤ) : Bool :=
  decide (now < b.expiresAt)

def HandbackBody.isCurrent (b : HandbackBody) (now : ℤ) : Bool :=
  decide (now < b.expiresAt)

theorem VoteGrantBody.isCurrent_iff (b : VoteGrantBody) (now : ℤ) :
    b.isCurrent now = true ↔ now < b.expiresAt := decide_eq_true_iff

/-- **A promotion proof**: two votes of distinct voters for one candidate in
one epoch and term (`coherent_distinct_current_grants`). -/
structure PromotionProof (Sig : Type) where
  epoch : ℕ
  term : ℕ
  candidate : Member
  grants : List (ElectionVoteGrant Sig)
  /-- `grants: list = Field(min_length=2, max_length=2)`. -/
  length_grants : grants.length = 2
  /-- The two voters are distinct. -/
  nodup_voter : (grants.map (fun g => g.voter)).Nodup
  /-- The grants match the proof's epoch, term and candidate. -/
  coherent : ∀ g ∈ grants,
    g.epoch = epoch ∧ g.term = term ∧ g.candidate = candidate
  deriving DecidableEq

namespace PromotionProof

/-- The constructor with its validator: `none` is where it raises. -/
def build? (epoch term : ℕ) (candidate : Member)
    (grants : List (ElectionVoteGrant Sig)) : Option (PromotionProof Sig) :=
  if h : grants.length = 2 ∧ (grants.map (fun g => g.voter)).Nodup
      ∧ ∀ g ∈ grants, g.epoch = epoch ∧ g.term = term
        ∧ g.candidate = candidate then
    some ⟨epoch, term, candidate, grants, h.1, h.2.1, h.2.2⟩
  else none

def isCurrent (p : PromotionProof Sig) (now : ℤ) : Bool :=
  p.grants.all (fun g => g.isCurrent now)

/-- **A current two-member quorum** with signatures of declared voters. Every
voter is declared, a membership naming all three members. -/
def isValidFor (e : Ed25519 Sig) (p : PromotionProof Sig)
    (membership : FailoverMembershipConfig) (now : ℤ) : Bool :=
  membership.epoch == p.epoch && p.isCurrent now
    && p.grants.all (fun g =>
      e.verify (.voteGrant g.toVoteGrantBody) g.signature
        (membership.publicKey g.voter))

end PromotionProof

/-- What a member shows to prove it is the serving tier: a quorum proof, or a
break-glass override. -/
structure FailoverLease (Sig : Type) where
  holder : Member
  proof : Option (PromotionProof Sig)
  breakGlass : Option (FailoverOverride Sig)
  deriving DecidableEq
