import Coire.Election
import Coire.Run

/-!
# What a call can do to the votes

The safety of the election rests on four fields of a participant: its term,
the votes it received, the votes it issued, and the proof it holds. This
module says once what each method can do to them, so that an invariant is
checked against that and never against the code of the methods again.

`Ballots` gathers the first three. A poll may open the next term with no
votes, then vote for itself – only while no vote for somebody else is current
– and then either keep its proof, drop it, or build one from the votes it
holds (`ElectionParticipant.observe_moves`).
-/

structure Ballots (Sig : Type) where
  term : ℕ
  received : Dict (ℕ × Member) (ElectionVoteGrant Sig)
  issued : Dict ℕ (ElectionVoteGrant Sig)

def ElectionState.ballots {Sig : Type} (s : ElectionState Sig) :
    Ballots Sig :=
  ⟨s.term, s.received, s.issued⟩

namespace ElectionParticipant

variable {Sig : Type} (c : ElectionParticipant Sig) (s : ElectionState Sig)

/-- **The next term is open**: it is a later one, and no vote of it has been
received. -/
def Opened (b b' : Ballots Sig) : Prop :=
  b.term < b'.term ∧ b'.received = Dict.empty ∧ b'.issued = b.issued

/-- **The member votes for itself** at `now`: no vote it gave to somebody else
is current. -/
def SelfVoted (now : ℤ) (b b' : Ballots Sig) : Prop :=
  (∀ g ∈ b.issued.values, g.candidate ≠ c.name → g.expiresAt ≤ now)
    ∧ b' = { b with
      received := b.received.set (b.term, c.name)
        (c.signGrant b.term c.name (now + c.timings.lease)) }

/-- **The proof is made of votes of the current term**: the member's own and
another's. -/
def ProofFrom (b : Ballots Sig) (p : PromotionProof Sig) : Prop :=
  p.candidate = c.name ∧ ∃ own other voter, voter ≠ c.name
    ∧ p.grants = [own, other]
    ∧ b.received.get? (b.term, c.name) = some own
    ∧ b.received.get? (b.term, voter) = some other

/-! ## The pieces of a poll -/

@[simp] theorem fence_ballots (o : Bool) : (c.fence s o).ballots = s.ballots := by
  unfold fence
  dsimp only
  split <;> rfl

@[simp] theorem fence_role (o : Bool) : (c.fence s o).role = .standby := by
  unfold fence
  dsimp only
  split <;> rfl

@[simp] theorem fence_proof (o : Bool) : (c.fence s o).proof = none := by
  unfold fence
  dsimp only
  split <;> rfl

@[simp] theorem beginDrain_ballots (now : ℤ) :
    (c.beginDrain s now).ballots = s.ballots := by
  unfold beginDrain
  split <;> rfl

@[simp] theorem beginDrain_role (now : ℤ) : (c.beginDrain s now).role = .draining := by
  unfold beginDrain
  split
  · assumption
  · rfl

theorem beginDrain_proof (now : ℤ) (h : s.role ≠ .elected → s.proof = none) :
    (c.beginDrain s now).proof = none := by
  unfold beginDrain
  split
  · rename_i hr
    exact h (by rw [hr]; decide)
  · rfl

@[simp] theorem finishDrainIfIdle_ballots :
    (c.finishDrainIfIdle s).ballots = s.ballots := by
  unfold finishDrainIfIdle
  split
  · rfl
  · split <;> rfl

@[simp] theorem finishDrainIfIdle_proof : (c.finishDrainIfIdle s).proof = s.proof := by
  unfold finishDrainIfIdle
  split
  · rfl
  · split <;> rfl

theorem finishDrainIfIdle_role (h : s.role ≠ .elected) :
    (c.finishDrainIfIdle s).role ≠ .elected := by
  unfold finishDrainIfIdle
  split
  · exact h
  · split
    · exact h
    · exact ServiceRole.noConfusion

@[simp] theorem promote_ballots (p : Option (PromotionProof Sig)) (b : Bool) :
    (c.promote s p b).ballots = s.ballots := by
  unfold promote
  dsimp only
  split <;> rfl

@[simp] theorem promote_role (p : Option (PromotionProof Sig)) (b : Bool) :
    (c.promote s p b).role = .elected := by
  unfold promote
  dsimp only
  split <;> rfl

@[simp] theorem promote_proof (p : Option (PromotionProof Sig)) (b : Bool) :
    (c.promote s p b).proof = p := by
  unfold promote
  dsimp only
  split <;> rfl

@[simp] theorem withdraw_ballots (l : Option Member) :
    (c.withdraw s l).ballots = s.ballots := by
  unfold withdraw
  dsimp only
  split <;> rfl

theorem withdraw_proof (l : Option Member) (h : s.proof = none) :
    (c.withdraw s l).proof = none := by
  unfold withdraw
  dsimp only
  split
  · rfl
  · exact h

theorem mayCampaign_snd (now : ℤ) (l : Option Member) :
    ∃ r, (c.mayCampaign s now l).2 = { s with reclaimSince := r } := by
  unfold mayCampaign
  split
  · exact ⟨s.reclaimSince, rfl⟩
  split
  · exact ⟨s.reclaimSince, rfl⟩
  · split
    · exact ⟨_, rfl⟩
    · exact ⟨_, rfl⟩

theorem openCandidacy_ballots : (openCandidacy s).ballots = s.ballots
      ∨ Opened s.ballots (openCandidacy s).ballots := by
  unfold openCandidacy
  split
  · split
    · exact Or.inr ⟨Nat.lt_succ_self _, rfl, rfl⟩
    · exact Or.inl rfl
  · exact Or.inl rfl

@[simp] theorem openCandidacy_proof : (openCandidacy s).proof = s.proof := by
  unfold openCandidacy
  split
  · split <;> rfl
  · rfl

theorem backsOther_eq_false_iff (now : ℤ) (m : Member) : backsOther s now m = false
      ↔ ∀ g ∈ s.issued.values, g.candidate ≠ m → g.expiresAt ≤ now := by
  grind [backsOther, VoteGrantBody.isCurrent_iff]

theorem ensureSelfGrant_ballots (now : ℤ) :
    (c.ensureSelfGrant s now).ballots = s.ballots
      ∨ c.SelfVoted now s.ballots (c.ensureSelfGrant s now).ballots := by
  unfold ensureSelfGrant
  split
  · exact Or.inl rfl
  rename_i hb
  split
  · exact Or.inl rfl
  · exact Or.inr ⟨(backsOther_eq_false_iff s now c.name).mp (by simpa using hb), rfl⟩

@[simp] theorem ensureSelfGrant_role (now : ℤ) :
    (c.ensureSelfGrant s now).role = s.role := by
  unfold ensureSelfGrant
  split
  · rfl
  · split <;> rfl

@[simp] theorem ensureSelfGrant_proof (now : ℤ) :
    (c.ensureSelfGrant s now).proof = s.proof := by
  unfold ensureSelfGrant
  split
  · rfl
  · split <;> rfl

theorem usableGrant_eq_some {now : ℤ} {voter : Member}
    {g : ElectionVoteGrant Sig} (h : c.usableGrant s now voter = some g) :
    s.received.get? (s.term, voter) = some g :=
  (Option.filter_eq_some_iff.mp h).1

theorem proofFrom_of_tryProof {now : ℤ} {p : PromotionProof Sig}
    (h : c.tryProof s now = some p) : c.ProofFrom s.ballots p := by
  unfold tryProof at h
  split at h
  · exact absurd h (by simp)
  rename_i own hown
  split at h
  · exact absurd h (by simp)
  rename_i other hother
  obtain ⟨voter, hv, hg⟩ := List.exists_of_findSome?_eq_some hother
  have hne : voter ≠ c.name := by
    simpa using (List.mem_filter.mp hv).2
  split at h
  · exact absurd h (by simp)
  rename_i q hq
  split at h
  · obtain rfl := Option.some.inj h
    unfold PromotionProof.build? at hq
    split at hq
    · obtain rfl := Option.some.inj hq
      exact ⟨rfl, own, other, voter, hne, rfl,
        c.usableGrant_eq_some s hown, c.usableGrant_eq_some s hg⟩
    · exact absurd hq (by simp)
  · exact absurd h (by simp)

/-! ## A transition does not publish -/

/-- What the listener was told and wrote, and the override it is written
from. -/
structure Shown (Sig : Type) where
  published : Option (ServiceRole × Option (PromotionProof Sig))
  leaseFile : Option (FailoverLease Sig)
  override : Option (FailoverOverride Sig)

def shown (s : ElectionState Sig) : Shown Sig :=
  ⟨s.published, s.leaseFile, s.override⟩

theorem shown_eq_iff {s s' : ElectionState Sig} :
    shown s' = shown s ↔ s'.published = s.published
      ∧ s'.leaseFile = s.leaseFile ∧ s'.override = s.override := by
  unfold shown
  rw [Shown.mk.injEq]

@[simp] theorem fence_shown (o : Bool) : shown (c.fence s o) = shown s := by
  unfold fence
  dsimp only
  split <;> rfl

@[simp] theorem beginDrain_shown (now : ℤ) : shown (c.beginDrain s now) = shown s := by
  unfold beginDrain
  split <;> rfl

@[simp] theorem finishDrainIfIdle_shown : shown (c.finishDrainIfIdle s) = shown s := by
  unfold finishDrainIfIdle
  split
  · rfl
  · split <;> rfl

@[simp] theorem promote_shown (p : Option (PromotionProof Sig)) (b : Bool) :
    shown (c.promote s p b) = shown s := by
  unfold promote
  dsimp only
  split <;> rfl

@[simp] theorem withdraw_shown (l : Option Member) :
    shown (c.withdraw s l) = shown s := by
  unfold withdraw
  dsimp only
  split <;> rfl

@[simp] theorem openCandidacy_shown : shown (openCandidacy s) = shown s := by
  unfold openCandidacy
  split
  · split <;> rfl
  · rfl

@[simp] theorem ensureSelfGrant_shown (now : ℤ) :
    shown (c.ensureSelfGrant s now) = shown s := by
  unfold ensureSelfGrant
  split
  · rfl
  · split <;> rfl

@[simp] theorem mayCampaign_shown (now : ℤ) (l : Option Member) :
    shown (c.mayCampaign s now l).2 = shown s := by
  obtain ⟨r, hr⟩ := c.mayCampaign_snd s now l
  rw [hr]
  rfl

theorem campaign_shown (now : ℤ) : shown (c.campaign s now) = shown s := by
  have hmay := c.mayCampaign_shown s now (c.eligibleLeader s now)
  unfold campaign
  dsimp only
  split
  · exact c.withdraw_shown s _
  split
  · rename_i s' hm
    rw [hm] at hmay
    rw [withdraw_shown]
    exact hmay
  · grind [ensureSelfGrant_shown, openCandidacy_shown, promote_shown]

theorem holdOrFence_shown (now : ℤ) : shown (c.holdOrFence s now) = shown s := by
  unfold holdOrFence
  split
  · exact c.fence_shown s true
  split
  · rfl
  split
  · rfl
  dsimp only
  split
  · exact c.ensureSelfGrant_shown s now
  · split
    · exact c.ensureSelfGrant_shown s now
    · exact c.ensureSelfGrant_shown s now

theorem transition_shown (now : ℤ) : shown (c.transition s now) = shown s := by
  unfold transition
  split
  · exact c.fence_shown s false
  split
  · rw [finishDrainIfIdle_shown, beginDrain_shown]
  split
  · exact c.finishDrainIfIdle_shown s
  · split
    · exact c.holdOrFence_shown s now
    · exact c.campaign_shown s now

/-! ## A poll -/

/-- **What a poll does to the votes and the proof.** Only an elected member has a proof.
-/
structure Moves (now : ℤ) (s s' : ElectionState Sig) : Prop where
  /-- The votes it passes through, and those it ends with. -/
  votes : ∃ b, (b = s.ballots ∨ Opened s.ballots b)
    ∧ (s'.ballots = b ∨ c.SelfVoted now b s'.ballots)
  proof : s'.proof = none ∨ (s'.role = .elected ∧ s'.proof = s.proof)
    ∨ ∃ p, s'.role = .elected ∧ s'.proof = some p ∧ c.ProofFrom s'.ballots p
  idle : s'.role ≠ .elected → s'.proof = none

variable {s} {now : ℤ}

theorem Moves.of_drop {s' : ElectionState Sig} (hb : s'.ballots = s.ballots)
    (hp : s'.proof = none) : c.Moves now s s' :=
  ⟨⟨_, Or.inl rfl, Or.inl hb⟩, Or.inl hp, fun _ => hp⟩

theorem Moves.term_le {s' : ElectionState Sig} (hm : c.Moves now s s') :
    s.term ≤ s'.term := by
  obtain ⟨b, hb, hb'⟩ := hm.votes
  have hle : s.term ≤ b.term := by
    rcases hb with rfl | hb
    · exact le_rfl
    · exact hb.1.le
  rcases hb' with rfl | ⟨-, hb'⟩
  · exact hle
  · exact hle.trans_eq (congrArg Ballots.term hb'.symm)

theorem campaign_moves (h : s.role ≠ .elected → s.proof = none)
    (hr : s.role ≠ .elected) : c.Moves now s (c.campaign s now) := by
  unfold campaign
  dsimp only
  split
  · exact Moves.of_drop c (c.withdraw_ballots s _) (c.withdraw_proof s _ (h hr))
  obtain ⟨r, hr'⟩ := c.mayCampaign_snd s now (c.eligibleLeader s now)
  split
  · rename_i s' hm
    rw [hm] at hr'
    dsimp only at hr'
    subst hr'
    exact Moves.of_drop c (c.withdraw_ballots _ _) (c.withdraw_proof _ _ (h hr))
  · rename_i s' hm
    rw [hm] at hr'
    dsimp only at hr'
    subst hr'
    set s₁ : ElectionState Sig := { s with reclaimSince := r } with hs₁
    set s₂ := c.ensureSelfGrant (openCandidacy s₁) now with hs₂
    have hvotes : ∃ b, (b = s.ballots ∨ Opened s.ballots b)
        ∧ (s₂.ballots = b ∨ c.SelfVoted now b s₂.ballots) :=
      ⟨_, openCandidacy_ballots s₁, c.ensureSelfGrant_ballots _ now⟩
    have hproof : s₂.proof = none := by
      rw [hs₂, ensureSelfGrant_proof, openCandidacy_proof]
      exact h hr
    split
    · rename_i p hp
      refine ⟨?_, Or.inr (Or.inr ⟨p, promote_role .., promote_proof .., ?_⟩),
        fun hne => absurd (promote_role ..) hne⟩
      · rw [promote_ballots]
        exact hvotes
      · rw [promote_ballots]
        exact c.proofFrom_of_tryProof s₂ hp
    · split
      · refine ⟨?_, Or.inl (promote_proof ..), fun hne => absurd (promote_role ..) hne⟩
        rw [promote_ballots]
        exact hvotes
      · exact ⟨hvotes, Or.inl hproof, fun _ => hproof⟩

theorem holdOrFence_moves (hr : s.role = .elected) :
    c.Moves now s (c.holdOrFence s now) := by
  have hkeep : c.Moves now s s :=
    ⟨⟨_, Or.inl rfl, Or.inl rfl⟩, Or.inr (Or.inl ⟨hr, rfl⟩), fun hne => absurd hr hne⟩
  unfold holdOrFence
  split
  · exact Moves.of_drop c (c.fence_ballots s true) (c.fence_proof s true)
  split
  · exact hkeep
  split
  · exact hkeep
  dsimp only
  set s₁ := c.ensureSelfGrant s now with hs₁
  have hvotes : ∃ b, (b = s.ballots ∨ Opened s.ballots b)
      ∧ (s₁.ballots = b ∨ c.SelfVoted now b s₁.ballots) :=
    ⟨_, Or.inl rfl, c.ensureSelfGrant_ballots s now⟩
  have hrole : s₁.role = .elected := by
    rw [hs₁, ensureSelfGrant_role, hr]
  split
  · rename_i p hp
    exact ⟨hvotes, Or.inr (Or.inr ⟨p, hrole, rfl,
      c.proofFrom_of_tryProof s₁ hp⟩), fun hne => absurd hrole hne⟩
  · split
    · exact ⟨hvotes, Or.inr (Or.inl ⟨hrole,
        c.ensureSelfGrant_proof s now⟩), fun hne => absurd hrole hne⟩
    · exact ⟨hvotes, Or.inl rfl, fun _ => rfl⟩

theorem transition_moves (h : s.role ≠ .elected → s.proof = none) :
    c.Moves now s (c.transition s now) := by
  unfold transition
  split
  · exact Moves.of_drop c (c.fence_ballots s false) (c.fence_proof s false)
  split
  · refine Moves.of_drop c ?_ ?_
    · rw [finishDrainIfIdle_ballots, beginDrain_ballots]
    · rw [finishDrainIfIdle_proof, c.beginDrain_proof s now h]
  · split
    · rename_i hd
      refine Moves.of_drop c (c.finishDrainIfIdle_ballots s) ?_
      rw [finishDrainIfIdle_proof]
      exact h (by rw [hd]; decide)
    · split
      · rename_i hr
        exact c.holdOrFence_moves hr
      · rename_i hr
        exact c.campaign_moves h hr

theorem adoptTerm_moves (term : ℕ) : adoptTerm s term = s
      ∨ s.role ≠ .elected ∧ Opened s.ballots (adoptTerm s term).ballots
        ∧ (adoptTerm s term).role = s.role
        ∧ (adoptTerm s term).proof = s.proof := by
  unfold adoptTerm
  split
  · exact Or.inl rfl
  · rename_i h
    rw [not_or, not_or, not_le] at h
    exact Or.inr ⟨h.2.1, ⟨h.1, rfl, rfl⟩, rfl, rfl⟩

/-- **What a vote can do**: it changes nothing, or a voter that is free moves to the
term and then refuses, answers the vote it has there, or signs one. -/
theorem vote_moves (s : ElectionState Sig) (now : ℤ) (epoch term : ℕ)
    (candidate : Member) :
    c.vote s epoch term candidate now = (none, s)
      ∨ candidate ≠ c.name ∧ s.role ≠ .elected ∧ s.term ≤ term
        ∧ (∀ g ∈ s.issued.values, g.candidate ≠ candidate → g.expiresAt ≤ now)
        ∧ (c.vote s epoch term candidate now = (none, { s with term := term })
          ∨ (∃ g, s.issued.get? term = some g ∧ now < g.expiresAt
              ∧ c.vote s epoch term candidate now = (some g, { s with term := term }))
          ∨ c.vote s epoch term candidate now
              = (some (c.signGrant term candidate (now + c.timings.lease)),
                { s with
                  term := term
                  issued := s.issued.set term (c.signGrant term candidate
                    (now + c.timings.lease)) })) := by
  unfold vote
  split
  · exact Or.inl rfl
  split
  · exact Or.inl rfl
  rename_i hname
  split
  · exact Or.inl rfl
  split
  · exact Or.inl rfl
  rename_i hrole
  split
  · exact Or.inl rfl
  rename_i hother
  split
  · exact Or.inl rfl
  rename_i hterm
  rw [not_or] at hname hrole
  have hmax : max s.term term = term := max_eq_right (not_lt.mp hterm)
  dsimp only
  rw [hmax]
  refine Or.inr ⟨hname.2, hrole.1, not_lt.mp hterm,
    (backsOther_eq_false_iff s now candidate).mp (by simpa using hother), ?_⟩
  split
  · exact Or.inl rfl
  split
  · grind [Option.any_eq_true, VoteGrantBody.isCurrent_iff]
  · exact Or.inr (Or.inr rfl)

theorem vote_asked (s : ElectionState Sig) (now : ℤ) (epoch term : ℕ)
    (candidate : Member)
    (h : c.vote s epoch term candidate now ≠ (none, s)) :
    s.role ≠ .elected ∧ s.role ≠ .draining
      ∧ c.eligibleLeader s now = some candidate := by
  unfold vote at h
  split at h
  · exact absurd rfl h
  split at h
  · exact absurd rfl h
  split at h
  · exact absurd rfl h
  rename_i hleader
  split at h
  · exact absurd rfl h
  rename_i hrole
  rw [not_or] at hrole
  exact ⟨hrole.1, hrole.2, not_not.mp hleader⟩

variable [DecidableEq Sig]

@[simp] theorem emit_ballots : (c.emit s).ballots = s.ballots := by
  unfold emit
  split <;> rfl

@[simp] theorem emit_role : (c.emit s).role = s.role := by
  unfold emit
  split <;> rfl

@[simp] theorem emit_proof : (c.emit s).proof = s.proof := by
  unfold emit
  split <;> rfl

@[simp] theorem emit_override : (c.emit s).override = s.override := by
  unfold emit
  split <;> rfl

theorem observe_override (obs : List MemberObservation) (n : ℕ)
    (o : Option (FailoverOverride Sig)) :
    (c.observe s obs now n o).override = o.filter c.overrideIsAuthentic := by
  unfold observe advance
  rw [emit_override]
  exact (shown_eq_iff.mp (c.transition_shown _ now)).2.2

theorem observe_moves (h : s.role ≠ .elected → s.proof = none)
    (obs : List MemberObservation) (n : ℕ)
    (o : Option (FailoverOverride Sig)) :
    c.Moves now s (c.observe s obs now n o) := by
  have hm : c.Moves now (c.feed s obs now n o)
      (c.transition (c.feed s obs now n o) now) := c.transition_moves h
  unfold observe advance
  refine ⟨?_, ?_, ?_⟩
  · rw [emit_ballots]
    exact hm.votes
  · rw [emit_ballots, emit_proof, emit_role]
    exact hm.proof
  · rw [emit_proof, emit_role]
    exact hm.idle

theorem acceptHandback_moves (h : s.role ≠ .elected → s.proof = none)
    (n : HandbackNotice Sig) (now : ℤ) :
    (c.acceptHandback s n now).2 = s ∨ (c.acceptHandback s n now).2.ballots = s.ballots
        ∧ (c.acceptHandback s n now).2.proof = none
        ∧ (c.acceptHandback s n now).2.override = s.override := by
  unfold acceptHandback
  split
  · exact Or.inl rfl
  split
  · exact Or.inl rfl
  split
  · exact Or.inl rfl
  split
  · exact Or.inl rfl
  refine Or.inr ⟨?_, ?_, ?_⟩
  · rw [emit_ballots, finishDrainIfIdle_ballots, beginDrain_ballots]
    rfl
  · rw [emit_proof, finishDrainIfIdle_proof]
    exact c.beginDrain_proof _ now h
  · rw [emit_override]
    refine (shown_eq_iff.mp (c.finishDrainIfIdle_shown _)).2.2.trans ?_
    exact (shown_eq_iff.mp (c.beginDrain_shown _ now)).2.2

theorem receiveGrant_moves (s : ElectionState Sig) (now : ℤ)
    (g : ElectionVoteGrant Sig) :
    (c.receiveGrant s g now).2 = s ∨ g.candidate = c.name ∧ g.epoch = c.membership.epoch
        ∧ g.term = s.term ∧ now < g.expiresAt
        ∧ c.crypto.verify (.voteGrant g.toVoteGrantBody) g.signature
          (c.membership.publicKey g.voter) = true
        ∧ (∀ k ∈ s.received.get? (g.term, g.voter), now < k.expiresAt →
            k.expiresAt < g.expiresAt)
        ∧ (c.receiveGrant s g now).2
          = { s with received := s.received.set (g.term, g.voter) g } := by
  unfold receiveGrant
  split
  · exact Or.inl rfl
  rename_i hg
  split
  · exact Or.inl rfl
  rename_i hv
  rw [not_or, not_or, not_or, not_not, not_not, not_not, Bool.not_eq_false,
    VoteGrantBody.isCurrent_iff] at hg
  rw [Bool.not_eq_false] at hv
  split
  · rename_i existing hex
    obtain ⟨hget, -⟩ := Option.filter_eq_some_iff.mp hex
    split
    · exact Or.inl rfl
    rename_i hlt
    split
    · exact Or.inl rfl
    · grind
  · rename_i hex
    refine Or.inr ⟨hg.1, hg.2.1, hg.2.2.1, hg.2.2.2, hv, ?_, rfl⟩
    intro k hk hcur
    refine absurd (Option.filter_eq_none_iff.mp hex k hk) ?_
    rwa [not_not, VoteGrantBody.isCurrent_iff]

/-! ## Calls -/

/-- A member that does not serve holds no proof. -/
def Idle (s : ElectionState Sig) : Prop :=
  s.role ≠ .elected → s.proof = none

theorem Idle.call {s : ElectionState Sig} (h : Idle s) (a : Call Sig) :
    Idle (c.call s a) := by
  cases a with
  | observe observations now inFlight override =>
    exact (c.observe_moves h observations inFlight override).idle
  | vote epoch term candidate now =>
    show Idle (c.vote s epoch term candidate now).2
    rcases c.vote_moves s now epoch term candidate with
      hv | ⟨-, -, -, -, hv | ⟨_, -, -, hv⟩ | hv⟩ <;> rw [hv] <;> exact h
  | receiveGrant grant now =>
    show Idle (c.receiveGrant s grant now).2
    rcases c.receiveGrant_moves s now grant with
      hv | ⟨-, -, -, -, -, -, hv⟩ <;> rw [hv] <;> exact h
  | adoptTerm term =>
    show Idle (ElectionParticipant.adoptTerm s term)
    rcases adoptTerm_moves (s := s) term with hv | ⟨-, -, hr, hp⟩
    · rw [hv]
      exact h
    · intro hne
      rw [hp]
      exact h (hr ▸ hne)
  | acceptHandback notice now =>
    show Idle (c.acceptHandback s notice now).2
    rcases c.acceptHandback_moves h notice now with hv | ⟨-, hp, -⟩
    · rw [hv]
      exact h
    · exact fun _ => hp

theorem Idle.term_le {s : ElectionState Sig} (h : Idle s) (a : Call Sig) :
    s.term ≤ (c.call s a).term := by
  cases a with
  | observe observations now inFlight override =>
    exact Moves.term_le c (c.observe_moves h observations inFlight override)
  | vote epoch term candidate now =>
    have := c.vote_moves s now epoch term candidate
    grind [ElectionParticipant.call]
  | receiveGrant grant now =>
    have := c.receiveGrant_moves s now grant
    grind [ElectionParticipant.call]
  | adoptTerm term => grind [ElectionParticipant.call, ElectionParticipant.adoptTerm]
  | acceptHandback notice now =>
    have := c.acceptHandback_moves h notice now
    grind [ElectionParticipant.call, ElectionState.ballots]

/-- **Terms only rise**: a member never goes back to a term, whatever it observes,
is asked, is granted or is told. -/
theorem term_only_rises (start : ℤ) (outage : Bool) (calls : List (Call Sig))
    (n k : ℕ) :
    let reached (i : ℕ) := Run.last c.call (init start outage) (calls.take i)
    (reached n).term ≤ (reached (n + k)).term := by
  refine (Run.rel_of_step (fun s t => Idle s → Idle t ∧ s.term ≤ t.term)
    (fun s h => ⟨h, le_rfl⟩) (fun h h' hs => ?_)
    (fun s a h => ⟨h.call c a, h.term_le c a⟩) (Nat.le_add_right n k) _ calls ?_).2
  · exact ⟨(h' (h hs).1).1, (h hs).2.trans (h' (h hs).1).2⟩
  · exact Run.last_of_kept Idle (fun s a h => h.call c a) _ fun _ => rfl

end ElectionParticipant
