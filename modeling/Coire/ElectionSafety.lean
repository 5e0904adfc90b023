import Coire.ElectionCluster
import Coire.ElectionVotes
import Coire.Run

/-!
# Mutual exclusion of the failover tier

A member serves on two votes, its own and another's, and any two such pairs share a
voter. Two members never serve at once if no voter stands behind both
(`Lease.leads_unique`).

A voter gives votes of two kinds. Those to peers exclude each other (`VotesKept`). Its
own vote excludes those to peers in one direction only: `_ensure_self_grant` looks for a
current vote to a peer before it signs, but `vote` does not look for a current own vote
before it grants one. The own vote it kept is then good for a proof beside the vote it
granted, and two members can serve (`Cluster.two_members_serve`).

Where no vote is asked for in that position, at most one serves
(`Cluster.serving_unique`).
-/

namespace ElectionParticipant

variable {Sig : Type} (c : ElectionParticipant Sig)

/-! ## One member's votes -/

/-- **The votes of one member are in order**: `signed` are the votes signed by
anybody, `t` is a moment not later than now. -/
structure OwnVotes (signed : List VoteGrantBody) (t : ℤ) (b : Ballots Sig) :
    Prop where
  kept : c.VotesKept signed t b
  /-- Received votes stand under their term and voter, are not of a later
  term, and were signed. -/
  keyed : ∀ j g, b.received.get? j = some g →
    j = (g.term, g.voter) ∧ g.term ≤ b.term ∧ g.toVoteGrantBody ∈ signed
  /-- An own vote is not of a later term and within one lease. In the current
  term, until it runs out, a vote that lasts at least as long is kept. -/
  own : ∀ x ∈ signed, x.voter = c.name → x.candidate = c.name →
    x.term ≤ b.term ∧ x.expiresAt ≤ t + c.timings.lease
      ∧ (x.term = b.term → t < x.expiresAt →
        ∃ g, b.received.get? (b.term, c.name) = some g
          ∧ x.expiresAt ≤ g.expiresAt)
  /-- While the own vote of the current term lasts, no vote to a peer does. -/
  free : ∀ g, b.received.get? (b.term, c.name) = some g → t < g.expiresAt →
    ∀ v ∈ b.issued.values, v.expiresAt ≤ t

namespace OwnVotes

variable {c} {signed xs : List VoteGrantBody} {t now : ℤ}
  {b b' : Ballots Sig}

theorem init (start : ℤ) (outage : Bool) :
    c.OwnVotes [] t (ElectionParticipant.init start outage).ballots where
  kept := VotesKept.init start outage
  keyed := fun _ _ hg => absurd hg (by simp [ElectionState.ballots,
    ElectionParticipant.init])
  own := fun _ hx => absurd hx List.not_mem_nil
  free := fun _ hg => absurd hg (by simp [ElectionState.ballots,
    ElectionParticipant.init])

theorem mono (h : c.OwnVotes signed t b) (ht : t ≤ now) :
    c.OwnVotes signed now b where
  kept := h.kept.mono ht
  keyed := h.keyed
  own := by
    intro x hx hv hc
    obtain ⟨hterm, hexp, hdom⟩ := h.own x hx hv hc
    exact ⟨hterm, hexp.trans (by omega),
      fun hxt hlt => hdom hxt (lt_of_le_of_lt ht hlt)⟩
  free := fun g hg hlt v hv =>
    (h.free g hg (lt_of_le_of_lt ht hlt) v hv).trans ht

theorem others (h : c.OwnVotes signed t b)
    (hxs : ∀ x ∈ xs, x.voter ≠ c.name) : c.OwnVotes (xs ++ signed) t b where
  kept := h.kept.add (fun x hx hv _ => absurd hv (hxs x hx))
  keyed := fun j g hg =>
    ⟨(h.keyed j g hg).1, (h.keyed j g hg).2.1,
      List.mem_append_right _ (h.keyed j g hg).2.2⟩
  own := by
    intro x hx hv hc
    rcases List.mem_append.mp hx with hx | hx
    · exact absurd hv (hxs x hx)
    · exact h.own x hx hv hc
  free := h.free

theorem again (h : c.OwnVotes signed t b) (hxs : ∀ x ∈ xs, x ∈ signed) :
    c.OwnVotes (xs ++ signed) t b := by
  have hmem : ∀ x ∈ xs ++ signed, x ∈ signed := fun x hx =>
    (List.mem_append.mp hx).elim (hxs x) id
  exact
    { kept := { h.kept with cover := fun x hx => h.kept.cover x (hmem x hx) }
      keyed := fun j g hg =>
        ⟨(h.keyed j g hg).1, (h.keyed j g hg).2.1,
          List.mem_append_right _ (h.keyed j g hg).2.2⟩
      own := fun x hx => h.own x (hmem x hx)
      free := h.free }

theorem own_of_get? (h : c.OwnVotes signed t b) {g : ElectionVoteGrant Sig}
    (hg : b.received.get? (b.term, c.name) = some g) :
    g.voter = c.name ∧ g.candidate = c.name ∧ g.toVoteGrantBody ∈ signed := by
  obtain ⟨hkey, -, hmem⟩ := h.keyed _ g hg
  exact ⟨(Prod.mk.inj hkey).2.symm,
    h.kept.received g (Dict.mem_values.mpr ⟨_, hg⟩), hmem⟩

theorem opened (h : c.OwnVotes signed t b) (ho : Opened b b') :
    c.OwnVotes signed t b' where
  kept := h.kept.opened ho
  keyed := fun _ _ hg => by rw [ho.2.1] at hg; exact absurd hg (by simp)
  own := by
    intro x hx hv hc
    obtain ⟨hterm, hexp, -⟩ := h.own x hx hv hc
    exact ⟨hterm.trans ho.1.le, hexp,
      fun hxt => absurd hxt (ne_of_lt (lt_of_le_of_lt hterm ho.1))⟩
  free := fun _ hg => by rw [ho.2.1] at hg; exact absurd hg (by simp)

theorem selfVoted (h : c.OwnVotes signed now b) (hs : c.SelfVoted now b b') :
    c.OwnVotes ((c.signGrant b.term c.name
      (now + c.timings.lease)).toVoteGrantBody :: signed) now b' := by
  obtain ⟨hfree, rfl⟩ := hs
  set new := c.signGrant b.term c.name (now + c.timings.lease) with hnew
  have hself : (b.received.set (b.term, c.name) new).get? (b.term, c.name)
      = some new := Dict.get?_set_self ..
  refine ⟨?_, ?_, ?_, ?_⟩
  · have hlog : ∀ x ∈ [new.toVoteGrantBody], x.candidate = c.name :=
      fun x hx => by rw [List.mem_singleton.mp hx]; rfl
    exact (h.kept.receive rfl).add (fun x hx _ hc => absurd (hlog x hx) hc)
  · intro j g hg
    rw [Dict.get?_set] at hg
    by_cases hj : j = (b.term, c.name)
    · rw [if_pos hj] at hg
      obtain rfl := Option.some.inj hg
      exact ⟨hj, le_refl _, List.mem_cons_self⟩
    · grind [cases OwnVotes]
  · intro x hx hv hc
    rcases List.mem_cons.mp hx with rfl | hx
    · exact ⟨le_refl _, le_refl _, fun _ _ => ⟨new, hself, le_refl _⟩⟩
    · obtain ⟨hterm, hexp, -⟩ := h.own x hx hv hc
      exact ⟨hterm, hexp, fun _ _ => ⟨new, hself, hexp⟩⟩
  · exact fun _ _ _ v hv => hfree v hv (h.kept.issued v hv).2.1

theorem voted (h : c.OwnVotes signed now b) {term : ℕ}
    {issued : Dict ℕ (ElectionVoteGrant Sig)}
    (hkept : c.VotesKept (xs ++ signed) now ⟨term, b.received, issued⟩)
    (hxs : ∀ x ∈ xs, x.candidate ≠ c.name) (hterm : b.term ≤ term)
    (hfree : ∀ g, b.received.get? (term, c.name) = some g →
      now < g.expiresAt → ∀ v ∈ issued.values, v.expiresAt ≤ now) :
    c.OwnVotes (xs ++ signed) now ⟨term, b.received, issued⟩ where
  kept := hkept
  keyed := fun j g hg =>
    ⟨(h.keyed j g hg).1, (h.keyed j g hg).2.1.trans hterm,
      List.mem_append_right _ (h.keyed j g hg).2.2⟩
  own := by
    intro x hx hv hc
    rcases List.mem_append.mp hx with hx | hx
    · exact absurd hc (hxs x hx)
    obtain ⟨hxterm, hexp, hdom⟩ := h.own x hx hv hc
    refine ⟨hxterm.trans hterm, hexp, fun hxt hlt => ?_⟩
    obtain rfl : term = b.term :=
      le_antisymm (le_of_eq_of_le hxt.symm hxterm) hterm
    exact hdom hxt hlt
  free := hfree

theorem receive (h : c.OwnVotes signed now b) {g : ElectionVoteGrant Sig}
    (hc : g.candidate = c.name) (hterm : g.term = b.term)
    (hlt : now < g.expiresAt) (hmem : g.toVoteGrantBody ∈ signed)
    (hlong : ∀ v ∈ b.received.get? (g.term, g.voter), now < v.expiresAt →
      v.expiresAt < g.expiresAt) :
    c.OwnVotes signed now
      { b with received := b.received.set (g.term, g.voter) g } := by
  have hvoter : g.voter ≠ c.name := by
    grind [cases OwnVotes]
  have hkey : (b.received.set (g.term, g.voter) g).get? (b.term, c.name)
      = b.received.get? (b.term, c.name) :=
    Dict.get?_set_ne _ (fun hj => hvoter (Prod.mk.inj hj).2.symm) _
  refine ⟨h.kept.receive hc, ?_, ?_, ?_⟩
  · grind [cases OwnVotes]
  · grind [cases OwnVotes]
  · grind [cases OwnVotes]

end OwnVotes

/-! ## One member -/

/-- **A proof in order**: both votes are signed, and the own vote excludes those to
peers. -/
def ProofInOrder (signed : List VoteGrantBody) (t : ℤ)
    (issued : Dict ℕ (ElectionVoteGrant Sig)) (p : PromotionProof Sig) :
    Prop :=
  p.candidate = c.name ∧ ∃ own other, p.grants = [own, other]
    ∧ own.voter = c.name ∧ other.voter ≠ c.name
    ∧ other.toVoteGrantBody ∈ signed
    ∧ (t < own.expiresAt → ∀ v ∈ issued.values, v.expiresAt ≤ t)

/-- **A member is in order**, and there is no break-glass. -/
structure InOrder (signed : List VoteGrantBody) (t : ℤ)
    (s : ElectionState Sig) : Prop where
  votes : c.OwnVotes signed t s.ballots
  idle : Idle s
  proof : ∀ p, s.proof = some p → c.ProofInOrder signed t s.issued p
  guarded : ∀ o ∈ s.override, o.kind ≠ .breakGlassPromote

variable {c} {signed xs : List VoteGrantBody} {t now : ℤ}
  {s s' : ElectionState Sig}

theorem OwnVotes.proofInOrder {p : PromotionProof Sig}
    (h : c.OwnVotes signed t s.ballots) (hp : c.ProofFrom s.ballots p) :
    c.ProofInOrder signed t s.issued p := by
  obtain ⟨hc, own, other, voter, hne, hgrants, hown, hother⟩ := hp
  obtain ⟨hkey, -, hmem⟩ := h.keyed _ other hother
  refine ⟨hc, own, other, hgrants, (h.own_of_get? hown).1, ?_, hmem, h.free own hown⟩
  rw [← (Prod.mk.inj hkey).2]
  exact hne

namespace InOrder

theorem init (start : ℤ) (outage : Bool) :
    c.InOrder [] t (ElectionParticipant.init start outage) where
  votes := OwnVotes.init start outage
  idle := fun _ => rfl
  proof := fun _ hp => absurd hp (by simp [ElectionParticipant.init])
  guarded := fun _ ho => absurd ho (by simp [ElectionParticipant.init])

theorem mono (h : c.InOrder signed t s) (ht : t ≤ now) :
    c.InOrder signed now s where
  votes := h.votes.mono ht
  idle := h.idle
  proof := by
    intro p hp
    obtain ⟨hc, own, other, hg, hv, hne, hmem, hfree⟩ := h.proof p hp
    exact ⟨hc, own, other, hg, hv, hne, hmem, fun hlt v hv =>
      (hfree (lt_of_le_of_lt ht hlt) v hv).trans ht⟩
  guarded := h.guarded

theorem proof_append (h : c.InOrder signed t s) (p : PromotionProof Sig)
    (hp : s.proof = some p) :
    c.ProofInOrder (xs ++ signed) t s.issued p := by
  obtain ⟨hc, own, other, hg, hv, hne, hmem, hfree⟩ := h.proof p hp
  exact ⟨hc, own, other, hg, hv, hne, List.mem_append_right _ hmem, hfree⟩

theorem others (h : c.InOrder signed t s)
    (hxs : ∀ x ∈ xs, x.voter ≠ c.name) : c.InOrder (xs ++ signed) t s where
  votes := h.votes.others hxs
  idle := h.idle
  proof := h.proof_append
  guarded := h.guarded

theorem votes_of_moves (h : c.InOrder signed now s) (hm : c.Moves now s s') :
    c.OwnVotes (Cluster.ownVote c.name s' ++ signed) now s'.ballots
      ∧ s'.issued = s.issued := by
  obtain ⟨b, hb, hb'⟩ := hm.votes
  have hvotes : c.OwnVotes signed now b ∧ b.issued = s.issued := by
    rcases hb with rfl | hb
    · exact ⟨h.votes, rfl⟩
    · exact ⟨h.votes.opened hb, hb.2.2⟩
  rcases hb' with hb' | hb'
  · rw [← hb'] at hvotes
    refine ⟨hvotes.1.again (fun x hx => ?_), hvotes.2⟩
    obtain ⟨g, hg, rfl⟩ : ∃ g, s'.received.get? (s'.term, c.name) = some g
        ∧ g.toVoteGrantBody = x := by simpa [Cluster.ownVote] using hx
    exact (hvotes.1.own_of_get? hg).2.2
  · refine ⟨?_, (congrArg Ballots.issued hb'.2).trans hvotes.2⟩
    have hget : s'.received.get? (s'.term, c.name)
        = some (c.signGrant b.term c.name (now + c.timings.lease)) := by
      show s'.ballots.received.get? (s'.ballots.term, c.name) = _
      rw [hb'.2]
      exact Dict.get?_set_self ..
    rw [Cluster.ownVote, hget]
    exact hvotes.1.selfVoted hb'

theorem observe [DecidableEq Sig] (h : c.InOrder signed now s)
    (observations : List MemberObservation) (inFlight : ℕ)
    (override : Option (FailoverOverride Sig))
    (ho : ∀ o ∈ override, o.kind ≠ .breakGlassPromote) :
    c.InOrder (Cluster.ownVote c.name
        (c.observe s observations now inFlight override) ++ signed) now
      (c.observe s observations now inFlight override) := by
  have hm : c.Moves now s (c.observe s observations now inFlight override) :=
    c.observe_moves h.idle observations inFlight override
  obtain ⟨hvotes, hissued⟩ := h.votes_of_moves hm
  refine ⟨hvotes, hm.idle, ?_, ?_⟩
  · intro p hp
    rcases hm.proof with hnone | ⟨-, hsame⟩ | ⟨q, -, hq, hfrom⟩
    · rw [hnone] at hp
      exact absurd hp (by simp)
    · rw [hissued]
      exact h.proof_append p (hsame ▸ hp)
    · obtain rfl := Option.some.inj (hq.symm.trans hp)
      exact hvotes.proofInOrder hfrom
  · intro o hmem
    rw [observe_override] at hmem
    exact ho o (Option.filter_eq_some_iff.mp hmem).1

theorem vote (h : c.InOrder signed now s) (epoch term : ℕ) (candidate : Member)
    (hown : s.role ≠ .elected → s.role ≠ .draining →
      c.eligibleLeader s now = some candidate → term = s.term →
      ∀ g ∈ s.received.get? (s.term, c.name), g.expiresAt ≤ now) :
    c.InOrder (((c.vote s epoch term candidate now).1.map
        (fun g => g.toVoteGrantBody)).toList ++ signed) now
      (c.vote s epoch term candidate now).2 := by
  by_cases hself : c.vote s epoch term candidate now = (none, s)
  · rw [hself]
    exact h
  obtain ⟨hrole, hdrain, hleader⟩ :=
    c.vote_asked s now epoch term candidate hself
  have hkept := h.votes.kept.vote epoch term candidate
  rcases c.vote_moves s now epoch term candidate with
    hv | ⟨hne, -, hterm, -, hvoted⟩
  · exact absurd hv hself
  have hfree : ∀ g, s.received.get? (term, c.name) = some g → ¬ now < g.expiresAt := by
    intro g hg
    obtain ⟨hkey, hle, -⟩ := h.votes.keyed _ g hg
    obtain rfl : term = s.term :=
      le_antisymm (le_of_eq_of_le (Prod.mk.inj hkey).1 hle) hterm
    exact not_lt.mpr (hown hrole hdrain hleader rfl g hg)
  have hproof : ∀ p, s.proof ≠ some p := fun p hp => by
    rw [h.idle hrole] at hp
    exact absurd hp (by simp)
  rcases hvoted with hv | ⟨g, hg, -, hv⟩ | hv <;> rw [hv] at hkept ⊢
  · exact ⟨h.votes.voted hkept (fun _ hx => absurd hx List.not_mem_nil) hterm
      (fun g hg hlt => absurd hlt (hfree g hg)), h.idle,
      fun p hp => absurd hp (hproof p), h.guarded⟩
  · refine ⟨h.votes.voted hkept (fun x hx => ?_) hterm
      (fun g hg hlt => absurd hlt (hfree g hg)), h.idle,
      fun p hp => absurd hp (hproof p), h.guarded⟩
    obtain rfl := List.mem_singleton.mp hx
    exact (h.votes.kept.issued g (Dict.mem_values.mpr ⟨term, hg⟩)).2.1
  · refine ⟨h.votes.voted hkept (fun x hx => ?_) hterm
      (fun g hg hlt => absurd hlt (hfree g hg)), h.idle,
      fun p hp => absurd hp (hproof p), h.guarded⟩
    obtain rfl := List.mem_singleton.mp hx
    exact hne

theorem receiveGrant [DecidableEq Sig] (h : c.InOrder signed now s)
    (g : ElectionVoteGrant Sig)
    (hg : c.crypto.verify (.voteGrant g.toVoteGrantBody) g.signature
        (c.membership.publicKey g.voter) = false
      ∨ g.toVoteGrantBody ∈ signed) :
    c.InOrder signed now (c.receiveGrant s g now).2 := by
  rcases c.receiveGrant_moves s now g with
    hv | ⟨hc, -, hterm, hlt, hver, hlong, hv⟩
  · rw [hv]
    exact h
  rw [hv]
  have hmem : g.toVoteGrantBody ∈ signed :=
    hg.resolve_left (by rw [hver]; decide)
  exact ⟨h.votes.receive hc hterm hlt hmem hlong, h.idle, h.proof, h.guarded⟩

theorem adoptTerm (h : c.InOrder signed t s) (term : ℕ) :
    c.InOrder signed t (ElectionParticipant.adoptTerm s term) := by
  unfold ElectionParticipant.adoptTerm
  split
  · exact h
  · rename_i hterm
    exact ⟨h.votes.opened ⟨not_le.mp (not_or.mp hterm).1, rfl, rfl⟩, h.idle,
      h.proof, h.guarded⟩

theorem acceptHandback [DecidableEq Sig] (h : c.InOrder signed t s)
    (notice : HandbackNotice Sig) (now : ℤ) :
    c.InOrder signed t (c.acceptHandback s notice now).2 := by
  rcases c.acceptHandback_moves h.idle notice now with hv | ⟨hb, hp, ho⟩
  · rw [hv]
    exact h
  · exact ⟨hb ▸ h.votes, fun _ => hp,
      fun p hp' => absurd (hp.symm.trans hp') (by simp), ho ▸ h.guarded⟩

end InOrder

end ElectionParticipant

namespace Cluster

variable {Sig : Type} [DecidableEq Sig] (k : Cluster Sig)

/-! ## The cluster -/

def InOrder (s : ClusterState Sig) : Prop :=
  ∀ m, (k.participant m).InOrder s.signed s.clock (s.member m)

/-- **No double vote.** A request of the member's own term, by the peer it
holds eligible, does not reach a member that neither serves nor drains while
the vote it gave itself in that term lasts. -/
def NoDoubleVote (s : ClusterState Sig) : ClusterStep Sig → Prop
  | .vote m request now =>
    (s.member m).role ≠ .elected → (s.member m).role ≠ .draining →
      (k.participant m).eligibleLeader (s.member m) now
        = some request.candidate →
      request.term = (s.member m).term →
      ∀ g ∈ (s.member m).received.get? ((s.member m).term, m),
        g.expiresAt ≤ now
  | _ => True

instance (s : ClusterState Sig) : ∀ a, Decidable (k.NoDoubleVote s a)
  | .vote .. => inferInstanceAs (Decidable (_ → _ → _ → _ → _))
  | .probe .. => isTrue trivial
  | .observe .. => isTrue trivial
  | .issueVoteRequest .. => isTrue trivial
  | .receiveGrant .. => isTrue trivial
  | .adoptTerm .. => isTrue trivial
  | .acceptHandback .. => isTrue trivial

variable {k} {s : ClusterState Sig} {now : ℤ} {m : Member}

omit [DecidableEq Sig] in
theorem InOrder.act (h : k.InOrder s) (xs : List VoteGrantBody)
    (hclock : s.clock ≤ now) {s' : ElectionState Sig}
    (hm : (k.participant m).InOrder (xs ++ s.signed) now s')
    (hxs : ∀ x ∈ xs, x.voter = m) (j : Member) :
    (k.participant j).InOrder (xs ++ s.signed) now
      (Function.update s.member m s' j) := by
  by_cases hj : j = m
  · grind
  · rw [Function.update_of_ne hj]
    refine ((h j).mono hclock).others (fun x hx hv => hj ?_)
    exact hv.symm.trans (hxs x hx)

theorem InOrder.step (h : k.InOrder s) (a : ClusterStep Sig)
    (ha : k.NoDoubleVote s a) : k.InOrder (k.step s a) := by
  cases a with
  | probe m peer ok latencyMs now =>
    rw [Cluster.step]
    split
    · rename_i hguard
      exact fun j => (h j).mono hguard.1
    · exact h
  | observe m now inFlight override =>
    rw [Cluster.step]
    split
    · rename_i hguard
      have hm := ((h m).mono hguard.1).observe
        ((s.liveness m).observations m now).1 inFlight override hguard.2
      refine h.act _ hguard.1 hm (fun x hx => ?_)
      obtain ⟨g, hg, rfl⟩ := by simpa [ownVote] using hx
      exact (hm.votes.own_of_get? hg).1
    · exact h
  | issueVoteRequest m => exact h
  | vote m request now =>
    rw [Cluster.step]
    split
    · rename_i hguard
      have hm := ((h m).mono hguard.1).vote request.epoch request.term
        request.candidate ha
      refine h.act _ hguard.1 hm (fun x hx => ?_)
      obtain ⟨g, hg, rfl⟩ := by simpa using hx
      exact ((k.participant m).vote_returned
        ((h m).mono hguard.1).votes.kept hg).1.voter
    · exact h
  | receiveGrant m grant now =>
    rw [Cluster.step]
    split
    · rename_i hguard
      exact h.act [] hguard.1 (((h m).mono hguard.1).receiveGrant grant hguard.2)
        (fun _ hx => absurd hx List.not_mem_nil)
    · exact h
  | adoptTerm m term =>
    exact h.act [] (le_refl _) ((h m).adoptTerm term)
      (fun _ hx => absurd hx List.not_mem_nil)
  | acceptHandback m notice now =>
    rw [Cluster.step]
    split
    · rename_i hguard
      exact h.act [] hguard (((h m).mono hguard).acceptHandback notice now)
        (fun _ hx => absurd hx List.not_mem_nil)
    · exact h

/-! ## Serving -/

def heldLeases (s : ClusterState Sig) : Set (Lease Member ℤ) :=
  {l | ∃ m p, (s.member m).proof = some p
    ∧ ∃ g ∈ p.grants, g.toVoteGrantBody.lease = l}

omit [DecidableEq Sig] in
theorem InOrder.grant_cases (h : k.InOrder s) {p : PromotionProof Sig}
    (hp : (s.member m).proof = some p) {g : ElectionVoteGrant Sig}
    (hg : g ∈ p.grants) (hlt : s.clock < g.expiresAt) :
    g.candidate = m ∧ (g.voter = m ∧ (∀ v ∈ (s.member m).issued.values,
            v.expiresAt ≤ s.clock)
        ∨ g.voter ≠ m ∧ ∃ v ∈ (s.member g.voter).issued.values,
            v.candidate = m ∧ s.clock < v.expiresAt) := by
  obtain ⟨hc, own, other, hgrants, hvown, hvother, hmem, hfree⟩ :=
    (h m).proof p hp
  have hcand : g.candidate = m := (p.coherent g hg).2.2.trans hc
  refine ⟨hcand, ?_⟩
  rw [hgrants] at hg
  rcases List.mem_cons.mp hg with rfl | hg
  · exact Or.inl ⟨hvown, hfree hlt⟩
  obtain rfl := List.mem_singleton.mp hg
  have hne : g.candidate ≠ g.voter := hcand.trans_ne (Ne.symm hvother)
  obtain ⟨v, hv, hvc, hve⟩ :=
    (h g.voter).votes.kept.cover _ hmem rfl hne hlt
  exact Or.inr ⟨hvother, v, hv, hvc.trans hcand, lt_of_lt_of_le hlt hve⟩

omit [DecidableEq Sig] in
theorem InOrder.exclusive (h : k.InOrder s) :
    Lease.Exclusive (heldLeases s) s.clock := by
  rintro _ ⟨a, p, hp, g, hg, rfl⟩ _ ⟨b, q, hq, g', hg', rfl⟩ hvoter hlt hlt'
  change g.voter = g'.voter at hvoter
  change g.candidate = g'.candidate
  obtain ⟨hc, hcase⟩ := h.grant_cases hp hg hlt
  obtain ⟨hc', hcase'⟩ := h.grant_cases hq hg' hlt'
  rw [hc, hc']
  rcases hcase with ⟨hv, hfree⟩ | ⟨-, v, hv, hvc, hve⟩ <;>
    rcases hcase' with ⟨hv', hfree'⟩ | ⟨-, v', hv', hvc', hve'⟩
  · exact hv.symm.trans (hvoter.trans hv')
  · -- the holder of the first proof gave the second a vote that lasts
    rw [← hvoter, hv] at hv'
    exact absurd (hfree v' hv') (not_le.mpr hve')
  · grind
  · rw [← hvoter] at hv'
    rw [← hvc, ← hvc']
    exact (h g.voter).votes.kept.single v hv v' hv' hve hve'

omit [DecidableEq Sig] in
theorem InOrder.leads_of_serving (h : k.InOrder s)
    (hs : (k.participant m).serving (s.member m) now = true) :
    Lease.Leads (heldLeases s) now m := by
  have hglass : ElectionParticipant.breakGlassOk (s.member m) now = false := by
    unfold ElectionParticipant.breakGlassOk
    cases ho : (s.member m).override with
    | none => rfl
    | some o =>
      have := (h m).guarded o ho
      simp [this]
  unfold ElectionParticipant.serving at hs
  rw [hglass, Bool.false_and, Bool.false_or, Bool.and_eq_true] at hs
  obtain ⟨p, hp, hok⟩ := (Option.any_eq_true _ _).mp hs.2
  have hcur : ∀ g ∈ p.grants, now < g.expiresAt := by
    intro g hg
    have := List.all_eq_true.mp (Bool.and_eq_true_iff.mp hok).1 g hg
    exact (VoteGrantBody.isCurrent_iff _ now).mp this
  obtain ⟨hc, own, other, hgrants, hvown, hvother, -, -⟩ := (h m).proof p hp
  have hbacks : ∀ g ∈ p.grants,
      Lease.Backs (heldLeases s) now g.voter m := fun g hg =>
    ⟨_, ⟨m, p, hp, g, hg, rfl⟩, rfl, (p.coherent g hg).2.2.trans hc, hcur g hg⟩
  refine ⟨{own.voter, other.voter}, ?_, ?_⟩
  · rw [Finset.card_pair (by rw [hvown]; exact Ne.symm hvother), Member.card]
    decide
  intro v hv
  rcases Finset.mem_insert.mp hv with rfl | hv
  · grind
  · grind

variable (k)

/-- At no moment from the clock's on do two members serve. -/
def OneServes (s : ClusterState Sig) : Prop :=
  ∀ now, s.clock ≤ now → ∀ a b,
    (k.participant a).serving (s.member a) now = true →
    (k.participant b).serving (s.member b) now = true → a = b

/-- **Mutual exclusion of the failover tier.** In every run of the cluster
without a double vote, at no moment do two members serve. -/
theorem serving_unique (start : ℤ) (outage : Member → Bool)
    (steps : List (ClusterStep Sig))
    (h : Run.Along k.step k.NoDoubleVote (init start outage) steps) :
    Run.Throughout k.step k.OneServes (init start outage) steps := by
  refine Run.throughout_of_invariant k.InOrder ?_ (fun s a hs ha => hs.step a ha)
    (fun m => ElectionParticipant.InOrder.init start (outage m)) h
  intro s hs now hnow a b ha hb
  exact Lease.leads_unique (hs.exclusive.mono hnow) (hs.leads_of_serving ha)
    (hs.leads_of_serving hb)

/-! ## Concrete runs -/

/-- The deployed cluster: one missed beat is unreachable, promotion takes 5 and
demotion 10, a lease lasts 1000. -/
def standard : Cluster (Payload × String) where
  membership := .standard
  crypto := .transparent
  privateKey := FailoverMembershipConfig.standard.publicKey
  timings := fun _ => ⟨5, 10, 1000, 5, by decide⟩
  restartFenceUntil := fun _ => none
  liveness := fun _ => ⟨1, 1, 100, by decide, by decide⟩

/-- Its start: core comes up with an outage behind it. -/
def standardStart : ClusterState (Payload × String) :=
  init 0 (fun m => decide (m = .core))

def firstRequest (m : Member) : ElectionVoteRequest (Payload × String) :=
  ⟨⟨1, 1, m⟩, (.voteRequest ⟨1, 1, m⟩, standard.privateKey m)⟩

/-- The Studios miss core; edge-a votes for itself and gets edge-b's vote. -/
def coreIsMissed : List (ClusterStep (Payload × String)) :=
  [.probe .edgeA .core false 0 0, .probe .edgeA .edgeB true 1 0,
    .probe .edgeB .core false 0 0, .probe .edgeB .edgeA true 1 0,
    .observe .edgeA 5 0 none, .issueVoteRequest .edgeA,
    .observe .edgeB 5 0 none, .vote .edgeB (firstRequest .edgeA) 6,
    .receiveGrant .edgeA
      ((standard.participant .edgeB).signGrant 1 .edgeA 1006) 7]

/-- Core gets edge-a's vote before edge-a counts its own; then edge-a misses core again.
-/
def coreIsBack : List (ClusterStep (Payload × String)) :=
  [.probe .edgeA .core true 1 8, .observe .edgeA 8 0 none,
    .probe .core .edgeA true 1 9, .observe .core 9 0 none,
    .observe .core 19 0 none, .issueVoteRequest .core,
    .vote .edgeA (firstRequest .core) 20,
    .receiveGrant .core
      ((standard.participant .edgeA).signGrant 1 .core 1020) 21,
    .observe .core 22 0 none,
    .probe .edgeA .core false 0 23, .observe .edgeA 28 0 none]

/-- Edge-a counts its votes and serves, alone. -/
theorem serving_unique_edgeA :
    let steps := coreIsMissed ++ [.observe .edgeA 8 0 none]
    Run.Throughout standard.step standard.OneServes standardStart steps
      ∧ (standard.participant .edgeA).serving
        ((Run.last standard.step standardStart steps).member .edgeA) 8
        = true :=
  ⟨serving_unique standard 0 _ _ (by decide), by decide⟩

/-- **Two members can serve at once.** Edge-a kept the vote it gave itself,
granted core another in the same term, and uses both. -/
theorem two_members_serve :
    let s := Run.last standard.step standardStart (coreIsMissed ++ coreIsBack)
    s.clock = 28 ∧ (standard.participant .core).serving (s.member .core) 28 = true
      ∧ (standard.participant .edgeA).serving (s.member .edgeA) 28 = true := by
  decide

end Cluster
