import Coire.ElectionMoves

/-!
# No voter backs two peers at once

`_issued` keeps one vote per term, so a renewal overwrites the vote before it
and a later term leaves it behind. What never happens is that a vote which
has not run out stops being represented: for every vote ever given there is,
until it expires, an entry for the same candidate that lasts at least as long
(`VotesKept.cover`). A vote for somebody else is refused as long as any entry
is current, so the votes given to different peers are valid at disjoint times
(`ElectionParticipant.votesCast_disjoint`).
-/

namespace ElectionParticipant

variable {Sig : Type} (c : ElectionParticipant Sig)

/-- **The votes given are still represented** among those kept: `signed` are
votes the member has signed, `t` is a moment not later than now. -/
structure VotesKept (signed : List VoteGrantBody) (t : ℤ)
    (b : Ballots Sig) : Prop where
  /-- A vote for a peer that has not run out has an entry for the same peer
  that lasts at least as long. -/
  cover : ∀ x ∈ signed, x.voter = c.name → x.candidate ≠ c.name →
    t < x.expiresAt →
    ∃ g ∈ b.issued.values, g.candidate = x.candidate
      ∧ x.expiresAt ≤ g.expiresAt
  /-- Issued votes are this member's, for peers, and within one lease. -/
  issued : ∀ g ∈ b.issued.values, g.voter = c.name ∧ g.candidate ≠ c.name
    ∧ g.expiresAt ≤ t + c.timings.lease
  /-- The issued votes that have not run out are for one peer. -/
  single : ∀ g ∈ b.issued.values, ∀ h ∈ b.issued.values, t < g.expiresAt →
    t < h.expiresAt → g.candidate = h.candidate
  /-- Received votes are for this member. -/
  received : ∀ g ∈ b.received.values, g.candidate = c.name

namespace VotesKept

variable {c} {signed : List VoteGrantBody} {t now : ℤ} {b b' : Ballots Sig}
  {s : ElectionState Sig}

theorem init (start : ℤ) (outage : Bool) :
    c.VotesKept [] t (ElectionParticipant.init start outage).ballots where
  cover := fun _ hx => absurd hx List.not_mem_nil
  issued := fun _ hg => absurd hg List.not_mem_nil
  single := fun _ hg => absurd hg List.not_mem_nil
  received := fun _ hg => absurd hg List.not_mem_nil

theorem mono (h : c.VotesKept signed t b) (ht : t ≤ now) :
    c.VotesKept signed now b where
  cover := fun x hx hv hc hlt =>
    h.cover x hx hv hc (lt_of_le_of_lt ht hlt)
  issued := fun g hg =>
    ⟨(h.issued g hg).1, (h.issued g hg).2.1, (h.issued g hg).2.2.trans (by omega)⟩
  single := fun g hg k hk hgt hkt =>
    h.single g hg k hk (lt_of_le_of_lt ht hgt) (lt_of_le_of_lt ht hkt)
  received := h.received

theorem add (h : c.VotesKept signed t b) {xs : List VoteGrantBody}
    (hxs : ∀ x ∈ xs, x.voter = c.name → x.candidate ≠ c.name →
      ∃ g ∈ b.issued.values, g.toVoteGrantBody = x) :
    c.VotesKept (xs ++ signed) t b where
  cover := by
    intro x hx hv hc hlt
    rcases List.mem_append.mp hx with hx | hx
    · grind
    · exact h.cover x hx hv hc hlt
  issued := h.issued
  single := h.single
  received := h.received

theorem of_issued_eq (h : c.VotesKept signed t b) (hi : b'.issued = b.issued)
    (hr : ∀ g ∈ b'.received.values, g.candidate = c.name) :
    c.VotesKept signed t b' where
  cover := by rw [hi]; exact h.cover
  issued := by rw [hi]; exact h.issued
  single := by rw [hi]; exact h.single
  received := hr

theorem opened (h : c.VotesKept signed t b) (ho : Opened b b') :
    c.VotesKept signed t b' :=
  h.of_issued_eq ho.2.2 (fun g hg => by
    rw [ho.2.1] at hg
    exact absurd hg List.not_mem_nil)

theorem receive (h : c.VotesKept signed t b) {k : ℕ × Member}
    {g : ElectionVoteGrant Sig} (hg : g.candidate = c.name) :
    c.VotesKept signed t { b with received := b.received.set k g } := by
  refine h.of_issued_eq rfl (fun g' hg' => ?_)
  obtain ⟨j, hj⟩ := Dict.mem_values.mp hg'
  rw [Dict.get?_set] at hj
  by_cases hjk : j = k
  · grind
  · rw [if_neg hjk] at hj
    exact h.received g' (Dict.mem_values.mpr ⟨j, hj⟩)

theorem selfVoted (h : c.VotesKept signed t b)
    (hs : c.SelfVoted now b b') : c.VotesKept signed t b' := by
  rw [hs.2]
  exact h.receive rfl

theorem moves (h : c.VotesKept signed t s.ballots) {s' : ElectionState Sig}
    (hm : c.Moves now s s') : c.VotesKept signed t s'.ballots := by
  obtain ⟨b, hb, hb'⟩ := hm.votes
  have hkept : c.VotesKept signed t b := by
    rcases hb with rfl | hb
    · exact h
    · exact h.opened hb
  rcases hb' with hb' | hb'
  · rw [hb']
    exact hkept
  · exact hkept.selfVoted hb'

theorem sign (h : c.VotesKept signed now b) (term : ℕ) {candidate : Member}
    (hc : candidate ≠ c.name)
    (hfree : ∀ g ∈ b.issued.values, g.candidate ≠ candidate → g.expiresAt ≤ now) :
    c.VotesKept signed now { b with
      term := term
      issued := b.issued.set term
        (c.signGrant term candidate (now + c.timings.lease)) } := by
  set new := c.signGrant term candidate (now + c.timings.lease) with hnew
  have hmem : ∀ g ∈ (b.issued.set term new).values, g = new ∨ g ∈ b.issued.values := by
    intro g hg
    obtain ⟨j, hj⟩ := Dict.mem_values.mp hg
    rw [Dict.get?_set] at hj
    by_cases hjt : j = term
    · grind
    · rw [if_neg hjt] at hj
      exact Or.inr (Dict.mem_values.mpr ⟨j, hj⟩)
  have hcur : ∀ g ∈ (b.issued.set term new).values, now < g.expiresAt →
      g.candidate = candidate := by
    intro g hg hlt
    rcases hmem g hg with rfl | hg
    · rfl
    · grind
  refine ⟨?_, ?_, ?_, h.received⟩
  · intro x hx hv hxc hlt
    obtain ⟨g, hg, hgc, hge⟩ := h.cover x hx hv hxc hlt
    obtain ⟨j, hj⟩ := Dict.mem_values.mp hg
    by_cases hjt : j = term
    · -- the entry of this term is overwritten, by a vote for the same peer
      have hgcand : g.candidate = candidate := by
        by_contra hne
        exact absurd (hfree g hg hne) (not_le.mpr (lt_of_lt_of_le hlt hge))
      refine ⟨new, Dict.mem_values.mpr ⟨term, Dict.get?_set_self ..⟩, ?_, ?_⟩
      · rw [← hgc, hgcand]
        rfl
      · exact hge.trans (h.issued g hg).2.2
    · exact ⟨g, Dict.mem_values.mpr ⟨j, by rw [Dict.get?_set_ne _ hjt, hj]⟩, hgc, hge⟩
  · intro g hg
    rcases hmem g hg with rfl | hg
    · exact ⟨rfl, hc, le_refl _⟩
    · exact h.issued g hg
  · grind

theorem vote (h : c.VotesKept signed now s.ballots) (epoch term : ℕ)
    (candidate : Member) :
    c.VotesKept (((c.vote s epoch term candidate now).1.map
        (fun g => g.toVoteGrantBody)).toList ++ signed) now
      (c.vote s epoch term candidate now).2.ballots := by
  rcases c.vote_moves s now epoch term candidate with
    hv | ⟨hne, -, -, hfree, hv | ⟨g, hg, -, hv⟩ | hv⟩
  · rw [hv]
    exact h
  · rw [hv]
    exact h.of_issued_eq rfl h.received
  · rw [hv]
    have hterm : c.VotesKept signed now { s.ballots with term := term } :=
      h.of_issued_eq rfl h.received
    refine hterm.add (fun x hx _ _ => ?_)
    obtain rfl := List.mem_singleton.mp hx
    exact ⟨g, Dict.mem_values.mpr ⟨term, hg⟩, rfl⟩
  · rw [hv]
    refine (h.sign term hne hfree).add (fun x hx _ _ => ?_)
    obtain rfl := List.mem_singleton.mp hx
    exact ⟨_, Dict.mem_values.mpr ⟨term, Dict.get?_set_self ..⟩, rfl⟩

end VotesKept

/-! ## Sequences of calls -/

/-- **Votes for different peers are valid at disjoint times.** -/
def DisjointWindows (log : List (ℤ × ElectionVoteGrant Sig)) : Prop :=
  ∀ x ∈ log, ∀ y ∈ log, x.2.candidate ≠ y.2.candidate → x.1 ≤ y.1 →
    x.2.expiresAt ≤ y.1

/-- What holds of a vote returned by the moment `t`. -/
structure Sound (t : ℤ) (x : ℤ × ElectionVoteGrant Sig) : Prop where
  time : x.1 ≤ t
  voter : x.2.voter = c.name
  candidate : x.2.candidate ≠ c.name
  within : x.2.expiresAt ≤ x.1 + c.timings.lease
  /-- It was current when it was returned, or signed then. -/
  lasting : x.1 < x.2.expiresAt ∨ x.2.expiresAt = x.1 + c.timings.lease

theorem Sound.mono {c : ElectionParticipant Sig} {t now : ℤ}
    {x : ℤ × ElectionVoteGrant Sig} (h : c.Sound t x) (ht : t ≤ now) :
    c.Sound now x :=
  { h with time := h.time.trans ht }

theorem vote_returned {signed : List VoteGrantBody} {s : ElectionState Sig}
    {epoch term : ℕ} {candidate : Member} {now : ℤ}
    {g : ElectionVoteGrant Sig} (h : c.VotesKept signed now s.ballots)
    (hg : (c.vote s epoch term candidate now).1 = some g) :
    c.Sound now (now, g) ∧ ∀ x ∈ signed, x.voter = c.name →
      x.candidate ≠ c.name → x.candidate ≠ g.candidate →
      x.expiresAt ≤ now := by
  have hpast : (∀ k ∈ s.issued.values, k.candidate ≠ candidate →
      k.expiresAt ≤ now) → ∀ x ∈ signed, x.voter = c.name →
      x.candidate ≠ c.name → x.candidate ≠ candidate →
      x.expiresAt ≤ now := by
    intro hfree x hx hv hc hne
    by_contra hlt
    obtain ⟨k, hk, hkc, hke⟩ := h.cover x hx hv hc (not_le.mp hlt)
    exact hlt (hke.trans (hfree k hk (hkc ▸ hne)))
  rcases c.vote_moves s now epoch term candidate with
    hv | ⟨hne, -, -, hfree, hv | ⟨k, hk, hlt, hv⟩ | hv⟩ <;> rw [hv] at hg
  · exact absurd hg (by simp)
  · exact absurd hg (by simp)
  · obtain rfl := Option.some.inj hg
    have hmem : k ∈ s.issued.values := Dict.mem_values.mpr ⟨term, hk⟩
    obtain ⟨hvoter, hcand, hexp⟩ := h.issued k hmem
    have hkc : k.candidate = candidate := by
      by_contra hkc
      exact absurd (hfree k hmem hkc) (not_le.mpr hlt)
    exact ⟨⟨le_refl _, hvoter, hcand, hexp, Or.inl hlt⟩, hkc ▸ hpast hfree⟩
  · obtain rfl := Option.some.inj hg
    exact ⟨⟨le_refl _, rfl, hne, le_refl _, Or.inr rfl⟩, hpast hfree⟩

/-- **A new vote keeps the windows disjoint.** Only the moment can be shared:
a vote given at the same moment and already run out was signed with a lease
that is not positive, and then so was the new one. -/
theorem DisjointWindows.cons {c : ElectionParticipant Sig}
    {log : List (ℤ × ElectionVoteGrant Sig)} {now : ℤ}
    {g : ElectionVoteGrant Sig} (hd : DisjointWindows log)
    (hs : ∀ x ∈ log, c.Sound now x) (hg : c.Sound now (now, g))
    (hpast : ∀ x ∈ log, x.2.candidate ≠ g.candidate → x.2.expiresAt ≤ now) :
    DisjointWindows ((now, g) :: log) := by
  grind [cases Sound, DisjointWindows]

def cast (s : ElectionState Sig) : Call Sig →
    List (ℤ × ElectionVoteGrant Sig)
  | .vote epoch term candidate now =>
    ((c.vote s epoch term candidate now).1.map (fun g => (now, g))).toList
  | _ => []

theorem cast_cases {signed : List VoteGrantBody} {t : ℤ}
    {s : ElectionState Sig} (h : c.VotesKept signed t s.ballots)
    (a : Call Sig) (ht : ∀ now ∈ a.time, t ≤ now) :
    c.cast s a = [] ∨ ∃ now g, c.cast s a = [(now, g)] ∧ a.time = some now
      ∧ c.Sound now (now, g) ∧ ∀ x ∈ signed, x.voter = c.name →
        x.candidate ≠ c.name → x.candidate ≠ g.candidate →
        x.expiresAt ≤ now := by
  cases a with
  | vote epoch term candidate now =>
    cases hg : (c.vote s epoch term candidate now).1 with
    | none => exact Or.inl (by simp [cast, hg])
    | some g =>
      obtain ⟨hs, hpast⟩ := c.vote_returned (h.mono (ht now rfl)) hg
      exact Or.inr ⟨now, g, by simp [cast, hg], rfl, hs, hpast⟩
  | observe => exact Or.inl rfl
  | receiveGrant => exact Or.inl rfl
  | adoptTerm => exact Or.inl rfl
  | acceptHandback => exact Or.inl rfl

section Calls

variable [DecidableEq Sig]

def votesCast (s : ElectionState Sig) :
    List (Call Sig) → List (ℤ × ElectionVoteGrant Sig)
  | [] => []
  | a :: as => c.cast s a ++ votesCast (c.call s a) as

theorem VotesKept.call {c : ElectionParticipant Sig}
    {signed : List VoteGrantBody} {t : ℤ} {s : ElectionState Sig}
    (h : c.VotesKept signed t s.ballots) (hidle : Idle s) (a : Call Sig)
    (ht : ∀ now ∈ a.time, t ≤ now) :
    c.VotesKept ((c.cast s a).map (fun x => x.2.toVoteGrantBody) ++ signed)
      (a.time.getD t) (c.call s a).ballots := by
  cases a with
  | observe observations now inFlight override =>
    exact (h.mono (ht now rfl)).moves
      (c.observe_moves hidle observations inFlight override)
  | vote epoch term candidate now =>
    have hv := (h.mono (ht now rfl)).vote epoch term candidate
    cases hg : (c.vote s epoch term candidate now).1 with
    | none => simpa [cast, ElectionParticipant.call, Call.time, hg] using hv
    | some g => simpa [cast, ElectionParticipant.call, Call.time, hg] using hv
  | receiveGrant grant now =>
    show c.VotesKept signed now (c.receiveGrant s grant now).2.ballots
    rcases c.receiveGrant_moves s now grant with
      hv | ⟨hc, -, -, -, -, -, hv⟩
    · rw [hv]
      exact h.mono (ht now rfl)
    · rw [hv]
      exact (h.mono (ht now rfl)).receive hc
  | adoptTerm term =>
    show c.VotesKept signed t (ElectionParticipant.adoptTerm s term).ballots
    rcases adoptTerm_moves (s := s) term with hv | ⟨-, ho, -, -⟩
    · rw [hv]
      exact h
    · exact h.opened ho
  | acceptHandback notice now =>
    show c.VotesKept signed now (c.acceptHandback s notice now).2.ballots
    rcases c.acceptHandback_moves hidle notice now with hv | ⟨hb, -, -⟩
    · rw [hv]
      exact h.mono (ht now rfl)
    · rw [hb]
      exact h.mono (ht now rfl)

theorem disjointWindows_append (log : List (ℤ × ElectionVoteGrant Sig))
    {t : ℤ} {s : ElectionState Sig} {calls : List (Call Sig)}
    (h : c.VotesKept (log.map (fun x => x.2.toVoteGrantBody)) t s.ballots)
    (hidle : Idle s) (hs : ∀ x ∈ log, c.Sound t x)
    (hd : DisjointWindows log)
    (ht : (calls.filterMap Call.time).Pairwise (· ≤ ·))
    (hstart : ∀ now ∈ calls.filterMap Call.time, t ≤ now) :
    DisjointWindows (log ++ c.votesCast s calls) := by
  -- the induction carries the log of the votes already returned
  induction calls generalizing log t s with
  | nil => rwa [votesCast, List.append_nil]
  | cons a as ih =>
    have ha : ∀ now ∈ a.time, t ≤ now := fun now hnow =>
      hstart now (List.mem_filterMap.mpr ⟨a, List.mem_cons_self, hnow⟩)
    have hlater : ∀ now ∈ as.filterMap Call.time, a.time.getD t ≤ now := by
      grind [List.pairwise_cons]
    have htail : (as.filterMap Call.time).Pairwise (· ≤ ·) := by
      grind
    have hle : t ≤ a.time.getD t := by
      cases htime : a.time with
      | none => exact le_refl t
      | some u => exact ha u htime
    have hkept := h.call hidle a ha
    rw [← List.map_append] at hkept
    have hs' : ∀ x ∈ log, c.Sound (a.time.getD t) x :=
      fun x hx => (hs x hx).mono hle
    rw [votesCast]
    rcases c.cast_cases h a ha with hc | ⟨now, g, hc, htime, hg, hpast⟩
    · rw [hc] at hkept ⊢
      exact ih log hkept (hidle.call c a) hs' hd htail hlater
    rw [htime, Option.getD_some] at hs'
    have hd' : DisjointWindows ((now, g) :: log) :=
      hd.cons hs' hg (fun x hx => hpast _
        (List.mem_map_of_mem hx) (hs x hx).voter (hs x hx).candidate)
    have := ih _ hkept (hidle.call c a) (by
      rw [hc, htime]
      exact List.forall_mem_cons.mpr ⟨hg, hs'⟩) (by rwa [hc]) htail hlater
    rw [hc] at this ⊢
    refine fun x hx y hy => this x ?_ y ?_
    · simpa [or_left_comm] using hx
    · simpa [or_left_comm] using hy

/-- **No voter backs two peers at once.** Over any calls at non-decreasing
moments, the votes a member returns for different candidates are valid at
disjoint times. -/
theorem votesCast_disjoint (start : ℤ) (outage : Bool) (calls : List (Call Sig))
    (ht : (calls.filterMap Call.time).Pairwise (· ≤ ·)) :
    DisjointWindows (c.votesCast (init start outage) calls) := by
  obtain ⟨t, hstart⟩ : ∃ t, ∀ now ∈ calls.filterMap Call.time, t ≤ now := by
    cases hcalls : calls.filterMap Call.time with
    | nil => exact ⟨0, fun _ hx => absurd hx List.not_mem_nil⟩
    | cons t ts =>
      rw [hcalls, List.pairwise_cons] at ht
      exact ⟨t, List.forall_mem_cons.mpr ⟨le_refl t, ht.1⟩⟩
  exact c.disjointWindows_append [] (VotesKept.init start outage)
    (fun _ => rfl) (fun _ hx => absurd hx List.not_mem_nil)
    (fun _ hx => absurd hx List.not_mem_nil) ht hstart

/-- Edge-b votes for core, and for edge-a once core is unreachable. -/
theorem votesCast_disjoint_two_peers :
    let c := standard .edgeB ⟨10, 20, 50, 5, by decide⟩
    let calls : List (Call (Payload × String)) :=
      [.observe [⟨.core, .healthy, 0⟩] 0 0 none, .vote 1 1 .core 0,
        .observe [⟨.core, .unreachable, 10⟩, ⟨.edgeA, .healthy, 0⟩] 50 0 none,
        .vote 1 1 .edgeA 50]
    (c.votesCast (init 0 false) calls).map
        (fun x => (x.1, x.2.candidate, x.2.expiresAt))
        = [(0, .core, 50), (50, .edgeA, 100)]
      ∧ DisjointWindows (c.votesCast (init 0 false) calls) :=
  ⟨by decide, votesCast_disjoint _ 0 false _ (by decide)⟩

end Calls

end ElectionParticipant
