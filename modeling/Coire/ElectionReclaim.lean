import Coire.ElectionMoves
import Coire.Run

/-!
# Core reclaims after a healthy window

Core fences when it loses its quorum, and is to be elected again only when it has been
healthy for the demotion threshold. `_reclaim_since` marks the beginning of the healthy
window. It is set at the first observation with a quorum and cleared when another member
is to lead, which for core, first in the order, is never the case; a quorum lost inside
the window leaves it standing.

So core may be elected after a broken window (`reclaimed_after_broken_window`), and only
then too early (`reclaims_after_unbroken_window`).
-/

namespace FailoverMembershipConfig

variable {m : FailoverMembershipConfig}

theorem nodup_names (m : FailoverMembershipConfig) :
    (m.members.map FailoverMember.name).Nodup := by
  have hsub : [Member.core, .edgeA, .edgeB].Subperm
      (m.members.map FailoverMember.name) :=
    List.subperm_of_subset (by decide) fun n _ => m.name_mem n
  refine (hsub.perm_of_length_le ?_).nodup_iff.mp (by decide)
  rw [List.length_map, m.length_members]
  rfl

theorem eq_of_name_eq {x y : FailoverMember} (hx : x ∈ m.members)
    (hy : y ∈ m.members) (h : x.name = y.name) : x = y :=
  List.inj_on_of_nodup_map m.nodup_names hx hy h

theorem priority_of_mem {x : FailoverMember} (hx : x ∈ m.members) :
    m.priority x.name = x.priority := by
  unfold priority
  cases hfind : m.members.find? (fun y => y.name = x.name) with
  | none => exact absurd (decide_eq_true rfl) (List.find?_eq_none.mp hfind x hx)
  | some y =>
    have hname : y.name = x.name := by simpa using List.find?_some hfind
    rw [m.eq_of_name_eq (List.mem_of_find?_eq_some hfind) hx hname]
    rfl

end FailoverMembershipConfig

namespace ElectionParticipant

variable {Sig : Type} {c : ElectionParticipant Sig} {s : ElectionState Sig}
  {now : ℤ}

/-! ## Who is visible -/

theorem mem_visible {x : FailoverMember} (hx : x ∈ c.membership.members)
    {o : MemberObservation} (ho : observed s x.name = some o)
    (hreach : o.health ≠ .unreachable) : x.name ∈ c.visible s := by
  grind [visible, List.mem_toFinset]

theorem eligibleAmong_self {l : List FailoverMember}
    (hl : l.Pairwise fun a b => a.priority ≤ b.priority)
    (h : c.eligibleAmong s now l = some c.name) {x : FailoverMember} (hx : x ∈ l)
    (hreach : ∀ o, observed s x.name = some o → o.health ≠ .unreachable) :
    ∃ y ∈ l, y.name = c.name ∧ y.priority ≤ x.priority := by
  induction l with
  | nil => exact nomatch hx
  | cons y l ih =>
    obtain ⟨hy, hl⟩ := List.pairwise_cons.mp hl
    rw [eligibleAmong] at h
    split at h
    · grind
    rename_i hname
    split at h
    · grind [higherStatus]
    · cases h
    · exact absurd (Option.some.inj h) hname

theorem lowerVisible_of_leader (h : c.eligibleLeader s now = some c.name)
    (hq : c.quorum s = true) : c.lowerVisible s = true := by
  obtain ⟨n, hn, hne⟩ := Finset.exists_mem_ne (of_decide_eq_true hq) c.name
  have hvisible := hn
  simp only [visible, Finset.mem_insert, List.mem_toFinset, List.mem_filter,
    List.mem_map] at hn
  obtain ⟨⟨x, hx, rfl⟩, hreach⟩ := hn.resolve_left hne
  have hsort {z : FailoverMember} : z ∈ c.membership.byPriority
      ↔ z ∈ c.membership.members := List.mem_insertionSort _
  obtain ⟨y, hy, hname, hle⟩ := eligibleAmong_self
    (List.pairwise_insertionSort _ _) h (hsort.mpr hx) fun o ho => by
      simpa [ho, hne] using hreach
  have hy := hsort.mp hy
  unfold lowerVisible
  rw [List.any_eq_true]
  refine ⟨x, hx, ?_⟩
  have hlt : y.priority ≠ x.priority := fun he => hne (by
    rw [← hname, List.inj_on_of_nodup_map c.membership.nodup_priority hy hx he])
  rw [← hname, c.membership.priority_of_mem hy]
  simp only [hvisible, decide_true, Bool.and_true, decide_eq_true_eq]
  omega

theorem quorum_of_higherRecovered (h : c.higherRecovered s now = true) :
    c.quorum s = true := by
  obtain ⟨x, hx, hand⟩ := List.any_eq_true.mp h
  rw [Bool.and_eq_true, decide_eq_true_iff] at hand
  obtain ⟨o, ho, hhealth⟩ := (Option.any_eq_true _ _).mp hand.2
  rw [Bool.and_eq_true, decide_eq_true_iff] at hhealth
  have hne : x.name ≠ c.name := by
    intro he
    have := hand.1
    rw [← he, c.membership.priority_of_mem hx] at this
    omega
  refine decide_eq_true (Finset.one_lt_card.mpr ⟨x.name, ?_, c.name, ?_, hne⟩)
  · exact mem_visible hx ho (by rw [hhealth.1]; nofun)
  · exact Finset.mem_insert_self ..

/-! ## What a poll does to the window -/

/-- **What an observation does** to the role, the outage and the window, without
break-glass. -/
structure Polled (c : ElectionParticipant Sig) (now : ℤ)
    (s s' : ElectionState Sig) : Prop where
  window : ∀ t, s'.reclaimSince = some t →
    s.reclaimSince = some t ∨ t = now ∧ c.quorum s = true
  elected : s.outage = true → s.role ≠ .elected → s'.role = .elected →
    c.quorum s = true ∧ c.timings.demotion ≤ now - s.reclaimSince.getD now
  outage : s.outage = true → s'.role ≠ .elected → s'.outage = true
  fenced : s.role = .elected → c.quorum s = false →
    s'.role ≠ .elected ∧ s'.outage = true

/-- **What `_may_campaign` decides** for a leader without break-glass: after an
outage it lets it campaign only at the end of the window. -/
theorem mayCampaign_spec {b : Bool} {s' : ElectionState Sig}
    (hb : breakGlassOk s now = false) (hlead : c.eligibleLeader s now = some c.name)
    (h : c.mayCampaign s now (c.eligibleLeader s now) = (b, s')) :
    s'.outage = s.outage ∧ s'.role = s.role ∧ (∀ t, s'.reclaimSince = some t →
        s.reclaimSince = some t ∨ t = now ∧ c.quorum s = true)
      ∧ (b = true → s.outage = true → c.quorum s = true
        ∧ c.timings.demotion ≤ now - s.reclaimSince.getD now) := by
  have hlower := lowerVisible_of_leader hlead
  cases hsince : s.reclaimSince <;> grind [mayCampaign]

def KeepsWindow (s s' : ElectionState Sig) : Prop :=
  s'.reclaimSince = s.reclaimSince ∧ s'.outage = s.outage
    ∧ (s'.role = .elected → s.role = .elected)

theorem keepsWindow_selfGrant (c : ElectionParticipant Sig) (s : ElectionState Sig)
    (now : ℤ) : KeepsWindow s (c.ensureSelfGrant (openCandidacy s) now) := by
  unfold KeepsWindow
  grind [openCandidacy, ensureSelfGrant]

theorem polled_campaign (hb : breakGlassOk s now = false)
    (hrole : s.role ≠ .elected) : Polled c now s (c.campaign s now) := by
  unfold campaign
  extract_lets leader
  split
  · constructor <;> grind [withdraw]
  rename_i hlead
  split
  · rename_i s' h
    have hspec := mayCampaign_spec hb (not_not.mp hlead) h
    constructor <;> grind [withdraw]
  rename_i s' h
  obtain ⟨houtage, hsame, hwindow, hmay⟩ := mayCampaign_spec hb (not_not.mp hlead) h
  obtain ⟨hw, ho, hr⟩ := keepsWindow_selfGrant c s' now
  have hpromote (p : Option (PromotionProof Sig)) (b : Bool) : Polled c now s
        (c.promote (c.ensureSelfGrant (openCandidacy s') now) p b) := by
    constructor <;> grind [promote, record]
  extract_lets s''
  split
  · exact hpromote _ _
  split
  · exact hpromote _ _
  · constructor <;> grind

theorem polled_holdOrFence (hb : breakGlassOk s now = false)
    (hrole : s.role = .elected) : Polled c now s (c.holdOrFence s now) := by
  constructor <;> grind [holdOrFence, fence, ensureSelfGrant, record]

theorem polled_drain (hrole : s.role ≠ .elected ∨ c.quorum s = true)
    (now' : ℤ) : Polled c now s (c.finishDrainIfIdle (c.beginDrain s now')) := by
  constructor <;> grind [finishDrainIfIdle, beginDrain, record]

theorem polled_advance [DecidableEq Sig] (hcore : c.name = .core)
    (hb : breakGlassOk s now = false) : Polled c now s (c.advance s now) := by
  have htransition : Polled c now s (c.transition s now) := by
    unfold transition
    split
    · rename_i h
      simp [inhibitApplies, hcore] at h
    split
    · rename_i h
      exact polled_drain (.inr (quorum_of_higherRecovered h.2)) now
    split
    · rename_i hdrain
      have hbegin : c.beginDrain s now = s := if_pos hdrain
      rw [← hbegin]
      nth_rewrite 1 [hbegin]
      exact polled_drain (.inl (by rw [hdrain]; nofun)) now
    split
    · exact polled_holdOrFence hb ‹_›
    · exact polled_campaign hb ‹_›
  unfold advance emit
  split
  · exact htransition
  · exact ⟨htransition.window, htransition.elected, htransition.outage,
      htransition.fenced⟩

theorem keepsWindow_call [DecidableEq Sig] {a : Call Sig}
    (ha : ∀ observations now n o, a ≠ .observe observations now n o) :
    KeepsWindow s (c.call s a) := by
  cases a with
  | observe observations now n o => exact absurd rfl (ha observations now n o)
  | vote epoch term candidate now =>
    show KeepsWindow s (c.vote s epoch term candidate now).2
    rcases c.vote_moves s now epoch term candidate with
      hv | ⟨-, -, -, -, hv | ⟨_, -, -, hv⟩ | hv⟩ <;> rw [hv] <;> exact ⟨rfl, rfl, id⟩
  | receiveGrant grant now =>
    show KeepsWindow s (c.receiveGrant s grant now).2
    rcases c.receiveGrant_moves s now grant with
      hv | ⟨-, -, -, -, -, -, hv⟩ <;> rw [hv] <;> exact ⟨rfl, rfl, id⟩
  | adoptTerm term =>
    show KeepsWindow s (ElectionParticipant.adoptTerm s term)
    unfold KeepsWindow
    grind [ElectionParticipant.adoptTerm]
  | acceptHandback notice now =>
    show KeepsWindow s (c.acceptHandback s notice now).2
    unfold acceptHandback
    repeat' split
    · exact ⟨rfl, rfl, id⟩
    · exact ⟨rfl, rfl, id⟩
    · exact ⟨rfl, rfl, id⟩
    · exact ⟨rfl, rfl, id⟩
    · unfold KeepsWindow
      grind [emit, finishDrainIfIdle, beginDrain, record]

/-! ## Runs -/

/-- **Every observation since `t` showed a quorum.** The latest observation
comes first. -/
def Sustained (t : ℤ) (seen : List (ℤ × Bool)) : Prop :=
  ∀ x ∈ seen.takeWhile (fun x => decide (t < x.1)), x.2 = true

theorem Sustained.cons {t : ℤ} {seen : List (ℤ × Bool)} (h : Sustained t seen)
    (now : ℤ) : Sustained t ((now, true) :: seen) := by
  grind [Sustained, List.takeWhile_cons]

theorem sustained_now (now : ℤ) (q : Bool) (seen : List (ℤ × Bool)) :
    Sustained now ((now, q) :: seen) := by
  simp [Sustained]

theorem Sustained.mono {t t' : ℤ} (ht : t ≤ t') :
    ∀ {seen : List (ℤ × Bool)}, Sustained t seen → Sustained t' seen
  | [], _ => nofun
  | x :: seen, h => by
    unfold Sustained at h ⊢
    rw [List.takeWhile_cons] at h ⊢
    split
    · rename_i hx
      rw [if_pos (by simp at hx ⊢; omega)] at h
      exact List.forall_mem_cons.mpr
        ⟨h x List.mem_cons_self, Sustained.mono ht fun y hy =>
          h y (List.mem_cons_of_mem _ hy)⟩
    · exact nofun

/-- A participant that is watched: its observations, and whether it has fenced for a
lost quorum and not been elected since. -/
structure Watch (Sig : Type) where
  state : ElectionState Sig
  seen : List (ℤ × Bool)
  lost : Bool

structure Watched (w : Watch Sig) : Prop where
  lost : w.lost = true → w.state.outage = true ∧ w.state.role ≠ .elected
  window : ∀ t, w.state.reclaimSince = some t → Sustained t w.seen

theorem Watched.aside {w : Watch Sig} (hw : Watched w) {s' : ElectionState Sig}
    (h : KeepsWindow w.state s') : Watched { w with state := s' }
      ∧ (w.lost = true → s'.role ≠ .elected) :=
  have hrole hlost he := (hw.lost hlost).2 (h.2.2 he)
  ⟨⟨fun hlost => ⟨h.2.1.trans (hw.lost hlost).1, hrole hlost⟩,
    fun t ht => hw.window t (h.1.symm.trans ht)⟩, hrole⟩

variable (c) [DecidableEq Sig]

def watch (w : Watch Sig) (a : Call Sig) : Watch Sig :=
  match a with
  | .observe observations now inFlight override =>
    let q := c.quorum (c.feed w.state observations now inFlight override)
    let s' := c.call w.state a
    ⟨s', (now, q) :: w.seen, decide (s'.role ≠ .elected)
      && (w.lost || decide (w.state.role = .elected) && !q)⟩
  | a => { w with state := c.call w.state a }

/-- **It is elected again only after a healthy window**, at an observation. -/
def ReclaimsHealthy (w : Watch Sig) (a : Call Sig) : Prop :=
  w.lost = true → (c.watch w a).state.role = .elected →
    ∃ observations now inFlight override,
      a = .observe observations now inFlight override
        ∧ Sustained (now - c.timings.demotion) (c.watch w a).seen

/-- No break-glass override is presented, and an observation made inside an open
window shows a quorum. -/
def Unbroken (w : Watch Sig) : Call Sig → Prop
  | .observe observations now inFlight override =>
    (∀ o ∈ override, o.kind ≠ .breakGlassPromote)
      ∧ (w.state.reclaimSince ≠ none →
        c.quorum (c.feed w.state observations now inFlight override) = true)
  | _ => True

instance (w : Watch Sig) : ∀ a, Decidable (c.Unbroken w a)
  | .observe _ _ _ _ => inferInstanceAs (Decidable (_ ∧ _))
  | .vote .. | .receiveGrant .. | .adoptTerm .. | .acceptHandback .. =>
    inferInstanceAs (Decidable True)

variable {c}

theorem Watched.observe {w : Watch Sig} (hw : Watched w) (hcore : c.name = .core)
    {observations : List MemberObservation} {n : ℕ}
    {override : Option (FailoverOverride Sig)}
    (h : c.Unbroken w (.observe observations now n override)) :
    Watched (c.watch w (.observe observations now n override))
      ∧ c.ReclaimsHealthy w (.observe observations now n override) := by
  set fed := c.feed w.state observations now n override
  have hb : breakGlassOk fed now = false := by
    simp only [breakGlassOk, fed, feed, Option.any_eq_false]
    intro o ho
    simp [h.1 o (Option.filter_eq_some_iff.mp ho).1]
  have hpoll : Polled c now fed (c.call w.state
      (.observe observations now n override)) := polled_advance hcore hb
  have hstay {t : ℤ} (ht : w.state.reclaimSince = some t) :
      Sustained t ((now, c.quorum fed) :: w.seen) := by
    rw [h.2 (by rw [ht]; nofun)]
    exact (hw.window t ht).cons now
  refine ⟨⟨fun hlost => ?_, fun t ht => ?_⟩, fun hlost helected => ?_⟩
  · simp only [watch, Bool.and_eq_true, Bool.or_eq_true, decide_eq_true_eq,
      Bool.not_eq_true'] at hlost
    refine ⟨?_, hlost.1⟩
    rcases hlost.2 with hold | ⟨hrole, hq⟩
    · exact hpoll.outage (hw.lost hold).1 hlost.1
    · exact (hpoll.fenced hrole hq).2
  · rcases hpoll.window t ht with hopen | ⟨rfl, -⟩
    · exact hstay hopen
    · exact sustained_now t _ _
  · obtain ⟨-, hdemotion⟩ :=
      hpoll.elected (hw.lost hlost).1 (hw.lost hlost).2 helected
    have hdemotion : c.timings.demotion
      ≤ now - w.state.reclaimSince.getD now := hdemotion
    refine ⟨observations, now, n, override, rfl, ?_⟩
    cases ht : w.state.reclaimSince with
    | none =>
      rw [ht, Option.getD_none] at hdemotion
      exact (sustained_now now _ _).mono (by omega)
    | some t =>
      rw [ht, Option.getD_some] at hdemotion
      exact (hstay ht).mono (by omega)

theorem Watched.call {w : Watch Sig} (hw : Watched w) (hcore : c.name = .core)
    {a : Call Sig} (h : c.Unbroken w a) :
    Watched (c.watch w a) ∧ c.ReclaimsHealthy w a := by
  cases a with
  | observe observations now n override => exact hw.observe hcore h
  | vote | receiveGrant | adoptTerm | acceptHandback =>
    refine ⟨(hw.aside (keepsWindow_call ?_)).1, fun hlost he =>
      absurd he ((hw.aside (keepsWindow_call ?_)).2 hlost)⟩ <;> nofun

/-- **Core reclaims after a healthy window**, in every run without break-glass
in which no observation made inside an open window lacks a quorum. -/
theorem reclaims_after_unbroken_window (c : ElectionParticipant Sig)
    (hcore : c.name = .core) (start : ℤ) (outage : Bool) (as : List (Call Sig))
    (h : Run.Along c.watch c.Unbroken ⟨init start outage, [], false⟩ as) :
    Run.Along c.watch c.ReclaimsHealthy ⟨init start outage, [], false⟩ as :=
  Run.along_of_invariant Watched (fun _ _ hw ha => (hw.call hcore ha).1)
    (fun _ _ hw ha => (hw.call hcore ha).2) ⟨nofun, fun _ h => nomatch h⟩ h

/-! ### Two reclaims -/

def quickCore : ElectionParticipant (Payload × String) :=
  standard .core ⟨1, 2, 30, 1, by decide⟩

def look (sees : Bool) (now : ℤ) : Call (Payload × String) :=
  .observe (if sees then [⟨.edgeA, .healthy, 0⟩] else []) now 0 none

def edgeVote (term : ℕ) (now : ℤ) : Call (Payload × String) :=
  .receiveGrant ((standard .edgeA ⟨1, 2, 30, 1, by decide⟩).signGrant term .core
    (now + 30)) now

/-- Core is elected, loses its quorum, looks around, and gets a vote. -/
def regain (looks : List (Call (Payload × String))) : Watch (Payload × String) :=
  Run.last quickCore.watch ⟨init 0 false, [], false⟩
    ([look true 0, edgeVote 1 0, look true 1, look false 2, look true 3] ++ looks
      ++ [look true 5, edgeVote 2 5])

theorem reclaims_unbroken :
    Run.Along quickCore.watch quickCore.ReclaimsHealthy ⟨init 0 false, [], false⟩
      [look true 0, edgeVote 1 0, look true 1, look false 2, look true 3,
        look true 4, look true 5, edgeVote 2 5, look true 5]
      ∧ (quickCore.watch (regain [look true 4]) (look true 5)).state.role = .elected :=
  ⟨reclaims_after_unbroken_window quickCore rfl 0 false _ (by decide +kernel),
    by decide +kernel⟩

/-- **Core is elected again though it lost its quorum on the way.** -/
theorem reclaimed_after_broken_window :
    ¬ quickCore.ReclaimsHealthy (regain [look false 4]) (look true 5) := by
  intro h
  obtain ⟨_, _, _, _, ha, hsustained⟩ :=
    h (by decide +kernel) (by decide +kernel)
  cases ha
  revert hsustained
  unfold Sustained
  decide +kernel

end ElectionParticipant
