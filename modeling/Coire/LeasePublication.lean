import Coire.ElectionMoves
import Coire.Run

/-!
# The published lease

The frontend of a Studio trusts the lease file, which the listener rewrites when `_emit`
tells it that something changed. `_emit` compares the role and the proof with those it
told last. The lease depends on one thing more: while the member serves without a proof
it shows the break-glass override, and an override that takes the place of another
changes neither the role nor the proof.

So the file can be stale, and that is the only way it can be
(`ElectionParticipant.leaseFile_eq_lease_iff`).
-/

namespace ElectionParticipant

variable {Sig : Type} (c : ElectionParticipant Sig) (s : ElectionState Sig)

/-! ## Serving without a proof -/

variable {s}

theorem inhibitApplies_eq_false {now : ℤ} (h : breakGlassOk s now = true) :
    c.inhibitApplies s now = false := by
  grind [Option.any_eq_true, inhibitApplies, breakGlassOk]

theorem higherRecovered_eq_false_of_role {now : ℤ} (hr : s.role = .elected)
    (h : (c.transition s now).role = .elected) :
    c.higherRecovered s now = false := by
  by_contra hh
  rw [Bool.not_eq_false] at hh
  unfold transition at h
  rw [if_pos (And.intro (Or.inl hr) hh)] at h
  split at h
  · rw [fence_role] at h
    exact ServiceRole.noConfusion h
  · exact c.finishDrainIfIdle_role _ (by rw [beginDrain_role]; decide) h

/-- **A member that serves without a proof goes on doing so** exactly while
break-glass is in force and no member before it has recovered. -/
theorem transition_bare_iff {now : ℤ} (hr : s.role = .elected) (hp : s.proof = none) :
    ((c.transition s now).role = .elected ∧ (c.transition s now).proof = none)
      ↔ breakGlassOk s now = true ∧ c.higherRecovered s now = false := by
  constructor
  · rintro ⟨hrole, hproof⟩
    have hrec := c.higherRecovered_eq_false_of_role hr hrole
    refine ⟨?_, hrec⟩
    by_contra hb
    rw [Bool.not_eq_true] at hb
    have hok : c.proofOk s now = false := by
      unfold proofOk
      rw [hp]
      rfl
    unfold transition at hrole hproof
    split at hrole
    · rw [fence_role] at hrole
      exact ServiceRole.noConfusion hrole
    rename_i hi
    rw [if_neg hi, hrec] at hproof
    rw [hrec] at hrole
    simp only [hr, Bool.false_eq_true, and_false, if_false, reduceCtorEq,
      if_true] at hrole hproof
    unfold holdOrFence at hrole hproof
    rw [hb, hok] at hrole hproof
    simp only [Bool.not_false, Bool.and_true, Bool.false_and, Bool.and_false,
      Bool.false_eq_true, if_false] at hrole hproof
    split at hrole
    · rw [fence_role] at hrole
      exact ServiceRole.noConfusion hrole
    rename_i hq
    rw [if_neg hq] at hproof
    split at hrole
    · grind
    · exact ServiceRole.noConfusion hrole
  · rintro ⟨hb, hrec⟩
    have hkeep : c.transition s now = s := by
      unfold transition holdOrFence
      rw [c.inhibitApplies_eq_false hb, hrec, hr, hb, hp]
      simp [proofOk, hp]
    rw [hkeep]
    exact ⟨hr, hp⟩

theorem breakGlassOk_feed {observations : List MemberObservation} {now : ℤ}
    {inFlight : ℕ} {override : Option (FailoverOverride Sig)} :
    breakGlassOk (c.feed s observations now inFlight override) now = true
      ↔ ∃ o ∈ override, c.overrideIsAuthentic o = true
        ∧ o.kind = .breakGlassPromote ∧ o.isCurrent now = true := by
  unfold breakGlassOk feed
  rw [Option.any_eq_true]
  constructor
  · rintro ⟨o, ho, hk⟩
    obtain ⟨hmem, hauth⟩ := Option.filter_eq_some_iff.mp ho
    rw [Bool.and_eq_true, decide_eq_true_iff] at hk
    exact ⟨o, hmem, hauth, hk⟩
  · rintro ⟨o, hmem, hauth, hk⟩
    refine ⟨o, Option.filter_eq_some_iff.mpr ⟨hmem, hauth⟩, ?_⟩
    rw [Bool.and_eq_true, decide_eq_true_iff]
    exact hk

/-! ## The lease of a state -/

theorem lease_eq_none (h : s.role ≠ .elected) : c.lease s = none :=
  if_neg h

theorem lease_congr {s' : ElectionState Sig} (hr : s'.role = s.role)
    (hp : s'.proof = s.proof)
    (ho : s.proof = none → s'.override = s.override) :
    c.lease s' = c.lease s := by
  unfold lease
  rw [hr, hp]
  split
  · cases hproof : s.proof with
    | none => rw [ho hproof]
    | some p => rfl
  · rfl

theorem lease_bare_iff {o : FailoverOverride Sig} (hr : s.role = .elected)
    (hp : s.proof = none) (hk : o.kind = .breakGlassPromote) :
    c.lease s = some ⟨c.name, none, some o⟩ ↔ s.override = some o := by
  unfold lease
  rw [if_pos hr, hp]
  cases ho : s.override with
  | none => simp
  | some o' =>
    dsimp only
    by_cases hk' : o'.kind = .breakGlassPromote
    · rw [if_pos hk']
      simp
    · grind

/-! ## Publication -/

variable [DecidableEq Sig]

theorem emit_published : (c.emit s).published = some (s.role, s.proof) := by
  unfold emit
  split
  · assumption
  · rfl

theorem lease_emit : c.lease (c.emit s) = c.lease s := by
  unfold emit
  split <;> rfl

theorem emit_synced_iff (hpub : c.publishesLease = true) :
    (c.emit s).leaseFile = c.lease (c.emit s)
      ↔ (s.published = some (s.role, s.proof) → s.leaseFile = c.lease s) := by
  grind [lease_emit, emit]

/-- The listener knows the role and the proof, and the file is the lease. -/
structure Published (s : ElectionState Sig) : Prop where
  told : s.published = some (s.role, s.proof)
    ∨ s.published = none ∧ s.role ≠ .elected
  file : s.leaseFile = c.lease s

/-- **A poll that replaces a break-glass override** that the member serves under. -/
def ReplacesBreakGlass (s : ElectionState Sig) : Call Sig → Prop
  | .observe observations now _ override =>
    s.role = .elected ∧ s.proof = none
      ∧ c.higherRecovered { s with observations := observations } now = false
      ∧ ∃ o ∈ override, c.overrideIsAuthentic o = true
        ∧ o.kind = .breakGlassPromote ∧ o.isCurrent now = true
        ∧ s.override ≠ some o
  | _ => False

instance (s : ElectionState Sig) :
    ∀ a, Decidable (c.ReplacesBreakGlass s a)
  | .observe .. => inferInstanceAs (Decidable (_ ∧ _ ∧ _ ∧ _))
  | .vote .. => inferInstanceAs (Decidable False)
  | .receiveGrant .. => inferInstanceAs (Decidable False)
  | .adoptTerm .. => inferInstanceAs (Decidable False)
  | .acceptHandback .. => inferInstanceAs (Decidable False)

variable {c}

/-- **A poll leaves the file stale exactly when it replaces the override.** -/
theorem Published.observe_synced_iff (h : c.Published s)
    (hpub : c.publishesLease = true) (observations : List MemberObservation)
    (now : ℤ) (inFlight : ℕ) (override : Option (FailoverOverride Sig)) :
    (c.observe s observations now inFlight override).leaseFile
        = c.lease (c.observe s observations now inFlight override)
      ↔ ¬ c.ReplacesBreakGlass s (.observe observations now inFlight override) := by
  set s₁ := c.feed s observations now inFlight override with hs₁
  obtain ⟨hpublished, hfile, hover⟩ :=
    shown_eq_iff.mp (c.transition_shown s₁ now)
  show (c.emit (c.transition s₁ now)).leaseFile
    = c.lease (c.emit (c.transition s₁ now)) ↔ _
  rw [c.emit_synced_iff hpub, hpublished, hfile]
  change (s.published = _ → s.leaseFile = _) ↔ _
  rw [h.file]
  have hbare : s.role = .elected → s.proof = none →
      (((c.transition s₁ now).role = .elected ∧ (c.transition s₁ now).proof = none)
      ↔ breakGlassOk s₁ now = true ∧ c.higherRecovered s₁ now = false) :=
    fun hr hp => c.transition_bare_iff (s := s₁) hr hp
  constructor
  · rintro hsync ⟨hr, hp, hrec, o, hmem, hauth, hk, hcur, hne⟩
    obtain ⟨hr', hp'⟩ := (hbare hr hp).mpr
      ⟨c.breakGlassOk_feed.mpr ⟨o, hmem, hauth, hk, hcur⟩, hrec⟩
    have htold : s.published = some (s.role, s.proof) :=
      h.told.resolve_right (fun hn => hn.2 hr)
    have hlease := hsync (by rw [htold, hr, hp, hr', hp'])
    have hnew : c.lease (c.transition s₁ now) = some ⟨c.name, none, some o⟩ := by
      rw [c.lease_bare_iff hr' hp' hk, hover]
      exact Option.filter_eq_some_iff.mpr ⟨hmem, hauth⟩
    exact hne ((c.lease_bare_iff hr hp hk).mp (hlease.trans hnew))
  · intro hkeep hsame
    have htold : s.role = (c.transition s₁ now).role
        ∧ s.proof = (c.transition s₁ now).proof := by
      grind [cases Published]
    by_cases hr : s.role = .elected
    · refine (c.lease_congr htold.1.symm htold.2.symm (fun hp => ?_)).symm
      -- the only case left is break-glass that stays in force
      obtain ⟨hb, hrec⟩ := (hbare hr hp).mp
        ⟨htold.1.symm.trans hr, htold.2.symm.trans hp⟩
      obtain ⟨o, hmem, hauth, hk, hcur⟩ := c.breakGlassOk_feed.mp hb
      have hold : s.override = some o := by
        by_contra hne
        exact hkeep ⟨hr, hp, hrec, o, hmem, hauth, hk, hcur, hne⟩
      rw [hover, hold]
      exact Option.filter_eq_some_iff.mpr ⟨hmem, hauth⟩
    · rw [c.lease_eq_none hr, c.lease_eq_none (htold.1 ▸ hr)]

omit [DecidableEq Sig] in
theorem Published.of_eq {s' : ElectionState Sig} (h : c.Published s)
    (hs : shown s' = shown s) (hr : s'.role = s.role)
    (hp : s'.proof = s.proof) : c.Published s' := by
  obtain ⟨hpublished, hfile, hover⟩ := shown_eq_iff.mp hs
  constructor
  · rw [hpublished, hr, hp]
    exact h.told
  · rw [hfile, c.lease_congr hr hp (fun _ => hover)]
    exact h.file

theorem Published.acceptHandback (h : c.Published s)
    (hpub : c.publishesLease = true) (notice : HandbackNotice Sig)
    (now : ℤ) : c.Published (c.acceptHandback s notice now).2 := by
  unfold ElectionParticipant.acceptHandback
  split
  · exact h
  split
  · exact h
  split
  · exact h
  split
  · exact h
  set s₁ := c.finishDrainIfIdle (c.beginDrain { s with now := now } now) with hs₁
  have hrole : s₁.role ≠ .elected :=
    c.finishDrainIfIdle_role _ (by rw [beginDrain_role]; decide)
  obtain ⟨hpublished, hfile, -⟩ : s₁.published = s.published
      ∧ s₁.leaseFile = s.leaseFile ∧ s₁.override = s.override := by
    rw [← shown_eq_iff, hs₁, finishDrainIfIdle_shown, beginDrain_shown]
    rfl
  refine ⟨Or.inl (by rw [emit_published, emit_role, emit_proof]), ?_⟩
  rw [c.emit_synced_iff hpub]
  intro hsame
  rw [hfile, c.lease_eq_none hrole, h.file]
  refine c.lease_eq_none (fun hr => hrole ?_)
  have htold : s.published = some (s.role, s.proof) :=
    h.told.resolve_right (fun hn => hn.2 hr)
  rw [hpublished] at hsame
  have := Option.some.inj (htold.symm.trans hsame)
  rw [← (Prod.mk.inj this).1, hr]

theorem Published.call (h : c.Published s) (hpub : c.publishesLease = true)
    (a : Call Sig) (ha : ¬ c.ReplacesBreakGlass s a) :
    c.Published (c.call s a) := by
  cases a with
  | observe observations now inFlight override =>
    refine ⟨Or.inl ?_, (h.observe_synced_iff hpub ..).mpr ha⟩
    show (c.emit _).published = some ((c.emit _).role, (c.emit _).proof)
    rw [emit_published, emit_role, emit_proof]
  | vote epoch term candidate now =>
    show c.Published (c.vote s epoch term candidate now).2
    rcases c.vote_moves s now epoch term candidate with
      hv | ⟨-, -, -, -, hv | ⟨_, -, -, hv⟩ | hv⟩ <;> rw [hv]
    · exact h
    all_goals exact h.of_eq rfl rfl rfl
  | receiveGrant grant now =>
    show c.Published (c.receiveGrant s grant now).2
    rcases c.receiveGrant_moves s now grant with
      hv | ⟨-, -, -, -, -, -, hv⟩ <;>
      rw [hv]
    · exact h
    · exact h.of_eq rfl rfl rfl
  | adoptTerm term =>
    show c.Published (ElectionParticipant.adoptTerm s term)
    unfold ElectionParticipant.adoptTerm
    split
    · exact h
    · exact h.of_eq rfl rfl rfl
  | acceptHandback notice now => exact h.acceptHandback hpub notice now

variable (c)

/-- **When the published lease is never stale**: exactly when no poll replaces the
break-glass override that the member serves under. -/
theorem leaseFile_eq_lease_iff (hpub : c.publishesLease = true) (start : ℤ)
    (outage : Bool) (calls : List (Call Sig)) :
    Run.Throughout c.call (fun s => s.leaseFile = c.lease s) (init start outage) calls
      ↔ Run.Along c.call (fun s a => ¬ c.ReplacesBreakGlass s a)
        (init start outage) calls := by
  refine Run.throughout_iff_along c.Published
    (fun s h => h.file) (fun s a h ha => h.call hpub a ha) ?_
    ⟨Or.inr ⟨rfl, ServiceRole.noConfusion⟩, rfl⟩
  intro s a h ha hsync
  rw [not_not] at ha
  cases a with
  | observe observations now inFlight override =>
    exact (h.observe_synced_iff hpub ..).mp hsync ha
  | _ => exact ha

/-- A break-glass order of core's, in force until `expiresAt`. -/
def breakGlassUntil (expiresAt : ℤ) : FailoverOverride (Payload × String) :=
  let body : OverrideBody := ⟨.breakGlassPromote, 1, "core is lost", expiresAt⟩
  ⟨body, (.override body, "coire-core")⟩

/-- Edge-a under break-glass, then with a proof, then handing back: the file
follows. -/
theorem leaseFile_eq_lease_promoted :
    let c := standard .edgeA ⟨10, 20, 50, 5, by decide⟩
    let down : List MemberObservation :=
      [⟨.core, .unreachable, 0⟩, ⟨.edgeB, .healthy, 0⟩]
    Run.Throughout c.call (fun s => s.leaseFile = c.lease s) (init 0 false)
      [.observe down 10 0 (some (breakGlassUntil 100)),
        .observe down 20 0 (some (breakGlassUntil 100)),
        .receiveGrant ((standard .edgeB c.timings).signGrant 1 .edgeA 70) 20,
        .observe down 30 0 none,
        .observe [⟨.core, .healthy, 40⟩, ⟨.edgeB, .healthy, 0⟩] 60 0 none] :=
  (leaseFile_eq_lease_iff _ rfl 0 false _).mpr (by decide)

/-- **The file can be stale**: core replaces the order that edge-a serves under. -/
theorem leaseFile_stale :
    let c := standard .edgeA ⟨10, 20, 50, 5, by decide⟩
    let down : List MemberObservation :=
      [⟨.core, .unreachable, 0⟩, ⟨.edgeB, .healthy, 0⟩]
    let s := Run.last c.call (init 0 false)
      [.observe down 10 0 (some (breakGlassUntil 100)),
        .observe down 20 0 (some (breakGlassUntil 200))]
    s.leaseFile = some ⟨.edgeA, none, some (breakGlassUntil 100)⟩
      ∧ c.lease s = some ⟨.edgeA, none, some (breakGlassUntil 200)⟩ := by
  decide

end ElectionParticipant
