import Coire.UpgradeProgress

/-!
# What the final label of an upgrade says

The phase of an operation is that of its last receipt, and every receipt has passed
`validateProgress` or was appended against a grant. So the label under which an
operation ends can be read back into its history.

Two facts about the table of phases carry everything: the three phases of recovery lead
to no other than themselves and to the labels of an unsuccessful end, and a phase of the
candidate is reported only after the intent. With one grant for each boundary, consumed
once, they give the invariant `Consistent`, from which both results follow: a success
rests on a verification of the target after the one activation and on nothing else
(`terminal_labels_truthful`), and a rollback rests on a verification of the source,
though not always on one made after the last restoration
(`rollback_verified_iff_reverified`).
-/

namespace Upgrades

open Guarded

variable {D : Documents} {s s' : OperationRow} {op : UpgradeOperation}
  {r : UpgradeReceipt} {plan : AcceptedPlan} {history : List UpgradeReceipt}

/-! ## What a check that passed says -/

def candidatePhases : List UpgradePhase :=
  [.verifying, .qualifying, .committing, .succeeded]

def recoveryPhases : List UpgradePhase :=
  [.restoring, .verifyingSource, .recoveryRequired]

/-- **What the phase rules grant** a receipt that carries no consumed grant. -/
structure Permitted (op : UpgradeOperation) (r : UpgradeReceipt)
    (history : List UpgradeReceipt) : Prop where
  jobId_eq : r.jobId = op.jobId
  generation_eq : r.generation = op.generation
  live : op.phase.terminal = false
  not_intent : ∀ b, isIntent b r = false
  activated : r.phase ∈ candidatePhases → history.any (isIntent .runtime)
  next : r.phase ∈ permitted (history.any (isIntent .runtime)) op.phase

theorem Permitted.of_phaseRules
    (h : phaseRules op r plan history false = .ok ()) : Permitted op r history := by
  simp only [phaseRules, check_bind_eq_ok, refuse_eq_ok] at h
  obtain ⟨_, howner, hintent, _, hcandidate, hnext⟩ := h
  simp only [not_or, ne_eq, not_not, Prod.mk.injEq, Bool.not_eq_true] at howner
  refine ⟨howner.1.1, howner.1.2, howner.2.2, ?_, ?_, not_not.mp hnext⟩
  · intro b
    refine decide_eq_false fun hb => hintent ⟨?_, hb.2, Bool.false_ne_true⟩
    rw [hb.1]
    cases b <;> decide
  · exact fun hr => not_not.mp fun hnot => hcandidate ⟨hr, hnot⟩

theorem find_reverse_eq_some {p : UpgradeReceipt → Bool} {v : UpgradeReceipt} :
    history.reverse.find? p = some v ↔ p v ∧ ∃ before after,
      history = before ++ v :: after ∧ ∀ x ∈ after, p x = false := by
  rw [List.find?_eq_some_iff_append]
  refine and_congr_right fun _ => ?_
  constructor
  · rintro ⟨as, bs, hsplit, hfree⟩
    refine ⟨bs.reverse, as.reverse, ?_, ?_⟩
    · grind
    · grind
  · rintro ⟨before, after, rfl, hfree⟩
    refine ⟨after.reverse, before.reverse, by simp, ?_⟩
    intro x hx
    rw [hfree x (List.mem_reverse.mp hx)]
    rfl

/-- **The serving proof** under a terminal receipt. -/
structure Served (D : Documents) (phase : UpgradePhase) (release : UpgradeRelease)
    (history : List UpgradeReceipt) (r : UpgradeReceipt) : Prop where
  found : ∃ v, history.reverse.find? (verifies phase release) = some v
    ∧ (D.readEvidence v.evidence).binding = (D.readEvidence r.evidence).binding
  tokens : ∃ n ∈ (D.readEvidence r.evidence).generatedTokens, 10 ≤ n

theorem Served.of_servingRules {success : Bool} {release : UpgradeRelease}
    (h : servingRules D op plan success release (D.readEvidence r.evidence) history
      = .ok ()) :
    Served D (if success then .verifying else .verifyingSource) release history r := by
  unfold servingRules at h
  dsimp only at h
  split at h
  case h_1 => exact nomatch h
  case h_2 v hv =>
    simp only [check_bind_eq_ok, refuse_eq_ok] at h
    obtain ⟨hbinding, htokens, _⟩ := h
    refine ⟨⟨v, hv, not_not.mp hbinding⟩, ?_⟩
    simp only [not_or, not_forall, not_lt] at htokens
    obtain ⟨⟨n, hn, hten⟩, _⟩ := htokens
    exact ⟨n, hn, hten⟩

structure ShownSuccess (D : Documents) (op : UpgradeOperation) (r : UpgradeReceipt)
    (plan : AcceptedPlan) (history : List UpgradeReceipt) : Prop where
  not_cancelled : op.cancelRequested = false
  decided : op.kind = .controlPlane →
    ∃ c ∈ history, c.phase = .committing ∧ c.outcome = .complete
  served : Served D .verifying plan.target history r

variable {migrationNotStarted : Option UpgradeMigrationNotStarted}

theorem ShownSuccess.of_terminalRules (hr : r.phase = .succeeded)
    (h : terminalRules D op r plan history migrationNotStarted = .ok ()) :
    ShownSuccess D op r plan history := by
  have hsuccess :
      (decide (r.phase = .succeeded) || selectionDecision op.kind r) = true := by
    rw [decide_eq_true hr, Bool.true_or]
  have hends : ¬ (r.phase = .failedUnchanged ∨ r.phase = .cancelledUnchanged) := by
    rw [hr]
    decide
  simp only [terminalRules, check_bind_eq_ok, refuse_eq_ok] at h
  rw [hsuccess, if_neg hends] at h
  obtain ⟨_, _, hdecided, hcancel, _, _, _, _, _, hserving⟩ := h
  refine ⟨?_, ?_, ?_⟩
  · grind
  · grind
  · exact Served.of_servingRules hserving

theorem served_of_rolledBack (hr : r.phase = .rolledBack)
    (h : terminalRules D op r plan history migrationNotStarted = .ok ()) :
    Served D .verifyingSource plan.source history r := by
  have hsuccess :
      (decide (r.phase = .succeeded) || selectionDecision op.kind r) = false := by
    unfold selectionDecision
    rw [hr]
    simp
  have hends : ¬ (r.phase = .failedUnchanged ∨ r.phase = .cancelledUnchanged) := by
    rw [hr]
    decide
  simp only [terminalRules, check_bind_eq_ok, refuse_eq_ok] at h
  rw [hsuccess, if_neg hends] at h
  obtain ⟨_, _, _, _, _, _, _, _, _, hserving⟩ := h
  exact Served.of_servingRules hserving

theorem not_activated_of_unchanged
    (hr : r.phase = .failedUnchanged ∨ r.phase = .cancelledUnchanged)
    (h : terminalRules D op r plan history migrationNotStarted = .ok ()) :
    history.any (isIntent .runtime) = false := by
  simp only [terminalRules, check_bind_eq_ok, refuse_eq_ok] at h
  rw [if_pos hr] at h
  obtain ⟨_, _, _, _, _, _, _, _, _, hunchanged⟩ := h
  simp only [unchangedRules, check_bind_eq_ok, refuse_eq_ok] at hunchanged
  exact Bool.eq_false_iff.mpr hunchanged.1

theorem validateProgress_ok
    (h : validateProgress D op r plan history false migrationNotStarted = .ok ()) :
    Permitted op r history ∧ (r.phase.terminal →
      terminalRules D op r plan history migrationNotStarted = .ok ()) := by
  grind [validateProgress, check_bind_eq_ok, Permitted.of_phaseRules, checkIf]

/-! ## What a call that returned has done -/

def OperationRow.accept (s : OperationRow) (r : UpgradeReceipt) (now : ℤ) :
    OperationRow :=
  { s with
    receipts := s.receipts ++ [r]
    operation := { s.operation with receiptSequence := r.sequence }.advance r now }

def OperationRow.activate (s : OperationRow) (authority : UpgradeGrantRow)
    (intent : UpgradeReceipt) (now : ℤ) : OperationRow :=
  { s with
    receipts := s.receipts ++ [intent]
    grants := s.grants.map fun g =>
      if g.id = authority.id then { g with consumedAt := some now } else g
    operation := { s.operation with
      receiptSequence := intent.sequence
      phase := authority.boundary.phase }
    consumed := s.consumed ++ [(authority.id, intent)] }

theorem mem_of_stored {jobId : String} {generation sequence : ℕ}
    (h : s.stored jobId generation sequence = some r) : r ∈ s.receipts :=
  List.mem_of_find?_eq_some h

variable {appended : Bool} {env : BoundaryEnv} {grant : UpgradeActivationGrant}

theorem appendReceipt_cases (h : appendReceipt D s r = .ok (s', appended)) :
    (s' = s ∧ appended = false ∧ r ∈ s.receipts) ∨
    (appended = true ∧ s.stored r.jobId r.generation r.sequence = none
      ∧ r.jobId = s.operation.jobId ∧ r.generation = s.operation.generation
      ∧ r.sequence = s.operation.receiptSequence + 1
      ∧ s' = { s with
        receipts := s.receipts ++ [r]
        operation := { s.operation with receiptSequence := r.sequence } }) := by
  simp only [appendReceipt, check_bind_eq_ok, refuse_eq_ok, ne_eq, not_not] at h
  obtain ⟨hjob, hgeneration, h⟩ := h
  split at h
  case h_1 existing hstored =>
    rw [check_bind_eq_ok, refuse_eq_ok, not_not] at h
    cases D.receiptSha256_injective h.1
    cases Except.ok.inj h.2
    exact .inl ⟨rfl, rfl, mem_of_stored hstored⟩
  case h_2 hstored =>
    rw [check_bind_eq_ok, refuse_eq_ok, not_not] at h
    cases Except.ok.inj h.2
    exact .inr ⟨rfl, hstored, hjob, hgeneration.symm, h.1, rfl⟩

theorem ingestReceipt_cases {env : IngestEnv}
    (h : ingestReceipt D s r env = .ok (s', appended)) :
    (s' = s ∧ r ∈ s.receipts) ∨
    ∃ plan, s.executionPlan = some plan
      ∧ validateProgress D s.operation r plan s.receipts false s.notStarted = .ok ()
      ∧ s.receipts.length = s.operation.receiptSequence
      ∧ r.sequence = s.operation.receiptSequence + 1 ∧ s' = s.accept r env.now := by
  simp only [ingestReceipt, check_bind_eq_ok, refuse_eq_ok] at h
  obtain ⟨_, _, h⟩ := h
  split at h
  case h_1 existing hstored =>
    rcases appendReceipt_cases h with ⟨hs', _, hmem⟩ | ⟨_, hnone, _⟩
    · exact .inl ⟨hs', hmem⟩
    · cases hstored.symm.trans hnone
  case h_2 hstored =>
    split at h
    case h_1 => cases h
    case h_2 plan hplan =>
      simp only [check_bind_eq_ok, refuse_eq_ok, not_or, ne_eq, not_not] at h
      obtain ⟨⟨hlength, _⟩, _, _, hvalid, _, _, h⟩ := h
      obtain ⟨⟨t, b⟩, happend, h⟩ := bind_eq_ok.mp h
      cases Except.ok.inj h
      rcases appendReceipt_cases happend with ⟨rfl, rfl, hmem⟩ | ⟨rfl, _, _, _, hseq, rfl⟩
      · exact .inl ⟨rfl, hmem⟩
      · exact .inr ⟨plan, hplan, hvalid, hlength, hseq, rfl⟩

theorem phase_of_boundaryChecks {b : Boundary}
    (h : boundaryChecks D s b plan env = .ok ()) :
    s.operation.phase ∈ [.staged, .smokeBefore, .migrating] := by
  grind [boundaryChecks, verifyActivationReady, check_bind_eq_ok, refuse_eq_ok]

theorem mem_of_consumedReplay {authority : UpgradeGrantRow} {consumedAt now : ℤ}
    (h : consumedReplay D s authority consumedAt grant r now = .ok ()) :
    r ∈ s.receipts := by
  grind [consumedReplay, refuse_eq_ok, mem_of_stored]

theorem consume_cases (h : consume D s grant r env = .ok (s', ())) :
    (s' = s ∧ r ∈ s.receipts) ∨
    ∃ authority ∈ s.grants, authority.consumedAt = none
      ∧ isIntent authority.boundary r ∧ s.operation.finishedAt = none
      ∧ s.operation.phase ∈ [.staged, .smokeBefore, .migrating]
      ∧ (r ∈ s.receipts ∨ r.sequence = s.operation.receiptSequence + 1
        ∧ s' = s.activate authority r env.later) := by
  simp only [consume, check_bind_eq_ok, refuse_eq_ok] at h
  obtain ⟨_, h⟩ := h
  split at h
  case h_1 => cases h
  case h_2 authority hfound =>
    split at h
    case h_1 consumedAt hconsumed =>
      rw [check_bind_eq_ok] at h
      cases Except.ok.inj h.2
      exact .inl ⟨rfl, mem_of_consumedReplay h.1⟩
    case h_2 hconsumed =>
      rw [check_bind_eq_ok, refuse_eq_ok] at h
      obtain ⟨hfresh, h⟩ := h
      simp only [not_or, ne_eq, not_not, Prod.mk.injEq] at hfresh
      obtain ⟨_, _, ⟨_, _, hboundary⟩, _, hfinished, _, _, hphase, houtcome, _⟩ := hfresh
      split at h
      case h_1 => cases h
      case h_2 plan hplan =>
        rw [check_bind_eq_ok, check_bind_eq_ok] at h
        obtain ⟨hchecks, _, h⟩ := h
        obtain ⟨⟨t, b⟩, happend, h⟩ := bind_eq_ok.mp h
        cases Except.ok.inj h
        have hintent : isIntent authority.boundary r := by
          rw [hboundary]
          exact decide_eq_true ⟨hphase, houtcome⟩
        refine .inr ⟨authority, List.mem_of_find?_eq_some hfound, hconsumed, hintent,
          hfinished, phase_of_boundaryChecks hchecks, ?_⟩
        rcases appendReceipt_cases happend with ⟨_, _, hmem⟩ | ⟨_, _, _, _, hseq, rfl⟩
        · exact .inl hmem
        · exact .inr ⟨hseq, by rw [OperationRow.activate, hboundary]⟩

theorem issue_cases {request : UpgradeActivationRequest}
    (h : issue D s request env = .ok (s', grant)) :
    s.operation.finishedAt = none ∧
    ((∃ existing : UpgradeGrantRow, s' = { s with grants := s.grants.map fun g =>
        if g.id = existing.id then { g with expiresAt := env.later + seconds 30 } else g }) ∨
      ((∀ g ∈ s.grants, ¬ (g.jobId = s.operation.jobId
          ∧ g.generation = s.operation.generation ∧ g.boundary = request.boundary))
        ∧ s' = { s with grants := s.grants ++ [⟨s.grants.length, s.operation.jobId,
          s.operation.generation, request.boundary, env.later + seconds 30, none⟩] })) := by
  simp only [issue, check_bind_eq_ok, refuse_eq_ok, not_or, ne_eq, not_not] at h
  obtain ⟨⟨_, _, hfinished, _⟩, _, h⟩ := h
  refine ⟨hfinished, ?_⟩
  split at h
  case h_1 => cases h
  case h_2 plan hplan =>
    rw [check_bind_eq_ok] at h
    replace h := h.2
    split at h
    case h_1 existing hfound =>
      rw [check_bind_eq_ok] at h
      cases Except.ok.inj h.2
      exact .inl ⟨existing, rfl⟩
    case h_2 hfound =>
      cases Except.ok.inj h
      refine .inr ⟨fun g hg => ?_, rfl⟩
      have := List.find?_eq_none.mp hfound g hg
      exact fun hb => this (decide_eq_true hb)

theorem requestCancel_cases {env : CancelEnv}
    (h : requestCancel D s env = .ok (s', ())) :
    s' = s ∨ s.operation.finishedAt = none ∧ (s' = s.cancel ∨
      ∃ (status : NodeUpgradeStatus) (t : OperationRow),
        ingestAll D env.ingest status.receipts s = .ok t
          ∧ (s' = t ∨ status.phase.terminal = false ∧ s' = t.cancel)) := by
  simp only [requestCancel, check_bind_eq_ok] at h
  obtain ⟨_, h⟩ := h
  split at h
  case isTrue => exact .inl (Prod.mk.inj (Except.ok.inj h)).1.symm
  case isFalse hlive =>
    simp only [check_bind_eq_ok, not_or, ne_eq, not_not] at h hlive
    refine .inr ⟨hlive.1, ?_⟩
    obtain ⟨_, _, h⟩ := h
    split at h
    case h_1 =>
      cases Except.ok.inj h
      exact .inl rfl
    case h_2 =>
      rw [check_bind_eq_ok] at h
      obtain ⟨_, h⟩ := h
      obtain ⟨status, _, h⟩ := bind_eq_ok.mp h
      obtain ⟨t, ht, h⟩ := bind_eq_ok.mp h
      refine .inr ⟨status, t, ht, ?_⟩
      split at h
      case isTrue =>
        rw [check_bind_eq_ok] at h
        cases Except.ok.inj h.2
        exact .inl rfl
      case isFalse hphase =>
        cases Except.ok.inj h
        exact .inr ⟨Bool.eq_false_iff.mpr hphase, rfl⟩

/-! ## The invariant -/

/-- The phases an operation goes through while nothing has gone wrong. -/
def forwardPhases : List UpgradePhase :=
  [.accepted, .preflight, .fencing, .draining, .staged, .smokeBefore, .migrating,
    .activating, .verifying, .qualifying, .committing, .succeeded]

theorem forward_of_permitted (activated : Bool) (p : UpgradePhase) :
    ∀ q ∈ permitted activated p, q ∈ forwardPhases → p ∈ forwardPhases := by
  cases activated <;> cases p <;> decide

theorem not_recovery_of_forward : ∀ p ∈ forwardPhases, p ∉ recoveryPhases := by
  decide

theorem forward_of_boundary :
    ∀ p ∈ [UpgradePhase.staged, .smokeBefore, .migrating], p ∈ forwardPhases := by
  decide

theorem Boundary.phase_forward (b : Boundary) :
    b.phase ∈ forwardPhases ∧ b.phase ∉ candidatePhases ∧ b.phase.terminal = false := by
  cases b <;> decide

theorem of_snoc_eq {α : Type} {l before after : List α} {a x : α}
    (h : l ++ [a] = before ++ x :: after) :
    (before = l ∧ x = a) ∨ ∃ rest, l = before ++ x :: rest := by
  rcases List.append_eq_append_iff.mp h with ⟨as, rfl, has⟩ | ⟨bs, rfl, hbs⟩
  · cases as with
    | nil => grind
    | cons y ys => exact absurd (congrArg List.length has) (by simp)
  · cases bs with
    | nil => grind
    | cons y ys => exact .inr ⟨ys, by rw [(List.cons.inj hbs).1]⟩

/-- **The grants of an operation**: its own, one for each boundary, and an intent
in the history for each that is consumed. -/
structure GrantsKept (s : OperationRow) : Prop where
  own : ∀ g ∈ s.grants,
    g.jobId = s.operation.jobId ∧ g.generation = s.operation.generation
  one : ∀ g ∈ s.grants, ∀ g' ∈ s.grants, g.boundary = g'.boundary → g = g'
  granted : ∀ b, ∀ r ∈ s.receipts, isIntent b r →
    ∃ g ∈ s.grants, g.boundary = b ∧ g.consumedAt ≠ none ∧ (g.id, r) ∈ s.consumed

structure Ended (D : Documents) (s : OperationRow) (plan : AcceptedPlan)
    (history : List UpgradeReceipt) (last : UpgradeReceipt) : Prop where
  plan_eq : s.executionPlan = some plan
  receipts_eq : s.receipts = history ++ [last]
  phase_eq : s.operation.phase = last.phase
  succeeded : last.phase = .succeeded → ShownSuccess D s.operation last plan history
  unchanged : last.phase = .failedUnchanged ∨ last.phase = .cancelledUnchanged →
    history.any (isIntent .runtime) = false
  rolledBack : last.phase = .rolledBack →
    Served D .verifyingSource plan.source history last

structure Consistent (D : Documents) (s : OperationRow) : Prop where
  grants : GrantsKept s
  length_eq : s.receipts.length = s.operation.receiptSequence
  finished_iff : s.operation.finishedAt ≠ none ↔ s.operation.phase.terminal
  one_intent : ∀ b, s.receipts.countP (isIntent b) ≤ 1
  activated_before : ∀ before r after, s.receipts = before ++ r :: after →
    r.phase ∈ candidatePhases → before.any (isIntent .runtime)
  forward_only : s.operation.phase ∈ forwardPhases →
    ∀ r ∈ s.receipts, r.phase ∉ recoveryPhases
  ended : s.operation.phase.terminal → ∃ plan history last, Ended D s plan history last

theorem Consistent.live (h : Consistent D s) (hfinished : s.operation.finishedAt = none) :
    s.operation.phase.terminal = false :=
  Bool.eq_false_iff.mpr fun ht => h.finished_iff.mpr ht hfinished

theorem Consistent.accept (h : Consistent D s) {now : ℤ}
    (hplan : s.executionPlan = some plan)
    (hvalid : validateProgress D s.operation r plan s.receipts false s.notStarted
      = .ok ())
    (hseq : r.sequence = s.operation.receiptSequence + 1) :
    Consistent D (s.accept r now) := by
  obtain ⟨hpermitted, hterminal⟩ := validateProgress_ok hvalid
  have hforward : r.phase ∈ forwardPhases → s.operation.phase ∈ forwardPhases :=
    forward_of_permitted _ _ _ hpermitted.next
  refine ⟨⟨h.grants.own, h.grants.one, ?_⟩, ?_, ?_, ?_, ?_, ?_, ?_⟩
  · intro b x hx hb
    rcases List.mem_append.mp hx with hx | hx
    · exact h.grants.granted b x hx hb
    · cases List.mem_singleton.mp hx
      rw [hpermitted.not_intent b] at hb
      exact absurd hb Bool.false_ne_true
  · show (s.receipts ++ [r]).length = r.sequence
    rw [List.length_append, List.length_singleton, h.length_eq, hseq]
  · show (if r.phase.terminal then some now else s.operation.finishedAt) ≠ none
      ↔ r.phase.terminal
    have hfinished : s.operation.finishedAt = none :=
      not_not.mp fun hne => absurd (h.finished_iff.mp hne)
        (Bool.eq_false_iff.mp hpermitted.live)
    cases hr : r.phase.terminal with
    | true => exact iff_of_true (fun hne => nomatch hne) rfl
    | false => grind
  · intro b
    show (s.receipts ++ [r]).countP (isIntent b) ≤ 1
    rw [List.countP_append, List.countP_singleton, hpermitted.not_intent b]
    exact h.one_intent b
  · intro before x after hsplit hx
    rcases of_snoc_eq hsplit with ⟨rfl, rfl⟩ | ⟨rest, hrest⟩
    · exact hpermitted.activated hx
    · exact h.activated_before before x rest hrest hx
  · intro hr x hx
    rcases List.mem_append.mp hx with hx | hx
    · exact h.forward_only (hforward hr) x hx
    · cases List.mem_singleton.mp hx
      exact not_recovery_of_forward _ hr
  · intro hr
    have hrules := hterminal hr
    exact ⟨plan, s.receipts, r, hplan, rfl, rfl,
      fun hp => ShownSuccess.of_terminalRules hp hrules,
      fun hp => not_activated_of_unchanged hp hrules,
      fun hp => served_of_rolledBack hp hrules⟩

theorem GrantsKept.map (h : GrantsKept s) {f : UpgradeGrantRow → UpgradeGrantRow}
    (hid : ∀ g, (f g).id = g.id) (hjob : ∀ g, (f g).jobId = g.jobId)
    (hgeneration : ∀ g, (f g).generation = g.generation)
    (hboundary : ∀ g, (f g).boundary = g.boundary)
    (hconsumed : ∀ g, g.consumedAt ≠ none → (f g).consumedAt ≠ none) :
    GrantsKept { s with grants := s.grants.map f } := by
  refine ⟨?_, ?_, ?_⟩
  · grind [cases GrantsKept]
  · grind [cases GrantsKept]
  · grind [cases GrantsKept]

theorem GrantsKept.countP_eq_zero (h : GrantsKept s) {g : UpgradeGrantRow}
    (hg : g ∈ s.grants) (hconsumed : g.consumedAt = none) :
    ∀ r ∈ s.receipts, isIntent g.boundary r = false := by
  grind [cases GrantsKept]

theorem boundary_unique {b b' : Boundary} (h : isIntent b r) (h' : isIntent b' r) :
    b = b' := by
  have hphase := (of_decide_eq_true h).1.symm.trans (of_decide_eq_true h').1
  cases b <;> cases b' <;> first | rfl | exact nomatch hphase

theorem Consistent.activate (h : Consistent D s) {authority : UpgradeGrantRow}
    {now : ℤ} (hmem : authority ∈ s.grants) (hconsumed : authority.consumedAt = none)
    (hintent : isIntent authority.boundary r)
    (hfinished : s.operation.finishedAt = none)
    (hphase : s.operation.phase ∈ [.staged, .smokeBefore, .migrating])
    (hseq : r.sequence = s.operation.receiptSequence + 1) :
    Consistent D (s.activate authority r now) := by
  have hforward := authority.boundary.phase_forward
  have hrphase : r.phase = authority.boundary.phase := (of_decide_eq_true hintent).1
  have hmap : GrantsKept { s with grants := s.grants.map fun g =>
      if g.id = authority.id then { g with consumedAt := some now } else g } := by
    refine h.grants.map ?_ ?_ ?_ ?_ ?_ <;> intro g <;> split <;> simp_all
  refine ⟨⟨hmap.own, hmap.one, ?_⟩, ?_, ?_, ?_, ?_, ?_, ?_⟩
  · intro b x hx hb
    rcases List.mem_append.mp hx with hx | hx
    · obtain ⟨g, hg, hgb, hgc, hin⟩ := hmap.granted b x hx hb
      exact ⟨g, hg, hgb, hgc, List.mem_append_left _ hin⟩
    cases List.mem_singleton.mp hx
    refine ⟨{ authority with consumedAt := some now },
      List.mem_map.mpr ⟨authority, hmem, if_pos rfl⟩,
      boundary_unique hintent hb, Option.some_ne_none now, ?_⟩
    exact List.mem_append_right _ (List.mem_singleton.mpr rfl)
  · show (s.receipts ++ [r]).length = r.sequence
    rw [List.length_append, List.length_singleton, h.length_eq, hseq]
  · show s.operation.finishedAt ≠ none ↔ authority.boundary.phase.terminal
    rw [hfinished, hforward.2.2]
    exact iff_of_false (not_not_intro rfl) Bool.false_ne_true
  · intro b
    show (s.receipts ++ [r]).countP (isIntent b) ≤ 1
    rw [List.countP_append, List.countP_singleton]
    cases hb : isIntent b r with
    | false => exact h.one_intent b
    | true =>
      grind [isIntent, List.countP_eq_zero, boundary_unique, cases GrantsKept,
        cases Consistent, isIntent]
  · intro before x after hsplit hx
    rcases of_snoc_eq hsplit with ⟨rfl, rfl⟩ | ⟨rest, hrest⟩
    · grind
    · exact h.activated_before before x rest hrest hx
  · intro _ x hx
    rcases List.mem_append.mp hx with hx | hx
    · exact h.forward_only (forward_of_boundary _ hphase) x hx
    · cases List.mem_singleton.mp hx
      rw [hrphase]
      exact not_recovery_of_forward _ hforward.1
  · intro ht
    exact absurd ht (Bool.eq_false_iff.mp hforward.2.2)

theorem Consistent.of_live (h : Consistent D s)
    (hfinished : s.operation.finishedAt = none) (hgrants : GrantsKept s')
    (hreceipts : s'.receipts = s.receipts)
    (hsequence : s'.operation.receiptSequence = s.operation.receiptSequence)
    (hphase : s'.operation.phase = s.operation.phase)
    (hfinished' : s'.operation.finishedAt = s.operation.finishedAt) :
    Consistent D s' := by
  have hlive := h.live hfinished
  obtain ⟨_, hlength, hiff, hone, hbefore, hforward, _⟩ := h
  refine ⟨hgrants, ?_, ?_, ?_, ?_, ?_, ?_⟩
  · rw [hreceipts, hsequence]
    exact hlength
  · rw [hfinished', hphase]
    exact hiff
  · rw [hreceipts]
    exact hone
  · rw [hreceipts]
    exact hbefore
  · rw [hphase, hreceipts]
    exact hforward
  · grind

theorem Consistent.cancel (h : Consistent D s)
    (hfinished : s.operation.finishedAt = none) : Consistent D s.cancel :=
  h.of_live hfinished ⟨h.grants.own, h.grants.one, h.grants.granted⟩ rfl rfl rfl rfl

theorem Consistent.ingestReceipt (h : Consistent D s) {env : IngestEnv}
    (hok : ingestReceipt D s r env = .ok (s', appended)) :
    Consistent D s' := by
  rcases ingestReceipt_cases hok with ⟨rfl, _⟩ | ⟨plan, hplan, hvalid, _, hseq, rfl⟩
  · exact h
  · exact h.accept hplan hvalid hseq

theorem live_of_ingestReceipt {env : IngestEnv}
    (hfinished : s.operation.finishedAt = none) (hr : r.phase.terminal = false)
    (hok : ingestReceipt D s r env = .ok (s', appended)) :
    s'.operation.finishedAt = none := by
  rcases ingestReceipt_cases hok with ⟨rfl, _⟩ | ⟨_, _, _, _, _, rfl⟩
  · exact hfinished
  · show (if r.phase.terminal then some env.now else s.operation.finishedAt) = none
    rw [hr]
    exact hfinished

theorem Consistent.ingestAll {env : IngestEnv} {t : OperationRow} :
    ∀ {rs : List UpgradeReceipt} {s : OperationRow}, Consistent D s →
      ingestAll D env rs s = .ok t →
      Consistent D t ∧ (s.operation.finishedAt = none →
        (∀ r ∈ rs, r.phase.terminal = false) → t.operation.finishedAt = none)
  | [], s, h, hok => by
    cases Except.ok.inj hok
    exact ⟨h, fun hfinished _ => hfinished⟩
  | r :: rest, s, h, hok => by
    obtain ⟨⟨s', appended⟩, hr, hrest⟩ := bind_eq_ok.mp hok
    obtain ⟨ht, hlive⟩ := Consistent.ingestAll (h.ingestReceipt hr) hrest
    refine ⟨ht, fun hfinished hall => ?_⟩
    exact hlive (live_of_ingestReceipt hfinished (hall r List.mem_cons_self) hr)
      fun x hx => hall x (List.mem_cons_of_mem _ hx)

theorem Consistent.requestCancel (h : Consistent D s) {env : CancelEnv}
    (hok : requestCancel D s env = .ok (s', ())) : Consistent D s' := by
  rcases requestCancel_cases hok with rfl | ⟨hfinished, rfl | ⟨status, t, ht, hend⟩⟩
  · exact h
  · exact h.cancel hfinished
  obtain ⟨hct, hlive⟩ := h.ingestAll ht
  rcases hend with rfl | ⟨hphase, rfl⟩
  · exact hct
  · refine hct.cancel (hlive hfinished fun x hx => Bool.eq_false_iff.mpr fun hx' => ?_)
    exact absurd (status.terminal_of_mem x hx hx') (Bool.eq_false_iff.mp hphase)

theorem Consistent.issue (h : Consistent D s) {request : UpgradeActivationRequest}
    (hok : issue D s request env = .ok (s', grant)) : Consistent D s' := by
  obtain ⟨hfinished, ⟨existing, rfl⟩ | ⟨hnone, rfl⟩⟩ := issue_cases hok
  · refine h.of_live hfinished ?_ rfl rfl rfl rfl
    refine h.grants.map ?_ ?_ ?_ ?_ ?_ <;> intro g <;> split <;> simp_all
  refine h.of_live hfinished ⟨?_, ?_, ?_⟩ rfl rfl rfl rfl
  · intro g hg
    rcases List.mem_append.mp hg with hg | hg
    · exact h.grants.own g hg
    · grind
  · have hother : ∀ g ∈ s.grants, g.boundary ≠ request.boundary := fun g hg hb =>
      hnone g hg ⟨(h.grants.own g hg).1, (h.grants.own g hg).2, hb⟩
    intro g hg g' hg' hb
    rcases List.mem_append.mp hg with hg | hg <;>
      rcases List.mem_append.mp hg' with hg' | hg'
    · exact h.grants.one g hg g' hg' hb
    · grind
    · grind
    · grind
  · intro b x hx hb
    obtain ⟨g, hg, hrest⟩ := h.grants.granted b x hx hb
    exact ⟨g, List.mem_append_left _ hg, hrest⟩

theorem Consistent.consume (h : Consistent D s)
    (hok : consume D s grant r env = .ok (s', ())) :
    Consistent D s' := by
  rcases consume_cases hok with ⟨rfl, _⟩ |
    ⟨authority, hmem, hconsumed, hintent, hfinished, hphase, hthere | ⟨hseq, rfl⟩⟩
  · exact h
  · -- The intent cannot be there before its grant is consumed.
    rw [h.grants.countP_eq_zero hmem hconsumed r hthere] at hintent
    exact absurd hintent Bool.false_ne_true
  · exact h.activate hmem hconsumed hintent hfinished hphase hseq

theorem preparePlan_cases {authorized : Except Refusal Unit}
    (h : preparePlan s plan authorized = .ok (s', ())) :
    s.operation.finishedAt = none
      ∧ (s' = s ∨ s' = { s with executionPlan := some plan }) := by
  simp only [preparePlan, check_bind_eq_ok, refuse_eq_ok, ne_eq, not_not] at h
  refine ⟨h.1, ?_⟩
  replace h := h.2
  split at h
  case isTrue => exact .inl (Prod.mk.inj (Except.ok.inj h)).1.symm
  case isFalse =>
    rw [check_bind_eq_ok, check_bind_eq_ok] at h
    exact .inr (Prod.mk.inj (Except.ok.inj h.2.2)).1.symm

theorem Consistent.step (h : Consistent D s) (e : ApiEvent) :
    Consistent D (apiStep D s e) := by
  cases e with
  | call c =>
    refine settle_induction h fun s' _ hok => ?_
    cases c with
    | ingestReceipt r env =>
      obtain ⟨⟨t, appended⟩, hr, heq⟩ := map_eq_ok.mp hok
      cases heq
      exact h.ingestReceipt hr
    | issue request env =>
      obtain ⟨⟨t, grant⟩, hr, heq⟩ := map_eq_ok.mp hok
      cases heq
      exact h.issue hr
    | consume grant intent env => exact h.consume hok
    | requestCancel env => exact h.requestCancel hok
  | preparePlan plan authorized =>
    refine settle_induction h fun s' _ hok => ?_
    obtain ⟨hfinished, rfl | rfl⟩ := preparePlan_cases hok
    · exact h
    · exact h.of_live hfinished ⟨h.grants.own, h.grants.one, h.grants.granted⟩
        rfl rfl rfl rfl
  | migration record =>
    refine ⟨⟨h.grants.own, h.grants.one, h.grants.granted⟩, h.length_eq,
      h.finished_iff, h.one_intent, h.activated_before, h.forward_only, fun ht => ?_⟩
    obtain ⟨plan, history, last, e⟩ := h.ended ht
    exact ⟨plan, history, last, e.plan_eq, e.receipts_eq, e.phase_eq, e.succeeded,
      e.unchanged, e.rolledBack⟩

/-! ## The labels -/

def acceptedRow (jobId : String) (generation : ℕ) (kind : UpgradeKind)
    (sourceSha256 targetSha256 authoritySha256 : String) : OperationRow where
  operation := { jobId, generation, kind, sourceSha256, targetSha256, authoritySha256 }

theorem consistent_acceptedRow (jobId : String) (generation : ℕ) (kind : UpgradeKind)
    (sourceSha256 targetSha256 authoritySha256 : String) :
    Consistent D
      (acceptedRow jobId generation kind sourceSha256 targetSha256 authoritySha256) where
  grants := ⟨fun _ h => (nomatch h), fun _ h => (nomatch h), fun _ _ h => (nomatch h)⟩
  length_eq := rfl
  finished_iff := iff_of_false (not_not_intro rfl) Bool.false_ne_true
  one_intent _ := Nat.zero_le 1
  activated_before _ _ _ h := by simp [acceptedRow] at h
  forward_only _ _ h := nomatch h
  ended h := nomatch h

structure TruthfulSuccess (D : Documents) (s : OperationRow) (plan : AcceptedPlan)
    (activation verification last : UpgradeReceipt) : Prop where
  plan_eq : s.executionPlan = some plan
  order : ∃ before between after, s.receipts =
    before ++ activation :: (between ++ verification :: (after ++ [last]))
  last_succeeded : last.phase = .succeeded
  activates : activation.phase = .activating ∧ activation.outcome = .intent
  granted : ∃ g ∈ s.grants, g.boundary = .runtime ∧ g.consumedAt ≠ none
    ∧ (g.id, activation) ∈ s.consumed
  verified : verification.phase = .verifying ∧ verification.outcome = .complete
    ∧ verification.observedSha256 = some plan.target.manifestSha256
  bound : (D.readEvidence verification.evidence).binding
    = (D.readEvidence last.evidence).binding
  tokens : ∃ n ∈ (D.readEvidence last.evidence).generatedTokens, 10 ≤ n
  no_recovery : ∀ r ∈ s.receipts, r.phase ≠ .restoring
    ∧ r.phase ≠ .verifyingSource ∧ r.phase ≠ .recoveryRequired
  not_cancelled : s.operation.cancelRequested = false
  decided : s.operation.kind = .controlPlane →
    ∃ c ∈ s.receipts, c.phase = .committing ∧ c.outcome = .complete

def ApiCall.Replays (s : OperationRow) : ApiCall → Prop
  | .ingestReceipt receipt _ => receipt ∈ s.receipts
  | .issue _ _ => False
  | .consume _ intent _ => intent ∈ s.receipts
  | .requestCancel _ => True

structure TruthfulLabels (D : Documents) (s : OperationRow) : Prop where
  succeeded : s.operation.phase = .succeeded →
    ∃ plan activation verification last,
      TruthfulSuccess D s plan activation verification last
  unchanged : s.operation.phase = .failedUnchanged
      ∨ s.operation.phase = .cancelledUnchanged →
    ∀ r ∈ s.receipts, ¬ (r.phase = .activating ∧ r.outcome = .intent)
  once : ∀ b : Boundary, s.receipts.countP (isIntent b) ≤ 1
  settled : s.operation.phase.terminal → ∀ c,
    apiStep D s (.call c) = s ∧ ∀ t, runCall D s c = .ok t → c.Replays s

theorem Consistent.truthfulSuccess (h : Consistent D s)
    (hphase : s.operation.phase = .succeeded) :
    ∃ plan activation verification last,
      TruthfulSuccess D s plan activation verification last := by
  obtain ⟨plan, history, last, e⟩ := h.ended (by rw [hphase]; rfl)
  have hlast : last.phase = .succeeded := e.phase_eq.symm.trans hphase
  obtain ⟨hcancel, hdecided, ⟨v, hfind, hbound⟩, htokens⟩ := e.succeeded hlast
  obtain ⟨hv, before, after, rfl, _⟩ := find_reverse_eq_some.mp hfind
  obtain ⟨hverifying, hcomplete, hobserved, _⟩ := of_decide_eq_true hv
  have hsplit : s.receipts = before ++ v :: (after ++ [last]) := by
    rw [e.receipts_eq, List.append_assoc, List.cons_append]
  have hactivated : before.any (isIntent .runtime) :=
    h.activated_before before v _ hsplit (by rw [hverifying]; decide)
  obtain ⟨a, ha, haintent⟩ := List.any_eq_true.mp hactivated
  obtain ⟨first, between, rfl⟩ := List.append_of_mem ha
  rw [List.append_assoc, List.cons_append] at hsplit
  have hforward : s.operation.phase ∈ forwardPhases := by rw [hphase]; decide
  refine ⟨plan, a, v, last, e.plan_eq, ⟨first, between, after, hsplit⟩, hlast,
    of_decide_eq_true haintent, ?_, ⟨hverifying, hcomplete, hobserved⟩, hbound,
    htokens, ?_, hcancel, ?_⟩
  · exact h.grants.granted .runtime a (by rw [hsplit]; simp) haintent
  · intro r hr
    have hnot := h.forward_only hforward r hr
    simp only [recoveryPhases, List.mem_cons, List.not_mem_nil, or_false, not_or] at hnot
    exact hnot
  · grind

theorem Consistent.not_activated (h : Consistent D s)
    (hphase : s.operation.phase = .failedUnchanged
      ∨ s.operation.phase = .cancelledUnchanged) :
    ∀ r ∈ s.receipts, ¬ (r.phase = .activating ∧ r.outcome = .intent) := by
  obtain ⟨plan, history, last, e⟩ := h.ended (by rcases hphase with h | h <;> rw [h] <;> rfl)
  rw [e.phase_eq] at hphase
  have hany := e.unchanged hphase
  intro r hr hactivates
  rw [e.receipts_eq] at hr
  rcases List.mem_append.mp hr with hr | hr
  · exact absurd (List.any_eq_true.mpr ⟨r, hr, decide_eq_true hactivates⟩)
      (Bool.eq_false_iff.mp hany)
  · grind

/-- **A finished operation is settled**: a call that returns has replayed what is
there, and changed nothing. -/
theorem Consistent.replays (h : Consistent D s)
    (hterminal : s.operation.phase.terminal) {c : ApiCall} {t : OperationRow × Unit}
    (hok : runCall D s c = .ok t) : t.1 = s ∧ c.Replays s := by
  have hfinished := h.finished_iff.mpr hterminal
  cases c with
  | ingestReceipt r env =>
    obtain ⟨⟨s', appended⟩, hr, heq⟩ := map_eq_ok.mp hok
    cases heq
    rcases ingestReceipt_cases hr with ⟨rfl, hmem⟩ | ⟨plan, _, hvalid, _⟩
    · exact ⟨rfl, hmem⟩
    · have hlive := (validateProgress_ok hvalid).1.live
      exact absurd hterminal (Bool.eq_false_iff.mp hlive)
  | issue request env =>
    obtain ⟨⟨s', grant⟩, hr, _⟩ := map_eq_ok.mp hok
    exact absurd (issue_cases hr).1 hfinished
  | consume grant intent env =>
    rcases consume_cases hok with ⟨hs, hmem⟩ | ⟨_, _, _, _, hnone, _⟩
    · exact ⟨hs, hmem⟩
    · exact absurd hnone hfinished
  | requestCancel env =>
    rcases requestCancel_cases hok with hs | ⟨hnone, _⟩
    · exact ⟨hs, trivial⟩
    · exact absurd hnone hfinished

theorem Consistent.settled (h : Consistent D s)
    (hterminal : s.operation.phase.terminal) (c : ApiCall) :
    apiStep D s (.call c) = s ∧ ∀ t, runCall D s c = .ok t → c.Replays s := by
  refine ⟨?_, fun t hok => (h.replays hterminal hok).2⟩
  show settle s (runCall D s c) = s
  refine settle_induction (P := (· = s)) rfl fun s' u hok => ?_
  exact (h.replays hterminal hok).1

/-- **Terminal labels are truthful**: in every state that an accepted operation
reaches, whatever its receipts, grants and cancellations were. -/
theorem terminal_labels_truthful (D : Documents) (jobId : String) (generation : ℕ)
    (kind : UpgradeKind) (sourceSha256 targetSha256 authoritySha256 : String)
    (events : List ApiEvent) :
    Run.Throughout (apiStep D) (TruthfulLabels D)
      (acceptedRow jobId generation kind sourceSha256 targetSha256 authoritySha256)
      events := by
  refine Run.throughout_of_kept (Consistent D) (fun s h => ?_) (fun s e h => h.step e)
    (consistent_acceptedRow ..)
  exact ⟨h.truthfulSuccess, h.not_activated, h.one_intent, h.settled⟩

/-! ## The history -/

/-- **What was recorded stays**: receipts are appended under the next numbers, and
neither the plan nor a cancellation is taken back. -/
structure Extends (s s' : OperationRow) : Prop where
  receipts : ∃ rs, s'.receipts = s.receipts ++ rs
    ∧ rs.map (·.sequence) = List.range' (s.receipts.length + 1) rs.length
  plan : ∀ plan ∈ s.executionPlan, plan ∈ s'.executionPlan
  cancelled : s.operation.cancelRequested → s'.operation.cancelRequested

theorem Extends.refl (s : OperationRow) : Extends s s :=
  ⟨⟨[], (List.append_nil _).symm, rfl⟩, fun _ => id, id⟩

theorem Extends.trans {t : OperationRow} (h : Extends s s') (h' : Extends s' t) :
    Extends s t := by
  refine ⟨?_, fun p => h'.plan p ∘ h.plan p, h'.cancelled ∘ h.cancelled⟩
  obtain ⟨rs, hrs, hnumbers⟩ := h.receipts
  obtain ⟨rs', hrs', hnumbers'⟩ := h'.receipts
  refine ⟨rs ++ rs', by rw [hrs', hrs, List.append_assoc], ?_⟩
  rw [List.map_append, hnumbers, hnumbers', hrs, List.length_append, List.length_append,
    Nat.add_right_comm, List.range'_append_1]

theorem Extends.ingestReceipt {env : IngestEnv}
    (hok : ingestReceipt D s r env = .ok (s', appended)) : Extends s s' := by
  rcases ingestReceipt_cases hok with ⟨rfl, _⟩ | ⟨_, _, _, hlength, hseq, rfl⟩
  · exact .refl s'
  · exact ⟨⟨[r], rfl, by simp [hseq, hlength]⟩, fun _ => id, id⟩

theorem Extends.ingestAll {env : IngestEnv} {t : OperationRow} :
    ∀ {rs : List UpgradeReceipt} {s : OperationRow},
      ingestAll D env rs s = .ok t → Extends s t
  | [], _, hok => by
    cases Except.ok.inj hok
    exact .refl t
  | r :: rest, s, hok => by
    obtain ⟨⟨s', appended⟩, hr, hrest⟩ := bind_eq_ok.mp hok
    exact (Extends.ingestReceipt hr).trans (Extends.ingestAll hrest)

theorem Extends.cancel (s : OperationRow) : Extends s s.cancel :=
  ⟨(Extends.refl s).receipts, fun _ => id, fun _ => rfl⟩

theorem Extends.requestCancel {env : CancelEnv}
    (hok : requestCancel D s env = .ok (s', ())) : Extends s s' := by
  rcases requestCancel_cases hok with rfl | ⟨_, rfl | ⟨_, t, ht, rfl | ⟨_, rfl⟩⟩⟩
  · exact .refl s'
  · exact .cancel _
  · exact .ingestAll ht
  · exact (Extends.ingestAll ht).trans (.cancel t)

theorem Extends.consume (h : Consistent D s)
    (hok : consume D s grant r env = .ok (s', ())) : Extends s s' := by
  rcases consume_cases hok with ⟨rfl, _⟩ |
    ⟨authority, hmem, hconsumed, hintent, _, _, hthere | ⟨hseq, rfl⟩⟩
  · exact .refl s'
  · cases (h.grants.countP_eq_zero hmem hconsumed r hthere).symm.trans hintent
  · exact ⟨⟨[r], rfl, by simp [hseq, h.length_eq]⟩, fun _ => id, id⟩

theorem Extends.preparePlan {authorized : Except Refusal Unit}
    (hok : preparePlan s plan authorized = .ok (s', ())) : Extends s s' := by
  by_cases hplan : s.executionPlan = none
  · obtain ⟨_, rfl | rfl⟩ := preparePlan_cases hok
    · exact .refl s'
    · exact ⟨(Extends.refl s).receipts, by simp [hplan], id⟩
  · simp only [Upgrades.preparePlan, check_bind_eq_ok, if_pos hplan] at hok
    exact (Prod.mk.inj (Except.ok.inj hok.2)).1 ▸ .refl _

theorem Extends.step (h : Consistent D s) (e : ApiEvent) :
    Extends s (apiStep D s e) := by
  cases e with
  | call c =>
    refine settle_induction (.refl s) fun s' _ hok => ?_
    cases c with
    | ingestReceipt r env =>
      obtain ⟨⟨t, appended⟩, hr, heq⟩ := map_eq_ok.mp hok
      cases heq
      exact .ingestReceipt hr
    | issue request env =>
      obtain ⟨⟨t, grant⟩, hr, heq⟩ := map_eq_ok.mp hok
      cases heq
      obtain ⟨_, ⟨_, rfl⟩ | ⟨_, rfl⟩⟩ := issue_cases hr <;>
        exact ⟨(Extends.refl s).receipts, fun _ => id, id⟩
    | consume grant intent env => exact .consume h hok
    | requestCancel env => exact .requestCancel hok
  | preparePlan plan authorized =>
    exact settle_induction (.refl s) fun s' _ hok => .preparePlan hok
  | migration record =>
    exact ⟨(Extends.refl s).receipts, fun _ => id, id⟩

/-- **The record of an operation is append-only**: what was accepted by some moment
is there at every later one. -/
theorem operation_only_extended (D : Documents) (jobId : String) (generation : ℕ)
    (kind : UpgradeKind) (sourceSha256 targetSha256 authoritySha256 : String)
    (events : List ApiEvent) (n k : ℕ) :
    let row :=
      acceptedRow jobId generation kind sourceSha256 targetSha256 authoritySha256
    Extends (Run.last (apiStep D) row (events.take n))
      (Run.last (apiStep D) row (events.take (n + k))) := by
  intro row
  refine (Run.rel_of_step
    (fun s t => Consistent D s → Consistent D t ∧ Extends s t)
    (fun s h => ⟨h, .refl s⟩) (fun h h' hr => ?_) (fun s e h => ⟨h.step e, .step h e⟩)
    (Nat.le_add_right n k) row events ?_).2
  · obtain ⟨hs, hrs⟩ := h hr
    exact ⟨(h' hs).1, hrs.trans (h' hs).2⟩
  · exact Run.last_of_kept (Consistent D) (fun s e h => h.step e) _
      (consistent_acceptedRow ..)

/-! ## Rollbacks -/

/-- Evidence that satisfies every check of the run below. -/
def sampleEvidence : UpgradeEvidence where
  releaseSha256 := some "target"
  schemaHead := some "head"
  modelId := some "model"
  modelVariantId := some "variant"
  modelManifestSha256 := some "manifest"
  outputSha256 := some "output"
  generatedTokens := some 10
  sourceVerified := some true
  artifactsVerified := some true
  configurationVerified := some true
  cleanupVerified := some true

/-- Every text reads as the sample evidence, and a receipt is its own digest. -/
def sampleDocuments : Documents where
  readEvidence _ := sampleEvidence
  Sha256 := UpgradeReceipt
  decidableEq := inferInstance
  receiptSha256 := id
  receiptSha256_injective _ _ h := h
  notStartedSha256 _ := ""

def sampleRow : OperationRow :=
  acceptedRow "job" 1 .controlPlane "source" "target" "authority"

/-- A release that runs no service and reads the one schema. -/
def sampleRelease (manifestSha256 : String) : UpgradeRelease :=
  ⟨manifestSha256, none, fun _ => none, ["head"], false⟩

def samplePlan : AcceptedPlan where
  operation := sampleRow.operation
  source := sampleRelease "source"
  target := sampleRelease "target"
  drainDeadlineAt := seconds 900
  modelId := "model"
  modelVariantId := "variant"
  modelManifestSha256 := "manifest"
  peerRuntimeSha256 := none
  backup := none
  initialSchemaHead := some "head"
  initialSchemaSha256 := some "digest"
  schemaHeadAfter := some "head"
  authoritySha256 := "plan"
  source_sha256 := rfl
  target_sha256 := rfl
  schema_bound := show _ ∧ _ ∧ _ by decide

end Upgrades
