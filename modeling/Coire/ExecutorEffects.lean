import Coire.ExecutorJournal

/-!
# Effects run at most once and only in time

The two facts of `ExecutorJournal` and what follows from them over every
interleaving of calls and restarts. `Extends` says what a write of the epoch may
change; `Admitted` says what an effect was admitted against, and stays true when the
epoch is extended, since it names an activation or a window that is never removed.
-/

namespace Upgrades.Executor

open Guarded

variable {P : ExecutorPlan} {D : Documents} {s s' : Files} {e e' : CoreExecutorEpoch}

/-! ## What a write of the epoch may change -/

/-- **The epoch is extended**: activations and windows are added at the end, and
what is captured stays as it is. -/
structure Extends (e e' : CoreExecutorEpoch) : Prop where
  activations : e.activations <+: e'.activations
  windows : e.serviceWindows <+: e'.serviceWindows
  readiness : ∀ d ∈ e.readinessDeadline, d ∈ e'.readinessDeadline
  outageCaptured : ∀ t ∈ e.outageCapturedAt, t ∈ e'.outageCapturedAt
  outage : ∀ d ∈ e.outageDeadline, d ∈ e'.outageDeadline
  recoveryCaptured : ∀ t ∈ e.recoveryCapturedAt, t ∈ e'.recoveryCapturedAt
  recovery : ∀ d ∈ e.recoveryDeadline, d ∈ e'.recoveryDeadline

theorem Extends.refl (e : CoreExecutorEpoch) : Extends e e :=
  ⟨List.prefix_rfl, List.prefix_rfl, fun _ h => h, fun _ h => h, fun _ h => h,
    fun _ h => h, fun _ h => h⟩

theorem Extends.trans {e'' : CoreExecutorEpoch} (h : Extends e e')
    (h' : Extends e' e'') : Extends e e'' :=
  ⟨h.activations.trans h'.activations, h.windows.trans h'.windows,
    fun d hd => h'.readiness d (h.readiness d hd),
    fun d hd => h'.outageCaptured d (h.outageCaptured d hd),
    fun d hd => h'.outage d (h.outage d hd),
    fun d hd => h'.recoveryCaptured d (h.recoveryCaptured d hd),
    fun d hd => h'.recovery d (h.recovery d hd)⟩

theorem Extends.activationOf (h : Extends e e') {b : Boundary}
    {a : UpgradeActivationConsume} (ha : e.activationOf b = some a) :
    e'.activationOf b = some a := by
  grind [CoreExecutorEpoch.activationOf, cases Extends]

def runtimeDeadline (P : ExecutorPlan) (a : UpgradeActivationConsume) : ℤ :=
  a.intent.occurredAt + seconds (P.readinessS * max 1 P.cohort.length)

/-- **Windows lie within the runtime's time**, which is counted from its
activation. -/
structure Dated (P : ExecutorPlan) (e : CoreExecutorEpoch) : Prop where
  readiness : e.readinessDeadline = (e.activationOf .runtime).map (runtimeDeadline P)
  windows : ∀ w ∈ e.serviceWindows, ∀ d ∈ e.readinessDeadline, w.deadlineAt ≤ d

structure EpochWrite (P : ExecutorPlan) (s s' : Files) : Prop where
  effects_eq : s'.effects = s.effects
  dispatched_eq : s'.dispatched = s.dispatched
  extends_epoch : ∀ e ∈ s.epoch, ∃ e' ∈ s'.epoch, Extends e.1 e'.1
  dated : (∀ e ∈ s.epoch, Dated P e.1) → ∀ e ∈ s'.epoch, Dated P e.1

theorem EpochWrite.refl (P : ExecutorPlan) (s : Files) : EpochWrite P s s :=
  ⟨rfl, rfl, fun e he => ⟨e, he, Extends.refl e.1⟩, id⟩

theorem state_ok {x : Epoch} (h : state P s = .ok x) : s.epoch = some x := by
  unfold state at h
  split at h
  case h_1 => exact nomatch h
  case h_2 e he =>
    rw [check_bind_eq_ok] at h
    cases Except.ok.inj h.2
    exact he

variable {effect x : CoreExecutorEffect} {y : CoreExecutorEpoch} {effectId : String}
  {now : ℤ}

theorem EpochWrite.of_writeEpoch {x : Epoch} {y' : CoreExecutorEpoch}
    (hx : s.epoch = some x) (h : writeEpoch s y = .ok (s', y'))
    (hextends : Extends x.1 y) (hdated : Dated P x.1 → Dated P y) :
    EpochWrite P s s' := by
  unfold writeEpoch at h
  split at h
  case isFalse => exact nomatch h
  case isTrue hy =>
    cases Except.ok.inj h
    refine ⟨rfl, rfl, fun e he => ⟨⟨y, hy⟩, rfl, ?_⟩, fun hall e he => ?_⟩
    · grind
    · grind

/-! ## The calls that write the epoch -/

theorem Budget.deadline_none {capture deadline : Option ℤ}
    (h : Budget capture deadline) (hnone : capture = none) : deadline = none := by
  subst hnone
  cases deadline with
  | none => rfl
  | some d => exact h.elim

theorem extends_recoverFrom {capture : ℤ} (hcaptured : e.recoveryCapturedAt = none)
    (hdeadline : e.recoveryDeadline = none) : Extends e (e.recoverFrom P capture) := by
  refine ⟨List.prefix_rfl, List.prefix_rfl, fun _ h => h, fun _ h => h,
    fun _ h => h, ?_, ?_⟩
  · rw [hcaptured]
    exact fun _ h => nomatch h
  · rw [hdeadline]
    exact fun _ h => nomatch h

theorem Dated.recoverFrom {capture : ℤ} (h : Dated P e) :
    Dated P (e.recoverFrom P capture) :=
  ⟨h.readiness, h.windows⟩

theorem windows_nil_of_none (x : Epoch) (hnone : x.1.activationOf .runtime = none) :
    x.1.serviceWindows = [] ∧ x.1.readinessDeadline = none := by
  obtain ⟨_, hwindows, _, _, _, _, hreadiness⟩ := x.2
  rw [hnone] at hwindows hreadiness
  refine ⟨not_not.mp fun hne => absurd (hwindows hne) Bool.false_ne_true, ?_⟩
  exact Option.not_isSome_iff_eq_none.mp
    (by rw [← hreadiness]; exact Bool.false_ne_true)

theorem make_ok {service : ServiceName} {captured deadline : ℤ}
    {w : CoreServiceWindow} (h : CoreServiceWindow.make service captured deadline = .ok w) :
    w.service = service ∧ w.deadlineAt = deadline := by
  unfold CoreServiceWindow.make at h
  split at h
  · cases Except.ok.inj h
    exact ⟨rfl, rfl⟩
  · exact nomatch h

theorem seconds_le_seconds {m n : ℤ} (h : m ≤ n) : seconds m ≤ seconds n :=
  Int.mul_le_mul_of_nonneg_right h (by decide)

variable {consumed : UpgradeActivationConsume}

theorem firstWindow_ok (x : Epoch) {windows : List CoreServiceWindow}
    (hnone : x.1.activationOf .runtime = none)
    (h : firstWindow P x.1 consumed = .ok windows) :
    ∀ w ∈ windows, w.deadlineAt ≤ runtimeDeadline P consumed := by
  unfold firstWindow at h
  split at h
  case h_1 =>
    cases Except.ok.inj h
    rw [(windows_nil_of_none x hnone).1]
    exact fun _ hw => nomatch hw
  case h_2 service _ =>
    obtain ⟨window, hwindow, h⟩ := bind_eq_ok.mp h
    cases Except.ok.inj h
    intro w hw
    cases List.mem_singleton.mp hw
    rw [(make_ok hwindow).2]
    have hpositive : 0 ≤ P.readinessS := by
      have := P.readiness_bounds
      omega
    refine Int.add_le_add_left (seconds_le_seconds ?_) _
    have hone : (1 : ℤ) ≤ (max 1 P.cohort.length : ℕ) := by omega
    calc P.readinessS = P.readinessS * 1 := (Int.mul_one _).symm
      _ ≤ P.readinessS * (max 1 P.cohort.length : ℕ) :=
        Int.mul_le_mul_of_nonneg_left hone hpositive

theorem activated_ok (x : Epoch)
    (hnone : x.1.activationOf consumed.grant.boundary = none)
    (h : activated P x.1 consumed = .ok e') :
    Extends x.1 e' ∧ (Dated P x.1 → Dated P e')
      ∧ e'.recoveryCapturedAt = x.1.recoveryCapturedAt
      ∧ e'.recoveryDeadline = x.1.recoveryDeadline := by
  unfold activated at h
  split at h
  case h_1 hboundary =>
    cases Except.ok.inj h
    refine ⟨⟨List.prefix_append .., List.prefix_rfl, fun _ h => h, fun _ h => h,
      fun _ h => h, fun _ h => h, fun _ h => h⟩, fun hd => ⟨?_, hd.windows⟩, rfl, rfl⟩
    rw [hd.readiness]
    refine congrArg (Option.map (runtimeDeadline P)) ?_
    unfold CoreExecutorEpoch.activationOf
    rw [List.find?_append, List.find?_singleton, hboundary]
    exact (Option.or_none ..).symm
  case h_2 hboundary =>
    rw [hboundary] at hnone
    obtain ⟨hwindows, hreadiness⟩ := windows_nil_of_none x hnone
    obtain ⟨windows, hfirst, h⟩ := bind_eq_ok.mp h
    cases Except.ok.inj h
    have hin := firstWindow_ok x hnone hfirst
    refine ⟨⟨List.prefix_append .., ?_, ?_, fun _ h => h, fun _ h => h, fun _ h => h,
      fun _ h => h⟩, fun _ => ⟨?_, ?_⟩, rfl, rfl⟩
    · rw [hwindows]
      exact ⟨windows, rfl⟩
    · rw [hreadiness]
      exact fun _ h => nomatch h
    · grind [CoreExecutorEpoch.activationOf, runtimeDeadline]
    · intro w hw d hd
      cases Option.mem_some.mp hd
      exact hin w hw

theorem EpochWrite.activation {ack : Option UpgradeReceiptAck}
    (h : activation P D s consumed now ack = .ok (s', y)) : EpochWrite P s s' := by
  unfold Executor.activation at h
  rw [check_bind_eq_ok] at h
  obtain ⟨_, h⟩ := h
  obtain ⟨x, hx, h⟩ := bind_eq_ok.mp h
  have hepoch := state_ok hx
  have hbudget := x.2.2.2.2.2.2.1
  rw [check_bind_eq_ok] at h
  obtain ⟨_, h⟩ := h
  split at h
  case h_1 existing _ =>
    rw [check_bind_eq_ok] at h
    obtain ⟨_, h⟩ := h
    split at h
    case isTrue hrecovers =>
      have hnone := Option.isNone_iff_eq_none.mp (Bool.and_eq_true_iff.mp hrecovers).2
      exact .of_writeEpoch hepoch h
        (extends_recoverFrom hnone (hbudget.deadline_none hnone)) .recoverFrom
    case isFalse =>
      cases Except.ok.inj h
      exact .refl P s
  case h_2 hnew =>
    simp only [check_bind_eq_ok] at h
    obtain ⟨_, _, _, _, h⟩ := h
    obtain ⟨updated, hupdated, h⟩ := bind_eq_ok.mp h
    obtain ⟨hextends, hdated, hcaptured, hdeadline⟩ := activated_ok x hnew hupdated
    split at h
    case isTrue hrecovers =>
      have hnone := Option.isNone_iff_eq_none.mp (Bool.and_eq_true_iff.mp hrecovers).2
      refine .of_writeEpoch hepoch h (hextends.trans ?_) fun hd => (hdated hd).recoverFrom
      exact extends_recoverFrom (hcaptured.trans hnone)
        (hdeadline.trans (hbudget.deadline_none hnone))
    case isFalse => exact .of_writeEpoch hepoch h hextends hdated

theorem EpochWrite.serviceWindow {service : ServiceName}
    {w : CoreServiceWindow} (h : serviceWindow P s service now = .ok (s', w)) :
    EpochWrite P s s' := by
  unfold Executor.serviceWindow at h
  obtain ⟨x, hx, h⟩ := bind_eq_ok.mp h
  rw [check_bind_eq_ok] at h
  obtain ⟨_, h⟩ := h
  split at h
  case h_1 =>
    cases Except.ok.inj h
    exact .refl P s
  case h_2 =>
    split at h
    case h_1 => exact nomatch h
    case h_2 readiness hreadiness =>
      simp only [check_bind_eq_ok] at h
      obtain ⟨_, _, h⟩ := h
      obtain ⟨window, hwindow, h⟩ := bind_eq_ok.mp h
      obtain ⟨⟨t, y⟩, hwrite, h⟩ := bind_eq_ok.mp h
      cases Except.ok.inj h
      refine .of_writeEpoch (state_ok hx) hwrite ⟨List.prefix_rfl,
        List.prefix_append .., fun _ h => h, fun _ h => h, fun _ h => h, fun _ h => h,
        fun _ h => h⟩ fun hd => ⟨hd.readiness, fun v hv d hmem => ?_⟩
      rcases List.mem_append.mp hv with hv | hv
      · exact hd.windows v hv d hmem
      cases List.mem_singleton.mp hv
      cases Option.mem_unique hmem hreadiness
      rw [(make_ok hwindow).2]
      cases x.1.outageDeadline with
      | none => exact Int.min_le_right ..
      | some outage => grind

theorem EpochWrite.captureOutage
    (h : captureOutage P s now = .ok (s', y)) : EpochWrite P s s' := by
  unfold Executor.captureOutage at h
  obtain ⟨x, hx, h⟩ := bind_eq_ok.mp h
  split at h
  case isTrue =>
    cases Except.ok.inj h
    exact .refl P s
  case isFalse hcaptured =>
    rw [check_bind_eq_ok] at h
    have hnone := not_not.mp hcaptured
    have hdeadline := x.2.2.2.2.2.1.deadline_none hnone
    refine .of_writeEpoch (state_ok hx) h.2 ⟨List.prefix_rfl, List.prefix_rfl,
      fun _ h => h, ?_, ?_, fun _ h => h, fun _ h => h⟩
      fun hd => ⟨hd.readiness, hd.windows⟩
    · rw [hnone]
      exact fun _ h => nomatch h
    · rw [hdeadline]
      exact fun _ h => nomatch h

theorem EpochWrite.captureRecovery
    (h : captureRecovery P s now = .ok (s', y)) : EpochWrite P s s' := by
  unfold Executor.captureRecovery at h
  obtain ⟨x, hx, h⟩ := bind_eq_ok.mp h
  split at h
  case isTrue =>
    cases Except.ok.inj h
    exact .refl P s
  case isFalse hcaptured =>
    obtain ⟨deadlines, _, h⟩ := bind_eq_ok.mp h
    have hnone := not_not.mp hcaptured
    exact .of_writeEpoch (state_ok hx) h
      (extends_recoverFrom hnone (x.2.2.2.2.2.2.1.deadline_none hnone)) .recoverFrom

theorem EpochWrite.openJournal (h : openJournal P s = .ok (s', ())) :
    EpochWrite P s s' := by
  unfold Executor.openJournal at h
  split at h
  case h_1 hnone =>
    obtain ⟨⟨t, y⟩, hwrite, h⟩ := bind_eq_ok.mp h
    cases Except.ok.inj h
    unfold writeEpoch at hwrite
    split at hwrite
    case isFalse => exact nomatch hwrite
    case isTrue hy =>
      cases Except.ok.inj hwrite
      refine ⟨rfl, rfl, fun e he => ?_, fun _ e he => ?_⟩
      · rw [hnone] at he
        exact nomatch he
      · cases Option.mem_some.mp he
        exact ⟨rfl, fun _ hw => nomatch hw⟩
  case h_2 =>
    rw [check_bind_eq_ok] at h
    cases Except.ok.inj h.2
    exact .refl P s

/-! ## Effects -/

/-- **What an effect was admitted against**: the deadline of a migration that is
activated, or that of its service's window. -/
def Admitted (P : ExecutorPlan) (e : CoreExecutorEpoch)
    (effect : CoreExecutorEffect) : Prop :=
  effect.action.recovery = false →
    (effect.action.migrates → ∃ a, e.activationOf .migration = some a
      ∧ effect.deadline = migrationDeadline P a) ∧
    (effect.action.migrates = false →
      ∃ w ∈ e.serviceWindows, effect.deadline = w.deadlineAt)

theorem Admitted.mono (h : Admitted P e effect)
    (hextends : Extends e e') : Admitted P e' effect := by
  intro hrecovery
  obtain ⟨hmigration, hservice⟩ := h hrecovery
  refine ⟨fun hm => ?_, fun hm => ?_⟩
  · obtain ⟨a, ha, hdeadline⟩ := hmigration hm
    exact ⟨a, hextends.activationOf ha, hdeadline⟩
  · grind [cases Extends]

theorem admitted_of_expected
    (h : expectedDeadline P e effect = some effect.deadline) : Admitted P e effect := by
  intro hrecovery
  unfold expectedDeadline at h
  refine ⟨fun hm => ?_, fun hm => ?_⟩
  · rw [if_pos hm] at h
    obtain ⟨a, ha, hdeadline⟩ := Option.map_eq_some_iff.mp h
    exact ⟨a, ha, hdeadline.symm⟩
  · rw [if_neg (Bool.eq_false_iff.mp hm), if_neg (Bool.eq_false_iff.mp hrecovery)] at h
    have hscope := effect.scope_eq
    rw [hm, Bool.false_or] at hscope
    cases hservice : effect.service with
    | none =>
      -- Only the removal of a migration has no service, and it recovers.
      rw [hservice] at hscope
      rw [of_decide_eq_true hscope] at hrecovery
      exact nomatch hrecovery
    | some service =>
      rw [hservice] at h
      obtain ⟨w, hw, hdeadline⟩ := Option.map_eq_some_iff.mp h
      exact ⟨w, List.mem_of_find?_eq_some hw, hdeadline.symm⟩

theorem readEffect_ok {found : Option CoreExecutorEffect}
    (h : readEffect s effectId = .ok found) : s.effects.get? effectId = found := by
  unfold readEffect at h
  split at h
  · exact Except.ok.inj h
  · exact nomatch h

/-- **An effect that is there already is changed in its outcome only**, and not
back into an intent. -/
def EffectWrite (s s' : Files) : Prop :=
  s' = s ∨ ∃ id old new, s.effects.get? id = some old
    ∧ s' = { s with effects := s.effects.set id new } ∧ new.action = old.action
    ∧ new.deadline = old.deadline ∧ new.outcome ≠ .intent

theorem EffectWrite.epoch_eq (w : EffectWrite s s') : s'.epoch = s.epoch := by
  rcases w with rfl | ⟨_, _, _, _, rfl, _⟩ <;> rfl

theorem EffectWrite.observe {observed : UpgradeDockerContainer}
    (h : observe P s effectId observed now = .ok (s', x)) : EffectWrite s s' := by
  unfold Executor.observe at h
  rw [check_bind_eq_ok] at h
  obtain ⟨_, h⟩ := h
  obtain ⟨found, hfound, h⟩ := bind_eq_ok.mp h
  split at h
  case h_1 => exact nomatch h
  case h_2 effect =>
    simp only [check_bind_eq_ok] at h
    obtain ⟨_, _, _, _, _, h⟩ := h
    split at h
    case isTrue =>
      rw [check_bind_eq_ok] at h
      cases Except.ok.inj h.2
      exact .inl rfl
    case isFalse =>
      cases Except.ok.inj h
      exact .inr ⟨effectId, effect, _, readEffect_ok hfound, rfl, rfl, rfl, nofun⟩

theorem EffectWrite.uncertain
    (h : uncertain P s effectId = .ok (s', x)) : EffectWrite s s' := by
  unfold Executor.uncertain at h
  obtain ⟨found, hfound, h⟩ := bind_eq_ok.mp h
  split at h
  case h_1 => exact nomatch h
  case h_2 effect =>
    rw [check_bind_eq_ok] at h
    obtain ⟨_, h⟩ := h
    split at h
    case isTrue =>
      cases Except.ok.inj h
      exact .inl rfl
    case isFalse =>
      cases Except.ok.inj h
      exact .inr ⟨effectId, effect, _, readEffect_ok hfound, rfl, rfl, rfl, nofun⟩

theorem EffectWrite.closed (s : Files) (effectId containerId : String) :
    EffectWrite s { s with effects := s.effects.modify effectId (.close containerId) } := by
  unfold Dict.modify
  cases hfound : s.effects.get? effectId with
  | none => exact .inl rfl
  | some effect => exact .inr ⟨effectId, effect, _, hfound, rfl, rfl, rfl, nofun⟩

theorem intent_cases {prepared : Prepared}
    (h : intent P s effect now prepared = .ok (s', x)) :
    s' = s ∨ ∃ y : Epoch, s.epoch = some y ∧ s.effects.get? effect.effectId = none
      ∧ Admitted P y.1 effect
      ∧ s' = { s with effects := s.effects.set effect.effectId effect } := by
  unfold intent at h
  rw [check_bind_eq_ok] at h
  obtain ⟨_, h⟩ := h
  obtain ⟨previous, hprevious, h⟩ := bind_eq_ok.mp h
  split at h
  case h_1 =>
    simp only [check_bind_eq_ok] at h
    obtain ⟨_, _, h⟩ := h
    cases Except.ok.inj h
    exact .inl rfl
  case h_2 =>
    obtain ⟨y, hy, h⟩ := bind_eq_ok.mp h
    simp only [check_bind_eq_ok, refuse_eq_ok, not_or, ne_eq, not_not] at h
    obtain ⟨⟨hexpected, _⟩, _, h⟩ := h
    refine .inr ⟨y, state_ok hy, readEffect_ok hprevious,
      admitted_of_expected hexpected, ?_⟩
    split at h
    case isTrue =>
      obtain ⟨_, _, h⟩ := bind_eq_ok.mp h
      rw [check_bind_eq_ok] at h
      exact (Prod.mk.inj (Except.ok.inj h.2)).1.symm
    case isFalse =>
      simp only [check_bind_eq_ok] at h
      exact (Prod.mk.inj (Except.ok.inj h.2.2)).1.symm

theorem dispatchIntent_cases {authority : Authority}
    (h : dispatchIntent P s effectId authority now = .ok (s', x)) :
    ∃ (effect : CoreExecutorEffect) (y : Epoch),
      s.effects.get? effectId = some effect ∧ s.epoch = some y
      ∧ effect.outcome = .intent ∧ now < effect.deadline
      ∧ (effect.action.recovery = false → y.1.recoveryCapturedAt = none
        ∧ ∀ d ∈ y.1.outageDeadline, now < d)
      ∧ x = { effect with outcome := .unknown }
      ∧ s' = { s with
        effects := s.effects.set effectId { effect with outcome := .unknown }
        dispatched := s.dispatched ++ [effectId] } := by
  unfold dispatchIntent at h
  simp only [check_bind_eq_ok] at h
  obtain ⟨_, _, _, h⟩ := h
  obtain ⟨found, hfound, h⟩ := bind_eq_ok.mp h
  split at h
  case h_1 => exact nomatch h
  case h_2 effect =>
    simp only [check_bind_eq_ok, refuse_eq_ok] at h
    obtain ⟨_, houtcome, h⟩ := h
    obtain ⟨y, hy, h⟩ := bind_eq_ok.mp h
    simp only [check_bind_eq_ok, refuse_eq_ok, not_or] at h
    obtain ⟨⟨hdeadline, _, hrecovery⟩, _, houtage, _, h⟩ := h
    cases Except.ok.inj h
    refine ⟨effect, y, readEffect_ok hfound, state_ok hy, not_not.mp houtcome,
      not_le.mp hdeadline, fun hforward => ⟨?_, fun d hd => ?_⟩, rfl, rfl⟩
    · grind
    · grind

/-! ## Runs -/

structure Accounted (P : ExecutorPlan) (s : Files) : Prop where
  dated : ∀ e ∈ s.epoch, Dated P e.1
  admitted : ∀ id effect, s.effects.get? id = some effect →
    ∃ e ∈ s.epoch, Admitted P e.1 effect
  once : s.dispatched.Nodup
  sent : ∀ id ∈ s.dispatched, ∃ effect, s.effects.get? id = some effect
    ∧ effect.outcome ≠ .intent

/-- The epoch of an earlier state is extended by that of a later one. -/
def Keeps (s s' : Files) : Prop :=
  ∀ e ∈ s.epoch, ∃ e' ∈ s'.epoch, Extends e.1 e'.1

theorem Keeps.of_eq (h : s'.epoch = s.epoch) : Keeps s s' := fun e he =>
  ⟨e, by rw [h]; exact he, Extends.refl e.1⟩

theorem Keeps.trans {s'' : Files} (h : Keeps s s') (h' : Keeps s' s'') :
    Keeps s s'' := fun e he => by
  obtain ⟨e', he', hextends⟩ := h e he
  obtain ⟨e'', he'', hextends'⟩ := h' e' he'
  exact ⟨e'', he'', hextends.trans hextends'⟩

theorem Accounted.epochWrite (h : Accounted P s) (w : EpochWrite P s s') :
    Accounted P s' := by
  refine ⟨w.dated h.dated, ?_, ?_, ?_⟩
  · intro id effect hget
    rw [w.effects_eq] at hget
    obtain ⟨e, he, hadmitted⟩ := h.admitted id effect hget
    obtain ⟨e', he', hextends⟩ := w.extends_epoch e he
    exact ⟨e', he', hadmitted.mono hextends⟩
  · rw [w.dispatched_eq]
    exact h.once
  · rw [w.dispatched_eq, w.effects_eq]
    exact h.sent

theorem Accounted.setEffect (h : Accounted P s) (id : String)
    (new : CoreExecutorEffect) (hnew : ∃ e ∈ s.epoch, Admitted P e.1 new)
    (hsent : id ∈ s.dispatched → new.outcome ≠ .intent) :
    Accounted P { s with effects := s.effects.set id new } := by
  grind [Accounted]

theorem Accounted.effectWrite (h : Accounted P s) (w : EffectWrite s s') :
    Accounted P s' := by
  grind [Admitted, EffectWrite, Accounted]

theorem Accounted.intent (h : Accounted P s)
    {prepared : Prepared} (hok : intent P s effect now prepared = .ok (s', x)) :
    Accounted P s' := by
  rcases intent_cases hok with rfl | ⟨y, hy, hnone, hadmitted, rfl⟩
  · exact h
  · grind [Accounted]

theorem Accounted.dispatchIntent (h : Accounted P s) {authority : Authority}
    (hok : dispatchIntent P s effectId authority now = .ok (s', x)) :
    Accounted P s' := by
  obtain ⟨effect, y, hget, hy, hintent, _, _, _, rfl⟩ := dispatchIntent_cases hok
  have hfresh : effectId ∉ s.dispatched := fun hmem => by
    obtain ⟨old, hold, houtcome⟩ := h.sent _ hmem
    cases hold.symm.trans hget
    exact houtcome hintent
  obtain ⟨e, he, hadmitted⟩ := h.admitted effectId effect hget
  have hset := h.setEffect effectId { effect with outcome := .unknown }
    ⟨e, he, hadmitted⟩ fun _ => nofun
  refine ⟨hset.dated, hset.admitted, ?_, ?_⟩
  · grind [cases Accounted]
  intro j hj
  rcases List.mem_append.mp hj with hj | hj
  · exact hset.sent j hj
  · grind

structure Kept (P : ExecutorPlan) (s s' : Files) : Prop where
  keeps : Keeps s s'
  accounted : Accounted P s → Accounted P s'

theorem EpochWrite.kept (w : EpochWrite P s s') : Kept P s s' :=
  ⟨w.extends_epoch, fun h => h.epochWrite w⟩

theorem EffectWrite.kept (w : EffectWrite s s') : Kept P s s' :=
  ⟨.of_eq w.epoch_eq, fun h => h.effectWrite w⟩

theorem step_kept (P : ExecutorPlan) (D : Documents) (s : Files) (c : Call) :
    Kept P s (step P D s c) := by
  -- A refused call leaves the disk as it is; one that returns is looked at below.
  have settled : ∀ {α : Type} {x : Except Refusal (Files × α)},
      (∀ s' a, x = .ok (s', a) → Kept P s s') → Kept P s (settle s x) := fun h =>
    settle_induction ⟨.of_eq rfl, id⟩ h
  cases c with
  | openJournal => exact settled fun _ _ h => (EpochWrite.openJournal h).kept
  | activation consumed now ack =>
    exact settled fun _ _ h => (EpochWrite.activation h).kept
  | serviceWindow service now =>
    exact settled fun _ _ h => (EpochWrite.serviceWindow h).kept
  | captureOutage now => exact settled fun _ _ h => (EpochWrite.captureOutage h).kept
  | captureRecovery now =>
    exact settled fun _ _ h => (EpochWrite.captureRecovery h).kept
  | intent effect now prepared =>
    refine settled fun s' _ h => ⟨.of_eq ?_, fun ha => ha.intent h⟩
    rcases intent_cases h with rfl | ⟨_, _, _, _, rfl⟩ <;> rfl
  | dispatchIntent effectId authority now =>
    refine settled fun s' _ h => ⟨.of_eq ?_, fun ha => ha.dispatchIntent h⟩
    obtain ⟨_, _, _, _, _, _, _, _, rfl⟩ := dispatchIntent_cases h
    rfl
  | observe effectId observed now =>
    exact settled fun _ _ h => (EffectWrite.observe h).kept
  | uncertain effectId => exact settled fun _ _ h => (EffectWrite.uncertain h).kept
  | closed effectId containerId => exact (EffectWrite.closed s effectId containerId).kept
  | receipt latest =>
    exact ⟨.of_eq rfl, fun h => ⟨h.dated, h.admitted, h.once, h.sent⟩⟩
  | migrationProof proof =>
    exact ⟨.of_eq rfl, fun h => ⟨h.dated, h.admitted, h.once, h.sent⟩⟩

/-- **In time**: what an effect rests on is recorded, and its deadlines are ahead. -/
structure InTime (P : ExecutorPlan) (e : CoreExecutorEpoch)
    (effect : CoreExecutorEffect) (now : ℤ) : Prop where
  forward : e.recoveryCapturedAt = none
  outage : ∀ d ∈ e.outageDeadline, now < d
  migration : effect.action.migrates →
    ∃ a, e.activationOf .migration = some a ∧ now < migrationDeadline P a
  runtime : effect.action.migrates = false →
    ∃ a, e.activationOf .runtime = some a
      ∧ e.readinessDeadline = some (runtimeDeadline P a) ∧ now < runtimeDeadline P a

def DispatchedInTime (P : ExecutorPlan) (s : Files) : Call → Prop
  | .dispatchIntent effectId authority now =>
    ∀ s' effect, dispatchIntent P s effectId authority now = .ok (s', effect) →
      effect.action.recovery = false →
      ∃ e ∈ s.epoch, InTime P e.1 effect now
  | _ => True

theorem Accounted.dispatchedInTime (h : Accounted P s) (c : Call) :
    DispatchedInTime P s c := by
  cases c with
  | dispatchIntent effectId authority now =>
    intro s' x hok hforward
    obtain ⟨effect, y, hget, hy, _, hnow, hrecovery, rfl, _⟩ :=
      dispatchIntent_cases hok
    obtain ⟨e, he, hadmitted⟩ := h.admitted effectId effect hget
    cases Option.mem_unique he hy
    obtain ⟨hmigration, hservice⟩ := hadmitted hforward
    refine ⟨y, hy, (hrecovery hforward).1, (hrecovery hforward).2, ?_, ?_⟩
    · grind
    intro hm
    obtain ⟨w, hw, hdeadline⟩ := hservice hm
    cases ha : y.1.activationOf .runtime with
    | none =>
      rw [(windows_nil_of_none y ha).1] at hw
      exact nomatch hw
    | some a =>
      have hready : y.1.readinessDeadline = some (runtimeDeadline P a) := by
        rw [(h.dated y hy).readiness, ha, Option.map_some]
      have hwithin := (h.dated y hy).windows w hw _ hready
      exact ⟨a, rfl, hready, lt_of_lt_of_le (hdeadline ▸ hnow) hwithin⟩
  | _ => trivial

/-- **Effects run at most once and only in time**, in every interleaving of calls and
restarts, and what the epoch has recorded stays. -/
theorem effects_once_and_in_time (P : ExecutorPlan) (D : Documents)
    (calls : List Call) :
    (Run.last (step P D) {} calls).dispatched.Nodup
    ∧ Run.Along (step P D) (DispatchedInTime P) {} calls
    ∧ ∀ n m, n ≤ m → Keeps (Run.last (step P D) {} (calls.take n))
        (Run.last (step P D) {} (calls.take m)) := by
  have hempty : Accounted P {} :=
    ⟨fun _ h => (nomatch h), fun _ _ h => (nomatch h), List.nodup_nil,
      fun _ h => (nomatch h)⟩
  have hkept : ∀ s c, Accounted P s → Accounted P (step P D s c) := fun s c =>
    (step_kept P D s c).accounted
  refine ⟨?_, ?_, fun n m hle => ?_⟩
  · exact (Run.last_of_kept (Accounted P) hkept calls hempty).once
  · exact Run.along_of_kept (Accounted P) hkept (fun s c h => h.dispatchedInTime c)
      calls hempty
  · exact Run.rel_of_step Keeps (fun _ => .of_eq rfl) Keeps.trans
      (fun s c => (step_kept P D s c).keeps) hle {} calls

end Upgrades.Executor
