import Coire.PlacementEffects
import Coire.Run

/-!
# Busy and pinned models are not evicted

The plan of an admission leaves out pinned models and models with an active request
lease. The victims are moved later, each in a transaction of its own that looks at
neither: a lease taken or a pin set in between does not save the model. That is the only
way (`Placement.evictions_spare_busy`).
-/

namespace Placement

def planned (s : Placement) (d : ℕ) : List RowKey :=
  (s.pc? d).elim [] WorkflowPc.planned

def Busy (s : Placement) (k : RowKey) : Prop :=
  (s.rows.get? k).any (fun r => r.pinned) = true ∨ s.activeLeases k ≠ 0

instance (s : Placement) (k : RowKey) : Decidable (s.Busy k) :=
  inferInstanceAs (Decidable (_ ∨ _))

def Releasing (s : Placement) (k : RowKey) : Prop :=
  (s.rows.get? k).any (fun r => decide (r.state = .releasing)) = true

instance (s : Placement) (k : RowKey) : Decidable (s.Releasing k) :=
  inferInstanceAs (Decidable (_ = true))

/-- **A reservation is evicted** between two states. -/
def Evicted (s s' : Placement) (k : RowKey) : Prop :=
  ¬ s.Releasing k ∧ s'.Releasing k
    ∨ ∃ d, s.commands.get? ⟨d, .unload, k⟩ = none
      ∧ s'.commands.get? ⟨d, .unload, k⟩ ≠ none

/-- **No plan is disturbed.** No lease is granted and no pin set on a
reservation that a decision has planned to evict and not yet moved. -/
def Undisturbed (s : Placement) : Step → Prop
  | .acquireLease k lease _ allowed =>
    (s.leasable k lease && allowed) = true → ∀ d, k ∉ s.planned d
  | .setPin k true allowed =>
    (s.pinnable k && allowed) = true → ∀ d, k ∉ s.planned d
  | _ => True

/-! ## What keeps a reservation idle -/

def Idle (s : Placement) (k : RowKey) : Prop :=
  (∃ r, s.rows.get? k = some r ∧ r.pinned = false) ∧ s.activeLeases k = 0

def Spared (s : Placement) : Prop := ∀ d k, k ∈ s.planned d → s.Idle k

variable {budget : ℕ → ℕ} {s s' : Placement} {k : RowKey}

theorem Idle.not_busy (h : s.Idle k) : ¬ s.Busy k := by
  obtain ⟨⟨r, hr, hp⟩, hl⟩ := h
  rintro (hb | hb)
  · grind
  · exact hb hl

def KeepsPins (s s' : Placement) : Prop :=
  ∀ k r, s.rows.get? k = some r →
    ∃ r', s'.rows.get? k = some r' ∧ r'.pinned = r.pinned

theorem keepsPins_of_rows (h : s'.rows = s.rows) : KeepsPins s s' :=
  fun _ r hr => ⟨r, h ▸ hr, rfl⟩

theorem keepsPins_modify {j : RowKey} {f : MemoryReservationRow → MemoryReservationRow}
    (h : s'.rows = s.rows.modify j f) (hf : ∀ r, (f r).pinned = r.pinned) :
    KeepsPins s s' := by
  intro k r hr
  rw [h, Dict.get?_modify]
  split
  · grind
  · exact ⟨r, hr, rfl⟩

theorem keepsPins_mapValues {f : RowKey → MemoryReservationRow → MemoryReservationRow}
    (h : s'.rows = s.rows.mapValues f)
    (hf : ∀ k r, (f k r).pinned = r.pinned) : KeepsPins s s' := by
  intro k r hr
  rw [h, Dict.get?_mapValues, hr]
  exact ⟨_, rfl, hf k r⟩

variable {target : PlacementTarget} {d : ℕ}

theorem keepsPins_recordPending {now : ℤ}
    (h : s'.rows = s.rows.recordPending target now) : KeepsPins s s' := by
  intro k r hr
  rw [h, ReservationTable.recordPending, Dict.get?_set]
  split
  · grind
  · exact ⟨r, hr, rfl⟩

theorem activeLeases_eq_zero : s.activeLeases k = 0
    ↔ ∀ id l, s.leases.get? id = some l → l.row = k → l.active s.now = false := by
  unfold activeLeases
  rw [List.countP_eq_zero]
  constructor
  · intro h id l hl hk
    have := h l (Dict.mem_values.mpr ⟨id, hl⟩)
    rw [decide_eq_true hk, Bool.true_and] at this
    exact Bool.eq_false_iff.mpr this
  · intro h l hl hc
    obtain ⟨id, hid⟩ := Dict.mem_values.mp hl
    rw [Bool.and_eq_true, decide_eq_true_eq] at hc
    rw [h id l hid hc.1] at hc
    exact absurd hc.2 Bool.false_ne_true

theorem Idle.keep (h : s.Idle k) (hrows : KeepsPins s s')
    (hl : s'.leases = s.leases) (hn : s'.now = s.now) : s'.Idle k := by
  grind [activeLeases, Idle, KeepsPins]

theorem mem_planned : k ∈ s.planned d ↔ ∃ pc, s.pc? d = some pc ∧ k ∈ pc.planned := by
  unfold planned
  cases s.pc? d with
  | none => simp
  | some pc => simp

theorem planned_of_workflows (h : s'.workflows = s.workflows) (d : ℕ) :
    s'.planned d ⊆ s.planned d := by
  intro k hk
  obtain ⟨pc, hpc, hmem⟩ := mem_planned.mp hk
  exact mem_planned.mpr ⟨pc, pcs_of_workflows h d pc hpc, hmem⟩

theorem Spared.leases (h : s.Spared) (hrows : s'.rows = s.rows)
    (hw : s'.workflows = s.workflows)
    (hl : ∀ id l', s'.leases.get? id = some l' → l'.active s'.now = true →
      ∃ l, s.leases.get? id = some l ∧ l.row = l'.row
        ∧ l.active s.now = true) : s'.Spared := by
  intro d k hk
  obtain ⟨hrow, hzero⟩ := h d k (planned_of_workflows hw d hk)
  refine ⟨hrows ▸ hrow, activeLeases_eq_zero.mpr ?_⟩
  intro id l' hl' hk'
  by_contra hact
  rw [Bool.not_eq_false] at hact
  obtain ⟨l, hget, heq, hactive⟩ := hl id l' hl' hact
  rw [activeLeases_eq_zero.mp hzero id l hget (heq.trans hk')] at hactive
  exact absurd hactive Bool.false_ne_true

theorem Spared.keep (h : s.Spared) (hrows : KeepsPins s s')
    (hl : s'.leases = s.leases) (hn : s'.now = s.now)
    (hp : ∀ d, s'.planned d ⊆ s.planned d) : s'.Spared :=
  fun d k hk => (h d k (hp d hk)).keep hrows hl hn

theorem planned_modify {e : ℕ} {w : Workflow → Workflow}
    (h : s'.workflows = s.workflows.modify d w)
    (hw : ∀ x, (w x).pc.planned ⊆ s.planned d) :
    s'.planned e ⊆ s.planned e := by
  intro k hk
  obtain ⟨pc, hpc, hmem⟩ := mem_planned.mp hk
  rcases pc_modify h hpc with ⟨rfl, x, rfl⟩ | ⟨-, hold⟩
  · exact hw x hmem
  · exact mem_planned.mpr ⟨pc, hold, hmem⟩

theorem planned_of_pc {pc : WorkflowPc} (h : s.pc? d = some pc) :
    s.planned d = pc.planned := by
  unfold planned
  rw [h]
  rfl

theorem idle_of_admitted {b : ℕ} {env : AdmitEnv}
    {plan : AdmissionPlan} {rows : ReservationTable}
    (h : s.rows.admissionPass b target (s.passEnv env) s.now
      = .admitted plan rows) (hk : k ∈ plan.evictions) : s.Idle k := by
  obtain ⟨-, -, -, -, -, occupied, -, hplan⟩ :=
    ReservationTable.admissionPass_admitted h
  obtain ⟨r, hr, -, -, -, hpin, hcount⟩ :=
    ReservationTable.row_of_passVictims (ReservationTable.planPass_ok hplan).2 hk
  refine ⟨⟨r, hr, hpin⟩, ?_⟩
  rcases hcount with hzero | ⟨counts, hdrained, hzero⟩
  · exact Nat.eq_zero_of_add_eq_zero_right hzero
  · obtain ⟨e, -, rfl⟩ := Option.map_eq_some_iff.mp hdrained
    exact hzero

/-! ## One step -/

theorem Spared.moved (h : s.Spared) (hrows : KeepsPins s s')
    (hl : s'.leases = s.leases) (hn : s'.now = s.now)
    {w : Workflow → Workflow} (hw : s'.workflows = s.workflows.modify d w)
    (hp : ∀ x, (w x).pc.planned = []) : s'.Spared := by
  refine h.keep hrows hl hn (fun e => planned_modify hw (fun x => ?_))
  rw [hp x]
  exact List.nil_subset _

theorem Spared.admitted (h : s.Spared) {n : ℕ} {env : AdmitEnv} {b : ℕ}
    {decision : PlacementDecision} {plan : AdmissionPlan}
    {rows : ReservationTable}
    (hpass : s.rows.admissionPass b (decision.target n) (s.passEnv env) s.now
      = .admitted plan rows) :
    (s.admitted d (decision.target n) plan rows).Spared := by
  obtain ⟨-, -, -, -, hrows, -⟩ :=
    ReservationTable.admissionPass_admitted hpass
  have hkeep : KeepsPins s (s.admitted d (decision.target n) plan rows) :=
    keepsPins_recordPending hrows
  intro e k hk
  obtain ⟨pc, hpc, hmem⟩ := mem_planned.mp hk
  rcases pc_modify rfl hpc with ⟨-, x, rfl⟩ | ⟨-, hold⟩
  · exact (idle_of_admitted hpass hmem).keep hkeep rfl rfl
  · exact (h e k (mem_planned.mpr ⟨pc, hold, hmem⟩)).keep hkeep rfl rfl

theorem Spared.leased (h : s.Spared) {lease : ℕ} {ttl : ℤ} (hk : ∀ d, k ∉ s.planned d) :
    ({ s with
      leases := s.leases.set lease ⟨k, s.now + ttl, false⟩
      rows := s.rows.modify k (fun r => { r with lastUsedAt := s.now }) }
      : Placement).Spared := by
  intro d j hj
  have hne : j ≠ k := by
    rintro rfl
    exact hk d hj
  obtain ⟨⟨r, hr, hp⟩, hzero⟩ := h d j hj
  refine ⟨⟨r, ?_, hp⟩, ?_⟩
  · grind
  rw [activeLeases_eq_zero] at hzero ⊢
  intro id l hl hrow
  replace hl : (s.leases.set lease ⟨k, s.now + ttl, false⟩).get? id = some l := hl
  rw [Dict.get?_set] at hl
  split at hl
  · grind
  · exact hzero id l hl hrow

theorem Spared.refreshed (h : s.Spared) (lease : ℕ) (ttl : ℤ) :
    (s.refreshLease lease ttl).Spared := by
  refine h.leases rfl rfl (fun id l' hl' hact => ?_)
  replace hl' : (s.leases.modify lease _).get? id = some l' := hl'
  rw [Dict.get?_modify] at hl'
  split at hl'
  · rename_i hid
    obtain ⟨l, hl, rfl⟩ := Option.map_eq_some_iff.mp hl'
    refine ⟨l, hid ▸ hl, ?_⟩
    split at hact
    · grind
    · rename_i hno
      rw [if_neg hno]
      exact ⟨rfl, hact⟩
  · exact ⟨l', hl', rfl, hact⟩

theorem Spared.leaseReleased (h : s.Spared) (lease : ℕ) :
    (s.releaseLease lease).Spared := by
  refine h.leases rfl rfl (fun id l' hl' hact => ?_)
  replace hl' : (s.leases.modify lease _).get? id = some l' := hl'
  rw [Dict.get?_modify] at hl'
  split at hl'
  · obtain ⟨l, -, rfl⟩ := Option.map_eq_some_iff.mp hl'
    exact absurd hact Bool.false_ne_true
  · exact ⟨l', hl', rfl, hact⟩

theorem Spared.pinned (h : s.Spared) {pin : Bool}
    (hk : pin = true → ∀ d, k ∉ s.planned d) :
    ({ s with rows := s.rows.modify k (fun r => { r with pinned := pin }) }
      : Placement).Spared := by
  intro d j hj
  obtain ⟨⟨r, hr, hp⟩, hzero⟩ := h d j hj
  refine ⟨?_, hzero⟩
  show ∃ r, (s.rows.modify k _).get? j = some r ∧ r.pinned = false
  rw [Dict.get?_modify]
  split
  · rename_i hjk
    rw [← hjk, hr]
    refine ⟨_, rfl, ?_⟩
    cases pin with
    | false => rfl
    | true => exact absurd (hjk ▸ hj) (hk rfl d)
  · exact ⟨r, hr, hp⟩

theorem Spared.ticked (h : s.Spared) (elapsed : ℕ) :
    ({ s with now := s.now + elapsed } : Placement).Spared := by
  refine h.leases rfl rfl (fun id l hl hact => ⟨l, hl, rfl, ?_⟩)
  unfold RequestLease.active at hact ⊢
  rw [Bool.and_eq_true, decide_eq_true_eq] at hact ⊢
  exact ⟨hact.1, lt_of_le_of_lt (Int.le_add_of_nonneg_right
    (Int.natCast_nonneg elapsed)) hact.2⟩

theorem Spared.step (h : s.Spared) {a : Step} (ha : s.Undisturbed a)
    (he : Effect budget s a s') : s'.Spared := by
  cases he with
  | nothing => exact h
  | rest _ hold hne hw hrun hret hf =>
    exact h.moved (keepsPins_of_rows rfl) rfl rfl rfl
      (fun x => WorkflowPc.planned_of_resting (hw x))
  | admitted hold hd hpass => exact h.admitted hpass
  | evicted hold hv hd =>
    refine h.keep (keepsPins_modify rfl (fun _ => rfl)) rfl rfl (fun e => ?_)
    refine planned_modify rfl (fun x => ?_)
    rw [planned_of_pc hold]
    exact List.subset_cons_self _ _
  | unloadSeen hold hc =>
    refine h.keep (keepsPins_of_rows rfl) rfl rfl (fun e => ?_)
    refine planned_modify rfl (fun x => ?_)
    rw [planned_of_pc hold]
    exact List.Subset.refl _
  | reserved hold hd =>
    exact h.moved (keepsPins_recordPending rfl) rfl rfl rfl (fun _ => rfl)
  | loadSeen hold hd hc =>
    exact h.moved (keepsPins_of_rows rfl) rfl rfl rfl (fun _ => rfl)
  | ready hold =>
    exact h.moved (keepsPins_of_rows rfl) rfl rfl rfl (fun _ => rfl)
  | @failed d name hold =>
    obtain ⟨rows, heq, hrows⟩ := failPending_eq s d
    have hkeep : KeepsPins s { s with rows := rows } := by
      grind [keepsPins_of_rows, keepsPins_modify, failIfPending_pinned]
    rw [heq]
    refine h.moved hkeep rfl rfl rfl (fun x => ?_)
    split <;> rfl
  | execNext hx he hopen =>
    exact h.keep (keepsPins_of_rows rfl) rfl rfl (planned_of_workflows rfl)
  | execFail _ hx =>
    exact h.keep (keepsPins_of_rows rfl) rfl rfl (planned_of_workflows rfl)
  | execUnload hx hop =>
    exact h.keep (keepsPins_modify rfl (fun _ => rfl)) rfl rfl
      (planned_of_workflows rfl)
  | execLoad hx hop =>
    exact h.keep (keepsPins_modify rfl (fun _ => rfl)) rfl rfl
      (planned_of_workflows rfl)
  | execFinish hx =>
    exact h.keep (keepsPins_of_rows rfl) rfl rfl (planned_of_workflows rfl)
  | execRetry =>
    exact h.keep (keepsPins_of_rows rfl) rfl rfl (planned_of_workflows rfl)
  | leased hk => exact h.leased (ha hk)
  | @refreshed lease ttl => exact h.refreshed lease ttl
  | @leaseReleased lease => exact h.leaseReleased lease
  | @pinned k pin allowed hk =>
    refine h.pinned ?_
    rintro rfl
    exact ha hk
  | @idleUnloaded env hnew =>
    refine h.keep (keepsPins_mapValues (f := fun k r =>
      if s.idleExpired env k r then { r with state := .releasing } else r) rfl
      (fun k r => ?_)) rfl rfl (planned_of_workflows rfl)
    split <;> rfl
  | @launchFailed i inst decision hi hend hd hstate =>
    refine h.keep (keepsPins_mapValues (f := fun k r =>
      if k.holderType = .model ∧ k.holderId = i ∧ r.state.active then
        { r with state := .failed }
      else r) rfl (fun k r => ?_)) rfl rfl (planned_of_workflows rfl)
    split <;> rfl
  | launched _ hf hd =>
    exact h.keep (keepsPins_of_rows rfl) rfl rfl (planned_of_workflows rfl)
  | @ticked elapsed => exact h.ticked elapsed

/-! ## Which steps evict -/

theorem releasing_iff : s.Releasing k
    ↔ ∃ r, s.rows.get? k = some r ∧ r.state = .releasing := by
  unfold Releasing
  rw [Option.any_eq_true]
  constructor
  · grind
  · grind

def NoneReleased (s s' : Placement) : Prop :=
  ∀ k, s'.Releasing k → s.Releasing k

def NoneQueued (s s' : Placement) : Prop :=
  ∀ d k, s'.commands.get? ⟨d, .unload, k⟩ ≠ none →
    s.commands.get? ⟨d, .unload, k⟩ ≠ none

theorem not_evicted (hr : NoneReleased s s') (hq : NoneQueued s s') :
    ¬ Evicted s s' k := by
  rintro (⟨hno, hrel⟩ | ⟨d, hnone, hsome⟩)
  · exact hno (hr k hrel)
  · exact hq d k hsome hnone

theorem noneReleased_of_rows (h : s'.rows = s.rows) : NoneReleased s s' := by
  intro k hk
  unfold Releasing at hk ⊢
  rw [← h]
  exact hk

theorem noneReleased_modify {j : RowKey}
    {f : MemoryReservationRow → MemoryReservationRow}
    (h : s'.rows = s.rows.modify j f)
    (hf : ∀ r, (f r).state = .releasing → r.state = .releasing) :
    NoneReleased s s' := by
  intro k hk
  rw [releasing_iff, h] at hk
  obtain ⟨r', hr', hs⟩ := hk
  rw [Dict.get?_modify] at hr'
  split at hr'
  · rename_i hkj
    obtain ⟨r, hr, rfl⟩ := Option.map_eq_some_iff.mp hr'
    exact releasing_iff.mpr ⟨r, hkj ▸ hr, hf r hs⟩
  · exact releasing_iff.mpr ⟨r', hr', hs⟩

theorem noneReleased_recordPending {now : ℤ}
    (h : s'.rows = s.rows.recordPending target now) : NoneReleased s s' := by
  intro k hk
  rw [releasing_iff, h] at hk
  obtain ⟨r', hr', hs⟩ := hk
  rw [ReservationTable.recordPending, Dict.get?_set] at hr'
  split at hr'
  · obtain rfl := Option.some.inj hr'
    split at hs <;> exact absurd hs MemoryReservationState.noConfusion
  · exact releasing_iff.mpr ⟨r', hr', hs⟩

theorem noneQueued_of_commands (h : s'.commands = s.commands) : NoneQueued s s' := by
  intro d k hk
  rw [← h]
  exact hk

theorem noneQueued_modify {c : CommandId} {f : CommandState → CommandState}
    (h : s'.commands = s.commands.modify c f) : NoneQueued s s' := by
  intro d k hk hnone
  rw [h, Dict.get?_modify] at hk
  split at hk
  · grind
  · exact hk hnone

theorem idle_of_idleExpired {env : TtlEnv} {r : MemoryReservationRow}
    (hr : s.rows.get? k = some r) (h : s.idleExpired env k r = true) :
    s.Idle k := by
  obtain ⟨-, hpin, hzero⟩ := of_idleExpired h
  exact ⟨⟨r, hr, hpin⟩, hzero⟩

theorem idle_of_unloadIdle {env : TtlEnv}
    (h : Evicted s (s.unloadIdle env) k) : s.Idle k := by
  rcases h with ⟨hno, hrel⟩ | ⟨d, hnone, hsome⟩
  · obtain ⟨r', hr', hs⟩ := releasing_iff.mp hrel
    obtain ⟨r, hr, rfl | ⟨hexp, -⟩⟩ := row_unloadIdle hr'
    · exact absurd (releasing_iff.mpr ⟨r', hr, hs⟩) hno
    · exact idle_of_idleExpired hr hexp
  · rcases command_unloadIdle s env ⟨d, .unload, k⟩ with
      hsame | ⟨-, e, he, hek⟩
    · exact absurd (hsame.trans hnone) hsome
    · obtain ⟨hmem, hexp⟩ := List.mem_filter.mp he
      rw [(CommandId.mk.inj hek).2.2]
      exact idle_of_idleExpired (Dict.mem_items.mp hmem) hexp

theorem noneReleased_launchFail (i : ℕ) : NoneReleased s (s.launchFail i) := by
  intro j hj
  obtain ⟨r', hr', hs⟩ := releasing_iff.mp hj
  obtain ⟨r, hr, rfl | rfl⟩ := row_launchFail hr'
  · exact releasing_iff.mpr ⟨r', hr, hs⟩
  · grind

theorem planned_or_idle_of_evicted {a : Step} (he : Effect budget s a s')
    (hk : Evicted s s' k) : (∃ d, k ∈ s.planned d) ∨ s.Idle k := by
  have keep : NoneReleased s s' → NoneQueued s s' → (∃ d, k ∈ s.planned d) ∨ s.Idle k :=
    fun hr hq => absurd hk (not_evicted hr hq)
  cases he with
  | nothing => exact keep (fun _ => id) (fun _ _ => id)
  | rest => exact keep (noneReleased_of_rows rfl) (noneQueued_of_commands rfl)
  | admitted hold hd hpass =>
    obtain ⟨-, -, -, -, hrows, -⟩ :=
      ReservationTable.admissionPass_admitted hpass
    exact keep (noneReleased_recordPending hrows) (noneQueued_of_commands rfl)
  | @evicted d n v vs r decision hold hv hd =>
    refine Or.inl ⟨d, ?_⟩
    rw [planned_of_pc hold]
    by_cases hkv : k = v
    · exact hkv ▸ List.mem_cons_self
    refine absurd hk ?_
    rintro (⟨hno, hrel⟩ | ⟨e, hnone, hsome⟩)
    · refine hno ?_
      rw [releasing_iff] at hrel ⊢
      replace hrel : ∃ r, (s.rows.modify v _).get? k = some r
        ∧ r.state = .releasing := hrel
      rw [Dict.get?_modify, if_neg hkv] at hrel
      exact hrel
    · exact hsome ((get?_queue_ne (s := s) (fun h =>
        hkv (CommandId.mk.inj h).2.2)).trans hnone)
  | unloadSeen =>
    exact keep (noneReleased_of_rows rfl) (noneQueued_of_commands rfl)
  | @reserved d n env decision hold hd =>
    refine keep (noneReleased_recordPending rfl) (fun e j hsome hnone => ?_)
    exact hsome ((get?_queue_ne (s := s) (fun h =>
      Operation.noConfusion (CommandId.mk.inj h).2.1)).trans hnone)
  | loadSeen =>
    exact keep (noneReleased_of_rows rfl) (noneQueued_of_commands rfl)
  | ready => exact keep (noneReleased_of_rows rfl) (noneQueued_of_commands rfl)
  | @failed d name hold =>
    obtain ⟨rows, heq, hrows⟩ := failPending_eq s d
    rw [heq] at keep
    refine keep ?_ (noneQueued_of_commands rfl)
    rcases hrows with rfl | ⟨decision, n, -, rfl⟩
    · exact noneReleased_of_rows rfl
    refine noneReleased_modify rfl (fun r hr => ?_)
    unfold failIfPending at hr
    split at hr
    · grind
    · exact hr
  | execNext => exact keep (noneReleased_of_rows rfl) (noneQueued_modify rfl)
  | execFail => exact keep (noneReleased_of_rows rfl) (noneQueued_modify rfl)
  | execUnload =>
    exact keep (noneReleased_modify rfl
      (fun _ h => absurd h MemoryReservationState.noConfusion))
      (noneQueued_of_commands rfl)
  | execLoad =>
    exact keep (noneReleased_modify rfl
      (fun _ h => absurd h MemoryReservationState.noConfusion))
      (noneQueued_of_commands rfl)
  | execFinish => exact keep (noneReleased_of_rows rfl) (noneQueued_modify rfl)
  | execRetry =>
    exact keep (noneReleased_of_rows rfl) (noneQueued_of_commands rfl)
  | leased =>
    exact keep (noneReleased_modify rfl (fun _ => id)) (noneQueued_of_commands rfl)
  | refreshed =>
    exact keep (noneReleased_of_rows rfl) (noneQueued_of_commands rfl)
  | leaseReleased =>
    exact keep (noneReleased_of_rows rfl) (noneQueued_of_commands rfl)
  | pinned =>
    exact keep (noneReleased_modify rfl (fun _ => id)) (noneQueued_of_commands rfl)
  | idleUnloaded hnew => exact Or.inr (idle_of_unloadIdle hk)
  | @launchFailed i inst decision hi hend hd hstate =>
    exact keep (noneReleased_launchFail i) (noneQueued_of_commands rfl)
  | launched =>
    exact keep (noneReleased_of_rows rfl) (noneQueued_of_commands rfl)
  | ticked =>
    exact keep (noneReleased_of_rows rfl) (noneQueued_of_commands rfl)

/-! ## Runs -/

/-- **Busy and pinned models are spared**, in any run in which no lease is granted and
no pin set on a planned victim. -/
theorem evictions_spare_busy (hs : ∀ d, s.planned d = []) {steps : List Step}
    (h : Run.Along (step budget) Undisturbed s steps) :
    Run.Along (step budget)
      (fun s a => ∀ k, Evicted s (step budget s a) k → ¬ s.Busy k) s steps := by
  refine Run.along_of_invariant Spared
    (fun s a hinv ha => hinv.step ha (step_effect a)) ?_ ?_ h
  · intro s a hinv _ k hk
    rcases planned_or_idle_of_evicted (step_effect a) hk with ⟨d, hd⟩ | hidle
    · exact (hinv d k hd).not_busy
    · exact hidle.not_busy
  · grind [Spared]

/-- A node that holds two models, of six and two bytes, and a decision that
needs six. -/
def crowded : Placement where
  now := 9
  rows := (Dict.empty.set ⟨0, .model, 60⟩ ⟨6, false, .held, 0⟩).set
    ⟨0, .model, 61⟩ ⟨2, false, .held, 5⟩
  leases := Dict.empty
  decisions := Dict.empty.set 1
    ⟨50, 6, false, false, .requested, none, none, []⟩
  commands := Dict.empty
  instances := Dict.empty
  workflows := Dict.empty.set 1 ⟨.idle, 1⟩
  executor := .idle
  serial := 0
  admissions := Dict.empty

theorem crowded_planned (d : ℕ) : crowded.planned d = [] := by
  show ((Dict.lookup d [(1, ⟨.idle, 1⟩)]).map Workflow.pc).elim []
    WorkflowPc.planned = []
  unfold Dict.lookup
  split <;> rfl

/-- The larger model is evicted, the other has a lease. -/
theorem evictions_spare_busy_crowded : Run.Along (step fun _ => 10)
      (fun s a => ∀ k, Evicted s (step (fun _ => 10) s a) k → ¬ s.Busy k)
      crowded [.acquireLease ⟨0, .model, 61⟩ 1 30 true, .begin 1 ⟨true, true, [0]⟩,
        .admission 1 ⟨true, true, true, true, false, none, none⟩,
        .evict 1 true] :=
  evictions_spare_busy crowded_planned
    ⟨fun _ d hd => absurd (crowded_planned d ▸ hd) List.not_mem_nil, trivial,
      trivial, trivial, trivial⟩

/-- **A lease taken between the plan and the eviction** does not save the
model. -/
theorem leased_victim_evicted :
    (∀ d, crowded.planned d = []) ∧ ¬ Run.Along (step fun _ => 10)
      (fun s a => ∀ k, Evicted s (step (fun _ => 10) s a) k → ¬ s.Busy k)
      crowded [.begin 1 ⟨true, true, [0]⟩,
        .admission 1 ⟨true, true, true, true, false, none, none⟩,
        .acquireLease ⟨0, .model, 60⟩ 1 30 true, .evict 1 true] := by
  refine ⟨crowded_planned, ?_⟩
  rintro ⟨-, -, -, h, -⟩
  exact h ⟨0, .model, 60⟩ (Or.inl (by decide)) (by decide)

end Placement
