import Coire.PlacementEffects

/-!
# The decision of an instance

An instance is placed by one decision, on one reservation for each node. This
module follows one instance through the runs of the placement system: which
states its reservations are in, and what every step keeps about its decision
and the commands (`Placement.Owned`) – the decision places this instance and no
other decision that is carried out does, commands belong to decisions that are
there, and what the executor is at is a command that is running.
-/

def RowKey.ofInstance (i n : ℕ) : RowKey := ⟨n, .model, i⟩

@[simp] theorem RowKey.ofInstance_node (i n : ℕ) :
    (RowKey.ofInstance i n).node = n := rfl

def RowKey.isOf (k : RowKey) (i : ℕ) : Bool :=
  decide (k.holderType = .model) && decide (k.holderId = i)

theorem RowKey.isOf_iff {k : RowKey} {i : ℕ} :
    k.isOf i = true ↔ k = .ofInstance i k.node := by
  obtain ⟨n, t, j⟩ := k
  unfold isOf ofInstance
  rw [Bool.and_eq_true, decide_eq_true_eq, decide_eq_true_eq]
  constructor
  · rintro ⟨rfl, rfl⟩
    rfl
  · grind

namespace Placement

/-! ## The state of a reservation -/

def stateOf (s : Placement) (k : RowKey) : Option MemoryReservationState :=
  (s.rows.get? k).map MemoryReservationRow.state

variable {budget : ℕ → ℕ} {s s' : Placement} {a : Step} {d i n : ℕ}
  {k j : RowKey}

theorem isOf_ofInstance (i n : ℕ) : (RowKey.ofInstance i n).isOf i = true :=
  RowKey.isOf_iff.mpr rfl

variable {decision : PlacementDecision} {pc : WorkflowPc} {e m : ℕ}

theorem ofInstance_inj (h : RowKey.ofInstance i m = RowKey.ofInstance i n) : m = n :=
  (RowKey.mk.inj h).1

theorem isOpen_of_values {c : CommandId} {st : CommandState}
    (h : ∀ st ∈ s.commands.values, st.isOpen = false)
    (hc : s.commands.get? c = some st) : st.isOpen = false :=
  h st (Dict.mem_values.mpr ⟨c, hc⟩)

theorem active_iff : s.Active k ↔ ∃ st, s.stateOf k = some st ∧ st.active = true := by
  unfold Active stateOf
  constructor
  · grind
  · rintro ⟨st, hst, hact⟩
    obtain ⟨r, hr, rfl⟩ := Option.map_eq_some_iff.mp hst
    exact ⟨r, hr, hact⟩

theorem active_congr (h : s'.stateOf k = s.stateOf k) : s'.Active k ↔ s.Active k := by
  rw [active_iff, active_iff, h]

theorem stateOf_of_rows (h : s'.rows = s.rows) (k : RowKey) :
    s'.stateOf k = s.stateOf k := by
  unfold stateOf
  rw [h]

theorem stateOf_modify {f : MemoryReservationRow → MemoryReservationRow}
    (h : s'.rows = s.rows.modify j f) (hne : k ≠ j) :
    s'.stateOf k = s.stateOf k := by
  unfold stateOf
  rw [h, Dict.get?_modify, if_neg hne]

theorem stateOf_modify_state {f : MemoryReservationRow → MemoryReservationRow}
    (h : s'.rows = s.rows.modify j f) (hf : ∀ r, (f r).state = r.state)
    (k : RowKey) : s'.stateOf k = s.stateOf k := by
  by_cases hk : k = j
  · unfold stateOf
    rw [h, Dict.get?_modify, if_pos hk, hk, Option.map_map]
    exact congrArg (Option.map · _) (funext hf)
  · exact stateOf_modify h hk

theorem stateOf_setState {st : MemoryReservationState}
    (h : s'.rows = s.rows.modify k (fun r => { r with state := st })) :
    s'.stateOf k = (s.stateOf k).map (fun _ => st) := by
  unfold stateOf
  rw [h, Dict.get?_modify, if_pos rfl, Option.map_map, Option.map_map]
  rfl

theorem stateOf_recordPending {target : PlacementTarget} {now : ℤ}
    (h : s'.rows = s.rows.recordPending target now) :
    s'.stateOf target.key = some .pending := by
  unfold stateOf ReservationTable.recordPending at *
  rw [h, Dict.get?_set_self, Option.map_some]
  cases s.rows.get? target.key <;> rfl

theorem stateOf_recordPending_of_ne {target : PlacementTarget} {now : ℤ}
    (h : s'.rows = s.rows.recordPending target now) (hne : k ≠ target.key) :
    s'.stateOf k = s.stateOf k := by
  unfold stateOf ReservationTable.recordPending at *
  rw [h, Dict.get?_set_ne _ hne]

theorem stateOf_mapValues {f : RowKey → MemoryReservationRow → MemoryReservationRow}
    (h : s'.rows = s.rows.mapValues f)
    (hf : ∀ r, s.rows.get? k = some r → (f k r).state = r.state) :
    s'.stateOf k = s.stateOf k := by
  unfold stateOf
  rw [h, Dict.get?_mapValues]
  cases hr : s.rows.get? k with
  | none => rfl
  | some r => exact congrArg some (hf r hr)

theorem stateOf_launchFail (hne : k.holderId ≠ m) :
    (s.launchFail m).stateOf k = s.stateOf k := by
  refine stateOf_mapValues (f := fun k r =>
    if k.holderType = .model ∧ k.holderId = m ∧ r.state.active then
      { r with state := .failed }
    else r) rfl (fun r _ => ?_)
  rw [if_neg (fun hof => hne hof.2.1)]

theorem stateOf_unloadIdle {env : TtlEnv}
    (h : ∀ r, s.rows.get? k = some r → s.idleExpired env k r = false) :
    (s.unloadIdle env).stateOf k = s.stateOf k := by
  refine stateOf_mapValues (f := fun k r => if s.idleExpired env k r then
    { r with state := .releasing } else r) rfl (fun r hr => ?_)
  rw [h r hr]
  rfl

/-! ## What every step keeps -/

/-- Commands belong to decisions, and the executor is at one that runs. -/
def Commanded (s : Placement) : Prop :=
  (∀ c st, s.commands.get? c = some st → s.decisions.get? c.decision ≠ none)
    ∧ ∀ c, s.executor = .running c ∨ s.executor = .applied c →
      s.commands.get? c = some .running

structure Owned (d i : ℕ) (s : Placement) : Prop where
  decision : ∃ decision, s.decisions.get? d = some decision
    ∧ decision.holderId = i ∧ decision.idleTtl = false
  known : ∀ e, s.pc? e ≠ none → s.decisions.get? e ≠ none
  /-- Other decisions that are carried out place something else. -/
  others : ∀ e decision, e ≠ d → s.pc? e ≠ none →
    s.decisions.get? e = some decision → decision.holderId ≠ i
  launch : ∀ r, s.instances.get? i = some r → r.placementDecisionId = some d
  commanded : s.Commanded

theorem pc_ne_none_modify {w : Workflow → Workflow}
    (h : s'.workflows = s.workflows.modify d w) (he : s'.pc? e ≠ none) :
    s.pc? e ≠ none := by
  unfold pc? at he ⊢
  rw [h, Dict.get?_modify] at he
  split at he
  · rename_i hed
    intro hnone
    rw [← hed, Option.map_map] at he
    exact he (Option.map_eq_none_iff.mpr (Option.map_eq_none_iff.mp hnone))
  · exact he

theorem pc_ne_none_of_workflows (h : s'.workflows = s.workflows)
    (he : s'.pc? e ≠ none) : s.pc? e ≠ none := by
  unfold pc? at he ⊢
  rw [← h]
  exact he

theorem Effect.pc_ne_none (he : Effect budget s a s')
    (h : s'.pc? e ≠ none) : s.pc? e ≠ none := by
  cases he with
  | rest => exact pc_ne_none_modify rfl h
  | admitted => exact pc_ne_none_modify rfl h
  | evicted => exact pc_ne_none_modify rfl h
  | unloadSeen => exact pc_ne_none_modify rfl h
  | reserved => exact pc_ne_none_modify rfl h
  | loadSeen => exact pc_ne_none_modify rfl h
  | ready => exact pc_ne_none_modify rfl h
  | @failed d =>
    obtain ⟨rows, heq, -⟩ := failPending_eq s d
    rw [heq] at h
    exact pc_ne_none_modify rfl h
  | _ => exact pc_ne_none_of_workflows rfl h

theorem launch_modify {f : ModelInstance → ModelInstance}
    (h : s'.instances = s.instances.modify m f)
    (hf : ∀ r, (f r).placementDecisionId = r.placementDecisionId)
    {r' : ModelInstance} (hr' : s'.instances.get? i = some r') :
    ∃ r, s.instances.get? i = some r
      ∧ r'.placementDecisionId = r.placementDecisionId := by
  rw [h, Dict.get?_modify] at hr'
  split at hr'
  · rename_i him
    obtain ⟨r, hr, rfl⟩ := Option.map_eq_some_iff.mp hr'
    exact ⟨r, him ▸ hr, hf r⟩
  · exact ⟨r', hr', rfl⟩

theorem Effect.launch (he : Effect budget s a s') {r' : ModelInstance}
    (h : s'.instances.get? i = some r') :
    ∃ r, s.instances.get? i = some r
      ∧ r'.placementDecisionId = r.placementDecisionId := by
  cases he with
  | execUnload =>
    refine launch_modify rfl (fun r => ?_) h
    split <;> rfl
  | launchFailed =>
    exact launch_modify (f := fun r => { r with state := .failed }) rfl (fun _ => rfl) h
  | launched _ hf hd => exact launch_modify rfl hd h
  | @failed d =>
    obtain ⟨rows, heq, -⟩ := failPending_eq s d
    rw [heq] at h
    exact ⟨r', h, rfl⟩
  | _ => exact ⟨r', h, rfl⟩

theorem decisions_ne_none (h : KeepsDecisions s s')
    (he : s.decisions.get? e ≠ none) : s'.decisions.get? e ≠ none := by
  obtain ⟨decision, hd⟩ := Option.ne_none_iff_exists'.mp he
  obtain ⟨decision', hd', -⟩ := h e decision hd
  rw [hd']
  exact Option.some_ne_none _

theorem Commanded.keep (h : s.Commanded) (hkeep : KeepsDecisions s s')
    (hcmd : s'.commands = s.commands) (hx : s'.executor = s.executor) :
    s'.Commanded := by
  grind [decisions_ne_none, Commanded]

theorem Commanded.queue (h : s.Commanded) (hkeep : KeepsDecisions s s')
    {c : CommandId} (hcmd : s'.commands = s.commands.setDefault c .pending)
    (hd : s.decisions.get? c.decision ≠ none)
    (hx : s'.executor = s.executor) : s'.Commanded := by
  grind [decisions_ne_none, Commanded, KeepsDecisions]

theorem Commanded.setCommand (h : s.Commanded)
    (hkeep : KeepsDecisions s s') {c : CommandId} {st : CommandState}
    (hcmd : s'.commands = s.commands.modify c (fun _ => st))
    (hx : ∀ c', s'.executor = .running c' ∨ s'.executor = .applied c' →
      s'.commands.get? c' = some .running) : s'.Commanded := by
  refine ⟨fun c' st' hc => ?_, hx⟩
  rw [hcmd, Dict.get?_modify] at hc
  split at hc
  · rename_i heq
    obtain ⟨old, hold, -⟩ := Option.map_eq_some_iff.mp hc
    exact decisions_ne_none hkeep (heq ▸ h.1 c old hold)
  · exact decisions_ne_none hkeep (h.1 c' st' hc)

theorem Commanded.unloadIdle (h : s.Commanded) {env : TtlEnv}
    (hnew : ∀ e ∈ s.idleRows env, s.decisions.get? (env.decisionId e.1) = none) :
    (s.unloadIdle env).Commanded := by
  refine ⟨fun c st hc => ?_, fun c hc => ?_⟩
  · rcases command_unloadIdle s env c with hsame | ⟨-, e, he, rfl⟩
    · exact decisions_ne_none (keepsDecisions_unloadIdle hnew)
        (h.1 c st (hsame.symm.trans hc))
    · exact Dict.get?_foldl_set_ne_none
        (fun e : RowKey × MemoryReservationRow => env.decisionId e.1)
        (fun e => ttlDecision e.1 e.2) he s.decisions
  · have hrun := h.2 c hc
    rcases command_unloadIdle s env c with hsame | ⟨-, e, he, rfl⟩
    · exact hsame.trans hrun
    · exact absurd (hnew e he) (h.1 _ _ hrun)

theorem Commanded.step (h : s.Commanded) (he : Effect budget s a s') :
    s'.Commanded := by
  have hkeep := he.keepsDecisions
  cases he with
  | evicted hold hv hd =>
    exact h.queue hkeep rfl (by rw [hd]; exact Option.some_ne_none _) rfl
  | reserved hold hd =>
    exact h.queue hkeep rfl (by rw [hd]; exact Option.some_ne_none _) rfl
  | @failed d =>
    obtain ⟨rows, heq, -⟩ := failPending_eq s d
    rw [heq] at hkeep ⊢
    exact h.keep hkeep rfl rfl
  | @execNext e hx he hopen =>
    refine h.setCommand hkeep rfl (fun c hc => ?_)
    rcases hc with hc | hc
    · obtain rfl := ExecutorPc.running.inj hc
      exact Dict.get?_modify_self he
    · exact absurd hc ExecutorPc.noConfusion
  | execFail _ hx =>
    exact h.setCommand hkeep rfl (fun c hc => hc.elim
      (fun h => ExecutorPc.noConfusion h) (fun h => ExecutorPc.noConfusion h))
  | execFinish hx =>
    exact h.setCommand hkeep rfl (fun c hc => hc.elim
      (fun h => ExecutorPc.noConfusion h) (fun h => ExecutorPc.noConfusion h))
  | execUnload hx hop =>
    refine ⟨fun c st hc => decisions_ne_none hkeep (h.1 c st hc), fun c hc => ?_⟩
    rcases hc with hc | hc
    · exact absurd hc ExecutorPc.noConfusion
    · exact ExecutorPc.applied.inj hc ▸ h.2 _ (Or.inl hx)
  | execLoad hx hop =>
    refine ⟨h.1, fun c hc => ?_⟩
    rcases hc with hc | hc
    · exact absurd hc ExecutorPc.noConfusion
    · exact ExecutorPc.applied.inj hc ▸ h.2 _ (Or.inl hx)
  | execRetry => grind [execRetry, Commanded]
  | idleUnloaded hnew => exact h.unloadIdle hnew
  | _ => exact h.keep hkeep rfl rfl

theorem Owned.step (h : s.Owned d i) (he : Effect budget s a s') : s'.Owned d i := by
  have hkeep := he.keepsDecisions
  refine ⟨?_, ?_, ?_, ?_, h.commanded.step he⟩
  · obtain ⟨decision, hd, hholder, httl⟩ := h.decision
    obtain ⟨decision', hd', hholder', -, httl'⟩ := hkeep d decision hd
    exact ⟨decision', hd', hholder'.trans hholder, httl'.trans httl⟩
  · exact fun e hpc => decisions_ne_none hkeep (h.known e (he.pc_ne_none hpc))
  · intro e decision' hne hpc hd'
    have hpc' := he.pc_ne_none hpc
    obtain ⟨decision, hd⟩ := Option.ne_none_iff_exists'.mp (h.known e hpc')
    obtain ⟨decision₁, hd₁, hholder, -⟩ := hkeep e decision hd
    obtain rfl := Option.some.inj (hd₁.symm.trans hd')
    exact hholder ▸ h.others e decision hne hpc' hd
  · intro r' hr'
    obtain ⟨r, hr, hsame⟩ := he.launch hr'
    exact hsame.trans (h.launch r hr)

/-! ## What the steps of others leave alone -/

theorem Owned.key (h : s.Owned d i) (hd : s.decisions.get? d = some decision) (n : ℕ) :
    (decision.target n).key = .ofInstance i n := by
  obtain ⟨decision', hd', hholder, -⟩ := h.decision
  obtain rfl := Option.some.inj (hd.symm.trans hd')
  show (⟨_, _, _⟩ : RowKey) = ⟨_, _, _⟩
  rw [hholder]

theorem Owned.other (h : s.Owned d i) (hne : e ≠ d) (hold : s.pc? e = some pc)
    (he : s.decisions.get? e = some decision) (m n : ℕ) :
    RowKey.ofInstance i n ≠ (decision.target m).key := by
  intro heq
  have hpc : s.pc? e ≠ none := by
    rw [hold]
    exact Option.some_ne_none pc
  exact h.others e decision hne hpc he (RowKey.mk.inj heq).2.2.symm

theorem Owned.isOf_other (h : s.Owned d i) (hne : e ≠ d) (hold : s.pc? e = some pc)
    (he : s.decisions.get? e = some decision) (m : ℕ) :
    (decision.target m).key.isOf i = false := by
  rw [Bool.eq_false_iff, ne_eq, RowKey.isOf_iff]
  exact fun heq => h.other hne hold he m _ heq.symm

theorem Owned.failPending (h : s.Owned d i)
    (hne : e ≠ d) (hold : s.pc? e = some pc) (n : ℕ) :
    (s.failPending e).stateOf (.ofInstance i n) = s.stateOf (.ofInstance i n) := by
  obtain ⟨rows, heq, hrows | ⟨decision, m, hd, hrows⟩⟩ := failPending_eq s e
  · rw [heq, hrows]
  · rw [heq]
    exact stateOf_modify hrows (h.other hne hold hd m n)

/-! ## An instance to be placed -/

/-- An instance of six bytes, to be placed on empty nodes. -/
def launching : Placement where
  now := 0
  rows := Dict.empty
  leases := Dict.empty
  decisions := Dict.empty.set 1
    ⟨50, 6, false, false, .requested, none, none, []⟩
  commands := Dict.empty
  instances := Dict.empty.set 50 ⟨.reserving, some 1⟩
  workflows := Dict.empty.set 1 ⟨.idle, 1⟩
  executor := .idle
  serial := 0
  admissions := Dict.empty

theorem launching_owned : launching.Owned 1 50 := by
  have hpc : ∀ e, e ≠ 1 → launching.pc? e = none := by
    intro e he
    show (Dict.lookup e [(1, _)]).map _ = none
    rw [Dict.lookup, if_neg (Ne.symm he)]
    rfl
  refine ⟨⟨_, rfl, rfl, rfl⟩, fun e he => ?_,
    fun e _ hne he => absurd (hpc e hne) he, fun r hr => ?_,
    fun c st hc => absurd hc (Option.some_ne_none st).symm,
    fun c hc => hc.elim (fun h => ExecutorPc.noConfusion h)
      (fun h => ExecutorPc.noConfusion h)⟩
  · by_cases h1 : e = 1
    · rw [h1]
      exact Option.some_ne_none _
    · exact absurd (hpc e h1) he
  · exact Option.some.inj hr ▸ rfl

end Placement
