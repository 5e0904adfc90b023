import Coire.InstancePlacement
import Coire.Run

/-!
# A failed launch keeps no capacity

The launch of an instance polls its decision and gives up as soon as it finds it failed
or refused: the instance fails, and its reservations that count fail with it. But the
decision is written failed by every attempt that raises, and the step that places the
instance is tried again after that. If the launch looks in between, the next attempt
finds a decision that is not ready, takes the reservation again and loads, for an
instance that has failed already (`Placement.failed_launch_holds`). A launch that gives
up late keeps nothing (`Placement.failed_launch_keeps_nothing`).
-/

namespace Placement

def instanceFailed (s : Placement) (i : ℕ) : Bool :=
  (s.instances.get? i).any (fun r => decide (r.state = .failed))

/-- A poll of the launch would give up: it has not ended, and finds its decision
refused or failed. -/
def givesUp (s : Placement) (i : ℕ) : Bool :=
  (s.instances.get? i).any (fun r => !ended r.state
    && (r.placementDecisionId.bind s.decisions.get?).any (fun decision =>
      decide (decision.state = .refused) || decide (decision.state = .failed)))

/-- The command was not carried out: it has not succeeded, and its effect is not
written. -/
def uncarried (s : Placement) (c : CommandId) : Bool :=
  decide (s.commands.get? c ≠ some .succeeded)
    && decide (s.executor ≠ .applied c)

def concluded (s : Placement) (d i : ℕ) : Bool :=
  (s.pc? d).all (fun pc => decide (pc = .finished))
    && s.commands.items.all (fun e => !e.1.row.isOf i
      || decide (e.1.operation = .unload) || !e.2.isOpen)

/-- **The launch gives up late.** It does so only when the decision of the
instance is over; and a decision that had planned to evict the instance before
it failed has not unloaded it already. -/
def settled (d i : ℕ) (s : Placement) : Step → Bool
  | .launchPoll m => decide (m ≠ i) || !s.givesUp i || s.concluded d i
  | .evict e true =>
    match s.pc? e with
    | some (.evict _ (v :: _)) =>
      !s.instanceFailed i || !v.isOf i || s.uncarried ⟨e, .unload, v⟩
    | _ => true
  | _ => true

def AtRest (s : Placement) : Prop :=
  (∀ e pc, s.pc? e = some pc → pc = .finished)
    ∧ ∀ c st, s.commands.get? c = some st → st.isOpen = false

/-- **A failed instance keeps no capacity**, once all is at rest: where a
reservation of it counts, an unload has failed. -/
def KeepsNothing (i : ℕ) (s : Placement) : Prop :=
  s.instanceFailed i = true → s.AtRest → ∀ n, s.Active (.ofInstance i n) →
    ∃ e, s.commands.get? ⟨e, .unload, .ofInstance i n⟩ = some .failed

variable {budget : ℕ → ℕ} {s s' : Placement} {a : Step} {d e i n : ℕ}
  {c : CommandId}

/-! ## What holds after the launch gave up -/

def Outstanding (s : Placement) (c : CommandId) : Prop :=
  s.commands.get? c ≠ none ∧ s.uncarried c = true

/-- **The launch gave up**, and what counts is on its way out. -/
structure GaveUp (d i : ℕ) (s : Placement) : Prop where
  workflow : ∀ pc, s.pc? d = some pc → pc = .finished
  loads : ∀ e n st, s.commands.get? ⟨e, .load, .ofInstance i n⟩ = some st →
    st.isOpen = false
  rows : ∀ n, s.Active (.ofInstance i n) →
    s.stateOf (.ofInstance i n) = some .releasing
      ∧ ∃ e, s.Outstanding ⟨e, .unload, .ofInstance i n⟩

theorem uncarried_iff : s.uncarried c = true
    ↔ s.commands.get? c ≠ some .succeeded ∧ s.executor ≠ .applied c := by
  unfold uncarried
  rw [Bool.and_eq_true, decide_eq_true_eq, decide_eq_true_eq]

theorem Outstanding.failed (h : s.Outstanding c)
    (hdone : ∀ st, s.commands.get? c = some st → st.isOpen = false) :
    s.commands.get? c = some .failed := by
  obtain ⟨st, hst⟩ := Option.ne_none_iff_exists'.mp h.1
  have hclosed := hdone st hst
  have hnot := (uncarried_iff.mp h.2).1
  rw [hst] at hnot ⊢
  cases st with
  | succeeded => exact absurd rfl hnot
  | failed => rfl
  | _ => exact absurd hclosed.symm Bool.false_ne_true

theorem GaveUp.keepsNothing (h : s.GaveUp d i) : s.KeepsNothing i := by
  intro _ hrest n hact
  obtain ⟨-, e, hout⟩ := h.rows n hact
  exact ⟨e, hout.failed (hrest.2 _)⟩

theorem GaveUp.ne (h : s.GaveUp d i) {pc : WorkflowPc}
    (hold : s.pc? e = some pc) (hne : pc ≠ .finished) : e ≠ d := by
  rintro rfl
  exact hne (h.workflow pc hold)

structure Aside (d i : ℕ) (s s' : Placement) : Prop where
  workflow : s'.pc? d = s.pc? d
  loads : ∀ e n st, s'.commands.get? ⟨e, .load, .ofInstance i n⟩ = some st →
    st.isOpen = true →
    ∃ st₀, s.commands.get? ⟨e, .load, .ofInstance i n⟩ = some st₀
      ∧ st₀.isOpen = true
  rows : ∀ n, s'.Active (.ofInstance i n) →
    s'.stateOf (.ofInstance i n) = s.stateOf (.ofInstance i n)
  unloads : ∀ e n, s'.Active (.ofInstance i n) →
    s.Outstanding ⟨e, .unload, .ofInstance i n⟩ →
    s'.Outstanding ⟨e, .unload, .ofInstance i n⟩

theorem GaveUp.aside (h : s.GaveUp d i) (hs : Aside d i s s') : s'.GaveUp d i := by
  grind [GaveUp, Aside, active_congr]

/-! ## Steps beside a failed instance -/

theorem Aside.of_commands (hpc : s'.pc? d = s.pc? d)
    (hcmd : s'.commands = s.commands) (hx : s'.executor = s.executor)
    (hrows : ∀ n, s'.stateOf (.ofInstance i n) = s.stateOf (.ofInstance i n)) :
    Aside d i s s' := by
  refine ⟨hpc, fun e n st hst hopen => ⟨st, hcmd ▸ hst, hopen⟩,
    fun n _ => hrows n, fun e n _ hout => ?_⟩
  unfold Outstanding uncarried at hout ⊢
  rw [hcmd, hx]
  exact hout

theorem Aside.queue (hpc : s'.pc? d = s.pc? d)
    (hcmd : s'.commands = (s.queue c).commands)
    (hc : c.operation = .unload ∨ c.row.isOf i = false)
    (hx : s'.executor = s.executor)
    (hrows : ∀ n, s'.stateOf (.ofInstance i n) = s.stateOf (.ofInstance i n)) :
    Aside d i s s' := by
  refine ⟨hpc, fun e n st hst hopen => ⟨st, ?_, hopen⟩, fun n _ => hrows n,
    fun e n _ hout => ?_⟩
  · rw [hcmd, get?_queue_ne] at hst
    · exact hst
    · grind [isOf_ofInstance]
  · obtain ⟨st, hst⟩ := Option.ne_none_iff_exists'.mp hout.1
    unfold Outstanding uncarried at hout ⊢
    rw [hcmd, get?_queue_of_some hst, hx, ← hst]
    exact hout

theorem Aside.setCommand {st old : CommandState} {x : ExecutorPc}
    (hc : s.commands.get? c = some old) (hopen : old.isOpen = true)
    (hx : ∀ c', x ≠ .applied c')
    (hdone : st = .succeeded → s.executor = .applied c) :
    Aside d i s { s.setCommand c st with executor := x } := by
  refine ⟨rfl, fun e n st' hst' hopen' => ?_, fun _ _ => rfl, fun e n _ hout => ?_⟩
  · by_cases heq : (⟨e, .load, .ofInstance i n⟩ : CommandId) = c
    · exact ⟨old, heq ▸ hc, hopen⟩
    · exact ⟨st', (get?_setCommand_ne heq).symm.trans hst', hopen'⟩
  · obtain ⟨hsome, hun⟩ := hout
    obtain ⟨hnot, hexec⟩ := uncarried_iff.mp hun
    have hget : (s.setCommand c st).commands.get? ⟨e, .unload, .ofInstance i n⟩
        ≠ none ∧ (s.setCommand c st).commands.get?
          ⟨e, .unload, .ofInstance i n⟩ ≠ some .succeeded := by
      by_cases heq : (⟨e, .unload, .ofInstance i n⟩ : CommandId) = c
      · rw [heq, get?_setCommand_self hc]
        refine ⟨Option.some_ne_none _, fun hst => hexec ?_⟩
        rw [heq]
        exact hdone (Option.some.inj hst)
      · rw [get?_setCommand_ne heq]
        exact ⟨hsome, hnot⟩
    exact ⟨hget.1, uncarried_iff.mpr ⟨hget.2, hx _⟩⟩

theorem Aside.execUnload :
    Aside d i s { s.applyUnload c with executor := .applied c } := by
  have hrow : ∀ n, ({ s.applyUnload c with executor := .applied c }
      : Placement).Active (.ofInstance i n) → .ofInstance i n ≠ c.row := by
    intro n hact heq
    rw [active_iff, heq, stateOf_setState rfl] at hact
    obtain ⟨st, hst, hact⟩ := hact
    obtain ⟨-, -, rfl⟩ := Option.map_eq_some_iff.mp hst
    exact absurd hact Bool.false_ne_true
  refine ⟨rfl, fun e n st hst hopen => ⟨st, hst, hopen⟩,
    fun n hact => stateOf_modify rfl (hrow n hact), fun e n hact hout => ?_⟩
  refine ⟨hout.1, uncarried_iff.mpr ⟨(uncarried_iff.mp hout.2).1, ?_⟩⟩
  intro heq
  exact hrow n hact (ExecutorPc.applied.inj heq ▸ rfl)

theorem Aside.execLoad (hof : c.row.isOf i = false) :
    Aside d i s { s.setState c.row .held with executor := .applied c } := by
  have hne : ∀ n, RowKey.ofInstance i n ≠ c.row := fun n heq =>
    absurd (hof.symm.trans (heq ▸ isOf_ofInstance i n)) Bool.false_ne_true
  refine ⟨rfl, fun e n st hst hopen => ⟨st, hst, hopen⟩,
    fun n _ => stateOf_modify rfl (hne n), fun e n _ hout => ?_⟩
  refine ⟨hout.1, uncarried_iff.mpr ⟨(uncarried_iff.mp hout.2).1, ?_⟩⟩
  intro heq
  exact hne n (ExecutorPc.applied.inj heq ▸ rfl)

theorem Aside.execRetry : Aside d i s s.execRetry :=
  ⟨rfl, fun _ _ st hst hopen => ⟨st, hst, hopen⟩, fun _ _ => rfl,
    fun _ _ _ hout => ⟨hout.1, uncarried_iff.mpr
      ⟨(uncarried_iff.mp hout.2).1, ExecutorPc.noConfusion⟩⟩⟩

theorem Aside.unloadIdle {env : TtlEnv}
    (h : ∀ n, s.stateOf (.ofInstance i n) ≠ some .held) :
    Aside d i s (s.unloadIdle env) := by
  refine ⟨rfl, fun e n st hst hopen => ⟨st, ?_, hopen⟩, fun n _ => ?_,
    fun e n _ hout => ?_⟩
  · grind [command_unloadIdle]
  · refine stateOf_unloadIdle (fun r hr => Bool.eq_false_iff.mpr ?_)
    intro hexp
    refine h n ?_
    unfold stateOf
    rw [hr, Option.map_some, (of_idleExpired hexp).1]
  · obtain ⟨hsome, hun⟩ := hout
    obtain ⟨hnot, hexec⟩ := uncarried_iff.mp hun
    rcases command_unloadIdle s env ⟨e, .unload, .ofInstance i n⟩ with
      hsame | ⟨hval, -⟩
    · exact ⟨hsame ▸ hsome, uncarried_iff.mpr ⟨hsame ▸ hnot, hexec⟩⟩
    · refine ⟨hval ▸ Option.some_ne_none _, uncarried_iff.mpr ⟨hval ▸ ?_, hexec⟩⟩
      exact fun h => CommandState.noConfusion (Option.some.inj h)

/-! ## Evictions, and the launch itself -/

theorem GaveUp.releasing (h : s.GaveUp d i) {v : RowKey}
    (hout : v.isOf i = true → s.Outstanding ⟨e, .unload, v⟩) :
    (s.setState v .releasing).GaveUp d i := by
  refine ⟨h.workflow, h.loads, fun n hact => ?_⟩
  by_cases hv : .ofInstance i n = v
  · subst hv
    rw [active_iff, stateOf_setState rfl] at hact
    obtain ⟨st, hst, -⟩ := hact
    obtain ⟨st₀, hst₀, -⟩ := Option.map_eq_some_iff.mp hst
    rw [stateOf_setState rfl, hst₀]
    exact ⟨rfl, e, hout (isOf_ofInstance i n)⟩
  · have hsame : (s.setState v .releasing).stateOf (.ofInstance i n)
        = s.stateOf (.ofInstance i n) := stateOf_modify rfl hv
    rw [hsame]
    exact h.rows n ((active_congr hsame).mp hact)

theorem GaveUp.evicted (h : s.GaveUp d i) {v : RowKey} {pc : WorkflowPc}
    (hed : e ≠ d) (hv : v.isOf i = true → s.uncarried ⟨e, .unload, v⟩ = true) :
    (((s.setState v .releasing).queue ⟨e, .unload, v⟩).goto e pc).GaveUp d i := by
  have hgoto : ((s.queue ⟨e, .unload, v⟩).goto e pc).GaveUp d i :=
    h.aside (.queue (pc_modify_ne rfl (Ne.symm hed)) rfl (Or.inl rfl) rfl
      (fun _ => rfl))
  refine hgoto.releasing (e := e) (fun hof => ?_)
  obtain ⟨hnot, hexec⟩ := uncarried_iff.mp (hv hof)
  refine ⟨?_, uncarried_iff.mpr ⟨fun h => hnot (succeeded_of_queue h), hexec⟩⟩
  show (s.commands.setDefault _ _).get? _ ≠ none
  rw [Dict.get?_setDefault, if_pos rfl]
  exact Option.some_ne_none _

theorem not_active_launchFail : ¬ (s.launchFail i).Active (.ofInstance i n) := by
  rintro ⟨r, hr, hact⟩
  replace hr : (s.rows.mapValues _).get? _ = some r := hr
  rw [Dict.get?_mapValues] at hr
  obtain ⟨r₀, -, rfl⟩ := Option.map_eq_some_iff.mp hr
  split at hact
  · exact absurd hact Bool.false_ne_true
  · rename_i hnot
    exact hnot ⟨rfl, rfl, hact⟩

theorem gaveUp_launchFail (h : s.concluded d i = true) :
    (s.launchFail i).GaveUp d i := by
  unfold concluded at h
  rw [Bool.and_eq_true, List.all_eq_true] at h
  refine ⟨fun pc hpc => ?_, fun e n st hst => ?_,
    fun n hact => absurd hact not_active_launchFail⟩
  · have := h.1
    rw [show s.pc? d = some pc from hpc, Option.all_some, decide_eq_true_eq] at this
    exact this
  · have := h.2 (⟨e, .load, .ofInstance i n⟩, st) (Dict.mem_items.mpr hst)
    simpa only [isOf_ofInstance, reduceCtorEq, decide_false, Bool.not_true,
      Bool.false_or, Bool.not_eq_true'] using this

theorem instanceFailed_iff : s.instanceFailed i = true
    ↔ ∃ r, s.instances.get? i = some r ∧ r.state = .failed := by
  unfold instanceFailed
  rw [Option.any_eq_true]
  simp only [decide_eq_true_eq]

theorem instanceFailed_modify {f : ModelInstance → ModelInstance} {m : ℕ}
    (h : s'.instances = s.instances.modify m f)
    (hf : ∀ r, s.instances.get? m = some r → (f r).state = .failed → r.state = .failed)
    (hfail : s'.instanceFailed i = true) : s.instanceFailed i = true := by
  rw [instanceFailed_iff] at hfail ⊢
  obtain ⟨r, hr, hstate⟩ := hfail
  rw [h, Dict.get?_modify] at hr
  split at hr
  · rename_i him
    subst him
    obtain ⟨r₀, hr₀, rfl⟩ := Option.map_eq_some_iff.mp hr
    exact ⟨r₀, hr₀, hf r₀ hr₀ hstate⟩
  · exact ⟨r, hr, hstate⟩

theorem Effect.instanceFailed (he : Effect budget s a s')
    (hfail : s'.instanceFailed i = true) :
    s.instanceFailed i = true
      ∨ a = .launchPoll i ∧ s.givesUp i = true ∧ s' = s.launchFail i := by
  cases he with
  | @launchFailed m inst decision hi hend hd hstate =>
    by_cases hm : m = i
    · grind [givesUp]
    · refine Or.inl ?_
      rw [instanceFailed_iff] at hfail ⊢
      obtain ⟨r, hr, hstate⟩ := hfail
      replace hr : (s.instances.modify m _).get? i = some r := hr
      rw [Dict.get?_modify, if_neg (Ne.symm hm)] at hr
      exact ⟨r, hr, hstate⟩
  | @launched _ m f hf hd =>
    refine Or.inl (instanceFailed_modify rfl (fun r hr hstate => ?_) hfail)
    rcases hf r hr with hsame | ⟨hnot, -⟩
    · exact hsame ▸ hstate
    · exact absurd hstate hnot
  | execUnload hx hop =>
    refine Or.inl (instanceFailed_modify rfl (fun r hr hstate => ?_) hfail)
    split at hstate
    · exact absurd hstate InstanceState.noConfusion
    · exact hstate
  | @failed e name hold =>
    obtain ⟨rows, heq, -⟩ := failPending_eq s e
    rw [heq] at hfail
    exact Or.inl hfail
  | _ => exact Or.inl hfail

/-! ## One step, and runs -/

theorem GaveUp.step (h : s.GaveUp d i) (howned : s.Owned d i)
    (hfail : s.instanceFailed i = true) (ha : settled d i s a = true)
    (he : Effect budget s a s') : s'.GaveUp d i := by
  cases he with
  | nothing => exact h
  | rest _ hold hne =>
    have hed := h.ne hold hne
    exact h.aside (.of_commands (pc_modify_ne rfl (Ne.symm hed)) rfl rfl (fun _ => rfl))
  | @admitted e env n ns wait profile occupants decision plan rows hold hd
      hpass =>
    have hed := h.ne hold WorkflowPc.noConfusion
    obtain ⟨-, -, -, -, hrows, -⟩ :=
      ReservationTable.admissionPass_admitted hpass
    exact h.aside (.of_commands (pc_modify_ne rfl (Ne.symm hed)) rfl rfl
      (fun m => stateOf_recordPending_of_ne hrows (howned.other hed hold hd n m)))
  | @evicted e n v vs r decision hold hv hd =>
    refine h.evicted (h.ne hold WorkflowPc.noConfusion) (fun hof => ?_)
    unfold settled at ha
    simpa only [hold, hfail, hof, Bool.not_true, Bool.false_or] using ha
  | unloadSeen hold hc =>
    have hed := h.ne hold WorkflowPc.noConfusion
    exact h.aside (.of_commands (pc_modify_ne rfl (Ne.symm hed)) rfl rfl (fun _ => rfl))
  | @reserved e n env decision hold hd =>
    have hed := h.ne hold WorkflowPc.noConfusion
    exact h.aside (.queue (pc_modify_ne rfl (Ne.symm hed)) rfl
      (Or.inr (howned.isOf_other hed hold hd n)) rfl
      (fun m => stateOf_recordPending_of_ne rfl (howned.other hed hold hd n m)))
  | loadSeen hold hd hc =>
    have hed := h.ne hold WorkflowPc.noConfusion
    exact h.aside (.of_commands (pc_modify_ne rfl (Ne.symm hed)) rfl rfl (fun _ => rfl))
  | ready hold =>
    have hed := h.ne hold WorkflowPc.noConfusion
    exact h.aside (.of_commands (pc_modify_ne rfl (Ne.symm hed)) rfl rfl (fun _ => rfl))
  | @failed e name hold =>
    have hed := h.ne hold WorkflowPc.noConfusion
    have hrows := howned.failPending hed hold
    obtain ⟨rows, heq, -⟩ := failPending_eq s e
    rw [heq] at hrows ⊢
    exact h.aside (.of_commands (pc_modify_ne rfl (Ne.symm hed)) rfl rfl hrows)
  | execNext hx he hopen =>
    exact h.aside (.setCommand he hopen (fun _ => ExecutorPc.noConfusion)
      (fun hst => CommandState.noConfusion hst))
  | execFail _ hx =>
    exact h.aside (.setCommand (howned.commanded.2 _ (Or.inl hx)) rfl
      (fun _ => ExecutorPc.noConfusion)
      (fun hst => CommandState.noConfusion hst))
  | execUnload hx hop => exact h.aside .execUnload
  | @execLoad c hx hop =>
    -- the command is running, and no load of the instance is open
    refine h.aside (.execLoad (Bool.eq_false_iff.mpr fun hof => ?_))
    have hrun := howned.commanded.2 c (Or.inl hx)
    obtain ⟨e, op, k⟩ := c
    obtain rfl : op = .load := hop
    rw [show k = .ofInstance i k.node from RowKey.isOf_iff.mp hof] at hrun
    exact absurd (h.loads e k.node .running hrun) Bool.noConfusion
  | execFinish hx =>
    exact h.aside (.setCommand (howned.commanded.2 _ (Or.inr hx)) rfl
      (fun _ => ExecutorPc.noConfusion) (fun _ => hx))
  | execRetry => exact h.aside .execRetry
  | leased hk =>
    exact h.aside (.of_commands rfl rfl rfl (stateOf_modify_state
      (f := fun r => { r with lastUsedAt := s.now }) rfl (fun _ => rfl) <|
        .ofInstance i ·))
  | refreshed => exact h.aside (.of_commands rfl rfl rfl (fun _ => rfl))
  | leaseReleased => exact h.aside (.of_commands rfl rfl rfl (fun _ => rfl))
  | @pinned k pin allowed hk =>
    exact h.aside (.of_commands rfl rfl rfl (stateOf_modify_state
      (f := fun r => { r with pinned := pin }) rfl (fun _ => rfl) <|
        .ofInstance i ·))
  | idleUnloaded hnew =>
    refine h.aside (.unloadIdle (fun n hheld => ?_))
    have hrel := (h.rows n (active_iff.mpr ⟨_, hheld, rfl⟩)).1
    exact MemoryReservationState.noConfusion (Option.some.inj (hheld.symm.trans hrel))
  | @launchFailed m inst decision hi hend hd hstate =>
    refine h.aside (.of_commands rfl rfl rfl (fun n => stateOf_launchFail ?_))
    rintro rfl
    obtain ⟨r, hr, hf⟩ := instanceFailed_iff.mp hfail
    obtain rfl := Option.some.inj (hi.symm.trans hr)
    rw [show inst.state = .failed from hf] at hend
    exact absurd hend Bool.noConfusion
  | launched => exact h.aside (.of_commands rfl rfl rfl (fun _ => rfl))
  | ticked => exact h.aside (.of_commands rfl rfl rfl (fun _ => rfl))

def Settled (d i : ℕ) (s : Placement) : Prop :=
  s.Owned d i ∧ (s.instanceFailed i = true → s.GaveUp d i)

theorem Settled.step (h : s.Settled d i) (ha : settled d i s a = true) :
    (Placement.step budget s a).Settled d i := by
  have he : Effect budget s a _ := step_effect a
  refine ⟨h.1.step he, fun hfail => ?_⟩
  rcases he.instanceFailed hfail with hwas | ⟨rfl, hgives, heq⟩
  · exact (h.2 hwas).step h.1 hwas ha he
  rw [heq]
  unfold settled at ha
  refine gaveUp_launchFail ?_
  simpa only [ne_eq, not_true_eq_false, decide_false, hgives, Bool.not_true,
    Bool.false_or] using ha

/-- **A failed launch keeps no capacity**, in every run in which the launch gives up
only when its decision is over: once all is at rest, a reservation of it counts only
where an unload has failed. -/
theorem failed_launch_keeps_nothing (hs : s.Owned d i)
    (hfresh : s.instanceFailed i = false) {steps : List Step}
    (h : Run.Along (Placement.step budget)
      (fun s a => settled d i s a = true) s steps) :
    Run.Throughout (Placement.step budget) (KeepsNothing i) s steps :=
  Run.throughout_of_invariant (Settled d i)
    (fun _ hinv hfail => (hinv.2 hfail).keepsNothing hfail)
    (fun _ _ hinv ha => hinv.step ha)
    ⟨hs, fun hfail => absurd (hfresh.symm.trans hfail) Bool.false_ne_true⟩ h

/-- The load fails on both nodes, and the launch looks after the workflow has finished.
-/
theorem failed_launch_keeps_nothing_launching :
    Run.Throughout (Placement.step (fun _ => 20)) (KeepsNothing 50) launching
      [.begin 1 ⟨true, true, [0, 1]⟩,
        .admission 1 ⟨true, true, true, true, false, none, none⟩,
        .reserve 1 ⟨true, true, true⟩, .execNext, .execFail, .poll 1,
        .fail 1 false, .begin 1 ⟨true, true, [1]⟩,
        .admission 1 ⟨true, true, true, true, false, none, none⟩,
        .reserve 1 ⟨true, true, true⟩, .execNext, .execFail, .poll 1,
        .fail 1 false, .begin 1 ⟨true, true, []⟩, .complete 1,
        .launchPoll 50] :=
  failed_launch_keeps_nothing (d := 1) launching_owned rfl (by decide)

theorem atRest_of (hw : ∀ w ∈ s.workflows.values, w.pc = .finished)
    (hc : ∀ st ∈ s.commands.values, st.isOpen = false) : s.AtRest := by
  refine ⟨fun e pc hpc => ?_, fun c st hst => isOpen_of_values hc hst⟩
  obtain ⟨w, hget, rfl⟩ := Option.map_eq_some_iff.mp hpc
  exact hw w (Dict.mem_values.mpr ⟨e, hget⟩)

theorem ne_of_loads {k : RowKey} {st : CommandState}
    (h : ∀ x ∈ s.commands.items, x.1.operation = .load) :
    s.commands.get? ⟨e, .unload, k⟩ ≠ some st :=
  fun hst => Operation.noConfusion (h _ (Dict.mem_items.mpr hst))

/-- **The launch looks between two attempts**: the instance fails with the first one,
and the second takes the reservation on the other node. -/
theorem failed_launch_holds : launching.Owned 1 50 ∧ launching.instanceFailed 50 = false
      ∧ ¬ Run.Throughout (Placement.step (fun _ => 20)) (KeepsNothing 50) launching
        [.begin 1 ⟨true, true, [0, 1]⟩,
          .admission 1 ⟨true, true, true, true, false, none, none⟩,
          .reserve 1 ⟨true, true, true⟩, .execNext, .execFail, .poll 1,
          .fail 1 false, .launchPoll 50, .begin 1 ⟨true, true, [1, 0]⟩,
          .admission 1 ⟨true, true, true, true, false, none, none⟩,
          .reserve 1 ⟨true, true, true⟩, .execNext, .execApply, .execFinish,
          .poll 1, .markReady 1, .complete 1] := by
  refine ⟨launching_owned, rfl, fun h => ?_⟩
  obtain ⟨e, he⟩ := h 17 (by decide) (atRest_of (by decide) (by decide)) 1 ⟨_, rfl, rfl⟩
  exact ne_of_loads (by decide) he

end Placement
