import Coire.PlacementSystem

/-!
# What a placement step does

The transactions of a decision branch on much that no property cares about:
most branches only move the workflow on. This module says once what each step
does to the tables (`Placement.step_effect`), as a relation with one case for
each kind of write, so that the proofs about runs are by cases of it and never
unfold a transaction.
-/

/-- Places of a workflow at which it has nothing under way on a node. -/
def WorkflowPc.resting : WorkflowPc → Bool
  | .idle | .nodes .. | .failing _ | .returning | .finished => true
  | .evict .. | .awaitUnload .. | .awaitLoad _ | .markReady _ => false

def WorkflowPc.planned : WorkflowPc → List RowKey
  | .evict _ vs | .awaitUnload _ _ vs => vs
  | _ => []

theorem WorkflowPc.planned_of_resting {pc : WorkflowPc}
    (h : pc.resting = true) : pc.planned = [] := by
  cases pc <;> first | rfl | exact absurd h Bool.false_ne_true

def WorkflowPc.running : WorkflowPc → Bool
  | .idle | .returning | .finished => false
  | _ => true

namespace Placement

/-- **A rewrite of a decision that settles nothing.** -/
structure Notes (f : PlacementDecision → PlacementDecision) : Prop where
  places : ∀ r, (f r).holderId = r.holderId
    ∧ (f r).requiredBytes = r.requiredBytes ∧ (f r).idleTtl = r.idleTtl
  selectedNodeId : ∀ r, (f r).selectedNodeId = r.selectedNodeId
  state : ∀ r, (f r).state = r.state ∨ (f r).state ≠ .ready

theorem Notes.refl : Notes id :=
  ⟨fun _ => ⟨rfl, rfl, rfl⟩, fun _ => rfl, fun _ => Or.inl rfl⟩

inductive Effect (budget : ℕ → ℕ) (s : Placement) :
    Step → Placement → Prop
  | nothing (a : Step) : Effect budget s a s
  | rest (a : Step) {d : ℕ} {old : WorkflowPc} {w : Workflow → Workflow}
      {f : PlacementDecision → PlacementDecision}
      (hold : s.pc? d = some old) (hne : old ≠ .finished)
      (hw : ∀ x, (w x).pc.resting = true)
      (hrun : ∀ x, (w x).pc.running = true → old.running = true
        ∨ (∃ env, a = .begin d env) ∧ old = .idle
          ∧ ∀ r, s.decisions.get? d = some r → r.state ≠ .ready)
      (hret : old = .returning → a = .crash d ∨ ∀ x, (w x).pc = .finished)
      (hf : Notes f) :
      Effect budget s a { s with
        workflows := s.workflows.modify d w
        decisions := s.decisions.modify d f }
  | admitted {d : ℕ} {env : AdmitEnv} {n : ℕ} {ns : List ℕ}
      {wait profile : Bool} {occupants : List PlacementOccupant}
      {decision : PlacementDecision} {plan : AdmissionPlan}
      {rows : ReservationTable}
      (hold : s.pc? d = some (.nodes (n :: ns) wait profile occupants))
      (hd : s.decisions.get? d = some decision)
      (hpass : s.rows.admissionPass (budget n) (decision.target n)
        (s.passEnv env) s.now = .admitted plan rows) :
      Effect budget s (.admission d env)
        (s.admitted d (decision.target n) plan rows)
  | evicted {d n : ℕ} {v : RowKey} {vs : List RowKey}
      {r : MemoryReservationRow} {decision : PlacementDecision}
      (hold : s.pc? d = some (.evict n (v :: vs)))
      (hv : s.rows.get? v = some r) (hd : s.decisions.get? d = some decision) :
      Effect budget s (.evict d true)
        (((s.setState v .releasing).queue ⟨d, .unload, v⟩).goto d
          (.awaitUnload n v vs))
  | unloadSeen {d n : ℕ} {v : RowKey} {vs : List RowKey}
      (hold : s.pc? d = some (.awaitUnload n v vs))
      (hc : s.commands.get? ⟨d, .unload, v⟩ = some .succeeded) :
      Effect budget s (.poll d) (s.goto d (.evict n vs))
  | reserved {d n : ℕ} {env : ReserveEnv} {decision : PlacementDecision}
      (hold : s.pc? d = some (.evict n []))
      (hd : s.decisions.get? d = some decision) :
      Effect budget s (.reserve d env)
        ((((s.record (decision.target n)).queue
          ⟨d, .load, (decision.target n).key⟩).updateDecision d (fun r =>
            { r with state := .loading })).goto d (.awaitLoad n))
  | loadSeen {d n : ℕ} {decision : PlacementDecision}
      (hold : s.pc? d = some (.awaitLoad n))
      (hd : s.decisions.get? d = some decision)
      (hc : s.commands.get? ⟨d, .load, (decision.target n).key⟩
        = some .succeeded) :
      Effect budget s (.poll d) (s.goto d (.markReady n))
  | ready {d n : ℕ} (hold : s.pc? d = some (.markReady n)) :
      Effect budget s (.markReady d)
        ((s.updateDecision d (fun r => { r with state := .ready })).goto d
          .returning)
  | failed {d : ℕ} {name : String} (hold : s.pc? d = some (.failing name)) :
      Effect budget s (.fail d false)
        (((s.failPending d).updateDecision d (fun r => { r with
          state := .failed
          refusalCode := some name })).retry d)
  | execNext {e : CommandId × CommandState} (hx : s.executor = .idle)
      (he : s.commands.get? e.1 = some e.2) (hopen : e.2.isOpen = true) :
      Effect budget s .execNext
        { s.setCommand e.1 .running with executor := .running e.1 }
  | execFail (a : Step) {c : CommandId} (hx : s.executor = .running c) :
      Effect budget s a { s.setCommand c .failed with executor := .idle }
  | execUnload {c : CommandId} (hx : s.executor = .running c)
      (hop : c.operation = .unload) :
      Effect budget s .execApply
        { s.applyUnload c with executor := .applied c }
  | execLoad {c : CommandId} (hx : s.executor = .running c)
      (hop : c.operation = .load) :
      Effect budget s .execApply
        { s.setState c.row .held with executor := .applied c }
  | execFinish {c : CommandId} (hx : s.executor = .applied c) :
      Effect budget s .execFinish
        { s.setCommand c .succeeded with executor := .idle }
  | execRetry : Effect budget s .execRetry s.execRetry
  | leased {k : RowKey} {lease : ℕ} {ttl : ℤ} {allowed : Bool}
      (hk : (s.leasable k lease && allowed) = true) :
      Effect budget s (.acquireLease k lease ttl allowed)
        { s with
          leases := s.leases.set lease ⟨k, s.now + ttl, false⟩
          rows := s.rows.modify k (fun r => { r with lastUsedAt := s.now }) }
  | refreshed {lease : ℕ} {ttl : ℤ} :
      Effect budget s (.refreshLease lease ttl) (s.refreshLease lease ttl)
  | leaseReleased {lease : ℕ} :
      Effect budget s (.releaseLease lease) (s.releaseLease lease)
  | pinned {k : RowKey} {pinned allowed : Bool}
      (hk : (s.pinnable k && allowed) = true) :
      Effect budget s (.setPin k pinned allowed)
        { s with rows := s.rows.modify k (fun r =>
            { r with pinned := pinned }) }
  | idleUnloaded {env : TtlEnv}
      (hnew : ∀ e ∈ s.idleRows env,
        s.decisions.get? (env.decisionId e.1) = none) :
      Effect budget s (.idleTtlPass env) (s.unloadIdle env)
  | launchFailed {i : ℕ} {inst : ModelInstance} {decision : PlacementDecision}
      (hi : s.instances.get? i = some inst) (hend : ended inst.state = false)
      (hd : inst.placementDecisionId.bind s.decisions.get? = some decision)
      (hstate : decision.state = .refused ∨ decision.state = .failed) :
      Effect budget s (.launchPoll i) (s.launchFail i)
  /-- An instance moves on, but does not fail. -/
  | launched (a : Step) {i : ℕ} {f : ModelInstance → ModelInstance}
      (hf : ∀ r, s.instances.get? i = some r →
        f r = r ∨ (f r).state ≠ .failed ∧ r.state ≠ .failed)
      (hd : ∀ r, (f r).placementDecisionId = r.placementDecisionId) :
      Effect budget s a { s with instances := s.instances.modify i f }
  | ticked {elapsed : ℕ} :
      Effect budget s (.tick elapsed) { s with now := s.now + elapsed }

variable {budget : ℕ → ℕ} {s : Placement}

variable {old : WorkflowPc} {d : ℕ}

theorem Effect.restOnly (a : Step) {w : Workflow → Workflow} (hold : s.pc? d = some old)
    (hne : old ≠ .finished) (hw : ∀ x, (w x).pc.resting = true)
    (hrun : ∀ x, (w x).pc.running = true → old.running = true
      ∨ (∃ env, a = .begin d env) ∧ old = .idle
        ∧ ∀ r, s.decisions.get? d = some r → r.state ≠ .ready)
    (hret : old = .returning → a = .crash d ∨ ∀ x, (w x).pc = .finished) :
    Effect budget s a { s with workflows := s.workflows.modify d w } := by
  have h : Effect budget s a _ := .rest a hold hne hw hrun hret Notes.refl
  rw [Dict.modify_id] at h
  exact h

theorem Effect.stop (a : Step) {pc : WorkflowPc}
    (hold : s.pc? d = some old) (hne : old ≠ .finished)
    (hpc : pc.resting = true) (hnot : pc.running = false)
    (hret : old = .returning → pc = .finished) :
    Effect budget s a (s.goto d pc) :=
  .restOnly a hold hne (fun _ => hpc)
    (fun _ h => absurd (hnot.symm.trans h) Bool.false_ne_true)
    (fun h => Or.inr (fun _ => hret h))

theorem Effect.goOn (a : Step) {pc : WorkflowPc}
    (hold : s.pc? d = some old) (hrun : old.running = true)
    (hpc : pc.resting = true) : Effect budget s a (s.goto d pc) := by
  refine .restOnly a hold ?_ (fun _ => hpc) (fun _ _ => Or.inl hrun) ?_
  · rintro rfl
    exact absurd hrun Bool.false_ne_true
  · rintro rfl
    exact absurd hrun Bool.false_ne_true

theorem Effect.again (a : Step) (hold : s.pc? d = some old) (hne : old ≠ .finished)
    (hret : old ≠ .returning ∨ a = .crash d) :
    Effect budget s a (s.again d) :=
  .restOnly a hold hne (fun _ => rfl) (fun _ h => absurd h Bool.false_ne_true)
    (fun h => Or.inl (hret.resolve_left (fun hne => hne h)))

theorem begin_effect (d : ℕ) (env : BeginEnv) :
    Effect budget s (.begin d env) (s.begin d env) := by
  unfold begin
  split
  · rename_i hold
    have hne : WorkflowPc.idle ≠ .finished := by decide
    split
    · exact .again _ hold hne (Or.inl WorkflowPc.noConfusion)
    split
    · exact .stop _ hold hne rfl rfl (fun h => WorkflowPc.noConfusion h)
    rename_i decision hd
    split
    · exact .stop _ hold hne rfl rfl (fun h => WorkflowPc.noConfusion h)
    rename_i hready
    have hnot : ∀ r, s.decisions.get? d = some r → r.state ≠ .ready := by
      intro r hr
      rw [hd, Option.some.injEq] at hr
      exact hr ▸ hready
    split
    · exact .restOnly _ hold hne (fun _ => rfl)
        (fun _ _ => Or.inr ⟨⟨env, rfl⟩, rfl, hnot⟩)
        (fun h => WorkflowPc.noConfusion h)
    · split
      · exact .rest _ hold hne (fun _ => rfl) (fun _ h => absurd h Bool.false_ne_true)
          (fun h => WorkflowPc.noConfusion h)
          ⟨fun _ => ⟨rfl, rfl, rfl⟩, fun _ => rfl,
            fun _ => Or.inr PlacementState.noConfusion⟩
      · exact .restOnly _ hold hne (fun _ => rfl)
          (fun _ _ => Or.inr ⟨⟨env, rfl⟩, rfl, hnot⟩)
          (fun h => WorkflowPc.noConfusion h)
  · exact .nothing _

theorem admission_effect (d : ℕ) (env : AdmitEnv) :
    Effect budget s (.admission d env) (s.admission budget d env) := by
  unfold admission
  split
  · rename_i n ns wait profile occupants decision hold hd
    split
    · exact .again _ hold WorkflowPc.noConfusion (Or.inl WorkflowPc.noConfusion)
    split
    · exact .goOn _ hold rfl rfl
    split
    · exact .goOn _ hold rfl rfl
    · exact .goOn _ hold rfl rfl
    · exact .goOn _ hold rfl rfl
    · exact .goOn _ hold rfl rfl
    · split
      · exact .rest _ hold WorkflowPc.noConfusion (fun _ => rfl)
          (fun _ _ => Or.inl rfl) (fun h => WorkflowPc.noConfusion h)
          ⟨fun _ => ⟨rfl, rfl, rfl⟩, fun _ => rfl,
            fun _ => Or.inr PlacementState.noConfusion⟩
      · exact .goOn _ hold rfl rfl
    · exact .goOn _ hold rfl rfl
    · exact .goOn _ hold rfl rfl
    · rename_i hpass
      exact .admitted hold hd hpass
  · rename_i hold _
    exact .goOn _ hold rfl rfl
  · exact .nothing _

theorem refuse_effect (d : ℕ) : Effect budget s (.refuse d) (s.refuse d) := by
  unfold refuse
  split
  · rename_i hold
    split
    · exact .again _ hold WorkflowPc.noConfusion (Or.inl WorkflowPc.noConfusion)
    exact .rest _ hold WorkflowPc.noConfusion (fun _ => rfl)
      (fun _ h => absurd h Bool.false_ne_true)
      (fun h => WorkflowPc.noConfusion h)
      ⟨fun _ => ⟨rfl, rfl, rfl⟩, fun _ => rfl,
        fun _ => Or.inr PlacementState.noConfusion⟩
  · exact .nothing _

theorem evict_effect (d : ℕ) (engineRuns : Bool) :
    Effect budget s (.evict d engineRuns) (s.evict d engineRuns) := by
  unfold evict
  split
  · rename_i n v vs hold
    split
    · exact .goOn _ hold rfl rfl
    rename_i hgo
    rw [not_or, not_or, Bool.not_eq_false] at hgo
    obtain ⟨r, hr⟩ := Option.ne_none_iff_exists'.mp hgo.1
    obtain ⟨decision, hd⟩ := Option.ne_none_iff_exists'.mp hgo.2.1
    rw [hgo.2.2]
    exact .evicted hold hr hd
  · exact .nothing _

theorem reserve_effect (d : ℕ) (env : ReserveEnv) :
    Effect budget s (.reserve d env) (s.reserve d env) := by
  unfold reserve
  split
  · rename_i n decision hold hd
    split
    · exact .again _ hold WorkflowPc.noConfusion (Or.inl WorkflowPc.noConfusion)
    split
    · exact .goOn _ hold rfl rfl
    split
    · exact .again _ hold WorkflowPc.noConfusion (Or.inl WorkflowPc.noConfusion)
    · split
      · exact .goOn _ hold rfl rfl
      · exact .reserved hold hd
  · rename_i hold _
    exact .goOn _ hold rfl rfl
  · exact .nothing _

theorem poll_effect (d : ℕ) : Effect budget s (.poll d) (s.poll d) := by
  unfold poll
  split
  · rename_i hold
    unfold await
    split
    · exact .goOn _ hold rfl rfl
    · exact .unloadSeen hold ‹_›
    · exact .goOn _ hold rfl rfl
    · exact .nothing _
    · exact .nothing _
  · rename_i hold hd
    unfold await
    split
    · exact .goOn _ hold rfl rfl
    · exact .loadSeen hold hd ‹_›
    · exact .goOn _ hold rfl rfl
    · exact .nothing _
    · exact .nothing _
  · exact .nothing _

theorem throw_effect (d : ℕ) (name : String) :
    Effect budget s (.throw d name) (s.throw d name) := by
  unfold throw
  split
  · exact .nothing _
  · exact .nothing _
  · exact .nothing _
  · exact .nothing _
  · exact .nothing _
  · rename_i pc hidle hfailing hret hfin hold
    refine .goOn _ hold ?_ rfl
    cases pc with
    | idle => exact absurd rfl hidle
    | failing name => exact absurd rfl (hfailing name)
    | returning => exact absurd rfl hret
    | finished => exact absurd rfl hfin
    | _ => rfl

theorem fail_effect (d : ℕ) (exact' : Bool) :
    Effect budget s (.fail d exact') (s.fail d exact') := by
  unfold fail
  split
  · rename_i hold
    split
    · refine .restOnly _ hold WorkflowPc.noConfusion (fun x => ?_)
        (fun x h => ?_) (fun h => WorkflowPc.noConfusion h)
      · split <;> rfl
      · split at h <;> exact absurd h Bool.false_ne_true
    · rename_i hexact
      rw [Bool.not_eq_true] at hexact
      rw [hexact]
      exact .failed hold
  · exact .nothing _

theorem crash_effect (d : ℕ) : Effect budget s (.crash d) (s.crash d) := by
  unfold crash
  split
  · exact .nothing _
  · exact .nothing _
  · rename_i hfin hold
    exact .again _ hold hfin (Or.inr rfl)

theorem execNext_effect : Effect budget s .execNext s.execNext := by
  unfold execNext
  split
  · rename_i e hx he
    exact .execNext hx (Dict.mem_items.mp (List.mem_of_find?_eq_some he))
      (List.find?_some (p := fun e : CommandId × CommandState => e.2.isOpen) he)
  · exact .nothing _

theorem execFail_effect (a : Step) : Effect budget s a s.execFail := by
  unfold execFail
  split
  · exact .execFail a ‹_›
  · exact .nothing _

theorem execApply_effect : Effect budget s .execApply s.execApply := by
  unfold execApply
  split
  · split
    · exact .execUnload ‹_› ‹_›
    · split
      · exact execFail_effect _
      · exact .execLoad ‹_› ‹_›
  · exact .nothing _

theorem launchPoll_effect (i : ℕ) :
    Effect budget s (.launchPoll i) (s.launchPoll i) := by
  unfold launchPoll
  split
  · exact .nothing _
  rename_i inst hi
  split
  · exact .nothing _
  rename_i hend
  split
  · exact .nothing _
  rename_i decision hd
  split
  · exact .launchFailed hi (Bool.eq_false_iff.mpr hend) hd (Or.inl ‹_›)
  · exact .launchFailed hi (Bool.eq_false_iff.mpr hend) hd (Or.inr ‹_›)
  · refine .launched _ (fun r _ => ?_) (fun r => ?_)
    · split
      · grind
      · exact Or.inl rfl
    · split <;> rfl
  · exact .nothing _

theorem launchReady_effect (i : ℕ) (engineRuns : Bool) :
    Effect budget s (.launchReady i engineRuns) (s.launchReady i engineRuns) := by
  unfold launchReady
  split
  · exact .nothing _
  rename_i inst hi
  split
  · exact .nothing _
  rename_i hend
  split
  · exact .nothing _
  split
  · refine .launched _ (fun r hr => Or.inr
      ⟨InstanceState.noConfusion, fun hf => hend ?_⟩) (fun _ => rfl)
    rw [hi, Option.some.injEq] at hr
    rw [hr, hf]
    rfl
  · exact .nothing _

theorem failPending_eq (s : Placement) (d : ℕ) :
    ∃ rows, s.failPending d = { s with rows := rows }
      ∧ (rows = s.rows ∨ ∃ decision n, s.decisions.get? d = some decision
        ∧ rows = s.rows.modify (decision.target n).key failIfPending) := by
  unfold failPending
  split
  · exact ⟨s.rows, rfl, Or.inl rfl⟩
  rename_i decision hd
  split
  · exact ⟨s.rows, rfl, Or.inl rfl⟩
  · grind

theorem failIfPending_pinned (r : MemoryReservationRow) :
    (failIfPending r).pinned = r.pinned := by
  unfold failIfPending
  split <;> rfl

theorem step_effect (a : Step) : Effect budget s a (step budget s a) := by
  cases a with
  | begin d env => exact begin_effect d env
  | admission d env => exact admission_effect d env
  | refuse d => exact refuse_effect d
  | evict d engineRuns => exact evict_effect d engineRuns
  | reserve d env => exact reserve_effect d env
  | poll d => exact poll_effect d
  | markReady d =>
    show Effect budget s _ (s.markReady d)
    unfold markReady
    split
    · exact .ready ‹_›
    · exact .nothing _
  | throw d name => exact throw_effect d name
  | fail d exact' => exact fail_effect d exact'
  | complete d =>
    show Effect budget s _ (s.complete d)
    unfold complete
    split
    · exact .stop _ ‹_› WorkflowPc.noConfusion rfl rfl (fun _ => rfl)
    · exact .nothing _
  | crash d => exact crash_effect d
  | execNext => exact execNext_effect
  | execApply => exact execApply_effect
  | execFail => exact execFail_effect _
  | execFinish =>
    show Effect budget s _ s.execFinish
    unfold execFinish
    split
    · exact .execFinish ‹_›
    · exact .nothing _
  | execRetry => exact .execRetry
  | acquireLease k lease ttl allowed =>
    show Effect budget s _ (s.acquireLease k lease ttl allowed)
    unfold acquireLease
    split
    · exact .leased ‹_›
    · exact .nothing _
  | refreshLease lease ttl => exact .refreshed
  | releaseLease lease => exact .leaseReleased
  | setPin k pinned allowed =>
    show Effect budget s _ (s.setPin k pinned allowed)
    unfold setPin
    split
    · exact .pinned ‹_›
    · exact .nothing _
  | idleTtlPass env =>
    show Effect budget s _ (s.idleTtlPass env)
    unfold idleTtlPass
    split
    · exact .nothing _
    rename_i hnew
    refine .idleUnloaded (fun e he => ?_)
    by_contra hsome
    refine hnew (List.any_eq_true.mpr ⟨e, he, ?_⟩)
    exact Option.isSome_iff_ne_none.mpr hsome
  | launchPoll i => exact launchPoll_effect i
  | launchReady i engineRuns => exact launchReady_effect i engineRuns
  | tick elapsed => exact .ticked

def Active (s : Placement) (k : RowKey) : Prop :=
  ∃ r, s.rows.get? k = some r ∧ r.state.active = true

/-! ## Reading after a write -/

section Writes

variable {s' : Placement} {d e : ℕ} {c c' : CommandId} {st old : CommandState}

theorem pcs_of_workflows (h : s'.workflows = s.workflows) (d : ℕ)
    (pc : WorkflowPc) (hpc : s'.pc? d = some pc) : s.pc? d = some pc := by
  unfold pc? at hpc ⊢
  rw [← h]
  exact hpc

theorem pc_modify {w : Workflow → Workflow}
    (h : s'.workflows = s.workflows.modify d w) {pc : WorkflowPc}
    (hpc : s'.pc? e = some pc) :
    (e = d ∧ ∃ x, (w x).pc = pc) ∨ e ≠ d ∧ s.pc? e = some pc := by
  unfold pc? at hpc ⊢
  rw [h, Dict.get?_modify] at hpc
  split at hpc
  · rename_i he
    rw [Option.map_map] at hpc
    obtain ⟨x, -, hx⟩ := Option.map_eq_some_iff.mp hpc
    exact Or.inl ⟨he, x, hx⟩
  · rename_i he
    exact Or.inr ⟨he, hpc⟩

theorem pc_modify_ne {w : Workflow → Workflow}
    (h : s'.workflows = s.workflows.modify e w) (hne : d ≠ e) :
    s'.pc? d = s.pc? d := by
  unfold pc?
  rw [h, Dict.get?_modify, if_neg hne]

theorem decision_modify_ne {f : PlacementDecision → PlacementDecision}
    (h : s'.decisions = s.decisions.modify e f) (hne : d ≠ e) :
    s'.decisions.get? d = s.decisions.get? d := by
  rw [h, Dict.get?_modify, if_neg hne]

theorem get?_setCommand_ne (h : c' ≠ c) :
    (s.setCommand c st).commands.get? c' = s.commands.get? c' := by
  show (s.commands.modify c _).get? c' = _
  rw [Dict.get?_modify, if_neg h]

theorem get?_setCommand_self (h : s.commands.get? c = some old) :
    (s.setCommand c st).commands.get? c = some st :=
  Dict.get?_modify_self h

theorem command_setCommand {st' : CommandState}
    (h : (s.setCommand c st).commands.get? c' = some st') :
    c' = c ∧ st' = st ∨ c' ≠ c ∧ s.commands.get? c' = some st' := by
  by_cases heq : c' = c
  · replace h : (s.commands.modify c _).get? c' = some st' := h
    rw [Dict.get?_modify, if_pos heq] at h
    obtain ⟨-, -, rfl⟩ := Option.map_eq_some_iff.mp h
    exact Or.inl ⟨heq, rfl⟩
  · exact Or.inr ⟨heq, get?_setCommand_ne heq ▸ h⟩

theorem setCommand_ne_none (h : (s.setCommand c st).commands.get? c' ≠ none) :
    s.commands.get? c' ≠ none := by
  by_cases heq : c' = c
  · intro hnone
    replace h : (s.commands.modify c _).get? c' ≠ none := h
    rw [Dict.get?_modify, if_pos heq, ← heq, hnone] at h
    exact h rfl
  · exact get?_setCommand_ne heq ▸ h

theorem get?_queue_ne (h : c' ≠ c) :
    (s.queue c).commands.get? c' = s.commands.get? c' := by
  show (s.commands.setDefault c _).get? c' = _
  rw [Dict.get?_setDefault, if_neg h]

theorem get?_queue_of_some (h : s.commands.get? c' = some st) :
    (s.queue c).commands.get? c' = some st := by
  by_cases heq : c' = c
  · show (s.commands.setDefault c _).get? c' = _
    rw [Dict.get?_setDefault, if_pos heq, ← heq, h]
    rfl
  · rw [get?_queue_ne heq, h]

theorem succeeded_of_queue (h : (s.queue c).commands.get? c' = some .succeeded) :
    s.commands.get? c' = some .succeeded := by
  by_cases heq : c' = c
  · replace h : (s.commands.setDefault c _).get? c' = _ := h
    rw [Dict.get?_setDefault, if_pos heq, Option.some.injEq] at h
    cases hst : s.commands.get? c with
    | none => grind
    | some st => grind
  · exact get?_queue_ne heq ▸ h

theorem command_unloadIdle (s : Placement) (env : TtlEnv) (c : CommandId) :
    (s.unloadIdle env).commands.get? c = s.commands.get? c
      ∨ (s.unloadIdle env).commands.get? c = some .pending
        ∧ ∃ e ∈ s.idleRows env, c = ⟨env.decisionId e.1, .unload, e.1⟩ := by
  rcases Dict.get?_foldl_set (fun e : RowKey × MemoryReservationRow =>
      (⟨env.decisionId e.1, .unload, e.1⟩ : CommandId))
      (fun _ => CommandState.pending) (s.idleRows env) s.commands c with
    hsame | ⟨e, he, hc, hval⟩
  · exact Or.inl hsame
  · exact Or.inr ⟨hval, e, he, hc.symm⟩

variable {k : RowKey}

theorem of_idleExpired {env : TtlEnv}
    {r : MemoryReservationRow} (h : s.idleExpired env k r = true) :
    r.state = .held ∧ r.pinned = false ∧ s.activeLeases k = 0 := by
  grind [idleExpired]

theorem row_unloadIdle {env : TtlEnv} {r' : MemoryReservationRow}
    (h : (s.unloadIdle env).rows.get? k = some r') :
    ∃ r, s.rows.get? k = some r ∧ (r' = r ∨ s.idleExpired env k r = true
      ∧ r' = { r with state := .releasing }) := by
  replace h : (s.rows.mapValues _).get? k = some r' := h
  rw [Dict.get?_mapValues] at h
  obtain ⟨r, hr, rfl⟩ := Option.map_eq_some_iff.mp h
  refine ⟨r, hr, ?_⟩
  split
  · exact Or.inr ⟨‹_›, rfl⟩
  · exact Or.inl rfl

theorem row_launchFail {i : ℕ} {r' : MemoryReservationRow}
    (h : (s.launchFail i).rows.get? k = some r') :
    ∃ r, s.rows.get? k = some r ∧ (r' = r ∨ r' = { r with state := .failed }) := by
  replace h : (s.rows.mapValues _).get? k = some r' := h
  rw [Dict.get?_mapValues] at h
  obtain ⟨r, hr, rfl⟩ := Option.map_eq_some_iff.mp h
  refine ⟨r, hr, ?_⟩
  split
  · exact Or.inr rfl
  · exact Or.inl rfl

end Writes

/-! ## What no step changes -/

section Kept

variable {s' : Placement} {d e : ℕ} {a : Step}

def KeepsDecisions (s s' : Placement) : Prop :=
  ∀ d decision, s.decisions.get? d = some decision →
    ∃ decision', s'.decisions.get? d = some decision'
      ∧ decision'.holderId = decision.holderId
      ∧ decision'.requiredBytes = decision.requiredBytes
      ∧ decision'.idleTtl = decision.idleTtl

theorem keepsDecisions_of_eq (h : s'.decisions = s.decisions) : KeepsDecisions s s' :=
  fun _ decision hd => ⟨decision, h ▸ hd, rfl, rfl, rfl⟩

theorem keepsDecisions_modify {f : PlacementDecision → PlacementDecision}
    (h : s'.decisions = s.decisions.modify d f)
    (hf : ∀ r, (f r).holderId = r.holderId ∧ (f r).requiredBytes = r.requiredBytes
      ∧ (f r).idleTtl = r.idleTtl) :
    KeepsDecisions s s' := by
  grind [KeepsDecisions]

theorem decision_unloadIdle {env : TtlEnv} (hnew : ∀ e ∈ s.idleRows env,
      s.decisions.get? (env.decisionId e.1) = none)
    (hd : s.decisions.get? d ≠ none) :
    (s.unloadIdle env).decisions.get? d = s.decisions.get? d := by
  rcases Dict.get?_foldl_set (fun e : RowKey × MemoryReservationRow =>
      env.decisionId e.1) (fun e => ttlDecision e.1 e.2) (s.idleRows env)
      s.decisions d with hsame | ⟨e, he, hed, -⟩
  · exact hsame
  · exact absurd (hed ▸ hnew e he) hd

theorem keepsDecisions_unloadIdle {env : TtlEnv} (hnew : ∀ e ∈ s.idleRows env,
      s.decisions.get? (env.decisionId e.1) = none) :
    KeepsDecisions s (s.unloadIdle env) := by
  intro d decision hd
  refine ⟨decision, ?_, rfl, rfl, rfl⟩
  rw [decision_unloadIdle hnew (by rw [hd]; exact Option.some_ne_none _), hd]

theorem Effect.keepsDecisions (he : Effect budget s a s') : KeepsDecisions s s' := by
  cases he with
  | rest _ hold hne hw hrun hret hf => exact keepsDecisions_modify rfl hf.places
  | admitted => exact keepsDecisions_modify rfl (fun _ => ⟨rfl, rfl, rfl⟩)
  | reserved => exact keepsDecisions_modify rfl (fun _ => ⟨rfl, rfl, rfl⟩)
  | ready => exact keepsDecisions_modify rfl (fun _ => ⟨rfl, rfl, rfl⟩)
  | @failed d =>
    obtain ⟨rows, heq, -⟩ := failPending_eq s d
    rw [heq]
    exact keepsDecisions_modify rfl (fun _ => ⟨rfl, rfl, rfl⟩)
  | execUnload =>
    refine keepsDecisions_modify rfl (fun r => ?_)
    split <;> exact ⟨rfl, rfl, rfl⟩
  | idleUnloaded hnew => exact keepsDecisions_unloadIdle hnew
  | _ => exact keepsDecisions_of_eq rfl

end Kept

end Placement
