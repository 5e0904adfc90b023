import Coire.InstancePlacement
import Coire.Run

/-!
# A ready placement is held on one node

The step that places an instance starts over after a crash or an exception, with the
nodes in a new order and a new plan. The reservation it made before stays, on whatever
node it was, and so does a load it queued there, so that a decision may become ready on
one node and keep a reservation on another; and where it comes back to a node on which
the load was carried out meanwhile, it writes the reservation pending again and finds
its command done. As long as neither happens, a ready decision is held on one node
(`Placement.ready_held_once`).
-/

def WorkflowPc.placing : WorkflowPc → Option ℕ
  | .evict n _ | .awaitUnload n _ _ | .awaitLoad n | .markReady n => some n
  | _ => none

theorem WorkflowPc.placing_of_resting {pc : WorkflowPc}
    (h : pc.resting = true) : pc.placing = none := by
  cases pc <;> first | rfl | exact absurd h Bool.false_ne_true

theorem WorkflowPc.running_of_placing {pc : WorkflowPc} {n : ℕ}
    (h : pc.placing = some n) : pc.running = true := by
  cases pc <;> first | rfl | exact absurd h (Option.some_ne_none _).symm

namespace Placement

/-! ## Runs with other work -/

inductive Work
  | step (a : Step)
  | ledgers (rows : ReservationTable)

/-- The state after it. Other work leaves the reservations of the instance
alone. -/
def work (budget : ℕ → ℕ) (i : ℕ) (s : Placement) : Work → Placement
  | .step a => step budget s a
  | .ledgers rows => { s with rows := s.rows.overlay rows (·.isOf i) }

def loadOf (d i n : ℕ) : CommandId := ⟨d, .load, .ofInstance i n⟩

/-- **Only this node**: the instance has no reservation that counts on another
one, and every load of the decision for another one has failed. -/
def soleNode (s : Placement) (d i n : ℕ) : Bool :=
  s.rows.items.all (fun e => !e.1.isOf i || decide (e.1.node = n)
      || !e.2.state.active)
    && s.commands.items.all (fun e =>
      !(decide (e.1.decision = d) && decide (e.1.operation = .load))
        || decide (e.1.row.node = n) || decide (e.2 = .failed))

/-- **The load was not carried out**: the reservation is not held, and the
command has not succeeded and its effect is not written. -/
def unloaded (s : Placement) (d i n : ℕ) : Bool :=
  decide (s.stateOf (.ofInstance i n) ≠ some .held)
    && decide (s.commands.get? (loadOf d i n) ≠ some .succeeded)
    && decide (s.executor ≠ .applied (loadOf d i n))

/-- **The placement is not divided**: no second node, no load that is repeated, no
eviction of the instance. -/
def undivided (d i : ℕ) (s : Placement) : Work → Bool
  | .step (.admission e _) =>
    match s.pc? e with
    | some (.nodes (n :: _) _ _ _) =>
      decide (e ≠ d) || s.soleNode d i n && s.unloaded d i n
    | _ => true
  | .step (.reserve e _) =>
    match s.pc? e with
    | some (.evict n []) => decide (e ≠ d) || s.unloaded d i n
    | _ => true
  | .step (.evict e true) =>
    match s.pc? e with
    | some (.evict _ (v :: _)) => decide (e = d) || !v.isOf i
    | _ => true
  | .step (.idleTtlPass env) =>
    s.rows.items.all (fun e => !e.1.isOf i || !s.idleExpired env e.1 e.2)
  | _ => true

def HeldOnce (d i : ℕ) (s : Placement) : Prop :=
  ∀ decision, s.decisions.get? d = some decision → decision.state = .ready →
    (∀ c st, s.commands.get? c = some st → c.row.isOf i = true →
      st.isOpen = false) →
    ∃ n, decision.selectedNodeId = some n
      ∧ s.stateOf (.ofInstance i n) = some .held
      ∧ ∀ m, m ≠ n → ¬ s.Active (.ofInstance i m)

variable {budget : ℕ → ℕ} {s s' : Placement} {a : Step} {d i n : ℕ}
  {k : RowKey}

theorem loadOf_ne {m : ℕ} (h : m ≠ n) : loadOf d i m ≠ loadOf d i n :=
  fun heq => h (ofInstance_inj (CommandId.mk.inj heq).2.2)

/-- What the condition says of the other nodes. -/
def Elsewhere (d i n : ℕ) (s : Placement) : Prop :=
  ∀ m, m ≠ n → ¬ s.Active (.ofInstance i m)
    ∧ ∀ st, s.commands.get? (loadOf d i m) = some st → st = .failed

theorem elsewhere_of_soleNode (h : s.soleNode d i n = true) : s.Elsewhere d i n := by
  unfold soleNode at h
  rw [Bool.and_eq_true, List.all_eq_true, List.all_eq_true] at h
  intro m hm
  refine ⟨?_, ?_⟩
  · rintro ⟨r, hr, hact⟩
    have := h.1 (.ofInstance i m, r) (Dict.mem_items.mpr hr)
    simp only [isOf_ofInstance, hact, RowKey.ofInstance_node, Bool.not_true,
      Bool.false_or, Bool.or_false] at this
    exact hm (of_decide_eq_true this)
  · intro st hst
    have := h.2 (loadOf d i m, st) (Dict.mem_items.mpr hst)
    simp only [loadOf, RowKey.ofInstance_node, decide_true, Bool.and_self,
      Bool.not_true, Bool.false_or, Bool.or_eq_true, decide_eq_true_eq] at this
    exact this.resolve_left (fun hmn => hm (of_decide_eq_true hmn))

def Carried (d i n : ℕ) (s : Placement) : Prop :=
  s.commands.get? (loadOf d i n) = some .succeeded
    ∨ s.executor = .applied (loadOf d i n)

theorem unloaded_iff : s.unloaded d i n = true
    ↔ s.stateOf (.ofInstance i n) ≠ some .held ∧ ¬ s.Carried d i n := by
  grind [unloaded, Carried]

/-! ## What holds of the placement -/

/-- **Placed on a node**, and if its load was carried out, the reservation is held. -/
structure PlacedOn (d i n : ℕ) (s : Placement) : Prop where
  decision : ∃ decision, s.decisions.get? d = some decision
    ∧ decision.selectedNodeId = some n
    ∧ decision.state ≠ .failed ∧ decision.state ≠ .refused
  there : s.stateOf (.ofInstance i n) ≠ none
  elsewhere : s.Elsewhere d i n
  carried : s.Carried d i n → s.stateOf (.ofInstance i n) = some .held

/-- **One placement**, from its admission to when it is ready. -/
structure Single (d i : ℕ) (s : Placement) : Prop where
  owned : s.Owned d i
  /-- The commands of the instance are loads of its decision. -/
  commands : ∀ c st, s.commands.get? c = some st → c.row.isOf i = true →
    c = loadOf d i c.row.node
  placing : ∀ pc n, s.pc? d = some pc → pc.placing = some n →
    s.PlacedOn d i n ∧ (∀ v ∈ pc.planned, v.isOf i = false)
      ∧ (pc = .markReady n →
        s.commands.get? (loadOf d i n) = some .succeeded)
  ready : ∀ decision, s.decisions.get? d = some decision →
    decision.state = .ready →
    (∀ pc, s.pc? d = some pc → pc.running = false)
      ∧ ∃ n, s.PlacedOn d i n
        ∧ s.commands.get? (loadOf d i n) = some .succeeded

theorem Single.heldOnce (h : s.Single d i) : s.HeldOnce d i := by
  intro decision hd hready _
  obtain ⟨-, n, hp, hdone⟩ := h.ready decision hd hready
  obtain ⟨decision', hd', hsel, -⟩ := hp.decision
  obtain rfl := Option.some.inj (hd.symm.trans hd')
  exact ⟨n, hsel, hp.carried (Or.inl hdone), fun m hm => (hp.elsewhere m hm).1⟩

structure Still (d i : ℕ) (s s' : Placement) : Prop where
  rows : ∀ n, s'.stateOf (.ofInstance i n) = s.stateOf (.ofInstance i n)
  loads : ∀ n, s'.commands.get? (loadOf d i n)
    = s.commands.get? (loadOf d i n)
  commands : ∀ c, c.row.isOf i = true → s'.commands.get? c ≠ none →
    s.commands.get? c ≠ none
  executor : ∀ n, s'.executor = .applied (loadOf d i n) →
    s.executor = .applied (loadOf d i n)

theorem Still.of_tables (hrows : s'.rows = s.rows)
    (hcmd : s'.commands = s.commands) (hx : s'.executor = s.executor) :
    Still d i s s' :=
  ⟨fun _ => stateOf_of_rows hrows _, fun _ => by rw [hcmd],
    fun _ _ h => hcmd ▸ h, fun _ h => hx ▸ h⟩

/-- The decision keeps its node, and is neither failed nor refused by the
step. -/
def KeepsNode (d : ℕ) (s s' : Placement) : Prop :=
  ∀ decision, s.decisions.get? d = some decision →
    ∃ decision', s'.decisions.get? d = some decision'
      ∧ decision'.selectedNodeId = decision.selectedNodeId
      ∧ (decision'.state = decision.state
        ∨ decision'.state ≠ .failed ∧ decision'.state ≠ .refused)

theorem PlacedOn.still (h : s.PlacedOn d i n) (hs : Still d i s s')
    (hdec : KeepsNode d s s') : s'.PlacedOn d i n := by
  refine ⟨?_, ?_, ?_, ?_⟩
  · grind [cases PlacedOn, KeepsNode]
  · rw [hs.rows n]
    exact h.there
  · intro m hm
    rw [active_congr (hs.rows m), hs.loads m]
    exact h.elsewhere m hm
  · intro hc
    rw [hs.rows n]
    refine h.carried (hc.imp (fun hc => ?_) (hs.executor n))
    rw [← hs.loads n]
    exact hc

theorem Single.commands_still (h : s.Single d i) (hs : Still d i s s')
    (c : CommandId) (st : CommandState) (hc : s'.commands.get? c = some st)
    (hk : c.row.isOf i = true) : c = loadOf d i c.row.node := by
  obtain ⟨st₀, hst₀⟩ := Option.ne_none_iff_exists'.mp
    (hs.commands c hk (by rw [hc]; exact Option.some_ne_none _))
  exact h.commands c st₀ hst₀ hk

theorem Single.apart (h : s.Single d i) (howned : s'.Owned d i)
    (hs : Still d i s s') (hdec : s'.decisions.get? d = s.decisions.get? d)
    (hpc : s'.pc? d = s.pc? d) : s'.Single d i := by
  have hkeep : KeepsNode d s s' :=
    fun decision hd => ⟨decision, hdec.trans hd, rfl, Or.inl rfl⟩
  refine ⟨howned, h.commands_still hs, ?_, ?_⟩
  · intro pc n hpc' hn
    obtain ⟨hp, hv, hm⟩ := h.placing pc n (hpc ▸ hpc') hn
    exact ⟨hp.still hs hkeep, hv, fun heq => (hs.loads n).trans (hm heq)⟩
  · intro decision hd hready
    obtain ⟨hrun, n, hp, hdone⟩ := h.ready decision (hdec ▸ hd) hready
    exact ⟨fun pc hpc' => hrun pc (hpc ▸ hpc'), n, hp.still hs hkeep,
      (hs.loads n).trans hdone⟩

/-! ## The steps of the decision -/

section Own

variable {w : Workflow → Workflow} {f : PlacementDecision → PlacementDecision}
  {old : WorkflowPc} {decision : PlacementDecision}

theorem Single.own (howned : s'.Owned d i) (hw : s'.workflows = s.workflows.modify d w)
    (hf : s'.decisions = s.decisions.modify d f)
    (hcommands : ∀ c st, s'.commands.get? c = some st → c.row.isOf i = true →
      c = loadOf d i c.row.node)
    (hplacing : ∀ x n, (w x).pc.placing = some n →
      s'.PlacedOn d i n ∧ (∀ v ∈ (w x).pc.planned, v.isOf i = false)
        ∧ ((w x).pc = .markReady n → s'.commands.get? (loadOf d i n) = some .succeeded))
    (hready : ∀ r, s.decisions.get? d = some r → (f r).state = .ready →
      (∀ x, (w x).pc.running = false) ∧ ∃ n, s'.PlacedOn d i n
        ∧ s'.commands.get? (loadOf d i n) = some .succeeded) :
    s'.Single d i := by
  have hpc {pc : WorkflowPc} (hpc : s'.pc? d = some pc) : ∃ x, (w x).pc = pc :=
    (pc_modify hw hpc).elim And.right (fun hne => absurd rfl hne.1)
  refine ⟨howned, hcommands, fun pc n hpc' hn => ?_, fun r' hr' hst => ?_⟩
  · grind
  rw [hf, Dict.get?_modify, if_pos rfl] at hr'
  obtain ⟨r, hr, rfl⟩ := Option.map_eq_some_iff.mp hr'
  refine (hready r hr hst).imp (fun hrun pc hpc' => ?_) id
  obtain ⟨x, rfl⟩ := hpc hpc'
  exact hrun x

theorem Single.rest (h : s.Single d i)
    (hs' : s' = { s with
      workflows := s.workflows.modify d w
      decisions := s.decisions.modify d f }) (howned : s'.Owned d i)
    (hold : s.pc? d = some old) (hw : ∀ x, (w x).pc.resting = true)
    (hrun : ∀ x, (w x).pc.running = true → old.running = true
      ∨ ∀ r, s.decisions.get? d = some r → r.state ≠ .ready)
    (hf : Notes f) : s'.Single d i := by
  subst hs'
  refine .own (s := s) howned rfl rfl h.commands (fun x n hn => ?_) fun r hr hready => ?_
  · rw [WorkflowPc.placing_of_resting (hw x)] at hn
    exact absurd hn (Option.some_ne_none _).symm
  have hwas : r.state = .ready := by
    rcases hf.state r with hsame | hnot
    · exact hsame ▸ hready
    · exact absurd hready hnot
  obtain ⟨hidle, n, hp, hdone⟩ := h.ready r hr hwas
  refine ⟨fun x => ?_, n, hp.still (.of_tables rfl rfl rfl) ?_, hdone⟩
  · grind
  · intro r' hr'
    obtain rfl := Option.some.inj (hr.symm.trans hr')
    refine ⟨f r, Dict.get?_modify_self hr, hf.selectedNodeId r, Or.inr ?_⟩
    rw [hready]
    exact ⟨PlacementState.noConfusion, PlacementState.noConfusion⟩

theorem Single.moved (h : s.Single d i) (howned : s'.Owned d i)
    (hs : Still d i s s') (hdec : s'.decisions = s.decisions)
    (hw : s'.workflows = s.workflows.modify d w) {pc : WorkflowPc}
    (hold : s.pc? d = some old)
    (hpc : ∀ x, (w x).pc = pc) (hn : old.placing = some n)
    (hn' : pc.placing = some n) (hv : pc.planned ⊆ old.planned)
    (hm : pc = .markReady n → s.commands.get? (loadOf d i n) = some .succeeded) :
    s'.Single d i := by
  have hkeep : KeepsNode d s s' :=
    fun decision hd => ⟨decision, hdec ▸ hd, rfl, Or.inl rfl⟩
  obtain ⟨hp, hspare, -⟩ := h.placing old n hold hn
  refine .own (s := s) howned hw (hdec.trans (Dict.modify_id _ d).symm)
    (h.commands_still hs) (fun x m hm' => ?_) fun r hr hready => ?_
  · rw [hpc x] at hm' ⊢
    obtain rfl := Option.some.inj (hn'.symm.trans hm')
    exact ⟨hp.still hs hkeep, fun v hv' => hspare v (hv hv'),
      fun heq => (hs.loads n).trans (hm heq)⟩
  · grind [WorkflowPc.running_of_placing, cases Single, KeepsNode]

theorem Elsewhere.recordPending (helse : s.Elsewhere d i n)
    (hkey : (decision.target n).key = .ofInstance i n) {now : ℤ}
    (hrows : s'.rows = s.rows.recordPending (decision.target n) now)
    (hcmd : ∀ m, m ≠ n → s'.commands.get? (loadOf d i m)
      = s.commands.get? (loadOf d i m)) : s'.Elsewhere d i n := by
  intro m hm
  have hne : RowKey.ofInstance i m ≠ (decision.target n).key :=
    hkey ▸ fun heq => hm (ofInstance_inj heq)
  rw [hcmd m hm, active_congr (stateOf_recordPending_of_ne hrows hne)]
  exact helse m hm

theorem Single.admitted (h : s.Single d i)
    {plan : AdmissionPlan} {rows : ReservationTable} {env : AdmitEnv}
    (howned : (s.admitted d (decision.target n) plan rows).Owned d i)
    (hd : s.decisions.get? d = some decision)
    (hpass : s.rows.admissionPass (budget n) (decision.target n)
      (s.passEnv env) s.now = .admitted plan rows)
    (helse : s.Elsewhere d i n) (hun : s.unloaded d i n = true) :
    (s.admitted d (decision.target n) plan rows).Single d i := by
  obtain ⟨-, -, -, -, hrows, occupied, -, hplan⟩ :=
    ReservationTable.admissionPass_admitted hpass
  have hkey := h.owned.key hd n
  obtain ⟨hheld, hcarried⟩ := unloaded_iff.mp hun
  have hstate : ∀ {st : PlacementState}, st ≠ .reserving → st ≠ .evicting →
      (if plan.evictions = [] then PlacementState.reserving else .evicting) ≠ st := by
    intro st h₁ h₂
    split
    · exact h₁.symm
    · exact h₂.symm
  refine .own (s := s) howned rfl rfl h.commands (fun x m hm => ?_) fun r _ hready =>
    absurd hready (hstate PlacementState.noConfusion PlacementState.noConfusion)
  obtain rfl : n = m := Option.some.inj hm
  refine ⟨⟨⟨_, Dict.get?_modify_self hd, rfl, hstate PlacementState.noConfusion
    PlacementState.noConfusion, hstate PlacementState.noConfusion
    PlacementState.noConfusion⟩, ?_,
    helse.recordPending hkey hrows (fun _ _ => rfl),
    fun hc => absurd hc hcarried⟩, ?_, fun heq => WorkflowPc.noConfusion heq⟩
  · rw [← hkey, stateOf_recordPending hrows]
    exact Option.some_ne_none _
  -- a victim is held, the reservation of the instance is not
  intro v hv
  obtain ⟨r, hr, hnode, -, hs, -⟩ := ReservationTable.row_of_passVictims
    (ReservationTable.planPass_ok hplan).2 hv
  by_contra hof
  rw [Bool.not_eq_false, RowKey.isOf_iff, hnode] at hof
  refine hheld ?_
  rw [← show v = .ofInstance i n from hof]
  unfold stateOf
  rw [hr, Option.map_some, hs]

theorem Single.reserved (h : s.Single d i)
    (hs' : s' = ((((s.record (decision.target n)).queue
      ⟨d, .load, (decision.target n).key⟩).updateDecision d (fun r =>
        { r with state := .loading })).goto d (.awaitLoad n)))
    (howned : s'.Owned d i) (hold : s.pc? d = some (.evict n []))
    (hd : s.decisions.get? d = some decision)
    (hun : s.unloaded d i n = true) : s'.Single d i := by
  have hkey := h.owned.key hd n
  rw [hkey] at hs'
  obtain ⟨-, hcarried⟩ := unloaded_iff.mp hun
  obtain ⟨hp, -, -⟩ := h.placing (.evict n []) n hold rfl
  have hrows : s'.rows = s.rows.recordPending (decision.target n) s.now := by
    rw [hs']
    rfl
  have hthere : s'.stateOf (.ofInstance i n) ≠ none := by
    rw [← hkey, stateOf_recordPending hrows]
    exact Option.some_ne_none _
  subst hs'
  refine .own (s := s) howned rfl rfl (fun c st hc hk => ?_) (fun x m hm => ?_)
    fun r _ hready => by cases hready
  · by_cases heq : c = loadOf d i n
    · rw [heq]
      rfl
    · exact h.commands c st ((get?_queue_ne heq).symm.trans hc) hk
  · obtain rfl : n = m := Option.some.inj hm
    refine ⟨⟨⟨_, Dict.get?_modify_self hd, ?_, PlacementState.noConfusion,
      PlacementState.noConfusion⟩, hthere, hp.elsewhere.recordPending hkey hrows
      (fun m hm => get?_queue_ne (loadOf_ne hm)), ?_⟩,
      fun v hv => absurd hv List.not_mem_nil,
      fun heq => WorkflowPc.noConfusion heq⟩
    · obtain ⟨decision', hd', hsel, -⟩ := hp.decision
      obtain rfl := Option.some.inj (hd.symm.trans hd')
      exact hsel
    · rintro (hc | hc)
      · exact absurd (Or.inl (succeeded_of_queue hc)) hcarried
      · exact absurd (Or.inr hc) hcarried

theorem Single.becomesReady (h : s.Single d i)
    (hs' : s' = (s.updateDecision d (fun r => { r with state := .ready })).goto
      d .returning) (howned : s'.Owned d i)
    (hold : s.pc? d = some (.markReady n)) : s'.Single d i := by
  subst hs'
  obtain ⟨hp, -, hdone⟩ := h.placing (.markReady n) n hold rfl
  refine .own (s := s) howned rfl rfl h.commands
    (fun x m hm => absurd hm (Option.some_ne_none _).symm) fun r hr _ =>
      ⟨fun _ => rfl, n, hp.still (.of_tables rfl rfl rfl) ?_, hdone rfl⟩
  exact fun r hr => ⟨_, Dict.get?_modify_self hr, rfl,
    Or.inr ⟨PlacementState.noConfusion, PlacementState.noConfusion⟩⟩

theorem Single.failed (h : s.Single d i) {name : String}
    (hs' : s' = ((s.failPending d).updateDecision d (fun r => { r with
      state := .failed
      refusalCode := some name })).retry d) (howned : s'.Owned d i) :
    s'.Single d i := by
  obtain ⟨rows, heq, -⟩ := failPending_eq s d
  rw [heq] at hs'
  subst hs'
  refine .own (s := s) howned rfl rfl h.commands (fun x m hm => ?_)
    fun r _ hready => by cases hready
  split at hm <;> exact absurd hm (Option.some_ne_none _).symm

end Own

/-! ## The executor -/

theorem Single.of_open (h : s.Single d i) {st : CommandState}
    (hc : s.commands.get? (loadOf d i n) = some st)
    (hopen : st.isOpen = true) :
    (∀ pc m, s.pc? d = some pc → pc.placing = some m → m = n ∧ pc ≠ .markReady m)
      ∧ ∀ decision, s.decisions.get? d = some decision → decision.state ≠ .ready := by
  have hsame : ∀ m, s.PlacedOn d i m → m = n := by
    intro m hp
    by_contra hne
    have := (hp.elsewhere n (Ne.symm hne)).2 st hc
    rw [this] at hopen
    exact absurd hopen Bool.false_ne_true
  have hnot : s.commands.get? (loadOf d i n) ≠ some .succeeded := by
    intro hdone
    obtain rfl := Option.some.inj (hc.symm.trans hdone)
    exact absurd hopen Bool.false_ne_true
  refine ⟨fun pc m hpc hm => ?_, fun decision hd hready => ?_⟩
  · grind [cases Single]
  · grind [cases Single]

variable {c : CommandId}

theorem Single.setCommand (h : s.Single d i) {st old : CommandState} {x : ExecutorPc}
    (howned : ({ s.setCommand c st with executor := x } : Placement).Owned d i)
    (hc : s.commands.get? c = some old) (hopen : old.isOpen = true)
    (hx : ∀ e, x ≠ .applied e)
    (hdone : st = .succeeded → s.executor = .applied c) :
    ({ s.setCommand c st with executor := x } : Placement).Single d i := by
  by_cases hof : c.row.isOf i = true
  · have hload := h.commands c old hc hof
    generalize c.row.node = n at hload
    subst hload
    obtain ⟨hplace, hnot⟩ := h.of_open hc hopen
    refine ⟨howned, ?_, ?_, ?_⟩
    · intro e st' he hk
      obtain ⟨st₀, hst₀⟩ := Option.ne_none_iff_exists'.mp
        (setCommand_ne_none (by
          rw [show (s.setCommand (loadOf d i n) st).commands.get? e = some st' from he]
          exact Option.some_ne_none _))
      exact h.commands e st₀ hst₀ hk
    · intro pc m hpc hm
      obtain ⟨rfl, hne⟩ := hplace pc m hpc hm
      obtain ⟨hp, hv, -⟩ := h.placing pc m hpc hm
      refine ⟨⟨hp.decision, hp.there, fun m' hm' => ?_, ?_⟩, hv,
        fun heq => absurd heq hne⟩
      · refine ⟨(hp.elsewhere m' hm').1, fun st' hst' => ?_⟩
        rw [get?_setCommand_ne (loadOf_ne hm')] at hst'
        exact (hp.elsewhere m' hm').2 st' hst'
      · rintro (hcar | hcar)
        · rw [get?_setCommand_self hc, Option.some.injEq] at hcar
          exact hp.carried (Or.inr (hdone hcar))
        · exact absurd hcar (hx _)
    · intro decision hd hready
      exact absurd hready (hnot decision hd)
  · have hne : ∀ n, loadOf d i n ≠ c := by
      rintro n rfl
      exact hof (isOf_ofInstance i n)
    exact h.apart howned ⟨fun _ => rfl, fun n => get?_setCommand_ne (hne n),
      fun e _ he => setCommand_ne_none he,
      fun n he => absurd he (hx _)⟩ rfl rfl

theorem Single.execLoad (h : s.Single d i)
    (howned : ({ s.setState c.row .held with executor := .applied c }
      : Placement).Owned d i) (hx : s.executor = .running c) :
    ({ s.setState c.row .held with executor := .applied c }
      : Placement).Single d i := by
  have hc := h.owned.commanded.2 c (Or.inl hx)
  have hrow : ∀ k, k ≠ c.row → ({ s.setState c.row .held with
      executor := .applied c } : Placement).stateOf k = s.stateOf k :=
    fun k hk => stateOf_modify rfl hk
  by_cases hof : c.row.isOf i = true
  · have hload := h.commands c .running hc hof
    generalize c.row.node = n at hload
    subst hload
    obtain ⟨hplace, hnot⟩ := h.of_open hc rfl
    refine ⟨howned, h.commands, ?_, ?_⟩
    · intro pc m hpc hm
      obtain ⟨rfl, hne⟩ := hplace pc m hpc hm
      obtain ⟨hp, hv, -⟩ := h.placing pc m hpc hm
      have hheld : ({ s.setState (loadOf d i m).row .held with
          executor := .applied (loadOf d i m) } : Placement).stateOf
          (.ofInstance i m) = some .held := by
        obtain ⟨st, hst⟩ := Option.ne_none_iff_exists'.mp hp.there
        rw [show (loadOf d i m).row = .ofInstance i m from rfl,
          stateOf_setState rfl, hst]
        rfl
      refine ⟨⟨hp.decision, ?_, fun m' hm' => ?_, fun _ => hheld⟩, hv,
        fun heq => absurd heq hne⟩
      · rw [hheld]
        exact Option.some_ne_none _
      · rw [active_congr (hrow _ (fun heq => hm' (ofInstance_inj heq)))]
        exact hp.elsewhere m' hm'
    · intro decision hd hready
      exact absurd hready (hnot decision hd)
  · have hne : ∀ n, RowKey.ofInstance i n ≠ c.row := by
      intro n heq
      exact hof (heq ▸ isOf_ofInstance i n)
    refine h.apart howned ⟨fun n => hrow _ (hne n), fun _ => rfl,
      fun _ _ he => he, fun n he => ?_⟩ rfl rfl
    obtain rfl := ExecutorPc.applied.inj he
    exact absurd rfl (hne n)

theorem Single.execUnload (h : s.Single d i)
    (howned : ({ s.applyUnload c with executor := .applied c }
      : Placement).Owned d i) (hx : s.executor = .running c)
    (hop : c.operation = .unload) :
    ({ s.applyUnload c with executor := .applied c } : Placement).Single d i := by
  have hc := h.owned.commanded.2 c (Or.inl hx)
  have hof : ¬ c.row.isOf i = true := by
    intro hof
    rw [h.commands c .running hc hof] at hop
    exact absurd hop Operation.noConfusion
  have hne : ∀ n, RowKey.ofInstance i n ≠ c.row :=
    fun n heq => hof (heq ▸ isOf_ofInstance i n)
  refine h.apart howned ⟨fun n => stateOf_modify rfl (hne n), fun _ => rfl,
    fun _ _ he => he, fun n he => ?_⟩ ?_ rfl
  · obtain rfl := ExecutorPc.applied.inj he
    exact absurd hop Operation.noConfusion
  obtain ⟨decision, hd, -, httl⟩ := h.owned.decision
  show (s.decisions.modify c.decision _).get? d = _
  rw [Dict.get?_modify]
  split
  · grind
  · rfl

/-! ## One step, and runs -/

theorem Still.unloadIdle {env : TtlEnv} (h : ∀ e ∈ s.rows.items, e.1.isOf i = true →
      s.idleExpired env e.1 e.2 = false) : Still d i s (s.unloadIdle env) := by
  refine ⟨fun n => stateOf_unloadIdle (fun r hr => ?_), fun n => ?_,
    fun c hk hc => ?_, fun _ he => he⟩
  · exact h (.ofInstance i n, r) (Dict.mem_items.mpr hr) (isOf_ofInstance i n)
  · grind [command_unloadIdle, loadOf]
  · rcases command_unloadIdle s env c with hsame | ⟨-, e, he, rfl⟩
    · exact hsame ▸ hc
    · obtain ⟨hmem, hexp⟩ := List.mem_filter.mp he
      exact absurd ((h e hmem hk).symm.trans hexp) Bool.false_ne_true

theorem Still.queue (hrows : ∀ n,
      s'.stateOf (.ofInstance i n) = s.stateOf (.ofInstance i n))
    (hcmd : s'.commands = (s.queue c).commands)
    (hof : c.row.isOf i = false) (hx : s'.executor = s.executor) :
    Still d i s s' := by
  have hget : ∀ e, e.row.isOf i = true → s'.commands.get? e = s.commands.get? e := by
    intro e he
    rw [hcmd, get?_queue_ne]
    rintro rfl
    exact absurd (hof.symm.trans he) Bool.false_ne_true
  exact ⟨hrows, fun n => hget _ (isOf_ofInstance i n),
    fun e he hne => hget e he ▸ hne, fun _ h => hx ▸ h⟩

theorem Single.launchFailed (h : s.Single d i) {decision : PlacementDecision}
    (howned : (s.launchFail i).Owned d i)
    (hd : s.decisions.get? d = some decision)
    (hstate : decision.state = .refused ∨ decision.state = .failed) :
    (s.launchFail i).Single d i := by
  refine ⟨howned, h.commands, fun pc n hpc hn => ?_, fun dec hd' hready => ?_⟩
  · obtain ⟨hp, -⟩ := h.placing pc n hpc hn
    obtain ⟨decision', hd', -, hf, hr⟩ := hp.decision
    obtain rfl := Option.some.inj (hd.symm.trans hd')
    exact absurd hstate (not_or.mpr ⟨hr, hf⟩)
  · obtain rfl := Option.some.inj (hd.symm.trans hd')
    rw [hready] at hstate
    exact absurd hstate (not_or.mpr ⟨PlacementState.noConfusion,
      PlacementState.noConfusion⟩)

theorem Single.step (h : s.Single d i)
    (ha : undivided d i s (.step a) = true) (he : Effect budget s a s') :
    s'.Single d i := by
  have howned := h.owned.step he
  cases he with
  | nothing => exact h
  | @rest _ e old w f hold hne hw hrun hret hf =>
    by_cases hed : e = d
    · subst hed
      refine h.rest rfl howned hold hw (fun x hx => ?_) hf
      exact (hrun x hx).imp id (fun hb => hb.2.2)
    · exact h.apart howned (.of_tables rfl rfl rfl)
        (decision_modify_ne rfl (Ne.symm hed))
        (pc_modify_ne rfl (Ne.symm hed))
  | @admitted e env n ns wait profile occupants decision plan rows hold hd
      hpass =>
    by_cases hed : e = d
    · subst hed
      unfold undivided at ha
      simp only [hold, ne_eq, not_true_eq_false, decide_false, Bool.false_or,
        Bool.and_eq_true] at ha
      exact h.admitted howned hd hpass (elsewhere_of_soleNode ha.1) ha.2
    · obtain ⟨-, -, -, -, hrows, -⟩ :=
        ReservationTable.admissionPass_admitted hpass
      exact h.apart howned ⟨fun m => stateOf_recordPending_of_ne hrows
        (h.owned.other hed hold hd n m), fun _ => rfl, fun _ _ he => he,
        fun _ he => he⟩ (decision_modify_ne rfl (Ne.symm hed))
        (pc_modify_ne rfl (Ne.symm hed))
  | @evicted e n v vs r decision hold hv hd =>
    by_cases hed : e = d
    · subst hed
      obtain ⟨-, hspare, -⟩ := h.placing _ n hold rfl
      have hof : v.isOf i = false := hspare v List.mem_cons_self
      refine h.moved howned (.queue (fun m => stateOf_modify rfl ?_) rfl hof
        rfl) rfl rfl hold (fun _ => rfl) rfl rfl (List.subset_cons_self v vs)
        (fun heq => WorkflowPc.noConfusion heq)
      rintro rfl
      exact absurd (hof.symm.trans (isOf_ofInstance i m)) Bool.false_ne_true
    · unfold undivided at ha
      simp only [hold, decide_eq_false hed, Bool.false_or, Bool.not_eq_true'] at ha
      refine h.apart howned (.queue (fun m => stateOf_modify rfl ?_) rfl ha
        rfl) rfl (pc_modify_ne rfl (Ne.symm hed))
      rintro rfl
      exact absurd (ha.symm.trans (isOf_ofInstance i m)) Bool.false_ne_true
  | @unloadSeen e n v vs hold hc =>
    by_cases hed : e = d
    · subst hed
      exact h.moved howned (.of_tables rfl rfl rfl) rfl rfl hold (fun _ => rfl)
        rfl rfl (List.Subset.refl vs) (fun heq => WorkflowPc.noConfusion heq)
    · exact h.apart howned (.of_tables rfl rfl rfl) rfl (pc_modify_ne rfl (Ne.symm hed))
  | @reserved e n env decision hold hd =>
    by_cases hed : e = d
    · subst hed
      unfold undivided at ha
      simp only [hold, ne_eq, not_true_eq_false, decide_false, Bool.false_or] at ha
      exact h.reserved rfl howned hold hd ha
    · exact h.apart howned (.queue (fun m => stateOf_recordPending_of_ne rfl
        (h.owned.other hed hold hd n m)) rfl
        (h.owned.isOf_other hed hold hd n) rfl)
        (decision_modify_ne rfl (Ne.symm hed))
        (pc_modify_ne rfl (Ne.symm hed))
  | @loadSeen e n decision hold hd hc =>
    by_cases hed : e = d
    · subst hed
      rw [h.owned.key hd n] at hc
      exact h.moved howned (.of_tables rfl rfl rfl) rfl rfl hold (fun _ => rfl)
        rfl rfl (List.nil_subset _) (fun _ => hc)
    · exact h.apart howned (.of_tables rfl rfl rfl) rfl (pc_modify_ne rfl (Ne.symm hed))
  | @ready e n hold =>
    by_cases hed : e = d
    · subst hed
      exact h.becomesReady rfl howned hold
    · exact h.apart howned (.of_tables rfl rfl rfl)
        (decision_modify_ne rfl (Ne.symm hed))
        (pc_modify_ne rfl (Ne.symm hed))
  | @failed e name hold =>
    by_cases hed : e = d
    · subst hed
      exact h.failed rfl howned
    have hrows := h.owned.failPending hed hold
    obtain ⟨rows, heq, -⟩ := failPending_eq s e
    rw [heq] at howned hrows ⊢
    exact h.apart howned ⟨hrows, fun _ => rfl, fun _ _ he => he,
      fun _ he => he⟩ (decision_modify_ne rfl (Ne.symm hed))
      (pc_modify_ne rfl (Ne.symm hed))
  | execNext hx he hopen =>
    exact h.setCommand howned he hopen (fun _ => ExecutorPc.noConfusion)
      (fun hst => CommandState.noConfusion hst)
  | execFail _ hx =>
    exact h.setCommand howned (h.owned.commanded.2 _ (Or.inl hx)) rfl
      (fun _ => ExecutorPc.noConfusion) (fun hst => CommandState.noConfusion hst)
  | execUnload hx hop => exact h.execUnload howned hx hop
  | execLoad hx hop => exact h.execLoad howned hx
  | execFinish hx =>
    exact h.setCommand howned (h.owned.commanded.2 _ (Or.inr hx)) rfl
      (fun _ => ExecutorPc.noConfusion) (fun _ => hx)
  | execRetry =>
    exact h.apart howned ⟨fun _ => rfl, fun _ => rfl, fun _ _ he => he,
      fun _ he => ExecutorPc.noConfusion he⟩ rfl rfl
  | leased hk =>
    exact h.apart howned ⟨fun _ => stateOf_modify_state
      (f := fun r => { r with lastUsedAt := s.now }) rfl (fun _ => rfl) _,
      fun _ => rfl, fun _ _ he => he, fun _ he => he⟩ rfl rfl
  | refreshed => exact h.apart howned (.of_tables rfl rfl rfl) rfl rfl
  | leaseReleased => exact h.apart howned (.of_tables rfl rfl rfl) rfl rfl
  | @pinned k pin allowed hk =>
    exact h.apart howned ⟨fun _ => stateOf_modify_state
      (f := fun r => { r with pinned := pin }) rfl (fun _ => rfl) _,
      fun _ => rfl, fun _ _ he => he, fun _ he => he⟩ rfl rfl
  | @idleUnloaded env hnew =>
    unfold undivided at ha
    rw [List.all_eq_true] at ha
    refine h.apart howned (.unloadIdle (fun e he hof => ?_)) ?_ rfl
    · grind
    · obtain ⟨decision, hd, -⟩ := h.owned.decision
      exact decision_unloadIdle hnew (by rw [hd]; exact Option.some_ne_none _)
  | @launchFailed m inst decision hi hend hd hstate =>
    by_cases hm : m = i
    · subst hm
      rw [h.owned.launch inst hi, Option.bind_some] at hd
      exact h.launchFailed howned hd hstate
    · exact h.apart howned ⟨fun n => stateOf_launchFail (fun hof => hm hof.symm),
        fun _ => rfl, fun _ _ he => he, fun _ he => he⟩ rfl rfl
  | launched _ hf hd => exact h.apart howned (.of_tables rfl rfl rfl) rfl rfl
  | ticked => exact h.apart howned (.of_tables rfl rfl rfl) rfl rfl

theorem Single.work (h : s.Single d i) {w : Work}
    (hw : undivided d i s w = true) : (work budget i s w).Single d i := by
  cases w with
  | step a => exact h.step hw (step_effect a)
  | ledgers rows =>
    refine h.apart ⟨h.owned.decision, h.owned.known, h.owned.others,
      h.owned.launch, h.owned.commanded⟩ ⟨fun n => ?_, fun _ => rfl,
      fun _ _ he => he, fun _ he => he⟩ rfl rfl
    show ((s.rows.overlay rows _).get? _).map _ = _
    rw [Dict.get?_overlay, if_pos (isOf_ofInstance i n)]
    rfl

structure Requested (d i : ℕ) (s : Placement) : Prop where
  owned : s.Owned d i
  state : ∀ decision, s.decisions.get? d = some decision →
    decision.state ≠ .ready
  idle : ∀ pc, s.pc? d = some pc → pc.placing = none
  commands : ∀ c st, s.commands.get? c = some st → c.row.isOf i = false

theorem Requested.single (h : s.Requested d i) : s.Single d i where
  owned := h.owned
  commands := fun c st hc hof =>
    absurd ((h.commands c st hc).symm.trans hof) Bool.false_ne_true
  placing := fun pc n hpc hn =>
    absurd ((h.idle pc hpc).symm.trans hn) (Option.some_ne_none n).symm
  ready := fun decision hd hready => absurd hready (h.state decision hd)

/-- **A ready placement is held once**, in every run in which the placement is not
divided: on the node the decision selected, and nowhere else. -/
theorem ready_held_once (hs : s.Requested d i) {steps : List Work}
    (h : Run.Along (Placement.work budget i)
      (fun s w => undivided d i s w = true) s steps) :
    Run.Throughout (Placement.work budget i) (HeldOnce d i) s steps :=
  Run.throughout_of_invariant (Single d i) (fun _ hinv => hinv.heldOnce)
    (fun _ _ hinv hw => hinv.work hw) hs.single h

theorem launching_requested : launching.Requested 1 50 where
  owned := launching_owned
  state := fun _ hd => Option.some.inj hd ▸ PlacementState.noConfusion
  idle := fun _ hpc => Option.some.inj hpc ▸ rfl
  commands := fun _ st hc => absurd hc (Option.some_ne_none st).symm

/-- The scheduler crashes after the admission, and the step starts over on the same
node. -/
theorem ready_held_once_launching :
    Run.Throughout (Placement.work (fun _ => 20) 50) (HeldOnce 1 50) launching
      [.step (.begin 1 ⟨true, true, [0, 1]⟩),
        .step (.admission 1 ⟨true, true, true, true, false, none, none⟩),
        .step (.crash 1),
        .ledgers (Dict.empty.set ⟨0, .model, 60⟩ ⟨8, false, .held, 0⟩),
        .step (.begin 1 ⟨true, true, [0, 1]⟩),
        .step (.admission 1 ⟨true, true, true, true, false, none, none⟩),
        .step (.reserve 1 ⟨true, true, true⟩), .step .execNext,
        .step .execApply, .step .execFinish, .step (.poll 1),
        .step (.markReady 1)] :=
  ready_held_once launching_requested (by decide)

/-- **Ready on one node, pending on another**, which the step found first after a crash.
-/
theorem ready_held_twice : launching.Requested 1 50 ∧ ¬ Run.Throughout
      (Placement.work (fun _ => 20) 50) (HeldOnce 1 50) launching
      [.step (.begin 1 ⟨true, true, [0, 1]⟩),
        .step (.admission 1 ⟨true, true, true, true, false, none, none⟩),
        .step (.crash 1), .step (.begin 1 ⟨true, true, [1, 0]⟩),
        .step (.admission 1 ⟨true, true, true, true, false, none, none⟩),
        .step (.reserve 1 ⟨true, true, true⟩), .step .execNext,
        .step .execApply, .step .execFinish, .step (.poll 1),
        .step (.markReady 1)] := by
  refine ⟨launching_requested, fun h => ?_⟩
  obtain ⟨n, hsel, -, hother⟩ := h 11 _ rfl rfl
    fun c st hc _ => isOpen_of_values (by decide) hc
  obtain rfl : 1 = n := Option.some.inj hsel
  exact hother 0 (by decide) ⟨_, rfl, rfl⟩

end Placement
