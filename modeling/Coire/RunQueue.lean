import Coire.RunPlacement

/-!
# The queue of the agent runs

`choose_studio` counts the runs of the Studios, and `commit_run_placement` assigns
the run in a later transaction, without counting again. What makes this safe is that
a Studio is chosen only for the head of the queue, which stays the head until it is
assigned or killed (`First.unique`): at most one choice is open for a run that can
still be assigned, and its count stays good. The result is
`cap_and_order_respected`.
-/

namespace AgentRuns

def AgentRunRow.Waits (row : AgentRunRow) : Prop :=
  row.nodeId = none ∧ (row.state = .queued ∨ row.state = .placing)

def AgentRunRow.activeOn (row : AgentRunRow) (node : ℕ) : Bool :=
  row.nodeId = some node && !row.state.terminal

def assignedOn (s : State) (node : ℕ) : ℕ :=
  (s.runs.items.filter fun x => x.2.activeOn node).length

def Pc.early : Pc → Bool
  | .place _ => true
  | _ => false

def Pc.choice : Pc → Option ℕ
  | .place (.commit node) => some node
  | _ => none

structure Spot where
  row : Option AgentRunRow
  early : Bool
  choice : Option ℕ

def State.spot (s : State) (q : ℕ) : Spot :=
  ⟨s.runs.get? q, (s.workflows.get? q).all fun w => w.pc.early,
    (s.workflows.get? q).bind fun w => w.pc.choice⟩

/-- What a workflow does to the row after `place_run`. -/
def Executed (row row' : AgentRunRow) : Prop :=
  row'.nodeId = row.nodeId ∧ row'.requestedAt = row.requestedAt
    ∧ (row'.state = row.state ∨ row.state.terminal = false
      ∧ row'.state ≠ .queued ∧ row'.state ≠ .placing)

inductive Goes (chosen : ℕ → Prop) (fresh : AgentRunRow → Prop) (x : Spot) :
    Spot → Prop
  | moves (early : Bool) (choice : Option ℕ)
      (hearly : early = true → x.early = true)
      (hchoice : choice = x.choice ∨ choice = none) :
    Goes chosen fresh x ⟨x.row, early, choice⟩
  | chosen (node : ℕ) (h : chosen node) (hearly : x.early = true) :
    Goes chosen fresh x ⟨x.row, true, some node⟩
  | requested (hrow : x.row = none) (row : AgentRunRow) (h : fresh row) :
    Goes chosen fresh x { x with row := some row }
  | stopped (row row' : AgentRunRow) (hrow : x.row = some row)
      (hnode : row'.nodeId = row.nodeId)
      (hat : row'.requestedAt = row.requestedAt)
      (hopen : row.state.terminal = false)
      (hstate : row'.state = .killRequested ∨ row'.state.terminal = true)
      (early : Bool) (choice : Option ℕ)
      (hearly : early = true → x.early = true) :
    Goes chosen fresh x ⟨some row', early, choice⟩
  | advanced (row : AgentRunRow) (hrow : x.row = some row)
      (hearly : x.early = true) (hopen : row.state.terminal = false)
      (hkill : row.state ≠ .killRequested) :
    Goes chosen fresh x ⟨some { row with state := .placing }, true, none⟩
  | executed (row row' : AgentRunRow) (hrow : x.row = some row)
      (h : Executed row row') :
    Goes chosen fresh x ⟨some row', false, none⟩
  | committed (row : AgentRunRow) (node : ℕ) (hrow : x.row = some row)
      (hearly : x.early = true) (hchoice : x.choice = some node)
      (hnode : row.nodeId = none) (hopen : row.state.terminal = false)
      (hkill : row.state ≠ .killRequested) :
    Goes chosen fresh x ⟨some { row with nodeId := some node }, true, none⟩

section Steps

variable {cfg : Settings} {s s' : State} {r q : ℕ} {w : Workflow}
  {chosen : ℕ → Prop} {fresh : AgentRunRow → Prop} {x : Spot}

theorem Goes.same {x' : Spot} (h : x' = x) : Goes chosen fresh x x' := by
  rw [h]
  exact .moves x.early x.choice id (.inl rfl)

theorem Own.spot (h : Own r s s') (hq : q ≠ r) : s'.spot q = s.spot q := by
  unfold State.spot
  rw [h.runs q hq, h.workflows q hq]

theorem spot_of_workflow (hw : s.workflows.get? r = some w) :
    s.spot r = ⟨s.runs.get? r, w.pc.early, w.pc.choice⟩ := by
  simp [State.spot, hw]

@[simp] theorem spot_setWorkflow (w : Workflow) :
    (s.setWorkflow r w).spot r = ⟨s.runs.get? r, w.pc.early, w.pc.choice⟩ := by
  simp [State.spot, State.setWorkflow]

@[simp] theorem spot_goto (w : Workflow) (pc : Pc) :
    (s.goto r w pc).spot r = ⟨s.runs.get? r, pc.early, pc.choice⟩ :=
  spot_setWorkflow _

@[simp] theorem spot_enter (pc : Pc) :
    (s.enter r pc).spot r = ⟨s.runs.get? r, pc.early, pc.choice⟩ :=
  spot_setWorkflow _

@[simp] theorem spot_retry (w : Workflow) (pc : Pc) :
    (s.retry r w pc).spot r = ⟨s.runs.get? r, pc.early, pc.choice⟩ :=
  spot_setWorkflow _

theorem goes_raised (hw : s.workflows.get? r = some w) (text : String) :
    Goes chosen fresh (s.spot r) ((raised s r w text).spot r) := by
  rw [spot_of_workflow hw]
  unfold raised
  repeat' split
  all_goals first
    | exact .same (spot_of_workflow hw)
    | simp only [spot_retry, spot_enter, spot_goto]
      exact .moves _ _ (by simp [Pc.early, *]) (.inr rfl)

theorem goes_placeStep (hw : s.workflows.get? r = some w) (env : StepEnv)
    {pc : PlacePc} (hpc : w.pc = .place pc)
    (hchosen : ∀ n, chooseStudio cfg s r env = some n → chosen n) :
    Goes chosen fresh (s.spot r) ((placeStep cfg s r w env pc).spot r) := by
  have hx : s.spot r = ⟨s.runs.get? r, true, (Pc.place pc).choice⟩ := by
    rw [spot_of_workflow hw, hpc]
    rfl
  have hmoves {pc' : Pc} (h : pc'.choice = none) :
      Goes chosen fresh (s.spot r) ⟨s.runs.get? r, pc'.early, pc'.choice⟩ := by
    rw [hx]
    exact .moves _ _ (fun _ => rfl) (.inr h)
  cases pc with
  | advance =>
    rw [placeStep]
    cases hrow : s.runs.get? r with
    | none =>
      simp only [spot_goto]
      exact hmoves rfl
    | some row =>
      simp only [spot_goto, State.setRun, Dict.get?_set_self]
      rcases advance_cases row (!cfg.upgradesEnabled || env.coreWork) .placing with
        h | ⟨hopen, hkill, h⟩
      · rw [h, ← hrow]
        exact hmoves (by split <;> rfl)
      · have hpc' {b : Bool} : (Pc.place (if b then .check else .advance)).choice
            = none := by
          cases b <;> rfl
        rw [h, hx, hpc']
        exact .advanced row hrow rfl hopen hkill
  | check =>
    rw [placeStep]
    repeat' split
    all_goals first
      | exact goes_raised hw _
      | rw [spot_goto]; exact hmoves rfl
  | choose =>
    rw [placeStep]
    split
    · rw [spot_goto]
      exact hmoves rfl
    · rename_i node h
      rw [spot_goto, hx]
      exact .chosen node (hchosen node h) rfl
  | commit node =>
    rw [placeStep]
    cases hrow : s.runs.get? r with
    | none =>
      simp only [spot_goto]
      exact hmoves (by split <;> rfl)
    | some row =>
      simp only [spot_goto, State.setRun, Dict.get?_set_self]
      have hpc' {b : Bool} : (Pc.place (if b then .returning else .advance)).choice
          = none := by
        cases b <;> rfl
      rcases commit_cases cfg env node row with h | ⟨hnode, hopen, hkill, h⟩
      · rw [h, ← hrow]
        exact hmoves hpc'
      · rw [h, hx, hpc']
        exact .committed row node hrow rfl rfl hnode hopen hkill
  | returning =>
    rw [placeStep, spot_enter]
    exact hmoves rfl

theorem executed_advance (row : AgentRunRow) {state : AgentRunState}
    (hq : state ≠ .queued) (hp : state ≠ .placing) :
    Executed row (row.advance true state).1 := by
  rcases advance_cases row true state with h | ⟨hopen, -, h⟩ <;> rw [h]
  · exact ⟨rfl, rfl, .inl rfl⟩
  · exact ⟨rfl, rfl, .inr ⟨hopen, hq, hp⟩⟩

theorem executed_finalize (row : AgentRunRow) (succeeded : Bool)
    (detail : String) : Executed row (row.finalize succeeded detail) := by
  rcases finalize_cases row succeeded detail with h | ⟨hopen, code, h⟩ <;> rw [h]
  · exact ⟨rfl, rfl, .inl rfl⟩
  · exact ⟨rfl, rfl, .inr ⟨hopen, (finalState_spec succeeded detail).2⟩⟩

theorem goes_executed (f : AgentRunRow → AgentRunRow)
    (hf : ∀ row, Executed row (f row)) :
    Goes chosen fresh x ⟨x.row.map f, false, none⟩ := by
  cases hrow : x.row with
  | none =>
    rw [Option.map_none, ← hrow]
    exact .moves _ _ nofun (.inr rfl)
  | some row =>
    exact .executed row (f row) hrow (hf row)

theorem submit_runs {operation : RunOperation} (h : submit s r operation = .ok s') :
    s'.runs = s.runs := by
  obtain ⟨row, node, -, -, rfl⟩ := submit_ok h
  rfl

theorem goes_workflowStep (hw : s.workflows.get? r = some w) (env : StepEnv)
    (hchosen : ∀ n, chooseStudio cfg s r env = some n → chosen n) :
    Goes chosen fresh (s.spot r) ((workflowStep cfg s r w env).spot r) := by
  have hmoves {s' : State} {pc : Pc} (hruns : s'.runs = s.runs)
      (h : pc.early = false) (h' : pc.choice = none) :
      Goes chosen fresh (s.spot r) ⟨s'.runs.get? r, pc.early, pc.choice⟩ := by
    rw [h, h', hruns]
    exact .moves _ _ (absurd · Bool.false_ne_true) (.inr rfl)
  have hwrite {f : AgentRunRow → AgentRunRow} (hf : ∀ row, Executed row (f row))
      (pc : ExecutePc) : Goes chosen fresh (s.spot r)
        (((s.modifyRun r f).goto r w (.execute pc)).spot r) := by
    rw [spot_goto, State.modifyRun, Dict.get?_modify, if_pos rfl]
    exact goes_executed (x := s.spot r) f hf
  unfold workflowStep
  split
  · rename_i hpc
    exact goes_placeStep hw env hpc hchosen
  · repeat' split
    all_goals
      first | rw [spot_goto] | rw [spot_enter]
      exact hmoves rfl rfl rfl
  · unfold executeStep
    repeat' split
    all_goals first
      | exact goes_raised hw _
      | exact .same rfl
      | refine hwrite (fun row => ?_) _
        first
          | exact executed_advance row (by decide) (by decide)
          | exact ⟨rfl, rfl, .inl rfl⟩
      | rw [spot_goto]; exact hmoves rfl rfl rfl
      | rw [spot_enter]; exact hmoves rfl rfl rfl
      | rename_i hs; rw [spot_goto]; exact hmoves (submit_runs hs) rfl rfl
  · rename_i succeeded detail pc hpc
    unfold finalizeStep
    repeat' split
    all_goals first
      | exact .same rfl
      | rw [spot_goto]; exact hmoves rfl rfl rfl
      | rename_i hs; rw [spot_goto]; exact hmoves (submit_runs hs) rfl rfl
      | rename_i row hrow
        simp only [spot_goto, State.setRun, Dict.get?_set_self]
        exact .executed row _ hrow (executed_finalize row succeeded detail)
  · exact .same rfl

theorem goes_stopped {row : AgentRunRow} {state : AgentRunState}
    (hrow : s.runs.get? r = some row) (hopen : row.state.terminal = false)
    (hstate : state = .killRequested ∨ state.terminal = true)
    (hruns : s'.runs = s.runs.set r { row with state := state })
    (hw : s'.workflows = s.workflows) :
    Goes chosen fresh (s.spot q) (s'.spot q) := by
  rw [show s'.spot q = { s.spot q with row := s'.runs.get? q } by
    rw [State.spot, hw]; rfl, hruns, Dict.get?_set]
  split
  · rename_i hq
    subst hq
    exact .stopped (x := s.spot q) row { row with state := state } hrow rfl rfl hopen
      hstate _ _ id
  · exact .same rfl

theorem step_goes (cfg : Settings) (s : State) (a : Label) (q : ℕ) :
    Goes (fun n => ∃ env, chooseStudio cfg s q env = some n)
      (fun row => ∃ evaluation node t write, a = .request q evaluation node t write
          ∧ row = requestedRun evaluation node t write)
      (s.spot q) ((step cfg s a).spot q) := by
  have h := step_affects cfg s a
  generalize step cfg s a = s' at h ⊢
  cases h with
  | nothing hr hw => exact .same (by rw [State.spot, hr, hw]; rfl)
  | requests r evaluation node t write =>
    show Goes _ _ _ { s.spot q with row := (s.runs.setDefault r _).get? q }
    rw [Dict.get?_setDefault]
    split
    · rename_i hq
      subst hq
      cases hrow : s.runs.get? q with
      | none => exact .requested hrow _ ⟨_, _, _, _, rfl, rfl⟩
      | some row => exact .same (by rw [Option.getD_some, ← hrow]; rfl)
    · exact .same rfl
  | starts r =>
    cases hw : s.workflows.get? q <;>
      exact .same (by grind [State.spot, Pc.early, Pc.choice])
  | @works r _ hw env =>
    by_cases hq : q = r
    · subst hq
      exact goes_workflowStep hw env fun n hn => ⟨env, hn⟩
    · exact .same ((own_workflowStep env).spot hq)
  | @raises r w hw text =>
    by_cases hq : q = r
    · subst hq
      exact goes_raised hw text
    · exact .same ((own_raised r s w text).spot hq)
  | crashes hr hw =>
    rw [State.spot.eq_1 s', hr, hw, Dict.get?_mapValues]
    cases hw : s.workflows.get? q with
    | none => exact .same (by simp [State.spot, hw])
    | some w =>
      rw [spot_of_workflow hw]
      refine .moves _ _ ?_ (.inr ?_) <;>
        cases hpc : w.pc <;> simp [Workflow.recover, hpc, Pc.early, Pc.choice]
  | kills _ hrow hopen hstate hr hw => exact goes_stopped hrow hopen hstate hr hw

end Steps

/-! ## The head of the queue -/

instance total_requestedBefore : Std.Total requestedBefore :=
  ⟨fun a b => by unfold requestedBefore; omega⟩

instance trans_requestedBefore : IsTrans _ requestedBefore :=
  ⟨fun a b c => by unfold requestedBefore; omega⟩

def First (s : State) (q : ℕ) (row : AgentRunRow) : Prop :=
  ∀ p row', s.runs.get? p = some row' → row'.Waits →
    requestedBefore (q, row) (p, row')

theorem assignedOn_eq (s : State) (node : ℕ) : assignedOn s node
    = s.runs.total fun _ row => if row.activeOn node then 1 else 0 := by
  rw [← Dict.sum_filter s.runs (fun x => x.2.activeOn node) fun _ => 1]
  simp [assignedOn]

theorem mem_waiting {s : State} {p : ℕ} {row : AgentRunRow} :
    (p, row) ∈ waiting s ↔ s.runs.get? p = some row ∧ row.Waits := by
  rw [waiting, List.mem_filter, Dict.mem_items]
  simp [AgentRunRow.Waits]

theorem chooseStudio_spec {cfg : Settings} {s : State} {q n : ℕ} {env : StepEnv}
    (h : chooseStudio cfg s q env = some n) :
    ∃ row, s.runs.get? q = some row ∧ row.Waits ∧ First s q row
      ∧ assignedOn s n < cfg.runConcurrencyCap := by
  unfold chooseStudio at h
  split at h
  · exact nomatch h
  split at h
  · exact nomatch h
  rename_i hhead
  obtain ⟨⟨p, row⟩, hx, rfl⟩ := Option.map_eq_some_iff.mp (not_not.mp hhead)
  obtain ⟨rest, hsort⟩ := List.head?_eq_some_iff.mp hx
  have hmem {x : ℕ × AgentRunRow} : x ∈ (p, row) :: rest ↔ x ∈ waiting s := by
    rw [← hsort]
    exact List.mem_insertionSort _
  have hsorted := List.pairwise_insertionSort requestedBefore (waiting s)
  rw [hsort, List.pairwise_cons] at hsorted
  obtain ⟨hrow, hwait⟩ := mem_waiting.mp (hmem.mp List.mem_cons_self)
  refine ⟨row, hrow, hwait, fun p' row' hrow' hwait' => ?_, ?_⟩
  · rcases List.mem_cons.mp (hmem.mpr (mem_waiting.mpr ⟨hrow', hwait'⟩)) with h | h
    · rw [h]
      exact .inr ⟨rfl, le_rfl⟩
    · exact hsorted.1 _ h
  · obtain ⟨x, hx, rfl⟩ := Option.map_eq_some_iff.mp h
    have hroom := (List.mem_filter.mp ((List.mem_insertionSort _).mp
      (List.mem_of_find?_eq_some hx))).2
    simp only [Bool.and_eq_true, decide_eq_true_eq] at hroom
    -- The run to place is not counted, but it has no node.
    have hcount : assignedOn s x.1 = activeOn s p x.1 := by
      refine congrArg List.length (List.filter_congr fun y hy => ?_)
      by_cases hp : y.1 = p
      · have hy := Dict.mem_items.mp hy
        rw [hp, hrow] at hy
        cases hy
        simp [AgentRunRow.activeOn, hwait.1]
      · simp [AgentRunRow.activeOn, hp]
    exact hcount ▸ hroom.2

/-! ## The invariant -/

structure Fair (cfg : Settings) (s : State) : Prop where
  /-- A run whose workflow is in `place_run` waits, or is to be killed or over. -/
  early : ∀ p row, s.runs.get? p = some row → (s.spot p).early = true →
    row.state = .queued ∨ row.state = .placing ∨ row.state = .killRequested
      ∨ row.state.terminal = true
  room : ∀ n, assignedOn s n ≤ cfg.runConcurrencyCap
  /-- An open choice is for the first of the runs that wait, or not to be
  committed. -/
  pending : ∀ p n, (s.spot p).choice = some n → ∃ row, s.runs.get? p = some row
    ∧ (row.Waits → First s p row ∧ assignedOn s n < cfg.runConcurrencyCap)

/-- A run is requested without a node, and after the others. -/
def InOrder (s : State) : Label → Prop
  | .request r evaluation node t _ => s.runs.get? r = none →
    (if evaluation then node else none) = none
      ∧ ∀ x ∈ s.runs.items, x.2.requestedAt < t
  | _ => True

inductive Ages (cfg : Settings) (s s' : State) (q : ℕ) (row' : AgentRunRow) : Prop
  | fresh (hrow : s.runs.get? q = none) (hnode : row'.nodeId = none)
      (hstate : row'.state = .queued)
      (hlast : ∀ p row, s.runs.get? p = some row → row.requestedAt < row'.requestedAt)
  | kept (row : AgentRunRow) (hrow : s.runs.get? q = some row)
      (hnode : row'.nodeId = row.nodeId) (hat : row'.requestedAt = row.requestedAt)
      (hterm : row.state.terminal = true → row'.state.terminal = true)
      (hwaits : row'.Waits → row.Waits)
  | assigned (row : AgentRunRow) (n : ℕ) (hrow : s.runs.get? q = some row)
      (hwaits : row.Waits) (hfirst : First s q row)
      (hroom : assignedOn s n < cfg.runConcurrencyCap)
      (hnode : row'.nodeId = some n) (hat : row'.requestedAt = row.requestedAt)
      (hchoice : (s'.spot q).choice = none)

section Invariant

variable {cfg : Settings} {s : State} {a : Label} {p q n : ℕ} {row row' : AgentRunRow}

theorem First.unique (hrow : s.runs.get? q = some row) (hwait : row.Waits)
    (h : First s q row) (hrow' : s.runs.get? p = some row') (hwait' : row'.Waits)
    (h' : First s p row') : p = q := by
  have := h p row' hrow' hwait'
  have := h' q row hrow hwait
  unfold requestedBefore at *
  omega

theorem Fair.waits (h : Fair cfg s) (hrow : s.runs.get? q = some row)
    (hearly : (s.spot q).early = true) (hopen : row.state.terminal = false)
    (hkill : row.state ≠ .killRequested) (hnode : row.nodeId = none) : row.Waits := by
  have := h.early q row hrow hearly
  grind [AgentRunRow.Waits]

theorem Fair.ages (h : Fair cfg s) (hin : InOrder s a)
    (hq : (step cfg s a).runs.get? q = some row') :
    Ages cfg s (step cfg s a) q row' := by
  have hgoes := step_goes cfg s a q
  have hwaits (row : AgentRunRow) := @Fair.waits cfg s q row h
  have hpend := h.pending q
  generalize hx' : (step cfg s a).spot q = x' at hgoes
  have hq : x'.row = some row' := by rw [← hx']; exact hq
  cases hgoes with
  | moves | chosen => exact .kept row' hq rfl rfl id id
  | requested hrow row hfresh =>
    cases hq
    obtain ⟨evaluation, node, t, write, rfl, rfl⟩ := hfresh
    obtain ⟨hnode, hlast⟩ := hin hrow
    exact .fresh hrow hnode rfl fun p row hp => hlast (p, row) (Dict.mem_items.mpr hp)
  | stopped row row'' hrow hnode hat hopen hstate =>
    cases hq
    refine .kept row hrow hnode hat (by simp [hopen]) ?_
    grind [AgentRunRow.Waits, AgentRunState.terminal]
  | advanced row hrow hearly hopen hkill =>
    cases hq
    exact .kept row hrow rfl rfl (by simp [hopen]) fun hw =>
      hwaits row hrow hearly hopen hkill hw.1
  | executed row row'' hrow h =>
    cases hq
    obtain ⟨hnode, hat, hstate⟩ := h
    refine .kept row hrow hnode hat ?_ ?_ <;> grind [AgentRunRow.Waits]
  | committed row node hrow hearly hchoice hnode hopen hkill =>
    cases hq
    have hwait := hwaits row hrow hearly hopen hkill hnode
    obtain ⟨row'', hrow'', hfirst⟩ := hpend node hchoice
    cases hrow.symm.trans hrow''
    exact .assigned row node hrow hwait (hfirst hwait).1 (hfirst hwait).2 rfl rfl
      (by rw [hx'])

theorem exists_first (s : State) : ∃ q, ∀ p row, s.runs.get? p = some row →
    row.Waits → First s p row → p = q := by
  by_cases h : ∃ q row, s.runs.get? q = some row ∧ row.Waits ∧ First s q row
  · obtain ⟨q, row, hrow, hwait, hfirst⟩ := h
    exact ⟨q, fun p row' hrow' hwait' hfirst' =>
      hfirst.unique hrow hwait hrow' hwait' hfirst'⟩
  · exact ⟨0, fun p row hrow hwait hfirst => absurd ⟨p, row, hrow, hwait, hfirst⟩ h⟩

theorem assignedOn_step (h : ∀ p row', (step cfg s a).runs.get? p = some row' →
      Ages cfg s (step cfg s a) p row')
    (hfirst : ∀ p row, s.runs.get? p = some row → row.Waits → First s p row → p = q)
    (n : ℕ) : assignedOn (step cfg s a) n ≤ assignedOn s n
      ∨ assignedOn (step cfg s a) n ≤ assignedOn s n + 1
        ∧ assignedOn s n < cfg.runConcurrencyCap
        ∧ ((step cfg s a).spot q).choice = none := by
  let weigh (_ : ℕ) (row : AgentRunRow) : ℕ := if row.activeOn n then 1 else 0
  have hothers : (step cfg s a).runs.total (fun j row => if j = q then 0 else weigh j row)
      ≤ s.runs.total (fun j row => if j = q then 0 else weigh j row) := by
    refine Dict.total_le_total fun p row' hp => ?_
    cases h p row' hp with
    | fresh hrow hnode => simp [weigh, AgentRunRow.activeOn, hnode]
    | kept row hrow hnode hat hterm =>
      rw [Dict.weight_of_get? hrow]
      grind [AgentRunRow.activeOn]
    | assigned row m hrow hwaits hf =>
      rw [if_pos (hfirst p row hrow hwaits hf)]
      exact Nat.zero_le _
  rw [assignedOn_eq, assignedOn_eq, Dict.total_split _ _ q, Dict.total_split s.runs _ q]
  cases hq : (step cfg s a).runs.get? q with
  | none => grind [Dict.weight]
  | some row' =>
    rw [Dict.weight_of_get? hq]
    cases h q row' hq with
    | fresh hrow hnode => grind [AgentRunRow.activeOn]
    | kept row hrow hnode hat hterm =>
      rw [Dict.weight_of_get? hrow]
      grind [AgentRunRow.activeOn]
    | assigned row m hrow hwaits hf hroom hnode hat hchoice =>
      rw [assignedOn_eq, Dict.total_split _ _ q] at hroom
      grind [AgentRunRow.activeOn]

theorem Fair.step (h : Fair cfg s) (hin : InOrder s a) :
    Fair cfg (AgentRuns.step cfg s a) where
  early q row' hq hearly := by
    have hgoes := step_goes cfg s a q
    have hold (row : AgentRunRow) := h.early q row
    generalize hx' : (AgentRuns.step cfg s a).spot q = x' at hgoes hearly
    have hq : x'.row = some row' := by rw [← hx']; exact hq
    cases hgoes with
    | moves early choice he => exact hold row' hq (he hearly)
    | chosen node hn he => exact hold row' hq he
    | requested hrow row hfresh =>
      cases hq
      obtain ⟨_, _, _, _, -, rfl⟩ := hfresh
      exact .inl rfl
    | stopped row row'' hrow hnode hat hopen hstate =>
      cases hq
      exact .inr (.inr hstate)
    | advanced row hrow =>
      cases hq
      exact .inr (.inl rfl)
    | executed => cases hearly
    | committed row node hrow he =>
      cases hq
      exact hold row hrow he
  room n := by
    obtain ⟨q, hq⟩ := exists_first s
    have := assignedOn_step (fun _ _ => h.ages hin) hq n
    have := h.room n
    omega
  pending p n hchoice := by
    obtain ⟨row', hrow', hbefore⟩ : ∃ row', (AgentRuns.step cfg s a).runs.get? p = some row'
        ∧ (row'.Waits → s.runs.get? p = some row' ∧ First s p row'
          ∧ assignedOn s n < cfg.runConcurrencyCap) := by
      have hgoes := step_goes cfg s a p
      have hpend := h.pending p n
      generalize hx' : (AgentRuns.step cfg s a).spot p = x' at hgoes hchoice
      rw [show (AgentRuns.step cfg s a).runs.get? p = x'.row by rw [← hx']; rfl]
      cases hgoes with
      | moves early choice he hc =>
        rcases hc with hc | hc
        · obtain ⟨row, hrow, hf⟩ := hpend (hc.symm.trans hchoice)
          exact ⟨row, hrow, fun hw => ⟨hrow, hf hw⟩⟩
        · cases hc.symm.trans hchoice
      | chosen node hn =>
        cases hchoice
        obtain ⟨env, hn⟩ := hn
        obtain ⟨row, hrow, -, hf⟩ := chooseStudio_spec hn
        exact ⟨row, hrow, fun _ => ⟨hrow, hf⟩⟩
      | requested hrow row =>
        obtain ⟨row, hrow', -⟩ := hpend hchoice
        cases hrow.symm.trans hrow'
      | stopped row row' hrow hnode hat hopen hstate =>
        exact ⟨row', rfl, by grind [AgentRunRow.Waits, AgentRunState.terminal]⟩
      | _ => cases hchoice
    refine ⟨row', hrow', fun hwait => ?_⟩
    obtain ⟨hrow, hfirst, hroom⟩ := hbefore hwait
    constructor
    · intro q row'' hq hw
      cases h.ages hin hq with
      | fresh hnone hnode hstate hlast => exact .inl (hlast p row' hrow)
      | kept row hold hnode hat hterm hwaits =>
        have := hfirst q row hold (hwaits hw)
        grind [requestedBefore]
      | assigned row m hold hwaits hf hr hnode =>
        cases hnode.symm.trans hw.1
    · have := assignedOn_step (fun _ _ => h.ages hin)
        (fun q row hq hw hf => hfirst.unique hrow hwait hq hw hf) n
      grind

/-! ## The cap and the order -/

/-- No run is assigned while one that was requested before it waits. -/
def Orderly (cfg : Settings) (s : State) (a : Label) : Prop :=
  ∀ q row' n, (AgentRuns.step cfg s a).runs.get? q = some row' →
    row'.nodeId = some n →
    (∀ row, s.runs.get? q = some row → row.nodeId = none) →
    ∀ p row, s.runs.get? p = some row → row.Waits →
      ¬ row.requestedAt < row'.requestedAt

theorem Fair.orderly (h : Fair cfg s) (hin : InOrder s a) : Orderly cfg s a := by
  intro q row' n hq hnode hold p row hp hw
  cases h.ages hin hq with
  | fresh hrow hnone => exact nomatch hnone.symm.trans hnode
  | kept row hrow hsame =>
    exact nomatch (hold row hrow).symm.trans (hsame.symm.trans hnode)
  | assigned row'' m hrow hwaits hfirst hroom hnode hat =>
    have := hfirst p row hp hw
    grind [requestedBefore]

theorem Fair.init : Fair cfg State.init where
  early _ _ := nofun
  room _ := Nat.zero_le _
  pending _ _ := nofun

end Invariant

/-- **The cap and the queue of the runs.** -/
theorem cap_and_order_respected (cfg : Settings) (as : List Label)
    (h : Run.Along (step cfg) InOrder State.init as) :
    Run.Throughout (step cfg) (fun s => ∀ n, assignedOn s n ≤ cfg.runConcurrencyCap)
        State.init as
      ∧ Run.Along (step cfg) (Orderly cfg) State.init as :=
  ⟨Run.throughout_of_invariant (Fair cfg) (fun _ h => h.room)
      (fun _ _ h hin => h.step hin) Fair.init h,
    Run.along_of_invariant (Fair cfg) (fun _ _ h hin => h.step hin)
      (fun _ _ h hin => h.orderly hin) Fair.init h⟩

/-- Two runs for one Studio, and the workflow of the second goes first. -/
def twoRuns : List Label :=
  [.registry 0 ⟨"studio", true, true, 0, true⟩, .request 0 false none 1 false,
    .request 1 false none 2 false, .scanRuns, .startWorkflow 1, .startWorkflow 0,
    .workflow 1 calm, .workflow 1 calm, .workflow 1 calm, .workflow 0 calm,
    .workflow 0 calm, .workflow 0 calm, .workflow 0 calm]

theorem cap_and_order_two_runs :
    assignedOn (Run.last (step oneStudio) State.init twoRuns) 0 = 1
      ∧ Run.Throughout (step oneStudio) (fun s => ∀ n, assignedOn s n ≤ 1)
        State.init twoRuns
      ∧ Run.Along (step oneStudio) (Orderly oneStudio) State.init twoRuns :=
  ⟨by decide +kernel, cap_and_order_respected oneStudio twoRuns
    ⟨trivial, fun _ => ⟨rfl, by decide⟩, fun _ => ⟨rfl, by decide⟩, trivial, trivial,
      trivial, trivial, trivial, trivial, trivial, trivial, trivial, trivial, trivial⟩⟩

end AgentRuns
