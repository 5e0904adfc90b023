import Coire.AgentRuns

/-!
# A killed run and its start

What decides whether the container of a run may still be started is little: its row, the
phase its workflow is in, its start command, and whether the ordinary lane holds that
command (`View`). `Change` says once what a step of the system can do to them, and every
step does one of these things (`step_change`).

A run that is killed must be silent: its start command is not open, the lane does not
hold it, and it either exists – so that it is not created any more – or the workflow is
not executing. But the two transactions that refuse a command look for a kill that is
*requested*, and the kill workflow finishes whatever the workflow of the run and the
lane are at, so that a run can be killed and not silent.
-/

namespace AgentRuns

inductive Phase
  | placing
  /-- `place_run` has returned, and the run is not executed yet. -/
  | returned
  | executing
  | finishing
  deriving DecidableEq

def Pc.phase : Pc → Phase
  | .place .returning | .placed => .returned
  | .place .advance | .place .check | .place .choose
  | .place (.commit _) => .placing
  | .execute _ => .executing
  | .finalize _ _ _ | .done => .finishing

structure View where
  row : Option AgentRunRow
  phase : Option Phase
  start : Option RunCommandRow
  /-- The ordinary lane holds the start command. -/
  atStart : Bool
  /-- The dispatcher is about to start the workflow. -/
  scanned : Bool

def State.view (s : State) (r : ℕ) : View :=
  ⟨s.runs.get? r, (s.workflows.get? r).map fun w => w.pc.phase,
    s.commands.get? ⟨r, .start⟩, s.lane.any fun t => t.1 = ⟨r, .start⟩,
    s.scannedRuns.contains r⟩

/-- **Nothing is left that could start the run.** -/
def View.Silent (v : View) : Prop :=
  v.start.any (fun c => c.state.isOpen) = false ∧ v.atStart = false
    ∧ (v.start.isSome = true ∨ v.phase ≠ some .executing)

instance (v : View) : Decidable v.Silent :=
  inferInstanceAs (Decidable (_ ∧ _ ∧ _))

/-! ## What a step can do -/

/-- What a workflow writes into the row of its run before it finalizes it. -/
structure Writes (row row' : AgentRunRow) : Prop where
  node : row.nodeId.isSome = true → row'.nodeId.isSome = true
  state : row'.state = row.state ∨ row.state.terminal = false
    ∧ row.state.stopped = false ∧ row'.state.terminal = false
    ∧ row'.state.stopped = false

theorem Writes.refl (row : AgentRunRow) : Writes row row := ⟨id, .inl rfl⟩

/-- **What a step does to the view of a run.** A kill is completed only where
the step settles it. -/
inductive Change (settles : Prop) (v : View) : View → Prop
  /-- Nothing happens, or the lane lets go of the start. -/
  | lane (b : Bool) (hb : b = true → v.atStart = true) :
    Change settles v { v with atStart := b }
  | picked (c : RunCommandRow) (hc : v.start = some c)
      (hopen : c.state.isOpen = true) :
    Change settles v { v with atStart := true }
  | carried (hat : v.atStart = true) (c c' : RunCommandRow)
      (hc : v.start = some c) (b : Bool) :
    Change settles v { v with start := some c', atStart := b }
  | requested (hrow : v.row = none) (row : AgentRunRow)
      (hstate : row.state = .queued) :
    Change settles v { v with row := some row }
  | killing (row : AgentRunRow) (hrow : v.row = some row)
      (hstate : row.state.terminal = false) :
    Change settles v { v with row := some { row with state := .killRequested } }
  /-- A run without a node is killed at once. -/
  | stopped (row : AgentRunRow) (hrow : v.row = some row)
      (hnode : row.nodeId = none) :
    Change settles v { v with row := some { row with state := .killed } }
  | settled (h : settles) (row : AgentRunRow) (hrow : v.row = some row)
      (hstate : row.state = .killRequested) :
    Change settles v { v with row := some { row with state := .killed } }
  | scans (b : Bool) (hb : b = true → v.row ≠ none) :
    Change settles v { v with scanned := b }
  | spawned (hs : v.scanned = true) (h : v.phase = none) :
    Change settles v { v with phase := some .placing }
  | restarted (p p' : Phase) (h : v.phase = some p)
      (hp : p' = p ∨ p = .returned ∧ p' = .placing) :
    Change settles v { v with phase := some p' }
  | crashed (p' : Option Phase)
      (hp : p' = v.phase ∨ v.phase = some .returned ∧ p' = some .placing) :
    Change settles v { v with phase := p', atStart := false, scanned := false }
  | placed (h : v.phase = some .placing) (row row' : AgentRunRow)
      (hrow : v.row = some row) (hw : Writes row row') (p : Phase)
      (hp : p = .placing ∨ p = .returned ∧ (row'.nodeId.isSome = true
        ∨ row'.state.stopped = true ∨ row'.state.terminal = true)) :
    Change settles v { v with row := some row', phase := some p }
  | missing (h : v.phase = some .placing) (hrow : v.row = none) (p : Phase)
      (hp : p = .placing ∨ p = .returned) :
    Change settles v { v with phase := some p }
  | entered (h : v.phase = some .returned) (row : AgentRunRow)
      (hrow : v.row = some row) (hstate : row.state.stopped = false) :
    Change settles v { v with phase := some .executing }
  | executed (h : v.phase = some .executing) (row row' : AgentRunRow)
      (hrow : v.row = some row) (hw : Writes row row') :
    Change settles v { v with row := some row' }
  | submitted (h : v.phase = some .executing) (row : AgentRunRow)
      (hrow : v.row = some row) (hnode : row.nodeId.isSome = true)
      (c : RunCommandRow) :
    Change settles v { v with start := some (v.start.getD c) }
  | finished (p : Phase) (h : v.phase = some p) :
    Change settles v { v with phase := some .finishing }
  | finalized (h : v.phase = some .finishing) (row row' : AgentRunRow)
      (hrow : v.row = some row) (hnode : row'.nodeId = row.nodeId)
      (hstate : row'.state = row.state
        ∨ row.state.terminal = false ∧ row'.state ≠ .killed) :
    Change settles v { v with row := some row' }

theorem Change.same {settles : Prop} {v v' : View} (h : v' = v) :
    Change settles v v' := by
  rw [h]
  exact Change.lane v.atStart id

theorem Change.mapRow {settles : Prop} {v : View} {f : AgentRunRow → AgentRunRow}
    (h : ∀ row, v.row = some row → Change settles v { v with row := some (f row) }) :
    Change settles v { v with row := v.row.map f } := by
  cases hrow : v.row with
  | none => exact .same (by rw [Option.map_none, ← hrow])
  | some row => exact h row hrow

theorem Change.sameRow {settles : Prop} {v : View} {row : AgentRunRow}
    (hrow : v.row = some row) : Change settles v { v with row := some row } :=
  .same (by rw [← hrow])

/-! ## Views after a write -/

section Views

variable (s : State) (r q : ℕ)

theorem view_setWorkflow (w : Workflow) : (s.setWorkflow r w).view q
      = if q = r then { s.view r with phase := some w.pc.phase }
        else s.view q := by
  unfold State.setWorkflow State.view
  rw [Dict.get?_set]
  split
  · rename_i h
    rw [h]
    rfl
  · rfl

theorem view_goto (w : Workflow) (pc : Pc) : (s.goto r w pc).view q
      = if q = r then { s.view r with phase := some pc.phase }
        else s.view q :=
  view_setWorkflow s r q _

theorem view_enter (pc : Pc) : (s.enter r pc).view q
      = if q = r then { s.view r with phase := some pc.phase }
        else s.view q :=
  view_setWorkflow s r q _

theorem view_retry (w : Workflow) (pc : Pc) : (s.retry r w pc).view q
      = if q = r then { s.view r with phase := some pc.phase }
        else s.view q :=
  view_setWorkflow s r q _

theorem view_modifyRun (f : AgentRunRow → AgentRunRow) : (s.modifyRun r f).view q
      = if q = r then { s.view r with row := (s.runs.get? r).map f }
        else s.view q := by
  unfold State.modifyRun State.view
  rw [Dict.get?_modify]
  split
  · rename_i h
    rw [h]
  · rfl

theorem view_setRun (row : AgentRunRow) : (s.setRun r row).view q
      = if q = r then { s.view r with row := some row } else s.view q := by
  unfold State.setRun State.view
  rw [Dict.get?_set]
  split
  · rename_i h
    rw [h]
  · rfl

theorem view_killGoto (pc : KillPc) : (s.killGoto r pc).view q = s.view q :=
  rfl

theorem view_commands {commands : Dict RunCommandId RunCommandRow}
    (h : commands.get? ⟨q, .start⟩ = s.commands.get? ⟨q, .start⟩) :
    { s with commands := commands }.view q = s.view q := by
  unfold State.view
  rw [h]

theorem view_addKill (row : AgentRunRow) : (s.addKill r row).view q = s.view q := by
  unfold State.addKill
  cases row.nodeId with
  | none => rfl
  | some node =>
    refine view_commands s q ?_
    rw [Dict.get?_setDefault, if_neg nofun]

variable {s r}

theorem view_submit_ne {operation : RunOperation} {s' : State}
    (h : submit s r operation = .ok s') (hq : operation ≠ .start ∨ q ≠ r) :
    s'.view q = s.view q := by
  obtain ⟨row, node, -, -, rfl⟩ := submit_ok h
  refine view_commands s q ?_
  rw [Dict.get?_setDefault, if_neg]
  rintro ⟨⟩
  exact hq.elim (· rfl) (· rfl)

theorem view_submit_start {s' : State} (h : submit s r .start = .ok s') :
    ∃ row node, s.runs.get? r = some row ∧ row.nodeId = some node
      ∧ s'.view r = { s.view r with
          start := some ((s.view r).start.getD ⟨node, .pending, .empty⟩) } := by
  obtain ⟨row, node, hrow, hnode, rfl⟩ := submit_ok h
  refine ⟨row, node, hrow, hnode, ?_⟩
  unfold State.view
  rw [Dict.get?_setDefault, if_pos rfl]

end Views

/-! ## The rows a workflow writes -/

theorem writes_advance (row : AgentRunRow) (allowed : Bool)
    {state : AgentRunState} (hterm : state.terminal = false)
    (hstop : state.stopped = false) :
    Writes row (row.advance allowed state).1 := by
  rcases advance_cases row allowed state with h | ⟨hopen, hkill, h⟩ <;> rw [h]
  · exact .refl row
  · refine ⟨id, .inr ⟨hopen, ?_, hterm, hstop⟩⟩
    cases hs : row.state <;> simp_all [AgentRunState.stopped, AgentRunState.terminal]

theorem writes_commit (cfg : Settings) (env : StepEnv) (node : ℕ) (row : AgentRunRow) :
    Writes row (row.commitRunPlacement cfg env node).1 := by
  rcases commit_cases cfg env node row with h | ⟨-, -, -, h⟩ <;> rw [h]
  · exact .refl row
  · exact ⟨fun _ => rfl, .inl rfl⟩

theorem placed_of_commit {cfg : Settings} {env : StepEnv} {node : ℕ} {row : AgentRunRow}
    (h : (row.commitRunPlacement cfg env node).2 = true) :
    (row.commitRunPlacement cfg env node).1.nodeId.isSome = true
      ∨ (row.commitRunPlacement cfg env node).1.state.stopped = true
      ∨ (row.commitRunPlacement cfg env node).1.state.terminal = true := by
  unfold AgentRunRow.commitRunPlacement at h ⊢
  split at h
  · exact nomatch h
  split at h
  · rename_i h1 h2
    rw [if_neg h1, if_pos h2]
    rw [Bool.or_eq_true, decide_eq_true_iff] at h2
    rcases h2 with h2 | h2
    · exact .inr (.inr h2)
    · exact .inr (.inl (by rw [h2]; rfl))
  split at h
  · grind
  split at h
  · exact nomatch h
  split at h
  · exact nomatch h
  · grind

theorem finalize_spec (row : AgentRunRow) (succeeded : Bool) (detail : String) :
    (row.finalize succeeded detail).nodeId = row.nodeId
      ∧ ((row.finalize succeeded detail).state = row.state ∨ row.state.terminal = false
          ∧ (row.finalize succeeded detail).state ≠ .killed) := by
  rcases finalize_cases row succeeded detail with h | ⟨hopen, code, h⟩ <;> rw [h]
  · exact ⟨rfl, .inl rfl⟩
  · exact ⟨rfl, .inr ⟨hopen, (finalState_spec succeeded detail).1⟩⟩

/-! ## Every step is one of these changes -/

section Steps

variable {cfg : Settings} {s : State} {r q : ℕ} {w : Workflow}

variable {c : RunCommandId} {s' : State}

theorem Own.view (h : Own r s s') (hq : q ≠ r) : s'.view q = s.view q := by
  unfold State.view
  rw [h.runs q hq, h.workflows q hq, h.commands ⟨q, .start⟩ hq, h.lane, h.scanned]

theorem view_phase (hw : s.workflows.get? r = some w) :
    (s.view r).phase = some w.pc.phase := by
  show (s.workflows.get? r).map _ = _
  rw [hw]
  rfl

variable {settles : Prop}

theorem change_raised (hw : s.workflows.get? r = some w) (text : String) :
    Change settles (s.view r) ((raised s r w text).view r) := by
  have hphase := view_phase hw
  have hover : Change settles (s.view r)
      { s.view r with phase := some .finishing } := .finished _ hphase
  unfold raised
  split
  · rename_i pc hpc
    split
    · rw [view_retry, if_pos rfl]
      refine .restarted _ .placing hphase ?_
      rw [hpc]
      cases pc <;> simp [Pc.phase]
    · rw [view_enter, if_pos rfl]
      exact hover
  · rw [view_enter, if_pos rfl]
    exact hover
  · rename_i pc hpc
    split
    · rw [view_retry, if_pos rfl]
      exact .restarted _ .executing hphase (.inl (by rw [hpc]; rfl))
    · rw [view_enter, if_pos rfl]
      exact hover
  · rw [view_goto, if_pos rfl]
    exact hover
  · rw [view_goto, if_pos rfl]
    exact hover
  · split
    · rw [view_retry, if_pos rfl]
      exact hover
    · rw [view_goto, if_pos rfl]
      exact hover
  · exact .same rfl

theorem change_placeStep (hw : s.workflows.get? r = some w)
    (env : StepEnv) {pc : PlacePc} (hpc : w.pc = .place pc) :
    Change settles (s.view r) ((placeStep cfg s r w env pc).view r) := by
  have hphase := view_phase hw
  rw [hpc] at hphase
  -- A step that writes the workflow only.
  have hmove : ∀ row, s.runs.get? r = some row → pc ≠ .returning →
      ∀ p, (p = .placing ∨ p = .returned ∧ (row.nodeId.isSome = true
        ∨ row.state.stopped = true ∨ row.state.terminal = true)) →
      Change settles (s.view r) { s.view r with phase := some p } := by
    intro row hrow hne p hp
    have hv : some row = (s.view r).row := hrow.symm
    show Change settles _ { s.view r with
      row := (s.view r).row, phase := some p }
    rw [← hv]
    refine .placed ?_ row row hrow (.refl row) p hp
    rw [hphase]
    cases pc <;> first | rfl | exact absurd rfl hne
  cases pc with
  | advance =>
    rw [placeStep]
    cases hrow : s.runs.get? r with
    | none =>
      simp only [view_goto, if_pos]
      exact .missing hphase hrow _ (.inl rfl)
    | some row =>
      simp only [view_goto, view_setRun, if_pos]
      refine .placed hphase row _ hrow (writes_advance row _ rfl rfl) _ (.inl ?_)
      split <;> rfl
  | check =>
    rw [placeStep]
    cases hrow : s.runs.get? r with
    | none =>
      simp only [view_goto, if_pos]
      exact .missing hphase hrow _ (.inr rfl)
    | some row =>
      simp only
      split
      · rename_i hs
        rw [view_goto, if_pos rfl]
        exact hmove row hrow nofun _ (.inr ⟨rfl, .inr (.inl hs)⟩)
      split
      · rename_i he
        split
        · rw [view_goto, if_pos rfl]
          rw [Bool.and_eq_true] at he
          exact hmove row hrow nofun _ (.inr ⟨rfl, .inl he.2⟩)
        · exact change_raised hw _
      · rw [view_goto, if_pos rfl]
        exact hmove row hrow nofun _ (.inl rfl)
  | choose =>
    rw [placeStep]
    split
    all_goals
      rw [view_goto, if_pos rfl]
      exact .restarted _ .placing hphase (.inl rfl)
  | commit node =>
    rw [placeStep]
    cases hrow : s.runs.get? r with
    | none =>
      simp only [view_goto, if_pos]
      refine .missing hphase hrow _ ?_
      split
      · exact .inl rfl
      · exact .inr rfl
    | some row =>
      simp only [view_goto, view_setRun, if_pos]
      refine .placed hphase row _ hrow (writes_commit cfg env node row) _ ?_
      split
      · rename_i hdone
        exact .inr ⟨rfl, placed_of_commit hdone⟩
      · exact .inl rfl
  | returning =>
    rw [placeStep]
    rw [view_enter, if_pos rfl]
    exact .restarted _ .returned hphase (.inl rfl)

theorem change_executeStep (hw : s.workflows.get? r = some w)
    (env : StepEnv) {pc : ExecutePc} (hpc : w.pc = .execute pc) :
    Change settles (s.view r) ((executeStep s r w env pc).view r) := by
  have hphase : (s.view r).phase = some .executing := by
    rw [view_phase hw, hpc]
    rfl
  have hp : some Phase.executing = (s.view r).phase := hphase.symm
  have hstay : Change settles (s.view r) { s.view r with phase := some .executing } :=
    .restarted _ _ hphase (.inl rfl)
  -- A step that writes the row and stays in the phase.
  have hwrite : ∀ f : AgentRunRow → AgentRunRow, (∀ row, Writes row (f row)) →
      Change settles (s.view r) { s.view r with
        row := (s.runs.get? r).map f, phase := some .executing } := by
    intro f hf
    rw [hp]
    exact .mapRow fun row hrow => .executed hphase row (f row) hrow (hf row)
  cases pc with
  | submit operation current waited =>
    rw [executeStep]
    split
    · exact change_raised hw _
    rename_i s' hs
    rw [view_goto, if_pos rfl]
    by_cases hop : operation = .start
    · subst hop
      obtain ⟨row, node, hrow, hnode, hview⟩ := view_submit_start hs
      rw [hview]
      show Change settles _ { s.view r with
        phase := some Phase.executing, start := some _ }
      rw [hp]
      exact .submitted hphase row hrow (by rw [hnode]; rfl) _
    · rw [view_submit_ne r hs (.inl hop)]
      exact hstay
  | await operation current waited =>
    rw [executeStep]
    repeat' split
    all_goals first
      | exact .same rfl
      | exact change_raised hw _
      | rw [view_goto, if_pos rfl]; exact hstay
  | creating | running | collecting =>
    simp only [executeStep, view_goto, view_modifyRun, if_pos]
    exact hwrite _ fun row => writes_advance row _ rfl rfl
  | store | record =>
    simp only [executeStep, view_goto, view_modifyRun, if_pos]
    exact hwrite _ fun _ => ⟨id, .inl rfl⟩
  | returning detail =>
    rw [executeStep]
    rw [view_enter, if_pos rfl]
    exact .finished _ hphase
  | begin | observe | artifact =>
    rw [executeStep]
    rw [view_goto, if_pos rfl]
    exact hstay

theorem change_finalizeStep
    (hw : s.workflows.get? r = some w) {succeeded : Bool} {detail : String}
    {pc : FinalizePc} (hpc : w.pc = .finalize succeeded detail pc) :
    Change settles (s.view r) ((finalizeStep s r w succeeded detail pc).view r) := by
  have hphase := view_phase hw
  rw [hpc] at hphase
  have hstay : Change settles (s.view r)
      { s.view r with phase := some .finishing } := .finished _ hphase
  cases pc with
  | settle =>
    rw [finalizeStep]
    cases hrow : s.runs.get? r with
    | none =>
      simp only [view_goto, if_pos]
      exact hstay
    | some row =>
      simp only [view_goto, view_setRun, if_pos]
      have hp : some Phase.finishing = (s.view r).phase := hphase.symm
      have hspec := finalize_spec row succeeded detail
      show Change settles _ { s.view r with
        row := some _, phase := some Phase.finishing }
      rw [hp]
      exact .finalized hphase row _ hrow hspec.1 hspec.2
  | submitRemove =>
    rw [finalizeStep]
    split
    · rw [view_goto, if_pos rfl]
      exact hstay
    · rename_i s' hs
      rw [view_goto, if_pos rfl, view_submit_ne r hs (.inl nofun)]
      exact hstay
  | awaitRemove =>
    rw [finalizeStep]
    split
    · exact .same rfl
    all_goals
      rw [view_goto, if_pos rfl]
      exact hstay
  | activity | reconcileChat | returning =>
    rw [finalizeStep]
    rw [view_goto, if_pos rfl]
    exact hstay

theorem change_workflowStep (hw : s.workflows.get? r = some w) (env : StepEnv) :
    Change settles (s.view q) ((workflowStep cfg s r w env).view q) := by
  by_cases hq : q = r
  · subst hq
    unfold workflowStep
    split
    · rename_i hpc
      exact change_placeStep hw env hpc
    · rename_i hpc
      have hphase := view_phase hw
      rw [hpc] at hphase
      split
      · rw [view_goto, if_pos rfl]
        exact .finished _ hphase
      rename_i row hrow
      split
      · rw [view_goto, if_pos rfl]
        exact .finished _ hphase
      · rename_i hs
        rw [view_enter, if_pos rfl]
        exact .entered hphase row hrow (Bool.eq_false_of_not_eq_true hs)
    · rename_i hpc
      exact change_executeStep hw env hpc
    · rename_i hpc
      exact change_finalizeStep hw hpc
    · exact .same rfl
  · exact .same ((own_workflowStep env).view hq)

/-! ### The kill -/

theorem change_transition_killRequested {row row' : AgentRunRow}
    (hrow : s.runs.get? r = some row)
    (h : row.transition .killRequested = some row') :
    Change settles (s.view r) { s.view r with row := some row' } := by
  unfold AgentRunRow.transition at h
  split at h
  · exact nomatch h
  rename_i hterm
  split at h
  · exact nomatch h
  · cases h
    exact .killing row hrow (Bool.eq_false_of_not_eq_true hterm)

theorem change_killRun : Change settles (s.view q) ((killRun s r).view q) := by
  unfold killRun
  split
  · exact .same rfl
  rename_i row hrow
  split
  · exact .same rfl
  rename_i row' h
  rw [view_addKill, view_setRun]
  split
  · rename_i hq
    rw [hq]
    exact change_transition_killRequested hrow h
  · exact .same rfl

theorem change_requestCodingKill :
    Change settles (s.view q) ((requestCodingKill s r).view q) := by
  unfold requestCodingKill
  split
  · exact .same rfl
  rename_i row hrow
  split
  · exact .same rfl
  rename_i hterm
  split
  · rw [view_addKill, view_setRun]
    split
    · rename_i hq
      rw [hq]
      exact .killing row hrow (Bool.eq_false_of_not_eq_true hterm)
    · exact .same rfl
  · rename_i hnode
    rw [view_setRun]
    split
    · rename_i hq
      rw [hq]
      exact .stopped row hrow (by simpa using hnode)
    · exact .same rfl

theorem change_stopChild : Change settles (s.view q) ((stopChild s r).view q) := by
  unfold stopChild
  rw [view_modifyRun]
  split
  · rename_i hq
    subst hq
    refine .mapRow fun row hrow => ?_
    split
    · rename_i h
      exact .killing row hrow h.1
    · exact .sameRow hrow
  · exact .same rfl

theorem change_killStep (pc : KillPc) (h : pc = .settle → q = r → settles) :
    Change settles (s.view q) ((killStep s r pc).view q) := by
  cases pc with
  | submit =>
    rw [killStep]
    split
    · exact .same (view_killGoto ..)
    · rename_i s' hs
      rw [view_killGoto, view_submit_ne q hs (.inl nofun)]
      exact .same rfl
  | settle =>
    rw [killStep, view_killGoto, view_modifyRun]
    split
    · rename_i hq
      subst hq
      refine .mapRow fun row hrow => ?_
      split
      · rename_i hkill
        have hrun : row.transition .killed = some { row with state := .killed } := by
          unfold AgentRunRow.transition
          rw [hkill]
          rfl
        rw [hrun]
        exact .settled (h rfl rfl) row hrow hkill
      · exact .sameRow hrow
    · exact .same rfl
  | check | await =>
    rw [killStep]
    repeat' split
    all_goals exact .same rfl
  | activity | reconcileChat | done | error => exact .same rfl

/-! ### The executor -/

theorem Executes.view {s : State}
    (h : Executes s s' c) (hc : c ≠ ⟨q, .start⟩) : s'.view q = s.view q := by
  unfold State.view
  rw [h.runs, h.workflows, h.lane, h.scanned, h.other _ (Ne.symm hc)]

theorem change_lane {pc : TaskPc} (hlane : s.lane = some (c, pc)) (h : Executes s s' c)
    (pc' : Option TaskPc) :
    Change settles (s.view q)
      ({ s' with lane := pc'.map fun pc => (c, pc) }.view q) := by
  have hat : (s.view q).atStart = decide (c = ⟨q, .start⟩) := by
    show s.lane.any _ = _
    rw [hlane]
    rfl
  by_cases hc : c = ⟨q, .start⟩
  · subst hc
    have hat' : (s.view q).atStart = true := hat.trans (by simp)
    rcases h.own with hown | ⟨old, new, hold, hnew⟩
    · have hv : s'.view q = s.view q := by
        unfold State.view
        rw [h.runs, h.workflows, h.lane, h.scanned, hown]
      show Change settles _ { s'.view q with atStart := _ }
      rw [hv]
      exact .lane _ fun _ => hat'
    · have hv : s'.view q = { s.view q with start := some new } := by
        unfold State.view
        rw [h.runs, h.workflows, h.lane, h.scanned, hnew]
      show Change settles _ { s'.view q with atStart := _ }
      rw [hv]
      exact .carried hat' old new hold _
  · show Change settles _ { s'.view q with atStart := _ }
    rw [h.view hc]
    refine .lane _ fun hb => ?_
    cases pc' with
    | none => exact nomatch hb
    | some pc => exact absurd (of_decide_eq_true hb) hc

theorem nextCommand_spec (h : nextCommand s = some c) :
    ∃ command, s.commands.get? c = some command
      ∧ command.state.isOpen = true ∧ c.operation ≠ .kill := by
  obtain ⟨⟨c', command⟩, hfind, rfl⟩ := Option.map_eq_some_iff.mp h
  have hp := List.find?_some hfind
  rw [Bool.and_eq_true, bne_iff_ne] at hp
  exact ⟨command, Dict.mem_items.mp (List.mem_of_find?_eq_some hfind), hp.2, hp.1⟩

theorem change_next : Change settles (s.view q)
      ({ s with lane := (nextCommand s).map fun c => (c, .picked) }.view q) := by
  show Change settles _ { s.view q with atStart := _ }
  cases hnext : nextCommand s with
  | none => exact .lane _ nofun
  | some c =>
    obtain ⟨command, hc, hopen, -⟩ := nextCommand_spec hnext
    by_cases hq : c = ⟨q, .start⟩
    · show Change settles _ { s.view q with
        atStart := decide (c = ⟨q, .start⟩) }
      rw [decide_eq_true hq]
      subst hq
      exact .picked command hc hopen
    · exact .lane _ fun hb => absurd (of_decide_eq_true hb) hq

theorem phase_recover (w : Workflow) : w.recover.pc.phase = w.pc.phase
      ∨ w.pc.phase = .returned ∧ w.recover.pc.phase = .placing := by
  obtain ⟨pc, attempt⟩ := w
  cases pc with
  | place pc =>
    cases pc with
    | returning => exact .inr ⟨rfl, rfl⟩
    | _ => exact .inl rfl
  | _ => exact .inl rfl

def settling (s : State) : Label → Option ℕ
  | .killWorkflow r =>
    if s.killWorkflows.get? r = some .settle then some r else none
  | _ => none

theorem step_change (cfg : Settings) (s : State) (a : Label) (q : ℕ) :
    Change (settling s a = some q) (s.view q) ((step cfg s a).view q) := by
  cases a with
  | request r evaluation node requestedAt write =>
    show Change _ _ { s.view q with row := (s.runs.setDefault r _).get? q }
    rw [Dict.get?_setDefault]
    split
    · rename_i hq
      subst hq
      cases hrow : s.runs.get? q with
      | none => exact .requested hrow _ rfl
      | some row => exact .sameRow hrow
    · exact .same rfl
  | workflow r env =>
    rw [step]
    split
    · exact .same rfl
    · rename_i w hw
      exact change_workflowStep hw env
  | raise r text =>
    rw [step]
    split
    · exact .same rfl
    rename_i w hw
    by_cases hq : q = r
    · subst hq
      exact change_raised hw text
    · exact .same ((own_raised r s w text).view hq)
  | startWorkflow r =>
    rw [step]
    split
    · rename_i hscan
      show Change _ _ { s.view q with
        phase := ((s.workflows.setDefault r _).get? q).map _ }
      rw [Dict.get?_setDefault]
      split
      · rename_i hq
        subst hq
        cases hw : s.workflows.get? q with
        | none =>
          refine .spawned (List.contains_iff_mem.mpr hscan) ?_
          show (s.workflows.get? q).map _ = none
          rw [hw]
          rfl
        | some w =>
          refine .same ?_
          rw [Option.getD_some, ← hw]
          rfl
      · exact .same rfl
    · exact .same rfl
  | crash =>
    show Change _ _ { s.view q with
      phase := ((s.workflows.mapValues _).get? q).map _, atStart := false,
      scanned := false }
    refine .crashed _ ?_
    show _ = (s.workflows.get? q).map _ ∨ (s.workflows.get? q).map _ = _ ∧ _
    rw [Dict.get?_mapValues]
    cases s.workflows.get? q with
    | none => exact .inl rfl
    | some w =>
      rcases phase_recover w with h | ⟨h, h'⟩
      · exact .inl (congrArg some h)
      · exact .inr ⟨congrArg some h, congrArg some h'⟩
  | scanRuns =>
    refine .scans _ fun h => ?_
    obtain ⟨x, hx, rfl⟩ := List.mem_map.mp (List.contains_iff_mem.mp h)
    rw [show (s.view x.1).row = some x.2 from
      Dict.mem_items.mp (List.mem_of_mem_filter hx)]
    nofun
  | killRun r => exact change_killRun
  | requestCodingKill r => exact change_requestCodingKill
  | stopChild r => exact change_stopChild
  | killWorkflow r =>
    rw [step]
    split
    · exact .same rfl
    · rename_i pc hpc
      refine change_killStep pc fun h hq => ?_
      rw [settling, hpc, h, hq, if_pos rfl]
  | killRaise r =>
    rw [step]
    split <;> exact .same rfl
  | next =>
    rw [step]
    split
    · exact .same rfl
    · exact change_next
  | lane event =>
    rw [step]
    split
    · exact .same rfl
    · rename_i c pc hlane
      exact change_lane hlane (executes_executeCommand s c pc event) _
  | killTask r event =>
    rw [step]
    split
    · exact .same rfl
    rename_i t ht
    have hview := (executes_executeCommand s ⟨r, .kill⟩ t.pc event).view (q := q) nofun
    simp only
    split
    · exact .same hview
    · exact .same hview
  | startKill r =>
    rw [step]
    split <;> exact .same rfl
  | registry node row | scanKills | enqueueKills => exact .same rfl

end Steps

/-! ## The invariant -/

/-- **What holds of the view of a run in every state reached.** -/
structure Tame (v : View) : Prop where
  known : v.phase ≠ none ∨ v.scanned = true → v.row ≠ none
  executing : v.phase = some .executing →
    ∃ row, v.row = some row ∧ row.nodeId.isSome = true
  returned : v.phase = some .returned → ∀ row, v.row = some row →
    row.nodeId.isSome = true ∨ row.state.stopped = true
  early : v.phase ≠ some .finishing → ∀ row, v.row = some row →
    row.state.terminal = true → row.state = .killed
  started : v.start.isSome = true →
    ∃ row, v.row = some row ∧ row.nodeId.isSome = true
  lane : v.atStart = true → v.start.isSome = true
  silent : ∀ row, v.row = some row → row.state = .killed → v.Silent

theorem Tame.init (r : ℕ) : Tame (State.init.view r) where
  known h := h.elim (absurd rfl) nofun
  executing := nofun
  returned := nofun
  early _ _ := nofun
  started := nofun
  lane := nofun
  silent _ := nofun

theorem Writes.eq_of_terminal {row row' : AgentRunRow} (h : Writes row row')
    (hk : row'.state.terminal = true) : row'.state = row.state := by
  rcases h.state with hs | ⟨-, -, hs, -⟩
  · exact hs
  · rw [hs] at hk
    exact nomatch hk

section Invariant

variable {settles : Prop} {v v' : View}

theorem Tame.setRow (h : Tame v) {row row' : AgentRunRow} (hrow : v.row = some row)
    (hnode : row.nodeId.isSome = true → row'.nodeId.isSome = true)
    (hret : v.phase = some .returned →
      row'.nodeId.isSome = true ∨ row'.state.stopped = true)
    (hearly : v.phase ≠ some .finishing → row'.state.terminal = true →
      row'.state = .killed)
    (hsil : row'.state = .killed → v.Silent) :
    Tame { v with row := some row' } where
  known _ := nofun
  executing hp := by
    obtain ⟨old, hr, hn⟩ := h.executing hp
    cases hrow.symm.trans hr
    exact ⟨row', rfl, hnode hn⟩
  returned hp new hr := by
    cases hr
    exact hret hp
  early hp new hr := by
    cases hr
    exact hearly hp
  started hs := by
    obtain ⟨old, hr, hn⟩ := h.started hs
    cases hrow.symm.trans hr
    exact ⟨row', rfl, hnode hn⟩
  lane := h.lane
  silent new hr hk := by
    cases hr
    exact hsil hk

theorem Tame.setPhase (h : Tame v) {p : Phase} (hrow : v.row ≠ none)
    (hexec : p = .executing → ∃ row, v.row = some row ∧ row.nodeId.isSome = true)
    (hret : p = .returned → ∀ row, v.row = some row →
      row.nodeId.isSome = true ∨ row.state.stopped = true)
    (hearly : p ≠ .finishing → v.phase ≠ some .finishing)
    (hsil : ∀ row, v.row = some row → row.state = .killed → p = .executing →
      v.phase = some .executing) :
    Tame { v with phase := some p } where
  known _ := hrow
  executing hp := hexec (Option.some.inj hp)
  returned hp := hret (Option.some.inj hp)
  early hp := h.early (hearly fun hf => hp (congrArg some hf))
  started := h.started
  lane := h.lane
  silent row hr hk := by
    obtain ⟨h1, h2, h3⟩ := h.silent row hr hk
    refine ⟨h1, h2, h3.imp_right fun hne hp => ?_⟩
    exact hne (hsil row hr hk (Option.some.inj hp))

theorem View.Silent.lane (h : v.Silent) (b : Bool)
    (hb : b = true → v.atStart = true) : b = false := by
  cases b with
  | false => rfl
  | true => exact (hb rfl).symm.trans h.2.1

theorem Tame.change (h : Tame v) (hsil : settles → v.Silent)
    (hc : Change settles v v') : Tame v' := by
  cases hc with
  | lane b hb =>
    refine ⟨h.known, h.executing, h.returned, h.early, h.started,
      fun hb' => h.lane (hb hb'), fun row hr hk => ?_⟩
    have hs := h.silent row hr hk
    exact ⟨hs.1, hs.lane b hb, hs.2.2⟩
  | picked c hcmd hopen =>
    refine ⟨h.known, h.executing, h.returned, h.early, h.started,
      fun _ => by rw [hcmd]; rfl, fun row hr hk => ?_⟩
    -- The start command of a killed run is not open.
    have hs := (h.silent row hr hk).1
    rw [hcmd] at hs
    exact absurd hopen (by rw [show c.state.isOpen = false from hs]; nofun)
  | carried hat c c' hcmd b =>
    refine ⟨h.known, h.executing, h.returned, h.early,
      fun _ => h.started (by rw [hcmd]; rfl), fun _ => rfl,
      fun row hr hk => ?_⟩
    exact absurd hat (by rw [(h.silent row hr hk).2.1]; nofun)
  | requested hrow row hstate =>
    have hphase : v.phase = none := by
      by_contra hne
      exact h.known (.inl hne) hrow
    have hstart : v.start.isSome = true → False := fun hs => by
      obtain ⟨old, hr, -⟩ := h.started hs
      exact nomatch hrow.symm.trans hr
    refine ⟨fun _ => nofun, fun hp => (nomatch hphase.symm.trans hp),
      fun hp => (nomatch hphase.symm.trans hp), fun _ new hr ht => ?_,
      fun hs => (hstart hs).elim, h.lane, fun new hr hk => ?_⟩
    · cases hr
      rw [hstate] at ht
      exact nomatch ht
    · cases hr
      exact nomatch hstate.symm.trans hk
  | killing row hrow hstate =>
    exact h.setRow hrow id (fun _ => .inr rfl) (fun _ => nofun) nofun
  | stopped row hrow hnode =>
    -- Without a node there is no start command and no execution.
    have hno : ¬ ∃ row, v.row = some row ∧ row.nodeId.isSome = true := by
      rintro ⟨old, hr, hn⟩
      cases hrow.symm.trans hr
      rw [hnode] at hn
      exact nomatch hn
    have hstart : v.start = none := by
      cases hs : v.start with
      | none => rfl
      | some c => exact (hno (h.started (by rw [hs]; rfl))).elim
    refine h.setRow hrow id (fun _ => .inr rfl) (fun _ _ => rfl) fun _ => ?_
    refine ⟨by rw [hstart]; rfl, ?_, .inr fun hp => hno (h.executing hp)⟩
    cases hat : v.atStart with
    | false => rfl
    | true => grind [cases Tame]
  | settled hset row hrow hstate =>
    exact h.setRow hrow id (fun _ => .inr rfl) (fun _ _ => rfl) fun _ => hsil hset
  | scans b hb =>
    refine ⟨fun hk => ?_, h.executing, h.returned, h.early, h.started, h.lane, h.silent⟩
    exact hk.elim (fun hp => h.known (.inl hp)) hb
  | spawned hs hphase =>
    refine h.setPhase (h.known (.inr hs)) nofun nofun (fun _ => ?_) fun _ _ _ => nofun
    rw [hphase]
    nofun
  | restarted p p' hphase hp =>
    have hrow : v.row ≠ none := h.known (.inl (by rw [hphase]; nofun))
    rcases hp with rfl | ⟨rfl, rfl⟩
    · rw [← hphase]
      exact h
    · refine h.setPhase hrow nofun nofun (fun _ => ?_) fun _ _ _ => nofun
      rw [hphase]
      nofun
  | crashed p' hp =>
    have hidle : Tame { v with atStart := false, scanned := false } := by
      refine ⟨fun hk => ?_, h.executing, h.returned, h.early, h.started, nofun,
        fun row hr hk => ?_⟩
      · exact h.known (.inl (hk.resolve_right nofun))
      · grind [View.Silent, cases Tame]
    rcases hp with rfl | ⟨hphase, rfl⟩
    · exact hidle
    refine hidle.setPhase (h.known (.inl (by rw [hphase]; nofun))) nofun
      nofun (fun _ => ?_) fun _ _ _ => nofun
    show v.phase ≠ _
    rw [hphase]
    nofun
  | placed hphase row row' hrow hw p hp =>
    have hearly : row'.state.terminal = true → row'.state = .killed := by
      intro ht
      have heq := hw.eq_of_terminal ht
      rw [heq] at ht ⊢
      exact h.early (by rw [hphase]; nofun) row hrow ht
    have hrow' : Tame { v with row := some row' } := by
      refine h.setRow hrow hw.node (fun hp => nomatch hphase.symm.trans hp)
        (fun _ => hearly) fun hk => h.silent row hrow ?_
      rw [← hw.eq_of_terminal (by rw [hk]; rfl), hk]
    refine hrow'.setPhase nofun (fun he => ?_) (fun hret new hr => ?_)
      (fun _ => ?_) fun _ _ _ he => ?_
    · rcases hp with rfl | ⟨rfl, -⟩ <;> exact nomatch he
    · cases hr
      rcases hp with rfl | ⟨-, hp | hp | hp⟩
      · exact nomatch hret
      · exact .inl hp
      · exact .inr hp
      · exact .inr (by rw [hearly hp]; rfl)
    · show v.phase ≠ _
      rw [hphase]
      nofun
    · rcases hp with rfl | ⟨rfl, -⟩ <;> exact nomatch he
  | missing hphase hrow p hp => grind [cases Tame]
  | entered hphase row hrow hstate =>
    refine h.setPhase (by rw [hrow]; nofun) (fun _ => ?_) nofun
      (fun _ => by rw [hphase]; nofun) fun old hr hk _ => ?_
    · rcases h.returned hphase row hrow with hn | hs
      · exact ⟨row, hrow, hn⟩
      · rw [hstate] at hs
        exact nomatch hs
    · cases hrow.symm.trans hr
      rw [hk] at hstate
      exact nomatch hstate
  | executed hphase row row' hrow hw =>
    refine h.setRow hrow hw.node (fun hp => nomatch hphase.symm.trans hp)
      (fun hne ht => ?_) fun hk => h.silent row hrow ?_
    · have heq := hw.eq_of_terminal ht
      rw [heq] at ht ⊢
      exact h.early hne row hrow ht
    · rw [← hw.eq_of_terminal (by rw [hk]; rfl), hk]
  | submitted hphase row hrow hnode c =>
    refine ⟨h.known, h.executing, h.returned, h.early,
      fun _ => ⟨row, hrow, hnode⟩, fun _ => rfl, fun old hr hk => ?_⟩
    obtain ⟨h1, h2, h3⟩ := h.silent old hr hk
    -- A silent run that is executed has its start command already.
    have hstart := h3.resolve_right fun hne => hne hphase
    obtain ⟨command, hcmd⟩ := Option.isSome_iff_exists.mp hstart
    refine ⟨?_, h2, .inl rfl⟩
    show (some (v.start.getD c)).any _ = false
    rw [hcmd] at h1 ⊢
    exact h1
  | finished p hphase =>
    exact h.setPhase (h.known (.inl (by rw [hphase]; nofun))) nofun nofun
      (fun hne => absurd rfl hne) fun _ _ _ => nofun
  | finalized hphase row row' hrow hnode hstate =>
    refine h.setRow hrow (by rw [hnode]; exact id)
      (fun hp => nomatch hphase.symm.trans hp)
      (fun hne => absurd hphase hne) fun hk => h.silent row hrow ?_
    rcases hstate with heq | ⟨-, hne⟩
    · rw [← heq, hk]
    · exact absurd hk hne

end Invariant

/-! ## Starts after the kill -/

section Sent

variable {s : State} {r : ℕ}

theorem Executes.count {s' : State} {c : RunCommandId}
    (h : Executes s s' c) (hc : c ≠ ⟨r, .start⟩) :
    s'.sent.count ⟨r, .start⟩ = s.sent.count ⟨r, .start⟩ := by
  rcases h.sent with hs | hs
  · rw [hs]
  · grind

theorem sent_step (cfg : Settings) (s : State) (a : Label) {r : ℕ}
    (hat : (s.view r).atStart = false) :
    (step cfg s a).sent.count ⟨r, .start⟩ = s.sent.count ⟨r, .start⟩ := by
  have own : ∀ {q : ℕ} {s' : State}, Own q s s' →
      s'.sent.count ⟨r, .start⟩ = s.sent.count ⟨r, .start⟩ :=
    fun h => by rw [h.sent]
  cases a with
  | workflow q env =>
    rw [step]
    split
    · rfl
    · exact own (own_workflowStep env)
  | raise q text =>
    rw [step]
    split
    · rfl
    · exact own (own_raised q s _ text)
  | killRun q => exact own own_killRun
  | requestCodingKill q => exact own own_requestCodingKill
  | killWorkflow q =>
    rw [step]
    split
    · rfl
    · exact own (own_killStep _)
  | lane event =>
    rw [step]
    split
    · rfl
    rename_i c pc hlane
    refine (executes_executeCommand s c pc event).count fun hc => ?_
    have : (s.view r).atStart = true := by
      show s.lane.any _ = true
      rw [hlane]
      exact decide_eq_true hc
    exact nomatch hat.symm.trans this
  | killTask q event =>
    rw [step]
    split
    · rfl
    rename_i t ht
    have hsent := (executes_executeCommand s ⟨q, .kill⟩ t.pc event).count (r := r) nofun
    simp only
    split <;> exact hsent
  | startWorkflow q | startKill q =>
    rw [step]
    split <;> rfl
  | killRaise q | next =>
    rw [step]
    split <;> rfl
  | request | registry | scanRuns | crash | stopChild | scanKills
  | enqueueKills => rfl

end Sent

/-- **The kill finds the run silent**, when it marks the run killed. -/
def KillsSilent (s : State) (a : Label) : Prop :=
  ∀ r ∈ settling s a, (s.view r).Silent

instance (s : State) (a : Label) : Decidable (KillsSilent s a) :=
  inferInstanceAs (Decidable (∀ r ∈ settling s a, (s.view r).Silent))

def NoStart (cfg : Settings) (s : State) (a : Label) : Prop :=
  ∀ r row, s.runs.get? r = some row → row.state = .killed →
    (step cfg s a).sent.count ⟨r, .start⟩ = s.sent.count ⟨r, .start⟩

/-- **A killed run never starts**, in every run in which each kill finds its run
silent. -/
theorem killed_run_never_starts (cfg : Settings) (as : List Label)
    (h : Run.Along (step cfg) KillsSilent State.init as) :
    Run.Along (step cfg) (NoStart cfg) State.init as := by
  refine Run.along_of_invariant (fun s => ∀ r, Tame (s.view r)) ?_ ?_ Tame.init h
  · intro s a hs hP r
    exact (hs r).change (hP r) (step_change cfg s a r)
  · intro s a hs _ r row hrow hk
    exact sent_step cfg s a ((hs r).silent row hrow hk).2.1

/-! ### Two kills -/

/-- A run whose create command has been sent to the node. -/
def createInFlight : List Label :=
  [.request 0 false none 0 false, .registry 0 ⟨"studio", true, true, 0, true⟩,
    .scanRuns, .startWorkflow 0].append
  ((workflowSteps 9).append
  [.next, .lane (.begin true none), .lane (.mint none), .lane .send])

/-- An administrator kills the run, and the kill goes through. -/
def killCompletes : List Label :=
  [.killRun 0, .scanKills, .startKill 0, .enqueueKills, .killWorkflow 0,
    .killWorkflow 0, .killWorkflow 0, .killTask 0 (.begin true none),
    .killTask 0 .send, .killTask 0 (.returns .empty), .killTask 0 .finish,
    .killWorkflow 0, .killWorkflow 0]

/-- The create returns, and the workflow of the run submits the start. -/
def createReturns : List Label :=
  [.lane (.returns { RunDetail.empty with containerId := some "c" }),
    .lane .finish].append
  ((workflowSteps 3).append [.next, .lane (.begin true none)])

/-- **A killed run starts**: its create was in flight when it was killed. -/
theorem killed_run_starts : ¬ Run.Along (step oneStudio) (NoStart oneStudio) State.init
      (createInFlight ++ killCompletes ++ createReturns ++ [.lane .send]) := by
  intro h
  have hkilled : ((Run.last (step oneStudio) State.init
      (createInFlight ++ killCompletes ++ createReturns)).runs.get? 0).map
      AgentRunRow.state = some .killed := by decide +kernel
  have hsent : (step oneStudio (Run.last (step oneStudio) State.init
      (createInFlight ++ killCompletes ++ createReturns))
      (.lane .send)).sent.count ⟨0, .start⟩
      ≠ (Run.last (step oneStudio) State.init
      (createInFlight ++ killCompletes ++ createReturns)).sent.count
        ⟨0, .start⟩ := by decide +kernel
  obtain ⟨row, hrow, hk⟩ := Option.map_eq_some_iff.mp hkilled
  exact hsent (((Run.along_append _ _ _).mp h).2.1 0 row hrow hk)

/-- A run is killed before it is placed, and its workflow goes on. -/
def killedUnplaced : List Label :=
  [.request 0 false none 0 false, .scanRuns, .startWorkflow 0, .killRun 0,
    .scanKills, .startKill 0, .killWorkflow 0, .killWorkflow 0].append
  (workflowSteps 5)

theorem killed_run_never_starts_unplaced :
    Run.Along (step oneStudio) KillsSilent State.init killedUnplaced
      ∧ Run.Along (step oneStudio) (NoStart oneStudio) State.init killedUnplaced :=
  ⟨by decide +kernel, killed_run_never_starts oneStudio _ (by decide +kernel)⟩

end AgentRuns
