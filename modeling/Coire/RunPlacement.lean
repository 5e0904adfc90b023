import Coire.AgentRuns

/-!
# A placed run after a restart

`place_run` is one step of the durable workflow, so that a scheduler that crashes after
the node of a run is committed and before the step is recorded runs it again from its
start. The transaction that commits a node would accept a run that has one, but the loop
does not get there: `choose_studio` goes on only for the first of the runs *without* a
node, so that it never chooses one for a run that has one (`chooseStudio_of_node`). Only
the child of an evaluation leaves the loop before.

`placed_run_returns_iff` says exactly when a call returns.
-/

namespace AgentRuns

/-! ## What a step does -/

inductive Affects (cfg : Settings) (s : State) : Label → State → Prop
  | nothing {a s'} (hr : s'.runs = s.runs) (hw : s'.workflows = s.workflows) :
    Affects cfg s a s'
  | requests (r evaluation node requestedAt write) :
    Affects cfg s (.request r evaluation node requestedAt write)
      { s with runs :=
        s.runs.setDefault r (requestedRun evaluation node requestedAt write) }
  | starts {a} (r : ℕ) :
    Affects cfg s a
      { s with workflows := s.workflows.setDefault r ⟨.place .advance, 1⟩ }
  | works {r w} (hw : s.workflows.get? r = some w) (env : StepEnv) :
    Affects cfg s (.workflow r env) (workflowStep cfg s r w env)
  | raises {r w} (hw : s.workflows.get? r = some w) (text : String) :
    Affects cfg s (.raise r text) (raised s r w text)
  | crashes {s'} (hr : s'.runs = s.runs)
      (hw : s'.workflows = s.workflows.mapValues fun _ w => w.recover) :
    Affects cfg s .crash s'
  | kills {a s'} {r : ℕ} {row : AgentRunRow} {state : AgentRunState}
      (ha : a = .killRun r ∨ a = .requestCodingKill r ∨ a = .stopChild r
        ∨ row.state = .killRequested)
      (hrow : s.runs.get? r = some row) (hopen : row.state.terminal = false)
      (hstate : state = .killRequested ∨ state.terminal = true)
      (hr : s'.runs = s.runs.set r { row with state := state })
      (hw : s'.workflows = s.workflows) : Affects cfg s a s'

theorem addKill_runs (s : State) (r : ℕ) (row : AgentRunRow) :
    (s.addKill r row).runs = s.runs ∧ (s.addKill r row).workflows = s.workflows := by
  unfold State.addKill
  split <;> exact ⟨rfl, rfl⟩

theorem step_affects (cfg : Settings) (s : State) (a : Label) :
    Affects cfg s a (step cfg s a) := by
  cases a with
  | request => exact .requests ..
  | crash => exact .crashes rfl rfl
  | startWorkflow r =>
    rw [step]
    split
    · exact .starts r
    · exact .nothing rfl rfl
  | workflow r env =>
    rw [step]
    split
    · exact .nothing rfl rfl
    · rename_i w hw
      exact .works hw env
  | raise r text =>
    rw [step]
    split
    · exact .nothing rfl rfl
    · rename_i w hw
      exact .raises hw text
  | killRun r =>
    rw [step, killRun]
    split
    · exact .nothing rfl rfl
    rename_i row hrow
    split
    · exact .nothing rfl rfl
    rename_i row' h
    obtain ⟨hr, hw⟩ := addKill_runs (s.setRun r row') r row
    obtain ⟨hopen, rfl⟩ : row.state.terminal = false
        ∧ row' = { row with state := .killRequested } := by
      grind [AgentRunRow.transition]
    exact .kills (.inl rfl) hrow hopen (.inl rfl) hr hw
  | requestCodingKill r =>
    rw [step, requestCodingKill]
    split
    · exact .nothing rfl rfl
    rename_i row hrow
    split
    · exact .nothing rfl rfl
    rename_i hterm
    have hopen := Bool.eq_false_of_not_eq_true hterm
    split
    · obtain ⟨hr, hw⟩ :=
        addKill_runs (s.setRun r { row with state := .killRequested }) r row
      exact .kills (.inr (.inl rfl)) hrow hopen (.inl rfl) hr hw
    · exact .kills (.inr (.inl rfl)) hrow hopen (.inr rfl) rfl rfl
  | stopChild r =>
    rw [step, stopChild, State.modifyRun, Dict.modify]
    split
    · exact .nothing rfl rfl
    rename_i row hrow
    split
    · rename_i h
      exact .kills (.inr (.inr (.inl rfl))) hrow h.1 (.inl rfl) rfl rfl
    · exact .nothing (Dict.set_self hrow) rfl
  | killWorkflow r =>
    rw [step]
    split
    · exact .nothing rfl rfl
    rename_i pc hpc
    cases pc with
    | settle =>
      rw [killStep, State.modifyRun, Dict.modify]
      split
      · exact .nothing rfl rfl
      rename_i row hrow
      split
      · rename_i hkill
        have hrun : (row.transition .killed).getD row = { row with state := .killed } := by
          simp [AgentRunRow.transition, hkill, AgentRunState.terminal]
        rw [hrun]
        exact .kills (.inr (.inr (.inr hkill))) hrow (by rw [hkill]; rfl) (.inr rfl) rfl rfl
      · exact .nothing (Dict.set_self hrow) rfl
    | submit =>
      rw [killStep]
      split
      · exact .nothing rfl rfl
      · rename_i hs
        obtain ⟨row, node, -, -, rfl⟩ := submit_ok hs
        exact .nothing rfl rfl
    | check | await =>
      rw [killStep]
      repeat' split
      all_goals exact .nothing rfl rfl
    | activity | reconcileChat | done | error => exact .nothing rfl rfl
  | lane event =>
    rw [step]
    split
    · exact .nothing rfl rfl
    · rename_i c pc hlane
      have h := executes_executeCommand s c pc event
      exact .nothing h.runs h.workflows
  | killTask r event =>
    rw [step]
    split
    · exact .nothing rfl rfl
    rename_i t ht
    have h := executes_executeCommand s ⟨r, .kill⟩ t.pc event
    simp only
    split <;> exact .nothing h.runs h.workflows
  | killRaise r | startKill r | next =>
    rw [step]
    split <;> exact .nothing rfl rfl
  | scanRuns | registry | scanKills | enqueueKills => exact .nothing rfl rfl

/-! ## The choice -/

variable {s : State} {r : ℕ}

variable {a : Label} {cfg : Settings} {k : ℕ}

theorem chooseStudio_of_node {row : AgentRunRow} (hrow : s.runs.get? r = some row)
    (hnode : row.nodeId.isSome = true) (env : StepEnv) :
    chooseStudio cfg s r env = none := by
  unfold chooseStudio
  split
  · rfl
  -- The head of the queue is a run without a node.
  have hhead : fifoHead s ≠ some r := by
    intro h
    obtain ⟨x, hx, rfl⟩ := Option.map_eq_some_iff.mp h
    have hmem := (List.perm_insertionSort _ _).mem_iff.mp (List.mem_of_head? hx)
    obtain ⟨hitems, hwait⟩ := List.mem_filter.mp hmem
    cases hrow.symm.trans (Dict.mem_items.mp hitems)
    rw [Bool.and_eq_true, Option.isNone_iff_eq_none] at hwait
    rw [hwait.1] at hnode
    exact nomatch hnode
  rw [if_pos hhead]

/-! ## Steps that are not the workflow's -/

/-- The label is not a kill of the run, an exception in its workflow or a
crash. -/
def Undisturbing (r : ℕ) : Label → Prop
  | .crash => False
  | .raise q _ | .killRun q | .requestCodingKill q | .stopChild q => q ≠ r
  | _ => True

def ownEnv (r : ℕ) : Label → Option StepEnv
  | .workflow q env => if q = r then some env else none
  | _ => none

theorem eq_workflow {env : StepEnv}
    (h : ownEnv r a = some env) : a = .workflow r env := by
  cases a with
  | workflow q env' =>
    rw [ownEnv] at h
    split at h
    · rename_i hq
      cases h
      rw [hq]
    · exact nomatch h
  | _ => exact nomatch h

/-- A run and its workflow are as they were, the row unless its kill was
requested. -/
def Still (r : ℕ) (s s' : State) : Prop :=
  s'.workflows.get? r = s.workflows.get? r ∧
    ∀ row, s.runs.get? r = some row → row.state ≠ .killRequested →
      s'.runs.get? r = some row

theorem Still.of_eq {s' : State} (hw : s'.workflows = s.workflows)
    (hr : s'.runs = s.runs) : Still r s s' :=
  ⟨by rw [hw], fun _ hrow _ => by rw [hr, hrow]⟩

theorem still_of_other (cfg : Settings) {w : Workflow}
    (hw : s.workflows.get? r = some w) (hund : Undisturbing r a)
    (hother : ownEnv r a = none) : Still r s (step cfg s a) := by
  have own : ∀ {q : ℕ} {s' : State}, q ≠ r → Own q s s' → Still r s s' :=
    fun hq h => ⟨h.workflows r (Ne.symm hq),
      fun _ hrow _ => (h.runs r (Ne.symm hq)).trans hrow⟩
  have h := step_affects cfg s a
  generalize step cfg s a = s' at h ⊢
  cases h with
  | nothing hr hw => exact .of_eq hw hr
  | requests q evaluation node requestedAt write =>
    refine ⟨rfl, fun row hrow _ => (Dict.get?_setDefault ..).trans ?_⟩
    split
    · grind
    · exact hrow
  | starts q =>
    refine ⟨(Dict.get?_setDefault ..).trans ?_, fun _ hrow _ => hrow⟩
    split
    · grind
    · rfl
  | works hw env =>
    refine own ?_ (own_workflowStep env)
    rintro rfl
    exact nomatch (if_pos rfl).symm.trans hother
  | raises hw text => exact own hund (own_raised _ s _ text)
  | crashes => exact hund.elim
  | kills ha hrow _ _ hr hw =>
    refine ⟨by rw [hw], fun row' hrow' hstate => ?_⟩
    rw [hr]
    refine (Dict.get?_set_ne _ ?_ _).trans hrow'
    rintro rfl
    cases hrow.symm.trans hrow'
    rcases ha with rfl | rfl | rfl | ha
    · exact hund rfl
    · exact hund rfl
    · exact hund rfl
    · exact hstate ha

/-! ## Steps of the workflow -/

/-- The maintenance fence holds the run back: it is still queued, and new core
work is not allowed. -/
def held (cfg : Settings) (row : AgentRunRow) (env : StepEnv) : Bool :=
  row.state = .queued && cfg.upgradesEnabled && !env.coreWork

/-- A run that has a node and is neither killed nor over. -/
structure Committed (s : State) (r : ℕ) (row : AgentRunRow) : Prop where
  get : s.runs.get? r = some row
  node : row.nodeId.isSome = true
  live : row.state.terminal = false
  spared : row.state ≠ .killRequested

def At (s : State) (r k : ℕ) (pc : PlacePc) : Prop :=
  s.workflows.get? r = some ⟨.place pc, k⟩

section Place

variable {cfg : Settings} {s : State} {r k : ℕ} {row : AgentRunRow}
  {env : StepEnv}

theorem Committed.still {s' : State} (h : Committed s r row)
    (hs : Still r s s') : Committed s' r row :=
  { h with get := hs.2 row h.get h.spared }

theorem Committed.not_stopped (h : Committed s r row) : row.state.stopped = false := by
  obtain ⟨-, -, hlive, hspared⟩ := h
  cases hs : row.state <;> simp_all [AgentRunState.stopped, AgentRunState.terminal]

theorem advance_of_held (h : held cfg row env = true) :
    row.advance (!cfg.upgradesEnabled || env.coreWork) .placing = (row, false) := by
  grind [held, AgentRunRow.advance]

theorem advance_of_not_held (hlive : row.state.terminal = false)
    (hspared : row.state ≠ .killRequested) (h : held cfg row env = false) :
    row.advance (!cfg.upgradesEnabled || env.coreWork) .placing
      = ({ row with state := .placing }, true) := by
  unfold AgentRunRow.advance
  rw [if_neg]
  · by_cases hp : row.state = .placing
    · rw [if_neg (fun hne => hne.1 hp), ← hp]
    · grind [AgentRunRow.transition]
  · grind [held]

theorem step_advance (h : Committed s r row) (hat : At s r k .advance) :
    step cfg s (.workflow r env)
      = (s.setRun r (row.advance (!cfg.upgradesEnabled || env.coreWork)
          .placing).1).goto r ⟨.place .advance, k⟩ (.place
          (if (row.advance (!cfg.upgradesEnabled || env.coreWork) .placing).2
          then .check else .advance)) := by
  rw [step, hat]
  show placeStep cfg s r _ env .advance = _
  rw [placeStep, h.get]

theorem held_stays (h : Committed s r row) (hat : At s r k .advance)
    (hheld : held cfg row env = true) :
    Committed (step cfg s (.workflow r env)) r row
      ∧ At (step cfg s (.workflow r env)) r k .advance := by
  rw [step_advance h hat, advance_of_held hheld]
  exact ⟨{ h with get := Dict.get?_set_self _ _ _ }, Dict.get?_set_self _ _ _⟩

theorem free_advances (h : Committed s r row) (hat : At s r k .advance)
    (hfree : held cfg row env = false) :
    Committed (step cfg s (.workflow r env)) r { row with state := .placing }
      ∧ At (step cfg s (.workflow r env)) r k .check := by
  rw [step_advance h hat, advance_of_not_held h.live h.spared hfree]
  exact ⟨⟨Dict.get?_set_self _ _ _, h.node, rfl, nofun⟩, Dict.get?_set_self _ _ _⟩

theorem step_check (h : Committed s r row) (hat : At s r k .check) :
    step cfg s (.workflow r env)
      = if row.evaluation then
          if env.authorised then
            s.goto r ⟨.place .check, k⟩ (.place .returning)
          else raised s r ⟨.place .check, k⟩ env.exhausted
        else s.goto r ⟨.place .check, k⟩ (.place .choose) := by
  rw [step, hat]
  show placeStep cfg s r _ env .check = _
  rw [placeStep, h.get]
  simp [h.not_stopped, h.node]

theorem step_choose (h : Committed s r row) (hat : At s r k .choose) :
    step cfg s (.workflow r env) = s.goto r ⟨.place .choose, k⟩ (.place .advance) := by
  rw [step, hat]
  show placeStep cfg s r _ env .choose = _
  rw [placeStep, chooseStudio_of_node h.get h.node]

end Place

/-! ## A run that is no child of an evaluation -/

/-- The workflow of a run with a node goes round. -/
def Looping (r k : ℕ) (s : State) : Prop :=
  (∃ row, Committed s r row ∧ row.evaluation = false)
    ∧ (At s r k .advance ∨ At s r k .check ∨ At s r k .choose)

/-- **It goes round for ever**: no step of the others, and none of its own,
takes it out of the loop. -/
theorem Looping.step (h : Looping r k s) (hund : Undisturbing r a) :
    Looping r k (step cfg s a) := by
  obtain ⟨⟨row, hrow, heval⟩, hat⟩ := h
  cases hown : ownEnv r a with
  | none =>
    have hw : ∃ w, s.workflows.get? r = some w := by
      rcases hat with hat | hat | hat <;> exact ⟨_, hat⟩
    obtain ⟨w, hw⟩ := hw
    have hstill := still_of_other cfg hw hund hown
    refine ⟨⟨row, hrow.still hstill, heval⟩, ?_⟩
    unfold At
    rw [hstill.1]
    exact hat
  | some env =>
    cases eq_workflow hown
    rcases hat with hat | hat | hat
    · cases hheld : held cfg row env with
      | true =>
        obtain ⟨hrow', hat'⟩ := held_stays hrow hat hheld
        exact ⟨⟨row, hrow', heval⟩, .inl hat'⟩
      | false =>
        obtain ⟨hrow', hat'⟩ := free_advances hrow hat hheld
        exact ⟨⟨_, hrow', heval⟩, .inr (.inl hat')⟩
    · rw [step_check hrow hat, heval]
      exact ⟨⟨row, { hrow with }, heval⟩, .inr (.inr (Dict.get?_set_self _ _ _))⟩
    · rw [step_choose hrow hat]
      exact ⟨⟨row, { hrow with }, heval⟩, .inl (Dict.get?_set_self _ _ _)⟩

def Returned (r k : ℕ) (s : State) : Prop := At s r k .returning

theorem Looping.not_returned (h : Looping r k s) : ¬ Returned r k s := by
  intro hret
  rcases h.2 with hat | hat | hat <;> exact nomatch hat.symm.trans hret

/-- **`place_run` does not return** for a run with a node that is no child of an
evaluation. -/
theorem not_returned_of_ordinary {as : List Label} (h : Looping r k s)
    (hund : Run.Along (step cfg) (fun _ a => Undisturbing r a) s as) :
    ¬ Run.Sometime (step cfg) (Returned r k) s as :=
  Run.not_sometime_of_invariant (Looping r k) (fun _ => Looping.not_returned)
    (fun _ _ hs => hs.step) h hund

/-! ## A child of an evaluation -/

def Past (r k : ℕ) (s : State) : Prop :=
  ∃ w, s.workflows.get? r = some w ∧ ∀ pc, w.pc = .place pc → k < w.attempt

/-- The workflow is in `place_run` only if it was, and in no earlier
attempt. -/
def Later (r : ℕ) (w : Workflow) (s' : State) : Prop :=
  ∃ w', s'.workflows.get? r = some w' ∧ ∀ pc', w'.pc = .place pc' →
    (∃ pc, w.pc = .place pc) ∧ w.attempt ≤ w'.attempt

section Later

variable {cfg : Settings} {s s' : State} {r k : ℕ} {w w' : Workflow}

theorem Later.write (h : ∀ pc', w'.pc = .place pc' →
    (∃ pc, w.pc = .place pc) ∧ w.attempt ≤ w'.attempt) :
    Later r w (s.setWorkflow r w') :=
  ⟨w', Dict.get?_set_self _ _ _, h⟩

theorem later_raised (hw : s.workflows.get? r = some w) (text : String) :
    Later r w (raised s r w text) := by
  unfold raised
  split
  · rename_i pc hpc
    split
    · exact .write fun _ _ => ⟨⟨pc, hpc⟩, Nat.le_succ _⟩
    · exact .write nofun
  · exact .write nofun
  · split <;> exact .write nofun
  · exact .write nofun
  · exact .write nofun
  · split <;> exact .write nofun
  · grind [Later]

theorem later_workflowStep (cfg : Settings)
    (hw : s.workflows.get? r = some w) (env : StepEnv) :
    Later r w (workflowStep cfg s r w env) := by
  have hraised := later_raised hw env.exhausted
  unfold workflowStep
  split
  · rename_i pc hpc
    have hplace : ∀ (s' : State) (pc' : PlacePc),
        Later r w (s'.goto r w (.place pc')) :=
      fun _ _ => .write fun _ _ => ⟨⟨pc, hpc⟩, Nat.le_refl _⟩
    unfold placeStep
    repeat' split
    all_goals first
      | exact hplace _ _
      | exact hraised
      | exact .write nofun
  · repeat' split
    all_goals exact .write nofun
  · rename_i pc hpc
    have hsame : Later r w s := ⟨w, hw, fun _ h => nomatch hpc.symm.trans h⟩
    unfold executeStep
    repeat' split
    all_goals first
      | exact .write nofun
      | exact hraised
      | exact hsame
  · rename_i hpc
    have hsame : Later r w s := ⟨w, hw, fun _ h => nomatch hpc.symm.trans h⟩
    unfold finalizeStep
    repeat' split
    all_goals first
      | exact .write nofun
      | exact hsame
  · grind [Later]

theorem Past.step {a : Label} (h : Past r k s) (hund : Undisturbing r a) :
    Past r k (step cfg s a) := by
  obtain ⟨w, hw, hlt⟩ := h
  cases hown : ownEnv r a with
  | none =>
    have hstill := still_of_other cfg hw hund hown
    exact ⟨w, hstill.1.trans hw, hlt⟩
  | some env =>
    cases eq_workflow hown
    rw [AgentRuns.step, hw]
    obtain ⟨w', hw', hback⟩ := later_workflowStep cfg hw env
    refine ⟨w', hw', fun pc' hpc' => ?_⟩
    obtain ⟨⟨pc, hpc⟩, hle⟩ := hback pc' hpc'
    exact (hlt pc hpc).trans_le hle

theorem past_raised (pc : PlacePc) (text : String) :
    Past r k (raised s r ⟨.place pc, k⟩ text) := by
  unfold raised
  simp only
  split
  · exact ⟨_, Dict.get?_set_self _ _ _, fun _ _ => Nat.lt_succ_self k⟩
  · exact ⟨_, Dict.get?_set_self _ _ _, nofun⟩

theorem Past.not_returned (h : Past r k s) : ¬ Returned r k s := by
  obtain ⟨w, hw, hlt⟩ := h
  intro hret
  cases hw.symm.trans hret
  exact Nat.lt_irrefl _ (hlt _ rfl)

end Later

/-- The next transaction of the child finds it authorised. -/
def Authorised : List StepEnv → Prop
  | env :: _ => env.authorised = true
  | [] => False

/-- **The child is let through**: the first of its transactions that the fence
does not hold back is followed by one in which its evaluation still authorises
it. -/
def LetThrough (cfg : Settings) (row : AgentRunRow) (envs : List StepEnv) :
    Prop :=
  Authorised (envs.dropWhile (held cfg row)).tail

section Evaluation

variable {cfg : Settings} {s : State} {r k : ℕ} {row : AgentRunRow}

def ownEnvs (r : ℕ) (as : List Label) : List StepEnv := as.filterMap (ownEnv r)

theorem returns_from_check {as : List Label} (h : Committed s r row)
    (heval : row.evaluation = true) (hat : At s r k .check)
    (hund : Run.Along (step cfg) (fun _ a => Undisturbing r a) s as) :
    Run.Sometime (step cfg) (Returned r k) s as ↔ Authorised (ownEnvs r as) := by
  induction as generalizing s with
  | nil =>
    rw [Run.sometime_nil]
    exact iff_of_false (fun hret => nomatch hat.symm.trans hret) id
  | cons a as ih =>
    have hnow : ¬ Returned r k s := fun hret => nomatch hat.symm.trans hret
    rw [Run.sometime_cons, or_iff_right hnow]
    cases hown : ownEnv r a with
    | none =>
      have hstill := still_of_other cfg hat hund.1 hown
      rw [ih (h.still hstill) (hstill.1.trans hat) hund.2, ownEnvs, ownEnvs,
        List.filterMap_cons_none hown]
    | some env =>
      cases eq_workflow hown
      rw [ownEnvs, List.filterMap_cons_some hown]
      show _ ↔ env.authorised = true
      cases hauth : env.authorised with
      | true =>
        refine iff_of_true ⟨0, ?_⟩ rfl
        show Returned r k (step cfg s (.workflow r env))
        rw [step_check h hat, heval, hauth]
        exact Dict.get?_set_self _ _ _
      | false =>
        refine iff_of_false ?_ nofun
        -- The exception ends the attempt, and no later step returns from it.
        refine Run.not_sometime_of_invariant (Past r k)
          (fun _ => Past.not_returned) (fun _ _ hs => hs.step) ?_ hund.2
        rw [step_check h hat, heval, hauth]
        exact past_raised _ _

theorem returns_from_advance {as : List Label} (h : Committed s r row)
    (heval : row.evaluation = true) (hat : At s r k .advance)
    (hund : Run.Along (step cfg) (fun _ a => Undisturbing r a) s as) :
    Run.Sometime (step cfg) (Returned r k) s as
      ↔ LetThrough cfg row (ownEnvs r as) := by
  induction as generalizing s with
  | nil =>
    rw [Run.sometime_nil]
    exact iff_of_false (fun hret => nomatch hat.symm.trans hret) id
  | cons a as ih =>
    have hnow : ¬ Returned r k s := fun hret => nomatch hat.symm.trans hret
    rw [Run.sometime_cons, or_iff_right hnow]
    cases hown : ownEnv r a with
    | none =>
      have hstill := still_of_other cfg hat hund.1 hown
      rw [ih (h.still hstill) (hstill.1.trans hat) hund.2, ownEnvs, ownEnvs,
        List.filterMap_cons_none hown]
    | some env =>
      cases eq_workflow hown
      rw [ownEnvs, List.filterMap_cons_some hown, LetThrough]
      cases hheld : held cfg row env with
      | true =>
        obtain ⟨h', hat'⟩ := held_stays h hat hheld
        rw [List.dropWhile_cons_of_pos hheld]
        exact ih h' hat' hund.2
      | false =>
        obtain ⟨h', hat'⟩ := free_advances h hat hheld
        rw [List.dropWhile_cons_of_neg (by rw [hheld]; nofun)]
        exact returns_from_check h' heval hat' hund.2

end Evaluation

/-- **When a placed run goes on after a restart.** -/
theorem placed_run_returns_iff (cfg : Settings) {s : State} {r k : ℕ}
    {row : AgentRunRow} (h : Committed s r row) (hat : At s r k .advance)
    (as : List Label)
    (hund : Run.Along (step cfg) (fun _ a => Undisturbing r a) s as) :
    Run.Sometime (step cfg) (Returned r k) s as
      ↔ row.evaluation = true ∧ LetThrough cfg row (ownEnvs r as) := by
  cases heval : row.evaluation with
  | true => rw [returns_from_advance h heval hat hund, and_iff_right rfl]
  | false =>
    exact iff_of_false (not_returned_of_ordinary ⟨⟨row, h, heval⟩, .inl hat⟩ hund) nofun

def childDispatched : State :=
  Run.last (step oneStudio) State.init
    [.request 0 true (some 0) 0 false, .scanRuns, .startWorkflow 0]

/-- Its call of `place_run` returns after two transactions. -/
theorem placed_run_returns_child :
    Run.Sometime (step oneStudio) (Returned 0 1) childDispatched (workflowSteps 2) := by
  have hrow : Committed childDispatched 0
      (requestedRun true (some 0) 0 false) := ⟨rfl, rfl, rfl, nofun⟩
  have hat : At childDispatched 0 1 .advance := rfl
  exact (placed_run_returns_iff oneStudio hrow hat (workflowSteps 2)
    ⟨trivial, trivial, trivial⟩).mpr ⟨rfl, rfl⟩

/-- A scheduler that crashes after a node is committed, and before the step is recorded.
-/
def crashedAfterCommit : State :=
  Run.last (step oneStudio) State.init
    ([.request 0 false none 0 false,
      .registry 0 ⟨"studio", true, true, 0, true⟩, .scanRuns,
      .startWorkflow 0].append ((workflowSteps 4).append [.crash]))

/-- **A placed run that does not go on**: its node is committed, and the replayed
`place_run` never returns. -/
theorem placed_run_waits_forever : ∃ row, Committed crashedAfterCommit 0 row
      ∧ At crashedAfterCommit 0 1 .advance
      ∧ ∀ as, Run.Along (step oneStudio) (fun _ a => Undisturbing 0 a)
          crashedAfterCommit as →
        ¬ Run.Sometime (step oneStudio) (Returned 0 1) crashedAfterCommit
          as := by
  have hget : crashedAfterCommit.runs.get? 0
      = some ⟨.placing, some 0, none, false, 0, false, none, none⟩ := by
    decide +kernel
  have hat : At crashedAfterCommit 0 1 .advance := by
    unfold At
    decide +kernel
  have hrow : Committed crashedAfterCommit 0
      ⟨.placing, some 0, none, false, 0, false, none, none⟩ :=
    ⟨hget, rfl, rfl, nofun⟩
  exact ⟨_, hrow, hat, fun _ hund =>
    not_returned_of_ordinary ⟨⟨_, hrow, rfl⟩, .inl hat⟩ hund⟩

end AgentRuns
