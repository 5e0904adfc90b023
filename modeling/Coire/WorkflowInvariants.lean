import Coire.CoreWorkflow

/-!
# What a step of the workflow keeps

Most of what a step does leaves the two histories alone: it asks, it looks at the
clock, it notes that recovery has begun. `Stable I J` lists what an invariant `I` has
to survive: what happens between two operations, the writes beside the histories, a
new receipt, the replay of the receipts, the migration, and the consumption of a
grant, for which `J` may be assumed, what a successful replay has left behind. Then
every step keeps `I` (`Stable.advanceCoreStep`), however it ends.
-/

namespace Upgrades.Workflow

open Executor (UpgradeActivationConsume)
open Attempt (Triple Keeps)

/-- **Nothing that a history depends on is different.** -/
structure Disk.Beside (d d' : Disk) : Prop where
  receipts : d'.receipts = d.receipts
  acknowledged : d'.acknowledged = d.acknowledged
  activations : d'.activations = d.activations
  migrationProof : d'.migrationProof = d.migrationProof
  captured : d.recoveryCapturedAt ≠ none → d'.recoveryCapturedAt ≠ none

/-- Grants may be issued, and a migration be fenced. -/
structure RowBeside (s s' : OperationRow) : Prop where
  operation : s'.operation = s.operation
  receipts : s'.receipts = s.receipts
  executionPlan : s'.executionPlan = s.executionPlan
  execution : ∀ proof, s'.migrationExecution = some (.execution proof) →
    s.migrationExecution = some (.execution proof)

theorem RowBeside.refl (s : OperationRow) : RowBeside s s :=
  ⟨rfl, rfl, rfl, fun _ h => h⟩

theorem cancelled_cases (D : Documents) (s : OperationRow) :
    cancelled D s = s ∨ cancelled D s = s.cancel ∧ s.operation.finishedAt = none
      ∧ s.operation.cancellationAllowed = true := by
  unfold cancelled
  refine Guarded.settle_induction
    (P := fun t => t = s ∨ t = s.cancel ∧ s.operation.finishedAt = none
      ∧ s.operation.cancellationAllowed = true) (.inl rfl) ?_
  intro t _ ht
  simp only [requestCancel, Guarded.check_bind_eq_ok] at ht
  replace ht := ht.2
  split at ht
  case isTrue =>
    cases Except.ok.inj ht
    exact .inl rfl
  case isFalse hlive =>
    simp only [Guarded.check_bind_eq_ok, Guarded.refuse_eq_ok, not_and, not_not] at ht
    obtain ⟨hallowed, _, ht⟩ := ht
    split at ht
    case h_1 hkind =>
      cases Except.ok.inj ht
      exact .inr ⟨rfl, not_not.mp fun hf => hlive (.inl hf), hallowed hkind⟩
    case h_2 =>
      -- The node of a Studio is not asked here.
      obtain ⟨_, ht⟩ := Guarded.check_bind_eq_ok.mp ht
      cases ht

variable (P : CorePlan) (D : Papers)

/-- **What happens beside the histories** leaves `I` as it is. -/
structure Undisturbed (I : World → Prop) : Prop where
  next : ∀ w, I w → I (w.next D)
  beside : ∀ w d, I w → w.disk.Beside d → I { w with disk := d }
  row : ∀ w s, I w → RowBeside w.row s → I { w with row := s }

structure Stable (I J : World → Prop) : Prop extends Undisturbed D I where
  sent : Undisturbed D fun w => I w ∧ J w
  append : ∀ r, r.phase ≠ .migrating → Keeps I (append P D r)
  replay : Triple I (replayReceipts P D) (fun _ w => I w ∧ J w) (fun _ => I)
  migrate : Keeps I (reportMigration P D)
  consume : ∀ b, Triple (fun w => I w ∧ J w) (consumeBoundary P D b)
    (fun _ => I) (fun _ => I)

variable {P D} {I J : World → Prop} {α : Type}

theorem keeps_refuse (c : Prop) [Decidable c] (e : Refusal) : Keeps I (refuse c e) :=
  Keeps.refuse _ _

theorem keeps_disk : Keeps I disk := Keeps.read _

variable {R : Fate → World → Prop} {E : Halt → World → Prop} {op : Op}

theorem triple_tick (hgoes : ∀ w, I w → w.fate.stop op = false → R w.fate (w.next D))
    (hends : ∀ w, I w → w.fate.stop op = true → E .ended (w.next D)) :
    Triple I (tick D op) R E := by
  intro w hw
  unfold tick
  split
  case isTrue hstop => exact hends w hw hstop
  case isFalse hstop => exact hgoes w hw (Bool.not_eq_true _ ▸ hstop)

theorem triple_write {f : Fate → Disk → Disk}
    {Q : Unit → World → Prop} (htick : Triple I (tick D op) R E)
    (hwritten : ∀ fate w, R fate w → Q () { w with disk := f fate w.disk }) :
    Triple I (write D op f) Q E :=
  Triple.bind htick fun fate => Triple.change (hwritten fate)

theorem triple_request {process : Fate → World → Except Refusal (OperationRow × α)}
    {Q : α → World → Prop}
    (htick : Triple I (tick D op) R E)
    (hrefused : ∀ fate w e, R fate w → E e w)
    (hprocessed : ∀ fate w s a, R fate w → process fate w = .ok (s, a) →
      Q a { w with row := s } ∧ (fate.lost op = true → ∀ e, E e { w with row := s })) :
    Triple I (request D op process) Q E := by
  refine Triple.bind htick fun fate => Triple.read fun result => ?_
  cases result with
  | error e => exact fun w hw => hrefused fate w _ hw.1
  | ok r =>
    rintro w ⟨hw, hresult⟩
    have hr := hprocessed fate w r.1 r.2 hw (Guarded.check_bind_eq_ok.mp hresult).2
    show Attempt.Ends Q E (Attempt.andThen _ _ w)
    simp only [Attempt.andThen, Attempt.change]
    split
    case isTrue hlost => exact hr.2 hlost _
    case isFalse => exact hr.1

namespace Undisturbed

variable (h : Undisturbed D I)
include h

theorem tick (op : Op) : Keeps I (tick D op) :=
  triple_tick (fun w hw _ => h.next w hw) (fun w hw _ => h.next w hw)

variable {op : Op}

theorem write {f : Fate → Disk → Disk}
    (hf : ∀ fate (d : Disk), d.Beside (f fate d) := by
      exact fun _ _ => ⟨rfl, rfl, rfl, rfl, id⟩) : Keeps I (write D op f) :=
  triple_write (h.tick op) fun fate w hw => h.beside w _ hw (hf fate w.disk)

theorem expired : Keeps I (expired D) := .bind (h.tick _) fun _ => .pure _

theorem notExpired : Keeps I (notExpired D) := .bind h.expired fun _ => .pure _

theorem request {process : Fate → World → Except Refusal (OperationRow × α)}
    (hprocess : ∀ fate w s a, process fate w = .ok (s, a) → RowBeside w.row s) :
    Keeps I (request D op process) := by
  refine triple_request (h.tick op) (fun _ _ _ hw => hw) fun fate w s a hw hs => ?_
  have hs := h.row w s hw (hprocess fate w s a hs)
  exact ⟨hs, fun _ _ => hs⟩

theorem reading {f : Fate → World → α} :
    Keeps I (Workflow.request D op fun fate w => .ok (w.row, f fate w)) :=
  h.request fun fate w s a hs => by
    cases Except.ok.inj hs
    exact .refl w.row

theorem captureRecovery : Keeps I (captureRecovery D) := by
  refine .bind keeps_disk fun d => .ite (h.write fun fate d => ?_) (.pure _)
  exact ⟨rfl, rfl, rfl, rfl, fun _ => Option.some_ne_none _⟩

theorem status : Keeps I (status P D) :=
  .bind h.reading fun _ => .bind (keeps_refuse _ _) fun _ => .pure _
theorem inventory : Keeps I (inventory D) := h.reading

theorem schema : Keeps I (schema D) := h.reading

theorem smoke (restored : Bool) : Keeps I (smoke D restored) := by
  refine .bind (h.request ?_) fun _ => .bind h.expired fun _ =>
    .bind (keeps_refuse _ _) fun _ => .pure _
  intro fate w s a hs
  cases Except.ok.inj (Guarded.check_bind_eq_ok.mp hs).2
  exact .refl w.row

omit h in
theorem rowBeside_of_fenceNotStarted {s s' : OperationRow} {schema : String × String}
    {fenced : Except Refusal Unit} {proof : UpgradeMigrationNotStarted}
    (hs : fenceNotStarted P s schema fenced = .ok (s', proof)) : RowBeside s s' := by
  simp only [fenceNotStarted, Guarded.check_bind_eq_ok] at hs
  replace hs := hs.2
  split at hs
  case h_1 => cases hs
  case h_2 =>
    cases Except.ok.inj (Guarded.check_bind_eq_ok.mp hs).2
    exact .refl s
  case h_3 =>
    obtain ⟨grant, _, hs⟩ := Guarded.bind_eq_ok.mp hs
    simp only [Guarded.check_bind_eq_ok] at hs
    cases Except.ok.inj hs.2.2
    exact ⟨rfl, rfl, rfl, fun _ hproof => by cases hproof⟩

omit h in
theorem rowBeside_of_issue {s s' : OperationRow} {r : UpgradeActivationRequest}
    {env : BoundaryEnv} {g : UpgradeActivationGrant}
    (hs : issue D.toDocuments s r env = .ok (s', g)) : RowBeside s s' := by
  rcases (issue_cases hs).2 with ⟨_, rfl⟩ | ⟨_, rfl⟩
  · exact ⟨rfl, rfl, rfl, fun _ hproof => hproof⟩
  · exact ⟨rfl, rfl, rfl, fun _ hproof => hproof⟩

theorem retainConsume (b : Boundary) : Keeps I (retainConsume P D b) := by
  refine .bind keeps_disk fun d => ?_
  split
  case h_1 => exact .pure _
  case h_2 =>
    refine .bind (.bind (h.request fun _ _ _ _ => rowBeside_of_issue) fun _ =>
      .bind (keeps_refuse _ _) fun _ => .bind h.expired fun _ =>
        .bind (keeps_refuse _ _) fun _ => .pure _) fun g => ?_
    refine .bind (h.tick _) fun fate => .bind keeps_disk fun d => ?_
    split
    case isTrue =>
      dsimp only
      split
      case isTrue =>
        refine .bind (.change fun w hw => ?_) fun _ => .pure _
        exact h.beside w _ hw ⟨rfl, rfl, rfl, rfl, id⟩
      case isFalse => exact .raise _
    case isFalse => exact .raise _

theorem fenceUnstarted (d : Disk) : Keeps I (fenceUnstarted P D d) := by
  refine .bind h.expired fun _ => .bind (keeps_refuse _ _) fun _ =>
    .bind (keeps_refuse _ _) fun _ => ?_
  refine .bind (.bind (h.request fun _ _ _ _ => rowBeside_of_fenceNotStarted) fun _ =>
    .bind (keeps_refuse _ _) fun _ => .pure _) fun proof => ?_
  refine .bind (keeps_refuse _ _) fun _ => .bind h.expired fun _ =>
    .bind (keeps_refuse _ _) fun _ => ?_
  exact .bind h.write fun _ => h.schema

theorem verifySchema (restored : Bool) : Keeps I (verifySchema P D restored) := by
  refine .bind h.schema fun _ => .bind keeps_disk fun d => ?_
  refine .bind (.ite (h.fenceUnstarted d) (.pure _)) fun _ => ?_
  exact .bind (keeps_refuse _ _) fun _ => .bind (keeps_refuse _ _) fun _ =>
    .bind (keeps_refuse _ _) fun _ => .pure _

omit h in
theorem sourceSnapshot : Keeps I sourceSnapshot := .bind keeps_disk fun _ => keeps_refuse _ _

theorem restoredRuntime : Keeps I (restoredRuntime P D) :=
  .bind sourceSnapshot fun _ => .bind (h.verifySchema _) fun _ =>
    .bind h.expired fun _ => .bind keeps_disk fun _ => keeps_refuse _ _

theorem selectedRuntime : Keeps I (selectedRuntime P D) :=
  .bind sourceSnapshot fun _ => .bind keeps_disk fun _ => .bind (keeps_refuse _ _) fun _ =>
    .bind (h.verifySchema _) fun _ => .bind h.expired fun _ => .bind keeps_disk fun _ =>
      keeps_refuse _ _

theorem restoreCohort : Keeps I (restoreCohort D) :=
  .bind h.captureRecovery fun _ => sourceSnapshot

theorem cleanupCandidates : Keeps I (cleanupCandidates P D) :=
  .bind h.restoredRuntime fun _ => h.restoredRuntime

theorem replaceCohort : Keeps I (replaceCohort P D) :=
  .bind sourceSnapshot fun _ => .bind keeps_disk fun _ => .bind (keeps_refuse _ _) fun _ =>
    .bind h.expired fun _ => .bind (keeps_refuse _ _) fun _ =>
      h.write

theorem commitRuntime : Keeps I (commitRuntime P D) := by
  refine .bind h.status fun _ => .bind keeps_disk fun _ => .bind (keeps_refuse _ _) fun _ => ?_
  refine .bind (.ite h.selectedRuntime h.restoredRuntime) fun _ => ?_
  exact .bind h.status fun _ => .bind (keeps_refuse _ _) fun _ => .bind (keeps_refuse _ _) fun _ =>
    h.write

theorem servingEvidence (restored : Bool) (probe : ℕ × String) :
    Keeps I (servingEvidence P D restored probe) :=
  .bind (h.verifySchema _) fun _ => .pure _

end Undisturbed

namespace Stable

variable (h : Stable P D I J)
include h

theorem emit {e : Emission} (he : e.phase ≠ .migrating) : Keeps I (emit P D e) := by
  refine .bind (h.tick _) fun fate => .bind keeps_disk fun d => ?_
  split
  case isTrue hn => exact .bind (h.append _ he) fun _ => .pure _
  case isFalse => exact .raise _

theorem replayReceipts : Keeps I (replayReceipts P D) :=
  h.replay.mono (fun _ hw => hw) (fun _ _ hw => hw.1) (fun _ _ hw => hw)

theorem declareUnchanged : Keeps I (declareUnchanged P D) := by
  refine .bind (h.verifySchema _) fun _ => .bind h.status fun operation =>
    .bind keeps_disk fun _ => .bind h.expired fun _ => .bind (keeps_refuse _ _) fun _ => h.emit ?_
  show (if _ then UpgradePhase.cancelledUnchanged else .failedUnchanged) ≠ .migrating
  split <;> decide

theorem verifySource : Keeps I (verifySource P D) :=
  .bind h.replayReceipts fun _ => .bind h.restoredRuntime fun _ =>
    .bind (h.smoke _) fun _ => .bind h.restoredRuntime fun _ =>
      .bind (h.servingEvidence _ _) fun _ => .bind h.expired fun _ =>
        .bind (keeps_refuse _ _) fun _ => h.emit nofun

theorem recoverStep : Keeps I (recoverStep P D) := by
  refine .bind h.captureRecovery fun _ => .bind keeps_disk fun d => .ite ?_ ?_
  · exact .bind h.replayReceipts fun _ => .bind h.commitRuntime fun _ => .pure _
  refine .bind (.ite h.notExpired (.pure _)) fun verified => .ite ?_ ?_
  · exact .bind h.restoredRuntime fun _ => h.emit nofun
  refine .bind h.expired fun late => .ite (.ite ?_ (h.emit nofun)) ?_
  · exact .bind h.replayReceipts fun _ => .pure _
  refine .ite (h.emit nofun) (.ite h.verifySource ?_)
  refine .bind h.restoreCohort fun _ => .bind h.cleanupCandidates fun _ => ?_
  exact .ite (h.emit nofun) h.declareUnchanged

theorem verifyTarget : Keeps I (verifyTarget P D) :=
  .bind h.selectedRuntime fun _ => .bind (h.smoke _) fun _ =>
    .bind h.selectedRuntime fun _ => .bind (h.servingEvidence _ _) fun _ =>
      .bind h.expired fun _ => .bind (keeps_refuse _ _) fun _ => h.emit nofun

theorem forwardStep :
    Triple (fun w => I w ∧ J w) (forwardStep P D) (fun _ => I) (fun _ => I) := by
  have weaken : ∀ {x : M (Option UpgradeReceipt)}, Keeps I x →
      Triple (fun w => I w ∧ J w) x (fun _ => I) (fun _ => I) := fun hx =>
    hx.mono (fun _ hw => hw.1) (fun _ _ hw => hw) (fun _ _ hw => hw)
  refine Triple.bind (Q := fun _ w => I w ∧ J w) (fun _ hw => hw) fun d => ?_
  split
  · refine weaken (.bind h.write fun _ => ?_)
    exact .bind (h.verifySchema _) fun _ => h.emit nofun
  split
  case h_1 => exact weaken (.bind h.inventory fun _ => h.emit nofun)
  case h_2 => exact weaken (h.emit nofun)
  case h_3 =>
    refine weaken (.bind h.expired fun _ => .ite ?_ (.bind h.inventory fun _ => .ite ?_ (.pure _)))
    · exact .bind h.captureRecovery fun _ => h.recoverStep
    · exact .bind (h.verifySchema _) fun _ => h.emit nofun
  case h_4 => exact h.consume _
  case h_5 => exact h.consume _
  case h_6 => exact weaken h.migrate
  case h_7 => exact weaken (.bind h.replaceCohort fun _ => h.emit nofun)
  case h_8 => exact weaken (.bind h.selectedRuntime fun _ => h.emit nofun)
  case h_9 => exact weaken h.verifyTarget
  case h_10 =>
    refine weaken (.bind (.require _ _) fun _ => .ite ?_ ?_)
    · exact .bind h.selectedRuntime fun _ => h.emit nofun
    · exact .bind h.commitRuntime fun _ => h.emit nofun
  case h_11 => exact weaken (.raise _)

theorem unreached (d : Disk) (e : Refusal) : Keeps I (unreached P D d e) := by
  refine .bind keeps_disk fun now => .ite ?_ (.bind (.ite h.expired (.pure _)) fun _ => .ite ?_ ?_)
  · exact .bind h.captureRecovery fun _ => h.recoverStep
  · exact .bind h.captureRecovery fun _ => h.recoverStep
  refine .ite (.bind (.observe _ (.bind h.replaceCohort fun _ => h.emit nofun)) ?_)
    (.raise _)
  intro result
  cases result with
  | ok receipt => exact .pure _
  | error e => exact .bind h.captureRecovery fun _ => .raise _

theorem failed (d : Disk) (e : Refusal) : Keeps I (failed D d e) :=
  .ite (.raise _) (.bind (.ite h.notExpired (.pure _)) fun _ =>
    .ite (.pure _) (.bind h.captureRecovery fun _ => .raise _))

theorem advanceCoreStep : Keeps I (advanceCoreStep P D) := by
  refine .bind keeps_disk fun d => .ite h.recoverStep ?_
  have hstatus := (h.sent.status (P := P)).mono (fun _ hw => hw) (fun _ _ hw => hw)
    (fun _ _ hw => And.left hw)
  refine Triple.bind (Triple.observe (Triple.bind h.replay fun _ => hstatus)) ?_
  intro result
  cases result with
  | error e =>
    exact (h.unreached d e).mono (fun _ hw => hw.elim fun _ he => he.2)
      (fun _ _ hw => hw) (fun _ _ hw => hw)
  | ok operation =>
    have weaken : ∀ {x : M (Option UpgradeReceipt)}, Keeps I x →
        Triple (fun w => I w ∧ J w) x (fun _ => I) (fun _ => I) := fun hx =>
      hx.mono (fun _ hw => hw.1) (fun _ _ hw => hw) (fun _ _ hw => hw)
    refine Triple.ite (weaken ?_) (Triple.ite (weaken ?_) (Triple.ite (weaken (.raise _)) ?_))
    · exact .bind (keeps_refuse _ _) fun _ => .bind h.commitRuntime fun _ => .pure _
    · exact .bind h.captureRecovery fun _ => h.recoverStep
    refine Triple.bind (Triple.observe h.forwardStep) fun result => ?_
    cases result with
    | ok receipt => exact fun _ hw => hw
    | error e =>
      exact (h.failed d e).mono (fun _ hw => hw.elim fun _ he => he.2)
        (fun _ _ hw => hw) (fun _ _ hw => hw)

end Stable

end Upgrades.Workflow
