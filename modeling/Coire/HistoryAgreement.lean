import Mathlib.Data.Countable.Basic
import Mathlib.Logic.Equiv.List
import Coire.WorkflowInvariants

/-!
# The two histories of a Core upgrade

The receipts of the API and those of the executor are the same history as long as the
API has nothing that the executor has not written down first. There is one exception
to that: the API appends the intent of a consumed grant itself, and the executor
follows. Between the two the executor must not do anything else. It does, though, when
the reply to the consumption is lost or the process ends before the intent is written
down: an error or a cancellation then begins recovery, whose first receipt has the
number of the intent (`lost_consume_forks_history`).

In every run without that the histories agree (`histories_agree`): what the API has is
the beginning of what the executor has (`Joint`).
-/

namespace Upgrades.Workflow

open Executor (UpgradeActivationConsume)
open Attempt (Triple Keeps)
open Guarded (check_bind_eq_ok bind_eq_ok refuse_eq_ok require_eq_ok)

def Agree (w : World) : Prop :=
  ∀ r ∈ w.row.receipts, ∀ r' ∈ w.disk.receipts, r.sequence = r'.sequence → r = r'

def Numbered (rs : List UpgradeReceipt) : Prop :=
  rs.map UpgradeReceipt.sequence = List.range' 1 rs.length

section Numbered

variable {rs : List UpgradeReceipt} {r r' : UpgradeReceipt}

theorem Numbered.eq_of_sequence (h : Numbered rs) (hr : r ∈ rs) (hr' : r' ∈ rs)
    (hs : r.sequence = r'.sequence) : r = r' := by
  refine List.inj_on_of_nodup_map ?_ hr hr' hs
  rw [h]
  exact List.nodup_range'

theorem Numbered.sequence_of_get? (h : Numbered rs) {i : ℕ} (hi : rs[i]? = some r) :
    r.sequence = i + 1 := by
  have hseq : (rs.map UpgradeReceipt.sequence)[i]? = some r.sequence := by
    rw [List.getElem?_map, hi, Option.map_some]
  rw [h, List.getElem?_range' (List.getElem?_eq_some_iff.mp hi).1] at hseq
  have := Option.some.inj hseq
  omega

theorem Numbered.get? (h : Numbered rs) (hr : r ∈ rs) : rs[r.sequence - 1]? = some r := by
  obtain ⟨i, hi⟩ := List.mem_iff_getElem?.mp hr
  rw [h.sequence_of_get? hi, Nat.add_sub_cancel]
  exact hi

theorem Numbered.snoc (h : Numbered rs) (hr : r.sequence = rs.length + 1) :
    Numbered (rs ++ [r]) := by
  grind [Numbered, List.length_append, List.map_singleton,
    List.length_singleton, List.range'_concat]

theorem Numbered.lt_sequence (h : Numbered rs) {n : ℕ} (hr : r ∈ rs.drop n) :
    n < r.sequence := by
  obtain ⟨i, hi⟩ := List.mem_iff_getElem?.mp hr
  rw [List.getElem?_drop] at hi
  rw [h.sequence_of_get? hi]
  omega

end Numbered

/-! ## The invariant -/

section Invariant

variable (P : CorePlan) (D : Papers)

/-- **The row has the beginning of the history `rs`.** A recorded migration has left
the digest of its schema. -/
structure Sent (rs : List UpgradeReceipt) (s : OperationRow) : Prop where
  core : s.operation.kind = .controlPlane
  plan : s.executionPlan = some P.toAcceptedPlan
  begins : s.receipts <+: rs
  sequence : s.operation.receiptSequence = s.receipts.length
  record : ∀ proof, s.migrationExecution = some (.execution proof) →
    proof.schemaAfterSha256 ≠ none

structure Kept (d : Disk) : Prop where
  numbered : Numbered d.receipts
  activated : ∀ r ∈ d.receipts, r.phase = .migrating → d.activationOf .migration ≠ none
  evidence : ∀ r ∈ d.receipts, r.phase = .migrating → r.outcome = .complete →
    (D.readEvidence r.evidence).schemaAfterSha256 ≠ none
  proof : ∀ proof, d.migrationProof = some proof → proof.schemaAfterSha256 ≠ none

/-- **No consumption is lost**: neither its reply, nor what is to be written after
it. -/
def Careful (fates : List Fate) : Prop :=
  ∀ fate ∈ fates, fate.lost .consume = false ∧ fate.stop .record = false

structure Joint (w : World) : Prop where
  sent : Sent P w.disk.receipts w.row
  kept : Kept D w.disk
  cursor : w.disk.acknowledged ≤ w.row.receipts.length
  careful : Careful w.fates

def AllSent (w : World) : Prop := w.row.receipts = w.disk.receipts

/-- **The API is one receipt ahead**: it has the intent that the executor is about to
write down. -/
structure Ahead (r : UpgradeReceipt) (w : World) : Prop where
  sent : Sent P (w.disk.receipts ++ [r]) w.row
  ahead : w.row.receipts = w.disk.receipts ++ [r]
  next : r.sequence = w.disk.receipts.length + 1
  kept : Kept D w.disk
  cursor : w.disk.acknowledged ≤ w.row.receipts.length
  careful : Careful w.fates

variable {P D} {w : World} {rs : List UpgradeReceipt} {s s' : OperationRow}

theorem Joint.agree (h : Joint P D w) : Agree w := fun _ hr _ hr' =>
  h.kept.numbered.eq_of_sequence (h.sent.begins.subset hr) hr'

theorem Careful.fate (h : Careful w.fates) :
    w.fate.lost .consume = false ∧ w.fate.stop .record = false := by
  unfold World.fate
  cases hfates : w.fates with
  | nil => exact ⟨rfl, rfl⟩
  | cons fate rest => exact h fate (hfates ▸ List.mem_cons_self)

theorem Careful.tail {fates : List Fate} (h : Careful fates) : Careful fates.tail :=
  fun fate hfate => h fate (List.mem_of_mem_tail hfate)

theorem Sent.cancelled (h : Sent P rs s) : Sent P rs (cancelled D.toDocuments s) := by
  rcases cancelled_cases D.toDocuments s with hs | ⟨hs, _⟩
  · rw [hs]
    exact h
  · rw [hs]
    exact ⟨h.core, h.plan, h.begins, h.sequence, h.record⟩

theorem receipts_cancelled (D : Documents) (s : OperationRow) :
    (cancelled D s).receipts = s.receipts := by
  rcases cancelled_cases D s with hs | ⟨hs, _⟩
  · rw [hs]
  · rw [hs]
    rfl

theorem receipts_next (w : World) : (w.next D).row.receipts = w.row.receipts := by
  show (if _ then _ else _ : OperationRow).receipts = _
  split
  · exact receipts_cancelled _ _
  · rfl

theorem Sent.next (h : Sent P rs w.row) : Sent P rs (w.next D).row := by
  show Sent P rs (if _ then _ else _)
  split
  · exact h.cancelled
  · exact h

theorem Sent.beside (h : Sent P rs s) (hs : RowBeside s s') : Sent P rs s' where
  core := hs.operation ▸ h.core
  plan := hs.executionPlan ▸ h.plan
  begins := hs.receipts ▸ h.begins
  sequence := by rw [hs.operation, hs.receipts, h.sequence]
  record proof hproof := h.record proof (hs.execution proof hproof)

variable {d : Disk} {c : UpgradeActivationConsume} {r : UpgradeReceipt}

theorem Kept.beside {d' : Disk} (h : Kept D d) (hd : d.Beside d') : Kept D d' where
  numbered := hd.receipts ▸ h.numbered
  activated r hr := by
    unfold Disk.activationOf
    rw [hd.activations]
    exact h.activated r (hd.receipts ▸ hr)
  evidence r hr := h.evidence r (hd.receipts ▸ hr)
  proof proof hproof := h.proof proof (hd.migrationProof ▸ hproof)

theorem joint_undisturbed : Undisturbed D (Joint P D) where
  next w h := ⟨h.sent.next, h.kept, (receipts_next w).symm ▸ h.cursor, h.careful.tail⟩
  beside w d h hd := ⟨hd.receipts.symm ▸ h.sent, h.kept.beside hd,
    hd.acknowledged.symm ▸ h.cursor, h.careful⟩
  row w s h hs := ⟨h.sent.beside hs, h.kept, hs.receipts.symm ▸ h.cursor, h.careful⟩

theorem sent_undisturbed : Undisturbed D fun w => Joint P D w ∧ AllSent w where
  next w h := ⟨joint_undisturbed.next w h.1, (receipts_next w).trans h.2⟩
  beside w d h hd := ⟨joint_undisturbed.beside w d h.1 hd, h.2.trans hd.receipts.symm⟩
  row w s h hs := ⟨joint_undisturbed.row w s h.1 hs, hs.receipts.trans h.2⟩

/-! ## Receipts -/

theorem Sent.ingestReceipt (h : Sent P rs s) (hn : Numbered rs)
    (hr : r ∈ rs) {env : IngestEnv} {appended : Bool}
    (hs : ingestReceipt D.toDocuments s r env = .ok (s', appended)) :
    Sent P rs s' ∧ s.receipts.length ≤ s'.receipts.length := by
  rcases ingestReceipt_cases hs with ⟨rfl, _⟩ | ⟨plan, _, _, _, hseq, rfl⟩
  · exact ⟨h, le_rfl⟩
  have hget := hn.get? hr
  rw [hseq, h.sequence, Nat.add_sub_cancel] at hget
  have hbegins : s.receipts ++ [r] <+: rs := by
    obtain ⟨rest, rfl⟩ := h.begins
    rw [List.getElem?_append_right le_rfl, Nat.sub_self] at hget
    cases rest with
    | nil => cases hget
    | cons r' rest =>
      cases hget
      exact ⟨rest, by rw [List.append_assoc, List.singleton_append]⟩
  refine ⟨⟨h.core, h.plan, hbegins, ?_, h.record⟩, ?_⟩
  · show r.sequence = (s.receipts ++ [r]).length
    rw [hseq, h.sequence, List.length_append, List.length_singleton]
  · exact (List.sublist_append_left s.receipts [r]).length_le

theorem Sent.ingestAll (hn : Numbered rs) {env : IngestEnv} :
    ∀ {batch : List UpgradeReceipt} {s s' : OperationRow}, Sent P rs s → batch ⊆ rs →
      ingestAll D.toDocuments env batch s = .ok s' →
      Sent P rs s' ∧ s.receipts.length ≤ s'.receipts.length
  | [], s, s', h, _, hs => by
    cases Except.ok.inj hs
    exact ⟨h, le_rfl⟩
  | r :: rest, s, s', h, hbatch, hs => by
    obtain ⟨⟨t, appended⟩, ht, hs⟩ := bind_eq_ok.mp hs
    have h1 := h.ingestReceipt hn (hbatch List.mem_cons_self) ht
    have h2 := Sent.ingestAll hn h1.1 (fun r' hr' => hbatch (.tail _ hr')) hs
    exact ⟨h2.1, h1.2.trans h2.2⟩

theorem joint_tick (d : Disk) (op : Op) :
    Triple (fun w => Joint P D w ∧ w.disk = d) (tick D op)
      (fun _ w => Joint P D w ∧ w.disk = d) (fun _ => Joint P D) :=
  triple_tick (fun w hw _ => ⟨joint_undisturbed.next w hw.1, hw.2⟩)
    (fun w hw _ => joint_undisturbed.next w hw.1)

theorem triple_sendReceipts {batch : List UpgradeReceipt}
    (hbatch : batch ⊆ d.receipts) :
    Triple (fun w => Joint P D w ∧ w.disk = d) (sendReceipts P D batch)
      (fun n w => (Joint P D w ∧ w.disk = d) ∧ n = w.row.receipts.length)
      (fun _ => Joint P D) := by
  refine Triple.refuse_bind (fun _ _ hw => hw.1) fun _ => ?_
  refine Triple.bind (triple_request (joint_tick d _) (fun _ _ _ hw => hw.1) ?_) fun n =>
    Triple.refuse_bind (fun _ _ hw => hw.1.1) fun _ _ hw => hw
  rintro fate w s n ⟨hw, rfl⟩ hs
  obtain ⟨t, ht, hs⟩ := bind_eq_ok.mp hs
  cases Except.ok.inj hs
  obtain ⟨hsent, hle⟩ := hw.sent.ingestAll hw.kept.numbered hbatch ht
  have hjoint : Joint P D { w with row := s } :=
    ⟨hsent, hw.kept, hw.cursor.trans hle, hw.careful⟩
  exact ⟨⟨⟨hjoint, rfl⟩, hsent.sequence⟩, fun _ _ => hjoint⟩

theorem triple_acknowledge {n : ℕ} :
    Triple (fun w => (Joint P D w ∧ w.disk = d) ∧ n = w.row.receipts.length)
      (acknowledge D n) (fun _ w => Joint P D w ∧ w.disk.receipts = d.receipts
        ∧ w.disk.acknowledged = n) (fun _ => Joint P D) := by
  refine Triple.read fun _ => Triple.refuse_bind (fun _ _ hw => hw.1.1.1) fun _ => ?_
  refine triple_write (R := fun _ w => (Joint P D w ∧ w.disk = d)
    ∧ n = w.row.receipts.length)
    (triple_tick ?_ fun w hw _ => joint_undisturbed.next w hw.1.1.1) ?_
  · rintro w ⟨⟨⟨hw, hd⟩, hn⟩, _⟩ _
    exact ⟨⟨joint_undisturbed.next w hw, hd⟩, hn.trans (congrArg _ (receipts_next w).symm)⟩
  · rintro fate w ⟨⟨hw, rfl⟩, rfl⟩
    exact ⟨⟨hw.sent, ⟨hw.kept.numbered, hw.kept.activated, hw.kept.evidence, hw.kept.proof⟩,
      le_rfl, hw.careful⟩, rfl, rfl⟩

theorem Joint.allSent (h : Joint P D w)
    (hle : w.disk.receipts.length ≤ w.disk.acknowledged) : AllSent w :=
  h.sent.begins.eq_of_length_le (hle.trans h.cursor)

theorem triple_replayPages : ∀ fuel : ℕ,
    Triple (fun w => Joint P D w ∧ w.disk.receipts.length ≤ w.disk.acknowledged + fuel)
      (replayPages P D fuel) (fun _ w => Joint P D w ∧ AllSent w) (fun _ => Joint P D)
  | 0 => fun w hw => ⟨hw.1, hw.1.allSent hw.2⟩
  | fuel + 1 => by
    refine Triple.read fun d => Triple.assuming
      (p := Numbered d.receipts ∧ d.receipts.length ≤ d.acknowledged + (fuel + 1)) ?_ ?_
    · rintro w ⟨⟨hw, hle⟩, rfl⟩
      exact ⟨hw.kept.numbered, hle⟩
    rintro ⟨hnumbered, hle⟩
    split
    case h_1 hnone =>
      rintro w ⟨⟨hw, _⟩, rfl⟩
      refine ⟨hw, hw.allSent ?_⟩
      -- An empty page is an empty rest.
      have hpage := List.take_eq_nil_iff.mp (List.getLast?_eq_none_iff.mp hnone)
      exact List.drop_eq_nil_iff.mp (hpage.resolve_left (by decide))
    case h_2 last hlast =>
      have hpage : d.page d.acknowledged ⊆ d.receipts.drop d.acknowledged :=
        fun r hr => List.mem_of_mem_take hr
      have hnew := hnumbered.lt_sequence (hpage (List.mem_of_getLast? hlast))
      refine Triple.bind ((triple_sendReceipts fun r hr => List.mem_of_mem_drop (hpage hr)).mono
        (fun _ hw => ⟨hw.1.1, hw.2⟩) (fun _ _ hw => hw) (fun _ _ hw => hw)) fun n => ?_
      refine Triple.refuse_bind (fun _ _ hw => hw.1.1) fun hn => ?_
      refine Triple.bind triple_acknowledge fun _ => (triple_replayPages fuel).mono ?_
        (fun _ _ hw => hw) (fun _ _ hw => hw)
      rintro w ⟨hw, hreceipts, hack⟩
      rw [hreceipts, hack, not_not.mp hn]
      exact ⟨hw, by omega⟩

theorem triple_replayReceipts : Triple (Joint P D) (replayReceipts P D)
    (fun _ w => Joint P D w ∧ AllSent w) (fun _ => Joint P D) := by
  refine Triple.read fun d => (triple_replayPages _).mono ?_ (fun _ _ hw => hw)
    (fun _ _ hw => hw)
  rintro w ⟨hw, rfl⟩
  exact ⟨hw, Nat.le_add_left _ _⟩

theorem Sent.snoc (h : Sent P rs s) (r : UpgradeReceipt) : Sent P (rs ++ [r]) s :=
  ⟨h.core, h.plan, h.begins.trans (List.prefix_append rs [r]), h.sequence, h.record⟩

theorem Kept.snoc (h : Kept D d) (hr : r.sequence = d.receipts.length + 1)
    (hm : r.phase = .migrating → d.activationOf .migration ≠ none
      ∧ (r.outcome = .complete → (D.readEvidence r.evidence).schemaAfterSha256 ≠ none)) :
    Kept D { d with receipts := d.receipts ++ [r] } where
  numbered := h.numbered.snoc hr
  activated r' hr' hphase := by
    rcases List.mem_append.mp hr' with hold | hnew
    · exact h.activated r' hold hphase
    · cases List.mem_singleton.mp hnew
      exact (hm hphase).1
  evidence r' hr' hphase houtcome := by
    rcases List.mem_append.mp hr' with hold | hnew
    · exact h.evidence r' hold hphase houtcome
    · grind
  proof := h.proof

theorem triple_append (F : OperationRow → Prop) :
    Triple (fun w => Joint P D w ∧ F w.row ∧ (r.phase = .migrating → r ∈ w.disk.receipts
        ∨ (w.disk.activationOf .migration ≠ none ∧ (r.outcome = .complete →
          (D.readEvidence r.evidence).schemaAfterSha256 ≠ none))))
      (append P D r) (fun _ w => Joint P D w ∧ F w.row) (fun _ => Joint P D) := by
  refine Triple.read fun d => ?_
  refine Triple.refuse_bind (fun _ _ hw => hw.1.1) fun _ => ?_
  split
  case h_1 => exact Triple.refuse (fun _ hw _ => hw.1.1) (fun _ hw _ => ⟨hw.1.1, hw.1.2.1⟩)
  case h_2 hnone =>
    refine Triple.refuse_bind (fun _ _ hw => hw.1.1) fun hn => Triple.change ?_
    rintro w ⟨⟨hw, hF, hm⟩, rfl⟩
    refine ⟨⟨hw.sent.snoc r, hw.kept.snoc (not_not.mp hn) fun hphase => ?_, hw.cursor,
      hw.careful⟩, hF⟩
    refine (hm hphase).resolve_left fun hmem => ?_
    rw [hw.kept.numbered.get? hmem] at hnone
    cases hnone

/-! ## The migration -/

def Activated (P : CorePlan) (D : Papers) (w : World) : Prop :=
  Joint P D w ∧ w.disk.activationOf .migration ≠ none

theorem activated_undisturbed : Undisturbed D (Activated P D) where
  next w h := ⟨joint_undisturbed.next w h.1, h.2⟩
  beside w d h hd := by
    refine ⟨joint_undisturbed.beside w d h.1 hd, ?_⟩
    show d.activations.find? _ ≠ none
    rw [hd.activations]
    exact h.2
  row w s h hs := ⟨joint_undisturbed.row w s h.1 hs, h.2⟩

theorem Joint.runMigration (h : Joint P D w) (fate : Fate) :
    Joint P D (runMigration P fate w) ∧ (runMigration P fate w).disk = w.disk := by
  unfold Workflow.runMigration
  split
  case h_1 grant after _ _ =>
    refine ⟨⟨⟨h.sent.core, h.sent.plan, h.sent.begins, h.sent.sequence, ?_⟩, h.kept,
      h.cursor, h.careful⟩, rfl⟩
    intro proof hproof
    cases hproof
    exact Option.some_ne_none _
  case h_2 => exact ⟨h, rfl⟩

theorem triple_migration : Triple (Activated P D) (migration P D)
    (fun proof w => Activated P D w ∧ proof.schemaAfterSha256 ≠ none)
    (fun _ => Activated P D) := by
  refine triple_request (activated_undisturbed.tick _) (fun _ _ _ hw => hw) ?_
  intro fate w s proof hw hs
  split at hs
  case h_1 proof' hproof =>
    cases Except.ok.inj (check_bind_eq_ok.mp hs).2
    exact ⟨⟨hw, hw.1.sent.record proof hproof⟩, fun _ _ => hw⟩
  case h_2 => cases hs

theorem triple_migrate : Triple (Joint P D) (migrate P D)
    (fun proof w => Activated P D w ∧ proof.schemaAfterSha256 ≠ none)
    (fun _ => Joint P D) := by
  have forget {α : Type} {x : M α} (hx : Keeps (Activated P D) x) :
      Triple (Activated P D) x (fun _ => Activated P D) (fun _ => Joint P D) :=
    hx.mono (fun _ hw => hw) (fun _ _ hw => hw) (fun _ _ hw => hw.1)
  refine Triple.read fun d => Triple.assuming (p := Kept D d) ?_ fun hkept => ?_
  · rintro w ⟨hw, rfl⟩
    exact hw.kept
  refine Triple.refuse_bind (fun _ _ hw => hw.1) fun hactivated => ?_
  refine Triple.mono (P := Activated P D) ?_ ?_ (fun _ _ hw => hw) (fun _ _ hw => hw)
  swap
  · rintro w ⟨hw, rfl⟩
    exact ⟨hw, hactivated⟩
  refine Triple.bind (forget activated_undisturbed.write) fun _ =>
    Triple.bind (forget (keeps_refuse _ _)) fun _ => ?_
  split
  case h_1 proof hproof =>
    exact Triple.bind (forget (keeps_refuse _ _)) fun _ w hw => ⟨hw, hkept.proof proof hproof⟩
  case h_2 =>
    refine Triple.bind (forget activated_undisturbed.expired) fun _ =>
      Triple.bind (forget (keeps_refuse _ _)) fun _ => Triple.bind (forget (.ite (.pure _) ?_))
        fun _ => ?_
    · refine .bind (activated_undisturbed.tick _) fun fate => .bind (.change ?_) fun _ =>
        .change ?_
      · intro w hw
        have hrun := hw.1.runMigration fate
        exact ⟨hrun.1, hrun.2 ▸ hw.2⟩
      · intro w hw
        exact activated_undisturbed.beside w _ hw ⟨rfl, rfl, rfl, rfl, id⟩
    refine Triple.bind (triple_migration.mono (fun _ hw => hw) (fun _ _ hw => hw)
      (fun _ _ hw => hw.1)) fun proof => ?_
    refine Triple.assuming (p := proof.schemaAfterSha256 ≠ none) (fun _ hw => hw.2)
      fun hproof => ?_
    refine Triple.bind (Q := fun _ => Activated P D) (triple_write
      ((forget (activated_undisturbed.tick _)).mono (fun _ hw => hw.1) (fun _ _ hw => hw)
        (fun _ _ hw => hw)) ?_) fun _ =>
      Triple.bind (forget (keeps_refuse _ _)) fun _ w hw => ⟨hw, hproof⟩
    intro fate w hw
    have hkept := hw.1.kept
    refine ⟨⟨hw.1.sent, ⟨hkept.numbered, hkept.activated, hkept.evidence, ?_⟩, hw.1.cursor,
      hw.1.careful⟩, hw.2⟩
    intro proof' hproof'
    cases hproof'
    exact hproof

theorem joint_reportMigration : Keeps (Joint P D) (reportMigration P D) := by
  refine Triple.bind triple_migrate fun proof => ?_
  refine Triple.assuming (p := proof.schemaAfterSha256 ≠ none) (fun _ hw => hw.2)
    fun hproof => ?_
  refine Triple.bind (Q := fun _ => Activated P D)
    ((activated_undisturbed.tick _).mono (fun _ hw => hw.1) (fun _ _ hw => hw)
      (fun _ _ hw => hw.1)) fun fate => Triple.read fun d => ?_
  split
  case isTrue hn =>
    refine Triple.bind ((triple_append fun _ => True).mono ?_ (fun _ _ hw => hw.1)
      (fun _ _ hw => hw)) fun _ => Keeps.pure _
    rintro w ⟨hw, _⟩
    refine ⟨hw.1, trivial, fun _ => .inr ⟨hw.2, fun _ => ?_⟩⟩
    show (D.readEvidence (D.evidence (migratedEvidence proof))).schemaAfterSha256 ≠ none
    rw [D.readEvidence_evidence]
    exact hproof
  case isFalse => exact fun w hw => hw.1.1

/-! ## The consumption of a grant -/

theorem migrated_of_boundaryChecks {env : BoundaryEnv}
    (hcore : s.operation.kind = .controlPlane) (hneeds : P.needsMigration = true)
    (h : boundaryChecks D.toDocuments s .runtime P.toAcceptedPlan env = .ok ()) :
    ∃ proof, s.receipts.getLast? = some proof ∧ proof.phase = .migrating
      ∧ proof.outcome = .complete ∧ proof.evidence ≠ ""
      ∧ (D.readEvidence proof.evidence).schemaHead = P.schemaHeadAfter
      ∧ (D.readEvidence proof.evidence).migrationExitCode = some 0 := by
  simp only [boundaryChecks, verifyActivationReady, check_bind_eq_ok] at h
  replace h := h.2.1.2.2.2
  split at h
  case h_1 => cases h
  case h_2 proof hproof =>
    simp only [check_bind_eq_ok, refuse_eq_ok, not_or, ne_eq, not_not] at h
    obtain ⟨⟨hcomplete, _⟩, h⟩ := h
    rw [hcore] at h
    simp only [coreReady, check_bind_eq_ok, refuse_eq_ok] at h
    obtain ⟨hevidence, h⟩ := h
    split at h
    case isTrue =>
      -- At a staged candidate the plan would have to be without a migration.
      simp only [check_bind_eq_ok, refuse_eq_ok, not_or, ne_eq, not_not] at h
      have hboundary := h.1.2.2.2.2.2
      rw [hneeds] at hboundary
      exact absurd hboundary (by decide)
    case isFalse =>
      simp only [refuse_eq_ok, not_or, ne_eq, not_not] at h
      exact ⟨proof, hproof, h.2.1, hcomplete, hevidence, h.2.2.2.2.1, h.2.2.2.2.2⟩

theorem Sent.consume (h : Sent P rs s) (hrs : s.receipts = rs)
    {g : UpgradeActivationGrant} {env : BoundaryEnv} {u : Unit}
    (hs : Upgrades.consume D.toDocuments s g r env = .ok (s', u)) :
    (Sent P rs s' ∧ s'.receipts = rs ∧ r ∈ rs) ∨
    (Sent P (rs ++ [r]) s' ∧ s'.receipts = rs ++ [r] ∧ r.sequence = rs.length + 1
      ∧ boundaryChecks D.toDocuments s g.boundary P.toAcceptedPlan env = .ok ()) := by
  subst hrs
  simp only [Upgrades.consume, check_bind_eq_ok] at hs
  replace hs := hs.2
  split at hs
  case h_1 => cases hs
  case h_2 authority _ =>
    split at hs
    case h_1 =>
      obtain ⟨hreplay, hs⟩ := check_bind_eq_ok.mp hs
      cases Except.ok.inj hs
      exact .inl ⟨h, rfl, mem_of_consumedReplay hreplay⟩
    case h_2 =>
      replace hs := (check_bind_eq_ok.mp hs).2
      rw [h.plan] at hs
      simp only [check_bind_eq_ok] at hs
      obtain ⟨hchecks, _, hs⟩ := hs
      obtain ⟨⟨t, appended⟩, ht, hs⟩ := bind_eq_ok.mp hs
      cases Except.ok.inj hs
      rcases appendReceipt_cases ht with ⟨rfl, _, hmem⟩ | ⟨_, _, _, _, hseq, rfl⟩
      · exact .inl ⟨⟨h.core, h.plan, h.begins, h.sequence, h.record⟩, rfl, hmem⟩
      rw [h.sequence] at hseq
      refine .inr ⟨⟨h.core, h.plan, List.prefix_rfl, ?_, h.record⟩, rfl, hseq, hchecks⟩
      show r.sequence = (s.receipts ++ [r]).length
      rw [hseq, List.length_append, List.length_singleton]

structure Recorded (c : UpgradeActivationConsume) (d d' : Disk) : Prop where
  receipts : d'.receipts = d.receipts
  acknowledged : d'.acknowledged = d.acknowledged
  migrationProof : d'.migrationProof = d.migrationProof
  extends_ : ∀ b, d.activationOf b ≠ none → d'.activationOf b ≠ none
  recorded : d'.activationOf c.grant.boundary ≠ none

theorem Kept.recorded {d' : Disk} (h : Kept D d)
    (hd : Recorded c d d') : Kept D d' where
  numbered := hd.receipts ▸ h.numbered
  activated r hr hphase := hd.extends_ _ (h.activated r (hd.receipts ▸ hr) hphase)
  evidence r hr := h.evidence r (hd.receipts ▸ hr)
  proof proof hproof := h.proof proof (hd.migrationProof ▸ hproof)

theorem recorded_of_activation {acknowledged : Bool}
    {fate : Fate} {d' : Disk} (h : activation P D c acknowledged fate d = .ok d') :
    Recorded c d d' := by
  unfold activation at h
  simp only at h
  have hcaptured : ∀ t : Disk, t = (if acknowledged = true ∧ d.recoveryCapturedAt = none then
      { d with recoveryCapturedAt := some (min fate.now c.grant.expiresAt) } else d) →
      t.receipts = d.receipts ∧ t.acknowledged = d.acknowledged
        ∧ t.migrationProof = d.migrationProof ∧ t.activations = d.activations := by
    intro t ht
    rw [ht]
    split <;> exact ⟨rfl, rfl, rfl, rfl⟩
  obtain ⟨hr, ha, hm, hact⟩ := hcaptured _ rfl
  split at h
  case h_1 existing hexisting =>
    cases Except.ok.inj (check_bind_eq_ok.mp h).2
    refine ⟨hr, ha, hm, fun b hb => ?_, ?_⟩
    · unfold Disk.activationOf
      rw [hact]
      exact hb
    · unfold Disk.activationOf at hexisting ⊢
      rw [hact, hexisting]
      exact Option.some_ne_none _
  case h_2 =>
    simp only [check_bind_eq_ok] at h
    cases Except.ok.inj h.2.2.2
    refine ⟨hr, ha, hm, fun b hb => ?_, ?_⟩
    · show (d.activations ++ [c]).find? _ ≠ none
      rw [List.find?_append]
      exact fun hnone => hb (Option.or_eq_none_iff.mp hnone).1
    · show (d.activations ++ [c]).find? _ ≠ none
      rw [List.find?_append]
      intro hnone
      have := (Option.or_eq_none_iff.mp hnone).2
      rw [List.find?_singleton, if_pos (decide_eq_true rfl)] at this
      cases this

def Migrated (P : CorePlan) (D : Papers) (d : Disk) : Prop :=
  ∃ proof, d.latest = some proof ∧ proof.phase = .migrating ∧ proof.outcome = .complete
    ∧ proof.evidence ≠ "" ∧ (D.readEvidence proof.evidence).schemaHead = P.schemaHeadAfter
    ∧ (D.readEvidence proof.evidence).migrationExitCode = some 0

theorem Migrated.proved (h : Migrated P D d) (hkept : Kept D d) :
    migrationProved P D d = .ok () := by
  obtain ⟨proof, hlatest, hphase, houtcome, hevidence, hhead, hexit⟩ := h
  have hmem : proof ∈ d.receipts := List.mem_of_getLast? hlatest
  unfold migrationProved
  rw [check_bind_eq_ok, refuse_eq_ok]
  refine ⟨hkept.activated proof hmem hphase, bind_eq_ok.mpr
    ⟨proof, require_eq_ok.mpr hlatest, ?_⟩⟩
  simp only [check_bind_eq_ok, refuse_eq_ok, not_or, ne_eq, not_not]
  exact ⟨⟨hphase, houtcome, hevidence⟩, hexit, hhead,
    hkept.evidence proof hmem hphase houtcome⟩

theorem activation_succeeds (hkept : Kept D d)
    (hexisting : d.activationOf c.grant.boundary = none
      ∨ d.activationOf c.grant.boundary = some c)
    (hmigrated : c.grant.boundary = .runtime → P.needsMigration = true → Migrated P D d)
    (acknowledged : Bool) (fate : Fate) :
    (∃ d', activation P D c acknowledged fate d = .ok d') ∨
      acknowledged = false ∧ ∃ m, activation P D c acknowledged fate d
        = .error (.forbidden m) := by
  unfold activation
  simp only
  rcases hexisting with hnone | hsome
  · rw [hnone]
    simp only
    by_cases hlate : fate.expired = true ∧ ¬ acknowledged = true
    · refine .inr ⟨Bool.not_eq_true _ ▸ hlate.2, "Executor activation authorization expired", ?_⟩
      rw [Guarded.refuse, if_pos hlate]
      rfl
    by_cases hcaptured : d.recoveryCapturedAt ≠ none ∧ ¬ acknowledged = true
    · refine .inr ⟨Bool.not_eq_true _ ▸ hcaptured.2,
        "Recovery cannot accept a candidate activation", ?_⟩
      rw [Guarded.refuse, if_neg hlate, Guarded.refuse, if_pos hcaptured]
      rfl
    refine .inl ⟨_, check_bind_eq_ok.mpr ⟨refuse_eq_ok.mpr hlate, check_bind_eq_ok.mpr
      ⟨refuse_eq_ok.mpr hcaptured, check_bind_eq_ok.mpr ⟨?_, rfl⟩⟩⟩⟩
    unfold Guarded.checkIf
    split
    case isTrue hruntime => exact (hmigrated hruntime.1 hruntime.2).proved hkept
    case isFalse => rfl
  · rw [hsome]
    exact .inl ⟨_, check_bind_eq_ok.mpr ⟨refuse_eq_ok.mpr (not_not.mpr rfl), rfl⟩⟩

theorem joint_recordActivation (c : UpgradeActivationConsume) (n : ℕ) :
    Triple (fun w => Joint P D w ∧ n = w.row.receipts.length ∧ c.intent ∈ w.disk.receipts)
      (recordActivation P D c)
      (fun _ w => Joint P D w ∧ n = w.row.receipts.length ∧ c.intent ∈ w.disk.receipts)
      (fun _ => Joint P D) := by
  refine Triple.bind (triple_tick (R := fun _ w => Joint P D w ∧ n = w.row.receipts.length
    ∧ c.intent ∈ w.disk.receipts) ?_ fun w hw _ => joint_undisturbed.next w hw.1)
    fun fate => Triple.read fun d => ?_
  · rintro w ⟨hw, hn, hmem⟩ _
    exact ⟨joint_undisturbed.next w hw, hn.trans (congrArg _ (receipts_next w).symm), hmem⟩
  split
  case h_1 => exact fun w hw => hw.1.1
  case h_2 d' hd' =>
    have hrecorded : Recorded c d d' := by
      grind [acknowledgedActivation, recorded_of_activation]
    refine Triple.change ?_
    rintro w ⟨⟨hw, hn, hmem⟩, rfl⟩
    exact ⟨⟨hrecorded.receipts.symm ▸ hw.sent, hw.kept.recorded hrecorded,
      hrecorded.acknowledged.symm ▸ hw.cursor, hw.careful⟩, hn,
      hrecorded.receipts.symm ▸ hmem⟩

theorem Ahead.next_world (h : Ahead P D r w) : Ahead P D r (w.next D) :=
  ⟨h.sent.next, (receipts_next w).trans h.ahead, h.next, h.kept,
    (receipts_next w).symm ▸ h.cursor, h.careful.tail⟩

theorem ahead_recordActivation (c : UpgradeActivationConsume)
    (hexisting : d.activationOf c.grant.boundary = none
      ∨ d.activationOf c.grant.boundary = some c)
    (hmigrated : c.grant.boundary = .runtime → P.needsMigration = true → Migrated P D d) :
    Triple (fun w => Ahead P D c.intent w ∧ w.disk = d) (recordActivation P D c)
      (fun _ w => Ahead P D c.intent w ∧ w.disk.activationOf c.grant.boundary ≠ none)
      (fun _ => Joint P D) := by
  refine Triple.bind (triple_tick (R := fun _ w => Ahead P D c.intent w ∧ w.disk = d) ?_ ?_)
    fun fate => Triple.read fun d' => ?_
  · exact fun w hw _ => ⟨hw.1.next_world, hw.2⟩
  · intro w hw hstop
    rw [hw.1.careful.fate.2] at hstop
    cases hstop
  refine Triple.assuming (p := d' = d ∧ Kept D d) ?_ ?_
  · grind [cases Ahead]
  rintro ⟨rfl, hkept⟩
  have hok : ∃ d'', acknowledgedActivation P D c fate d' = .ok d'' ∧ Recorded c d' d'' := by
    unfold acknowledgedActivation
    rcases activation_succeeds hkept hexisting hmigrated false fate with
      ⟨d'', hd''⟩ | ⟨_, m, hm⟩
    · rw [hd'']
      exact ⟨d'', rfl, recorded_of_activation hd''⟩
    rw [hm]
    rcases activation_succeeds hkept hexisting hmigrated true fate with
      ⟨d'', hd''⟩ | ⟨hfalse, _⟩
    · exact ⟨d'', hd'', recorded_of_activation hd''⟩
    · cases hfalse
  obtain ⟨d'', hd'', hrecorded⟩ := hok
  rw [hd'']
  refine Triple.change ?_
  rintro w ⟨⟨hw, rfl⟩, _⟩
  refine ⟨⟨?_, ?_, ?_, hw.kept.recorded hrecorded, ?_, hw.careful⟩, hrecorded.recorded⟩
  · exact hrecorded.receipts.symm ▸ hw.sent
  · exact hw.ahead.trans (congrArg (· ++ _) hrecorded.receipts.symm)
  · exact hw.next.trans (congrArg (List.length · + 1) hrecorded.receipts.symm)
  · exact hrecorded.acknowledged.symm ▸ hw.cursor

theorem phase_of_intent (c : UpgradeActivationConsume) :
    c.intent.phase = c.grant.boundary.phase ∧ c.intent.outcome = .intent :=
  of_decide_eq_true c.is_intent

theorem ahead_append (howner : (c.intent.jobId, c.intent.generation)
      = (P.operation.jobId, P.operation.generation)) :
    Triple (fun w => Ahead P D c.intent w ∧ w.disk.activationOf c.grant.boundary ≠ none)
      (append P D c.intent)
      (fun _ w => Joint P D w ∧ c.intent.sequence = w.row.receipts.length)
      (fun _ => Joint P D) := by
  refine Triple.read fun d => Triple.refuse_bind (fun h => absurd howner h) fun _ => ?_
  refine Triple.assuming (p := c.intent.sequence = d.receipts.length + 1) ?_ fun hseq => ?_
  · rintro w ⟨⟨hw, _⟩, rfl⟩
    exact hw.next
  have hnone : d.receipts[c.intent.sequence - 1]? = none :=
    List.getElem?_eq_none_iff.mpr (by omega)
  rw [hnone]
  refine Triple.refuse_bind (fun h => absurd hseq h) fun _ => Triple.change ?_
  rintro w ⟨⟨hw, hrecorded⟩, rfl⟩
  refine ⟨⟨hw.sent, hw.kept.snoc hw.next fun hphase => ?_, hw.cursor, hw.careful⟩, ?_⟩
  · obtain ⟨hboundary, houtcome⟩ := phase_of_intent c
    refine ⟨?_, fun hcomplete => ?_⟩
    · cases hb : c.grant.boundary with
      | migration => exact hb ▸ hrecorded
      | runtime =>
        rw [hb, hphase] at hboundary
        cases hboundary
    · rw [houtcome] at hcomplete
      cases hcomplete
  · grind [cases Ahead]

theorem triple_consume (c : UpgradeActivationConsume) (d : Disk) :
    Triple (fun w => (Joint P D w ∧ AllSent w) ∧ w.disk = d) (consume P D c)
      (fun n w => (Joint P D w ∧ n = w.row.receipts.length ∧ c.intent ∈ w.disk.receipts)
        ∨ ((Ahead P D c.intent w ∧ w.disk = d) ∧ n = c.intent.sequence
          ∧ (c.grant.boundary = .runtime → P.needsMigration = true → Migrated P D d)))
      (fun _ => Joint P D) := by
  refine Triple.refuse_bind (fun _ _ hw => hw.1.1) fun _ => ?_
  refine Triple.bind (triple_request (R := fun fate w => ((Joint P D w ∧ AllSent w)
    ∧ w.disk = d) ∧ fate.lost .consume = false) (triple_tick ?_ ?_) ?_ ?_) fun n =>
      Triple.refuse_bind (fun hlt => ?_) fun _ _ hw => hw
  · rintro w ⟨hw, hd⟩ _
    exact ⟨⟨sent_undisturbed.next w hw, hd⟩, hw.1.careful.fate.1⟩
  · exact fun w hw _ => joint_undisturbed.next w hw.1.1
  · exact fun _ _ _ hw => hw.1.1.1
  · rintro fate w s n ⟨⟨⟨hw, hall⟩, rfl⟩, hlost⟩ hs
    obtain ⟨⟨t, u⟩, ht, hs⟩ := bind_eq_ok.mp hs
    cases Except.ok.inj hs
    refine ⟨?_, fun h => by rw [hlost] at h; cases h⟩
    rcases (show Sent P w.disk.receipts w.row from hw.sent).consume hall ht with
      ⟨hsent, hsame, hmem⟩ | ⟨hsent, hnew, hseq, hchecks⟩
    · refine .inl ⟨⟨hsent, hw.kept, ?_, hw.careful⟩, hsent.sequence, hmem⟩
      show w.disk.acknowledged ≤ s.receipts.length
      rw [hsame, ← hall]
      exact hw.cursor
    · refine .inr ⟨⟨⟨hsent, hnew, hseq, hw.kept, ?_, hw.careful⟩, rfl⟩, ?_, ?_⟩
      · grind [cases Joint, AllSent, cases Ahead, Migrated]
      · grind [cases Sent]
      · intro hruntime hneeds
        rw [hruntime] at hchecks
        obtain ⟨proof, hlast, hproof⟩ := migrated_of_boundaryChecks hw.sent.core hneeds hchecks
        exact ⟨proof, (congrArg List.getLast? hall).symm.trans hlast, hproof⟩
  · rintro w (⟨hw, _⟩ | ⟨_, hn, _⟩)
    · exact hw
    · exact absurd hlt (hn ▸ Nat.lt_irrefl _)

theorem triple_recorded {n : ℕ} (howner : (c.intent.jobId, c.intent.generation)
      = (P.operation.jobId, P.operation.generation))
    (hexisting : d.activationOf c.grant.boundary = none
      ∨ d.activationOf c.grant.boundary = some c) :
    Triple (fun w => (Joint P D w ∧ n = w.row.receipts.length ∧ c.intent ∈ w.disk.receipts)
        ∨ ((Ahead P D c.intent w ∧ w.disk = d) ∧ n = c.intent.sequence
          ∧ (c.grant.boundary = .runtime → P.needsMigration = true → Migrated P D d)))
      (recordConsumed P D c)
      (fun _ w => Joint P D w ∧ n = w.row.receipts.length) (fun _ => Joint P D) := by
  refine Triple.or ?_ ?_
  · refine Triple.bind (joint_recordActivation c n) fun _ => Triple.bind (triple_tick
      (R := fun _ w => Joint P D w ∧ n = w.row.receipts.length ∧ c.intent ∈ w.disk.receipts)
      ?_ fun w hw _ => joint_undisturbed.next w hw.1) fun _ => ?_
    · rintro w ⟨hw, hn, hmem⟩ _
      exact ⟨joint_undisturbed.next w hw, hn.trans (congrArg _ (receipts_next w).symm), hmem⟩
    exact (triple_append fun s => n = s.receipts.length).mono
      (fun _ hw => ⟨hw.1, hw.2.1, fun _ => .inl hw.2.2⟩) (fun _ _ hw => hw) (fun _ _ hw => hw)
  · refine Triple.assuming (fun _ hw => hw.2) fun ⟨hn, hmigrated⟩ => ?_
    refine Triple.bind ((ahead_recordActivation c hexisting hmigrated).mono
      (fun _ hw => hw.1) (fun _ _ hw => hw) (fun _ _ hw => hw)) fun _ => ?_
    refine Triple.bind (triple_tick (R := fun _ w => Ahead P D c.intent w
      ∧ w.disk.activationOf c.grant.boundary ≠ none) ?_ ?_) fun _ => ?_
    · exact fun w hw _ => ⟨hw.1.next_world, hw.2⟩
    · intro w hw hstop
      rw [hw.1.careful.fate.2] at hstop
      cases hstop
    · grind [ahead_append]

theorem joint_consumeBoundary (b : Boundary) :
    Triple (fun w => Joint P D w ∧ AllSent w) (consumeBoundary P D b)
      (fun _ => Joint P D) (fun _ => Joint P D) := by
  have hretain : Triple (fun w => Joint P D w ∧ AllSent w) (retainConsume P D b)
      (fun _ w => Joint P D w ∧ AllSent w) (fun _ => Joint P D) :=
    (sent_undisturbed.retainConsume b).mono (fun _ hw => hw) (fun _ _ hw => hw)
      (fun _ _ hw => hw.1)
  refine Triple.bind (Q := fun _ w => Joint P D w ∧ AllSent w) (fun _ hw => hw) fun _ =>
    Triple.refuse_bind (fun _ _ hw => hw.1) fun _ => Triple.bind hretain fun c => ?_
  refine Triple.refuse_bind (fun _ _ hw => hw.1) fun howner => Triple.read fun d => ?_
  simp only [not_or, ne_eq, not_not, Prod.mk.injEq] at howner
  obtain ⟨rfl, hjob, hgeneration, _⟩ := howner
  refine Triple.refuse_bind (fun _ _ hw => hw.1.1) fun hexisting => ?_
  split
  case isTrue => exact Triple.refuse_bind (fun _ _ hw => hw.1.1) fun _ _ hw => hw.1.1
  case isFalse =>
    refine Triple.bind (triple_consume c d) fun n => ?_
    refine Triple.refuse_bind (fun hn => ?_) fun _ => ?_
    · rintro w (⟨hw, _⟩ | ⟨_, hn', _⟩)
      · exact hw
      · exact absurd hn' hn
    have hexisting : d.activationOf c.grant.boundary = none
        ∨ d.activationOf c.grant.boundary = some c := by
      by_cases hnone : d.activationOf c.grant.boundary = none
      · exact .inl hnone
      · grind
    refine Triple.bind (triple_recorded (Prod.ext hjob hgeneration) hexisting) fun _ => ?_
    refine Triple.bind (Q := fun _ => Joint P D) (fun w hw => ?_) fun _ => Keeps.pure _
    exact (triple_acknowledge w ⟨⟨hw.1, rfl⟩, hw.2⟩).mono (fun _ _ hw => hw.1)
      (fun _ _ hw => hw)

/-- **The joint invariant survives everything the executor does.** -/
theorem joint_stable : Stable P D (Joint P D) AllSent where
  toUndisturbed := joint_undisturbed
  sent := sent_undisturbed
  append r hr := (triple_append fun _ => True).mono
    (fun _ hw => ⟨hw, trivial, fun hphase => absurd hphase hr⟩) (fun _ _ hw => hw.1)
    (fun _ _ hw => hw)
  replay := triple_replayReceipts
  migrate := joint_reportMigration
  consume := joint_consumeBoundary

/-! ## Runs -/

def Label.Careful : Label → Prop
  | .cancel => True
  | .advance fates => Workflow.Careful fates

theorem Joint.step (h : Joint P D w) {l : Label} (hl : l.Careful) :
    Joint P D (step P D w l) := by
  cases l with
  | cancel =>
    exact ⟨h.sent.cancelled, h.kept, (receipts_cancelled _ _).symm ▸ h.cursor, h.careful⟩
  | advance fates =>
    have hend := joint_stable.advanceCoreStep (P := P) { w with fates := fates }
      ⟨h.sent, h.kept, h.cursor, hl⟩
    have hend' : Joint P D (advanceCoreStep P D { w with fates := fates }).2 := by
      revert hend
      generalize advanceCoreStep P D { w with fates := fates } = r
      obtain ⟨result, w'⟩ := r
      cases result <;> exact id
    exact ⟨hend'.sent, hend'.kept, hend'.cursor, fun _ hfate => absurd hfate List.not_mem_nil⟩

theorem joint_start (schema : String × String) : Joint P D (start P schema) where
  sent := ⟨P.core, rfl, List.prefix_rfl, rfl, fun _ h => by cases h⟩
  kept := ⟨rfl, fun _ h => absurd h List.not_mem_nil, fun _ h => absurd h List.not_mem_nil,
    fun _ h => by cases h⟩
  cursor := le_rfl
  careful _ h := absurd h List.not_mem_nil

end Invariant

/-- **The histories agree.** -/
theorem histories_agree (P : CorePlan) (D : Papers) (schema : String × String)
    (labels : List Label)
    (hcareful : Run.Along (step P D) (fun _ l => l.Careful) (start P schema) labels) :
    Run.Throughout (step P D) Agree (start P schema) labels :=
  Run.throughout_of_invariant (Joint P D) (fun _ h => h.agree) (fun _ _ h hl => h.step hl)
    (joint_start schema) hcareful

/-! ## A lost consumption -/

def sampleCorePlan : CorePlan := { samplePlan with core := rfl }

instance countableChar : Countable Char :=
  Function.Injective.countable (f := Char.toNat)
  fun _ _ h => Char.toNat_inj.mp h

instance countableString : Countable String :=
  Function.Injective.countable (f := String.toList)
  fun _ _ h => String.toList_inj.mp h

instance : Countable SmokeCheck :=
  Function.Injective.countable (f := fun c : SmokeCheck => c.ctorIdx) (by
    intro a b h
    cases a <;> cases b <;> first | rfl | cases h)

instance : Countable UpgradeEvidence :=
  Function.Injective.countable (f := fun e : UpgradeEvidence => ((e.runtimeSha256,
    e.releaseSha256, e.schemaHead, e.schemaBeforeSha256, e.schemaAfterSha256, e.modelId,
    e.modelVariantId), (e.peerRuntimeSha256, e.collectiveVerified, e.modelManifestSha256,
    e.outputSha256, e.backupValidationSha256, e.check, e.generatedTokens),
    (e.serviceImageIds, e.sourceVerified, e.artifactsVerified, e.configurationVerified,
    e.migrationExitCode, e.migrationNotStartedSha256, e.cleanupVerified))) (by
    rintro ⟨⟩ ⟨⟩ h
    simp only [Prod.mk.injEq] at h
    obtain ⟨⟨rfl, rfl, rfl, rfl, rfl, rfl, rfl⟩, ⟨rfl, rfl, rfl, rfl, rfl, rfl, rfl⟩,
      rfl, rfl, rfl, rfl, rfl, rfl, rfl⟩ := h
    rfl)

noncomputable def sampleText (e : UpgradeEvidence) : String :=
  if e = stagedEvidence sampleCorePlan then "staged"
  else String.ofList (List.replicate
    ((Countable.exists_injective_nat UpgradeEvidence).choose e + 1) 'a')

theorem sampleText_injective : Function.Injective sampleText := by
  intro e e' h
  unfold sampleText at h
  have hne (n : ℕ) : "staged" ≠ String.ofList (List.replicate (n + 1) 'a') := fun h' => by
    have hhead := congrArg (fun s => s.toList.head?) h'
    simp only [String.toList_ofList, List.replicate_succ, List.head?_cons] at hhead
    exact absurd hhead (by decide)
  split at h <;> split at h
  case isTrue.isTrue he he' => rw [he, he']
  case isTrue.isFalse => exact absurd h (hne _)
  case isFalse.isTrue => exact absurd h.symm (hne _)
  case isFalse.isFalse =>
    have hlength := congrArg (fun s => s.toList.length) h
    simp only [String.toList_ofList, List.length_replicate, Nat.add_right_cancel_iff] at hlength
    exact (Countable.exists_injective_nat UpgradeEvidence).choose_spec hlength

instance : Nonempty UpgradeEvidence := ⟨stagedEvidence sampleCorePlan⟩

noncomputable def samplePapers : Papers where
  toDocuments := { sampleDocuments with
    readEvidence := fun s => if s = "staged" then stagedEvidence sampleCorePlan
      else Function.invFun sampleText s }
  evidence := sampleText
  readEvidence_evidence e := by
    show (if sampleText e = "staged" then stagedEvidence sampleCorePlan
      else Function.invFun sampleText (sampleText e)) = e
    have hstaged : sampleText (stagedEvidence sampleCorePlan) = "staged" := if_pos rfl
    split
    case isTrue h => exact (sampleText_injective (h.trans hstaged.symm)).symm
    case isFalse => exact Function.leftInverse_invFun sampleText_injective e
  evidence_ne e := by
    unfold sampleText
    split
    · decide
    intro h
    have := congrArg (fun s => s.toList.length) h
    rw [String.toList_ofList, List.length_replicate] at this
    exact absurd this (Nat.succ_ne_zero _)

/-- The reply to the consumption is lost, and the next step declares the source
unchanged. -/
def lostConsumption : List Label :=
  [.advance [], .advance [], .advance [], .advance [],
    .advance (List.replicate 7 { lost := fun op => op = .consume }), .advance []]

/-- **A lost reply forks the history**: the API has the intent to activate where the
executor has declared the failure. -/
theorem lost_consume_forks_history :
    ¬ Run.Throughout (step sampleCorePlan samplePapers) Agree
      (start sampleCorePlan ("head", "digest")) lostConsumption := by
  intro h
  have hlast := h lostConsumption.length
  have hforked : ((Run.last (step sampleCorePlan samplePapers)
        (start sampleCorePlan ("head", "digest")) lostConsumption).row.receipts.map
          fun r => (r.sequence, r.phase)).getLast? = some (5, .activating) ∧
      ((Run.last (step sampleCorePlan samplePapers)
        (start sampleCorePlan ("head", "digest")) lostConsumption).disk.receipts.map
          fun r => (r.sequence, r.phase)).getLast? = some (5, .failedUnchanged) := by
    decide +kernel
  obtain ⟨r, hr, hactivating⟩ := List.mem_map.mp (List.mem_of_getLast? hforked.1)
  obtain ⟨r', hr', hfailed⟩ := List.mem_map.mp (List.mem_of_getLast? hforked.2)
  have hsequence : r.sequence = r'.sequence :=
    (congrArg Prod.fst hactivating).trans (congrArg Prod.fst hfailed).symm
  have heq : r = r' := hlast r hr r' hr' hsequence
  rw [heq, hfailed] at hactivating
  exact absurd hactivating (by decide)

/-- A run with a cancellation, a stop and a lost acknowledgement. -/
theorem histories_agree_sample : Run.Throughout (step sampleCorePlan samplePapers) Agree
    (start sampleCorePlan ("head", "digest"))
      [.advance [], .advance [{ stop := fun op => op = .receipts }],
        .advance [{ lost := fun op => op = .receipts }], .cancel, .advance []] :=
  histories_agree sampleCorePlan samplePapers ("head", "digest") _ (by
    refine ⟨?_, ?_, ?_, trivial, ?_, trivial⟩ <;> unfold Label.Careful Careful <;> simp)

end Upgrades.Workflow
