import Coire.AcquisitionJobs

/-!
# A cancelled acquisition

`cancel` writes `cancelled` into the job's file and signals the process that the
supervisor holds of the job, if it still holds one. It waits for no worker. A worker
that is still at work, because it has not met the signal yet or because the agent that
spawned it is gone, writes its own copy over the file at its next save.

`cancelled_stays_iff` makes this exact.
-/

namespace AcquisitionJobs

def Cancelled (j : ℕ) (s : State) : Prop :=
  ∀ now, (s.status now j).2.map JobStatus.stage = some .cancelled

/-- **The job is cancelled and nothing writes it any more.** -/
structure Quiet (j : ℕ) (s : State) : Prop where
  file : ∃ f, s.files.get? j = some f ∧ f.stage = .cancelled
  proc : s.procs.get? j = none
  idle : ∀ w ∈ s.workers, w.jobId = j → w.working = false

section

variable {s s' : State} {j k : ℕ}

theorem Quiet.cancelled (h : Quiet j s) : Cancelled j s := by
  intro now
  obtain ⟨f, hf, hstage⟩ := h.file
  simp [State.status, State.withWorkerStats, hf, hstage, JobStage.terminal]

theorem Quiet.terminal (h : Quiet j s) {st : JobStatus}
    (hst : s.files.get? j = some st) : st.stage.terminal = true := by
  obtain ⟨f, hf, hstage⟩ := h.file
  cases hf.symm.trans hst
  rw [hstage]
  rfl

theorem Quiet.refreshes (h : Quiet j s) (hr : Refreshes s s') : Quiet j s' := by
  refine ⟨?_, hr.procs ▸ h.proc, hr.workers ▸ h.idle⟩
  rcases hr.files j with he | ⟨_, _, p, _, _, _, _, _, hp, _⟩
  · rw [he]
    exact h.file
  · cases h.proc.symm.trans hp

theorem Quiet.write (h : Quiet j s) (hk : j ≠ k) (st : JobStatus) :
    Quiet j (s.write k st) := by
  refine ⟨?_, h.proc, h.idle⟩
  show ∃ f, (s.files.set k st).get? j = some f ∧ _
  rw [Dict.get?_set_ne _ hk]
  exact h.file

theorem Quiet.launch (h : Quiet j s) (hk : j ≠ k) : Quiet j (s.launch k) := by
  refine ⟨h.file, ?_, fun w hw hj => ?_⟩
  · show (s.procs.set k _).get? j = none
    rw [Dict.get?_set_ne _ hk]
    exact h.proc
  · rcases List.mem_append.mp hw with hw | hw
    · exact h.idle w hw hj
    · cases List.mem_singleton.mp hw
      exact absurd hj.symm hk

theorem Quiet.setWorker (h : Quiet j s) {p : ℕ} {w : Worker}
    (hw : w.jobId = j → w.working = false) : Quiet j (s.setWorker p w) := by
  refine ⟨h.file, h.proc, fun v hv hj => ?_⟩
  rcases List.mem_or_eq_of_mem_set hv with hv | rfl
  · exact h.idle v hv hj
  · exact hw hj

theorem Quiet.turn (h : Quiet j s) {p : ℕ} {f : Worker → State}
    (hf : ∀ w, w.jobId ≠ j → Quiet j (f w)) : Quiet j (s.turn p f) := by
  unfold State.turn
  split
  · grind [cases Quiet]
  · exact h

theorem Quiet.save (h : Quiet j s) {p : ℕ} {w : Worker} {st : JobStatus}
    (hw : w.jobId ≠ j) : Quiet j (s.save p w st) :=
  (h.setWorker (w := { w with status := some st }) fun hj => absurd hj hw).write
    hw.symm st

theorem Quiet.resume (env : ℕ → Bool × Bool) :
    ∀ {l : List (ℕ × JobStatus)} {s : State} {n : ℕ}, Quiet j s →
    (∀ st, (j, st) ∈ l → st.stage.terminal = true) →
    Quiet j (State.resume env l s n).1
  | [], _, _, h, _ => h
  | (k, st) :: rest, s, n, h, hl => by
    have hrest := fun st hst => hl st (List.mem_cons_of_mem _ hst)
    rw [State.resume]
    split
    · exact h.resume env hrest
    rename_i hopen
    split
    · exact h
    rename_i s' hs'
    rw [eq_launch_of_spawn hs']
    refine (h.launch fun hj => hopen (.inl ?_)).resume env hrest
    subst hj
    exact hl st (List.mem_cons_self ..)

theorem Quiet.start (h : Quiet j s) (k : ℕ) (kind : JobKind) (slug : String)
    (expected : Option ℕ) (e : State.StartEnv) :
    Quiet j (s.start k kind slug expected e).1 := by
  unfold State.start
  split
  · rename_i st hk
    exact h.refreshes (refreshes_withWorkerStats e.now hk).1
  rename_i hk
  have hne : j ≠ k := by
    rintro rfl
    obtain ⟨f, hf, -⟩ := h.file
    cases hk.symm.trans hf
  split
  · exact h
  have hr : Quiet j (s.writerFor e.now slug).1 :=
    h.refreshes (refreshes_active e.now).1
  extract_lets r required st s'
  have hs' : Quiet j s' := hr.write hne st
  split
  · exact hr
  split
  · exact hr
  split
  · exact hs'
  · rename_i s'' hs''
    rw [eq_launch_of_spawn hs'']
    exact hs'.launch hne

theorem Quiet.cancel (h : Quiet j s) (now k : ℕ) : Quiet j (s.cancel now k).1 := by
  unfold State.cancel
  split
  · exact h
  rename_i st hk
  have herase : Quiet j { s with procs := s.procs.erase k } := by
    refine ⟨h.file, ?_, h.idle⟩
    show (s.procs.erase k).get? j = none
    rw [Dict.get?_erase, h.proc, ite_self]
  extract_lets s'
  split
  · exact herase
  · rename_i hopen
    refine herase.write ?_ _
    rintro rfl
    exact hopen (h.terminal hk)

theorem Quiet.step (h : Quiet j s) (a : Label) :
    Quiet j (AcquisitionJobs.step s a) := by
  cases a with
  | start k kind slug expected e => exact h.start k kind slug expected e
  | cancel now k => exact h.cancel now k
  | status now k => exact h.refreshes (refreshes_status now k).1
  | resumeAll now env =>
    obtain ⟨hr, hmem⟩ := refreshes_active (s := s) now
    have hr := h.refreshes hr
    exact hr.resume env fun st hst => hr.terminal ((hmem j st).mp hst)
  | shutdown => exact ⟨h.file, rfl, h.idle⟩
  | begin p =>
    refine h.turn fun w hw => ?_
    split
    · exact h.setWorker fun hj => absurd hj hw
    · exact h
  | advance now p =>
    refine h.turn fun w hw => ?_
    split
    · exact h.save (by exact hw)
    · exact h
  | progress now p =>
    refine h.turn fun w hw => ?_
    split
    · split
      · exact h.save (by exact hw)
      · exact h
    · exact h
  | report now p x =>
    refine h.turn fun w hw => ?_
    split
    · split
      · exact h
      · exact h.save (by exact hw)
    · exact h
  | exit p code =>
    show Quiet j (s.exit p code)
    unfold State.exit
    split
    · split
      · exact h
      · exact h.setWorker fun _ => rfl
    · exact h

theorem stage_of_failure {p : ℕ} {w : Worker} {st : JobStatus}
    (hw : s.workers[p]? = some w) (hwork : w.working = true)
    (hst : s.files.get? w.jobId = some st) :
    ((Run.last step s [.begin p, .report 0 p (.fail .internal "")]).files.get?
      w.jobId).map JobStatus.stage = some .failed := by
  show (((s.begin p).report 0 p (.fail .internal "")).files.get? w.jobId).map
    JobStatus.stage = _
  have hp : p < s.workers.length := (List.getElem?_eq_some_iff.mp hw).1
  cases hs : w.status with
  | none =>
    have hbegin : s.begin p = s.setWorker p
        { w with status := some st, stages := State.stagesOf st.kind } := by
      simp [State.begin, State.turn, hw, hwork, hs, hst]
    have hwork' : w.code.isNone && !w.reported := hwork
    simp [hbegin, State.report, State.turn, State.setWorker, hp, Worker.working,
      hwork', State.save, State.write, State.Outcome.of]
  | some own =>
    have hbegin : s.begin p = s := by
      simp [State.begin, State.turn, hw, hwork, hs]
    simp [hbegin, State.report, State.turn, hw, hwork, hs, State.save,
      State.write, State.Outcome.of]

end

/-- **A cancelled acquisition stays cancelled, whatever follows, if and only if
no worker of the job is at work when it is cancelled.** -/
theorem cancelled_stays_iff (s : State) (now j : ℕ) (st : JobStatus)
    (hfile : s.files.get? j = some st) (hopen : st.stage.terminal = false) :
    (∀ as, Run.Throughout step (Cancelled j) (s.cancel now j).1 as)
      ↔ ∀ w ∈ s.workers, w.jobId = j → w.working = false := by
  set cancelled := { st with
    stage := .cancelled, errorKind := some .cancelled, finishedAt := some now }
  have hcancel : (s.cancel now j).1
      = { s with procs := s.procs.erase j }.write j cancelled := by
    simp [State.cancel, hfile, hopen, cancelled]
  have hget : (s.cancel now j).1.files.get? j = some cancelled := by
    rw [hcancel]
    exact Dict.get?_set_self ..
  constructor
  · rintro h w hw rfl
    by_contra hwork
    obtain ⟨p, hp⟩ := List.mem_iff_getElem?.mp hw
    have hstage := stage_of_failure (s := (s.cancel now w.jobId).1) (w := w)
      (p := p) (by rw [hcancel]; exact hp) (Bool.of_not_eq_false hwork) hget
    obtain ⟨f, hf, hfailed⟩ := Option.map_eq_some_iff.mp hstage
    have := h [.begin p, .report 0 p (.fail .internal "")] 2 0
    simp [State.status, State.withWorkerStats, hf, hfailed, JobStage.terminal] at this
  · intro hidle as
    refine Run.throughout_of_kept (Quiet j) (fun _ h => h.cancelled)
      (fun _ a h => h.step a) ⟨⟨cancelled, hget, rfl⟩, ?_, ?_⟩
    · rw [hcancel]
      exact (Dict.get?_erase ..).trans (if_pos rfl)
    · rw [hcancel]
      exact hidle

/-- A pull whose worker cannot be launched. -/
def unlaunched : State :=
  ((State.init 0).start 0 .pull "model" none { launched := false }).1

theorem cancelled_stays_unlaunched :
    (unlaunched.files.get? 0).map JobStatus.stage = some .queued
      ∧ ∀ as, Run.Throughout step (Cancelled 0) (unlaunched.cancel 1 0).1 as :=
  ⟨rfl, (cancelled_stays_iff unlaunched 1 0 _ rfl rfl).mpr (by decide)⟩

/-- **A cancelled pull goes on**: its worker enters the next stage before it
meets the signal. -/
theorem cancelled_pull_goes_on : ¬ Run.Throughout step (Cancelled 0)
      (((State.init 0).start 0 .pull "model" none {}).1.begin 0 |>.cancel 1 0).1
      [.advance 2 0] := by
  intro h
  exact absurd (h 1 3) (by decide)

end AcquisitionJobs
