import Mathlib.Data.List.Sort
import Coire.Dict
import Coire.Run

/-!
# Acquisition jobs of a Studio

The agent's `JobSupervisor` and its workers. A job is a file that both write; a worker
reads it once, and from then on overwrites it with what it holds in memory. It runs in a
session of its own and outlives the agent.

Two jobs must never write the same model directory. `start` decides that from the job
files, and `resume_all` from the processes it holds. Both can be wrong: a cancelled
worker lives on under a file that reads `cancelled`, and after a restart no process is
held (`resumed_or_restarted_beside_a_worker`). These are the only two ways
(`one_writer_per_slug`).
-/

namespace AcquisitionJobs

inductive JobKind
  | pull | importCopy | verify | convert | validate | imageValidate | cleanup
  deriving DecidableEq

inductive JobStage
  | queued | resolving | transferring | hashing | done | failed | cancelled
  deriving DecidableEq

def JobStage.terminal (x : JobStage) : Bool :=
  x ∈ [.done, .failed, .cancelled]

inductive JobErrorKind
  | gated | notFound | network | checksumMismatch | diskFull | cancelled
  | reservationRequired | validationFailed | unsupported | internal
  deriving DecidableEq

structure JobStatus where
  kind : JobKind
  slug : String
  stage : JobStage
  bytesTotal : ℕ
  error : Option String
  errorKind : Option JobErrorKind
  updatedAt : ℕ
  finishedAt : Option ℕ
  deriving DecidableEq

/-- A worker process, with the status it holds once it has read its file. -/
structure Worker where
  jobId : ℕ
  status : Option JobStatus
  stages : List JobStage
  reported : Bool
  code : Option ℤ
  deriving DecidableEq

/-- The worker is alive and has not reported its end, after which it only
exits. -/
def Worker.working (w : Worker) : Bool :=
  w.code.isNone && !w.reported

/-- **The jobs of a node**: files, processes ever spawned, and `_procs`. -/
structure State where
  diskReserveBytes : ℕ
  files : Dict ℕ JobStatus
  workers : List Worker
  procs : Dict ℕ ℕ

def State.init (reserve : ℕ) : State := ⟨reserve, .empty, [], .empty⟩

inductive JobError
  | conflict (other : ℕ) (slug : String)
  | insufficientSpace (required free : ℕ)
  | refused
  | disappeared
  | launch
  deriving DecidableEq

namespace State

variable (s : State)

def write (j : ℕ) (st : JobStatus) : State :=
  { s with files := s.files.set j st }

def withWorkerStats (now j : ℕ) (st : JobStatus) : State × JobStatus :=
  if st.stage.terminal then (s, st)
  else match s.procs.get? j with
    | none => (s, st)
    | some p => match (s.workers[p]?).bind (·.code) with
      | none => (s, st)
      | some code =>
        let fresh := s.files.get? j
        let current := fresh.getD st
        if current.stage.terminal then (s, current)
        else
          let failed := { current with
            stage := .failed
            error := some
              s!"the worker exited with status {code} without reporting"
            errorKind := some .internal
            finishedAt := some now }
          (if fresh.isSome then s.write j failed else s, failed)

def status (now j : ℕ) : State × Option JobStatus :=
  match s.files.get? j with
  | none => (s, none)
  | some st =>
    let r := s.withWorkerStats now j st
    (r.1, some r.2)

def statuses (now : ℕ) : List ℕ → State → State × List (ℕ × JobStatus)
  | [], s => (s, [])
  | j :: js, s =>
    let r := s.status now j
    let rest := statuses now js r.1
    (rest.1, (r.2.map (Prod.mk j)).toList ++ rest.2)

/-- `active`: every job, by its file's name and then the freshest first. -/
def active (now : ℕ) : State × List (ℕ × JobStatus) :=
  let names := (s.files.items.map Prod.fst).insertionSort (· ≤ ·)
  let r := statuses now names s
  (r.1, r.2.insertionSort fun x y => y.2.updatedAt ≤ x.2.updatedAt)

def writerFor (now : ℕ) (slug : String) : State × Option ℕ :=
  let r := s.active now
  (r.1, (r.2.find? fun x => x.2.slug = slug ∧ !x.2.stage.terminal).map Prod.fst)

def launch (j : ℕ) : State :=
  { s with
    workers := s.workers ++ [⟨j, none, [], false, none⟩]
    procs := s.procs.set j s.workers.length }

def spawn (j : ℕ) (admitted launched : Bool) : Except JobError State :=
  if !admitted then .error .refused
  else match s.files.get? j with
    | none => .error .disappeared
    | some _ =>
      if !launched then .error .launch else .ok (s.launch j)

structure StartEnv where
  now : ℕ := 0
  free : ℕ := 0
  admitted : Bool := true
  readmitted : Bool := true
  launched : Bool := true

def newJob (kind : JobKind) (slug : String) (expected : Option ℕ) (now : ℕ) :
    JobStatus :=
  ⟨kind, slug, .queued, expected.getD 0, none, none, now, none⟩

/-- `start`: whether the job was created, and its status. When the spawn fails
the job's file stays. -/
def start (j : ℕ) (kind : JobKind) (slug : String) (expected : Option ℕ)
    (e : StartEnv) : State × Except JobError (Bool × JobStatus) :=
  match s.files.get? j with
  | some st =>
    let r := s.withWorkerStats e.now j st
    (r.1, .ok (false, r.2))
  | none =>
    if !e.admitted then (s, .error .refused)
    else
      let r := s.writerFor e.now slug
      match r.2 with
      | some other => (r.1, .error (.conflict other slug))
      | none =>
        let required := expected.getD 0 + s.diskReserveBytes
        if expected.getD 0 ≠ 0 ∧ e.free < required then
          (r.1, .error (.insufficientSpace required e.free))
        else
          let st := newJob kind slug expected e.now
          let s' := r.1.write j st
          match s'.spawn j e.readmitted e.launched with
          | .error err => (s', .error err)
          | .ok s'' => (s'', .ok (true, st))

/-- `cancel`: the process is signalled and forgotten. When it exits is up to
it. -/
def cancel (now j : ℕ) : State × Bool :=
  match s.files.get? j with
  | none => (s, false)
  | some st =>
    let s' := { s with procs := s.procs.erase j }
    if st.stage.terminal then (s', true)
    else (s'.write j { st with
      stage := .cancelled
      errorKind := some .cancelled
      finishedAt := some now }, true)

/-- The loop of `resume_all`; `env` says of a job's spawn whether it is admitted
and succeeds. -/
def resume (env : ℕ → Bool × Bool) :
    List (ℕ × JobStatus) → State → ℕ → State × Except JobError ℕ
  | [], s, resumed => (s, .ok resumed)
  | (j, st) :: rest, s, resumed =>
    if st.stage.terminal ∨ (s.procs.get? j).isSome then
      resume env rest s resumed
    else match s.spawn j (env j).1 (env j).2 with
      | .error err => (s, .error err)
      | .ok s' => resume env rest s' (resumed + 1)

def resumeAll (now : ℕ) (env : ℕ → Bool × Bool) : State × Except JobError ℕ :=
  let r := s.active now
  resume env r.2 r.1 0

/-- `shutdown`, and what an agent that starts again holds. -/
def shutdown : State := { s with procs := .empty }

/-! ## The worker -/

/-- The stages a runner of this kind writes before its end. -/
def stagesOf : JobKind → List JobStage
  | .pull => [.resolving, .transferring, .hashing]
  | .importCopy | .convert => [.transferring, .hashing]
  | .verify => [.hashing]
  | .imageValidate => [.resolving]
  | .validate | .cleanup => []

def turn (p : ℕ) (f : Worker → State) : State :=
  match s.workers[p]? with
  | some w => if w.working then f w else s
  | none => s

def setWorker (p : ℕ) (w : Worker) : State :=
  { s with workers := s.workers.set p w }

def save (p : ℕ) (w : Worker) (st : JobStatus) : State :=
  (s.setWorker p { w with status := some st }).write w.jobId st

def begin (p : ℕ) : State :=
  s.turn p fun w => match w.status, s.files.get? w.jobId with
    | none, some st =>
      s.setWorker p { w with status := some st, stages := stagesOf st.kind }
    | _, _ => s

def advance (now p : ℕ) : State :=
  s.turn p fun w => match w.status, w.stages with
    | some st, x :: rest =>
      s.save p { w with stages := rest } { st with stage := x, updatedAt := now }
    | _, _ => s

def progress (now p : ℕ) : State :=
  s.turn p fun w => match w.status with
    | some st =>
      if w.stages.length < (stagesOf st.kind).length then
        s.save p w { st with updatedAt := now }
      else s
    | none => s

/-- How a worker reports its end. -/
inductive Outcome
  | finish
  | fail (kind : JobErrorKind) (message : String)

def Outcome.of (x : Outcome) (now : ℕ) (st : JobStatus) : JobStatus :=
  match x with
  | .finish => { st with
      stage := .done, updatedAt := now, finishedAt := some now }
  | .fail kind message => { st with
      stage := .failed
      error := some (String.ofList (message.toList.take 2000))
      errorKind := some kind
      updatedAt := now
      finishedAt := some now }

def report (now p : ℕ) (x : Outcome) : State :=
  s.turn p fun w => match w.status with
    | some st => match x, w.stages with
      | .finish, _ :: _ => s
      | _, _ => s.save p { w with reported := true } (x.of now st)
    | none => s

def exit (p : ℕ) (code : ℤ) : State :=
  match s.workers[p]? with
  | some w =>
    if w.code.isSome then s
    else s.setWorker p { w with code := some code }
  | none => s

end State

/-- One step: a call, or something a worker does. -/
inductive Label
  | start (jobId : ℕ) (kind : JobKind) (slug : String) (expected : Option ℕ)
      (e : State.StartEnv)
  | cancel (now jobId : ℕ)
  | status (now jobId : ℕ)
  | resumeAll (now : ℕ) (env : ℕ → Bool × Bool)
  /-- The agent stops or crashes; another one starts in its place. -/
  | shutdown
  | begin (process : ℕ)
  | advance (now process : ℕ)
  | progress (now process : ℕ)
  | report (now process : ℕ) (x : State.Outcome)
  | exit (process : ℕ) (code : ℤ)

def step (s : State) : Label → State
  | .start j kind slug expected e => (s.start j kind slug expected e).1
  | .cancel now j => (s.cancel now j).1
  | .status now j => (s.status now j).1
  | .resumeAll now env => (s.resumeAll now env).1
  | .shutdown => s.shutdown
  | .begin p => s.begin p
  | .advance now p => s.advance now p
  | .progress now p => s.progress now p
  | .report now p x => s.report now p x
  | .exit p code => s.exit p code

/-- **One writer per model directory**: no two workers work on one slug. -/
def OneWriter (s : State) : Prop :=
  ∀ (p q : ℕ) (w v : Worker) (f g : JobStatus),
    s.workers[p]? = some w → s.workers[q]? = some v →
    w.working → v.working → s.files.get? w.jobId = some f →
    s.files.get? v.jobId = some g → f.slug = g.slug → p = q

/-- **The workers that the supervisor cannot see are gone**: before a slug is
started, those of the slug's finished jobs; before the jobs are resumed, those of
the unfinished jobs that it holds no process of. -/
def Settled (s : State) : Label → Prop
  | .start _ _ slug _ _ => ∀ w ∈ s.workers, w.working →
      ∀ f ∈ s.files.get? w.jobId, f.slug = slug → f.stage.terminal = false
  | .resumeAll _ _ => ∀ w ∈ s.workers, w.working →
      ∀ f ∈ s.files.get? w.jobId, f.stage.terminal = false →
        (s.procs.get? w.jobId).isSome
  | _ => True

instance (s : State) : ∀ l, Decidable (Settled s l)
  | .start _ _ slug _ _ => inferInstanceAs (Decidable (∀ w ∈ s.workers,
      w.working → ∀ f ∈ s.files.get? w.jobId, f.slug = slug →
        f.stage.terminal = false))
  | .resumeAll _ _ => inferInstanceAs (Decidable (∀ w ∈ s.workers,
      w.working → ∀ f ∈ s.files.get? w.jobId, f.stage.terminal = false →
        (s.procs.get? w.jobId).isSome))
  | .cancel _ _ | .status _ _ | .shutdown | .begin _ | .advance _ _
  | .progress _ _ | .report _ _ _ | .exit _ _ => inferInstanceAs (Decidable True)

/-! ## What is true of the files and the workers -/

section

variable {s s' : State}

/-- **The invariant**: beside one worker per slug, what `start` and `resume_all` rely
on. -/
structure Inv (s : State) : Prop where
  file : ∀ {p : ℕ} {w : Worker}, s.workers[p]? = some w →
    ∃ f, s.files.get? w.jobId = some f
      ∧ ∀ st, w.status = some st → st.slug = f.slug
  one : OneWriter s
  sole : ∀ {p j : ℕ} {w : Worker} {f g : JobStatus}, s.workers[p]? = some w →
    w.working → s.files.get? w.jobId = some f → s.files.get? j = some g →
    j ≠ w.jobId → g.slug = f.slug → g.stage.terminal
  unfinished : ∀ {j k : ℕ} {f g : JobStatus}, s.files.get? j = some f →
    s.files.get? k = some g → f.stage.terminal = false →
    g.stage.terminal = false → f.slug = g.slug → j = k
  held : ∀ {j p q : ℕ} {w : Worker}, s.procs.get? j = some p →
    s.workers[q]? = some w → w.jobId = j → w.working → q = p

theorem inv_init (reserve : ℕ) : Inv (.init reserve) where
  file h := nomatch h
  one _ _ _ _ _ _ h := nomatch h
  sole h := nomatch h
  unfinished h := nomatch h
  held h := nomatch h

/-- A file that keeps its slug, and finished stays finished. -/
def Ends (f g : JobStatus) : Prop :=
  g.slug = f.slug ∧ (f.stage.terminal → g.stage.terminal)

theorem Ends.unfinished {f g : JobStatus} (h : Ends f g)
    (hg : g.stage.terminal = false) : f.stage.terminal = false := by
  by_contra hf
  rw [h.2 (Bool.of_not_eq_false hf)] at hg
  cases hg

/-- **A step that starts nothing**: files end, workers end, processes are
forgotten. -/
structure Calms (s s' : State) : Prop where
  files : Dict.Rel Ends s.files s'.files
  workers : ∀ {p : ℕ} {w' : Worker}, s'.workers[p]? = some w' →
    ∃ w, s.workers[p]? = some w ∧ w'.jobId = w.jobId
      ∧ (w'.working → w.working)
      ∧ ∀ st', w'.status = some st' → ∃ st, st'.slug = st.slug
        ∧ (w.status = some st ∨ s.files.get? w.jobId = some st)
  procs : ∀ {j p : ℕ}, s'.procs.get? j = some p → s.procs.get? j = some p

theorem Inv.calms (hs : Inv s) (h : Calms s s') : Inv s' where
  file hw' := by
    obtain ⟨w, hw, hj, -, hst⟩ := h.workers hw'
    obtain ⟨f, hf, hslug⟩ := hs.file hw
    obtain ⟨g, hg, hfg⟩ := h.files.get? hf
    refine ⟨g, hj ▸ hg, fun st' hst' => ?_⟩
    obtain ⟨st, he, hold | hread⟩ := hst st' hst'
    · rw [he, hslug st hold, hfg.1]
    · cases hf.symm.trans hread
      rw [he, hfg.1]
  one p q w' v' f' g' hw' hv' hww hvw hf' hg' he := by
    obtain ⟨w, hw, hj, hwork, -⟩ := h.workers hw'
    obtain ⟨v, hv, hk, hvork, -⟩ := h.workers hv'
    obtain ⟨f, hf, hff⟩ := h.files.get?_back hf'
    obtain ⟨g, hg, hgg⟩ := h.files.get?_back hg'
    rw [hj] at hf
    rw [hk] at hg
    exact hs.one p q w v f g hw hv (hwork hww) (hvork hvw) hf hg
      (hff.1.symm.trans (he.trans hgg.1))
  sole hw' hww hf' hg' hne he := by
    obtain ⟨w, hw, hj, hwork, -⟩ := h.workers hw'
    obtain ⟨f, hf, hff⟩ := h.files.get?_back hf'
    obtain ⟨g, hg, hgg⟩ := h.files.get?_back hg'
    rw [hj] at hf hne
    exact hgg.2 (hs.sole hw (hwork hww) hf hg hne (hgg.1.symm.trans (he.trans hff.1)))
  unfinished hf' hg' hfu hgu he := by
    obtain ⟨f, hf, hff⟩ := h.files.get?_back hf'
    obtain ⟨g, hg, hgg⟩ := h.files.get?_back hg'
    exact hs.unfinished hf hg (hff.unfinished hfu) (hgg.unfinished hgu)
      (hff.1.symm.trans (he.trans hgg.1))
  held hp hw' hj' hww := by
    obtain ⟨w, hw, hj, hwork, -⟩ := h.workers hw'
    exact hs.held (h.procs hp) hw (hj.symm.trans hj') (hwork hww)

/-! ### Refreshing -/

structure Refreshes (s s' : State) : Prop where
  workers : s'.workers = s.workers
  procs : s'.procs = s.procs
  files : ∀ k, s'.files.get? k = s.files.get? k
    ∨ ∃ f g p w, s.files.get? k = some f ∧ s'.files.get? k = some g
      ∧ g.slug = f.slug ∧ g.stage.terminal ∧ s.procs.get? k = some p
      ∧ s.workers[p]? = some w ∧ w.working = false

theorem Refreshes.refl (s : State) : Refreshes s s :=
  ⟨rfl, rfl, fun _ => .inl rfl⟩

theorem Refreshes.trans {s'' : State} (h : Refreshes s s')
    (h' : Refreshes s' s'') : Refreshes s s'' := by
  grind [Refreshes]

theorem ends_refl (f : JobStatus) : Ends f f := ⟨rfl, id⟩

theorem Refreshes.calms (h : Refreshes s s') : Calms s s' where
  files k := by
    rcases h.files k with he | ⟨f, g, p, w, hf, hg, hslug, hterm, -⟩
    · rw [he]
      exact Dict.rel_refl ends_refl s.files k
    · rw [hf, hg]
      exact .some ⟨hslug, fun _ => hterm⟩
  workers hw' := by
    rw [h.workers] at hw'
    exact ⟨_, hw', rfl, id, fun st' hst' => ⟨st', rfl, .inl hst'⟩⟩
  procs hp := h.procs ▸ hp

variable {j p : ℕ}

theorem refreshes_withWorkerStats (now : ℕ) {st : JobStatus}
    (hj : s.files.get? j = some st) :
    Refreshes s (s.withWorkerStats now j st).1
      ∧ (s.withWorkerStats now j st).1.files.get? j
        = some (s.withWorkerStats now j st).2
      ∧ ∀ k, k ≠ j → (s.withWorkerStats now j st).1.files.get? k = s.files.get? k := by
  unfold State.withWorkerStats
  split
  · exact ⟨.refl s, hj, fun _ _ => rfl⟩
  split
  · exact ⟨.refl s, hj, fun _ _ => rfl⟩
  rename_i hterm _ p hp
  split
  · exact ⟨.refl s, hj, fun _ _ => rfl⟩
  rename_i _ code hcode
  extract_lets fresh current failed
  have hcur : current = st := by
    show (s.files.get? j).getD st = st
    rw [hj]
    rfl
  rw [if_neg (by rw [hcur]; exact hterm)]
  have hfresh : fresh.isSome := by
    show (s.files.get? j).isSome
    rw [hj]
    rfl
  rw [if_pos hfresh]
  obtain ⟨w, hw, hc⟩ := Option.bind_eq_some_iff.mp hcode
  refine ⟨⟨rfl, rfl, fun k => ?_⟩, Dict.get?_set_self _ _ _,
    fun k hk => Dict.get?_set_ne _ hk _⟩
  by_cases hk : k = j
  · subst hk
    refine .inr ⟨st, failed, p, w, hj, Dict.get?_set_self _ _ _, ?_, rfl, hp, hw, ?_⟩
    · show current.slug = st.slug
      rw [hcur]
    · simp [Worker.working, hc]
  · exact .inl (Dict.get?_set_ne _ hk _)

theorem refreshes_status (now j : ℕ) : Refreshes s (s.status now j).1
    ∧ (s.status now j).1.files.get? j = (s.status now j).2
    ∧ ∀ k, k ≠ j → (s.status now j).1.files.get? k = s.files.get? k := by
  unfold State.status
  split
  · rename_i hj
    exact ⟨.refl s, hj, fun _ _ => rfl⟩
  · rename_i st hj
    exact refreshes_withWorkerStats now hj

theorem refreshes_statuses (now : ℕ) : ∀ {js : List ℕ} {s : State}, js.Nodup →
    Refreshes s (State.statuses now js s).1 ∧ (∀ k, k ∉ js →
        (State.statuses now js s).1.files.get? k = s.files.get? k)
      ∧ ∀ j st, (j, st) ∈ (State.statuses now js s).2
        ↔ j ∈ js ∧ (State.statuses now js s).1.files.get? j = some st
  | [], s, _ => ⟨.refl s, fun _ _ => rfl, fun _ _ => by simp [State.statuses]⟩
  | j :: js, s, hjs => by
    obtain ⟨hj, hjs⟩ := List.nodup_cons.mp hjs
    obtain ⟨href, hown, hother⟩ := refreshes_status (s := s) now j
    obtain ⟨href', hother', hmem⟩ :=
      refreshes_statuses now (s := (s.status now j).1) hjs
    rw [State.statuses]
    refine ⟨href.trans href', fun k hk => ?_, fun k st => ?_⟩
    · grind
    rw [List.mem_append, hmem, List.mem_cons, or_and_right]
    refine or_congr_left ?_
    rw [Option.mem_toList, Option.map_eq_some_iff, ← hown]
    constructor
    · grind
    · grind

theorem refreshes_active (now : ℕ) : Refreshes s (s.active now).1
    ∧ ∀ j st, (j, st) ∈ (s.active now).2 ↔ (s.active now).1.files.get? j = some st := by
  unfold State.active
  extract_lets names r
  have hperm : names.Perm (s.files.items.map Prod.fst) :=
    List.perm_insertionSort _ _
  obtain ⟨href, hother, hmem⟩ :=
    refreshes_statuses now (s := s) (hperm.nodup_iff.mpr s.files.nodup)
  refine ⟨href, fun j st => ?_⟩
  rw [List.mem_insertionSort, hmem, hperm.mem_iff, Dict.mem_keys]
  refine ⟨And.right, fun hst => ⟨?_, hst⟩⟩
  obtain ⟨f, hf, -⟩ := href.calms.files.get?_back hst
  exact ⟨f, hf⟩

/-! ### Spawning -/

theorem getElem?_launch {w : Worker}
    (h : (s.launch j).workers[p]? = some w) : s.workers[p]? = some w
      ∨ p = s.workers.length ∧ w = ⟨j, none, [], false, none⟩ := by
  have h : (s.workers ++ [⟨j, none, [], false, none⟩])[p]? = some w := h
  rw [List.getElem?_append] at h
  split at h
  · exact .inl h
  rw [List.getElem?_singleton] at h
  split at h
  · grind
  · cases h

theorem Inv.launch (hs : Inv s) {f : JobStatus}
    (hf : s.files.get? j = some f) (hu : f.stage.terminal = false)
    (hidle : ∀ {p : ℕ} {w : Worker}, s.workers[p]? = some w → w.jobId = j →
      w.working = false) : Inv (s.launch j) := by
  -- no worker works on the slug: it would have to be one of the job's own
  have hfree : ∀ {p : ℕ} {w : Worker} {g : JobStatus}, s.workers[p]? = some w →
      w.working → s.files.get? w.jobId = some g → f.slug ≠ g.slug := by
    grind [cases Inv]
  refine ⟨fun hw => ?_, fun p q w v g h hw hv hww hvw hg hh he => ?_,
    fun hw hww hg hh hne he => ?_, hs.unfinished, fun {k p q w} hp hq hj hww => ?_⟩
  · rcases getElem?_launch hw with hw | ⟨-, rfl⟩
    · exact hs.file hw
    · exact ⟨f, hf, fun _ h => nomatch h⟩
  · rcases getElem?_launch hw with hw | ⟨rfl, rfl⟩ <;>
      rcases getElem?_launch hv with hv | ⟨rfl, rfl⟩
    · exact hs.one p q w v g h hw hv hww hvw hg hh he
    · cases hf.symm.trans hh
      exact absurd he.symm (hfree hw hww hg)
    · cases hf.symm.trans hg
      exact absurd he (hfree hv hvw hh)
    · rfl
  · rcases getElem?_launch hw with hw | ⟨rfl, rfl⟩
    · exact hs.sole hw hww hg hh hne he
    · cases hf.symm.trans hg
      by_contra hk
      exact hne (hs.unfinished hh hf (Bool.eq_false_of_not_eq_true hk) hu he)
  · rcases Dict.get?_set_eq_some.mp hp with ⟨rfl, rfl⟩ | ⟨hk, hp⟩ <;>
      rcases getElem?_launch hq with hq | ⟨rfl, rfl⟩
    · rw [hidle hq hj] at hww
      cases hww
    · rfl
    · exact hs.held hp hq hj hww
    · exact absurd hj.symm hk

theorem eq_launch_of_spawn {admitted launched : Bool}
    (h : s.spawn j admitted launched = .ok s') : s' = s.launch j := by
  unfold State.spawn at h
  split at h
  · cases h
  split at h
  · cases h
  · split at h
    · cases h
    · exact (Except.ok.inj h).symm

theorem inv_resume (env : ℕ → Bool × Bool) :
    ∀ {l : List (ℕ × JobStatus)} {s : State} {n : ℕ}, Inv s →
    (∀ {j st}, (j, st) ∈ l → s.files.get? j = some st) →
    (∀ {j st}, (j, st) ∈ l → st.stage.terminal = false →
      s.procs.get? j = none → ∀ {p : ℕ} {w : Worker}, s.workers[p]? = some w →
      w.jobId = j → w.working = false) →
    Inv (State.resume env l s n).1
  | [], _, _, hs, _, _ => hs
  | (j, st) :: rest, s, n, hs, hfiles, hidle => by
    rw [State.resume]
    split
    · exact inv_resume env hs (fun h => hfiles (.tail _ h)) (fun h => hidle (.tail _ h))
    rename_i hjob
    rw [not_or, Bool.not_eq_true, Bool.not_eq_true,
      Option.isSome_eq_false_iff, Option.isNone_iff_eq_none] at hjob
    split
    · exact hs
    rename_i s' hs'
    rw [eq_launch_of_spawn hs']
    refine inv_resume env (hs.launch (hfiles (.head _)) hjob.1
      (hidle (.head _) hjob.1 hjob.2)) (fun h => hfiles (.tail _ h)) ?_
    intro k stk hk hu hp q w hw hwk
    have hp : (s.procs.set j _).get? k = none := hp
    rw [Dict.get?_set] at hp
    split at hp
    · cases hp
    rename_i hne
    rcases getElem?_launch hw with hw | ⟨-, rfl⟩
    · exact hidle (.tail _ hk) hu hp hw hwk
    · exact absurd hwk.symm hne

theorem inv_resumeAll (hs : Inv s) {now : ℕ} {env : ℕ → Bool × Bool}
    (h : Settled s (.resumeAll now env)) : Inv (s.resumeAll now env).1 := by
  obtain ⟨href, hmem⟩ := refreshes_active (s := s) now
  refine inv_resume env (hs.calms href.calms) (fun hj => (hmem _ _).mp hj) ?_
  intro j st hj hu hp p w hw rfl
  by_contra hww
  obtain ⟨f, hf, hfst⟩ := href.calms.files.get?_back ((hmem _ _).mp hj)
  rw [href.workers] at hw
  rw [href.procs] at hp
  have hheld := h w (List.mem_of_getElem? hw) (Bool.of_not_eq_false hww) f hf
    (hfst.unfinished hu)
  rw [hp] at hheld
  cases hheld

theorem Inv.write (hs : Inv s) {st : JobStatus} (hj : s.files.get? j = none)
    (hfree : ∀ {p : ℕ} {w : Worker} {f : JobStatus}, s.workers[p]? = some w →
      w.working → s.files.get? w.jobId = some f → f.slug ≠ st.slug)
    (hdone : ∀ {k f}, s.files.get? k = some f → f.slug = st.slug →
      f.stage.terminal) : Inv (s.write j st) := by
  have hworker : ∀ {p : ℕ} {w : Worker}, s.workers[p]? = some w → w.jobId ≠ j := by
    intro p w hw he
    obtain ⟨f, hf, -⟩ := hs.file hw
    rw [he, hj] at hf
    cases hf
  have hown : ∀ {p : ℕ} {w : Worker}, s.workers[p]? = some w →
      (s.write j st).files.get? w.jobId = s.files.get? w.jobId :=
    fun hw => Dict.get?_set_ne _ (hworker hw) _
  refine ⟨fun hw => ?_, fun p q w v g h hw hv hww hvw hg hh he => ?_,
    fun hw hww hg hh hne he => ?_, fun hf hg hfu hgu he => ?_, hs.held⟩
  · rw [hown hw]
    exact hs.file hw
  · rw [hown hw] at hg
    rw [hown hv] at hh
    exact hs.one p q w v g h hw hv hww hvw hg hh he
  · rw [hown hw] at hg
    rcases Dict.get?_set_eq_some.mp hh with ⟨rfl, rfl⟩ | ⟨-, hh⟩
    · exact absurd he.symm (hfree hw hww hg)
    · exact hs.sole hw hww hg hh hne he
  · rcases Dict.get?_set_eq_some.mp hf with ⟨rfl, rfl⟩ | ⟨-, hf'⟩ <;>
      rcases Dict.get?_set_eq_some.mp hg with ⟨rfl, rfl⟩ | ⟨-, hg'⟩
    · rfl
    · rw [hdone hg' he.symm] at hgu
      cases hgu
    · rw [hdone hf' he] at hfu
      cases hfu
    · exact hs.unfinished hf' hg' hfu hgu he

theorem inv_start (hs : Inv s) {kind : JobKind} {slug : String}
    {expected : Option ℕ} {e : State.StartEnv}
    (h : Settled s (.start j kind slug expected e)) :
    Inv (s.start j kind slug expected e).1 := by
  unfold State.start
  split
  · rename_i st hj
    exact hs.calms (refreshes_withWorkerStats e.now hj).1.calms
  rename_i hj
  split
  · exact hs
  obtain ⟨href, hmem⟩ := refreshes_active (s := s) e.now
  have hr : Inv (s.writerFor e.now slug).1 := hs.calms href.calms
  extract_lets r required st s'
  split
  · exact hr
  rename_i hnone
  split
  · exact hr
  -- every job of the slug is finished, so no worker works on it
  have hdone : ∀ {k f}, r.1.files.get? k = some f → f.slug = slug →
      f.stage.terminal := by
    intro k f hf hslug
    have := List.find?_eq_none.mp (Option.map_eq_none_iff.mp hnone) (k, f)
      ((hmem k f).mpr hf)
    simpa [hslug] using this
  have hfree : ∀ {p : ℕ} {w : Worker} {f : JobStatus},
      r.1.workers[p]? = some w → w.working → r.1.files.get? w.jobId = some f →
      f.slug ≠ slug := by
    intro p w f hw hww hf hslug
    have hw : s.workers[p]? = some w := by
      rw [← href.workers]
      exact hw
    rcases href.files w.jobId with he | ⟨g, g', q, v, hg, hg', hsl, -, hq, hv, hvw⟩
    · have := h w (List.mem_of_getElem? hw) hww f (he.symm.trans hf) hslug
      rw [hdone hf hslug] at this
      cases this
    · grind [cases Inv]
  have hnew : r.1.files.get? j = none := by
    cases hrj : r.1.files.get? j with
    | none => rfl
    | some f =>
      obtain ⟨g, hg, -⟩ := href.calms.files.get?_back hrj
      rw [hj] at hg
      cases hg
  have hs' : Inv s' := hr.write hnew hfree hdone
  split
  · exact hs'
  rename_i s'' hspawn
  rw [eq_launch_of_spawn hspawn]
  refine hs'.launch (Dict.get?_set_self _ _ _) rfl fun hw hwj => ?_
  obtain ⟨f, hf, -⟩ := hr.file hw
  rw [hwj, hnew] at hf
  cases hf

/-! ### Cancelling, and what the workers do -/

theorem inv_cancel (hs : Inv s) (now j : ℕ) : Inv (s.cancel now j).1 := by
  unfold State.cancel
  split
  · exact hs
  rename_i st hj
  extract_lets s'
  have hforget : ∀ {k p : ℕ}, (s.procs.erase j).get? k = some p →
      s.procs.get? k = some p := fun h => (Dict.get?_erase_eq_some.mp h).2
  split
  · exact hs.calms ⟨Dict.rel_refl ends_refl _,
      fun hw => ⟨_, hw, rfl, id, fun st h => ⟨st, rfl, .inl h⟩⟩, hforget⟩
  · exact hs.calms ⟨Dict.rel_set ends_refl hj ⟨rfl, fun _ => rfl⟩,
      fun hw => ⟨_, hw, rfl, id, fun st h => ⟨st, rfl, .inl h⟩⟩, hforget⟩

theorem inv_shutdown (hs : Inv s) : Inv s.shutdown :=
  hs.calms ⟨Dict.rel_refl ends_refl _,
    fun hw => ⟨_, hw, rfl, id, fun st h => ⟨st, rfl, .inl h⟩⟩,
    fun h => nomatch h⟩

theorem Inv.setWorker (hs : Inv s) {w w' : Worker}
    (hw : s.workers[p]? = some w) (hj : w'.jobId = w.jobId)
    (hwork : w'.working → w.working)
    (hst : ∀ st, w'.status = some st →
      w.status = some st ∨ s.files.get? w.jobId = some st) :
    Inv (s.setWorker p w') := by
  refine hs.calms ⟨Dict.rel_refl ends_refl _, fun {q v} hv => ?_, id⟩
  have hv : (s.workers.set p w')[q]? = some v := hv
  rw [List.getElem?_set] at hv
  split at hv
  · rename_i hpq
    split at hv
    · grind
    · cases hv
  · grind

theorem Inv.save (hs : Inv s) {w w' : Worker} {st st' : JobStatus}
    (hw : s.workers[p]? = some w) (hww : w.working) (hj : w'.jobId = w.jobId)
    (hst : w.status = some st) (hslug : st'.slug = st.slug) :
    Inv (s.save p w' st') := by
  obtain ⟨f, hf, hstf⟩ := hs.file hw
  have hf' : st'.slug = f.slug := hslug.trans (hstf st hst)
  -- what the rows of the new state come from
  have hfile : ∀ {k g'}, (s.save p w' st').files.get? k = some g' →
      ∃ g, s.files.get? k = some g ∧ g'.slug = g.slug ∧ (k ≠ w.jobId → g' = g) := by
    intro k g' hg'
    rcases Dict.get?_set_eq_some.mp hg' with ⟨rfl, rfl⟩ | ⟨-, hg⟩
    · grind
    · exact ⟨g', hg, rfl, fun _ => rfl⟩
  have hkeep : ∀ {k g}, s.files.get? k = some g →
      ∃ g', (s.save p w' st').files.get? k = some g' ∧ g'.slug = g.slug := by
    intro k g hg
    show ∃ g', (s.files.set w'.jobId st').get? k = some g' ∧ _
    rw [Dict.get?_set, hj]
    split
    · grind
    · exact ⟨g, hg, rfl⟩
  have hworker : ∀ {q : ℕ} {v' : Worker}, (s.save p w' st').workers[q]? = some v' →
      ∃ v, s.workers[q]? = some v ∧ v'.jobId = v.jobId ∧ (v'.working → v.working)
        ∧ (v'.status = v.status ∨ q = p ∧ v'.status = some st') := by
    intro q v' hv'
    have hv' : (s.workers.set p _)[q]? = some v' := hv'
    rw [List.getElem?_set] at hv'
    split at hv'
    · rename_i hpq
      split at hv'
      · grind
      · cases hv'
    · exact ⟨v', hv', rfl, id, .inl rfl⟩
  refine ⟨fun hv' => ?_, fun q r v' u' g' h' hv' hu' hvw huw hg' hh' he => ?_,
    fun {q k v' g' h'} hv' hvw hg' hh' hne he => ?_,
    fun {j k g' h'} hg' hh' hgu hhu he => ?_, fun hq hv' hvj hvw => ?_⟩
  · obtain ⟨v, hv, hvj, -, hstatus⟩ := hworker hv'
    obtain ⟨g, hg, hvg⟩ := hs.file hv
    obtain ⟨g', hg', hgs⟩ := hkeep hg
    refine ⟨g', hvj ▸ hg', fun x hx => ?_⟩
    rcases hstatus with hsame | ⟨rfl, hnew⟩
    · rw [hvg x (hsame.symm.trans hx), hgs]
    · grind
  · obtain ⟨v, hv, hvj, hvwork, -⟩ := hworker hv'
    obtain ⟨u, hu, huj, huwork, -⟩ := hworker hu'
    obtain ⟨g, hg, hgs, -⟩ := hfile hg'
    obtain ⟨h, hh, hhs, -⟩ := hfile hh'
    rw [hvj] at hg
    rw [huj] at hh
    exact hs.one q r v u g h hv hu (hvwork hvw) (huwork huw) hg hh
      (hgs.symm.trans (he.trans hhs))
  · obtain ⟨v, hv, hvj, hvwork, -⟩ := hworker hv'
    obtain ⟨g, hg, hgs, -⟩ := hfile hg'
    obtain ⟨h, hh, hhs, hsame⟩ := hfile hh'
    rw [hvj] at hg hne
    have he : h.slug = g.slug := hhs.symm.trans (he.trans hgs)
    by_cases hk : k = w.jobId
    · -- the writing worker's own job: then it is the worker of the slug
      subst hk
      cases hs.one _ _ w v h g hw hv hww (hvwork hvw) hh hg he
      cases hw.symm.trans hv
      exact absurd rfl hne
    · grind [cases Inv]
  · obtain ⟨g, hg, hgs, hgsame⟩ := hfile hg'
    obtain ⟨h, hh, hhs, hhsame⟩ := hfile hh'
    have he : g.slug = h.slug := hgs.symm.trans (he.trans hhs)
    by_contra hne
    -- one of the two is not the writing worker's job, so it is finished
    by_cases hjw : j = w.jobId
    · grind [cases Inv]
    · grind [cases Inv]
  · obtain ⟨v, hv, hvj', hvwork, -⟩ := hworker hv'
    exact hs.held hq hv (hvj'.symm.trans hvj) (hvwork hvw)

theorem inv_turn (hs : Inv s) {f : Worker → State}
    (hf : ∀ {w : Worker}, s.workers[p]? = some w → w.working → Inv (f w)) :
    Inv (s.turn p f) := by
  unfold State.turn
  split
  · rename_i w hw
    split
    · exact hf hw ‹_›
    · exact hs
  · exact hs

theorem inv_begin (hs : Inv s) (p : ℕ) : Inv (s.begin p) := by
  refine inv_turn hs fun {w} hw hww => ?_
  split
  · rename_i st hst hread
    refine hs.setWorker hw rfl (fun _ => hww) fun st' h => .inr ?_
    cases h
    exact hread
  · exact hs

theorem inv_advance (hs : Inv s) (now p : ℕ) : Inv (s.advance now p) := by
  refine inv_turn hs fun {w} hw hww => ?_
  split
  · rename_i st x rest hst hstages
    exact hs.save hw hww rfl hst rfl
  · exact hs

theorem inv_progress (hs : Inv s) (now p : ℕ) : Inv (s.progress now p) := by
  refine inv_turn hs fun {w} hw hww => ?_
  split
  · rename_i st hst
    split
    · exact hs.save hw hww rfl hst rfl
    · exact hs
  · exact hs

theorem outcome_slug (x : State.Outcome) (now : ℕ) (st : JobStatus) :
    (x.of now st).slug = st.slug := by
  cases x <;> rfl

theorem inv_report (hs : Inv s) (now p : ℕ) (x : State.Outcome) :
    Inv (s.report now p x) := by
  refine inv_turn hs fun {w} hw hww => ?_
  split
  · rename_i st hst
    split
    · exact hs
    · exact hs.save hw hww rfl hst (outcome_slug _ now st)
  · exact hs

theorem inv_exit (hs : Inv s) (p : ℕ) (code : ℤ) : Inv (s.exit p code) := by
  unfold State.exit
  split
  · rename_i w hw
    split
    · exact hs
    · exact hs.setWorker hw rfl (fun h => nomatch h) fun _ => .inl
  · exact hs

theorem inv_step (hs : Inv s) {l : Label} (h : Settled s l) : Inv (step s l) := by
  cases l with
  | start j kind slug expected e => exact inv_start hs h
  | cancel now j => exact inv_cancel hs now j
  | status now j => exact hs.calms (refreshes_status now j).1.calms
  | resumeAll now env => exact inv_resumeAll hs h
  | shutdown => exact inv_shutdown hs
  | begin p => exact inv_begin hs p
  | advance now p => exact inv_advance hs now p
  | progress now p => exact inv_progress hs now p
  | report now p x => exact inv_report hs now p x
  | exit p code => exact inv_exit hs p code

end

/-- **One writer per model directory, once the unseen workers are gone.** -/
theorem one_writer_per_slug (reserve : ℕ) (as : List Label)
    (h : Run.Along step Settled (.init reserve) as) :
    Run.Throughout step OneWriter (.init reserve) as :=
  Run.throughout_of_invariant Inv (fun _ hs => hs.one)
    (fun _ _ hs h => inv_step hs h) (inv_init reserve) h

def cancelledAndResumed : List Label :=
  [.start 0 .pull "model" none {}, .begin 0, .advance 1 0, .cancel 2 0,
    .advance 3 0, .exit 0 (-15), .status 4 0, .resumeAll 5 fun _ => (true, true),
    .begin 1, .cancel 6 0, .exit 1 (-15), .start 1 .pull "model" none {},
    .shutdown, .exit 2 (-9), .resumeAll 7 fun _ => (true, true), .begin 3]

theorem one_writer_cancelledAndResumed :
    Run.Throughout step OneWriter (.init 0) cancelledAndResumed :=
  one_writer_per_slug 0 cancelledAndResumed (by decide +kernel)

/-- Both ways to two workers: by a restarted agent, and by a new start of a slug. -/
theorem resumed_or_restarted_beside_a_worker : ¬ Run.Throughout step OneWriter (.init 0)
      [.start 0 .pull "model" none {}, .begin 0, .shutdown,
        .resumeAll 1 fun _ => (true, true)]
    ∧ ¬ Run.Throughout step OneWriter (.init 0)
      [.start 0 .pull "model" none {}, .begin 0, .cancel 1 0,
        .start 1 .pull "model" none {}] := by
  constructor
  · intro h
    exact absurd (h 4 0 1 _ _ _ _ rfl rfl rfl rfl rfl rfl rfl) (by decide)
  · intro h
    exact absurd (h 4 0 1 _ _ _ _ rfl rfl rfl rfl rfl rfl rfl) (by decide)

end AcquisitionJobs
