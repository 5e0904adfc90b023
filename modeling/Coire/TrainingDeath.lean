import Coire.TrainingSupervisor

/-!
# What a supervisor says of a dead trainer is true for good

An attempt is *dead* on a node when no worker of it is alive there and none can be
spawned any more (`Dead`): it is rejected or has a record, its record has an intent or
is no longer `prepared`, and no call is about to spawn it. Every transaction of a
supervisor keeps a dead attempt dead (`Dead.act`), and whenever a supervisor answers
that an attempt has stopped – in the receipt of a `stop`, new or replayed, or in a
status – it is dead (`Supervisor.Good.sound_step`).

A supervisor serves many attempts, and an attempt is touched by its own calls only. So
the argument is about the `View` of one attempt. What any step can do to a view is one
of a few acts (`Act`), and the invariant of a view (`Ok`) is kept by each.
-/

namespace TrainingSupervision

/-! ## One attempt on one node -/

structure View where
  record : Option AttemptRecord
  rejected : Bool
  workers : List Worker
  birth : Option ProcessIdentity
  task : Option Task

namespace View

def CanSpawn (v : View) : Prop :=
  (v.record = none ∧ v.rejected = false)
    ∨ (∃ x, v.record = some x ∧ x.spawnNonce = none ∧ x.liveness = .prepared)
    ∨ ∃ c r x, v.task = some (.spawning c r x)

/-- **The attempt is dead here**: no trainer of it is alive, and none can be
spawned. -/
def Dead (v : View) : Prop :=
  (∀ w ∈ v.workers, w.alive = false) ∧ ¬ v.CanSpawn

def Has (v : View) (i : ProcessIdentity) : Prop :=
  ∃ w ∈ v.workers, w.identity = i

def Gone (ws : List Worker) (i : ProcessIdentity) : Prop :=
  ∀ w ∈ ws, w.identity = i → w.alive = false

def Exits (ws ws' : List Worker) : Prop :=
  ws' = ws ∨ ∃ i : ProcessIdentity, ws' = ws.map fun w =>
    if w.identity = i then { w with alive := false } else w

structure Sees (v : View) (x x' : AttemptRecord) : Prop where
  nonce : x'.spawnNonce = x.spawnNonce
  unspawned : x.spawnNonce = none → x' = x
  process : ∀ i, x'.process = some i →
    x.process = some i ∨ v.birth = some i ∨ v.Has i
  stopped : x'.liveness = .stopped →
    x' = x ∨ ∃ i, x'.process = some i ∧ Gone v.workers i

/-- What `stop` may find once the process is signalled. -/
structure Settles (ws : List Worker) (x : AttemptRecord)
    (state : TrainingLiveness) : Prop where
  process : ∀ i, x.process = some i → state = .stopped → Gone ws i
  unspawned : x.process = none → x.spawnNonce = none → state ≠ .prepared
  unknown : x.process = none → x.spawnNonce ≠ none → state = x.liveness

/-- **What one step of a node can do to its view of an attempt.** -/
inductive Act (v : View) : View → Prop
  | refl : Act v v
  | prepare {c n} (h : v.record = none) (hr : v.rejected = false) :
    Act v { v with record := some (Supervisor.recordOf c n) }
  | reject (h : v.record = none) : Act v { v with rejected := true }
  | intend {c r x x'} (h : v.record = some x) (hs : x.spawnNonce = none)
      (hl : x.liveness = .prepared) (hs' : x'.spawnNonce ≠ none)
      (hl' : x'.liveness = .unknown) (hp : x'.process = x.process) :
    Act v { v with record := some x', task := some (.spawning c r x') }
  | spawn {c r x w} (ht : v.task = some (.spawning c r x)) :
    Act v { v with
      workers := w :: v.workers, task := some (.started c r x w.identity) }
  | drop : Act v { v with task := none }
  | confirm {c r x i} (ht : v.task = some (.started c r x i)) {x'}
      (hs : x'.spawnNonce = x.spawnNonce) (hl : x'.liveness = .running)
      (hp : x'.process = some i) :
    Act v { v with record := some x', task := none }
  | begin {c r x x'} (h : v.record = some x) (ht : v.task = none)
      (hs : x'.spawnNonce = x.spawnNonce) (hp : x'.process = x.process)
      (hl : x'.liveness
        = if x.spawnNonce = none then .stopping else x.liveness) :
    Act v { v with record := some x', task := some (.stopping c r) }
  | see {x x'} (h : v.record = some x) (hx : v.Sees x x') :
    Act v { v with record := some x' }
  | read {c r x x' b} (ht : v.task = some (.stopping c r))
      (h : v.record = some x) (hx : v.Sees x x') :
    Act v { v with record := some x', task := some (.killing c r x' b) }
  | kill {c r x b ws state} (ht : v.task = some (.killing c r x b))
      (hws : Exits v.workers ws) (hst : Settles ws x state) :
    Act v { v with workers := ws, task := some (.settling c r x state) }
  | settle {c r x state} (ht : v.task = some (.settling c r x state)) {x'}
      (hs : x'.spawnNonce = x.spawnNonce) (hp : x'.process = x.process)
      (hl : x'.liveness = state) :
    Act v { v with record := some x', task := none }
  | mark {x x'} (h : v.record = some x) (hs : x'.spawnNonce = x.spawnNonce)
      (hp : x'.process = x.process) (hl : x'.liveness = x.liveness) :
    Act v { v with record := some x' }
  | birth {i} (hi : v.Has i) : Act v { v with birth := some (v.birth.getD i) }
  | exit {ws} (hws : Exits v.workers ws) : Act v { v with workers := ws }

structure Read (v : View) (y : AttemptRecord) : Prop where
  record : ∃ x, v.record = some x ∧ (y.spawnNonce = none ↔ x.spawnNonce = none)
    ∧ (x.spawnNonce = none → x.liveness ≠ .prepared)
  process : ∀ i, y.process = some i → v.Has i
  stopped : y.liveness = .stopped → v.Dead

def Intended (v : View) : Prop :=
  ∃ x, v.record = some x ∧ x.spawnNonce ≠ none

/-- What holds of the call that owns the lock. -/
def TaskOk (v : View) : Task → Prop
  | .spawning _ _ y =>
    v.Intended ∧ v.workers = [] ∧ y.spawnNonce ≠ none
  | .started _ _ y i => v.Intended ∧ v.Has i ∧ y.spawnNonce ≠ none
  | .stopping _ _ => ∃ x, v.record = some x
    ∧ (x.spawnNonce = none → x.liveness ≠ .prepared)
  | .killing _ _ y _ => v.Read y
  | .settling _ _ y state => v.Read y ∧ (state = .stopped → v.Dead)
    ∧ (y.spawnNonce = none → state ≠ .prepared)

structure Ok (v : View) : Prop where
  rejected : v.rejected = true → v.record = none
  blank : v.record = none → v.workers = [] ∧ v.birth = none ∧ v.task = none
  unspawned : ∀ {x}, v.record = some x → x.spawnNonce = none →
    v.workers = [] ∧ x.process = none
  single : v.workers.length ≤ 1
  known : ∀ {x i}, v.record = some x → x.process = some i → v.Has i
  born : ∀ {i}, v.birth = some i → v.Has i
  stopped : ∀ {x}, v.record = some x → x.liveness = .stopped → v.Dead
  task : ∀ {t}, v.task = some t → v.TaskOk t

variable {v v' : View}

/-! ### Dead for good -/

variable {x : AttemptRecord} {ws : List Worker} {i : ProcessIdentity}

variable {x' : AttemptRecord} {ws' : List Worker}

theorem Exits.length (h : Exits ws ws') : ws'.length = ws.length := by
  rcases h with rfl | ⟨i, rfl⟩
  · rfl
  · exact List.length_map _

theorem Exits.nil (h : Exits ws ws') (hw : ws = []) : ws' = [] := by
  have := h.length
  rw [hw] at this
  exact List.eq_nil_of_length_eq_zero this

theorem Exits.has (h : Exits v.workers ws)
    (hi : v.Has i) : ∃ w ∈ ws, w.identity = i := by
  obtain ⟨w, hw, hwi⟩ := hi
  rcases h with rfl | ⟨j, rfl⟩
  · exact ⟨w, hw, hwi⟩
  refine ⟨_, List.mem_map_of_mem hw, ?_⟩
  split
  · exact hwi
  · exact hwi

theorem Exits.dead (h : Exits ws ws')
    (hd : ∀ w ∈ ws, w.alive = false) : ∀ w ∈ ws', w.alive = false := by
  grind [Exits]

/-- What keeps an attempt dead: workers only die, the attempt keeps its record
or its rejection, and nothing is about to spawn. -/
theorem Dead.of (hd : v.Dead) (hw : ∀ w ∈ v'.workers, w.alive = false)
    (hr : v'.record = none → v.record = none ∧ (v.rejected → v'.rejected))
    (hx : ∀ x, v'.record = some x → x.spawnNonce = none → x.liveness ≠ .prepared)
    (ht : ∀ c r x, v'.task ≠ some (.spawning c r x)) : v'.Dead := by
  refine ⟨hw, ?_⟩
  rintro (⟨hnone, hrej⟩ | ⟨x, hrec, hs, hl⟩ | ⟨c, r, x, htask⟩)
  · obtain ⟨hv, himp⟩ := hr hnone
    refine hd.2 (.inl ⟨hv, ?_⟩)
    cases hb : v.rejected with
    | false => rfl
    | true => rw [himp hb] at hrej; cases hrej
  · exact hx x hrec hs hl
  · exact ht c r x htask

theorem Dead.record (hd : v.Dead) (h : v.record = some x) (hs : x.spawnNonce = none) :
    x.liveness ≠ .prepared := fun hl => hd.2 (.inr (.inl ⟨x, h, hs, hl⟩))

theorem Dead.task (hd : v.Dead) (c : TrainingCommand) (r : Request)
    (x : AttemptRecord) : v.task ≠ some (.spawning c r x) := fun h =>
  hd.2 (.inr (.inr ⟨c, r, x, h⟩))

theorem Sees.not_prepared (hx : v.Sees x x') (hd : v.Dead) (h : v.record = some x)
    (hs : x'.spawnNonce = none) : x'.liveness ≠ .prepared := by
  obtain rfl := hx.unspawned (hx.nonce.symm.trans hs)
  exact hd.record h hs

theorem Dead.act (hok : v.Ok) (hd : v.Dead) (ha : v.Act v') : v'.Dead := by
  cases ha with
  | refl => exact hd
  | prepare h hr => exact absurd (.inl ⟨h, hr⟩) hd.2
  | reject h =>
    exact hd.of hd.1 (fun _ => ⟨h, fun _ => rfl⟩) (fun x hx => hd.record hx) hd.task
  | intend h hs hl => exact absurd hl (hd.record h hs)
  | spawn ht => exact absurd ht (hd.task _ _ _)
  | drop =>
    exact hd.of hd.1 (fun h => ⟨h, id⟩) (fun x hx => hd.record hx)
      (fun _ _ _ h => by cases h)
  | confirm ht hs =>
    have hne := (hok.task ht).2.2
    refine hd.of hd.1 nofun (fun x hx hsx => ?_) (fun _ _ _ h => by cases h)
    cases hx
    exact (hne (hs ▸ hsx)).elim
  | begin h _ hs _ hl =>
    refine hd.of hd.1 nofun (fun x hx hsx => ?_) (fun _ _ _ h => by cases h)
    cases hx
    rw [hl, if_pos (hs.symm.trans hsx)]
    decide
  | see h hx =>
    refine hd.of hd.1 nofun (fun x hx' hsx => ?_) hd.task
    cases hx'
    exact hx.not_prepared hd h hsx
  | read _ h hx =>
    refine hd.of hd.1 nofun (fun x hx' hsx => ?_) (fun _ _ _ h => by cases h)
    cases hx'
    exact hx.not_prepared hd h hsx
  | kill _ hws _ =>
    exact hd.of (hws.dead hd.1) (fun h => ⟨h, id⟩) (fun x hx => hd.record hx)
      (fun _ _ _ h => by cases h)
  | settle ht hs _ hl =>
    obtain ⟨-, -, hne⟩ := hok.task ht
    refine hd.of hd.1 nofun (fun x hx hsx => ?_) (fun _ _ _ h => by cases h)
    cases hx
    rw [hl]
    exact hne (hs.symm.trans hsx)
  | mark h hs _ hl =>
    refine hd.of hd.1 nofun (fun x hx hsx => ?_) hd.task
    cases hx
    rw [hl]
    exact hd.record h (hs.symm.trans hsx)
  | birth =>
    exact hd.of hd.1 (fun h => ⟨h, id⟩) (fun x hx => hd.record hx) hd.task
  | exit hws =>
    exact hd.of (hws.dead hd.1) (fun h => ⟨h, id⟩) (fun x hx => hd.record hx) hd.task

/-! ### The invariant -/

theorem dead_of_gone (hint : v.Intended)
    (hone : v.workers.length ≤ 1) (hi : v.Has i) (hg : Gone v.workers i)
    (ht : ∀ c r x, v.task ≠ some (.spawning c r x)) : v.Dead := by
  obtain ⟨w, hw, hwi⟩ := hi
  obtain ⟨x, hx, hne⟩ := hint
  constructor
  · intro w' hw'
    obtain ⟨u, hu⟩ := List.length_eq_one_iff.mp
      (Nat.le_antisymm hone (List.length_pos_of_mem hw))
    have hg := hg w hw hwi
    rw [hu, List.mem_singleton] at hw hw'
    rw [hw', ← hw]
    exact hg
  · rintro (⟨hnone, -⟩ | ⟨y, hy, hs, -⟩ | ⟨c, r, y, hy⟩)
    · exact absurd (hx.symm.trans hnone) nofun
    · cases hx.symm.trans hy
      exact hne hs
    · exact ht c r y hy

theorem Has.ne_nil (hi : v.Has i) : v.workers ≠ [] := by
  obtain ⟨w, hw, -⟩ := hi
  exact List.ne_nil_of_mem hw

theorem Ok.intended (hok : v.Ok) (hi : v.Has i) : v.Intended := by
  cases hx : v.record with
  | none => exact absurd (hok.blank hx).1 hi.ne_nil
  | some x => exact ⟨x, hx, fun hs => hi.ne_nil (hok.unspawned hx hs).1⟩

theorem Ok.dead_of_gone (hok : v.Ok) (hi : v.Has i)
    (hg : Gone v.workers i) : v.Dead := by
  exact View.dead_of_gone (hok.intended hi) hok.single hi hg fun c r x ht =>
    hi.ne_nil (hok.task ht).2.1

theorem TaskOk.mono {t : Task} (h : v.TaskOk t)
    (hrec : ∀ x, v.record = some x → ∃ x', v'.record = some x'
      ∧ x'.spawnNonce = x.spawnNonce
      ∧ (x.spawnNonce = none → x'.liveness = x.liveness))
    (hw : v.workers = [] → v'.workers = []) (hh : ∀ i, v.Has i → v'.Has i)
    (hd : v.Dead → v'.Dead) : v'.TaskOk t := by
  have hint : v.Intended → v'.Intended := by
    rintro ⟨x, hx, hne⟩
    obtain ⟨x', hx', hs, -⟩ := hrec x hx
    exact ⟨x', hx', hs ▸ hne⟩
  have hread {y} (hy : v.Read y) : v'.Read y := by
    obtain ⟨x, hx, hiff, hne⟩ := hy.record
    obtain ⟨x', hx', hs, hl⟩ := hrec x hx
    refine ⟨⟨x', hx', by rw [hs]; exact hiff, fun h => ?_⟩,
      fun i hi => hh i (hy.process i hi), fun h => hd (hy.stopped h)⟩
    rw [hs] at h
    rw [hl h]
    exact hne h
  cases t with
  | spawning => exact ⟨hint h.1, hw h.2.1, h.2.2⟩
  | started => exact ⟨hint h.1, hh _ h.2.1, h.2.2⟩
  | stopping =>
    obtain ⟨x, hx, hne⟩ := h
    obtain ⟨x', hx', hs, hl⟩ := hrec x hx
    refine ⟨x', hx', fun h => ?_⟩
    rw [hs] at h
    rw [hl h]
    exact hne h
  | killing => exact hread h
  | settling => exact ⟨hread h.1, hd ∘ h.2.1, h.2.2⟩

theorem Ok.rerecord (hok : v.Ok) {task : Option Task}
    (h : v.record = some x) (hs : x'.spawnNonce = none → x.spawnNonce = none)
    (hp : ∀ i, x'.process = some i → v.Has i)
    (hstop : x'.liveness = .stopped → { v with record := some x', task := task }.Dead)
    (htask : ∀ {t}, task = some t →
      { v with record := some x', task := task }.TaskOk t) :
    Ok { v with record := some x', task := task } where
  rejected hr := by
    rw [hok.rejected hr] at h
    cases h
  blank := nofun
  unspawned hx hnone := by
    cases hx
    obtain ⟨hw, -⟩ := hok.unspawned h (hs hnone)
    exact ⟨hw, Option.eq_none_iff_forall_ne_some.mpr fun i hi => (hp i hi).ne_nil hw⟩
  single := hok.single
  known hx hi := by
    cases hx
    exact hp _ hi
  born := hok.born
  stopped hx hl := by
    cases hx
    exact hstop hl
  task := htask

theorem Ok.exits (hok : v.Ok) {task : Option Task} (hws : Exits v.workers ws)
    (hdead : v.Dead → { v with workers := ws, task := task }.Dead)
    (hnone : v.record = none → task = none)
    (htask : ∀ {t}, task = some t → { v with workers := ws, task := task }.TaskOk t) :
    Ok { v with workers := ws, task := task } := by
  refine ⟨hok.rejected, fun h => ?_, fun hx hs => ?_, ?_,
    fun hx hi => hws.has (hok.known hx hi), fun hi => hws.has (hok.born hi),
    fun hx hl => hdead (hok.stopped hx hl), htask⟩
  · grind [Exits, cases Ok]
  · grind [Exits, cases Ok]
  · grind [Exits, cases Ok]

theorem Sees.has (hok : v.Ok) (h : v.record = some x)
    (hx : v.Sees x x') {i : ProcessIdentity} (hi : x'.process = some i) :
    v.Has i := by
  rcases hx.process i hi with h' | h' | h'
  · exact hok.known h h'
  · exact hok.born h'
  · exact h'

theorem Sees.dead (hok : v.Ok) (h : v.record = some x)
    (hx : v.Sees x x') (hl : x'.liveness = .stopped) : v.Dead := by
  rcases hx.stopped hl with rfl | ⟨i, hi, hg⟩
  · exact hok.stopped h hl
  · exact hok.dead_of_gone (hx.has hok h hi) hg

theorem Ok.act (hok : v.Ok) (ha : v.Act v') : v'.Ok := by
  have hdead (hd : v.Dead) : v'.Dead := hd.act hok ha
  cases ha with
  | refl => exact hok
  | prepare h hr =>
    obtain ⟨hw, hb, ht⟩ := hok.blank h
    refine ⟨fun h => ?_, nofun, fun hx _ => ?_, hok.single, fun hx hi => ?_,
      hok.born, fun hx hl => ?_, fun htask => ?_⟩
    · rw [hr] at h
      cases h
    · cases hx
      exact ⟨hw, rfl⟩
    · cases hx
      cases hi
    · cases hx
      cases hl
    · rw [ht] at htask
      cases htask
  | reject h =>
    obtain ⟨hw, hb, ht⟩ := hok.blank h
    refine ⟨fun _ => h, hok.blank, hok.unspawned, hok.single, hok.known,
      hok.born, fun hx => ?_, fun htask => ?_⟩
    · rw [h] at hx
      cases hx
    · rw [ht] at htask
      cases htask
  | intend h hs hl hs' hl' hp =>
    obtain ⟨hw, hnone⟩ := hok.unspawned h hs
    refine hok.rerecord h (absurd · hs') (fun i hi => ?_)
      (fun hstop => nomatch hl'.symm.trans hstop) fun htask => ?_
    · exact nomatch hnone.symm.trans (hp.symm.trans hi)
    · cases htask
      exact ⟨⟨_, rfl, hs'⟩, hw, hs'⟩
  | spawn ht =>
    obtain ⟨⟨x, hx, hne⟩, hw, hy⟩ := hok.task ht
    refine ⟨hok.rejected, fun h => ?_, fun hx' hs => ?_, ?_, fun hx' hi => ?_,
      fun hi => ?_, fun hx' hl => ?_, fun htask => ?_⟩
    · exact absurd (hx.symm.trans h) nofun
    · cases hx.symm.trans hx'
      exact absurd hs hne
    · grind
    · exact absurd hw (hok.known hx' hi).ne_nil
    · exact absurd hw (hok.born hi).ne_nil
    · exact hdead (hok.stopped hx' hl)
    · cases htask
      exact ⟨⟨x, hx, hne⟩, ⟨_, List.mem_cons_self, rfl⟩, hy⟩
  | drop =>
    refine ⟨hok.rejected, fun h => ?_, hok.unspawned, hok.single, hok.known,
      hok.born, fun hx hl => hdead (hok.stopped hx hl), nofun⟩
    obtain ⟨hw, hb, -⟩ := hok.blank h
    exact ⟨hw, hb, rfl⟩
  | confirm ht hs hl hp =>
    obtain ⟨⟨x, hx, hne⟩, hhas, hy⟩ := hok.task ht
    refine hok.rerecord hx (fun h => absurd (hs.symm.trans h) hy) (fun i hi => ?_)
      (fun hstop => nomatch hl.symm.trans hstop) nofun
    cases hp.symm.trans hi
    exact hhas
  | begin h ht hs hp hl =>
    refine hok.rerecord h hs.symm.trans (fun i hi => hok.known h (hp.symm.trans hi))
      (fun hstop => ?_) (fun htask => ?_)
    · rw [hl] at hstop
      split at hstop
      · cases hstop
      · exact hdead (hok.stopped h hstop)
    · cases htask
      refine ⟨_, rfl, fun hnone => ?_⟩
      rw [hl, if_pos (hs.symm.trans hnone)]
      decide
  | see h hx =>
    refine hok.rerecord h hx.nonce.symm.trans (fun i hi => hx.has hok h hi)
      (fun hl => hdead (hx.dead hok h hl)) (fun htask => ?_)
    refine (hok.task htask).mono (fun y hy => ?_) id (fun _ => id) hdead
    cases h.symm.trans hy
    exact ⟨_, rfl, hx.nonce, fun hnone => by rw [hx.unspawned hnone]⟩
  | read ht h hx =>
    refine hok.rerecord h hx.nonce.symm.trans (fun i hi => hx.has hok h hi)
      (fun hl => hdead (hx.dead hok h hl)) (fun htask => ?_)
    cases htask
    obtain ⟨y, hy, hne⟩ := hok.task ht
    cases h.symm.trans hy
    refine ⟨⟨_, rfl, Iff.rfl, fun hnone => ?_⟩, fun i hi => hx.has hok h hi,
      fun hl => hdead (hx.dead hok h hl)⟩
    have hnone' := hx.nonce.symm.trans hnone
    rw [hx.unspawned hnone']
    exact hne hnone'
  | @kill _ _ y _ ws state ht hws hst =>
    have hread : v.Read y := hok.task ht
    obtain ⟨x, hx, hiff, hne⟩ := hread.record
    -- without an intent there is no worker, and so no process
    have hnone (h : y.spawnNonce = none) : v.workers = [] ∧ y.process = none := by
      obtain ⟨hw, -⟩ := hok.unspawned hx (hiff.mp h)
      exact ⟨hw, Option.eq_none_iff_forall_ne_some.mpr fun i hi =>
        (hread.process i hi).ne_nil hw⟩
    refine hok.exits hws hdead (fun h => absurd (hx.symm.trans h) nofun) fun htask => ?_
    cases htask
    refine ⟨⟨⟨x, hx, hiff, hne⟩, fun i hi => hws.has (hread.process i hi),
      fun hl => hdead (hread.stopped hl)⟩, fun hstop => ?_, fun h => ?_⟩
    · cases hp : y.process with
      | some i =>
        obtain ⟨z, hz, hzne⟩ := hok.intended (hread.process i hp)
        refine View.dead_of_gone (i := i) ⟨z, hz, hzne⟩ ?_
          (hws.has (hread.process i hp)) (hst.process i hp hstop)
          (fun _ _ _ h => by cases h)
        show ws.length ≤ 1
        rw [hws.length]
        exact hok.single
      | none =>
        by_cases hs : y.spawnNonce = none
        · refine ⟨fun w hw => ?_, ?_⟩
          · have hw : w ∈ ws := hw
            rw [hws.nil (hnone hs).1] at hw
            cases hw
          · rintro (⟨h, -⟩ | ⟨z, hz, hzs, hzl⟩ | ⟨_, _, _, h⟩)
            · exact absurd (hx.symm.trans h) nofun
            · grind
            · cases h
        · exact hdead (hread.stopped ((hst.unknown hp hs).symm.trans hstop))
    · exact hst.unspawned (hnone h).2 h
  | settle ht hs hp hl =>
    obtain ⟨hread, hstop, -⟩ := hok.task ht
    obtain ⟨x, hx, hiff, -⟩ := hread.record
    refine hok.rerecord hx (fun h => hiff.mp (hs.symm.trans h))
      (fun i hi => hread.process i (hp.symm.trans hi))
      (fun h => hdead (hstop (hl.symm.trans h))) nofun
  | mark h hs hp hl =>
    refine hok.rerecord h hs.symm.trans (fun i hi => hok.known h (hp.symm.trans hi))
      (fun hstop => hdead (hok.stopped h (hl.symm.trans hstop)))
      (fun htask => ?_)
    refine (hok.task htask).mono (fun y hy => ?_) id (fun _ => id) hdead
    cases h.symm.trans hy
    exact ⟨_, rfl, hs, fun _ => hl⟩
  | birth hi =>
    refine ⟨hok.rejected, fun h => ?_, hok.unspawned, hok.single, hok.known,
      fun hj => ?_, fun hx hl => hdead (hok.stopped hx hl), fun htask => ?_⟩
    · exact absurd (hok.blank h).1 hi.ne_nil
    · cases hb : v.birth with
      | none => exact Option.some.inj (hb ▸ hj) ▸ hi
      | some j =>
        rw [hb] at hj
        cases hj
        exact hok.born hb
    · exact (hok.task htask).mono (fun x hx => ⟨x, hx, rfl, fun _ => rfl⟩) id
        (fun _ => id) hdead
  | exit hws =>
    exact hok.exits hws hdead (fun h => (hok.blank h).2.2) fun htask =>
      (hok.task htask).mono (fun x hx => ⟨x, hx, rfl, fun _ => rfl⟩) hws.nil
        (fun _ => hws.has) hdead

end View

/-! ## The whole node -/

def Task.value : Task → Option AttemptRecord
  | .spawning _ _ v | .started _ _ v _ | .killing _ _ v _
  | .settling _ _ v _ => some v
  | .stopping _ _ => none

def Reply.proof : Reply → Option (StudioName × ℕ)
  | .stopped receipt =>
    if receipt.stopped then some (receipt.node, receipt.attemptId) else none
  | .status x =>
    if x.liveness = .stopped then some (x.node, x.attemptId) else none
  | _ => none

theorem Reply.proof_stopped {receipt : TrainingStopReceipt} {n : StudioName}
    {a : ℕ} : (Reply.stopped receipt).proof = some (n, a)
      ↔ receipt.stopped = true ∧ receipt.node = n ∧ receipt.attemptId = a := by
  rw [Reply.proof]
  split <;> simp_all

theorem Reply.proof_status {x : NodeTrainingStatus} {n : StudioName} {a : ℕ} :
    (Reply.status x).proof = some (n, a)
      ↔ x.liveness = .stopped ∧ x.node = n ∧ x.attemptId = a := by
  rw [Reply.proof]
  split <;> simp_all

namespace Supervisor

variable {s : Supervisor}

def view (s : Supervisor) (a : ℕ) : View where
  record := s.records.get? a
  rejected := (s.rejections.get? a).isSome
  workers := s.workers.filter fun w => w.attemptId = a
  birth := s.births.get? a
  task := s.task.filter fun t => t.command.attemptId = a

variable {v : AttemptRecord} {s' : Supervisor} {t : Task} {c : TrainingCommand} {a : ℕ}

theorem view_save_self (h : s.records.get? a = some v) (v' : AttemptRecord) :
    (s.save a v').view a = { s.view a with record := some v' } := by
  unfold view save
  simp only [Dict.get?_modify, if_pos, h, Option.map_some]

theorem view_save_ne {b : ℕ} (h : a ≠ b) (v : AttemptRecord) :
    (s.save b v).view a = s.view a := by
  unfold view save
  simp only [Dict.get?_modify, if_neg h]

theorem filter_own (h : t.command.attemptId = a) :
    (some t).filter (fun t => t.command.attemptId = a) = some t := by
  rw [Option.filter_some, if_pos (decide_eq_true h)]

theorem filter_other (h : a ≠ t.command.attemptId) :
    (some t).filter (fun t => t.command.attemptId = a) = none := by
  rw [Option.filter_some, if_neg (by simpa using h.symm)]

structure Good (s : Supervisor) : Prop where
  ok : ∀ a, (s.view a).Ok
  records : ∀ {a x}, s.records.get? a = some x → x.prepare.node = s.node
  task : ∀ {t}, s.task = some t → t.command.node = s.node
  value : ∀ {t x}, s.task = some t → t.value = some x →
    x.prepare.node = s.node
  receipts : ∀ {k e receipt}, s.commands.get? k = some e →
    e.receipt = some (.stopped receipt) → receipt.stopped = true →
    receipt.node = s.node ∧ (s.view receipt.attemptId).Dead

/-- **What a step of a node leaves**: a good node on which the dead stay dead,
and replies that say only of dead attempts that they have stopped. -/
structure Sound (s : Supervisor) (res : Supervisor × List Reply) : Prop where
  good : res.1.Good
  node : res.1.node = s.node
  dead : ∀ {a}, (s.view a).Dead → (res.1.view a).Dead
  replies : ∀ {r}, r ∈ res.2 → ∀ {n a}, r.proof = some (n, a) →
    n = s.node ∧ (res.1.view a).Dead

theorem Sound.trans {res : Supervisor × List Reply}
    (h : Sound s (s', [])) (h' : Sound s' res) : Sound s res where
  good := h'.good
  node := h'.node.trans h.node
  dead hd := h'.dead (h.dead hd)
  replies hr _ _ hp := by
    obtain ⟨hn, hd⟩ := h'.replies hr hp
    exact ⟨hn.trans h.node, hd⟩

theorem Good.sound_refl (hg : s.Good) {rs : List Reply}
    (h : ∀ r ∈ rs, ∀ n a, r.proof = some (n, a) →
      n = s.node ∧ (s.view a).Dead) : Sound s (s, rs) :=
  ⟨hg, rfl, id, fun hr _ _ hp => h _ hr _ _ hp⟩

theorem Good.sound_nil (hg : s.Good) : Sound s (s, []) :=
  hg.sound_refl nofun

theorem Good.sound_act (hg : s.Good)
    (hacts : ∀ a, (s.view a).Act (s'.view a)) (hnode : s'.node = s.node)
    (hrecords : ∀ {a x}, s'.records.get? a = some x → x.prepare.node = s.node)
    (htask : ∀ {t}, s'.task = some t → t.command.node = s.node
      ∧ ∀ {x}, t.value = some x → x.prepare.node = s.node)
    (hreceipts : ∀ {k e receipt}, s'.commands.get? k = some e →
      e.receipt = some (.stopped receipt) → receipt.stopped = true →
      s.commands.get? k = some e
        ∨ receipt.node = s.node ∧ (s'.view receipt.attemptId).Dead) :
    Sound s (s', []) := by
  have hdead {a} (hd : (s.view a).Dead) : (s'.view a).Dead :=
    hd.act (hg.ok a) (hacts a)
  refine ⟨⟨fun a => (hg.ok a).act (hacts a), fun h => ?_, fun h => ?_,
    fun h hx => ?_, fun hk he hs => ?_⟩, hnode, hdead, nofun⟩
  · rw [hnode]
    exact hrecords h
  · rw [hnode]
    exact (htask h).1
  · rw [hnode]
    exact (htask h).2 hx
  · rw [hnode]
    rcases hreceipts hk he hs with h | h
    · grind [cases Good]
    · exact h

theorem Good.sound_receipt (hg : s.Good) (r : Request) {x : Receipt}
    (h : ∀ receipt, x = .stopped receipt → receipt.stopped = true →
      receipt.node = s.node ∧ (s.view receipt.attemptId).Dead) :
    Sound s (s.receipt r x, []) := by
  refine hg.sound_act (fun a => .refl) rfl hg.records
    (fun ht => ⟨hg.task ht, hg.value ht⟩) fun hk he hs => ?_
  obtain ⟨-, rfl⟩ | ⟨-, hold⟩ := Dict.get?_set_eq_some.mp hk
  · exact .inr (h _ (Option.some.inj he) hs)
  · exact .inl hold

theorem Sound.reply (h : Sound s (s', [])) {rs : List Reply}
    (hr : ∀ r ∈ rs, ∀ n a, r.proof = some (n, a) →
      n = s.node ∧ (s'.view a).Dead) : Sound s (s', rs) :=
  ⟨h.good, h.node, h.dead, fun hm _ _ hp => hr _ hm _ _ hp⟩

/-! ### The parts -/

variable {r : Request}

theorem accept_spec {leased : Bool}
    {prior : Option CommandEntry} (h : s.accept r leased = some prior) :
    r.command.node = s.node
      ∧ ∀ e, prior = some e → s.commands.get? r.command.commandId = some e := by
  grind [accept]

theorem scopedTo_spec
    (h : s.scopedTo c = some v) : s.records.get? c.attemptId = some v := by
  grind [scopedTo]

theorem Good.replay (hg : s.Good) {leased : Bool}
    {prior : Option CommandEntry} (h : s.accept r leased = some prior)
    {receipt : TrainingStopReceipt}
    (hp : prior.bind (·.receipt) = some (.stopped receipt)) {n : StudioName}
    (hproof : (Reply.stopped receipt).proof = some (n, a)) :
    n = s.node ∧ (s.view a).Dead := by
  obtain ⟨e, he, hrec⟩ := Option.bind_eq_some_iff.mp hp
  obtain ⟨hs, rfl, rfl⟩ := Reply.proof_stopped.mp hproof
  exact hg.receipts ((accept_spec h).2 e he) hrec hs

theorem Good.dead_of_rejected (hg : s.Good)
    (h : (s.rejections.get? a).isSome) : (s.view a).Dead := by
  have hok := hg.ok a
  have hnone : (s.view a).record = none := hok.rejected h
  obtain ⟨hw, -, ht⟩ := hok.blank hnone
  refine ⟨fun w hmem => ?_, ?_⟩
  · rw [hw] at hmem
    cases hmem
  rintro (⟨-, hr⟩ | ⟨x, hx, -⟩ | ⟨c, r, x, hx⟩)
  · exact absurd (hr.symm.trans h) nofun
  · exact absurd (hnone.symm.trans hx) nofun
  · exact absurd (ht.symm.trans hx) nofun

theorem readRejection_spec {tidy : Bool} (h : s.readRejection a tidy = some (some c)) :
    (s.rejections.get? a).isSome ∧ c.attemptId = a ∧ c.node = s.node := by
  unfold readRejection at h
  split at h
  · cases h
  rename_i d hd
  split at h
  · cases h
  · grind

/-! ### The calls -/

theorem Good.sound_reject (hg : s.Good) (c : TrainingCommand) (tidy : Bool) :
    Sound s (s.reject c tidy, []) := by
  unfold reject
  split
  · exact hg.sound_nil
  rename_i hp
  simp only [not_or, Bool.not_eq_true, Bool.not_eq_false', pristine,
    Bool.and_eq_true, Option.isNone_iff_eq_none] at hp
  refine hg.sound_act (fun a => ?_) rfl hg.records
    (fun ht => ⟨hg.task ht, hg.value ht⟩) fun hk _ _ => .inl hk
  by_cases ha : a = c.attemptId
  · subst ha
    have : { s with rejections := s.rejections.set c.attemptId c }.view
        c.attemptId = { s.view c.attemptId with rejected := true } := by
      unfold view
      simp only [Dict.get?_set_self, Option.isSome_some]
    rw [this]
    exact .reject hp.2.1.1
  · have : { s with rejections := s.rejections.set c.attemptId c }.view a
        = s.view a := by
      unfold view
      simp only [Dict.get?_set_ne _ ha]
    rw [this]
    exact .refl

theorem journalPrepare_spec {n : ℕ} {e : Env} (h : s.journalPrepare c n e = some s') :
    s' = s ∨ c.node = s.node ∧ s.records.get? c.attemptId = none
      ∧ s' = (s.insert c.attemptId (recordOf c n)).receipt
        (.prepare c n) .prepared := by
  unfold journalPrepare at h
  split at h
  · cases h
  · split at h <;> cases h
    exact .inl rfl
  rename_i hacc
  split at h
  · cases h
  split at h
  · cases h
  rename_i hnew
  rw [Bool.not_eq_true, Option.isSome_eq_false_iff, Option.isNone_iff_eq_none] at hnew
  split at h <;> cases h
  exact .inr ⟨(accept_spec hacc).1, hnew, rfl⟩

theorem readRejection_none {tidy : Bool}
    (h : s.readRejection a tidy = some none) : s.rejections.get? a = none := by
  unfold readRejection at h
  split at h
  · assumption
  · split at h <;> cases h

theorem Good.sound_insert (hg : s.Good) (n : ℕ)
    (hnode : c.node = s.node) (hnew : s.records.get? c.attemptId = none)
    (hrej : s.rejections.get? c.attemptId = none) :
    Sound s (s.insert c.attemptId (recordOf c n), []) := by
  refine hg.sound_act (fun a => ?_) rfl (fun hx => ?_)
    (fun ht => ⟨hg.task ht, hg.value ht⟩) fun hk _ _ => .inl hk
  · by_cases ha : a = c.attemptId
    · subst ha
      have : (s.insert c.attemptId (recordOf c n)).view c.attemptId
          = { s.view c.attemptId with record := some (recordOf c n) } := by
        unfold view insert
        simp only [Dict.get?_set_self]
      rw [this]
      refine .prepare hnew ?_
      show (s.rejections.get? c.attemptId).isSome = false
      rw [hrej]
      rfl
    · have : (s.insert c.attemptId (recordOf c n)).view a = s.view a := by
        unfold view insert
        simp only [Dict.get?_set_ne _ ha]
      rw [this]
      exact .refl
  · obtain ⟨-, rfl⟩ | ⟨-, hold⟩ := Dict.get?_set_eq_some.mp hx
    · exact hnode
    · exact hg.records hold

theorem Good.sound_prepare (hg : s.Good) (c : TrainingCommand)
    (reservationId : ℕ) (e : Env) :
    Sound s (s.prepare c reservationId e, []) := by
  unfold prepare
  split
  · exact hg.sound_nil
  split
  · rename_i hrej
    split
    · rename_i s' hs'
      obtain rfl | ⟨hnode, hnew, rfl⟩ := journalPrepare_spec hs'
      · exact hg.sound_nil
      · have h := hg.sound_insert reservationId hnode hnew (readRejection_none hrej)
        exact h.trans (h.good.sound_receipt _ fun _ h => by cases h)
    · exact hg.sound_reject c e.tidy
  · exact hg.sound_nil

theorem Good.sound_save (hg : s.Good) {v' : AttemptRecord}
    (h : s.records.get? a = some v) (hprep : v'.prepare.node = s.node)
    {task : Option Task}
    (hold : ∀ t, s.task = some t → t.command.attemptId = a)
    (htask : ∀ t, task = some t → t.command.attemptId = a
      ∧ t.command.node = s.node ∧ ∀ x, t.value = some x → x = v')
    (hact : (s.view a).Act { s.view a with record := some v', task := task }) :
    Sound s ({ s.save a v' with task := task }, []) := by
  have hown : task.filter (fun t => t.command.attemptId = a) = task := by
    cases task with
    | none => rfl
    | some t => exact filter_own (htask t rfl).1
  refine hg.sound_act (fun b => ?_) rfl (fun hx => ?_) (fun ht => ?_)
    fun hk _ _ => .inl hk
  · show (s.view b).Act { (s.save a v').view b with
      task := task.filter fun t => t.command.attemptId = b }
    by_cases hb : b = a
    · subst hb
      rw [view_save_self h, hown]
      exact hact
    · -- the lock was not, and is not, owned by a call for another attempt
      have hbefore : (s.view b).task = none := by
        show s.task.filter _ = none
        cases ht : s.task with
        | none => rfl
        | some t => grind
      have hafter : task.filter (fun t => t.command.attemptId = b) = none := by
        cases task with
        | none => rfl
        | some t => grind
      rw [view_save_ne hb, hafter, ← hbefore]
      exact .refl
  · rw [save] at hx
    simp only [Dict.get?_modify] at hx
    split at hx
    · grind
    · exact hg.records hx
  · grind

theorem Good.sound_accepted (hg : s.Good) (k : ℕ) (r : Request) :
    Sound s ({ s with commands := s.commands.setDefault k ⟨r, none⟩ }, []) := by
  refine hg.sound_act (fun a => .refl) rfl hg.records
    (fun ht => ⟨hg.task ht, hg.value ht⟩) fun {j e _} hk he _ => ?_
  have hk : (s.commands.setDefault k ⟨r, none⟩).get? j = some e := hk
  rw [Dict.get?_setDefault] at hk
  split at hk
  · rename_i hj
    cases hold : s.commands.get? k with
    | none => grind
    | some e' => grind
  · exact .inl hk

theorem Good.sound_start (hg : s.Good) (c : TrainingCommand)
    (preparedCommandId spawnNonce : ℕ) (e : Env) :
    Sound s (s.start c preparedCommandId spawnNonce e) := by
  unfold start
  extract_lets r s'
  split
  · exact hg.sound_nil
  rename_i hlock
  simp only [not_or, Bool.not_eq_true, Option.isSome_eq_false_iff,
    Option.isNone_iff_eq_none] at hlock
  split
  · rename_i prior v hrej hacc hv
    have hv := scopedTo_spec hv
    have hnode := (accept_spec hacc).1
    split
    · exact hg.sound_nil
    split
    · exact hg.sound_refl (by simp [Reply.proof])
    · exact hg.sound_nil
    split
    · exact hg.sound_nil
    split
    · split
      · split
        · exact (hg.sound_receipt r fun _ h => by cases h).reply (by simp [Reply.proof])
        · exact hg.sound_nil
      · exact hg.sound_nil
    · rename_i hs
      split
      · exact hg.sound_nil
      rename_i hprep
      simp only [not_or, ne_eq, not_not] at hprep
      extract_lets v'
      have hs' : Sound s (s', []) := hg.sound_accepted _ r
      have hv' : v'.prepare.node = s'.node :=
        show v.prepare.node = s.node from hg.records hv
      refine hs'.trans (hs'.good.sound_save hv hv' (fun t ht => ?_) (fun t ht => ?_) ?_)
      · exact absurd (hlock.1.symm.trans ht) nofun
      · cases ht
        exact ⟨rfl, hnode, fun x hx => (Option.some.inj hx).symm⟩
      · exact .intend hv hs hprep.1 nofun rfl rfl
  · exact hg.sound_nil

theorem Good.sound_stopRejected (hg : s.Good) {rejected : TrainingCommand}
    (reason : ℕ) (h : (s.rejections.get? c.attemptId).isSome) :
    Sound s (s.stopRejected c reason rejected) := by
  unfold stopRejected
  extract_lets r
  split
  · exact hg.sound_nil
  split
  · exact hg.sound_nil
  rename_i prior hacc
  split
  · rename_i receipt hp
    refine hg.sound_refl fun x hx n a hproof => ?_
    rw [List.mem_singleton] at hx
    subst hx
    exact hg.replay hacc hp hproof
  · exact hg.sound_nil
  · have hdead := hg.dead_of_rejected h
    have hnode := (accept_spec hacc).1
    refine (hg.sound_receipt r fun receipt hr _ => ?_).reply fun x hx n a hproof => ?_
    · cases hr
      exact ⟨hnode, hdead⟩
    rw [List.mem_singleton] at hx
    subst hx
    obtain ⟨-, rfl, rfl⟩ := Reply.proof_stopped.mp hproof
    exact ⟨hnode, hdead⟩

theorem Good.sound_stopPrepared (hg : s.Good) (c : TrainingCommand)
    (reason : ℕ) : Sound s (s.stopPrepared c reason) := by
  unfold stopPrepared
  extract_lets r s'
  split
  · exact hg.sound_nil
  rename_i hlock
  rw [Bool.not_eq_true, Option.isSome_eq_false_iff, Option.isNone_iff_eq_none] at hlock
  split
  · rename_i prior v hacc hv
    have hv := scopedTo_spec hv
    split
    · rename_i receipt hp
      refine hg.sound_refl fun x hx n a hproof => ?_
      rw [List.mem_singleton] at hx
      subst hx
      exact hg.replay hacc hp hproof
    · exact hg.sound_nil
    · extract_lets v'
      have hs' : Sound s (s', []) := hg.sound_accepted _ r
      have hv' : v'.prepare.node = s'.node :=
        show v.prepare.node = s.node from hg.records hv
      refine hs'.trans (hs'.good.sound_save hv hv' (fun t ht => ?_) (fun t ht => ?_) ?_)
      · exact absurd (hlock.symm.trans ht) nofun
      · cases ht
        exact ⟨rfl, (accept_spec hacc).1, nofun⟩
      refine .begin hv ?_ rfl rfl rfl
      show s.task.filter _ = none
      rw [hlock]
      rfl
  · exact hg.sound_nil

theorem Good.sound_stop (hg : s.Good) (c : TrainingCommand) (reason : ℕ)
    (tidy : Bool) : Sound s (s.stop c reason tidy) := by
  unfold stop
  split
  · exact hg.sound_nil
  · rename_i rejected hrej
    exact hg.sound_stopRejected reason (readRejection_spec hrej).1
  split
  · split
    · exact hg.sound_nil
    · rename_i hp hn
      have h := hg.sound_reject c tidy
      refine h.trans (h.good.sound_stopRejected reason ?_)
      show ((s.reject c tidy).rejections.get? c.attemptId).isSome
      unfold reject
      rw [if_neg (by simp [hp, not_not.mp hn])]
      simp only [Dict.get?_set_self, Option.isSome_some]
  · exact hg.sound_stopPrepared c reason

/-! ### Observation -/

theorem observeProcess_stopped {i : ProcessIdentity} {seen : TrainingLiveness}
    (h : s.observeProcess i seen = .stopped) (a : ℕ) :
    View.Gone (s.view a).workers i := by
  intro w hw hi
  rw [Bool.eq_false_iff]
  intro halive
  have : s.alive i = true := by
    unfold alive
    exact List.any_eq_true.mpr
      ⟨w, (List.mem_filter.mp hw).1, decide_eq_true ⟨hi, halive⟩⟩
  unfold observeProcess at h
  rw [this] at h
  split at h <;> simp at h

theorem discover_spec (s : Supervisor) (a nonce : ℕ) (certain : Bool) :
    (s.discover a nonce certain).1 ≠ .stopped
      ∧ ∀ i, (s.discover a nonce certain).2 = some i → (s.view a).Has i := by
  unfold discover
  split
  · rename_i w hw
    split
    · refine ⟨nofun, fun i hi => ?_⟩
      cases hi
      have hmem : w ∈ s.workers.filter fun w =>
          w.attemptId = a ∧ w.spawnNonce = nonce ∧ w.alive := by
        rw [hw]
        exact List.mem_singleton_self w
      obtain ⟨hmem, hp⟩ := List.mem_filter.mp hmem
      exact ⟨w, List.mem_filter.mpr ⟨hmem, decide_eq_true
        (of_decide_eq_true hp).1⟩, rfl⟩
    · exact ⟨nofun, nofun⟩
  · exact ⟨nofun, nofun⟩

theorem observed_prepare (s : Supervisor) (a : ℕ) (v : AttemptRecord)
    (seen : TrainingLiveness) : (s.observed a v seen).prepare = v.prepare := by
  unfold observed
  split
  · rfl
  split
  · rfl
  · split
    · rfl
    · split <;> rfl

theorem sees_observed (s : Supervisor) (a : ℕ) (v : AttemptRecord)
    (seen : TrainingLiveness) : (s.view a).Sees v (s.observed a v seen) := by
  have hrefl : (s.view a).Sees v v :=
    ⟨rfl, fun _ => rfl, fun i hi => .inl hi, fun _ => .inl rfl⟩
  unfold observed
  split
  · exact hrefl
  rename_i nonce hs
  have hne : v.spawnNonce ≠ none := by
    rw [hs]
    exact nofun
  split
  · exact hrefl
  split
  · rename_i i hi
    exact ⟨rfl, fun h => absurd h hne, fun j hj => .inl hj,
      fun h => .inr ⟨i, hi, observeProcess_stopped h a⟩⟩
  · split
    · rename_i i hi
      refine ⟨rfl, fun h => absurd h hne, fun j hj => ?_,
        fun h => .inr ⟨i, rfl, observeProcess_stopped h a⟩⟩
      cases hj
      exact .inr (.inl hi)
    · obtain ⟨hstop, hhas⟩ := s.discover_spec a nonce (seen = .running)
      exact ⟨rfl, fun h => absurd h hne, fun j hj => .inr (.inr (hhas j hj)),
        fun h => absurd h hstop⟩

theorem Good.sound_resave (hg : s.Good) {v' : AttemptRecord}
    (h : s.records.get? a = some v) (hprep : v'.prepare = v.prepare)
    (hact : (s.view a).Act { s.view a with record := some v' }) :
    Sound s (s.save a v', []) := by
  refine hg.sound_act (fun b => ?_) rfl (fun hx => ?_)
    (fun ht => ⟨hg.task ht, hg.value ht⟩) fun hk _ _ => .inl hk
  · by_cases hb : b = a
    · subst hb
      rw [view_save_self h]
      exact hact
    · rw [view_save_ne hb]
      exact .refl
  · rw [save] at hx
    simp only [Dict.get?_modify] at hx
    split at hx
    · grind [cases Good]
    · exact hg.records hx

theorem Good.sound_observe (hg : s.Good) (a : ℕ) (seen : TrainingLiveness)
    (tidy : Bool) : Sound s (s.observe a seen tidy) := by
  unfold observe
  split
  · exact hg.sound_nil
  · rename_i c hrej
    obtain ⟨hsome, -, hnode⟩ := readRejection_spec hrej
    refine hg.sound_refl fun x hx n b hproof => ?_
    rw [List.mem_singleton] at hx
    subst hx
    obtain ⟨-, rfl, rfl⟩ := Reply.proof_status.mp hproof
    exact ⟨hnode, hg.dead_of_rejected hsome⟩
  · split
    · exact hg.sound_nil
    · rename_i v hv
      have hsaved : Sound s (s.save a (s.observed a v seen), []) :=
        hg.sound_resave hv (s.observed_prepare a v seen)
          (.see hv (s.sees_observed a v seen))
      refine hsaved.reply fun x hx n b hproof => ?_
      rw [List.mem_singleton] at hx
      subst hx
      obtain ⟨hl, rfl, rfl⟩ := Reply.proof_status.mp hproof
      refine ⟨?_, (hsaved.good.ok a).stopped ?_ hl⟩
      · show (s.observed a v seen).prepare.node = s.node
        rw [observed_prepare]
        exact hg.records hv
      · rw [view_save_self hv]

/-! ### The call that owns the lock -/

theorem view_own (h : s.task = some t) :
    (s.view t.command.attemptId).task = some t := by
  show s.task.filter _ = some t
  rw [h]
  exact filter_own rfl

theorem Good.sound_drop (hg : s.Good) : Sound s ({ s with task := none }, []) :=
  hg.sound_act (fun _ => .drop) rfl hg.records nofun fun hk _ _ => .inl hk

theorem view_exit (s : Supervisor) (i : ProcessIdentity) (a : ℕ) :
    (s.exit i).view a = { s.view a with
      workers := (s.view a).workers.map fun w =>
        if w.identity = i then { w with alive := false } else w } := by
  unfold view exit
  simp only [List.filter_map]
  congr 3
  funext w
  show decide ((if _ then _ else _ : Worker).attemptId = a) = _
  split <;> rfl

theorem Good.sound_exit (hg : s.Good) (i : ProcessIdentity) :
    Sound s (s.exit i, []) := by
  refine hg.sound_act (fun a => ?_) rfl hg.records
    (fun ht => ⟨hg.task ht, hg.value ht⟩) fun hk _ _ => .inl hk
  rw [view_exit]
  exact .exit (.inr ⟨i, rfl⟩)

theorem Good.sound_task (hg : s.Good) {t' : Task} (h : s.task = some t)
    (hcommand : t'.command = t.command) (hvalue : t'.value = t.value)
    (hact : (s.view t.command.attemptId).Act
      { s.view t.command.attemptId with task := some t' }) :
    Sound s ({ s with task := some t' }, []) := by
  refine hg.sound_act (fun a => ?_) rfl hg.records (fun ht => ?_) fun hk _ _ => .inl hk
  · show (s.view a).Act { s.view a with
      task := (some t').filter fun t => t.command.attemptId = a }
    by_cases ha : a = t.command.attemptId
    · grind
    · rw [filter_other (by rw [hcommand]; exact ha)]
      exact .drop
  · grind [cases Good]

theorem Good.sound_spawn (hg : s.Good) (h : s.task = some (.spawning c r v))
    (i : Option ProcessIdentity) : Sound s (s.spawn c r v i, []) := by
  have hnode := hg.task h
  have hvalue {x} (hx : (Task.spawning c r v).value = some x) := hg.value h hx
  unfold spawn
  split
  · rename_i i nonce hs
    refine hg.sound_act (fun a => ?_) rfl hg.records (fun ht => ?_)
      fun hk _ _ => .inl hk
    · show (s.view a).Act { s.view a with
        workers := (⟨c.attemptId, nonce, i, true⟩ :: s.workers).filter
          fun w => w.attemptId = a
        task := (some (.started c r v i)).filter fun t => t.command.attemptId = a }
      by_cases ha : a = c.attemptId
      · subst ha
        rw [filter_own (t := .started c r v i) (a := c.attemptId) rfl,
          List.filter_cons_of_pos (by simp)]
        exact .spawn (view_own h)
      · rw [filter_other (t := .started c r v i) ha,
          List.filter_cons_of_neg (by simpa using Ne.symm ha)]
        exact .drop
    · cases ht
      exact ⟨hnode, hvalue⟩
  · exact hg.sound_drop

theorem settles_settledState (s : Supervisor) (a : ℕ) (v : AttemptRecord)
    (complete : Bool) (seen : TrainingLiveness) :
    View.Settles (s.view a).workers v (s.settledState v complete seen) := by
  unfold settledState
  refine ⟨fun i hi h => ?_, fun hp hs => ?_, fun hp hs => ?_⟩
  · rw [hi] at h
    exact observeProcess_stopped h a
  · rw [hp]
    show (if _ then _ else _) ≠ _
    rw [if_pos hs]
    cases complete <;> decide
  · rw [hp]
    exact if_neg hs

theorem Good.sound_signal (hg : s.Good) (v : AttemptRecord) (exits : Bool) :
    Sound s (s.signal v exits, []) := by
  unfold signal
  split
  · split
    · exact hg.sound_exit _
    · exact hg.sound_nil
  · exact hg.sound_nil

theorem signal_task (s : Supervisor) (v : AttemptRecord) (exits : Bool) :
    (s.signal v exits).task = s.task := by
  unfold signal
  split
  · split <;> rfl
  · rfl

theorem Good.sound_proceed (hg : s.Good) (e : ProceedEnv) : Sound s (s.proceed e) := by
  unfold proceed
  split
  · exact hg.sound_nil
  · rename_i c r v ht
    exact hg.sound_spawn ht e.spawned
  · rename_i c r v i ht
    obtain ⟨⟨x, hx, -⟩, -, -⟩ := (hg.ok c.attemptId).task (view_own ht)
    have hprep := hg.value ht rfl
    have hsaved : Sound s ({ s.save c.attemptId
        { v with process := some i, liveness := .running } with task := none },
        []) := by
      refine hg.sound_save hx (by exact hprep) (fun t h => ?_) (fun t h => by cases h)
        (.confirm (view_own ht) rfl rfl rfl)
      cases ht.symm.trans h
      rfl
    exact (hsaved.trans (hsaved.good.sound_receipt r fun _ h => by cases h)).reply
      (by simp [Reply.proof])
  · rename_i c r ht
    split
    · exact hg.sound_drop
    rename_i v hv
    have hnode := hg.task ht
    refine hg.sound_save hv ?_ (fun t h => ?_) (fun t h => ?_)
      (.read (view_own ht) hv (s.sees_observed _ v e.seen))
    · rw [observed_prepare]
      exact hg.records hv
    · cases ht.symm.trans h
      rfl
    · cases h
      exact ⟨rfl, hnode, fun x hx => (Option.some.inj hx).symm⟩
  · rename_i c r v complete ht
    extract_lets s' state
    have hexit : Sound s (s', []) := hg.sound_signal v e.exits
    have ht' : s'.task = some (.killing c r v complete) :=
      (s.signal_task v e.exits).trans ht
    exact hexit.trans (hexit.good.sound_task ht' rfl rfl (.kill (view_own ht')
      (.inl rfl) (s'.settles_settledState _ v complete e.seen)))
  · rename_i c r v state ht
    have hnode := hg.task ht
    obtain ⟨hread, hstop, -⟩ := (hg.ok c.attemptId).task (view_own ht)
    obtain ⟨x, hx, -⟩ := hread.record
    have hprep := hg.value ht rfl
    have hsaved : Sound s ({ s.save c.attemptId { v with liveness := state }
        with task := none }, []) := by
      refine hg.sound_save hx (by exact hprep) (fun t h => ?_) (fun t h => by cases h)
        (.settle (view_own ht) rfl rfl rfl)
      cases ht.symm.trans h
      rfl
    have htrue (h : (stopReceipt c v state).stopped = true) :=
      hsaved.dead (hstop (of_decide_eq_true h))
    refine (hsaved.trans (hsaved.good.sound_receipt r fun _ h hs => ?_)).reply
      fun y hy n a hproof => ?_
    · cases h
      exact ⟨hnode, htrue hs⟩
    rw [List.mem_singleton] at hy
    subst hy
    obtain ⟨hs, rfl, rfl⟩ := Reply.proof_stopped.mp hproof
    exact ⟨hnode, htrue hs⟩

/-! ### Every step -/

theorem Good.sound_step (hg : s.Good) (l : Label) : Sound s (s.step l) := by
  cases l with
  | request r e =>
    cases r with
    | prepare c n => exact hg.sound_prepare c n e
    | start c prepared nonce => exact hg.sound_start c prepared nonce e
    | stop c reason => exact hg.sound_stop c reason e.tidy
  | prepared a ready =>
    rw [step]
    split
    · exact hg.sound_nil
    · exact hg.sound_refl (by simp [Reply.proof])
  | proceed e => exact hg.sound_proceed e
  | observe a seen tidy => exact hg.sound_observe a seen tidy
  | watchdog a commandId reason tidy =>
    rw [step]
    split
    · exact hg.sound_nil
    · exact hg.sound_stop _ reason tidy
  | release a =>
    show Sound s (s.releaseAfterDeath a, [])
    unfold releaseAfterDeath
    split
    · rename_i v hv
      split
      · exact hg.sound_resave hv rfl (.mark hv rfl rfl rfl)
      · exact hg.sound_nil
    · exact hg.sound_nil
  | clean a =>
    rw [step]
    split
    · rename_i v hv
      split
      · exact hg.sound_resave hv rfl (.mark hv rfl rfl rfl)
      · exact hg.sound_nil
    · exact hg.sound_nil
  | birth a i =>
    rw [step]
    split
    · rename_i h
      obtain ⟨w, hw, hp⟩ := List.any_eq_true.mp h
      obtain ⟨hwa, hwi, -⟩ := of_decide_eq_true hp
      refine hg.sound_act (fun b => ?_) rfl hg.records
        (fun ht => ⟨hg.task ht, hg.value ht⟩) fun hk _ _ => .inl hk
      show (s.view b).Act { s.view b with
        birth := (s.births.setDefault a i).get? b }
      rw [Dict.get?_setDefault]
      split
      · rename_i hb
        subst hb
        exact .birth ⟨w, List.mem_filter.mpr ⟨hw, decide_eq_true hwa⟩, hwi⟩
      · exact .refl
    · exact hg.sound_nil
  | exit i => exact hg.sound_exit i
  | crash => exact hg.sound_drop

theorem good_init (node : StudioName) : (init node).Good := by
  refine ⟨fun a => ?_, nofun, nofun, nofun, nofun⟩
  exact ⟨nofun, fun _ => ⟨rfl, rfl, rfl⟩, nofun, Nat.zero_le 1, nofun, nofun,
    nofun, nofun⟩

end Supervisor

end TrainingSupervision
