import Coire.ShardGroups

/-!
# An unconfirmed stop and the memory of its rank

The reservations of a sharded instance are given up in seven places, and none of them
looks at the reservation of one rank and the stop of that rank. A stop that fails gives
the memory up, as do three other steps that may come before the stops are confirmed
(`Confirms`). These are the only ways (`stops_hold_memory_iff`).

What carries the proof is that the processes are not in each other's way where it
matters: until the prepare commands are queued there is no command, no drain and no
ready group, so nothing touches the rows that the admission wrote (`Fresh`).
-/

namespace ShardGroups

/-! ## What the rows keep -/

/-- **What holds of the rows** as long as nothing was given up too early. -/
structure Sound (r : Rows) : Prop where
  /-- The reservation of a rank that is not confirmed counts, and was not given
  up before. -/
  held : ∀ s, (r.command s .prepare).isSome → r.command s .stop ≠ some .succeeded →
    ∃ h, r.hold s = some h ∧ h.state.active = true ∧ h.released = false
  unfailed : ∀ s, (r.command s .prepare).isSome → r.command s .stop ≠ some .failed
  grouped : r.group = none → ∀ s op, r.command s op = none
  stopping : r.group = some .stopping → ∀ s, (r.command s .stop).isSome
  together : ∀ s s', (r.command s .stop).isSome → (r.command s' .stop).isSome

structure Fresh (r : Rows) : Prop where
  state : r.state = .reserving
  group : r.group = some .preparing
  command : ∀ s op, r.command s op = none
  hold : ∀ s, r.hold s = some ⟨.pending, false⟩

def Ended (r : Rows) : Prop := ∀ s, ended (r.command s .stop) = true

def Late : InstanceState → Prop
  | .draining | .stopped | .failed => True
  | _ => False

/-- **What the other processes see of a transaction**: commands that are there
are as they were, and an instance at its end stays there. -/
structure Grows (r r' : Rows) : Prop where
  command : ∀ s op c, r.command s op = some c → r'.command s op = some c
  late : Late r.state → Late r'.state

variable {r r' : Rows}

theorem Grows.refl (r : Rows) : Grows r r := ⟨fun _ _ _ h => h, fun h => h⟩

theorem transition_eq_some {target : InstanceState}
    (h : r.transition target = some r') :
    r' = { r with state := target } ∧ (Late r.state → Late target) := by
  unfold Rows.transition at h
  split at h
  · rename_i heq
    cases h
    subst heq
    exact ⟨rfl, fun h => h⟩
  · split at h
    · rename_i hallowed
      cases h
      refine ⟨rfl, fun hlate => ?_⟩
      revert hallowed hlate
      cases r.state <;> cases target <;> simp [allowed, Late]
    · cases h

theorem Sound.withState (h : Sound r) (state : InstanceState) :
    Sound { r with state := state } :=
  ⟨h.held, h.unfailed, h.grouped, h.stopping, h.together⟩

theorem Sound.giveUp (h : Sound r) (hconfirmed : r.Confirmed)
    (state : MemoryReservationState) (p : Hold → Bool) :
    Sound (r.giveUp state p) :=
  ⟨fun s hs hstop => absurd (hconfirmed s hs) hstop, h.unfailed, h.grouped,
    h.stopping, h.together⟩

theorem Sound.withGroup (h : Sound r) {g : ShardGroupState} (hg : g ≠ .stopping)
    (hsome : r.group.isSome) : Sound { r with group := some g } where
  held := h.held
  unfailed := h.unfailed
  grouped := fun hnone => absurd hnone (Option.some_ne_none g)
  stopping := fun hstopping => absurd (Option.some.inj hstopping) hg
  together := h.together

theorem Sound.confirmed_of_none (h : Sound r) (hnone : r.group = none) :
    r.Confirmed := by
  intro s hs
  rw [h.grouped hnone s .prepare] at hs
  cases hs

theorem Sound.confirmed_of_ended (h : Sound r) (hended : Ended r) : r.Confirmed := by
  intro s hs
  have hfailed := h.unfailed s hs
  have hend := hended s
  revert hfailed hend
  cases r.command s .stop with
  | none => exact fun _ hend => by cases hend
  | some c =>
    cases c with
    | pending => exact fun _ hend => by cases hend
    | running => exact fun _ hend => by cases hend
    | succeeded => exact fun _ _ => rfl
    | failed => exact fun hfailed _ => absurd rfl hfailed

/-! ## The transactions of the scheduler -/

theorem Sound.admitted (h : Sound r) (hrows : r.admitted = some r') :
    Fresh r' ∧ Sound r' ∧ Grows r r' := by
  unfold Rows.admitted at hrows
  split at hrows
  · cases hrows
  rename_i hgroup
  have hnone : r.group = none := Option.not_isSome_iff_eq_none.mp hgroup
  have hcommand := h.grouped hnone
  obtain ⟨rfl, hlate⟩ := transition_eq_some hrows
  refine ⟨⟨rfl, rfl, hcommand, fun _ => rfl⟩, ⟨fun s hs => ?_, fun s hs => ?_,
    fun hn => ?_, fun hs => ?_, fun s _ hs => ?_⟩, fun s op c hc => ?_, hlate⟩
  · exact absurd hs (by rw [hcommand]; decide)
  · exact absurd hs (by rw [hcommand]; decide)
  · cases hn
  · cases hs
  · exact absurd hs (by rw [hcommand]; decide)
  · rw [hcommand] at hc
    cases hc

theorem queue_command (r : Rows) (op : ShardOperation) (s : StudioName)
    (op' : ShardOperation) (c : CommandState) (hc : r.command s op' = some c) :
    (r.queue op).command s op' = some c := by
  show (if op' = op then some ((r.command s op).getD .pending)
    else r.command s op') = some c
  split
  · rename_i heq
    subst heq
    rw [hc]
    rfl
  · exact hc

theorem Fresh.queuePrepare (h : Fresh r) (hqueue : r.queuePrepare = some r') :
    Sound r' ∧ Grows r r' := by
  unfold Rows.queuePrepare at hqueue
  split at hqueue
  · obtain ⟨rfl, hlate⟩ := transition_eq_some hqueue
    have hstop : ∀ s, (r.queue .prepare).command s .stop = none :=
      fun s => h.command s .stop
    refine ⟨⟨fun s _ _ => ⟨_, h.hold s, rfl, rfl⟩, fun s _ => ?_, fun hn => ?_,
      fun hs => ?_, fun s _ hs => ?_⟩, queue_command r .prepare, hlate⟩
    · grind
    · exact absurd (h.group.symm.trans hn) (Option.some_ne_none _)
    · exact absurd (h.group.symm.trans hs) (by decide)
    · grind
  · cases hqueue

theorem Sound.queueReady (h : Sound r) (hqueue : r.queueReady = some r') :
    Sound r' ∧ Grows r r' := by
  unfold Rows.queueReady at hqueue
  split at hqueue
  · obtain ⟨rfl, hlate⟩ := transition_eq_some hqueue
    refine ⟨⟨h.held, h.unfailed, fun hn => ?_, fun hs => ?_, h.together⟩,
      queue_command r .ready, hlate⟩
    · cases hn
    · cases hs
  · cases hqueue

theorem Sound.markReady (h : Sound r) (hmark : r.markReady = some r') :
    Sound r' ∧ Grows r r' := by
  unfold Rows.markReady at hmark
  split at hmark
  · obtain ⟨rfl, hlate⟩ := transition_eq_some hmark
    refine ⟨⟨fun s hs hstop => ?_, h.unfailed, fun hn => ?_, fun hs => ?_,
      h.together⟩, fun _ _ _ hc => hc, hlate⟩
    · obtain ⟨hold, hhold, -, hreleased⟩ := h.held s hs hstop
      refine ⟨{ hold with state := .held }, ?_, rfl, hreleased⟩
      show (r.hold s).map _ = _
      rw [hhold]
      rfl
    · cases hn
    · cases hs
  · cases hmark

theorem Sound.releaseFailed (h : Sound r)
    (hconfirmed : r.state = .failed → r.Confirmed) :
    Sound r.releaseFailed ∧ Grows r r.releaseFailed := by
  unfold Rows.releaseFailed
  split
  · rename_i hfailed
    exact ⟨h.giveUp (hconfirmed hfailed) _ _, fun _ _ _ hc => hc, fun hlate => hlate⟩
  · exact ⟨h, Grows.refl r⟩

theorem Sound.handle (h : Sound r) (hconfirmed : r.smoke = false →
      r.state = .requested ∨ r.state = .ready ∨ r.state = .draining → r.Confirmed) :
    Sound r.handle ∧ Grows r r.handle := by
  have hgiven : r.state = .requested ∨ r.state = .ready ∨ r.state = .draining →
      Sound { (if r.smoke then r
        else r.giveUp .failed (fun h => h.state.active)) with state := .failed }
      ∧ Grows r { (if r.smoke then r
        else r.giveUp .failed (fun h => h.state.active)) with state := .failed } := by
    intro hstate
    cases hsmoke : r.smoke with
    | true => exact ⟨h.withState _, fun _ _ _ hc => hc, fun _ => trivial⟩
    | false =>
      exact ⟨(h.giveUp (hconfirmed hsmoke hstate) _ _).withState _,
        fun _ _ _ hc => hc, fun _ => trivial⟩
  unfold Rows.handle
  split
  · exact hgiven (.inl ‹_›)
  · exact hgiven (.inr (.inl ‹_›))
  · exact hgiven (.inr (.inr ‹_›))
  · exact ⟨h, Grows.refl r⟩

theorem Sound.terminalize (h : Sound r) (hnone : r.group = none)
    (hend : r.terminalize = some r') : Sound r' ∧ Grows r r' := by
  have hgiven := h.giveUp (h.confirmed_of_none hnone) .failed (fun h => h.state.active)
  unfold Rows.terminalize at hend
  dsimp only at hend
  split at hend
  · cases hend
    exact ⟨hgiven, fun _ _ _ hc => hc, fun hlate => hlate⟩
  · obtain ⟨rfl, hlate⟩ := transition_eq_some hend
    exact ⟨hgiven.withState _, fun _ _ _ hc => hc, hlate⟩

theorem queueStops_stop (r : Rows) (s : StudioName) :
    r.queueStops.command s .stop = some ((r.command s .stop).getD .pending) := rfl

theorem Sound.queueStops (h : Sound r) : Sound r.queueStops ∧ Grows r r.queueStops := by
  have hstop : ∀ s c, c ≠ .pending → r.queueStops.command s .stop = some c →
      r.command s .stop = some c := by
    intro s c hc hqueued
    rw [queueStops_stop] at hqueued
    cases hcommand : r.command s .stop with
    | none => grind
    | some c' => grind
  refine ⟨⟨fun s hs hne => h.held s hs (fun hsucceeded => hne ?_),
    fun s hs hfailed => h.unfailed s hs (hstop s _ (by decide) hfailed),
    fun hn => ?_, fun _ _ => rfl, fun _ _ _ => rfl⟩,
    queue_command r .stop, fun hlate => hlate⟩
  · rw [queueStops_stop, hsucceeded]
    rfl
  · cases hn

theorem Sound.settle (h : Sound r) (hconfirmed : r.Confirmed) {failed : Bool}
    (hsettle : r.settle failed = some r') : Sound r' ∧ Grows r r' := by
  obtain ⟨rfl, hlate⟩ := transition_eq_some hsettle
  refine ⟨⟨fun s hs hstop => absurd (hconfirmed s hs) hstop, h.unfailed,
    fun hn => h.grouped (Option.map_eq_none_iff.mp hn), fun hs => ?_, h.together⟩,
    fun _ _ _ hc => hc, hlate⟩
  obtain ⟨g, -, hg⟩ := Option.map_eq_some_iff.mp hs
  cases failed <;> cases hg

/-! ## The transactions of the executor and the reconciler -/

theorem Sound.failGroup (h : Sound r) (hfail : r.failGroup = some r') :
    Sound r' ∧ Grows r r' := by
  unfold Rows.failGroup at hfail
  split at hfail
  · obtain ⟨rfl, hlate⟩ := transition_eq_some hfail
    obtain ⟨hsound, hgrows⟩ := h.queueStops
    exact ⟨hsound.withState _, hgrows.command, hlate⟩
  · cases hfail
    exact ⟨h, Grows.refl r⟩

variable {pc : DrainPc} {op : ShardOperation} {s : StudioName}

theorem succeeded_of_complete (hcomplete : r.incomplete = false)
    (hs : (r.command s .stop).isSome) : r.command s .stop = some .succeeded := by
  unfold Rows.incomplete at hcomplete
  rw [Bool.or_eq_false_iff] at hcomplete
  have hany : (r.command s .stop).any (· ≠ .succeeded) = false := by
    cases s with
    | edgeA => exact hcomplete.1
    | edgeB => exact hcomplete.2
  obtain ⟨c, hc⟩ := Option.isSome_iff_exists.mp hs
  rw [hc] at hany ⊢
  have hne : ¬ c ≠ .succeeded := of_decide_eq_false hany
  rw [not_not.mp hne]

theorem Sound.confirmed_of_complete (h : Sound r) (hcomplete : r.incomplete = false)
    (hconfirmed : r.unqueued .stop = true → r.Confirmed) : r.Confirmed := by
  intro s hs
  cases hstop : r.command s .stop with
  | some c =>
    rw [← hstop]
    exact succeeded_of_complete hcomplete (by rw [hstop]; rfl)
  | none =>
    have hnone : ∀ s', r.command s' .stop = none := by
      intro s'
      cases hs' : r.command s' .stop with
      | none => rfl
      | some c => grind [cases Sound]
    have hunqueued : r.unqueued .stop = true := by
      unfold Rows.unqueued
      rw [hnone, hnone]
      rfl
    rw [← hstop]
    exact hconfirmed hunqueued s hs

theorem Sound.finalizeStop (h : Sound r)
    (hconfirmed : r.unqueued .stop = true → r.Confirmed) {failed : Bool}
    (hfinal : r.finalizeStop failed = some r') : Sound r' ∧ Grows r r' := by
  unfold Rows.finalizeStop at hfinal
  split at hfinal
  · cases hfinal
    exact ⟨h, Grows.refl r⟩
  rename_i hincomplete
  have hall := h.confirmed_of_complete (Bool.eq_false_of_not_eq_true hincomplete)
    hconfirmed
  split at hfinal
  · cases hfinal
    exact ⟨h, Grows.refl r⟩
  rename_i g hgroup
  have hgiven := h.giveUp hall (if failed then .failed else .released) (fun _ => true)
  have hsome : (r.giveUp (if failed then .failed else .released)
      (fun _ => true)).group.isSome := by
    show r.group.isSome
    rw [hgroup]
    rfl
  dsimp only at hfinal
  split at hfinal
  · split at hfinal
    · cases hfinal
      exact ⟨hgiven.withGroup (by decide) hsome, fun _ _ _ hc => hc, fun hlate => hlate⟩
    · obtain ⟨rfl, hlate⟩ := transition_eq_some hfinal
      exact ⟨(hgiven.withGroup (by decide) hsome).withState _,
        fun _ _ _ hc => hc, hlate⟩
  · cases hfinal
    exact ⟨hgiven, fun _ _ _ hc => hc, fun hlate => hlate⟩

theorem commandSet_self (r : Rows) (s : StudioName) (op : ShardOperation)
    (c : CommandState) : (r.commandSet s op c).command s op = some c :=
  if_pos ⟨rfl, rfl⟩

theorem commandSet_ne {r : Rows} {s' : StudioName} {op' : ShardOperation}
    {c : CommandState} (h : ¬ (s' = s ∧ op' = op)) :
    (r.commandSet s op c).command s' op' = r.command s' op' :=
  if_neg h

theorem isSome_commandSet
    (hs : (r.command s op).isSome) (c : CommandState) (s' : StudioName)
    (op' : ShardOperation) :
    ((r.commandSet s op c).command s' op').isSome = (r.command s' op').isSome := by
  by_cases h : s' = s ∧ op' = op
  · obtain ⟨rfl, rfl⟩ := h
    rw [commandSet_self, hs]
    rfl
  · rw [commandSet_ne h]

theorem Sound.commandSet (h : Sound r)
    (hs : ended (r.command s op) = false) (hsome : (r.command s op).isSome)
    {c : CommandState} (hc : c ≠ .failed) : Sound (r.commandSet s op c) where
  held := fun s' hs' hstop => by
    rw [isSome_commandSet hsome] at hs'
    refine h.held s' hs' (fun hsucceeded => ?_)
    by_cases heq : s' = s ∧ ShardOperation.stop = op
    · obtain ⟨rfl, rfl⟩ := heq
      rw [hsucceeded] at hs
      cases hs
    · rw [commandSet_ne heq] at hstop
      exact hstop hsucceeded
  unfailed := fun s' hs' hfailed => by
    rw [isSome_commandSet hsome] at hs'
    by_cases heq : s' = s ∧ ShardOperation.stop = op
    · grind [commandSet_self]
    · rw [commandSet_ne heq] at hfailed
      exact h.unfailed s' hs' hfailed
  grouped := fun hn s' op' => by
    have := h.grouped hn s op
    rw [this] at hsome
    cases hsome
  stopping := fun hg s' => by
    rw [isSome_commandSet hsome]
    exact h.stopping hg s'
  together := fun s₁ s₂ h₁ => by
    rw [isSome_commandSet hsome] at h₁ ⊢
    exact h.together s₁ s₂ h₁

theorem Sound.commandFailed (h : Sound r)
    (hs : ended (r.command s op) = false) (hsome : (r.command s op).isSome)
    (hconfirmed : op = .stop → r.Confirmed) : Sound (r.commandFailed s op) := by
  have hset : (r.commandFailed s op).command = (r.commandSet s op .failed).command := by
    unfold Rows.commandFailed
    dsimp only
    split <;> rfl
  have hgroup : (r.commandFailed s op).group = r.group.map (fun _ => .failed) := by
    unfold Rows.commandFailed
    dsimp only
    split <;> rfl
  -- a stop that fails is of a rank that was never prepared
  have hunprepared : op = .stop → ∀ s', (r.command s' .prepare).isSome →
      s' = s → False := by
    rintro rfl s' hs' rfl
    rw [hconfirmed rfl s' hs'] at hs
    cases hs
  refine ⟨fun s' hs' hstop => ?_, fun s' hs' hfailed => ?_, fun hn s' op' => ?_,
    fun hg => ?_, fun s₁ s₂ h₁ => ?_⟩
  · rw [hset, isSome_commandSet hsome] at hs'
    rw [hset] at hstop
    by_cases hop : op = .stop
    · refine absurd (hconfirmed hop s' hs') (fun hsucceeded => ?_)
      rw [commandSet_ne (fun heq => hunprepared hop s' hs' heq.1)] at hstop
      exact hstop hsucceeded
    · rw [commandSet_ne (fun heq => hop heq.2.symm)] at hstop
      obtain ⟨hold, hhold, hactive⟩ := h.held s' hs' hstop
      refine ⟨hold, ?_, hactive⟩
      unfold Rows.commandFailed
      dsimp only
      rw [if_neg (fun heq => hop heq.1)]
      exact hhold
  · rw [hset, isSome_commandSet hsome] at hs'
    rw [hset] at hfailed
    by_cases hop : op = .stop
    · rw [commandSet_ne (fun heq => hunprepared hop s' hs' heq.1)] at hfailed
      exact h.unfailed s' hs' hfailed
    · rw [commandSet_ne (fun heq => hop heq.2.symm)] at hfailed
      exact h.unfailed s' hs' hfailed
  · rw [hgroup] at hn
    rw [h.grouped (Option.map_eq_none_iff.mp hn) s op] at hsome
    cases hsome
  · rw [hgroup] at hg
    obtain ⟨g, -, hg⟩ := Option.map_eq_some_iff.mp hg
    cases hg
  · rw [hset, isSome_commandSet hsome] at h₁ ⊢
    exact h.together s₁ s₂ h₁

/-! ## What the processes rely on -/

/-- **What a process sees of a step of another**: commands that have ended are as
they were, and an instance at its end stays there. -/
structure Follows (r r' : Rows) : Prop where
  command : ∀ s op, ended (r.command s op) = true → r'.command s op = r.command s op
  late : Late r.state → Late r'.state

theorem Grows.follows (h : Grows r r') : Follows r r' where
  command := fun s op hended => by
    cases hc : r.command s op with
    | none =>
      rw [hc] at hended
      cases hended
    | some c => exact h.command s op c hc
  late := h.late

def AtLaunch (r : Rows) : LaunchPc → Prop
  | .evicting | .queueing => Fresh r
  | .settling => Ended r
  | _ => True

def AtDrain (r : Rows) : DrainPc → Prop
  | .idle => True
  | .settling _ => Late r.state ∧ Ended r
  | _ => Late r.state

def AtExecutor (r : Rows) : ExecutorPc → Prop
  | .idle => True
  | .called s op => r.command s op = some .running
  | .finalizing _ => ∃ s op, (r.command s op).isSome

structure Kept (y : System) : Prop where
  sound : Sound y.rows
  atLaunch : AtLaunch y.rows y.launch
  atDrain : AtDrain y.rows y.drain
  atExecutor : AtExecutor y.rows y.executor

theorem Ended.follows (h : Ended r) (hf : Follows r r') : Ended r' := fun s => by
  rw [hf.command s .stop (h s)]
  exact h s

theorem AtLaunch.follows {pc : LaunchPc} (h : AtLaunch r pc) (hf : Follows r r')
    (hfresh : Fresh r → Fresh r') : AtLaunch r' pc := by
  cases pc <;> first | trivial | exact hfresh h | exact Ended.follows h hf

theorem AtDrain.follows (h : AtDrain r pc) (hf : Follows r r') : AtDrain r' pc := by
  cases pc <;> first | trivial | exact hf.late h | exact ⟨hf.late h.1, h.2.follows hf⟩

theorem AtExecutor.grows {pc : ExecutorPc} (h : AtExecutor r pc)
    (hg : Grows r r') : AtExecutor r' pc := by
  cases pc with
  | idle => trivial
  | called s op => exact hg.command s op _ h
  | finalizing failed =>
    obtain ⟨s, op, hs⟩ := h
    obtain ⟨c, hc⟩ := Option.isSome_iff_exists.mp hs
    exact ⟨s, op, by rw [hg.command s op c hc]; rfl⟩

theorem late_of_atDrain (h : AtDrain r pc) (hpc : pc ≠ .idle) : Late r.state := by
  cases pc <;> first | exact absurd rfl hpc | exact h.1 | exact h

theorem Fresh.not_late (h : Fresh r) : ¬ Late r.state := by
  rw [h.state]
  exact fun hlate => hlate

variable {y : System}

/-! ## The steps of the launch -/

theorem Kept.writeLaunch (h : Kept y) {pc : LaunchPc}
    (hr : Sound r' ∧ Grows y.rows r') (hpc : AtLaunch r' pc) :
    Kept { y with rows := r', launch := pc } :=
  ⟨hr.1, hpc, h.atDrain.follows hr.2.follows, h.atExecutor.grows hr.2⟩

theorem Kept.atLaunch_of (h : Kept y) {pc : LaunchPc} (hpc : y.launch = pc) :
    AtLaunch y.rows pc := hpc ▸ h.atLaunch

theorem Kept.moveLaunch (h : Kept y) {pc : LaunchPc}
    (hpc : AtLaunch y.rows pc) : Kept { y with launch := pc } :=
  ⟨h.sound, hpc, h.atDrain, h.atExecutor⟩

theorem Kept.commitLaunch (h : Kept y) {result : Option Rows}
    {next otherwise : LaunchPc}
    (hsome : ∀ r', result = some r' → (Sound r' ∧ Grows y.rows r') ∧ AtLaunch r' next)
    (hnone : AtLaunch y.rows otherwise) :
    Kept (y.commitLaunch result next otherwise) := by
  cases result with
  | none => exact h.moveLaunch hnone
  | some r' => exact h.writeLaunch (hsome r' rfl).1 (hsome r' rfl).2

theorem Kept.waitLaunch (h : Kept y) {a b : StudioName}
    {next : LaunchPc} (hnext : AtLaunch y.rows next) :
    Kept (y.waitLaunch op a b next) := by
  unfold System.waitLaunch
  split
  · exact h
  · exact h.moveLaunch hnext
  · exact h.moveLaunch trivial

theorem ended_of_waitStops (h : r.waitStops.isSome) : Ended r := by
  unfold Rows.waitStops at h
  split at h
  · rename_i hboth
    obtain ⟨hA, hB⟩ := Bool.and_eq_true_iff.mp hboth
    intro s
    cases s with
    | edgeA => exact hA
    | edgeB => exact hB
  · cases h

theorem Kept.launchStep (h : Kept y) {raises refuses : Bool}
    (hconfirms : Confirms y (.launch raises refuses)) :
    Kept (y.launchStep raises refuses) := by
  cases raises with
  | true =>
    unfold System.launchStep
    split <;> first | exact h.moveLaunch trivial | exact h
  | false =>
    obtain ⟨hreleasing, hhandling⟩ := hconfirms
    unfold System.launchStep
    simp only [Bool.false_eq_true, if_false]
    split
    · -- the admission
      split
      · refine h.commitLaunch (fun r' hr' => ?_) trivial
        obtain ⟨rfl, hlate⟩ := transition_eq_some hr'
        exact ⟨⟨h.sound.withState _, fun _ _ _ hc => hc, hlate⟩, trivial⟩
      · refine h.commitLaunch (fun r' hr' => ?_) trivial
        obtain ⟨hfresh, hsound⟩ := h.sound.admitted hr'
        exact ⟨hsound, hfresh⟩
    · rename_i hpc
      have hfresh : Fresh y.rows := h.atLaunch_of hpc
      exact h.moveLaunch hfresh
    · rename_i hpc
      exact h.commitLaunch (fun r' hr' =>
        ⟨Fresh.queuePrepare (h.atLaunch_of hpc) hr', trivial⟩) trivial
    · exact h.waitLaunch trivial
    · exact h.commitLaunch (fun r' hr' => ⟨h.sound.queueReady hr', trivial⟩) trivial
    · exact h.waitLaunch trivial
    · exact h.commitLaunch (fun r' hr' => ⟨h.sound.markReady hr', trivial⟩) trivial
    · rename_i hpc
      exact h.writeLaunch (h.sound.releaseFailed (hreleasing hpc)) trivial
    · split
      · exact h.writeLaunch h.sound.queueStops trivial
      · rename_i hgroup
        exact h.commitLaunch (fun r' hr' => ⟨h.sound.terminalize
          (Option.not_isSome_iff_eq_none.mp hgroup) hr', trivial⟩) trivial
    · split
      · rename_i hended
        exact h.moveLaunch (ended_of_waitStops hended)
      · exact h
    · -- the end of the teardown: no stop failed, so both are confirmed
      rename_i hpc
      exact h.commitLaunch (fun r' hr' => ⟨h.sound.settle
        (h.sound.confirmed_of_ended (h.atLaunch_of hpc)) hr', trivial⟩) trivial
    · rename_i hpc
      exact h.writeLaunch (h.sound.handle (hhandling hpc)) trivial
    · exact h.moveLaunch trivial
    · exact h

/-! ## The steps of the drain -/

theorem Kept.writeDrain (h : Kept y) (hlate : Late y.rows.state)
    (hr : Sound r' ∧ Grows y.rows r') (hpc : Late r'.state → AtDrain r' pc) :
    Kept { y with rows := r', drain := pc } :=
  ⟨hr.1, h.atLaunch.follows hr.2.follows (fun hfresh => absurd hlate hfresh.not_late),
    hpc (hr.2.late hlate), h.atExecutor.grows hr.2⟩

theorem Kept.moveDrain (h : Kept y) (hpc : AtDrain y.rows pc) :
    Kept { y with drain := pc } :=
  ⟨h.sound, h.atLaunch, hpc, h.atExecutor⟩

theorem Kept.commitDrain (h : Kept y) (hlate : Late y.rows.state) {result : Option Rows}
    (hsome : ∀ r', result = some r' → Sound r' ∧ Grows y.rows r') :
    Kept (y.commitDrain result) := by
  cases result with
  | none => exact h.moveDrain hlate
  | some r' => exact h.writeDrain hlate (hsome r' rfl) id

theorem Kept.drainStep (h : Kept y) (quiet raises : Bool) :
    Kept (y.drainStep quiet raises) := by
  by_cases hidle : y.drain = .idle
  · unfold System.drainStep
    rw [hidle]
    exact h
  have hlate := late_of_atDrain h.atDrain hidle
  unfold System.drainStep
  split
  · exact h
  · split
    · exact h.moveDrain hlate
    · exact h
  · split
    · exact h.moveDrain hlate
    · split
      · exact h.writeDrain hlate h.sound.queueStops id
      · rename_i hgroup
        exact h.commitDrain hlate (fun r' hr' => h.sound.terminalize
          (Option.not_isSome_iff_eq_none.mp hgroup) hr')
  · split
    · exact h.moveDrain hlate
    · split
      · exact h
      · rename_i hwait
        exact h.moveDrain ⟨hlate, ended_of_waitStops (by rw [hwait]; rfl)⟩
  · rename_i failed hpc
    have hended := h.atDrain
    rw [hpc] at hended
    split
    · exact h.moveDrain hlate
    · exact h.commitDrain hlate (fun r' hr' =>
        h.sound.settle (h.sound.confirmed_of_ended hended.2) hr')
  · exact h.moveDrain hlate
  · exact h

/-! ## The steps of the executor and of the others -/

theorem Kept.writeExecutor (h : Kept y) {pc : ExecutorPc}
    (hsome : (y.rows.command s op).isSome)
    (hsound : Sound r') (hfollows : Follows y.rows r') (hpc : AtExecutor r' pc) :
    Kept { y with rows := r', executor := pc } := by
  refine ⟨hsound, h.atLaunch.follows hfollows (fun hfresh => ?_),
    h.atDrain.follows hfollows, hpc⟩
  rw [hfresh.command s op] at hsome
  cases hsome

theorem follows_of_command {c : CommandState} (hopen : ended (r.command s op) = false)
    (hcommand : r'.command = (r.commandSet s op c).command)
    (hstate : r'.state = r.state) : Follows r r' where
  command := fun s' op' hended => by
    rw [hcommand]
    refine commandSet_ne (fun heq => ?_)
    obtain ⟨rfl, rfl⟩ := heq
    rw [hopen] at hended
    cases hended
  late := fun hlate => by
    rw [hstate]
    exact hlate

theorem Kept.pick (h : Kept y) (s : StudioName) (op : ShardOperation) :
    Kept (y.pick s op) := by
  have htake : ∀ c, y.rows.command s op = some c → ended (some c) = false →
      Kept { y with
        rows := y.rows.commandSet s op .running
        executor := .called s op } := by
    intro c hc hopen
    have hsome : (y.rows.command s op).isSome := by
      rw [hc]
      rfl
    rw [← hc] at hopen
    exact h.writeExecutor hsome (h.sound.commandSet hopen hsome (by decide))
      (follows_of_command hopen rfl rfl) (commandSet_self _ _ _ _)
  unfold System.pick
  split
  · exact htake _ ‹_› rfl
  · exact htake _ ‹_› rfl
  · exact h

theorem Kept.answer (h : Kept y) {a : Answer}
    (hconfirms : Confirms y (.answer a)) : Kept (y.answer a) := by
  unfold System.answer
  split
  · rename_i s op hpc
    have hrunning := h.atExecutor
    rw [hpc] at hrunning
    have hrun : y.rows.command s op = some .running := hrunning
    have hopen : ended (y.rows.command s op) = false := by
      rw [hrun]
      rfl
    have hsome : (y.rows.command s op).isSome := by
      rw [hrun]
      rfl
    cases a with
    | retry => exact ⟨h.sound, h.atLaunch, h.atDrain, trivial⟩
    | refused =>
      refine h.writeExecutor hsome (h.sound.commandFailed hopen hsome ?_)
        (follows_of_command (c := .failed) hopen ?_ ?_) trivial
      · rintro rfl
        exact hconfirms s hpc
      · unfold Rows.commandFailed
        dsimp only
        split <;> rfl
      · unfold Rows.commandFailed
        dsimp only
        split <;> rfl
    | group g =>
      refine h.writeExecutor hsome (h.sound.commandSet hopen hsome (by decide))
        (follows_of_command hopen rfl rfl) ?_
      split
      · exact ⟨s, op, by rw [commandSet_self]; rfl⟩
      · trivial
  · exact h

theorem Kept.finalize (h : Kept y) {raises : Bool}
    (hconfirms : Confirms y (.finalize raises)) : Kept (y.finalize raises) := by
  unfold System.finalize
  split
  · rename_i failed hpc
    cases raises with
    | true => exact ⟨h.sound, h.atLaunch, h.atDrain, trivial⟩
    | false =>
      rw [if_neg Bool.false_ne_true]
      cases hfinal : y.rows.finalizeStop failed with
      | none => exact ⟨h.sound, h.atLaunch, h.atDrain, trivial⟩
      | some r' =>
        have hexecutor := h.atExecutor
        rw [hpc] at hexecutor
        obtain ⟨s, op, hsome⟩ := hexecutor
        obtain ⟨hsound, hgrows⟩ := h.sound.finalizeStop (hconfirms failed hpc) hfinal
        exact h.writeExecutor hsome hsound hgrows.follows trivial
  · exact h

theorem Kept.loseRank (h : Kept y) :
    Kept { y with rows := y.rows.failGroup.getD y.rows } := by
  cases hfail : y.rows.failGroup with
  | none => exact h
  | some r' =>
    obtain ⟨hsound, hgrows⟩ := h.sound.failGroup hfail
    refine ⟨hsound, h.atLaunch.follows hgrows.follows (fun hfresh => ?_),
      h.atDrain.follows hgrows.follows, h.atExecutor.grows hgrows⟩
    -- a group that is being prepared is not ready
    unfold Rows.failGroup at hfail
    rw [if_neg (by rw [hfresh.group]; decide)] at hfail
    cases hfail
    exact hfresh

theorem Kept.step (h : Kept y) {a : Label} (hconfirms : Confirms y a) :
    Kept (step y a) := by
  cases a with
  | launch raises refuses => exact h.launchStep hconfirms
  | drain quiet raises => exact h.drainStep quiet raises
  | pick s op => exact h.pick s op
  | answer a => exact h.answer hconfirms
  | finalize raises => exact h.finalize hconfirms
  | loseRank => exact h.loseRank
  | crashApi => exact ⟨h.sound, h.atLaunch, h.atDrain, trivial⟩
  | startDrain =>
    show Kept (if y.rows.state = .draining ∧ y.drain = .idle then _ else y)
    split
    · rename_i hdraining
      refine h.moveDrain ?_
      show Late y.rows.state
      rw [hdraining.1]
      trivial
    · exact h
  | requestDrain =>
    show Kept (if y.rows.state = .ready then _ else y)
    split
    · rename_i hready
      refine ⟨h.sound.withState _, h.atLaunch.follows ⟨fun _ _ _ => rfl,
        fun _ => trivial⟩ (fun hfresh => ?_), h.atDrain.follows
          ⟨fun _ _ _ => rfl, fun _ => trivial⟩, h.atExecutor⟩
      exact absurd (hready.symm.trans hfresh.state) (by decide)
    · exact h
  | crashScheduler =>
    refine ⟨h.sound, ?_, ?_, h.atExecutor⟩
    · show AtLaunch y.rows y.launch.recover
      cases y.launch <;> trivial
    show AtDrain y.rows y.drain.recover
    have hdrain := h.atDrain
    cases hpc : y.drain <;> rw [hpc] at hdrain <;> first | trivial | exact hdrain.1

theorem Kept.holds (h : Kept y) : Holds y := by
  intro s hs hstop
  obtain ⟨hold, hhold, hactive, -⟩ := h.sound.held s hs hstop
  exact ⟨hold, hhold, hactive⟩

/-! ## A step that does not meet the condition -/

theorem not_counted_giveUp {hold : Hold}
    (hhold : r.hold s = some hold) {state : MemoryReservationState}
    (hstate : state.active = false) {p : Hold → Bool} (hp : p hold = true) :
    ¬ (r.giveUp state p).Counted s := by
  rintro ⟨hold', hhold', hactive⟩
  have hgiven : (r.giveUp state p).hold s = some ⟨state, true⟩ := by
    show (r.hold s).map _ = _
    rw [hhold, Option.map_some, if_pos hp]
  obtain rfl := Option.some.inj (hgiven.symm.trans hhold')
  rw [hstate] at hactive
  cases hactive

theorem exists_unconfirmed (h : ¬ r.Confirmed) :
    ∃ s, (r.command s .prepare).isSome ∧ r.command s .stop ≠ some .succeeded := by
  simp only [Rows.Confirmed, not_forall] at h
  obtain ⟨s, hs, hstop⟩ := h
  exact ⟨s, hs, hstop⟩

theorem Sound.not_holds_giveUp (h : Sound y.rows) (hun : ¬ y.rows.Confirmed)
    {state : MemoryReservationState} (hstate : state.active = false)
    {p : Hold → Bool} (hp : ∀ hold : Hold, hold.state.active = true →
      hold.released = false → p hold = true) {y' : System}
    (hprepare : ∀ s, (y.rows.command s .prepare).isSome →
      (y'.rows.command s .prepare).isSome)
    (hstop : ∀ s, y'.rows.command s .stop = some .succeeded →
      y.rows.command s .stop = some .succeeded)
    (hhold : y'.rows.hold = (y.rows.giveUp state p).hold) : ¬ Holds y' := by
  obtain ⟨s, hs, hne⟩ := exists_unconfirmed hun
  obtain ⟨hold, hheld, hactive, hreleased⟩ := h.held s hs hne
  intro hholds
  obtain ⟨hold', hheld', hactive'⟩ :=
    hholds s (hprepare s hs) (fun hsucceeded => hne (hstop s hsucceeded))
  rw [hhold] at hheld'
  exact not_counted_giveUp hheld hstate (hp hold hactive hreleased)
    ⟨hold', hheld', hactive'⟩

theorem Sound.not_holds_rows (h : Sound y.rows) (hun : ¬ y.rows.Confirmed)
    {state : MemoryReservationState} (hstate : state.active = false)
    {p : Hold → Bool} (hp : ∀ hold : Hold, hold.state.active = true →
      hold.released = false → p hold = true) {y' : System}
    {x : InstanceState} (hrows : y'.rows = { y.rows.giveUp state p with
      state := x }) : ¬ Holds y' := by
  refine h.not_holds_giveUp hun hstate hp ?_ ?_ (by rw [hrows])
  · rw [hrows]
    exact fun _ hs => hs
  · rw [hrows]
    exact fun _ hs => hs

theorem Kept.not_holds_refused (h : Kept y)
    (hpc : y.executor = .called s .stop) (hun : ¬ y.rows.Confirmed) :
    ¬ Holds (y.answer .refused) := by
  have hrun : y.rows.command s .stop = some .running := by
    have hrunning := h.atExecutor
    rw [hpc] at hrunning
    exact hrunning
  have hgroup : y.rows.group.isSome := by
    rw [Option.isSome_iff_ne_none]
    intro hnone
    rw [h.sound.grouped hnone s .stop] at hrun
    cases hrun
  have hrows : (y.answer .refused).rows = Rows.giveUp { y.rows with
      group := y.rows.group.map (fun _ => .failed)
      command := (y.rows.commandSet s .stop .failed).command }
        .failed (fun h => !h.released) := by
    unfold System.answer
    rw [hpc]
    show (y.rows.commandFailed s .stop) = _
    unfold Rows.commandFailed
    dsimp only
    rw [if_pos ⟨rfl, hgroup⟩]
    rfl
  have hhold : (y.answer .refused).rows.hold
      = (y.rows.giveUp .failed (fun h => !h.released)).hold := by
    rw [hrows]
    rfl
  refine h.sound.not_holds_giveUp hun rfl (fun hold _ hreleased => ?_) ?_ ?_ hhold
  · grind
  · intro s' hs'
    rw [hrows]
    show ((y.rows.commandSet s .stop .failed).command s' .prepare).isSome
    rw [commandSet_ne (fun heq => ShardOperation.noConfusion heq.2)]
    exact hs'
  · intro s' hsucceeded
    rw [hrows] at hsucceeded
    have hset : (y.rows.commandSet s .stop .failed).command s' .stop
        = some .succeeded := hsucceeded
    by_cases heq : s' = s ∧ ShardOperation.stop = .stop
    · obtain ⟨rfl, -⟩ := heq
      rw [commandSet_self] at hset
      cases hset
    · rw [commandSet_ne heq] at hset
      exact hset

theorem Kept.not_holds_finalize (h : Kept y) {failed : Bool}
    (hpc : y.executor = .finalizing failed) (hunqueued : y.rows.unqueued .stop = true)
    (hun : ¬ y.rows.Confirmed) : ¬ Holds (y.finalize false) := by
  unfold Rows.unqueued at hunqueued
  rw [Bool.and_eq_true, Option.isNone_iff_eq_none, Option.isNone_iff_eq_none]
    at hunqueued
  obtain ⟨s, hs, -⟩ := exists_unconfirmed hun
  cases hgroup : y.rows.group with
  | none =>
    rw [h.sound.grouped hgroup s .prepare] at hs
    cases hs
  | some g =>
    have hne : g ≠ .stopping := by
      rintro rfl
      have hstop := h.sound.stopping hgroup .edgeA
      rw [hunqueued.1] at hstop
      cases hstop
    have hfinal : y.rows.finalizeStop failed
        = some (y.rows.giveUp (if failed then .failed else .released)
          (fun _ => true)) := by
      grind [Rows.finalizeStop, Rows.incomplete]
    have hrows : (y.finalize false).rows
        = y.rows.giveUp (if failed then .failed else .released) (fun _ => true) := by
      unfold System.finalize
      rw [hpc]
      show (y.rows.finalizeStop failed).getD y.rows = _
      rw [hfinal]
      rfl
    exact h.sound.not_holds_rows hun (by cases failed <;> rfl) (fun _ _ _ => rfl) hrows

theorem Kept.not_holds_releasing (h : Kept y) (hpc : y.launch = .releasing)
    (hfailed : y.rows.state = .failed) (hun : ¬ y.rows.Confirmed)
    (refuses : Bool) : ¬ Holds (y.launchStep false refuses) := by
  have hrows : (y.launchStep false refuses).rows
      = y.rows.giveUp .failed (fun h => h.state.active) := by
    unfold System.launchStep
    rw [hpc]
    show y.rows.releaseFailed = _
    exact if_pos hfailed
  exact h.sound.not_holds_rows hun (by rfl) (fun _ hactive _ => hactive) hrows

theorem Kept.not_holds_handling (h : Kept y) (hpc : y.launch = .handling)
    (hsmoke : y.rows.smoke = false)
    (hstate : y.rows.state = .requested ∨ y.rows.state = .ready
      ∨ y.rows.state = .draining) (hun : ¬ y.rows.Confirmed)
    (refuses : Bool) : ¬ Holds (y.launchStep false refuses) := by
  have hrows : (y.launchStep false refuses).rows
      = { y.rows.giveUp .failed (fun h => h.state.active) with
          state := .failed } := by
    unfold System.launchStep
    rw [hpc]
    show y.rows.handle = _
    unfold Rows.handle
    rw [hsmoke]
    rcases hstate with hstate | hstate | hstate <;> rw [hstate] <;> rfl
  exact h.sound.not_holds_rows hun (by rfl) (fun _ hactive _ => hactive) hrows

/-- **A step that does not meet the condition breaks the promise.** -/
theorem Kept.not_holds (h : Kept y) {a : Label} (hconfirms : ¬ Confirms y a) :
    ¬ Holds (ShardGroups.step y a) := by
  cases a with
  | answer a =>
    cases a with
    | refused =>
      simp only [Confirms, not_forall] at hconfirms
      obtain ⟨s, hpc, hun⟩ := hconfirms
      exact h.not_holds_refused hpc hun
    | retry => exact absurd trivial hconfirms
    | group g => exact absurd trivial hconfirms
  | finalize raises =>
    cases raises with
    | false =>
      simp only [Confirms, not_forall] at hconfirms
      obtain ⟨failed, hpc, hunqueued, hun⟩ := hconfirms
      exact h.not_holds_finalize hpc hunqueued hun
    | true => exact absurd trivial hconfirms
  | launch raises refuses =>
    cases raises with
    | false =>
      simp only [Confirms, not_and_or, not_forall] at hconfirms
      obtain ⟨hpc, hfailed, hun⟩ | ⟨hpc, hsmoke, hstate, hun⟩ := hconfirms
      · exact h.not_holds_releasing hpc hfailed hun refuses
      · exact h.not_holds_handling hpc hsmoke hstate hun refuses
    | true => exact absurd trivial hconfirms
  | requestDrain => exact absurd trivial hconfirms
  | startDrain => exact absurd trivial hconfirms
  | drain quiet raises => exact absurd trivial hconfirms
  | pick s op => exact absurd trivial hconfirms
  | loseRank => exact absurd trivial hconfirms
  | crashScheduler => exact absurd trivial hconfirms
  | crashApi => exact absurd trivial hconfirms

/-! ## Whole runs -/

theorem kept_requested (smoke : Bool) : Kept (requested smoke) where
  sound := {
    held := fun _ hs => by cases hs
    unfailed := fun _ hs => by cases hs
    grouped := fun _ _ _ => rfl
    stopping := fun hs => by cases hs
    together := fun _ _ hs => by cases hs }
  atLaunch := trivial
  atDrain := trivial
  atExecutor := trivial

/-- **An unconfirmed stop frees no memory, exactly** in the runs whose steps give
reservations up only where the stops of the prepared ranks are confirmed. -/
theorem stops_hold_memory_iff (smoke : Bool) (labels : List Label) :
    Run.Throughout step Holds (requested smoke) labels
      ↔ Run.Along step Confirms (requested smoke) labels :=
  Run.throughout_iff_along Kept (fun _ h => h.holds) (fun _ _ h => h.step)
    (fun _ _ h => h.not_holds) (kept_requested smoke)

/-- One rank is prepared, the other cannot be, and the first refuses to stop. -/
def refusedStop : List Label :=
  [.launch false false, .launch false false, .launch false false,
    .pick .edgeB .prepare, .answer (.group .starting),
    .pick .edgeA .prepare, .answer .refused,
    .launch false false, .launch false false,
    .pick .edgeB .stop, .answer .refused]

/-- **The refusal of one stop gives up the memory of both ranks.** -/
theorem refused_stop_frees :
    (∀ s, ((Run.last step (requested false) refusedStop).rows.command s
        .prepare).isSome = true
      ∧ (Run.last step (requested false) refusedStop).rows.hold s
        = some ⟨.failed, true⟩)
    ∧ (Run.last step (requested false) refusedStop).rows.command .edgeB .prepare
        = some .succeeded
    ∧ (Run.last step (requested false) refusedStop).rows.command .edgeB .stop
        = some .failed
    ∧ (Run.last step (requested false) refusedStop).rows.command .edgeA .stop
        = some .pending
    ∧ ¬ Holds (Run.last step (requested false) refusedStop) := by
  have hall : ∀ s, ((Run.last step (requested false) refusedStop).rows.command s
        .prepare).isSome = true
      ∧ (Run.last step (requested false) refusedStop).rows.hold s
        = some ⟨.failed, true⟩ := by
    intro s
    cases s <;> exact ⟨rfl, rfl⟩
  refine ⟨hall, rfl, rfl, rfl, fun hholds => ?_⟩
  obtain ⟨hold, hhold, hactive⟩ := hholds .edgeB (hall .edgeB).1 (by decide)
  obtain rfl := Option.some.inj ((hall .edgeB).2.symm.trans hhold)
  cases hactive

end ShardGroups
