import Coire.PlacementSystem
import Coire.Run
import Coire.TrainingJournal

/-!
# Sharded instances: launch, drain and the stops of their ranks

A sharded instance has one rank on each of the two Studios, with a memory reservation
for each. Its launch is a durable workflow: it admits the instance on both nodes, and
has the ranks prepared and made ready by commands that it waits for. Where this raises,
the group is torn down: the stops of both ranks are queued and waited for, and the
reservations are given up. A drain does the same to an instance that is ready, and so
does the loss of a rank. One executor carries the commands out, and in two places it
writes to the reservations as well.

Every step is one transaction, or one look at the commands that are waited for. What
raises, how the nodes answer, and when the two processes crash, comes with the step; a
workflow that raised, or was cut off, starts again from its beginning.
-/

namespace ShardGroups

/-! ## Rows -/

inductive ShardGroupState
  | preparing
  | starting
  | ready
  | stopping
  | stopped
  | failed
  deriving DecidableEq

inductive ShardOperation
  | prepare
  | ready
  | stop
  deriving DecidableEq

/-- The reservation of a rank: its state, and whether `released_at` is set. -/
structure Hold where
  state : MemoryReservationState
  released : Bool
  deriving DecidableEq

/-- **What the database has of one sharded instance.** The members of the group
are written with it, one for each Studio. -/
structure Rows where
  state : InstanceState
  /-- `upgrade_smoke_payload` is set. -/
  smoke : Bool
  group : Option ShardGroupState
  hold : StudioName → Option Hold
  command : StudioName → ShardOperation → Option CommandState

/-- The reservation of a rank is among those that are added up for its node. -/
def Rows.Counted (r : Rows) (s : StudioName) : Prop :=
  ∃ h, r.hold s = some h ∧ h.state.active = true

def allowed : InstanceState → InstanceState → Bool
  | .requested, .reserving | .requested, .failed
  | .reserving, .launching | .reserving, .failed
  | .launching, .warming | .launching, .failed
  | .warming, .ready | .warming, .failed
  | .ready, .draining | .ready, .failed
  | .draining, .stopped | .draining, .failed => true
  | _, _ => false

def Rows.transition (r : Rows) (target : InstanceState) : Option Rows :=
  if r.state = target then some r
  else if allowed r.state target then some { r with state := target }
  else none

def Rows.giveUp (r : Rows) (state : MemoryReservationState) (p : Hold → Bool) :
    Rows :=
  { r with hold := fun s => (r.hold s).map (fun h =>
      if p h then ⟨state, true⟩ else h) }

def Rows.queue (r : Rows) (op : ShardOperation) : Rows :=
  { r with command := fun s op' =>
      if op' = op then some ((r.command s op).getD .pending) else r.command s op' }

def Rows.unqueued (r : Rows) (op : ShardOperation) : Bool :=
  (r.command .edgeA op).isNone && (r.command .edgeB op).isNone

/-! ## The transactions of a launch -/

/-- The admission on both nodes. The group's id is made from the instance's. -/
def Rows.admitted (r : Rows) : Option Rows :=
  if r.group.isSome then none
  else
    Rows.transition { r with
      group := some .preparing
      hold := fun _ => some ⟨.pending, false⟩ } .reserving

def Rows.queuePrepare (r : Rows) : Option Rows :=
  if r.unqueued .prepare then (r.queue .prepare).transition .launching else none

def Rows.queueReady (r : Rows) : Option Rows :=
  if r.group.isSome && r.unqueued .ready then
    Rows.transition { r.queue .ready with group := some .starting } .warming
  else none

def Rows.markReady (r : Rows) : Option Rows :=
  if r.group.isSome then
    Rows.transition { r with
      group := some .ready
      hold := fun s => (r.hold s).map (fun h => { h with state := .held }) } .ready
  else none

def Rows.releaseFailed (r : Rows) : Rows :=
  if r.state = .failed then r.giveUp .failed (fun h => h.state.active) else r

/-- The handler of `execute_instance_launch` for an exception. -/
def Rows.handle (r : Rows) : Rows :=
  match r.state with
  | .requested | .ready | .draining =>
    { (if r.smoke then r
        else r.giveUp .failed (fun h => h.state.active)) with state := .failed }
  | _ => r

/-! ## The transactions of a teardown -/

/-- A teardown without a group: the launch failed before there was one. -/
def Rows.terminalize (r : Rows) : Option Rows :=
  let r' := r.giveUp .failed (fun h => h.state.active)
  if r.state = .failed then some r' else r'.transition .failed

def Rows.queueStops (r : Rows) : Rows :=
  { r.queue .stop with group := some .stopping }

def ended : Option CommandState → Bool
  | some .succeeded | some .failed => true
  | _ => false

def Rows.waitStops (r : Rows) : Option Bool :=
  if ended (r.command .edgeA .stop) && ended (r.command .edgeB .stop) then
    some (decide (r.command .edgeA .stop = some .failed)
      || decide (r.command .edgeB .stop = some .failed))
  else none

/-- **The end of `teardown_sharded`**: both reservations are given up, whichever
stops were confirmed. -/
def Rows.settle (r : Rows) (failed : Bool) : Option Rows :=
  Rows.transition
    { r.giveUp (if failed then .failed else .released) (fun _ => true) with
      group := r.group.map (fun _ => if failed then .failed else .stopped) }
    (if failed then .failed else .stopped)

/-! ## The transactions of the executor and the reconciler -/

/-- **`_failed`**: a command failed. The failure of a stop gives up the
reservations of both ranks. -/
def Rows.commandFailed (r : Rows) (s : StudioName) (op : ShardOperation) : Rows :=
  let r' : Rows := { r with
    group := r.group.map (fun _ => .failed)
    command := fun s' op' =>
      if s' = s ∧ op' = op then some .failed else r.command s' op' }
  if op = .stop ∧ r.group.isSome then r'.giveUp .failed (fun h => !h.released)
  else r'

def Rows.commandSet (r : Rows) (s : StudioName) (op : ShardOperation)
    (state : CommandState) : Rows :=
  { r with command := fun s' op' =>
      if s' = s ∧ op' = op then some state else r.command s' op' }

def Rows.incomplete (r : Rows) : Bool :=
  (r.command .edgeA .stop).any (· ≠ .succeeded)
    || (r.command .edgeB .stop).any (· ≠ .succeeded)

def Rows.finalizeStop (r : Rows) (failed : Bool) : Option Rows :=
  if r.incomplete then some r
  else
    match r.group with
    | none => some r
    | some g =>
      let r' := r.giveUp (if failed then .failed else .released) (fun _ => true)
      if g = .stopping then
        if r.state = .failed then some { r' with group := some .failed }
        else Rows.transition { r' with group := some .stopped } .stopped
      else some r'

/-- A rank of a ready group is lost: `_fail_group`. -/
def Rows.failGroup (r : Rows) : Option Rows :=
  if r.group = some .ready then r.queueStops.transition .failed else some r

/-! ## The system -/

inductive LaunchPc
  | start
  | evicting
  | queueing
  | awaitPrepare
  | warming
  | awaitReady
  | finishing
  | releasing
  /-- `teardown_sharded(failed=True)`. -/
  | stops
  | awaitStops
  | settling
  /-- The exception is handled, and the step is tried again. -/
  | handling
  | recording
  | done
  deriving DecidableEq

inductive DrainPc
  | idle
  | waiting
  | stops
  | awaitStops
  | settling (failed : Bool)
  | recording
  | done
  deriving DecidableEq

inductive ExecutorPc
  | idle
  | called (s : StudioName) (op : ShardOperation)
  | finalizing (failed : Bool)
  deriving DecidableEq

structure System where
  rows : Rows
  launch : LaunchPc
  drain : DrainPc
  executor : ExecutorPc

inductive Answer
  | retry
  | refused
  | group (state : ShardGroupState)

inductive Label
  /-- A step of the launch: it `raises` for a reason of its own, or its
  admission `refuses` the instance. -/
  | launch (raises refuses : Bool)
  | requestDrain
  | startDrain
  /-- A step of the drain: there is no active lease, or the deadline has
  passed. -/
  | drain (quiet raises : Bool)
  | pick (s : StudioName) (op : ShardOperation)
  | answer (a : Answer)
  | finalize (raises : Bool)
  | loseRank
  | crashScheduler
  | crashApi

inductive Waited
  | waiting
  | done
  | raised

def Rows.wait (r : Rows) (op : ShardOperation) (a b : StudioName) : Waited :=
  match r.command a op with
  | some .succeeded =>
    match r.command b op with
    | some .succeeded => .done
    | some .pending | some .running => .waiting
    | _ => .raised
  | some .pending | some .running => .waiting
  | _ => .raised

/-- A transaction of the launch and where it goes on; where it raises, nothing is
written. -/
def System.commitLaunch (y : System) (result : Option Rows)
    (next otherwise : LaunchPc) : System :=
  match result with
  | some r => { y with rows := r, launch := next }
  | none => { y with launch := otherwise }

def System.waitLaunch (y : System) (op : ShardOperation) (a b : StudioName)
    (next : LaunchPc) : System :=
  match y.rows.wait op a b with
  | .waiting => y
  | .done => { y with launch := next }
  | .raised => { y with launch := .stops }

/-- **A step of the launch**: `execute_instance_launch` of a sharded
instance. -/
def System.launchStep (y : System) (raises refuses : Bool) : System :=
  match y.launch with
  | .start =>
    if raises then { y with launch := .stops }
    else if refuses then
      y.commitLaunch (y.rows.transition .failed) .releasing .stops
    else y.commitLaunch y.rows.admitted .evicting .stops
  | .evicting => { y with launch := if raises then .stops else .queueing }
  | .queueing =>
    if raises then { y with launch := .stops }
    else y.commitLaunch y.rows.queuePrepare .awaitPrepare .stops
  | .awaitPrepare =>
    if raises then { y with launch := .stops }
    else y.waitLaunch .prepare .edgeB .edgeA .warming
  | .warming =>
    if raises then { y with launch := .stops }
    else y.commitLaunch y.rows.queueReady .awaitReady .stops
  | .awaitReady =>
    if raises then { y with launch := .stops }
    else y.waitLaunch .ready .edgeA .edgeB .finishing
  | .finishing =>
    if raises then { y with launch := .stops }
    else y.commitLaunch y.rows.markReady .releasing .stops
  | .releasing =>
    if raises then { y with launch := .stops }
    else { y with rows := y.rows.releaseFailed, launch := .recording }
  | .stops =>
    if raises then { y with launch := .handling }
    else if y.rows.group.isSome then
      { y with rows := y.rows.queueStops, launch := .awaitStops }
    else y.commitLaunch y.rows.terminalize .handling .handling
  | .awaitStops =>
    if raises then { y with launch := .handling }
    else if y.rows.waitStops.isSome then { y with launch := .settling } else y
  | .settling =>
    if raises then { y with launch := .handling }
    else y.commitLaunch (y.rows.settle true) .handling .handling
  | .handling =>
    { y with rows := if raises then y.rows else y.rows.handle, launch := .start }
  | .recording => { y with launch := .done }
  | .done => y

def System.commitDrain (y : System) (result : Option Rows) : System :=
  match result with
  | some r => { y with rows := r, drain := .recording }
  | none => { y with drain := .waiting }

def System.drainStep (y : System) (quiet raises : Bool) : System :=
  match y.drain with
  | .idle => y
  | .waiting => if quiet && !raises then { y with drain := .stops } else y
  | .stops =>
    if raises then { y with drain := .waiting }
    else if y.rows.group.isSome then
      { y with rows := y.rows.queueStops, drain := .awaitStops }
    else y.commitDrain y.rows.terminalize
  | .awaitStops =>
    if raises then { y with drain := .waiting }
    else
      match y.rows.waitStops with
      | none => y
      | some failed => { y with drain := .settling failed }
  | .settling failed =>
    if raises then { y with drain := .waiting }
    else y.commitDrain (y.rows.settle failed)
  | .recording => { y with drain := .done }
  | .done => y

def System.pick (y : System) (s : StudioName) (op : ShardOperation) : System :=
  match y.executor, y.rows.command s op with
  | .idle, some .pending | .idle, some .running =>
    { y with
      rows := y.rows.commandSet s op .running
      executor := .called s op }
  | _, _ => y

def System.answer (y : System) (a : Answer) : System :=
  match y.executor with
  | .called s op =>
    match a with
    | .retry => { y with executor := .idle }
    | .refused => { y with rows := y.rows.commandFailed s op, executor := .idle }
    | .group g =>
      { y with
        rows := y.rows.commandSet s op .succeeded
        executor := if g = .stopped ∨ g = .failed then
          .finalizing (decide (g = .failed)) else .idle }
  | _ => y

/-- The end of a command that was answered by a group that has ended. -/
def System.finalize (y : System) (raises : Bool) : System :=
  match y.executor with
  | .finalizing failed =>
    { y with
      rows := if raises then y.rows else (y.rows.finalizeStop failed).getD y.rows
      executor := .idle }
  | _ => y

def LaunchPc.recover : LaunchPc → LaunchPc
  | .done => .done
  | _ => .start

def DrainPc.recover : DrainPc → DrainPc
  | .idle => .idle
  | .done => .done
  | _ => .waiting

def step (y : System) : Label → System
  | .launch raises refuses => y.launchStep raises refuses
  | .requestDrain =>
    if y.rows.state = .ready then
      { y with rows := { y.rows with state := .draining } }
    else y
  | .startDrain =>
    if y.rows.state = .draining ∧ y.drain = .idle then { y with drain := .waiting }
    else y
  | .drain quiet raises => y.drainStep quiet raises
  | .pick s op => y.pick s op
  | .answer a => y.answer a
  | .finalize raises => y.finalize raises
  | .loseRank => { y with rows := y.rows.failGroup.getD y.rows }
  | .crashScheduler =>
    { y with launch := y.launch.recover, drain := y.drain.recover }
  | .crashApi => { y with executor := .idle }

def requested (smoke : Bool) : System :=
  ⟨⟨.requested, smoke, none, fun _ => none, fun _ _ => none⟩, .start, .idle, .idle⟩

/-! ## What is to hold -/

/-- **No reservation is given up for an unconfirmed stop**: as long as a rank
whose prepare command was queued has no stop that succeeded, its reservation is
among those that count. -/
def Holds (y : System) : Prop :=
  ∀ s, (y.rows.command s .prepare).isSome →
    y.rows.command s .stop ≠ some .succeeded → y.rows.Counted s

/-- Every rank whose prepare command was queued has a stop that succeeded. -/
def Rows.Confirmed (r : Rows) : Prop :=
  ∀ s, (r.command s .prepare).isSome → r.command s .stop = some .succeeded

/-- **What a step that gives reservations up is to find.** -/
def Confirms (y : System) : Label → Prop
  | .answer .refused =>
    ∀ s, y.executor = .called s .stop → y.rows.Confirmed
  | .finalize false =>
    ∀ failed, y.executor = .finalizing failed →
      y.rows.unqueued .stop = true → y.rows.Confirmed
  | .launch false _ =>
    (y.launch = .releasing → y.rows.state = .failed → y.rows.Confirmed)
      ∧ (y.launch = .handling → y.rows.smoke = false →
        y.rows.state = .requested ∨ y.rows.state = .ready
          ∨ y.rows.state = .draining → y.rows.Confirmed)
  | _ => True

end ShardGroups
