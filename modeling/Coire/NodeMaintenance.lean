import Coire.TrainingJournal
import Coire.UpgradeProgress

/-!
# The maintenance fence of a node

`NodeMaintenance` keeps one record on the node's disk: who fences the node for an
upgrade, at which generation, and whether the fence is released. `apply` replaces
it, against commands that arrive twice, late or out of order; requests are admitted
while the node is not blocked, and may still be in flight when it is.

What an `apply` that writes has checked is one lemma (`applied_spec`), and the laws
of the fence follow from it: `fence_kept`.
-/

namespace NodeMaintenance

open Guarded Upgrades

inductive MaintenanceTarget
  | cluster
  | core
  | studio (name : StudioName)
  | service (name : ServiceName)
  deriving DecidableEq

inductive MaintenanceState
  | fencing | draining | active | recovering | released
  deriving DecidableEq

structure UpgradeMaintenance where
  jobId : String
  generation : ℕ
  targets : List MaintenanceTarget
  state : MaintenanceState
  updatedAt : ℤ
  drainDeadlineAt : ℤ
  initiatorUserId : Option ℕ
  acknowledgedGenerations : Finset (MaintenanceTarget × ℕ)
  deriving DecidableEq

inductive MaintenanceAction
  | apply | reconcile | release
  deriving DecidableEq

structure NodeMaintenanceCommand where
  maintenance : UpgradeMaintenance
  action : MaintenanceAction
  terminalVerified : Bool
  sourceUnchanged : Bool
  sourceRuntimeSha256 : Option String
  /-- `release_proof`. -/
  verified : action = .release → terminalVerified = true
  unchanged : sourceUnchanged = true → action = .release ∧ terminalVerified = true
    ∧ sourceRuntimeSha256.isSome = true
  identified : sourceUnchanged = false → sourceRuntimeSha256 = none

/-- **A call of `apply`.** Its file is replaced, or the call raises before. -/
structure Call where
  command : NodeMaintenanceCommand
  allowExistingWork : Bool
  recoveryPreimage : Option UpgradeMaintenance
  now : ℤ
  replaced : Bool

structure Node where
  node : StudioName
  current : Option UpgradeMaintenance
  admitting : ℕ

namespace Node

variable (s : Node)

def blocked : Bool := s.current.any fun m => m.state ≠ .released

/-- **The closure of an upgrade that left its source as it was**, verified. -/
def Closure (command : NodeMaintenanceCommand) : Prop :=
  command.action = .release ∧ command.sourceUnchanged = true
    ∧ command.terminalVerified = true ∧ command.sourceRuntimeSha256.isSome = true

instance (command : NodeMaintenanceCommand) : Decidable (Closure command) :=
  inferInstanceAs (Decidable (_ ∧ _ ∧ _ ∧ _))

def transferRefused (command : NodeMaintenanceCommand) (preimage : UpgradeMaintenance) :
    Prop :=
  let requested := command.maintenance
  command.action ≠ .apply ∨ preimage.state = .released ∨ requested.state = .released
    ∨ requested.targets ≠ [.studio s.node] ∨ .studio s.node ∉ preimage.targets
    ∨ requested.generation ≤ preimage.generation
    ∨ s.current ≠ some preimage ∧ s.current ≠ some requested ∨ s.admitting ≠ 0

instance (command : NodeMaintenanceCommand) (preimage : UpgradeMaintenance) :
    Decidable (s.transferRefused command preimage) :=
  inferInstanceAs (Decidable (_ ∨ _))

variable (c : Call)

def succeeds : Except String Unit :=
  let requested := c.command.maintenance
  match s.current with
  | none => .ok ()
  | some previous => do
    refuse (requested.generation = previous.generation
      ∧ (requested.targets ≠ previous.targets
        ∨ requested.drainDeadlineAt ≠ previous.drainDeadlineAt
        ∨ requested.initiatorUserId ≠ previous.initiatorUserId))
      "Maintenance epoch authority differs"
    refuse (requested.generation < previous.generation) "Maintenance owner is stale"
    refuse (requested.generation = previous.generation ∧ requested.jobId ≠ previous.jobId)
      "Maintenance generation has another operation"
    refuse (previous.state ≠ .released ∧ requested.jobId ≠ previous.jobId
      ∧ c.recoveryPreimage = none) "Previous maintenance retains ownership"
    refuse (previous.state = .released ∧ requested.generation = previous.generation
      ∧ c.command.action ≠ .release) "Released maintenance cannot be replayed as active"

def releases : Except String (Option UpgradeMaintenance) := do
  let requested := c.command.maintenance
  let previous ← require (s.current.filter fun p =>
      p.jobId = requested.jobId ∧ p.generation = requested.generation)
    "Maintenance release has no matching owner"
  if previous.state = .released then return none
  refuse (s.admitting ≠ 0 ∧ c.allowExistingWork = false)
    "Admitted requests still require reconciliation"
  return some { requested with state := .released, updatedAt := c.now }

/-- **`apply`**, up to the write: the record to write, if any. -/
def applied : Except String (Option UpgradeMaintenance) := do
  refuse (c.allowExistingWork = true ∧ ¬ Closure c.command)
    "Existing work requires verified unchanged-source closure"
  let requested := c.command.maintenance
  refuse (.studio s.node ∉ requested.targets ∧ .cluster ∉ requested.targets)
    "Maintenance target differs"
  refuse (∃ preimage ∈ c.recoveryPreimage, s.transferRefused c.command preimage)
    "Recovery maintenance transfer preimage or scope differs"
  s.succeeds c
  if c.command.action = .release then s.releases c
  else
    refuse (requested.state = .released)
      "Only terminal reconciliation can release maintenance"
    return some requested

end Node

inductive Label
  | apply (c : Call)
  | admission
  /-- `transfer_continuation`, and a smoke of the upgrade. -/
  | resume
  | leave
  | restart

def step (s : Node) : Label → Node
  | .apply c =>
    match s.applied c with
    | .ok (some value) => if c.replaced then { s with current := some value } else s
    | _ => s
  | .admission => if s.blocked then s else { s with admitting := s.admitting + 1 }
  | .resume => { s with admitting := s.admitting + 1 }
  | .leave => { s with admitting := s.admitting - 1 }
  | .restart => { s with admitting := 0 }

/-! ## What an `apply` has checked -/

/-- **What a write has checked** of the record before it. -/
structure Applied (s : Node) (c : Call) (value : UpgradeMaintenance) : Prop where
  job : value.jobId = c.command.maintenance.jobId
  generation : value.generation = c.command.maintenance.generation
  /-- A record is released for its owner only, -/
  release : value.state = .released → c.command.action = .release
    ∧ (s.admitting = 0 ∨ Node.Closure c.command)
    ∧ ∃ previous, s.current = some previous ∧ previous.jobId = value.jobId
      ∧ previous.generation = value.generation
  /-- the generation is not behind, -/
  fresh : ∀ previous, s.current = some previous →
    previous.generation ≤ value.generation
  /-- one that was released is not taken again, -/
  closed : ∀ previous, s.current = some previous → previous.state = .released →
    value.state ≠ .released → previous.generation < value.generation
  /-- and another job takes over by a transfer. -/
  owner : ∀ previous, s.current = some previous → previous.state ≠ .released →
    value.jobId ≠ previous.jobId → c.recoveryPreimage = some previous
      ∧ previous.generation < value.generation

section Applied

variable {s : Node} {c : Call} {value previous : UpgradeMaintenance}

theorem succeeds_ok (h : s.succeeds c = .ok ()) (hs : s.current = some previous) :
    previous.generation ≤ c.command.maintenance.generation
      ∧ (previous.state ≠ .released →
        c.command.maintenance.jobId ≠ previous.jobId → c.recoveryPreimage ≠ none)
      ∧ (previous.state = .released → c.command.action ≠ .release →
        c.command.maintenance.generation ≠ previous.generation) := by
  unfold Node.succeeds at h
  rw [hs] at h
  simp only [check_bind_eq_ok, refuse_eq_ok] at h
  obtain ⟨-, hstale, -, howner, hreplay⟩ := h
  exact ⟨not_lt.mp hstale, fun h₁ h₂ h₃ => howner ⟨h₁, h₂, h₃⟩,
    fun h₁ h₂ h₃ => hreplay ⟨h₁, h₃, h₂⟩⟩

theorem releases_ok (h : s.releases c = .ok (some value)) :
    value = { c.command.maintenance with state := .released, updatedAt := c.now }
      ∧ (s.admitting = 0 ∨ c.allowExistingWork = true)
      ∧ ∃ previous, s.current = some previous ∧ previous.jobId = value.jobId
        ∧ previous.generation = value.generation := by
  obtain ⟨previous, hprevious, h⟩ := bind_eq_ok.mp h
  obtain ⟨hs, howner⟩ := Option.filter_eq_some_iff.mp (require_eq_ok.mp hprevious)
  obtain ⟨hjob, hgeneration⟩ := of_decide_eq_true howner
  split at h
  · cases h
  obtain ⟨hidle, h⟩ := check_bind_eq_ok.mp h
  cases h
  refine ⟨rfl, ?_, previous, hs, hjob, hgeneration⟩
  cases hallow : c.allowExistingWork with
  | true => exact .inr rfl
  | false => exact .inl (not_not.mp fun hne => refuse_eq_ok.mp hidle ⟨hne, hallow⟩)

theorem transfer_ok (hsucceeds : s.succeeds c = .ok ())
    (htransfer : ¬ ∃ preimage ∈ c.recoveryPreimage, s.transferRefused c.command preimage)
    (hs : s.current = some previous) (hstate : previous.state ≠ .released)
    (hjob : c.command.maintenance.jobId ≠ previous.jobId) :
    c.recoveryPreimage = some previous
      ∧ previous.generation < c.command.maintenance.generation := by
  obtain ⟨preimage, hpreimage⟩ := Option.ne_none_iff_exists'.mp
    ((succeeds_ok hsucceeds hs).2.1 hstate hjob)
  have hscope : ¬ s.transferRefused c.command preimage := fun hrefused =>
    htransfer ⟨preimage, hpreimage, hrefused⟩
  simp only [Node.transferRefused, not_or, not_and_or, not_not, not_le] at hscope
  obtain ⟨-, -, -, -, -, hlater, hsame | hsame, -⟩ := hscope
  · cases hs.symm.trans hsame
    exact ⟨hpreimage, hlater⟩
  · cases hs.symm.trans hsame
    exact absurd rfl hjob

theorem applied_spec (h : s.applied c = .ok (some value)) : Applied s c value := by
  unfold Node.applied at h
  obtain ⟨hclosure, h⟩ := check_bind_eq_ok.mp h
  obtain ⟨-, h⟩ := check_bind_eq_ok.mp h
  obtain ⟨htransfer, h⟩ := check_bind_eq_ok.mp h
  obtain ⟨hsucceeds, h⟩ := check_bind_eq_ok.mp h
  split at h
  · rename_i haction
    obtain ⟨rfl, hidle, howner⟩ := releases_ok h
    refine ⟨rfl, rfl, fun _ => ⟨haction, hidle.imp_right fun hallow => ?_, howner⟩,
      fun p hp => (succeeds_ok hsucceeds hp).1, fun _ _ _ hne => absurd rfl hne,
      fun p hp => transfer_ok hsucceeds (refuse_eq_ok.mp htransfer) hp⟩
    exact not_not.mp fun hne => refuse_eq_ok.mp hclosure ⟨hallow, hne⟩
  · rename_i haction
    obtain ⟨hopen, h⟩ := check_bind_eq_ok.mp h
    cases h
    refine ⟨rfl, rfl, fun hreleased => absurd hreleased (refuse_eq_ok.mp hopen),
      fun p hp => (succeeds_ok hsucceeds hp).1, fun p hp hreleased _ => ?_,
      fun p hp => transfer_ok hsucceeds (refuse_eq_ok.mp htransfer) hp⟩
    obtain ⟨hle, -, hreplay⟩ := succeeds_ok hsucceeds hp
    exact lt_of_le_of_ne hle (Ne.symm (hreplay hreleased haction))

end Applied

theorem step_current (s : Node) (a : Label) : (step s a).current = s.current
    ∨ ∃ c value, a = .apply c ∧ Applied s c value ∧ (step s a).current = some value := by
  cases a with
  | apply c =>
    rw [step]
    split
    · rename_i value h
      split
      · exact .inr ⟨c, value, rfl, applied_spec h, rfl⟩
      · exact .inl rfl
    · exact .inl rfl
  | admission =>
    rw [step]
    split <;> exact .inl rfl
  | resume | leave | restart => exact .inl rfl

/-! ## The laws of the fence -/

structure Lawful (s : Node) (a : Label) : Prop where
  /-- The record stays, and its generation does not decrease. -/
  kept : ∀ m, s.current = some m →
    ∃ m', (step s a).current = some m' ∧ m.generation ≤ m'.generation
  /-- An unreleased fence is taken over with its own record and a later generation. -/
  owned : ∀ m m', s.current = some m → m.state ≠ .released →
    (step s a).current = some m' → m'.jobId ≠ m.jobId → m.generation < m'.generation
      ∧ ∃ c, a = .apply c ∧ c.recoveryPreimage = some m
  /-- It is released by its owner, without requests in flight or by a closure. -/
  released : ∀ m', (step s a).current = some m' → m'.state = .released →
    s.current = some m' ∨ ∃ m c, s.current = some m ∧ a = .apply c
      ∧ c.command.action = .release ∧ m.jobId = c.command.maintenance.jobId
      ∧ m.generation = c.command.maintenance.generation
      ∧ (s.admitting = 0 ∨ Node.Closure c.command)

theorem lawful (s : Node) (a : Label) : Lawful s a := by
  rcases step_current s a with h | ⟨c, value, rfl, happlied, h⟩
  · refine ⟨fun m hm => ⟨m, h.trans hm, le_rfl⟩, fun m m' hm _ hm' hjob => ?_,
      fun m' hm' _ => .inl (h.symm.trans hm')⟩
    cases hm.symm.trans (h.symm.trans hm')
    exact absurd rfl hjob
  · refine ⟨fun m hm => ⟨value, h, happlied.fresh m hm⟩,
      fun m m' hm hstate hm' hjob => ?_, fun m' hm' hreleased => .inr ?_⟩
    · cases h.symm.trans hm'
      obtain ⟨hpreimage, hlater⟩ := happlied.owner m hm hstate hjob
      exact ⟨hlater, c, rfl, hpreimage⟩
    · cases h.symm.trans hm'
      obtain ⟨haction, hidle, m, hm, hjob, hgeneration⟩ := happlied.release hreleased
      exact ⟨m, c, hm, rfl, haction, hjob.trans happlied.job,
        hgeneration.trans happlied.generation, hidle⟩

/-- A command of a generation up to `g` blocks a node that is not blocked. -/
def Reopens (g : ℕ) (s : Node) (a : Label) : Prop :=
  ∃ c, a = .apply c ∧ c.command.maintenance.generation ≤ g ∧ s.blocked = false
    ∧ (step s a).blocked = true

def Seen (g : ℕ) (s : Node) : Prop := ∃ m, s.current = some m ∧ g ≤ m.generation

theorem Seen.not_reopens {g : ℕ} {s : Node} (hs : Seen g s) (a : Label) :
    ¬ Reopens g s a := by
  rintro ⟨c, rfl, hold, hopen, hblocked⟩
  obtain ⟨m, hm, hg⟩ := hs
  have hreleased : m.state = .released := by simpa [Node.blocked, hm] using hopen
  rcases step_current s (.apply c) with h | ⟨_, value, heq, happlied, h⟩
  · rw [Node.blocked, h] at hblocked
    exact Bool.false_ne_true (hopen.symm.trans hblocked)
  · cases heq
    have hstate : value.state ≠ .released := by simpa [Node.blocked, h] using hblocked
    have hlater := happlied.closed m hm hreleased hstate
    have hgeneration := happlied.generation
    omega

/-- **The fence of a node is kept.** In every run of commands and admissions, from any
state, every step is lawful; and once a generation is released, no command of that
generation or an earlier one blocks the node again. -/
theorem fence_kept (s : Node) (as : List Label) : Run.Along step Lawful s as
    ∧ ∀ bs cs m, as = bs ++ cs → (Run.last step s bs).current = some m →
      m.state = .released →
        Run.Along step (fun s a => ¬ Reopens m.generation s a) (Run.last step s bs) cs := by
  refine ⟨Run.along_of_kept (fun _ => True) (fun _ _ _ => trivial)
    (fun s a _ => lawful s a) as trivial, fun bs cs m _ hm _ => ?_⟩
  refine Run.along_of_kept (Seen m.generation) (fun s a hs => ?_)
    (fun s a hs => hs.not_reopens a) cs ⟨m, hm, le_rfl⟩
  obtain ⟨m', hm', hg⟩ := hs
  obtain ⟨m'', hm'', hle⟩ := (lawful s a).kept m' hm'
  exact ⟨m'', hm'', hg.trans hle⟩

end NodeMaintenance
