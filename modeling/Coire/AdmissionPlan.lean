import Coire.CoveringPrefix
import Coire.Dict
import Mathlib.Data.List.Sort

/-!
# Admission of a placement on a node

A decision is admitted on a node against the reservations of the node that are
pending, held or releasing, plus what the processes measure beyond them. If
there is not enough room, idle unpinned models are planned to be evicted, the
least recently used first, until the shortage is covered. An admitted decision
records its own reservation as pending, in a row that is reused if its holder
has had one before.

A row is identified by its node and holder, of which the table has at most one.
Reads of the rest of the database – the maintenance fence, the approved mixes,
the measured residency, the counts of active request leases – come with the
pass.
-/

inductive ReservationHolder
  | sandbox
  | model
  | conversion
  | training
  | image
  | run
  deriving DecidableEq

inductive MemoryReservationState
  | pending
  | held
  | releasing
  | released
  | failed
  deriving DecidableEq

def MemoryReservationState.active : MemoryReservationState → Bool
  | .pending | .held | .releasing => true
  | .released | .failed => false

/-- The unique constraint of the table: `node_id`, `holder_type`,
`holder_id`. -/
structure RowKey where
  node : ℕ
  holderType : ReservationHolder
  holderId : ℕ
  deriving DecidableEq

structure MemoryReservationRow where
  bytes : ℕ
  pinned : Bool
  state : MemoryReservationState
  lastUsedAt : ℤ
  deriving DecidableEq

abbrev ReservationTable := Dict RowKey MemoryReservationRow

structure Candidate where
  reservationId : RowKey
  bytes : ℕ
  pinned : Bool
  inFlight : ℕ
  lastUsedAt : ℤ
  deriving DecidableEq

inductive OccupantReason
  | pinned
  | inUse
  | eligible
  deriving DecidableEq

structure PlacementOccupant where
  reservationId : RowKey
  bytes : ℕ
  reason : OccupantReason
  deriving DecidableEq

structure NodeCapacity where
  budgetBytes : ℕ
  reservedBytes : ℕ

structure AdmissionPlan where
  evictions : List RowKey
  occupants : List PlacementOccupant
  deriving DecidableEq

/-- Why there is no plan: `ValueError`, the `ValidationError` of an occupant, or
`CapacityRefused`. -/
inductive PlanError
  | notPositive
  | invalidOccupant
  | capacityRefused (occupants : List PlacementOccupant)
  deriving DecidableEq

namespace Candidate

def occupant (c : Candidate) : PlacementOccupant where
  reservationId := c.reservationId
  bytes := c.bytes
  reason := if c.pinned then .pinned else if c.inFlight ≠ 0 then .inUse
    else .eligible

def idle (c : Candidate) : Bool := !c.pinned && decide (c.inFlight = 0)

/-- `sorted(candidates, key=lambda item: item.last_used_at)`, which is
stable. -/
def sortedByUse (cs : List Candidate) : List Candidate :=
  cs.insertionSort (fun a b => a.lastUsedAt ≤ b.lastUsedAt)

/-- The loop of `plan_admission` over the sorted candidates: the evictions,
`none` where the candidates run out. -/
def evictionLoop (shortage : ℕ) : ℕ → List Candidate → Option (List RowKey)
  | _, [] => none
  | freed, c :: cs =>
    if c.pinned ∨ c.inFlight ≠ 0 then evictionLoop shortage freed cs
    else if shortage ≤ freed + c.bytes then some [c.reservationId]
    else (evictionLoop shortage (freed + c.bytes) cs).map (c.reservationId :: ·)

end Candidate

/-- **`plan_admission`**: the minimal LRU eviction set, or a refusal. -/
def planAdmission (capacity : NodeCapacity) (requiredBytes : ℕ)
    (candidates : List Candidate) : Except PlanError AdmissionPlan :=
  if requiredBytes = 0 then .error .notPositive
  else
    -- at most zero in the source where this is zero
    let shortage :=
      capacity.reservedBytes + requiredBytes - capacity.budgetBytes
    let sorted := Candidate.sortedByUse candidates
    let occupants := sorted.map Candidate.occupant
    -- the bytes of an occupant are `Field(gt=0)`
    if occupants.any (fun o => decide (o.bytes = 0)) then .error .invalidOccupant
    else if shortage = 0 then .ok ⟨[], occupants⟩
    else
      match Candidate.evictionLoop shortage 0 sorted with
      | some evictions => .ok ⟨evictions, occupants⟩
      | none => .error (.capacityRefused occupants)

/-- The holders whose processes are part of the measured residency. -/
def ReservationHolder.resident (h : ReservationHolder) : Bool :=
  decide (h = .model) || decide (h = .image) || decide (h = .training)

def ReservationHolder.mustBeMeasured (h : ReservationHolder) : Bool :=
  decide (h = .image) || decide (h = .training)

def residentReservationBytes (rows : List (RowKey × MemoryReservationRow)) :
    ℕ :=
  ((rows.filter (fun e => e.1.holderType.resident)).map (·.2.bytes)).sum

def effectiveOccupiedBytes (rows : List (RowKey × MemoryReservationRow))
    (measured : Option ℕ) : Option ℕ :=
  let occupied := (rows.map (·.2.bytes)).sum
  match measured with
  | none =>
    if rows.any (fun e => e.1.holderType.mustBeMeasured) then none
    else some occupied
  | some bytes => some (occupied + (bytes - residentReservationBytes rows))

structure PassEnv where
  /-- `allows_admission`: no maintenance fences the node. -/
  admissionOpen : Bool
  /-- `new_chat_mix_allowed`. -/
  mixAllowed : Bool
  validationSmoke : Bool
  upgradeSmoke : Bool
  measured : Option ℕ
  /-- The active request leases of a reservation. -/
  inFlight : RowKey → ℕ
  /-- With a drain wait configured, the leases still active after it. -/
  drained : Option (RowKey → ℕ)

structure PlacementTarget where
  key : RowKey
  requiredBytes : ℕ
  pinned : Bool
  model : key.holderType = .model

inductive NoPlan
  | notPositive
  | invalidOccupant
  /-- No room; `waited` if a drain was waited for. -/
  | refused (occupants : List PlacementOccupant) (waited : Bool)
  deriving DecidableEq

inductive PassOutcome
  | maintenanceWait
  | profileRefused
  | unplanned (why : NoPlan)
  /-- An upgrade smoke does not evict. -/
  | skipped
  | trainingConflict
  | admitted (plan : AdmissionPlan) (table : ReservationTable)

namespace ReservationTable

variable (t : ReservationTable)

def activeRows (node : ℕ) : List (RowKey × MemoryReservationRow) :=
  t.items.filter (fun e => decide (e.1.node = node) && e.2.state.active)

def evictionCandidate (e : RowKey × MemoryReservationRow) : Bool :=
  decide (e.1.holderType = .model) && decide (e.2.state = .held)

def candidates (node : ℕ) (inFlight : RowKey → ℕ) : List Candidate :=
  ((activeRows t node).filter evictionCandidate).map (fun e =>
    ⟨e.1, e.2.bytes, e.2.pinned, inFlight e.1, e.2.lastUsedAt⟩)

def trainingHeld (node : ℕ) : Bool :=
  (activeRows t node).any (fun e => decide (e.1.holderType = .training))

/-- `fence_reverse_training_holds`: a row that is new, reactivated or larger is
refused beside training. -/
def fenced (key : RowKey) (bytes : ℕ) : Bool :=
  trainingHeld t key.node
    && (t.get? key).all (fun r =>
      decide (r.state ≠ .pending ∧ r.state ≠ .held) || decide (r.bytes < bytes))

def recordPending (target : PlacementTarget) (now : ℤ) : ReservationTable :=
  t.set target.key (match t.get? target.key with
    | none => ⟨target.requiredBytes, target.pinned, .pending, now⟩
    | some r => { r with bytes := target.requiredBytes, state := .pending })

def planPass (budget : ℕ) (target : PlacementTarget) (occupied : ℕ)
    (env : PassEnv) : Except NoPlan AdmissionPlan :=
  let plan counts := planAdmission ⟨budget, occupied⟩ target.requiredBytes
    (candidates t target.key.node counts)
  match plan env.inFlight with
  | .ok plan => .ok plan
  | .error .notPositive => .error .notPositive
  | .error .invalidOccupant => .error .invalidOccupant
  | .error (.capacityRefused occupants) =>
    if env.upgradeSmoke then .error (.refused occupants false)
    else if occupants.any (fun o => decide (o.reason = .inUse)) then
      match env.drained with
      | none => .error (.refused occupants false)
      | some counts =>
        match plan counts with
        | .ok plan => .ok plan
        | .error .notPositive => .error .notPositive
        | .error .invalidOccupant => .error .invalidOccupant
        | .error (.capacityRefused occupants) => .error (.refused occupants true)
    else .error (.refused occupants false)

/-- **The admission pass of a decision on a node**, under its admission
lock. -/
def admissionPass (budget : ℕ) (target : PlacementTarget) (env : PassEnv)
    (now : ℤ) : PassOutcome :=
  let rows := activeRows t target.key.node
  if env.admissionOpen = false then .maintenanceWait
  else if env.mixAllowed = false then .profileRefused
  else if env.validationSmoke
      && rows.any (fun e => e.1.holderType.mustBeMeasured) then .profileRefused
  else
    match effectiveOccupiedBytes rows env.measured with
    | none => .profileRefused
    | some occupied =>
      match planPass t budget target occupied env with
      | .error why => .unplanned why
      | .ok plan =>
        if env.upgradeSmoke && !plan.evictions.isEmpty then .skipped
        else if fenced t target.key target.requiredBytes then .trainingConflict
        else .admitted plan (recordPending t target now)

end ReservationTable

/-! ## The evictions of a plan -/

namespace Candidate

/-- **The victims**: the shortest run of idle candidates, least recently used
first, whose bytes cover the shortage. -/
def lruVictims (shortage : ℕ) (cs : List Candidate) : Option (List RowKey) :=
  (CoveringPrefix.cover bytes shortage ((sortedByUse cs).filter idle)).map
    (List.map reservationId)

theorem not_idle_iff (c : Candidate) :
    c.idle = false ↔ c.pinned = true ∨ c.inFlight ≠ 0 := by
  unfold idle
  cases c.pinned <;> simp

variable {shortage : ℕ}

theorem evictionLoop_eq {freed : ℕ} (h : freed < shortage) (cs : List Candidate) :
    evictionLoop shortage freed cs
      = (CoveringPrefix.cover bytes (shortage - freed) (cs.filter idle)).map
        (List.map reservationId) := by
  induction cs generalizing freed with
  | nil =>
    rw [List.filter_nil, CoveringPrefix.cover_nil (by omega)]
    rfl
  | cons c cs ih =>
    rw [evictionLoop]
    split
    · rename_i hskip
      rw [List.filter_cons_of_neg, ih h]
      rw [(not_idle_iff c).mpr hskip]
      exact Bool.false_ne_true
    · rename_i hidle
      rw [List.filter_cons_of_pos, CoveringPrefix.cover_cons (by omega)]
      · split
        · rw [if_pos (by omega)]
          rfl
        · rename_i hmore
          rw [if_neg (by omega), ih (by omega), Option.map_map, Option.map_map,
            Nat.sub_add_eq]
          rfl
      · by_contra hno
        exact hidle ((not_idle_iff c).mp (Bool.eq_false_iff.mpr hno))

variable {cs : List Candidate}

theorem lruVictims_ne_nil (h : 0 < shortage)
    (hv : lruVictims shortage cs = some []) : False := by
  obtain ⟨p, hp, hmap⟩ := Option.map_eq_some_iff.mp hv
  have hle := (CoveringPrefix.cover_spec hp).1
  rw [List.map_eq_nil_iff.mp hmap] at hle
  exact absurd hle (Nat.not_le_of_lt h)

theorem mem_of_lruVictims
    {vs : List RowKey} (h : lruVictims shortage cs = some vs) {k : RowKey}
    (hk : k ∈ vs) : ∃ c ∈ cs, c.reservationId = k ∧ c.idle = true := by
  obtain ⟨p, hp, rfl⟩ := Option.map_eq_some_iff.mp h
  obtain ⟨c, hc, rfl⟩ := List.mem_map.mp hk
  have hmem := (CoveringPrefix.cover_spec hp).2.subset hc
  obtain ⟨hsorted, hidle⟩ := List.mem_filter.mp hmem
  exact ⟨c, (List.mem_insertionSort _).mp hsorted, rfl, hidle⟩

theorem lruVictims_covers {vs : List RowKey} (h : lruVictims shortage cs = some vs) :
    ∃ p : List Candidate, vs = p.map reservationId ∧ p ⊆ cs
      ∧ shortage ≤ (p.map bytes).sum
      ∧ ((cs.map reservationId).Nodup → vs.Nodup) := by
  obtain ⟨p, hp, rfl⟩ := Option.map_eq_some_iff.mp h
  obtain ⟨hle, hpre⟩ := CoveringPrefix.cover_spec hp
  have hsub : p.Sublist (sortedByUse cs) :=
    hpre.sublist.trans List.filter_sublist
  have hperm : (sortedByUse cs).Perm cs := List.perm_insertionSort _ cs
  refine ⟨p, rfl, List.Subset.trans hsub.subset hperm.subset, hle, fun hnodup => ?_⟩
  exact ((hperm.map reservationId).nodup_iff.mpr hnodup).sublist (hsub.map _)

end Candidate

theorem Candidate.any_occupants (cs : List Candidate) :
    ((Candidate.sortedByUse cs).map Candidate.occupant).any
        (fun o => decide (o.bytes = 0)) = true ↔ ∃ c ∈ cs, c.bytes = 0 := by
  rw [List.any_map, List.any_eq_true]
  refine exists_congr fun c => and_congr (List.mem_insertionSort _) ?_
  exact decide_eq_true_iff

theorem planAdmission_eq {requiredBytes : ℕ} (h : requiredBytes ≠ 0)
    (capacity : NodeCapacity) {cs : List Candidate} (hbytes : ∀ c ∈ cs, c.bytes ≠ 0) :
    planAdmission capacity requiredBytes cs = match Candidate.lruVictims
          (capacity.reservedBytes + requiredBytes - capacity.budgetBytes)
          cs with
        | some evictions =>
          .ok ⟨evictions, (Candidate.sortedByUse cs).map Candidate.occupant⟩
        | none => .error (.capacityRefused
          ((Candidate.sortedByUse cs).map Candidate.occupant)) := by
  unfold planAdmission
  rw [if_neg h]
  dsimp only
  rw [if_neg fun hany => by
    obtain ⟨c, hc, hzero⟩ := (Candidate.any_occupants cs).mp hany
    exact hbytes c hc hzero]
  split
  · rename_i hzero
    rw [hzero, Candidate.lruVictims, CoveringPrefix.cover_zero]
    rfl
  · rename_i hpos
    rw [Candidate.evictionLoop_eq (Nat.pos_of_ne_zero hpos), Nat.sub_zero]
    rfl

theorem planAdmission_invalid {requiredBytes : ℕ} (h : requiredBytes ≠ 0)
    (capacity : NodeCapacity) {cs : List Candidate} {c : Candidate} (hc : c ∈ cs)
    (hzero : c.bytes = 0) :
    planAdmission capacity requiredBytes cs = .error .invalidOccupant := by
  unfold planAdmission
  rw [if_neg h]
  dsimp only
  rw [if_pos ((Candidate.any_occupants cs).mpr ⟨c, hc, hzero⟩)]

/-! ## The shortest eligible run -/

namespace Candidate

/-- **A stable order by last use**, the least recent first. -/
structure InUseOrder (cs order : List Candidate) : Prop where
  perm : order.Perm cs
  sorted : order.Pairwise fun c d => c.lastUsedAt ≤ d.lastUsedAt
  stable : ∀ c d, c.lastUsedAt ≤ d.lastUsedAt → [c, d].Sublist cs → [c, d].Sublist order

theorem inUseOrder_sortedByUse (cs : List Candidate) : InUseOrder cs (sortedByUse cs) := by
  let before (c d : Candidate) : Prop := c.lastUsedAt ≤ d.lastUsedAt
  have : Std.Total before := ⟨fun c d => le_total c.lastUsedAt d.lastUsedAt⟩
  have : IsTrans Candidate before := ⟨fun _ _ _ => le_trans⟩
  exact
    { perm := List.perm_insertionSort _ cs
      sorted := List.pairwise_insertionSort before cs
      stable := fun _ _ h hsub => List.pair_sublist_insertionSort (r := before) h hsub }

/-- **Room without some candidates**: with their bytes freed, the request fits. -/
def MakesRoom (capacity : NodeCapacity) (requiredBytes : ℕ) (cs : List Candidate) : Prop :=
  (capacity.reservedBytes : ℤ) - CoveringPrefix.weight bytes cs + requiredBytes
    ≤ capacity.budgetBytes

theorem makesRoom_iff {capacity : NodeCapacity} {requiredBytes : ℕ} {cs : List Candidate} :
    MakesRoom capacity requiredBytes cs ↔
      capacity.reservedBytes + requiredBytes - capacity.budgetBytes
        ≤ CoveringPrefix.weight bytes cs := by
  unfold MakesRoom
  omega

theorem weight_sortedByUse (cs : List Candidate) :
    CoveringPrefix.weight bytes ((sortedByUse cs).filter idle)
      = CoveringPrefix.weight bytes (cs.filter idle) :=
  (((inUseOrder_sortedByUse cs).perm.filter idle).map bytes).sum_eq

end Candidate

/-- **A plan evicts the shortest eligible run** of unpinned idle models, in the order of
their last use, that makes room; there is a plan exactly if there is such a run and
every candidate has bytes to report. -/
theorem planAdmission_shortest (capacity : NodeCapacity) {requiredBytes : ℕ}
    (hpos : 0 < requiredBytes) (cs : List Candidate) :
    ((∃ plan, planAdmission capacity requiredBytes cs = .ok plan) ↔
      (∀ c ∈ cs, 0 < c.bytes) ∧ (Candidate.MakesRoom capacity requiredBytes []
        ∨ Candidate.MakesRoom capacity requiredBytes (cs.filter Candidate.idle)))
    ∧ ∀ plan, planAdmission capacity requiredBytes cs = .ok plan →
      ∃ order evicted, Candidate.InUseOrder cs order
        ∧ plan.evictions = evicted.map Candidate.reservationId
        ∧ evicted <+: order.filter Candidate.idle
        ∧ (∀ c ∈ evicted, c.pinned = false ∧ c.inFlight = 0)
        ∧ Candidate.MakesRoom capacity requiredBytes evicted
        ∧ (∀ run, run <+: order.filter Candidate.idle →
          Candidate.MakesRoom capacity requiredBytes run → evicted.length ≤ run.length)
        ∧ (evicted ≠ [] →
          ¬ Candidate.MakesRoom capacity requiredBytes evicted.dropLast) := by
  have hne : requiredBytes ≠ 0 := Nat.ne_of_gt hpos
  simp only [Candidate.makesRoom_iff]
  by_cases hbytes : ∀ c ∈ cs, 0 < c.bytes
  · rw [planAdmission_eq hne capacity fun c hc => Nat.ne_of_gt (hbytes c hc)]
    unfold Candidate.lruVictims
    cases hcover : CoveringPrefix.cover Candidate.bytes
        (capacity.reservedBytes + requiredBytes - capacity.budgetBytes)
        ((Candidate.sortedByUse cs).filter Candidate.idle) with
    | none =>
      have hshort := fun h => Option.isSome_iff_ne_none.mp
        (CoveringPrefix.cover_isSome.mpr h) hcover
      rw [Candidate.weight_sortedByUse] at hshort
      refine ⟨⟨fun ⟨_, h⟩ => (by cases h), fun ⟨_, h⟩ => ?_⟩, fun _ h => by cases h⟩
      exact absurd (h.elim (fun h => h.trans (Nat.zero_le _)) id) hshort
    | some evicted =>
      have hroom := CoveringPrefix.cover_isSome.mp (Option.isSome_of_eq_some hcover)
      rw [Candidate.weight_sortedByUse] at hroom
      obtain ⟨hcovers, hrun⟩ := CoveringPrefix.cover_spec hcover
      refine ⟨⟨fun _ => ⟨hbytes, .inr hroom⟩, fun _ => ⟨_, rfl⟩⟩, fun plan h => ?_⟩
      obtain rfl := Except.ok.inj h
      refine ⟨_, evicted, Candidate.inUseOrder_sortedByUse cs, rfl, hrun, fun c hc => ?_,
        hcovers, fun run => CoveringPrefix.cover_shortest hcover, fun hevicted => ?_⟩
      · have hidle := (List.mem_filter.mp (hrun.subset hc)).2
        unfold Candidate.idle at hidle
        rw [Bool.and_eq_true, Bool.not_eq_true', decide_eq_true_eq] at hidle
        exact hidle
      · exact Nat.not_le_of_lt (CoveringPrefix.cover_dropLast hcover hevicted)
  · obtain ⟨c, hc, hzero⟩ : ∃ c ∈ cs, c.bytes = 0 := by
      by_contra hno
      exact hbytes fun c hc => Nat.pos_of_ne_zero fun h => hno ⟨c, hc, h⟩
    rw [planAdmission_invalid hne capacity hc hzero]
    exact ⟨⟨fun ⟨_, h⟩ => (by cases h), fun h => absurd h.1 hbytes⟩, fun _ h => by cases h⟩

/-- Two idle models of 4, the older of them not the first, and a pinned one of 9. -/
theorem planAdmission_shortest_older : (planAdmission ⟨20, 17⟩ 6
        [⟨⟨0, .model, 1⟩, 4, false, 0, 5⟩, ⟨⟨0, .model, 2⟩, 9, true, 0, 0⟩,
          ⟨⟨0, .model, 3⟩, 4, false, 0, 2⟩]).map AdmissionPlan.evictions
      = .ok [⟨0, .model, 3⟩]
    ∧ ∃ plan, planAdmission ⟨20, 17⟩ 6
        [⟨⟨0, .model, 1⟩, 4, false, 0, 5⟩, ⟨⟨0, .model, 2⟩, 9, true, 0, 0⟩,
          ⟨⟨0, .model, 3⟩, 4, false, 0, 2⟩] = .ok plan :=
  ⟨by decide +kernel, (planAdmission_shortest ⟨20, 17⟩ (by decide) _).1.mpr
    ⟨by decide, .inr (by unfold Candidate.MakesRoom; decide +kernel)⟩⟩

/-- **A candidate without bytes stops the plan**, even where the request fits. -/
theorem planAdmission_zero_bytes : Candidate.MakesRoom ⟨20, 0⟩ 6 []
    ∧ planAdmission ⟨20, 0⟩ 6 [⟨⟨0, .model, 1⟩, 0, false, 0, 0⟩]
      = .error .invalidOccupant :=
  ⟨by unfold Candidate.MakesRoom; decide +kernel, rfl⟩

namespace ReservationTable

def passVictims (t : ReservationTable) (budget : ℕ) (target : PlacementTarget)
    (occupied : ℕ) (env : PassEnv) : Option (List RowKey) :=
  let victims counts := Candidate.lruVictims
    (occupied + target.requiredBytes - budget)
    (t.candidates target.key.node counts)
  (victims env.inFlight).or (env.drained.bind victims)

variable {t : ReservationTable} {budget : ℕ} {target : PlacementTarget}
  {env : PassEnv} {now : ℤ}

variable {vs : List RowKey} {node : ℕ}

theorem row_of_candidates {counts : RowKey → ℕ} {c : Candidate}
    (h : c ∈ t.candidates node counts) :
    ∃ r, t.get? c.reservationId = some r ∧ c.reservationId.node = node
      ∧ c.reservationId.holderType = .model ∧ r.state = .held
      ∧ c = ⟨c.reservationId, r.bytes, r.pinned, counts c.reservationId,
        r.lastUsedAt⟩ := by
  obtain ⟨⟨k, r⟩, he, rfl⟩ := List.mem_map.mp h
  obtain ⟨hact, hcand⟩ := List.mem_filter.mp he
  obtain ⟨hmem, hnode⟩ := List.mem_filter.mp hact
  unfold evictionCandidate at hcand
  rw [Bool.and_eq_true, decide_eq_true_eq, decide_eq_true_eq] at hcand
  rw [Bool.and_eq_true, decide_eq_true_eq] at hnode
  exact ⟨r, Dict.mem_items.mp hmem, hnode.1, hcand.1, hcand.2, rfl⟩

variable {plan : AdmissionPlan} {occupied : ℕ}

theorem row_of_passVictims {k : RowKey}
    (h : t.passVictims budget target occupied env = some vs) (hk : k ∈ vs) :
    ∃ r, t.get? k = some r ∧ k.node = target.key.node
      ∧ k.holderType = .model ∧ r.state = .held ∧ r.pinned = false
      ∧ (env.inFlight k = 0 ∨ ∃ counts, env.drained = some counts ∧ counts k = 0) := by
  have hcand : ∀ counts, Candidate.lruVictims (occupied + target.requiredBytes - budget)
      (t.candidates target.key.node counts) = some vs →
      ∃ r, t.get? k = some r ∧ k.node = target.key.node
        ∧ k.holderType = .model ∧ r.state = .held ∧ r.pinned = false
        ∧ counts k = 0 := by
    intro counts hv
    obtain ⟨c, hc, rfl, hidle⟩ := Candidate.mem_of_lruVictims hv hk
    obtain ⟨r, hr, hnode, hmodel, hheld, hceq⟩ := row_of_candidates hc
    rw [hceq] at hidle
    unfold Candidate.idle at hidle
    rw [Bool.and_eq_true, Bool.not_eq_true', decide_eq_true_eq] at hidle
    exact ⟨r, hr, hnode, hmodel, hheld, hidle.1, hidle.2⟩
  rcases Option.or_eq_some_iff.mp h with h | ⟨-, h⟩
  · grind
  · obtain ⟨counts, hdrained, h⟩ := Option.bind_eq_some_iff.mp h
    obtain ⟨r, hr, hnode, hmodel, hheld, hpin, hzero⟩ := hcand counts h
    exact ⟨r, hr, hnode, hmodel, hheld, hpin, Or.inr ⟨counts, hdrained, hzero⟩⟩

theorem candidates_nodup (t : ReservationTable) (node : ℕ) (counts : RowKey → ℕ) :
    ((t.candidates node counts).map Candidate.reservationId).Nodup := by
  unfold candidates
  rw [List.map_map]
  exact t.nodup.sublist ((List.filter_sublist.trans List.filter_sublist).map _)

theorem bytes_of_candidates {counts : RowKey → ℕ}
    (h : ∀ c ∈ t.candidates node counts, c.bytes ≠ 0) (counts' : RowKey → ℕ) :
    ∀ c ∈ t.candidates node counts', c.bytes ≠ 0 := by
  intro c hc
  obtain ⟨e, he, rfl⟩ := List.mem_map.mp hc
  exact h ⟨e.1, e.2.bytes, e.2.pinned, counts e.1, e.2.lastUsedAt⟩
    (List.mem_map.mpr ⟨e, he, rfl⟩)

theorem bytes_of_planPass (h : t.planPass budget target occupied env = .ok plan) :
    target.requiredBytes ≠ 0
      ∧ ∀ c ∈ t.candidates target.key.node env.inFlight, c.bytes ≠ 0 := by
  have hpos : target.requiredBytes ≠ 0 := by
    intro hzero
    unfold planPass at h
    rw [hzero] at h
    exact absurd h (by simp [planAdmission])
  refine ⟨hpos, fun c hc hzero => ?_⟩
  unfold planPass at h
  dsimp only at h
  rw [planAdmission_invalid hpos _ hc hzero] at h
  exact absurd h (by simp)

theorem planPass_ok (h : t.planPass budget target occupied env = .ok plan) :
    target.requiredBytes ≠ 0
      ∧ t.passVictims budget target occupied env = some plan.evictions := by
  obtain ⟨hpos, hbytes⟩ := bytes_of_planPass h
  refine ⟨hpos, ?_⟩
  unfold planPass at h
  unfold passVictims
  dsimp only at h ⊢
  rw [planAdmission_eq hpos _ hbytes] at h
  cases hv : Candidate.lruVictims (occupied + target.requiredBytes - budget)
      (t.candidates target.key.node env.inFlight) with
  | some vs =>
    rw [hv] at h
    obtain rfl := Except.ok.inj h
    rfl
  | none =>
    rw [hv] at h
    dsimp only at h
    split at h
    · exact absurd h (by simp)
    split at h
    · split at h
      · exact absurd h (by simp)
      · rename_i counts hdrained
        rw [planAdmission_eq hpos _ (bytes_of_candidates hbytes counts)] at h
        rw [hdrained, Option.none_or, Option.bind_some]
        cases hv' : Candidate.lruVictims (occupied + target.requiredBytes - budget)
            (t.candidates target.key.node counts) with
        | some vs => grind
        | none => grind
    · exact absurd h (by simp)

theorem planPass_of_room (hpos : target.requiredBytes ≠ 0)
    (hbytes : ∀ c ∈ t.candidates target.key.node env.inFlight, c.bytes ≠ 0)
    (h : occupied + target.requiredBytes ≤ budget) :
    ∃ plan, t.planPass budget target occupied env = .ok plan ∧ plan.evictions = [] := by
  unfold planPass
  dsimp only
  rw [planAdmission_eq hpos _ hbytes]
  dsimp only
  rw [Nat.sub_eq_zero_of_le h]
  unfold Candidate.lruVictims
  rw [CoveringPrefix.cover_zero]
  exact ⟨_, rfl, rfl⟩

theorem admissionPass_admitted {t₁ : ReservationTable}
    (h : t.admissionPass budget target env now = .admitted plan t₁) :
    env.admissionOpen = true ∧ env.mixAllowed = true
      ∧ (env.validationSmoke && (t.activeRows target.key.node).any
        (fun e => e.1.holderType.mustBeMeasured)) = false
      ∧ t.fenced target.key target.requiredBytes = false
      ∧ t₁ = t.recordPending target now
      ∧ ∃ occupied, effectiveOccupiedBytes (t.activeRows target.key.node)
          env.measured = some occupied
        ∧ t.planPass budget target occupied env = .ok plan := by
  unfold admissionPass at h
  dsimp only at h
  split at h
  · exact absurd h (by simp)
  rename_i hopen
  split at h
  · exact absurd h (by simp)
  rename_i hmix
  split at h
  · exact absurd h (by simp)
  rename_i hsmoke
  split at h
  · exact absurd h (by simp)
  rename_i occupied hocc
  split at h
  · exact absurd h (by simp)
  rename_i plan' hp
  split at h
  · exact absurd h (by simp)
  · split at h
    · exact absurd h (by simp)
    · grind

theorem admissionPass_of_room (now : ℤ) (hopen : env.admissionOpen = true)
    (hmix : env.mixAllowed = true)
    (hsmoke : (env.validationSmoke && (t.activeRows target.key.node).any
      (fun e => e.1.holderType.mustBeMeasured)) = false)
    (hfence : t.fenced target.key target.requiredBytes = false)
    (hocc : effectiveOccupiedBytes
      (t.activeRows target.key.node) env.measured = some occupied)
    (hpos : target.requiredBytes ≠ 0)
    (hbytes : ∀ c ∈ t.candidates target.key.node env.inFlight, c.bytes ≠ 0)
    (hroom : occupied + target.requiredBytes ≤ budget) :
    ∃ plan, t.admissionPass budget target env now
        = .admitted plan (t.recordPending target now)
      ∧ plan.evictions = [] := by
  obtain ⟨plan, hplan, hnil⟩ := planPass_of_room hpos hbytes hroom
  refine ⟨plan, ?_, hnil⟩
  unfold admissionPass
  dsimp only
  rw [hopen, hmix, hsmoke, hocc]
  simp only [Bool.true_eq_false, if_false, Bool.false_eq_true]
  rw [hplan]
  simp only [hnil, List.isEmpty_nil, Bool.not_true, Bool.and_false,
    Bool.false_eq_true, if_false, hfence]

/-! ## Sums over the rows that count -/

def activeTotal (t : ReservationTable) (node : ℕ) (p : RowKey → Bool) : ℕ :=
  t.total (fun k r =>
    if decide (k.node = node) && r.state.active && p k then r.bytes else 0)

def overage (measured : Option ℕ) (reserved : ℕ) : ℕ :=
  measured.elim 0 (fun bytes => bytes - reserved)

/-- A row whose residency must be measured counts. -/
def unmeasured (t : ReservationTable) (node : ℕ) : Bool :=
  (t.activeRows node).any (fun e => e.1.holderType.mustBeMeasured)

theorem sum_activeRows (t : ReservationTable) (node : ℕ) :
    ((t.activeRows node).map (·.2.bytes)).sum = t.activeTotal node (fun _ => true) := by
  unfold activeRows activeTotal
  rw [Dict.sum_filter]
  simp only [Bool.and_true]

theorem residentReservationBytes_activeRows (t : ReservationTable) (node : ℕ) :
    residentReservationBytes (t.activeRows node)
      = t.activeTotal node (fun k => k.holderType.resident) := by
  unfold residentReservationBytes activeRows activeTotal
  rw [List.filter_filter, Dict.sum_filter]
  simp only [Bool.and_comm]

theorem effectiveOccupiedBytes_eq (t : ReservationTable) (node : ℕ)
    (measured : Option ℕ) :
    effectiveOccupiedBytes (t.activeRows node) measured
      = if measured.isNone && t.unmeasured node then none
        else some (t.activeTotal node (fun _ => true) + overage measured
            (t.activeTotal node (fun k => k.holderType.resident))) := by
  unfold effectiveOccupiedBytes
  rw [residentReservationBytes_activeRows, sum_activeRows]
  cases measured with
  | none => rfl
  | some bytes => rfl

theorem activeTotal_le_of_occupied {measured : Option ℕ}
    (h : effectiveOccupiedBytes (t.activeRows node) measured = some occupied) :
    t.activeTotal node (fun _ => true) ≤ occupied := by
  rw [effectiveOccupiedBytes_eq] at h
  split at h
  · exact absurd h (by simp)
  · exact Option.some.inj h ▸ Nat.le_add_right _ _

/-! ## The room a plan makes -/

def activeBytes (node : ℕ) (k : RowKey) (r : MemoryReservationRow) : ℕ :=
  if decide (k.node = node) && r.state.active then r.bytes else 0

theorem activeTotal_split (t : ReservationTable) (node : ℕ) (h : vs.Nodup) :
    t.activeTotal node (fun _ => true) = (vs.map (t.weight (activeBytes node))).sum
        + t.activeTotal node (fun k => decide (k ∉ vs)) := by
  unfold activeTotal
  rw [Dict.sum_weight t _ h, ← Dict.total_add]
  refine Dict.total_congr (fun k r _ => ?_)
  unfold activeBytes
  by_cases hk : k ∈ vs
  · simp [hk]
  · simp [hk]

theorem passVictims_covers (h : t.passVictims budget target occupied env = some vs) :
    vs.Nodup ∧ occupied + target.requiredBytes - budget
      ≤ (vs.map (t.weight (activeBytes target.key.node))).sum := by
  have hcand : ∀ counts, Candidate.lruVictims (occupied + target.requiredBytes - budget)
      (t.candidates target.key.node counts) = some vs →
      vs.Nodup ∧ occupied + target.requiredBytes - budget
        ≤ (vs.map (t.weight (activeBytes target.key.node))).sum := by
    intro counts hv
    obtain ⟨p, rfl, hsub, hle, hnodup⟩ := Candidate.lruVictims_covers hv
    refine ⟨hnodup (candidates_nodup t _ counts), le_trans hle ?_⟩
    rw [List.map_map]
    refine List.sum_le_sum (fun c hc => ?_)
    obtain ⟨r, hr, hnode, -, hheld, hceq⟩ := row_of_candidates (hsub hc)
    rw [Function.comp_apply, Dict.weight, hr, Option.elim_some, activeBytes,
      hnode, hheld, hceq]
    simp [MemoryReservationState.active]
  rcases Option.or_eq_some_iff.mp h with h | ⟨-, h⟩
  · exact hcand _ h
  · obtain ⟨counts, -, h⟩ := Option.bind_eq_some_iff.mp h
    exact hcand counts h

theorem room_of_admitted {t₁ : ReservationTable}
    (h : t.admissionPass budget target env now = .admitted plan t₁) :
    t.activeTotal target.key.node (fun k => decide (k ∉ plan.evictions))
      + target.requiredBytes ≤ budget := by
  obtain ⟨-, -, -, -, -, occupied, hocc, hplan⟩ := admissionPass_admitted h
  obtain ⟨hnodup, hcover⟩ := passVictims_covers (planPass_ok hplan).2
  have hle := activeTotal_le_of_occupied hocc
  have hsplit := t.activeTotal_split target.key.node hnodup
  omega

end ReservationTable
