import Coire.Dict

/-!
# The reservation ledger of a Studio

Holds of memory and disk, keyed by the idempotency key of the request. A hold
is immutable: the same key with the same intent answers the hold there is,
whatever its state, and with any other intent it conflicts. A new hold is
admitted against the memory the other owners have committed plus what the
ledger holds, and against the free disk of its filesystem. A failed write of
the journal leaves the ledger unavailable, and from then on every reading of
it raises.

An owner may be bound to a hold: it measures what the hold really uses, and
it must confirm before a protected hold is released. Measurements, free disk
and the devices paths are on are read when they are needed, and come with the
call.
-/

inductive ReservationState
  | held
  | released
  | expired
  deriving DecidableEq

structure ReservationRequest where
  idempotencyKey : ℕ
  workflowId : ℕ
  variantId : ℕ
  memoryBytes : ℕ
  diskBytes : ℕ
  /-- `memory_bytes: int = Field(gt=0)`. -/
  memory_pos : 0 < memoryBytes
  /-- `disk_bytes: int = Field(gt=0)`. -/
  disk_pos : 0 < diskBytes
  deriving DecidableEq

/-- `Reservation`. The occupants name the bytes of the engines at the time of
the hold, if there were any. -/
structure Reservation where
  id : ℕ
  state : ReservationState
  memoryBytes : ℕ
  diskBytes : ℕ
  occupants : List String
  deriving DecidableEq

inductive OwnerKind
  | artifactImport
  deriving DecidableEq

/-- **The private scope of a hold**: `_metadata`. A legacy hold has no request
and no disk root. -/
structure HoldMetadata where
  request : Option ReservationRequest
  diskRoot : Option String
  diskDevice : Option ℕ
  diskFloorBytes : ℕ
  requireStop : Bool
  diskCreditBytes : ℕ
  materializedPaths : List String
  ownerKind : Option OwnerKind
  deriving DecidableEq

structure Hold where
  reservation : Reservation
  metadata : HoldMetadata
  deriving DecidableEq

/-- **The ledger.** `_items` and `_metadata` have the same keys and are kept
together. -/
structure ReservationLedger where
  items : Dict ℕ Hold
  /-- The holds an owner is bound to. -/
  owners : List ℕ
  unavailable : Bool

/-- How a hold is asked for, beside the request. -/
structure HoldScope where
  /-- The directory, resolved, and the device it is on. -/
  root : String
  device : ℕ
  floorBytes : ℕ
  requireStop : Bool
  creditBytes : ℕ
  materializedPaths : List String
  ownerKind : Option OwnerKind

structure HoldEnv where
  /-- The directory and the materialized paths are absolute, and the directory
  is one and not a link. -/
  pathSafe : Bool
  admissionOpen : Bool
  /-- `_committed_engine_bytes`: what the other owners of memory hold. -/
  engineBytes : ℕ
  /-- What the bound owner of a hold measures. -/
  measured : ℕ → Option ℕ
  /-- The device a directory is on now, `none` if it is a link or gone. -/
  deviceOf : String → Option ℕ
  diskFree : ℕ
  /-- `_additional_held_disk_bytes`, `none` where it raises. -/
  externalDisk : Option ℕ
  /-- Under the training root with a quota: the bytes used, `none` where they
  cannot be read, and the quota. -/
  quota : Option (Option ℕ × ℕ)
  saved : Bool

inductive HoldError
  | unavailable
  | unsafeScope
  | conflict
  | admissionClosed
  | refused (impossible : Bool) (required committed budget : ℕ)
  deriving DecidableEq

namespace HoldMetadata

/-- `_device`: the recorded device, if the directory is still on it. -/
def device (m : HoldMetadata) (deviceOf : String → Option ℕ) : Option ℕ :=
  m.diskRoot.bind (fun root =>
    if deviceOf root = m.diskDevice then m.diskDevice else none)

def countsOn (m : HoldMetadata) (deviceOf : String → Option ℕ)
    (device : ℕ) : Bool :=
  (m.device deviceOf).all (fun d => decide (d = device))

end HoldMetadata

namespace ReservationLedger

def init : ReservationLedger := ⟨Dict.empty, [], false⟩

variable (l : ReservationLedger)

/-- What one hold counts for memory: its bound, or more if its owner measures
more. A released hold counts nothing. -/
def memoryOf (measured : ℕ → Option ℕ) (id : ℕ) (h : Hold) : ℕ :=
  if h.reservation.state = .released then 0
  else max h.reservation.memoryBytes
    (if id ∈ l.owners then (measured id).getD 0 else 0)

def memory (measured : ℕ → Option ℕ) : ℕ :=
  l.items.total (l.memoryOf measured)

def heldBytes (measured : ℕ → Option ℕ) : Option ℕ :=
  if l.unavailable then none else some (l.memory measured)

def ownDiskBytes (deviceOf : String → Option ℕ) (device : ℕ) : ℕ :=
  l.items.total (fun _ h =>
    if h.reservation.state ≠ .released
        ∧ h.metadata.countsOn deviceOf device then
      h.reservation.diskBytes - h.metadata.diskCreditBytes
    else 0)

def heldDiskBytes (deviceOf : String → Option ℕ) (device : ℕ)
    (external : Option ℕ) : Option ℕ :=
  if l.unavailable then none
  else external.map (fun other => l.ownDiskBytes deviceOf device + other)

/-- The disk floor of the device: the highest of the holds on it and the one
asked for. -/
def floor (deviceOf : String → Option ℕ) (device asked : ℕ) : ℕ :=
  ((l.items.values.filter (fun h =>
    decide (h.reservation.state ≠ .released)
      && h.metadata.countsOn deviceOf device)).map
    (fun h => h.metadata.diskFloorBytes)).foldl max asked

def metadataOf (req : ReservationRequest) (scope : HoldScope) :
    HoldMetadata where
  request := some req
  diskRoot := some scope.root
  diskDevice := some scope.device
  diskFloorBytes := scope.floorBytes
  requireStop := scope.requireStop
  diskCreditBytes := scope.creditBytes
  materializedPaths := scope.materializedPaths
  ownerKind := scope.ownerKind

def reservationOf (req : ReservationRequest) (engines : ℕ) : Reservation where
  id := req.idempotencyKey
  state := .held
  memoryBytes := req.memoryBytes
  diskBytes := req.diskBytes
  occupants := if engines ≠ 0 then ["engines:" ++ toString engines] else []

def admission (budget : ℕ) (req : ReservationRequest) (scope : HoldScope)
    (env : HoldEnv) : Except HoldError Unit :=
  if env.admissionOpen = false then .error .admissionClosed
  else
    match l.heldBytes env.measured,
        l.heldDiskBytes env.deviceOf scope.device env.externalDisk with
    | none, _ | _, none => .error .unavailable
    | some held, some diskHeld =>
      let committed := env.engineBytes + held
      let floor := l.floor env.deviceOf scope.device scope.floorBytes
      let effectiveDisk := req.diskBytes - scope.creditBytes
      if budget < req.memoryBytes then
        .error (.refused true req.memoryBytes committed budget)
      else if budget < committed + req.memoryBytes then
        .error (.refused false req.memoryBytes committed budget)
      else
        match env.quota with
        | some (none, _) => .error .unavailable
        | some (some usage, quota) =>
          if quota < usage + effectiveDisk then
            .error (.refused false effectiveDisk usage quota)
          else if env.diskFree < diskHeld + effectiveDisk + floor then
            .error (.refused false req.diskBytes diskHeld
              (env.diskFree - floor))
          else .ok ()
        | none =>
          if env.diskFree < diskHeld + effectiveDisk + floor then
            .error (.refused false req.diskBytes diskHeld
              (env.diskFree - floor))
          else .ok ()

/-- **`hold`**: the hold and whether it is new. A journal that cannot be
written leaves the hold in memory and the ledger unavailable. -/
def hold (budget : ℕ) (req : ReservationRequest) (scope : HoldScope)
    (env : HoldEnv) : Except HoldError (Reservation × Bool)
      × ReservationLedger :=
  if l.unavailable then (.error .unavailable, l)
  else if env.pathSafe = false ∨ req.diskBytes < scope.creditBytes then
    (.error .unsafeScope, l)
  else
    match l.items.get? req.idempotencyKey with
    | some h =>
      if h.metadata ≠ metadataOf req scope then (.error .conflict, l)
      else (.ok (h.reservation, false), l)
    | none =>
      match l.admission budget req scope env with
      | .error e => (.error e, l)
      | .ok () =>
        let r := reservationOf req env.engineBytes
        let l' : ReservationLedger := { l with
          items := l.items.set r.id ⟨r, metadataOf req scope⟩ }
        if env.saved then (.ok (r, true), l')
        else (.error .unavailable, { l' with unavailable := true })

/-- **`bind_owner`**: the hold has an owner, and is protected from then on. -/
def bindOwner (id : ℕ) (saved : Bool) : ReservationLedger :=
  if l.unavailable then l
  else
    match l.items.get? id with
    | none => { l with owners := id :: l.owners }
    | some h =>
      { l with
        owners := id :: l.owners
        items := l.items.set id
          { h with metadata := { h.metadata with requireStop := true } }
        unavailable := !h.metadata.requireStop && !saved }

/-- **`release`**: a protected hold only if its bound owner confirms. -/
def release (id : ℕ) (confirmed saved : Bool) :
    Except HoldError Bool × ReservationLedger :=
  if l.unavailable then (.error .unavailable, l)
  else
    match l.items.get? id with
    | none => (.ok false, l)
    | some h =>
      if h.reservation.state = .released then (.ok true, l)
      else if h.metadata.requireStop
          ∧ ¬ (id ∈ l.owners ∧ confirmed = true) then (.ok false, l)
      else
        let l' : ReservationLedger := { l with
          items := l.items.set id
            { h with reservation := { h.reservation with
              state := .released } } }
        if saved then (.ok true, l')
        else (.error .unavailable, { l' with unavailable := true })

/-! ## What the calls do to the memory held -/

/-- What a hold records, whatever its owner measures. -/
def recordedOf (h : Hold) : ℕ :=
  if h.reservation.state = .released then 0 else h.reservation.memoryBytes

def recorded : ℕ := l.items.total (fun _ h => recordedOf h)

variable {l}

theorem memory_eq_recorded {measured : ℕ → Option ℕ}
    (hm : ∀ id h, l.items.get? id = some h →
      h.reservation.state ≠ .released → id ∈ l.owners →
        (measured id).getD 0 ≤ h.reservation.memoryBytes) :
    l.memory measured = l.recorded := by
  refine Dict.total_congr (fun id h hid => ?_)
  unfold memoryOf recordedOf
  split
  · rfl
  rename_i hheld
  refine Nat.max_eq_left ?_
  split
  · exact hm id h hid hheld ‹_›
  · exact Nat.zero_le _

theorem le_budget_of_admission {budget : ℕ} {req : ReservationRequest}
    {scope : HoldScope} {env : HoldEnv}
    (h : l.admission budget req scope env = .ok ()) :
    env.engineBytes + l.memory env.measured + req.memoryBytes ≤ budget := by
  unfold admission at h
  split at h
  · exact absurd h (by simp)
  split at h
  · exact absurd h (by simp)
  · exact absurd h (by simp)
  rename_i held diskHeld hheld hdisk
  have hmem : held = l.memory env.measured := by
    grind [heldBytes]
  dsimp only at h
  split at h
  · exact absurd h (by simp)
  · split at h
    · exact absurd h (by simp)
    · omega

theorem hold_recorded (budget : ℕ) (req : ReservationRequest)
    (scope : HoldScope) {env : HoldEnv}
    (hm : l.memory env.measured = l.recorded) :
    (l.hold budget req scope env).2.recorded = l.recorded
      ∨ env.engineBytes + (l.hold budget req scope env).2.recorded ≤ budget := by
  unfold hold
  split
  · exact Or.inl rfl
  split
  · exact Or.inl rfl
  split
  · split <;> exact Or.inl rfl
  rename_i hnew
  split
  · exact Or.inl rfl
  rename_i hadm
  refine Or.inr ?_
  have hroom := le_budget_of_admission hadm
  rw [hm] at hroom
  -- written or not, the hold is in memory
  have hadd : (l.items.set req.idempotencyKey
      ⟨reservationOf req env.engineBytes, metadataOf req scope⟩).total
      (fun _ h => recordedOf h) = l.recorded + req.memoryBytes :=
    Dict.total_set_of_none hnew
  have hle : env.engineBytes + (l.items.set req.idempotencyKey
      ⟨reservationOf req env.engineBytes, metadataOf req scope⟩).total
      (fun _ h => recordedOf h) ≤ budget := by
    rw [hadd]
    omega
  split
  · exact hle
  · exact hle

theorem bindOwner_recorded (l : ReservationLedger) (id : ℕ) (saved : Bool) :
    (l.bindOwner id saved).recorded = l.recorded := by
  unfold bindOwner
  split
  · rfl
  split
  · rfl
  · rename_i h hid
    exact Dict.total_set_of_weight_eq hid rfl

theorem release_recorded_le (l : ReservationLedger) (id : ℕ) (confirmed saved : Bool) :
    (l.release id confirmed saved).2.recorded ≤ l.recorded := by
  unfold release
  split
  · exact le_rfl
  split
  · exact le_rfl
  rename_i h hid
  split
  · exact le_rfl
  split
  · exact le_rfl
  have hle : (l.items.set id { h with
      reservation := { h.reservation with state := .released } }).total
      (fun _ h => recordedOf h) ≤ l.recorded :=
    Dict.total_set_le hid (Nat.zero_le _)
  split
  · exact hle
  · exact hle

end ReservationLedger
