import Coire.JsonTree
import Coire.ReservationLedger
import Coire.Run
import Mathlib.Data.List.Sort

/-!
# The journal of the reservation ledger

The ledger writes all its holds to `reservations.json` after each change, and a new
ledger reads them back. The writer dumps what the calls have made of the metadata; the
reader checks every field of it again, and some of them against the reservation and the
request.

Every state the calls reach is read back as it is: what `load` accepts is well formed
(`wellFormed_of_load`), the calls keep it so, and what is well formed is read back from
what is written (`load_journal`). A request that was accepted is then answered with the
hold it has, unless `bind_owner` has marked that in the metadata which a replay is
compared with.

The text of a journal and of an identifier, `json` and `uuid`, are parameters
(`JournalText`).
-/

/-- **The texts of a journal**: `json.dumps` and `json.loads`, the size of a
file, and the text of a `UUID`. -/
structure JournalText (Text : Type) where
  dumps : JsonValue → Text
  /-- `json.loads` with `_unique_object`, `none` where it raises. -/
  loads : Text → Option JsonValue
  size : Text → ℕ
  loads_dumps : ∀ v : JsonValue, v.Unique → loads (dumps v) = some v
  uuidText : ℕ → String
  uuid : String → Option ℕ
  uuid_uuidText : ∀ n, uuid (uuidText n) = some n

namespace ReservationLedger

open JsonValue

def maxJournalBytes : ℕ := 16 * 1024 * 1024

def isAbsolute (p : String) : Bool := p.toList.head? == some '/'

variable {Text : Type} (T : JournalText Text)

/-! ## Writing -/

def stateText : ReservationState → String
  | .held => "held"
  | .released => "released"
  | .expired => "expired"

/-- `Reservation.model_dump(mode="json")`, the names in their order. -/
def reservationJson (r : Reservation) : JsonValue :=
  .obj [("disk_bytes", .int r.diskBytes),
    ("id", .str (T.uuidText r.id)),
    ("memory_bytes", .int r.memoryBytes),
    ("occupants", ofStrings r.occupants),
    ("state", .str (stateText r.state))]

def requestJson (q : ReservationRequest) : JsonValue :=
  .obj [("disk_bytes", .int q.diskBytes),
    ("idempotency_key", .str (T.uuidText q.idempotencyKey)),
    ("memory_bytes", .int q.memoryBytes),
    ("variant_id", .str (T.uuidText q.variantId)),
    ("workflow_id", .str (T.uuidText q.workflowId))]

def ownerKindText : OwnerKind → String
  | .artifactImport => "artifact-import"

def recordJson (h : Hold) : JsonValue :=
  .obj [("disk_credit_bytes", .int h.metadata.diskCreditBytes),
    ("disk_device", ofOption (fun d : ℕ => .int d) h.metadata.diskDevice),
    ("disk_floor_bytes", .int h.metadata.diskFloorBytes),
    ("disk_root", ofOption .str h.metadata.diskRoot),
    ("materialized_paths", ofStrings h.metadata.materializedPaths),
    ("owner_kind", ofOption (fun k => .str (ownerKindText k))
      h.metadata.ownerKind),
    ("request", ofOption (requestJson T) h.metadata.request),
    ("require_stop", .bool h.metadata.requireStop),
    ("reservation", reservationJson T h.reservation)]

def byName (items : Dict ℕ Hold) : List (ℕ × Hold) :=
  items.items.insertionSort (fun a b => T.uuidText a.1 ≤ T.uuidText b.1)

def recordsJson (items : Dict ℕ Hold) : List (String × JsonValue) :=
  (byName T items).map (fun e => (T.uuidText e.1, recordJson T e.2))

def journalJson (items : Dict ℕ Hold) : JsonValue :=
  .obj [("items", .obj (recordsJson T items)), ("schema_version", .int 2)]

inductive Write
  | done
  | lost
  | renamed
  deriving DecidableEq

/-- The new journal replaces the file. -/
def Lands (write : Write) (items : Dict ℕ Hold) : Prop :=
  T.size (T.dumps (journalJson T items)) ≤ maxJournalBytes ∧ write ≠ .lost

instance (write : Write) (items : Dict ℕ Hold) :
    Decidable (Lands T write items) :=
  inferInstanceAs (Decidable (_ ∧ _))

/-- **`_save`**: the file after it, and whether it returns. -/
def save (write : Write) (items : Dict ℕ Hold) (file : Option Text) :
    Option Text × Bool :=
  if Lands T write items then
    (some (T.dumps (journalJson T items)), decide (write = .done))
  else (file, false)

/-! ## Reading -/

def stateOf : String → Option ReservationState
  | "held" => some .held
  | "released" => some .released
  | "expired" => some .expired
  | _ => none

/-- `Field(gt=0)`. -/
def posNat? (v : JsonValue) : Option ℕ :=
  v.nat?.filter (fun n => 0 < n)

def uuid? (v : JsonValue) : Option ℕ := v.str?.bind T.uuid

/-- The value has no other names: `extra="forbid"`. -/
def onlyNames (names : List String) (members : List (String × JsonValue)) :
    Bool :=
  members.all (fun m => names.contains m.1)

def reservationOf? (v : JsonValue) : Option Reservation := do
  let m ← v.members?
  guard (onlyNames ["id", "state", "memory_bytes", "disk_bytes", "occupants"] m)
  let id ← (m.lookup "id").bind (uuid? T)
  let state ← ((m.lookup "state").bind str?).bind stateOf
  let memoryBytes ← (m.lookup "memory_bytes").bind posNat?
  let diskBytes ← (m.lookup "disk_bytes").bind posNat?
  let occupants ← JsonValue.getD strings? [] (m.lookup "occupants")
  return ⟨id, state, memoryBytes, diskBytes, occupants⟩

def requestOfBytes (key workflow variant memory disk : ℕ) :
    Option ReservationRequest :=
  if h : 0 < memory ∧ 0 < disk then
    some ⟨key, workflow, variant, memory, disk, h.1, h.2⟩
  else none

def requestOf? (v : JsonValue) : Option ReservationRequest := do
  let m ← v.members?
  guard (onlyNames ["idempotency_key", "workflow_id", "variant_id",
    "memory_bytes", "disk_bytes"] m)
  let key ← (m.lookup "idempotency_key").bind (uuid? T)
  let workflow ← (m.lookup "workflow_id").bind (uuid? T)
  let variant ← (m.lookup "variant_id").bind (uuid? T)
  let memory ← (m.lookup "memory_bytes").bind nat?
  let disk ← (m.lookup "disk_bytes").bind nat?
  requestOfBytes key workflow variant memory disk

def ownerKindOf (v : JsonValue) : Option OwnerKind :=
  v.str?.bind (fun s => if s = "artifact-import" then some .artifactImport else none)

def absolute? (v : JsonValue) : Option String := v.str?.filter isAbsolute

def recordNames (m : List (String × JsonValue)) : Bool :=
  let required := ["reservation", "request", "disk_root", "disk_device",
    "disk_floor_bytes", "require_stop"]
  let optional := ["disk_credit_bytes", "materialized_paths", "owner_kind"]
  m.all (fun e => optional.contains e.1 || required.contains e.1)
    && required.all (fun name => (m.lookup name).isSome)

/-- **The hold of a record under an identifier is the one it says**, and its
request, if there is one, is the one it was made for. -/
def identified (identity : ℕ) (r : Reservation)
    (q : Option ReservationRequest) : Bool :=
  r.id == identity && q.all (fun q => q.idempotencyKey == identity
    && q.memoryBytes == r.memoryBytes && q.diskBytes == r.diskBytes)

def metadataOf? (m : List (String × JsonValue)) : Option HoldMetadata := do
  let credit ← JsonValue.getD nat? 0 (m.lookup "disk_credit_bytes")
  let paths ← JsonValue.getD strings? [] (m.lookup "materialized_paths")
  let owner ← JsonValue.getD (nullable ownerKindOf) none (m.lookup "owner_kind")
  let request ← (m.lookup "request").bind (nullable (requestOf? T))
  let root ← (m.lookup "disk_root").bind (nullable absolute?)
  let device ← (m.lookup "disk_device").bind (nullable nat?)
  let floor ← (m.lookup "disk_floor_bytes").bind nat?
  let stop ← (m.lookup "require_stop").bind bool?
  return ⟨request, root, device, floor, stop, credit, paths, owner⟩

def checked (identity : ℕ) (h : Hold) : Bool :=
  decide (h.metadata.diskCreditBytes ≤ h.reservation.diskBytes)
    && h.metadata.materializedPaths.all isAbsolute
    && identified identity h.reservation h.metadata.request
    && h.metadata.diskRoot.isNone == h.metadata.diskDevice.isNone

def recordOf? (e : String × JsonValue) : Option (ℕ × Hold) := do
  let identity ← T.uuid e.1
  let m ← e.2.members?
  guard (recordNames m)
  let reservation ← (m.lookup "reservation").bind (reservationOf? T)
  let metadata ← metadataOf? T m
  guard (checked identity ⟨reservation, metadata⟩)
  return (identity, ⟨reservation, metadata⟩)

/-- The metadata of a hold of an earlier version: nothing is known of it. -/
def legacyMetadata : HoldMetadata := ⟨none, none, none, 0, false, 0, [], none⟩

def legacyOf? (e : String × JsonValue) : Option (ℕ × Hold) := do
  let identity ← T.uuid e.1
  let reservation ← reservationOf? T e.2
  guard (reservation.id = identity)
  return (identity, ⟨reservation, legacyMetadata⟩)

def isCurrent (values : List (String × JsonValue)) : Bool :=
  match values.lookup "schema_version" with
  | some (.int 2) => true
  | _ => false

def holdsOf? (values : List (String × JsonValue)) : Option (List (ℕ × Hold)) :=
  if isCurrent values then do
    guard (onlyNames ["schema_version", "items"] values)
    let records ← (values.lookup "items").bind members?
    records.mapM (recordOf? T)
  else values.mapM (legacyOf? T)

def itemsOf (holds : List (ℕ × Hold)) : Dict ℕ Hold :=
  holds.foldl (fun d e => d.set e.1 e.2) Dict.empty

def load : Option Text → Option (Dict ℕ Hold)
  | none => some Dict.empty
  | some text => do
    guard (T.size text ≤ maxJournalBytes)
    let values ← (T.loads text).bind members?
    let holds ← holdsOf? T values
    return itemsOf holds

/-! ## What is written is read back -/

/-- **A hold the journal can carry** under an identifier. -/
structure WellFormed (id : ℕ) (h : Hold) : Prop where
  memory_pos : 0 < h.reservation.memoryBytes
  disk_pos : 0 < h.reservation.diskBytes
  root : ∀ r, h.metadata.diskRoot = some r → isAbsolute r = true
  checks : checked id h = true

def AllWellFormed (items : Dict ℕ Hold) : Prop :=
  ∀ id h, items.get? id = some h → WellFormed id h

theorem posNat?_int {n : ℕ} (hn : 0 < n) : posNat? (.int n) = some n := by
  unfold posNat?
  rw [nat?_int, Option.filter_some, if_pos (decide_eq_true hn)]

@[simp] theorem uuid?_uuidText (n : ℕ) : uuid? T (.str (T.uuidText n)) = some n :=
  T.uuid_uuidText n

@[simp] theorem stateOf_stateText (s : ReservationState) :
    stateOf (stateText s) = some s := by
  cases s <;> rfl

theorem reservationOf?_reservationJson {r : Reservation}
    (hm : 0 < r.memoryBytes) (hd : 0 < r.diskBytes) :
    reservationOf? T (reservationJson T r) = some r := by
  -- the members are found by their names
  have hread : reservationOf? T (reservationJson T r) = (do
      let id ← uuid? T (.str (T.uuidText r.id))
      let state ← stateOf (stateText r.state)
      let memoryBytes ← posNat? (.int r.memoryBytes)
      let diskBytes ← posNat? (.int r.diskBytes)
      let occupants ← (ofStrings r.occupants).strings?
      return ⟨id, state, memoryBytes, diskBytes, occupants⟩) := rfl
  rw [hread, uuid?_uuidText, stateOf_stateText, posNat?_int hm, posNat?_int hd,
    strings?_ofStrings]
  rfl

theorem requestOf?_requestJson (q : ReservationRequest) :
    requestOf? T (requestJson T q) = some q := by
  have hread : requestOf? T (requestJson T q) = (do
      let key ← uuid? T (.str (T.uuidText q.idempotencyKey))
      let workflow ← uuid? T (.str (T.uuidText q.workflowId))
      let variant ← uuid? T (.str (T.uuidText q.variantId))
      requestOfBytes key workflow variant q.memoryBytes q.diskBytes) := rfl
  rw [hread, uuid?_uuidText, uuid?_uuidText, uuid?_uuidText]
  exact dif_pos ⟨q.memory_pos, q.disk_pos⟩

theorem ownerKindOf_ownerKindText (k : OwnerKind) :
    ownerKindOf (.str (ownerKindText k)) = some k := by
  cases k
  rfl

theorem absolute?_str {p : String} (hp : isAbsolute p = true) :
    absolute? (.str p) = some p := by
  show Option.filter isAbsolute (some p) = some p
  rw [Option.filter_some, if_pos hp]

def recordMembers (h : Hold) : List (String × JsonValue) :=
  ((recordJson T h).members?).getD []

variable {h : Hold} {id : ℕ}

theorem metadataOf?_recordMembers (hw : WellFormed id h) :
    metadataOf? T (recordMembers T h) = some h.metadata := by
  have hrequest : nullable (requestOf? T)
      (ofOption (requestJson T) h.metadata.request) = some h.metadata.request :=
    nullable_ofOption (by intro _ h; cases h) (fun q _ => requestOf?_requestJson T q)
  have hroot : nullable absolute? (ofOption .str h.metadata.diskRoot)
      = some h.metadata.diskRoot :=
    nullable_ofOption (by intro _ h; cases h) (fun r hr => absolute?_str (hw.root r hr))
  have hdevice : nullable nat? (ofOption (fun d : ℕ => .int d) h.metadata.diskDevice)
        = some h.metadata.diskDevice :=
    nullable_ofOption (by intro _ h; cases h) (fun d _ => nat?_int d)
  have howner : nullable ownerKindOf
      (ofOption (fun k => .str (ownerKindText k)) h.metadata.ownerKind)
        = some h.metadata.ownerKind :=
    nullable_ofOption (by intro _ h; cases h) (fun k _ => ownerKindOf_ownerKindText k)
  have hread : metadataOf? T (recordMembers T h) = (do
      let paths ← (ofStrings h.metadata.materializedPaths).strings?
      let owner ← nullable ownerKindOf
        (ofOption (fun k => .str (ownerKindText k)) h.metadata.ownerKind)
      let request ← nullable (requestOf? T)
        (ofOption (requestJson T) h.metadata.request)
      let root ← nullable absolute? (ofOption .str h.metadata.diskRoot)
      let device ← nullable nat? (ofOption (fun d : ℕ => .int d) h.metadata.diskDevice)
      return ⟨request, root, device, h.metadata.diskFloorBytes,
        h.metadata.requireStop, h.metadata.diskCreditBytes, paths, owner⟩) := rfl
  rw [hread, strings?_ofStrings, howner, hrequest, hroot, hdevice]
  rfl

theorem recordOf?_recordJson (hw : WellFormed id h) :
    recordOf? T (T.uuidText id, recordJson T h) = some (id, h) := by
  have hm : (recordJson T h).members? = some (recordMembers T h) := rfl
  have hnames : recordNames (recordMembers T h) = true := rfl
  have hreservation : ((recordMembers T h).lookup "reservation").bind
      (reservationOf? T) = some h.reservation := by
    show reservationOf? T (reservationJson T h.reservation) = _
    exact reservationOf?_reservationJson T hw.memory_pos hw.disk_pos
  simp [recordOf?, T.uuid_uuidText, hm, hnames, hreservation,
    metadataOf?_recordMembers T hw, hw.checks]

theorem unique_journalJson (items : Dict ℕ Hold) : (journalJson T items).Unique := by
  have hreservation : ∀ r, (reservationJson T r).Unique := fun r =>
    .obj (by simp) (by simp [Unique.int, Unique.str, unique_ofStrings])
  have hrequest : ∀ q, (requestJson T q).Unique := fun q =>
    .obj (by simp) (by simp [Unique.int, Unique.str])
  have hrecord : ∀ h, (recordJson T h).Unique := fun h =>
    .obj (by simp) (by
      simp [Unique.int, Unique.bool, Unique.str, unique_ofStrings,
        unique_ofOption, hreservation, hrequest])
  have hinj : Function.Injective T.uuidText := fun a b hab => by
    have h := congrArg T.uuid hab
    rw [T.uuid_uuidText, T.uuid_uuidText] at h
    exact Option.some.inj h
  have hnames : ((recordsJson T items).map Prod.fst).Nodup := by
    have hids : ((byName T items).map Prod.fst).Nodup :=
      ((List.perm_insertionSort _ _).map Prod.fst).nodup_iff.mpr items.nodup
    have hmap : (recordsJson T items).map Prod.fst
        = ((byName T items).map Prod.fst).map T.uuidText := by
      rw [recordsJson, List.map_map, List.map_map]
      rfl
    rw [hmap]
    exact hids.map hinj
  have hrecords : (JsonValue.obj (recordsJson T items)).Unique := by
    refine .obj hnames (fun m hm => ?_)
    obtain ⟨e, -, rfl⟩ := List.mem_map.mp hm
    exact hrecord e.2
  exact .obj (by simp) (by simp [Unique.int, hrecords])

variable {items : Dict ℕ Hold} {v : JsonValue}

theorem mem_byName : (id, h) ∈ byName T items ↔ items.get? id = some h :=
  (List.mem_insertionSort _).trans Dict.mem_items

theorem get?_itemsOf_byName (items : Dict ℕ Hold) (id : ℕ) :
    (itemsOf (byName T items)).get? id = items.get? id := by
  rcases Dict.get?_foldl_set Prod.fst Prod.snd (byName T items) Dict.empty id
    with hnone | ⟨e, he, rfl, hsome⟩
  · rw [Dict.get?_empty] at hnone
    -- a hold of the ledger would have been written
    cases hid : items.get? id with
    | none => exact hnone
    | some h =>
      have hmem : (id, h) ∈ byName T items := (mem_byName T).mpr hid
      exact absurd hnone (Dict.get?_foldl_set_ne_none Prod.fst Prod.snd hmem _)
  · exact hsome.trans ((mem_byName T).mp he).symm

theorem load_journal (hw : AllWellFormed items)
    (hsize : T.size (T.dumps (journalJson T items)) ≤ maxJournalBytes) :
    ∃ items', load T (some (T.dumps (journalJson T items))) = some items'
      ∧ ∀ id, items'.get? id = items.get? id := by
  have hrecords : (recordsJson T items).mapM (recordOf? T) = some (byName T items) :=
    mapM_map_of_read (fun e he =>
      recordOf?_recordJson T (hw e.1 e.2 ((mem_byName T).mp he)))
  have hholds : holdsOf? T [("items", .obj (recordsJson T items)),
      ("schema_version", .int 2)] = some (byName T items) := by
    simp [holdsOf?, isCurrent, onlyNames, List.lookup_cons, members?, hrecords]
  refine ⟨itemsOf (byName T items), ?_, get?_itemsOf_byName T items⟩
  have hvalues : (T.loads (T.dumps (journalJson T items))).bind members?
      = some [("items", .obj (recordsJson T items)), ("schema_version", .int 2)] := by
    rw [T.loads_dumps _ (unique_journalJson T items)]
    rfl
  simp [load, hsize, hvalues, hholds]

/-! ## What is read is well formed -/

theorem pos_of_posNat? {n : ℕ} (h : posNat? v = some n) : 0 < n :=
  of_decide_eq_true (Option.filter_eq_some_iff.mp h).2

theorem bytes_of_reservationOf? {r : Reservation}
    (h : reservationOf? T v = some r) : 0 < r.memoryBytes ∧ 0 < r.diskBytes := by
  simp only [reservationOf?, Option.bind_eq_bind, Option.bind_eq_some_iff,
    Option.pure_def, Option.some.injEq] at h
  obtain ⟨m, -, _, -, id, -, s, -, memory, ⟨_, -, hmemory⟩, disk, ⟨_, -, hdisk⟩,
    _, -, rfl⟩ := h
  exact ⟨pos_of_posNat? hmemory, pos_of_posNat? hdisk⟩

theorem isAbsolute_of_nullable {p : String}
    (h : nullable absolute? v = some (some p)) : isAbsolute p = true := by
  unfold nullable at h
  split at h
  · cases h
  · obtain ⟨q, hq, hp⟩ := Option.map_eq_some_iff.mp h
    obtain rfl : q = p := Option.some.inj hp
    exact (Option.filter_eq_some_iff.mp hq).2

theorem root_of_metadataOf? {m : List (String × JsonValue)} {md : HoldMetadata}
    (h : metadataOf? T m = some md) {r : String} (hr : md.diskRoot = some r) :
    isAbsolute r = true := by
  simp only [metadataOf?, Option.bind_eq_bind, Option.bind_eq_some_iff,
    Option.pure_def, Option.some.injEq] at h
  obtain ⟨_, -, _, -, _, -, _, -, root, ⟨v, -, hroot⟩, _, -, _, -, _, -, rfl⟩ := h
  obtain rfl : root = some r := hr
  exact isAbsolute_of_nullable hroot

theorem of_guard {p : Prop} [Decidable p] {u : Unit}
    (h : (guard p : Option Unit) = some u) : p := by
  by_contra hp
  unfold guard at h
  rw [if_neg hp] at h
  cases h

theorem wellFormed_of_recordOf? {e : String × JsonValue}
    (hrecord : recordOf? T e = some (id, h)) : WellFormed id h := by
  simp only [recordOf?, Option.bind_eq_bind, Option.bind_eq_some_iff,
    Option.pure_def, Option.some.injEq, Prod.mk.injEq] at hrecord
  obtain ⟨_, -, m, -, _, -, r, ⟨v, -, hr⟩, md, hmd, _, hchecked, rfl, rfl⟩ :=
    hrecord
  obtain ⟨hmemory, hdisk⟩ := bytes_of_reservationOf? T hr
  exact ⟨hmemory, hdisk, fun _ hroot => root_of_metadataOf? T hmd hroot,
    of_guard hchecked⟩

theorem wellFormed_of_legacyOf? {e : String × JsonValue}
    (hlegacy : legacyOf? T e = some (id, h)) : WellFormed id h := by
  simp only [legacyOf?, Option.bind_eq_bind, Option.bind_eq_some_iff,
    Option.pure_def, Option.some.injEq, Prod.mk.injEq] at hlegacy
  obtain ⟨identity, -, r, hr, _, hid, rfl, rfl⟩ := hlegacy
  obtain ⟨hmemory, hdisk⟩ := bytes_of_reservationOf? T hr
  refine ⟨hmemory, hdisk, fun _ hroot => ?_, ?_⟩
  · cases hroot
  · simp [checked, identified, legacyMetadata, of_guard hid]

theorem wellFormed_of_holdsOf? {values : List (String × JsonValue)}
    {holds : List (ℕ × Hold)} (hholds : holdsOf? T values = some holds)
    {e : ℕ × Hold} (he : e ∈ holds) : WellFormed e.1 e.2 := by
  unfold holdsOf? at hholds
  split at hholds
  · simp only [Option.bind_eq_bind, Option.bind_eq_some_iff] at hholds
    obtain ⟨_, -, records, -, hrecords⟩ := hholds
    obtain ⟨_, -, hrecord⟩ := exists_of_mem_mapM hrecords he
    exact wellFormed_of_recordOf? T hrecord
  · obtain ⟨_, -, hlegacy⟩ := exists_of_mem_mapM hholds he
    exact wellFormed_of_legacyOf? T hlegacy

theorem wellFormed_of_load {file : Option Text}
    (hload : load T file = some items) : AllWellFormed items := by
  intro id h hid
  cases file with
  | none =>
    cases hload
    rw [Dict.get?_empty] at hid
    cases hid
  | some text =>
    simp only [load, Option.bind_eq_bind, Option.bind_eq_some_iff,
      Option.pure_def, Option.some.injEq] at hload
    obtain ⟨_, -, values, -, holds, hholds, rfl⟩ := hload
    rcases Dict.get?_foldl_set Prod.fst Prod.snd holds Dict.empty id with
      hnone | ⟨e, he, rfl, hsome⟩
    · rw [Dict.get?_empty] at hnone
      exact absurd (hid.symm.trans hnone) (Option.some_ne_none h)
    · obtain rfl : h = e.2 := Option.some.inj (hid.symm.trans hsome)
      exact wellFormed_of_holdsOf? T hholds he

end ReservationLedger
