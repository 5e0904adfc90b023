import Coire.AdmissionPlan

/-!
# Resizing the sandbox of a node

A node has a ledger and standing reservations of the holder type `SANDBOX`: that of the
agents' sandbox, and one for the failover frontend. `ensure_ledgers` creates them and
looks for each by its holder. `update_ledger` resizes the sandbox, and looks for *a*
reservation of that type on the node: the first one that is stored. The order of storage
is the database's, so that may be the other standing reservation.

The others are kept *exactly when* it is not (`resize_keeps_others_iff`).
-/

namespace SandboxLedger

structure Reservation where
  nodeId : ℕ
  holderType : ReservationHolder
  holderId : String
  bytes : ℕ
  pinned : Bool
  state : MemoryReservationState
  releasedAt : Option ℤ
  deriving DecidableEq

structure Ledger where
  nodeId : ℕ
  budgetBytes : ℕ
  sandboxBytes : ℕ
  updatedAt : ℤ

/-- The tables, the reservations in the order in which they are stored. -/
structure Database where
  nodes : List ℕ
  ledgers : List Ledger
  reservations : List Reservation

structure LedgerUpdate where
  budgetBytes : Option ℕ
  sandboxBytes : Option ℕ
  budget_pos : ∀ bytes ∈ budgetBytes, 0 < bytes
  has_change : budgetBytes ≠ none ∨ sandboxBytes ≠ none

inductive LedgerError
  | notFound
  /-- A ledger cannot be projected: `ValidationError`. -/
  | projection
  deriving DecidableEq

def agentSandbox : String := "agent-sandbox"

def failoverFrontend : String := "failover-frontend"

/-! ## The reservations -/

namespace Reservation

def sandboxOf (nodeId : ℕ) (r : Reservation) : Bool :=
  decide (r.nodeId = nodeId) && decide (r.holderType = .sandbox)

def standing (nodeId : ℕ) (holderId : String) (bytes : ℕ) : Reservation :=
  ⟨nodeId, .sandbox, holderId, bytes, true, .held, none⟩

/-- The assignments of `update_ledger` to the reservation it found. -/
def resized (bytes : ℕ) (now : ℤ) (r : Reservation) : Reservation :=
  { r with
    bytes := bytes
    state := if bytes = 0 then .released else .held
    releasedAt := if bytes = 0 then some now else none }

end Reservation

def resizeSandbox (nodeId bytes : ℕ) (now : ℤ) (rows : List Reservation) :
    List Reservation :=
  match rows.findIdx? (Reservation.sandboxOf nodeId) with
  | some i => rows.modify i (Reservation.resized bytes now)
  | none =>
    if bytes = 0 then rows else rows ++ [.standing nodeId agentSandbox bytes]

namespace Database

variable (db : Database)

/-- `project_ledgers` returns: the budgets and the bytes of what counts are
positive. -/
def projects : Bool :=
  db.ledgers.all fun ledger => decide (0 < ledger.budgetBytes)
    && db.reservations.all fun r => !(decide (r.nodeId = ledger.nodeId) && r.state.active)
      || decide (0 < r.bytes)

/-- **`update_ledger`**. The transaction is left undone if it raises. -/
def updateLedger (nodeId : ℕ) (update : LedgerUpdate) (now : ℤ) :
    Except LedgerError Database :=
  if db.ledgers.any fun ledger => decide (ledger.nodeId = nodeId) then
    let ledgers := db.ledgers.map fun ledger =>
      if ledger.nodeId = nodeId then
        { ledger with
          budgetBytes := update.budgetBytes.getD ledger.budgetBytes
          sandboxBytes := update.sandboxBytes.getD ledger.sandboxBytes
          updatedAt := now }
      else ledger
    let reservations := match update.sandboxBytes with
      | none => db.reservations
      | some bytes => resizeSandbox nodeId bytes now db.reservations
    let db' : Database := ⟨db.nodes, ledgers, reservations⟩
    if db'.projects then .ok db' else .error .projection
  else .error .notFound

def ensureStanding (nodeId : ℕ) (holderId : String) (bytes : ℕ) : Database :=
  if (db.reservations.any fun r => r.sandboxOf nodeId && decide (r.holderId = holderId))
      ∨ bytes = 0 then db
  else { db with reservations := db.reservations ++ [.standing nodeId holderId bytes] }

def ensureLedger (nodeId budgetBytes sandboxBytes : ℕ) (now : ℤ) : Database :=
  if db.ledgers.any fun ledger => decide (ledger.nodeId = nodeId) then db
  else { db with ledgers := db.ledgers ++ [⟨nodeId, budgetBytes, sandboxBytes, now⟩] }

def ensureLedgers (budgetBytes sandboxBytes failoverBytes : ℕ) (now : ℤ) : Database :=
  db.nodes.foldl (fun db nodeId =>
    ((db.ensureLedger nodeId budgetBytes sandboxBytes now).ensureStanding nodeId agentSandbox
      sandboxBytes).ensureStanding nodeId failoverFrontend failoverBytes) db

end Database

/-! ## What a resize keeps -/

def IsAgentSandbox (nodeId : ℕ) (r : Reservation) : Prop :=
  r.sandboxOf nodeId = true ∧ r.holderId = agentSandbox

/-- **Every other reservation is kept**, wherever it is stored. -/
def KeepsOthers (nodeId : ℕ) (rows rows' : List Reservation) : Prop :=
  ∀ (i : ℕ) (r : Reservation), rows[i]? = some r → ¬ IsAgentSandbox nodeId r → rows'[i]? = some r

/-- **The first `SANDBOX` reservation of the node is that of the agents**, or is as the
resize would leave it. -/
def FirstIsAgentSandbox (nodeId bytes : ℕ) (now : ℤ) (rows : List Reservation) : Prop :=
  ∀ r, rows.find? (Reservation.sandboxOf nodeId) = some r →
    r.holderId = agentSandbox ∨ r.resized bytes now = r

variable {nodeId bytes : ℕ} {now : ℤ} {rows : List Reservation}

theorem keepsOthers_resizeSandbox_iff :
    KeepsOthers nodeId rows (resizeSandbox nodeId bytes now rows)
      ↔ FirstIsAgentSandbox nodeId bytes now rows := by
  unfold FirstIsAgentSandbox resizeSandbox
  cases hfirst : rows.findIdx? (Reservation.sandboxOf nodeId) with
  | none =>
    -- nothing is resized: at most a reservation is added behind the others
    have hnone : rows.find? (Reservation.sandboxOf nodeId) = none :=
      List.find?_eq_none.mpr fun r hr => by
        rw [List.findIdx?_eq_none_iff.mp hfirst r hr]
        exact Bool.false_ne_true
    rw [hnone]
    refine iff_of_true (fun i r hr _ => ?_) fun r hr => by cases hr
    dsimp only
    split
    · exact hr
    · grind
  | some first =>
    obtain ⟨hlt, hsandbox, hbefore⟩ := List.findIdx?_eq_some_iff_getElem.mp hfirst
    have hfind : rows.find? (Reservation.sandboxOf nodeId) = some rows[first] := by
      grind [List.find?_eq_some_iff_getElem]
    rw [hfind]
    dsimp only
    constructor
    · rintro hkeeps r hr
      obtain rfl := Option.some.inj hr
      by_cases hagent : rows[first].holderId = agentSandbox
      · exact .inl hagent
      have hkept := hkeeps first rows[first] (List.getElem?_eq_getElem hlt)
        fun h => hagent h.2
      rw [List.getElem?_modify_eq, List.getElem?_eq_getElem hlt] at hkept
      exact .inr (Option.some.inj hkept)
    · intro hcondition i r hr hother
      by_cases hi : first = i
      · subst hi
        obtain rfl : rows[first] = r :=
          Option.some.inj ((List.getElem?_eq_getElem hlt).symm.trans hr)
        have hsame := (hcondition _ rfl).resolve_left fun h => hother ⟨hsandbox, h⟩
        rw [List.getElem?_modify_eq, hr]
        exact congrArg some hsame
      · grind

/-- **What a resize touches.** -/
theorem resize_keeps_others_iff {db db' : Database} {update : LedgerUpdate}
    (h : db.updateLedger nodeId update now = .ok db')
    (hbytes : update.sandboxBytes = some bytes) :
    KeepsOthers nodeId db.reservations db'.reservations
      ↔ FirstIsAgentSandbox nodeId bytes now db.reservations := by
  unfold Database.updateLedger at h
  split at h
  · grind [keepsOthers_resizeSandbox_iff]
  · cases h

/-- A node with the two standing reservations, as `ensure_ledgers` creates them. -/
def twoStanding : Database := (⟨[1], [], []⟩ : Database).ensureLedgers 100 16 8 0

def resizeTo (bytes : ℕ) : LedgerUpdate := ⟨none, some bytes, by simp, .inr (by simp)⟩

/-- Stored as it was created, the sandbox of the agents is resized. -/
theorem resize_keeps_others_as_created :
    ∃ db', twoStanding.updateLedger 1 (resizeTo 32) 5 = .ok db'
      ∧ KeepsOthers 1 twoStanding.reservations db'.reservations := by
  have hbytes : (resizeTo 32).sandboxBytes = some 32 := rfl
  refine ⟨_, rfl, (resize_keeps_others_iff
    (show twoStanding.updateLedger 1 (resizeTo 32) 5 = .ok _ from rfl) hbytes).mpr
      fun r hr => .inl ?_⟩
  have hfirst : twoStanding.reservations.find? (Reservation.sandboxOf 1)
      = some (.standing 1 agentSandbox 16) := by decide +kernel
  rw [hfirst] at hr
  rw [← Option.some.inj hr]
  rfl

/-- **The failover frontend loses its reservation**, and that of the sandbox is left. -/
theorem resize_releases_failover :
    let stored := { twoStanding with reservations := twoStanding.reservations.reverse }
    stored.reservations = [.standing 1 failoverFrontend 8, .standing 1 agentSandbox 16]
      ∧ (stored.updateLedger 1 (resizeTo 0) 5).map Database.reservations
        = .ok [⟨1, .sandbox, failoverFrontend, 0, true, .released, some 5⟩,
          .standing 1 agentSandbox 16] :=
  ⟨by decide +kernel, rfl⟩

end SandboxLedger
