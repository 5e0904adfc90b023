import Coire.ReservationJournal

/-!
# Requests replayed after a restart

A node that restarts reads its holds from the journal. Here the ledger and its file are
one system: the calls `hold`, `bind_owner` and `release`, each with the way its write of
the journal ends, and the restart, which makes a new ledger over the file.

In every state reached, the file is read back as the holds of the ledger, and every
request that was accepted is answered with the hold it got and is not new (`Restores`).
Only a `bind_owner` can break that (`reload_answers_accepted_iff`).
-/

namespace ReservationLedger

/-! ## The ledger and its file -/

inductive Call
  | hold (req : ReservationRequest) (scope : HoldScope) (env : HoldEnv)
  | bindOwner (id : ℕ)
  | release (id : ℕ) (confirmed : Bool)

/-- What `hold` meets, the paths of its scope being absolute or not by their
texts. -/
def asked (scope : HoldScope) (env : HoldEnv) (saved : Bool) : HoldEnv :=
  { env with
    pathSafe := env.pathSafe && isAbsolute scope.root
      && scope.materializedPaths.all isAbsolute
    saved := saved }

structure Acceptance where
  req : ReservationRequest
  scope : HoldScope
  reservation : Reservation

namespace Call

variable (budget : ℕ) (l : ReservationLedger)

/-- The holds a call saves, `none` where it does not get to `_save`. -/
def saves : Call → Option (Dict ℕ Hold)
  | .hold req scope env =>
    match l.hold budget req scope (asked scope env true) with
    | (.ok (_, true), l') => some l'.items
    | _ => none
  | .bindOwner id =>
    if l.unavailable then none
    else (l.items.get? id).bind (fun h =>
      if h.metadata.requireStop then none
      else some (l.bindOwner id true).items)
  | .release id confirmed =>
    if l.unavailable then none
    else (l.items.get? id).bind (fun h =>
      if h.reservation.state = .released
          ∨ (h.metadata.requireStop ∧ ¬ (id ∈ l.owners ∧ confirmed = true)) then
        none
      else some (l.release id confirmed true).2.items)

def run (saved : Bool) : Call → ReservationLedger
  | .hold req scope env => (l.hold budget req scope (asked scope env saved)).2
  | .bindOwner id => l.bindOwner id saved
  | .release id confirmed => (l.release id confirmed saved).2

def accepts (saved : Bool) : Call → List Acceptance
  | .hold req scope env =>
    match (l.hold budget req scope (asked scope env saved)).1 with
    | .ok (r, _) => [⟨req, scope, r⟩]
    | .error _ => []
  | .bindOwner _ => []
  | .release _ _ => []

end Call

/-- **The ledger, its file and the requests accepted so far.** -/
structure Journaled (Text : Type) where
  ledger : ReservationLedger
  file : Option Text
  accepted : List Acceptance

/-- A new ledger over the holds of a file: no owner is bound. -/
def reloaded (items : Dict ℕ Hold) : ReservationLedger := ⟨items, [], false⟩

inductive Label
  | call (c : Call) (write : Write)
  | restart

variable {Text : Type} (T : JournalText Text)

/-- **One step**. A journal that cannot be read leaves the node without a
ledger. -/
def step (budget : ℕ) (s : Journaled Text) : Label → Journaled Text
  | .call c write =>
    let out := match c.saves budget s.ledger with
      | none => (s.file, true)
      | some items => save T write items s.file
    { ledger := c.run budget s.ledger out.2
      file := out.1
      accepted := s.accepted ++ c.accepts budget s.ledger out.2 }
  | .restart =>
    match load T s.file with
    | some items => { s with ledger := reloaded items }
    | none => { s with ledger := { s.ledger with unavailable := true } }

def start (file : Option Text) (items : Dict ℕ Hold) : Journaled Text :=
  ⟨reloaded items, file, []⟩

/-! ## What is to hold -/

/-- **The file restores the ledger**: it is read as the holds the ledger has, and each
accepted request is answered with the hold it got, in its state by now. -/
def Restores (s : Journaled Text) : Prop :=
  ∃ items, load T s.file = some items
    ∧ (s.ledger.unavailable = false →
      ∀ id, items.get? id = s.ledger.items.get? id)
    ∧ ∀ a ∈ s.accepted, ∃ r : Reservation,
      r = { a.reservation with state := r.state }
        ∧ (items.get? a.req.idempotencyKey).map Hold.reservation = some r
        ∧ ∀ budget env saved, env.pathSafe = true →
          (reloaded items).hold budget a.req a.scope (asked a.scope env saved)
            = (.ok (r, false), reloaded items)

/-- **No accepted request is left without its hold**: an owner is not bound in
the journal to a hold that was asked for without `require_stop`. -/
def Spares (s : Journaled Text) : Label → Prop
  | .call (.bindOwner id) write =>
    s.ledger.unavailable = false →
      (∃ a ∈ s.accepted, a.req.idempotencyKey = id
        ∧ a.scope.requireStop = false) →
      ¬ Lands T write (s.ledger.bindOwner id true).items
  | _ => True

/-! ## A request that gets past its checks -/

section

variable {l : ReservationLedger} {budget : ℕ} {req : ReservationRequest}
  {scope : HoldScope} {env : HoldEnv} (havailable : l.unavailable = false)
  (hsafe : ¬ (env.pathSafe = false ∨ req.diskBytes < scope.creditBytes))

include havailable hsafe

theorem hold_of_some {h : Hold} (hget : l.items.get? req.idempotencyKey = some h) :
    l.hold budget req scope env
      = if h.metadata ≠ metadataOf req scope then (.error .conflict, l)
        else (.ok (h.reservation, false), l) := by
  unfold hold
  rw [havailable, if_neg Bool.false_ne_true, if_neg hsafe, hget]

theorem hold_of_none (hget : l.items.get? req.idempotencyKey = none)
    (hadm : l.admission budget req scope env = .ok ()) :
    l.hold budget req scope env
      = (if env.saved then .ok (reservationOf req env.engineBytes, true)
          else .error .unavailable,
        { l with
          items := l.items.set req.idempotencyKey
            ⟨reservationOf req env.engineBytes, metadataOf req scope⟩
          unavailable := !env.saved }) := by
  have hid : (reservationOf req env.engineBytes).id = req.idempotencyKey := rfl
  unfold hold
  rw [havailable, if_neg Bool.false_ne_true, if_neg hsafe, hget]
  dsimp only
  rw [hadm, hid]
  dsimp only
  cases env.saved with
  | true =>
    rw [if_pos rfl, if_pos rfl, Bool.not_true]
  | false => rfl

theorem hold_of_refused {e : HoldError} (hget : l.items.get? req.idempotencyKey = none)
    (hadm : l.admission budget req scope env = .error e) :
    l.hold budget req scope env = (.error e, l) := by
  unfold hold
  rw [havailable, if_neg Bool.false_ne_true, if_neg hsafe, hget]
  dsimp only
  rw [hadm]

end

/-! ## An accepted request and its hold -/

def Answered (items : Dict ℕ Hold) (a : Acceptance) : Prop :=
  ∃ h, items.get? a.req.idempotencyKey = some h
    ∧ h.metadata = metadataOf a.req a.scope
    ∧ h.reservation = { a.reservation with state := h.reservation.state }

variable {a : Acceptance} {items : Dict ℕ Hold} {h : Hold} {s : Journaled Text}

theorem Answered.congr {items' : Dict ℕ Hold}
    (h : Answered items a) (hsame : ∀ id, items'.get? id = items.get? id) :
    Answered items' a := by
  obtain ⟨hold, hid, hrest⟩ := h
  exact ⟨hold, (hsame _).trans hid, hrest⟩

theorem AllWellFormed.congr {items' : Dict ℕ Hold}
    (h : AllWellFormed items) (hsame : ∀ id, items'.get? id = items.get? id) :
    AllWellFormed items' :=
  fun id hold hid => h id hold ((hsame id).symm.trans hid)

theorem WellFormed.scope {req : ReservationRequest} {scope : HoldScope} {id : ℕ}
    (hw : WellFormed id h) (hm : h.metadata = metadataOf req scope) :
    isAbsolute scope.root = true ∧ scope.materializedPaths.all isAbsolute = true
      ∧ scope.creditBytes ≤ req.diskBytes := by
  grind [checked, identified, metadataOf, isAbsolute, identified,
    checked, cases WellFormed]

theorem hold_of_answered (hw : AllWellFormed items)
    (hid : items.get? a.req.idempotencyKey = some h)
    (hm : h.metadata = metadataOf a.req a.scope) (budget : ℕ) {env : HoldEnv}
    (henv : env.pathSafe = true) (saved : Bool) :
    (reloaded items).hold budget a.req a.scope (asked a.scope env saved)
      = (.ok (h.reservation, false), reloaded items) := by
  obtain ⟨hroot, hpaths, hcredit⟩ := (hw _ h hid).scope hm
  have hsafe : ¬ ((asked a.scope env saved).pathSafe = false
      ∨ a.req.diskBytes < a.scope.creditBytes) := by
    rintro (hescapes | hless)
    · simp [asked, henv, hroot, hpaths] at hescapes
    · omega
  have hget : (reloaded items).items.get? a.req.idempotencyKey = some h := hid
  rw [hold_of_some rfl hsafe hget, if_neg (not_not_intro hm)]

/-! ## What a call does -/

def Call.Spared (a : Acceptance) : Call → Prop
  | .bindOwner id => a.req.idempotencyKey = id → a.scope.requireStop = true
  | _ => True

/-- **What a call does**, with what becomes of the accepted requests. -/
inductive Call.Effect (budget : ℕ) (l : ReservationLedger) (c : Call) : Prop
  | quiet (hsaves : c.saves budget l = none)
      (hrun : ∀ saved, (c.run budget l saved).unavailable = l.unavailable
        ∧ ∀ id, (c.run budget l saved).items.get? id = l.items.get? id)
      (haccepts : ∀ saved, ∀ a ∈ c.accepts budget l saved,
        l.unavailable = false ∧ Answered l.items a)
  | saved (items : Dict ℕ Hold) (hsaves : c.saves budget l = some items)
      (havailable : l.unavailable = false)
      (hrun : ∀ saved, (c.run budget l saved).items = items
        ∧ (c.run budget l saved).unavailable = !saved)
      (hwf : AllWellFormed l.items → AllWellFormed items)
      (hanswered : ∀ a, c.Spared a → Answered l.items a → Answered items a)
      (haccepts : ∀ a ∈ c.accepts budget l true, Answered items a)
      (hlost : c.accepts budget l false = [])

theorem Call.Effect.idle {c : Call} (hsaves : c.saves budget l = none)
    (hrun : ∀ saved, (c.run budget l saved).unavailable = l.unavailable
      ∧ (c.run budget l saved).items = l.items)
    (haccepts : ∀ saved, c.accepts budget l saved = []) : c.Effect budget l := by
  refine .quiet hsaves (fun saved => ⟨(hrun saved).1, fun id => ?_⟩) (fun saved a ha => ?_)
  · rw [(hrun saved).2]
  · rw [haccepts saved] at ha
    cases ha

theorem AllWellFormed.set (hw : AllWellFormed items) {id : ℕ} (hh : WellFormed id h) :
    AllWellFormed (items.set id h) := by
  grind [AllWellFormed]

theorem Answered.set_of_ne
    (ha : Answered items a) {id : ℕ} (hne : a.req.idempotencyKey ≠ id)
    (h : Hold) : Answered (items.set id h) a := by
  obtain ⟨h', hid, hrest⟩ := ha
  exact ⟨h', (Dict.get?_set_ne _ hne _).trans hid, hrest⟩

theorem wellFormed_new {req : ReservationRequest} {scope : HoldScope}
    (hroot : isAbsolute scope.root = true)
    (hpaths : scope.materializedPaths.all isAbsolute = true)
    (hcredit : scope.creditBytes ≤ req.diskBytes) (engines : ℕ) :
    WellFormed req.idempotencyKey
      ⟨reservationOf req engines, metadataOf req scope⟩ where
  memory_pos := req.memory_pos
  disk_pos := req.disk_pos
  root := fun r hr => by
    obtain rfl : scope.root = r := Option.some.inj hr
    exact hroot
  checks := by
    simpa [checked, identified, metadataOf, reservationOf, hcredit] using
      List.all_eq_true.mp hpaths

theorem hold_cases (budget : ℕ) (l : ReservationLedger)
    (req : ReservationRequest) (scope : HoldScope) (env : HoldEnv) :
    (∃ e, ∀ saved, l.hold budget req scope (asked scope env saved) = (.error e, l))
      ∨ (∃ h, l.unavailable = false ∧ l.items.get? req.idempotencyKey = some h
        ∧ h.metadata = metadataOf req scope
        ∧ ∀ saved, l.hold budget req scope (asked scope env saved)
          = (.ok (h.reservation, false), l))
      ∨ (l.unavailable = false ∧ l.items.get? req.idempotencyKey = none
        ∧ WellFormed req.idempotencyKey
          ⟨reservationOf req env.engineBytes, metadataOf req scope⟩
        ∧ ∀ saved, l.hold budget req scope (asked scope env saved)
          = (if saved then .ok (reservationOf req env.engineBytes, true)
              else .error .unavailable,
            { l with
              items := l.items.set req.idempotencyKey
                ⟨reservationOf req env.engineBytes, metadataOf req scope⟩
              unavailable := !saved })) := by
  cases havailable : l.unavailable with
  | true =>
    refine .inl ⟨.unavailable, fun saved => ?_⟩
    unfold hold
    rw [if_pos havailable]
  | false =>
    by_cases hescapes : (asked scope env true).pathSafe = false
        ∨ req.diskBytes < scope.creditBytes
    · refine .inl ⟨.unsafeScope, fun saved => ?_⟩
      unfold hold
      rw [havailable, if_neg Bool.false_ne_true]
      exact if_pos hescapes
    · -- neither the checks nor the admission look at the journal
      have hsafe : ∀ saved, ¬ ((asked scope env saved).pathSafe = false
          ∨ req.diskBytes < scope.creditBytes) := fun _ => hescapes
      cases hget : l.items.get? req.idempotencyKey with
      | some h =>
        by_cases hm : h.metadata = metadataOf req scope
        · grind [hold_of_some]
        · refine .inl ⟨.conflict, fun saved => ?_⟩
          rw [hold_of_some havailable (hsafe saved) hget, if_pos hm]
      | none =>
        cases hadm : l.admission budget req scope (asked scope env true) with
        | error e =>
          exact .inl ⟨e, fun saved =>
            hold_of_refused havailable (hsafe saved) hget hadm⟩
        | ok u =>
          obtain ⟨hpaths, hcredit⟩ := not_or.mp hescapes
          simp only [asked, Bool.not_eq_false, Bool.and_eq_true] at hpaths
          exact .inr (.inr ⟨rfl, rfl, wellFormed_new hpaths.1.2 hpaths.2
            (Nat.le_of_not_lt hcredit) _, fun saved =>
              hold_of_none havailable (hsafe saved) hget hadm⟩)

theorem effect_hold (budget : ℕ) (l : ReservationLedger)
    (req : ReservationRequest) (scope : HoldScope) (env : HoldEnv) :
    (Call.hold req scope env).Effect budget l := by
  rcases hold_cases budget l req scope env with
    ⟨e, hhold⟩ | ⟨h, havailable, hget, hm, hhold⟩ | ⟨havailable, hget, hw, hhold⟩
  · refine .idle ?_ (fun saved => ?_) (fun saved => ?_)
    · simp only [Call.saves, hhold]
    · simp only [Call.run, hhold, and_self]
    · simp only [Call.accepts, hhold]
  · refine .quiet ?_ (fun saved => ?_) (fun saved a ha => ?_)
    · simp only [Call.saves, hhold]
    · simp only [Call.run, hhold, true_and, implies_true]
    · simp only [Call.accepts, hhold, List.mem_singleton] at ha
      subst ha
      exact ⟨havailable, h, hget, hm, rfl⟩
  · refine .saved _ (by simp only [Call.saves, hhold]; rfl) havailable
      (fun saved => ?_) (fun hall => hall.set hw) (fun a _ ha => ?_)
      (fun a ha => ?_) ?_
    · simp only [Call.run, hhold, and_self]
    · -- the key is new, so the request has another one
      refine ha.set_of_ne (fun hkey => ?_) _
      obtain ⟨h, hid, -⟩ := ha
      rw [hkey, hget] at hid
      cases hid
    · simp only [Call.accepts, hhold, if_true, List.mem_singleton] at ha
      subst ha
      exact ⟨_, Dict.get?_set_self _ _ _, rfl, rfl⟩
    · simp only [Call.accepts, hhold, Bool.false_eq_true, if_false]

theorem WellFormed.protect {id : ℕ} (hw : WellFormed id h) : WellFormed id
      { h with metadata := { h.metadata with requireStop := true } } :=
  ⟨hw.memory_pos, hw.disk_pos, hw.root, hw.checks⟩

theorem WellFormed.released {id : ℕ} (hw : WellFormed id h) : WellFormed id
      { h with reservation := { h.reservation with state := .released } } :=
  ⟨hw.memory_pos, hw.disk_pos, hw.root, hw.checks⟩

theorem Call.Effect.of_absent {l : ReservationLedger} {c : Call} {id : ℕ}
    (hc : c = .bindOwner id ∨ ∃ confirmed, c = .release id confirmed)
    (h : l.unavailable = true ∨ l.items.get? id = none) : c.Effect budget l := by
  rcases hc with rfl | ⟨confirmed, rfl⟩
  · refine .idle ?_ (fun saved => ?_) (fun _ => rfl)
    · grind [Call.saves]
    · simp only [Call.run, ReservationLedger.bindOwner]
      grind
  · refine .idle ?_ (fun saved => ?_) (fun _ => rfl)
    · grind [Call.saves]
    · simp only [Call.run, ReservationLedger.release]
      grind

theorem exists_of_not_absent {l : ReservationLedger} {id : ℕ}
    (h : ¬ (l.unavailable = true ∨ l.items.get? id = none)) :
    l.unavailable = false ∧ ∃ hold, l.items.get? id = some hold := by
  rw [not_or, Bool.not_eq_true] at h
  exact ⟨h.1, Option.ne_none_iff_exists'.mp h.2⟩

theorem effect_bindOwner (budget : ℕ) (l : ReservationLedger) (id : ℕ) :
    (Call.bindOwner id).Effect budget l := by
  by_cases habsent : l.unavailable = true ∨ l.items.get? id = none
  · exact .of_absent (.inl rfl) habsent
  obtain ⟨havailable, h, hget⟩ := exists_of_not_absent habsent
  have hrun : ∀ saved, (Call.bindOwner id).run budget l saved = ⟨l.items.set id
          { h with metadata := { h.metadata with requireStop := true } },
        id :: l.owners, !h.metadata.requireStop && !saved⟩ := fun saved => by
    simp only [Call.run, bindOwner, havailable, hget, Bool.false_eq_true, if_false]
  cases hstop : h.metadata.requireStop with
  | true =>
    refine .idle ?_ (fun saved => ?_) (fun _ => rfl)
    · simp only [Call.saves, hget, Option.bind_some, hstop, if_true, ite_self]
    -- the hold is protected already
    have hsame : { h with metadata :=
        { h.metadata with requireStop := true } } = h := by
      rw [← hstop]
    rw [hrun, hstop, havailable, hsame, Dict.set_self hget]
    exact ⟨rfl, rfl⟩
  | false =>
    refine .saved _ ?_ havailable (fun saved => ?_)
      (fun hall => hall.set (hall id h hget).protect) (fun a hspared ha => ?_)
      (fun _ ha => absurd ha List.not_mem_nil) rfl
    · simp only [Call.saves, havailable, hget, Option.bind_some, hstop,
        Bool.false_eq_true, if_false]
      exact congrArg some (congrArg items (hrun true))
    · grind
    · -- a request that was accepted with `require_stop` has a protected hold
      refine ha.set_of_ne (fun hkey => ?_) _
      obtain ⟨h', hid, hm, -⟩ := ha
      obtain rfl : h = h' := Option.some.inj (hget.symm.trans (hkey ▸ hid))
      rw [hm] at hstop
      exact Bool.false_ne_true (hstop.symm.trans (hspared hkey))

theorem effect_release (budget : ℕ) (l : ReservationLedger) (id : ℕ)
    (confirmed : Bool) : (Call.release id confirmed).Effect budget l := by
  by_cases habsent : l.unavailable = true ∨ l.items.get? id = none
  · exact .of_absent (.inr ⟨confirmed, rfl⟩) habsent
  obtain ⟨havailable, h, hget⟩ := exists_of_not_absent habsent
  by_cases hkept : h.reservation.state = .released
      ∨ (h.metadata.requireStop ∧ ¬ (id ∈ l.owners ∧ confirmed = true))
  · refine .idle ?_ (fun saved => ?_) (fun _ => rfl)
    · simp only [Call.saves, hget, Option.bind_some, if_pos hkept, ite_self]
    · simp only [Call.run, release, havailable, hget, Bool.false_eq_true, if_false]
      split
      · exact ⟨havailable, rfl⟩
      · grind
  · obtain ⟨hheld, hstop⟩ := not_or.mp hkept
    have hrun : ∀ saved, (Call.release id confirmed).run budget l saved
        = ⟨l.items.set id { h with reservation :=
            { h.reservation with state := .released } },
          l.owners, !saved⟩ := fun saved => by
      simp only [Call.run, release, havailable, hget, Bool.false_eq_true,
        if_false, if_neg hheld, if_neg hstop]
      cases saved <;> simp only [Bool.false_eq_true, if_true, if_false,
        Bool.not_true, Bool.not_false]
    refine .saved _ ?_ havailable (fun saved => ?_)
      (fun hall => hall.set (hall id h hget).released) (fun a _ ha => ?_)
      (fun _ ha => absurd ha List.not_mem_nil) rfl
    · simp only [Call.saves, havailable, hget, Option.bind_some,
        Bool.false_eq_true, if_false, if_neg hkept]
      exact congrArg some (congrArg items (hrun true))
    · rw [hrun]
      exact ⟨rfl, rfl⟩
    · by_cases hkey : a.req.idempotencyKey = id
      · subst hkey
        obtain ⟨h', hid, hm, hr⟩ := ha
        obtain rfl : h = h' := Option.some.inj (hget.symm.trans hid)
        refine ⟨_, Dict.get?_set_self _ _ _, hm, ?_⟩
        show { h.reservation with state := .released }
          = { a.reservation with state := .released }
        rw [hr]
      · exact ha.set_of_ne hkey _

theorem effect (budget : ℕ) (l : ReservationLedger) (c : Call) : c.Effect budget l := by
  cases c with
  | hold req scope env => exact effect_hold budget l req scope env
  | bindOwner id => exact effect_bindOwner budget l id
  | release id confirmed => exact effect_release budget l id confirmed

/-! ## What a run keeps -/

def Kept (s : Journaled Text) : Prop :=
  ∃ items, load T s.file = some items
    ∧ (s.ledger.unavailable = false →
      ∀ id, items.get? id = s.ledger.items.get? id)
    ∧ ∀ a ∈ s.accepted, Answered items a

variable {T}

theorem Kept.restores (h : Kept T s) : Restores T s := by
  obtain ⟨items, hload, hsame, hanswered⟩ := h
  refine ⟨items, hload, hsame, fun a ha => ?_⟩
  obtain ⟨h, hid, hm, hr⟩ := hanswered a ha
  refine ⟨h.reservation, hr, by rw [hid]; rfl, fun budget env saved henv => ?_⟩
  exact hold_of_answered (wellFormed_of_load T hload) hid hm budget henv saved

theorem kept_start {file : Option Text}
    (hload : load T file = some items) : Kept T (start file items) :=
  ⟨items, hload, fun _ _ => rfl, fun _ ha => absurd ha List.not_mem_nil⟩

theorem Kept.quiet (h : Kept T s) {l : ReservationLedger} {accepted : List Acceptance}
    (hrun : l.unavailable = s.ledger.unavailable
      ∧ ∀ id, l.items.get? id = s.ledger.items.get? id)
    (haccepts : ∀ a ∈ accepted,
      s.ledger.unavailable = false ∧ Answered s.ledger.items a) :
    Kept T ⟨l, s.file, s.accepted ++ accepted⟩ := by
  obtain ⟨items, hload, hsame, hanswered⟩ := h
  refine ⟨items, hload, fun hav id => ?_, fun a ha => ?_⟩
  · grind
  rcases List.mem_append.mp ha with ha | ha
  · exact hanswered a ha
  · grind [Answered]

theorem Kept.landed {l : ReservationLedger} {accepted : List Acceptance}
    (hwf : AllWellFormed items)
    (hsize : T.size (T.dumps (journalJson T items)) ≤ maxJournalBytes)
    (hitems : l.items = items)
    (hanswered : ∀ a ∈ s.accepted ++ accepted, Answered items a) :
    Kept T ⟨l, some (T.dumps (journalJson T items)), s.accepted ++ accepted⟩ := by
  obtain ⟨items', hload, hsame⟩ := load_journal T hwf hsize
  exact ⟨items', hload, fun _ id => (hsame id).trans (by rw [hitems]),
    fun a ha => (hanswered a ha).congr hsame⟩

theorem spared_of_spares {c : Call} {write : Write}
    {budget : ℕ} (h : Spares T s (.call c write))
    (havailable : s.ledger.unavailable = false)
    (hsaves : c.saves budget s.ledger = some items) (hlands : Lands T write items)
    (ha : a ∈ s.accepted) : c.Spared a := by
  cases c with
  | hold req scope env => trivial
  | release id confirmed => trivial
  | bindOwner id =>
    intro hkey
    by_contra hstop
    refine h havailable ⟨a, ha, hkey, Bool.eq_false_of_not_eq_true hstop⟩ ?_
    have hitems : (s.ledger.bindOwner id true).items = items := by
      simp only [Call.saves, havailable, Bool.false_eq_true, if_false] at hsaves
      obtain ⟨hold, -, hbind⟩ := Option.bind_eq_some_iff.mp hsaves
      split at hbind
      · cases hbind
      · exact Option.some.inj hbind
    rw [hitems]
    exact hlands

theorem Kept.step (h : Kept T s) (budget : ℕ) {a : Label}
    (hspares : Spares T s a) : Kept T (step T budget s a) := by
  cases a with
  | restart =>
    obtain ⟨items, hload, -, hanswered⟩ := h
    have hstep : ReservationLedger.step T budget s .restart
        = { s with ledger := reloaded items } := by
      unfold ReservationLedger.step
      rw [hload]
    rw [hstep]
    exact ⟨items, hload, fun _ _ => rfl, hanswered⟩
  | call c write =>
    rcases effect budget s.ledger c with
      ⟨hsaves, hrun, haccepts⟩
      | ⟨items, hsaves, havailable, hrun, hwf, hanswers, haccepts, hlost⟩
    · show Kept T ⟨c.run budget s.ledger _, _, _⟩
      rw [hsaves]
      exact h.quiet (hrun true) (haccepts true)
    · have hall : AllWellFormed items := by
        obtain ⟨items₀, hload, hsame, -⟩ := h
        exact hwf ((wellFormed_of_load T hload).congr
          (fun id => (hsame havailable id).symm))
      have hold : ∀ a ∈ s.accepted, Answered s.ledger.items a := by
        obtain ⟨items₀, -, hsame, hanswered⟩ := h
        exact fun a ha => (hanswered a ha).congr (fun id => (hsame havailable id).symm)
      show Kept T ⟨c.run budget s.ledger _, _, _⟩
      rw [hsaves]
      dsimp only
      unfold save
      by_cases hlands : Lands T write items
      · rw [if_pos hlands]
        refine Kept.landed hall hlands.1 (hrun _).1 (fun a ha => ?_)
        rcases List.mem_append.mp ha with ha | ha
        · exact hanswers a (spared_of_spares hspares havailable hsaves hlands ha)
            (hold a ha)
        · cases hdone : decide (write = Write.done) with
          | true => grind
          | false => grind
      · -- the file is as it was, and the ledger cannot be used
        rw [if_neg hlands, hlost, List.append_nil]
        obtain ⟨items₀, hload, -, hanswered⟩ := h
        refine ⟨items₀, hload, fun hav => ?_, hanswered⟩
        rw [(hrun false).2] at hav
        cases hav

theorem metadata_of_hold {l : ReservationLedger} {budget : ℕ}
    {req : ReservationRequest} {scope : HoldScope} {env : HoldEnv} {saved : Bool}
    {r : Reservation} {created : Bool}
    (hhold : (l.hold budget req scope (asked scope env saved)).1 = .ok (r, created))
    (hget : l.items.get? req.idempotencyKey = some h) :
    h.metadata = metadataOf req scope := by
  rcases hold_cases budget l req scope env with
    ⟨e, herror⟩ | ⟨h', -, hget', hm, -⟩ | ⟨-, hnone, -⟩
  · rw [herror] at hhold
    cases hhold
  · grind
  · rw [hnone] at hget
    cases hget

/-- **Binding an owner to an unprotected hold breaks the replay** of its
request. -/
theorem Kept.not_restores (h : Kept T s) (budget : ℕ)
    {a : Label} (hspares : ¬ Spares T s a) :
    ¬ Restores T (ReservationLedger.step T budget s a) := by
  cases a with
  | restart => exact absurd trivial hspares
  | call c write =>
    cases c with
    | hold req scope env => exact absurd trivial hspares
    | release id confirmed => exact absurd trivial hspares
    | bindOwner id =>
      simp only [Spares, not_forall, not_not] at hspares
      obtain ⟨havailable, ⟨acc, hacc, rfl, hstop⟩, hlands⟩ := hspares
      obtain ⟨items₀, hload, hsame, hanswered⟩ := h
      obtain ⟨hold, hid, hm, -⟩ := (hanswered acc hacc).congr
        (fun id => (hsame havailable id).symm)
      have hwf : AllWellFormed s.ledger.items :=
        (wellFormed_of_load T hload).congr (fun id => (hsame havailable id).symm)
      have hunprotected : hold.metadata.requireStop = false := by
        rw [hm]
        exact hstop
      have hitems : (s.ledger.bindOwner acc.req.idempotencyKey true).items
          = s.ledger.items.set acc.req.idempotencyKey
            { hold with metadata := { hold.metadata with requireStop := true } } := by
        simp only [bindOwner, havailable, hid, Bool.false_eq_true, if_false]
      have hsaves : (Call.bindOwner acc.req.idempotencyKey).saves budget s.ledger
          = some (s.ledger.bindOwner acc.req.idempotencyKey true).items := by
        simp only [Call.saves, havailable, hid, Option.bind_some, hunprotected,
          Bool.false_eq_true, if_false]
      rintro ⟨items, hload', -, hrestored⟩
      obtain ⟨r, -, -, hanswer⟩ := hrestored acc (List.mem_append_left _ hacc)
      -- the journal has the hold as protected, and the request as it was
      have hget : items.get? acc.req.idempotencyKey
          = some { hold with
            metadata := { hold.metadata with requireStop := true } } := by
        obtain ⟨items', hread, hsame'⟩ := load_journal T
          (hitems ▸ hwf.set (hwf _ _ hid).protect) hlands.1
        have hfile : (ReservationLedger.step T budget s
            (.call (.bindOwner acc.req.idempotencyKey) write)).file
            = some (T.dumps (journalJson T
              (s.ledger.bindOwner acc.req.idempotencyKey true).items)) := by
          simp only [ReservationLedger.step, hsaves, save, if_pos hlands]
        rw [hfile, hread] at hload'
        obtain rfl : items' = items := Option.some.inj hload'
        rw [hsame', hitems, Dict.get?_set_self]
      have hmeta := metadata_of_hold (congrArg Prod.fst
        (hanswer 0 ⟨true, true, 0, fun _ => none, fun _ => none, 0, none, none, true⟩
          true rfl)) hget
      have hflag := congrArg HoldMetadata.requireStop hmeta
      exact Bool.false_ne_true (hstop.symm.trans hflag.symm)

/-- **The journal round trip.** -/
theorem reload_answers_accepted_iff (T : JournalText Text) (budget : ℕ)
    {file : Option Text} {items : Dict ℕ Hold}
    (hload : load T file = some items) (as : List Label) :
    Run.Throughout (step T budget) (Restores T) (start file items) as
      ↔ Run.Along (step T budget) (Spares T) (start file items) as :=
  Run.throughout_iff_along (Kept T) (fun _ h => h.restores)
    (fun _ _ h hspares => h.step budget hspares)
    (fun _ _ h hspares => h.not_restores budget hspares) (kept_start hload)

/-- Journals kept as their values, and identifiers as words of their length. -/
def plainText : JournalText JsonValue where
  dumps := id
  loads := some
  size := fun _ => 0
  loads_dumps := fun _ _ => rfl
  uuidText := fun n => String.ofList (List.replicate n 'a')
  uuid := fun s => some s.length
  uuid_uuidText := fun n => by simp

/-- A request for a byte of memory and two of disk, under the key `1`. -/
def sampleRequest : ReservationRequest := ⟨1, 2, 3, 1, 2, by decide, by decide⟩

def sampleScope (requireStop : Bool) : HoldScope :=
  ⟨"/store", 7, 0, requireStop, 0, [], none⟩

def sampleEnv : HoldEnv :=
  ⟨true, true, 0, fun _ => none, fun _ => some 7, 100, some 0, none, true⟩

def sampleRun (requireStop : Bool) : List Label :=
  [.call (.hold sampleRequest (sampleScope requireStop) sampleEnv) .done,
    .call (.bindOwner 1) .done]

/-- A protected hold survives the binding of its owner. -/
theorem reload_answers_protected : load plainText none = some Dict.empty
      ∧ Run.Throughout (step plainText 100) (Restores plainText)
        (start none Dict.empty) (sampleRun true ++ [.restart]) := by
  refine ⟨rfl, (reload_answers_accepted_iff plainText 100 rfl _).mpr
    ⟨trivial, fun _ h => ?_, trivial, trivial⟩⟩
  obtain ⟨a, ha, -, hstop⟩ := h
  obtain rfl : a = ⟨sampleRequest, sampleScope true,
    ⟨1, .held, 1, 2, []⟩⟩ := List.mem_singleton.mp ha
  exact absurd hstop (by decide)

/-- **Binding an owner makes a request conflict with its own hold**, once the ledger is
made anew. -/
theorem bound_hold_conflicts : (Run.last (step plainText 100) (start none Dict.empty)
        (sampleRun false)).ledger.unavailable = false
      ∧ (Run.last (step plainText 100) (start none Dict.empty)
        (sampleRun false)).accepted
          = [⟨sampleRequest, sampleScope false, ⟨1, .held, 1, 2, []⟩⟩]
      ∧ (load plainText (Run.last (step plainText 100) (start none Dict.empty)
        (sampleRun false)).file).map (fun items =>
          ((reloaded items).hold 100 sampleRequest (sampleScope false)
            (asked (sampleScope false) sampleEnv true)).1)
        = some (.error .conflict) :=
  ⟨rfl, rfl, rfl⟩

end ReservationLedger
