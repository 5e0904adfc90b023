import Coire.AdmissionPlan

/-!
# Admission run a second time

The admission pass is part of a durable step, which starts over after a crash, an
exception or a maintenance wait. By then the decision's own reservation is pending in
the ledger and the planned evictions may be done. The pass counts every pending row of
the node, its own too, and then adds what the decision needs once more. So a second pass
evicts nothing exactly when the bytes the decision needs fit *twice* beside the rows
that stay (`ReservationTable.replay_iff`).
-/

namespace ReservationTable

variable {p : RowKey → Bool}

theorem any_activeRows {t : ReservationTable} {node : ℕ} :
    (t.activeRows node).any (fun e => p e.1) = true
      ↔ ∃ k r, t.get? k = some r ∧ k.node = node ∧ r.state.active = true
        ∧ p k = true := by
  grind [activeRows, List.any_filter, Dict.any_items]

/-! ## The ledger after the first pass -/

def release (t : ReservationTable) (vs : List RowKey) : ReservationTable :=
  t.mapValues (fun k r => if k ∈ vs then { r with state := .released } else r)

variable {t : ReservationTable} {budget : ℕ} {target : PlacementTarget}
  {env : PassEnv} {now : ℤ} {vs : List RowKey}

/-- What the target's own row counts after the evictions: nothing if it was
one of them. -/
def ownBytes (target : PlacementTarget) (vs : List RowKey) : ℕ :=
  if target.key ∈ vs then 0 else target.requiredBytes

/-- What stays of the other rows after the evictions. -/
def keptTotal (t : ReservationTable) (target : PlacementTarget)
    (vs : List RowKey) (p : RowKey → Bool) : ℕ :=
  t.activeTotal target.key.node (fun k =>
    p k && decide (k ≠ target.key) && decide (k ∉ vs))

theorem activeTotal_release (hp : p target.key = true) :
    ((t.recordPending target now).release vs).activeTotal target.key.node p
      = t.keptTotal target vs p + ownBytes target vs := by
  unfold keptTotal activeTotal release recordPending
  rw [Dict.total_mapValues, Dict.total_set_split]
  congr 1
  · refine Dict.total_congr (fun k r _ => ?_)
    by_cases hk : k = target.key
    · simp [hk]
    · by_cases hv : k ∈ vs
      · simp [hk, hv, MemoryReservationState.active]
      · simp [hk, hv]
  · unfold ownBytes
    by_cases hv : target.key ∈ vs
    · simp [hv, MemoryReservationState.active]
    · cases t.get? target.key <;> simp [hv, hp, MemoryReservationState.active]

theorem get?_release_of_ne {k : RowKey} (hk : k ≠ target.key) (hv : k ∉ vs) :
    ((t.recordPending target now).release vs).get? k = t.get? k := by
  unfold release recordPending
  rw [Dict.get?_mapValues, Dict.get?_set_ne _ hk]
  cases t.get? k with
  | none => rfl
  | some r => rw [Option.map_some, if_neg hv]

theorem any_release (hp : ∀ k, p k = true → k.holderType ≠ .model)
    (hvs : ∀ k ∈ vs, k.holderType = .model) (node : ℕ) :
    (((t.recordPending target now).release vs).activeRows node).any (fun e => p e.1)
      = (t.activeRows node).any (fun e => p e.1) := by
  have hsame : ∀ k, p k = true →
      ((t.recordPending target now).release vs).get? k = t.get? k := by
    intro k hk
    refine get?_release_of_ne ?_ (fun hv => hp k hk (hvs k hv))
    rintro rfl
    exact hp _ hk target.model
  rw [Bool.eq_iff_iff, any_activeRows, any_activeRows]
  constructor
  · grind
  · grind

theorem get?_release_target (t : ReservationTable) (target : PlacementTarget)
    (now : ℤ) (vs : List RowKey) :
    ∃ r, ((t.recordPending target now).release vs).get? target.key = some r
      ∧ r.bytes = target.requiredBytes
      ∧ r.state = if target.key ∈ vs then .released else .pending := by
  unfold release recordPending
  rw [Dict.get?_mapValues, Dict.get?_set_self, Option.map_some]
  refine ⟨_, rfl, ?_, ?_⟩
  · split <;> cases t.get? target.key <;> rfl
  · split <;> cases t.get? target.key <;> rfl

theorem bytes_of_release {counts : RowKey → ℕ}
    (h : ∀ c ∈ t.candidates target.key.node counts, c.bytes ≠ 0) :
    ∀ c ∈ ((t.recordPending target now).release vs).candidates target.key.node
      counts, c.bytes ≠ 0 := by
  intro c hc
  obtain ⟨r, hr, hnode, hmodel, hheld, hceq⟩ := row_of_candidates hc
  have htarget : c.reservationId ≠ target.key := by
    intro hk
    obtain ⟨r', hr', -, hstate⟩ := get?_release_target t target now vs
    rw [← hk, hr] at hr'
    rw [← Option.some.inj hr', hheld] at hstate
    split at hstate <;> cases hstate
  have hvictim : c.reservationId ∉ vs := by
    intro hv
    unfold release at hr
    rw [Dict.get?_mapValues] at hr
    obtain ⟨r', -, rfl⟩ := Option.map_eq_some_iff.mp hr
    rw [if_pos hv] at hheld
    cases hheld
  rw [get?_release_of_ne htarget hvictim] at hr
  refine h c (List.mem_map.mpr ⟨(c.reservationId, r), ?_, hceq.symm⟩)
  have hrow : (c.reservationId, r) ∈ t.activeRows target.key.node :=
    List.mem_filter.mpr ⟨Dict.mem_items.mpr hr, by simp [hnode, hheld,
      MemoryReservationState.active]⟩
  exact List.mem_filter.mpr ⟨hrow, by simp [evictionCandidate, hmodel, hheld]⟩

/-! ## The second pass -/

def victims (t : ReservationTable) (budget : ℕ) (target : PlacementTarget)
    (env : PassEnv) : List RowKey :=
  ((effectiveOccupiedBytes (t.activeRows target.key.node) env.measured).bind
    (fun occupied => t.passVictims budget target occupied env)).getD []

/-- **Room for the target twice.** If its own row was a victim, the row is reactivated,
which needs a node without training. -/
def RoomTwice (t : ReservationTable) (budget : ℕ) (target : PlacementTarget)
    (env : PassEnv) : Prop :=
  let vs := t.victims budget target env
  t.keptTotal target vs (fun _ => true) + ownBytes target vs
      + overage env.measured
        (t.keptTotal target vs (fun k => k.holderType.resident)
          + ownBytes target vs)
      + target.requiredBytes ≤ budget
    ∧ (target.key ∈ vs → t.trainingHeld target.key.node = false)

theorem passVictims_ne_nil {occupied : ℕ}
    (hshort : 0 < occupied + target.requiredBytes - budget) :
    t.passVictims budget target occupied env ≠ some [] := by
  intro h
  rcases Option.or_eq_some_iff.mp h with h | ⟨-, h⟩
  · exact Candidate.lruVictims_ne_nil hshort h
  · obtain ⟨counts, -, h⟩ := Option.bind_eq_some_iff.mp h
    exact Candidate.lruVictims_ne_nil hshort h

theorem fenced_release (hvs : ∀ k ∈ vs, k.holderType = .model) :
    ((t.recordPending target now).release vs).fenced target.key
        target.requiredBytes = true
      ↔ target.key ∈ vs ∧ t.trainingHeld target.key.node = true := by
  obtain ⟨r, hr, hbytes, hstate⟩ :=
    get?_release_target t target now vs
  have htrain : ((t.recordPending target now).release vs).trainingHeld
      target.key.node = t.trainingHeld target.key.node :=
    any_release (p := fun k => decide (k.holderType = .training))
      (fun k hk => by rw [of_decide_eq_true hk]; decide) hvs _
  unfold fenced
  rw [htrain, hr, Option.all_some, hbytes, hstate, Bool.and_eq_true]
  by_cases hv : target.key ∈ vs
  · simp [hv]
  · simp [hv]

/-- **When a second pass evicts nothing**: after an admitted first pass, with its
reservation pending and the victims released, exactly if there is room for the decision
twice. -/
theorem replay_iff {plan : AdmissionPlan} {t₁ : ReservationTable} (now' : ℤ)
    (h : t.admissionPass budget target env now = .admitted plan t₁) :
    (∃ plan' t', (t₁.release plan.evictions).admissionPass budget target env
        now' = .admitted plan' t' ∧ plan'.evictions = [])
      ↔ t.RoomTwice budget target env := by
  obtain ⟨hopen, hmix, hsmoke, -, rfl, occupied, hocc, hplan⟩ :=
    admissionPass_admitted h
  obtain ⟨hpos, hvictims⟩ := planPass_ok hplan
  have hvs : ∀ k ∈ plan.evictions, k.holderType = .model :=
    fun k hk => by
      obtain ⟨r, -, -, hm, -⟩ := row_of_passVictims hvictims hk
      exact hm
  have hsame : t.victims budget target env = plan.evictions := by
    unfold victims
    rw [hocc, Option.bind_some, hvictims, Option.getD_some]
  have hunm : ((t.recordPending target now).release plan.evictions).unmeasured
      target.key.node = t.unmeasured target.key.node :=
    any_release (p := fun k => k.holderType.mustBeMeasured)
      (fun k hk hm => by rw [hm] at hk; exact absurd hk (by decide)) hvs _
  have hocc₂ := effectiveOccupiedBytes_eq
    ((t.recordPending target now).release plan.evictions) target.key.node
    env.measured
  rw [effectiveOccupiedBytes_eq] at hocc
  rw [hunm, if_neg (fun hc => by rw [if_pos hc] at hocc; exact absurd hocc (by simp)),
    activeTotal_release rfl,
    activeTotal_release (by rw [target.model]; rfl)] at hocc₂
  unfold RoomTwice
  rw [hsame]
  dsimp only
  constructor
  · rintro ⟨plan', t', hpass, hnil⟩
    obtain ⟨-, -, -, hfence, -, occupied', hocc', hplan'⟩ :=
      admissionPass_admitted hpass
    obtain rfl := Option.some.inj (hocc₂.symm.trans hocc')
    refine ⟨?_, ?_⟩
    · by_contra hshort
      refine passVictims_ne_nil ?_ (hnil ▸ (planPass_ok hplan').2)
      omega
    · grind [fenced_release]
  · rintro ⟨hroom, htrain⟩
    obtain ⟨plan', hpass, hnil⟩ := admissionPass_of_room now' hopen hmix
      (by rw [← hsmoke]; exact congrArg _ hunm)
      (Bool.eq_false_iff.mpr (fun hf => by
        obtain ⟨hv, ht⟩ := (fenced_release hvs).mp hf
        rw [htrain hv] at ht
        exact absurd ht (by decide)))
      hocc₂ hpos (bytes_of_release (bytes_of_planPass hplan).2) hroom
    exact ⟨plan', _, hpass, hnil⟩

def sixBytes : PlacementTarget := ⟨⟨0, .model, 1⟩, 6, false, rfl⟩

/-- Nothing fences the node, nothing is measured, nothing is in flight. -/
def quietEnv : PassEnv := ⟨true, true, false, false, none, fun _ => 0, none⟩

def oneHeld : ReservationTable :=
  Dict.empty.set ⟨0, .model, 2⟩ ⟨16, false, .held, 0⟩

/-- On a node of 20 the model that is held is evicted, and then there is room
twice. -/
theorem replay_iff_evicting : oneHeld.admissionPass 20 sixBytes quietEnv 0
        = .admitted ⟨[⟨0, .model, 2⟩], [⟨⟨0, .model, 2⟩, 16, .eligible⟩]⟩
          (oneHeld.recordPending sixBytes 0)
      ∧ ∃ plan' t', ((oneHeld.recordPending sixBytes 0).release
          [⟨0, .model, 2⟩]).admissionPass 20 sixBytes quietEnv 1
            = .admitted plan' t' ∧ plan'.evictions = [] := by
  have h : oneHeld.admissionPass 20 sixBytes quietEnv 0
      = .admitted ⟨[⟨0, .model, 2⟩], [⟨⟨0, .model, 2⟩, 16, .eligible⟩]⟩
        (oneHeld.recordPending sixBytes 0) := rfl
  exact ⟨h, (replay_iff 1 h).mpr ⟨by decide, by decide⟩⟩

/-- **An admitted decision is refused the second time**, as its own reservation occupies
the node. -/
theorem replay_refused : ∃ plan t₁, admissionPass Dict.empty 10 sixBytes quietEnv 0
        = .admitted plan t₁
      ∧ plan.evictions = []
      ∧ (t₁.release plan.evictions).admissionPass 10 sixBytes quietEnv 1
        = .unplanned (.refused [] false) :=
  ⟨_, _, rfl, rfl, rfl⟩

end ReservationTable
