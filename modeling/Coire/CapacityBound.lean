import Coire.LoadedCapacity
import Coire.Run

/-!
# Competing loads do not share a freed reservation

Between the admission of a decision and its load, another decision of the same model may
take over the reservation, fail it, or have its own load for it still under way, and a
victim may be gone, loaded again and moved to releasing once more. The reserve-and-load
transaction writes the reservation pending again without asking for room, so that two
loads may be let into one freed reservation. Without such a transaction the bytes taken
on a node never exceed its budget (`Placement.loadedBytes_le_budget`).
-/

namespace Placement

/-! ## Steps that meet what they expect -/

/-- No load of the reservation is open, and none of the decision has
succeeded. -/
def unclaimed (s : Placement) (d : ℕ) (k : RowKey) : Bool :=
  s.commands.items.all (fun e =>
    !(decide (e.1.operation = .load) && decide (e.1.row = k))
      || !e.2.isOpen && !(decide (e.1.decision = d) && decide (e.2 = .succeeded)))

def stateAmong (s : Placement) (k : RowKey)
    (states : List MemoryReservationState) : Bool :=
  (s.rows.get? k).any (fun r => decide (r.state ∈ states))

/-- **The step finds its reservation as it left it.** -/
def proper (s : Placement) : Step → Bool
  | .admission d _ =>
    match s.pc? d, s.decisions.get? d with
    | some (.nodes (n :: _) _ _ _), some decision =>
      s.unclaimed d (decision.target n).key
    | _, _ => true
  | .evict d true =>
    match s.pc? d with
    | some (.evict _ (v :: _)) => s.stateAmong v [.held, .releasing]
        && decide (s.commands.get? ⟨d, .unload, v⟩ ≠ some .succeeded)
    | _ => true
  | .reserve d _ =>
    match s.pc? d, s.decisions.get? d with
    | some (.evict n []), some decision =>
      s.stateAmong (decision.target n).key [.pending]
        && (s.admissions.get? (decision.target n).key).any (fun a =>
          decide (a.decision = d))
    | _, _ => true
  | .execApply =>
    match s.executor with
    | .running ⟨_, .load, k⟩ => s.stateAmong k [.pending, .held]
    | _ => true
  | _ => true

variable {budget : ℕ → ℕ} {s s' : Placement} {k v : RowKey} {d n : ℕ}

theorem stateAmong_iff {states : List MemoryReservationState} :
    s.stateAmong k states = true ↔ ∃ r, s.rows.get? k = some r ∧ r.state ∈ states := by
  unfold stateAmong
  rw [Option.any_eq_true]
  constructor
  · grind
  · grind

theorem unclaimed_iff : s.unclaimed d k = true
    ↔ ∀ e st, s.commands.get? ⟨e, .load, k⟩ = some st →
      st.isOpen = false ∧ (e = d → st ≠ .succeeded) := by
  unfold unclaimed
  rw [List.all_eq_true]
  constructor
  · intro h e st hc
    have := h (⟨e, .load, k⟩, st) (Dict.mem_items.mpr hc)
    simp only [decide_true, Bool.and_self, Bool.not_true, Bool.false_or,
      Bool.and_eq_true, Bool.not_eq_true', Bool.and_eq_false_iff,
      decide_eq_false_iff_not] at this
    exact ⟨this.1, fun he hs => this.2.elim (fun h => h he) (fun h => h hs)⟩
  · rintro h ⟨⟨e, op, j⟩, st⟩ hc
    rw [Bool.or_eq_true, Bool.not_eq_true', Bool.and_eq_false_iff,
      decide_eq_false_iff_not, decide_eq_false_iff_not]
    by_cases hop : op = .load
    · by_cases hj : j = k
      · subst hop hj
        obtain ⟨hopen, hne⟩ := h e st (Dict.mem_items.mp hc)
        refine Or.inr ?_
        rw [hopen, Bool.not_false, Bool.true_and, Bool.not_eq_true',
          Bool.and_eq_false_iff, decide_eq_false_iff_not,
          decide_eq_false_iff_not]
        by_cases he : e = d
        · exact Or.inr (hne he)
        · exact Or.inl he
      · exact Or.inl (Or.inr hj)
    · exact Or.inl (Or.inl hop)

/-! ## What steps do to the tables -/

structure Fades (r r' : MemoryReservationRow) : Prop where
  bytes : r'.bytes = r.bytes
  active : r'.state.active = true → r.state.active = true
  resident : r'.state = .held ∨ r'.state = .releasing →
    r.state = .held ∨ r.state = .releasing

variable {c : CommandId} {r : MemoryReservationRow}

theorem Fades.of_state {r' : MemoryReservationRow}
    (hb : r'.bytes = r.bytes) (hs : r'.state = r.state) : Fades r r' :=
  ⟨hb, fun h => hs ▸ h, fun h => hs ▸ h⟩

theorem Fades.of_inactive {r' : MemoryReservationRow}
    (hb : r'.bytes = r.bytes) (hs : r'.state.active = false) : Fades r r' := by
  refine ⟨hb, fun h => absurd (hs.symm.trans h) Bool.false_ne_true, ?_⟩
  rintro (h | h) <;> rw [h] at hs <;> exact absurd hs.symm Bool.false_ne_true

def RowsFade (s s' : Placement) : Prop :=
  ∀ k r', s'.rows.get? k = some r' →
    ∃ r, s.rows.get? k = some r ∧ Fades r r'

theorem rowsFade_of_rows (h : s'.rows = s.rows) : RowsFade s s' :=
  fun _ r' hr' => ⟨r', h ▸ hr', Fades.of_state rfl rfl⟩

theorem rowsFade_modify {j : RowKey} {f : MemoryReservationRow → MemoryReservationRow}
    (h : s'.rows = s.rows.modify j f)
    (hf : ∀ r, s.rows.get? j = some r → Fades r (f r)) : RowsFade s s' := by
  intro k r' hr'
  rw [h, Dict.get?_modify] at hr'
  split at hr'
  · rename_i hk
    obtain ⟨r, hr, rfl⟩ := Option.map_eq_some_iff.mp hr'
    exact ⟨r, hk ▸ hr, hf r hr⟩
  · exact ⟨r', hr', Fades.of_state rfl rfl⟩

theorem RowsFade.shrinks (h : RowsFade s s') : Shrinks s s' := by
  intro k r' hr' hact'
  obtain ⟨r, hr, hf⟩ := h k r' hr'
  exact ⟨r, hr, hf.active hact', hf.bytes⟩

theorem RowsFade.resident (h : RowsFade s s') (k : RowKey)
    (hk : s'.Resident k) : s.Resident k := by
  obtain ⟨r', hr', hs⟩ := hk
  obtain ⟨r, hr, hf⟩ := h k r' hr'
  exact ⟨r, hr, hf.resident hs⟩

theorem pcs_modify {w : Workflow → Workflow} (h : s'.workflows = s.workflows.modify d w)
    (hw : ∀ x, (w x).pc.pursuing = none) (e : ℕ) (pc : WorkflowPc)
    (hpc : s'.pc? e = some pc) (hne : pc.pursuing ≠ none) :
    s.pc? e = some pc := by
  rcases pc_modify h hpc with ⟨-, x, rfl⟩ | ⟨-, hold⟩
  · exact absurd (hw x) hne
  · exact hold

/-! ## The transactions of a decision -/

theorem KeepsLoads.of_commands (h : s'.commands = s.commands) : KeepsLoads s s' :=
  fun _ st' hc _ _ => ⟨st', h ▸ hc, Or.inl rfl⟩

theorem Orderly.evicted (h : s.Orderly budget) {vs : List RowKey}
    (hold : s.pc? d = some (.evict n (v :: vs))) (hv : s.Resident v)
    (hnot : s.commands.get? ⟨d, .unload, v⟩ ≠ some .succeeded) :
    (((s.setState v .releasing).queue ⟨d, .unload, v⟩).goto d
      (.awaitUnload n v vs)).Orderly budget := by
  have hfade : RowsFade s (((s.setState v .releasing).queue
      ⟨d, .unload, v⟩).goto d (.awaitUnload n v vs)) := by
    refine rowsFade_modify rfl (fun r hr => ⟨rfl, fun _ => ?_, fun _ => ?_⟩)
    · obtain ⟨r', hr', hact⟩ := hv.active
      obtain rfl := Option.some.inj (hr.symm.trans hr')
      exact hact
    · obtain ⟨r', hr', hs⟩ := hv
      obtain rfl := Option.some.inj (hr.symm.trans hr')
      exact hs
  have hload : ∀ c : CommandId, c.operation = .load →
      (s.queue ⟨d, .unload, v⟩).commands.get? c = s.commands.get? c := by
    refine fun c hop => get?_queue_ne ?_
    rintro rfl
    exact absurd hop Operation.noConfusion
  have hloads : KeepsLoads s (((s.setState v .releasing).queue
      ⟨d, .unload, v⟩).goto d (.awaitUnload n v vs)) :=
    fun c st' hc hop _ => ⟨st', hload c hop ▸ hc, Or.inl rfl⟩
  have hs : Steady s (((s.setState v .releasing).queue
      ⟨d, .unload, v⟩).goto d (.awaitUnload n v vs)) :=
    ⟨rfl, rfl, hfade.shrinks, keepsDecisions_of_eq rfl⟩
  refine h.steady hs (fun k hk => Or.inl (hs.loaded hloads (fun k hk =>
    loaded_iff.mpr (Or.inl (hfade.resident k hk))) hk)) ?_ ?_ ?_ ?_
    (hloads.loading h)
  · -- the workflow pursues what it pursued before
    intro k adm pc us hk hpc hus
    rcases pc_modify rfl hpc with ⟨he, x, rfl⟩ | ⟨-, hpc'⟩
    · exact h.pursued k adm (.evict n (v :: vs)) us hk (he ▸ hold) hus
    · exact h.pursued k adm pc us hk hpc' hus
  · intro k adm u us hk hpc hdone
    refine hs.cleared ?_
    rcases pc_modify rfl hpc with ⟨he, x, hx⟩ | ⟨-, hpc'⟩
    · -- its unload is not confirmed: the victim is there
      obtain ⟨-, rfl, -⟩ := WorkflowPc.awaitUnload.inj hx
      rw [he] at hdone
      rcases hdone with hdone | hdone
      · exact absurd (succeeded_of_queue hdone) hnot
      · exact absurd hv (h.applied _ hdone rfl)
    · exact h.unloaded k adm u us hk hpc' (hdone.imp succeeded_of_queue id)
  · intro c hc hop hk
    exact h.applied c hc hop (hfade.resident _ hk)
  · intro c hc hop
    exact (hload c hop).trans (h.running c hc hop)

theorem Orderly.unloadSeen (h : s.Orderly budget) {vs : List RowKey}
    (hold : s.pc? d = some (.awaitUnload n v vs))
    (hc : s.commands.get? ⟨d, .unload, v⟩ = some .succeeded) :
    (s.goto d (.evict n vs)).Orderly budget := by
  have hs : Steady s (s.goto d (.evict n vs)) :=
    ⟨rfl, rfl, (rowsFade_of_rows rfl).shrinks, keepsDecisions_of_eq rfl⟩
  refine h.steady hs (fun k hk => Or.inl hk) ?_ ?_ h.applied h.running h.loading
  · intro k adm pc us hk hpc hus u hu
    rcases pc_modify rfl hpc with ⟨he, x, rfl⟩ | ⟨-, hpc'⟩
    · obtain ⟨rfl, rfl⟩ := Prod.mk.inj (Option.some.inj hus)
      rcases h.pursued k adm _ _ hk (he ▸ hold) rfl u hu with hmem | hclear
      · grind [cases Orderly]
      · exact Or.inr hclear
    · exact h.pursued k adm pc us hk hpc' hus u hu
  · intro k adm u us hk hpc hdone
    rcases pc_modify rfl hpc with ⟨-, x, hx⟩ | ⟨-, hpc'⟩
    · exact absurd hx WorkflowPc.noConfusion
    · exact h.unloaded k adm u us hk hpc' hdone

theorem get?_recordPending (t : ReservationTable) (target : PlacementTarget)
    (now : ℤ) : ∃ r, (t.recordPending target now).get? target.key = some r
      ∧ r.bytes = target.requiredBytes ∧ r.state = .pending := by
  unfold ReservationTable.recordPending
  rw [Dict.get?_set_self]
  refine ⟨_, rfl, ?_, ?_⟩ <;> cases t.get? target.key <;> rfl

theorem get?_recordPending_of_ne (t : ReservationTable)
    {target : PlacementTarget} (now : ℤ) (h : k ≠ target.key) :
    (t.recordPending target now).get? k = t.get? k :=
  Dict.get?_set_ne t h _

theorem resident_of_recordPending {target : PlacementTarget} {now : ℤ}
    (h : s'.rows = s.rows.recordPending target now) (hk : s'.Resident k) :
    k ≠ target.key ∧ s.Resident k := by
  obtain ⟨r', hr', hs⟩ := hk
  rw [h] at hr'
  have hne : k ≠ target.key := by
    rintro rfl
    obtain ⟨r, hr, -, hp⟩ := get?_recordPending s.rows target now
    obtain rfl := Option.some.inj (hr.symm.trans hr')
    rw [hp] at hs
    exact hs.elim MemoryReservationState.noConfusion MemoryReservationState.noConfusion
  rw [get?_recordPending_of_ne _ _ hne] at hr'
  exact ⟨hne, r', hr', hs⟩

section Reserved

variable {decision : PlacementDecision} {adm : Admission}
  {r : MemoryReservationRow}

theorem Orderly.room_made (h : s.Orderly budget) (hold : s.pc? d = some (.evict n []))
    (hadm : s.admissions.get? k = some adm) (hours : adm.decision = d)
    (hnode : k.node = n) : ∀ v ∈ s.victims k, s.Cleared v (s.stamp k) := by
  intro v hv
  unfold victims at hv
  unfold stamp
  rw [hadm, Option.elim_some] at hv ⊢
  rcases h.pursued k adm (.evict n []) [] hadm (hours ▸ hold)
    (by rw [hnode]; rfl) v hv with hmem | hclear
  · exact absurd hmem List.not_mem_nil
  · exact hclear

theorem Orderly.steady_record (h : s.Orderly budget)
    (hd : s.decisions.get? d = some decision)
    (hadm : s.admissions.get? (decision.target n).key = some adm)
    (hours : adm.decision = d)
    (hr : s.rows.get? (decision.target n).key = some r)
    (hact : r.state.active = true)
    (hrows : s'.rows = s.rows.recordPending (decision.target n) s.now)
    (hser : s'.serial = s.serial) (hadm' : s'.admissions = s.admissions)
    (hdec : KeepsDecisions s s') : Steady s s' := by
  refine ⟨hser, hadm', ?_, hdec⟩
  intro j r' hr' hact'
  rw [hrows] at hr'
  by_cases hj : j = (decision.target n).key
  · obtain ⟨r₁, hr₁, hb, -⟩ :=
      get?_recordPending s.rows (decision.target n) s.now
    rw [hj, hr₁, Option.some.injEq] at hr'
    obtain ⟨dec, hdec₁, hdb, -⟩ := h.ours _ adm hadm
    rw [hours, hd, Option.some.injEq] at hdec₁
    refine ⟨r, hj ▸ hr, hact, ?_⟩
    calc r'.bytes = decision.requiredBytes := by rw [← hr', hb]; rfl
      _ = adm.bytes := by rw [hdec₁, hdb]
      _ = r.bytes := (h.bytes _ adm r hadm hr hact).symm
  · rw [get?_recordPending_of_ne _ _ hj] at hr'
    exact ⟨r', hr', hact', rfl⟩

theorem Orderly.reserved (h : s.Orderly budget) (hold : s.pc? d = some (.evict n []))
    (hd : s.decisions.get? d = some decision)
    (hadm : s.admissions.get? (decision.target n).key = some adm)
    (hours : adm.decision = d)
    (hr : s.rows.get? (decision.target n).key = some r)
    (hpending : r.state = .pending) :
    ((((s.record (decision.target n)).queue
      ⟨d, .load, (decision.target n).key⟩).updateDecision d (fun r =>
        { r with state := .loading })).goto d (.awaitLoad n)).Orderly
      budget := by
  set s' := (((s.record (decision.target n)).queue
    ⟨d, .load, (decision.target n).key⟩).updateDecision d (fun r =>
      { r with state := .loading })).goto d (.awaitLoad n)
  have hrows : s'.rows = s.rows.recordPending (decision.target n) s.now := rfl
  have hs : Steady s s' := h.steady_record hd hadm hours hr
    (by rw [hpending]; rfl) hrows rfl rfl
    (keepsDecisions_modify rfl (fun _ => ⟨rfl, rfl, rfl⟩))
  refine h.steady hs ?_ ?_ ?_ ?_ (fun c hc hop =>
    get?_queue_of_some (s := s) (h.running c hc hop)) ?_
  · intro j hj
    by_cases hjk : j = (decision.target n).key
    · exact Or.inr (h.room_made hold (hjk ▸ hadm) hours (hjk ▸ rfl))
    refine Or.inl ?_
    rcases loaded_iff.mp hj with hres | ⟨hact, hq⟩
    · exact loaded_iff.mpr (Or.inl (resident_of_recordPending hrows hres).2)
    refine loaded_iff.mpr (Or.inr ⟨hs.active hact, loadQueued_iff.mpr ?_⟩)
    obtain ⟨e, st, hc, hst⟩ := loadQueued_iff.mp hq
    exact ⟨e, st, (get?_queue_ne (fun heq =>
      hjk (CommandId.mk.inj heq).2.2)).symm.trans hc, hst⟩
  · intro j adm' pc us hj hpc hus
    have := pcs_modify rfl (fun _ => rfl) _ pc hpc
      (by rw [hus]; exact Option.some_ne_none _)
    exact h.pursued j adm' pc us hj this hus
  · intro j adm' u us hj hpc hdone
    have := pcs_modify rfl (fun _ => rfl) _ _ hpc (Option.some_ne_none _)
    exact hs.cleared (h.unloaded j adm' u us hj this (hdone.imp succeeded_of_queue id))
  · intro c hc hop hres
    exact h.applied c hc hop (resident_of_recordPending hrows hres).2
  · intro c st hc hop hopen
    by_cases heq : c = ⟨d, .load, (decision.target n).key⟩
    · rw [heq]
      exact ⟨adm, hadm, hours⟩
    · exact h.loading c st ((get?_queue_ne heq).symm.trans hc) hop hopen

end Reserved

section Admitted

variable {decision : PlacementDecision} {plan : AdmissionPlan}
  {rows : ReservationTable} {ns : List ℕ} {wait profile : Bool}
  {occupants : List PlacementOccupant} {env : AdmitEnv}

theorem admissions_admitted_self (target : PlacementTarget) :
    (s.admitted d target plan rows).admissions.get? target.key
      = some ⟨s.serial + 1, d, target.requiredBytes, plan.evictions⟩ :=
  Dict.get?_set_self _ _ _

variable {target : PlacementTarget}

theorem admissions_admitted_of_ne (h : k ≠ target.key) :
    (s.admitted d target plan rows).admissions.get? k = s.admissions.get? k :=
  Dict.get?_set_ne _ h _

theorem stamp_admitted_self (target : PlacementTarget) :
    (s.admitted d target plan rows).stamp target.key = s.serial + 1 := by
  unfold stamp
  rw [admissions_admitted_self]
  rfl

theorem victims_admitted_self (target : PlacementTarget) :
    (s.admitted d target plan rows).victims target.key = plan.evictions := by
  unfold victims
  rw [admissions_admitted_self]
  rfl

theorem stamp_admitted_of_ne (h : k ≠ target.key) :
    (s.admitted d target plan rows).stamp k = s.stamp k := by
  unfold stamp
  rw [admissions_admitted_of_ne h]

theorem victims_admitted_of_ne (h : k ≠ target.key) :
    (s.admitted d target plan rows).victims k = s.victims k := by
  unfold victims
  rw [admissions_admitted_of_ne h]

theorem Orderly.stamp_le (h : s.Orderly budget) (k : RowKey) :
    s.stamp k ≤ s.serial := by
  unfold stamp
  cases hk : s.admissions.get? k with
  | none => exact Nat.zero_le _
  | some adm => exact (h.serial k adm hk).2

variable {target : PlacementTarget}
  (hrows : rows = s.rows.recordPending target s.now)

include hrows

theorem get?_admitted_of_ne (h : k ≠ target.key) :
    (s.admitted d target plan rows).rows.get? k = s.rows.get? k := by
  show rows.get? k = _
  rw [hrows, get?_recordPending_of_ne _ _ h]

theorem active_admitted_of_ne (h : k ≠ target.key) :
    (s.admitted d target plan rows).Active k ↔ s.Active k := by
  unfold Active
  rw [get?_admitted_of_ne hrows h]

theorem not_loaded_admitted (hun : s.unclaimed d target.key = true) :
    ¬ (s.admitted d target plan rows).Loaded target.key := by
  intro hl
  rcases loaded_iff.mp hl with hres | ⟨-, hq⟩
  · exact (resident_of_recordPending hrows hres).1 rfl
  obtain ⟨e, st, hc, hst⟩ := loadQueued_iff.mp hq
  obtain ⟨hopen, hne⟩ := unclaimed_iff.mp hun e st hc
  rcases hst with hst | ⟨hst, adm, hadm, hdec⟩
  · grind
  · grind [admissions_admitted_self]

theorem loaded_of_admitted (h : k ≠ target.key)
    (hl : (s.admitted d target plan rows).Loaded k) : s.Loaded k := by
  rcases loaded_iff.mp hl with hres | ⟨hact, hq⟩
  · exact loaded_iff.mpr (Or.inl (resident_of_recordPending hrows hres).2)
  refine loaded_iff.mpr (Or.inr ⟨(active_admitted_of_ne hrows h).mp hact,
    loadQueued_iff.mpr ?_⟩)
  obtain ⟨e, st, hc, hst⟩ := loadQueued_iff.mp hq
  rw [admissions_admitted_of_ne h] at hst
  exact ⟨e, st, hc, hst⟩

theorem cleared_admitted {t : ℕ} (ht : t ≤ s.serial) (hv : s.Cleared v t) :
    (s.admitted d target plan rows).Cleared v t := by
  intro hact
  by_cases hk : v = target.key
  · rw [hk, stamp_admitted_self]
    exact Nat.lt_succ_of_le ht
  · rw [stamp_admitted_of_ne hk]
    exact hv ((active_admitted_of_ne hrows hk).mp hact)

theorem bytes_admitted_self (m : ℕ) :
    ((s.admitted d target plan rows).occupancy m).bytes target.key
      = target.requiredBytes := by
  obtain ⟨r, hr, hb, -⟩ := get?_recordPending s.rows target s.now
  rw [bytes_of_row (show (s.admitted d target plan rows).rows.get? target.key
    = some r from hrows ▸ hr), hb]

theorem bytes_admitted_of_ne (m : ℕ) (h : k ≠ target.key) :
    ((s.admitted d target plan rows).occupancy m).bytes k
      = (s.occupancy m).bytes k := by
  show ((s.admitted d target plan rows).rows.get? k).elim 0 _ = _
  rw [get?_admitted_of_ne hrows h]
  rfl

theorem Orderly.room_admitted (h : s.Orderly budget)
    (hun : s.unclaimed d target.key = true)
    (hroom : s.rows.activeTotal target.key.node
      (fun k => decide (k ∉ plan.evictions)) + target.requiredBytes
        ≤ budget target.key.node) (m : ℕ) :
    ((s.admitted d target plan rows).occupancy m).Sound (budget m) := by
  by_cases hm : target.key.node = m
  · subst hm
    have hsum : ∑ j ∈ (s.occupancy target.key.node).active.filter
        (· ∉ plan.evictions), (s.occupancy target.key.node).bytes j
        + target.requiredBytes ≤ budget target.key.node := by
      refine le_trans (Nat.add_le_add_right (sum_bytes_le (fun j hj => ?_)) _) hroom
      obtain ⟨hj, hv⟩ := Finset.mem_filter.mp hj
      exact ⟨hj, decide_eq_true hv⟩
    refine ((h.room target.key.node).accept (k := target.key)
      (Nat.succ_pos s.serial) (fun j _ => Nat.lt_succ_of_le (h.stamp_le j))
      hsum).shrink ?_ ?_ ?_ ?_ ?_
    · intro j hj
      by_cases hjk : j = target.key
      · exact hjk ▸ Finset.mem_insert_self _ _
      · obtain ⟨hn, hact⟩ := mem_active.mp hj
        exact Finset.mem_insert_of_mem (mem_active.mpr
          ⟨hn, (active_admitted_of_ne hrows hjk).mp hact⟩)
    · intro j _
      by_cases hjk : j = target.key
      · rw [hjk, PlannedRoom.Occupancy.accept_bytes_self, bytes_admitted_self hrows]
      · rw [PlannedRoom.Occupancy.accept_bytes_of_ne hjk,
          bytes_admitted_of_ne hrows _ hjk]
    · intro j _
      by_cases hjk : j = target.key
      · rw [hjk, PlannedRoom.Occupancy.accept_stamp_self]
        exact stamp_admitted_self target
      · rw [PlannedRoom.Occupancy.accept_stamp_of_ne hjk]
        exact stamp_admitted_of_ne hjk
    · intro j _
      by_cases hjk : j = target.key
      · rw [hjk, PlannedRoom.Occupancy.accept_victims_self]
        exact victims_admitted_self target
      · rw [PlannedRoom.Occupancy.accept_victims_of_ne hjk]
        exact victims_admitted_of_ne hjk
    · intro j _ hl
      have hjk : j ≠ target.key :=
        fun hjk => not_loaded_admitted hrows hun (hjk ▸ hl)
      exact Or.inl ⟨hjk, loaded_of_admitted hrows hjk hl⟩
  · -- on the other nodes nothing happens
    have hne : ∀ j ∈ ((s.admitted d target plan rows).occupancy m).active,
        j ≠ target.key := by
      rintro j hj rfl
      exact hm (mem_active.mp hj).1
    refine (h.room m).shrink (fun j hj => ?_)
      (fun j hj => bytes_admitted_of_ne hrows m (hne j hj))
      (fun j hj => stamp_admitted_of_ne (hne j hj))
      (fun j hj => victims_admitted_of_ne (hne j hj))
      (fun j hj hl => Or.inl (loaded_of_admitted hrows (hne j hj) hl))
    obtain ⟨hn, hact⟩ := mem_active.mp hj
    exact mem_active.mpr ⟨hn, (active_admitted_of_ne hrows (hne j hj)).mp hact⟩

omit hrows

theorem Orderly.admitted (h : s.Orderly budget)
    (hd : s.decisions.get? d = some decision)
    (hpass : s.rows.admissionPass (budget n) (decision.target n)
      (s.passEnv env) s.now = .admitted plan rows)
    (hun : s.unclaimed d (decision.target n).key = true) :
    (s.admitted d (decision.target n) plan rows).Orderly budget := by
  obtain ⟨-, -, -, -, hrows, -⟩ := ReservationTable.admissionPass_admitted hpass
  have hdec : KeepsDecisions s (s.admitted d (decision.target n) plan rows) :=
    keepsDecisions_modify rfl (fun _ => ⟨rfl, rfl, rfl⟩)
  -- where a workflow stands, and that another decision's row is another row
  have hpc : ∀ {e : ℕ} {pc : WorkflowPc},
      (s.admitted d (decision.target n) plan rows).pc? e = some pc →
      (e = d ∧ pc = .evict n plan.evictions) ∨ e ≠ d ∧ s.pc? e = some pc := by
    intro e pc he
    rcases pc_modify rfl he with ⟨hed, x, rfl⟩ | hold
    · exact Or.inl ⟨hed, rfl⟩
    · exact Or.inr hold
  refine ⟨h.room_admitted hrows hun (ReservationTable.room_of_admitted hpass),
    ?_, ?_, ?_, ?_, ?_, ?_, h.running, ?_⟩
  · intro k adm hk
    by_cases hkk : k = (decision.target n).key
    · rw [hkk, admissions_admitted_self, Option.some.injEq] at hk
      rw [← hk]
      exact ⟨Nat.succ_pos _, le_refl _⟩
    · rw [admissions_admitted_of_ne hkk] at hk
      exact ⟨(h.serial k adm hk).1, Nat.le_succ_of_le (h.serial k adm hk).2⟩
  · intro k adm hk
    by_cases hkk : k = (decision.target n).key
    · rw [hkk, admissions_admitted_self, Option.some.injEq] at hk
      obtain ⟨decision', hd', hholder, hb, -⟩ := hdec d decision hd
      rw [← hk]
      refine ⟨decision', hd', hb, hkk.trans ?_⟩
      show (⟨_, _, _⟩ : RowKey) = ⟨_, _, _⟩
      rw [hholder, hkk]
      rfl
    · rw [admissions_admitted_of_ne hkk] at hk
      obtain ⟨dec, hdec₁, hb, hkey⟩ := h.ours k adm hk
      obtain ⟨dec', hdec', hholder, hb', -⟩ := hdec _ _ hdec₁
      refine ⟨dec', hdec', hb'.trans hb, hkey.trans ?_⟩
      show (⟨_, _, _⟩ : RowKey) = ⟨_, _, _⟩
      rw [hholder]
  · intro k adm r hk hr hact
    by_cases hkk : k = (decision.target n).key
    · rw [hkk, admissions_admitted_self, Option.some.injEq] at hk
      obtain ⟨r', hr', hb, -⟩ :=
        get?_recordPending s.rows (decision.target n) s.now
      replace hr : rows.get? k = some r := hr
      rw [hrows, hkk, hr', Option.some.injEq] at hr
      rw [← hr, hb, ← hk]
    · rw [admissions_admitted_of_ne hkk] at hk
      rw [get?_admitted_of_ne hrows hkk] at hr
      exact h.bytes k adm r hk hr hact
  · intro k adm pc vs hk hpc' hvs v hv
    by_cases hkk : k = (decision.target n).key
    · -- nothing is evicted yet
      rw [hkk, admissions_admitted_self, Option.some.injEq] at hk
      rw [← hk] at hpc' hv
      rcases hpc hpc' with ⟨-, rfl⟩ | ⟨hne, -⟩
      · obtain ⟨-, rfl⟩ := Prod.mk.inj (Option.some.inj hvs)
        exact Or.inl hv
      · exact absurd rfl hne
    · rw [admissions_admitted_of_ne hkk] at hk
      rcases hpc hpc' with ⟨he, rfl⟩ | ⟨-, hold⟩
      · -- the decision has one row on a node
        obtain ⟨hnode, -⟩ := Prod.mk.inj (Option.some.inj hvs)
        obtain ⟨dec, hdec₁, -, hkey⟩ := h.ours k adm hk
        rw [he, hd, Option.some.injEq] at hdec₁
        rw [← hdec₁, ← hnode] at hkey
        exact absurd hkey hkk
      · grind [cleared_admitted, cases Orderly]
  · intro k adm v vs hk hpc' hdone
    rcases hpc hpc' with ⟨-, hx⟩ | ⟨hne, hold⟩
    · exact absurd hx WorkflowPc.noConfusion
    have hkk : k ≠ (decision.target n).key := by
      rintro rfl
      rw [admissions_admitted_self, Option.some.injEq] at hk
      exact hne (hk ▸ rfl)
    rw [admissions_admitted_of_ne hkk] at hk
    exact cleared_admitted hrows (h.serial k adm hk).2
      (h.unloaded k adm v vs hk hold hdone)
  · intro c hc hop hres
    exact h.applied c hc hop (resident_of_recordPending hrows hres).2
  · rintro ⟨e, op, j⟩ st hc hop hopen
    obtain rfl : op = .load := hop
    by_cases hjk : j = (decision.target n).key
    · have := (unclaimed_iff.mp hun e st (hjk ▸ hc)).1
      exact absurd (this.symm.trans hopen) Bool.false_ne_true
    · obtain ⟨adm, hadm, hdec₁⟩ := h.loading ⟨e, .load, j⟩ st hc rfl hopen
      exact ⟨adm, (admissions_admitted_of_ne hjk).trans hadm, hdec₁⟩

end Admitted

/-! ## The executor -/

theorem Steady.of_tables (hser : s'.serial = s.serial)
    (hadm : s'.admissions = s.admissions) (hrows : RowsFade s s')
    (hdec : s'.decisions = s.decisions) : Steady s s' :=
  ⟨hser, hadm, hrows.shrinks, keepsDecisions_of_eq hdec⟩

theorem Orderly.setCommand (h : s.Orderly budget) {st : CommandState} {x : ExecutorPc}
    (hload : c.operation = .load → st ≠ .failed →
      ∃ old, s.commands.get? c = some old ∧ (old = st ∨ old.isOpen = true))
    (hunload : st = .succeeded → s.executor = .applied c)
    (hnot : ∀ e, x ≠ .applied e)
    (hrun : ∀ e, x = .running e → e = c ∧ st = .running ∧ s.commands.get? c ≠ none) :
    ({ s.setCommand c st with executor := x } : Placement).Orderly budget := by
  refine h.frame (.of_tables rfl rfl (rowsFade_of_rows rfl) rfl)
    (fun d pc hpc _ => pcs_of_workflows rfl d pc hpc) ?_
    (fun k hk => loaded_iff.mpr (Or.inl hk)) ?_
    (fun e he => absurd he (hnot e)) ?_
  · intro e st' he hop hne
    rcases command_setCommand he with ⟨rfl, rfl⟩ | ⟨-, hold⟩
    · exact hload hop hne
    · exact ⟨st', hold, Or.inl rfl⟩
  · grind [command_setCommand]
  · intro e he hop
    rcases he with he | he
    · obtain ⟨rfl, rfl, hsome⟩ := hrun e he
      obtain ⟨old, hold⟩ := Option.ne_none_iff_exists'.mp hsome
      exact get?_setCommand_self hold
    · exact absurd he (hnot e)

theorem Orderly.execUnload (h : s.Orderly budget) (hop : c.operation = .unload) :
    ({ s.applyUnload c with executor := .applied c } : Placement).Orderly
      budget := by
  have hfade : RowsFade s { s.applyUnload c with executor := .applied c } :=
    rowsFade_modify rfl (fun _ _ => Fades.of_inactive rfl rfl)
  have hgone : ¬ ({ s.applyUnload c with executor := .applied c }
      : Placement).Active c.row := by
    rintro ⟨r, hr, hact⟩
    replace hr : (s.rows.modify c.row _).get? c.row = some r := hr
    rw [Dict.get?_modify, if_pos rfl] at hr
    obtain ⟨old, -, rfl⟩ := Option.map_eq_some_iff.mp hr
    exact absurd hact Bool.false_ne_true
  refine h.frame ⟨rfl, rfl, hfade.shrinks, keepsDecisions_modify rfl
    (fun r => ?_)⟩ (fun d pc hpc _ => pcs_of_workflows rfl d pc hpc)
    (.of_commands rfl) (fun k hk => loaded_iff.mpr (Or.inl
      (hfade.resident k hk))) ?_ ?_ ?_
  · split <;> exact ⟨rfl, rfl, rfl⟩
  · rintro d v (hdone | hdone)
    · exact Or.inl (Or.inl hdone)
    · grind
  · intro e he _ hres
    obtain rfl := ExecutorPc.applied.inj he
    exact hgone hres.active
  · rintro e (he | he) hload
    · exact absurd he ExecutorPc.noConfusion
    · grind

theorem Orderly.execLoad (h : s.Orderly budget)
    (hx : s.executor = .running c) (hop : c.operation = .load)
    (hr : s.rows.get? c.row = some r)
    (hs : r.state = .pending ∨ r.state = .held) :
    ({ s.setState c.row .held with executor := .applied c }
      : Placement).Orderly budget := by
  have hact : r.state.active = true := by
    rcases hs with hs | hs <;> rw [hs] <;> rfl
  have hrun := h.running c (Or.inl hx) hop
  have hrow : ∀ k, k ≠ c.row → ({ s.setState c.row .held with
      executor := .applied c } : Placement).rows.get? k = s.rows.get? k := by
    intro k hk
    show (s.rows.modify c.row _).get? k = _
    rw [Dict.get?_modify, if_neg hk]
  refine h.frame ⟨rfl, rfl, ?_, keepsDecisions_of_eq rfl⟩
    (fun d pc hpc _ => pcs_of_workflows rfl d pc hpc) (.of_commands rfl)
    ?_ ?_ ?_ ?_
  · intro k r' hr' _
    by_cases hk : k = c.row
    · replace hr' : (s.rows.modify c.row _).get? k = some r' := hr'
      rw [Dict.get?_modify, if_pos hk, hr] at hr'
      obtain rfl := Option.some.inj hr'
      exact ⟨r, hk ▸ hr, hact, rfl⟩
    · grind
  · -- a reservation whose load is carried out was taken already
    rintro k ⟨r', hr', hs'⟩
    by_cases hk : k = c.row
    · obtain ⟨d, op, j⟩ := c
      obtain rfl : op = .load := hop
      refine loaded_iff.mpr (Or.inr ⟨⟨r, hk ▸ hr, hact⟩,
        loadQueued_iff.mpr ⟨d, .running, ?_, Or.inl rfl⟩⟩)
      rw [hk]
      exact hrun
    · rw [hrow k hk] at hr'
      exact loaded_iff.mpr (Or.inl ⟨r', hr', hs'⟩)
  · rintro d v (hdone | hdone)
    · exact Or.inl (Or.inl hdone)
    · grind
  · grind
  · rintro e (he | he) _
    · exact absurd he ExecutorPc.noConfusion
    · obtain rfl := ExecutorPc.applied.inj he
      exact hrun

/-! ## One step, and runs -/

theorem Orderly.rest (h : s.Orderly budget) (hs : Steady s s')
    (hfade : RowsFade s s') {w : Workflow → Workflow}
    (hw : s'.workflows = s.workflows.modify d w)
    (hresting : ∀ x, (w x).pc.pursuing = none)
    (hcmd : s'.commands = s.commands) (hexec : s'.executor = s.executor) :
    s'.Orderly budget :=
  h.quiet hs (pcs_modify hw hresting) hfade.resident hexec
    (fun c _ => by rw [hcmd]) (fun c hc => hcmd ▸ hc)

theorem Orderly.fade (h : s.Orderly budget) (hfade : RowsFade s s')
    (hser : s'.serial = s.serial) (hadm : s'.admissions = s.admissions)
    (hdec : s'.decisions = s.decisions) (hw : s'.workflows = s.workflows)
    (hcmd : s'.commands = s.commands) (hexec : s'.executor = s.executor) :
    s'.Orderly budget :=
  h.quiet (.of_tables hser hadm hfade hdec)
    (fun d pc hpc _ => pcs_of_workflows hw d pc hpc) hfade.resident hexec
    (fun c _ => by rw [hcmd]) (fun c hc => hcmd ▸ hc)

theorem Orderly.idleUnloaded (h : s.Orderly budget) {env : TtlEnv}
    (hnew : ∀ e ∈ s.idleRows env, s.decisions.get? (env.decisionId e.1) = none) :
    (s.unloadIdle env).Orderly budget := by
  have hfade : RowsFade s (s.unloadIdle env) := by
    intro k r' hr'
    obtain ⟨r, hr, rfl | ⟨hexp, rfl⟩⟩ := row_unloadIdle hr'
    · exact ⟨r', hr, Fades.of_state rfl rfl⟩
    · obtain ⟨hheld, -⟩ := of_idleExpired hexp
      exact ⟨r, hr, rfl, fun _ => by rw [hheld]; rfl, fun _ => Or.inl hheld⟩
  refine h.quiet ⟨rfl, rfl, hfade.shrinks, keepsDecisions_unloadIdle hnew⟩
    (fun d pc hpc _ => pcs_of_workflows rfl d pc hpc) hfade.resident rfl ?_ ?_
  · grind [command_unloadIdle]
  · grind [command_unloadIdle]

theorem Orderly.step (h : s.Orderly budget) {a : Step}
    (ha : s.proper a = true) (he : Effect budget s a s') :
    s'.Orderly budget := by
  cases he with
  | nothing => exact h
  | rest _ hold hne hw hrun hret hf =>
    exact h.rest ⟨rfl, rfl, (rowsFade_of_rows rfl).shrinks,
      keepsDecisions_modify rfl hf.places⟩
      (rowsFade_of_rows rfl) rfl
      (fun x => WorkflowPc.pursuing_of_resting (hw x)) rfl rfl
  | admitted hold hd hpass =>
    unfold proper at ha
    simp only [hold, hd] at ha
    exact h.admitted hd hpass ha
  | evicted hold hv hd =>
    unfold proper at ha
    simp only [hold, Bool.and_eq_true, decide_eq_true_eq] at ha
    obtain ⟨r, hr, hs⟩ := stateAmong_iff.mp ha.1
    refine h.evicted hold ⟨r, hr, ?_⟩ ha.2
    rcases List.mem_cons.mp hs with hs | hs
    · exact Or.inl hs
    · exact Or.inr (List.mem_singleton.mp hs)
  | unloadSeen hold hc => exact h.unloadSeen hold hc
  | reserved hold hd =>
    unfold proper at ha
    simp only [hold, hd, Bool.and_eq_true, Option.any_eq_true, decide_eq_true_eq] at ha
    obtain ⟨hstate, adm, hadm, hours⟩ := ha
    obtain ⟨r, hr, hs⟩ := stateAmong_iff.mp hstate
    exact h.reserved hold hd hadm hours hr (List.mem_singleton.mp hs)
  | loadSeen hold hd hc =>
    exact h.rest (.of_tables rfl rfl (rowsFade_of_rows rfl) rfl)
      (rowsFade_of_rows rfl) rfl (fun _ => rfl) rfl rfl
  | ready hold =>
    exact h.rest ⟨rfl, rfl, (rowsFade_of_rows rfl).shrinks,
      keepsDecisions_modify rfl (fun _ => ⟨rfl, rfl, rfl⟩)⟩
      (rowsFade_of_rows rfl) rfl (fun _ => rfl) rfl rfl
  | @failed d name hold =>
    have hresting : ∀ x : Workflow, (if x.attempt < 3 then
        (⟨.idle, x.attempt + 1⟩ : Workflow)
        else { x with pc := .returning }).pc.pursuing = none := by
      intro x
      split <;> rfl
    have hfails : ∀ r, Fades r (failIfPending r) := by
      intro r
      unfold failIfPending
      split
      · exact Fades.of_inactive rfl rfl
      · exact Fades.of_state rfl rfl
    obtain ⟨rows, heq, hrows⟩ := failPending_eq s d
    have hfade : RowsFade s { s with rows := rows } := by
      grind [rowsFade_of_rows, rowsFade_modify]
    rw [heq]
    exact h.rest ⟨rfl, rfl, hfade.shrinks,
      keepsDecisions_modify rfl (fun _ => ⟨rfl, rfl, rfl⟩)⟩ hfade rfl
      hresting rfl rfl
  | execNext hx he hopen =>
    refine h.setCommand (fun _ _ => ⟨_, he, Or.inr hopen⟩)
      (fun h => CommandState.noConfusion h)
      (fun _ => ExecutorPc.noConfusion) (fun e h => ?_)
    exact ⟨(ExecutorPc.running.inj h).symm, rfl, by
      rw [he]; exact Option.some_ne_none _⟩
  | execFail _ hx =>
    exact h.setCommand (fun _ hne => absurd rfl hne)
      (fun h => CommandState.noConfusion h) (fun _ => ExecutorPc.noConfusion)
      (fun _ h => ExecutorPc.noConfusion h)
  | execUnload hx hop => exact h.execUnload hop
  | @execLoad c hx hop =>
    obtain ⟨d, op, k⟩ := c
    obtain rfl : op = .load := hop
    unfold proper at ha
    simp only [hx] at ha
    obtain ⟨r, hr, hs⟩ := stateAmong_iff.mp ha
    refine h.execLoad hx rfl hr ?_
    rcases List.mem_cons.mp hs with hs | hs
    · exact Or.inl hs
    · exact Or.inr (List.mem_singleton.mp hs)
  | execFinish hx =>
    exact h.setCommand (fun hop _ => ⟨_, h.running _ (Or.inr hx) hop,
      Or.inr rfl⟩) (fun _ => hx) (fun _ => ExecutorPc.noConfusion)
      (fun _ h => ExecutorPc.noConfusion h)
  | execRetry =>
    exact h.frame (.of_tables rfl rfl (rowsFade_of_rows rfl) rfl)
      (fun d pc hpc _ => pcs_of_workflows rfl d pc hpc) (.of_commands rfl)
      (fun k hk => loaded_iff.mpr (Or.inl hk))
      (fun d v hdone => Or.inl (hdone.imp id (fun h =>
        ExecutorPc.noConfusion h)))
      (fun c hc => ExecutorPc.noConfusion hc)
      (fun c hc => hc.elim (fun h => ExecutorPc.noConfusion h)
        (fun h => ExecutorPc.noConfusion h))
  | leased hk =>
    exact h.fade (rowsFade_modify rfl (fun _ _ => Fades.of_state rfl rfl))
      rfl rfl rfl rfl rfl rfl
  | refreshed =>
    exact h.fade (rowsFade_of_rows rfl) rfl rfl rfl rfl rfl rfl
  | leaseReleased =>
    exact h.fade (rowsFade_of_rows rfl) rfl rfl rfl rfl rfl rfl
  | pinned hk =>
    exact h.fade (rowsFade_modify rfl (fun _ _ => Fades.of_state rfl rfl))
      rfl rfl rfl rfl rfl rfl
  | idleUnloaded hnew => exact h.idleUnloaded hnew
  | @launchFailed i inst decision hi hend hd hstate =>
    refine h.fade (fun k r' hr' => ?_) rfl rfl rfl rfl rfl rfl
    obtain ⟨r, hr, rfl | rfl⟩ := row_launchFail hr'
    · exact ⟨r', hr, Fades.of_state rfl rfl⟩
    · exact ⟨r, hr, Fades.of_inactive rfl rfl⟩
  | launched _ hf hd =>
    exact h.fade (rowsFade_of_rows rfl) rfl rfl rfl rfl rfl rfl
  | ticked =>
    exact h.fade (rowsFade_of_rows rfl) rfl rfl rfl rfl rfl rfl

structure Started (budget : ℕ → ℕ) (s : Placement) : Prop where
  fits : ∀ n, s.rows.activeTotal n (fun _ => true) ≤ budget n
  executor : s.executor = .idle
  commands : ∀ st ∈ s.commands.values, st.isOpen = false
  admissions : s.admissions = Dict.empty

theorem Started.orderly (h : s.Started budget) : s.Orderly budget := by
  have hstamp : ∀ k, s.stamp k = 0 := by
    intro k
    unfold stamp
    rw [h.admissions]
    rfl
  have hvictims : ∀ k, s.victims k = [] := by
    intro k
    unfold victims
    rw [h.admissions]
    rfl
  have hnone : ∀ {k adm}, s.admissions.get? k ≠ some adm := by
    intro k adm
    rw [h.admissions]
    exact (Option.some_ne_none adm).symm
  refine ⟨fun n => ⟨?_, ?_, ?_, ?_⟩, fun _ _ hk => absurd hk hnone,
    fun _ _ hk => absurd hk hnone, fun _ _ _ hk => absurd hk hnone,
    fun _ _ _ _ hk => absurd hk hnone, fun _ _ _ _ hk => absurd hk hnone,
    ?_, ?_, ?_⟩
  · exact le_trans (sum_bytes_le (fun k hk =>
      ⟨(Finset.mem_filter.mp hk).1, rfl⟩)) (h.fits n)
  · intro j _ k _ _ hne
    exact absurd (hstamp k) hne
  · intro k _ hne
    exact absurd (hstamp k) hne
  · intro k _ _ v hv
    rw [show (s.occupancy n).victims k = [] from hvictims k] at hv
    exact absurd hv List.not_mem_nil
  · grind [cases Started]
  · grind [cases Started]
  · intro c st hc _ hopen
    have hclosed := h.commands st (Dict.mem_values.mpr ⟨c, hc⟩)
    exact absurd (hclosed.symm.trans hopen) Bool.false_ne_true

/-- **Loads stay within the budget**, in every run whose steps find their reservations
as they left them: the bytes of those held, releasing, or pending with a load that is
queued. -/
theorem loadedBytes_le_budget (hs : s.Started budget) {steps : List Step}
    (h : Run.Along (Placement.step budget) (fun s a => s.proper a = true) s steps) :
    Run.Throughout (Placement.step budget)
      (fun s => ∀ n, s.loadedBytes n ≤ budget n) s steps :=
  Run.throughout_of_invariant (Orderly budget)
    (fun _ hinv n => loadedBytes_le (hinv.room n))
    (fun _ a hinv ha => hinv.step ha (step_effect a)) hs.orderly h

/-- Two decisions for one model of six bytes, and one for a model of eight; the
node is empty. -/
def contended : Placement where
  now := 0
  rows := Dict.empty
  leases := Dict.empty
  decisions := ((Dict.empty.set 1
    ⟨50, 6, false, false, .requested, none, none, []⟩).set 2
    ⟨50, 6, false, false, .requested, none, none, []⟩).set 3
    ⟨60, 8, false, false, .requested, none, none, []⟩
  commands := Dict.empty
  instances := Dict.empty
  workflows := ((Dict.empty.set 1 ⟨.idle, 1⟩).set 2 ⟨.idle, 1⟩).set 3
    ⟨.idle, 1⟩
  executor := .idle
  serial := 0
  admissions := Dict.empty

theorem contended_started : contended.Started (fun _ => 12) where
  fits := fun _ => Nat.zero_le _
  executor := rfl
  commands := by decide
  admissions := rfl

/-- One model is loaded, and then evicted for the other. -/
theorem loadedBytes_le_budget_contended : Run.Throughout (Placement.step fun _ => 12)
      (fun s => ∀ n, s.loadedBytes n ≤ 12) contended
      [.begin 1 ⟨true, true, [0]⟩,
        .admission 1 ⟨true, true, true, true, false, none, none⟩,
        .reserve 1 ⟨true, true, true⟩, .execNext, .execApply, .execFinish,
        .poll 1, .markReady 1, .begin 3 ⟨true, true, [0]⟩,
        .admission 3 ⟨true, true, true, true, false, none, none⟩, .evict 3 true,
        .execNext, .execApply, .execFinish, .poll 3,
        .reserve 3 ⟨true, true, true⟩, .execNext, .execApply, .execFinish,
        .poll 3, .markReady 3] :=
  loadedBytes_le_budget contended_started (by decide)

/-- **Two loads share one reservation.** The first decision fails the
reservation it shares with the second, the third takes the room, and the second
writes the reservation pending again and loads. -/
theorem loads_exceed_budget : contended.Started (fun _ => 12) ∧ ¬ Run.Throughout
      (Placement.step fun _ => 12) (fun s => ∀ n, s.loadedBytes n ≤ 12)
      contended
      [.begin 1 ⟨true, true, [0]⟩, .begin 2 ⟨true, true, [0]⟩,
        .begin 3 ⟨true, true, [0]⟩,
        .admission 1 ⟨true, true, true, true, false, none, none⟩,
        .admission 2 ⟨true, true, true, true, false, none, none⟩,
        .reserve 1 ⟨true, true, true⟩, .execNext, .execFail, .poll 1,
        .fail 1 false,
        .admission 3 ⟨true, true, true, true, false, none, none⟩,
        .reserve 3 ⟨true, true, true⟩, .execNext, .execApply, .execFinish,
        .reserve 2 ⟨true, true, true⟩, .execNext, .execApply,
        .execFinish] := by
  refine ⟨contended_started, fun h => ?_⟩
  exact absurd (h 19 0) (by decide)

end Placement
