import Coire.PlacementEffects
import Coire.PlannedRoom

/-!
# The memory that loads take

A reservation takes memory once its load is queued, until it is released. Room
is checked only when a decision is admitted, against rows that other decisions
may already have planned to evict, and nothing checks it again when the load is
queued. This module says which bytes are taken (`Placement.loadedBytes`), reads
the tables as holders of a shared budget (`Placement.occupancy`), and states
what keeps every admission sound until its load (`Placement.Orderly`): the
decision that queues a load is the one that was admitted last for the row, and
its victims are gone by then.
-/

/-- The node a workflow makes room on, and the victims that are not known to be
unloaded. -/
def WorkflowPc.pursuing : WorkflowPc → Option (ℕ × List RowKey)
  | .evict n vs => some (n, vs)
  | .awaitUnload n v vs => some (n, v :: vs)
  | _ => none

theorem WorkflowPc.pursuing_of_resting {pc : WorkflowPc}
    (h : pc.resting = true) : pc.pursuing = none := by
  cases pc <;> first | rfl | exact absurd h Bool.false_ne_true

namespace Placement

/-! ## What is taken -/

/-- A load of the reservation is open, or has succeeded for its last admission. -/
def loadQueued (s : Placement) (k : RowKey) : Bool :=
  s.commands.items.any (fun e =>
    decide (e.1.operation = .load) && decide (e.1.row = k)
      && (e.2.isOpen || decide (e.2 = .succeeded)
        && (s.admissions.get? k).any (fun a =>
          decide (a.decision = e.1.decision))))

def takes (s : Placement) (k : RowKey) (r : MemoryReservationRow) : Bool :=
  match r.state with
  | .held | .releasing => true
  | .pending => s.loadQueued k
  | .released | .failed => false

def loadedBytes (s : Placement) (n : ℕ) : ℕ :=
  s.rows.total (fun k r =>
    if decide (k.node = n) && s.takes k r then r.bytes else 0)

def Resident (s : Placement) (k : RowKey) : Prop :=
  ∃ r, s.rows.get? k = some r ∧ (r.state = .held ∨ r.state = .releasing)

def Loaded (s : Placement) (k : RowKey) : Prop :=
  ∃ r, s.rows.get? k = some r ∧ s.takes k r = true

variable {budget : ℕ → ℕ} {s s' : Placement} {k v : RowKey} {n t : ℕ}

theorem loadQueued_iff : s.loadQueued k = true
    ↔ ∃ d st, s.commands.get? ⟨d, .load, k⟩ = some st
      ∧ (st.isOpen = true ∨ st = .succeeded
        ∧ ∃ adm, s.admissions.get? k = some adm ∧ adm.decision = d) := by
  unfold loadQueued
  rw [Dict.any_items]
  constructor
  · rintro ⟨⟨d, op, j⟩, st, hc, h⟩
    simp only [Bool.and_eq_true, Bool.or_eq_true, decide_eq_true_eq,
      Option.any_eq_true] at h
    obtain ⟨⟨rfl, rfl⟩, h⟩ := h
    exact ⟨d, st, hc, h⟩
  · grind

theorem loaded_iff : s.Loaded k
    ↔ s.Resident k ∨ s.Active k ∧ s.loadQueued k = true := by
  constructor
  · rintro ⟨r, hr, htakes⟩
    unfold takes at htakes
    split at htakes
    · exact Or.inl ⟨r, hr, Or.inl ‹_›⟩
    · exact Or.inl ⟨r, hr, Or.inr ‹_›⟩
    · rename_i hs
      exact Or.inr ⟨⟨r, hr, by rw [hs]; rfl⟩, htakes⟩
    · exact absurd htakes Bool.false_ne_true
    · exact absurd htakes Bool.false_ne_true
  · rintro (⟨r, hr, hs | hs⟩ | ⟨⟨r, hr, hs⟩, hq⟩)
    · exact ⟨r, hr, by unfold takes; rw [hs]⟩
    · exact ⟨r, hr, by unfold takes; rw [hs]⟩
    · refine ⟨r, hr, ?_⟩
      unfold takes
      split
      · rfl
      · rfl
      · exact hq
      · rename_i hr'
        rw [hr'] at hs
        exact absurd hs Bool.false_ne_true
      · rename_i hr'
        rw [hr'] at hs
        exact absurd hs Bool.false_ne_true

theorem Resident.active (h : s.Resident k) : s.Active k := by
  obtain ⟨r, hr, hs | hs⟩ := h
  · exact ⟨r, hr, by rw [hs]; rfl⟩
  · exact ⟨r, hr, by rw [hs]; rfl⟩

theorem Loaded.active (h : s.Loaded k) : s.Active k := by
  rcases loaded_iff.mp h with h | h
  · exact h.active
  · exact h.1

/-! ## The tables as holders of a budget -/

/-- The number of the latest admission of a reservation, zero if it has
none. -/
def stamp (s : Placement) (k : RowKey) : ℕ :=
  (s.admissions.get? k).elim 0 Admission.serial

def victims (s : Placement) (k : RowKey) : List RowKey :=
  (s.admissions.get? k).elim [] Admission.victims

/-- **The reservations of a node** as holders of its budget. -/
def occupancy (s : Placement) (n : ℕ) : PlannedRoom.Occupancy RowKey where
  active := ((s.rows.activeRows n).map Prod.fst).toFinset
  bytes := fun k => (s.rows.get? k).elim 0 MemoryReservationRow.bytes
  stamp := s.stamp
  victims := s.victims
  loaded := s.Loaded

theorem mem_active : k ∈ (s.occupancy n).active ↔ k.node = n ∧ s.Active k := by
  unfold occupancy ReservationTable.activeRows
  rw [List.mem_toFinset]
  constructor
  · intro h
    obtain ⟨⟨j, r⟩, he, rfl⟩ := List.mem_map.mp h
    obtain ⟨hmem, hp⟩ := List.mem_filter.mp he
    rw [Bool.and_eq_true, decide_eq_true_eq] at hp
    exact ⟨hp.1, r, Dict.mem_items.mp hmem, hp.2⟩
  · rintro ⟨hn, r, hr, hact⟩
    refine List.mem_map.mpr ⟨(k, r), List.mem_filter.mpr
      ⟨Dict.mem_items.mpr hr, ?_⟩, rfl⟩
    rw [Bool.and_eq_true, decide_eq_true_eq]
    exact ⟨hn, hact⟩

theorem bytes_of_row {r : MemoryReservationRow} (h : s.rows.get? k = some r) :
    (s.occupancy n).bytes k = r.bytes := by
  show (s.rows.get? k).elim 0 MemoryReservationRow.bytes = r.bytes
  rw [h, Option.elim_some]

theorem sum_bytes_le {a : Finset RowKey} {p : RowKey → Bool}
    (ha : ∀ k ∈ a, k ∈ (s.occupancy n).active ∧ p k = true) :
    ∑ k ∈ a, (s.occupancy n).bytes k ≤ s.rows.activeTotal n p := by
  unfold ReservationTable.activeTotal
  rw [Dict.total_eq_sum]
  have hrow : ∀ k ∈ a, (s.occupancy n).bytes k = s.rows.weight (fun k r =>
      if decide (k.node = n) && r.state.active && p k then r.bytes else 0) k
      ∧ k ∈ (s.rows.items.map Prod.fst).toFinset := by
    intro k hk
    obtain ⟨hmem, hp⟩ := ha k hk
    obtain ⟨hn, r, hr, hact⟩ := mem_active.mp hmem
    refine ⟨?_, List.mem_toFinset.mpr (Dict.mem_keys.mpr ⟨r, hr⟩)⟩
    rw [bytes_of_row hr, Dict.weight_of_get? hr, hact, hp, hn]
    simp
  rw [Finset.sum_congr rfl (fun k hk => (hrow k hk).1)]
  exact Finset.sum_le_sum_of_subset (fun k hk => (hrow k hk).2)

theorem loadedBytes_le {b : ℕ} (h : (s.occupancy n).Sound b) : s.loadedBytes n ≤ b := by
  unfold loadedBytes
  rw [Dict.total_eq_sum, ← Finset.sum_filter_ne_zero]
  have hrow : ∀ k, s.rows.weight (fun k r =>
      if decide (k.node = n) && s.takes k r then r.bytes else 0) k ≠ 0 →
      k.node = n ∧ s.Loaded k ∧ s.rows.weight (fun k r =>
        if decide (k.node = n) && s.takes k r then r.bytes else 0) k
          = (s.occupancy n).bytes k := by
    intro k hne
    cases hr : s.rows.get? k with
    | none =>
      unfold Dict.weight at hne
      rw [hr] at hne
      exact absurd rfl hne
    | some r => grind [bytes_of_row, Dict.weight_of_get?, Loaded]
  rw [Finset.sum_congr rfl (fun k hk =>
    (hrow k (Finset.mem_filter.mp hk).2).2.2)]
  refine h.loaded_le (fun k hk => ?_)
  obtain ⟨hn, hl, -⟩ := hrow k (Finset.mem_filter.mp hk).2
  exact ⟨mem_active.mpr ⟨hn, hl.active⟩, hl⟩

/-! ## What holds between an admission and its load -/

/-- The reservation is gone, or was admitted since. -/
def Cleared (s : Placement) (v : RowKey) (t : ℕ) : Prop :=
  s.Active v → t < s.stamp v

/-- **Admissions stay sound, and loads are queued for the last of them.** -/
structure Orderly (budget : ℕ → ℕ) (s : Placement) : Prop where
  room : ∀ n, (s.occupancy n).Sound (budget n)
  serial : ∀ k adm, s.admissions.get? k = some adm →
    0 < adm.serial ∧ adm.serial ≤ s.serial
  /-- The reservation is the one of the decision on the node. -/
  ours : ∀ k adm, s.admissions.get? k = some adm →
    ∃ decision, s.decisions.get? adm.decision = some decision
      ∧ decision.requiredBytes = adm.bytes ∧ k = (decision.target k.node).key
  bytes : ∀ k adm r, s.admissions.get? k = some adm → s.rows.get? k = some r →
    r.state.active = true → r.bytes = adm.bytes
  /-- A victim that the workflow has done with is gone. -/
  pursued : ∀ k adm pc vs, s.admissions.get? k = some adm →
    s.pc? adm.decision = some pc → pc.pursuing = some (k.node, vs) →
    ∀ v ∈ adm.victims, v ∈ vs ∨ s.Cleared v adm.serial
  /-- A victim whose unload is confirmed is gone. -/
  unloaded : ∀ k adm v vs, s.admissions.get? k = some adm →
    s.pc? adm.decision = some (.awaitUnload k.node v vs) →
    (s.commands.get? ⟨adm.decision, .unload, v⟩ = some .succeeded
      ∨ s.executor = .applied ⟨adm.decision, .unload, v⟩) →
    s.Cleared v adm.serial
  applied : ∀ c, s.executor = .applied c → c.operation = .unload →
    ¬ s.Resident c.row
  running : ∀ c, s.executor = .running c ∨ s.executor = .applied c →
    c.operation = .load → s.commands.get? c = some .running
  loading : ∀ c st, s.commands.get? c = some st → c.operation = .load →
    st.isOpen = true →
    ∃ adm, s.admissions.get? c.row = some adm ∧ adm.decision = c.decision

/-! ## Steps that admit nothing -/

/-- Rows that count did so before, with the same bytes. -/
def Shrinks (s s' : Placement) : Prop :=
  ∀ k r', s'.rows.get? k = some r' → r'.state.active = true →
    ∃ r, s.rows.get? k = some r ∧ r.state.active = true ∧ r'.bytes = r.bytes

structure Steady (s s' : Placement) : Prop where
  serial : s'.serial = s.serial
  admissions : s'.admissions = s.admissions
  rows : Shrinks s s'
  decisions : KeepsDecisions s s'

theorem Steady.active (h : Steady s s') (hk : s'.Active k) : s.Active k := by
  obtain ⟨r', hr', hact'⟩ := hk
  obtain ⟨r, hr, hact, -⟩ := h.rows k r' hr' hact'
  exact ⟨r, hr, hact⟩

theorem Steady.stamp (h : Steady s s') (k : RowKey) : s'.stamp k = s.stamp k := by
  unfold Placement.stamp
  rw [h.admissions]

theorem Steady.victims (h : Steady s s') (k : RowKey) : s'.victims k = s.victims k := by
  unfold Placement.victims
  rw [h.admissions]

theorem Steady.cleared (h : Steady s s') (hv : s.Cleared v t) : s'.Cleared v t := by
  intro hact
  rw [h.stamp]
  exact hv (h.active hact)

theorem Steady.room (h : Steady s s') {b : ℕ} (hroom : (s.occupancy n).Sound b)
    (hloaded : ∀ k, s'.Loaded k → s.Loaded k
      ∨ ∀ v ∈ s.victims k, s.Cleared v (s.stamp k)) :
    (s'.occupancy n).Sound b := by
  refine hroom.shrink ?_ ?_ (fun k _ => h.stamp k) (fun k _ => h.victims k) ?_
  · intro k hk
    obtain ⟨hn, hact⟩ := mem_active.mp hk
    exact mem_active.mpr ⟨hn, h.active hact⟩
  · intro k hk
    obtain ⟨-, r', hr', hact'⟩ := mem_active.mp hk
    obtain ⟨r, hr, -, hb⟩ := h.rows k r' hr' hact'
    rw [bytes_of_row hr', bytes_of_row hr, hb]
  · intro k _ hk
    refine (hloaded k hk).imp id (fun hc v hv hact => ?_)
    exact hc v hv (mem_active.mp hact).2

theorem Orderly.steady (h : s.Orderly budget) (hs : Steady s s')
    (hloaded : ∀ k, s'.Loaded k → s.Loaded k
      ∨ ∀ v ∈ s.victims k, s.Cleared v (s.stamp k))
    (hpursued : ∀ k adm pc vs, s.admissions.get? k = some adm →
      s'.pc? adm.decision = some pc → pc.pursuing = some (k.node, vs) →
      ∀ v ∈ adm.victims, v ∈ vs ∨ s.Cleared v adm.serial)
    (hunloaded : ∀ k adm v vs, s.admissions.get? k = some adm →
      s'.pc? adm.decision = some (.awaitUnload k.node v vs) →
      (s'.commands.get? ⟨adm.decision, .unload, v⟩ = some .succeeded
        ∨ s'.executor = .applied ⟨adm.decision, .unload, v⟩) →
      s'.Cleared v adm.serial)
    (happlied : ∀ c, s'.executor = .applied c → c.operation = .unload →
      ¬ s'.Resident c.row)
    (hrunning : ∀ c, s'.executor = .running c ∨ s'.executor = .applied c →
      c.operation = .load → s'.commands.get? c = some .running)
    (hloading : ∀ c st, s'.commands.get? c = some st → c.operation = .load →
      st.isOpen = true →
      ∃ adm, s.admissions.get? c.row = some adm ∧ adm.decision = c.decision) :
    s'.Orderly budget where
  room := fun n => hs.room (h.room n) hloaded
  serial := by
    rw [hs.admissions, hs.serial]
    exact h.serial
  ours := by
    rw [hs.admissions]
    intro k adm hk
    obtain ⟨decision, hd, hb, hkey⟩ := h.ours k adm hk
    obtain ⟨decision', hd', hholder, hb', -⟩ := hs.decisions _ _ hd
    refine ⟨decision', hd', hb'.trans hb, hkey.trans ?_⟩
    show (⟨_, _, _⟩ : RowKey) = ⟨_, _, _⟩
    rw [hholder]
  bytes := by
    rw [hs.admissions]
    intro k adm r' hk hr' hact'
    obtain ⟨r, hr, hact, hb⟩ := hs.rows k r' hr' hact'
    exact hb.trans (h.bytes k adm r hk hr hact)
  pursued := by
    rw [hs.admissions]
    intro k adm pc vs hk hpc hvs v hv
    exact (hpursued k adm pc vs hk hpc hvs v hv).imp id hs.cleared
  unloaded := by
    rw [hs.admissions]
    exact hunloaded
  applied := happlied
  running := hrunning
  loading := by
    rw [hs.admissions]
    exact hloading

def KeepsLoads (s s' : Placement) : Prop :=
  ∀ c st', s'.commands.get? c = some st' → c.operation = .load →
    st' ≠ .failed →
    ∃ st, s.commands.get? c = some st ∧ (st = st' ∨ st.isOpen = true)

theorem Steady.loaded (h : Steady s s') (hloads : KeepsLoads s s')
    (hres : ∀ k, s'.Resident k → s.Loaded k) (hk : s'.Loaded k) :
    s.Loaded k := by
  rcases loaded_iff.mp hk with hk | ⟨hact, hq⟩
  · exact hres k hk
  refine loaded_iff.mpr (Or.inr ⟨h.active hact, loadQueued_iff.mpr ?_⟩)
  obtain ⟨d, st', hc, hst⟩ := loadQueued_iff.mp hq
  rw [h.admissions] at hst
  have hne : st' ≠ .failed := by
    rintro rfl
    rcases hst with hst | ⟨hst, -⟩
    · exact absurd hst Bool.false_ne_true
    · exact absurd hst CommandState.noConfusion
  obtain ⟨st, hc', rfl | hopen⟩ := hloads _ st' hc rfl hne
  · exact ⟨d, st, hc', hst⟩
  · exact ⟨d, st, hc', Or.inl hopen⟩

theorem KeepsLoads.loading (h : KeepsLoads s s') (hs : s.Orderly budget)
    (c : CommandId) (st' : CommandState) (hc : s'.commands.get? c = some st')
    (hop : c.operation = .load) (hopen : st'.isOpen = true) :
    ∃ adm, s.admissions.get? c.row = some adm ∧ adm.decision = c.decision := by
  have hne : st' ≠ .failed := by
    rintro rfl
    exact absurd hopen Bool.false_ne_true
  obtain ⟨st, hst, rfl | hopen'⟩ := h c st' hc hop hne
  · exact hs.loading c st hst hop hopen
  · exact hs.loading c st hst hop hopen'

theorem Orderly.frame (h : s.Orderly budget) (hs : Steady s s')
    (hpcs : ∀ d pc, s'.pc? d = some pc → pc.pursuing ≠ none → s.pc? d = some pc)
    (hloads : KeepsLoads s s') (hres : ∀ k, s'.Resident k → s.Loaded k)
    (hunloads : ∀ d v, s'.commands.get? ⟨d, .unload, v⟩ = some .succeeded
        ∨ s'.executor = .applied ⟨d, .unload, v⟩ →
      (s.commands.get? ⟨d, .unload, v⟩ = some .succeeded
        ∨ s.executor = .applied ⟨d, .unload, v⟩) ∨ ¬ s'.Active v)
    (happlied : ∀ c, s'.executor = .applied c → c.operation = .unload →
      ¬ s'.Resident c.row)
    (hrunning : ∀ c, s'.executor = .running c ∨ s'.executor = .applied c →
      c.operation = .load → s'.commands.get? c = some .running) :
    s'.Orderly budget := by
  refine h.steady hs (fun k hk => Or.inl (hs.loaded hloads hres hk)) ?_ ?_
    happlied hrunning (hloads.loading h)
  · grind [cases Orderly]
  · intro k adm v vs hk hpc hdone
    have hpc' := hpcs _ _ hpc (Option.some_ne_none _)
    rcases hunloads _ v hdone with hold | hgone
    · exact hs.cleared (h.unloaded k adm v vs hk hpc' hold)
    · exact fun hact => absurd hact hgone

theorem Orderly.quiet (h : s.Orderly budget) (hs : Steady s s')
    (hpcs : ∀ d pc, s'.pc? d = some pc → pc.pursuing ≠ none → s.pc? d = some pc)
    (hres : ∀ k, s'.Resident k → s.Resident k)
    (hexec : s'.executor = s.executor)
    (hloads : ∀ c, c.operation = .load → s'.commands.get? c = s.commands.get? c)
    (hunloads : ∀ c, s'.commands.get? c = some .succeeded →
      s.commands.get? c = some .succeeded) : s'.Orderly budget := by
  refine h.frame hs hpcs (fun c st' hc hop _ => ⟨st', hloads c hop ▸ hc,
    Or.inl rfl⟩) (fun k hk => loaded_iff.mpr (Or.inl (hres k hk))) ?_ ?_ ?_
  · grind
  · grind [cases Orderly]
  · grind [cases Orderly]

end Placement
