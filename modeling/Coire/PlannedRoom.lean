import Mathlib.Algebra.Order.BigOperators.Group.Finset
import Mathlib.Data.Finset.Max

/-!
# Room under planned evictions

Holders share a budget. A holder is admitted, with a stamp, against the holders
that count at that moment and are not among the victims it plans to evict. It
does not count as loaded then: it may be loaded only when its victims are gone,
or have been admitted again after it.

Later admissions are made against a state in which earlier victims still count
or are planned for a second time, so neither the holders that count nor any
fixed part of them stays within the budget. What does is the part that is
loaded (`Occupancy.Sound.loaded_le`): the loaded holder admitted last was
admitted beside all the others that are loaded.
-/

namespace PlannedRoom

/-- **Holders of a shared budget**, with the stamps of their latest admissions. -/
structure Occupancy (κ : Type*) where
  active : Finset κ
  bytes : κ → ℕ
  stamp : κ → ℕ
  victims : κ → List κ
  loaded : κ → Prop

namespace Occupancy

variable {κ : Type*} [DecidableEq κ] {o o' : Occupancy κ} {budget : ℕ}

def beside (o : Occupancy κ) (k : κ) : Finset κ :=
  o.active.filter (fun j => o.stamp j < o.stamp k ∧ j ∉ o.victims k)

theorem mem_beside {j k : κ} : j ∈ o.beside k
    ↔ j ∈ o.active ∧ o.stamp j < o.stamp k ∧ j ∉ o.victims k :=
  Finset.mem_filter

structure Sound (o : Occupancy κ) (budget : ℕ) : Prop where
  /-- Holders never admitted fit the budget. -/
  rest : ∑ j ∈ o.active.filter (fun j => o.stamp j = 0), o.bytes j ≤ budget
  inj : ∀ j ∈ o.active, ∀ k ∈ o.active, o.stamp j = o.stamp k →
    o.stamp k ≠ 0 → j = k
  /-- A holder fits beside those it was admitted beside. -/
  room : ∀ k ∈ o.active, o.stamp k ≠ 0 →
    ∑ j ∈ o.beside k, o.bytes j + o.bytes k ≤ budget
  /-- The victims of a loaded holder are gone, or admitted since. -/
  cleared : ∀ k ∈ o.active, o.loaded k → ∀ v ∈ o.victims k, v ∈ o.active →
    o.stamp k < o.stamp v

theorem Sound.loaded_le (h : o.Sound budget) {l : Finset κ}
    (hl : ∀ k ∈ l, k ∈ o.active ∧ o.loaded k) :
    ∑ k ∈ l, o.bytes k ≤ budget := by
  rcases l.eq_empty_or_nonempty with rfl | hne
  · exact Nat.zero_le budget
  obtain ⟨k, hk, hmax⟩ := l.exists_max_image o.stamp hne
  by_cases hzero : o.stamp k = 0
  · -- nothing that is loaded was ever admitted
    refine le_trans (Finset.sum_le_sum_of_subset (fun j hj => ?_)) h.rest
    refine Finset.mem_filter.mpr ⟨(hl j hj).1, ?_⟩
    exact Nat.le_zero.mp (hzero ▸ hmax j hj)
  · -- the others were there when `k` was admitted, and are not its victims
    rw [← Finset.sum_erase_add l _ hk]
    refine le_trans (Nat.add_le_add_right (Finset.sum_le_sum_of_subset
      (fun j hj => ?_)) _) (h.room k (hl k hk).1 hzero)
    obtain ⟨hjk, hj⟩ := Finset.mem_erase.mp hj
    refine mem_beside.mpr ⟨(hl j hj).1, lt_of_le_of_ne (hmax j hj) ?_, ?_⟩
    · grind [cases Sound]
    · grind [cases Sound]

theorem Sound.shrink (h : o.Sound budget) (hactive : o'.active ⊆ o.active)
    (hbytes : ∀ k ∈ o'.active, o'.bytes k = o.bytes k)
    (hstamp : ∀ k ∈ o'.active, o'.stamp k = o.stamp k)
    (hvictims : ∀ k ∈ o'.active, o'.victims k = o.victims k)
    (hloaded : ∀ k ∈ o'.active, o'.loaded k → o.loaded k
      ∨ ∀ v ∈ o.victims k, v ∈ o.active → o.stamp k < o.stamp v) :
    o'.Sound budget := by
  have hsum : ∀ {a b : Finset κ}, a ⊆ o'.active → a ⊆ b →
      ∑ j ∈ a, o'.bytes j ≤ ∑ j ∈ b, o.bytes j := by
    intro a b ha hab
    rw [Finset.sum_congr rfl (fun j hj => hbytes j (ha hj))]
    exact Finset.sum_le_sum_of_subset hab
  refine ⟨?_, ?_, ?_, ?_⟩
  · refine le_trans (hsum (Finset.filter_subset _ _) (fun j hj => ?_)) h.rest
    obtain ⟨hj, hzero⟩ := Finset.mem_filter.mp hj
    exact Finset.mem_filter.mpr ⟨hactive hj, (hstamp j hj) ▸ hzero⟩
  · grind [cases Sound]
  · intro k hk hne
    rw [hstamp k hk] at hne
    rw [hbytes k hk]
    refine le_trans (Nat.add_le_add_right (hsum (Finset.filter_subset _ _)
      (fun j hj => ?_)) _) (h.room k (hactive hk) hne)
    obtain ⟨hj, hlt, hv⟩ := mem_beside.mp hj
    rw [hstamp j hj, hstamp k hk] at hlt
    rw [hvictims k hk] at hv
    exact mem_beside.mpr ⟨hactive hj, hlt, hv⟩
  · grind [Sound]

/-- **An admission**: of a holder that counts from now on, and is not
loaded. -/
def accept (o : Occupancy κ) (k : κ) (bytes stamp : ℕ) (victims : List κ) :
    Occupancy κ where
  active := insert k o.active
  bytes := Function.update o.bytes k bytes
  stamp := Function.update o.stamp k stamp
  victims := Function.update o.victims k victims
  loaded := fun j => j ≠ k ∧ o.loaded j

section Admit

variable {k j : κ} {bytes stamp : ℕ} {victims : List κ}

theorem accept_bytes_self : (o.accept k bytes stamp victims).bytes k = bytes :=
  Function.update_self _ _ _

theorem accept_stamp_self : (o.accept k bytes stamp victims).stamp k = stamp :=
  Function.update_self _ _ _

theorem accept_victims_self : (o.accept k bytes stamp victims).victims k = victims :=
  Function.update_self _ _ _

theorem accept_bytes_of_ne (h : j ≠ k) :
    (o.accept k bytes stamp victims).bytes j = o.bytes j :=
  Function.update_of_ne h _ _

theorem accept_stamp_of_ne (h : j ≠ k) :
    (o.accept k bytes stamp victims).stamp j = o.stamp j :=
  Function.update_of_ne h _ _

theorem accept_victims_of_ne (h : j ≠ k) :
    (o.accept k bytes stamp victims).victims j = o.victims j :=
  Function.update_of_ne h _ _

theorem mem_of_mem_accept (h : j ≠ k)
    (hj : j ∈ (o.accept k bytes stamp victims).active) : j ∈ o.active :=
  Finset.mem_of_mem_insert_of_ne hj h

theorem sum_accept_le {a b : Finset κ} (hk : k ∉ a) (hab : a ⊆ b) :
    ∑ j ∈ a, (o.accept k bytes stamp victims).bytes j ≤ ∑ j ∈ b, o.bytes j := by
  rw [Finset.sum_congr rfl (fun j hj =>
    accept_bytes_of_ne (ne_of_mem_of_not_mem hj hk))]
  exact Finset.sum_le_sum_of_subset hab

/-- **An admission with room keeps every admission sound**, if its stamp is
new. -/
theorem Sound.accept (h : o.Sound budget) (hpos : 0 < stamp)
    (hnew : ∀ j ∈ o.active, o.stamp j < stamp)
    (hroom : ∑ j ∈ o.active.filter (· ∉ victims), o.bytes j + bytes ≤ budget) :
    (o.accept k bytes stamp victims).Sound budget := by
  refine ⟨?_, ?_, ?_, ?_⟩
  · have hne : ∀ j, (o.accept k bytes stamp victims).stamp j = 0 → j ≠ k := by
      rintro j hzero rfl
      exact hpos.ne' (accept_stamp_self.symm.trans hzero)
    refine le_trans (sum_accept_le (fun hk => hne k (Finset.mem_filter.mp hk).2
      rfl) (fun j hj => ?_)) h.rest
    obtain ⟨hj, hzero⟩ := Finset.mem_filter.mp hj
    have hjk := hne j hzero
    exact Finset.mem_filter.mpr ⟨mem_of_mem_accept hjk hj,
      (accept_stamp_of_ne hjk).symm.trans hzero⟩
  · intro i hi j hj heq hne
    by_cases hik : i = k
    · grind [accept_stamp_self, accept_stamp_of_ne, mem_of_mem_accept]
    · by_cases hjk : j = k
      · grind [accept_stamp_self, accept_stamp_of_ne, mem_of_mem_accept]
      · grind [accept_stamp_of_ne, mem_of_mem_accept, cases Sound]
  · intro j hj hne
    by_cases hjk : j = k
    · subst hjk
      rw [accept_bytes_self]
      refine le_trans (Nat.add_le_add_right (sum_accept_le (fun hself =>
        lt_irrefl _ (mem_beside.mp hself).2.1) (fun i hi => ?_)) _) hroom
      obtain ⟨hi, hlt, hv⟩ := mem_beside.mp hi
      have hij : i ≠ j := fun h => lt_irrefl _ (h ▸ hlt)
      rw [accept_victims_self] at hv
      exact Finset.mem_filter.mpr ⟨mem_of_mem_accept hij hi, hv⟩
    · -- the new holder has the last stamp, so it is beside no other
      have hlast : ∀ i, (o.accept k bytes stamp victims).stamp i
          < (o.accept k bytes stamp victims).stamp j → i ≠ k := by
        grind [accept_stamp_self, accept_stamp_of_ne, mem_of_mem_accept]
      rw [accept_bytes_of_ne hjk]
      rw [accept_stamp_of_ne hjk] at hne
      refine le_trans (Nat.add_le_add_right (sum_accept_le (fun hself =>
        hlast k (mem_beside.mp hself).2.1 rfl) (fun i hi => ?_)) _)
        (h.room j (mem_of_mem_accept hjk hj) hne)
      obtain ⟨hi, hlt, hv⟩ := mem_beside.mp hi
      have hik := hlast i hlt
      rw [accept_stamp_of_ne hik, accept_stamp_of_ne hjk] at hlt
      rw [accept_victims_of_ne hjk] at hv
      exact mem_beside.mpr ⟨mem_of_mem_accept hik hi, hlt, hv⟩
  · rintro j hj ⟨hjk, hl⟩ v hv hva
    rw [accept_victims_of_ne hjk] at hv
    rw [accept_stamp_of_ne hjk]
    by_cases hvk : v = k
    · rw [hvk, accept_stamp_self]
      exact hnew j (mem_of_mem_accept hjk hj)
    · grind [accept_stamp_of_ne, mem_of_mem_accept, cases Sound]

end Admit

end Occupancy

end PlannedRoom
