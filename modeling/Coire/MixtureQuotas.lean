import Mathlib.Data.List.GetD
import Mathlib.Data.Rat.Floor
import Mathlib.Tactic.Positivity
import Coire.LargestRemainder

/-!
# The quotas of a training mixture

`largest_remainder_quotas`: how many of an epoch's samples come from each source
of a mixture. The proportions are decimals that add up to one only roughly, so
the samples are divided by their exact ratios, rounded down, and the samples that
are left go to the largest remainders, the earlier source first.

The sorted list of the sources is cut after as many as are raised; what is before
the cut is a set that raises in the sense of `LargestRemainder.Raises`
(`raises_raised`), and `quotas_fair_and_exact` is then a fact about such sets.
-/

namespace MixtureQuotas

open LargestRemainder

structure TrainingValidationError where
  message : String
  deriving DecidableEq

def sliceTo {α : Type} (items : List α) (stop : ℤ) : List α :=
  if 0 ≤ stop then items.take stop.toNat
  else items.take (items.length + stop).toNat

def remainder (exact : List ℚ) (quotas : List ℤ) (index : ℕ) : ℚ :=
  exact.getD index 0 - quotas.getD index 0

def KeyLe (exact : List ℚ) (quotas : List ℤ) (i j : ℕ) : Prop :=
  -remainder exact quotas i < -remainder exact quotas j
    ∨ -remainder exact quotas i = -remainder exact quotas j ∧ i ≤ j

instance (exact : List ℚ) (quotas : List ℤ) :
    DecidableRel (KeyLe exact quotas) := fun _ _ =>
  inferInstanceAs (Decidable (_ ∨ _))

def exactShares (weights : List ℚ) (total : ℤ) : List ℚ :=
  weights.map fun weight => total * weight / weights.sum

def wholeShares (exact : List ℚ) : List ℤ :=
  exact.map fun value => value.num / value.den

def remainderOrder (exact : List ℚ) : List ℕ :=
  (List.range exact.length).insertionSort (KeyLe exact (wholeShares exact))

def raiseQuotas (quotas : List ℤ) (indices : List ℕ) : List ℤ :=
  indices.foldl (fun quotas index => quotas.modify index (· + 1)) quotas

/-- **`largest_remainder_quotas`**. A proportion is the value of its decimal text;
there is none for what is not a finite number. -/
def largestRemainderQuotas (proportions : List (Option ℚ)) (total : ℤ) :
    Except TrainingValidationError (List ℤ) :=
  if ¬ (1 ≤ total ∧ total ≤ 16000000)
      ∨ ¬ (1 ≤ proportions.length ∧ proportions.length ≤ 16) then
    .error ⟨"Mixture quota bounds are invalid"⟩
  else
    match proportions.mapM id with
    | none => .error ⟨"Mixture proportions must be finite and positive"⟩
    | some weights =>
      if ∃ weight ∈ weights, weight ≤ 0 ∨ 1 < weight then
        .error ⟨"Mixture proportions must be finite and positive"⟩
      else if 1 / 1000000 < |weights.sum - 1| then
        .error ⟨"Mixture proportions must sum to one"⟩
      else
        let exact := exactShares weights total
        let quotas := wholeShares exact
        .ok (raiseQuotas quotas
          (sliceTo (remainderOrder exact) (total - quotas.sum)))

/-! ## Shares -/

def share (exact : List ℚ) (i : ℕ) : ℚ := exact.getD i 0

section Shares

variable {exact : List ℚ}

theorem wholeShares_eq (exact : List ℚ) : wholeShares exact = exact.map Int.floor := by
  unfold wholeShares
  congr 1
  funext value
  exact Rat.floor_def'.symm

theorem getD_wholeShares (exact : List ℚ) (i : ℕ) :
    (wholeShares exact).getD i 0 = ⌊share exact i⌋ := by
  have h := List.getD_map exact (0 : ℚ) (n := i) Int.floor
  rw [Int.floor_zero] at h
  rw [wholeShares_eq]
  exact h

theorem remainder_eq (exact : List ℚ) (i : ℕ) :
    remainder exact (wholeShares exact) i = Int.fract (share exact i) := by
  unfold remainder
  rw [getD_wholeShares]
  rfl

theorem sum_wholeShares (exact : List ℚ) : (wholeShares exact).sum
    = ∑ i ∈ Finset.range exact.length, ⌊share exact i⌋ := by
  rw [wholeShares_eq]
  show _ = ((List.range exact.length).map fun i => ⌊share exact i⌋).sum
  congr 1
  refine List.ext_getElem (by simp) fun i h₁ h₂ => ?_
  rw [List.length_map] at h₁
  simp only [List.getElem_map, List.getElem_range]
  unfold share
  rw [List.getD_eq_getElem exact 0 h₁]

/-! ## The order of the remainders -/

theorem keyLe_iff {i j : ℕ} : KeyLe exact (wholeShares exact) i j
    ↔ Int.fract (share exact j) < Int.fract (share exact i)
      ∨ Int.fract (share exact j) = Int.fract (share exact i) ∧ i ≤ j := by
  unfold KeyLe
  rw [remainder_eq, remainder_eq, neg_lt_neg_iff, neg_inj, eq_comm]

instance : Std.Total (KeyLe exact (wholeShares exact)) where
  total i j := by
    rw [keyLe_iff, keyLe_iff]
    rcases lt_trichotomy (Int.fract (share exact i)) (Int.fract (share exact j))
      with h | h | h
    · exact .inr (.inl h)
    · rcases le_total i j with hij | hij
      · exact .inl (.inr ⟨h.symm, hij⟩)
      · exact .inr (.inr ⟨h, hij⟩)
    · exact .inl (.inl h)

instance : IsTrans ℕ (KeyLe exact (wholeShares exact)) where
  trans i j k := by
    rw [keyLe_iff, keyLe_iff, keyLe_iff]
    rintro (hij | ⟨hij, hle⟩) (hjk | ⟨hjk, hle'⟩)
    · exact .inl (hjk.trans hij)
    · exact .inl (hjk ▸ hij)
    · exact .inl (hij ▸ hjk)
    · exact .inr ⟨hjk.trans hij, hle.trans hle'⟩

theorem perm_remainderOrder (exact : List ℚ) :
    (remainderOrder exact).Perm (List.range exact.length) :=
  List.perm_insertionSort _ _

theorem better_of_take {k i j : ℕ} (hi : i ∈ (remainderOrder exact).take k)
    (hj : j ∈ Finset.range exact.length)
    (hjk : j ∉ (remainderOrder exact).take k) :
    Int.fract (share exact j) < Int.fract (share exact i)
      ∨ Int.fract (share exact j) = Int.fract (share exact i) ∧ i < j := by
  have hmem : j ∈ remainderOrder exact :=
    (perm_remainderOrder exact).mem_iff.mpr
      (List.mem_range.mpr (Finset.mem_range.mp hj))
  have hdrop : j ∈ (remainderOrder exact).drop k := by
    rw [← List.take_append_drop k (remainderOrder exact)] at hmem
    exact (List.mem_append.mp hmem).resolve_left hjk
  have hsorted : (remainderOrder exact).Pairwise
      (KeyLe exact (wholeShares exact)) := List.pairwise_insertionSort _ _
  rw [← List.take_append_drop k (remainderOrder exact), List.pairwise_append] at hsorted
  rcases keyLe_iff.mp (hsorted.2.2 i hi j hdrop) with h | ⟨h, hle⟩
  · exact .inl h
  · grind

theorem raises_raised {k : ℕ}
    (hk : (k : ℚ) = ∑ i ∈ Finset.range exact.length, Int.fract (share exact i))
    (hlt : k < exact.length) :
    Raises (Finset.range exact.length) ((remainderOrder exact).take k).toFinset
      (share exact) where
  subset i hi := by
    have hmem := List.mem_of_mem_take (List.mem_toFinset.mp hi)
    exact Finset.mem_range.mpr (List.mem_range.mp
      ((perm_remainderOrder exact).mem_iff.mp hmem))
  card_eq := by
    have hnodup : ((remainderOrder exact).take k).Nodup :=
      ((perm_remainderOrder exact).nodup_iff.mpr List.nodup_range).sublist
        (List.take_sublist _ _)
    rw [List.toFinset_card_of_nodup hnodup, List.length_take,
      (perm_remainderOrder exact).length_eq, List.length_range,
      Nat.min_eq_left hlt.le, hk]
  better i hi j hj hjk := better_of_take (List.mem_toFinset.mp hi) hj
    (fun h => hjk (List.mem_toFinset.mpr h))

end Shares

/-! ## Raising -/

theorem getElem?_raiseQuotas (quotas : List ℤ) (indices : List ℕ) (i : ℕ) :
    (raiseQuotas quotas indices)[i]? = quotas[i]?.map (· + (indices.count i : ℤ)) := by
  unfold raiseQuotas
  induction indices generalizing quotas with
  | nil => simp
  | cons index indices ih =>
    rw [List.foldl_cons, ih, List.getElem?_modify, List.count_cons]
    cases quotas[i]? with
    | none => rfl
    | some quota =>
      by_cases h : index = i
      · simp [h, add_assoc, add_comm (1 : ℤ)]
      · simp [h]

theorem raiseQuotas_eq {exact : List ℚ} (k : ℕ) :
    raiseQuotas (wholeShares exact) ((remainderOrder exact).take k)
      = (List.range exact.length).map
        (quota ((remainderOrder exact).take k).toFinset (share exact)) := by
  have hnodup : ((remainderOrder exact).take k).Nodup :=
    ((perm_remainderOrder exact).nodup_iff.mpr List.nodup_range).sublist
      (List.take_sublist _ _)
  have hlen : (wholeShares exact).length = exact.length := List.length_map _
  refine List.ext_getElem? fun i => ?_
  rw [getElem?_raiseQuotas, List.getElem?_map, hnodup.count]
  by_cases hi : i < exact.length
  · have hwhole : (wholeShares exact)[i]? = some ⌊share exact i⌋ := by
      rw [← getD_wholeShares, List.getD_eq_getElem _ _ (hlen.symm ▸ hi),
        List.getElem?_eq_getElem]
    rw [hwhole, List.getElem?_range hi]
    unfold quota
    simp only [Option.map_some, List.mem_toFinset]
    split <;> rfl
  · grind

/-! ## The quotas -/

section Quotas

variable {weights : List ℚ} {total : ℤ}

theorem share_exactShares {i : ℕ} {w : ℚ} (h : weights[i]? = some w) :
    share (exactShares weights total) i = total * w / weights.sum := by
  unfold share exactShares
  rw [List.getD_eq_getElem?_getD, List.getElem?_map, h]
  rfl

theorem sum_share (total : ℤ) (hsum : weights.sum ≠ 0) :
    ∑ i ∈ Finset.range (exactShares weights total).length,
      share (exactShares weights total) i = total := by
  have hlist : ∑ i ∈ Finset.range (exactShares weights total).length,
      share (exactShares weights total) i = (exactShares weights total).sum := by
    show ((List.range _).map (share _)).sum = _
    congr 1
    refine List.ext_getElem (by simp) fun i h₁ h₂ => ?_
    simp only [List.getElem_map, List.getElem_range]
    exact List.getD_eq_getElem _ _ h₂
  rw [hlist]
  unfold exactShares
  have hfactor : (weights.map fun w => (total : ℚ) * w / weights.sum)
      = weights.map fun w => ((total : ℚ) / weights.sum) * w := by
    congr 1
    funext w
    ring
  rw [hfactor, List.sum_map_mul_left, List.map_id', div_mul_cancel₀ _ hsum]

theorem cast_left (total : ℤ) (hsum : weights.sum ≠ 0) :
    ((total - (wholeShares (exactShares weights total)).sum : ℤ) : ℚ)
      = ∑ i ∈ Finset.range (exactShares weights total).length,
        Int.fract (share (exactShares weights total) i) := by
  have htotal : (total : ℚ) = ∑ i ∈ Finset.range (exactShares weights total).length,
      share (exactShares weights total) i := (sum_share total hsum).symm
  rw [Int.cast_sub, sum_wholeShares, Int.cast_sum, htotal, ← Finset.sum_sub_distrib]
  rfl

theorem left_bounds (total : ℤ) (hsum : weights.sum ≠ 0) (hlen : 1 ≤ weights.length) :
    0 ≤ total - (wholeShares (exactShares weights total)).sum
      ∧ total - (wholeShares (exactShares weights total)).sum
        < (exactShares weights total).length := by
  have hcast := cast_left total hsum
  have hne : (Finset.range (exactShares weights total).length).Nonempty := by
    rw [Finset.nonempty_range_iff, exactShares, List.length_map]
    omega
  have hlt := sum_fract_lt_card (share (exactShares weights total)) hne
  have hnonneg : 0 ≤ ∑ i ∈ Finset.range (exactShares weights total).length,
      Int.fract (share (exactShares weights total) i) :=
    Finset.sum_nonneg fun i _ => Int.fract_nonneg _
  rw [Finset.card_range, ← hcast] at hlt
  rw [← hcast] at hnonneg
  exact ⟨by exact_mod_cast hnonneg, by exact_mod_cast hlt⟩

end Quotas

structure Accepted (weights : List ℚ) (total : ℤ) : Prop where
  total_bounds : 1 ≤ total ∧ total ≤ 16000000
  length_bounds : 1 ≤ weights.length ∧ weights.length ≤ 16
  weight_bounds : ∀ w ∈ weights, 0 < w ∧ w ≤ 1
  sum_near : |weights.sum - 1| ≤ 1 / 1000000

theorem Accepted.sum_ne_zero {weights : List ℚ} {total : ℤ}
    (h : Accepted weights total) : weights.sum ≠ 0 := by
  intro hzero
  have hnear := h.sum_near
  rw [hzero] at hnear
  norm_num at hnear

theorem mapM_id_map_some (weights : List ℚ) :
    (weights.map some).mapM id = some weights := by
  induction weights with
  | nil => rfl
  | cons w weights ih =>
    rw [List.map_cons, List.mapM_cons, ih]
    rfl

theorem largestRemainderQuotas_ok {weights : List ℚ} {total : ℤ}
    (h : Accepted weights total) : ∃ T,
      Raises (Finset.range weights.length) T (share (exactShares weights total))
      ∧ largestRemainderQuotas (weights.map some) total
        = .ok ((List.range weights.length).map
          (quota T (share (exactShares weights total)))) := by
  have hlen : (exactShares weights total).length = weights.length :=
    List.length_map _
  obtain ⟨hnonneg, hlt⟩ :=
    left_bounds total h.sum_ne_zero h.length_bounds.1
  have hcast := cast_left total h.sum_ne_zero
  obtain ⟨k, hk⟩ := Int.eq_ofNat_of_zero_le hnonneg
  rw [hk] at hcast hlt
  have hraises := raises_raised (k := k) (by exact_mod_cast hcast)
    (by exact_mod_cast hlt)
  have hslice : sliceTo (remainderOrder (exactShares weights total))
      (total - (wholeShares (exactShares weights total)).sum)
      = (remainderOrder (exactShares weights total)).take k := by
    unfold sliceTo
    rw [if_pos hnonneg, hk, Int.toNat_natCast]
  have hbounds : ¬ (¬ (1 ≤ total ∧ total ≤ 16000000)
      ∨ ¬ (1 ≤ (weights.map some).length ∧ (weights.map some).length ≤ 16)) := by
    rw [List.length_map]
    exact not_or.mpr ⟨not_not.mpr h.total_bounds, not_not.mpr h.length_bounds⟩
  have hweights : ¬ ∃ w ∈ weights, w ≤ 0 ∨ 1 < w := by
    rintro ⟨w, hw, hbad⟩
    obtain ⟨hpos, hle⟩ := h.weight_bounds w hw
    rcases hbad with hbad | hbad
    · exact absurd hbad (not_le.mpr hpos)
    · exact absurd hbad (not_lt.mpr hle)
  refine ⟨_, hlen ▸ hraises, ?_⟩
  unfold largestRemainderQuotas
  rw [if_neg hbounds, mapM_id_map_some]
  dsimp only
  rw [if_neg hweights, if_neg (not_lt.mpr h.sum_near), hslice, raiseQuotas_eq, hlen]

/-- **Largest-remainder quotas are fair and exact.** -/
theorem quotas_fair_and_exact (weights : List ℚ) (total : ℤ)
    (htotal : 1 ≤ total ∧ total ≤ 16000000)
    (hlen : 1 ≤ weights.length ∧ weights.length ≤ 16)
    (hweights : ∀ w ∈ weights, 0 < w ∧ w ≤ 1)
    (hsum : |weights.sum - 1| ≤ 1 / 1000000) :
    ∃ quotas, largestRemainderQuotas (weights.map some) total = .ok quotas
      ∧ quotas.length = weights.length
      ∧ (∀ q ∈ quotas, 0 ≤ q)
      ∧ quotas.sum = total
      ∧ (∀ (i : ℕ) (w : ℚ) (q : ℤ), weights[i]? = some w → quotas[i]? = some q →
          |(q : ℚ) - total * w / weights.sum| < 1)
      ∧ ∀ (i j : ℕ) (w v : ℚ) (q r : ℤ), j < i →
          weights[i]? = some w → weights[j]? = some v →
          quotas[i]? = some q → quotas[j]? = some r → w ≤ v → q ≤ r := by
  have haccepted : Accepted weights total := ⟨htotal, hlen, hweights, hsum⟩
  obtain ⟨T, hraises, hok⟩ := largestRemainderQuotas_ok haccepted
  have hget : ∀ {i : ℕ} {w : ℚ} {q : ℤ}, weights[i]? = some w →
      ((List.range weights.length).map
        (quota T (share (exactShares weights total))))[i]? = some q →
      i < weights.length ∧ q = quota T (share (exactShares weights total)) i := by
    intro i w q hw hq
    obtain ⟨hi, -⟩ := List.getElem?_eq_some_iff.mp hw
    rw [List.getElem?_map, List.getElem?_range hi] at hq
    exact ⟨hi, (Option.some.inj hq).symm⟩
  have hpos : 0 < weights.sum := by
    have := abs_le.mp hsum
    linarith [this.1]
  refine ⟨_, hok, by simp, fun q hq => ?_, ?_, fun i w q hw hq => ?_,
    fun i j w v q r hji hw hv hq hr hle => ?_⟩
  · obtain ⟨i, hi, rfl⟩ := List.mem_map.mp hq
    have hi' := List.mem_range.mp hi
    obtain ⟨hw, -⟩ := hweights _ (List.getElem_mem hi')
    refine quota_nonneg ?_
    rw [share_exactShares (List.getElem?_eq_getElem hi')]
    have : (0 : ℚ) ≤ total := by exact_mod_cast (zero_le_one.trans htotal.1)
    positivity
  · have hunits := sum_quota hraises
    have hdue := sum_share total haccepted.sum_ne_zero
    rw [exactShares, List.length_map] at hdue
    have hcast : ((∑ i ∈ Finset.range weights.length,
        quota T (share (exactShares weights total)) i : ℤ) : ℚ) = (total : ℤ) :=
      hunits.trans hdue
    exact_mod_cast hcast
  · obtain ⟨-, rfl⟩ := hget hw hq
    rw [← share_exactShares hw]
    exact abs_quota_sub_lt_one hraises i
  · obtain ⟨-, rfl⟩ := hget hw hq
    obtain ⟨hj, rfl⟩ := hget hv hr
    refine quota_le_quota hraises (Finset.mem_range.mpr hj) hji ?_
    rw [share_exactShares hw, share_exactShares hv]
    have hnonneg : (0 : ℚ) ≤ total := by exact_mod_cast (zero_le_one.trans htotal.1)
    gcongr

/-- Three sources with equal proportions that do not quite add up to one. -/
theorem ten_samples_of_three : ∃ quotas,
    largestRemainderQuotas [some (3333333 / 10000000), some (3333333 / 10000000),
      some (3333333 / 10000000)] 10 = .ok quotas
    ∧ quotas.length = 3 ∧ (∀ q ∈ quotas, 0 ≤ q) ∧ quotas.sum = 10 := by
  obtain ⟨quotas, hok, hlen, hnonneg, hsum, -⟩ := quotas_fair_and_exact
    [3333333 / 10000000, 3333333 / 10000000, 3333333 / 10000000] 10
    (by decide) (by decide) (by norm_num) (by norm_num [abs_le])
  exact ⟨quotas, hok, hlen, hnonneg, hsum⟩

end MixtureQuotas
