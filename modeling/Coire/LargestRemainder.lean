import Mathlib.Algebra.BigOperators.Ring.Finset
import Mathlib.Algebra.Order.BigOperators.Group.Finset
import Mathlib.Algebra.Order.Floor.Ring
import Mathlib.Tactic.Ring

/-!
# Apportionment by largest remainders

A number of units is to be divided among parties that are due shares of it,
which need not be whole. Each party gets its share rounded down, and the units
that are left go one each to the parties with the largest fractional parts.

The parties who are raised are a set `T` with two properties, its size and that
nobody outside it has a better claim (`Raises`). Whatever way the set was found,
the units add up (`sum_quota`), nobody is a whole unit off (`abs_quota_sub_lt_one`)
and a larger share never gets less (`quota_le_quota`), ties going by the order of
the parties.
-/

namespace LargestRemainder

variable {ι K : Type} [LinearOrder ι] [Field K] [LinearOrder K]
  [IsStrictOrderedRing K] [FloorRing K]

/-- **The parties who get one unit more**: those with the best claims. -/
structure Raises (parties T : Finset ι) (share : ι → K) : Prop where
  subset : T ⊆ parties
  card_eq : (T.card : K) = ∑ i ∈ parties, Int.fract (share i)
  better : ∀ i ∈ T, ∀ j ∈ parties, j ∉ T →
    Int.fract (share j) < Int.fract (share i)
      ∨ Int.fract (share j) = Int.fract (share i) ∧ i < j

def quota (T : Finset ι) (share : ι → K) (i : ι) : ℤ :=
  ⌊share i⌋ + if i ∈ T then 1 else 0

variable {parties T : Finset ι} {share : ι → K}

omit [IsStrictOrderedRing K] in
theorem floor_le_quota (T : Finset ι) (share : ι → K) (i : ι) :
    ⌊share i⌋ ≤ quota T share i := by
  unfold quota
  split <;> omega

omit [IsStrictOrderedRing K] in
theorem quota_le_floor_add_one (T : Finset ι) (share : ι → K) (i : ι) :
    quota T share i ≤ ⌊share i⌋ + 1 := by
  unfold quota
  split <;> omega

omit [IsStrictOrderedRing K] in
theorem sum_quota (h : Raises parties T share) :
    ((∑ i ∈ parties, quota T share i : ℤ) : K) = ∑ i ∈ parties, share i := by
  have hraised : (∑ i ∈ parties, if i ∈ T then (1 : ℤ) else 0) = T.card := by
    rw [Finset.sum_ite_mem, Finset.inter_eq_right.mpr h.subset,
      Finset.sum_const, nsmul_eq_mul, mul_one]
  have hfract : ∀ i ∈ parties, share i = (⌊share i⌋ : K) + Int.fract (share i) :=
    fun i _ => (Int.floor_add_fract (share i)).symm
  unfold quota
  rw [Finset.sum_add_distrib, hraised, Finset.sum_congr rfl hfract,
    Finset.sum_add_distrib, ← h.card_eq, Int.cast_add, Int.cast_sum]
  norm_cast

/-- **Whoever is raised was due a part of a unit**: otherwise those who are raised would
be too few to make up the units that were left. -/
theorem fract_pos (h : Raises parties T share) {i : ι} (hi : i ∈ T) :
    0 < Int.fract (share i) := by
  by_contra hnot
  have hzero : Int.fract (share i) = 0 :=
    le_antisymm (not_lt.mp hnot) (Int.fract_nonneg _)
  have houtside : ∀ j ∈ parties, j ∉ T → Int.fract (share j) = 0 := by
    intro j hj hjT
    rcases h.better i hi j hj hjT with hlt | ⟨heq, -⟩
    · exact absurd (hzero ▸ hlt) (not_lt.mpr (Int.fract_nonneg _))
    · rw [heq, hzero]
  have hall : ∑ j ∈ parties, Int.fract (share j)
      = ∑ j ∈ T.erase i, Int.fract (share j) := by
    rw [← Finset.sum_subset h.subset houtside, ← Finset.add_sum_erase T _ hi,
      hzero, zero_add]
  have hless : ∑ j ∈ T.erase i, Int.fract (share j) ≤ (T.erase i).card := by
    refine (Finset.sum_le_card_nsmul _ _ 1 fun j _ => (Int.fract_lt_one _).le).trans ?_
    rw [nsmul_eq_mul, mul_one]
  have hcard : (T.erase i).card + 1 = T.card := Finset.card_erase_add_one hi
  have hcast : ((T.erase i).card : K) + 1 = T.card := by exact_mod_cast hcard
  linarith [h.card_eq]

theorem abs_quota_sub_lt_one (h : Raises parties T share) (i : ι) :
    |(quota T share i : K) - share i| < 1 := by
  have hshare := Int.floor_add_fract (share i)
  have hlt := Int.fract_lt_one (share i)
  have hnonneg := Int.fract_nonneg (share i)
  rw [abs_lt]
  unfold quota
  by_cases hi : i ∈ T
  · have hpos := fract_pos h hi
    rw [if_pos hi, Int.cast_add, Int.cast_one]
    constructor <;> linarith
  · rw [if_neg hi, add_zero]
    constructor <;> linarith

theorem quota_le_quota (h : Raises parties T share) {i j : ι} (hj : j ∈ parties)
    (hji : j < i) (hle : share i ≤ share j) :
    quota T share i ≤ quota T share j := by
  have hfloor : ⌊share i⌋ ≤ ⌊share j⌋ := Int.floor_mono hle
  rcases hfloor.lt_or_eq with hlt | heq
  · have h₁ := quota_le_floor_add_one T share i
    have h₂ := floor_le_quota T share j
    omega
  · -- of two shares with one whole part, the fractional parts decide
    have hfract : Int.fract (share i) ≤ Int.fract (share j) := by
      unfold Int.fract
      rw [heq]
      exact sub_le_sub_right hle _
    have hraised : i ∈ T → j ∈ T := by
      intro hi
      by_contra hjT
      rcases h.better i hi j hj hjT with hlt | ⟨-, hij⟩
      · exact absurd hfract (not_le.mpr hlt)
      · exact absurd hij hji.asymm
    unfold quota
    rw [heq]
    by_cases hi : i ∈ T
    · rw [if_pos hi, if_pos (hraised hi)]
    · rw [if_neg hi]
      split <;> omega

omit [IsStrictOrderedRing K] in
theorem quota_nonneg {i : ι} (hi : 0 ≤ share i) : 0 ≤ quota T share i :=
  (Int.floor_nonneg.mpr hi).trans (floor_le_quota T share i)

omit [LinearOrder ι] in
theorem sum_fract_lt_card (share : ι → K) (hne : parties.Nonempty) :
    ∑ i ∈ parties, Int.fract (share i) < parties.card := by
  have hlt := Finset.sum_lt_sum_of_nonempty hne (fun i _ => Int.fract_lt_one (share i))
  rwa [Finset.sum_const, nsmul_eq_mul, mul_one] at hlt

end LargestRemainder
