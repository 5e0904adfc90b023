import Mathlib.Data.Fintype.Card

/-!
# Leases and majorities

Voters back candidates for a limited time. A *lease* is one such backing – who
gives it, to whom, and until when – and a candidate leads while a majority of
the voters back it with leases that have not run out.

What makes this safe is not the majority alone. Two majorities share a voter,
and that voter must not be backing both leaders at once: the leases in play
are `Lease.Exclusive` when no voter has unexpired leases for two candidates.
Then there is at most one leader (`Lease.leads_unique`). Time only helps: a
family of leases exclusive at one moment is exclusive ever after
(`Lease.Exclusive.mono`).
-/

/-- **A lease**: one voter backs one candidate until a moment. -/
structure Lease (ι τ : Type*) where
  voter : ι
  candidate : ι
  /-- The first moment at which it no longer does. -/
  expiresAt : τ

namespace Lease

variable {ι τ : Type*} [LinearOrder τ] {L M : Set (Lease ι τ)} {t now : τ}
  {c d : ι}

def Current (l : Lease ι τ) (now : τ) : Prop := now < l.expiresAt

theorem Current.anti {l : Lease ι τ} (h : l.Current now) (ht : t ≤ now) : l.Current t :=
  lt_of_le_of_lt ht h

/-- **No voter backs two candidates at once.** -/
def Exclusive (L : Set (Lease ι τ)) (now : τ) : Prop :=
  ∀ l ∈ L, ∀ m ∈ L, l.voter = m.voter → l.Current now → m.Current now →
    l.candidate = m.candidate

theorem Exclusive.mono (h : Exclusive L t) (ht : t ≤ now) : Exclusive L now :=
  fun l hl m hm hv hlc hmc =>
    h l hl m hm hv (hlc.anti ht) (hmc.anti ht)

def Backs (L : Set (Lease ι τ)) (now : τ) (v c : ι) : Prop :=
  ∃ l ∈ L, l.voter = v ∧ l.candidate = c ∧ l.Current now

theorem Exclusive.backs_unique (h : Exclusive L now) {v : ι}
    (hc : Backs L now v c) (hd : Backs L now v d) : c = d := by
  grind [Exclusive, Backs]

/-- **A candidate leads**: a majority of the voters back it. -/
def Leads [Fintype ι] (L : Set (Lease ι τ)) (now : τ) (c : ι) : Prop :=
  ∃ Q : Finset ι, Fintype.card ι < 2 * Q.card ∧ ∀ v ∈ Q, Backs L now v c

theorem exists_mem_of_majorities [Fintype ι] [DecidableEq ι] {Q R : Finset ι}
    (hQ : Fintype.card ι < 2 * Q.card) (hR : Fintype.card ι < 2 * R.card) :
    ∃ v, v ∈ Q ∧ v ∈ R := by
  have hu : (Q ∪ R).card ≤ Fintype.card ι := Finset.card_le_univ _
  have hadd := Finset.card_union_add_card_inter Q R
  have hne : (Q ∩ R).Nonempty := Finset.card_pos.mp (by omega)
  obtain ⟨v, hv⟩ := hne
  exact ⟨v, Finset.mem_inter.mp hv⟩

/-- **At most one candidate leads** while the leases are exclusive. -/
theorem leads_unique [Fintype ι] [DecidableEq ι] (h : Exclusive L now)
    (hc : Leads L now c) (hd : Leads L now d) : c = d := by
  obtain ⟨Q, hQ, hQc⟩ := hc
  obtain ⟨R, hR, hRd⟩ := hd
  obtain ⟨v, hvQ, hvR⟩ := exists_mem_of_majorities hQ hR
  exact h.backs_unique (hQc v hvQ) (hRd v hvR)

end Lease
