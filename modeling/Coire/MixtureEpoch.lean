import Coire.MixtureOrder

/-!
# Every epoch serves its quotas

For pools that `mixture_epoch_order` admits, and whatever the digests are as long as its
rejection sampling ends, an epoch serves every source its quota (`epoch_serves_quotas`).

The counter behind the draws is written in sixteen bytes and starts again for every
source and for the interleave. Each of them draws at most sixteen million numbers, so
the counter lasts if no draw is rejected 2 ^ 104 times in a row (`RejectionEnds`).
-/

namespace TrainingSampling

/-- **Rejection sampling ends**: wherever the counter stands, one of the next
2 ^ 104 digests is below the limit of the bound, for any bound there can be. -/
def RejectionEnds (sha : String → ℕ → ℕ) : Prop :=
  ∀ key counter bound, 0 < bound → bound ≤ 16000000 →
    ∃ n < 2 ^ 104, sha key (counter + n) < 2 ^ 256 - 2 ^ 256 % bound

variable {sha : String → ℕ → ℕ}

/-! ## Draws that return -/

namespace CounterRandom

theorem belowWithin_ok {bound fuel n : ℕ} (rng : CounterRandom) (hn : n < fuel)
    (hvalue : sha rng.key (rng.counter + n) < 2 ^ 256 - 2 ^ 256 % bound) :
    ∃ r, belowWithin sha bound fuel rng = .ok r ∧ r.2.counter ≤ rng.counter + n + 1 := by
  induction fuel generalizing n rng with
  | zero => exact absurd hn (Nat.not_lt_zero n)
  | succ fuel ih =>
    unfold belowWithin
    dsimp only
    split
    case isTrue => exact ⟨_, rfl, by dsimp only; omega⟩
    case isFalse hrejected =>
      -- the first digest is rejected, so the one below the limit comes later
      cases n with
      | zero => exact absurd hvalue hrejected
      | succ n =>
        have hvalue' : sha rng.key (rng.counter + 1 + n) < 2 ^ 256 - 2 ^ 256 % bound := by
          rwa [Nat.add_assoc, Nat.add_comm 1 n]
        obtain ⟨r, hr, hcounter⟩ :=
          ih { rng with counter := rng.counter + 1 } (Nat.lt_of_succ_lt_succ hn) hvalue'
        exact ⟨r, hr, by dsimp only at hcounter; omega⟩

theorem below_ok (hends : RejectionEnds sha) {bound : ℕ} (hb : 0 < bound)
    (hbound : bound ≤ 16000000) (rng : CounterRandom)
    (hroom : rng.counter + 2 ^ 104 ≤ 2 ^ 128) :
    ∃ r, rng.below sha bound = .ok r ∧ r.2.counter ≤ rng.counter + 2 ^ 104 := by
  obtain ⟨n, hn, hvalue⟩ := hends rng.key rng.counter bound hb hbound
  have hfuel : n < 2 ^ 128 - rng.counter := by omega
  obtain ⟨r, hr, hcounter⟩ := belowWithin_ok rng hfuel hvalue
  exact ⟨r, hr, by omega⟩

theorem shuffleFrom_ok (hends : RejectionEnds sha) {index : ℕ}
    (hindex : index < 16000000) (rng : CounterRandom)
    (hroom : rng.counter + index * 2 ^ 104 ≤ 2 ^ 128) (values : List ℕ) :
    ∃ r, shuffleFrom sha index rng values = .ok r := by
  induction index generalizing rng values with
  | zero => exact ⟨_, rfl⟩
  | succ index ih =>
    obtain ⟨⟨other, rng'⟩, hbelow, hcounter⟩ :=
      below_ok hends (Nat.succ_pos (index + 1)) hindex rng (by omega)
    unfold shuffleFrom
    rw [hbelow]
    exact ih (Nat.lt_of_succ_lt hindex) rng' (by dsimp only at hcounter; omega) _

theorem shuffle_ok (hends : RejectionEnds sha) (key : String) (values : List ℕ)
    (hlength : values.length ≤ 16000000) :
    ∃ r, ({ key := key } : CounterRandom).shuffle sha values = .ok r :=
  shuffleFrom_ok hends (by omega) _ (by dsimp only; omega) values

theorem draws_ok (hends : RejectionEnds sha) {size quota : ℕ} (hs : 0 < size)
    (hsize : size ≤ 16000000) (rng : CounterRandom)
    (hroom : rng.counter + quota * 2 ^ 104 ≤ 2 ^ 128) :
    ∃ rows, draws sha size quota rng = .ok rows := by
  induction quota generalizing rng with
  | zero => exact ⟨_, rfl⟩
  | succ quota ih =>
    obtain ⟨⟨row, rng'⟩, hbelow, hcounter⟩ := below_ok hends hs hsize rng (by omega)
    obtain ⟨rows, hrows⟩ := ih rng' (by dsimp only at hcounter; omega)
    unfold draws
    rw [hbelow]
    dsimp only
    rw [hrows]
    exact ⟨_, rfl⟩

end CounterRandom

/-! ## Epochs that are drawn -/

/-- **The pools `mixture_epoch_order` admits**, in an epoch. -/
structure Admissible (epoch : ℕ) (replacement : Bool) (pools : List (ℕ × ℕ)) : Prop where
  count : 1 ≤ pools.length ∧ pools.length ≤ 16
  epoch : epoch < 2 ^ 64
  total : (pools.map Prod.snd).sum ≤ 16000000
  size : ∀ pool ∈ pools, 1 ≤ pool.1 ∧ pool.1 ≤ 1000000
  quota : ∀ pool ∈ pools, pool.2 ≤ 16000000
  fits : replacement = false → ∀ pool ∈ pools, pool.2 ≤ pool.1

variable {identitySha256 : String} {epoch : ℕ} {replacement : Bool}
  {pools : List (ℕ × ℕ)} {order : List (ℕ × ℕ)}

variable (identitySha256 epoch replacement) in
theorem sourceDraws_ok (hends : RejectionEnds sha) {size quota : ℕ}
    (hs : 1 ≤ size ∧ size ≤ 1000000) (hq : quota ≤ 16000000) (index : ℕ) :
    ∃ rows, sourceDraws sha identitySha256 epoch replacement index size quota
      = .ok rows := by
  unfold sourceDraws
  dsimp only
  split
  · exact CounterRandom.draws_ok hends hs.1 (by omega) _ (by dsimp only; omega)
  obtain ⟨r, hr⟩ := CounterRandom.shuffle_ok hends
    s!"{identitySha256}:{epoch}:source:{index}" (List.range size)
    (by rw [List.length_range]; omega)
  rw [hr]
  exact ⟨_, rfl⟩

variable (identitySha256 epoch replacement) in
theorem sourceOrders_ok (hends : RejectionEnds sha)
    (hsize : ∀ pool ∈ pools, 1 ≤ pool.1 ∧ pool.1 ≤ 1000000)
    (hquota : ∀ pool ∈ pools, pool.2 ≤ 16000000) (index : ℕ) :
    ∃ order, sourceOrders sha identitySha256 epoch replacement index pools = .ok order := by
  induction pools generalizing index with
  | nil => exact ⟨_, rfl⟩
  | cons pool pools ih =>
    obtain ⟨hs, hsize'⟩ := List.forall_mem_cons.mp hsize
    obtain ⟨hq, hquota'⟩ := List.forall_mem_cons.mp hquota
    obtain ⟨rows, hrows⟩ := sourceDraws_ok identitySha256 epoch replacement hends hs hq index
    obtain ⟨rest, hrest⟩ := ih hsize' hquota' (index + 1)
    unfold sourceOrders
    rw [hrows]
    dsimp only
    rw [hrest]
    exact ⟨_, rfl⟩

variable (identitySha256) in
theorem mixtureEpochOrder_ok (hends : RejectionEnds sha)
    (hpools : Admissible epoch replacement pools) (strategy : Strategy) :
    ∃ order, mixtureEpochOrder sha identitySha256 epoch replacement pools strategy
      = .ok order := by
  obtain ⟨drawn, hdrawn⟩ := sourceOrders_ok identitySha256 epoch replacement hends
    hpools.size hpools.quota 0
  unfold mixtureEpochOrder
  rw [if_neg fun h => h.elim (fun h => h hpools.count) fun h => h hpools.epoch, if_neg, hdrawn]
  · cases strategy with
    | sequential => exact ⟨_, rfl⟩
    | weighted =>
      have hd : Drawable replacement pools := fun pool hpool =>
        ⟨(hpools.size pool hpool).1, fun hr => hpools.fits hr pool hpool⟩
      have hlength := (sourceOrders_spec List.drop_zero hd hdrawn).1
      obtain ⟨⟨positions, rng⟩, hshuffle⟩ := CounterRandom.shuffle_ok hends
        s!"{identitySha256}:{epoch}:interleave" (List.range drawn.length)
        (by rw [List.length_range, hlength]; exact hpools.total)
      dsimp only
      rw [hshuffle]
      dsimp only
      rw [mapM_getItem_of_perm (CounterRandom.shuffle_perm hshuffle)]
      exact ⟨_, rfl⟩
  · grind [cases Admissible]

/-! ## What is served -/

structure Serves (replacement : Bool) (pools order : List (ℕ × ℕ)) : Prop where
  quota : ∀ i size quota, pools[i]? = some (size, quota) →
    (order.map Prod.fst).count i = quota
  row : ∀ ref ∈ order, ∃ size quota, pools[ref.1]? = some (size, quota) ∧ ref.2 < size
  once : replacement = false → order.Nodup

theorem Serves.perm {order' : List (ℕ × ℕ)} (h : Serves replacement pools order)
    (hperm : order'.Perm order) : Serves replacement pools order' where
  quota i size quota hpool := by
    rw [(hperm.map Prod.fst).count_eq]
    exact h.quota i size quota hpool
  row ref href := h.row ref (hperm.mem_iff.mp href)
  once hr := hperm.nodup_iff.mpr (h.once hr)

theorem sourceDraws_nodup {index size quota : ℕ} {rows : List ℕ}
    (h : sourceDraws sha identitySha256 epoch false index size quota = .ok rows) :
    rows.Nodup := by
  unfold sourceDraws at h
  dsimp only at h
  rw [if_neg Bool.false_ne_true] at h
  obtain ⟨r, hshuffle, rfl⟩ := map_eq_ok h
  have hnodup := (CounterRandom.shuffle_perm hshuffle).nodup_iff.mpr List.nodup_range
  exact hnodup.sublist (List.take_sublist _ _)

theorem sourceOrders_counts {index : ℕ} (hd : Drawable replacement pools)
    (h : sourceOrders sha identitySha256 epoch replacement index pools = .ok order) :
    (∀ ref ∈ order, index ≤ ref.1)
    ∧ (∀ i size quota, pools[i]? = some (size, quota) →
      (order.map Prod.fst).count (index + i) = quota)
    ∧ (replacement = false → order.Nodup) := by
  induction pools generalizing index order with
  | nil =>
    cases h
    refine ⟨fun _ h => absurd h List.not_mem_nil, fun i _ _ h => ?_, fun _ => List.nodup_nil⟩
    rw [List.getElem?_nil] at h
    cases h
  | cons pool pools ih =>
    obtain ⟨size, quota⟩ := pool
    unfold sourceOrders at h
    split at h
    · cases h
    rename_i rows hrows
    obtain ⟨rest, hrest, rfl⟩ := map_eq_ok h
    obtain ⟨⟨hs, hq⟩, hd'⟩ := List.forall_mem_cons.mp hd
    have hlength : rows.length = quota := (sourceDraws_spec hs hq hrows).1
    obtain ⟨hfrom, hcounts, honce⟩ := ih hd' hrest
    have hmine : (rows.map fun row => (index, row)).map Prod.fst
        = List.replicate quota index := by
      rw [List.map_map, ← hlength]
      exact List.map_const' ..
    have hothers : (rest.map Prod.fst).count index = 0 := by
      refine List.count_eq_zero.mpr fun hmem => ?_
      obtain ⟨ref, href, hindex⟩ := List.mem_map.mp hmem
      have := hfrom ref href
      omega
    refine ⟨fun ref href => ?_, fun i size' quota' hpool => ?_, fun hr => ?_⟩
    · grind
    · rw [List.map_append, List.count_append, hmine, List.count_replicate]
      cases i with
      | zero => grind
      | succ i => grind
    · subst hr
      refine List.Nodup.append ?_ (honce rfl) fun ref hmine hmem => ?_
      · exact (sourceDraws_nodup hrows).map fun _ _ hrow => congrArg Prod.snd hrow
      · grind

/-- **Every epoch serves its exact quotas.** -/
theorem epoch_serves_quotas (hends : RejectionEnds sha) (identitySha256 : String)
    (hpools : Admissible epoch replacement pools) :
    ∃ sequential weighted,
      mixtureEpochOrder sha identitySha256 epoch replacement pools .sequential
        = .ok sequential
      ∧ mixtureEpochOrder sha identitySha256 epoch replacement pools .weighted
        = .ok weighted
      ∧ Serves replacement pools sequential ∧ Serves replacement pools weighted
      ∧ weighted.Perm sequential := by
  obtain ⟨sequential, hsequential⟩ :=
    mixtureEpochOrder_ok identitySha256 hends hpools .sequential
  obtain ⟨weighted, hweighted⟩ :=
    mixtureEpochOrder_ok identitySha256 hends hpools .weighted
  obtain ⟨-, drawn, hdrawn, hd, hperm⟩ := mixtureEpochOrder_cases hsequential
  obtain ⟨-, drawn', hdrawn', -, hperm'⟩ := mixtureEpochOrder_cases hweighted
  obtain rfl : drawn = drawn' := Except.ok.inj (hdrawn.symm.trans hdrawn')
  obtain ⟨-, hcounts, honce⟩ := sourceOrders_counts hd hdrawn
  have hserves : Serves replacement pools drawn :=
    { quota := fun i size quota hpool => Nat.zero_add i ▸ hcounts i size quota hpool
      row := fun ref href => by
        obtain ⟨size, quota, hpool, -, hrow⟩ :=
          (sourceOrders_spec List.drop_zero hd hdrawn).2 ref href
        exact ⟨size, quota, hpool, hrow⟩
      once := honce }
  exact ⟨sequential, weighted, hsequential, hweighted, hserves.perm hperm,
    hserves.perm hperm', hperm'.trans hperm.symm⟩

/-- Two sources, the second with a quota for two of its three rows. The digests are
all zero. -/
theorem epoch_serves_quotas_of_two : ∃ sequential weighted,
      mixtureEpochOrder (fun _ _ => 0) "id" 0 false [(1, 1), (3, 2)] .sequential
        = .ok sequential
      ∧ mixtureEpochOrder (fun _ _ => 0) "id" 0 false [(1, 1), (3, 2)] .weighted
        = .ok weighted
      ∧ Serves false [(1, 1), (3, 2)] sequential ∧ Serves false [(1, 1), (3, 2)] weighted
      ∧ weighted.Perm sequential :=
  epoch_serves_quotas (fun _ _ bound hb hbound => ⟨0, by decide, Nat.sub_pos_of_lt
      ((Nat.mod_lt _ hb).trans_le (hbound.trans (by decide)))⟩)
    "id" ⟨by decide, by decide, by decide, by decide, by decide, fun _ => by decide⟩

end TrainingSampling
