import Coire.MixtureCheckpoint

/-!
# Replaying the input history of a training run

`consumed_mixture_rows` computes, from the epoch and the cursor of a checkpoint,
which rows of which datasets a model has been trained on. It draws the epochs
again and adds up their rows; once every row is there it stops.

Training itself goes batch by batch, through the ends of epochs, and each rank
takes its share of a batch. That the two agree, `replay_agrees_with_training`, is
shown through the part of the stream that a place stands for: training has
visited it (`biUnion_trained`), since the ranks together take all of a batch, and the
replay computes its rows (`consumeEpochs_eq`), since an epoch that is stopped
before would have added nothing.
-/

namespace TrainingSampling

open BlockStream

namespace Mixture

variable {args : MixtureArgs} {M : Mixture args} {H : Hashes}

def replaySources (M : Mixture args) : List ReplaySource :=
  M.sources.map fun s => (s.datasetId, s.rows, s.quota)

def allRows (M : Mixture args) : List (String × ℕ) :=
  (M.sources.filter (·.quota ≠ 0)).flatMap fun s =>
    s.rows.map fun row => (s.datasetId, row)

theorem indexTrainingSource_datasetId {s : IndexedTrainingSource}
    {b : BoundSource} (h : indexTrainingSource s = .ok b) :
    b.datasetId = s.datasetId := by
  grind [indexTrainingSource]

theorem datasetIds (M : Mixture args) :
    M.sources.map (·.datasetId) = args.sources.map (·.datasetId) := by
  have h := forall₂_of_mapM M.sources_eq
  generalize M.sources = sources at h ⊢
  generalize args.sources = given at h ⊢
  induction h with
  | nil => rfl
  | cons hs _ ih =>
    rw [List.map_cons, List.map_cons, ih, indexTrainingSource_datasetId hs]

theorem nodup_allRows (M : Mixture args) : M.allRows.Nodup := by
  have hids : (M.sources.map (·.datasetId)).Nodup := by
    rw [M.datasetIds]
    exact M.accepted.2.1
  refine List.nodup_flatMap.mpr ⟨fun s _ => ?_, ?_⟩
  · exact s.rows_nodup.map fun _ _ h => congrArg Prod.snd h
  refine List.Pairwise.filter _ ((List.pairwise_map.mp hids).imp ?_)
  intro s t hne x hs ht
  obtain ⟨row, -, rfl⟩ := List.mem_map.mp hs
  obtain ⟨row', -, heq⟩ := List.mem_map.mp ht
  exact hne (congrArg Prod.fst heq).symm

theorem length_allRows (M : Mixture args) : M.allRows.length
      = ((M.replaySources.filter (·.2.2 ≠ 0)).map (·.2.1.length)).sum := by
  unfold allRows replaySources
  rw [List.length_flatMap, List.filter_map, List.map_map]
  simp only [List.length_map]
  rfl

variable {epoch : ℕ} {ref : ℕ × ℕ}

theorem row_eq {s : BoundSource}
    (hs : M.sources[ref.1]? = some s) (hlt : ref.2 < s.rows.length) :
    M.row ref = (s.datasetId, s.rows[ref.2]) := by
  unfold row referenceAt
  rw [getItem_sources hs]
  dsimp only
  rw [getItem_of_lt hlt]
  rfl

theorem row_mem_allRows (h : M.Valid ref) : M.row ref ∈ M.allRows := by
  obtain ⟨s, hs, hquota, hlt⟩ := h
  rw [row_eq hs hlt]
  refine List.mem_flatMap.mpr ⟨s, List.mem_filter.mpr
    ⟨List.mem_of_getElem? hs, ?_⟩, List.mem_map_of_mem (List.getElem_mem hlt)⟩
  exact decide_eq_true hquota.ne'

theorem rowOf_ok (h : M.Valid ref) : rowOf M.replaySources ref = .ok (M.row ref) := by
  obtain ⟨s, hs, -, hlt⟩ := h
  rw [row_eq hs hlt]
  have hget : getItem M.replaySources ref.1 = .ok (s.datasetId, s.rows, s.quota) := by
    unfold getItem replaySources
    rw [List.getElem?_map, hs]
    rfl
  unfold rowOf
  rw [hget]
  dsimp only
  rw [getItem_of_lt hlt]
  rfl

theorem addRows_ok {refs : List (ℕ × ℕ)} (h : ∀ ref ∈ refs, M.Valid ref)
    (consumed : Finset (String × ℕ)) :
    addRows M.replaySources refs consumed
      = .ok (consumed ∪ (refs.map M.row).toFinset) := by
  induction refs generalizing consumed with
  | nil =>
    rw [List.map_nil, List.toFinset_nil, Finset.union_empty]
    rfl
  | cons ref refs ih =>
    grind [addRows, rowOf_ok, List.toFinset_cons]

/-! ## What the replay computes -/

def rowsUpTo (M : Mixture args) (H : Hashes) (epoch cursor : ℕ) :
    Finset (String × ℕ) :=
  ((upTo (block (M.epochOrder H)) epoch cursor).map M.row).toFinset

theorem rowsUpTo_take (epoch cursor : ℕ) : M.rowsUpTo H epoch 0
        ∪ (((block (M.epochOrder H) epoch).take cursor).map M.row).toFinset
      = M.rowsUpTo H epoch cursor := by
  unfold rowsUpTo
  rw [← List.toFinset_append, ← List.map_append]
  conv_rhs => rw [← Nat.zero_add cursor, upTo_add, List.drop_zero]

theorem valid_of_mem_block (h : ref ∈ block (M.epochOrder H) epoch) : M.Valid ref := by
  unfold block at h
  split at h
  · rename_i order horder
    exact valid_of_inPools (mem_mixtureEpochOrder horder h)
  · cases h

theorem rowsUpTo_subset (epoch cursor : ℕ) :
    M.rowsUpTo H epoch cursor ⊆ M.allRows.toFinset := by
  intro x hx
  obtain ⟨ref, href, rfl⟩ := List.mem_map.mp (List.mem_toFinset.mp hx)
  obtain ⟨e, -, hmem⟩ := exists_mem_of_mem_upTo href
  exact List.mem_toFinset.mpr (row_mem_allRows (valid_of_mem_block hmem))

theorem rowsUpTo_saturated {e cursor : ℕ} (he : e ≤ epoch)
    (hcard : (M.rowsUpTo H e 0).card
      = ((M.replaySources.filter (·.2.2 ≠ 0)).map (·.2.1.length)).sum) :
    M.rowsUpTo H e 0 = M.rowsUpTo H epoch cursor := by
  have hall : M.rowsUpTo H e 0 = M.allRows.toFinset := by
    refine Finset.eq_of_subset_of_card_le (rowsUpTo_subset e 0) ?_
    rw [hcard, List.toFinset_card_of_nodup M.nodup_allRows, M.length_allRows]
  refine Finset.Subset.antisymm (fun x hx => ?_) ?_
  · obtain ⟨ref, href, rfl⟩ := List.mem_map.mp (List.mem_toFinset.mp hx)
    exact List.mem_toFinset.mpr (List.mem_map_of_mem (upTo_subset he href))
  · rw [hall]
    exact rowsUpTo_subset epoch cursor

theorem sum_quotas (M : Mixture args) :
    (M.replaySources.map (·.2.2)).sum = M.epochSamples := by
  unfold replaySources epochSamples
  rw [List.map_map]
  rfl

theorem consumeEpochs_cons {cursor e : ℕ} {epochs : List ℕ}
    (hdrawn : ∃ order, M.epochOrder H e = .ok order)
    (hcard : (M.rowsUpTo H e 0).card
      ≠ ((M.replaySources.filter (·.2.2 ≠ 0)).map (·.2.1.length)).sum) :
    consumeEpochs H.draw (M.identitySha256 H) epoch cursor M.replaySources
        args.strategy args.replacement (e :: epochs) (M.rowsUpTo H e 0)
      = consumeEpochs H.draw (M.identitySha256 H) epoch cursor M.replaySources
        args.strategy args.replacement epochs
        (M.rowsUpTo H e (if e = epoch then cursor else M.epochSamples)) := by
  obtain ⟨order, horder⟩ := hdrawn
  have hpools : M.replaySources.map (fun s => (s.2.1.length, s.2.2))
      = M.sources.map fun s => (s.rows.length, s.quota) := by
    unfold replaySources
    rw [List.map_map]
    rfl
  have hdraw : mixtureEpochOrder H.draw (M.identitySha256 H) e args.replacement
      (M.replaySources.map fun s => (s.2.1.length, s.2.2)) args.strategy
      = .ok order := by
    rw [hpools]
    exact horder
  have hvalid : ∀ count, ∀ ref ∈ order.take count, M.Valid ref := by
    intro count ref href
    have hmem : ref ∈ block (M.epochOrder H) e := by
      rw [block_of_ok horder]
      exact List.mem_of_mem_take href
    exact valid_of_mem_block hmem
  rw [consumeEpochs]
  dsimp only
  rw [if_neg hcard, hdraw]
  dsimp only
  rw [addRows_ok (hvalid _), M.sum_quotas]
  dsimp only
  rw [← block_of_ok horder, rowsUpTo_take]

/-- **The replay of the epochs from `e` on** gives the rows up to the cursor. The
induction is on the number of epochs that are left. -/
theorem consumeEpochs_eq {cursor e m : ℕ} (hm : e + m = epoch)
    (hdrawn : ∀ k ≤ epoch, ∃ order, M.epochOrder H k = .ok order) :
    consumeEpochs H.draw (M.identitySha256 H) epoch cursor M.replaySources
        args.strategy args.replacement (List.range' e (m + 1)) (M.rowsUpTo H e 0)
      = .ok (M.rowsUpTo H epoch cursor) := by
  have hle : e ≤ epoch := by omega
  rw [List.range'_succ]
  by_cases hcard : (M.rowsUpTo H e 0).card
      = ((M.replaySources.filter (·.2.2 ≠ 0)).map (·.2.1.length)).sum
  · rw [consumeEpochs]
    dsimp only
    rw [if_pos hcard, rowsUpTo_saturated hle hcard]
  · rw [consumeEpochs_cons (hdrawn e hle) hcard]
    cases m with
    | zero =>
      obtain rfl : e = epoch := hm
      rw [if_pos rfl]
      rfl
    | succ m =>
      have hne : e ≠ epoch := by omega
      have hnext : M.rowsUpTo H e M.epochSamples = M.rowsUpTo H (e + 1) 0 := by
        obtain ⟨order, horder⟩ := hdrawn e hle
        have hlen : (block (M.epochOrder H) e).length = M.epochSamples := by
          rw [block_of_ok horder]
          exact M.full H e order horder
        unfold rowsUpTo
        rw [upTo_succ_zero hlen]
      rw [if_neg hne, hnext]
      exact consumeEpochs_eq (by omega) hdrawn
termination_by m

theorem consumedMixtureRows_eq {p : Place (M.epochOrder H) M.epochSamples}
    (hreached : p.Reached) (hepoch : p.epoch ≤ 6400000)
    (hposition : p.epoch * M.epochSamples + p.cursor ≤ 409600000) :
    consumedMixtureRows H.draw (M.identitySha256 H) p.epoch p.cursor
        M.replaySources args.strategy args.replacement
      = .ok (p.read.map M.row).toFinset := by
  unfold consumedMixtureRows
  rw [M.sum_quotas, if_pos ⟨M.samples, p.cursor_le, hepoch, hposition⟩,
    List.range_eq_range']
  exact consumeEpochs_eq (e := 0) (Nat.zero_add _) hreached

end Mixture

/-! ## What training visits -/

namespace MixtureSampler

variable {H : Hashes} {args : MixtureArgs}

/-- **The rows a sampler has trained on** in its first `n` calls. -/
def trained (S : MixtureSampler H args) (n : ℕ) : Finset (String × ℕ) :=
  (Finset.range n).biUnion fun k =>
    (S.after (k + 1)).lastBatchReferences.toFinset

theorem trained_succ (S : MixtureSampler H args) (n : ℕ) : S.trained (n + 1)
      = S.trained n ∪ (S.after (n + 1)).lastBatchReferences.toFinset := by
  unfold trained
  rw [Finset.range_add_one, Finset.biUnion_insert, Finset.union_comm]

theorem last_subset_trained {rank : ℕ} {S : MixtureSampler H args}
    (h : new H args rank = .ok S) (n : ℕ) :
    (S.after n).lastBatchReferences.toFinset ⊆ S.trained n := by
  cases n with
  | zero =>
    show S.lastBatchReferences.toFinset ⊆ _
    rw [(new_ok h).2.2.2]
    exact Finset.empty_subset _
  | succ n =>
    rw [trained_succ]
    exact Finset.subset_union_right

theorem biUnion_dealt (M : Mixture args) (references : List (ℕ × ℕ)) :
    (Finset.range args.worldSize).biUnion
        (fun rank => (dealt M rank references).toFinset)
      = (references.map M.row).toFinset := by
  have hw : 0 < args.worldSize := by
    have := M.accepted.2.2.2.2.1
    omega
  ext x
  rw [Finset.mem_biUnion, List.mem_toFinset, mem_iff_mem_stride hw]
  unfold dealt
  simp only [Finset.mem_range, List.mem_toFinset, stride_map]

section Ranks

variable {S : ℕ → MixtureSampler H args}

theorem trained_of_ok {rank n : ℕ} {S : MixtureSampler H args}
    (h : new H args rank = .ok S)
    {q : Place ((S.after n).mixture.epochOrder H) (S.after n).mixture.epochSamples}
    {references : List (ℕ × ℕ)}
    (hg : gather args.batchSize args.batchSize (S.after n).place []
      = .ok (q, references)) (M : Mixture args) :
    S.trained (n + 1) = S.trained n ∪ (dealt M rank references).toFinset := by
  obtain ⟨batch, hcall, -⟩ := nextBatch_ok hg
  have hM : (S.after n).mixture = M := Subsingleton.elim _ _
  have hrank : (S.after n).rank = rank := (after_rank S n).trans (new_ok h).1
  rw [trained_succ, after_succ, hcall]
  show _ ∪ (dealt (S.after n).mixture (S.after n).rank references).toFinset = _
  rw [hM, hrank]

theorem trained_of_error {rank n : ℕ} {S : MixtureSampler H args}
    (h : new H args rank = .ok S) {e : SamplerError}
    (hg : gather args.batchSize args.batchSize (S.after n).place [] = .error e) :
    S.trained (n + 1) = S.trained n := by
  rw [trained_succ, after_succ, nextBatch_error hg]
  exact Finset.union_eq_left.mpr (last_subset_trained h n)

theorem biUnion_trained (hS : ∀ r < args.worldSize, new H args r = .ok (S r))
    {r : ℕ} (hr : r < args.worldSize) (n : ℕ) :
    (Finset.range args.worldSize).biUnion (fun q => (S q).trained n)
      = (((S r).after n).place.read.map ((S r).after n).mixture.row).toFinset := by
  have halike : ∀ k, ∀ q ∈ Finset.range args.worldSize,
      Alike ((S r).after k) ((S q).after k) := fun k q hq =>
    (alike_new (hS r hr) (hS q (Finset.mem_range.mp hq))).after k
  induction n with
  | zero =>
    obtain ⟨-, he, hc, -⟩ := new_ok (hS r hr)
    have hread : (S r).place.read = [] := by
      unfold Place.read
      rw [he, hc]
      rfl
    show (Finset.range args.worldSize).biUnion (fun _ => ∅)
      = ((S r).place.read.map (S r).mixture.row).toFinset
    rw [hread]
    ext x
    simp
  | succ n ih =>
    cases hg : gather args.batchSize args.batchSize ((S r).after n).place [] with
    | error e =>
      -- no rank takes anything
      rw [after_succ, nextBatch_error hg, ← ih]
      exact Finset.biUnion_congr rfl fun q hq => trained_of_error
        (hS q (Finset.mem_range.mp hq)) ((halike n q hq).gather_error hg)
    | ok p =>
      obtain ⟨-, hreads, -⟩ := nextBatch_spec hg
      obtain ⟨batch, hcall, -⟩ := nextBatch_ok hg
      have htrained : ∀ q ∈ Finset.range args.worldSize,
          (S q).trained (n + 1) = (S q).trained n
            ∪ (dealt ((S r).after n).mixture q p.2).toFinset := by
        intro q hq
        obtain ⟨q', hg', -⟩ := (halike n q hq).gather_ok hg
        exact trained_of_ok (hS q (Finset.mem_range.mp hq)) hg' _
      rw [Finset.biUnion_congr rfl htrained, Finset.biUnion_union, ih,
        biUnion_dealt, after_succ, hcall]
      show _ = (p.1.read.map ((S r).after n).mixture.row).toFinset
      rw [hreads.read_eq, List.map_append, List.toFinset_append]

end Ranks

/-- **The replay of the input history agrees with training.** -/
theorem replay_agrees_with_training (H : Hashes) (args : MixtureArgs)
    (S : ℕ → MixtureSampler H args)
    (hS : ∀ r < args.worldSize, new H args r = .ok (S r)) (n r : ℕ)
    (hr : r < args.worldSize)
    (hepoch : ((S r).after n).snapshot.epoch ≤ 6400000)
    (hposition : ((S r).after n).snapshot.epoch * (S r).mixture.epochSamples
      + ((S r).after n).snapshot.cursor ≤ 409600000) :
    consumedMixtureRows H.draw ((S r).after n).snapshot.identitySha256
        ((S r).after n).snapshot.epoch ((S r).after n).snapshot.cursor
        (S r).mixture.replaySources args.strategy args.replacement
      = .ok ((Finset.range args.worldSize).biUnion fun q => (S q).trained n) := by
  rw [biUnion_trained hS hr n]
  have hM : (S r).mixture = ((S r).after n).mixture := Subsingleton.elim _ _
  rw [hM] at hposition ⊢
  exact Mixture.consumedMixtureRows_eq ((sound_new (hS r hr)).after n).reached
    hepoch hposition

theorem oneRow_places (r : ℕ) (hr : r < 2) :
    (new plainHashes (oneRowArgs 2) r).map (fun S =>
      ((S.after 3).snapshot.epoch, (S.after 3).snapshot.cursor,
        S.mixture.epochSamples)) = .ok (5, 1, 1) := by
  revert r
  decide +kernel

/-- Two ranks train on a single row, in three batches. -/
theorem one_row_replayed : ∃ S : ℕ → MixtureSampler plainHashes (oneRowArgs 2),
    (∀ r < 2, new plainHashes (oneRowArgs 2) r = .ok (S r))
    ∧ consumedMixtureRows plainHashes.draw
        ((S 0).after 3).snapshot.identitySha256 ((S 0).after 3).snapshot.epoch
        ((S 0).after 3).snapshot.cursor (S 0).mixture.replaySources .weighted false
      = .ok ((Finset.range 2).biUnion fun q => (S q).trained 3) := by
  have hplaces : ∀ r, ∃ S, r < 2 → new plainHashes (oneRowArgs 2) r = .ok S
      ∧ ((S.after 3).snapshot.epoch, (S.after 3).snapshot.cursor,
        S.mixture.epochSamples) = (5, 1, 1) := by
    intro r
    by_cases hr : r < 2
    · obtain ⟨S, hS, hplace⟩ := map_eq_ok (oneRow_places r hr)
      exact ⟨S, fun _ => ⟨hS, hplace⟩⟩
    · obtain ⟨S, -⟩ := map_eq_ok (oneRow_places 0 (by decide))
      exact ⟨S, fun h => absurd h hr⟩
  choose S hS using hplaces
  have hplace := (hS 0 (by decide)).2
  simp only [Prod.mk.injEq] at hplace
  obtain ⟨he, hc, hl⟩ := hplace
  refine ⟨S, fun r hr => (hS r hr).1, replay_agrees_with_training plainHashes
    (oneRowArgs 2) S (fun r hr => (hS r hr).1) 3 0 (by decide) ?_ ?_⟩
  · rw [he]
    decide
  · rw [he, hc, hl]
    decide

end MixtureSampler

end TrainingSampling
