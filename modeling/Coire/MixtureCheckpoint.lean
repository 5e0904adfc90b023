import Coire.MixtureSampler

/-!
# Checkpoints of the mixture sampler

A checkpoint of a training run keeps where its sampler is in the stream of the epochs,
and nothing of the stream itself. The main result, `checkpoint_resume_continues`, is
that this is enough: a sampler that restores the checkpoint accepts it, and goes on as
the one that took it. The place is drawn again from its numbers (`Place.find_self`), a
call depends on the place only (`nextBatch_forget`), and as every call takes a whole
batch the position is a multiple of the batch size, which `restore` asks for (`Sound`).

Samplers at one place of one stream stay so (`Alike.after`), so the two ranks of a run
divide each batch between them (`divided_of_alike`).
-/

namespace TrainingSampling

open BlockStream

namespace MixtureSampler

variable {H : Hashes} {args : MixtureArgs}

/-! ## Runs of calls -/

theorem after_succ (n : ℕ) (S : MixtureSampler H args) :
    S.after (n + 1) = (S.after n).nextBatch.1 :=
  Function.iterate_succ_apply' _ n S

theorem after_add (m n : ℕ) (S : MixtureSampler H args) :
    S.after (m + n) = (S.after m).after n := by
  unfold after
  rw [Nat.add_comm, Function.iterate_add_apply]

theorem after_eq (n : ℕ) (S : MixtureSampler H args) :
    ∃ q l, S.after n = { S with place := q, lastBatchReferences := l } := by
  induction n with
  | zero => exact ⟨S.place, S.lastBatchReferences, rfl⟩
  | succ n ih =>
    obtain ⟨q, l, hn⟩ := ih
    rw [after_succ, hn]
    cases hg : gather args.batchSize args.batchSize q [] with
    | error e => exact ⟨q, l, congrArg Prod.fst (nextBatch_error hg)⟩
    | ok r =>
      obtain ⟨batch, hcall, -⟩ := nextBatch_ok
        (S := { S with place := q, lastBatchReferences := l }) hg
      exact ⟨_, _, congrArg Prod.fst hcall⟩

theorem nextBatch_forget (S : MixtureSampler H args) (l : List (String × ℕ)) :
    ∃ l', ({ S with lastBatchReferences := l } : MixtureSampler H args).nextBatch
      = ({ S.nextBatch.1 with lastBatchReferences := l' }, S.nextBatch.2) := by
  cases hg : gather args.batchSize args.batchSize S.place [] with
  | error e =>
    rw [nextBatch_error (S := S) hg]
    exact ⟨l, nextBatch_error hg⟩
  | ok r =>
    obtain ⟨-, -, batch, hcall, -⟩ := nextBatch_spec hg
    have hS : S.nextBatch = _ := hcall S.lastBatchReferences
    rw [hS]
    exact ⟨_, hcall l⟩

theorem after_forget (S : MixtureSampler H args) (l : List (String × ℕ)) (n : ℕ) :
    ∃ l', ({ S with lastBatchReferences := l } : MixtureSampler H args).after n
      = { S.after n with lastBatchReferences := l' } := by
  induction n with
  | zero => exact ⟨l, rfl⟩
  | succ n ih =>
    obtain ⟨l', hn⟩ := ih
    obtain ⟨l'', hcall⟩ := nextBatch_forget (S.after n) l'
    rw [after_succ, after_succ, hn, hcall]
    exact ⟨l'', rfl⟩

/-! ## What holds in a run -/

variable {S : MixtureSampler H args}

theorem new_ok {rank : ℕ} (h : new H args rank = .ok S) :
    S.rank = rank ∧ S.place.epoch = 0 ∧ S.place.cursor = 0
      ∧ S.lastBatchReferences = [] := by
  unfold new at h
  split at h
  · split at h
    · cases h
    split at h
    · split at h
      · obtain ⟨place, hplace, rfl⟩ := map_eq_ok h
        obtain ⟨he, hc⟩ := Place.find_ok hplace
        exact ⟨rfl, he, hc, rfl⟩
      · cases h
    · cases h
  · cases h

structure Sound (S : MixtureSampler H args) : Prop where
  reached : S.place.Reached
  whole : args.batchSize ∣ S.place.read.length

theorem sound_new {rank : ℕ} (h : new H args rank = .ok S) : S.Sound := by
  obtain ⟨-, he, hc, -⟩ := new_ok h
  have hreached : S.place.Reached := by
    intro epoch hle
    rw [he, Nat.le_zero] at hle
    exact ⟨S.place.order, by rw [hle, ← he]; exact S.place.order_eq⟩
  refine ⟨hreached, ?_⟩
  rw [Place.length_read (S.mixture.full H) hreached, he, hc, Nat.zero_mul]
  exact Nat.dvd_zero _

theorem Sound.nextBatch (h : S.Sound) : S.nextBatch.1.Sound := by
  cases hg : gather args.batchSize args.batchSize S.place [] with
  | error e => rw [nextBatch_error hg]; exact h
  | ok r =>
    obtain ⟨hlen, hreads, -⟩ := nextBatch_spec hg
    obtain ⟨batch, hcall, -⟩ := nextBatch_ok hg
    rw [hcall]
    refine ⟨hreads.reached h.reached, ?_⟩
    show args.batchSize ∣ r.1.read.length
    rw [hreads.read_eq, List.length_append, hlen]
    exact Nat.dvd_add h.whole (Nat.dvd_refl _)

theorem Sound.after (h : S.Sound) (n : ℕ) : (S.after n).Sound := by
  induction n with
  | zero => exact h
  | succ n ih => rw [after_succ]; exact ih.nextBatch

theorem restore_eq {state : MixtureSamplerState}
    (hle : state.cursor ≤ S.mixture.epochSamples)
    (hwhole : (state.epoch * S.mixture.epochSamples + state.cursor)
      % args.batchSize = 0)
    (hidentity : state.identitySha256 = S.mixture.identitySha256 H)
    (hrank : state.rank = S.rank) (hworld : state.worldSize = args.worldSize) :
    S.restore (.mixture state)
      = (Place.find (S.mixture.epochOrder H) S.mixture.epochSamples state.epoch
          state.cursor hle).map fun place =>
            { S with place, lastBatchReferences := [] } := by
  unfold restore
  dsimp only
  rw [dif_pos ⟨hle, hwhole⟩, if_pos ⟨hidentity, hrank, hworld⟩]

theorem restore_snapshot {q : Place (S.mixture.epochOrder H) S.mixture.epochSamples}
    {l : List (String × ℕ)}
    (h : ({ S with place := q, lastBatchReferences := l }
      : MixtureSampler H args).Sound) :
    S.restore (.mixture ({ S with place := q, lastBatchReferences := l }
      : MixtureSampler H args).snapshot)
      = .ok { S with place := q, lastBatchReferences := [] } := by
  have hwhole : (q.epoch * S.mixture.epochSamples + q.cursor) % args.batchSize = 0 := by
    rw [← Place.length_read (S.mixture.full H) h.reached]
    exact Nat.mod_eq_zero_of_dvd h.whole
  refine (restore_eq q.cursor_le hwhole rfl rfl rfl).trans ?_
  show (Place.find (S.mixture.epochOrder H) S.mixture.epochSamples q.epoch
    q.cursor q.cursor_le).map _ = _
  rw [Place.find_self]
  rfl

theorem restore_after (h : S.Sound) (m : ℕ) : S.restore (.mixture (S.after m).snapshot)
      = .ok { S.after m with lastBatchReferences := [] } := by
  have hsound := h.after m
  obtain ⟨q, l, hm⟩ := after_eq m S
  rw [hm] at hsound ⊢
  exact restore_snapshot hsound

/-! ## Ranks side by side -/

section Ranks

variable {args' : MixtureArgs}

/-- The inputs determine what they are bound to. -/
instance : Subsingleton (Mixture args) where
  allEq M M' := by
    obtain ⟨h, sources, hsources, _, _, _⟩ := M
    obtain ⟨h', sources', hsources', _, _, _⟩ := M'
    cases Except.ok.inj (hsources.symm.trans hsources')
    rfl

/-- **Two samplers at one place of one stream.** -/
structure Alike (S : MixtureSampler H args) (G : MixtureSampler H args') :
    Prop where
  orders : G.mixture.epochOrder H = S.mixture.epochOrder H
  sources : G.mixture.sources = S.mixture.sources
  batchSize : args'.batchSize = args.batchSize
  epoch : G.place.epoch = S.place.epoch
  cursor : G.place.cursor = S.place.cursor

variable {S : MixtureSampler H args} {G : MixtureSampler H args'}

theorem Alike.row_eq (h : Alike S G) : G.mixture.row = S.mixture.row := by
  funext ref
  unfold Mixture.row Mixture.referenceAt
  rw [h.sources]

theorem Alike.epochSamples_eq (h : Alike S G) :
    G.mixture.epochSamples = S.mixture.epochSamples := by
  unfold Mixture.epochSamples
  rw [h.sources]

theorem Alike.gather_ok (h : Alike S G)
    {q : Place (S.mixture.epochOrder H) S.mixture.epochSamples}
    {references : List (ℕ × ℕ)}
    (hg : gather args.batchSize args.batchSize S.place [] = .ok (q, references)) :
    ∃ q', gather args'.batchSize args'.batchSize G.place [] = .ok (q', references)
      ∧ q'.epoch = q.epoch ∧ q'.cursor = q.cursor :=
  gather_same_ok h.orders h.epochSamples_eq h.batchSize h.epoch h.cursor hg

theorem Alike.gather_error (h : Alike S G) {e : SamplerError}
    (hg : gather args.batchSize args.batchSize S.place [] = .error e) :
    gather args'.batchSize args'.batchSize G.place [] = .error e :=
  gather_same_error h.orders h.epochSamples_eq h.batchSize h.epoch h.cursor hg

theorem Alike.nextBatch (h : Alike S G) : Alike S.nextBatch.1 G.nextBatch.1 := by
  cases hg : gather args.batchSize args.batchSize S.place [] with
  | error e =>
    rw [nextBatch_error hg, nextBatch_error (h.gather_error hg)]
    exact h
  | ok r =>
    obtain ⟨q', hg', he, hc⟩ := h.gather_ok hg
    obtain ⟨b, hcall, -⟩ := nextBatch_ok hg
    obtain ⟨b', hcall', -⟩ := nextBatch_ok hg'
    rw [hcall, hcall']
    exact ⟨h.orders, h.sources, h.batchSize, he, hc⟩

theorem Alike.after (h : Alike S G) (n : ℕ) : Alike (S.after n) (G.after n) := by
  induction n with
  | zero => exact h
  | succ n ih =>
    rw [after_succ, after_succ]
    exact ih.nextBatch

theorem alike_new {S' : MixtureSampler H args} {rank rank' : ℕ}
    (h : new H args rank = .ok S) (h' : new H args rank' = .ok S') :
    Alike S S' := by
  obtain ⟨-, he, hc, -⟩ := new_ok h
  obtain ⟨-, he', hc', -⟩ := new_ok h'
  have hmixture : S'.mixture = S.mixture := Subsingleton.elim _ _
  exact ⟨by rw [hmixture], by rw [hmixture], rfl, he'.trans he.symm, hc'.trans hc.symm⟩

theorem after_rank (S : MixtureSampler H args) (n : ℕ) : (S.after n).rank = S.rank := by
  obtain ⟨q, l, h⟩ := after_eq n S
  rw [h]

/-- **One step of the two ranks of a run beside a sampler of one rank**: merged in turn,
the batches of the ranks are that of the single one. -/
def Divided (S₀ S₁ : MixtureSampler H args) (G : MixtureSampler H args') : Prop :=
  (∃ b₀ b₁ b, S₀.nextBatch.2 = .ok b₀ ∧ S₁.nextBatch.2 = .ok b₁
    ∧ G.nextBatch.2 = .ok b
    ∧ (∃ width, ∀ row ∈ b₀.tokens ++ b₁.tokens, row.length = width)
    ∧ interleave b₀.sourceRows b₁.sourceRows = b.sourceRows
    ∧ interleave S₀.nextBatch.1.lastBatchReferences
        S₁.nextBatch.1.lastBatchReferences
      = G.nextBatch.1.lastBatchReferences)
  ∨ ∃ e epoch, S₀.mixture.epochOrder H epoch = .error e
    ∧ S₀.nextBatch.2 = .error e ∧ S₁.nextBatch.2 = .error e
    ∧ G.nextBatch.2 = .error e

theorem interleave_dealt (M : Mixture args) (hw : args.worldSize = 2)
    (references : List (ℕ × ℕ)) :
    interleave (dealt M 0 references) (dealt M 1 references)
      = references.map M.row := by
  unfold dealt
  rw [hw, ← stride_map, ← stride_map, interleave_stride]

theorem divided_of_alike {S₀ S₁ : MixtureSampler H args}
    (h₁ : Alike S₀ S₁) (hG : Alike S₀ G) (hr₀ : S₀.rank = 0) (hr₁ : S₁.rank = 1)
    (hw : args.worldSize = 2) (hw' : args'.worldSize = 1) :
    Divided S₀ S₁ G := by
  have hM : S₁.mixture = S₀.mixture := Subsingleton.elim _ _
  have hr : G.rank = 0 := Nat.lt_one_iff.mp (hw' ▸ G.rank_lt)
  cases hg₀ : gather args.batchSize args.batchSize S₀.place [] with
  | error e =>
    obtain ⟨epoch, hepoch⟩ := TrainingSampling.gather_error hg₀
    rw [Divided, nextBatch_error hg₀, nextBatch_error (h₁.gather_error hg₀),
      nextBatch_error (hG.gather_error hg₀)]
    exact .inr ⟨e, epoch, hepoch, rfl, rfl, rfl⟩
  | ok r =>
    obtain ⟨q₀, references⟩ := r
    obtain ⟨q₁, hg₁, -⟩ := h₁.gather_ok hg₀
    obtain ⟨q, hg, -⟩ := hG.gather_ok hg₀
    obtain ⟨b₀, hcall₀, hwidth₀, hrows₀⟩ := nextBatch_ok hg₀
    obtain ⟨b₁, hcall₁, hwidth₁, hrows₁⟩ := nextBatch_ok hg₁
    obtain ⟨b, hcall, -, hrows⟩ := nextBatch_ok hg
    have hmerged : interleave (dealt S₀.mixture S₀.rank references)
        (dealt S₁.mixture S₁.rank references)
        = dealt G.mixture G.rank references := by
      rw [hr₀, hr₁, hM, interleave_dealt _ hw]
      unfold dealt
      rw [hw', hr, stride_one, hG.row_eq]
    rw [hM] at hwidth₁
    refine .inl ⟨b₀, b₁, b, by rw [hcall₀], by rw [hcall₁], by rw [hcall],
      ⟨S₀.mixture.width references, ?_⟩, ?_, ?_⟩
    · exact List.forall_mem_append.mpr ⟨hwidth₀, hwidth₁⟩
    · rw [hrows₀, hrows₁, hrows, ← interleave_map, hmerged]
    · rw [hcall₀, hcall₁, hcall]
      exact hmerged

theorem alike_of_orders {rank rank' : ℕ} (h : new H args rank = .ok S)
    (h' : new H args' rank' = .ok G) (hsources : args'.sources = args.sources)
    (hbatch : args'.batchSize = args.batchSize)
    (horders : ∀ epoch, G.mixture.epochOrder H epoch
      = S.mixture.epochOrder H epoch) : Alike S G := by
  obtain ⟨-, he, hc, -⟩ := new_ok h
  obtain ⟨-, he', hc', -⟩ := new_ok h'
  have hbound := G.mixture.sources_eq
  rw [hsources, S.mixture.sources_eq] at hbound
  exact ⟨funext horders, (Except.ok.inj hbound).symm, hbatch, he'.trans he.symm,
    hc'.trans hc.symm⟩

end Ranks

/-! ## Checkpoints -/

/-- **A checkpoint resumes the stream.** -/
theorem checkpoint_resume_continues (H : Hashes) (args : MixtureArgs) (rank : ℕ)
    (S F : MixtureSampler H args) (hS : new H args rank = .ok S)
    (hF : new H args rank = .ok F) (m n : ℕ) :
    (∃ R, F.restore (.mixture (S.after m).snapshot) = .ok R
      ∧ (∀ k < n, (R.after k).nextBatch.2 = (S.after (m + k)).nextBatch.2)
      ∧ (R.after n).snapshot = (S.after (m + n)).snapshot)
    ∧ ∀ (S₀ S₁ : MixtureSampler H args) (args' : MixtureArgs)
      (G : MixtureSampler H args'),
      new H args 0 = .ok S₀ → new H args 1 = .ok S₁ → new H args' 0 = .ok G →
      args.worldSize = 2 → args'.worldSize = 1 →
      args'.sources = args.sources → args'.batchSize = args.batchSize →
      (∀ epoch, G.mixture.epochOrder H epoch = S₀.mixture.epochOrder H epoch) →
      ∀ k, Divided (S₀.after k) (S₁.after k) (G.after k) := by
  refine ⟨?_, fun S₀ S₁ args' G h₀ h₁ hG hw hw' hsources hbatch horders k => ?_⟩
  · cases Except.ok.inj (hS.symm.trans hF)
    refine ⟨_, restore_after (sound_new hS) m, fun k _ => ?_, ?_⟩
    · obtain ⟨l', hk⟩ := after_forget (S.after m) [] k
      obtain ⟨l'', hcall⟩ := nextBatch_forget ((S.after m).after k) l'
      rw [hk, hcall, after_add]
    · obtain ⟨l', hn⟩ := after_forget (S.after m) [] n
      rw [hn, after_add]
      rfl
  · exact divided_of_alike ((alike_new h₀ h₁).after k)
      ((alike_of_orders h₀ hG hsources hbatch horders).after k)
      ((after_rank S₀ k).trans (new_ok h₀).1)
      ((after_rank S₁ k).trans (new_ok h₁).1) hw hw'

def digestOf (digit : Char) : String := String.ofList (List.replicate 64 digit)

theorem isDigest_digestOf (b : Bool) :
    isDigest (digestOf (if b then '1' else '2')) = true := by
  cases b <;> decide +kernel

/-- The identity tells the world sizes apart; a draw is the counter. -/
def plainHashes : Hashes where
  identity payload := digestOf (if payload.worldSize == 1 then '1' else '2')
  identity_isDigest payload := isDigest_digestOf (payload.worldSize == 1)
  draw _ counter := counter

def shortExample : TokenizedTrainingExample where
  sourceRow := 1
  contentSha256 := digestOf '0'
  tokens := [7, 8]
  targetMask := [false, true]
  targetStart := 1
  tokens_length := by decide
  targetStart_pos := Nat.one_pos
  targetMask_length := rfl
  targetStart_lt := by decide
  tokens_lt := by decide
  mask_before := by decide
  mask_after := by decide

/-- Batches of two over a dataset of one row, so that each goes through two
epochs. -/
def oneRowArgs (worldSize : ℕ) : MixtureArgs where
  sources := [⟨"dataset", digestOf '0', digestOf '0', [1], [shortExample], 1⟩]
  mixtureSha256 := digestOf '0'
  batchSize := 2
  seed := 0
  maxSequenceLength := 8
  strategy := .weighted
  replacement := false
  worldSize

theorem pools_oneRow {worldSize : ℕ} (M : Mixture (oneRowArgs worldSize)) :
    M.sources.map (fun s => (s.rows.length, s.quota)) = [(1, 1)] := by
  rw [← Except.ok.inj M.sources_eq]
  rfl

theorem mixtureEpochOrder_oneRow (sha : String → ℕ → ℕ) (identity identity' : String)
    (epoch : ℕ) : mixtureEpochOrder sha identity epoch false [(1, 1)] .weighted
      = mixtureEpochOrder sha identity' epoch false [(1, 1)] .weighted := by
  unfold mixtureEpochOrder
  split
  · rfl
  · split <;> rfl

theorem exists_of_isOk {ε α : Type} {x : Except ε α} (h : x.isOk = true) :
    ∃ a, x = .ok a := by
  cases x with
  | error e => cases h
  | ok a => exact ⟨a, rfl⟩

/-- A run of two ranks over one row, and a sampler of one rank beside it. -/
theorem one_row_resumes : ∃ (S₀ S₁ : MixtureSampler plainHashes (oneRowArgs 2))
      (G : MixtureSampler plainHashes (oneRowArgs 1)),
    new plainHashes (oneRowArgs 2) 0 = .ok S₀
    ∧ (∃ R, S₀.restore (.mixture (S₀.after 3).snapshot) = .ok R
      ∧ (∀ k < 2, (R.after k).nextBatch.2 = (S₀.after (3 + k)).nextBatch.2)
      ∧ (R.after 2).snapshot = (S₀.after 5).snapshot)
    ∧ ∀ k, Divided (S₀.after k) (S₁.after k) (G.after k) := by
  obtain ⟨S₀, h₀⟩ := exists_of_isOk
    (show (new plainHashes (oneRowArgs 2) 0).isOk = true by decide +kernel)
  obtain ⟨S₁, h₁⟩ := exists_of_isOk
    (show (new plainHashes (oneRowArgs 2) 1).isOk = true by decide +kernel)
  obtain ⟨G, hG⟩ := exists_of_isOk
    (show (new plainHashes (oneRowArgs 1) 0).isOk = true by decide +kernel)
  obtain ⟨hresume, hdivided⟩ := checkpoint_resume_continues plainHashes
    (oneRowArgs 2) 0 S₀ S₀ h₀ h₀ 3 2
  refine ⟨S₀, S₁, G, h₀, hresume, hdivided S₀ S₁ (oneRowArgs 1) G h₀ h₁ hG rfl rfl
    rfl rfl fun epoch => ?_⟩
  unfold Mixture.epochOrder
  rw [pools_oneRow, pools_oneRow]
  exact mixtureEpochOrder_oneRow _ _ _ epoch

end MixtureSampler

end TrainingSampling
