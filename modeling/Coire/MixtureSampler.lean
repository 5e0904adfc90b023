import Coire.BlockStream
import Coire.Dict
import Coire.MixtureOrder

/-!
# The mixture sampler

`MixtureSampler`: the batches of a training run over a mixture of datasets. The epochs
of the mixture are one stream of references (`mixtureEpochOrder`); a call of
`next_batch` takes the next `batch_size` of them, into the next epoch if need be, and
each rank trains on every `world_size`-th one. A checkpoint keeps the epoch and the
cursor only, and the orders are drawn again from the identity of the inputs.

The state of a sampler that matters is its `Place` in the stream. What a call does to it
is `gather`, which no rank has a part in; a call then deals the references out. So
`Reads` says once what a call does, and `nextBatch_spec` what the batch is.
-/

namespace TrainingSampling

open BlockStream

def isDigest (text : String) : Bool :=
  text.length == 64
    && text.toList.all fun c => "0123456789abcdef".toList.contains c

/-! ## Sources -/

/-- **`TokenizedTrainingExample`**: its mask selects the tokens from
`targetStart` on. -/
structure TokenizedTrainingExample where
  sourceRow : ℕ
  contentSha256 : String
  tokens : List ℕ
  targetMask : List Bool
  targetStart : ℕ
  tokens_length : 2 ≤ tokens.length ∧ tokens.length ≤ 8192
  targetStart_pos : 1 ≤ targetStart
  targetMask_length : tokens.length = targetMask.length
  targetStart_lt : targetStart < tokens.length
  tokens_lt : ∀ token ∈ tokens, token < 2 ^ 31
  mask_before : ∀ bit ∈ targetMask.take targetStart, bit = false
  mask_after : ∀ bit ∈ targetMask.drop targetStart, bit = true

structure IndexedTrainingSource where
  datasetId : String
  sourceSha256 : String
  splitSha256 : String
  rows : List ℕ
  examples : List TokenizedTrainingExample
  quota : ℕ

/-- **A source whose rows are bound to their examples**: what
`index_training_source` returns. -/
structure BoundSource extends IndexedTrainingSource where
  rows_length : 1 ≤ rows.length ∧ rows.length ≤ 1000000
  rows_nodup : rows.Nodup
  examples_rows : examples.map (·.sourceRow) = rows

def bindRows (cache : Dict ℕ TokenizedTrainingExample) : (rows : List ℕ) →
    Except SamplerError
      {examples : List TokenizedTrainingExample // examples.map (·.sourceRow) = rows}
  | [] => .ok ⟨[], rfl⟩
  | row :: rows =>
    match cache.get? row with
    | none => .error
        (.validation "Mixture source token cache is incomplete or mismatched")
    | some e =>
      if hrow : e.sourceRow = row then
        match bindRows cache rows with
        | .error raised => .error raised
        | .ok ⟨examples, hexamples⟩ => .ok
            ⟨e :: examples, by rw [List.map_cons, hrow, hexamples]⟩
      else .error
        (.validation "Mixture source token cache is incomplete or mismatched")

/-- **`index_training_source`**, with the cache that the sampler makes of the
examples it is given. -/
def indexTrainingSource (s : IndexedTrainingSource) :
    Except SamplerError BoundSource :=
  if h : (1 ≤ s.rows.length ∧ s.rows.length ≤ 1000000) ∧ s.rows.Nodup
      ∧ (∀ row ∈ s.rows, 1 ≤ row) ∧ s.quota ≤ 16000000
      ∧ isDigest s.sourceSha256 = true ∧ isDigest s.splitSha256 = true then
    let cache := s.examples.foldl (fun cache e => cache.set e.sourceRow e) .empty
    match bindRows cache s.rows with
    | .error e => .error e
    | .ok ⟨examples, hexamples⟩ => .ok
        { s with
          examples := examples
          rows_length := h.1
          rows_nodup := h.2.1
          examples_rows := hexamples }
  else .error (.validation "Mixture source index is invalid")

/-! ## Inputs -/

/-- The arguments of the constructor that the ranks of a run have in common. -/
structure MixtureArgs where
  sources : List IndexedTrainingSource
  mixtureSha256 : String
  batchSize : ℕ
  seed : ℕ
  maxSequenceLength : ℕ
  strategy : Strategy
  replacement : Bool
  worldSize : ℕ

def MixtureArgs.Accepted (args : MixtureArgs) : Prop :=
  (1 ≤ args.sources.length ∧ args.sources.length ≤ 16)
    ∧ (args.sources.map (·.datasetId)).Nodup
    ∧ args.seed < 2 ^ 32
    ∧ (1 ≤ args.batchSize ∧ args.batchSize ≤ 64)
    ∧ (args.worldSize = 1 ∨ args.worldSize = 2)
    ∧ args.batchSize % args.worldSize = 0
    ∧ (2 ≤ args.maxSequenceLength ∧ args.maxSequenceLength ≤ 8192)
    ∧ isDigest args.mixtureSha256 = true

instance (args : MixtureArgs) : Decidable args.Accepted :=
  inferInstanceAs (Decidable (_ ∧ _))

/-- **The inputs of a sampler that was accepted**, their sources bound. -/
structure Mixture (args : MixtureArgs) where
  accepted : args.Accepted
  sources : List BoundSource
  sources_eq : args.sources.mapM indexTrainingSource = .ok sources
  samples : 1 ≤ (sources.map (·.quota)).sum
    ∧ (sources.map (·.quota)).sum ≤ 16000000
  quotas : ∀ s ∈ sources, args.replacement = false → s.quota ≤ s.rows.length
  tokens_le : ∀ s ∈ sources, ∀ e ∈ s.examples,
    e.tokens.length ≤ args.maxSequenceLength

structure IdentityPayload where
  mixtureSha256 : String
  seed : ℕ
  strategy : Strategy
  replacement : Bool
  batchSize : ℕ
  worldSize : ℕ
  maxSequenceLength : ℕ
  sources : List (String × String × String × List ℕ × ℕ
    × List (String × List ℕ × List Bool))

/-- **The digests**: the identity of the inputs, and the draws of a counter. -/
structure Hashes where
  identity : IdentityPayload → String
  identity_isDigest : ∀ payload, isDigest (identity payload) = true
  draw : String → ℕ → ℕ

namespace Mixture

variable {args : MixtureArgs} (M : Mixture args) (H : Hashes)

def epochSamples : ℕ := (M.sources.map (·.quota)).sum

def identitySha256 : String :=
  H.identity
    { mixtureSha256 := args.mixtureSha256
      seed := args.seed
      strategy := args.strategy
      replacement := args.replacement
      batchSize := args.batchSize
      worldSize := args.worldSize
      maxSequenceLength := args.maxSequenceLength
      sources := M.sources.map fun s =>
        (s.datasetId, s.sourceSha256, s.splitSha256, s.rows, s.quota,
          s.examples.map fun e => (e.contentSha256, e.tokens, e.targetMask)) }

def epochOrder (epoch : ℕ) : Except SamplerError (List (ℕ × ℕ)) :=
  mixtureEpochOrder H.draw (M.identitySha256 H) epoch args.replacement
    (M.sources.map fun s => (s.rows.length, s.quota)) args.strategy

def exampleAt (ref : ℕ × ℕ) : Except SamplerError TokenizedTrainingExample :=
  match getItem M.sources ref.1 with
  | .error e => .error e
  | .ok source => getItem source.examples ref.2

def referenceAt (ref : ℕ × ℕ) : Except SamplerError (String × ℕ) :=
  match getItem M.sources ref.1 with
  | .error e => .error e
  | .ok source => (getItem source.rows ref.2).map (source.datasetId, ·)

end Mixture

/-! ## Places in the stream -/

section Places

variable (orders : ℕ → Except SamplerError (List (ℕ × ℕ))) (epochSamples : ℕ)

/-- **A place in the stream of the epochs**: an epoch whose order has been
drawn, and a cursor in it, which may rest at its end. -/
structure Place where
  epoch : ℕ
  cursor : ℕ
  order : List (ℕ × ℕ)
  cursor_le : cursor ≤ epochSamples
  order_eq : orders epoch = .ok order

def Place.find (epoch cursor : ℕ) (h : cursor ≤ epochSamples) :
    Except SamplerError (Place orders epochSamples) :=
  match horder : orders epoch with
  | .error e => .error e
  | .ok order => .ok ⟨epoch, cursor, order, h, horder⟩

variable {orders epochSamples}

/-- The start of the next epoch, if this one is exhausted. -/
def Place.turn (p : Place orders epochSamples) :
    Except SamplerError (Place orders epochSamples) :=
  if p.cursor = epochSamples then
    Place.find orders epochSamples (p.epoch + 1) 0 (Nat.zero_le _)
  else .ok p

def Place.advance (p : Place orders epochSamples) (count : ℕ)
    (h : p.cursor + count ≤ epochSamples) : Place orders epochSamples :=
  ⟨p.epoch, p.cursor + count, p.order, h, p.order_eq⟩

/-- How many references the loop takes at once. -/
def Place.count (p : Place orders epochSamples) (wanted : ℕ) : ℕ :=
  min wanted (epochSamples - p.cursor)

theorem Place.cursor_add_count (p : Place orders epochSamples) (wanted : ℕ) :
    p.cursor + p.count wanted ≤ epochSamples := by
  have := p.cursor_le
  unfold Place.count
  omega

/-- The loop of `next_batch`, which collects the references of a global
batch. -/
def gather (batchSize : ℕ) : ℕ → Place orders epochSamples → List (ℕ × ℕ) →
    Except SamplerError (Place orders epochSamples × List (ℕ × ℕ))
  | 0, p, references => .ok (p, references)
  | fuel + 1, p, references =>
    if references.length < batchSize then
      match p.turn with
      | .error e => .error e
      | .ok p =>
        let wanted := batchSize - references.length
        gather batchSize fuel
          (p.advance (p.count wanted) (p.cursor_add_count wanted))
          (references ++ (p.order.drop p.cursor).take (p.count wanted))
    else .ok (p, references)

end Places

/-! ## Batches -/

/-- `not mask[0] and any(mask[1:])`, and the bounds of the tokens. -/
def supervised (row : List ℕ × List Bool) : Bool :=
  row.1.length == row.2.length && row.2.head? == some false
    && row.2.tail.any id && row.1.all (· < 2 ^ 31)

def rectangular (tokens : List (List ℕ)) : Bool :=
  match tokens with
  | [] => false
  | row :: rows =>
    rows.all (·.length == row.length) && decide (2 ≤ row.length ∧ row.length ≤ 8192)

def alignedBatch (tokens : List (List ℕ)) (targetMasks : List (List Bool))
    (sourceRows : List ℕ) : Prop :=
  (1 ≤ tokens.length ∧ tokens.length ≤ 64)
    ∧ tokens.length = targetMasks.length ∧ tokens.length = sourceRows.length
    ∧ rectangular tokens = true
    ∧ (tokens.zip targetMasks).all supervised = true

instance (tokens : List (List ℕ)) (targetMasks : List (List Bool))
    (sourceRows : List ℕ) :
    Decidable (alignedBatch tokens targetMasks sourceRows) :=
  inferInstanceAs (Decidable (_ ∧ _))

structure SftBatch where
  tokens : List (List ℕ)
  targetMasks : List (List Bool)
  sourceRows : List ℕ
  aligned : alignedBatch tokens targetMasks sourceRows

def batchWidth (maxSequenceLength : ℕ) (examples : List TokenizedTrainingExample) :
    ℕ :=
  min maxSequenceLength
    (((examples.map (·.tokens.length)).foldr max 0 + 31) / 32 * 32)

def TokenizedTrainingExample.paddedTokens (e : TokenizedTrainingExample)
    (width : ℕ) : List ℕ :=
  e.tokens ++ List.replicate (width - e.tokens.length) 0

def TokenizedTrainingExample.paddedMask (e : TokenizedTrainingExample)
    (width : ℕ) : List Bool :=
  e.targetMask ++ List.replicate (width - e.tokens.length) false

def sftBatch (width : ℕ) (examples : List TokenizedTrainingExample) :
    Except SamplerError SftBatch :=
  if h : alignedBatch (examples.map (·.paddedTokens width))
      (examples.map (·.paddedMask width)) (examples.map (·.sourceRow)) then
    .ok ⟨_, _, _, h⟩
  else .error .batch

/-! ## The sampler -/

/-- **`MixtureSampler`**, over accepted inputs. -/
structure MixtureSampler (H : Hashes) (args : MixtureArgs) where
  mixture : Mixture args
  rank : ℕ
  rank_lt : rank < args.worldSize
  place : Place (mixture.epochOrder H) mixture.epochSamples
  lastBatchReferences : List (String × ℕ)

@[ext]
structure MixtureSamplerState where
  identitySha256 : String
  epoch : ℕ
  cursor : ℕ
  rank : ℕ
  worldSize : ℕ
  identity_isDigest : isDigest identitySha256 = true
  epoch_lt : epoch < 2 ^ 64
  cursor_le : cursor ≤ 16000000
  worldSize_eq : worldSize = 1 ∨ worldSize = 2
  rank_lt : rank < worldSize

inductive SamplerState
  | singleSource
  | mixture (state : MixtureSamplerState)

namespace MixtureSampler

variable {H : Hashes} {args : MixtureArgs}

variable (H args) in
def new (rank : ℕ) : Except SamplerError (MixtureSampler H args) :=
  if h : args.Accepted ∧ rank < args.worldSize then
    match hsources : args.sources.mapM indexTrainingSource with
    | .error e => .error e
    | .ok sources =>
      if hquotas : (1 ≤ (sources.map (·.quota)).sum
            ∧ (sources.map (·.quota)).sum ≤ 16000000)
          ∧ ∀ s ∈ sources, args.replacement = false → s.quota ≤ s.rows.length then
        if htokens : ∀ s ∈ sources, ∀ e ∈ s.examples,
            e.tokens.length ≤ args.maxSequenceLength then
          let mixture : Mixture args :=
            ⟨h.1, sources, hsources, hquotas.1, hquotas.2, htokens⟩
          (Place.find (mixture.epochOrder H) mixture.epochSamples 0 0
            (Nat.zero_le _)).map fun place => ⟨mixture, rank, h.2, place, []⟩
        else .error
          (.validation "Training sample exceeds the declared sequence bound")
      else .error (.validation "Mixture quotas exceed source pools")
  else .error (.validation "Mixture sampler configuration is invalid")

/-- **`next_batch`**. A call that raises before its last lines leaves the sampler
as it was. -/
def nextBatch (S : MixtureSampler H args) :
    MixtureSampler H args × Except SamplerError SftBatch :=
  match gather args.batchSize args.batchSize S.place [] with
  | .error e => (S, .error e)
  | .ok (place, references) =>
    match references.mapM S.mixture.exampleAt with
    | .error e => (S, .error e)
    | .ok globalExamples =>
      let examples := stride args.worldSize S.rank globalExamples
      let width := batchWidth args.maxSequenceLength globalExamples
      match sftBatch width examples with
      | .error e => (S, .error e)
      | .ok batch =>
        let S := { S with place }
        match (stride args.worldSize S.rank references).mapM
          S.mixture.referenceAt with
        | .error e => (S, .error e)
        | .ok lastBatchReferences => ({ S with lastBatchReferences }, .ok batch)

def after (n : ℕ) (S : MixtureSampler H args) : MixtureSampler H args :=
  (fun S => S.nextBatch.1)^[n] S

def snapshot (S : MixtureSampler H args) : MixtureSamplerState where
  identitySha256 := S.mixture.identitySha256 H
  epoch := S.place.epoch
  cursor := S.place.cursor
  rank := S.rank
  worldSize := args.worldSize
  identity_isDigest := H.identity_isDigest _
  epoch_lt := (mixtureEpochOrder_cases S.place.order_eq).1
  cursor_le := S.place.cursor_le.trans S.mixture.samples.2
  worldSize_eq := S.mixture.accepted.2.2.2.2.1
  rank_lt := S.rank_lt

/-- **`restore`**. A checkpoint is checked against its bounds when it is made, so
checking it again changes nothing. -/
def restore (S : MixtureSampler H args) :
    SamplerState → Except SamplerError (MixtureSampler H args)
  | .singleSource => .error
      (.conflict "Checkpoint sampler algorithm differs from mixture inputs")
  | .mixture state =>
    if h : state.cursor ≤ S.mixture.epochSamples
        ∧ (state.epoch * S.mixture.epochSamples + state.cursor)
          % args.batchSize = 0 then
      if state.identitySha256 = S.mixture.identitySha256 H ∧ state.rank = S.rank
          ∧ state.worldSize = args.worldSize then
        (Place.find (S.mixture.epochOrder H) S.mixture.epochSamples state.epoch
          state.cursor h.1).map fun place =>
            { S with place, lastBatchReferences := [] }
      else .error (.conflict
        "Mixture sampler checkpoint does not match immutable inputs/rank")
    else .error (.validation "Mixture sampler checkpoint is malformed")

end MixtureSampler

/-! ## Reading the stream -/

section Reading

variable {orders : ℕ → Except SamplerError (List (ℕ × ℕ))} {epochSamples : ℕ}

def block (orders : ℕ → Except SamplerError (List (ℕ × ℕ))) (epoch : ℕ) :
    List (ℕ × ℕ) :=
  match orders epoch with
  | .ok order => order
  | .error _ => []

theorem block_of_ok {epoch : ℕ} {order : List (ℕ × ℕ)}
    (h : orders epoch = .ok order) : block orders epoch = order := by
  unfold block
  rw [h]

def Full (orders : ℕ → Except SamplerError (List (ℕ × ℕ))) (epochSamples : ℕ) :
    Prop :=
  ∀ epoch order, orders epoch = .ok order → order.length = epochSamples

namespace Place

variable {p q r : Place orders epochSamples}

theorem eq_of_numbers (he : p.epoch = q.epoch) (hc : p.cursor = q.cursor) : p = q := by
  obtain ⟨e, c, o, hle, ho⟩ := p
  obtain ⟨e', c', o', hle', ho'⟩ := q
  cases he
  cases hc
  cases Except.ok.inj (ho.symm.trans ho')
  rfl

theorem find_ok {epoch cursor : ℕ} {h : cursor ≤ epochSamples}
    (hp : find orders epochSamples epoch cursor h = .ok p) :
    p.epoch = epoch ∧ p.cursor = cursor := by
  unfold find at hp
  split at hp <;> cases hp
  exact ⟨rfl, rfl⟩

theorem find_self (p : Place orders epochSamples) :
    find orders epochSamples p.epoch p.cursor p.cursor_le = .ok p := by
  unfold find
  split
  · rename_i e he
    cases he.symm.trans p.order_eq
  · exact congrArg Except.ok (eq_of_numbers rfl rfl)

/-- **The part of the stream that is read** at a place. -/
def read (p : Place orders epochSamples) : List (ℕ × ℕ) :=
  upTo (block orders) p.epoch p.cursor

def Reached (p : Place orders epochSamples) : Prop :=
  ∀ epoch ≤ p.epoch, ∃ order, orders epoch = .ok order

theorem length_read (hfull : Full orders epochSamples) (h : p.Reached) :
    p.read.length = p.epoch * epochSamples + p.cursor := by
  refine length_upTo (fun e he => ?_) p.cursor_le
  obtain ⟨order, horder⟩ := h e he
  rw [block_of_ok horder]
  exact hfull e order horder

/-- **To read on from one place to another**: the part that is read grows by
the new references. -/
structure Reads (p q : Place orders epochSamples) (new : List (ℕ × ℕ)) : Prop where
  read_eq : q.read = p.read ++ new
  reached : p.Reached → q.Reached

theorem Reads.refl (p : Place orders epochSamples) : Reads p p [] :=
  ⟨(List.append_nil _).symm, id⟩

theorem Reads.trans {new more : List (ℕ × ℕ)} (h : Reads p q new)
    (h' : Reads q r more) : Reads p r (new ++ more) where
  read_eq := by rw [h'.read_eq, h.read_eq, List.append_assoc]
  reached := h'.reached ∘ h.reached

theorem turn_ok (hfull : Full orders epochSamples) (hpos : 1 ≤ epochSamples)
    (h : p.turn = .ok q) : Reads p q [] ∧ q.cursor < epochSamples := by
  unfold turn at h
  split at h
  · rename_i hend
    obtain ⟨he, hc⟩ := find_ok h
    refine ⟨⟨?_, fun hp epoch hle => ?_⟩, by rw [hc]; exact hpos⟩
    · have hlen : (block orders p.epoch).length = epochSamples := by
        rw [block_of_ok p.order_eq]
        exact hfull _ _ p.order_eq
      unfold read
      rw [he, hc, upTo_succ_zero hlen, hend, List.append_nil]
    · rw [he] at hle
      rcases Nat.le_succ_iff.mp hle with hle | rfl
      · exact hp epoch hle
      · exact ⟨q.order, by rw [← q.order_eq, he]⟩
  · cases h
    exact ⟨Reads.refl p, lt_of_le_of_ne p.cursor_le ‹_›⟩

theorem reads_advance {count : ℕ} (h : p.cursor + count ≤ epochSamples) :
    Reads p (p.advance count h) ((p.order.drop p.cursor).take count) where
  read_eq := by
    show upTo (block orders) p.epoch (p.cursor + count) = _
    rw [upTo_add, block_of_ok p.order_eq]
    rfl
  reached := id

end Place

theorem gather_ok (hfull : Full orders epochSamples) (hpos : 1 ≤ epochSamples)
    {batchSize fuel : ℕ} {p q : Place orders epochSamples}
    {references all : List (ℕ × ℕ)} (hle : references.length ≤ batchSize)
    (hfuel : batchSize ≤ references.length + fuel)
    (h : gather batchSize fuel p references = .ok (q, all)) :
    all.length = batchSize ∧ ∃ new, all = references ++ new ∧ Place.Reads p q new := by
  induction fuel generalizing p references with
  | zero =>
    cases h
    exact ⟨le_antisymm hle hfuel, [], (List.append_nil _).symm, .refl _⟩
  | succ fuel ih =>
    unfold gather at h
    split at h
    · rename_i hlt
      split at h
      · cases h
      rename_i t hturn
      dsimp only at h
      obtain ⟨hreads, hroom⟩ := Place.turn_ok hfull hpos hturn
      have hslice : ((t.order.drop t.cursor).take
          (t.count (batchSize - references.length))).length
          = t.count (batchSize - references.length) := by
        rw [List.length_take, List.length_drop, hfull _ _ t.order_eq]
        exact Nat.min_eq_left (Nat.min_le_right _ _)
      have hcount : 1 ≤ t.count (batchSize - references.length)
          ∧ t.count (batchSize - references.length)
            ≤ batchSize - references.length := by
        unfold Place.count
        omega
      obtain ⟨hlen, new, rfl, hnew⟩ := ih (by rw [List.length_append, hslice]; omega)
        (by rw [List.length_append, hslice]; omega) h
      exact ⟨hlen, _, List.append_assoc _ _ _,
        hreads.trans ((Place.reads_advance _).trans hnew)⟩
    · rename_i hge
      cases h
      exact ⟨by omega, [], (List.append_nil _).symm, .refl _⟩

theorem gather_error {batchSize fuel : ℕ} {p : Place orders epochSamples}
    {references : List (ℕ × ℕ)} {e : SamplerError}
    (h : gather batchSize fuel p references = .error e) :
    ∃ epoch, orders epoch = .error e := by
  induction fuel generalizing p references with
  | zero => cases h
  | succ fuel ih =>
    unfold gather at h
    split at h
    · split at h
      · rename_i e' hturn
        cases h
        unfold Place.turn Place.find at hturn
        split at hturn
        · split at hturn <;> cases hturn
          exact ⟨_, ‹_›⟩
        · cases hturn
      · exact ih h
    · cases h

section SamePlace

variable {orders' : ℕ → Except SamplerError (List (ℕ × ℕ))}
  {epochSamples' batchSize batchSize' : ℕ} {p : Place orders epochSamples}
  {p' : Place orders' epochSamples'}

theorem gather_same_ok (ho : orders' = orders)
    (hl : epochSamples' = epochSamples) (hb : batchSize' = batchSize)
    (he : p'.epoch = p.epoch) (hc : p'.cursor = p.cursor)
    {q : Place orders epochSamples} {references : List (ℕ × ℕ)}
    (h : gather batchSize batchSize p [] = .ok (q, references)) :
    ∃ q', gather batchSize' batchSize' p' [] = .ok (q', references)
      ∧ q'.epoch = q.epoch ∧ q'.cursor = q.cursor := by
  subst ho hl hb
  rw [Place.eq_of_numbers he hc]
  exact ⟨q, h, rfl, rfl⟩

theorem gather_same_error (ho : orders' = orders)
    (hl : epochSamples' = epochSamples) (hb : batchSize' = batchSize)
    (he : p'.epoch = p.epoch) (hc : p'.cursor = p.cursor) {e : SamplerError}
    (h : gather batchSize batchSize p [] = .error e) :
    gather batchSize' batchSize' p' [] = .error e := by
  subst ho hl hb
  rw [Place.eq_of_numbers he hc]
  exact h

end SamePlace

end Reading

/-! ## What the references are to -/

namespace Mixture

variable {args : MixtureArgs} {M : Mixture args} {H : Hashes}

/-- The reference is to a row of a source that has a quota. -/
def Valid (M : Mixture args) (ref : ℕ × ℕ) : Prop :=
  ∃ s, M.sources[ref.1]? = some s ∧ 0 < s.quota ∧ ref.2 < s.rows.length

def row (M : Mixture args) (ref : ℕ × ℕ) : String × ℕ :=
  match M.referenceAt ref with
  | .ok row => row
  | .error _ => ("", 0)

def width (M : Mixture args) (references : List (ℕ × ℕ)) : ℕ :=
  match references.mapM M.exampleAt with
  | .ok examples => batchWidth args.maxSequenceLength examples
  | .error _ => 0

theorem full (M : Mixture args) (H : Hashes) :
    Full (M.epochOrder H) M.epochSamples := by
  intro epoch order h
  rw [length_mixtureEpochOrder h, List.map_map]
  rfl

variable {ref : ℕ × ℕ}

theorem valid_of_inPools
    (h : InPools (M.sources.map fun s => (s.rows.length, s.quota)) ref) :
    M.Valid ref := by
  obtain ⟨size, quota, hget, hquota, hlt⟩ := h
  rw [List.getElem?_map] at hget
  obtain ⟨s, hs, heq⟩ := Option.map_eq_some_iff.mp hget
  cases heq
  exact ⟨s, hs, hquota, hlt⟩

theorem valid_of_mem_read {p : Place (M.epochOrder H) M.epochSamples}
    (h : ref ∈ p.read) : M.Valid ref := by
  obtain ⟨epoch, -, hmem⟩ := exists_mem_of_mem_upTo h
  unfold block at hmem
  split at hmem
  · rename_i order horder
    exact valid_of_inPools (mem_mixtureEpochOrder horder hmem)
  · cases hmem

theorem getItem_sources {s : BoundSource}
    (h : M.sources[ref.1]? = some s) : getItem M.sources ref.1 = .ok s := by
  unfold getItem
  rw [h]

theorem referenceAt_ok (h : M.Valid ref) : M.referenceAt ref = .ok (M.row ref) := by
  obtain ⟨s, hs, -, hlt⟩ := h
  have href : M.referenceAt ref = .ok (s.datasetId, s.rows[ref.2]) := by
    unfold referenceAt
    rw [getItem_sources hs]
    show (getItem s.rows ref.2).map (s.datasetId, ·) = _
    rw [getItem_of_lt hlt]
    rfl
  unfold row
  rw [href]

theorem exampleAt_ok (h : M.Valid ref) :
    ∃ e, M.exampleAt ref = .ok e ∧ e.sourceRow = (M.row ref).2
      ∧ e.tokens.length ≤ args.maxSequenceLength := by
  have hrow := referenceAt_ok h
  obtain ⟨s, hs, -, hlt⟩ := h
  have hlen : s.examples.length = s.rows.length := by
    rw [← s.examples_rows, List.length_map]
  have hlt' : ref.2 < s.examples.length := hlen ▸ hlt
  refine ⟨s.examples[ref.2], ?_, ?_, ?_⟩
  · unfold exampleAt
    rw [getItem_sources hs]
    exact getItem_of_lt hlt'
  · unfold referenceAt at hrow
    rw [getItem_sources hs] at hrow
    dsimp only at hrow
    rw [getItem_of_lt hlt] at hrow
    rw [← Except.ok.inj hrow]
    show s.examples[ref.2].sourceRow = s.rows[ref.2]
    simp only [← s.examples_rows, List.getElem_map]
  · exact M.tokens_le s (List.mem_of_getElem? hs) _ (List.getElem_mem _)

theorem examples_ok {references : List (ℕ × ℕ)} (h : ∀ ref ∈ references, M.Valid ref) :
    ∃ examples, references.mapM M.exampleAt = .ok examples
      ∧ examples.map (·.sourceRow) = (references.map M.row).map Prod.snd
      ∧ ∀ e ∈ examples, e.tokens.length ≤ args.maxSequenceLength := by
  induction references with
  | nil => exact ⟨[], rfl, rfl, fun _ he => nomatch he⟩
  | cons ref references ih =>
    obtain ⟨href, hrest⟩ := List.forall_mem_cons.mp h
    obtain ⟨e, he, hrow, hlen⟩ := exampleAt_ok href
    obtain ⟨examples, hexamples, hrows, hlens⟩ := ih hrest
    refine ⟨e :: examples, mapM_cons_ok he hexamples, ?_,
      List.forall_mem_cons.mpr ⟨hlen, hlens⟩⟩
    rw [List.map_cons, List.map_cons, List.map_cons, hrow, hrows]

end Mixture

/-! ## What a batch is -/

section Batches

variable {width : ℕ} {examples : List TokenizedTrainingExample}

variable {e : TokenizedTrainingExample}

theorem length_paddedTokens
    (h : e.tokens.length ≤ width) : (e.paddedTokens width).length = width := by
  unfold TokenizedTrainingExample.paddedTokens
  rw [List.length_append, List.length_replicate]
  omega

theorem length_paddedMask
    (h : e.tokens.length ≤ width) : (e.paddedMask width).length = width := by
  unfold TokenizedTrainingExample.paddedMask
  rw [List.length_append, List.length_replicate, ← e.targetMask_length]
  omega

theorem exists_targetMask (e : TokenizedTrainingExample) :
    ∃ bits, e.targetMask = false :: bits ∧ true ∈ bits := by
  have hstart := e.targetStart_pos
  have hlt := e.targetStart_lt
  rw [e.targetMask_length] at hlt
  obtain ⟨k, hk⟩ : ∃ k, e.targetStart = k + 1 := ⟨e.targetStart - 1, by omega⟩
  cases hmask : e.targetMask with
  | nil => rw [hmask] at hlt; cases hlt
  | cons bit bits =>
    have hbefore := e.mask_before
    have hafter := e.mask_after
    rw [hmask, hk] at hlt hbefore hafter
    have hbit : bit = false := hbefore bit List.mem_cons_self
    rw [hbit]
    have hlast : k < bits.length := Nat.lt_of_succ_lt_succ hlt
    have hmem : bits[k] ∈ bits.drop k := by
      rw [List.drop_eq_getElem_cons hlast]
      exact List.mem_cons_self
    refine ⟨bits, rfl, ?_⟩
    rw [← hafter _ hmem]
    exact List.getElem_mem _

theorem supervised_padded (h : e.tokens.length ≤ width) :
    supervised (e.paddedTokens width, e.paddedMask width) = true := by
  obtain ⟨bits, hmask, htarget⟩ := exists_targetMask e
  unfold supervised
  simp only [Bool.and_eq_true, beq_iff_eq, List.any_eq_true, List.all_eq_true,
    decide_eq_true_eq]
  refine ⟨⟨⟨?_, ?_⟩, true, ?_, rfl⟩, fun token htoken => ?_⟩
  · rw [length_paddedTokens h, length_paddedMask h]
  · unfold TokenizedTrainingExample.paddedMask
    rw [hmask]
    rfl
  · unfold TokenizedTrainingExample.paddedMask
    rw [hmask]
    exact List.mem_append_left _ htarget
  · rcases List.mem_append.mp htoken with ht | ht
    · exact e.tokens_lt token ht
    · rw [List.eq_of_mem_replicate ht]
      decide

theorem rectangular_padded (hne : examples ≠ []) (hw : 2 ≤ width ∧ width ≤ 8192)
    (hfit : ∀ e ∈ examples, e.tokens.length ≤ width) :
    rectangular (examples.map (·.paddedTokens width)) = true := by
  cases examples with
  | nil => exact absurd rfl hne
  | cons e examples =>
    grind [rectangular, length_paddedTokens, List.all_eq_true]

theorem sftBatch_ok (hne : examples ≠ []) (hlen : examples.length ≤ 64)
    (hw : 2 ≤ width ∧ width ≤ 8192)
    (hfit : ∀ e ∈ examples, e.tokens.length ≤ width) :
    ∃ batch, sftBatch width examples = .ok batch
      ∧ (∀ row ∈ batch.tokens, row.length = width)
      ∧ batch.sourceRows = examples.map (·.sourceRow) := by
  have haligned : alignedBatch (examples.map (·.paddedTokens width))
      (examples.map (·.paddedMask width)) (examples.map (·.sourceRow)) := by
    grind [alignedBatch, List.length_map, rectangular_padded,
      List.all_map, List.all_eq_true, supervised_padded]
  unfold sftBatch
  rw [dif_pos haligned]
  refine ⟨_, rfl, fun row hrow => ?_, rfl⟩
  obtain ⟨e, he, rfl⟩ := List.mem_map.mp hrow
  exact length_paddedTokens (hfit e he)

theorem le_foldr_max {n : ℕ} {ns : List ℕ} (h : n ∈ ns) : n ≤ ns.foldr max 0 := by
  induction ns with
  | nil => cases h
  | cons k ns ih => grind

theorem le_batchWidth {maxSequenceLength : ℕ}
    (he : e ∈ examples) (hmax : e.tokens.length ≤ maxSequenceLength) :
    e.tokens.length ≤ batchWidth maxSequenceLength examples := by
  have hle := le_foldr_max
    (List.mem_map_of_mem (f := fun e : TokenizedTrainingExample => e.tokens.length) he)
  unfold batchWidth
  omega

theorem batchWidth_bounds {maxSequenceLength : ℕ} (hne : examples ≠ [])
    (hmax : 2 ≤ maxSequenceLength ∧ maxSequenceLength ≤ 8192)
    (hfit : ∀ e ∈ examples, e.tokens.length ≤ maxSequenceLength) :
    2 ≤ batchWidth maxSequenceLength examples
      ∧ batchWidth maxSequenceLength examples ≤ 8192 := by
  obtain ⟨e, he⟩ := List.exists_mem_of_ne_nil _ hne
  exact ⟨e.tokens_length.1.trans (le_batchWidth he (hfit e he)),
    (Nat.min_le_left _ _).trans hmax.2⟩

end Batches

/-! ## Calls -/

namespace MixtureSampler

variable {H : Hashes} {args : MixtureArgs}

def dealt (M : Mixture args) (rank : ℕ) (references : List (ℕ × ℕ)) :
    List (String × ℕ) :=
  (stride args.worldSize rank references).map M.row

variable {S : MixtureSampler H args}

theorem nextBatch_error {e : SamplerError}
    (h : gather args.batchSize args.batchSize S.place [] = .error e) :
    S.nextBatch = (S, .error e) := by
  unfold nextBatch
  rw [h]

theorem nextBatch_spec {q : Place (S.mixture.epochOrder H) S.mixture.epochSamples}
    {references : List (ℕ × ℕ)}
    (h : gather args.batchSize args.batchSize S.place [] = .ok (q, references)) :
    references.length = args.batchSize ∧ S.place.Reads q references
    ∧ ∃ batch, (∀ l,
        ({ S with lastBatchReferences := l } : MixtureSampler H args).nextBatch
          = ({ S with
                place := q
                lastBatchReferences := dealt S.mixture S.rank references },
              .ok batch))
      ∧ (∀ row ∈ batch.tokens, row.length = S.mixture.width references)
      ∧ batch.sourceRows = (dealt S.mixture S.rank references).map Prod.snd := by
  obtain ⟨-, -, -, hbatch, -, hmod, hmax, -⟩ := S.mixture.accepted
  obtain ⟨hlen, new, hnew, hreads⟩ := gather_ok (S.mixture.full H)
    S.mixture.samples.1 (Nat.zero_le _) (by simp) h
  rw [List.nil_append] at hnew
  subst hnew
  have hvalid : ∀ ref ∈ references, S.mixture.Valid ref := by
    intro ref href
    refine Mixture.valid_of_mem_read (p := q) ?_
    rw [hreads.read_eq]
    exact List.mem_append_right _ href
  obtain ⟨examples, hexamples, hrows, hshort⟩ := Mixture.examples_ok hvalid
  have hlen' : examples.length = args.batchSize := by
    rw [← List.length_map, hrows, List.length_map, List.length_map, hlen]
  -- the rank is below the batch size, which the world size divides
  have hrank : S.rank < examples.length := by
    rw [hlen']
    exact S.rank_lt.trans_le (Nat.le_of_dvd hbatch.1 (Nat.dvd_of_mod_eq_zero hmod))
  have hne : examples ≠ [] := List.ne_nil_of_length_pos (Nat.zero_lt_of_lt hrank)
  have hsub := stride_sublist args.worldSize S.rank examples
  have hwidth : S.mixture.width references
      = batchWidth args.maxSequenceLength examples := by
    unfold Mixture.width
    rw [hexamples]
  obtain ⟨batch, hok, hrect, hsourceRows⟩ := sftBatch_ok
    (stride_ne_nil args.worldSize hrank)
    (hsub.length_le.trans (hlen'.trans_le hbatch.2))
    (batchWidth_bounds hne hmax hshort)
    (fun e he => le_batchWidth (hsub.mem he) (hshort e (hsub.mem he)))
  have hdealt : (stride args.worldSize S.rank references).mapM
      S.mixture.referenceAt = .ok (dealt S.mixture S.rank references) :=
    mapM_ok fun ref href => Mixture.referenceAt_ok
      (hvalid ref ((stride_sublist _ _ _).mem href))
  refine ⟨hlen, hreads, batch, fun l => ?_, hwidth ▸ hrect, ?_⟩
  · grind [nextBatch]
  · rw [hsourceRows, ← stride_map, hrows, stride_map, stride_map]
    rfl

theorem nextBatch_ok {q : Place (S.mixture.epochOrder H) S.mixture.epochSamples}
    {references : List (ℕ × ℕ)}
    (h : gather args.batchSize args.batchSize S.place [] = .ok (q, references)) :
    ∃ batch, S.nextBatch
        = ({ S with
              place := q
              lastBatchReferences := dealt S.mixture S.rank references },
            .ok batch)
      ∧ (∀ row ∈ batch.tokens, row.length = S.mixture.width references)
      ∧ batch.sourceRows = (dealt S.mixture S.rank references).map Prod.snd := by
  obtain ⟨-, -, batch, hcall, hbatch⟩ := nextBatch_spec h
  exact ⟨batch, hcall S.lastBatchReferences, hbatch⟩

end MixtureSampler

end TrainingSampling
