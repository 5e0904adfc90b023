import Mathlib.Algebra.GroupWithZero.Nat
import Mathlib.Algebra.Order.BigOperators.Group.Finset
import Mathlib.Data.List.GetD

/-!
# The order of a mixture's epochs

`training_sampling.py`: the order in which one epoch of a training mixture visits the
rows of its sources, and the rows that training has consumed at a certain point,
computed again from that order.

The draws come from a counter: the digest of a key and a counter, as a number, reduced
below a bound, where the numbers that would bias the result are drawn again
(`CounterRandom.below`). The counter has sixteen bytes, so the loop ends. The digest is
the parameter `sha` here and nothing is assumed of it.
-/

namespace TrainingSampling

inductive SamplerError
  /-- `TrainingValidationError`. -/
  | validation (message : String)
  /-- `TrainingConflict`. -/
  | conflict (message : String)
  /-- `ValueError`. -/
  | value (message : String)
  /-- `OverflowError`: the counter does not fit its bytes. -/
  | overflow
  /-- `IndexError`. -/
  | index
  /-- The `ValidationError` of a batch. -/
  | batch
  deriving DecidableEq

def getItem {α : Type} (items : List α) (i : ℕ) : Except SamplerError α :=
  match items[i]? with
  | some item => .ok item
  | none => .error .index

section Fallible

variable {ε α β : Type} {f : α → Except ε β}

theorem map_eq_ok {x : Except ε α} {g : α → β} {b : β} (h : x.map g = .ok b) :
    ∃ a, x = .ok a ∧ g a = b := by
  cases x with
  | error e => cases h
  | ok a => exact ⟨a, rfl, Except.ok.inj h⟩

theorem mapM_cons_ok {a : α} {as : List α} {b : β} {bs : List β}
    (ha : f a = .ok b) (has : as.mapM f = .ok bs) :
    (a :: as).mapM f = .ok (b :: bs) := by
  rw [List.mapM_cons, ha, has]
  rfl

theorem mapM_ok {g : α → β} {as : List α} (h : ∀ a ∈ as, f a = .ok (g a)) :
    as.mapM f = .ok (as.map g) := by
  induction as with
  | nil => rfl
  | cons a as ih =>
    obtain ⟨ha, has⟩ := List.forall_mem_cons.mp h
    exact mapM_cons_ok ha (ih has)

theorem forall₂_of_mapM {as : List α} {bs : List β} (h : as.mapM f = .ok bs) :
    List.Forall₂ (fun a b => f a = .ok b) as bs := by
  induction as generalizing bs with
  | nil =>
    cases h
    exact .nil
  | cons a as ih =>
    rw [List.mapM_cons] at h
    cases ha : f a with
    | error e => rw [ha] at h; cases h
    | ok b =>
      cases has : as.mapM f with
      | error e => rw [ha, has] at h; cases h
      | ok bs =>
        rw [ha, has] at h
        cases h
        exact .cons ha (ih has)

end Fallible

theorem getItem_of_lt {α : Type} {items : List α} {i : ℕ}
    (h : i < items.length) : getItem items i = .ok items[i] := by
  unfold getItem
  rw [List.getElem?_eq_getElem h]

theorem map_getD_range {α : Type} (items : List α) (d : α) :
    (List.range items.length).map (items.getD · d) = items := by
  refine List.ext_getElem (by simp) fun i h₁ h₂ => ?_
  rw [List.getElem_map, List.getElem_range, List.getD_eq_getElem items d h₂]

/-! ## Draws -/

structure CounterRandom where
  key : String
  counter : ℕ := 0

namespace CounterRandom

section Code

variable (sha : String → ℕ → ℕ)

/-- The loop of `below`, for the counters that still fit sixteen bytes. -/
def belowWithin (bound : ℕ) :
    ℕ → CounterRandom → Except SamplerError (ℕ × CounterRandom)
  | 0, _ => .error .overflow
  | fuel + 1, rng =>
    let value := sha rng.key rng.counter
    let rng := { rng with counter := rng.counter + 1 }
    if value < 2 ^ 256 - 2 ^ 256 % bound then .ok (value % bound, rng)
    else belowWithin bound fuel rng

/-- **`below`**: an unbiased draw below a bound. -/
def below (rng : CounterRandom) (bound : ℕ) :
    Except SamplerError (ℕ × CounterRandom) :=
  belowWithin sha bound (2 ^ 128 - rng.counter) rng

def shuffleFrom :
    ℕ → CounterRandom → List ℕ → Except SamplerError (List ℕ × CounterRandom)
  | 0, rng, values => .ok (values, rng)
  | index + 1, rng, values =>
    match rng.below sha (index + 2) with
    | .error e => .error e
    | .ok (other, rng) => shuffleFrom index rng (values.swap (index + 1) other)

/-- **`shuffle`**: Fisher and Yates's shuffle. -/
def shuffle (rng : CounterRandom) (values : List ℕ) :
    Except SamplerError (List ℕ × CounterRandom) :=
  shuffleFrom sha (values.length - 1) rng values

def draws (size : ℕ) : ℕ → CounterRandom → Except SamplerError (List ℕ)
  | 0, _ => .ok []
  | quota + 1, rng =>
    match rng.below sha size with
    | .error e => .error e
    | .ok (row, rng) => (draws size quota rng).map (row :: ·)

end Code

section Facts

variable {sha : String → ℕ → ℕ}

variable {rng : CounterRandom}

theorem belowWithin_lt {bound fuel : ℕ} (hb : 0 < bound)
    {r : ℕ × CounterRandom} (h : belowWithin sha bound fuel rng = .ok r) :
    r.1 < bound := by
  induction fuel generalizing rng with
  | zero => cases h
  | succ fuel ih =>
    unfold belowWithin at h
    dsimp only at h
    split at h
    · cases h
      exact Nat.mod_lt _ hb
    · exact ih h

theorem below_lt {bound : ℕ} (hb : 0 < bound)
    {r : ℕ × CounterRandom} (h : rng.below sha bound = .ok r) : r.1 < bound :=
  belowWithin_lt hb h

theorem shuffleFrom_perm {index : ℕ} {values : List ℕ}
    {r : List ℕ × CounterRandom} (h : shuffleFrom sha index rng values = .ok r) :
    r.1.Perm values := by
  induction index generalizing rng values with
  | zero =>
    cases h
    exact List.Perm.refl _
  | succ index ih =>
    unfold shuffleFrom at h
    split at h
    · cases h
    · exact (ih h).trans (List.swap_perm _ _ _)

theorem shuffle_perm {values : List ℕ}
    {r : List ℕ × CounterRandom} (h : rng.shuffle sha values = .ok r) :
    r.1.Perm values :=
  shuffleFrom_perm h

theorem draws_spec {size quota : ℕ} (hs : 0 < size)
    {rows : List ℕ} (h : draws sha size quota rng = .ok rows) :
    rows.length = quota ∧ ∀ row ∈ rows, row < size := by
  induction quota generalizing rng rows with
  | zero =>
    cases h
    exact ⟨rfl, fun _ hmem => nomatch hmem⟩
  | succ quota ih =>
    unfold draws at h
    split at h
    · cases h
    rename_i row rng' hrow
    obtain ⟨rest, hrest, rfl⟩ := map_eq_ok h
    obtain ⟨hlen, hlt⟩ := ih hrest
    exact ⟨congrArg Nat.succ hlen, List.forall_mem_cons.mpr ⟨below_lt hs hrow, hlt⟩⟩

end Facts

end CounterRandom

/-! ## One epoch -/

inductive Strategy
  | weighted | sequential
  deriving DecidableEq

section Code

variable (sha : String → ℕ → ℕ) (identitySha256 : String) (epoch : ℕ)
  (replacement : Bool)

def sourceDraws (index size quota : ℕ) : Except SamplerError (List ℕ) :=
  let rng : CounterRandom := { key := s!"{identitySha256}:{epoch}:source:{index}" }
  if replacement then CounterRandom.draws sha size quota rng
  else (rng.shuffle sha (List.range size)).map fun r => r.1.take quota

def sourceOrders : ℕ → List (ℕ × ℕ) → Except SamplerError (List (ℕ × ℕ))
  | _, [] => .ok []
  | index, (size, quota) :: pools =>
    match sourceDraws sha identitySha256 epoch replacement index size quota with
    | .error e => .error e
    | .ok rows =>
      (sourceOrders (index + 1) pools).map ((rows.map fun row => (index, row)) ++ ·)

/-- **`mixture_epoch_order`**: the references of an epoch, pairs of a source and
a position in its rows, in the order of training. -/
def mixtureEpochOrder (pools : List (ℕ × ℕ)) (strategy : Strategy) :
    Except SamplerError (List (ℕ × ℕ)) :=
  if ¬ (1 ≤ pools.length ∧ pools.length ≤ 16) ∨ ¬ epoch < 2 ^ 64 then
    .error (.value "Mixture replay configuration is invalid")
  else if 16000000 < (pools.map Prod.snd).sum
      ∨ ∃ pool ∈ pools, ¬ (1 ≤ pool.1 ∧ pool.1 ≤ 1000000)
        ∨ ¬ pool.2 ≤ 16000000 ∨ (replacement = false ∧ pool.1 < pool.2) then
    .error (.value "Mixture replay pool exceeds bounds")
  else
    match sourceOrders sha identitySha256 epoch replacement 0 pools with
    | .error e => .error e
    | .ok order =>
      match strategy with
      | .sequential => .ok order
      | .weighted =>
        let rng : CounterRandom := { key := s!"{identitySha256}:{epoch}:interleave" }
        match rng.shuffle sha (List.range order.length) with
        | .error e => .error e
        | .ok (positions, _) => positions.mapM (getItem order)

end Code

/-! ## What an epoch refers to -/

/-- The reference is to a row of a source that has a quota. -/
def InPools (pools : List (ℕ × ℕ)) (ref : ℕ × ℕ) : Prop :=
  ∃ size quota, pools[ref.1]? = some (size, quota) ∧ 0 < quota ∧ ref.2 < size

def Drawable (replacement : Bool) (pools : List (ℕ × ℕ)) : Prop :=
  ∀ pool ∈ pools, 1 ≤ pool.1 ∧ (replacement = false → pool.2 ≤ pool.1)

section Facts

variable {sha : String → ℕ → ℕ} {identitySha256 : String} {epoch : ℕ}
  {replacement : Bool} {pools : List (ℕ × ℕ)} {strategy : Strategy}

theorem sourceDraws_spec {index size quota : ℕ} (hs : 1 ≤ size)
    (hq : replacement = false → quota ≤ size) {rows : List ℕ}
    (h : sourceDraws sha identitySha256 epoch replacement index size quota = .ok rows) :
    rows.length = quota ∧ ∀ row ∈ rows, row < size := by
  unfold sourceDraws at h
  dsimp only at h
  split at h
  · exact CounterRandom.draws_spec hs h
  rename_i hr
  obtain ⟨r, hshuffle, rfl⟩ := map_eq_ok h
  have hperm := CounterRandom.shuffle_perm hshuffle
  refine ⟨?_, fun row hrow => ?_⟩
  · rw [List.length_take, hperm.length_eq, List.length_range]
    exact Nat.min_eq_left (hq (Bool.eq_false_of_not_eq_true hr))
  · grind

variable {order : List (ℕ × ℕ)}

theorem sourceOrders_spec {index : ℕ} {all : List (ℕ × ℕ)}
    (hall : all.drop index = pools) (hd : Drawable replacement pools)
    (h : sourceOrders sha identitySha256 epoch replacement index pools = .ok order) :
    order.length = (pools.map Prod.snd).sum ∧ ∀ ref ∈ order, InPools all ref := by
  induction pools generalizing index order with
  | nil =>
    cases h
    exact ⟨rfl, fun _ hmem => nomatch hmem⟩
  | cons pool pools ih =>
    obtain ⟨size, quota⟩ := pool
    unfold sourceOrders at h
    split at h
    · cases h
    rename_i rows hrows
    obtain ⟨rest, hrest, rfl⟩ := map_eq_ok h
    obtain ⟨⟨hs, hq⟩, hd'⟩ := List.forall_mem_cons.mp hd
    obtain ⟨hlen, hlt⟩ := sourceDraws_spec hs hq hrows
    have hget : all[index]? = some (size, quota) := by
      rw [← Nat.add_zero index, ← List.getElem?_drop, hall]
      rfl
    have hnext : all.drop (index + 1) = pools := by
      rw [← List.drop_drop, hall]
      rfl
    obtain ⟨hlen', hmem'⟩ := ih hnext hd' hrest
    refine ⟨?_, fun ref href => ?_⟩
    · grind
    rcases List.mem_append.mp href with hrow | hother
    · grind [InPools]
    · exact hmem' ref hother

theorem mapM_getItem_of_perm {positions : List ℕ}
    (hperm : positions.Perm (List.range order.length)) :
    positions.mapM (getItem order) = .ok (positions.map (order.getD · (0, 0))) := by
  grind [mapM_ok, getItem_of_lt]

theorem mixtureEpochOrder_cases
    (h : mixtureEpochOrder sha identitySha256 epoch replacement pools strategy
      = .ok order) :
    epoch < 2 ^ 64 ∧ ∃ drawn,
      sourceOrders sha identitySha256 epoch replacement 0 pools = .ok drawn
      ∧ Drawable replacement pools ∧ order.Perm drawn := by
  unfold mixtureEpochOrder at h
  split at h
  · cases h
  rename_i hepoch
  split at h
  · cases h
  rename_i hpools
  have hd : Drawable replacement pools := by
    intro pool hpool
    refine ⟨?_, fun hr => ?_⟩
    · grind
    · grind
  refine ⟨by omega, ?_⟩
  split at h
  · cases h
  rename_i drawn hdrawn
  refine ⟨drawn, hdrawn, hd, ?_⟩
  split at h
  · cases h
    exact List.Perm.refl _
  dsimp only at h
  split at h
  · cases h
  rename_i positions rng hshuffle
  have hperm := CounterRandom.shuffle_perm hshuffle
  rw [mapM_getItem_of_perm hperm] at h
  cases h
  refine (hperm.map _).trans (List.Perm.of_eq ?_)
  exact map_getD_range drawn _

theorem length_mixtureEpochOrder
    (h : mixtureEpochOrder sha identitySha256 epoch replacement pools strategy
      = .ok order) : order.length = (pools.map Prod.snd).sum := by
  obtain ⟨-, drawn, hdrawn, hd, hperm⟩ := mixtureEpochOrder_cases h
  rw [hperm.length_eq]
  exact (sourceOrders_spec List.drop_zero hd hdrawn).1

theorem mem_mixtureEpochOrder
    (h : mixtureEpochOrder sha identitySha256 epoch replacement pools strategy
      = .ok order) {ref : ℕ × ℕ} (href : ref ∈ order) : InPools pools ref := by
  obtain ⟨-, drawn, hdrawn, hd, hperm⟩ := mixtureEpochOrder_cases h
  exact (sourceOrders_spec List.drop_zero hd hdrawn).2 ref (hperm.mem_iff.mp href)

end Facts

/-! ## The rows that training has consumed -/

section Code

/-- A source as the replay knows it: `(identity, rows, quota)`. -/
abbrev ReplaySource : Type := String × List ℕ × ℕ

def rowOf (sources : List ReplaySource) (ref : ℕ × ℕ) :
    Except SamplerError (String × ℕ) :=
  match getItem sources ref.1 with
  | .error e => .error e
  | .ok (identity, rows, _) => (getItem rows ref.2).map (identity, ·)

def addRows (sources : List ReplaySource) :
    List (ℕ × ℕ) → Finset (String × ℕ) → Except SamplerError (Finset (String × ℕ))
  | [], consumed => .ok consumed
  | ref :: refs, consumed =>
    match rowOf sources ref with
    | .error e => .error e
    | .ok row => addRows sources refs (insert row consumed)

variable (sha : String → ℕ → ℕ) (identitySha256 : String) (epoch cursor : ℕ)
  (sources : List ReplaySource) (strategy : Strategy) (replacement : Bool)

/-- The loop over the epochs, which ends early once every row is there. -/
def consumeEpochs :
    List ℕ → Finset (String × ℕ) → Except SamplerError (Finset (String × ℕ))
  | [], consumed => .ok consumed
  | completed :: epochs, consumed =>
    let maximumRows := ((sources.filter (·.2.2 ≠ 0)).map (·.2.1.length)).sum
    if consumed.card = maximumRows then .ok consumed
    else
      match mixtureEpochOrder sha identitySha256 completed replacement
        (sources.map fun s => (s.2.1.length, s.2.2)) strategy with
      | .error e => .error e
      | .ok order =>
        let count := if completed = epoch then cursor else (sources.map (·.2.2)).sum
        match addRows sources (order.take count) consumed with
        | .error e => .error e
        | .ok consumed => consumeEpochs epochs consumed

def ReplayBounds (epochSamples : ℕ) : Prop :=
  (1 ≤ epochSamples ∧ epochSamples ≤ 16000000) ∧ cursor ≤ epochSamples
    ∧ epoch ≤ 6400000 ∧ epoch * epochSamples + cursor ≤ 409600000

instance (epochSamples : ℕ) : Decidable (ReplayBounds epoch cursor epochSamples) :=
  inferInstanceAs (Decidable (_ ∧ _))

/-- **`consumed_mixture_rows`**: the rows that training has consumed when it is
at `cursor` in `epoch`. -/
def consumedMixtureRows : Except SamplerError (Finset (String × ℕ)) :=
  if ReplayBounds epoch cursor (sources.map (·.2.2)).sum then
    consumeEpochs sha identitySha256 epoch cursor sources strategy replacement
      (List.range (epoch + 1)) ∅
  else .error (.value "Mixture replay boundary is invalid")

end Code

end TrainingSampling
