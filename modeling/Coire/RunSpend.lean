import Coire.Dict
import Coire.Run

/-!
# What an agent run spends

A gateway request of an agent run reserves the tokens it may use on the run's token
before it is served (`charge_run_token`), and exchanges the reservation for what the
engine reported when it finishes (`settle_run_token_usage`). The usage record and the
exchange are one transaction, which is never tried twice.

`settle_run_token_usage` refuses what would take the run over its limit, although the
tokens have been served. The usage record is rolled back with it. The accounts are right
if and only if that does not happen (`spend_accounted_iff`). The limit holds in any case
(`spend_never_exceeds`).
-/

namespace RunSpend

structure RunTokenScope where
  spendLimitTokens : ℕ
  /-- `Field(ge=1, le=100_000_000)`. -/
  limit_bounds : 1 ≤ spendLimitTokens ∧ spendLimitTokens ≤ 100000000

/-- `RunTokenRow`, and whether its run is terminal or to be killed. -/
structure RunTokenRow where
  spentTokens : ℕ
  revoked : Bool
  inactive : Bool

inductive InvalidRunToken
  | invalid
  | spendExhausted

inductive Phase
  | serving
  /-- `finish` was called and its transaction is under way, with these counts. -/
  | writing (prompt completion : ℕ)
  /-- The transaction was committed or rolled back. -/
  | ended
  deriving DecidableEq

structure UsageTracker where
  promptTokens : ℕ
  completionTokens : ℕ
  reservedTokens : ℕ
  phase : Phase

structure UsageRecordRow where
  requestId : ℕ
  promptTokens : ℕ
  completionTokens : ℕ

structure State where
  token : RunTokenRow
  requests : Dict ℕ UsageTracker
  records : List UsageRecordRow

def State.init : State := ⟨⟨0, false, false⟩, .empty, []⟩

section

variable (scope : RunTokenScope)

/-- `_enforce_run_request_scope`, with the tokens spent when the request was
authenticated: the bound of its output. -/
def enforceRunRequestScope (toolsPermitted : Bool) (spent prompt : ℕ)
    (maxTokens : Option ℕ) : Option ℕ :=
  if !toolsPermitted then none
  else
    let remaining := scope.spendLimitTokens - spent
    if remaining ≤ prompt then none
    else
      let bounded := min ((maxTokens.filter (· ≠ 0)).getD (remaining - prompt))
        (remaining - prompt)
      if maxTokens.any (bounded < ·) then none else some bounded

def chargeRunToken (row : RunTokenRow) (tokens : ℕ) (expired : Bool) :
    Except InvalidRunToken RunTokenRow :=
  if row.revoked || expired || row.inactive then .error .invalid
  else if scope.spendLimitTokens < row.spentTokens + tokens then
    .error .spendExhausted
  else .ok { row with spentTokens := row.spentTokens + tokens }

def settleRunTokenUsage (row : RunTokenRow) (tokens reserved : ℕ) :
    Except InvalidRunToken RunTokenRow :=
  if row.spentTokens + tokens < reserved
      ∨ scope.spendLimitTokens + reserved < row.spentTokens + tokens then
    .error .spendExhausted
  else .ok { row with spentTokens := row.spentTokens + tokens - reserved }

variable (s : State)

def finish (r : ℕ) (u : UsageTracker) : State :=
  if u.phase = .serving then
    { s with requests := s.requests.set r { u with
        phase := .writing u.promptTokens u.completionTokens } }
  else s

/-- `_enforce_run_request_scope` and `_reserve_run_spend`, once a request. -/
def reserveRunSpend (r : ℕ) (u : UsageTracker) (toolsPermitted : Bool)
    (spent : ℕ) (maxTokens : Option ℕ) (expired : Bool) : State :=
  if u.phase ≠ .serving ∨ u.reservedTokens ≠ 0 then s
  else match enforceRunRequestScope scope toolsPermitted spent u.promptTokens
      maxTokens with
    | none => finish s r u
    | some bounded =>
      let reservation := u.promptTokens + bounded
      match chargeRunToken scope s.token reservation expired with
      | .error _ => finish s r u
      | .ok token => { s with
          token := token
          requests := s.requests.set r { u with reservedTokens := reservation } }

/-- `persist_usage`: the transaction of a finish. What it raises rolls it
back. The counts of a record are 32-bit integers. -/
def persistUsage (r : ℕ) (u : UsageTracker) (prompt completion : ℕ) : State :=
  let ended := { s with requests := s.requests.set r { u with phase := .ended } }
  let written := { ended with records := s.records ++ [⟨r, prompt, completion⟩] }
  if s.records.any (·.requestId = r) then ended
  else if 2147483648 ≤ prompt ∨ 2147483648 ≤ completion then ended
  else if 0 < u.reservedTokens then
    match settleRunTokenUsage scope s.token (prompt + completion)
        u.reservedTokens with
    | .error _ => ended
    | .ok token => { written with token := token }
  else written

end

inductive Label
  | start (r prompt : ℕ)
  | reserve (r : ℕ) (toolsPermitted : Bool) (spent : ℕ) (maxTokens : Option ℕ)
      (expired : Bool)
  | report (r prompt completion : ℕ)
  | finish (r : ℕ)
  | persist (r : ℕ)
  | revoke
  | kill

def step (scope : RunTokenScope) (s : State) : Label → State
  | .start r prompt =>
    { s with requests := s.requests.setDefault r ⟨prompt, 0, 0, .serving⟩ }
  | .reserve r toolsPermitted spent maxTokens expired =>
    match s.requests.get? r with
    | some u => reserveRunSpend scope s r u toolsPermitted spent maxTokens expired
    | none => s
  | .report r prompt completion =>
    { s with requests := s.requests.modify r fun u => { u with
        promptTokens := prompt, completionTokens := completion } }
  | .finish r =>
    match s.requests.get? r with
    | some u => finish s r u
    | none => s
  | .persist r =>
    match s.requests.get? r with
    | some u => match u.phase with
      | .writing prompt completion => persistUsage scope s r u prompt completion
      | _ => s
    | none => s
  | .revoke => { s with token := { s.token with revoked := true } }
  | .kill => { s with token := { s.token with inactive := true } }

/-! ## The accounts -/

def recordsOf (records : List UsageRecordRow) (r : ℕ) : List UsageRecordRow :=
  records.filter (·.requestId = r)

/-- What a request stands for in the tokens spent. -/
def due (records : List UsageRecordRow) (r : ℕ) (u : UsageTracker) : ℕ :=
  if u.reservedTokens = 0 then 0
  else if u.phase = .ended then
    ((recordsOf records r).map fun x => x.promptTokens + x.completionTokens).sum
  else u.reservedTokens

structure Accounted (s : State) : Prop where
  once : ∀ r u, s.requests.get? r = some u → 0 < u.reservedTokens →
    u.phase = .ended → (recordsOf s.records r).length = 1
  balance : s.token.spentTokens = s.requests.total (due s.records)

/-- **The settlement stays within the limit**: what is spent by now, with the
reported tokens in place of the reservation. -/
def WithinLimit (scope : RunTokenScope) (s : State) : Label → Prop
  | .persist r => ∀ u ∈ s.requests.get? r, 0 < u.reservedTokens →
    match u.phase with
    | .writing prompt completion => s.token.spentTokens + (prompt + completion)
        ≤ scope.spendLimitTokens + u.reservedTokens
    | _ => True
  | _ => True

/-- The invariant: only requests that are over have records. -/
structure Inv (s : State) : Prop extends Accounted s where
  known : ∀ x ∈ s.records, ∃ u, s.requests.get? x.requestId = some u
    ∧ u.phase = .ended

section

variable {scope : RunTokenScope} {s : State} {r : ℕ} {u u' : UsageTracker}

theorem Inv.recordsOf_eq_nil (h : Inv s) (hu : s.requests.get? r = some u)
    (hphase : u.phase ≠ .ended) : recordsOf s.records r = [] := by
  refine List.filter_eq_nil_iff.mpr fun x hx hr => hphase ?_
  obtain ⟨v, hv, hover⟩ := h.known x hx
  rw [of_decide_eq_true hr, hu] at hv
  cases hv
  exact hover

theorem Inv.split (h : Inv s) (hu : s.requests.get? r = some u) :
    s.token.spentTokens = s.requests.total (fun j v =>
      if j = r then 0 else due s.records j v) + due s.records r u := by
  rw [h.balance, Dict.total_split _ _ r, Dict.weight, hu, Option.elim_some]

theorem Inv.write (h : Inv s) (hu : s.requests.get? r = some u)
    {token : RunTokenRow} {records : List UsageRecordRow}
    (hothers : ∀ j, j ≠ r → recordsOf records j = recordsOf s.records j)
    (hover : recordsOf records r ≠ [] → u'.phase = .ended)
    (honce : 0 < u'.reservedTokens → u'.phase = .ended →
      (recordsOf records r).length = 1)
    (hspent : token.spentTokens + due s.records r u
      = s.token.spentTokens + due records r u') :
    Inv ⟨token, s.requests.set r u', records⟩ := by
  have hmem {x : UsageRecordRow} (hx : x ∈ records) :
      x ∈ recordsOf records x.requestId :=
    List.mem_filter.mpr ⟨hx, decide_eq_true rfl⟩
  refine ⟨⟨fun j v hj hpos hv => ?_, ?_⟩, fun x hx => ?_⟩
  · rcases Dict.get?_set_eq_some.mp hj with ⟨rfl, rfl⟩ | ⟨hne, hj⟩
    · exact honce hpos hv
    · rw [hothers j hne]
      exact h.once j v hj hpos hv
  · have hrest : s.requests.total (fun j v => if j = r then 0 else due records j v)
        = s.requests.total (fun j v => if j = r then 0 else due s.records j v) := by
      refine Dict.total_congr fun j v _ => ?_
      split
      · rfl
      · rename_i hne
        rw [due, hothers j hne, due]
    have := h.split hu
    show token.spentTokens = (s.requests.set r u').total (due records)
    rw [Dict.total_set_split, hrest]
    omega
  · show ∃ v, (s.requests.set r u').get? x.requestId = some v ∧ _
    rw [Dict.get?_set]
    split
    · rename_i hr
      exact ⟨u', rfl, hover (List.ne_nil_of_mem (hr ▸ hmem hx))⟩
    · rename_i hr
      have hx := hmem hx
      rw [hothers _ hr] at hx
      exact h.known x (List.mem_of_mem_filter hx)

theorem Inv.touch (h : Inv s) (hu : s.requests.get? r = some u)
    (hreserved : u'.reservedTokens = u.reservedTokens)
    (hphase : u'.phase = .ended ↔ u.phase = .ended) :
    Inv { s with requests := s.requests.set r u' } := by
  refine h.write hu (fun _ _ => rfl) (fun hne => ?_) ?_ ?_
  · by_contra hover
    exact hne (h.recordsOf_eq_nil hu (mt hphase.mpr hover))
  · rw [hreserved, hphase]
    exact h.once r u hu
  · simp only [due, hreserved, hphase]

theorem Inv.finish (h : Inv s) (hu : s.requests.get? r = some u) :
    Inv (finish s r u) := by
  unfold RunSpend.finish
  split
  · rename_i hserving
    exact h.touch hu rfl (by simp [hserving])
  · exact h

theorem Inv.reserve (h : Inv s) (hu : s.requests.get? r = some u)
    (toolsPermitted : Bool) (spent : ℕ) (maxTokens : Option ℕ) (expired : Bool) :
    Inv (reserveRunSpend scope s r u toolsPermitted spent maxTokens expired) := by
  unfold reserveRunSpend
  split
  · exact h
  rename_i hopen
  obtain ⟨hserving, hfree⟩ := not_or.mp hopen
  have hserving : u.phase = .serving := not_not.mp hserving
  split
  · exact h.finish hu
  rename_i bounded _
  extract_lets reservation
  split
  · exact h.finish hu
  · rename_i token hcharge
    have hnil := h.recordsOf_eq_nil hu (by rw [hserving]; nofun)
    refine h.write hu (fun _ _ => rfl) (absurd hnil) ?_ ?_
    · simp [hserving]
    · have htoken : token.spentTokens = s.token.spentTokens + reservation := by
        grind [chargeRunToken]
      by_cases hzero : reservation = 0
      · simp [due, htoken, hzero, not_not.mp hfree]
      · simp [due, htoken, hzero, not_not.mp hfree, hserving]

theorem recordsOf_append_ne {records : List UsageRecordRow}
    {x : UsageRecordRow} {j : ℕ} (h : j ≠ x.requestId) :
    recordsOf (records ++ [x]) j = recordsOf records j := by
  simp [recordsOf, List.filter_append, Ne.symm h]

/-- **The transaction of a finish** keeps the accounts where the settlement stays
within the limit, and breaks them where it does not. -/
theorem Inv.persist (h : Inv s) (hu : s.requests.get? r = some u)
    {prompt completion : ℕ} (hphase : u.phase = .writing prompt completion) :
    (0 < u.reservedTokens → s.token.spentTokens + (prompt + completion)
        ≤ scope.spendLimitTokens + u.reservedTokens) →
      Inv (persistUsage scope s r u prompt completion) := by
  intro hlimit
  have hne : u.phase ≠ .ended := by
    rw [hphase]
    nofun
  have hnil := h.recordsOf_eq_nil hu hne
  have hnone : s.records.any (·.requestId = r) = false :=
    List.any_eq_false.mpr fun x hx => List.filter_eq_nil_iff.mp hnil x hx
  have hone : recordsOf (s.records ++ [⟨r, prompt, completion⟩]) r
      = [⟨r, prompt, completion⟩] := by
    rw [recordsOf, List.filter_append, ← recordsOf, hnil]
    simp
  have hdue : due s.records r u = u.reservedTokens := by
    grind [due]
  have hle := h.split hu
  unfold persistUsage
  extract_lets ended written
  rw [if_neg (by rw [hnone]; nofun)]
  split
  · rename_i hbig
    -- Counts this large are over the limit of any reservation.
    have hfree : u.reservedTokens = 0 := by
      by_contra hpos
      have := hlimit (Nat.pos_of_ne_zero hpos)
      have := scope.limit_bounds.2
      omega
    exact h.write hu (fun _ _ => rfl) (absurd hnil) (by simp [hfree])
      (by simp [due, hfree])
  split
  · rename_i hpos
    have hsettle : settleRunTokenUsage scope s.token (prompt + completion)
        u.reservedTokens = .ok { s.token with spentTokens :=
          s.token.spentTokens + (prompt + completion) - u.reservedTokens } := by
      have := hlimit hpos
      exact if_neg (by omega)
    rw [hsettle]
    refine h.write hu (fun j hj => recordsOf_append_ne hj) (fun _ => rfl)
      (fun _ _ => by rw [hone]; rfl) ?_
    have : due (s.records ++ [⟨r, prompt, completion⟩]) r { u with phase := .ended }
        = prompt + completion := by
      simp [due, hone, Nat.ne_of_gt hpos]
    rw [this, hdue]
    show s.token.spentTokens + _ - _ + _ = _
    omega
  · rename_i hfree
    have hfree : u.reservedTokens = 0 := by omega
    refine h.write hu (fun j hj => recordsOf_append_ne hj) (fun _ => rfl)
      (fun _ _ => by rw [hone]; rfl) ?_
    rw [due, if_pos hfree, due, if_pos hfree]

theorem Inv.step (h : Inv s) {a : Label} (ha : WithinLimit scope s a) :
    Inv (step scope s a) := by
  cases a with
  | start r prompt =>
    show Inv { s with requests := s.requests.setDefault r ⟨prompt, 0, 0, .serving⟩ }
    unfold Dict.setDefault
    split
    · exact h
    rename_i hnone
    rw [Bool.not_eq_true, Option.isSome_eq_false_iff, Option.isNone_iff_eq_none]
      at hnone
    refine ⟨⟨fun j v hj hpos hv => ?_, ?_⟩, fun x hx => ?_⟩
    · grind [h.once j v]
    · rw [Dict.total_set_of_none hnone]
      exact h.balance
    · obtain ⟨v, hv, hover⟩ := h.known x hx
      refine ⟨v, (Dict.get?_set_ne _ ?_ _).trans hv, hover⟩
      rintro rfl
      cases hnone.symm.trans hv
  | reserve r toolsPermitted spent maxTokens expired =>
    rw [RunSpend.step]
    split
    · exact h.reserve ‹_› toolsPermitted spent maxTokens expired
    · exact h
  | report r prompt completion =>
    show Inv { s with requests := s.requests.modify r _ }
    unfold Dict.modify
    split
    · exact h
    · rename_i hu
      exact h.touch hu rfl Iff.rfl
  | finish r =>
    rw [RunSpend.step]
    split
    · exact h.finish ‹_›
    · exact h
  | persist r =>
    rw [RunSpend.step]
    split
    · rename_i u hu
      split
      · rename_i hphase
        refine h.persist hu hphase fun hpos => ?_
        have := ha u hu hpos
        rwa [hphase] at this
      · exact h
    · exact h
  | revoke | kill => exact ⟨⟨h.once, h.balance⟩, h.known⟩

theorem Inv.not_accounted (h : Inv s) {a : Label} (ha : ¬ WithinLimit scope s a) :
    ¬ Accounted (RunSpend.step scope s a) := by
  cases a with
  | persist r =>
    simp only [WithinLimit, not_forall] at ha
    obtain ⟨u, hu, hpos, hover⟩ := ha
    have hu : s.requests.get? r = some u := hu
    cases hphase : u.phase with
    | writing prompt completion =>
      rw [hphase] at hover
      have hnil := h.recordsOf_eq_nil hu (by rw [hphase]; nofun)
      have hsettle : settleRunTokenUsage scope s.token (prompt + completion)
          u.reservedTokens = .error .spendExhausted :=
        if_pos (.inr (Nat.lt_of_not_le hover))
      have hstep : RunSpend.step scope s (.persist r)
          = { s with requests := s.requests.set r { u with phase := .ended } } := by
        simp only [RunSpend.step, hu, hphase, persistUsage, hsettle, if_pos hpos,
          ite_self]
      rw [hstep]
      intro hacc
      have := hacc.once r _ (Dict.get?_set_self ..) hpos rfl
      rw [hnil] at this
      cases this
    | serving | ended =>
      rw [hphase] at hover
      exact absurd trivial hover
  | start | reserve | report | finish | revoke | kill => exact absurd trivial ha

end

/-- **Every served request is accounted, as long as each settlement stays within
the limit, and only then.** -/
theorem spend_accounted_iff (scope : RunTokenScope) (as : List Label) :
    Run.Throughout (step scope) Accounted .init as
      ↔ Run.Along (step scope) (WithinLimit scope) .init as :=
  Run.throughout_iff_along Inv (fun _ h => h.toAccounted) (fun _ _ h => h.step)
    (fun _ _ h => h.not_accounted)
    ⟨⟨fun _ _ hu => (nomatch hu), rfl⟩, nofun⟩

/-- **A request that used more than it reserved is not recorded**: of a limit of
10 tokens it reserved all, and the engine reports 11. -/
theorem excess_usage_lost : ¬ Run.Throughout (step ⟨10, by decide⟩) Accounted .init
      [.start 0 2, .reserve 0 true 0 none false, .report 0 2 9, .finish 0,
        .persist 0] := by
  intro h
  exact absurd ((h 5).once 0 _ rfl (by decide) rfl) (by decide)

/-! ## The limit -/

/-- **A run is charged no more than its limit**, and no request is recorded twice. -/
structure Bounded (scope : RunTokenScope) (s : State) : Prop where
  limited : s.token.spentTokens ≤ scope.spendLimitTokens
  once : (s.records.map (·.requestId)).Nodup

section

variable {scope : RunTokenScope} {s : State}

theorem Bounded.reserve (h : Bounded scope s) (r : ℕ) (u : UsageTracker)
    (toolsPermitted : Bool) (spent : ℕ) (maxTokens : Option ℕ) (expired : Bool) :
    Bounded scope
      (reserveRunSpend scope s r u toolsPermitted spent maxTokens expired) := by
  have hlimited := h.limited
  have honce := h.once
  constructor
  · grind [reserveRunSpend, finish, chargeRunToken]
  · grind [reserveRunSpend, finish]

theorem Bounded.persist (h : Bounded scope s) (r : ℕ) (u : UsageTracker)
    (prompt completion : ℕ) :
    Bounded scope (persistUsage scope s r u prompt completion) := by
  have hlimited := h.limited
  constructor
  · grind [persistUsage, settleRunTokenUsage]
  · let row : UsageRecordRow := ⟨r, prompt, completion⟩
    have hnew (hnone : ¬ s.records.any (·.requestId = r)) :
        ((s.records ++ [row]).map (·.requestId)).Nodup := by
      rw [List.map_append]
      refine h.once.append (List.nodup_singleton r) ?_
      simpa using hnone
    have honce := h.once
    grind [persistUsage]

theorem Bounded.step (h : Bounded scope s) (a : Label) :
    Bounded scope (step scope s a) := by
  cases a with
  | reserve r toolsPermitted spent maxTokens expired =>
    rw [RunSpend.step]
    split
    · exact h.reserve ..
    · exact h
  | persist r =>
    rw [RunSpend.step]
    split
    · split
      · exact h.persist ..
      · exact h
    · exact h
  | finish r =>
    have hlimited := h.limited
    have honce := h.once
    constructor <;> grind [RunSpend.step, RunSpend.finish]
  | start | report | revoke | kill => exact ⟨h.limited, h.once⟩

end

/-- **The limit of a run holds**, however its requests interleave, and also where a
settlement is refused. -/
theorem spend_never_exceeds (scope : RunTokenScope) (as : List Label) :
    Run.Throughout (step scope) (Bounded scope) .init as :=
  Run.throughout_of_kept (Bounded scope) (fun _ h => h) (fun _ a h => h.step a)
    ⟨Nat.zero_le _, List.nodup_nil⟩

end RunSpend
