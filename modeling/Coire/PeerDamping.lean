import Coire.PastTime
import Coire.PeerLiveness
import Coire.Run
import Mathlib.Data.List.DropRight

/-!
# What peer liveness reports

`PeerLiveness` keeps five dictionaries and updates them on four branches. What it
reports of a peer has a meaning over the whole history of the probes of that peer, which
is stated here without any of them. The missed beats at the end of the history are its
failure run, the beats in time at its end its recovery run. Then the peer is

* *unreachable* since the first failure of a run, if that run reached the limit and
  since then there was no slow beat, no full recovery run and no other such failure run;
* *degraded* since a slow beat before which it was not, if since then there was neither
  a failure run that reached the limit nor a full recovery run;
* *healthy* again, after either, at the beat that completes a recovery run, and since
  that beat.
-/

namespace PeerLiveness

open PastTime (Since First since_nil since_snoc since_first since_exists)

structure Probe where
  ok : Bool
  latencyMs : ℚ
  now : ℤ
  deriving DecidableEq

section Meaning

variable (cfg : LivenessSettings)

def Probe.slow (p : Probe) : Bool := p.ok && decide (cfg.latencyBudgetMs < p.latencyMs)

def Probe.inBudget (p : Probe) : Bool :=
  p.ok && !decide (cfg.latencyBudgetMs < p.latencyMs)

/-- The missed beats a history ends in. -/
def failureRun (h : List Probe) : List Probe := h.rtakeWhile (fun p => !p.ok)

/-- The beats in time a history ends in. -/
def recoveryRun (h : List Probe) : List Probe := h.rtakeWhile (Probe.inBudget cfg)

def Failing (h : List Probe) : Prop := cfg.failureLimit ≤ (failureRun h).length

def Recovered (h : List Probe) : Prop := cfg.recoveryBeats ≤ (recoveryRun cfg h).length

def Slow (h : List Probe) : Prop := ∃ p, h.getLast? = some p ∧ p.slow cfg = true

/-- **Unreachable since `t`**, the first failure of the last run that reached the
limit. -/
def UnreachableSince (t : ℤ) : List Probe → Prop :=
  Since (fun h => ¬ Slow cfg h ∧ ¬ Recovered cfg h ∧ ¬ Failing cfg h)
    (fun h => Failing cfg h ∧ (failureRun h).head?.map Probe.now = some t)

/-- **Degraded**: a slow beat, and neither a full recovery nor too many failures
since. -/
def Degraded : List Probe → Prop :=
  Since (fun h => ¬ Recovered cfg h ∧ ¬ Failing cfg h) (Slow cfg)

/-- **Degraded since `t`**, the slow beat before which it was not. -/
def DegradedSince (t : ℤ) : List Probe → Prop :=
  Since (fun h => ¬ Recovered cfg h ∧ ¬ Failing cfg h) (fun h =>
    (Slow cfg h ∧ ¬ Degraded cfg h.dropLast) ∧ h.getLast?.map Probe.now = some t)

end Meaning

variable {cfg : LivenessSettings} {h : List Probe} {p : Probe} {t : ℤ}

/-! ## One more probe -/

section Snoc

theorem failureRun_snoc : failureRun (h ++ [p])
    = if p.ok then [] else failureRun h ++ [p] := by
  unfold failureRun
  rw [List.rtakeWhile_concat]
  cases p.ok <;> rfl

theorem recoveryRun_snoc : recoveryRun cfg (h ++ [p])
    = if p.inBudget cfg then recoveryRun cfg h ++ [p] else [] :=
  List.rtakeWhile_concat ..

theorem slow_snoc : Slow cfg (h ++ [p]) ↔ p.slow cfg = true := by
  grind [Slow]

theorem not_failing_of_ok (hok : p.ok = true) : ¬ Failing cfg (h ++ [p]) := by
  unfold Failing
  rw [failureRun_snoc, if_pos hok]
  exact Nat.not_le_of_lt cfg.failureLimit_pos

theorem not_recovered_of_late (hlate : p.inBudget cfg = false) :
    ¬ Recovered cfg (h ++ [p]) := by
  unfold Recovered
  rw [recoveryRun_snoc, if_neg (Bool.eq_false_iff.mp hlate)]
  exact Nat.not_le_of_lt cfg.recoveryBeats_pos

variable (cfg) in
theorem not_inBudget_of_missed (hok : p.ok = false) : p.inBudget cfg = false := by
  unfold Probe.inBudget
  rw [hok, Bool.false_and]

variable (cfg) in
theorem not_slow_of_missed (hok : p.ok = false) : p.slow cfg = false := by
  unfold Probe.slow
  rw [hok, Bool.false_and]

theorem not_inBudget_of_slow (hslow : p.slow cfg = true) : p.inBudget cfg = false := by
  grind [Probe.slow, Probe.inBudget]

theorem unreachableSince_missed (hok : p.ok = false) :
    UnreachableSince cfg t (h ++ [p]) ↔
      if cfg.failureLimit ≤ (failureRun h).length + 1
      then ((failureRun h ++ [p]).head?.map Probe.now = some t)
      else UnreachableSince cfg t h := by
  have hslow : ¬ Slow cfg (h ++ [p]) := fun hs =>
    Bool.eq_false_iff.mp (not_slow_of_missed cfg hok) (slow_snoc.mp hs)
  have hrecovered := not_recovered_of_late (h := h) (not_inBudget_of_missed cfg hok)
  have hrun : failureRun (h ++ [p]) = failureRun h ++ [p] := by
    rw [failureRun_snoc, hok]
    rfl
  have hfailing : Failing cfg (h ++ [p]) ↔ cfg.failureLimit ≤ (failureRun h).length + 1 := by
    unfold Failing
    rw [hrun, List.length_append, List.length_singleton]
  unfold UnreachableSince
  rw [since_snoc, hfailing, hrun]
  split
  case isTrue hlimit => simp [hlimit]
  case isFalse hlimit => simp [hlimit, hslow, hrecovered]

theorem unreachableSince_ok (hok : p.ok = true) :
    UnreachableSince cfg t (h ++ [p]) ↔ p.slow cfg = false ∧ ¬ Recovered cfg (h ++ [p])
      ∧ UnreachableSince cfg t h := by
  unfold UnreachableSince
  rw [since_snoc, slow_snoc]
  simp [not_failing_of_ok hok, and_assoc]

theorem degraded_iff : Degraded cfg h ↔ ∃ t, DegradedSince cfg t h := by
  unfold Degraded DegradedSince
  rw [← since_first, ← since_exists]
  · refine iff_of_eq (congrArg (fun q => Since _ q h) ?_)
    funext h'
    refine propext ⟨fun hfirst => ?_, fun ⟨_, hfirst, _⟩ => hfirst⟩
    obtain ⟨q, hq, -⟩ := hfirst.1
    exact ⟨q.now, hfirst, by rw [hq, Option.map_some]⟩
  · rintro h' ⟨q, hq, hqslow⟩
    obtain ⟨h', rfl⟩ := List.getLast?_eq_some_iff.mp hq
    exact ⟨not_recovered_of_late (not_inBudget_of_slow hqslow),
      not_failing_of_ok (Bool.and_eq_true_iff.mp hqslow).1⟩
  · rintro ⟨q, hq, -⟩
    cases hq

theorem degradedSince_slow (hslow : p.slow cfg = true) :
    DegradedSince cfg t (h ++ [p]) ↔
      ¬ Degraded cfg h ∧ p.now = t ∨ DegradedSince cfg t h := by
  have hok : p.ok = true := (Bool.and_eq_true_iff.mp hslow).1
  have hrecovered := not_recovered_of_late (h := h) (not_inBudget_of_slow hslow)
  rw [DegradedSince, since_snoc, slow_snoc, List.dropLast_concat, List.getLast?_concat]
  simp [hslow, hrecovered, not_failing_of_ok hok]

theorem degradedSince_other (hslow : p.slow cfg = false) :
    DegradedSince cfg t (h ++ [p]) ↔
      ¬ Recovered cfg (h ++ [p]) ∧ ¬ Failing cfg (h ++ [p]) ∧ DegradedSince cfg t h := by
  rw [DegradedSince, since_snoc, slow_snoc]
  simp [hslow, and_assoc]

end Snoc

/-! ## The dictionaries mean this -/

section Damped

variable {l l' : PeerLiveness} {name : Member}

def Reports (l : PeerLiveness) (name : Member) (health : MemberHealth) (t : ℤ) : Prop :=
  l.health.get? name = some health ∧ l.since.get? name = some t

def Ill (l : PeerLiveness) (name : Member) : Prop :=
  l.health.get? name = some .unreachable ∨ l.health.get? name = some .degraded

variable (cfg) in
/-- **The dictionaries of a peer mean its history.** -/
structure Damped (l : PeerLiveness) (name : Member) (h : List Probe) : Prop where
  failures : (l.failures.get? name).getD 0 = (failureRun h).length
  downSince : l.downSince.get? name = (failureRun h).head?.map Probe.now
  recoveries : l.Ill name →
    (l.recoveries.get? name).getD 0 = (recoveryRun cfg h).length ∧ ¬ Recovered cfg h
  dated : ∀ {health}, l.health.get? name = some health → ∃ t, l.since.get? name = some t
  unreachable : ∀ t, l.Reports name .unreachable t ↔ UnreachableSince cfg t h
  degraded : ∀ t, l.Reports name .degraded t ↔ DegradedSince cfg t h

theorem Damped.congr (hl : Damped cfg l name h)
    (hfailures : l'.failures.get? name = l.failures.get? name)
    (hrecoveries : l'.recoveries.get? name = l.recoveries.get? name)
    (hhealth : l'.health.get? name = l.health.get? name)
    (hsince : l'.since.get? name = l.since.get? name)
    (hdown : l'.downSince.get? name = l.downSince.get? name) : Damped cfg l' name h where
  failures := hfailures ▸ hl.failures
  downSince := hdown ▸ hl.downSince
  recoveries hill := by
    rw [hrecoveries]
    exact hl.recoveries (by rwa [Ill, hhealth] at hill)
  dated {health} hh := by
    rw [hsince]
    exact hl.dated (hhealth ▸ hh)
  unreachable t := by
    unfold Reports
    rw [hhealth, hsince]
    exact hl.unreachable t
  degraded t := by
    unfold Reports
    rw [hhealth, hsince]
    exact hl.degraded t

theorem damped_init (name : Member) : Damped cfg init name [] where
  failures := rfl
  downSince := rfl
  recoveries hill := by
    rcases hill with h | h <;> cases h
  dated h := by cases h
  unreachable t := by
    refine iff_of_false (fun h => by cases h.1) fun h => ?_
    exact Nat.not_le_of_lt cfg.failureLimit_pos (since_nil.mp h).1
  degraded t := by
    refine iff_of_false (fun h => by cases h.1) fun h => ?_
    obtain ⟨_, hq, _⟩ := (since_nil.mp h).1.1
    cases hq

theorem health_eq_of_set {d : Dict Member MemberHealth} {health health' : MemberHealth}
    (h : (d.set name health).get? name = some health') : health = health' := by
  rw [Dict.get?_set_self] at h
  exact Option.some.inj h

theorem Damped.degraded_iff_health (hl : Damped cfg l name h) :
    Degraded cfg h ↔ l.health.get? name = some .degraded := by
  rw [degraded_iff]
  constructor
  · rintro ⟨t, ht⟩
    exact ((hl.degraded t).mpr ht).1
  · intro hh
    obtain ⟨t, ht⟩ := hl.dated hh
    exact ⟨t, (hl.degraded t).mp ⟨hh, ht⟩⟩

theorem Damped.noteFailure (hl : Damped cfg l name h) (hok : p.ok = false) :
    Damped cfg (l.noteFailure cfg name p.now) name (h ++ [p]) := by
  have hrun : failureRun (h ++ [p]) = failureRun h ++ [p] := by
    rw [failureRun_snoc, hok]
    rfl
  have hdown : some ((l.downSince.get? name).getD p.now)
      = (failureRun h ++ [p]).head?.map Probe.now := by
    rw [hl.downSince]
    cases failureRun h <;> rfl
  have hlate := not_inBudget_of_missed cfg hok
  have hzero : recoveryRun cfg (h ++ [p]) = [] := by
    rw [recoveryRun_snoc, if_neg (Bool.eq_false_iff.mp hlate)]
  have hrecovered := not_recovered_of_late (h := h) hlate
  have hother (t : ℤ) := degradedSince_other (h := h) (t := t) (not_slow_of_missed cfg hok)
  have hfailing : Failing cfg (h ++ [p])
      ↔ cfg.failureLimit ≤ (l.failures.get? name).getD 0 + 1 := by
    unfold Failing
    rw [hrun, List.length_append, hl.failures, List.length_singleton]
  have hcount : ((l.failures.set name ((l.failures.get? name).getD 0 + 1)).get? name).getD 0
      = (failureRun (h ++ [p])).length := by
    grind [cases Damped]
  have hdown' : (l.downSince.setDefault name p.now).get? name
      = (failureRun (h ++ [p])).head?.map Probe.now := by
    rw [Dict.get?_setDefault, if_pos rfl, hdown, hrun]
  have hbeats : ((l.recoveries.set name 0).get? name).getD 0
      = (recoveryRun cfg (h ++ [p])).length := by
    rw [Dict.get?_set_self, hzero]
    rfl
  unfold PeerLiveness.noteFailure
  dsimp only
  split
  case isTrue hlimit =>
    refine ⟨hcount, hdown', fun _ => ⟨hbeats, hrecovered⟩, fun _ => ?_, fun t => ?_,
      fun t => ?_⟩
    · exact ⟨_, Dict.get?_set_self ..⟩
    · grind [Reports, unreachableSince_missed]
    · grind [Reports]
  case isFalse hlimit =>
    refine ⟨hcount, hdown', fun _ => ⟨hbeats, hrecovered⟩, hl.dated, fun t => ?_,
      fun t => ?_⟩
    · rw [unreachableSince_missed hok, if_neg (hl.failures ▸ hlimit)]
      exact hl.unreachable t
    · grind [Reports, cases Damped]

theorem Damped.noteSuccess (hl : Damped cfg l name h) (hok : p.ok = true) :
    Damped cfg (l.noteSuccess cfg name p.latencyMs p.now) name (h ++ [p]) := by
  have hrun : failureRun (h ++ [p]) = [] := by
    rw [failureRun_snoc, if_pos hok]
  have hcount : ((l.failures.set name 0).get? name).getD 0
      = (failureRun (h ++ [p])).length := by
    rw [Dict.get?_set_self, hrun]
    rfl
  have hdown : (l.downSince.erase name).get? name
      = (failureRun (h ++ [p])).head?.map Probe.now := by
    rw [Dict.get?_erase, if_pos rfl, hrun]
    rfl
  have hfailing : ¬ Failing cfg (h ++ [p]) := not_failing_of_ok hok
  unfold PeerLiveness.noteSuccess
  dsimp only
  split
  case isTrue hbudget =>
    have hslow : p.slow cfg = true := by
      unfold Probe.slow
      rw [hok, decide_eq_true hbudget]
      rfl
    have hlate := not_inBudget_of_slow hslow
    refine ⟨hcount, hdown, fun _ => ⟨?_, not_recovered_of_late hlate⟩, fun _ => ?_,
      fun t => ?_, fun t => ?_⟩
    · rw [Dict.get?_set_self, recoveryRun_snoc, if_neg (Bool.eq_false_iff.mp hlate)]
      rfl
    · split
      · exact ⟨_, Dict.get?_set_self ..⟩
      · grind [cases Damped]
    · rw [unreachableSince_ok hok, hslow]
      exact iff_of_false (fun hr => by cases health_eq_of_set hr.1)
        fun hu => Bool.noConfusion hu.1
    · rw [degradedSince_slow hslow, ← hl.degraded, hl.degraded_iff_health]
      unfold Reports
      rw [Dict.get?_set_self, and_iff_right rfl]
      split <;> rename_i hcurrent
      · grind
      · grind
  case isFalse hbudget =>
    have hslow : p.slow cfg = false := by
      unfold Probe.slow
      rw [decide_eq_false hbudget, Bool.and_false]
    have hrecovery : (recoveryRun cfg (h ++ [p])).length
        = (recoveryRun cfg h).length + 1 := by
      grind [recoveryRun_snoc, Probe.inBudget, List.length_singleton]
    have hunreachable (t : ℤ) : UnreachableSince cfg t (h ++ [p])
        ↔ ¬ Recovered cfg (h ++ [p]) ∧ l.Reports name .unreachable t := by
      rw [unreachableSince_ok hok, hl.unreachable, and_iff_right hslow]
    have hdegraded (t : ℤ) : DegradedSince cfg t (h ++ [p])
        ↔ ¬ Recovered cfg (h ++ [p]) ∧ l.Reports name .degraded t := by
      rw [degradedSince_other hslow, hl.degraded, and_iff_right hfailing]
    split
    case isTrue hill =>
      have hrecovered : Recovered cfg (h ++ [p])
          ↔ cfg.recoveryBeats ≤ (l.recoveries.get? name).getD 0 + 1 := by
        unfold Recovered
        rw [hrecovery, (hl.recoveries hill).1]
      split
      case isTrue hfull =>
        refine ⟨hcount, hdown, fun hill' => ?_, fun _ => ⟨_, Dict.get?_set_self ..⟩,
          fun t => ?_, fun t => ?_⟩
        · rcases hill' with hh | hh <;> cases health_eq_of_set hh
        · grind [Reports]
        · grind [Reports]
      case isFalse hfull =>
        have hstill := mt hrecovered.mp hfull
        refine ⟨hcount, hdown, fun _ => ⟨?_, hstill⟩, hl.dated, fun t => ?_, fun t => ?_⟩
        · rw [Dict.get?_set_self, Option.getD_some, hrecovery, (hl.recoveries hill).1]
        · grind [Reports]
        · grind [Reports]
    case isFalse hwell =>
      refine ⟨hcount, hdown, fun hill' => ?_, fun _ => ?_, fun t => ?_, fun t => ?_⟩
      · rcases hill' with hh | hh <;> cases health_eq_of_set hh
      · exact ⟨_, by rw [Dict.get?_setDefault, if_pos rfl]⟩
      · grind [Reports]
      · grind [Reports]

theorem Damped.note (hl : Damped cfg l name h) (p : Probe) :
    Damped cfg (l.note cfg name p.ok p.latencyMs p.now) name (h ++ [p]) := by
  unfold PeerLiveness.note
  cases hok : p.ok with
  | true => exact hl.noteSuccess hok
  | false => exact hl.noteFailure hok

theorem Damped.note_other (hl : Damped cfg l name h) {other : Member}
    (hne : name ≠ other) (p : Probe) :
    Damped cfg (l.note cfg other p.ok p.latencyMs p.now) name h := by
  have hset {β : Type} (d : Dict Member β) (v : β) :
      (d.set other v).get? name = d.get? name := Dict.get?_set_ne d hne v
  have hdefault (d : Dict Member ℤ) (v : ℤ) :
      (d.setDefault other v).get? name = d.get? name := by
    rw [Dict.get?_setDefault, if_neg hne]
  have herase (d : Dict Member ℤ) : (d.erase other).get? name = d.get? name := by
    rw [Dict.get?_erase, if_neg hne]
  refine hl.congr ?_ ?_ ?_ ?_ ?_ <;>
    unfold PeerLiveness.note PeerLiveness.noteSuccess PeerLiveness.noteFailure <;>
    split <;> dsimp only <;> repeat' split
  all_goals simp only [hset, hdefault, herase]

theorem Damped.observations (hl : Damped cfg l name h) {self : Member} (hne : name ≠ self)
    (now : ℤ) : Damped cfg (l.observations self now).2 name h :=
  hl.congr rfl rfl rfl ((Dict.get?_setDefault ..).trans (if_neg hne)) rfl

theorem Damped.mem_observations (hl : Damped cfg l name h) {self : Member}
    (hne : name ≠ self) {now : ℤ} {health : MemberHealth} :
    ⟨name, health, t⟩ ∈ (l.observations self now).1 ↔ l.Reports name health t := by
  have hsince : (l.since.setDefault self now).get? name = l.since.get? name := by
    rw [Dict.get?_setDefault, if_neg hne]
  unfold PeerLiveness.observations Reports
  rw [List.mem_cons, List.mem_map]
  constructor
  · rintro (heq | ⟨⟨name', health'⟩, hmem, heq⟩)
    · grind
    · cases heq
      have hhealth := Dict.mem_items.mp hmem
      obtain ⟨t, ht⟩ := hl.dated hhealth
      refine ⟨hhealth, ?_⟩
      dsimp only
      rw [hsince, ht, Option.getD_some]
  · rintro ⟨hhealth, ht⟩
    refine .inr ⟨(name, health), Dict.mem_items.mpr hhealth, ?_⟩
    dsimp only
    rw [hsince, ht, Option.getD_some]

/-- **A peer that has to recover is healthy again** with the last beat of a full
recovery run, and since that beat. -/
theorem Damped.note_healthy (hl : Damped cfg l name h) (hill : l.Ill name) (p : Probe) :
    (l.note cfg name p.ok p.latencyMs p.now).Reports name .healthy t ↔
      (recoveryRun cfg (h ++ [p])).length = cfg.recoveryBeats ∧ p.now = t := by
  obtain ⟨hbeats, hrecovered⟩ := hl.recoveries hill
  have hill' : l.health.get? name ≠ some .healthy := by
    rintro hh
    rcases hill with hill | hill <;> rw [hill] at hh <;> cases hh
  -- a missed or a slow beat leaves no recovery run
  have hnone (hlate : p.inBudget cfg = false) :
      (recoveryRun cfg (h ++ [p])).length ≠ cfg.recoveryBeats := by
    rw [recoveryRun_snoc, if_neg (Bool.eq_false_iff.mp hlate)]
    exact Nat.ne_of_lt cfg.recoveryBeats_pos
  unfold PeerLiveness.note
  cases hok : p.ok with
  | false =>
    refine iff_of_false (fun hr => ?_) fun hfull => ?_
    · rw [if_neg Bool.false_ne_true] at hr
      have hhealth := hr.1
      unfold PeerLiveness.noteFailure at hhealth
      dsimp only at hhealth
      split at hhealth
      · cases health_eq_of_set hhealth
      · exact hill' hhealth
    · exact hnone (not_inBudget_of_missed cfg hok) hfull.1
  | true =>
    rw [if_pos rfl]
    unfold PeerLiveness.noteSuccess Reports
    dsimp only
    split
    case isTrue hbudget =>
      refine iff_of_false (fun hr => by cases health_eq_of_set hr.1) fun hfull => ?_
      refine hnone ?_ hfull.1
      unfold Probe.inBudget
      rw [decide_eq_true hbudget, Bool.not_true, Bool.and_false]
    case isFalse hbudget =>
      have hrun : (recoveryRun cfg (h ++ [p])).length
          = (l.recoveries.get? name).getD 0 + 1 := by
        grind [recoveryRun_snoc, Probe.inBudget, List.length_singleton]
      rw [if_pos (show _ ∨ _ from hill), hrun]
      unfold Recovered at hrecovered
      split
      case isTrue hfull =>
        rw [Dict.get?_set_self, Dict.get?_set_self]
        exact and_congr (iff_of_true rfl (by omega)) Option.some_inj
      case isFalse hfull =>
        exact iff_of_false (fun hr => hill' hr.1) fun hr => hfull (Nat.le_of_eq hr.1.symm)

end Damped

/-! ## Runs -/

inductive Event
  | probe (name : Member) (p : Probe)
  | observe (self : Member) (now : ℤ)
  deriving DecidableEq

variable (cfg) in
def step (l : PeerLiveness) : Event → PeerLiveness
  | .probe name p => l.note cfg name p.ok p.latencyMs p.now
  | .observe self now => (l.observations self now).2

def Event.of (name : Member) : Event → Option Probe
  | .probe name' p => if name = name' then some p else none
  | .observe _ _ => none

def history (name : Member) (events : List Event) : List Probe :=
  events.filterMap (Event.of name)

theorem Damped.run {l : PeerLiveness} {name : Member} (hl : Damped cfg l name h)
    (events : List Event) (hpeer : ∀ now, .observe name now ∉ events) :
    Damped cfg (Run.last (step cfg) l events) name (h ++ history name events) := by
  induction events generalizing l h with
  | nil =>
    rw [show history name [] = [] from rfl, List.append_nil]
    exact hl
  | cons e events ih =>
    have hpeer' : ∀ now, .observe name now ∉ events :=
      fun now hmem => hpeer now (List.mem_cons_of_mem _ hmem)
    cases e with
    | probe name' p =>
      by_cases hname : name = name'
      · subst hname
        have hstep := ih (hl.note p) hpeer'
        rw [List.append_assoc] at hstep
        rwa [history, List.filterMap_cons_some
          (show Event.of name (.probe name p) = some p from if_pos rfl)]
      · rw [history, List.filterMap_cons_none
          (show Event.of name (.probe name' p) = none from if_neg hname)]
        exact ih (hl.note_other hname p) hpeer'
    | observe self now =>
      have hname : name ≠ self := by
        rintro rfl
        exact hpeer now List.mem_cons_self
      exact ih (hl.observations hname now) hpeer'

variable (cfg) in
def reports (events : List Event) (self : Member) (now : ℤ) : List MemberObservation :=
  ((Run.last (step cfg) init events).observations self now).1

/-- **The reports mean the history of the probes.** -/
theorem reports_meaning (cfg : LivenessSettings) (events : List Event)
    {self name : Member} (hself : name ≠ self) (hpeer : ∀ now, .observe name now ∉ events)
    (now : ℤ) :
    (∀ t, ⟨name, .unreachable, t⟩ ∈ reports cfg events self now
      ↔ UnreachableSince cfg t (history name events))
    ∧ (∀ t, ⟨name, .degraded, t⟩ ∈ reports cfg events self now
      ↔ DegradedSince cfg t (history name events))
    ∧ ∀ p health t t', health = .unreachable ∨ health = .degraded →
      ⟨name, health, t⟩ ∈ reports cfg events self now →
      (⟨name, .healthy, t'⟩ ∈ reports cfg (events ++ [.probe name p]) self now
        ↔ (recoveryRun cfg (history name events ++ [p])).length = cfg.recoveryBeats
          ∧ p.now = t') := by
  have hl : Damped cfg (Run.last (step cfg) init events) name (history name events) :=
    (damped_init name).run events hpeer
  refine ⟨fun t => (hl.mem_observations hself).trans (hl.unreachable t),
    fun t => (hl.mem_observations hself).trans (hl.degraded t),
    fun p health t t' hhealth hmem => ?_⟩
  have hreports := (hl.mem_observations hself).mp hmem
  have hill : (Run.last (step cfg) init events).Ill name := by
    rcases hhealth with rfl | rfl
    · exact .inl hreports.1
    · exact .inr hreports.1
  have hlast : Run.last (step cfg) init (events ++ [.probe name p])
      = (Run.last (step cfg) init events).note cfg name p.ok p.latencyMs p.now := by
    unfold Run.last
    rw [List.foldl_append]
    rfl
  unfold reports
  rw [hlast]
  exact ((hl.note p).mem_observations hself).trans (hl.note_healthy hill p)

/-- Two misses or two beats change the health. -/
def damping : LivenessSettings := ⟨2, 2, 100, by decide, by decide⟩

/-- Two misses, a beat in time, a miss and a beat in time, among others. -/
def missesAndBeats : List Event :=
  [.probe .edgeA ⟨false, 0, 1⟩, .probe .edgeA ⟨false, 0, 2⟩, .observe .core 2,
    .probe .edgeA ⟨true, 5, 3⟩, .probe .edgeB ⟨true, 5, 3⟩, .probe .edgeA ⟨false, 0, 4⟩,
    .probe .edgeA ⟨true, 5, 5⟩]

/-- The peer is unreachable since its first miss, and the next beat in time brings it
back. -/
theorem reports_meaning_misses :
    UnreachableSince damping 1 (history .edgeA missesAndBeats) ∧ ⟨.edgeA, .healthy, 6⟩ ∈
        reports damping (missesAndBeats ++ [.probe .edgeA ⟨true, 5, 6⟩]) .core 6 := by
  have hdown : ⟨.edgeA, .unreachable, 1⟩ ∈ reports damping missesAndBeats .core 6 := by
    decide +kernel
  obtain ⟨hunreachable, -, hhealthy⟩ := reports_meaning damping missesAndBeats
    (show Member.edgeA ≠ .core by decide) (fun now hmem => by simp [missesAndBeats] at hmem) 6
  exact ⟨(hunreachable 1).mp hdown,
    (hhealthy ⟨true, 5, 6⟩ _ 1 6 (.inl rfl) hdown).mpr ⟨by decide +kernel, rfl⟩⟩

end PeerLiveness
