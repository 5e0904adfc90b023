import Coire.Election
import Mathlib.Algebra.Order.Ring.Unbundled.Rat

/-!
# Peer liveness

A probe of a peer fails, or succeeds within some latency. `PeerLiveness`
damps these results into the health the election observes: a slow beat is
degraded, `failureLimit` missed beats in a row are unreachable – since the
first of them – and coming back takes `recoveryBeats` beats in time.
-/

structure LivenessSettings where
  failureLimit : ℕ
  recoveryBeats : ℕ
  latencyBudgetMs : ℚ
  /-- `heartbeat damping requires at least one beat`. -/
  failureLimit_pos : 1 ≤ failureLimit
  recoveryBeats_pos : 1 ≤ recoveryBeats

structure PeerLiveness where
  failures : Dict Member ℕ
  recoveries : Dict Member ℕ
  health : Dict Member MemberHealth
  since : Dict Member ℤ
  downSince : Dict Member ℤ

namespace PeerLiveness

def init : PeerLiveness :=
  ⟨Dict.empty, Dict.empty, Dict.empty, Dict.empty, Dict.empty⟩

variable (cfg : LivenessSettings) (l : PeerLiveness)

def noteFailure (name : Member) (now : ℤ) : PeerLiveness :=
  let count := (l.failures.get? name).getD 0 + 1
  let l' : PeerLiveness := { l with
    failures := l.failures.set name count
    recoveries := l.recoveries.set name 0
    downSince := l.downSince.setDefault name now }
  if cfg.failureLimit ≤ count then
    { l' with
      health := l'.health.set name .unreachable
      since := l'.since.set name ((l'.downSince.get? name).getD now) }
  else l'

def noteSuccess (name : Member) (latencyMs : ℚ) (now : ℤ) :
    PeerLiveness :=
  let l' : PeerLiveness := { l with
    failures := l.failures.set name 0
    downSince := l.downSince.erase name }
  let current := l'.health.get? name
  if cfg.latencyBudgetMs < latencyMs then
    { l' with
      recoveries := l'.recoveries.set name 0
      since := if current ≠ some .degraded then l'.since.set name now
        else l'.since
      health := l'.health.set name .degraded }
  else if current = some .unreachable ∨ current = some .degraded then
    let beats := (l'.recoveries.get? name).getD 0 + 1
    if cfg.recoveryBeats ≤ beats then
      { l' with
        recoveries := l'.recoveries.set name 0
        health := l'.health.set name .healthy
        since := l'.since.set name now }
    else { l' with recoveries := l'.recoveries.set name beats }
  else
    { l' with
      health := l'.health.set name .healthy
      since := l'.since.setDefault name now }

def note (name : Member) (ok : Bool) (latencyMs : ℚ) (now : ℤ) :
    PeerLiveness :=
  if ok then noteSuccess cfg l name latencyMs now
  else noteFailure cfg l name now

/-- `observations`: this member first, healthy, then every probed peer. -/
def observations (selfName : Member) (now : ℤ) :
    List MemberObservation × PeerLiveness :=
  (⟨selfName, .healthy, (l.since.get? selfName).getD now⟩
      :: l.health.items.map (fun e =>
        ⟨e.1, e.2, ((l.since.setDefault selfName now).get? e.1).getD now⟩),
    { l with since := l.since.setDefault selfName now })

end PeerLiveness
