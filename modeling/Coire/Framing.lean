import Coire.Occurrence

/-!
# Pieces of a buffer

A buffer is cut at each occurrence of a separator, and each piece before one is
handled at once, in a state that the handler changes. The handler may fail, and
then the rest of the buffer is left alone (`drain`).

What matters is that the buffer grows. If it is drained before more is appended
to it, then nothing changes: the state, the failure and the rest are those of
draining all at once (`drain_append`). The pieces that are handled, each in its
state, are `Handled`; the part of the buffer before such a piece is drained
without a rest (`Handled.split`).

Where the handler is not asked for more than one buffer's pieces, these can be
listed first (`pieces`) and handled then (`drain_of_handleAll`).
-/

namespace Framing

open Occurrence

variable {α σ ε : Type} [DecidableEq α] {sep : List α}
  {handle : σ → List α → σ × Option ε} {s t : σ} {buf x y f : List α} {i n : ℕ}

/-- **The buffer is cut at each separator**, and the pieces are handled. Each turn
shortens the buffer, so its length bounds the turns. -/
def drainFor (sep : List α) (handle : σ → List α → σ × Option ε) :
    ℕ → σ → List α → σ × Option ε × List α
  | 0, s, buf => (s, none, buf)
  | n + 1, s, buf =>
    match find sep buf with
    | none => (s, none, buf)
    | some i =>
      match handle s (buf.take i) with
      | (s', some e) => (s', some e, buf.drop (i + sep.length))
      | (s', none) => drainFor sep handle n s' (buf.drop (i + sep.length))

@[inherit_doc drainFor]
def drain (sep : List α) (handle : σ → List α → σ × Option ε) (s : σ)
    (buf : List α) : σ × Option ε × List α :=
  drainFor sep handle buf.length s buf

theorem drainFor_of_find_eq_none (h : find sep buf = none) :
    drainFor sep handle n s buf = (s, none, buf) := by
  cases n with
  | zero => rfl
  | succ n =>
    rw [drainFor]
    simp only [h]

theorem drainFor_eq_drain (hsep : sep ≠ []) (hn : buf.length ≤ n) :
    drainFor sep handle n s buf = drain sep handle s buf := by
  suffices hall : ∀ m, buf.length ≤ m →
      drainFor sep handle n s buf = drainFor sep handle m s buf from hall _ le_rfl
  induction n generalizing s buf with
  | zero =>
    intro m _
    rw [List.length_eq_zero_iff.mp (Nat.le_zero.mp hn),
      drainFor_of_find_eq_none rfl, drainFor_of_find_eq_none rfl]
  | succ n ih =>
    intro m hm
    cases hfind : find sep buf with
    | none => rw [drainFor_of_find_eq_none hfind, drainFor_of_find_eq_none hfind]
    | some i =>
      have hle := add_length_le_of_find hsep hfind
      have hpos := List.length_pos_iff.mpr hsep
      obtain ⟨k, rfl⟩ : ∃ k, m = k + 1 := ⟨m - 1, by omega⟩
      rw [drainFor, drainFor]
      simp only [hfind]
      split
      · rfl
      refine ih ?_ k ?_
      · rw [List.length_drop]
        omega
      · rw [List.length_drop]
        omega

theorem drain_of_find_eq_none (h : find sep buf = none) :
    drain sep handle s buf = (s, none, buf) :=
  drainFor_of_find_eq_none h

theorem drain_of_find_eq_some (hsep : sep ≠ []) (h : find sep buf = some i) :
    drain sep handle s buf =
      match handle s (buf.take i) with
      | (s', some e) => (s', some e, buf.drop (i + sep.length))
      | (s', none) => drain sep handle s' (buf.drop (i + sep.length)) := by
  have hle := add_length_le_of_find hsep h
  have hpos := List.length_pos_iff.mpr hsep
  obtain ⟨k, hk⟩ : ∃ k, buf.length = k + 1 := ⟨buf.length - 1, by omega⟩
  conv_lhs => rw [drain, hk, drainFor]
  simp only [h]
  split
  · rfl
  · refine drainFor_eq_drain hsep ?_
    rw [List.length_drop]
    omega

theorem drain_of_fails {e : ε} (hsep : sep ≠ []) (h : find sep buf = some i)
    (hhandle : handle s (buf.take i) = (t, some e)) :
    drain sep handle s buf = (t, some e, buf.drop (i + sep.length)) := by
  rw [drain_of_find_eq_some hsep h, hhandle]

theorem drain_of_handled (hsep : sep ≠ []) (h : find sep buf = some i)
    (hhandle : handle s (buf.take i) = (t, none)) :
    drain sep handle s buf = drain sep handle t (buf.drop (i + sep.length)) := by
  rw [drain_of_find_eq_some hsep h, hhandle]

theorem buffer_induction {motive : List α → Prop} (hsep : sep ≠ [])
    (hnone : ∀ buf, find sep buf = none → motive buf)
    (hsome : ∀ buf i, find sep buf = some i → motive (buf.drop (i + sep.length)) →
      motive buf) (buf : List α) : motive buf := by
  obtain ⟨n, hn⟩ : ∃ n, buf.length ≤ n := ⟨_, le_rfl⟩
  induction n generalizing buf with
  | zero =>
    refine hnone buf ?_
    rw [List.length_eq_zero_iff.mp (Nat.le_zero.mp hn)]
    rfl
  | succ n ih =>
    cases hfind : find sep buf with
    | none => exact hnone buf hfind
    | some i =>
      have hle := add_length_le_of_find hsep hfind
      have hpos := List.length_pos_iff.mpr hsep
      refine hsome buf i hfind (ih _ ?_)
      rw [List.length_drop]
      omega

variable (handle) in
theorem drain_induction {motive : σ → List α → Prop} (hsep : sep ≠ [])
    (hnone : ∀ s buf, find sep buf = none → motive s buf)
    (hfails : ∀ s buf i t e, find sep buf = some i →
      handle s (buf.take i) = (t, some e) → motive s buf)
    (hhandled : ∀ s buf i t, find sep buf = some i →
      handle s (buf.take i) = (t, none) → motive t (buf.drop (i + sep.length)) →
      motive s buf) (s : σ) (buf : List α) : motive s buf := by
  induction buf using buffer_induction hsep generalizing s with
  | hnone buf hfind => exact hnone s buf hfind
  | hsome buf i hfind ih =>
    rcases hhandle : handle s (buf.take i) with ⟨t, _ | e⟩
    · exact hhandled s buf i t hfind hhandle (ih t)
    · exact hfails s buf i t e hfind hhandle

theorem find_of_drain (hsep : sep ≠ [])
    (h : drain sep handle s buf = (t, none, x)) : find sep x = none := by
  induction s, buf using drain_induction handle hsep with
  | hnone s buf hfind =>
    rw [drain_of_find_eq_none hfind] at h
    cases h
    exact hfind
  | hfails s buf i u e hfind hhandle =>
    rw [drain_of_fails hsep hfind hhandle] at h
    cases h
  | hhandled s buf i u hfind hhandle ih =>
    rw [drain_of_handled hsep hfind hhandle] at h
    exact ih h

omit [DecidableEq α] in
theorem take_append_of_add_le (hle : i + n ≤ buf.length) (y : List α) :
    (buf ++ y).take i = buf.take i ∧ (buf ++ y).drop (i + n) = buf.drop (i + n) ++ y :=
  ⟨List.take_append_of_le_length (by omega), List.drop_append_of_le_length hle⟩

/-- **Draining early changes nothing**: a failure stays the failure, and otherwise the
rest is drained with what is appended. -/
theorem drain_append_eq (hsep : sep ≠ []) (s : σ) (x y : List α) :
    drain sep handle s (x ++ y) = match drain sep handle s x with
      | (t, none, buf) => drain sep handle t (buf ++ y)
      | (t, some e, buf) => (t, some e, buf ++ y) := by
  induction s, x using drain_induction handle hsep with
  | hnone s x hfind => rw [drain_of_find_eq_none hfind]
  | hfails s x i u e hfind hhandle =>
    have hsplit := take_append_of_add_le (add_length_le_of_find hsep hfind) y
    rw [drain_of_fails hsep hfind hhandle, drain_of_fails hsep (find_append hsep hfind y)
      (by rw [hsplit.1]; exact hhandle), hsplit.2]
  | hhandled s x i u hfind hhandle ih =>
    have hsplit := take_append_of_add_le (add_length_le_of_find hsep hfind) y
    rw [drain_of_handled hsep hfind hhandle, drain_of_handled hsep
      (find_append hsep hfind y) (by rw [hsplit.1]; exact hhandle), hsplit.2, ih]

theorem drain_append_of_fails {e : ε} (hsep : sep ≠ [])
    (h : drain sep handle s x = (t, some e, buf)) (y : List α) :
    drain sep handle s (x ++ y) = (t, some e, buf ++ y) := by
  rw [drain_append_eq hsep, h]

theorem drain_append (hsep : sep ≠ [])
    (h : drain sep handle s x = (t, none, buf)) (y : List α) :
    drain sep handle s (x ++ y) = drain sep handle t (buf ++ y) := by
  rw [drain_append_eq hsep, h]

/-! ## The pieces that are handled -/

/-- **The pieces that are handled**, each in its state. -/
inductive Handled (sep : List α) (handle : σ → List α → σ × Option ε) :
    σ → List α → σ → List α → Prop
  | here {s : σ} {buf : List α} {i : ℕ} (h : find sep buf = some i) :
    Handled sep handle s buf s (buf.take i)
  | later {s s' t : σ} {buf f : List α} {i : ℕ} (h : find sep buf = some i)
    (hhandle : handle s (buf.take i) = (s', none))
    (hrest : Handled sep handle s' (buf.drop (i + sep.length)) t f) :
    Handled sep handle s buf t f

theorem Handled.append {u : σ} (hsep : sep ≠ [])
    (h : drain sep handle s x = (u, none, buf))
    (hf : Handled sep handle u (buf ++ y) t f) :
    Handled sep handle s (x ++ y) t f := by
  induction s, x using drain_induction handle hsep with
  | hnone s x hfind =>
    rw [drain_of_find_eq_none hfind] at h
    cases h
    exact hf
  | hfails s x i u' e hfind hhandle =>
    rw [drain_of_fails hsep hfind hhandle] at h
    cases h
  | hhandled s x i u' hfind hhandle ih =>
    have hsplit := take_append_of_add_le (add_length_le_of_find hsep hfind) y
    rw [drain_of_handled hsep hfind hhandle] at h
    refine .later (find_append hsep hfind y) (by rw [hsplit.1]; exact hhandle) ?_
    rw [hsplit.2]
    exact ih h

theorem Handled.split (hsep : sep ≠ []) (hf : Handled sep handle s buf t f) :
    ∃ x y, buf = x ++ (f ++ (sep ++ y)) ∧ drain sep handle s x = (t, none, [])
      ∧ find sep (f ++ (sep ++ y)) = some f.length := by
  induction hf with
  | @here s buf i h =>
    have hle := add_length_le_of_find hsep h
    have hat := ((find_eq_some_iff hsep).mp h).1
    obtain ⟨y, hy⟩ := hat
    have hbuf : buf = buf.take i ++ (sep ++ y) := by
      rw [hy, List.take_append_drop]
    have hlen : (buf.take i).length = i := by
      rw [List.length_take]
      omega
    refine ⟨[], y, hbuf, rfl, ?_⟩
    rw [← hbuf, h, hlen]
  | @later s s' t buf f i h hhandle hrest ih =>
    obtain ⟨x, y, hbuf, hdrain, hfind⟩ := ih
    have hle := add_length_le_of_find hsep h
    have hsplit : buf = buf.take (i + sep.length) ++ (x ++ (f ++ (sep ++ y))) := by
      rw [← hbuf, List.take_append_drop]
    have hfirst : find sep (buf.take (i + sep.length)) = some i := by
      grind [find_of_find_append]
    have htake : (buf.take (i + sep.length)).take i = buf.take i := by
      rw [List.take_take]
      congr 1
      omega
    have hdrop : (buf.take (i + sep.length)).drop (i + sep.length) = [] := by
      refine List.drop_eq_nil_of_le ?_
      rw [List.length_take]
      omega
    have hfirstDrain : drain sep handle s (buf.take (i + sep.length))
        = (s', none, []) := by
      rw [drain_of_handled hsep hfirst (by rw [htake]; exact hhandle), hdrop]
      rfl
    refine ⟨buf.take (i + sep.length) ++ x, y, ?_, ?_, hfind⟩
    · rw [List.append_assoc]
      exact hsplit
    · rw [drain_append hsep hfirstDrain, List.nil_append, hdrain]

/-! ## The list of pieces -/

def collect (ps : List (List α)) (f : List α) : List (List α) × Option Empty :=
  (ps ++ [f], none)

def pieces (sep buf : List α) : List (List α) := (drain sep collect [] buf).1

/-- What is behind the last separator. -/
def rest (sep buf : List α) : List α := (drain sep collect [] buf).2.2

theorem drain_collect (hsep : sep ≠ []) (ps : List (List α)) (buf : List α) :
    drain sep collect ps buf = (ps ++ pieces sep buf, none, rest sep buf) := by
  induction buf using buffer_induction hsep generalizing ps with
  | hnone buf hfind =>
    unfold pieces rest
    rw [drain_of_find_eq_none hfind, drain_of_find_eq_none hfind, List.append_nil]
  | hsome buf i hfind ih =>
    have hcollect : ∀ qs, drain sep collect qs buf
        = (qs ++ [buf.take i] ++ pieces sep (buf.drop (i + sep.length)), none,
          rest sep (buf.drop (i + sep.length))) :=
      fun qs => (drain_of_handled hsep hfind rfl).trans (ih _)
    unfold pieces rest
    rw [hcollect, hcollect, List.append_assoc]
    rfl

theorem pieces_of_find_eq_none (h : find sep buf = none) :
    pieces sep buf = [] ∧ rest sep buf = buf := by
  unfold pieces rest
  rw [drain_of_find_eq_none h]
  exact ⟨rfl, rfl⟩

theorem pieces_of_find_eq_some (hsep : sep ≠ []) (h : find sep buf = some i) :
    pieces sep buf = buf.take i :: pieces sep (buf.drop (i + sep.length))
      ∧ rest sep buf = rest sep (buf.drop (i + sep.length)) := by
  have hdrain := (drain_of_handled (s := []) hsep h rfl).trans
    (drain_collect hsep [buf.take i] _)
  exact ⟨congrArg Prod.fst hdrain, congrArg (fun r => r.2.2) hdrain⟩

theorem find_rest (hsep : sep ≠ []) (buf : List α) : find sep (rest sep buf) = none :=
  find_of_drain hsep (drain_collect hsep [] buf)

theorem pieces_append (hsep : sep ≠ []) (x y : List α) :
    pieces sep (x ++ y) = pieces sep x ++ pieces sep (rest sep x ++ y)
      ∧ rest sep (x ++ y) = rest sep (rest sep x ++ y) := by
  have hdrain := (drain_collect hsep [] (x ++ y)).symm.trans
    ((drain_append hsep (drain_collect hsep [] x) y).trans (drain_collect hsep _ _))
  exact ⟨congrArg Prod.fst hdrain, congrArg (fun r => r.2.2) hdrain⟩

/-- **Pieces are handled one after the other**, until one fails. -/
def handleAll (handle : σ → List α → σ × Option ε) :
    σ → List (List α) → σ × Option ε
  | s, [] => (s, none)
  | s, f :: fs =>
    match handle s f with
    | (s', some e) => (s', some e)
    | (s', none) => handleAll handle s' fs

omit [DecidableEq α] in
theorem handleAll_singleton (f : List α) : handleAll handle s [f] = handle s f := by
  rw [handleAll]
  rcases handle s f with ⟨t, _ | e⟩ <;> rfl

omit [DecidableEq α] in
theorem handleAll_append (fs gs : List (List α)) : handleAll handle s (fs ++ gs) =
      match handleAll handle s fs with
      | (t, some e) => (t, some e)
      | (t, none) => handleAll handle t gs := by
  induction fs generalizing s with
  | nil => rfl
  | cons f fs ih => grind [handleAll]

theorem drain_of_handleAll (hsep : sep ≠ [])
    (h : handleAll handle s (pieces sep buf) = (t, none)) :
    drain sep handle s buf = (t, none, rest sep buf) := by
  induction s, buf using drain_induction handle hsep with
  | hnone s buf hfind =>
    rw [(pieces_of_find_eq_none hfind).1] at h
    cases h
    rw [drain_of_find_eq_none hfind, (pieces_of_find_eq_none hfind).2]
  | hfails s buf i u e hfind hhandle =>
    rw [(pieces_of_find_eq_some hsep hfind).1, handleAll, hhandle] at h
    cases h
  | hhandled s buf i u hfind hhandle ih =>
    grind [pieces_of_find_eq_some, handleAll, drain_of_handled]

theorem drain_of_handleAll_fails {e : ε} (hsep : sep ≠ [])
    (h : handleAll handle s (pieces sep buf) = (t, some e)) :
    ∃ r, drain sep handle s buf = (t, some e, r) := by
  induction s, buf using drain_induction handle hsep with
  | hnone s buf hfind =>
    rw [(pieces_of_find_eq_none hfind).1] at h
    cases h
  | hfails s buf i u e' hfind hhandle =>
    rw [(pieces_of_find_eq_some hsep hfind).1, handleAll, hhandle] at h
    cases h
    exact ⟨_, drain_of_fails hsep hfind hhandle⟩
  | hhandled s buf i u hfind hhandle ih =>
    grind [pieces_of_find_eq_some, handleAll, drain_of_handled]

end Framing
