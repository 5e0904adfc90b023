import Mathlib.Data.List.Basic

/-!
# Items gathered one at a time

Items arrive one at a time and are gathered until a separator comes, which has what was
gathered handled. An item may be refused, where what is gathered would not fit any more,
and the handler may fail. What was done is known from the items as a whole: they are
split at the separators, every piece fits, and all pieces but the last are handled
(`gather_all`).
-/

namespace Gather

variable {α σ : Type} [BEq α] {sep a : α} {fits : List α → Bool}
  {handle : σ → List α → Option σ}

/-- **One item**, where `b` is what was gathered and the state. -/
def gather (sep : α) (fits : List α → Bool) (handle : σ → List α → Option σ)
    (b : List α × σ) (a : α) : Option (List α × σ) :=
  if a == sep then (handle b.2 b.1).map ([], ·)
  else if fits (b.1 ++ [a]) then some (b.1 ++ [a], b.2) else none

theorem fits_of_gather {b b' : List α × σ} (hnil : fits [])
    (h : gather sep fits handle b a = some b') : fits b'.1 := by
  unfold gather at h
  split at h
  · obtain ⟨s, -, rfl⟩ := Option.map_eq_some_iff.mp h
    exact hnil
  · split at h
    · cases h
      assumption
    · cases h

variable [LawfulBEq α]

theorem gather_sep (b : List α × σ) :
    gather sep fits handle b sep = (handle b.2 b.1).map ([], ·) := by
  rw [gather, if_pos BEq.rfl]

theorem gather_of_ne (h : a ≠ sep) (b : List α × σ) : gather sep fits handle b a =
    if fits (b.1 ++ [a]) then some (b.1 ++ [a], b.2) else none := by
  rw [gather, if_neg (h ∘ eq_of_beq)]

/-- What was gathered begins the first piece. -/
theorem splitOn_append : ∀ {buf : List α}, sep ∉ buf → ∀ items : List α,
    ∃ rest pieces, (buf ++ items).splitOn sep = (buf ++ rest) :: pieces
  | buf, h, [] => ⟨[], [], by rw [List.append_nil, List.splitOn_eq_singleton h]⟩
  | buf, h, a :: items => by
    by_cases ha : a = sep
    · refine ⟨[], items.splitOn sep, ?_⟩
      rw [ha, List.append_nil, List.splitOn_append_cons_self_of_not_mem h]
    · have hnot : sep ∉ buf ++ [a] := by simpa [h] using Ne.symm ha
      obtain ⟨rest, pieces, heq⟩ := splitOn_append hnot items
      exact ⟨a :: rest, pieces, by simpa using heq⟩

theorem gather_eq (hfits : ∀ x y, fits (x ++ y) → fits x) (items : List α) :
    ∀ {buf : List α} {s : σ}, sep ∉ buf → fits buf →
    (items.foldlM (gather sep fits handle) (buf, s)).map Prod.snd =
      if ((buf ++ items).splitOn sep).all fits then
        ((buf ++ items).splitOn sep).dropLast.foldlM handle s
      else none := by
  induction items with
  | nil =>
    intro buf s h hbuf
    rw [List.append_nil, List.splitOn_eq_singleton h]
    simp [hbuf]
  | cons a items ih =>
    intro buf s h hbuf
    rw [List.foldlM_cons]
    by_cases ha : a = sep
    · have hne : items.splitOn sep ≠ [] := List.splitOn_ne_nil sep items
      rw [ha, List.splitOn_append_cons_self_of_not_mem h, List.all_cons, hbuf,
        Bool.true_and, List.dropLast_cons_of_ne_nil hne, List.foldlM_cons, gather_sep]
      cases hs : handle s buf with
      | none => simp
      | some s' => simpa using ih List.not_mem_nil (hfits [] buf hbuf)
    · have hnot : sep ∉ buf ++ [a] := by simpa [h] using Ne.symm ha
      rw [List.append_cons, gather_of_ne ha]
      by_cases hmore : fits (buf ++ [a])
      · simpa [hmore] using ih hnot hmore
      · obtain ⟨rest, pieces, heq⟩ := splitOn_append hnot items
        have hlong : fits (buf ++ [a] ++ rest) = false :=
          Bool.eq_false_iff.mpr (hmore ∘ hfits _ rest)
        rw [heq, List.all_cons, hlong]
        simp [hmore]

/-- **Gathering is splitting**, where what fits goes on fitting when its end is cut
off. -/
theorem gather_all (hfits : ∀ x y, fits (x ++ y) → fits x) (hnil : fits [])
    (items : List α) (s : σ) :
    (items.foldlM (gather sep fits handle) ([], s)).map Prod.snd =
      if (items.splitOn sep).all fits then (items.splitOn sep).dropLast.foldlM handle s
      else none :=
  gather_eq hfits items List.not_mem_nil hnil

end Gather
