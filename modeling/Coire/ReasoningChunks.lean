import Coire.ReasoningParser

/-!
# Thinking text and chunks

Whether the chunks in which a text arrives change what `ReasoningParser` makes of it.
The text is followed by a scanner, which takes one letter at a time and compares letter
with letter (`CaseTable.fold`); by definition it knows nothing of chunks.

The parser scans (`feed_eq_letters`) as long as no `İ` is pending before the marker that
it finds (`Clean`), and always if it is fed letter by letter. Otherwise it cuts the text
too late, and passes on a part of the marker. The result is `chunking_iff`.
-/

namespace Reasoning

open Occurrence

/-! ## The letters of the items -/

def view (items : List Item) : List (Option Channel × Char) :=
  items.flatMap fun item =>
    match item with
    | .piece channel text => text.map (some channel, ·)
    | .marker text => text.map (none, ·)

theorem view_append (xs ys : List Item) : view (xs ++ ys) = view xs ++ view ys :=
  List.flatMap_append

theorem view_marker_cons (text : List Char) (xs : List Item) :
    view (.marker text :: xs) = text.map (none, ·) ++ view xs := rfl

theorem view_marker (text : List Char) : view [.marker text] = text.map (none, ·) :=
  List.append_nil _

theorem view_pieceOf (inside : Bool) (text : List Char) :
    view (pieceOf inside text) = text.map (some (channelOf inside), ·) := by
  unfold pieceOf
  split
  · rename_i h
    rw [h]
    rfl
  · exact List.append_nil _

def lettersOn (channel : Channel) (letters : List (Option Channel × Char)) :
    List Char :=
  (letters.filter (·.1 == some channel)).map Prod.snd

theorem lettersOn_append (channel : Channel) (xs ys : List (Option Channel × Char)) :
    lettersOn channel (xs ++ ys) = lettersOn channel xs ++ lettersOn channel ys := by
  unfold lettersOn
  rw [List.filter_append, List.map_append]

theorem lettersOn_map (channel : Channel) (tag : Option Channel) (text : List Char) :
    lettersOn channel (text.map (tag, ·)) = if tag = some channel then text else [] := by
  unfold lettersOn
  rw [List.filter_map, List.map_map]
  by_cases h : tag = some channel
  · subst h
    simp [Function.comp_def]
  · simp [Function.comp_def, h]

theorem textOn_eq_view (channel : Channel) (items : List Item) :
    textOn channel items = lettersOn channel (view items) := by
  induction items with
  | nil => rfl
  | cons item items ih =>
    rw [← List.singleton_append, view_append, lettersOn_append, ← ih]
    unfold textOn
    rw [List.flatMap_append]
    congr 1
    cases item with
    | piece c text =>
      simp only [view, List.flatMap_cons, List.flatMap_nil, List.append_nil,
        lettersOn_map, Option.some.injEq]
    | marker text =>
      grind [view, lettersOn_map]

theorem reinserted_eq_view (items : List Item) :
    reinserted items = (view items).map Prod.snd := by
  induction items with
  | nil => rfl
  | cons item items ih =>
    rw [← List.singleton_append, view_append, List.map_append, ← ih]
    unfold reinserted
    rw [List.flatMap_append]
    congr 1
    cases item <;>
      simp only [view, List.flatMap_cons, List.flatMap_nil, List.append_nil,
        List.map_map, Function.comp_def, List.map_id']

/-! ## The scanner -/

/-- The part of a text that is certainly before the next marker. -/
def settled (U : CaseTable) (inside : Bool) (p : List Char) : ℕ :=
  p.length - overlap (markerOf inside) (p.map U.fold)

/-- **The state of the scanner**: the letters pending are a beginning of a
marker. -/
structure Scanner where
  inside : Bool
  pending : List Char

namespace Scanner

def letter (U : CaseTable) (s : Scanner) (c : Char) : List Item × Scanner :=
  let p := s.pending ++ [c]
  if p.map U.fold = markerOf s.inside then ([.marker p], ⟨!s.inside, []⟩)
  else
    (pieceOf s.inside (p.take (settled U s.inside p)),
      ⟨s.inside, p.drop (settled U s.inside p)⟩)

def letters (U : CaseTable) : Scanner → List Char → List Item × Scanner
  | s, [] => ([], s)
  | s, c :: text =>
    ((s.letter U c).1 ++ (letters U (s.letter U c).2 text).1,
      (letters U (s.letter U c).2 text).2)

def after (U : CaseTable) (s : Scanner) (text : List Char) : Scanner :=
  (s.letters U text).2

def out (U : CaseTable) (s : Scanner) (text : List Char) :
    List (Option Channel × Char) :=
  view (s.letters U text).1

end Scanner

/-- **No `İ` stands before a marker that ends its part of the text.** -/
def Clean (U : CaseTable) : Scanner → List Char → Prop
  | _, [] => True
  | s, c :: text =>
    (c = 'İ' → find (markerOf (s.letter U c).2.inside) (text.map U.fold) = none)
      ∧ Clean U (s.letter U c).2 text

instance Clean.decidable (U : CaseTable) : ∀ s text, Decidable (Clean U s text)
  | _, [] => isTrue trivial
  | s, c :: text => @instDecidableAnd _ _ _ (Clean.decidable U (s.letter U c).2 text)

section Scan

variable {U : CaseTable} {s : Scanner} {inside : Bool} {p q x y : List Char} {n : ℕ}

namespace Scanner

theorem letters_append (s : Scanner) (x y : List Char) : s.letters U (x ++ y)
    = ((s.letters U x).1 ++ ((s.after U x).letters U y).1,
      ((s.after U x).letters U y).2) := by
  induction x generalizing s with
  | nil => rfl
  | cons c x ih =>
    rw [List.cons_append, letters, ih, ← List.append_assoc]
    rfl

theorem after_append (s : Scanner) (x y : List Char) :
    s.after U (x ++ y) = (s.after U x).after U y := by
  show (s.letters U (x ++ y)).2 = _
  rw [letters_append]
  rfl

theorem out_append (s : Scanner) (x y : List Char) :
    s.out U (x ++ y) = s.out U x ++ (s.after U x).out U y := by
  unfold out
  rw [letters_append, view_append]

end Scanner

theorem settled_le (inside : Bool) (p : List Char) :
    settled U inside p ≤ p.length := Nat.sub_le _ _

theorem settled_eq_map (inside : Bool) (p : List Char) : settled U inside p
    = (p.map U.fold).length - overlap (markerOf inside) (p.map U.fold) := by
  rw [List.length_map]
  rfl

theorem drop_settled (inside : Bool) (p : List Char) :
    (p.drop (settled U inside p)).map U.fold
      = (markerOf inside).take (overlap (markerOf inside) (p.map U.fold)) := by
  rw [List.map_drop, settled_eq_map]
  exact drop_overlap (markerOf_ne_nil inside)

theorem free_settled (h : find (markerOf inside) (p.map U.fold) = none)
    (y : List Char) :
    Free (markerOf inside) ((p.take (settled U inside p)).map U.fold)
      ((p.drop (settled U inside p) ++ y).map U.fold) := by
  rw [List.map_append, List.map_take, List.map_drop, settled_eq_map]
  exact free_of_find_eq_none (markerOf_ne_nil inside) h _

theorem settled_free (h : Free (markerOf inside) (x.map U.fold) (y.map U.fold)) :
    settled U inside (x ++ y) = x.length + settled U inside y := by
  have hle : overlap (markerOf inside) (y.map U.fold) ≤ y.length := by
    refine overlap_le_length.trans (le_of_eq ?_)
    rw [List.length_map]
  unfold settled
  rw [List.map_append, overlap_free (markerOf_ne_nil inside) h, List.length_append]
  omega

theorem settled_append_beginning (h : y.map U.fold <+: markerOf inside)
    (hlen : y.length + 1 = (markerOf inside).length) :
    settled U inside (x ++ y) = x.length := by
  have hdrop : ((x ++ y).map U.fold).drop x.length = y.map U.fold := by
    rw [← List.map_drop, List.drop_left]
  have hsub : ((x ++ y).map U.fold).length - x.length = y.length := by
    rw [List.length_map, List.length_append, Nat.add_sub_cancel_left]
  have hge := length_drop_le_overlap (by rw [hsub]; omega) (hdrop ▸ h)
  rw [hsub] at hge
  have hlt := overlap_lt (markerOf_ne_nil inside) ((x ++ y).map U.fold)
  unfold settled
  rw [List.length_append]
  omega

theorem marker_split (h : find (markerOf inside) (p.map U.fold) = some n) :
    ∃ m c, (p.drop n).take (markerOf inside).length = m ++ [c]
      ∧ (m ++ [c]).map U.fold = markerOf inside
      ∧ p.take (n + (markerOf inside).length) = p.take n ++ m ++ [c] := by
  have hne := markerOf_ne_nil inside
  have hat := List.prefix_iff_eq_take.mp ((find_eq_some_iff hne).mp h).1
  rw [← List.map_drop, ← List.map_take] at hat
  rcases List.eq_nil_or_concat' ((p.drop n).take (markerOf inside).length) with
    hnil | ⟨m, c, hm⟩
  · rw [hnil] at hat
    exact absurd hat hne
  · grind

namespace Scanner

theorem out_singleton (s : Scanner) (c : Char) :
    s.out U [c] = view (s.letter U c).1 := by
  show view ((s.letter U c).1 ++ []) = _
  rw [List.append_nil]

theorem letter_of_ne {c : Char} (h : (q ++ [c]).map U.fold ≠ markerOf inside) :
    letter U ⟨inside, q⟩ c
      = (pieceOf inside ((q ++ [c]).take (settled U inside (q ++ [c]))),
        ⟨inside, (q ++ [c]).drop (settled U inside (q ++ [c]))⟩) :=
  if_neg h

theorem letter_of_eq {c : Char} (h : (q ++ [c]).map U.fold = markerOf inside) :
    letter U ⟨inside, q⟩ c = ([.marker (q ++ [c])], ⟨!inside, []⟩) :=
  if_pos h

theorem letters_of_find_eq_none (h : find (markerOf inside) (p.map U.fold) = none) :
    out U ⟨inside, []⟩ p
        = (p.take (settled U inside p)).map (some (channelOf inside), ·)
      ∧ after U ⟨inside, []⟩ p = ⟨inside, p.drop (settled U inside p)⟩ := by
  induction p using List.reverseRecOn with
  | nil =>
    rw [List.take_nil, List.drop_nil]
    exact ⟨rfl, rfl⟩
  | append_singleton p c ih =>
    have hp : find (markerOf inside) (p.map U.fold) = none := by
      rw [List.map_append] at h
      exact find_eq_none_left (markerOf_ne_nil inside) h
    obtain ⟨hout, hafter⟩ := ih hp
    have hfree := free_settled hp [c]
    have hsplit : p ++ [c] = p.take (settled U inside p)
        ++ (p.drop (settled U inside p) ++ [c]) := by
      rw [← List.append_assoc, List.take_append_drop]
    -- the letter does not complete a marker
    have hnot : (p.drop (settled U inside p) ++ [c]).map U.fold ≠ markerOf inside := by
      intro heq
      refine (find_eq_none_iff (markerOf_ne_nil inside)).mp h (settled U inside p) ?_
      rw [← List.map_drop, List.drop_append_of_le_length (settled_le _ _), heq]
    rw [out_append, after_append, hout, hafter, out_singleton, letter_of_ne hnot,
      view_pieceOf, ← List.map_append]
    show _ ∧ (letter U _ c).2 = _
    rw [letter_of_ne hnot, hsplit, settled_free hfree,
      List.take_length_add_append, List.drop_length_add_append]
    exact ⟨rfl, rfl⟩

theorem letters_through_marker (h : find (markerOf inside) (p.map U.fold) = some n) :
    out U ⟨inside, []⟩ (p.take (n + (markerOf inside).length))
        = (p.take n).map (some (channelOf inside), ·)
          ++ ((p.drop n).take (markerOf inside).length).map (none, ·)
      ∧ after U ⟨inside, []⟩ (p.take (n + (markerOf inside).length))
        = ⟨!inside, []⟩ := by
  have hne := markerOf_ne_nil inside
  have hle := add_length_le_of_find hne h
  rw [List.length_map] at hle
  obtain ⟨m, c, hm, hfold, hsplit⟩ := marker_split h
  have hlen : m.length + 1 = (markerOf inside).length := by
    rw [← hfold, List.length_map, List.length_append, List.length_singleton]
  have htake : (p.take n).length = n := by
    rw [List.length_take]
    omega
  have hbeginning : m.map U.fold <+: markerOf inside := by
    rw [← hfold, List.map_append]
    exact List.prefix_append _ _
  have hsettled : settled U inside (p.take n ++ m) = (p.take n).length :=
    settled_append_beginning hbeginning hlen
  have hfirst : find (markerOf inside) ((p.take n ++ m).map U.fold) = none := by
    grind [List.take_append_drop, markerOf, List.append_assoc, find_eq_none_of_append,
      List.length_map, List.length_append]
  obtain ⟨hout, hafter⟩ := letters_of_find_eq_none hfirst
  rw [hsettled, List.take_left] at hout
  rw [hsettled, List.drop_left] at hafter
  rw [hsplit, hm, out_append, after_append _ (p.take n ++ m), hout, hafter,
    out_singleton, letter_of_eq hfold, view_marker]
  exact ⟨rfl, congrArg Prod.snd (letter_of_eq hfold)⟩

theorem letters_of_find_eq_some (h : find (markerOf inside) (p.map U.fold) = some n) :
    out U ⟨inside, []⟩ p = (p.take n).map (some (channelOf inside), ·)
          ++ (((p.drop n).take (markerOf inside).length).map (none, ·)
            ++ out U ⟨!inside, []⟩ (p.drop (n + (markerOf inside).length)))
      ∧ after U ⟨inside, []⟩ p
        = after U ⟨!inside, []⟩ (p.drop (n + (markerOf inside).length)) := by
  obtain ⟨hout, hafter⟩ := letters_through_marker h
  refine ⟨?_, ?_⟩
  · conv_lhs => rw [← List.take_append_drop (n + (markerOf inside).length) p,
      out_append, hout, hafter, List.append_assoc]
  · conv_lhs => rw [← List.take_append_drop (n + (markerOf inside).length) p,
      after_append, hafter]

/-! ## What the scanner keeps -/

def Stable (U : CaseTable) (s : Scanner) : Prop :=
  s.pending.map U.fold <+: markerOf s.inside
    ∧ s.pending.length < (markerOf s.inside).length

theorem stable_nil (inside : Bool) : Stable U ⟨inside, []⟩ :=
  ⟨List.nil_prefix, List.length_pos_iff.mpr (markerOf_ne_nil inside)⟩

theorem Stable.letter (s : Scanner) (c : Char) : Stable U (s.letter U c).2 := by
  unfold Scanner.letter
  dsimp only
  split
  · exact stable_nil _
  have hdrop := drop_settled (U := U) s.inside (s.pending ++ [c])
  refine ⟨?_, ?_⟩
  · grind
  have hlen := congrArg List.length hdrop
  rw [List.length_map, List.length_take] at hlen
  show (List.drop _ _).length < (markerOf s.inside).length
  have := overlap_lt (markerOf_ne_nil s.inside) ((s.pending ++ [c]).map U.fold)
  omega

theorem Stable.after (h : Stable U s) (text : List Char) :
    Stable U (s.after U text) := by
  induction text generalizing s with
  | nil => exact h
  | cons c text ih => exact ih (Stable.letter s c)

theorem Stable.not_mem (h : Stable U s) : 'İ' ∉ s.pending := by
  intro hmem
  refine (plain_markerOf s.inside).2.2 (h.1.subset ?_)
  exact List.mem_map.mpr ⟨'İ', hmem, rfl⟩

theorem Stable.from_start (h : Stable U s) : Scanner.out U ⟨s.inside, []⟩ s.pending = []
      ∧ Scanner.after U ⟨s.inside, []⟩ s.pending = s := by
  have hnone : find (markerOf s.inside) (s.pending.map U.fold) = none := by
    refine find_eq_none_of_length_lt (markerOf_ne_nil _) ?_
    rw [List.length_map]
    exact h.2
  have hover : (s.pending.map U.fold).length - 0
      ≤ overlap (markerOf s.inside) (s.pending.map U.fold) :=
    length_drop_le_overlap (by rw [List.length_map]; exact h.2) h.1
  rw [List.length_map] at hover
  have hsettled : settled U s.inside s.pending = 0 := by
    unfold settled
    omega
  obtain ⟨hout, hafter⟩ := letters_of_find_eq_none hnone
  rw [hsettled] at hout hafter
  exact ⟨hout, hafter⟩

theorem letter_reinserted (s : Scanner) (c : Char) :
    (view (s.letter U c).1).map Prod.snd ++ (s.letter U c).2.pending
      = s.pending ++ [c] := by
  unfold letter
  dsimp only
  split
  · show ((s.pending ++ [c]).map _ ++ []).map Prod.snd ++ [] = _
    rw [List.append_nil, List.append_nil, List.map_map]
    exact List.map_id _
  · rw [view_pieceOf, List.map_map]
    show (List.take _ _).map id ++ List.drop _ _ = _
    rw [List.map_id, List.take_append_drop]

theorem out_reinserted (s : Scanner) (text : List Char) :
    (s.out U text).map Prod.snd ++ (s.after U text).pending = s.pending ++ text := by
  induction text generalizing s with
  | nil => exact (List.append_nil _).symm
  | cons c text ih =>
    have hout : s.out U (c :: text)
        = view (s.letter U c).1 ++ (s.letter U c).2.out U text :=
      view_append _ _
    show _ ++ ((s.letter U c).2.after U text).pending = _
    rw [hout, List.map_append, List.append_assoc, ih, ← List.append_assoc,
      letter_reinserted, List.append_assoc]
    rfl

end Scanner

/-! ## Clean texts -/

theorem clean_singleton (s : Scanner) (c : Char) : Clean U s [c] :=
  ⟨fun _ => rfl, trivial⟩

theorem Clean.left (h : Clean U s (x ++ y)) : Clean U s x := by
  induction x generalizing s with
  | nil => trivial
  | cons c x ih =>
    rw [List.cons_append] at h
    refine ⟨fun hc => ?_, ih h.2⟩
    have hnone := h.1 hc
    rw [List.map_append] at hnone
    exact find_eq_none_left (markerOf_ne_nil _) hnone

theorem Clean.right (h : Clean U s (x ++ y)) : Clean U (s.after U x) y := by
  induction x generalizing s with
  | nil => exact h
  | cons c x ih => exact ih h.2

theorem clean_append_of_not_mem (hx : 'İ' ∉ x) (h : Clean U (s.after U x) y) :
    Clean U s (x ++ y) := by
  induction x generalizing s with
  | nil => exact h
  | cons c x ih =>
    refine ⟨fun hc => absurd (hc ▸ List.mem_cons_self) hx, ih ?_ h⟩
    exact fun hmem => hx (List.mem_cons_of_mem _ hmem)

theorem exists_marker_of_not_clean (h : ¬ Clean U s p) : ∃ x y n, p = x ++ 'İ' :: y
      ∧ find (markerOf (s.after U (x ++ ['İ'])).inside) (y.map U.fold) = some n := by
  induction p generalizing s with
  | nil => exact absurd trivial h
  | cons c p ih =>
    by_cases hrest : Clean U (s.letter U c).2 p
    · have hfirst : ¬ (c = 'İ'
          → find (markerOf (s.letter U c).2.inside) (p.map U.fold) = none) :=
        fun hfirst => h ⟨hfirst, hrest⟩
      obtain ⟨rfl, hsome⟩ := Classical.not_imp.mp hfirst
      obtain ⟨n, hn⟩ := Option.ne_none_iff_exists'.mp hsome
      exact ⟨[], p, n, rfl, hn⟩
    · obtain ⟨x, y, n, rfl, hn⟩ := ih hrest
      exact ⟨c :: x, y, n, rfl, hn⟩

theorem Clean.not_mem_take (h : Clean U ⟨inside, []⟩ p)
    (hn : find (markerOf inside) (p.map U.fold) = some n) : 'İ' ∉ p.take n := by
  intro hmem
  have hne := markerOf_ne_nil inside
  obtain ⟨x, z, hxz⟩ := List.append_of_mem hmem
  have hp : p = (x ++ ['İ']) ++ (z ++ p.drop n) := by
    conv_lhs => rw [← List.take_append_drop n p, hxz]
    simp only [List.append_assoc, List.cons_append, List.nil_append]
  have hlen : x.length + 1 ≤ n := by
    grind
  -- before the marker the scanner stays on its channel
  have hbefore : find (markerOf inside) ((x ++ ['İ']).map U.fold) = none := by
    rw [hp, List.map_append] at hn
    refine find_eq_none_of_append hne hn ?_
    have := List.length_pos_iff.mpr hne
    rw [List.length_map, List.length_append, List.length_singleton]
    omega
  have hstay := (Scanner.letters_of_find_eq_none hbefore).2
  rw [Scanner.after_append] at hstay
  rw [hp, List.append_assoc] at h
  have hnone := h.right.1 rfl
  have hinside : (Scanner.letter U (Scanner.after U ⟨inside, []⟩ x) 'İ').2.inside
      = inside := congrArg Scanner.inside hstay
  rw [hinside] at hnone
  refine (find_eq_none_iff hne).mp hnone z.length ?_
  show _ <+: ((z ++ p.drop n).map U.fold).drop z.length
  rw [← List.map_drop, List.drop_left, List.map_drop]
  exact ((find_eq_some_iff hne).mp hn).1

/-! ## The parser scans clean texts -/

/-- `<think>` or `</think>`, in any case. -/
def IsMarker (U : CaseTable) (text : List Char) : Prop :=
  U.lower text = openMarker ∨ U.lower text = closeMarker

theorem isMarker_of_fold (h : p.map U.fold = markerOf inside) : IsMarker U p := by
  have hlower : markerOf inside = U.lower p :=
    (eq_lowerFrom_iff (plain_markerOf inside) [] p).mpr h.symm
  cases inside with
  | false => exact .inl hlower.symm
  | true => exact .inr hlower.symm

theorem not_marker_mem_pieceOf (inside : Bool) (t text : List Char) :
    Item.marker text ∉ pieceOf inside t := by
  unfold pieceOf
  split
  · exact List.not_mem_nil
  · simp

theorem find_lower_of_not_mem (hn : find (markerOf inside) (p.map U.fold) = some n)
    (h : 'İ' ∉ p.take n) : find (markerOf inside) (U.lower p) = some n := by
  unfold CaseTable.lower
  rw [find_lowerFrom (markerLike_markerOf inside), hn, Option.map_some,
    List.count_eq_zero.mpr h]
  rfl

theorem find_lower_eq_none (hn : find (markerOf inside) (p.map U.fold) = none) :
    find (markerOf inside) (U.lower p) = none := by
  unfold CaseTable.lower
  rw [find_lowerFrom (markerLike_markerOf inside), hn, Option.map_none]

theorem held_eq (inside : Bool) (p : List Char) :
    overlapWithin (markerOf inside) (U.lower p)
        (min ((markerOf inside).length - 1) p.length)
      = overlap (markerOf inside) (p.map U.fold) := by
  rw [overlapWithin_lower (plain_markerOf inside)]
  unfold overlap
  rw [List.length_map]

def left (r : List Item × Bool × List Char) : Scanner := ⟨r.2.1, r.2.2⟩

theorem loop_nil (fuel : ℕ) (inside : Bool) :
    loop U fuel inside [] = ([], inside, []) := by
  cases fuel <;> rfl

theorem loop_of_find_eq_some (fuel : ℕ)
    (h : find (markerOf inside) (U.lower p) = some n) (hp : p ≠ []) :
    loop U (fuel + 1) inside p = (pieceOf inside (p.take n)
        ++ .marker ((p.drop n).take (markerOf inside).length)
          :: (loop U fuel (!inside) (p.drop (n + (markerOf inside).length))).1,
        (loop U fuel (!inside) (p.drop (n + (markerOf inside).length))).2) := by
  rw [loop, if_neg hp]
  simp only [h]

theorem loop_of_find_eq_none {fuel : ℕ}
    (h : find (markerOf inside) (U.lower p) = none) (hp : p ≠ []) :
    loop U (fuel + 1) inside p = (pieceOf inside (p.take (settled U inside p)), inside,
        p.drop (settled U inside p)) := by
  rw [loop, if_neg hp]
  simp only [h, held_eq]
  rfl

theorem loop_eq_letters {fuel : ℕ} (hfuel : p.length ≤ fuel)
    (h : Clean U ⟨inside, []⟩ p) :
    view (loop U fuel inside p).1 = Scanner.out U ⟨inside, []⟩ p
      ∧ left (loop U fuel inside p) = Scanner.after U ⟨inside, []⟩ p
      ∧ ∀ text, Item.marker text ∈ (loop U fuel inside p).1 → IsMarker U text := by
  induction fuel generalizing inside p with
  | zero =>
    rw [List.length_eq_zero_iff.mp (Nat.le_zero.mp hfuel)]
    exact ⟨rfl, rfl, fun _ hmem => absurd hmem List.not_mem_nil⟩
  | succ fuel ih =>
    by_cases hp : p = []
    · subst hp
      exact ⟨rfl, rfl, fun _ hmem => absurd hmem List.not_mem_nil⟩
    have hne := markerOf_ne_nil inside
    have hpos := List.length_pos_iff.mpr hne
    cases hfind : find (markerOf inside) (p.map U.fold) with
    | none =>
      obtain ⟨hout, hafter⟩ := Scanner.letters_of_find_eq_none hfind
      rw [loop_of_find_eq_none (find_lower_eq_none hfind) hp, hout, hafter]
      refine ⟨view_pieceOf _ _, rfl, fun text hmem => ?_⟩
      exact absurd hmem (not_marker_mem_pieceOf _ _ _)
    | some n =>
      obtain ⟨hout, hafter⟩ := Scanner.letters_of_find_eq_some hfind
      obtain ⟨m, c, hm, hfold, -⟩ := marker_split hfind
      have hrest : Clean U ⟨!inside, []⟩ (p.drop (n + (markerOf inside).length)) := by
        rw [← (Scanner.letters_through_marker hfind).2]
        rw [← List.take_append_drop (n + (markerOf inside).length) p] at h
        exact h.right
      have hshorter : (p.drop (n + (markerOf inside).length)).length ≤ fuel := by
        rw [List.length_drop]
        omega
      obtain ⟨ihview, ihleft, ihmarker⟩ := ih hshorter hrest
      rw [loop_of_find_eq_some fuel
        (find_lower_of_not_mem hfind (h.not_mem_take hfind)) hp, hout, hafter]
      refine ⟨?_, ihleft, fun text hmem => ?_⟩
      · rw [view_append, view_pieceOf, view_marker_cons, ihview]
      rcases List.mem_append.mp hmem with hpiece | hmarker
      · exact absurd hpiece (not_marker_mem_pieceOf _ _ _)
      rcases List.mem_cons.mp hmarker with heq | hin
      · cases heq
        rw [hm]
        exact isMarker_of_fold hfold
      · exact ihmarker text hin

/-! ## Chunks -/

def Scanner.parser (s : Scanner) : ReasoningParser := ⟨true, s.inside, s.pending⟩

theorem feed_eq_letters (hs : s.Stable U) (h : Clean U s x) :
    view (s.parser.feed U x).1 = s.out U x
      ∧ (s.parser.feed U x).2 = (s.after U x).parser
      ∧ ∀ text, Item.marker text ∈ (s.parser.feed U x).1 → IsMarker U text := by
  by_cases hx : x = []
  · subst hx
    exact ⟨rfl, rfl, fun _ hmem => absurd hmem List.not_mem_nil⟩
  have hfeed : s.parser.feed U x
      = ((loop U (s.pending ++ x).length s.inside (s.pending ++ x)).1,
        (left (loop U (s.pending ++ x).length s.inside (s.pending ++ x))).parser) := by
    unfold ReasoningParser.feed
    rw [if_neg hx, if_neg (by simp [Scanner.parser])]
    rfl
  obtain ⟨hstart, hafter⟩ := hs.from_start
  have hclean : Clean U ⟨s.inside, []⟩ (s.pending ++ x) :=
    clean_append_of_not_mem hs.not_mem (by rw [hafter]; exact h)
  obtain ⟨hview, hleft, hmarker⟩ := loop_eq_letters le_rfl hclean
  rw [hfeed]
  refine ⟨?_, ?_, hmarker⟩
  · rw [hview, Scanner.out_append, hstart, hafter]
    rfl
  · show (left _).parser = _
    rw [hleft, Scanner.after_append, hafter]

def CleanChunks (U : CaseTable) : Scanner → List (List Char) → Prop
  | _, [] => True
  | s, chunk :: chunks => Clean U s chunk ∧ CleanChunks U (s.after U chunk) chunks

theorem Clean.chunks {chunks : List (List Char)} (h : Clean U s chunks.flatten) :
    CleanChunks U s chunks := by
  induction chunks generalizing s with
  | nil => trivial
  | cons chunk chunks ih =>
    rw [List.flatten_cons] at h
    exact ⟨h.left, ih h.right⟩

def singles (text : List Char) : List (List Char) := text.map fun c => [c]

theorem flatten_singles (text : List Char) : (singles text).flatten = text := by
  induction text with
  | nil => rfl
  | cons c text ih => exact congrArg (c :: ·) ih

theorem cleanChunks_singles (s : Scanner) (text : List Char) :
    CleanChunks U s (singles text) := by
  induction text generalizing s with
  | nil => trivial
  | cons c text ih => exact ⟨clean_singleton s c, ih _⟩

theorem feedAll_eq_letters {chunks : List (List Char)} (hs : s.Stable U)
    (h : CleanChunks U s chunks) :
    view (s.parser.feedAll U chunks).1 = s.out U chunks.flatten
      ∧ (s.parser.feedAll U chunks).2 = (s.after U chunks.flatten).parser
      ∧ ∀ text, Item.marker text ∈ (s.parser.feedAll U chunks).1 → IsMarker U text := by
  induction chunks generalizing s with
  | nil => exact ⟨rfl, rfl, fun _ hmem => absurd hmem List.not_mem_nil⟩
  | cons chunk chunks ih =>
    obtain ⟨hview, hnext, hmarker⟩ := feed_eq_letters hs h.1
    obtain ⟨ihview, ihnext, ihmarker⟩ := ih (hs.after chunk) h.2
    rw [ReasoningParser.feedAll]
    dsimp only
    rw [hnext, List.flatten_cons, Scanner.out_append, Scanner.after_append]
    refine ⟨by rw [view_append, hview, ihview], ihnext, fun text hmem => ?_⟩
    rcases List.mem_append.mp hmem with hin | hin
    · exact hmarker text hin
    · exact ihmarker text hin

theorem feedAll_append (parser : ReasoningParser) (xs ys : List (List Char)) :
    parser.feedAll U (xs ++ ys)
      = ((parser.feedAll U xs).1 ++ ((parser.feedAll U xs).2.feedAll U ys).1,
        ((parser.feedAll U xs).2.feedAll U ys).2) := by
  induction xs generalizing parser with
  | nil => rfl
  | cons x xs ih =>
    rw [List.cons_append, ReasoningParser.feedAll, ih]
    dsimp only
    rw [← List.append_assoc]
    rfl

/-- At the end only the beginning of a closing marker is passed on. -/
def Scanner.rest (s : Scanner) : List (Option Channel × Char) :=
  if s.inside then s.pending.map (some .reasoning, ·) else []

theorem Scanner.view_finish (s : Scanner) : view s.parser.finish = s.rest := by
  show view (if s.pending = [] then [] else
    if s.inside = true then [.piece .reasoning s.pending] else []) = _
  unfold rest
  by_cases hp : s.pending = []
  · rw [if_pos hp, hp, List.map_nil, ite_self]
    rfl
  rw [if_neg hp]
  by_cases hin : s.inside = true
  · rw [if_pos hin, if_pos hin]
    exact List.append_nil _
  · rw [if_neg hin, if_neg hin]
    rfl

def Scanner.start : Scanner := ⟨false, []⟩

def scanned (U : CaseTable) (text : List Char) : List (Option Channel × Char) :=
  Scanner.start.out U text ++ (Scanner.start.after U text).rest

variable {mode : Mode}

theorem new_of_ne_none (h : mode ≠ .none) :
    ReasoningParser.new mode = Scanner.start.parser := by
  cases mode with
  | none => exact absurd rfl h
  | thinking => rfl
  | hybrid => rfl

theorem view_parse {chunks : List (List Char)} (hmode : mode ≠ .none)
    (h : CleanChunks U Scanner.start chunks) :
    view (parse U mode chunks) = scanned U chunks.flatten := by
  obtain ⟨hview, hnext, -⟩ := feedAll_eq_letters (Scanner.stable_nil false) h
  show view (_ ++ _) = _
  rw [view_append, new_of_ne_none hmode]
  unfold scanned
  show view (Scanner.parser ⟨false, []⟩ |>.feedAll U chunks).1 ++ _ = _
  rw [hview]
  show _ ++ view ((Scanner.parser ⟨false, []⟩).feedAll U chunks).2.finish = _
  rw [hnext, Scanner.view_finish]
  rfl

/-! ## A marker after an `İ` -/

theorem dotted_ne_marker (inside : Bool) (q : List Char) :
    (q ++ ['İ']).map U.fold ≠ markerOf inside := by
  intro heq
  refine (plain_markerOf inside).2.2 (heq ▸ ?_)
  rw [List.map_append]
  exact List.mem_append_right _ List.mem_cons_self

theorem settled_dotted (inside : Bool) (q : List Char) :
    settled U inside (q ++ ['İ']) = (q ++ ['İ']).length := by
  have hsuffix := take_overlap_suffix (markerOf inside) ((q ++ ['İ']).map U.fold)
  have hlt := overlap_lt (markerOf_ne_nil inside) ((q ++ ['İ']).map U.fold)
  unfold settled
  rw [List.map_append] at hsuffix hlt ⊢
  rcases List.suffix_concat_iff.mp hsuffix with hnil | ⟨t, ht, -⟩
  · grind
  have hmem : dotAbove ∈ t ++ [U.fold 'İ'] :=
    List.mem_append_right _ List.mem_cons_self
  rw [← ht] at hmem
  exact absurd (List.mem_of_mem_take hmem) (plain_markerOf inside).2.2

theorem letter_dotted (s : Scanner) : s.letter U 'İ'
    = (pieceOf s.inside (s.pending ++ ['İ']), ⟨s.inside, []⟩) := by
  rw [Scanner.letter_of_ne (dotted_ne_marker _ _), settled_dotted, List.take_length,
    List.drop_length]

theorem find_after_dotted (hs : s.Stable U)
    (hn : find (markerOf s.inside) (y.map U.fold) = some n) :
    find (markerOf s.inside) ((s.pending ++ ['İ'] ++ y).map U.fold)
      = some ((s.pending ++ ['İ']).length + n) := by
  have hne := markerOf_ne_nil s.inside
  have hnone : find (markerOf s.inside) ((s.pending ++ ['İ']).map U.fold) = none := by
    cases hfind : find (markerOf s.inside) ((s.pending ++ ['İ']).map U.fold) with
    | none => rfl
    | some j =>
      have hle := add_length_le_of_find hne hfind
      have hlt := hs.2
      have hat := ((find_eq_some_iff hne).mp hfind).1
      have hlen : ((s.pending ++ ['İ']).map U.fold).length = s.pending.length + 1 := by
        rw [List.length_map, List.length_append, List.length_singleton]
      obtain rfl : j = 0 := by omega
      refine absurd (hat.eq_of_length ?_).symm (dotted_ne_marker _ _)
      rw [List.drop_zero]
      omega
  have hfree := free_settled hnone y
  rw [settled_dotted, List.take_length, List.drop_length, List.nil_append] at hfree
  rw [List.map_append, find_free hfree, hn, List.length_map]
  rfl

theorem feed_late (hs : s.Stable U)
    (hn : find (markerOf s.inside) (y.map U.fold) = some n)
    (hlen : y.length = n + (markerOf s.inside).length) :
    ∃ k t, n < k ∧ s.parser.feed U ('İ' :: y)
      = (pieceOf s.inside (s.pending ++ ['İ'] ++ y.take k) ++ [.marker t],
        Scanner.parser ⟨!s.inside, []⟩) := by
  set a := s.pending ++ ['İ'] with ha
  have hpending : s.pending ++ 'İ' :: y = a ++ y := by
    rw [ha, List.append_assoc]
    rfl
  have hlower : find (markerOf s.inside) (U.lower (a ++ y))
      = some (a.length + n + ((a ++ y).take (a.length + n)).count 'İ') := by
    unfold CaseTable.lower
    rw [find_lowerFrom (markerLike_markerOf _), find_after_dotted hs hn,
      Option.map_some]
  have hcount : 0 < ((a ++ y).take (a.length + n)).count 'İ' := by
    grind [List.take_length_add_append]
  set e := ((a ++ y).take (a.length + n)).count 'İ'
  refine ⟨n + e, ((a ++ y).drop (a.length + n + e)).take (markerOf s.inside).length,
    by omega, ?_⟩
  have hne : a ++ y ≠ [] := by simp [ha]
  obtain ⟨fuel, hfuel⟩ : ∃ fuel, (a ++ y).length = fuel + 1 :=
    Nat.exists_eq_succ_of_ne_zero (mt List.length_eq_zero_iff.mp hne)
  have hdrop : (a ++ y).drop (a.length + n + e + (markerOf s.inside).length) = [] := by
    refine List.drop_eq_nil_of_le ?_
    rw [List.length_append]
    omega
  have hloop := loop_of_find_eq_some fuel hlower hne
  rw [hdrop, loop_nil, Nat.add_assoc, List.take_length_add_append,
    ← Nat.add_assoc] at hloop
  unfold ReasoningParser.feed
  rw [if_neg (List.cons_ne_nil _ _), if_neg (by simp [Scanner.parser])]
  show ((loop U (s.pending ++ 'İ' :: y).length s.inside (s.pending ++ 'İ' :: y)).1,
    (left (loop U (s.pending ++ 'İ' :: y).length s.inside
      (s.pending ++ 'İ' :: y))).parser) = _
  rw [hpending, hfuel, hloop]
  rfl

theorem view_parse_singles_append (hmode : mode ≠ .none)
    (x : List Char) (chunks : List (List Char)) :
    view (parse U mode (singles x ++ chunks)) = Scanner.start.out U x
      ++ (view ((Scanner.start.after U x).parser.feedAll U chunks).1
        ++ view ((Scanner.start.after U x).parser.feedAll U chunks).2.finish) := by
  obtain ⟨hview, hnext, -⟩ := feedAll_eq_letters (Scanner.stable_nil false)
    (cleanChunks_singles (U := U) _ x)
  rw [flatten_singles] at hview hnext
  unfold parse
  rw [new_of_ne_none hmode, feedAll_append]
  unfold Scanner.start
  dsimp only
  rw [view_append, view_append, hview, hnext, List.append_assoc]

theorem view_singles_dotted (hmode : mode ≠ .none) (hs : Scanner.start.after U x = s)
    (hn : find (markerOf s.inside) (y.map U.fold) = some n) :
    view (parse U mode (singles (x ++ 'İ' :: y))) = Scanner.start.out U x
      ++ ((s.pending ++ ['İ'] ++ y.take n).map (some (channelOf s.inside), ·)
        ++ (((y.drop n).take (markerOf s.inside).length).map (none, ·)
          ++ (Scanner.out U ⟨!s.inside, []⟩ (y.drop (n + (markerOf s.inside).length))
            ++ (Scanner.after U ⟨!s.inside, []⟩
              (y.drop (n + (markerOf s.inside).length))).rest))) := by
  obtain ⟨hout, hafter⟩ := Scanner.letters_of_find_eq_some hn
  have hhead : s.out U ('İ' :: y)
      = view (s.letter U 'İ').1 ++ (s.letter U 'İ').2.out U y := view_append _ _
  have htail : s.after U ('İ' :: y) = (s.letter U 'İ').2.after U y := rfl
  rw [letter_dotted, view_pieceOf] at hhead
  rw [letter_dotted] at htail
  rw [view_parse hmode (cleanChunks_singles _ _), flatten_singles]
  unfold scanned
  rw [Scanner.out_append, Scanner.after_append, hs, hhead, htail]
  dsimp only
  rw [hout, hafter]
  simp only [List.append_assoc, List.map_append]

theorem view_late (hmode : mode ≠ .none) (hs : Scanner.start.after U x = s)
    (hn : find (markerOf s.inside) (y.map U.fold) = some n)
    (hlen : y.length = n + (markerOf s.inside).length) (z : List Char) :
    ∃ (k : ℕ) (t : List Char), n < k
      ∧ view (parse U mode (singles x ++ ('İ' :: y) :: singles z))
        = Scanner.start.out U x
          ++ ((s.pending ++ ['İ'] ++ y.take k).map (some (channelOf s.inside), ·)
            ++ (t.map (none, ·) ++ (Scanner.out U ⟨!s.inside, []⟩ z
                ++ (Scanner.after U ⟨!s.inside, []⟩ z).rest))) := by
  have hstable : s.Stable U := hs ▸ (Scanner.stable_nil false).after x
  obtain ⟨k, t, hk, hfeed⟩ := feed_late hstable hn hlen
  obtain ⟨hview, hnext, -⟩ := feedAll_eq_letters
    (Scanner.stable_nil (!s.inside)) (cleanChunks_singles (U := U) _ z)
  rw [flatten_singles] at hview hnext
  refine ⟨k, t, hk, ?_⟩
  rw [view_parse_singles_append hmode, hs, ReasoningParser.feedAll, hfeed]
  dsimp only
  rw [view_append, view_append, view_pieceOf, view_marker, hview, hnext,
    Scanner.view_finish]
  simp only [List.append_assoc]

theorem exists_chunks_of_not_clean (hmode : mode ≠ .none)
    (h : ¬ Clean U Scanner.start p) : ∃ channel chunks, chunks.flatten = p
      ∧ textOn channel (parse U mode chunks)
        ≠ textOn channel (parse U mode (singles p)) := by
  obtain ⟨x, y, n, rfl, hn⟩ := exists_marker_of_not_clean h
  obtain ⟨s, hs⟩ : ∃ s, Scanner.start.after U x = s := ⟨_, rfl⟩
  rw [Scanner.after_append, hs] at hn
  have hinside : (s.after U ['İ']).inside = s.inside :=
    congrArg (fun r => r.2.inside) (letter_dotted s)
  rw [hinside] at hn
  have hne := markerOf_ne_nil s.inside
  have hpos := List.length_pos_iff.mpr hne
  have hle := add_length_le_of_find hne hn
  rw [List.length_map] at hle
  -- the text up to the end of the marker
  have hlength : (y.take (n + (markerOf s.inside).length)).length
      = n + (markerOf s.inside).length := by
    rw [List.length_take]
    omega
  have hfirst : find (markerOf s.inside)
      ((y.take (n + (markerOf s.inside).length)).map U.fold) = some n := by
    grind [List.take_append_drop, find_of_find_append, List.length_map]
  obtain ⟨k, t, hk, hlate⟩ := view_late hmode hs hfirst hlength
    (y.drop (n + (markerOf s.inside).length))
  refine ⟨channelOf s.inside,
    singles x ++ ('İ' :: y.take (n + (markerOf s.inside).length))
      :: singles (y.drop (n + (markerOf s.inside).length)), ?_, fun heq => ?_⟩
  · rw [List.flatten_append, List.flatten_cons, flatten_singles, flatten_singles,
      List.cons_append, List.take_append_drop]
  rw [textOn_eq_view, textOn_eq_view, hlate, view_singles_dotted hmode hs hn] at heq
  have hcount := congrArg List.length heq
  simp only [lettersOn_append, lettersOn_map, List.length_append, if_true,
    reduceCtorEq, if_false, List.length_nil, List.length_take,
    List.length_singleton] at hcount
  omega

end Scan

/-! ## Chunks do not matter in clean texts only -/

/-- **The text is reproduced** from the items, but for the beginning of an opening
marker that is withheld at the end. -/
structure Reproduces (U : CaseTable) (text : List Char) (items : List Item) :
    Prop where
  markers : ∀ t, Item.marker t ∈ items → IsMarker U t
  whole : ∃ withheld, reinserted items ++ withheld = text
    ∧ U.lower withheld <+: openMarker ∧ U.lower withheld ≠ openMarker

/-- **What a parser makes of a text does not depend on the chunks**, and is the text
with its markers taken out. -/
def ChunkingIrrelevant (U : CaseTable) (mode : Mode) (text : List Char) : Prop :=
  ∀ chunks : List (List Char), chunks.flatten = text →
    (∀ channel, textOn channel (parse U mode chunks)
        = textOn channel (parse U mode [text]))
      ∧ Reproduces U text (parse U mode chunks)

section Chunks

variable {U : CaseTable} {mode : Mode} {chunks : List (List Char)} {text : List Char}

theorem feedAll_disabled (parser : ReasoningParser) (h : parser.enabled = false)
    (chunks : List (List Char)) :
    view (parser.feedAll U chunks).1 = chunks.flatten.map (some .answer, ·)
      ∧ (parser.feedAll U chunks).2 = parser
      ∧ ∀ t, Item.marker t ∉ (parser.feedAll U chunks).1 := by
  induction chunks with
  | nil => exact ⟨rfl, rfl, fun _ => List.not_mem_nil⟩
  | cons chunk chunks ih =>
    obtain ⟨ihview, ihnext, ihmarker⟩ := ih
    have hfeed : parser.feed U chunk
        = (if chunk = [] then [] else [.piece .answer chunk], parser) := by
      unfold ReasoningParser.feed
      by_cases hc : chunk = []
      · rw [if_pos hc, if_pos hc]
      · rw [if_neg hc, if_pos (by rw [h]; decide), if_neg hc]
    have hview : view (if chunk = [] then [] else [.piece .answer chunk])
        = chunk.map (some Channel.answer, ·) := view_pieceOf false chunk
    rw [ReasoningParser.feedAll, hfeed]
    dsimp only
    refine ⟨?_, ihnext, fun t hmem => ?_⟩
    · rw [view_append, hview, ihview, List.flatten_cons, List.map_append]
    · grind

theorem withheld_nil : U.lower [] <+: openMarker ∧ U.lower [] ≠ openMarker :=
  ⟨List.nil_prefix, (List.cons_ne_nil _ _).symm⟩

theorem chunkingIrrelevant_none (text : List Char) :
    ChunkingIrrelevant U .none text := by
  have hview : ∀ chunks : List (List Char), view (parse U .none chunks)
      = chunks.flatten.map (some .answer, ·) := by
    intro chunks
    obtain ⟨hview, hnext, -⟩ :=
      feedAll_disabled (U := U) (.new .none) rfl chunks
    unfold parse
    dsimp only
    rw [view_append, hview, hnext]
    exact List.append_nil _
  rintro chunks rfl
  refine ⟨fun channel => ?_, ?_, [], ?_, withheld_nil⟩
  · rw [textOn_eq_view, textOn_eq_view, hview, hview, List.flatten_singleton]
  · intro t hmem
    rcases List.mem_append.mp hmem with hin | hin
    · exact absurd hin ((feedAll_disabled (.new .none) rfl _).2.2 t)
    · rw [(feedAll_disabled (.new .none) rfl _).2.1] at hin
      exact absurd hin List.not_mem_nil
  · rw [reinserted_eq_view, hview, List.map_map, List.append_nil]
    exact List.map_id _

theorem Scanner.Stable.withheld {s : Scanner} (h : s.Stable U)
    (hin : s.inside = false) :
    U.lower s.pending <+: openMarker ∧ U.lower s.pending ≠ openMarker := by
  obtain ⟨hbeginning, hlt⟩ := h
  rw [hin] at hbeginning hlt
  have hplain : Plain (s.pending.map U.fold) :=
    ⟨fun hm => (plain_markerOf false).1 (hbeginning.subset hm),
      fun hm => (plain_markerOf false).2.1 (hbeginning.subset hm),
      fun hm => (plain_markerOf false).2.2 (hbeginning.subset hm)⟩
  have hlower : s.pending.map U.fold = U.lower s.pending :=
    (eq_lowerFrom_iff hplain [] _).mpr rfl
  rw [← hlower]
  refine ⟨hbeginning, fun heq => ?_⟩
  have hlen := congrArg List.length heq
  rw [List.length_map] at hlen
  exact absurd hlen hlt.ne

theorem chunkingIrrelevant_of_clean (hmode : mode ≠ .none)
    (h : Clean U Scanner.start text) : ChunkingIrrelevant U mode text := by
  rintro chunks rfl
  have hwhole : Clean U Scanner.start [chunks.flatten].flatten := by
    rw [List.flatten_singleton]
    exact h
  have hview := view_parse hmode h.chunks
  refine ⟨fun channel => ?_, ?_, ?_⟩
  · rw [textOn_eq_view, textOn_eq_view, hview, view_parse hmode hwhole.chunks,
      List.flatten_singleton]
  · obtain ⟨-, hnext, hmarker⟩ :=
      feedAll_eq_letters (Scanner.stable_nil false) h.chunks
    intro t hmem
    unfold parse at hmem
    rw [new_of_ne_none hmode] at hmem
    rcases List.mem_append.mp hmem with hin | hin
    · exact hmarker t hin
    refine absurd hin ?_
    show Item.marker t ∉ ((Scanner.parser ⟨false, []⟩).feedAll U chunks).2.finish
    rw [hnext]
    unfold ReasoningParser.finish
    split
    · exact List.not_mem_nil
    · split
      · simp
      · exact List.not_mem_nil
  · have hstable : (Scanner.start.after U chunks.flatten).Stable U :=
      (Scanner.stable_nil false).after _
    have hletters := Scanner.start.out_reinserted (U := U) chunks.flatten
    rw [reinserted_eq_view, hview]
    unfold scanned Scanner.rest
    cases hin : (Scanner.start.after U chunks.flatten).inside with
    | true =>
      refine ⟨[], ?_, withheld_nil⟩
      rw [if_pos rfl, List.map_append, List.map_map, List.append_nil]
      refine Eq.trans ?_ hletters
      exact congrArg _ (List.map_id _)
    | false =>
      refine ⟨_, ?_, hstable.withheld hin⟩
      rw [if_neg (by decide), List.append_nil]
      exact hletters

end Chunks

/-- **Exactly when the chunks do not matter.** -/
theorem chunking_iff (U : CaseTable) (mode : Mode) (text : List Char) :
    ChunkingIrrelevant U mode text ↔ mode = .none ∨ Clean U Scanner.start text := by
  constructor
  · intro h
    by_contra hnot
    obtain ⟨hmode, hclean⟩ := not_or.mp hnot
    obtain ⟨channel, chunks, hflat, hne⟩ := exists_chunks_of_not_clean hmode hclean
    have hchunks := (h chunks hflat).1 channel
    have hsingles := (h (singles text) (flatten_singles text)).1 channel
    exact hne (hchunks.trans hsingles.symm)
  · grind [chunkingIrrelevant_none, chunkingIrrelevant_of_clean]

def asciiCase : CaseTable where
  simple := Char.toLower
  finalSigma := fun _ _ => false

/-- `İ<think>x` in one chunk is an answer `İ<` without reasoning; with `İ` in a
chunk of its own it is the answer `İ` and the reasoning `x`. -/
theorem dotted_text_depends_on_chunks : ¬ ChunkingIrrelevant asciiCase .thinking
      ['İ', '<', 't', 'h', 'i', 'n', 'k', '>', 'x'] := by
  intro h
  have hchunks := (h [['İ'], ['<', 't', 'h', 'i', 'n', 'k', '>', 'x']] rfl).1 .answer
  revert hchunks
  decide +kernel

end Reasoning
