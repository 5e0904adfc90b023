import Coire.Occurrence

/-!
# Separating thinking text from answer text

`ReasoningParser`: the text of a model's turn arrives in chunks, and what stands between
`<think>` and `</think>` is passed on as reasoning, the rest as answer. The markers are
found in a lower-cased copy of the text that is pending; as a marker may be cut by the
end of a chunk, an end of the text that may be the beginning of a marker is held back.

A place found in the lower-cased copy is used as a place in the text. The two agree as
long as no letter becomes longer in lower case, and one does: `İ`, which becomes `i`
with a dot. So the text is cut one letter too late for each `İ` that is pending before a
marker (`find_lowerFrom`).
-/

namespace Reasoning

open Occurrence

/-! ## Lower case -/

/-- The dot that `İ` has in lower case. -/
def dotAbove : Char := '\u0307'

/-- **The letters of `str.lower`.** What a letter becomes is from the tables of
Unicode, except for `İ` and for `Σ`, whose form depends on the text around it. -/
structure CaseTable where
  simple : Char → Char
  finalSigma : List Char → List Char → Bool

namespace CaseTable

variable (U : CaseTable)

def lowerChar (before after : List Char) (c : Char) : List Char :=
  if c = 'Σ' then [if U.finalSigma before after then 'ς' else 'σ']
  else if c = 'İ' then ['i', dotAbove]
  else [U.simple c]

/-- A text in lower case, the text before it being given. -/
def lowerFrom (before : List Char) : List Char → List Char
  | [] => []
  | c :: text => U.lowerChar before text c ++ lowerFrom (before ++ [c]) text

def lower (text : List Char) : List Char := U.lowerFrom [] text

/-- One letter for each letter: as in lower case, but for the two that no marker
has anyway. -/
def fold (c : Char) : Char :=
  if c = 'Σ' then 'σ' else if c = 'İ' then dotAbove else U.simple c

end CaseTable

/-! ## The parser -/

inductive Channel
  | answer | reasoning
  deriving DecidableEq

inductive Mode
  | none | thinking | hybrid
  deriving DecidableEq

def openMarker : List Char := ['<', 't', 'h', 'i', 'n', 'k', '>']

def closeMarker : List Char := ['<', '/', 't', 'h', 'i', 'n', 'k', '>']

/-- A piece that the parser emits, or a marker that it consumes between two
pieces. -/
inductive Item
  | piece (channel : Channel) (text : List Char)
  | marker (text : List Char)
  deriving DecidableEq

def markerOf (inside : Bool) : List Char := if inside then closeMarker else openMarker

def channelOf (inside : Bool) : Channel := if inside then .reasoning else .answer

def pieceOf (inside : Bool) (text : List Char) : List Item :=
  if text = [] then [] else [.piece (channelOf inside) text]

structure ReasoningParser where
  enabled : Bool
  inside : Bool := false
  pending : List Char := []

def ReasoningParser.new (mode : Mode) : ReasoningParser where
  enabled := mode == .thinking || mode == .hybrid

/-- The loop of `feed`. Each turn but the last one shortens what is pending. -/
def loop (U : CaseTable) : ℕ → Bool → List Char → List Item × Bool × List Char
  | 0, inside, pending => ([], inside, pending)
  | fuel + 1, inside, pending =>
    if pending = [] then ([], inside, [])
    else
      let marker := markerOf inside
      let lower := U.lower pending
      match find marker lower with
      | some found =>
        let r := loop U fuel (!inside) (pending.drop (found + marker.length))
        (pieceOf inside (pending.take found)
          ++ .marker ((pending.drop found).take marker.length) :: r.1, r.2)
      | none =>
        let held := overlapWithin marker lower
          (min (marker.length - 1) pending.length)
        (pieceOf inside (pending.take (pending.length - held)), inside,
          pending.drop (pending.length - held))

namespace ReasoningParser

def feed (U : CaseTable) (parser : ReasoningParser) (content : List Char) :
    List Item × ReasoningParser :=
  if content = [] then ([], parser)
  else if ¬ parser.enabled then ([.piece .answer content], parser)
  else
    let pending := parser.pending ++ content
    let r := loop U pending.length parser.inside pending
    (r.1, { parser with inside := r.2.1, pending := r.2.2 })

def finish (parser : ReasoningParser) : List Item :=
  if parser.pending = [] then []
  else if parser.inside then [.piece .reasoning parser.pending]
  else []

def feedAll (U : CaseTable) :
    ReasoningParser → List (List Char) → List Item × ReasoningParser
  | parser, [] => ([], parser)
  | parser, chunk :: chunks =>
    let r := parser.feed U chunk
    let s := feedAll U r.2 chunks
    (r.1 ++ s.1, s.2)

end ReasoningParser

/-- **What a parser makes of a text that arrives in chunks.** -/
def parse (U : CaseTable) (mode : Mode) (chunks : List (List Char)) : List Item :=
  let r := (ReasoningParser.new mode).feedAll U chunks
  r.1 ++ r.2.finish

def textOn (channel : Channel) (items : List Item) : List Char :=
  items.flatMap fun item =>
    match item with
    | .piece c text => if c = channel then text else []
    | .marker _ => []

/-- The pieces and the markers put together again. -/
def reinserted (items : List Item) : List Char :=
  items.flatMap fun item =>
    match item with
    | .piece _ text => text
    | .marker text => text

/-! ## Lower case, letter by letter -/

section Lower

variable {U : CaseTable}

/-- No marker has these letters, which lower case makes of `Σ` and `İ`. -/
def Plain (pat : List Char) : Prop := 'σ' ∉ pat ∧ 'ς' ∉ pat ∧ dotAbove ∉ pat

instance (pat : List Char) : Decidable (Plain pat) := inferInstanceAs (Decidable (_ ∧ _))

theorem plain_markerOf (inside : Bool) : Plain (markerOf inside) := by
  cases inside <;> decide

variable {c : Char} {pat : List Char}

theorem Plain.tail (h : Plain (c :: pat)) : Plain pat :=
  ⟨fun hm => h.1 (List.mem_cons_of_mem _ hm),
    fun hm => h.2.1 (List.mem_cons_of_mem _ hm),
    fun hm => h.2.2 (List.mem_cons_of_mem _ hm)⟩

theorem Plain.take (h : Plain pat) (n : ℕ) : Plain (pat.take n) :=
  ⟨fun hm => h.1 (List.mem_of_mem_take hm), fun hm => h.2.1 (List.mem_of_mem_take hm),
    fun hm => h.2.2 (List.mem_of_mem_take hm)⟩

theorem markerOf_ne_nil (inside : Bool) : markerOf inside ≠ [] := by
  cases inside <;> decide

theorem lowerFrom_sigma (b t : List Char) : ∃ c, (c = 'σ' ∨ c = 'ς')
    ∧ U.lowerFrom b ('Σ' :: t) = c :: U.lowerFrom (b ++ ['Σ']) t := by
  by_cases h : U.finalSigma b t = true
  · exact ⟨'ς', .inr rfl, by simp [CaseTable.lowerFrom, CaseTable.lowerChar, h]⟩
  · exact ⟨'σ', .inl rfl, by simp [CaseTable.lowerFrom, CaseTable.lowerChar, h]⟩

theorem lowerFrom_dotted (b t : List Char) : U.lowerFrom b ('İ' :: t)
    = 'i' :: dotAbove :: U.lowerFrom (b ++ ['İ']) t := rfl

theorem lowerFrom_simple (hs : c ≠ 'Σ') (hd : c ≠ 'İ') (b t : List Char) :
    U.lowerFrom b (c :: t) = U.simple c :: U.lowerFrom (b ++ [c]) t := by
  simp [CaseTable.lowerFrom, CaseTable.lowerChar, hs, hd]

theorem fold_simple (hs : c ≠ 'Σ') (hd : c ≠ 'İ') : U.fold c = U.simple c := by
  simp [CaseTable.fold, hs, hd]

theorem fold_sigma : U.fold 'Σ' = 'σ' := rfl

theorem fold_dotted : U.fold 'İ' = dotAbove := rfl

theorem eq_lowerFrom_iff (h : Plain pat) (b t : List Char) :
    pat = U.lowerFrom b t ↔ pat = t.map U.fold := by
  induction t generalizing pat b with
  | nil => rfl
  | cons c t ih =>
    rw [List.map_cons]
    by_cases hs : c = 'Σ'
    · subst hs
      obtain ⟨d, hd, heq⟩ := lowerFrom_sigma (U := U) b t
      rw [heq]
      refine ⟨fun hp => absurd h ?_, fun hp => absurd h ?_⟩
      · grind [Plain]
      · exact fun h => h.1 (hp ▸ List.mem_cons_self)
    by_cases hd : c = 'İ'
    · subst hd
      rw [lowerFrom_dotted]
      refine ⟨fun hp => absurd h ?_, fun hp => absurd h ?_⟩
      · grind [Plain]
      · exact fun h => h.2.2 (hp ▸ List.mem_cons_self)
    rw [lowerFrom_simple hs hd, fold_simple hs hd]
    cases pat with
    | nil => grind
    | cons x pat => rw [List.cons.injEq, List.cons.injEq, ih h.tail]

theorem suffix_lowerFrom_iff (h : Plain pat) (b t : List Char) :
    pat <:+ U.lowerFrom b t ↔ pat <:+ t.map U.fold := by
  induction t generalizing b with
  | nil => rfl
  | cons c t ih =>
    have heq := eq_lowerFrom_iff (U := U) h b (c :: t)
    rw [List.map_cons] at heq ⊢
    by_cases hs : c = 'Σ'
    · subst hs
      obtain ⟨d, -, hlower⟩ := lowerFrom_sigma (U := U) b t
      rw [hlower] at heq ⊢
      rw [List.suffix_cons_iff, List.suffix_cons_iff, heq, ih]
    by_cases hd : c = 'İ'
    · grind [List.mem_cons_self, lowerFrom_dotted, List.suffix_cons_iff, Plain]
    rw [lowerFrom_simple hs hd] at heq ⊢
    rw [List.suffix_cons_iff, List.suffix_cons_iff, heq, ih]

/-- A text that ends with another letter than `i` is a beginning of both copies or
of none: in lower case no letter of a marker follows the `i` of `İ`. -/
theorem prefix_lowerFrom_iff (h : Plain pat)
    (hlast : pat.getLast? ≠ some 'i') (b t : List Char) :
    pat <+: U.lowerFrom b t ↔ pat <+: t.map U.fold := by
  induction t generalizing pat b with
  | nil => rfl
  | cons c t ih =>
    cases pat with
    | nil => grind
    | cons x pat =>
      rw [List.map_cons]
      by_cases hs : c = 'Σ'
      · subst hs
        obtain ⟨d, hd, hlower⟩ := lowerFrom_sigma (U := U) b t
        rw [hlower, fold_sigma, List.cons_prefix_cons, List.cons_prefix_cons]
        have hx : x ≠ d ∧ x ≠ 'σ' := by
          grind [Plain]
        exact ⟨fun hp => absurd hp.1 hx.1, fun hp => absurd hp.1 hx.2⟩
      by_cases hd : c = 'İ'
      · subst hd
        rw [lowerFrom_dotted, fold_dotted, List.cons_prefix_cons, List.cons_prefix_cons]
        refine ⟨fun ⟨hx, hp⟩ => ?_, fun ⟨hx, _⟩ =>
          absurd (hx ▸ List.mem_cons_self) h.2.2⟩
        cases pat with
        | nil => exact absurd (hx ▸ rfl) hlast
        | cons y pat => grind [Plain]
      rw [lowerFrom_simple hs hd, fold_simple hs hd, List.cons_prefix_cons,
        List.cons_prefix_cons]
      refine and_congr_right fun _ => ih h.tail ?_ _
      cases pat with
      | nil => exact fun hp => nomatch hp
      | cons y pat => rwa [List.getLast?_cons_cons] at hlast

structure MarkerLike (pat : List Char) : Prop where
  plain : Plain pat
  last : pat.getLast? ≠ some 'i'
  head : pat.head? = some '<'

theorem markerLike_markerOf (inside : Bool) : MarkerLike (markerOf inside) := by
  cases inside <;> exact ⟨by decide, by decide, by decide⟩

theorem MarkerLike.not_prefix (h : MarkerLike pat)
    (hc : c ≠ '<') (t : List Char) : ¬ pat <+: c :: t := by
  intro hp
  cases pat with
  | nil => cases h.head
  | cons x pat => grind [cases MarkerLike]

/-- **A marker is found in the lower-cased copy later than in the text**, by one
letter for each `İ` before it. -/
theorem find_lowerFrom (h : MarkerLike pat) (b t : List Char) :
    find pat (U.lowerFrom b t)
      = (find pat (t.map U.fold)).map fun n => n + (t.take n).count 'İ' := by
  induction t generalizing b with
  | nil => rfl
  | cons c t ih =>
    have hstart := prefix_lowerFrom_iff (U := U) h.plain h.last b (c :: t)
    rw [List.map_cons] at hstart ⊢
    by_cases hd : c = 'İ'
    · subst hd
      have hdot : ¬ pat <+: dotAbove :: t.map U.fold := h.not_prefix (by decide) _
      rw [lowerFrom_dotted, fold_dotted, find, if_neg (h.not_prefix (by decide) _),
        find, if_neg (h.not_prefix (by decide) _), find, if_neg hdot, ih,
        Option.map_map, Option.map_map, Option.map_map]
      congr 1
      funext n
      show n + (t.take n).count 'İ' + 1 + 1 = n + 1 + ('İ' :: t.take n).count 'İ'
      rw [List.count_cons_self]
      omega
    · have hcount : ∀ n, ((c :: t).take (n + 1)).count 'İ' = (t.take n).count 'İ' := by
        intro n
        rw [List.take_succ_cons, List.count_cons_of_ne hd]
      obtain ⟨d, hlower⟩ : ∃ d, U.lowerFrom b (c :: t)
          = d :: U.lowerFrom (b ++ [c]) t := by
        by_cases hs : c = 'Σ'
        · subst hs
          obtain ⟨d, -, hlower⟩ := lowerFrom_sigma (U := U) b t
          exact ⟨d, hlower⟩
        · exact ⟨_, lowerFrom_simple hs hd b t⟩
      rw [hlower] at hstart ⊢
      unfold find
      by_cases hp : pat <+: U.fold c :: t.map U.fold
      · grind
      rw [if_neg hp, if_neg fun hq => hp (hstart.mp hq), ih, Option.map_map,
        Option.map_map]
      congr 1
      funext n
      show n + (t.take n).count 'İ' + 1 = n + 1 + ((c :: t).take (n + 1)).count 'İ'
      rw [hcount]
      omega

theorem overlapWithin_lower (h : Plain pat) (t : List Char) (n : ℕ) :
    overlapWithin pat (U.lower t) n = overlapWithin pat (t.map U.fold) n :=
  overlapWithin_congr fun k _ => suffix_lowerFrom_iff (h.take k) [] t

end Lower

end Reasoning
