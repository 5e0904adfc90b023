import Mathlib.Algebra.GroupWithZero.Nat
import Mathlib.Algebra.Order.BigOperators.Group.Finset
import Coire.EngineEvents
import Coire.Framing

/-!
# Accounting for the tokens of a stream

`track_stream` passes the chunks of a stream on as they are, and reads the token counts
of a request from the frames in them. The unfinished line and the data lines of the
unfinished frame are kept from one chunk to the next; if these are longer than 64 KiB
at the end of a chunk, they are dropped. While the frames are no longer than that, it is
only behind the last frame that something is dropped, where there is no data to record.
So the counts are those of the frames, whatever the chunks are (`trackFrom_of_sync`).

Accounting is not to disturb the stream: errors in the data are caught. Two that JSON
can cause are not: a value that is nested too deep, and a token count that is
infinite. Then the chunk is not passed on. So the stream is passed on unchanged and
its counts do not depend on the chunks *if and only if* no frame raises one of them
(`accounting_iff`).
-/

namespace StreamAccounting

open EngineEvents Occurrence Framing

/-! ## One frame -/

/-- **What the accounting needs of Python**: `json`, and `int` of a JSON value. -/
structure Runtime extends Json where
  int : Value Number → Except Raised ℤ

structure Usage where
  promptTokens : ℤ := 0
  completionTokens : ℤ := 0
  reportedTokenUsage : Bool := false
  deriving DecidableEq

def get {Number : Type} (fields : List (Str × Value Number)) (key : Str) :
    Option (Value Number) :=
  (fields.find? fun field => field.1 = key).map Prod.snd

def choicesKey : Str := str ['c', 'h', 'o', 'i', 'c', 'e', 's']

def deltaKey : Str := str ['d', 'e', 'l', 't', 'a']

def contentKey : Str := str ['c', 'o', 'n', 't', 'e', 'n', 't']

def usageKey : Str := str ['u', 's', 'a', 'g', 'e']

def promptKey : Str :=
  str ['p', 'r', 'o', 'm', 'p', 't', '_', 't', 'o', 'k', 'e', 'n', 's']

def completionKey : Str :=
  str ['c', 'o', 'm', 'p', 'l', 'e', 't', 'i', 'o', 'n', '_', 't', 'o', 'k', 'e', 'n',
    's']

def choiceHasContent {Number : Type} : Value Number → Bool
  | .object choice =>
    match get choice deltaKey with
    | some (.object delta) =>
      match get delta contentKey with
      | some (.string content) => content ≠ []
      | _ => false
    | _ => false
  | _ => false

def hasContent {Number : Type} (event : List (Str × Value Number)) : Bool :=
  match get event choicesKey with
  | some (.array choices) => choices.any choiceHasContent
  | _ => false

/-- `event.get("usage") or {}`, if that is a `dict` and not empty. -/
def reportedUsage {Number : Type} (event : List (Str × Value Number)) :
    Option (List (Str × Value Number)) :=
  match get event usageKey with
  | some (.object reported) => if reported = [] then none else some reported
  | _ => none

variable (R : Runtime)

def tokens (reported : List (Str × Value R.Number)) (key : Str) (current : ℤ) :
    Except Raised ℤ :=
  match get reported key with
  | none => .ok current
  | some value => R.int value

/-- **`_record_usage_frame`**: the counts after a frame, and what is returned, if
nothing is raised that is not caught. -/
def recordUsageFrame (dataLines : List (List Byte)) (usage : Usage) :
    Usage × Option Bool :=
  if dataLines = [] ∨ joinLines dataLines = done then (usage, some false)
  else
    match R.loads (joinLines dataLines) with
    | .error .invalid => (usage, some false)
    | .error .other => (usage, none)
    | .ok (.object event) =>
      match reportedUsage event with
      | some reported =>
        match tokens R reported promptKey usage.promptTokens with
        | .error .invalid => (usage, some false)
        | .error .other => (usage, none)
        | .ok prompt =>
          match tokens R reported completionKey usage.completionTokens with
          | .error .invalid => ({ usage with promptTokens := prompt }, some false)
          | .error .other => ({ usage with promptTokens := prompt }, none)
          | .ok completion =>
            (⟨prompt, completion,
              (get reported promptKey).isSome && (get reported completionKey).isSome⟩,
              some (hasContent event))
      | none =>
        if hasContent event then
          ({ usage with completionTokens := usage.completionTokens + 1 }, some true)
        else (usage, some false)
    | .ok _ => (usage, some false)

/-! ## The stream -/

structure Tracking where
  lineBuffer : List Byte := []
  dataLines : List (List Byte) := []
  usage : Usage

def removeCr (line : List Byte) : List Byte :=
  if line.getLast? = some CR then line.dropLast else line

def Blank (line : List Byte) : Prop := removeCr line = []

instance (line : List Byte) : Decidable (Blank line) :=
  inferInstanceAs (Decidable (_ = _))

def dataOfLine (line : List Byte) : Option (List Byte) :=
  if dataField.isPrefixOf (removeCr line) then
    some (((removeCr line).drop 5).dropWhile (· = 32))
  else none

/-- The body of `while b"\n" in line_buffer`: the data lines and the counts after a
line, and whether it raises. -/
def handleLine (s : List (List Byte) × Usage) (line : List Byte) :
    (List (List Byte) × Usage) × Option Unit :=
  if Blank line then
    match recordUsageFrame R s.1 s.2 with
    | (usage, some _) => (([], usage), none)
    | (usage, none) => ((s.1, usage), some ())
  else ((s.1 ++ (dataOfLine line).toList, s.2), none)

def limit : ℕ := 64 * 1024

def guarded (buffer : List Byte) (dataLines : List (List Byte)) (usage : Usage) :
    Tracking :=
  if buffer.length + (dataLines.map List.length).sum > limit then ⟨[], [], usage⟩
  else ⟨buffer, dataLines, usage⟩

/-- The body of `async for`, up to `yield chunk`, and whether it raises. -/
def feed (t : Tracking) (chunk : List Byte) : Tracking × Option Unit :=
  match drain [LF] (handleLine R) (t.dataLines, t.usage) (t.lineBuffer ++ chunk) with
  | ((dataLines, usage), some (), buffer) => (⟨buffer, dataLines, usage⟩, some ())
  | ((dataLines, usage), none, buffer) => (guarded buffer dataLines usage, none)

/-- The chunks that are yielded, and the counts at the end. -/
def trackFrom : Tracking → List (List Byte) → List (List Byte) × Usage
  | t, [] => ([], t.usage)
  | t, chunk :: chunks =>
    match feed R t chunk with
    | (t, some ()) => ([], t.usage)
    | (t, none) => (chunk :: (trackFrom t chunks).1, (trackFrom t chunks).2)

/-- **`track_stream`**, for a client that stays and whose credential is active. -/
def trackStream (usage : Usage) (chunks : List (List Byte)) :
    List (List Byte) × Usage :=
  trackFrom R { usage := usage } chunks

/-! ## The frames of a stream -/

def group : List (List Byte) → List (List Byte) →
    List (List (List Byte)) × List (List Byte)
  | begun, [] => ([], begun)
  | begun, line :: lines =>
    if Blank line then ((begun ++ [line]) :: (group [] lines).1, (group [] lines).2)
    else group (begun ++ [line]) lines

def frames (stream : List Byte) : List (List (List Byte)) :=
  (group [] (pieces [LF] stream)).1

def bytes (lines : List (List Byte)) : List Byte := lines.flatMap (· ++ [LF])

def unfinished (stream : List Byte) : List Byte :=
  bytes (group [] (pieces [LF] stream)).2 ++ rest [LF] stream

def frameChunks (stream : List Byte) : List (List Byte) :=
  (frames stream).map bytes ++ [unfinished stream]

def dataOf (lines : List (List Byte)) : List (List Byte) := lines.filterMap dataOfLine

def CountsRaise (reported : List (Str × Value R.Number)) (usage : Usage) : Prop :=
  tokens R reported promptKey usage.promptTokens = .error .other
    ∨ (∃ prompt, tokens R reported promptKey usage.promptTokens = .ok prompt)
      ∧ tokens R reported completionKey usage.completionTokens = .error .other

/-- **A frame raises an error that is not caught**: its value is nested too deep, or
it reports a count that is no finite number. -/
def Raises (lines : List (List Byte)) : Prop :=
  dataOf lines ≠ [] ∧ joinLines (dataOf lines) ≠ done
    ∧ (R.loads (joinLines (dataOf lines)) = .error .other
      ∨ ∃ event reported, R.loads (joinLines (dataOf lines)) = .ok (.object event)
        ∧ reportedUsage event = some reported ∧ CountsRaise R reported {})

/-! ## Frames, one after the other -/

variable {R}

variable {reported : List (Str × Value R.Number)}

theorem tokens_error_iff {key : Str} {current current' : ℤ} {raised : Raised} :
    tokens R reported key current = .error raised
      ↔ tokens R reported key current' = .error raised := by
  unfold tokens
  cases get reported key with
  | none => grind
  | some value => exact Iff.rfl

theorem tokens_ok_iff {key : Str} {current current' : ℤ} :
    (∃ n, tokens R reported key current = .ok n)
      ↔ ∃ n, tokens R reported key current' = .ok n := by
  unfold tokens
  cases get reported key with
  | none => exact iff_of_true ⟨_, rfl⟩ ⟨_, rfl⟩
  | some value => exact Iff.rfl

theorem countsRaise_iff {usage usage' : Usage} :
    CountsRaise R reported usage ↔ CountsRaise R reported usage' :=
  or_congr tokens_error_iff (and_congr tokens_ok_iff tokens_error_iff)

theorem recordUsageFrame_eq_none_iff {lines : List (List Byte)} {usage : Usage} :
    (recordUsageFrame R (dataOf lines) usage).2 = none ↔ Raises R lines := by
  unfold recordUsageFrame Raises
  by_cases hdata : dataOf lines = [] ∨ joinLines (dataOf lines) = done
  · grind
  rw [if_neg hdata, and_iff_right (not_or.mp hdata).1,
    and_iff_right (not_or.mp hdata).2]
  rcases hloads : R.loads (joinLines (dataOf lines)) with (_ | _) | value
  · simp
  · simp
  cases value with
  | object event =>
    cases hreported : reportedUsage event with
    | none => grind
    | some reported =>
      have hright : (∃ event' reported',
          Except.ok (Value.object event) = (Except.ok (Value.object event')
            : Except Raised (Value R.Number))
          ∧ reportedUsage event' = some reported' ∧ CountsRaise R reported' {})
            ↔ CountsRaise R reported usage := by
        grind [countsRaise_iff]
      refine Iff.trans ?_ (or_iff_right (by simp)).symm
      refine Iff.trans ?_ hright.symm
      unfold CountsRaise
      dsimp only
      simp only [hreported]
      rcases hprompt : tokens R reported promptKey usage.promptTokens
        with (_ | _) | prompt
      · simp
      · simp
      rcases hcompletion : tokens R reported completionKey usage.completionTokens
        with (_ | _) | completion
      · simp
      · simp
      · simp
  | null | bool | number | string | array => simp

def accounted (R : Runtime) (usage : Usage) (fs : List (List (List Byte))) : Usage :=
  fs.foldl (fun usage lines => (recordUsageFrame R (dataOf lines) usage).1) usage

section Lines

variable {begun lines : List (List Byte)} {line : List Byte} {usage : Usage}

theorem dataOfLine_of_blank (h : Blank line) : dataOfLine line = none := by
  unfold dataOfLine
  rw [show removeCr line = [] from h]
  exact if_neg (by decide)

theorem dataOf_append_singleton (begun : List (List Byte)) (line : List Byte) :
    dataOf (begun ++ [line]) = dataOf begun ++ (dataOfLine line).toList := by
  unfold dataOf
  rw [List.filterMap_append]
  congr 1

theorem dataOf_append_blank (h : Blank line) :
    dataOf (begun ++ [line]) = dataOf begun := by
  rw [dataOf_append_singleton, dataOfLine_of_blank h, Option.toList_none,
    List.append_nil]

theorem handleLine_of_not_blank (h : ¬ Blank line) :
    handleLine R (dataOf begun, usage) line
      = ((dataOf (begun ++ [line]), usage), none) := by
  unfold handleLine
  rw [if_neg h, dataOf_append_singleton]

theorem handleLine_of_blank (usage : Usage) (h : Blank line) :
    (Raises R (begun ++ [line]) →
      (handleLine R (dataOf begun, usage) line).2 = some ())
    ∧ (¬ Raises R (begun ++ [line]) → handleLine R (dataOf begun, usage) line
      = (([], (recordUsageFrame R (dataOf (begun ++ [line])) usage).1), none)) := by
  have hraises : Raises R (begun ++ [line])
      ↔ (recordUsageFrame R (dataOf begun) usage).2 = none := by
    rw [← dataOf_append_blank h]
    exact recordUsageFrame_eq_none_iff.symm
  unfold handleLine
  rw [if_pos h, dataOf_append_blank h, hraises]
  dsimp only
  rcases recordUsageFrame R (dataOf begun) usage with ⟨usage', _ | content⟩
  · exact ⟨fun _ => rfl, fun hsome => absurd rfl hsome⟩
  · exact ⟨nofun, fun _ => rfl⟩

theorem handleAll_group (usage : Usage) (h : ∀ f ∈ (group begun lines).1, ¬ Raises R f) :
    handleAll (handleLine R) (dataOf begun, usage) lines
      = ((dataOf (group begun lines).2,
          accounted R usage (group begun lines).1), none) := by
  induction lines generalizing begun usage with
  | nil => rfl
  | cons line lines ih =>
    rw [group] at h ⊢
    rw [handleAll]
    by_cases hblank : Blank line
    · rw [if_pos hblank] at h ⊢
      rw [(handleLine_of_blank usage hblank).2 (h _ List.mem_cons_self)]
      exact @ih [] _ fun f hf => h f (List.mem_cons_of_mem _ hf)
    · rw [if_neg hblank] at h ⊢
      rw [handleLine_of_not_blank hblank]
      exact ih usage h

theorem not_raises_of_handleAll {s : List (List Byte) × Usage}
    (h : handleAll (handleLine R) (dataOf begun, usage) lines = (s, none)) :
    ∀ f ∈ (group begun lines).1, ¬ Raises R f := by
  induction lines generalizing begun usage with
  | nil => exact fun f hf => absurd hf List.not_mem_nil
  | cons line lines ih =>
    rw [group]
    rw [handleAll] at h
    by_cases hblank : Blank line
    · rw [if_pos hblank]
      by_cases hraises : Raises R (begun ++ [line])
      · grind [handleLine_of_blank]
      · rw [(handleLine_of_blank usage hblank).2 hraises] at h
        intro f hf
        rcases List.mem_cons.mp hf with rfl | hf
        · exact hraises
        · exact @ih [] _ h f hf
    · rw [if_neg hblank]
      rw [handleLine_of_not_blank hblank] at h
      exact ih h

theorem handleAll_of_not_blank (h : ∀ line ∈ lines, ¬ Blank line)
    (data : List (List Byte)) :
    ∃ data', handleAll (handleLine R) (data, usage) lines = ((data', usage), none) := by
  induction lines generalizing data with
  | nil => exact ⟨data, rfl⟩
  | cons line lines ih =>
    have hline : handleLine R (data, usage) line
        = ((data ++ (dataOfLine line).toList, usage), none) :=
      if_neg (h line List.mem_cons_self)
    rw [handleAll, hline]
    exact ih (fun l hl => h l (List.mem_cons_of_mem _ hl)) _

theorem group_append (begun xs ys : List (List Byte)) : group begun (xs ++ ys)
      = ((group begun xs).1 ++ (group (group begun xs).2 ys).1,
        (group (group begun xs).2 ys).2) := by
  induction xs generalizing begun with
  | nil => rfl
  | cons line xs ih =>
    rw [List.cons_append, group, group]
    by_cases hblank : Blank line
    · rw [if_pos hblank, if_pos hblank, ih]
      rfl
    · rw [if_neg hblank, if_neg hblank, ih]

theorem length_dataOfLine_le {data : List Byte} (h : dataOfLine line = some data) :
    data.length ≤ line.length := by
  grind [removeCr, dataOfLine, List.dropWhile_sublist, Nat.sub_le]

theorem sum_length_dataOf_le (lines : List (List Byte)) :
    ((dataOf lines).map List.length).sum ≤ (bytes lines).length := by
  induction lines with
  | nil => exact le_rfl
  | cons line lines ih =>
    have hbytes : (bytes (line :: lines)).length
        = line.length + 1 + (bytes lines).length := by
      unfold bytes
      rw [List.flatMap_cons, List.length_append, List.length_append,
        List.length_singleton]
    unfold dataOf at ih ⊢
    rw [hbytes]
    cases hdata : dataOfLine line with
    | none => grind
    | some data =>
      have hle := length_dataOfLine_le hdata
      rw [List.filterMap_cons_some hdata, List.map_cons, List.sum_cons]
      omega

/-! ## Chunks -/

theorem newline_ne_nil : [LF] ≠ [] := List.cons_ne_nil _ _

theorem find_newline_eq_none_iff {x : List Byte} : find [LF] x = none ↔ LF ∉ x := by
  rw [find_eq_none_iff newline_ne_nil]
  constructor
  · intro h hmem
    obtain ⟨a, b, rfl⟩ := List.append_of_mem hmem
    refine h a.length ?_
    rw [List.drop_left]
    exact ⟨b, rfl⟩
  · intro h j hj
    exact h (List.mem_of_mem_drop (hj.subset List.mem_cons_self))

theorem pieces_suffix {x y c : List Byte} (hx : LF ∉ x) (hy : LF ∉ y) :
    (LF ∉ c ∧ pieces [LF] (x ++ c) = [] ∧ pieces [LF] (y ++ c) = []
        ∧ rest [LF] (x ++ c) = x ++ c ∧ rest [LF] (y ++ c) = y ++ c)
      ∨ ∃ first second lines, pieces [LF] (x ++ c) = first :: lines
        ∧ pieces [LF] (y ++ c) = second :: lines
        ∧ rest [LF] (x ++ c) = rest [LF] (y ++ c) := by
  cases hc : find [LF] c with
  | none =>
    grind [find_newline_eq_none_iff, pieces_of_find_eq_none]
  | some i =>
    have hsome : ∀ {z : List Byte}, LF ∉ z → find [LF] (z ++ c) = some (z.length + i)
          ∧ (z ++ c).drop (z.length + i + [LF].length) = c.drop (i + [LF].length) := by
      intro z hz
      refine ⟨by rw [find_free (free_of_not_mem hz), hc]; rfl, ?_⟩
      rw [Nat.add_assoc, List.drop_length_add_append]
    obtain ⟨hpx, hrx⟩ := pieces_of_find_eq_some newline_ne_nil (hsome hx).1
    obtain ⟨hpy, hry⟩ := pieces_of_find_eq_some newline_ne_nil (hsome hy).1
    rw [(hsome hx).2] at hpx hrx
    rw [(hsome hy).2] at hpy hry
    exact .inr ⟨_, _, _, hpx, hpy, hrx.trans hry.symm⟩

theorem trackFrom_cons {t : Tracking} {c : List Byte} {chunks data : List (List Byte)}
    (h : handleAll (handleLine R) (t.dataLines, t.usage)
      (pieces [LF] (t.lineBuffer ++ c)) = ((data, usage), none)) :
    trackFrom R t (c :: chunks)
      = (c :: (trackFrom R (guarded (rest [LF] (t.lineBuffer ++ c)) data usage)
          chunks).1,
        (trackFrom R (guarded (rest [LF] (t.lineBuffer ++ c)) data usage)
          chunks).2) := by
  rw [trackFrom, feed, drain_of_handleAll newline_ne_nil h]

theorem guarded_eq_or (buffer : List Byte) (data : List (List Byte)) (usage : Usage) :
    guarded buffer data usage = ⟨buffer, data, usage⟩
      ∨ guarded buffer data usage = ⟨[], [], usage⟩
        ∧ buffer.length + (data.map List.length).sum > limit := by
  unfold guarded
  split
  · exact .inr ⟨rfl, by assumption⟩
  · exact .inl rfl

variable {b : List Byte}

/-- **Behind the last frame nothing is recorded**, also if some of the text was dropped.
-/
theorem trackFrom_of_lost {t : Tracking} (chunks : List (List Byte)) (hb : LF ∉ b)
    (ht : t.lineBuffer = b ∨ t.dataLines = [] ∧ LF ∉ t.lineBuffer)
    (hblank : ∀ line ∈ pieces [LF] (b ++ chunks.flatten), ¬ Blank line) :
    trackFrom R t chunks = (chunks, t.usage) := by
  induction chunks generalizing t b with
  | nil => rfl
  | cons c chunks ih =>
    obtain ⟨hpieces, -⟩ := pieces_append newline_ne_nil (b ++ c) chunks.flatten
    rw [List.flatten_cons, ← List.append_assoc, hpieces] at hblank
    have hnow : ∀ line ∈ pieces [LF] (b ++ c), ¬ Blank line :=
      fun line hmem => hblank line (List.mem_append_left _ hmem)
    have hlater : ∀ line ∈ pieces [LF] (rest [LF] (b ++ c) ++ chunks.flatten),
        ¬ Blank line :=
      fun line hmem => hblank line (List.mem_append_right _ hmem)
    have hrest : LF ∉ rest [LF] (b ++ c) :=
      find_newline_eq_none_iff.mp (find_rest newline_ne_nil _)
    -- the lines record nothing, and what is kept meets the condition again
    obtain ⟨data, hhandle, hkept⟩ : ∃ data,
        handleAll (handleLine R) (t.dataLines, t.usage)
            (pieces [LF] (t.lineBuffer ++ c)) = ((data, t.usage), none)
          ∧ (rest [LF] (t.lineBuffer ++ c) = rest [LF] (b ++ c)
            ∨ data = [] ∧ LF ∉ rest [LF] (t.lineBuffer ++ c)) := by
      rcases ht with heq | ⟨hdata, hbuffer⟩
      · obtain ⟨data, hhandle⟩ := handleAll_of_not_blank (R := R) hnow t.dataLines
        exact ⟨data, by rw [heq]; exact hhandle, .inl (by rw [heq])⟩
      rcases pieces_suffix hb hbuffer with ⟨hc, -, hnone, -, hsame⟩
        | ⟨first, second, lines, hfirst, hsecond, hsame⟩
      · refine ⟨[], by rw [hnone, hdata]; rfl, .inr ⟨rfl, ?_⟩⟩
        rw [hsame, List.mem_append]
        exact not_or.mpr ⟨hbuffer, hc⟩
      · obtain ⟨data, hline⟩ : ∃ data,
            handleLine R ([], t.usage) second = ((data, t.usage), none) := by
          unfold handleLine
          split
          · exact ⟨[], rfl⟩
          · exact ⟨_, rfl⟩
        rw [hfirst] at hnow
        obtain ⟨data', hhandle⟩ := handleAll_of_not_blank (R := R)
          (fun line hmem => hnow line (List.mem_cons_of_mem _ hmem)) data
        refine ⟨data', ?_, .inl hsame.symm⟩
        rw [hsecond, hdata, handleAll, hline]
        exact hhandle
    have hnext : trackFrom R (guarded (rest [LF] (t.lineBuffer ++ c)) data t.usage)
        chunks = (chunks, t.usage) := by
      grind [guarded_eq_or]
    rw [trackFrom_cons hhandle, hnext]

theorem bytes_append_singleton (begun : List (List Byte)) (line : List Byte) :
    (bytes (begun ++ [line])).length = (bytes begun).length + line.length + 1 := by
  unfold bytes
  simp only [List.flatMap_append, List.length_append, List.flatMap_cons,
    List.flatMap_nil, List.append_nil, List.length_singleton]
  omega

theorem not_blank_of_long_cons (hlong : (bytes (begun ++ [line])).length > limit)
    (hsize : ∀ f ∈ (group begun (line :: lines)).1, (bytes f).length ≤ limit) :
    ¬ Blank line ∧ ∀ f ∈ (group (begun ++ [line]) lines).1, (bytes f).length ≤ limit := by
  rw [group] at hsize
  by_cases hblank : Blank line
  · rw [if_pos hblank] at hsize
    exact absurd (hsize _ List.mem_cons_self) (Nat.not_le_of_lt hlong)
  · rw [if_neg hblank] at hsize
    exact ⟨hblank, hsize⟩

theorem not_blank_of_long (hlong : (bytes begun).length > limit)
    (hsize : ∀ f ∈ (group begun lines).1, (bytes f).length ≤ limit) :
    ∀ line ∈ lines, ¬ Blank line := by
  induction lines generalizing begun with
  | nil => grind
  | cons line lines ih =>
    have hbytes := bytes_append_singleton begun line
    obtain ⟨hblank, hsize⟩ := not_blank_of_long_cons (by omega) hsize
    exact List.forall_mem_cons.mpr ⟨hblank, ih (by omega) hsize⟩

theorem not_blank_of_long_buffer {y : List Byte} (hb : LF ∉ b)
    (hlong : b.length + (bytes begun).length > limit)
    (hsize : ∀ f ∈ (group begun (pieces [LF] (b ++ y))).1, (bytes f).length ≤ limit) :
    ∀ line ∈ pieces [LF] (b ++ y), ¬ Blank line := by
  cases hy : find [LF] y with
  | none =>
    grind [find_free, free_of_not_mem, pieces_of_find_eq_none]
  | some i =>
    have hsome : find [LF] (b ++ y) = some (b.length + i) := by
      rw [find_free (free_of_not_mem hb), hy]
      rfl
    have hlength : b.length ≤ ((b ++ y).take (b.length + i)).length := by
      rw [List.take_length_add_append, List.length_append]
      exact Nat.le_add_right _ _
    rw [(pieces_of_find_eq_some newline_ne_nil hsome).1] at hsize ⊢
    set first := (b ++ y).take (b.length + i)
    have hbytes := bytes_append_singleton begun first
    obtain ⟨hblank, hsize⟩ := not_blank_of_long_cons (by omega) hsize
    exact List.forall_mem_cons.mpr ⟨hblank, not_blank_of_long (by omega) hsize⟩

theorem group_of_not_blank (h : ∀ line ∈ lines, ¬ Blank line) :
    (group begun lines).1 = [] := by
  induction lines generalizing begun with
  | nil => rfl
  | cons line lines ih =>
    rw [group, if_neg (h line List.mem_cons_self)]
    exact ih fun l hl => h l (List.mem_cons_of_mem _ hl)

theorem trackFrom_of_sync (chunks : List (List Byte)) (hb : LF ∉ b)
    (hsize : ∀ f ∈ (group begun (pieces [LF] (b ++ chunks.flatten))).1,
      (bytes f).length ≤ limit)
    (hraises : ∀ f ∈ (group begun (pieces [LF] (b ++ chunks.flatten))).1,
      ¬ Raises R f) :
    trackFrom R ⟨b, dataOf begun, usage⟩ chunks = (chunks, accounted R usage
        (group begun (pieces [LF] (b ++ chunks.flatten))).1) := by
  induction chunks generalizing b begun usage with
  | nil =>
    rw [List.flatten_nil, List.append_nil,
      (pieces_of_find_eq_none (find_newline_eq_none_iff.mpr hb)).1]
    rfl
  | cons c chunks ih =>
    have hframes : (group begun (pieces [LF] (b ++ (c :: chunks).flatten))).1
        = (group begun (pieces [LF] (b ++ c))).1
          ++ (group (group begun (pieces [LF] (b ++ c))).2
            (pieces [LF] (rest [LF] (b ++ c) ++ chunks.flatten))).1 := by
      rw [List.flatten_cons, ← List.append_assoc,
        (pieces_append newline_ne_nil (b ++ c) chunks.flatten).1, group_append]
    rw [hframes] at hsize hraises ⊢
    have hrest : LF ∉ rest [LF] (b ++ c) :=
      find_newline_eq_none_iff.mp (find_rest newline_ne_nil _)
    have hhandle := handleAll_group usage
      fun f hf => hraises f (List.mem_append_left _ hf)
    have hsizeLater := fun f hf => hsize f (List.mem_append_right _ hf)
    have hraisesLater := fun f hf => hraises f (List.mem_append_right _ hf)
    have haccounted : ∀ fs gs, accounted R usage (fs ++ gs)
        = accounted R (accounted R usage fs) gs := fun fs gs => List.foldl_append
    rw [trackFrom_cons hhandle, haccounted]
    set begun' := (group begun (pieces [LF] (b ++ c))).2
    rcases guarded_eq_or (rest [LF] (b ++ c)) (dataOf begun')
      (accounted R usage (group begun (pieces [LF] (b ++ c))).1) with
        hkeep | ⟨hdrop, hlong⟩
    · rw [hkeep, ih hrest hsizeLater hraisesLater]
    have hbytes := sum_length_dataOf_le begun'
    have hnone := not_blank_of_long_buffer hrest (by omega) hsizeLater
    rw [hdrop, group_of_not_blank hnone,
      trackFrom_of_lost chunks hrest (.inr ⟨rfl, List.not_mem_nil⟩) hnone]
    rfl

/-! ## One chunk for each frame -/

theorem bytes_append (xs ys : List (List Byte)) :
    bytes (xs ++ ys) = bytes xs ++ bytes ys := List.flatMap_append

theorem bytes_pieces (x : List Byte) : bytes (pieces [LF] x) ++ rest [LF] x = x := by
  induction x using buffer_induction newline_ne_nil with
  | hnone x hfind =>
    rw [(pieces_of_find_eq_none hfind).1, (pieces_of_find_eq_none hfind).2]
    rfl
  | hsome x i hfind ih =>
    obtain ⟨hpieces, hrest⟩ := pieces_of_find_eq_some newline_ne_nil hfind
    obtain ⟨y, hy⟩ := ((find_eq_some_iff newline_ne_nil).mp hfind).1
    have hdrop : x.drop (i + [LF].length) = y := by
      rw [← List.drop_drop, ← hy, List.drop_left]
    rw [hpieces, hrest]
    show (x.take i ++ [LF]) ++ bytes _ ++ _ = x
    rw [List.append_assoc, ih, hdrop, List.append_assoc, hy, List.take_append_drop]

theorem bytes_group (begun lines : List (List Byte)) :
    ((group begun lines).1.map bytes).flatten ++ bytes (group begun lines).2
      = bytes (begun ++ lines) := by
  induction lines generalizing begun with
  | nil =>
    rw [List.append_nil]
    rfl
  | cons line lines ih =>
    rw [group, List.append_cons begun line lines]
    by_cases hblank : Blank line
    · rw [if_pos hblank, List.map_cons, List.flatten_cons, List.append_assoc, ih,
        List.nil_append, ← bytes_append]
    · rw [if_neg hblank, ih]

theorem flatten_frameChunks (stream : List Byte) :
    (frameChunks stream).flatten = stream := by
  unfold frameChunks frames unfinished
  rw [List.flatten_append, List.flatten_singleton, ← List.append_assoc, bytes_group,
    List.nil_append, bytes_pieces]

theorem trackStream_one_of_fails {stream : List Byte} {s : List (List Byte) × Usage}
    (h : handleAll (handleLine R) ([], usage) (pieces [LF] stream) = (s, some ())) :
    (trackStream R usage [stream]).1 = [] := by
  obtain ⟨r, hdrain⟩ := drain_of_handleAll_fails newline_ne_nil h
  unfold trackStream
  rw [trackFrom, feed]
  dsimp only
  rw [List.nil_append, hdrain]

end Lines

/-- **Exactly when accounting does not disturb a stream.** -/
theorem accounting_iff (R : Runtime) (usage : Usage) (stream : List Byte)
    (hsize : ∀ f ∈ frames stream, (bytes f).length ≤ limit) :
    (∀ chunks : List (List Byte), chunks.flatten = stream →
        (trackStream R usage chunks).1 = chunks ∧ (trackStream R usage chunks).2
            = (trackStream R usage (frameChunks stream)).2)
      ↔ ∀ f ∈ frames stream, ¬ Raises R f := by
  constructor
  · intro h
    rcases hhandle : handleAll (handleLine R) (dataOf [], usage) (pieces [LF] stream)
      with ⟨s, _ | _⟩
    · exact not_raises_of_handleAll hhandle
    · have hone := (h [stream] List.flatten_singleton).1
      rw [trackStream_one_of_fails hhandle] at hone
      cases hone
  · intro hraises
    have htrack : ∀ chunks : List (List Byte), chunks.flatten = stream →
        trackStream R usage chunks = (chunks, accounted R usage (frames stream)) := by
      rintro chunks rfl
      exact trackFrom_of_sync chunks List.not_mem_nil hsize hraises
    intro chunks hflat
    rw [htrack chunks hflat, htrack _ (flatten_frameChunks stream)]
    exact ⟨rfl, rfl⟩

/-! ## An infinite count -/

/-- An event that reports `1e999` prompt tokens. -/
def infiniteData : List Byte :=
  ascii ['{', '"', 'u', 's', 'a', 'g', 'e', '"', ':', '{', '"', 'p', 'r', 'o', 'm', 'p',
    't', '_', 't', 'o', 'k', 'e', 'n', 's', '"', ':', '1', 'e', '9', '9', '9', '}', '}']

/-- Numbers are integers or infinite. No JSON but the event above is known. -/
def infiniteRuntime : Runtime where
  Number := Option ℤ
  loads := fun data =>
    if data = infiniteData then
      .ok (.object [(usageKey, .object [(promptKey, .number none)])])
    else .error .invalid
  dumps := fun _ => .error .other
  int
    | .number (some n) => .ok n
    | .number none => .error .other
    | _ => .error .invalid

/-- `int` of an infinite count raises `OverflowError`, and the chunk is lost. -/
theorem infinite_count_stops_stream :
    (trackStream infiniteRuntime {} [dataField ++ infiniteData ++ [LF, LF]]).1
      ≠ [dataField ++ infiniteData ++ [LF, LF]] := by
  decide +kernel

/-- A frame whose data is no JSON. -/
theorem invalid_event_passed_on :
    (∀ f ∈ frames (dataField ++ [LF, LF]), (bytes f).length ≤ limit)
      ∧ ((∀ chunks : List (List Byte), chunks.flatten = dataField ++ [LF, LF] →
          (trackStream infiniteRuntime {} chunks).1 = chunks
            ∧ (trackStream infiniteRuntime {} chunks).2
              = (trackStream infiniteRuntime {}
                (frameChunks (dataField ++ [LF, LF]))).2)
        ↔ ∀ f ∈ frames (dataField ++ [LF, LF]), ¬ Raises infiniteRuntime f) :=
  have hsize : ∀ f ∈ frames (dataField ++ [LF, LF]), (bytes f).length ≤ limit := by
    decide +kernel
  ⟨hsize, accounting_iff infiniteRuntime {} (dataField ++ [LF, LF]) hsize⟩

end StreamAccounting
