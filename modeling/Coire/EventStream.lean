import Mathlib.Algebra.GroupWithZero.Nat
import Coire.Gather

/-!
# The events the browser reads

`SseParser` of the web client: the text of an event stream comes in pieces, and each
frame is made as soon as it is complete. The parser takes one character at a time. It
keeps the line it is in, the fields of the block it is in, and whether the last
character was a carriage return, whose line feed may come with the next piece; a line or
the data of a block that exceed the limit make it throw.

What it makes of a stream is said without any of that: a text has lines, its lines have
blocks, and a block with data is a frame (`framesOf`). The parser agrees
(`stream_frames`), since it gathers lines within the gathering of blocks.

A text is a list of characters here: what `TextDecoder` makes of the bytes.
-/

namespace EventStream

open Gather

abbrev Text := List Char

structure SseFrame where
  id : Option Text
  event : Option Text
  data : Text
  deriving DecidableEq

structure SseParser where
  line : Text := []
  data : List Text := []
  id : Option Text := none
  event : Option Text := none
  afterCr : Bool := false
  deriving DecidableEq

def limit : ℕ := 2 * 1024 * 1024

/-- The `length` of a string counts UTF-16 code units. -/
def units (text : Text) : ℕ :=
  (text.map fun c => if c.toNat < 0x10000 then 1 else 2).sum

/-- `data.join("\n")`. -/
def join : List Text → Text
  | [] => []
  | [x] => x
  | x :: xs => x ++ '\n' :: join xs

/-- What a line has before its first colon, and behind it without a leading blank. -/
def field (line : Text) : Text × Text :=
  (line.takeWhile (· ≠ ':'),
    match (line.dropWhile (· ≠ ':')).tail with
    | ' ' :: value => value
    | raw => raw)

def dataField : Text := ['d', 'a', 't', 'a']

def idField : Text := ['i', 'd']

def eventField : Text := ['e', 'v', 'e', 'n', 't']

abbrev Result := Except String (SseParser × List SseFrame)

/-- `consumeLine`, which pushes to `frames`. -/
def consumeLine (p : SseParser) (frames : List SseFrame) : Result :=
  let line := p.line
  let p := { p with line := [] }
  let (name, value) := field line
  if line = [] then
    .ok ({ p with data := [], id := none, event := none },
      if p.data ≠ [] then frames ++ [⟨p.id, p.event, join p.data⟩] else frames)
  else if line.head? = some ':' then .ok (p, frames)
  else if name = dataField then
    let data := p.data ++ [value]
    if units (join data) > limit then .error "stream event exceeds limit"
    else .ok ({ p with data }, frames)
  else if name = idField ∧ '\x00' ∉ value then .ok ({ p with id := some value }, frames)
  else if name = eventField then .ok ({ p with event := some value }, frames)
  else .ok (p, frames)

/-- The body of the loop of `accept`. -/
def acceptChar (s : SseParser × List SseFrame) (char : Char) : Result :=
  let skip := s.1.afterCr ∧ char = '\n'
  let p := { s.1 with afterCr := false }
  if skip then .ok (p, s.2)
  else if char = '\r' ∨ char = '\n' then
    (consumeLine p s.2).map fun s => ({ s.1 with afterCr := char = '\r' }, s.2)
  else
    let line := p.line ++ [char]
    if units line > limit then .error "stream frame exceeds limit"
    else .ok ({ p with line }, s.2)

/-- `accept`, whose frames are added to those delivered before. -/
def accept (s : SseParser × List SseFrame) (text : Text) : Result :=
  text.foldlM acceptChar s

/-- `readEventStream`: the frames that `onFrame` is called with, for the texts that
`push` and `finish` decode. -/
def readEventStream (texts : List Text) : Except String (List SseFrame) :=
  (texts.foldlM accept ({}, [])).map Prod.snd

/-! ## The grammar -/

/-- A line ends with a carriage return, a line feed or both. -/
def normalize : Text → Text
  | '\r' :: '\n' :: text => '\n' :: normalize text
  | '\r' :: text => '\n' :: normalize text
  | c :: text => c :: normalize text
  | [] => []

/-- The lines of a text; the last one has not ended. -/
def linesOf (text : Text) : List Text := (normalize text).splitOn '\n'

/-- Its blocks, between blank lines; the last one has not ended. -/
def blocksOf (text : Text) : List (List Text) := (linesOf text).dropLast.splitOn []

def values (name : Text) (block : List Text) : List Text :=
  block.filterMap fun line =>
    if (field line).1 = name then some (field line).2 else none

def idOf (block : List Text) : Option Text :=
  ((values idField block).filter ('\x00' ∉ ·)).getLast?

def eventOf (block : List Text) : Option Text := (values eventField block).getLast?

/-- The frame of a block, if there are data in it. -/
def frameOf (block : List Text) : Option SseFrame :=
  if values dataField block = [] then none
  else some ⟨idOf block, eventOf block, join (values dataField block)⟩

def framesOf (text : Text) : List SseFrame := (blocksOf text).dropLast.filterMap frameOf

def fitsLine (line : Text) : Bool := units line ≤ limit

def fitsBlock (block : List Text) : Bool :=
  units (join (values dataField block)) ≤ limit

def fits (text : Text) : Bool :=
  (linesOf text).all fitsLine && (blocksOf text).all fitsBlock

/-! ## Within a block -/

variable {line : Text} {block : List Text} {frames : List SseFrame} {c : Char}

theorem units_append (x y : Text) : units (x ++ y) = units x + units y := by
  simp [units]

theorem units_join_le (ys : List Text) : ∀ xs : List Text,
    units (join xs) ≤ units (join (xs ++ ys))
  | [] => Nat.zero_le _
  | [x] => by cases ys <;> simp [join, units_append]
  | x :: y :: xs => by
    have hcons (z : Text) : units ('\n' :: z) = 1 + units z := by simp [units]
    have ih := units_join_le ys (y :: xs)
    simp only [List.cons_append, join, units_append, hcons] at ih ⊢
    omega

theorem values_snoc (name : Text) (block : List Text) (line : Text) :
    values name (block ++ [line]) = values name block
      ++ if (field line).1 = name then [(field line).2] else [] := by
  unfold values
  rw [List.filterMap_append]
  split <;> simp_all

theorem idOf_snoc (block : List Text) (line : Text) : idOf (block ++ [line]) =
    if (field line).1 = idField ∧ '\x00' ∉ (field line).2 then some (field line).2
    else idOf block := by
  unfold idOf
  rw [values_snoc]
  by_cases hi : (field line).1 = idField
  · by_cases hz : '\x00' ∈ (field line).2 <;> simp [hi, hz, List.filter_append]
  · simp [hi]

theorem eventOf_snoc (block : List Text) (line : Text) : eventOf (block ++ [line]) =
    if (field line).1 = eventField then some (field line).2 else eventOf block := by
  unfold eventOf
  rw [values_snoc]
  split <;> simp

theorem fitsLine_of_append (x y : Text) (h : fitsLine (x ++ y)) : fitsLine x := by
  simp only [fitsLine, decide_eq_true_eq, units_append] at h ⊢
  omega

theorem fitsBlock_of_append (x y : List Text) (h : fitsBlock (x ++ y)) :
    fitsBlock x := by
  simp only [fitsBlock, values, List.filterMap_append] at h ⊢
  exact decide_eq_true (Nat.le_trans (units_join_le _ _) (of_decide_eq_true h))

/-- **The parser within a block**: what it holds is of the lines so far. -/
def parserAt (line : Text) (block : List Text) (afterCr : Bool) : SseParser :=
  ⟨line, values dataField block, idOf block, eventOf block, afterCr⟩

def dispatch (frames : List SseFrame) (block : List Text) : Option (List SseFrame) :=
  some (frames ++ (frameOf block).toList)

/-- **A line ends.** -/
def endLine : List Text × List SseFrame → Text → Option (List Text × List SseFrame) :=
  gather [] fitsBlock dispatch

theorem consumeLine_eq (h : fitsBlock block) (line : Text) (frames : List SseFrame) :
    (consumeLine (parserAt line block false) frames).toOption =
      (endLine (block, frames) line).map fun b => (parserAt [] b.1 false, b.2) := by
  by_cases hline : line = []
  · subst hline
    rw [endLine, gather_sep]
    by_cases hdata : values dataField block = [] <;>
      simp [consumeLine, parserAt, dispatch, frameOf, hdata, Except.toOption] <;>
      exact ⟨rfl, rfl, rfl⟩
  have hcomment : line.head? = some ':' → (field line).1 = [] := by
    cases line <;> simp [field, List.takeWhile_cons]
  rw [endLine, gather_of_ne hline]
  by_cases hd : (field line).1 = dataField
  · simp only [consumeLine, parserAt, hline, hd, fitsBlock]
    grind [Except.toOption, values_snoc, idOf_snoc, eventOf_snoc, dataField, idField,
      eventField]
  · have hfits : fitsBlock (block ++ [line]) := by
      simpa [fitsBlock, values_snoc, hd] using h
    rw [if_pos hfits, Option.map_some]
    simp only [consumeLine, parserAt, hline, hd, values_snoc, idOf_snoc, eventOf_snoc]
    grind [Except.toOption, dataField, idField, eventField]

/-! ## From character to character -/

theorem toOption_map {ε α β : Type} (f : α → β) (x : Except ε α) :
    (x.map f).toOption = x.toOption.map f := by
  cases x <;> rfl

theorem toOption_foldlM {α σ ε : Type} (f : σ → α → Except ε σ) :
    ∀ (xs : List α) (s : σ),
      (xs.foldlM f s).toOption = xs.foldlM (fun s x => (f s x).toOption) s
  | [], _ => rfl
  | x :: xs, s => by
    rw [List.foldlM_cons, List.foldlM_cons]
    cases f s x with
    | error e => rfl
    | ok s' => exact toOption_foldlM f xs s'

theorem acceptChar_end (h : fitsBlock block) (hc : c = '\r' ∨ c = '\n') :
    (acceptChar (parserAt line block false, frames) c).toOption =
      (endLine (block, frames) line).map
        fun b => (parserAt [] b.1 (c = '\r'), b.2) := by
  have hread : acceptChar (parserAt line block false, frames) c =
      (consumeLine (parserAt line block false) frames).map fun s =>
        ({ s.1 with afterCr := c = '\r' }, s.2) := by
    simp [acceptChar, parserAt, hc]
  rw [hread, toOption_map, consumeLine_eq h, Option.map_map]
  rfl

theorem acceptChar_other (hr : c ≠ '\r') (hn : c ≠ '\n') :
    (acceptChar (parserAt line block false, frames) c).toOption =
      if fitsLine (line ++ [c]) then some (parserAt (line ++ [c]) block false, frames)
      else none := by
  grind [acceptChar, parserAt, fitsLine, Except.toOption]

/-- The characters `rest` do to the parser what `text` does to the lines and blocks it
has gathered. -/
def Agrees (afterCr : Bool) (line rest text : Text) : Prop :=
  ∀ (block : List Text) (frames : List SseFrame), fitsBlock block →
    (rest.foldlM (fun s c => (acceptChar s c).toOption)
      (parserAt line block afterCr, frames)).map Prod.snd
    = ((text.foldlM (gather '\n' fitsLine endLine) (line, block, frames)).map
        Prod.snd).map Prod.snd

theorem agrees_end (hc : c = '\r' ∨ c = '\n') {rest text : Text}
    (h : Agrees (c = '\r') [] rest text) (line : Text) :
    Agrees false line (c :: rest) ('\n' :: text) := by
  intro block frames hfits
  rw [List.foldlM_cons, List.foldlM_cons, acceptChar_end hfits hc, gather_sep]
  cases hb : endLine (block, frames) line with
  | none => rfl
  | some b => exact h b.1 b.2 (fits_of_gather rfl hb)

theorem accept_agrees (text : Text) :
    ∀ line : Text, Agrees false line text (normalize text) := by
  fun_induction normalize text with
  | case1 text ih => exact agrees_end (.inl rfl) (ih [])
  | case2 text hne ih =>
    -- what follows a carriage return is no line feed here, so the flag is not looked at
    refine agrees_end (.inl rfl) fun block frames h =>
      Eq.trans ?_ (ih [] block frames h)
    cases text with
    | nil => rfl
    | cons c text =>
      have hc : c ≠ '\n' := fun h => hne text (h ▸ rfl)
      simp [List.foldlM_cons, acceptChar, parserAt, hc]
  | case3 c text _ hr ih =>
    intro line
    by_cases hn : c = '\n'
    · subst hn
      exact agrees_end (.inr rfl) (ih []) line
    · intro block frames h
      rw [List.foldlM_cons, List.foldlM_cons, gather_of_ne hn, acceptChar_other hr hn]
      by_cases hshort : fitsLine (line ++ [c])
      · simpa [hshort] using ih (line ++ [c]) block frames h
      · simp [hshort]
  | case4 => exact fun _ _ _ _ => rfl

theorem foldlM_dispatch (blocks : List (List Text)) : ∀ frames : List SseFrame,
    blocks.foldlM dispatch frames = some (frames ++ blocks.filterMap frameOf) := by
  induction blocks with
  | nil => simp
  | cons b bs ih =>
    intro frames
    rw [List.foldlM_cons]
    cases hb : frameOf b <;> simp [dispatch, hb, ih]

theorem accept_text (text : Text) : (accept ({}, []) text).toOption.map Prod.snd =
    if fits text then some (framesOf text) else none := by
  rw [accept, toOption_foldlM]
  refine (accept_agrees text [] [] [] rfl).trans ?_
  rw [gather_all fitsLine_of_append rfl, fits,
    show (normalize text).splitOn '\n' = linesOf text from rfl]
  cases (linesOf text).all fitsLine with
  | false => rfl
  | true =>
    rw [if_pos rfl, endLine, gather_all fitsBlock_of_append rfl, foldlM_dispatch,
      Bool.true_and]
    rfl

theorem readEventStream_flatten (texts : List Text) : (readEventStream texts).toOption =
    (accept ({}, []) texts.flatten).toOption.map Prod.snd := by
  have hflat (s : SseParser × List SseFrame) :
      texts.foldlM accept s = accept s texts.flatten := by
    induction texts generalizing s with
    | nil => rfl
    | cons text texts ih =>
      rw [accept, List.flatten_cons, List.foldlM_append, List.foldlM_cons]
      exact congrArg _ (funext ih)
  rw [readEventStream, toOption_map, hflat]

/-- **The frames of a stream are those of its text**, in whatever pieces it comes; it is
refused exactly where a line or the data of a block exceed the limit. -/
theorem stream_frames (texts : List Text) :
    (readEventStream texts).toOption =
      if fits texts.flatten then some (framesOf texts.flatten) else none := by
  rw [readEventStream_flatten, accept_text]

/-! ## What the API writes -/

/-- A `ChatEvent`, as the stream shows it: its `payload.type`, its `event_id` and its
JSON. -/
structure ChatEvent where
  type : Text
  eventId : Text
  json : Text

def fieldLine (name value : Text) : Text := name ++ [':', ' '] ++ value

def ChatEvent.lines (e : ChatEvent) : List Text :=
  [fieldLine eventField e.type, fieldLine idField e.eventId, fieldLine dataField e.json]

/-- `encode_event`. -/
def encodeEvent (e : ChatEvent) : Text := e.lines.flatMap (· ++ ['\n']) ++ ['\n']

/-- **The event can be sent**: each of its parts is on one line, and not too long. -/
structure ChatEvent.Sendable (e : ChatEvent) : Prop where
  plain : ∀ line ∈ e.lines, '\r' ∉ line ∧ '\n' ∉ line ∧ fitsLine line
  cursor : '\x00' ∉ e.eventId

theorem linesOf_append {line : Text} (hr : '\r' ∉ line) (hn : '\n' ∉ line)
    (text : Text) : linesOf (line ++ '\n' :: text) = line :: linesOf text := by
  have hnormal : ∀ {x : Text}, '\r' ∉ x → normalize (x ++ '\n' :: text) =
      x ++ '\n' :: normalize text := by
    intro x hx
    induction x with
    | nil => rfl
    | cons c x ih =>
      rw [List.mem_cons, not_or] at hx
      rw [List.cons_append, normalize, ih hx.2]
      · rfl
      · exact fun _ h _ => hx.1 h.symm
      · exact fun h => hx.1 h.symm
  rw [linesOf, hnormal hr, List.splitOn_append_cons_self_of_not_mem hn]
  rfl

theorem linesOf_encodeEvent {e : ChatEvent} (h : e.Sendable) (text : Text) :
    linesOf (encodeEvent e ++ text) = e.lines ++ [] :: linesOf text := by
  have hline (ls : List Text) (hls : ∀ l ∈ ls, l ∈ e.lines) (rest : Text) :
      linesOf (ls.flatMap (· ++ ['\n']) ++ rest) = ls ++ linesOf rest := by
    induction ls with
    | nil => rfl
    | cons l ls ih =>
      obtain ⟨hl, hrest⟩ := List.forall_mem_cons.mp hls
      obtain ⟨hr, hn, -⟩ := h.plain l hl
      simpa [linesOf_append hr hn] using ih hrest
  have hblank : linesOf ('\n' :: text) = [] :: linesOf text :=
    linesOf_append List.not_mem_nil List.not_mem_nil text
  rw [encodeEvent, List.append_assoc, hline _ fun _ => id]
  exact congrArg _ hblank

theorem blocksOf_encodeEvent {e : ChatEvent} (h : e.Sendable) (text : Text) :
    blocksOf (encodeEvent e ++ text) = e.lines :: blocksOf text := by
  have hne : linesOf text ≠ [] := List.splitOn_ne_nil _ _
  have hdrop : (e.lines ++ [] :: linesOf text).dropLast =
      e.lines ++ [] :: (linesOf text).dropLast := by
    rw [List.dropLast_append_of_ne_nil (List.cons_ne_nil _ _),
      List.dropLast_cons_of_ne_nil hne]
  have hfull : [] ∉ e.lines := by simp [ChatEvent.lines, fieldLine]
  rw [blocksOf, linesOf_encodeEvent h, hdrop,
    List.splitOn_append_cons_self_of_not_mem hfull]
  rfl

theorem values_lines (e : ChatEvent) : values dataField e.lines = [e.json]
    ∧ values idField e.lines = [e.eventId] ∧ values eventField e.lines = [e.type] :=
  ⟨rfl, rfl, rfl⟩

theorem frameOf_lines {e : ChatEvent} (h : e.Sendable) :
    frameOf e.lines = some ⟨some e.eventId, some e.type, e.json⟩ := by
  obtain ⟨hd, hi, he⟩ := values_lines e
  simp [frameOf, idOf, eventOf, hd, hi, he, h.cursor, join]

theorem fitsBlock_lines {e : ChatEvent} (h : e.Sendable) : fitsBlock e.lines := by
  have hfits := (h.plain (fieldLine dataField e.json) (by simp [ChatEvent.lines])).2.2
  rw [fitsBlock, (values_lines e).1]
  simp only [fitsLine, fieldLine, units_append, decide_eq_true_eq] at hfits ⊢
  exact Nat.le_trans (Nat.le_add_left _ _) hfits

theorem read_events (events : List ChatEvent) (h : ∀ e ∈ events, e.Sendable) :
    fits (events.flatMap encodeEvent)
    ∧ framesOf (events.flatMap encodeEvent) =
      events.map fun e => ⟨some e.eventId, some e.type, e.json⟩ := by
  induction events with
  | nil => exact ⟨rfl, rfl⟩
  | cons e events ih =>
    obtain ⟨he, hrest⟩ := List.forall_mem_cons.mp h
    obtain ⟨hfits, hframes⟩ := ih hrest
    have hne : blocksOf (events.flatMap encodeEvent) ≠ [] := List.splitOn_ne_nil _ _
    have hlines : e.lines.all fitsLine := List.all_eq_true.mpr fun l hl =>
      (he.plain l hl).2.2
    rw [fits, Bool.and_eq_true] at hfits
    rw [List.flatMap_cons, fits, framesOf, linesOf_encodeEvent he,
      blocksOf_encodeEvent he, List.dropLast_cons_of_ne_nil hne, List.filterMap_cons,
      frameOf_lines he, List.all_append, List.all_cons, List.all_cons, hlines, hfits.1,
      hfits.2, fitsBlock_lines he]
    exact ⟨rfl, congrArg _ hframes⟩

/-- **What the API sends is what the browser reads**: the events, in order and each
once, in whatever pieces their texts arrive. -/
theorem events_read_back (events : List ChatEvent) (h : ∀ e ∈ events, e.Sendable)
    (texts : List Text) (htexts : texts.flatten = events.flatMap encodeEvent) :
    (readEventStream texts).toOption =
      some (events.map fun e => ⟨some e.eventId, some e.type, e.json⟩) := by
  obtain ⟨hfits, hframes⟩ := read_events events h
  rw [readEventStream_flatten, htexts, accept_text, if_pos hfits, hframes]

/-- Two events, the first of which arrives in two pieces. -/
theorem events_read_back_cut :
    let e : ChatEvent := ⟨['a'], ['1'], ['x']⟩
    let frame : SseFrame := ⟨some ['1'], some ['a'], ['x']⟩
    (readEventStream [(encodeEvent e).take 3, (encodeEvent e).drop 3 ++ encodeEvent e]
      ).toOption = some [frame, frame] :=
  have hsend : (⟨['a'], ['1'], ['x']⟩ : ChatEvent).Sendable := ⟨by decide, by decide⟩
  events_read_back [_, _]
    (List.forall_mem_cons.mpr ⟨hsend, List.forall_mem_singleton.mpr hsend⟩) _ rfl

end EventStream
