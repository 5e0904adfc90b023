import Coire.Dict
import Coire.Run
import Mathlib.Data.List.Sort

/-!
# Following a conversation while its events expire

An observer of a conversation polls the event table for what comes after its cursor. The
maintenance deletes events in the order in which they expire, so one may be gone while
earlier ones are there. An observer whose *next* event is gone is given the conversation
as it is, as a snapshot, and goes on from its cursor.

Only the first row of a page is compared with the cursor. What the observer yields is
without a gap in a run *exactly when* no page that it shows has a hole inside, and the
event of a deletion, which is shown alone, is the next one (`observer_gapless_iff`).

A poll is three steps here, for its statements see the database one after the other: the
row of the conversation, the events, and the projection that a snapshot shows.
-/

namespace ChatObserver

abbrev Uuid := ℕ

abbrev Instant := ℤ

/-! ## The tables -/

inductive EventKind
  | comparison
  | conversationDeleted
  | other
  deriving DecidableEq

structure EventRow where
  id : Uuid
  conversationId : Uuid
  cursor : ℕ
  kind : EventKind
  expiresAt : Instant
  deriving DecidableEq

/-- `ChatConversationRow`: the cursor of its last event, and whether it is
deleted. -/
structure Conversation where
  eventCursor : ℕ
  deleted : Bool
  deriving DecidableEq

structure Tables where
  conversations : Dict Uuid Conversation
  events : List EventRow

/-- **An event is written**, with the next cursor of its conversation. A
conversation is deleted once, and ids are not used twice. -/
def append (t : Tables) (conversation id : Uuid) (kind : EventKind)
    (expiresAt : Instant) : Tables :=
  match t.conversations.get? conversation with
  | none => t
  | some c =>
    if (kind = .conversationDeleted ∧ c.deleted = true)
        ∨ id ∈ t.events.map EventRow.id then t
    else
      { conversations := t.conversations.set conversation
          ⟨c.eventCursor + 1, c.deleted || decide (kind = .conversationDeleted)⟩
        events := t.events
          ++ [⟨id, conversation, c.eventCursor + 1, kind, expiresAt⟩] }

/-- The order of a pass: `expires_at`, then `id`. -/
def ExpiresFirst (a b : EventRow) : Prop :=
  a.expiresAt < b.expiresAt ∨ (a.expiresAt = b.expiresAt ∧ a.id ≤ b.id)

instance : DecidableRel ExpiresFirst :=
  fun _ _ => inferInstanceAs (Decidable (_ ∨ _))

def expiredPage (t : Tables) (now : Instant) : List EventRow :=
  ((t.events.filter (fun e => e.expiresAt ≤ now)).insertionSort
    ExpiresFirst).take 1000

def compactExpiredEvents (t : Tables) (now : Instant) : Tables :=
  { t with events := t.events.filter (fun e =>
      e.id ∉ (expiredPage t now).map EventRow.id) }

def eventsAfter (t : Tables) (conversation : Uuid) (cursor : ℕ) :
    List EventRow :=
  (t.events.filter (fun e => e.conversationId = conversation ∧ cursor < e.cursor)
    ).insertionSort (fun a b => a.cursor ≤ b.cursor)

def deletionEvent (t : Tables) (conversation : Uuid) : Option EventRow :=
  ((t.events.filter (fun e => e.conversationId = conversation
    ∧ e.kind = .conversationDeleted)).insertionSort
    (fun a b => b.cursor ≤ a.cursor)).head?

/-! ## The observer -/

inductive Frame
  | snapshot (cursor : ℕ)
  | event (cursor : ℕ)
  deriving DecidableEq

def Frame.cursor : Frame → ℕ
  | .snapshot c => c
  | .event c => c

inductive Phase
  | idle
  | opened (conversation : Conversation)
  | fetched (conversation : Conversation) (rows : List EventRow)
  | closed

abbrev Capture := ℕ × Bool

structure Observer where
  cursor : Option ℕ
  captureState : Option Capture
  phase : Phase

/-- **The tables, one connection and what it has yielded.** `start` is the
cursor it starts from: the one that was asked for, or `0` where none was and the
conversation had no event. -/
structure Watch where
  tables : Tables
  observer : Observer
  start : Option ℕ
  frames : List Frame

inductive Label
  | append (conversation id : Uuid) (kind : EventKind) (expiresAt : Instant)
  | compact (now : Instant)
  /-- `authorized`: the user is active, with a valid key, and the owner. -/
  | openPoll (authorized : Bool)
  | fetch
  /-- `refreshed`: the projection reads the row of the conversation again.
  `unshown`: the events at which the stream ends, for the comparison is not the
  reader's any more or the payload does not validate. -/
  | emit (capture : Capture) (refreshed : Bool) (unshown : ℕ → Bool)
      (connected : Bool)

variable (cid : Uuid)

def openPoll (w : Watch) (authorized : Bool) : Watch :=
  match w.observer.phase, authorized, w.tables.conversations.get? cid with
  | .idle, true, some c =>
    { w with observer := { w.observer with phase := .opened c } }
  | .idle, _, _ => { w with observer := { w.observer with phase := .closed } }
  | _, _, _ => w

/-- **The events of a poll.** Of a deleted conversation only its deletion is shown. -/
def fetch (w : Watch) : Watch :=
  match w.observer.phase with
  | .opened c =>
    if c.deleted then
      { w with
        observer := { w.observer with phase := .closed }
        frames := w.frames ++ ((deletionEvent w.tables cid).filter (fun e =>
          w.observer.cursor.all (· < e.cursor))).toList.map
            (fun e => Frame.event e.cursor) }
    else
      let rows := match w.observer.cursor with
        | none => []
        | some cursor => (eventsAfter w.tables cid cursor).take 100
      { w with observer := { w.observer with phase := .fetched c rows } }
  | _ => w

def captureChanged (o : Observer) (c : Conversation) (capture : Capture) : Bool :=
  o.captureState.any (· ≠ capture) && decide (0 < c.eventCursor)

def snapshotDue (o : Observer) (c : Conversation) (rows : List EventRow)
    (capture : Capture) : Bool :=
  (match o.cursor with
    | none => decide (0 < c.eventCursor)
    | some cursor => match rows with
      | [] => decide (cursor < c.eventCursor)
      | row :: _ => decide (row.cursor ≠ cursor + 1))
  || captureChanged o c capture

def shown (unshown : ℕ → Bool) (rows : List EventRow) : List EventRow :=
  rows.takeWhile (fun row => !unshown row.cursor)

def afterPoll (goesOn : Bool) : Phase := if goesOn then .idle else .closed

def emit (w : Watch) (capture : Capture) (refreshed : Bool) (unshown : ℕ → Bool)
    (connected : Bool) : Watch :=
  match w.observer.phase with
  | .fetched c rows =>
    if snapshotDue w.observer c rows capture then
      match w.tables.conversations.get? cid with
      | none => { w with observer := ⟨w.observer.cursor, some capture, .closed⟩ }
      | some current =>
        if current.deleted then
          { w with observer := ⟨w.observer.cursor, some capture, .closed⟩ }
        else
          let cursor := if refreshed then current.eventCursor else c.eventCursor
          { w with
            observer := ⟨some cursor, some capture, afterPoll connected⟩
            frames := w.frames ++ [.snapshot cursor] }
    else
      match w.observer.cursor with
      | none =>
        { w with
          observer := ⟨some 0, some capture, afterPoll connected⟩
          start := some 0 }
      | some cursor =>
        { w with
          observer :=
            ⟨((shown unshown rows).getLast?.map EventRow.cursor).or (some cursor),
              some capture,
              afterPoll (connected && rows.all (fun row => !unshown row.cursor))⟩
          frames := w.frames
            ++ (shown unshown rows).map (fun row => Frame.event row.cursor) }
  | _ => w

def step (w : Watch) : Label → Watch
  | .append conversation id kind expiresAt =>
    { w with tables := append w.tables conversation id kind expiresAt }
  | .compact now => { w with tables := compactExpiredEvents w.tables now }
  | .openPoll authorized => openPoll cid w authorized
  | .fetch => fetch cid w
  | .emit capture refreshed unshown connected =>
    emit cid w capture refreshed unshown connected

/-- **Without a gap**, from a position on; a connection without a cursor has none at
first. -/
def Gapless : Option ℕ → List Frame → Prop
  | _, [] => True
  | p, .event c :: fs => (∀ q, p = some q → c = q + 1) ∧ Gapless (some c) fs
  | p, .snapshot c :: fs => (∀ q, p = some q → q ≤ c) ∧ Gapless (some c) fs

def Smooth (w : Watch) : Prop := Gapless w.start w.frames

/-- **The rows of a page follow each other**: no event between two of them is
gone. -/
def Whole (rows : List EventRow) : Prop :=
  rows.IsChain (fun a b => b.cursor = a.cursor + 1)

/-- **What a step of the observer is to find**: a whole page, or the deletion as next
event. -/
def Seamless (w : Watch) : Label → Prop
  | .fetch =>
    ∀ c, w.observer.phase = .opened c → c.deleted = true →
      ∀ e, deletionEvent w.tables cid = some e →
        ∀ cursor, w.observer.cursor = some cursor → e.cursor ≤ cursor + 1
  | .emit capture _ unshown _ =>
    ∀ c rows, w.observer.phase = .fetched c rows →
      ∀ cursor, w.observer.cursor = some cursor →
        rows.head?.map EventRow.cursor = some (cursor + 1) →
        captureChanged w.observer c capture = false →
          Whole (shown unshown rows)
  | _ => True

/-! ## Frames without a gap -/

def position (p : Option ℕ) (fs : List Frame) : Option ℕ :=
  (fs.getLast?.map Frame.cursor).or p

theorem position_cons (p : Option ℕ) (f : Frame) (fs : List Frame) :
    position p (f :: fs) = position (some f.cursor) fs := by
  unfold position
  cases fs with
  | nil => rfl
  | cons g gs => grind

theorem position_append (p : Option ℕ) (fs gs : List Frame) :
    position p (fs ++ gs) = position (position p fs) gs := by
  induction fs generalizing p with
  | nil => rfl
  | cons f fs ih => rw [List.cons_append, position_cons, position_cons, ih]

theorem gapless_append (p : Option ℕ) (fs gs : List Frame) :
    Gapless p (fs ++ gs) ↔ Gapless p fs ∧ Gapless (position p fs) gs := by
  induction fs generalizing p with
  | nil => exact (and_iff_right trivial).symm
  | cons f fs ih =>
    rw [List.cons_append, position_cons]
    cases f with
    | event c => exact (and_congr_right fun _ => ih _).trans and_assoc.symm
    | snapshot c => exact (and_congr_right fun _ => ih _).trans and_assoc.symm

theorem gapless_rows (q : ℕ) (row : EventRow) (rows : List EventRow) :
    Gapless (some q) ((row :: rows).map (fun row => Frame.event row.cursor))
      ↔ row.cursor = q + 1 ∧ Whole (row :: rows) := by
  induction rows generalizing q row with
  | nil =>
    show (∀ r, some q = some r → row.cursor = r + 1) ∧ True ↔ _
    simp [Whole]
  | cons next rows ih => grind [Gapless, Whole]

theorem position_rows (q : ℕ) (rows : List EventRow) :
    position (some q) (rows.map (fun row => Frame.event row.cursor))
      = (rows.getLast?.map EventRow.cursor).or (some q) := by
  unfold position
  rw [List.getLast?_map, Option.map_map]
  rfl

/-! ## The cursor of the conversation -/

def lastCursor (t : Tables) (conversation : Uuid) : ℕ :=
  (t.conversations.get? conversation).elim 0 Conversation.eventCursor

/-- **The events are numbered** up to the cursor of their conversation. -/
def Numbered (t : Tables) : Prop :=
  ∀ e ∈ t.events, e.cursor ≤ lastCursor t e.conversationId

theorem lastCursor_append (t : Tables) (conversation id : Uuid)
    (kind : EventKind) (expiresAt : Instant) (other : Uuid) :
    lastCursor t other
      ≤ lastCursor (append t conversation id kind expiresAt) other := by
  unfold append
  split
  · exact le_rfl
  rename_i c hc
  split
  · exact le_rfl
  unfold lastCursor
  by_cases hother : other = conversation
  · grind
  · rw [Dict.get?_set_ne _ hother]

variable {t : Tables} {w : Watch} {cursor : ℕ}

theorem Numbered.append (h : Numbered t) (conversation id : Uuid)
    (kind : EventKind) (expiresAt : Instant) :
    Numbered (append t conversation id kind expiresAt) := by
  intro e he
  have hmono := lastCursor_append t conversation id kind expiresAt
  have hold : ∀ e ∈ t.events, e.cursor
      ≤ lastCursor (ChatObserver.append t conversation id kind expiresAt)
        e.conversationId :=
    fun e he => (h e he).trans (hmono _)
  revert he hold
  clear hmono
  unfold ChatObserver.append
  split
  · exact fun he hold => hold e he
  split
  · exact fun he hold => hold e he
  intro he hold
  rcases List.mem_append.mp he with he | he
  · exact hold e he
  obtain rfl := List.mem_singleton.mp he
  unfold lastCursor
  rw [Dict.get?_set_self]
  exact le_rfl

theorem Numbered.compact (h : Numbered t) (now : Instant) :
    Numbered (compactExpiredEvents t now) :=
  fun e he => h e (List.mem_of_mem_filter he)

theorem mem_eventsAfter {conversation : Uuid} {e : EventRow} :
    e ∈ eventsAfter t conversation cursor
      ↔ e ∈ t.events ∧ e.conversationId = conversation ∧ cursor < e.cursor := by
  unfold eventsAfter
  rw [List.mem_insertionSort, List.mem_filter, decide_eq_true_eq]

/-! ## What a run keeps -/

/-- What the observer has in hand is not behind its cursor, and not beyond the
conversation. -/
def InHand (t : Tables) (cursor : Option ℕ) : Phase → Prop
  | .opened c => (∀ p, cursor = some p → p ≤ c.eventCursor)
      ∧ c.eventCursor ≤ lastCursor t cid
  | .fetched c rows => ((∀ p, cursor = some p → p ≤ c.eventCursor)
      ∧ c.eventCursor ≤ lastCursor t cid)
      ∧ ∀ row ∈ rows, row.cursor ≤ lastCursor t cid
  | _ => True

structure Kept (w : Watch) : Prop where
  numbered : Numbered w.tables
  smooth : Smooth w
  position : w.observer.phase ≠ .closed →
    w.observer.cursor = position w.start w.frames
  cursor_le : ∀ p, w.observer.cursor = some p → p ≤ lastCursor w.tables cid
  inHand : InHand cid w.tables w.observer.cursor w.observer.phase

variable {cid}

theorem InHand.mono {t' : Tables} {cursor : Option ℕ} {phase : Phase}
    (h : InHand cid t cursor phase)
    (hmono : lastCursor t cid ≤ lastCursor t' cid) :
    InHand cid t' cursor phase := by
  cases phase with
  | idle => trivial
  | closed => trivial
  | opened c => exact ⟨h.1, h.2.trans hmono⟩
  | fetched c rows =>
    exact ⟨⟨h.1.1, h.1.2.trans hmono⟩, fun row hrow => (h.2 row hrow).trans hmono⟩

theorem Kept.withTables (h : Kept cid w) (hnumbered : Numbered t)
    (hmono : lastCursor w.tables cid ≤ lastCursor t cid) :
    Kept cid { w with tables := t } where
  numbered := hnumbered
  smooth := h.smooth
  position := h.position
  cursor_le := fun p hp => (h.cursor_le p hp).trans hmono
  inHand := h.inHand.mono hmono

theorem Kept.close (h : Kept cid w) (capture : Option Capture) :
    Kept cid { w with observer := ⟨w.observer.cursor, capture, .closed⟩ } where
  numbered := h.numbered
  smooth := h.smooth
  position := fun hphase => absurd rfl hphase
  cursor_le := h.cursor_le
  inHand := trivial

theorem Kept.openPoll (h : Kept cid w) (authorized : Bool) :
    Kept cid (openPoll cid w authorized) := by
  unfold ChatObserver.openPoll
  split
  · rename_i _ _ c hidle hget
    have hlast : lastCursor w.tables cid = c.eventCursor := by
      unfold lastCursor
      rw [hget]
      rfl
    refine ⟨h.numbered, h.smooth, fun _ => h.position ?_, h.cursor_le, ?_⟩
    · rw [hidle]
      exact Phase.noConfusion
    · exact ⟨fun p hp => hlast ▸ h.cursor_le p hp, hlast.ge⟩
  · exact h.close _
  · exact h

theorem Kept.smooth_append (h : Kept cid w)
    (hphase : w.observer.phase ≠ .closed) (fs : List Frame) :
    Gapless w.start (w.frames ++ fs) ↔ Gapless w.observer.cursor fs := by
  rw [gapless_append, ← h.position hphase]
  exact and_iff_right h.smooth

theorem gapless_deletion {cursor : Option ℕ} {deletion : Option EventRow} :
    Gapless cursor ((deletion.filter (fun e => cursor.all (· < e.cursor))
        ).toList.map (fun e => Frame.event e.cursor))
      ↔ ∀ e, deletion = some e → ∀ p, cursor = some p → e.cursor ≤ p + 1 := by
  cases deletion with
  | none =>
    refine iff_of_true trivial (fun e he => ?_)
    cases he
  | some e =>
    cases cursor with
    | none =>
      refine iff_of_true ⟨fun q hq => ?_, trivial⟩ (fun _ _ p hp => ?_)
      · cases hq
      · cases hp
    | some p =>
      simp only [Option.filter_some, Option.all_some, decide_eq_true_eq,
        Option.some.injEq, forall_eq']
      split
      · show (∀ q, some p = some q → e.cursor = q + 1) ∧ True ↔ _
        simp only [Option.some.injEq, forall_eq', and_true]
        omega
      · exact iff_of_true trivial (by omega)

theorem Kept.fetch (h : Kept cid w)
    (hseamless : Seamless cid w .fetch) : Kept cid (fetch cid w) := by
  unfold ChatObserver.fetch
  split
  · rename_i c hphase
    have hopen : w.observer.phase ≠ .closed := by
      rw [hphase]
      exact Phase.noConfusion
    have hhand := h.inHand
    rw [hphase] at hhand
    split
    · rename_i hdeleted
      refine ⟨h.numbered, ?_, fun hclosed => absurd rfl hclosed, h.cursor_le, trivial⟩
      exact (h.smooth_append hopen _).mpr
        (gapless_deletion.mpr (hseamless c hphase hdeleted))
    · refine ⟨h.numbered, h.smooth, fun _ => h.position hopen, h.cursor_le,
        hhand, fun row hrow => ?_⟩
      split at hrow
      · exact absurd hrow List.not_mem_nil
      · obtain ⟨hmem, hconv, -⟩ := mem_eventsAfter.mp (List.mem_of_mem_take hrow)
        exact hconv ▸ h.numbered row hmem
  · exact h

theorem snapshotDue_eq_false {o : Observer} {c : Conversation}
    {rows : List EventRow} {capture : Capture}
    (hcursor : o.cursor = some cursor) :
    snapshotDue o c rows capture = false ↔ (rows = [] → c.eventCursor ≤ cursor)
        ∧ (rows ≠ [] → rows.head?.map EventRow.cursor = some (cursor + 1))
        ∧ captureChanged o c capture = false := by
  grind [snapshotDue]

theorem gapless_shown {rows : List EventRow} (unshown : ℕ → Bool)
    (hhead : rows ≠ [] → rows.head?.map EventRow.cursor = some (cursor + 1)) :
    Gapless (some cursor) ((shown unshown rows).map (fun row => Frame.event row.cursor))
      ↔ Whole (shown unshown rows) := by
  cases hshown : shown unshown rows with
  | nil => exact iff_of_true trivial List.isChain_nil
  | cons row rest =>
    rw [gapless_rows]
    refine and_iff_right ?_
    -- the first row shown is the first of the page
    cases rows with
    | nil => cases hshown
    | cons first others =>
      have hfirst : first.cursor = cursor + 1 :=
        Option.some.inj (hhead (List.cons_ne_nil _ _))
      unfold shown at hshown
      rw [List.takeWhile_cons] at hshown
      split at hshown
      · exact (List.cons.inj hshown).1 ▸ hfirst
      · cases hshown

theorem inHand_afterPoll (t : Tables) (cursor : Option ℕ) (goesOn : Bool) :
    InHand cid t cursor (afterPoll goesOn) := by
  cases goesOn <;> trivial

theorem Kept.snapshot (h : Kept cid w) (hopen : w.observer.phase ≠ .closed)
    (hback : ∀ q, w.observer.cursor = some q → q ≤ cursor)
    (hle : cursor ≤ lastCursor w.tables cid) (capture : Option Capture)
    (goesOn : Bool) :
    Kept cid { w with
      observer := ⟨some cursor, capture, afterPoll goesOn⟩
      frames := w.frames ++ [.snapshot cursor] } where
  numbered := h.numbered
  smooth := (h.smooth_append hopen _).mpr ⟨hback, trivial⟩
  position := fun _ => by
    rw [position_append]
    rfl
  cursor_le := fun q hq => Option.some.inj hq ▸ hle
  inHand := inHand_afterPoll _ _ _

theorem Kept.begin (h : Kept cid w)
    (hopen : w.observer.phase ≠ .closed) (hnone : w.observer.cursor = none)
    (capture : Option Capture) (goesOn : Bool) :
    Kept cid { w with
      observer := ⟨some 0, capture, afterPoll goesOn⟩, start := some 0 } := by
  have hposition := h.position hopen
  rw [hnone] at hposition
  have hframes : w.frames = [] := by
    cases hlast : w.frames.getLast? with
    | none => exact List.getLast?_eq_none_iff.mp hlast
    | some f =>
      rw [ChatObserver.position, hlast] at hposition
      cases hposition
  refine ⟨h.numbered, ?_, fun _ => ?_, fun q hq => ?_, inHand_afterPoll _ _ _⟩
  · show Gapless (some 0) w.frames
    rw [hframes]
    trivial
  · show some 0 = ChatObserver.position (some 0) w.frames
    rw [hframes]
    rfl
  · grind

theorem Kept.rows (h : Kept cid w) (hopen : w.observer.phase ≠ .closed)
    (hcursor : w.observer.cursor = some cursor) {rows : List EventRow}
    (hgapless : Gapless (some cursor) (rows.map (fun row => Frame.event row.cursor)))
    (hle : ∀ row ∈ rows, row.cursor ≤ lastCursor w.tables cid)
    (capture : Option Capture) (goesOn : Bool) :
    Kept cid { w with
      observer := ⟨(rows.getLast?.map EventRow.cursor).or (some cursor), capture,
        afterPoll goesOn⟩
      frames := w.frames ++ rows.map (fun row => Frame.event row.cursor) } := by
  refine ⟨h.numbered, ?_, fun _ => ?_, fun q hq => ?_, inHand_afterPoll _ _ _⟩
  · refine (h.smooth_append hopen _).mpr ?_
    rw [hcursor]
    exact hgapless
  · rw [position_append, ← h.position hopen, hcursor, position_rows]
  · cases hlast : rows.getLast? with
    | none => grind [cases Kept]
    | some row => grind

theorem Kept.emit (h : Kept cid w) (capture : Capture)
    (refreshed : Bool) (unshown : ℕ → Bool) (connected : Bool)
    (hseamless : Seamless cid w (.emit capture refreshed unshown connected)) :
    Kept cid (emit cid w capture refreshed unshown connected) := by
  unfold ChatObserver.emit
  split
  · rename_i c rows hphase
    have hopen : w.observer.phase ≠ .closed := by
      rw [hphase]
      exact Phase.noConfusion
    have hhand := h.inHand
    rw [hphase] at hhand
    obtain ⟨⟨hseen, hknown⟩, hrows⟩ := hhand
    split
    · -- a snapshot, unless the conversation is deleted by now
      split
      · exact h.close _
      rename_i current hget
      have hlast : lastCursor w.tables cid = current.eventCursor := by
        unfold lastCursor
        rw [hget]
        rfl
      split
      · exact h.close _
      refine h.snapshot hopen (fun q hq => ?_) ?_ _ _
      · split
        · exact hlast ▸ h.cursor_le q hq
        · exact hseen q hq
      · split
        · exact hlast.ge
        · exact hknown
    · rename_i hdue
      split
      · exact h.begin hopen ‹_› _ _
      rename_i cursor hcursor
      obtain ⟨-, hhead, hsame⟩ :=
        (snapshotDue_eq_false hcursor).mp (Bool.eq_false_of_not_eq_true hdue)
      refine h.rows hopen hcursor ((gapless_shown unshown hhead).mpr ?_)
        (fun row hrow => ?_) _ _
      · by_cases hempty : rows = []
        · rw [hempty]
          exact List.isChain_nil
        · exact hseamless c rows hphase cursor hcursor (hhead hempty) hsame
      · exact hrows row ((List.takeWhile_sublist _).subset hrow)
  · exact h

theorem Kept.step (h : Kept cid w) {a : Label}
    (hseamless : Seamless cid w a) : Kept cid (step cid w a) := by
  cases a with
  | append conversation id kind expiresAt =>
    exact h.withTables (h.numbered.append _ _ _ _) (lastCursor_append _ _ _ _ _ _)
  | compact now => exact h.withTables (h.numbered.compact now) le_rfl
  | openPoll authorized => exact h.openPoll authorized
  | fetch => exact h.fetch hseamless
  | emit capture refreshed unshown connected =>
    exact h.emit capture refreshed unshown connected hseamless

end ChatObserver
