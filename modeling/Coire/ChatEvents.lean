import Coire.ChatTurns
import Coire.Replay

/-!
# The chat event log is consistent

What a reader of the log relies on, in every interleaving of the writers: the cursors
of a conversation are `1, 2, …` up to its `event_cursor`; the turn that has not ended
is the active one; nothing follows the end of a turn, and only its end follows a
request to stop it; the pieces of text add up to the saved answer, each says where it
ends, and the end says how long the whole is (`event_log_consistent`).

All that is said of a single turn is one equation. `TurnView` is what a reader of a
turn's events has in hand, and `TurnView.next` takes the next event, or refuses it. In
every reachable state the events of a turn replay to what the turn's row and its answer
hold (`Shows`); a writer appends an event that the reader accepts (`Sound.log`).

The offset of a piece is the length *with* it: the client appends the text and compares.
-/

namespace Chat

open Guarded Replay

/-! ## Reading the events of a turn -/

structure TurnView where
  answer : String := ""
  reasoning : String := ""
  stopping : Bool := false
  ended : Bool := false

def TurnView.text (v : TurnView) : Channel → String
  | .answer => v.answer
  | .reasoning => v.reasoning

def TurnView.append (v : TurnView) (channel : Channel) (text : String) : TurnView :=
  match channel with
  | .answer => { v with answer := v.answer ++ text }
  | .reasoning => { v with reasoning := v.reasoning ++ text }

/-- **The reader**: what may come next, and what it adds. -/
def TurnView.next (messageId : Uuid) (v : TurnView) :
    ChatEventPayload → Option TurnView
  | .accepted _ => if v.ended ∨ v.stopping then none else some v
  | .status state _ =>
    if v.ended ∨ v.stopping then none
    else some { v with stopping := state = .stopRequested }
  | .delta d =>
    if v.ended ∨ v.stopping ∨ d.messageId ≠ messageId
      ∨ d.offset ≠ (v.text d.channel).length + d.text.length then none
    else some (v.append d.channel d.text)
  | .terminal t =>
    if v.ended ∨ (v.stopping ∧ t.state ≠ .stopped) ∨ t.answerLength ≠ v.answer.length
      ∨ t.reasoningLength ≠ v.reasoning.length then none
    else some { v with ended := true }
  | .deleted _ _ => none

variable {messageId : Uuid} {v v' : TurnView}

def ChatEventPayload.added (channel : Channel) : ChatEventPayload → String
  | .delta d => if d.channel = channel then d.text else ""
  | _ => ""

/-- **The concatenation** of the pieces of a channel. -/
def textOf (channel : Channel) : List ChatEventPayload → String
  | [] => ""
  | p :: ps => p.added channel ++ textOf channel ps

theorem TurnView.text_append (v : TurnView) (channel channel' : Channel)
    (text : String) :
    (v.append channel' text).text channel
      = v.text channel ++ if channel' = channel then text else "" := by
  cases channel <;> cases channel' <;> simp [TurnView.append, TurnView.text]

variable {p : ChatEventPayload} {messages : Dict Uuid ChatMessageRow}

theorem TurnView.next_text (h : v.next messageId p = some v')
    (channel : Channel) : v'.text channel = v.text channel ++ p.added channel := by
  cases p with
  | accepted turn =>
    obtain ⟨_, h⟩ := Option.ite_none_left_eq_some.mp h
    cases h
    exact String.append_empty.symm
  | status state estimate =>
    obtain ⟨_, h⟩ := Option.ite_none_left_eq_some.mp h
    cases h
    cases channel <;> exact String.append_empty.symm
  | delta d =>
    obtain ⟨_, h⟩ := Option.ite_none_left_eq_some.mp h
    cases h
    exact v.text_append channel d.channel d.text
  | terminal t =>
    obtain ⟨_, h⟩ := Option.ite_none_left_eq_some.mp h
    cases h
    cases channel <;> exact String.append_empty.symm
  | deleted c revision => exact nomatch h

theorem text_of_replay {ps : List ChatEventPayload} (channel : Channel)
    (h : replay (TurnView.next messageId) v ps = some v') :
    v'.text channel = v.text channel ++ textOf channel ps := by
  induction ps generalizing v with
  | nil =>
    cases h
    exact String.append_empty.symm
  | cons p ps ih =>
    obtain ⟨u, hu, h⟩ := Option.bind_eq_some_iff.mp h
    rw [ih h, TurnView.next_text hu channel]
    exact String.append_assoc

theorem TurnView.next_of_ended (h : v.ended) (p : ChatEventPayload) :
    v.next messageId p = none := by
  cases p <;> simp [TurnView.next, h]

theorem TurnView.next_of_stopping (hstopping : v.stopping)
    (h : v.next messageId p = some v') :
    ∃ t, p = .terminal t ∧ t.state = .stopped ∧ v'.ended := by
  cases p with
  | terminal t =>
    obtain ⟨hne, h⟩ := Option.ite_none_left_eq_some.mp h
    cases h
    refine ⟨t, rfl, ?_, rfl⟩
    exact not_not.mp fun hstate => hne (.inr (.inl ⟨hstopping, hstate⟩))
  | accepted turn => simp [TurnView.next, hstopping] at h
  | status state estimate => simp [TurnView.next, hstopping] at h
  | delta d => simp [TurnView.next, hstopping] at h
  | deleted c revision => exact nomatch h

/-! ## What the tables hold -/

variable {db db' : Db} {c t : Uuid} {conversation conversation' : ChatConversationRow}
  {turn turn' : ChatTurnRow} {answer answer' : ChatMessageRow}

def Db.turnLog (db : Db) (t : Uuid) : List ChatEventPayload :=
  (db.events.filter (·.turnId = some t)).map (·.payload)

def Db.cursors (db : Db) (c : Uuid) : List ℕ :=
  (db.events.filter (·.conversationId = c)).map (·.cursor)

variable {e : ChatEvent} {now : Instant}

theorem turnLog_of_append (db : Db) (h : db'.events = db.events ++ [e]) (t : Uuid) :
    db'.turnLog t
      = if e.turnId = some t then db.turnLog t ++ [e.payload] else db.turnLog t := by
  grind [Db.turnLog]

theorem cursors_of_append (h : db'.events = db.events ++ [e]) (c : Uuid) : db'.cursors c
      = if e.conversationId = c then db.cursors c ++ [e.cursor] else db.cursors c := by
  unfold Db.cursors
  rw [h, List.filter_append, List.map_append]
  by_cases he : e.conversationId = c
  · grind
  · grind

/-- **What a reader has in hand is what was saved.** -/
structure Shows (v : TurnView) (state : TurnState) (answer : ChatMessageRow) : Prop where
  text : ∀ channel, v.text channel = answer.saved channel
  ended : v.ended = state.terminal
  stopping : v.stopping → state = .stopRequested ∨ state.terminal

structure Sound (db : Db) : Prop where
  cursors : ∀ c conversation, db.conversations.get? c = some conversation →
    db.cursors c = List.range' 1 conversation.eventCursor
  located : ∀ e ∈ db.events, (db.conversations.get? e.conversationId).isSome
  owned : ∀ e ∈ db.events, ∀ t ∈ e.turnId, (db.turns.get? t).isSome
  chat : ∀ t turn, db.turns.get? t = some turn → turn.action = .chat
  active : ∀ t turn, db.turns.get? t = some turn → turn.state.terminal = false →
    ∃ conversation, db.conversations.get? turn.conversationId = some conversation
      ∧ conversation.activeTurnId = some t
  distinct : ∀ t turn t' turn', db.turns.get? t = some turn →
    db.turns.get? t' = some turn' →
    turn.assistantMessageId = turn'.assistantMessageId → t = t'
  logged : ∀ t turn, db.turns.get? t = some turn →
    ∃ answer v, db.messages.get? turn.assistantMessageId = some answer
      ∧ replay (TurnView.next turn.assistantMessageId) {} (db.turnLog t) = some v
      ∧ Shows v turn.state answer

theorem sound_empty : Sound {} :=
  ⟨fun _ _ h => (nomatch h), fun _ h => (nomatch h), fun _ h => (nomatch h),
    fun _ _ h => (nomatch h), fun _ _ h => (nomatch h), fun _ _ _ _ h => (nomatch h),
    fun _ _ h => (nomatch h)⟩

theorem Sound.turnLog_eq_nil (h : Sound db) (ht : db.turns.get? t = none) :
    db.turnLog t = [] := by
  grind [Db.turnLog, List.filter_eq_nil_iff, cases Sound]

theorem Sound.cursors_eq_nil (h : Sound db) (hc : db.conversations.get? c = none) :
    db.cursors c = [] := by
  unfold Db.cursors
  rw [List.map_eq_nil_iff, List.filter_eq_nil_iff]
  intro e he hconversation
  have hsome := h.located e he
  rw [of_decide_eq_true hconversation, hc] at hsome
  exact nomatch hsome

theorem Sound.eq_of_live (h : Sound db) (hturn : db.turns.get? t = some turn)
    (hlive : turn.state.terminal = false) {t' : Uuid}
    (hturn' : db.turns.get? t' = some turn') (hlive' : turn'.state.terminal = false)
    (hsame : turn'.conversationId = turn.conversationId) : t' = t := by
  grind [cases Sound]

theorem Sound.cursors_append (h : Sound db) (hevents : db'.events = db.events ++ [e])
    (hget : db.conversations.get? e.conversationId = some conversation)
    (hconversations : db'.conversations
      = db.conversations.set e.conversationId conversation')
    (hcursor : e.cursor = conversation.eventCursor + 1)
    (hcursor' : conversation'.eventCursor = conversation.eventCursor + 1) :
    ∀ c conversation, db'.conversations.get? c = some conversation →
      db'.cursors c = List.range' 1 conversation.eventCursor := by
  grind [cursors_of_append, List.range'_1_concat, cases Sound]

theorem located_append
    (h : ∀ e ∈ db.events, (db.conversations.get? e.conversationId).isSome)
    (hevents : db'.events = db.events ++ [e])
    (hconversations : db'.conversations
      = db.conversations.set e.conversationId conversation') :
    ∀ e ∈ db'.events, (db'.conversations.get? e.conversationId).isSome := by
  grind

theorem Sound.chat_set (h : Sound db) (hchat : turn'.action = .chat) :
    ∀ i row, (db.turns.set t turn').get? i = some row → row.action = .chat := by
  intro i row hrow
  rcases Dict.get?_set_eq_some.mp hrow with ⟨rfl, rfl⟩ | ⟨_, hi⟩
  · exact hchat
  · exact h.chat i row hi

theorem Sound.distinct_set (h : Sound db)
    (hother : ∀ j row, j ≠ t → db.turns.get? j = some row →
      row.assistantMessageId ≠ turn'.assistantMessageId) :
    ∀ i row j row', (db.turns.set t turn').get? i = some row →
      (db.turns.set t turn').get? j = some row' →
      row.assistantMessageId = row'.assistantMessageId → i = j := by
  intro i row j row' hrow hrow' hsame
  rcases Dict.get?_set_eq_some.mp hrow with ⟨rfl, rfl⟩ | ⟨hne, hi⟩ <;>
    rcases Dict.get?_set_eq_some.mp hrow' with ⟨rfl, rfl⟩ | ⟨hne', hj⟩
  · rfl
  · exact absurd hsame.symm (hother _ _ hne' hj)
  · exact absurd hsame (hother _ _ hne hi)
  · exact h.distinct _ _ _ _ hi hj hsame

/-! ## Appending an event about a turn -/

/-- **A writer keeps the tables sound** by appending an event that the reader accepts,
where the turn has not ended: the cursor is its conversation's next one, the row and
the answer become what the reader then has in hand. -/
theorem Sound.log (h : Sound db)
    (hconversation : db.conversations.get? c = some conversation)
    (hturn : db.turns.get? t = some turn) (hc : turn.conversationId = c)
    (hlive : turn.state.terminal = false)
    (hcursor : conversation'.eventCursor = conversation.eventCursor)
    (hactive : turn'.state.terminal = false →
      conversation'.activeTurnId = conversation.activeTurnId)
    (hkept : turn'.conversationId = turn.conversationId
      ∧ turn'.assistantMessageId = turn.assistantMessageId ∧ turn'.action = turn.action)
    (hanswer : messages.get? turn.assistantMessageId = some answer')
    (hother : ∀ j ≠ turn.assistantMessageId, messages.get? j = db.messages.get? j)
    (hnext : ∀ v answer, db.messages.get? turn.assistantMessageId = some answer →
      Shows v turn.state answer →
      ∃ v', v.next turn.assistantMessageId p = some v' ∧ Shows v' turn'.state answer') :
    Sound ({ db with messages }.log c t conversation' turn' p now).1 := by
  obtain ⟨hkeptConversation, hkeptAnswer, hkeptAction⟩ := hkept
  constructor
  case cursors =>
    refine h.cursors_append (e := ⟨c, conversation'.eventCursor + 1, some t, now, p⟩)
      rfl hconversation rfl ?_ ?_
    · exact congrArg (· + 1) hcursor
    · exact congrArg (· + 1) hcursor
  case located =>
    exact located_append (e := ⟨c, conversation'.eventCursor + 1, some t, now, p⟩)
      h.located rfl rfl
  case owned =>
    intro e he t' ht'
    show ((db.turns.set t _).get? t').isSome
    rcases List.mem_append.mp he with he | he
    · grind [cases Sound]
    · grind
  case chat => exact h.chat_set (hkeptAction.trans (h.chat _ turn hturn))
  case active =>
    intro t' row hrow hrowLive
    show ∃ x, (db.conversations.set c _).get? _ = some x ∧ _
    rcases Dict.get?_set_eq_some.mp hrow with ⟨rfl, rfl⟩ | ⟨hne, hrow⟩
    · grind [cases Sound]
    · grind [cases Sound]
  case distinct =>
    exact h.distinct_set fun j row hne hj hsame =>
      hne (h.distinct _ _ _ _ hj hturn (hsame.trans hkeptAnswer))
  case logged =>
    intro t' row hrow
    rw [turnLog_of_append db (e := ⟨c, conversation'.eventCursor + 1, some t, now, p⟩)
      rfl]
    show ∃ answer v, messages.get? _ = some answer ∧ _
    rcases Dict.get?_set_eq_some.mp hrow with ⟨rfl, rfl⟩ | ⟨hne, hrow⟩
    · grind [replay_snoc, cases Sound]
    · grind [cases Sound]

def TurnsKept (db db' : Db) : Prop :=
  ∀ t turn, db.turns.get? t = some turn → ∃ turn', db'.turns.get? t = some turn'
    ∧ turn'.conversationId = turn.conversationId

theorem turnsKept_of_set (hturn : db.turns.get? t = some turn)
    (hset : db'.turns = db.turns.set t turn')
    (hc : turn'.conversationId = turn.conversationId) : TurnsKept db db' := by
  grind [TurnsKept]

structure Committed (db db' : Db) : Prop where
  sound : Sound db'
  kept : TurnsKept db db'

theorem Committed.refl (h : Sound db) : Committed db db :=
  ⟨h, fun _ turn hturn => ⟨turn, hturn, rfl⟩⟩

/-! ## The stream -/

theorem makeDelta_ok {m : Uuid} {channel : Channel} {current text : String}
    {d : ChatMessageDelta} (h : makeDelta m channel current text = .ok d) :
    d.messageId = m ∧ d.channel = channel ∧ d.text = text
      ∧ d.offset = current.length + text.length := by
  unfold makeDelta at h
  split at h
  · grind
  · exact nomatch h

theorem makeTerminal_ok {state : TurnState} {usage : Option ChatUsage} {a r : ℕ}
    {safeError : Option String} {x : ChatTurnTerminal}
    (h : makeTerminal state usage a r safeError = .ok x) :
    x.state = state ∧ x.answerLength = a ∧ x.reasoningLength = r := by
  grind [makeTerminal]

section Next

variable {state : TurnState}

theorem Shows.running (h : Shows v state answer) (hlive : state.terminal = false)
    (hstop : state ≠ .stopRequested) : v.ended = false ∧ v.stopping = false := by
  grind [cases Shows]

theorem Shows.next_status (h : Shows v state answer) (hlive : state.terminal = false)
    (hstop : state ≠ .stopRequested) (messageId : Uuid) {state' : TurnState}
    (hlive' : state'.terminal = false) (estimate : Option ℚ) :
    ∃ v', v.next messageId (.status state' estimate) = some v'
      ∧ Shows v' state' answer := by
  obtain ⟨hended, hstopping⟩ := h.running hlive hstop
  refine ⟨{ v with stopping := state' = .stopRequested }, ?_, ?_, ?_, ?_⟩
  · show (if v.ended ∨ v.stopping then none else _) = _
    rw [hended, hstopping]
    rfl
  · intro channel
    rw [← h.text channel]
    cases channel <;> rfl
  · exact hended.trans hlive'.symm
  · grind

theorem Shows.next_delta (h : Shows v state answer) (hlive : state.terminal = false)
    (hstop : state ≠ .stopRequested) {messageId : Uuid} {channel : Channel}
    {text : String} {d : ChatMessageDelta}
    (hd : makeDelta messageId channel (answer.saved channel) text = .ok d) :
    ∃ v', v.next messageId (.delta d) = some v'
      ∧ Shows v' state (answer.append channel text) := by
  obtain ⟨hended, hstopping⟩ := h.running hlive hstop
  obtain ⟨rfl, rfl, rfl, hoffset⟩ := makeDelta_ok hd
  refine ⟨v.append d.channel d.text, ?_, ?_, ?_, ?_⟩
  · show (if v.ended ∨ v.stopping ∨ _ ∨ _ then none else _) = _
    rw [hended, hstopping, h.text, hoffset]
    simp
  · intro channel
    rw [TurnView.text_append, h.text]
    cases channel <;> cases d.channel <;> simp [ChatMessageRow.append,
      ChatMessageRow.saved]
  · cases hchannel : d.channel <;> exact hended.trans hlive.symm
  · cases hchannel : d.channel <;> exact h.stopping

theorem Shows.next_terminal (h : Shows v state answer) (hlive : state.terminal = false)
    (messageId : Uuid) {state' : TurnState} (hstop : state = .stopRequested → state' = .stopped)
    {usage : Option ChatUsage} {safeError : Option String} {x : ChatTurnTerminal}
    (hx : makeTerminal state' usage answer.text.length answer.reasoning.length safeError
      = .ok x)
    (hsaved : ∀ channel, answer'.saved channel = answer.saved channel) :
    ∃ v', v.next messageId (.terminal x) = some v' ∧ Shows v' state' answer' := by
  have hended : v.ended = false := h.ended.trans hlive
  obtain ⟨hstate, hanswer, hreasoning⟩ := makeTerminal_ok hx
  have hterminal : state'.terminal = true := hstate ▸ x.valid.1
  refine ⟨{ v with ended := true }, ?_, ?_, ?_, ?_⟩
  · refine if_neg ?_
    rintro (h' | ⟨hstopping, h'⟩ | h' | h')
    · exact absurd h' (Bool.eq_false_iff.mp hended)
    · grind [cases Shows]
    · exact h' (hanswer.trans (congrArg String.length (h.text .answer).symm))
    · exact h' (hreasoning.trans (congrArg String.length (h.text .reasoning).symm))
  · intro channel
    rw [hsaved channel, ← h.text channel]
    cases channel <;> rfl
  · exact hterminal.symm
  · exact fun _ => .inr hterminal

end Next

theorem Sound.persistNativeEvent (h : Sound db) {ev : NativeEvent}
    (hok : persistNativeEvent db t c ev now = .ok (db', e)) :
    Committed db db' := by
  unfold Chat.persistNativeEvent at hok
  obtain ⟨conversation, hconversation, hok⟩ := bind_eq_ok.mp hok
  rw [check_bind_eq_ok] at hok
  obtain ⟨_, hok⟩ := hok
  obtain ⟨turn, hturn, hok⟩ := bind_eq_ok.mp hok
  rw [check_bind_eq_ok, refuse_eq_ok, not_not] at hok
  obtain ⟨hc, hok⟩ := hok
  obtain ⟨answer, hanswer, hok⟩ := bind_eq_ok.mp hok
  simp only [check_bind_eq_ok, refuse_eq_ok, not_and, not_or, not_not] at hok
  obtain ⟨hterminal, hstop, hok⟩ := hok
  rw [require_eq_ok] at hconversation hturn hanswer
  have hlive : turn.state.terminal = false := Bool.eq_false_iff.mpr hterminal
  split at hok
  case h_1 hkind =>
    have hrunning : turn.state ≠ .stopRequested := fun hs =>
      absurd (hstop hs).1 (by rw [hkind]; decide)
    obtain ⟨state, hstate, hok⟩ := bind_eq_ok.mp hok
    simp only [check_bind_eq_ok, refuse_eq_ok, not_not] at hok
    obtain ⟨hmem, _, hok⟩ := hok
    have hlive' : state.terminal = false := by
      rcases List.mem_cons.mp hmem with rfl | hmem
      · rfl
      rcases List.mem_cons.mp hmem with rfl | hmem
      · rfl
      cases List.mem_singleton.mp hmem
      rfl
    cases Except.ok.inj hok
    refine ⟨h.log hconversation hturn hc hlive rfl (fun _ => rfl) ⟨rfl, rfl, rfl⟩ hanswer
      (fun _ _ => rfl) fun v a ha hshows => ?_,
      turnsKept_of_set hturn rfl rfl⟩
    cases ha.symm.trans hanswer
    exact hshows.next_status hlive hrunning _ hlive' _
  case h_2 hkind =>
    have hrunning : turn.state ≠ .stopRequested := fun hs =>
      absurd (hstop hs).1 (by rw [hkind]; decide)
    obtain ⟨text, htext, hok⟩ := bind_eq_ok.mp hok
    simp only [check_bind_eq_ok] at hok
    obtain ⟨_, _, hok⟩ := hok
    obtain ⟨d, hd, hok⟩ := bind_eq_ok.mp hok
    cases Except.ok.inj hok
    refine ⟨h.log hconversation hturn hc hlive rfl (fun _ => rfl) ⟨rfl, rfl, rfl⟩
      (Dict.get?_set_self ..) (fun _ hj => Dict.get?_set_ne _ hj _)
      fun v a ha hshows => ?_, turnsKept_of_set hturn rfl rfl⟩
    cases ha.symm.trans hanswer
    exact hshows.next_delta hlive hrunning hd
  case h_3 hkind =>
    obtain ⟨state, hstate, hok⟩ := bind_eq_ok.mp hok
    rw [require_eq_ok] at hstate
    rw [check_bind_eq_ok, refuse_eq_ok, not_not] at hok
    obtain ⟨hterminal', hok⟩ := hok
    obtain ⟨x, hx, hok⟩ := bind_eq_ok.mp hok
    cases Except.ok.inj hok
    refine ⟨h.log hconversation hturn hc hlive rfl ?_ ⟨rfl, rfl, rfl⟩
      (Dict.get?_set_self ..) (fun _ hj => Dict.get?_set_ne _ hj _)
      fun v a ha hshows => ?_, turnsKept_of_set hturn rfl rfl⟩
    · grind
    cases ha.symm.trans hanswer
    refine hshows.next_terminal hlive _ (fun hs => ?_) hx fun channel => ?_
    · grind
    · cases channel <;> rfl

/-! ## Stops and the sweeper -/

theorem Sound.requestTurnStop (h : Sound db) {userId : Uuid} {reason : StopReason}
    {kill : Except Refusal Bool} {row : ChatTurnRow}
    (hok : requestTurnStop db userId c t reason kill now = .ok (db', row)) :
    Committed db db' := by
  unfold Chat.requestTurnStop at hok
  obtain ⟨conversation, hconversation, hok⟩ := bind_eq_ok.mp hok
  rw [check_bind_eq_ok] at hok
  obtain ⟨_, hok⟩ := hok
  obtain ⟨turn, hturn, hok⟩ := bind_eq_ok.mp hok
  rw [check_bind_eq_ok, refuse_eq_ok, not_not] at hok
  obtain ⟨hc, hok⟩ := hok
  rw [require_eq_ok] at hconversation hturn
  split at hok
  case isTrue =>
    cases Except.ok.inj hok
    exact .refl h
  case isFalse hrunning =>
    obtain ⟨hterminal, hstop⟩ := not_or.mp hrunning
    have hlive : turn.state.terminal = false := Bool.eq_false_iff.mpr hterminal
    rw [check_bind_eq_ok] at hok
    obtain ⟨_, hok⟩ := hok
    -- Only a coding run is stopped before its placement, and these turns are chats.
    rw [if_neg (not_not_intro (h.chat t turn hturn))] at hok
    cases Except.ok.inj hok
    obtain ⟨answer, _, hanswer, _⟩ := h.logged t turn hturn
    refine ⟨h.log hconversation hturn hc hlive rfl (fun _ => rfl) ⟨rfl, rfl, rfl⟩ hanswer
      (fun _ _ => rfl) fun v a ha hshows => ?_,
      turnsKept_of_set hturn rfl rfl⟩
    cases ha.symm.trans hanswer
    exact hshows.next_status hlive hstop _ rfl _

theorem Sound.recoverTurn (h : Sound db) {checkedAt terminalAt : Instant} {b : Bool}
    (hc : ∀ turn, db.turns.get? t = some turn → turn.conversationId = c)
    (hok : recoverTurn db t c checkedAt terminalAt = .ok (db', b)) :
    Committed db db' := by
  unfold Chat.recoverTurn at hok
  split at hok
  case h_2 =>
    cases Except.ok.inj hok
    exact .refl h
  case h_1 conversation turn hconversation hturn =>
    split at hok
    case isTrue =>
      cases Except.ok.inj hok
      exact .refl h
    case isFalse hstale =>
      have hlive : turn.state.terminal = false :=
        Bool.eq_false_iff.mpr fun hterminal => hstale (.inr (.inl hterminal))
      split at hok
      case h_1 =>
        cases Except.ok.inj hok
        exact .refl h
      case h_2 answer hanswer =>
        obtain ⟨x, hx, hok⟩ := bind_eq_ok.mp hok
        have hstate := (makeTerminal_ok hx).1
        have hterminal : x.state.terminal = true := x.valid.1
        cases Except.ok.inj hok
        refine ⟨h.log hconversation hturn (hc turn hturn) hlive rfl ?_ ⟨rfl, rfl, rfl⟩
          hanswer (fun _ _ => rfl) fun v a ha hshows => ?_, turnsKept_of_set hturn rfl rfl⟩
        · grind
        · cases ha.symm.trans hanswer
          exact hshows.next_terminal hlive _ (fun hs => if_pos hs) hx fun _ => rfl

/-! ## Conversations and leases -/

theorem Sound.touch (h : Sound db) (hturn : db.turns.get? t = some turn)
    (hkept : turn'.conversationId = turn.conversationId
      ∧ turn'.assistantMessageId = turn.assistantMessageId ∧ turn'.action = turn.action)
    (hterminal : turn'.state.terminal = turn.state.terminal)
    (hshows : ∀ v answer, Shows v turn.state answer → Shows v turn'.state answer) :
    Sound { db with turns := db.turns.set t turn' } := by
  obtain ⟨hkeptConversation, hkeptAnswer, hkeptAction⟩ := hkept
  constructor
  case cursors => exact h.cursors
  case located => exact h.located
  case owned => exact fun e he t' ht' => Dict.isSome_get?_set _ _ _ (h.owned e he t' ht')
  case chat => exact h.chat_set (hkeptAction.trans (h.chat _ turn hturn))
  case active =>
    intro t' row hrow hlive
    rcases Dict.get?_set_eq_some.mp hrow with ⟨rfl, rfl⟩ | ⟨_, hold⟩
    · grind [cases Sound]
    · exact h.active t' row hold hlive
  case distinct =>
    exact h.distinct_set fun j row hne hj hsame =>
      hne (h.distinct _ _ _ _ hj hturn (hsame.trans hkeptAnswer))
  case logged =>
    intro t' row hrow
    rcases Dict.get?_set_eq_some.mp hrow with ⟨rfl, rfl⟩ | ⟨_, hold⟩
    · obtain ⟨answer, v, hsaved, hreplay, hv⟩ := h.logged _ turn hturn
      rw [hkeptAnswer]
      exact ⟨answer, v, hsaved, hreplay, hshows v answer hv⟩
    · exact h.logged t' row hold

theorem Sound.renewTurnLease (h : Sound db) {process : String} {b : Bool}
    (hok : renewTurnLease db process t now = .ok (db', b)) : Committed db db' := by
  unfold Chat.renewTurnLease at hok
  split at hok
  case h_1 =>
    cases Except.ok.inj hok
    exact .refl h
  case h_2 turn hturn =>
    split at hok
    case isTrue =>
      cases Except.ok.inj hok
      exact ⟨h.touch hturn ⟨rfl, rfl, rfl⟩ rfl fun _ _ hv => hv,
        turnsKept_of_set hturn rfl rfl⟩
    case isFalse =>
      cases Except.ok.inj hok
      exact .refl h

theorem addRow_ok {α : Type} {rows rows' : Dict Uuid α} {id : Uuid} {row : α}
    (h : addRow rows id row = .ok rows') :
    rows.get? id = none ∧ rows' = rows.set id row := by
  unfold addRow at h
  rw [check_bind_eq_ok, refuse_eq_ok, Option.not_isSome_iff_eq_none] at h
  exact ⟨h.1, (Except.ok.inj h.2).symm⟩

theorem Sound.createConversation (h : Sound db) {owner : Uuid} {mode : Mode}
    {modelId : Option Uuid} {eligible : Bool} {u : Unit}
    (hok : createConversation db c owner mode modelId eligible now = .ok (db', u)) :
    Committed db db' := by
  unfold Chat.createConversation at hok
  rw [check_bind_eq_ok] at hok
  obtain ⟨_, hok⟩ := hok
  obtain ⟨conversations, hadd, hok⟩ := bind_eq_ok.mp hok
  obtain ⟨hfresh, rfl⟩ := addRow_ok hadd
  cases Except.ok.inj hok
  refine ⟨⟨?_, ?_, h.owned, h.chat, ?_, h.distinct, h.logged⟩,
    fun _ turn hturn => ⟨turn, hturn, rfl⟩⟩
  · intro c' row hrow
    rcases Dict.get?_set_eq_some.mp hrow with ⟨rfl, rfl⟩ | ⟨_, hold⟩
    · exact h.cursors_eq_nil hfresh
    · exact h.cursors c' row hold
  · grind [cases Sound]
  · grind [cases Sound]

theorem Sound.note (h : Sound db) (hc : e.conversationId = c) (hturn : e.turnId = none)
    (hconversation : db.conversations.get? c = some conversation)
    (hcursor : e.cursor = conversation.eventCursor + 1)
    (hcursor' : conversation'.eventCursor = conversation.eventCursor + 1)
    (hactive : conversation'.activeTurnId = conversation.activeTurnId) :
    Sound { db with
      conversations := db.conversations.set c conversation'
      events := db.events ++ [e] } := by
  subst hc
  refine ⟨h.cursors_append rfl hconversation rfl hcursor hcursor',
    located_append h.located rfl rfl, ?_, h.chat, ?_, h.distinct, ?_⟩
  · grind [cases Sound]
  · grind [cases Sound]
  · grind [turnLog_of_append, cases Sound]

theorem Sound.stopForDeletion (h : Sound db) {turns : Dict Uuid ChatTurnRow}
    (hok : stopForDeletion db conversation now = .ok turns) :
    Committed db { db with turns } := by
  unfold Chat.stopForDeletion at hok
  split at hok
  case h_1 =>
    cases Except.ok.inj hok
    exact .refl h
  case h_2 t _ =>
    split at hok
    case h_1 =>
      cases Except.ok.inj hok
      exact .refl h
    case h_2 turn hturn =>
      split at hok
      case isTrue =>
        cases Except.ok.inj hok
        exact .refl h
      case isFalse hlive =>
        rw [check_bind_eq_ok] at hok
        cases Except.ok.inj hok.2
        have hlive' := Bool.eq_false_iff.mpr hlive
        refine ⟨h.touch hturn ⟨rfl, rfl, rfl⟩ hlive'.symm fun v answer hv => ?_,
          turnsKept_of_set hturn rfl rfl⟩
        exact ⟨hv.text, hv.ended.trans hlive', fun _ => .inl rfl⟩

theorem Sound.deleteConversation (h : Sound db) {owner : Except Refusal Uuid}
    {expectedRevision : ℕ} {withdrawn : Except Refusal Unit} {u : Unit}
    (hok : deleteConversation db owner c expectedRevision withdrawn now = .ok (db', u)) :
    Committed db db' := by
  unfold Chat.deleteConversation at hok
  obtain ⟨owner, _, hok⟩ := bind_eq_ok.mp hok
  obtain ⟨conversation, hconversation, hok⟩ := bind_eq_ok.mp hok
  rw [require_eq_ok] at hconversation
  rw [check_bind_eq_ok] at hok
  obtain ⟨_, hok⟩ := hok
  split at hok
  case isTrue =>
    cases Except.ok.inj hok
    exact .refl h
  case isFalse =>
    rw [check_bind_eq_ok] at hok
    obtain ⟨_, hok⟩ := hok
    obtain ⟨turns, hturns, hok⟩ := bind_eq_ok.mp hok
    rw [check_bind_eq_ok] at hok
    obtain ⟨_, hok⟩ := hok
    cases Except.ok.inj hok
    have hstopped := h.stopForDeletion hturns
    exact ⟨hstopped.sound.note rfl rfl hconversation rfl rfl rfl, hstopped.kept⟩

/-! ## Admission -/

theorem addMessages_ok {body : ChatTurnCreate} {env : AdmitEnv} {prompt : String}
    {source : Option (Uuid × ChatMessageRow)}
    (h : addMessages db c body env prompt source = .ok messages) :
    db.messages.get? env.assistantId = none
      ∧ (∃ answer, messages.get? env.assistantId = some answer
        ∧ ∀ channel, answer.saved channel = "")
      ∧ ∀ j row, db.messages.get? j = some row → messages.get? j = some row := by
  unfold addMessages at h
  split at h
  case h_1 =>
    obtain ⟨messages', hinput, h⟩ := bind_eq_ok.mp h
    obtain ⟨hfresh, rfl⟩ := addRow_ok hinput
    obtain ⟨hfresh', rfl⟩ := addRow_ok h
    have hne : env.assistantId ≠ env.inputId := fun heq => by
      rw [heq, Dict.get?_set_self] at hfresh'
      exact nomatch hfresh'
    rw [Dict.get?_set_ne _ hne] at hfresh'
    refine ⟨hfresh', ⟨_, Dict.get?_set_self .., fun channel => by cases channel <;> rfl⟩,
      fun j row hrow => ?_⟩
    refine Dict.get?_set_of_none ?_ (Dict.get?_set_of_none hfresh hrow)
    rw [Dict.get?_set_ne _ hne]
    exact hfresh'
  case h_2 =>
    obtain ⟨hfresh, rfl⟩ := addRow_ok h
    exact ⟨hfresh, ⟨_, Dict.get?_set_self .., fun channel => by cases channel <;> rfl⟩,
      fun j row hrow => Dict.get?_set_of_none hfresh hrow⟩

theorem Sound.begin (h : Sound db) {projected : ChatTurn} (hc : e.conversationId = c)
    (hconversation : db.conversations.get? c = some conversation)
    (hidle : conversation.activeTurnId = none) (hfresh : db.turns.get? t = none)
    (hevent : e.turnId = some t ∧ e.cursor = conversation.eventCursor + 1
      ∧ e.payload = .accepted projected)
    (hconversation' : conversation'.eventCursor = conversation.eventCursor + 1
      ∧ conversation'.activeTurnId = some t)
    (hturn : turn.conversationId = c ∧ turn.action = .chat ∧ turn.state = .accepted)
    (hnew : db.messages.get? turn.assistantMessageId = none)
    (hanswer : messages.get? turn.assistantMessageId = some answer)
    (hempty : ∀ channel, answer.saved channel = "")
    (hother : ∀ j row, db.messages.get? j = some row → messages.get? j = some row) :
    Sound
      { conversations := db.conversations.set c conversation'
        messages
        turns := db.turns.set t turn
        events := db.events ++ [e] } := by
  subst hc
  obtain ⟨heturn, hecursor, hepayload⟩ := hevent
  have hunused : ∀ j row, db.turns.get? j = some row →
      row.assistantMessageId ≠ turn.assistantMessageId := by
    grind [cases Sound]
  constructor
  case cursors =>
    exact h.cursors_append rfl hconversation rfl hecursor hconversation'.1
  case located => exact located_append h.located rfl rfl
  case owned =>
    intro e' he' t' ht'
    show ((db.turns.set t turn).get? t').isSome
    rcases List.mem_append.mp he' with he' | he'
    · grind [cases Sound]
    · grind
  case chat => exact h.chat_set hturn.2.1
  case active =>
    intro t' row hrow hlive
    show ∃ x, (db.conversations.set _ _).get? _ = some x ∧ _
    rcases Dict.get?_set_eq_some.mp hrow with ⟨rfl, rfl⟩ | ⟨_, hold⟩
    · grind
    obtain ⟨x, hx, hxactive⟩ := h.active t' row hold hlive
    have hne : row.conversationId ≠ e.conversationId := fun heq => by
      rw [heq, hconversation] at hx
      cases hx
      rw [hidle] at hxactive
      exact nomatch hxactive
    rw [Dict.get?_set_ne _ hne]
    exact ⟨x, hx, hxactive⟩
  case distinct => exact h.distinct_set fun j row _ => hunused j row
  case logged =>
    intro t' row hrow
    rw [turnLog_of_append db (e := e) rfl, heturn]
    rcases Dict.get?_set_eq_some.mp hrow with ⟨rfl, rfl⟩ | ⟨hne, hold⟩
    · refine ⟨answer, {}, hanswer, ?_, ?_, ?_, nofun⟩
      · rw [if_pos rfl, h.turnLog_eq_nil hfresh, hepayload]
        rfl
      · exact fun channel => (by cases channel <;> rfl : _ = "").trans (hempty channel).symm
      · rw [hturn.2.2]
        rfl
    · grind [cases Sound]

theorem Sound.admitTurn {H : Host} (h : Sound db) {body : ChatTurnCreate}
    {env : AdmitEnv} {x : Admission}
    (hok : admitTurn H db c body env = .ok (db', x)) : Committed db db' := by
  unfold Chat.admitTurn at hok
  obtain ⟨owner, _, hok⟩ := bind_eq_ok.mp hok
  obtain ⟨conversation, hconversation, hok⟩ := bind_eq_ok.mp hok
  rw [require_eq_ok] at hconversation
  rw [check_bind_eq_ok] at hok
  obtain ⟨_, hok⟩ := hok
  split at hok
  case h_1 =>
    rw [check_bind_eq_ok] at hok
    cases Except.ok.inj hok.2
    exact .refl h
  case h_2 =>
    simp only [check_bind_eq_ok, refuse_eq_ok, not_not] at hok
    obtain ⟨_, hidle, _, _, _, _, hok⟩ := hok
    obtain ⟨model, _, hok⟩ := bind_eq_ok.mp hok
    simp only [check_bind_eq_ok] at hok
    obtain ⟨_, _, hok⟩ := hok
    obtain ⟨source, _, hok⟩ := bind_eq_ok.mp hok
    obtain ⟨prompt, _, hok⟩ := bind_eq_ok.mp hok
    simp only [check_bind_eq_ok] at hok
    obtain ⟨_, _, hok⟩ := hok
    obtain ⟨projected, _, hok⟩ := bind_eq_ok.mp hok
    obtain ⟨messages, hmessages, hok⟩ := bind_eq_ok.mp hok
    obtain ⟨turns, hturns, hok⟩ := bind_eq_ok.mp hok
    obtain ⟨hnew, ⟨answer, hanswer, hempty⟩, hother⟩ := addMessages_ok hmessages
    obtain ⟨hfresh, rfl⟩ := addRow_ok hturns
    cases Except.ok.inj hok
    refine ⟨h.begin rfl hconversation hidle hfresh ⟨rfl, rfl, rfl⟩ ⟨rfl, rfl⟩
      ⟨rfl, rfl, rfl⟩ hnew hanswer hempty hother, fun j row hrow => ?_⟩
    exact ⟨row, Dict.get?_set_of_none hfresh hrow, rfl⟩

/-! ## Runs -/

/-- **The invariant of the service**: sound tables, and candidates of their
conversations. -/
structure Served (s : Service) : Prop where
  sound : Sound s.db
  selected : ∀ x ∈ s.candidates, ∃ turn, s.db.turns.get? x.1 = some turn
    ∧ turn.conversationId = x.2

theorem Served.commit {s : Service} (h : Served s) {α : Type}
    {x : Except Refusal (Db × α)}
    (hx : ∀ db' a, x = .ok (db', a) → Committed s.db db') : Served (s.commit x) := by
  have hcommitted : Committed s.db (settle s.db x) :=
    settle_induction (.refl h.sound) hx
  refine ⟨hcommitted.sound, fun y hy => ?_⟩
  obtain ⟨turn, hturn, hc⟩ := h.selected y hy
  obtain ⟨turn', hturn', hc'⟩ := hcommitted.kept y.1 turn hturn
  exact ⟨turn', hturn', hc'.trans hc⟩

theorem mem_staleTurns {x : Uuid × Uuid} (h : x ∈ staleTurns db now) :
    ∃ turn, db.turns.get? x.1 = some turn ∧ turn.conversationId = x.2 := by
  obtain ⟨row, hrow, rfl⟩ := List.mem_map.mp h
  have hmem := List.mem_of_mem_filter
    ((List.mem_insertionSort _).mp (List.mem_of_mem_take hrow))
  exact ⟨row.2, Dict.mem_items.mp hmem, rfl⟩

theorem Served.step {s : Service} (h : Served s) (H : Host) (call : Call) :
    Served (step H s call) := by
  cases call with
  | createConversation id owner mode modelId eligible now =>
    exact h.commit fun _ _ hok => h.sound.createConversation hok
  | admitTurn conversationId body env =>
    exact h.commit fun _ _ hok => h.sound.admitTurn hok
  | persistNativeEvent turnId conversationId ev now =>
    exact h.commit fun _ _ hok => h.sound.persistNativeEvent hok
  | requestTurnStop userId conversationId turnId reason kill now =>
    exact h.commit fun _ _ hok => h.sound.requestTurnStop hok
  | renewTurnLease process turnId now =>
    exact h.commit fun _ _ hok => h.sound.renewTurnLease hok
  | selectStaleTurns now =>
    refine ⟨h.sound, fun x hx => ?_⟩
    exact (List.mem_append.mp hx).elim (h.selected x) mem_staleTurns
  | recoverTurn candidate checkedAt terminalAt =>
    simp only [Chat.step]
    split
    case h_1 => exact h
    case h_2 turnId conversationId hcandidate =>
      obtain ⟨row, hrow, hc⟩ := h.selected _ (List.mem_of_getElem? hcandidate)
      refine h.commit fun _ _ hok => h.sound.recoverTurn (fun turn hturn => ?_) hok
      cases hrow.symm.trans hturn
      exact hc
  | deleteConversation owner conversationId expectedRevision withdrawn now =>
    exact h.commit fun _ _ hok => h.sound.deleteConversation hok

structure LogConsistent (db : Db) : Prop where
  /-- The cursors of a conversation are `1, 2, …, event_cursor`. -/
  cursors : ∀ c conversation, db.conversations.get? c = some conversation →
    db.cursors c = List.range' 1 conversation.eventCursor
  active : ∀ t turn, db.turns.get? t = some turn → turn.state.terminal = false →
    ∃ conversation, db.conversations.get? turn.conversationId = some conversation
      ∧ conversation.activeTurnId = some t
  one_active : ∀ t turn t' turn', db.turns.get? t = some turn →
    db.turns.get? t' = some turn' → turn.state.terminal = false →
    turn'.state.terminal = false → turn'.conversationId = turn.conversationId → t' = t
  /-- Nothing follows the end of a turn: in particular there is only one. -/
  end_last : ∀ t before x after, db.turnLog t = before ++ .terminal x :: after →
    after = []
  /-- Only the end, as `stopped`, follows a request to stop. -/
  stop_last : ∀ t before estimate after,
    db.turnLog t = before ++ .status .stopRequested estimate :: after →
    after = [] ∨ ∃ x, after = [.terminal x] ∧ x.state = .stopped
  /-- The pieces add up to what is saved. -/
  texts : ∀ t turn, db.turns.get? t = some turn →
    ∃ answer, db.messages.get? turn.assistantMessageId = some answer
      ∧ ∀ channel, textOf channel (db.turnLog t) = answer.saved channel
  /-- A piece names the answer of its turn, and where it ends. -/
  offsets : ∀ t turn before d after, db.turns.get? t = some turn →
    db.turnLog t = before ++ .delta d :: after →
    d.messageId = turn.assistantMessageId
      ∧ d.offset = (textOf d.channel before).length + d.text.length
  /-- The end gives the lengths that are saved. -/
  lengths : ∀ t turn answer before x after, db.turns.get? t = some turn →
    db.messages.get? turn.assistantMessageId = some answer →
    db.turnLog t = before ++ .terminal x :: after →
    x.answerLength = answer.text.length ∧ x.reasoningLength = answer.reasoning.length

theorem Sound.replay_of_ne_nil (h : Sound db) (hne : db.turnLog t ≠ []) :
    ∃ messageId v, replay (TurnView.next messageId) {} (db.turnLog t) = some v := by
  cases hturn : db.turns.get? t with
  | none => exact absurd (h.turnLog_eq_nil hturn) hne
  | some turn => grind [cases Sound]

theorem TurnView.next_terminal {x : ChatTurnTerminal}
    (h : v.next messageId (.terminal x) = some v') :
    v' = { v with ended := true } ∧ x.answerLength = v.answer.length
      ∧ x.reasoningLength = v.reasoning.length := by
  obtain ⟨hne, h⟩ := Option.ite_none_left_eq_some.mp h
  simp only [not_or, not_not] at hne
  exact ⟨(Option.some.inj h).symm, hne.2.2.1, hne.2.2.2⟩

theorem Sound.logConsistent (h : Sound db) : LogConsistent db := by
  constructor
  case cursors => exact h.cursors
  case active => exact h.active
  case one_active =>
    exact fun t turn t' turn' hturn hturn' hlive hlive' hsame =>
      h.eq_of_live hturn hlive hturn' hlive' hsame
  case end_last =>
    intro t before x after hlog
    obtain ⟨messageId, v, hreplay⟩ := h.replay_of_ne_nil (t := t)
      (by rw [hlog]; exact List.append_ne_nil_of_right_ne_nil _ (List.cons_ne_nil _ _))
    rw [hlog] at hreplay
    obtain ⟨u, u', _, hnext, hrest⟩ := of_replay_split hreplay
    obtain ⟨rfl, _⟩ := TurnView.next_terminal hnext
    exact (eq_nil_of_final (TurnView.next_of_ended rfl) hrest).1
  case stop_last =>
    intro t before estimate after hlog
    obtain ⟨messageId, v, hreplay⟩ := h.replay_of_ne_nil (t := t)
      (by rw [hlog]; exact List.append_ne_nil_of_right_ne_nil _ (List.cons_ne_nil _ _))
    rw [hlog] at hreplay
    obtain ⟨u, u', _, hnext, hrest⟩ := of_replay_split hreplay
    obtain ⟨_, hnext⟩ := Option.ite_none_left_eq_some.mp hnext
    cases hnext
    cases after with
    | nil => exact .inl rfl
    | cons p rest =>
      obtain ⟨w, hw, hend⟩ := Option.bind_eq_some_iff.mp hrest
      obtain ⟨x, rfl, hstopped, hended⟩ := TurnView.next_of_stopping rfl hw
      rw [(eq_nil_of_final (TurnView.next_of_ended hended) hend).1]
      exact .inr ⟨x, rfl, hstopped⟩
  case texts =>
    intro t turn hturn
    obtain ⟨answer, v, hanswer, hreplay, hshows⟩ := h.logged t turn hturn
    refine ⟨answer, hanswer, fun channel => ?_⟩
    rw [← hshows.text channel, text_of_replay channel hreplay]
    cases channel <;> exact String.empty_append.symm
  case offsets =>
    intro t turn before d after hturn hlog
    obtain ⟨_, v, _, hreplay, _⟩ := h.logged t turn hturn
    rw [hlog] at hreplay
    obtain ⟨u, u', hbefore, hnext, _⟩ := of_replay_split hreplay
    obtain ⟨hne, _⟩ := Option.ite_none_left_eq_some.mp hnext
    simp only [not_or, not_not] at hne
    refine ⟨hne.2.2.1, hne.2.2.2.trans ?_⟩
    rw [text_of_replay d.channel hbefore]
    cases d.channel <;> rw [TurnView.text, String.empty_append]
  case lengths =>
    intro t turn answer before x after hturn hanswer hlog
    obtain ⟨answer', v, hanswer', hreplay, hshows⟩ := h.logged t turn hturn
    cases hanswer.symm.trans hanswer'
    rw [hlog] at hreplay
    obtain ⟨u, u', _, hnext, hrest⟩ := of_replay_split hreplay
    obtain ⟨rfl, hanswerLength, hreasoningLength⟩ := TurnView.next_terminal hnext
    obtain ⟨_, rfl⟩ := eq_nil_of_final (TurnView.next_of_ended rfl) hrest
    exact ⟨hanswerLength.trans (congrArg String.length (hshows.text .answer)),
      hreasoningLength.trans (congrArg String.length (hshows.text .reasoning))⟩

/-- **The event log is consistent** after every interleaving of transactions. -/
theorem event_log_consistent (H : Host) (calls : List Call) :
    LogConsistent (Run.last (step H) {} calls).db :=
  (Run.last_of_kept Served (fun _ call h => h.step H call) calls
    ⟨sound_empty, fun _ h => absurd h List.not_mem_nil⟩).sound.logConsistent

/-! A conversation with one turn, and the first piece of its answer. -/

def sampleHost : Host := ⟨fun _ => "digest", fun char => char = ' '⟩

def sampleBody : ChatTurnCreate :=
  { clientRequestId := 1, expectedRevision := 1, modelId := 2, content := "hello",
    valid := by decide }

def sampleEnv : AdmitEnv :=
  { owner := .ok 7, pending := false, model := some ⟨"studio", "mlx_lm", "small"⟩,
    eligible := true, prompt := .ok "hello", context := .ok (), now := 0,
    process := "api", inputId := 3, assistantId := 4, turnId := 5 }

/-- The conversation is created, the turn admitted, and `hi` is saved. -/
def samplePiece : List Call :=
  [.createConversation 0 7 .chat none true 0, .admitTurn 0 sampleBody sampleEnv,
    .persistNativeEvent 5 0 { kind := .delta, text := some "hi" } 0]

/-- **The offset of a piece is not the length before it**: the first two characters
of an answer have the offset 2. -/
theorem offset_not_before : ¬ ∀ t before d after,
      (Run.last (step sampleHost) {} samplePiece).db.turnLog t
          = before ++ .delta d :: after →
        d.offset = (textOf d.channel before).length := by
  intro h
  have hlog : (Run.last (step sampleHost) {} samplePiece).db.turnLog 5
      = [.accepted ⟨5, 0, 1, 1, 3, 4, 2, "small", .accepted, .chat, none, none, none, none,
          0, 0, by decide⟩]
        ++ .delta ⟨4, .answer, "hi", 2, by decide⟩ :: [] := by
    decide
  exact absurd (h 5 _ _ _ hlog) (by decide)

end Chat
