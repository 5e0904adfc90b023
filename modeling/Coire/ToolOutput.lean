import Coire.ModelRewrite

/-!
# Tool output in the context of an agent

`truncate_tool_output` cuts a text that is longer than the cap: it keeps bytes of its
head and of its tail, with a marker between them, and decodes the result with
replacement. The cuts may fall inside a character. The bytes of it that are left are
then replaced, those of the head by one `U+FFFD` and each one of the tail by one, and
that is three bytes every time. Moreover nothing is cut off where no room is left
beside the marker: `raw[-0:]` is all of the text.

So the cap is kept if and only if there is room, and the cuts fall between characters
or where the replacement is no longer than what it replaces (`Fits`):
`tool_output_capped_iff`.
-/

namespace ToolOutput

open EngineEvents ModelRewrite

/-! ## Decoding with replacement -/

/-- A character that is not complete, and between what its next byte is. -/
structure Unfinished where
  owed : ℕ
  low : ℕ
  high : ℕ
  value : ℕ

/-- The first byte of a character of several. -/
def lead (b : ℕ) : Option Unfinished :=
  if 0xC2 ≤ b ∧ b ≤ 0xDF then some ⟨1, 0x80, 0xBF, b - 0xC0⟩
  else if 0xE0 ≤ b ∧ b ≤ 0xEF then
    some ⟨2, if b = 0xE0 then 0xA0 else 0x80, if b = 0xED then 0x9F else 0xBF, b - 0xE0⟩
  else if 0xF0 ≤ b ∧ b ≤ 0xF4 then
    some ⟨3, if b = 0xF0 then 0x90 else 0x80, if b = 0xF4 then 0x8F else 0xBF, b - 0xF0⟩
  else none

def replacement : Char := Char.ofNat 0xFFFD

def start (b : ℕ) : List Char × Option Unfinished :=
  if b < 0x80 then ([Char.ofNat b], none)
  else match lead b with
    | none => ([replacement], none)
    | some p => ([], some p)

/-- A byte: the characters that it ends, and the one that it leaves. -/
def nextByte : Option Unfinished → ℕ → List Char × Option Unfinished
  | none, b => start b
  | some p, b =>
    if p.low ≤ b ∧ b ≤ p.high then
      let value := p.value * 64 + (b - 0x80)
      if p.owed ≤ 1 then ([Char.ofNat value], none)
      else ([], some ⟨p.owed - 1, 0x80, 0xBF, value⟩)
    else (replacement :: (start b).1, (start b).2)

def decodeFrom : Option Unfinished → List Byte → List Char
  | p, [] => if p.isSome then [replacement] else []
  | p, b :: bs => (nextByte p b.toNat).1 ++ decodeFrom (nextByte p b.toNat).2 bs

/-- **`bytes.decode(errors="replace")`.** -/
def decode (raw : List Byte) : List Char := decodeFrom none raw

/-! ## The source -/

def bytes (text : List Char) : List Byte := encode (str text)

def markerText : List Char := "\n...[truncated]...\n".toList

def marker : List Byte := bytes markerText

/-- `max((byte_cap - len(marker)) // 2, 0)`. -/
def keep (byteCap : ℕ) : ℕ := (byteCap - marker.length) / 2

def lastBytes (raw : List Byte) (keep : ℕ) : List Byte :=
  if keep = 0 then raw else raw.drop (raw.length - keep)

def truncateToolOutput (text : List Char) (byteCap : ℕ) : List Char × Bool :=
  let raw := bytes text
  if raw.length ≤ byteCap then (text, false)
  else (decode (raw.take (keep byteCap) ++ marker ++ lastBytes raw (keep byteCap)), true)

inductive Role
  | system | user | assistant | tool | summary
  deriving DecidableEq

structure HarnessMessage (Image : Type) where
  role : Role
  content : List Char
  visualInputs : List Image
  toolName : Option String
  truncated : Bool

def HarnessMessage.make {Image : Type} (role : Role) (content : List Char)
    (visualInputs : List Image) : Option (HarnessMessage Image) :=
  if content.length ≤ 2000000 ∧ visualInputs.length ≤ 10 then
    some ⟨role, content, visualInputs, none, false⟩
  else none

def HarnessMessage.ofSummary {Image : Type} :
    Option (List Char) → Option (List (HarnessMessage Image))
  | none | some [] => some []
  | some text => (HarnessMessage.make .summary text []).map ([·])

def HarnessMessage.projected {Image : Type} (toolByteCap : ℕ) (m : HarnessMessage Image) :
    HarnessMessage Image :=
  if m.role = .tool then
    let (content, truncated) := truncateToolOutput m.content toolByteCap
    if truncated then { m with content := content, truncated := true } else m
  else m

structure ContextBudget where
  tokenLimit : ℕ
  reportedPromptTokens : ℕ
  transmittedMessages : ℕ
  summarizedMessages : ℕ
  truncationCount : ℕ

structure ContextRequest (Image : Type) where
  systemPrompt : List Char
  task : List Char
  history : List (HarnessMessage Image)
  tokenLimit : ℕ
  reportedPromptTokens : ℕ
  summarize : Option (List (HarnessMessage Image) → Option (List Char))
  toolByteCap : ℕ
  visualInputs : List Image

section Context

variable {Image : Type} (threshold : ℕ → ℕ) (r : ContextRequest Image)

/-- The history is summarized: `threshold n` is `int(n * 0.8)`. -/
def ContextRequest.summarizes : Bool :=
  threshold r.tokenLimit ≤ r.reportedPromptTokens && 4 < r.history.length

def prepareContext : Option (List (HarnessMessage Image) × ContextBudget) := do
  let projected := r.history.map (·.projected r.toolByteCap)
  let truncations := (r.history.filter fun m =>
    m.role = .tool && (truncateToolOutput m.content r.toolByteCap).2).length
  let older := if r.summarizes threshold then projected.take (projected.length - 4) else []
  let recent := projected.drop older.length
  let summary := if r.summarizes threshold then r.summarize.bind (· older) else none
  let summaries ← HarnessMessage.ofSummary summary
  let system ← HarnessMessage.make .system r.systemPrompt []
  let user ← HarnessMessage.make .user r.task r.visualInputs
  let transmitted := system :: (summaries ++ recent ++ [user])
  if r.tokenLimit = 0 then none
  else some (transmitted, ⟨r.tokenLimit, r.reportedPromptTokens, transmitted.length,
    older.length, truncations⟩)

end Context

/-! ## The condition -/

def size (c : Char) : ℕ := (utf8 c.toNat).length

/-- How many bytes of a character are before a position in the text that cuts it. -/
def offset : List Char → ℕ → ℕ
  | [], _ => 0
  | c :: text, n => if n < size c then n else offset text (n - size c)

/-- **The text fits the cap**, or what is left of it does: the tail begins between
characters; the head ends between characters, after three bytes of one, or, where a
byte is to spare, after two. -/
def Fits (byteCap : ℕ) (text : List Char) : Prop :=
  (bytes text).length ≤ byteCap ∨ 21 ≤ byteCap
    ∧ offset text ((bytes text).length - keep byteCap) = 0
    ∧ (offset text (keep byteCap) = 0 ∨ offset text (keep byteCap) = 3
      ∨ offset text (keep byteCap) = 2 ∧ byteCap % 2 = 0)

/-! ## Decoding what is left -/

/-- **The bytes that complete a character**, and its code point. -/
inductive Completes : Unfinished → List Byte → ℕ → Prop
  | last {p : Unfinished} {b : Byte} {n : ℕ} (hb : p.low ≤ b.toNat ∧ b.toNat ≤ p.high)
      (hp : 0x80 ≤ p.low ∧ p.high ≤ 0xBF) (howed : p.owed ≤ 1)
      (hn : n = p.value * 64 + (b.toNat - 0x80)) : Completes p [b] n
  | more {p : Unfinished} {b : Byte} {bs : List Byte} {n : ℕ}
      (hb : p.low ≤ b.toNat ∧ b.toNat ≤ p.high) (hp : 0x80 ≤ p.low ∧ p.high ≤ 0xBF)
      (howed : ¬ p.owed ≤ 1)
      (hbs : Completes ⟨p.owed - 1, 0x80, 0xBF, p.value * 64 + (b.toNat - 0x80)⟩ bs n) :
    Completes p (b :: bs) n

section Completes

variable {p : Unfinished} {bs : List Byte} {n : ℕ}

theorem Completes.decode (h : Completes p bs n) (rest : List Byte) :
    decodeFrom (some p) (bs ++ rest) = Char.ofNat n :: decodeFrom none rest := by
  induction h with
  | last hb hp howed hn =>
    rw [List.singleton_append, decodeFrom, nextByte, if_pos hb, if_pos howed, hn]
    rfl
  | more hb hp howed hbs ih =>
    rw [List.cons_append, decodeFrom, nextByte, if_pos hb, if_neg howed]
    exact ih

theorem decode_lineEnd (hp : 0x80 ≤ p.low) (rest : List Byte) :
    decodeFrom (some p) (10 :: rest) = replacement :: '\n' :: decodeFrom none rest := by
  rw [decodeFrom, nextByte, if_neg]
  · rfl
  · exact fun h => absurd (hp.trans h.1) (by decide)

theorem Completes.decode_take (h : Completes p bs n) {j : ℕ} (hj : j < bs.length)
    (rest : List Byte) : decodeFrom (some p) (bs.take j ++ 10 :: rest)
      = replacement :: '\n' :: decodeFrom none rest := by
  induction h generalizing j with
  | last hb hp =>
    cases Nat.lt_one_iff.mp hj
    exact decode_lineEnd hp.1 rest
  | more hb hp howed hbs ih =>
    cases j with
    | zero => exact decode_lineEnd hp.1 rest
    | succ j =>
      rw [List.take_succ_cons, List.cons_append, decodeFrom, nextByte, if_pos hb,
        if_neg howed]
      exact ih (Nat.lt_of_succ_lt_succ hj)

theorem Completes.continuation (h : Completes p bs n) :
    ∀ b ∈ bs, 0x80 ≤ b.toNat ∧ b.toNat < 0xC0 := by
  induction h with
  | last hb hp =>
    intro b hmem
    rw [List.mem_singleton.mp hmem]
    omega
  | more hb hp howed hbs ih =>
    intro b hmem
    rcases List.mem_cons.mp hmem with rfl | hmem
    · omega
    · exact ih b hmem

theorem toNat_ofNat (h : n < 256) : (UInt8.ofNat n).toNat = n := by
  rw [UInt8.toNat_ofNat']
  exact Nat.mod_eq_of_lt h

theorem completes_last {v m : ℕ} (hn : n = v * 64 + m % 64) :
    Completes ⟨1, 0x80, 0xBF, v⟩ [UInt8.ofNat (0x80 + m % 64)] n := by
  have hm : (UInt8.ofNat (0x80 + m % 64)).toNat = 0x80 + m % 64 := toNat_ofNat (by omega)
  exact .last (by rw [hm]; dsimp only; omega) ⟨le_rfl, le_rfl⟩ le_rfl
    (by rw [hm]; dsimp only; omega)

theorem completes_more {owed low high v m : ℕ} (hp : 0x80 ≤ low ∧ high ≤ 0xBF)
    (hm : low ≤ 0x80 + m % 64 ∧ 0x80 + m % 64 ≤ high)
    (h : Completes ⟨owed + 1, 0x80, 0xBF, v * 64 + m % 64⟩ bs n) :
    Completes ⟨owed + 2, low, high, v⟩ (UInt8.ofNat (0x80 + m % 64) :: bs) n := by
  have hb : (UInt8.ofNat (0x80 + m % 64)).toNat = 0x80 + m % 64 := toNat_ofNat (by omega)
  refine .more (by rw [hb]; exact hm) hp (by dsimp only; omega) ?_
  rw [hb, Nat.add_sub_cancel_left]
  exact h

end Completes

/-- **The bytes of a character**: one below `0x80`, or a first one and those that
complete it. -/
theorem utf8_spec (c : Char) : (∃ b : Byte, utf8 c.toNat = [b] ∧ b.toNat < 0x80
      ∧ Char.ofNat b.toNat = c)
    ∨ ∃ b p bs, utf8 c.toNat = b :: bs ∧ start b.toNat = ([], some p)
      ∧ Completes p bs c.toNat ∧ bs.length ≤ 3 := by
  have hvalid : c.toNat < 0xD800 ∨ 0xDFFF < c.toNat ∧ c.toNat < 0x110000 := c.valid
  have hc : Char.ofNat c.toNat = c := Char.ofNat_toNat c
  generalize c.toNat = n at hvalid hc ⊢
  unfold utf8
  split
  · rename_i h
    have hn : (UInt8.ofNat n).toNat = n := toNat_ofNat (by omega)
    exact .inl ⟨_, rfl, hn.symm ▸ h, hn.symm ▸ hc⟩
  have hstart {b : ℕ} {p : Unfinished} (hb : 0x80 ≤ b ∧ b < 256) (h : lead b = some p) :
      start (UInt8.ofNat b).toNat = ([], some p) := by
    rw [toNat_ofNat hb.2, start, if_neg (Nat.not_lt.mpr hb.1), h]
  refine .inr ?_
  split
  · refine ⟨_, _, _, rfl, hstart (by omega) (if_pos (by omega)), ?_, by simp⟩
    rw [Nat.add_sub_cancel_left]
    exact completes_last (by omega)
  split
  · refine ⟨_, _, _, rfl, hstart (by omega)
      ((if_neg (by omega)).trans (if_pos (by omega))), ?_, by simp⟩
    rw [Nat.add_sub_cancel_left]
    refine completes_more ?_ ?_ (completes_last (by omega))
    · split_ifs <;> decide
    · split_ifs <;> omega
  · refine ⟨_, _, _, rfl, hstart (by omega) ((if_neg (by omega)).trans
      ((if_neg (by omega)).trans (if_pos (by omega)))), ?_, by simp⟩
    rw [Nat.add_sub_cancel_left]
    refine completes_more ?_ ?_ (completes_more (by decide) (by omega)
      (completes_last (by omega)))
    · split_ifs <;> decide
    · split_ifs <;> omega

theorem utf8_of_cut {c : Char} {j : ℕ} (h : j + 1 < size c) :
    ∃ b p bs, utf8 c.toNat = b :: bs ∧ start b.toNat = ([], some p)
      ∧ Completes p bs c.toNat ∧ j < bs.length ∧ bs.length ≤ 3 := by
  unfold size at h
  rcases utf8_spec c with ⟨b, hb, -⟩ | ⟨b, p, bs, hb, hstart, hbs, hlen⟩
  · rw [hb] at h
    exact absurd h (by simp)
  · rw [hb, List.length_cons] at h
    exact ⟨b, p, bs, hb, hstart, hbs, Nat.lt_of_succ_lt_succ h, hlen⟩

/-! ## Whole characters and the cuts -/

theorem bytes_cons (c : Char) (text : List Char) :
    bytes (c :: text) = utf8 c.toNat ++ bytes text := rfl

theorem bytes_append (xs ys : List Char) : bytes (xs ++ ys) = bytes xs ++ bytes ys := by
  simp [bytes, encode, str]

theorem decode_utf8 (c : Char) (rest : List Byte) :
    decodeFrom none (utf8 c.toNat ++ rest) = c :: decodeFrom none rest := by
  rcases utf8_spec c with ⟨b, hb, hascii, hc⟩ | ⟨b, p, bs, hb, hstart, hbs, -⟩
  · rw [hb, List.singleton_append, decodeFrom, nextByte, start, if_pos hascii, hc]
    rfl
  · rw [hb, List.cons_append, decodeFrom, nextByte, hstart]
    exact (hbs.decode rest).trans (by rw [Char.ofNat_toNat])

theorem decode_bytes (text : List Char) (rest : List Byte) :
    decodeFrom none (bytes text ++ rest) = text ++ decodeFrom none rest := by
  induction text with
  | nil => rfl
  | cons c text ih => rw [bytes_cons, List.append_assoc, decode_utf8, ih]; rfl

theorem decode_whole (text : List Char) : decodeFrom none (bytes text) = text := by
  simpa [decodeFrom] using decode_bytes text []

theorem decode_continuation {bs : List Byte}
    (h : ∀ b ∈ bs, 0x80 ≤ b.toNat ∧ b.toNat < 0xC0) (rest : List Byte) :
    decodeFrom none (bs ++ rest)
      = List.replicate bs.length replacement ++ decodeFrom none rest := by
  induction bs with
  | nil => rfl
  | cons b bs ih =>
    obtain ⟨hb, hb'⟩ := h b List.mem_cons_self
    have hlead : lead b.toNat = none := by
      unfold lead
      rw [if_neg (by omega), if_neg (by omega), if_neg (by omega)]
    rw [List.cons_append, decodeFrom, nextByte, start, if_neg (by omega), hlead,
      ih fun x hx => h x (List.mem_cons_of_mem b hx)]
    rfl

/-- What a replacement adds to the head. -/
def surplus (offset : ℕ) : ℕ := if offset = 0 then 0 else 3 - offset

theorem decode_head (text : List Char) {n : ℕ} (hn : n ≤ (bytes text).length)
    (rest : List Byte) : offset text n ≤ 3 ∧ ∃ xs,
      decodeFrom none ((bytes text).take n ++ 10 :: rest)
          = xs ++ '\n' :: decodeFrom none rest
        ∧ (bytes xs).length = n + surplus (offset text n) := by
  induction text generalizing n with
  | nil =>
    cases Nat.le_zero.mp hn
    exact ⟨Nat.zero_le 3, [], rfl, rfl⟩
  | cons c text ih =>
    rw [bytes_cons, List.length_append] at hn
    rw [bytes_cons, offset]
    split
    · rename_i h
      rw [List.take_append_of_le_length (Nat.le_of_lt h)]
      cases n with
      | zero => exact ⟨Nat.zero_le 3, [], rfl, rfl⟩
      | succ j =>
        obtain ⟨b, p, bs, hb, hstart, hbs, hj, hlen⟩ := utf8_of_cut h
        refine ⟨by omega, [replacement], ?_, ?_⟩
        · rw [hb, List.take_succ_cons, List.cons_append, decodeFrom, nextByte, hstart]
          exact hbs.decode_take hj rest
        · rw [surplus, if_neg (Nat.succ_ne_zero j)]
          show 3 = _
          omega
    · rename_i h
      have hle : size c ≤ n := Nat.not_lt.mp h
      obtain ⟨hthree, xs, hxs, hlen⟩ := ih (n := n - size c) (by unfold size; omega)
      refine ⟨hthree, c :: xs, ?_, ?_⟩
      · rw [List.take_append, List.take_of_length_le hle, List.append_assoc, decode_utf8]
        exact congrArg _ hxs
      · rw [bytes_cons, List.length_append, hlen]
        unfold size at *
        omega

theorem decode_drop (c : Char) {j : ℕ} (h : j + 1 < size c) (rest : List Byte) :
    decodeFrom none ((utf8 c.toNat).drop (j + 1) ++ rest)
      = List.replicate (size c - (j + 1)) replacement ++ decodeFrom none rest := by
  obtain ⟨b, p, bs, hb, -, hbs, -⟩ := utf8_of_cut h
  have hcut := @decode_continuation (bs.drop j)
    (fun x hx => hbs.continuation x (List.mem_of_mem_drop hx)) rest
  rw [size, hb, List.drop_succ_cons, hcut, List.length_drop, List.length_cons,
    Nat.add_sub_add_right]

theorem bytes_replicate (k : ℕ) : (bytes (List.replicate k replacement)).length = 3 * k := by
  induction k with
  | zero => rfl
  | succ k ih =>
    rw [List.replicate_succ, bytes_cons, List.length_append, ih, Nat.mul_succ, Nat.add_comm]
    rfl

theorem decode_tail (text : List Char) {n : ℕ} (hn : n ≤ (bytes text).length) :
    ∃ k, (bytes (decode ((bytes text).drop n))).length = (bytes text).length - n + 2 * k
      ∧ (k = 0 ↔ offset text n = 0) := by
  unfold decode
  induction text generalizing n with
  | nil =>
    cases Nat.le_zero.mp hn
    exact ⟨0, rfl, Iff.rfl⟩
  | cons c text ih =>
    have hlen : (bytes (c :: text)).length = size c + (bytes text).length := by
      rw [bytes_cons, List.length_append, size]
    rw [hlen] at hn ⊢
    rw [offset]
    split
    · rename_i h
      cases n with
      | zero => exact ⟨0, by rw [List.drop_zero, decode_whole, hlen]; rfl, Iff.rfl⟩
      | succ j =>
        refine ⟨size c - (j + 1), ?_, iff_of_false (by omega) (Nat.succ_ne_zero j)⟩
        rw [bytes_cons, List.drop_append_of_le_length (Nat.le_of_lt h), decode_drop c h,
          decode_whole, bytes_append, List.length_append, bytes_replicate]
        omega
    · rename_i h
      have hle : size c ≤ n := Nat.not_lt.mp h
      obtain ⟨k, hk, hiff⟩ := ih (n := n - size c) (by omega)
      refine ⟨k, ?_, hiff⟩
      rw [bytes_cons, List.drop_append, List.drop_of_length_le hle, List.nil_append,
        ← size, hk]
      omega

/-! ## The cap -/

theorem marker_length : marker.length = 19 := by decide

theorem truncated_length {text : List Char} {byteCap : ℕ}
    (hlong : byteCap < (bytes text).length) (hkeep : 0 < keep byteCap) :
    offset text (keep byteCap) ≤ 3 ∧ ∃ k,
      (bytes (truncateToolOutput text byteCap).1).length
          = 2 * keep byteCap + 19 + surplus (offset text (keep byteCap)) + 2 * k
        ∧ (k = 0 ↔ offset text ((bytes text).length - keep byteCap) = 0) := by
  have hle : keep byteCap ≤ (bytes text).length := by
    unfold keep at *
    omega
  have hmarker (rest : List Byte) : marker ++ rest
      = 10 :: (bytes markerText.tail ++ rest) := rfl
  obtain ⟨k, hk, hiff⟩ := decode_tail text (Nat.sub_le (bytes text).length (keep byteCap))
  obtain ⟨hthree, xs, hxs, hlen⟩ := decode_head text hle (bytes markerText.tail
    ++ (bytes text).drop ((bytes text).length - keep byteCap))
  refine ⟨hthree, k, ?_, hiff⟩
  have hmark : (bytes ('\n' :: markerText.tail)).length = 19 := marker_length
  rw [truncateToolOutput, if_neg (Nat.not_le.mpr hlong), lastBytes,
    if_neg (Nat.ne_of_gt hkeep), List.append_assoc, hmarker, decode, hxs, decode_bytes,
    ← List.cons_append, bytes_append, bytes_append, List.length_append,
    List.length_append, hlen, hmark]
  rw [decode] at hk
  omega

theorem truncated_whole {text : List Char} {byteCap : ℕ}
    (hlong : byteCap < (bytes text).length) (hkeep : keep byteCap = 0) :
    byteCap < (bytes (truncateToolOutput text byteCap).1).length := by
  rw [truncateToolOutput, if_neg (Nat.not_le.mpr hlong), hkeep, lastBytes, if_pos rfl,
    List.take_zero, List.nil_append, marker, ← bytes_append, decode,
    decode_whole, bytes_append, List.length_append]
  omega

theorem fits_iff (text : List Char) (byteCap : ℕ) :
    (bytes (truncateToolOutput text byteCap).1).length ≤ byteCap ↔ Fits byteCap text := by
  by_cases hshort : (bytes text).length ≤ byteCap
  · rw [truncateToolOutput, if_pos hshort]
    exact iff_of_true hshort (.inl hshort)
  have hlong : byteCap < (bytes text).length := Nat.not_le.mp hshort
  have hroom : keep byteCap = (byteCap - 19) / 2 := by rw [keep, marker_length]
  rw [Fits, or_iff_right hshort]
  by_cases hkeep : keep byteCap = 0
  · exact iff_of_false (Nat.not_le.mpr (truncated_whole hlong hkeep)) (by omega)
  · obtain ⟨hthree, k, hlen, hk⟩ := truncated_length hlong (Nat.pos_of_ne_zero hkeep)
    rw [hlen, ← hk, surplus]
    split <;> omega

section Context

variable {Image : Type} {threshold : ℕ → ℕ} {r : ContextRequest Image}

theorem projected_capped (m : HarnessMessage Image) (toolByteCap : ℕ) :
    ((m.projected toolByteCap).role = .tool →
        (bytes (m.projected toolByteCap).content).length ≤ toolByteCap)
      ↔ (m.role = .tool → Fits toolByteCap m.content) := by
  rw [← fits_iff, HarnessMessage.projected]
  split
  · rename_i hrole
    by_cases hshort : (bytes m.content).length ≤ toolByteCap
    · simp [truncateToolOutput, hshort]
    · simp [truncateToolOutput, hshort]
  · rename_i hrole
    exact iff_of_true (absurd · hrole) (absurd · hrole)

def ContextRequest.sent (threshold : ℕ → ℕ) (r : ContextRequest Image) :
    List (HarnessMessage Image) :=
  if r.summarizes threshold then r.history.drop (r.history.length - 4) else r.history

theorem make_role {role : Role} {content : List Char} {images : List Image}
    {m : HarnessMessage Image} (h : HarnessMessage.make role content images = some m) :
    m.role = role := by
  unfold HarnessMessage.make at h
  split at h
  · cases h
    rfl
  · cases h

theorem prepareContext_tool {transmitted : List (HarnessMessage Image)}
    {budget : ContextBudget} (h : prepareContext threshold r = some (transmitted, budget))
    (m : HarnessMessage Image) (hrole : m.role = .tool) : m ∈ transmitted
      ↔ m ∈ (r.sent threshold).map (·.projected r.toolByteCap) := by
  unfold prepareContext at h
  simp only [Option.bind_eq_bind, Option.bind_eq_some_iff] at h
  obtain ⟨summaries, hsummaries, system, hsystem, user, huser, h⟩ := h
  split at h
  · cases h
  cases h
  have hother {role : Role} {x : HarnessMessage Image} {content images}
      (hne : role ≠ .tool) (h : HarnessMessage.make role content images = some x) :
      m ≠ x := by
    rintro rfl
    exact hne ((make_role h).symm.trans hrole)
  have hsummary : m ∉ summaries := by
    intro hmem
    unfold HarnessMessage.ofSummary at hsummaries
    split at hsummaries
    · cases hsummaries
      cases hmem
    · cases hsummaries
      cases hmem
    · obtain ⟨x, hx, rfl⟩ := Option.map_eq_some_iff.mp hsummaries
      exact hother (by decide) hx (List.mem_singleton.mp hmem)
  have hrecent : (r.history.map (·.projected r.toolByteCap)).drop
      (if r.summarizes threshold then (r.history.map (·.projected r.toolByteCap)).take
        ((r.history.map (·.projected r.toolByteCap)).length - 4) else []).length
      = (r.sent threshold).map (·.projected r.toolByteCap) := by
    unfold ContextRequest.sent
    split
    · simp
    · rfl
  rw [hrecent]
  simp [hother (by decide) hsystem, hother (by decide) huser, hsummary]

end Context

/-- **Truncated tool output fits its cap** if and only if the text leaves it room, and a
context has no tool message above the cap if and only if that is so for the tool messages
of the history that are sent. -/
theorem tool_output_capped_iff (text : List Char) (byteCap : ℕ) {Image : Type}
    (threshold : ℕ → ℕ) (r : ContextRequest Image) :
    ((bytes (truncateToolOutput text byteCap).1).length ≤ byteCap ↔ Fits byteCap text)
    ∧ ∀ transmitted budget, prepareContext threshold r = some (transmitted, budget) →
      ((∀ m ∈ transmitted, m.role = .tool → (bytes m.content).length ≤ r.toolByteCap)
        ↔ ∀ m ∈ r.sent threshold, m.role = .tool → Fits r.toolByteCap m.content) := by
  refine ⟨fits_iff text byteCap, fun transmitted budget h => ?_⟩
  have hmem := prepareContext_tool h
  constructor
  · intro hcap m hm hrole
    refine (projected_capped m r.toolByteCap).mp (fun hp => ?_) hrole
    exact hcap _ ((hmem _ hp).mpr (List.mem_map_of_mem hm)) hp
  · intro hfits m hm hrole
    obtain ⟨x, hx, rfl⟩ := List.mem_map.mp ((hmem m hrole).mp hm)
    exact (projected_capped x r.toolByteCap).mpr (hfits x hx) hrole

def oneTool (content : List Char) (toolByteCap : ℕ) : ContextRequest Unit :=
  ⟨[], [], [⟨.tool, content, [], none, false⟩], 9, 0, none, toolByteCap, []⟩

theorem tool_message_fits : ∃ transmitted budget,
    prepareContext (· * 4 / 5) (oneTool (List.replicate 30 'x') 24)
      = some (transmitted, budget)
    ∧ ∀ m ∈ transmitted, m.role = .tool → (bytes m.content).length ≤ 24 := by
  refine ⟨_, _, rfl, ((tool_output_capped_iff [] 24 (· * 4 / 5)
    (oneTool (List.replicate 30 'x') 24)).2 _ _ rfl).mpr ?_⟩
  intro m hm _
  cases List.mem_singleton.mp hm
  exact .inr (by decide)

theorem tool_output_above_cap :
    (bytes (truncateToolOutput ['x', 'x'] 1).1).length = 21
    ∧ (bytes (truncateToolOutput (List.replicate 11 'é') 21).1).length = 25
    ∧ ∃ transmitted budget,
      prepareContext (· * 4 / 5) (oneTool ['x', 'x'] 1) = some (transmitted, budget)
      ∧ (transmitted.map fun m => (bytes m.content).length) = [0, 21, 0] :=
  ⟨by decide, by decide, _, _, rfl, by decide⟩

end ToolOutput
