import Coire.EngineEvents
import Coire.Framing

/-!
# Rewriting the model's name in a stream

`rewrite_openai_model`: the bytes of an engine arrive in chunks; their line ends are
made `\n`, where a `\r` at the end of a chunk waits for the next one; each complete
frame is yielded, with the public id in place of the engine's own name of the model. A
frame that holds the private path of the model ends the stream with `EngineProxyError`,
as does one that is too long, no JSON or not complete.

The length of a frame is tested when it is complete, and that of the buffer at the end
of each chunk. The buffer may hold the first of the two line ends after a frame, so a
frame of exactly the limit passes the first test and not the second: the stream goes on
or fails, as the chunks are cut. With other frames the chunks do not matter
(`rewriting_chunking_iff`).
-/

namespace ModelRewrite

open EngineEvents Occurrence Framing

/-! ## Line ends -/

def crlfToLf : List Byte → List Byte
  | [] => []
  | [c] => [c]
  | c :: d :: data =>
    if c = CR ∧ d = LF then LF :: crlfToLf data else c :: crlfToLf (d :: data)

def newlines (data : List Byte) : List Byte :=
  (crlfToLf data).map fun c => if c = CR then LF else c

/-- **What a chunk adds to the buffer**, and whether a `\r` is kept back for the
next one. -/
def normalize (trailing : Bool) (chunk : List Byte) : List Byte × Bool :=
  let data := (if trailing then [CR] else []) ++ chunk
  if data.getLast? = some CR then (newlines data.dropLast, true)
  else (newlines data, false)

/-! ## Frames -/

def limit : ℕ := 2 * 1024 * 1024

/-- Why `EngineProxyError` is raised. -/
inductive Refusal
  /-- `engine event exceeds limit` -/
  | exceedsLimit
  /-- `engine event contains private model path` -/
  | containsPath
  /-- `invalid engine event` -/
  | invalidEvent
  /-- `incomplete engine event` -/
  | incompleteEvent
  deriving DecidableEq

inductive Failure
  | proxyError (detail : Refusal)
  | raised
  deriving DecidableEq

def utf8 (c : ℕ) : List Byte :=
  if c < 0x80 then [UInt8.ofNat c]
  else if c < 0x800 then [UInt8.ofNat (0xC0 + c / 64), UInt8.ofNat (0x80 + c % 64)]
  else if c < 0x10000 then
    [UInt8.ofNat (0xE0 + c / 4096), UInt8.ofNat (0x80 + c / 64 % 64),
      UInt8.ofNat (0x80 + c % 64)]
  else
    [UInt8.ofNat (0xF0 + c / 262144), UInt8.ofNat (0x80 + c / 4096 % 64),
      UInt8.ofNat (0x80 + c / 64 % 64), UInt8.ofNat (0x80 + c % 64)]

def encode (text : Str) : List Byte := text.flatMap utf8

structure Request where
  publicModel : Str
  privateModelPath : Option (List Char)

def Request.privatePath (request : Request) : Option (List Byte) :=
  match request.privateModelPath with
  | none => none
  | some path => if path = [] then none else some (encode (str path))

def dataLines (lines : List (List Byte)) : List (List Byte) :=
  (lines.filter fun line => dataField.isPrefixOf line).map fun line =>
    let rest := line.drop 5
    if rest.head? = some 32 then rest.tail else rest

def modelKey : Str := str ['m', 'o', 'd', 'e', 'l']

def setModel {Number : Type} (publicModel : Str) :
    Value Number → Option (Value Number)
  | .object fields =>
    if fields.any fun field => field.1 = modelKey then
      some (.object (fields.map fun field =>
        if field.1 = modelKey then (field.1, .string publicModel) else field))
    else none
  | _ => none

/-- The lines of a frame that are no data, and a line end after them if there are
any. -/
def metadata (lines : List (List Byte)) : List Byte :=
  let joined := joinLines (lines.filter fun line => ¬ dataField.isPrefixOf line)
  if joined = [] then [] else joined ++ [LF]

/-- The test for the private path before an event is yielded. -/
def checked (request : Request) (rendered : List Byte) : Except Failure (List Byte) :=
  match request.privatePath with
  | none => .ok rendered
  | some path =>
    if path <:+: rendered then .error (.proxyError .containsPath) else .ok rendered

def rendered (J : Json) (request : Request) (frame : List Byte) :
    Except Failure (List Byte) :=
  let lines := frame.splitOn LF
  let data := dataLines lines
  if data = [] ∨ joinLines data = done then checked request (frame ++ [LF, LF])
  else
    match J.loads (joinLines data) with
    | .error .invalid => .error (.proxyError .invalidEvent)
    | .error .other => .error .raised
    | .ok event =>
      match setModel request.publicModel event with
      | none => checked request (frame ++ [LF, LF])
      | some event =>
        match J.dumps event with
        | .error _ => .error .raised
        | .ok text =>
          checked request (metadata lines ++ (dataField ++ [32]) ++ text ++ [LF, LF])

def rewriteFrame (J : Json) (request : Request) (frame : List Byte) :
    Except Failure (List Byte) :=
  if frame.length > limit then .error (.proxyError .exceedsLimit)
  else rendered J request frame

/-- The body of `while b"\n\n" in buffer`, the frames yielded so far being given. -/
def yieldFrame (J : Json) (request : Request) (yielded : List (List Byte))
    (frame : List Byte) : List (List Byte) × Option Failure :=
  match rewriteFrame J request frame with
  | .error failure => (yielded, some failure)
  | .ok event => (yielded ++ [event], none)

/-! ## Streams -/

structure Rewriter where
  yielded : List (List Byte) := []
  buffer : List Byte := []
  trailing : Bool := false

/-- The body of `async for`. -/
def feed (J : Json) (request : Request) (r : Rewriter) (chunk : List Byte) :
    Rewriter × Option Failure :=
  let (added, trailing) := normalize r.trailing chunk
  match drain [LF, LF] (yieldFrame J request) r.yielded (r.buffer ++ added) with
  | (yielded, some failure, buffer) => (⟨yielded, buffer, trailing⟩, some failure)
  | (yielded, none, buffer) =>
    (⟨yielded, buffer, trailing⟩,
      if buffer.length > limit then some (.proxyError .exceedsLimit) else none)

/-- The rest of a stream: the frames that are yielded, and how it fails if it
does. -/
def rewriteFrom (J : Json) (request : Request) :
    Rewriter → List (List Byte) → List (List Byte) × Option Failure
  | r, [] =>
    (r.yielded,
      if r.buffer ≠ [] ∨ r.trailing then some (.proxyError .incompleteEvent) else none)
  | r, chunk :: chunks =>
    match feed J request r chunk with
    | (r, some failure) => (r.yielded, some failure)
    | (r, none) => rewriteFrom J request r chunks

def rewriteOpenaiModel (J : Json) (request : Request) (chunks : List (List Byte)) :
    List (List Byte) × Option Failure :=
  rewriteFrom J request {} chunks

inductive End
  | normal | proxyError | raised
  deriving DecidableEq

/-- The end of a stream, without the detail of the error. -/
def ending : Option Failure → End
  | none => .normal
  | some (.proxyError _) => .proxyError
  | some .raised => .raised

def outcome (J : Json) (request : Request) (chunks : List (List Byte)) :
    List (List Byte) × End :=
  ((rewriteOpenaiModel J request chunks).1,
    ending (rewriteOpenaiModel J request chunks).2)

/-! ## Line ends and chunks -/

variable {data x y : List Byte}

theorem crlfToLf_append (h : x.getLast? ≠ some CR ∨ y.head? ≠ some LF) :
    crlfToLf (x ++ y) = crlfToLf x ++ crlfToLf y := by
  induction x using crlfToLf.induct with
  | case1 => rfl
  | case2 c =>
    cases y with
    | nil => rfl
    | cons d y => grind [crlfToLf]
  | case3 c d data hcrlf ih =>
    grind [crlfToLf]
  | case4 c d data hcrlf ih =>
    grind [crlfToLf]

theorem newlines_append (h : x.getLast? ≠ some CR ∨ y.head? ≠ some LF) :
    newlines (x ++ y) = newlines x ++ newlines y := by
  unfold newlines
  rw [crlfToLf_append h, List.map_append]

def kept (trailing : Bool) : List Byte := if trailing then [CR] else []

/-- The data without a `\r` at its end, and whether there was one. -/
def strip (data : List Byte) : List Byte × Bool :=
  if data.getLast? = some CR then (data.dropLast, true) else (data, false)

theorem normalize_eq (trailing : Bool) (chunk : List Byte) : normalize trailing chunk
      = (newlines (strip (kept trailing ++ chunk)).1,
        (strip (kept trailing ++ chunk)).2) := by
  grind [strip, normalize, kept]

theorem strip_append_kept (data : List Byte) :
    (strip data).1 ++ kept (strip data).2 = data := by
  grind [strip, List.dropLast_append_getLast?, kept]

theorem strip_fst_getLast (h : (strip data).2 = false) :
    (strip data).1.getLast? ≠ some CR := by
  unfold strip at h ⊢
  split
  · grind
  · assumption

theorem strip_append (hy : y ≠ []) :
    strip (x ++ y) = (x ++ (strip y).1, (strip y).2) := by
  grind [strip, List.getLast?_append_of_ne_nil]

theorem normalize_append (trailing : Bool) (x y : List Byte) :
    normalize trailing (x ++ y)
      = ((normalize trailing x).1 ++ (normalize (normalize trailing x).2 y).1,
        (normalize (normalize trailing x).2 y).2) := by
  rw [normalize_eq trailing x]
  dsimp only
  rw [normalize_eq, normalize_eq]
  set first := strip (kept trailing ++ x) with hfirst
  have hsplit : kept trailing ++ (x ++ y) = first.1 ++ (kept first.2 ++ y) := by
    rw [← List.append_assoc, ← List.append_assoc, strip_append_kept]
  by_cases hempty : kept first.2 ++ y = []
  · obtain ⟨hkept, rfl⟩ := List.append_eq_nil_iff.mp hempty
    have hnone : first.2 = false := by
      grind [kept]
    rw [List.append_nil, ← hfirst, hempty]
    show (newlines first.1, first.2) = (newlines first.1 ++ [], false)
    rw [List.append_nil, hnone]
  · rw [hsplit, strip_append hempty]
    refine Prod.ext ?_ rfl
    refine newlines_append ?_
    cases htrail : first.2 with
    | false => exact .inl (strip_fst_getLast htrail)
    | true =>
      refine .inr fun hhead => ?_
      -- what follows begins with the `\r` that was kept back
      have hstart := strip_append_kept (CR :: y)
      cases hrest : (strip (CR :: y)).1 with
      | nil => grind [kept]
      | cons c rest =>
        rw [show kept true ++ y = CR :: y from rfl, hrest] at hhead
        rw [hrest] at hstart
        have hc : c = CR := (List.cons.inj hstart).1
        exact absurd (hc.symm.trans (Option.some.inj hhead)) (by decide)

theorem normalize_singleton (trailing : Bool) (c : Byte) :
    (normalize trailing [c]).1.length ≤ 1
      ∨ (normalize trailing [c]).1 = [LF, c] ∧ c ≠ LF := by
  by_cases hcr : c = CR
  · subst hcr
    refine .inl ?_
    revert trailing
    decide
  by_cases hlf : c = LF
  · subst hlf
    refine .inl ?_
    revert trailing
    decide
  cases trailing with
  | false =>
    refine .inl ?_
    unfold normalize newlines
    simp [crlfToLf, hcr]
  | true =>
    refine .inr ⟨?_, hlf⟩
    unfold normalize newlines
    simp [crlfToLf, hcr, hlf]

theorem exists_cut {stream : List Byte} {trailing : Bool}
    (h : (normalize trailing stream).1 = x ++ LF :: y) :
    ∃ p q, stream = p ++ q ∧ (normalize trailing p).1 = x := by
  have hnil : ∀ trailing, (normalize trailing []).1 = [] := by decide
  induction stream generalizing trailing x with
  | nil => grind [normalize]
  | cons c stream ih =>
    have hcons : ∀ p, (normalize trailing (c :: p)).1 = (normalize trailing [c]).1
          ++ (normalize (normalize trailing [c]).2 p).1 :=
      fun p => congrArg Prod.fst (normalize_append trailing [c] p)
    rw [hcons] at h
    rcases List.append_eq_append_iff.mp h with ⟨a, hx, hrest⟩ | ⟨a, hadded, hrest⟩
    · grind
    -- the cut is in what one byte adds: at its start or at its end
    cases x with
    | nil => exact ⟨[], c :: stream, rfl, hnil _⟩
    | cons b x =>
      cases a with
      | nil => grind
      | cons d a =>
        have hd : LF = d := (List.cons.inj hrest).1
        rcases normalize_singleton trailing c with hshort | ⟨htwo, hc⟩
        · grind
        rw [htwo] at hadded
        have htail : [c] = x ++ d :: a := (List.cons.inj hadded).2
        cases x with
        | nil => grind
        | cons e x => grind

/-! ## Chunks -/

section Chunks

variable {J : Json} {request : Request} {r : Rewriter} {yielded : List (List Byte)}
  {buffer data frame : List Byte} {trailing : Bool}

theorem blankLine_ne_nil : [LF, LF] ≠ [] := List.cons_ne_nil _ _

/-- What is left to do when the buffer is drained for the last time. -/
def close (trailing : Bool) :
    List (List Byte) × Option Failure × List Byte → List (List Byte) × Option Failure
  | (yielded, some failure, _) => (yielded, some failure)
  | (yielded, none, buffer) =>
    (yielded,
      if buffer.length > limit then some (.proxyError .exceedsLimit)
      else if buffer ≠ [] ∨ trailing then some (.proxyError .incompleteEvent)
      else none)

theorem close_rest (trailing : Bool) (yielded : List (List Byte))
    (buffer : List Byte) : close trailing (yielded, none, buffer) = (yielded,
      if buffer.length > limit then some (.proxyError .exceedsLimit)
      else if buffer ≠ [] ∨ trailing then some (.proxyError .incompleteEvent)
      else none) := rfl

variable {chunks : List (List Byte)}

theorem rewriteFrom_cons_of_fails {failure : Failure}
    (h : drain [LF, LF] (yieldFrame J request) r.yielded
      (r.buffer ++ (normalize r.trailing data).1) = (yielded, some failure, buffer)) :
    rewriteFrom J request r (data :: chunks) = (yielded, some failure) := by
  rw [rewriteFrom, feed]
  dsimp only
  rw [h]

theorem rewriteFrom_cons_of_long (h : drain [LF, LF] (yieldFrame J request) r.yielded
      (r.buffer ++ (normalize r.trailing data).1) = (yielded, none, buffer))
    (hlong : buffer.length > limit) :
    rewriteFrom J request r (data :: chunks)
      = (yielded, some (.proxyError .exceedsLimit)) := by
  rw [rewriteFrom, feed]
  dsimp only
  rw [h]
  dsimp only
  rw [if_pos hlong]

theorem rewriteFrom_cons (h : drain [LF, LF] (yieldFrame J request) r.yielded
      (r.buffer ++ (normalize r.trailing data).1) = (yielded, none, buffer))
    (hshort : ¬ buffer.length > limit) :
    rewriteFrom J request r (data :: chunks)
      = rewriteFrom J request ⟨yielded, buffer, (normalize r.trailing data).2⟩
        chunks := by
  rw [rewriteFrom, feed]
  dsimp only
  rw [h]
  dsimp only
  rw [if_neg hshort]

theorem rewriteFrom_one (r : Rewriter) (data : List Byte) :
    rewriteFrom J request r [data] = close (normalize r.trailing data).2
        (drain [LF, LF] (yieldFrame J request) r.yielded
          (r.buffer ++ (normalize r.trailing data).1)) := by
  rcases hdrain : drain [LF, LF] (yieldFrame J request) r.yielded
    (r.buffer ++ (normalize r.trailing data).1) with ⟨yielded, _ | failure, buffer⟩
  · rw [close_rest]
    by_cases hlong : buffer.length > limit
    · rw [rewriteFrom_cons_of_long hdrain hlong, if_pos hlong]
    · rw [rewriteFrom_cons hdrain hlong, if_neg hlong]
      rfl
  · exact rewriteFrom_cons_of_fails hdrain

def Refused (J : Json) (request : Request) (frame : List Byte) : Prop :=
  ∃ detail, rewriteFrame J request frame = .error (.proxyError detail)

/-- **The frames that the stream comes to**: those before them are yielded. -/
def Reached (J : Json) (request : Request) (stream frame : List Byte) : Prop :=
  ∃ yielded, Handled [LF, LF] (yieldFrame J request) []
    (normalize false stream).1 yielded frame

theorem refused_of_long (h : frame.length > limit) : Refused J request frame :=
  ⟨.exceedsLimit, if_pos h⟩

/-- **A buffer that is too long is refused in one chunk as well**, unless a frame of
exactly the limit is what makes it so. -/
theorem close_of_long (hfind : find [LF, LF] buffer = none)
    (hlong : buffer.length > limit)
    (h : ∀ t frame, Handled [LF, LF] (yieldFrame J request) yielded
      (buffer ++ data) t frame → frame.length = limit → Refused J request frame) :
    ∃ detail, close trailing (drain [LF, LF] (yieldFrame J request) yielded
      (buffer ++ data)) = (yielded, some (.proxyError detail)) := by
  cases hmore : find [LF, LF] (buffer ++ data) with
  | none =>
    refine ⟨.exceedsLimit, ?_⟩
    rw [drain_of_find_eq_none hmore, close_rest, if_pos]
    rw [List.length_append]
    omega
  | some i =>
    -- the first frame ends behind the buffer, but for its last line end
    have hle := add_length_le_of_find blankLine_ne_nil hmore
    have hbehind : buffer.length < i + 2 := by
      by_contra hnot
      rw [find_of_find_append blankLine_ne_nil hmore (Nat.le_of_not_lt hnot)] at hfind
      cases hfind
    have hlength : ((buffer ++ data).take i).length = i := by
      rw [List.length_take]
      exact Nat.min_eq_left ((Nat.le_add_right i 2).trans hle)
    obtain ⟨detail, hrefused⟩ : Refused J request ((buffer ++ data).take i) := by
      rcases Nat.lt_or_ge limit i with hlt | hge
      · exact refused_of_long (by rw [hlength]; exact hlt)
      · exact h _ _ (.here hmore) (by omega)
    refine ⟨detail, ?_⟩
    have hhandle : yieldFrame J request yielded ((buffer ++ data).take i)
        = (yielded, some (.proxyError detail)) := by
      unfold yieldFrame
      rw [hrefused]
    rw [drain_of_fails blankLine_ne_nil hmore hhandle]
    rfl

theorem yielded_prefix_drain (yielded : List (List Byte)) (buffer : List Byte) :
    yielded <+: (drain [LF, LF] (yieldFrame J request) yielded buffer).1 := by
  induction yielded, buffer using
    drain_induction (yieldFrame J request) blankLine_ne_nil with
  | hnone yielded buffer hfind =>
    rw [drain_of_find_eq_none hfind]
  | hfails yielded buffer i t failure hfind hhandle =>
    rw [drain_of_fails blankLine_ne_nil hfind hhandle]
    unfold yieldFrame at hhandle
    split at hhandle
    · cases hhandle
      exact List.prefix_refl _
    · cases hhandle
  | hhandled yielded buffer i t hfind hhandle ih =>
    rw [drain_of_handled blankLine_ne_nil hfind hhandle]
    unfold yieldFrame at hhandle
    split at hhandle
    · cases hhandle
    · cases hhandle
      exact (List.prefix_append _ _).trans ih

theorem close_fst (result : List (List Byte) × Option Failure × List Byte) :
    (close trailing result).1 = result.1 := by
  obtain ⟨yielded, _ | failure, buffer⟩ := result
  · rfl
  · rfl

theorem rewriteFrom_one_append (data' : List Byte)
    (h : drain [LF, LF] (yieldFrame J request) r.yielded
      (r.buffer ++ (normalize r.trailing data).1) = (yielded, none, buffer)) :
    rewriteFrom J request r [data ++ data']
      = rewriteFrom J request ⟨yielded, buffer, (normalize r.trailing data).2⟩
        [data'] := by
  rw [rewriteFrom_one, rewriteFrom_one, normalize_append]
  dsimp only
  rw [← List.append_assoc, drain_append blankLine_ne_nil h]

theorem rewriteFrom_one_append_of_fails (data' : List Byte) {failure : Failure}
    (h : drain [LF, LF] (yieldFrame J request) r.yielded
      (r.buffer ++ (normalize r.trailing data).1) = (yielded, some failure, buffer)) :
    rewriteFrom J request r [data ++ data'] = (yielded, some failure) := by
  rw [rewriteFrom_one, normalize_append]
  dsimp only
  rw [← List.append_assoc, drain_append_of_fails blankLine_ne_nil h]
  rfl

theorem rewrite_chunks (chunks : List (List Byte))
    (hfind : find [LF, LF] r.buffer = none) (hshort : ¬ r.buffer.length > limit)
    (h : ∀ t frame, Handled [LF, LF] (yieldFrame J request) r.yielded
      (r.buffer ++ (normalize r.trailing chunks.flatten).1) t frame →
      frame.length = limit → Refused J request frame) :
    (rewriteFrom J request r chunks).1 = (rewriteFrom J request r [chunks.flatten]).1
      ∧ ending (rewriteFrom J request r chunks).2
        = ending (rewriteFrom J request r [chunks.flatten]).2 := by
  induction chunks generalizing r with
  | nil =>
    have hnil : normalize r.trailing [] = ([], r.trailing) := by
      cases r.trailing with
      | false => rfl
      | true => rfl
    rw [List.flatten_nil, rewriteFrom_one, hnil, List.append_nil,
      drain_of_find_eq_none hfind, close_rest, if_neg hshort]
    exact ⟨rfl, rfl⟩
  | cons chunk chunks ih =>
    rw [List.flatten_cons] at h ⊢
    rw [normalize_append] at h
    dsimp only at h
    rw [← List.append_assoc] at h
    rcases hdrain : drain [LF, LF] (yieldFrame J request) r.yielded
      (r.buffer ++ (normalize r.trailing chunk).1) with ⟨yielded, _ | failure, buffer⟩
    · have hrest := find_of_drain blankLine_ne_nil hdrain
      have hlater : ∀ t frame, Handled [LF, LF] (yieldFrame J request) yielded
          (buffer ++ (normalize (normalize r.trailing chunk).2 chunks.flatten).1) t
            frame → frame.length = limit → Refused J request frame :=
        fun t frame hf => h t frame (.append blankLine_ne_nil hdrain hf)
      rw [rewriteFrom_one_append _ hdrain]
      by_cases hlong : buffer.length > limit
      · rw [rewriteFrom_cons_of_long hdrain hlong, rewriteFrom_one]
        obtain ⟨detail, hclose⟩ := close_of_long hrest hlong hlater
        rw [hclose]
        exact ⟨rfl, rfl⟩
      · rw [rewriteFrom_cons hdrain hlong]
        exact ih hrest hlong hlater
    · rw [rewriteFrom_cons_of_fails hdrain, rewriteFrom_one_append_of_fails _ hdrain]
      exact ⟨rfl, rfl⟩

/-- A frame of exactly the limit is not yielded, if the stream is cut between the
two line ends after it. -/
theorem exists_chunks_of_reached {stream : List Byte}
    (hreached : Reached J request stream frame) (hlength : frame.length = limit)
    (hnot : ¬ Refused J request frame) :
    ∃ chunks, chunks.flatten = stream
      ∧ outcome J request chunks ≠ outcome J request [stream] := by
  obtain ⟨yielded, hhandled⟩ := hreached
  obtain ⟨x, y, hstream, hdrain, hfind⟩ := hhandled.split blankLine_ne_nil
  have hcut : (normalize false stream).1 = x ++ (frame ++ [LF]) ++ LF :: y := by
    rw [hstream, List.append_assoc, List.append_assoc]
    rfl
  obtain ⟨p, q, rfl, hp⟩ := exists_cut hcut
  refine ⟨[p, q], by rw [List.flatten_cons, List.flatten_singleton], ?_⟩
  -- cut there, the buffer is one byte too long
  have hfirst : find [LF, LF] (frame ++ [LF]) = none := by
    have happend : frame ++ ([LF, LF] ++ y) = frame ++ [LF] ++ (LF :: y) := by
      rw [List.append_assoc]
      rfl
    rw [happend] at hfind
    refine find_eq_none_of_append blankLine_ne_nil hfind ?_
    rw [List.length_append]
    exact Nat.lt_succ_self _
  have hbuffer : drain [LF, LF] (yieldFrame J request) []
      ([] ++ (normalize false p).1) = (yielded, none, frame ++ [LF]) := by
    rw [List.nil_append, hp, drain_append blankLine_ne_nil hdrain, List.nil_append,
      drain_of_find_eq_none hfirst]
  have hcutOutcome : rewriteOpenaiModel J request [p, q]
      = (yielded, some (.proxyError .exceedsLimit)) := by
    refine rewriteFrom_cons_of_long (r := {}) hbuffer ?_
    rw [List.length_append, hlength]
    exact Nat.lt_succ_self _
  -- in one chunk, the frame is yielded, or raises another error
  have hwhole : rewriteOpenaiModel J request [p ++ q]
      = close (normalize false (p ++ q)).2
        (drain [LF, LF] (yieldFrame J request) yielded (frame ++ ([LF, LF] ++ y))) := by
    refine (rewriteFrom_one {} _).trans ?_
    show close _ (drain _ _ [] (normalize false (p ++ q)).1) = _
    rw [hstream, drain_append blankLine_ne_nil hdrain, List.nil_append]
  unfold outcome
  rw [hcutOutcome, hwhole]
  intro heq
  obtain ⟨hyielded, hend⟩ : yielded = _ ∧ End.proxyError = _ := Prod.mk.inj heq
  have htake : (frame ++ ([LF, LF] ++ y)).take frame.length = frame := List.take_left
  cases hframe : rewriteFrame J request frame with
  | ok event =>
    have hhandle : yieldFrame J request yielded
        ((frame ++ ([LF, LF] ++ y)).take frame.length)
          = (yielded ++ [event], none) := by
      unfold yieldFrame
      rw [htake, hframe]
    rw [close_fst, drain_of_handled blankLine_ne_nil hfind hhandle] at hyielded
    have hlonger : (yielded ++ [event]).length ≤ yielded.length :=
      (yielded_prefix_drain _ _).length_le.trans (congrArg List.length hyielded.symm).le
    rw [List.length_append, List.length_singleton] at hlonger
    omega
  | error failure =>
    have hhandle : yieldFrame J request yielded
        ((frame ++ ([LF, LF] ++ y)).take frame.length) = (yielded, some failure) := by
      unfold yieldFrame
      rw [htake, hframe]
    rw [drain_of_fails blankLine_ne_nil hfind hhandle] at hend
    cases failure with
    | proxyError detail => exact hnot ⟨detail, hframe⟩
    | raised => cases hend

end Chunks

/-- **Exactly when the chunks do not matter.** -/
theorem rewriting_chunking_iff (J : Json) (request : Request) (stream : List Byte) :
    (∀ chunks : List (List Byte), chunks.flatten = stream →
        outcome J request chunks = outcome J request [stream])
      ↔ ∀ frame, Reached J request stream frame → frame.length = limit →
        Refused J request frame := by
  constructor
  · grind [exists_chunks_of_reached]
  · rintro h chunks rfl
    obtain ⟨hyielded, hend⟩ := rewrite_chunks (r := {}) chunks rfl
      (Nat.not_lt_zero _) fun t frame hf => h frame ⟨t, hf⟩
    exact Prod.ext hyielded hend

def longComment : List Byte := List.replicate limit 58

def noJson : Json where
  Number := Empty
  loads := fun _ => .error .invalid
  dumps := fun _ => .error .other

theorem crlfToLf_of_not_mem (h : CR ∉ data) : crlfToLf data = data := by
  induction data using crlfToLf.induct with
  | case1 => rfl
  | case2 c => rfl
  | case3 c d data hcrlf ih => exact absurd (hcrlf.1 ▸ List.mem_cons_self) h
  | case4 c d data hcrlf ih =>
    rw [crlfToLf, if_neg hcrlf, ih fun hmem => h (List.mem_cons_of_mem _ hmem)]

theorem normalize_of_not_mem (h : CR ∉ data) :
    normalize false data = (data, false) := by
  have hlast : data.getLast? ≠ some CR := fun heq =>
    h (List.mem_of_getLast? heq)
  rw [normalize_eq]
  show (newlines (strip data).1, (strip data).2) = _
  unfold strip newlines
  rw [if_neg hlast, crlfToLf_of_not_mem h]
  refine Prod.ext ?_ rfl
  refine (List.map_congr_left fun c hc => ?_).trans (List.map_id _)
  exact if_neg fun heq : c = CR => h (heq ▸ hc)

theorem not_mem_longComment {c : Byte} (h : c ≠ 58) : c ∉ longComment :=
  fun hmem => h (List.eq_of_mem_replicate hmem)

theorem rewriteFrame_longComment :
    rewriteFrame noJson ⟨[], none⟩ longComment = .ok (longComment ++ [LF, LF]) := by
  have hlines : longComment.splitOn LF = [longComment] :=
    List.splitOnP_eq_singleton fun c hc => by
      rw [List.eq_of_mem_replicate hc]
      rfl
  have hdata : dataLines [longComment] = [] := by
    have hpred : limit = limit - 1 + 1 := by decide
    unfold longComment
    rw [hpred, List.replicate_succ]
    rfl
  have hlength : ¬ longComment.length > limit := by
    rw [longComment, List.length_replicate]
    exact lt_irrefl _
  unfold rewriteFrame rendered
  rw [if_neg hlength]
  dsimp only
  rw [hlines, hdata, if_pos (.inl rfl)]
  unfold checked Request.privatePath
  rfl

/-- The comment and a blank line are yielded, but not if they come in two chunks with
a line end each. -/
theorem long_comment_depends_on_chunks :
    ∃ chunks, chunks.flatten = longComment ++ [LF, LF]
      ∧ outcome noJson ⟨[], none⟩ chunks
        ≠ outcome noJson ⟨[], none⟩ [longComment ++ [LF, LF]] := by
  have hmem : CR ∉ longComment ++ [LF, LF] := by
    rw [List.mem_append]
    exact not_or.mpr ⟨not_mem_longComment (by decide), by decide⟩
  have hfind : find [LF, LF] (longComment ++ [LF, LF]) = some longComment.length := by
    have hblank : find [LF, LF] [LF, LF] = some 0 := by decide
    rw [find_free (free_of_not_mem (not_mem_longComment (by decide))), hblank,
      Option.map_some, Nat.add_zero]
  have hreached : Reached noJson ⟨[], none⟩ (longComment ++ [LF, LF])
      ((longComment ++ [LF, LF]).take longComment.length) := by
    refine ⟨[], ?_⟩
    rw [normalize_of_not_mem hmem]
    exact .here hfind
  rw [List.take_left] at hreached
  refine exists_chunks_of_reached hreached List.length_replicate ?_
  rintro ⟨detail, hrefused⟩
  rw [rewriteFrame_longComment] at hrefused
  cases hrefused

end ModelRewrite
