import Coire.ModelRewrite
import Coire.StreamAccounting

/-!
# Text completions from chat completions

`text_stream`: the frames of a chat stream arrive in chunks, and each is translated to a
frame of a text completion as soon as it is complete. What is left at the end is a frame
too, if it is not empty. A frame without data, the terminal one and those that hold no
choices, as keepalives and errors, are passed on as they are.

A translation may raise: the data is no JSON, or not the JSON of a chat completion. Then
the stream ends there.

Where the chunks are cut makes no difference (`textStream_chunks`).
-/

namespace TextCompletions

open EngineEvents Occurrence Framing
open ModelRewrite (newlines)
open StreamAccounting (get choicesKey deltaKey contentKey usageKey promptKey completionKey)

/-- **What the translation needs of Python**: `json`, which numbers are zero, and what
`TextCompletionResponse` makes of a `dict`, validated and as JSON. -/
structure Runtime extends Json where
  isZero : Number → Bool
  response : Value Number → Except Raised (List Byte)

def indexKey : Str := str ['i', 'n', 'd', 'e', 'x']

def textKey : Str := str ['t', 'e', 'x', 't']

def finishReasonKey : Str :=
  str ['f', 'i', 'n', 'i', 's', 'h', '_', 'r', 'e', 'a', 's', 'o', 'n']

def idKey : Str := str ['i', 'd']

def createdKey : Str := str ['c', 'r', 'e', 'a', 't', 'e', 'd']

def totalKey : Str := str ['t', 'o', 't', 'a', 'l', '_', 't', 'o', 'k', 'e', 'n', 's']

/-! ## One frame -/

section Code

variable (R : Runtime)

def item {Number : Type} (value : Value Number) (key : Str) :
    Except Raised (Value Number) :=
  match value with
  | .object fields =>
    match get fields key with
    | some item => .ok item
    | none => .error .other
  | _ => .error .invalid

def getOr {Number : Type} (value : Value Number) (key : Str) (default : Value Number) :
    Except Raised (Value Number) :=
  match value with
  | .object fields => .ok ((get fields key).getD default)
  | _ => .error .other

def orEmpty : Value R.Number → Value R.Number
  | .null | .bool false | .string [] | .array [] | .object [] => .string []
  | .number n => if R.isZero n then .string [] else .number n
  | value => value

/-- What a loop over a value visits: elements, keys or characters. -/
def elements {Number : Type} : Value Number → Except Raised (List (Value Number))
  | .array elements => .ok elements
  | .object fields => .ok (fields.map fun field => .string field.1)
  | .string text => .ok (text.map fun c => .string [c])
  | _ => .error .invalid

def textChoice (choice : Value R.Number) : Except Raised (Value R.Number) := do
  let index ← item choice indexKey
  let delta ← getOr choice deltaKey (.object [])
  let content ← getOr delta contentKey .null
  let finishReason ← getOr choice finishReasonKey .null
  return .object [(indexKey, index), (textKey, orEmpty R content),
    (finishReasonKey, finishReason)]

def textUsage {Number : Type} : Value Number → Except Raised (Value Number)
  | .null => .ok .null
  | usage => do
    let prompt ← item usage promptKey
    let completion ← item usage completionKey
    let total ← item usage totalKey
    return .object [(promptKey, prompt), (completionKey, completion), (totalKey, total)]

/-- **`text_response`**, of a part of a stream. -/
def textResponse (value : Value R.Number) : Except Raised (List Byte) := do
  let choices ← getOr value choicesKey (.array [])
  let choices ← elements choices
  let choices ← choices.mapM (textChoice R)
  let usage ← getOr value usageKey .null
  let id ← item value idKey
  let created ← item value createdKey
  let model ← item value ModelRewrite.modelKey
  let usage ← textUsage usage
  R.response (.object [(idKey, id), (createdKey, created), (ModelRewrite.modelKey, model),
    (choicesKey, .array choices), (usageKey, usage)])

/-- `"choices" in value`: a key, an element or a part of a text. -/
def hasChoices {Number : Type} : Value Number → Except Raised Bool
  | .object fields => .ok (get fields choicesKey).isSome
  | .array elements => .ok (elements.any fun
    | .string text => decide (text = choicesKey)
    | _ => false)
  | .string text => .ok (decide (choicesKey <:+: text))
  | _ => .error .invalid

def splitlines (data : List Byte) : List (List Byte) :=
  let lines := (newlines data).splitOn LF
  if lines.getLast? = some [] then lines.dropLast else lines

/-- The whitespace of `bytes.lstrip`. -/
def whitespace : List Byte := [32, 9, 10, 13, 11, 12]

def frameData (frame : List Byte) : List Byte :=
  joinLines (((splitlines frame).filter (dataField.isPrefixOf ·)).map fun line =>
    (line.drop 5).dropWhile (whitespace.contains ·))

def translateFrame (frame : List Byte) : Except Raised (List Byte) :=
  let data := frameData frame
  if data = [] ∨ data = done then .ok (frame ++ [LF, LF])
  else do
    let value ← R.loads data
    let choices ← hasChoices value
    if choices then
      let response ← textResponse R value
      return (dataField ++ [32]) ++ response ++ [LF, LF]
    else return frame ++ [LF, LF]

/-- `yield _frame(frame)`, the frames yielded so far being given. -/
def yieldFrame (yielded : List (List Byte)) (frame : List Byte) :
    List (List Byte) × Option Raised :=
  match translateFrame R frame with
  | .error e => (yielded, some e)
  | .ok event => (yielded ++ [event], none)

/-! ## Streams -/

/-- The rest of a stream, with what is pending: the frames that are yielded, and what
is raised if anything is. -/
def textStreamFrom :
    List (List Byte) → List Byte → List (List Byte) → List (List Byte) × Option Raised
  | yielded, pending, [] =>
    if pending = [] then (yielded, none) else yieldFrame R yielded pending
  | yielded, pending, chunk :: chunks =>
    match drain [LF, LF] (yieldFrame R) yielded (pending ++ chunk) with
    | (yielded, some e, _) => (yielded, some e)
    | (yielded, none, pending) => textStreamFrom yielded pending chunks

def textStream (chunks : List (List Byte)) : List (List Byte) × Option Raised :=
  textStreamFrom R [] [] chunks

/-- **The frames of a whole stream**: it is cut at each leftmost blank line, and what
is left is a frame if it is not empty. -/
def framesOf (stream : List Byte) : List (List Byte) :=
  pieces [LF, LF] stream ++ if rest [LF, LF] stream = [] then [] else [rest [LF, LF] stream]

end Code

/-! ## Chunks -/

variable {R : Runtime} {yielded : List (List Byte)}

theorem blankLine_ne_nil : [LF, LF] ≠ [] := List.cons_ne_nil _ _

/-- How a stream ends whose last chunk has been cut. -/
def finish (R : Runtime) :
    List (List Byte) × Option Raised × List Byte → List (List Byte) × Option Raised
  | (yielded, some e, _) => (yielded, some e)
  | (yielded, none, pending) =>
    if pending = [] then (yielded, none) else yieldFrame R yielded pending

theorem textStreamFrom_eq_finish {pending : List Byte}
    (hpending : find [LF, LF] pending = none) (chunks : List (List Byte)) :
    textStreamFrom R yielded pending chunks
      = finish R (drain [LF, LF] (yieldFrame R) yielded (pending ++ chunks.flatten)) := by
  induction chunks generalizing yielded pending with
  | nil =>
    rw [List.flatten_nil, List.append_nil, drain_of_find_eq_none hpending]
    rfl
  | cons chunk chunks ih =>
    rw [List.flatten_cons, ← List.append_assoc, textStreamFrom]
    rcases hdrain : drain [LF, LF] (yieldFrame R) yielded (pending ++ chunk)
      with ⟨yielded', _ | e, pending'⟩
    · rw [drain_append blankLine_ne_nil hdrain]
      exact ih (find_of_drain blankLine_ne_nil hdrain)
    · rw [drain_append_of_fails blankLine_ne_nil hdrain]
      rfl

/-- **Chunking makes no difference.** -/
theorem textStream_chunks (R : Runtime) (chunks : List (List Byte)) :
    textStream R chunks = handleAll (yieldFrame R) [] (framesOf chunks.flatten) := by
  have hempty : find [LF, LF] ([] : List Byte) = none := rfl
  unfold textStream framesOf
  rw [textStreamFrom_eq_finish hempty, List.nil_append, handleAll_append]
  rcases hall : handleAll (yieldFrame R) [] (pieces [LF, LF] chunks.flatten) with ⟨ys, _ | e⟩
  · rw [drain_of_handleAll blankLine_ne_nil hall, finish]
    split <;> rename_i hrest
    · rfl
    · exact (handleAll_singleton ..).symm
  · obtain ⟨r, hr⟩ := drain_of_handleAll_fails blankLine_ne_nil hall
    rw [hr]
    rfl

end TextCompletions
