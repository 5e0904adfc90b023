import Mathlib.Algebra.Order.Group.Nat
import Mathlib.Tactic.Common

/-!
# The events of an engine

An engine answers with server-sent events: a stream of bytes, cut into frames by
blank lines; the lines of a frame that start with `data:` hold a JSON value. What
`json` makes of bytes is a parameter here (`Json`), with the errors that it may
raise told apart as the callers do: those that are caught with `ValueError`, and the
others, as `RecursionError` for a value that is nested too deep.
-/

namespace EngineEvents

abbrev Byte := UInt8

/-- The code points of a `str`. -/
abbrev Str := List ℕ

def ascii (text : List Char) : List Byte := text.map fun c => UInt8.ofNat c.toNat

def str (text : List Char) : Str := text.map Char.toNat

def LF : Byte := 10

def CR : Byte := 13

/-- A JSON value, as `json.loads` gives it. -/
inductive Value (Number : Type)
  | null
  | bool (value : Bool)
  | number (value : Number)
  | string (value : Str)
  | array (elements : List (Value Number))
  | object (fields : List (Str × Value Number))

inductive Raised
  /-- `ValueError` or `TypeError`. -/
  | invalid
  | other
  deriving DecidableEq

structure Json where
  Number : Type
  loads : List Byte → Except Raised (Value Number)
  /-- With the separators `,` and `:`. -/
  dumps : Value Number → Except Raised (List Byte)

def dataField : List Byte := ascii ['d', 'a', 't', 'a', ':']

def joinLines (lines : List (List Byte)) : List Byte := [LF].intercalate lines

def done : List Byte := ascii ['[', 'D', 'O', 'N', 'E', ']']

end EngineEvents
