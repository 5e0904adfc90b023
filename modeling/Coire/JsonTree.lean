import Mathlib.Data.Int.Notation
import Mathlib.Data.List.Nodup

/-!
# JSON values as trees

What `json.loads` makes of a text, with the objects as the lists of their
members in the order they are written. Numbers are integers only. A reader of a
value is a function into `Option`, and `none` is the error it raises.

Where a value is written and read back, the members of each of its objects have
distinct names (`JsonValue.Unique`): a text with a name twice is refused by the
readers that look for it.
-/

inductive JsonValue
  | null
  | bool (b : Bool)
  | int (n : ℤ)
  | str (s : String)
  | arr (xs : List JsonValue)
  | obj (members : List (String × JsonValue))

namespace JsonValue

inductive Unique : JsonValue → Prop
  | null : Unique .null
  | bool (b : Bool) : Unique (.bool b)
  | int (n : ℤ) : Unique (.int n)
  | str (s : String) : Unique (.str s)
  | arr {xs : List JsonValue} (hxs : ∀ x ∈ xs, Unique x) : Unique (.arr xs)
  | obj {members : List (String × JsonValue)}
      (hnodup : (members.map Prod.fst).Nodup)
      (hmembers : ∀ m ∈ members, Unique m.2) : Unique (.obj members)

def ofStrings (ss : List String) : JsonValue := .arr (ss.map .str)

def ofOption {α : Type} (f : α → JsonValue) : Option α → JsonValue
  | none => .null
  | some a => f a

/-! ## Readers -/

def members? : JsonValue → Option (List (String × JsonValue))
  | .obj members => some members
  | _ => none

def bool? : JsonValue → Option Bool
  | .bool b => some b
  | _ => none

def str? : JsonValue → Option String
  | .str s => some s
  | _ => none

def nat? : JsonValue → Option ℕ
  | .int (.ofNat n) => some n
  | _ => none

def strings? : JsonValue → Option (List String)
  | .arr xs => xs.mapM str?
  | _ => none

def nullable {α : Type} (read : JsonValue → Option α) :
    JsonValue → Option (Option α)
  | .null => some none
  | v => (read v).map some

def getD {α : Type} (read : JsonValue → Option α) (a : α) :
    Option JsonValue → Option α
  | none => some a
  | some v => read v

/-! ## Reading a list -/

theorem mapM_map_of_read {α β : Type} {read : β → Option α} {write : α → β}
    {as : List α} (h : ∀ a ∈ as, read (write a) = some a) :
    (as.map write).mapM read = some as := by
  induction as with
  | nil => rfl
  | cons a as ih => grind

theorem exists_of_mem_mapM {α β : Type} {read : β → Option α} {bs : List β}
    {as : List α} (h : bs.mapM read = some as) {a : α} (ha : a ∈ as) :
    ∃ b ∈ bs, read b = some a := by
  induction bs generalizing as with
  | nil =>
    cases h
    exact absurd ha List.not_mem_nil
  | cons b bs ih =>
    rw [List.mapM_cons] at h
    obtain ⟨a', hb, h⟩ := Option.bind_eq_some_iff.mp h
    obtain ⟨as', hbs, h⟩ := Option.bind_eq_some_iff.mp h
    cases h
    rcases List.mem_cons.mp ha with rfl | ha
    · exact ⟨b, List.mem_cons_self, hb⟩
    · grind

/-! ## What is written is read back -/

@[simp] theorem nat?_int (n : ℕ) : (JsonValue.int n).nat? = some n := rfl

@[simp] theorem strings?_ofStrings (ss : List String) :
    (ofStrings ss).strings? = some ss :=
  mapM_map_of_read (fun _ _ => rfl)

theorem nullable_ofOption {α : Type} {read : JsonValue → Option α}
    {f : α → JsonValue} (hnull : ∀ a, f a ≠ .null) {o : Option α}
    (hread : ∀ a, o = some a → read (f a) = some a) :
    nullable read (ofOption f o) = some o := by
  cases o with
  | none => rfl
  | some a =>
    show nullable read (f a) = some (some a)
    have hf : nullable read (f a) = (read (f a)).map some := by
      unfold nullable
      split
      · rename_i h
        exact absurd h (hnull a)
      · rfl
    rw [hf, hread a rfl]
    rfl

theorem unique_ofStrings (ss : List String) : (ofStrings ss).Unique := by
  refine .arr (fun x hx => ?_)
  obtain ⟨s, -, rfl⟩ := List.mem_map.mp hx
  exact .str s

theorem unique_ofOption {α : Type} {f : α → JsonValue} (hf : ∀ a, (f a).Unique)
    (o : Option α) : (ofOption f o).Unique := by
  cases o with
  | none => exact .null
  | some a => exact hf a

end JsonValue
