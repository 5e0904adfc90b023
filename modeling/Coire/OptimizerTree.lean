import Coire.Dict
import Coire.FixedDecimal
import Coire.Guarded

/-!
# The optimizer state in a checkpoint

`_encode_tree` writes the state of an optimizer as JSON, with the tensors in a table of
their own under numbered keys, and `_decode_tree` reads it back. Each counts the depth
of the tree for itself. User data cannot imitate the tagged nodes of the encoding, for
it is always inside of one: what is encoded is read back as it was, and the table has
one entry for each place of a tensor (`optimizer_state_survives`).
-/

namespace OptimizerTree

open FixedDecimal Guarded

inductive Primitive (Float : Type)
  | none
  | bool (b : Bool)
  | int (n : ℤ)
  | float (x : Float)
  | str (s : String)

abbrev Key := String ⊕ ℕ

/-- **What an optimizer has for its state**; `other` is an object of another type. -/
inductive Value (Tensor Float : Type)
  | tensor (t : Tensor)
  | mapping (items : List (Key × Value Tensor Float))
  | sequence (isTuple : Bool) (items : List (Value Tensor Float))
  | value (p : Primitive Float)
  | other

inductive Node (Float : Type)
  | value (p : Primitive Float)
  | array (items : List (Node Float))
  | object (members : List (String × Node Float))

variable {Tensor Float : Type}

/-! ## The source -/

def tensorKey (n : ℕ) : String := numbered "optimizer-".toList [] 6 n

def node (kind : String) (name : String) (content : Node Float) : Node Float :=
  .object [("kind", .value (.str kind)), (name, content)]

def names (items : List (Key × Value Tensor Float)) : List String :=
  items.map fun m => m.1.elim id fun _ => ""

/-- `not isinstance(key, str) or len(key) > 512`. -/
def unbounded (key : Key) : Bool := key.elim (fun text => 512 < text.length) fun _ => true

def encodeAll (encode : Value Tensor Float → Dict String Tensor →
      Except String (Node Float × Dict String Tensor)) :
    List (Value Tensor Float) → Dict String Tensor →
      Except String (List (Node Float) × Dict String Tensor)
  | [], arrays => .ok ([], arrays)
  | v :: vs, arrays => do
    let (x, arrays) ← encode v arrays
    let (xs, arrays) ← encodeAll encode vs arrays
    return (x :: xs, arrays)

/-- **`_encode_tree`**, with the levels that are left of the depth: `0` at depth 65. -/
def encodeTree (isfinite : Float → Bool) : ℕ → Value Tensor Float → Dict String Tensor →
    Except String (Node Float × Dict String Tensor)
  | 0, _, _ => .error "Optimizer checkpoint tree exceeds its bound"
  | left + 1, v, arrays =>
    if 200000 ≤ arrays.items.length then
      .error "Optimizer checkpoint tree exceeds its bound"
    else match v with
    | .tensor t =>
      let key := tensorKey arrays.items.length
      .ok (node "tensor" "tensor" (.value (.str key)), arrays.set key t)
    | .mapping items => do
      refuse (items.any fun m => unbounded m.1)
        "Optimizer tree keys must be bounded strings"
      let (xs, arrays) ← encodeAll (encodeTree isfinite left) (items.map Prod.snd) arrays
      return (node "mapping" "items" (.object ((names items).zip xs)), arrays)
    | .sequence isTuple items => do
      let (xs, arrays) ← encodeAll (encodeTree isfinite left) items arrays
      return (node (if isTuple then "tuple" else "list") "items" (.array xs), arrays)
    | .value (.float x) =>
      if isfinite x then .ok (node "value" "value" (.value (.float x)), arrays)
      else .error "Optimizer checkpoint primitives must be finite"
    | .value p => .ok (node "value" "value" (.value p), arrays)
    | .other => .error "Optimizer state contains executable or unsupported objects"

def content (members : List (String × Node Float)) (name : String) : Option (Node Float) :=
  if members.map Prod.fst = ["kind", name] ∨ members.map Prod.fst = [name, "kind"] then
    members.lookup name
  else none

/-- **`_decode_tree`**, with the levels that are left of the depth. -/
def decodeTree (arrays : Dict String Tensor) :
    ℕ → Node Float → Except String (Value Tensor Float)
  | left + 1, .object members =>
    match members.lookup "kind" with
    | some (.value (.str kind)) =>
      match kind, content members "tensor", content members "items",
        content members "value" with
      | "tensor", some (.value (.str key)), _, _ =>
        require ((arrays.get? key).map .tensor)
          "Optimizer checkpoint references a missing tensor"
      | "tensor", some _, _, _ =>
        .error "Optimizer checkpoint references a missing tensor"
      | "mapping", _, some (.object items), _ => do
        let values ← items.mapM fun m => decodeTree arrays left m.2
        return .mapping ((items.map fun m => .inl m.1).zip values)
      | "list", _, some (.array items), _ =>
        .sequence false <$> items.mapM (decodeTree arrays left)
      | "tuple", _, some (.array items), _ =>
        .sequence true <$> items.mapM (decodeTree arrays left)
      | "value", _, _, some (.value p) => .ok (.value p)
      | _, _, _, _ => .error "Optimizer checkpoint contains an unknown serialized node"
    | _ => .error "Optimizer checkpoint node kind is invalid"
  | _, _ => .error "Optimizer checkpoint structure is malformed"

/-! ## The round trip -/

mutual

def Value.tensors : Value Tensor Float → List Tensor
  | .tensor t => [t]
  | .mapping items => mappingTensors items
  | .sequence _ items => listTensors items
  | .value _ | .other => []

def listTensors : List (Value Tensor Float) → List Tensor
  | [] => []
  | v :: vs => v.tensors ++ listTensors vs

def mappingTensors : List (Key × Value Tensor Float) → List Tensor
  | [] => []
  | (_, v) :: items => v.tensors ++ mappingTensors items

end

theorem mappingTensors_eq (items : List (Key × Value Tensor Float)) :
    mappingTensors items = listTensors (items.map Prod.snd) := by
  induction items with
  | nil => rfl
  | cons m items ih => rw [mappingTensors, List.map_cons, listTensors, ih]

def entries (ts : List Tensor) : List (String × Tensor) :=
  ts.mapIdx fun i t => (tensorKey i, t)

theorem items_set {ts : List Tensor} {arrays : Dict String Tensor} (t : Tensor)
    (harrays : arrays.items = entries ts) (hroom : ts.length < 10 ^ 6) :
    (arrays.set (tensorKey ts.length) t).items = entries (ts ++ [t]) := by
  have hnew : arrays.get? (tensorKey ts.length) = none := by
    refine Option.eq_none_iff_forall_ne_some.mpr fun t' ht' => ?_
    rw [← Dict.mem_items, harrays] at ht'
    obtain ⟨i, hi, hkey⟩ := List.mem_mapIdx.mp ht'
    exact absurd (numbered_injective (hi.trans hroom) hroom (Prod.mk.inj hkey).1)
      (Nat.ne_of_lt hi)
  rw [Dict.items_set_of_none t hnew, harrays, entries, entries, List.mapIdx_append]
  simp

theorem get?_of_items {ts us : List Tensor} {t : Tensor} {arrays : Dict String Tensor}
    (h : arrays.items = entries (ts ++ [t] ++ us)) :
    arrays.get? (tensorKey ts.length) = some t := by
  rw [← Dict.mem_items, h]
  exact List.mem_mapIdx.mpr ⟨ts.length, by simp, by simp⟩

/-- **What an encoding is**: the tensors are appended to the table, and the value is
read back with every table that continues it. -/
structure Encodes (left : ℕ) (ts : List Tensor) (v : Value Tensor Float) (x : Node Float)
    (arrays : Dict String Tensor) : Prop where
  items : arrays.items = entries (ts ++ v.tensors)
  decoded : ∀ us later, later.items = entries (ts ++ v.tensors ++ us) →
    decodeTree later left x = .ok v

section RoundTrip

variable {isfinite : Float → Bool} {left : ℕ} {arrays arrays' : Dict String Tensor}
  {ts : List Tensor}

theorem encodeAll_spec {encode : Value Tensor Float → Dict String Tensor →
      Except String (Node Float × Dict String Tensor)} {vs : List (Value Tensor Float)}
    {xs : List (Node Float)}
    (hencode : ∀ {v ts x arrays arrays'}, arrays.items = entries ts →
      encode v arrays = .ok (x, arrays') → Encodes left ts v x arrays')
    (harrays : arrays.items = entries ts)
    (h : encodeAll encode vs arrays = .ok (xs, arrays')) :
    arrays'.items = entries (ts ++ listTensors vs) ∧ xs.length = vs.length
      ∧ ∀ us later, later.items = entries (ts ++ listTensors vs ++ us) →
        xs.mapM (decodeTree later left) = .ok vs := by
  induction vs generalizing arrays ts xs with
  | nil =>
    cases h
    exact ⟨by rw [harrays, listTensors, List.append_nil], rfl, fun _ _ _ => rfl⟩
  | cons v vs ih =>
    obtain ⟨⟨x, between⟩, hx, h⟩ := bind_eq_ok.mp h
    obtain ⟨⟨xs', _⟩, hxs, h⟩ := bind_eq_ok.mp h
    cases h
    have hv := hencode harrays hx
    obtain ⟨hitems, hlength, hdecoded⟩ := ih hv.items hxs
    rw [listTensors, ← List.append_assoc]
    refine ⟨hitems, congrArg (· + 1) hlength, fun us later hlater => ?_⟩
    rw [List.mapM_cons, hdecoded us later hlater]
    rw [List.append_assoc] at hlater
    rw [hv.decoded _ later hlater]
    rfl

theorem names_of_strings {items : List (Key × Value Tensor Float)}
    (h : ¬ items.any fun m => unbounded m.1) :
    (names items).map .inl = items.map Prod.fst := by
  rw [names, List.map_map]
  refine List.map_congr_left fun m hm => ?_
  rcases hkey : m.1 with text | other
  · simp [hkey]
  · exact absurd (List.any_eq_true.mpr ⟨m, hm, by rw [hkey]; rfl⟩) h

theorem encodes_tensor (t : Tensor) (harrays : arrays.items = entries ts)
    (hroom : ¬ 200000 ≤ arrays.items.length) :
    Encodes (left + 1) ts (.tensor t : Value Tensor Float)
      (node "tensor" "tensor" (.value (.str (tensorKey arrays.items.length))))
      (arrays.set (tensorKey arrays.items.length) t) := by
  have hlength : arrays.items.length = ts.length := by
    rw [harrays, entries, List.length_mapIdx]
  rw [hlength] at hroom ⊢
  refine ⟨items_set t harrays (by omega), fun us later hlater => ?_⟩
  simp [decodeTree, node, content, List.lookup_cons, get?_of_items hlater, require]

theorem encodes_mapping {items : List (Key × Value Tensor Float)} {xs : List (Node Float)}
    (hnames : (names items).map .inl = items.map Prod.fst)
    (htensors : arrays.items = entries (ts ++ listTensors (items.map Prod.snd)))
    (hxs : xs.length = (items.map Prod.snd).length)
    (hdecoded : ∀ us later,
      later.items = entries (ts ++ listTensors (items.map Prod.snd) ++ us) →
      xs.mapM (decodeTree later left) = .ok (items.map Prod.snd)) :
    Encodes (left + 1) ts (.mapping items)
      (node "mapping" "items" (.object ((names items).zip xs))) arrays := by
  have hlength : (names items).length = xs.length := by
    rw [hxs, names, List.length_map, List.length_map]
  have hfst := List.map_fst_zip (Nat.le_of_eq hlength)
  have hsnd := List.map_snd_zip (Nat.le_of_eq hlength.symm)
  rw [← mappingTensors_eq] at htensors hdecoded
  refine ⟨htensors, fun us later hlater => ?_⟩
  have hvalues : ((names items).zip xs).mapM (fun m => decodeTree later left m.2)
      = .ok (items.map Prod.snd) := by
    rw [← hdecoded us later hlater, ← congrArg (List.mapM (decodeTree later left)) hsnd,
      List.mapM_map]
    rfl
  have hkeys : (((names items).zip xs).map fun m => (.inl m.1 : Key))
      = items.map Prod.fst := by
    rw [← hnames, ← congrArg (List.map (Sum.inl : String → Key)) hfst, List.map_map]
    rfl
  have hitems : (items.map Prod.fst).zip (items.map Prod.snd) = items :=
    (List.zip_of_prod rfl rfl).symm
  simp [decodeTree, node, content, List.lookup_cons, hvalues, hkeys, hitems]

theorem encodeTree_spec {v : Value Tensor Float} {x : Node Float}
    (harrays : arrays.items = entries ts)
    (h : encodeTree isfinite left v arrays = .ok (x, arrays')) :
    Encodes left ts v x arrays' := by
  induction left generalizing v x arrays arrays' ts with
  | zero => cases h
  | succ left ih =>
    unfold encodeTree at h
    split at h
    · cases h
    rename_i hroom
    cases v with
    | tensor t =>
      cases h
      exact encodes_tensor t harrays hroom
    | mapping items =>
      obtain ⟨hkeys, h⟩ := check_bind_eq_ok.mp h
      obtain ⟨⟨xs, _⟩, hxs, h⟩ := bind_eq_ok.mp h
      cases h
      obtain ⟨htensors, hlength, hdecoded⟩ := encodeAll_spec ih harrays hxs
      exact encodes_mapping (names_of_strings (refuse_eq_ok.mp hkeys)) htensors hlength
        hdecoded
    | sequence isTuple items =>
      obtain ⟨⟨xs, _⟩, hxs, h⟩ := bind_eq_ok.mp h
      cases h
      obtain ⟨htensors, -, hdecoded⟩ := encodeAll_spec ih harrays hxs
      refine ⟨htensors, fun us later hlater => ?_⟩
      have hvs := hdecoded us later hlater
      cases isTuple with
      | false => simp [decodeTree, node, content, List.lookup_cons, hvs]
      | true => simp [decodeTree, node, content, List.lookup_cons, hvs]
    | value p =>
      have hx : (x, arrays') = (node "value" "value" (.value p), arrays) := by
        cases p with
        | float y =>
          dsimp only at h
          split at h
          · cases h
            rfl
          · cases h
        | none | bool | int | str =>
          cases h
          rfl
      cases hx
      refine ⟨?_, fun _ _ _ => ?_⟩
      · rw [harrays, Value.tensors, List.append_nil]
      · simp [decodeTree, node, content, List.lookup_cons]
    | other => cases h

end RoundTrip

/-- **Optimizer state survives a checkpoint**: a tree that is encoded is read back from
the table and what `json` makes of the encoding, and the table has one entry for each
place of a tensor, under distinct keys. -/
theorem optimizer_state_survives (json : Node Float → Option (Node Float))
    (isfinite : Float → Bool) (v : Value Tensor Float) {x : Node Float}
    {arrays : Dict String Tensor}
    (h : encodeTree isfinite 65 v .empty = .ok (x, arrays)) (hjson : json x = some x) :
    (json x).map (decodeTree arrays 65) = some (.ok v)
    ∧ arrays.items.map Prod.snd = v.tensors ∧ (arrays.items.map Prod.fst).Nodup := by
  have hencodes : Encodes 65 [] v x arrays := encodeTree_spec rfl h
  refine ⟨?_, ?_, arrays.nodup⟩
  · rw [hjson, Option.map_some, hencodes.decoded [] arrays
      (hencodes.items.trans (by rw [List.append_nil]))]
  · rw [hencodes.items, List.nil_append, entries]
    exact List.ext_getElem (by simp) fun i hi hi' => by simp

/-- A tensor that is used twice, and data that looks like a node. -/
def imitation : Value ℕ Unit :=
  .sequence true [.tensor 7, .mapping [(.inl "kind", .value (.str "tensor"))], .tensor 7]

theorem imitation_survives : ∃ x arrays,
    encodeTree (fun _ => true) 65 imitation .empty = .ok (x, arrays)
    ∧ decodeTree arrays 65 x = .ok imitation ∧ arrays.items.map Prod.snd = [7, 7] := by
  have h := optimizer_state_survives some (fun _ => true) imitation rfl rfl
  exact ⟨_, _, rfl, Option.some.inj h.1, h.2.1⟩

end OptimizerTree
