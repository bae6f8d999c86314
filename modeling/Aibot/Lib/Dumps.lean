/-
Python values as `json.dumps` writes them with sorted keys: what can be written, and that the text is JSON.
-/
import Aibot.Lib.Canonical
import Aibot.Lib.JsonText
import Aibot.Lib.Value

namespace Aibot.Value

open Json (Floats)

mutual

/-- The JSON of a value; `other` where it has none: an infinity or a NaN, a key that is no text, an object. -/
def json : Value → Json
  | .none => .null
  | .bool b => .bool b
  | .int n => .int n
  | .float (.finite x) => .float x.val
  | .float _ => .other
  | .str s => .str s
  | .list items | .tuple items => .arr (jsonItems items)
  | .dict items => .obj (jsonFields items)
  | .other _ => .other

def jsonItems : List Value → List Json
  | [] => []
  | x :: items => json x :: jsonItems items

def jsonFields : List (Key × Value) → List (String × Json)
  | [] => []
  | (.str key, x) :: items => (key, json x) :: jsonFields items
  | (.other _, _) :: items => ("", .other) :: jsonFields items

end

/-- The value can be written as JSON. -/
def Serializable (x : Value) : Prop := (json x).isJson = true

/-- `json.dumps(x, sort_keys=True, separators=(",", ":"))`; none where it raises. -/
def dumps (floats : Floats) (x : Value) : Option (List Char) := (json x).canonical.map (Json.Text.ofTokens floats)

/-! ## What can be written -/

theorem serializable_list {items : List Value} : Serializable (.list items) ↔ ∀ x ∈ items, Serializable x := by
  show Json.areJson (jsonItems items) = true ↔ _
  induction items with
  | nil => simp [jsonItems, Json.areJson]
  | cons x items ih =>
    rw [jsonItems, Json.areJson, Bool.and_eq_true, ih, List.forall_mem_cons]
    rfl

theorem serializable_dict {items : List (Key × Value)} :
    Serializable (.dict items) ↔ ∀ p ∈ items, (∃ key, p.1 = .str key) ∧ Serializable p.2 := by
  show Json.fieldsAreJson (jsonFields items) = true ↔ _
  induction items with
  | nil => simp [jsonFields, Json.fieldsAreJson]
  | cons p items ih =>
    obtain ⟨key, x⟩ := p
    rw [List.forall_mem_cons]
    cases key with
    | str key =>
      rw [jsonFields, Json.fieldsAreJson, Bool.and_eq_true, ih]
      simp [Serializable]
    | other n => simp [jsonFields, Json.fieldsAreJson, Json.isJson]

theorem serializable_none : Serializable .none := rfl

theorem Serializable.get {x : Value} (h : Serializable x) (key : String) : Serializable (x.get key) := by
  cases x with
  | dict items =>
    by_cases hnone : (dict items).get key = .none
    · rw [hnone]
      exact serializable_none
    · exact (serializable_dict.1 h _ (mem_of_get rfl hnone)).2
  | _ => exact serializable_none

theorem serializable_ofItems {items : List (String × Value)} (h : ∀ p ∈ items, Serializable p.2) :
    Serializable (ofItems items) := by
  apply serializable_dict.2
  intro p hp
  obtain ⟨q, hq, rfl⟩ := List.mem_map.1 hp
  exact ⟨⟨q.1, rfl⟩, h q hq⟩

/-! ## The text -/

theorem dumps_isSome {floats : Floats} {x : Value} : (dumps floats x).isSome = true ↔ Serializable x := by
  unfold dumps Serializable
  rw [Option.isSome_map, Json.canonical_isSome, Json.print_complete]

/-- What is written is JSON. -/
theorem isValue_dumps {floats : Floats} {x : Value} {cs : List Char} (h : dumps floats x = some cs) :
    Json.Text.IsValue cs := by
  unfold dumps Json.canonical at h
  split_ifs at h with hcomplete
  · rw [← Option.some.inj h]
    exact Json.Text.isValue_print floats _ hcomplete
  · cases h

end Aibot.Value
