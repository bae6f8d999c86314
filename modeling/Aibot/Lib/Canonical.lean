/-
The canonical text of a JSON value, with the keys of every object sorted; equality up to the order of
keys and the type of a number; and the length of a text, which sorting keys does not change.
-/
import Aibot.Lib.Json
import Mathlib.Algebra.BigOperators.Group.List.Basic
import Mathlib.Data.List.Sort
import Mathlib.Tactic

namespace Aibot.Json

deriving instance DecidableEq for Token

/-! ## Sorted keys -/

def sortKeys (fields : List (String × Json)) : List (String × Json) := fields.insertionSort fun p q => p.1 ≤ q.1

section Normal

variable (number : Json → Json)

mutual

/-- The value with sorted keys, and each number and truth value mapped. -/
def normal : Json → Json
  | .bool b => number (.bool b)
  | .int n => number (.int n)
  | .float q => number (.float q)
  | .arr items => .arr (normalItems items)
  | .obj fields => .obj (sortKeys (normalFields fields))
  | x => x

def normalItems : List Json → List Json
  | [] => []
  | x :: items => normal x :: normalItems items

def normalFields : List (String × Json) → List (String × Json)
  | [] => []
  | (k, x) :: fields => (k, normal x) :: normalFields fields

end

end Normal

/-- The canonical text; none of a value that is not JSON. -/
def canonical (x : Json) : Option (List Token) :=
  if (print (normal id x)).2 then some (print (normal id x)).1 else none

/-- Numbers and truth values that are equal become the same. -/
def unified : Json → Json
  | .bool b => .int b.toInt
  | .float q => if q.den = 1 then .int q.num else .float q
  | x => x

/-- `x == y`. -/
def equal (x y : Json) : Bool := decide (print (normal unified x) = print (normal unified y))

theorem equal_refl (x : Json) : equal x x = true := decide_eq_true rfl

/-- Only a text is equal to a text. -/
theorem eq_of_equal_str {x : Json} {s : String} (h : equal x (.str s) = true) : x = .str s := by
  have hprint : print (normal unified x) = ([.str s], true) := of_decide_eq_true h
  cases x with
  | str t =>
    have htoken : ([.str t], true) = ([Token.str s], true) := hprint
    cases htoken
    rfl
  | arr items => cases items <;> simp [normal, normalItems, print, seq] at hprint
  | obj fields =>
    generalize hsorted : sortKeys (normalFields unified fields) = sorted at *
    rw [normal, hsorted] at hprint
    rcases sorted with _ | ⟨⟨k, y⟩, rest⟩ <;> simp [print, seq] at hprint
  | float q =>
    rw [normal, unified] at hprint
    split_ifs at hprint <;> simp [print] at hprint
  | _ => simp [normal, unified, print] at hprint

/-! ## Complete texts -/

mutual

/-- The value is JSON throughout. -/
def isJson : Json → Bool
  | .arr items => areJson items
  | .obj fields => fieldsAreJson fields
  | .other => false
  | _ => true

def areJson : List Json → Bool
  | [] => true
  | x :: items => isJson x && areJson items

def fieldsAreJson : List (String × Json) → Bool
  | [] => true
  | (_, x) :: fields => isJson x && fieldsAreJson fields

end

theorem seq_snd (a b : List Token × Bool) : (seq a b).2 = (a.2 && b.2) := by
  unfold seq
  cases ha : a.2 <;> simp [ha]

mutual

theorem print_complete : ∀ x : Json, (print x).2 = isJson x
  | .null | .bool _ | .int _ | .float _ | .str _ | .other => by simp [print, isJson]
  | .arr [] => by simp [print, isJson, areJson]
  | .arr (x :: items) => by
    rw [print, seq_snd, seq_snd, print_complete x, printItems_complete items]
    simp [isJson, areJson]
  | .obj [] => by simp [print, isJson, fieldsAreJson]
  | .obj ((k, x) :: fields) => by
    rw [print, seq_snd, seq_snd, print_complete x, printFields_complete fields]
    simp [isJson, fieldsAreJson]

theorem printItems_complete : ∀ items : List Json, (printItems items).2 = areJson items
  | [] => by simp [printItems, areJson]
  | x :: items => by
    rw [printItems, seq_snd, seq_snd, print_complete x, printItems_complete items]
    simp [areJson]

theorem printFields_complete : ∀ fields : List (String × Json), (printFields fields).2 = fieldsAreJson fields
  | [] => by simp [printFields, fieldsAreJson]
  | (k, x) :: fields => by
    rw [printFields, seq_snd, seq_snd, print_complete x, printFields_complete fields]
    simp [fieldsAreJson]

end

theorem fieldsAreJson_eq (fields : List (String × Json)) : fieldsAreJson fields = fields.all fun p => isJson p.2 := by
  induction fields with
  | nil => rfl
  | cons p fields ih => simp [fieldsAreJson, ih]

theorem sortKeys_perm (fields : List (String × Json)) : (sortKeys fields).Perm fields := List.perm_insertionSort ..

mutual

theorem isJson_normal : ∀ x : Json, isJson (normal id x) = isJson x
  | .null | .bool _ | .int _ | .float _ | .str _ | .other => rfl
  | .arr items => by
    rw [normal, isJson, isJson]
    exact areJson_normal items
  | .obj fields => by
    rw [normal, isJson, isJson, fieldsAreJson_eq, (sortKeys_perm _).all_eq, ← fieldsAreJson_eq]
    exact fieldsAreJson_normal fields

theorem areJson_normal : ∀ items : List Json, areJson (normalItems id items) = areJson items
  | [] => rfl
  | x :: items => by rw [normalItems, areJson, areJson, isJson_normal x, areJson_normal items]

theorem fieldsAreJson_normal : ∀ fields : List (String × Json),
    fieldsAreJson (normalFields id fields) = fieldsAreJson fields
  | [] => rfl
  | (k, x) :: fields => by
    rw [normalFields, fieldsAreJson, fieldsAreJson, isJson_normal x, fieldsAreJson_normal fields]

end

/-- What prints to its end has a canonical text. -/
theorem canonical_isSome {x : Json} : (canonical x).isSome = (print x).2 := by
  unfold canonical
  rw [print_complete, isJson_normal, ← print_complete]
  split_ifs with h <;> simp [h]

/-! ## Lengths -/

section Length

variable (size : Token → ℕ)

/-- The length of a text. -/
def length (tokens : List Token) : ℕ := (tokens.map size).sum

mutual

/-- The length of the text of a value. -/
def weight : Json → ℕ
  | .null => size .null
  | .bool b => size (.bool b)
  | .int n => size (.int n)
  | .float q => size (.float q)
  | .str s => size (.str s)
  | .arr items => size .openArr + weightItems items + size .closeArr + (items.length - 1) * size .comma
  | .obj fields => size .openObj + weightFields fields + size .closeObj + (fields.length - 1) * size .comma
  | .other => 0

def weightItems : List Json → ℕ
  | [] => 0
  | x :: items => weight x + weightItems items

def weightFields : List (String × Json) → ℕ
  | [] => 0
  | (k, x) :: fields => size (.str k) + size .colon + weight x + weightFields fields

end

theorem length_append (a b : List Token) : length size (a ++ b) = length size a + length size b := by
  simp [length]

theorem length_seq {a b : List Token × Bool} (h : (seq a b).2 = true) :
    length size (seq a b).1 = length size a.1 + length size b.1 := by
  rw [(seq_true h).2.2, length_append]

mutual

theorem length_print : ∀ x : Json, (print x).2 = true → length size (print x).1 = weight size x
  | .null, _ | .bool _, _ | .int _, _ | .float _, _ | .str _, _ => by simp [print, weight, length]
  | .arr [], _ => by simp [print, weight, weightItems, length]
  | .obj [], _ => by simp [print, weight, weightFields, length]
  | .arr (x :: items), h => by
    rw [print] at h ⊢
    obtain ⟨-, hrest, -⟩ := seq_true h
    rw [length_seq size h, length_seq size hrest, length_print x (seq_true hrest).1,
      length_printItems items (seq_true hrest).2.1]
    simp only [weight, weightItems, length, List.map_cons, List.map_nil, List.sum_cons, List.sum_nil,
      List.length_cons, Nat.add_sub_cancel]
    ring
  | .obj ((k, x) :: fields), h => by
    rw [print] at h ⊢
    obtain ⟨-, hrest, -⟩ := seq_true h
    rw [length_seq size h, length_seq size hrest, length_print x (seq_true hrest).1,
      length_printFields fields (seq_true hrest).2.1]
    simp only [weight, weightFields, length, List.map_cons, List.map_nil, List.sum_cons, List.sum_nil,
      List.length_cons, Nat.add_sub_cancel]
    ring
  | .other, h => by simp [print] at h

theorem length_printItems : ∀ items : List Json, (printItems items).2 = true →
    length size (printItems items).1 = weightItems size items + items.length * size .comma + size .closeArr
  | [], _ => by simp [printItems, weightItems, length]
  | x :: items, h => by
    rw [printItems] at h ⊢
    obtain ⟨-, hrest, -⟩ := seq_true h
    rw [length_seq size h, length_seq size hrest, length_print x (seq_true hrest).1,
      length_printItems items (seq_true hrest).2.1]
    simp only [weightItems, length, List.map_cons, List.map_nil, List.sum_cons, List.sum_nil, List.length_cons]
    ring

theorem length_printFields : ∀ fields : List (String × Json), (printFields fields).2 = true →
    length size (printFields fields).1 =
      weightFields size fields + fields.length * size .comma + size .closeObj
  | [], _ => by simp [printFields, weightFields, length]
  | (k, x) :: fields, h => by
    rw [printFields] at h ⊢
    obtain ⟨-, hrest, -⟩ := seq_true h
    rw [length_seq size h, length_seq size hrest, length_print x (seq_true hrest).1,
      length_printFields fields (seq_true hrest).2.1]
    simp only [weightFields, length, List.map_cons, List.map_nil, List.sum_cons, List.sum_nil, List.length_cons]
    ring

end

theorem weightFields_eq (fields : List (String × Json)) :
    weightFields size fields = (fields.map fun p => size (.str p.1) + size .colon + weight size p.2).sum := by
  induction fields with
  | nil => rfl
  | cons p fields ih => simp [weightFields, ih]

mutual

theorem weight_normal : ∀ x : Json, weight size (normal id x) = weight size x
  | .null | .bool _ | .int _ | .float _ | .str _ | .other => rfl
  | .arr items => by
    obtain ⟨hweight, hlength⟩ := weightItems_normal items
    rw [normal, weight, weight, hweight, hlength]
  | .obj fields => by
    obtain ⟨hweight, hlength⟩ := weightFields_normal fields
    rw [normal, weight, weight, weightFields_eq, ((sortKeys_perm _).map _).sum_eq, ← weightFields_eq, hweight,
      (sortKeys_perm _).length_eq, hlength]

theorem weightItems_normal : ∀ items : List Json,
    weightItems size (normalItems id items) = weightItems size items ∧ (normalItems id items).length = items.length
  | [] => ⟨rfl, rfl⟩
  | x :: items => by
    obtain ⟨hweight, hlength⟩ := weightItems_normal items
    rw [normalItems, weightItems, weightItems, weight_normal x, hweight, List.length_cons, List.length_cons, hlength]
    exact ⟨rfl, rfl⟩

theorem weightFields_normal : ∀ fields : List (String × Json),
    weightFields size (normalFields id fields) = weightFields size fields ∧
      (normalFields id fields).length = fields.length
  | [] => ⟨rfl, rfl⟩
  | (k, x) :: fields => by
    obtain ⟨hweight, hlength⟩ := weightFields_normal fields
    rw [normalFields, weightFields, weightFields, weight_normal x, hweight, List.length_cons, List.length_cons,
      hlength]
    exact ⟨rfl, rfl⟩

end

/-- The canonical text is as long as the printed one. -/
theorem length_canonical {x : Json} {tokens : List Token} (h : canonical x = some tokens) :
    length size tokens = length size (print x).1 := by
  have hcomplete : (print x).2 = true := by rw [← canonical_isSome, h]; rfl
  unfold canonical at h
  split_ifs at h with hnormal
  obtain rfl := Option.some.inj h
  rw [length_print size _ hnormal, weight_normal, length_print size _ hcomplete]

end Length

end Aibot.Json
