/-
JSON objects as dictionaries: the truth of a value, an object read back from the value it is printed
as, updates with several items, and defaults that are set where a key is absent.
-/
import Aibot.Lib.Json
import Aibot.Lib.Sequence

namespace Aibot

/-! ## Several items -/

namespace Dict

variable {κ α : Type*} [DecidableEq κ]

/-- `d.update(items)`. -/
def update (d : Dict κ α) (items : List (κ × α)) : Dict κ α := items.foldl (fun d p => d.set p.1 p.2) d

/-- Set each item whose key is absent, and tell whether one was. -/
def setDefaults : List (κ × α) → Dict κ α → Bool × Dict κ α
  | [], d => (false, d)
  | (k, v) :: items, d =>
    if (d.get? k).isSome then setDefaults items d else (true, (setDefaults items (d.set k v)).2)

@[simp] theorem update_nil (d : Dict κ α) : d.update [] = d := rfl

theorem update_cons (d : Dict κ α) (p : κ × α) (items : List (κ × α)) :
    d.update (p :: items) = (d.set p.1 p.2).update items := rfl

theorem get?_update_of_not_mem {k : κ} : ∀ {items : List (κ × α)} (d : Dict κ α),
    k ∉ items.map Prod.fst → (d.update items).get? k = d.get? k
  | [], d, _ => rfl
  | (k', v) :: items, d, h => by
    rw [List.map_cons, List.mem_cons, not_or] at h
    rw [update_cons, get?_update_of_not_mem _ h.2, get?_set_of_ne d v h.1]

theorem get?_update_of_mem {k : κ} {v : α} : ∀ {items : List (κ × α)} (d : Dict κ α),
    (items.map Prod.fst).Nodup → (k, v) ∈ items → (d.update items).get? k = some v
  | (k', v') :: items, d, hn, h => by
    rw [List.map_cons, List.nodup_cons] at hn
    rw [update_cons]
    rcases List.mem_cons.1 h with heq | h
    · obtain ⟨rfl, rfl⟩ := Prod.mk.inj heq
      rw [get?_update_of_not_mem _ hn.1, get?_set_self]
    · exact get?_update_of_mem _ hn.2 h

/-- A key after an update has the value of an item, or is none of theirs. -/
theorem get?_update_or (k : κ) : ∀ (items : List (κ × α)) (d : Dict κ α),
    (∃ v, (k, v) ∈ items ∧ (d.update items).get? k = some v) ∨ (d.update items).get? k = d.get? k
  | [], d => .inr rfl
  | (k', v) :: items, d => by
    rw [update_cons]
    rcases get?_update_or k items (d.set k' v) with ⟨w, hmem, hw⟩ | h
    · exact .inl ⟨w, List.mem_cons_of_mem _ hmem, hw⟩
    · rw [h, get?_set]
      split_ifs with hk
      · subst hk
        exact .inl ⟨v, List.mem_cons_self, rfl⟩
      · exact .inr rfl

theorem isSome_get?_set {d : Dict κ α} {k : κ} (h : (d.get? k).isSome = true) (k' : κ) (v : α) :
    ((d.set k' v).get? k).isSome = true := by
  rw [get?_set]
  split_ifs
  · rfl
  · exact h

/-- An update takes no key away. -/
theorem isSome_get?_update {k : κ} : ∀ (items : List (κ × α)) {d : Dict κ α},
    (d.get? k).isSome = true → ((d.update items).get? k).isSome = true
  | [], _, h => h
  | (k', v) :: items, _, h => isSome_get?_update items (isSome_get?_set h k' v)

/-- A key is set to the value it has. -/
theorem set_of_get? {d : Dict κ α} {k : κ} {v : α} (h : d.get? k = some v) : d.set k v = d := by
  apply ext
  rw [entries_set_of_get h]
  conv_rhs => rw [← List.map_id d.entries]
  refine List.map_congr_left fun p hp => ?_
  by_cases hk : p.1 = k
  · have hp : d.get? p.1 = some p.2 := get?_eq_some.2 hp
    rw [hk, h] at hp
    rw [if_pos hk, Option.some.inj hp, ← hk]
    rfl
  · rw [if_neg hk]
    rfl

theorem get?_ofList_of_mem {items : List (κ × α)} (hn : (items.map Prod.fst).Nodup) {k : κ} {v : α}
    (h : (k, v) ∈ items) : (ofList items).get? k = some v :=
  get?_update_of_mem empty hn h

theorem isSome_get?_ofList {items : List (κ × α)} (hn : (items.map Prod.fst).Nodup) {k : κ}
    (h : k ∈ items.map Prod.fst) : ((ofList items).get? k).isSome = true := by
  obtain ⟨⟨k, v⟩, hmem, rfl⟩ := List.mem_map.1 h
  rw [get?_ofList_of_mem hn hmem]
  rfl

theorem isSome_setDefaults_of_isSome {k : κ} : ∀ (items : List (κ × α)) {d : Dict κ α},
    (d.get? k).isSome = true → ((setDefaults items d).2.get? k).isSome = true
  | [], _, h => h
  | (k', v) :: items, d, h => by
    unfold setDefaults
    split_ifs
    · exact isSome_setDefaults_of_isSome items h
    · exact isSome_setDefaults_of_isSome items (isSome_get?_set h k' v)

/-- Every key of the defaults is set. -/
theorem isSome_setDefaults {k : κ} : ∀ {items : List (κ × α)} (d : Dict κ α),
    k ∈ items.map Prod.fst → ((setDefaults items d).2.get? k).isSome = true
  | (k', v) :: items, d, h => by
    unfold setDefaults
    rcases List.mem_cons.1 h with rfl | h
    · split_ifs with hk
      · exact isSome_setDefaults_of_isSome items hk
      · exact isSome_setDefaults_of_isSome items (by simp)
    · split_ifs
      · exact isSome_setDefaults d h
      · exact isSome_setDefaults _ h

/-- Nothing is set where every key is there. -/
theorem setDefaults_of_isSome : ∀ {items : List (κ × α)} {d : Dict κ α},
    (∀ k ∈ items.map Prod.fst, (d.get? k).isSome = true) → setDefaults items d = (false, d)
  | [], _, _ => rfl
  | (k', v) :: items, d, h => by
    unfold setDefaults
    rw [if_pos (h k' List.mem_cons_self)]
    exact setDefaults_of_isSome fun k hk => h k (List.mem_cons_of_mem _ hk)

end Dict

/-! ## What raises -/

/-- The value, or the error where there is none. -/
def orRaise {ε α : Type*} (e : ε) : Option α → Except ε α
  | some a => .ok a
  | none => .error e

theorem orRaise_ok {ε α : Type*} {e : ε} {o : Option α} {a : α} (h : orRaise e o = .ok a) : o = some a := by
  cases o with
  | none => cases h
  | some _ => cases h; rfl

/-- A sequence that does not raise: neither part does. -/
theorem bind_ok {ε α β : Type} {x : Except ε α} {f : α → Except ε β} {b : β} (h : x >>= f = .ok b) :
    ∃ a, x = .ok a ∧ f a = .ok b := by
  cases x with
  | error _ => cases h
  | ok a => exact ⟨a, rfl, h⟩

/-! ## Values -/

namespace Json

/-- The truth of a value in a condition. -/
def truthy : Json → Bool
  | .null => false
  | .bool b => b
  | .int n => n ≠ 0
  | .float q => q ≠ 0
  | .str s => s ≠ ""
  | .arr items => !items.isEmpty
  | .obj fields => !fields.isEmpty
  | .other => true

/-- `x or y`. -/
def orElse (x y : Json) : Json := if x.truthy then x else y

/-- `x == text`. -/
def isStr (text : String) : Json → Bool
  | .str s => s = text
  | _ => false

/-- `x == n`, of a number or a truth value. -/
def eqInt (n : Int) : Json → Bool
  | .bool b => b.toInt = n
  | .int m => m = n
  | .float q => q = n
  | _ => false

/-- `x is True`. -/
def isTrue : Json → Bool
  | .bool b => b
  | _ => false

/-- `x is None`. -/
def isNull : Json → Bool
  | .null => true
  | _ => false

/-- `isinstance(x, list)`. -/
def isArr : Json → Bool
  | .arr _ => true
  | _ => false

/-- `isinstance(x, dict)`. -/
def isObj : Json → Bool
  | .obj _ => true
  | _ => false

/-- The items of a list. -/
def items : Json → List Json
  | .arr items => items
  | _ => []

/-- The dictionary an object is. -/
def fields? : Json → Option (Dict String Json)
  | .obj fields => some (Dict.ofList fields)
  | _ => none

/-- A dictionary as a value. -/
def ofFields (d : Dict String Json) : Json := .obj d.entries

@[simp] theorem isArr_arr (items : List Json) : (Json.arr items).isArr = true := rfl

@[simp] theorem isObj_obj (fields : List (String × Json)) : (Json.obj fields).isObj = true := rfl

@[simp] theorem isObj_ofFields (d : Dict String Json) : (ofFields d).isObj = true := rfl

@[simp] theorem items_arr (items : List Json) : (Json.arr items).items = items := rfl

@[simp] theorem fields?_ofFields (d : Dict String Json) : (ofFields d).fields? = some d := by
  show some (Dict.ofList d.entries) = some d
  rw [Dict.ofList_entries]

end Json

/-- `d.get(key)`. -/
def Dict.field (d : Dict String Json) (key : String) : Json := (d.get? key).getD .null

namespace Dict

theorem field_of_get? {d : Dict String Json} {key : String} {x : Json} (h : d.get? key = some x) :
    d.field key = x := by
  unfold field
  rw [h]
  rfl

@[simp] theorem field_set_self (d : Dict String Json) (key : String) (x : Json) :
    (d.set key x).field key = x :=
  field_of_get? (get?_set_self d key x)

theorem field_set_of_ne (d : Dict String Json) {key key' : String} (x : Json) (h : key' ≠ key) :
    (d.set key x).field key' = d.field key' := by
  unfold field
  rw [get?_set_of_ne d x h]

theorem field_update_of_mem {items : List (String × Json)} (d : Dict String Json) {key : String} {x : Json}
    (hn : (items.map Prod.fst).Nodup) (h : (key, x) ∈ items) : (d.update items).field key = x :=
  field_of_get? (get?_update_of_mem d hn h)

theorem field_update_of_not_mem {items : List (String × Json)} (d : Dict String Json) {key : String}
    (h : key ∉ items.map Prod.fst) : (d.update items).field key = d.field key := by
  unfold field
  rw [get?_update_of_not_mem d h]

theorem field_update_or (items : List (String × Json)) (d : Dict String Json) (key : String) :
    (∃ x, (key, x) ∈ items ∧ (d.update items).field key = x) ∨ (d.update items).field key = d.field key := by
  rcases get?_update_or key items d with ⟨x, hmem, hx⟩ | h
  · exact .inl ⟨x, hmem, field_of_get? hx⟩
  · right
    unfold field
    rw [h]

end Dict

end Aibot
