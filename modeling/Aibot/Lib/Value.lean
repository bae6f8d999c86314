/-
Python values of any type, as a function meets them that checks every field it reads.
-/
import Aibot.Lib.Double

namespace Aibot

/-- A `float`. -/
inductive Floating
  | finite (x : Double)
  | infinite (negative : Bool)
  | nan
  deriving DecidableEq

/-- A key of a dictionary; `other` is one that is no text. -/
inductive Key
  | str (s : String)
  | other (n : Nat)
  deriving DecidableEq

/-- A value. `other` is an object of another type, which equals no text and no number, with what
`float()` makes of it. -/
inductive Value
  | none
  | bool (b : Bool)
  | int (n : ℤ)
  | float (x : Floating)
  | str (s : String)
  | list (items : List Value)
  | tuple (items : List Value)
  | dict (items : List (Key × Value))
  | other (number : Option Floating)

namespace Value

/-- `x == n`, of a number or a truth value. -/
def eqInt (n : ℤ) : Value → Bool
  | .bool b => b.toInt = n
  | .int m => m = n
  | .float (.finite x) => x.val = n
  | _ => false

/-- `x == text`. -/
def isStr (text : String) : Value → Bool
  | .str s => s = text
  | _ => false

/-- `x.get(key)` of a dictionary, none of another value. -/
def get (key : String) : Value → Value
  | .dict items => ((items.find? fun p => p.1 = .str key).map Prod.snd).getD .none
  | _ => .none

section Get

variable {items : List (Key × Value)} {key key' : String} {value : Value}

/-- A value that a lookup finds is an item. -/
theorem mem_of_get (h : (dict items).get key = value) (hvalue : value ≠ .none) : (.str key, value) ∈ items := by
  have hfind : ((items.find? fun p => p.1 = .str key).map Prod.snd).getD .none = value := h
  cases hp : items.find? fun p => p.1 = .str key with
  | none =>
    rw [hp] at hfind
    exact absurd hfind.symm hvalue
  | some p =>
    rw [hp] at hfind
    have hkey : p.1 = .str key := by simpa using List.find?_some hp
    rw [← hkey, ← show p.2 = value from hfind]
    exact List.mem_of_find?_eq_some hp

theorem get_cons (p : Key × Value) (items : List (Key × Value)) (key : String) :
    (dict (p :: items)).get key = if p.1 = .str key then p.2 else (dict items).get key := by
  show ((List.find? _ (p :: items)).map Prod.snd).getD .none = _
  rw [List.find?_cons]
  by_cases hp : p.1 = .str key
  · simp [hp]
  · simp only [hp, decide_false, if_false]
    rfl

/-- A key that is there has the value that replaces its own. -/
theorem get_replaced (h : items.any (fun p => p.1 = .str key) = true) :
    (dict (items.map fun p => if p.1 = .str key then (p.1, value) else p)).get key = value := by
  induction items with
  | nil => cases h
  | cons p items ih =>
    rw [List.map_cons, get_cons]
    by_cases hp : p.1 = .str key
    · simp only [hp, if_true]
    · rw [List.any_cons, decide_eq_false hp, Bool.false_or] at h
      simp only [hp, if_false]
      exact ih h

theorem get_replaced_of_ne (h : key' ≠ key) :
    (dict (items.map fun p => if p.1 = .str key then (p.1, value) else p)).get key' = (dict items).get key' := by
  induction items with
  | nil => rfl
  | cons p items ih =>
    rw [List.map_cons, get_cons, get_cons, ih]
    by_cases hp : p.1 = .str key
    · simp [hp, Ne.symm h]
    · simp only [hp, if_false]

/-- A key that is not there has the value that is added for it. -/
theorem get_added (h : ¬ items.any (fun p => p.1 = .str key) = true) :
    (dict (items ++ [(.str key, value)])).get key = value := by
  induction items with
  | nil => simp [get_cons]
  | cons p items ih =>
    rw [List.any_cons, Bool.or_eq_true, not_or, decide_eq_true_iff] at h
    rw [List.cons_append, get_cons, if_neg h.1]
    exact ih h.2

theorem get_added_of_ne (h : key' ≠ key) :
    (dict (items ++ [(.str key, value)])).get key' = (dict items).get key' := by
  induction items with
  | nil => simp [get, Ne.symm h]
  | cons p items ih => rw [List.cons_append, get_cons, get_cons, ih]

end Get

/-- A float that is a number. -/
def ofDouble (x : Double) : Value := .float (.finite x)

/-- A result of float arithmetic, infinite where it is out of range. -/
def ofRound (q : ℚ) : Value := .float (((Double.round q).map .finite).getD (.infinite (q < 0)))

/-- A text, or none. -/
def ofText (text : Option String) : Value := (text.map Value.str).getD .none

/-- A dictionary with texts as keys. -/
def ofItems (items : List (String × Value)) : Value := .dict (items.map fun p => (.str p.1, p.2))

/-- The truth of a value in a condition. -/
def truthy : Value → Bool
  | .none => false
  | .bool b => b
  | .int n => n ≠ 0
  | .float (.finite x) => x.val ≠ 0
  | .float _ => true
  | .str s => s ≠ ""
  | .list items | .tuple items => !items.isEmpty
  | .dict items => !items.isEmpty
  | .other _ => true

/-- `x is None`. -/
def isNone : Value → Bool
  | .none => true
  | _ => false

/-- `x or y`. -/
def orElse (x y : Value) : Value := if x.truthy then x else y

mutual

/-- The value may be looked up in a set. -/
def hashable : Value → Bool
  | .list _ | .dict _ => false
  | .tuple items => hashables items
  | _ => true

def hashables : List Value → Bool
  | [] => true
  | item :: items => hashable item && hashables items

end

/-- The number that a number or a truth value is. -/
def number : Value → Option ℚ
  | .bool b => some b.toInt
  | .int n => some n
  | .float (.finite x) => some x.val
  | _ => Option.none

mutual

/-- `x == y` inside of a container, where a NaN, which is one object, equals itself. -/
def eq : Value → Value → Bool
  | .none, .none => true
  | .str s, .str t => s = t
  | .float .nan, .float .nan => true
  | .float (.infinite s), .float (.infinite t) => s = t
  | .list xs, .list ys => eqs xs ys
  | .tuple xs, .tuple ys => eqs xs ys
  | .dict xs, .dict ys => xs.length = ys.length && eqItems xs ys
  | .other x, .other y => x = y
  | x, y => (number x).isSome && number x = number y

def eqs : List Value → List Value → Bool
  | [], [] => true
  | x :: xs, y :: ys => eq x y && eqs xs ys
  | _, _ => false

/-- Every item of the first dictionary is in the second one. -/
def eqItems : List (Key × Value) → List (Key × Value) → Bool
  | [], _ => true
  | (key, x) :: xs, ys => ((ys.find? fun p => p.1 = key).any fun p => eq x p.2) && eqItems xs ys

end

/-- `x + y` of two numbers; none where an integer is too large for a float. -/
def add : Value → Value → Option Value
  | .int m, .int n => some (.int (m + n))
  | .int m, .float y => (Double.round m).map fun x => floats (.finite x) y
  | .float x, .int n => (Double.round n).map fun y => floats x (.finite y)
  | .float x, .float y => some (floats x y)
  | _, _ => none
where
  floats : Floating → Floating → Value
    | .finite x, .finite y => ofRound (x.val + y.val)
    | .finite _, y => .float y
    | x, .finite _ => .float x
    | .infinite s, .infinite t => .float (if s = t then .infinite s else .nan)
    | _, _ => .float .nan

end Value

end Aibot
