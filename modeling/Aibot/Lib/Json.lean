/-
JSON values as tokens: a printer that may meet a value that is not JSON, a parser as a stack
machine over the tokens, and the round trip.
-/
import Aibot.Lib.Dict

namespace Aibot

/-- A value the printer is given. `other` is any value that is not JSON. -/
inductive Json
  | null
  | bool (b : Bool)
  | int (n : Int)
  | float (q : ℚ)
  | str (s : String)
  | arr (items : List Json)
  | obj (fields : List (String × Json))
  | other

namespace Json

inductive Token
  | null
  | bool (b : Bool)
  | int (n : Int)
  | float (q : ℚ)
  | str (s : String)
  | openArr
  | closeArr
  | openObj
  | closeObj
  | comma
  | colon

/-! ## Printing -/

/-- Two fragments of output, the second only when the first came to its end. -/
def seq (a b : List Token × Bool) : List Token × Bool := if a.2 then (a.1 ++ b.1, b.2) else a

mutual

/-- The tokens of a value up to the first that is not JSON, and whether there is none. -/
def print : Json → List Token × Bool
  | .null => ([.null], true)
  | .bool b => ([.bool b], true)
  | .int n => ([.int n], true)
  | .float q => ([.float q], true)
  | .str s => ([.str s], true)
  | .arr [] => ([.openArr, .closeArr], true)
  | .arr (x :: xs) => seq ([.openArr], true) (seq (print x) (printItems xs))
  | .obj [] => ([.openObj, .closeObj], true)
  | .obj ((k, x) :: xs) => seq ([.openObj, .str k, .colon], true) (seq (print x) (printFields xs))
  | .other => ([], false)

/-- The items after the first one, to the closing bracket. -/
def printItems : List Json → List Token × Bool
  | [] => ([.closeArr], true)
  | x :: xs => seq ([.comma], true) (seq (print x) (printItems xs))

def printFields : List (String × Json) → List Token × Bool
  | [] => ([.closeObj], true)
  | (k, x) :: xs => seq ([.comma, .str k, .colon], true) (seq (print x) (printFields xs))

end

/-! ## Parsing -/

/-- An open bracket, with what came before. -/
inductive Opened
  | arr (items : List Json)
  | obj (fields : List (String × Json)) (key : String)

/-- What the parser expects next, inside the open brackets. -/
inductive Expect
  | value (stack : List Opened)
  /-- A value or `]`. -/
  | item (stack : List Opened)
  | key (stack : List Opened) (fields : List (String × Json))
  /-- A key or `}`. -/
  | field (stack : List Opened)
  | colon (stack : List Opened) (fields : List (String × Json)) (key : String)
  /-- A comma or a closing bracket after a value. -/
  | next (stack : List Opened) (x : Json)

/-- A token that begins a value. -/
def begin? (stack : List Opened) : Token → Option Expect
  | .null => some (.next stack .null)
  | .bool b => some (.next stack (.bool b))
  | .int n => some (.next stack (.int n))
  | .float q => some (.next stack (.float q))
  | .str s => some (.next stack (.str s))
  | .openArr => some (.item stack)
  | .openObj => some (.field stack)
  | _ => none

def Expect.step : Expect → Token → Option Expect
  | .value stack, t => begin? stack t
  | .item stack, .closeArr => some (.next stack (.arr []))
  | .item stack, t => begin? (.arr [] :: stack) t
  | .key stack fields, .str k => some (.colon stack fields k)
  | .field stack, .str k => some (.colon stack [] k)
  | .field stack, .closeObj => some (.next stack (.obj []))
  | .colon stack fields k, .colon => some (.value (.obj fields k :: stack))
  | .next (.arr items :: stack) x, .comma => some (.value (.arr (items ++ [x]) :: stack))
  | .next (.arr items :: stack) x, .closeArr => some (.next stack (.arr (items ++ [x])))
  | .next (.obj fields k :: stack) x, .comma => some (.key stack (fields ++ [(k, x)]))
  | .next (.obj fields k :: stack) x, .closeObj => some (.next stack (.obj (fields ++ [(k, x)])))
  | _, _ => none

/-- The parser over a list of tokens. -/
def Expect.steps : Expect → List Token → Option Expect
  | e, [] => some e
  | e, t :: ts => (e.step t).bind fun e' => e'.steps ts

def parse (ts : List Token) : Option Json :=
  match (Expect.value []).steps ts with
  | some (.next [] x) => some x
  | _ => none

/-! ## The round trip -/

theorem steps_append : ∀ (e : Expect) (ts us : List Token),
    e.steps (ts ++ us) = (e.steps ts).bind fun e' => e'.steps us
  | e, [], us => rfl
  | e, t :: ts, us => by
    simp only [List.cons_append, Expect.steps]
    cases e.step t with
    | none => rfl
    | some e' => exact steps_append e' ts us

theorem seq_true {a b : List Token × Bool} (h : (seq a b).2 = true) :
    a.2 = true ∧ b.2 = true ∧ (seq a b).1 = a.1 ++ b.1 := by
  unfold seq at *
  split_ifs at h ⊢ with ha
  · exact ⟨ha, h, rfl⟩
  · exact absurd h ha

/-- Steps over one fragment and then the next. -/
theorem steps_seq {e e' : Expect} {a b : List Token × Bool} (h : (seq a b).2 = true)
    (ha : a.2 = true → e.steps a.1 = some e') : e.steps (seq a b).1 = e'.steps b.1 := by
  obtain ⟨h₁, -, h₂⟩ := seq_true h
  rw [h₂, steps_append, ha h₁]; rfl

/-- The states in which a value may begin, and the brackets around it. -/
inductive Begins : Expect → List Opened → Prop
  | value (stack : List Opened) : Begins (.value stack) stack
  | item (stack : List Opened) : Begins (.item stack) (.arr [] :: stack)

theorem Begins.steps {e : Expect} {stack : List Opened} (h : Begins e stack) {t : Token}
    (ht : t ≠ .closeArr) (ts : List Token) :
    e.steps (t :: ts) = (begin? stack t).bind fun e' => e'.steps ts := by
  have hstep : e.step t = begin? stack t := by
    cases h with
    | value => cases t <;> rfl
    | item => cases t <;> first | rfl | exact absurd rfl ht
  rw [Expect.steps, hstep]

mutual

theorem steps_print : ∀ (x : Json) {e : Expect} {stack : List Opened}, Begins e stack →
    (print x).2 = true → e.steps (print x).1 = some (.next stack x)
  | .null, e, stack, hb, _ | .bool _, e, stack, hb, _ | .int _, e, stack, hb, _
  | .float _, e, stack, hb, _ | .str _, e, stack, hb, _ => by
    rw [print, hb.steps (by simp)]
    rfl
  | .arr [], e, stack, hb, _ | .obj [], e, stack, hb, _ => by
    rw [print, hb.steps (by simp)]
    rfl
  | .arr (x :: xs), e, stack, hb, h => by
    rw [print] at h ⊢
    have hopen : e.steps [.openArr] = some (.item stack) := hb.steps (by simp) []
    rw [steps_seq h fun _ => hopen, steps_seq (seq_true h).2.1 (steps_print x (.item stack))]
    exact steps_printItems xs (seq_true (seq_true h).2.1).2.1
  | .obj ((k, x) :: xs), e, stack, hb, h => by
    rw [print] at h ⊢
    have hopen : e.steps [.openObj, .str k, .colon] = some (.value (.obj [] k :: stack)) :=
      hb.steps (by simp) [.str k, .colon]
    rw [steps_seq h fun _ => hopen, steps_seq (seq_true h).2.1 (steps_print x (.value _))]
    exact steps_printFields xs (seq_true (seq_true h).2.1).2.1
  | .other, e, stack, _, h => by simp [print] at h

theorem steps_printItems : ∀ (xs : List Json) {items : List Json} {x : Json} {stack : List Opened},
    (printItems xs).2 = true → (Expect.next (.arr items :: stack) x).steps (printItems xs).1 =
      some (.next stack (.arr (items ++ x :: xs)))
  | [], items, x, stack, _ => by simp [printItems, Expect.steps, Expect.step]
  | y :: ys, items, x, stack, h => by
    rw [printItems] at h ⊢
    have hcomma : (Expect.next (.arr items :: stack) x).steps [.comma] =
        some (.value (.arr (items ++ [x]) :: stack)) := by simp [Expect.steps, Expect.step]
    rw [steps_seq h fun _ => hcomma, steps_seq (seq_true h).2.1 (steps_print y (.value _)),
      steps_printItems ys (seq_true (seq_true h).2.1).2.1, List.append_assoc]
    rfl

theorem steps_printFields : ∀ (xs : List (String × Json)) {fields : List (String × Json)} {k : String}
    {x : Json} {stack : List Opened}, (printFields xs).2 = true →
      (Expect.next (.obj fields k :: stack) x).steps (printFields xs).1 =
        some (.next stack (.obj (fields ++ (k, x) :: xs)))
  | [], fields, k, x, stack, _ => by simp [printFields, Expect.steps, Expect.step]
  | (k', y) :: ys, fields, k, x, stack, h => by
    rw [printFields] at h ⊢
    have hcomma : (Expect.next (.obj fields k :: stack) x).steps [.comma, .str k', .colon] =
        some (.value (.obj (fields ++ [(k, x)]) k' :: stack)) := by simp [Expect.steps, Expect.step]
    rw [steps_seq h fun _ => hcomma, steps_seq (seq_true h).2.1 (steps_print y (.value _)),
      steps_printFields ys (seq_true (seq_true h).2.1).2.1, List.append_assoc]
    rfl

end

/-- What was printed to its end is parsed back. -/
theorem parse_print {x : Json} (h : (print x).2 = true) : parse (print x).1 = some x := by
  unfold parse
  rw [steps_print x (.value []) h]

end Json

end Aibot
