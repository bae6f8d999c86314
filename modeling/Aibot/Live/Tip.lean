/-
The tip of a bundle (`executor.py`): the percentile that `_tip_percentile` interpolates from a row of the tip
floor, and what `dynamic_jito_tip` makes of it. The arithmetic is decimal and traps; what is caught is less
than what it raises.
-/
import Aibot.Lib.Decimal
import Aibot.Observation.ShadowStored

namespace Aibot.Live.Tip

open Observation.Stored.Shadow (strip)

def LAMPORTS_PER_SOL : ℚ := 1000000000

def JITO_FALLBACK_TIP_LAMPORTS : ℤ := 2000000

def JITO_MIN_TIP_LAMPORTS : ℤ := 1000

def MAX_FEE_BASIS_POINTS : ℤ := 200

def MAX_ABSOLUTE_FEE_LAMPORTS : ℤ := 30000000

/-! ## Texts as decimals -/

/-- What the platform knows of texts: `str` of a JSON value, and the digits that are not ASCII. -/
structure Platform where
  text : Value → String
  decimalDigit : Char → Option Nat

/-- The default context. -/
def context : Decimal.Context where
  prec := 28
  emax := 999999
  emin := -999999
  prec_pos := by norm_num
  emax_nonneg := by norm_num
  emin_nonpos := by norm_num

def MAX_EMAX : ℤ := 999999999999999999

def MIN_ETINY : ℤ := -1999999999999999997

/-- The number of some digits. -/
def numberOf (digits : List Char) : Nat := digits.foldl (fun n digit => 10 * n + (digit.toNat - '0'.toNat)) 0

/-- Digits and nothing else, at least one. -/
def digitsOf (cs : List Char) : Option Nat := if cs ≠ [] ∧ cs.all Char.isDigit then some (numberOf cs) else none

/-- The exponent after the digits of a number. -/
def exponentOf : List Char → Option ℤ
  | [] => some 0
  | e :: cs =>
    if e.toLower ≠ 'e' then none
    else
      match cs with
      | '-' :: cs => (digitsOf cs).map fun n => -n
      | '+' :: cs => (digitsOf cs).map fun n => n
      | cs => (digitsOf cs).map fun n => n

/-- A finite number, exactly as it is written; none where the exponent is out of every range. -/
def finiteOf (negative : Bool) (cs : List Char) : Option Decimal :=
  let whole := cs.takeWhile Char.isDigit
  let rest := cs.dropWhile Char.isDigit
  let fraction := match rest with
    | '.' :: rest => rest.takeWhile Char.isDigit
    | _ => []
  let rest := match rest with
    | '.' :: rest => rest.dropWhile Char.isDigit
    | rest => rest
  if whole ++ fraction = [] then none
  else
    (exponentOf rest).bind fun exponent =>
      let coefficient := numberOf (whole ++ fraction)
      let exponent := exponent - fraction.length
      if MIN_ETINY ≤ exponent ∧ exponent + Nat.log 10 coefficient ≤ MAX_EMAX then
        some (.finite ((if negative then -1 else 1) * coefficient * 10 ^ exponent))
      else none

/-- A number without its sign. -/
def unsignedOf (negative : Bool) (cs : List Char) : Option Decimal :=
  let lower := cs.map Char.toLower
  if lower = "inf".toList ∨ lower = "infinity".toList then some (.infinite negative)
  else if "nan".toList.isPrefixOf lower then if (lower.drop 3).all Char.isDigit then some .nan else none
  else if "snan".toList.isPrefixOf lower then if (lower.drop 4).all Char.isDigit then some .snan else none
  else finiteOf negative cs

section Texts

variable (py : Platform)

/-- The text without the space around it and its underscores, its digits in ASCII. -/
def asciiOf (text : String) : Option (List Char) :=
  ((strip text).toList.filter (· ≠ '_')).mapM fun c =>
    if c.toNat < 128 then some c else (py.decimalDigit c).map Nat.digitChar

/-- `Decimal(text)`; none where it raises `InvalidOperation`. -/
def decimalOf (text : String) : Option Decimal :=
  (asciiOf py text).bind fun cs =>
    match cs with
    | '-' :: cs => unsignedOf true cs
    | '+' :: cs => unsignedOf false cs
    | cs => unsignedOf false cs

end Texts

/-! ## The percentile -/

/-- A percentile and its tip. -/
abbrev Point := Decimal × Decimal

/-- The point of a field, if it is one that can be read. -/
def tipPoint (py : Platform) (key : String) (value : Value) : Option Point :=
  let first := "landed_tips_".toList
  let last := "th_percentile".toList
  if first.isPrefixOf key.toList && last.isSuffixOf key.toList && !"ema_".toList.isPrefixOf key.toList then
    let percentile := (key.toList.take (key.toList.length - last.length)).drop first.length
    (decimalOf py (String.ofList percentile)).bind fun percentile =>
      (decimalOf py (py.text value)).map fun tip => (percentile, tip)
  else none

/-- The points of a row, whose keys are texts. -/
def tipPoints (py : Platform) (row : List (Key × Value)) : List Point :=
  row.filterMap fun item =>
    match item.1 with
    | .str key => tipPoint py key item.2
    | .other _ => none

/-- `p < q` of two points. -/
def Point.lt (p q : Point) : Except Decimal.Signal Bool := do
  if ← p.1.eq q.1 then
    if ← p.2.eq q.2 then return false
    p.2.lt q.2
  else p.1.lt q.1

/-- The points in order. -/
def ordered (points : List Point) : List Point := points.insertionSort fun p q => Point.lt q p ≠ .ok true

/-- `points.sort()`. A percentile that is no number raises in every comparison, and where the tip of a point
is none, the point is compared with another one of its percentile before the order of the two is known. -/
def sortPoints (points : List Point) : Except Decimal.Signal (List Point) :=
  if points.Pairwise fun p q => (Point.lt p q).isOk = true then .ok (ordered points) else .error .invalidOperation

/-- The value on the line between two points. -/
def interpolate (target : ℚ) (left right : Point) : Except Decimal.Signal Decimal := do
  let weight ← Decimal.div context (← Decimal.sub context (.finite target) left.1)
    (← Decimal.sub context right.1 left.1)
  Decimal.add context left.2 (← Decimal.mul context (← Decimal.sub context right.2 left.2) weight)

/-- How a call raises. -/
inductive Raised
  | signal (s : Decimal.Signal)
  | valueError
  | overflowError
  | runtimeError

/-- What a trap raises is not caught on the way. -/
def traps {α : Type} (x : Except Decimal.Signal α) : Except Raised α := x.mapError Raised.signal

/-- The loop over the neighbours. -/
def interpolateFrom (target : ℚ) : List Point → Except Raised Decimal
  | left :: right :: rest => do
    if ← traps (left.1.le (.finite target)) then
      if ← traps ((Decimal.finite target).le right.1) then traps (interpolate target left right)
      else interpolateFrom target (right :: rest)
    else interpolateFrom target (right :: rest)
  | _ => .error .valueError

/-- `_tip_percentile(row, percentile)`. -/
def tipPercentile (py : Platform) (row : List (Key × Value)) (target : ℚ) : Except Raised Decimal := do
  match ← traps (sortPoints (tipPoints py row)) with
  | [] => .error .valueError
  | first :: rest =>
    let last := (first :: rest).getLast (List.cons_ne_nil first rest)
    if ← traps ((Decimal.finite target).le first.1) then return first.2
    if ← traps (last.1.le (.finite target)) then return last.2
    interpolateFrom target (first :: rest)

/-! ## The tip -/

inductive Urgency
  | normal
  | emergency

def Urgency.percentile : Urgency → ℚ
  | .normal => 125 / 2
  | .emergency => 165 / 2

/-- What the tip floor answers. -/
inductive Response
  /-- A `ClientError`, a timeout, or no JSON. -/
  | failed
  | json (payload : Value)

/-- `math.ceil`. -/
def ceil : Decimal → Except Raised ℤ
  | .finite x => .ok ⌈x⌉
  | .infinite _ => .error .overflowError
  | .nan | .snan => .error .valueError

/-- The percentile in lamports. -/
def lamportsOf (tip : Decimal) : Except Raised ℤ := do
  let requested ← ceil (← traps (Decimal.mul context tip (.finite LAMPORTS_PER_SOL)))
  if requested ≤ 0 then .error .valueError else .ok requested

/-- The tip that the response asks for. -/
def requestedTip (py : Platform) (urgency : Urgency) : Response → Except Raised ℤ
  | .json (.list (.dict row :: _)) => do lamportsOf (← tipPercentile py row urgency.percentile)
  | _ => .error .valueError

/-- The exceptions that `dynamic_jito_tip` catches. -/
def Raised.caught : Raised → Bool
  | .valueError => true
  | _ => false

/-- The cap of the fee. -/
def feeCap (notional : ℤ) : ℤ := min (max 0 notional * MAX_FEE_BASIS_POINTS / 10000) MAX_ABSOLUTE_FEE_LAMPORTS

/-- `dynamic_jito_tip`: the tip, and the tip that is remembered after it. -/
def dynamicJitoTip (py : Platform) (last : Option ℤ) (notional : ℤ) (urgency : Urgency) (response : Response) :
    Except Raised (ℤ × Option ℤ) :=
  if feeCap notional < JITO_MIN_TIP_LAMPORTS then .error .runtimeError
  else
    match requestedTip py urgency response with
    | .ok requested => .ok (max JITO_MIN_TIP_LAMPORTS (min requested (feeCap notional)), some requested)
    | .error e =>
      if e.caught then
        let requested := (last.filter (· ≠ 0)).getD JITO_FALLBACK_TIP_LAMPORTS
        .ok (max JITO_MIN_TIP_LAMPORTS (min requested (feeCap notional)), last)
      else .error e

end Aibot.Live.Tip
