/-
The bounded bytes of a lock diagnosis (`state_lock_diagnostics.py`): `_bounded_diagnostic_bytes` removes old events
and stack frames from a copy of the payload until its text fits.
-/
import Aibot.Lib.Dumps
import Aibot.Lib.Utf8

namespace Aibot.Store.Diagnostics

open Json (Floats)

def MAX_SNAPSHOT_BYTES : Nat := 64 * 1024

/-- The items of a dictionary. -/
abbrev Items := List (Key × Value)

/-- `key in d`. -/
def hasKey (key : String) (items : Items) : Bool := items.any fun p => p.1 = .str key

/-- An item of a dictionary, changed in place. -/
def setItem (key : String) (value : Value) (items : Items) : Items :=
  items.map fun p => if p.1 = .str key then (p.1, value) else p

/-- `d.pop(key, None)`. -/
def popItem (key : String) (items : Items) : Items := items.filter fun p => p.1 ≠ .str key

/-- The text of a candidate with its newline, in bytes; none where `json.dumps` raises. -/
def encode (floats : Floats) (candidate : Items) : Option (List UInt8) :=
  (Value.dumps floats (.dict candidate)).map fun text => utf8 (String.ofList (text ++ ['\n']))

/-! ## Stacks -/

/-- The stacks of the timeout, or of the candidate where there is no record of a timeout. -/
def stacksOf (candidate : Items) : Value :=
  match (Value.dict candidate).get "latest_timeout" with
  | .dict record => (Value.dict record).get "same_process_traceback"
  | _ => (Value.dict candidate).get "same_process_traceback"

/-- The candidate with other stacks in their place. -/
def setStacks (trimmed : List Value) (candidate : Items) : Items :=
  match (Value.dict candidate).get "latest_timeout" with
  | .dict record => setItem "latest_timeout" (.dict (setItem "same_process_traceback" (.list trimmed) record)) candidate
  | _ => setItem "same_process_traceback" (.list trimmed) candidate

/-- Fewer stacks, or fewer frames of the last one. -/
def trimStacks (first : Value) (rest : List Value) : List Value :=
  if (first :: rest).length > 1 then (first :: rest).dropLast
  else
    -- the first stack is the last one
    match first, first.get "frames" with
    | .dict lastStack, .list (frame :: frames) =>
      let kept := (frame :: frames).take (max 1 ((frame :: frames).length / 2))
      if kept.length = 1 then [] else [.dict (setItem "frames" (.list kept) lastStack)]
    | _, _ => []

/-! ## The last resort -/

def safeKeys : List String :=
  ["attempt_id", "event", "operation", "waiter_pid", "waiter_thread", "waiter_process_start", "wait_ms", "hold_ms",
    "device", "inode", "holder_pid", "holder_process_start", "holder_state", "holder_wchan", "holder_uid",
    "holder_operation", "holder_thread", "holder_hold_ms", "verified", "released_during_diagnosis", "pid_reused",
    "unavailable"]

/-- The safe fields of the timeout, or of the candidate. -/
def minimalCandidate (candidate : Items) : Items :=
  let minimalTimeout := match (Value.dict candidate).get "latest_timeout" with
    | .dict record => popItem "same_process_traceback" record
    | _ => popItem "same_process_traceback" candidate
  [(.str "schema_version", .int 1),
    (.str "latest_timeout", .ofItems ((safeKeys.filter (hasKey · minimalTimeout)).map fun key =>
      (key, (Value.dict minimalTimeout).get key))),
    (.str "recent_events", .list [])]

def fallbackText : String :=
  "\x7b\"schema_version\":1,\"latest_timeout\":\x7b\"event\":\"TIMEOUT\",\"unavailable\":true\x7d,\"recent_events\":[]\x7d\n"

/-! ## The loop -/

/-- What a turn of the loop does. -/
inductive Turn
  | returned (bytes : List UInt8)
  | again (candidate : Items)
  | raised

def minimalTurn (floats : Floats) (candidate : Items) : Turn :=
  match encode floats (minimalCandidate candidate) with
  | none => .raised
  | some encoded => .returned (if encoded.length ≤ MAX_SNAPSHOT_BYTES then encoded else utf8 fallbackText)

def turn (floats : Floats) (candidate : Items) : Turn :=
  match encode floats candidate with
  | none => .raised
  | some encoded =>
    if encoded.length ≤ MAX_SNAPSHOT_BYTES then .returned encoded
    else
      match (Value.dict candidate).get "recent_events" with
      | .list (_ :: events) => .again (setItem "recent_events" (.list events) candidate)
      | _ =>
        match stacksOf candidate with
        | .list (first :: rest) => .again (setStacks (trimStacks first rest) candidate)
        | _ => minimalTurn floats candidate

/-- The result of the loop. -/
inductive Result
  | bytes (bytes : List UInt8)
  | raised

/-- `_bounded_diagnostic_bytes`, in at most as many turns; none where these are too few. -/
def boundedDiagnosticBytes (floats : Floats) : Nat → Items → Option Result
  | 0, _ => none
  | turns + 1, candidate =>
    match turn floats candidate with
    | .returned bytes => some (.bytes bytes)
    | .raised => some .raised
    | .again candidate => boundedDiagnosticBytes floats turns candidate

end Aibot.Store.Diagnostics
