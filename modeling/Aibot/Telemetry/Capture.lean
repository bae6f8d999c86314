/-
A capture of entry telemetry: the hooks that write into it while a signal is analysed, and the predictor
row that the worker makes of it. A hook never raises; where its body does, what it wrote so far stays.
-/
import Aibot.Telemetry.Schema

namespace Aibot.Telemetry

/-! ## Times -/

/-- A datetime, in microseconds. -/
inductive Moment
  | naive (microseconds : ℤ)
  | aware (instant : ℤ)

/-- What Python reads and writes as datetimes. -/
structure Datetimes where
  /-- None where it raises. -/
  fromisoformat : String → Option Moment
  /-- `isoformat` of a UTC instant. -/
  isoformat : ℤ → String
  /-- `timestamp` of a naive time, in the time zone of the machine. -/
  localEpoch : ℤ → Option Double

/-- `text.replace("Z", "+00:00")`. -/
def replaceZ (text : String) : String :=
  String.ofList (text.toList.flatMap fun c => if c = 'Z' then "+00:00".toList else [c])

/-- The years that a datetime has. -/
def inCalendar (instant : ℤ) : Bool :=
  -62135596800 * 10 ^ 6 ≤ instant && instant < 253402300800 * 10 ^ 6

namespace Datetimes

variable (dt : Datetimes)

/-- `astimezone(timezone.utc).isoformat()`; it raises outside the calendar. -/
def utcText (instant : ℤ) : Option String := if inCalendar instant then some (dt.isoformat instant) else none

/-- `timestamp()`. -/
def timestamp : Moment → Option Double
  | .naive microseconds => dt.localEpoch microseconds
  | .aware instant => Double.round (instant / 10 ^ 6)

end Datetimes

/-! ## Captures -/

/-- A reading of the clocks. -/
structure Stamp where
  wallUtc : String
  monotonicNs : Option ℤ
  semantics : Option String

structure Identity where
  signalId : String
  mint : String
  routeType : String
  strategyFamily : String
  signalDetectedAt : String
  sourceWalletHash : Option String
  sourceSignatureHash : Option String

structure Receipt where
  paperBuyCreatedAt : Option Stamp
  tradeId : Value
  eventSeq : Value

structure Capture where
  identity : Identity
  timestamps : Dict String (Option Stamp)
  sections : Dict String (Dict String Value)
  counters : Dict String Value
  durations : Dict String Value
  receipt : Receipt
  frozen : Bool
  finished : Bool
  safeBudget : Budget

/-- The start of a section. -/
def emptySection (fields : List String) : Dict String Value :=
  Dict.ofList (fields.map fun key =>
    (key, if key = "missing_reason" then .str "not_available_in_existing_flow" else .none))

/-- `Capture(identity)`. -/
def Capture.start (identity : Identity) : Capture where
  identity := identity
  timestamps := (Dict.ofList (timestampNames.map fun name => (name, none))).set "signal_detected_at"
    (some ⟨identity.signalDetectedAt, none, some "upstream UTC; historical monotonic unavailable"⟩)
  sections := Dict.ofList (sectionFields.map fun p => (p.1, emptySection p.2))
  counters := Dict.ofList (counterNames.map fun name => (name, .none))
  durations := Dict.ofList (durationNames.map fun name => (name, .none))
  receipt := ⟨none, .none, .none⟩
  frozen := false
  finished := false
  safeBudget := freshBudget

/-! ## The hooks -/

namespace Capture

variable (dt : Datetimes)

/-- `capture.sections[name][key] = value`. -/
def setField (name key : String) (value : Value) (c : Capture) : Capture :=
  match c.sections.get? name with
  | some fields => { c with sections := c.sections.set name (fields.set key value) }
  | none => c

/-- `capture.sections[name].get(key)`. -/
def field (c : Capture) (name key : String) : Value := ((c.sections.get? name).bind (·.get? key)).getD .none

/-- `capture.timestamps.get(name)`. -/
def stampOf (c : Capture) (name : String) : Option Stamp := (c.timestamps.get? name).join

/-- Set a time that is not set yet. -/
def setStamp (name : String) (stamp : Stamp) (c : Capture) : Capture :=
  if (c.stampOf name).isNone then { c with timestamps := c.timestamps.set name (some stamp) } else c

/-- The stamp of a mark: the clocks now, or the times of the caller; none where it raises. -/
def markStamp (wallUtc : String) (monotonicNs : ℤ) (values : Dict String Value) : Option Stamp :=
  let now : Stamp := ⟨wallUtc, some monotonicNs, none⟩
  let captured (instant : ℤ) (ns : Option ℤ) : Option Stamp := do
    some ⟨← dt.utcText instant, some (← ns), some "actual upstream capture; not reconstructed"⟩
  match values.get? "wall_clock", values.get? "monotonic" with
  | some (.str text), some monotonic =>
    match dt.fromisoformat (replaceZ text) with
    | none => none
    | some (.naive _) => some now
    | some (.aware instant) =>
      match monotonic with
      | .int n => if isFiniteInt n then (if 0 ≤ n then captured instant (some (n * 10 ^ 9)) else some now) else none
      | .float (.finite x) =>
        if 0 ≤ x.val then captured instant ((Double.round (x.val * 10 ^ 9)).map Double.trunc) else some now
      | _ => some now
  | some _, some _ => none
  | _, _ => some now

/-- The receipt fields of a mark, up to the first that raises, and whether none does. -/
def markReceipt (values : Dict String Value) (c : Capture) : Capture × Bool :=
  let copied (key : String) (old : Value) : Option Value :=
    match values.get? key with
    | some value => if value.isNone then some old else safeAlone value
    | none => some old
  match copied "trade_id" c.receipt.tradeId with
  | none => (c, false)
  | some tradeId =>
    let c := { c with receipt := { c.receipt with tradeId := tradeId } }
    match copied "event_seq" c.receipt.eventSeq with
    | none => (c, false)
    | some eventSeq => ({ c with receipt := { c.receipt with eventSeq := eventSeq } }, true)

/-- A purchase is marked, also after the decision. -/
def markPurchase (stamp : Stamp) (values : Dict String Value) (c : Capture) : Capture :=
  let c := { c with frozen := true,
                    receipt :=
                      { c.receipt with paperBuyCreatedAt := c.receipt.paperBuyCreatedAt.orElse fun _ => stamp } }
  match c.markReceipt values with
  | (c, false) => c
  | (c, true) => if c.receipt.tradeId.isNone then c else c.setField "decision" "outcome" (.str "BUY")

/-- The age of the quote at the decision, and the freeze; what raises does not freeze. -/
def markDecision (stamp : Stamp) (c : Capture) : Capture :=
  match c.stampOf "quote_buy_received_at" with
  | none => { c with frozen := true }
  | some received =>
    match stamp.monotonicNs, received.monotonicNs with
    | some ns, some ns' =>
      match Double.round ((ns - ns' : ℤ) / 10 ^ 9) with
      | none => c
      | some elapsed =>
        let c := if 0 ≤ elapsed.val then
          (c.setField "quote_buy" "quote_age_at_decision_sec" (.ofDouble elapsed)).setField "quote_buy" "quote_age_ms"
            (.ofRound (elapsed.val * 1000)) else c
        { c with frozen := true }
    | _, _ => c

/-- A time before the decision. -/
def markTime (name : String) (stamp : Stamp) (c : Capture) : Capture :=
  let c := c.setStamp name stamp
  let c := if name = "quote_buy_request_started_at" then
    c.setStamp "quote_request_started_at" { stamp with semantics := some "first BUY quote request alias" } else c
  let c := if name = "quote_buy_received_at" then
    (c.setStamp "quote_received_at" { stamp with semantics := some "first BUY quote local receipt alias" }).setField
      "quote_buy" "quote_timestamp" (.str stamp.wallUtc) else c
  if name = "entry_decision_at" then c.markDecision stamp else c

/-- `mark`, with the readings of the clocks. -/
def mark (wallUtc : String) (monotonicNs : ℤ) (name : String) (values : Dict String Value) (c : Capture) : Capture :=
  if c.finished then c
  else
    match markStamp dt wallUtc monotonicNs values with
    | none => c
    | some stamp =>
      if name = "paper_buy_created_at" then c.markPurchase stamp values
      else if name ∈ timestampNames ∧ ¬ c.frozen then c.markTime name stamp
      else if name = "signal_detected_at" ∧ ¬ c.frozen ∧ (values.get? "wall_clock").isSome ∧
          stamp.wallUtc = c.identity.signalDetectedAt then
        { c with timestamps := c.timestamps.set name (some stamp) }
      else c

/-- The items of a section, up to the first that raises. -/
def setFields (name : String) (fields : List String) : List (Key × Value) → Capture → Capture
  | [], c => c
  | (.str key, value) :: items, c =>
    if key ∈ fields ∧ (¬ forbidden key ∨ name = "decision" ∧ key = "outcome") ∧
        ¬ (name = "decision" ∧ key = "outcome" ∧ ¬ c.receipt.tradeId.isNone) then
      match (project (safe maxDepth) (shapeOf name key) 0 value).run c.safeBudget with
      | (none, budget) => { c with safeBudget := budget }
      | (some projected, budget) =>
        setFields name fields items ({ c with safeBudget := budget }.setField name key projected)
    else setFields name fields items c
  | (.other _, _) :: items, c => setFields name fields items c

/-- The section that no source backs. -/
def noWalletPerformance : List (String × Value) :=
  [("entry_time_snapshot", .none), ("missing_reason", .str "NO_VERIFIED_ENTRY_TIME_SNAPSHOT_SOURCE")]

/-- `set_section`. -/
def setSection (name : String) (mapping : Value) (c : Capture) : Capture :=
  match fieldsOf name, mapping with
  | some fields, .dict items =>
    if c.finished then c
    else if c.frozen ∧ name ≠ "decision" then c
    else if name = "wallet_performance" then
      { c with sections := c.sections.set name (Dict.ofList noWalletPerformance) }
    else c.setFields name fields (items.take maxItems)
  | _, _ => c

/-- The total after an amount, where it counts; none where it raises. -/
def total (old amount : Value) : Option Value :=
  match amount with
  | .int n => if isFiniteInt n then (if 0 ≤ n then (old.orElse (.int 0)).add amount else some old) else none
  | .float (.finite x) => if 0 ≤ x.val then (old.orElse (.int 0)).add amount else some old
  | _ => some old

/-- `add_counter`. -/
def addCounter (name : String) (amount : Value) (c : Capture) : Capture :=
  if ¬ c.frozen ∧ ¬ c.finished ∧ name ∈ counterNames then
    match total ((c.counters.get? name).getD .none) amount with
    | some sum => { c with counters := c.counters.set name sum }
    | none => c
  else c

/-- `duration`. -/
def duration (name : String) (amount : Value) (c : Capture) : Capture :=
  if ¬ c.frozen ∧ ¬ c.finished ∧ name ∈ durationNames then
    match total ((c.durations.get? name).getD .none) amount with
    | some sum => { c with durations := c.durations.set name sum }
    | none => c
  else c

/-- `selected if selected in OUTCOMES else "OTHER"`; it raises for what is not hashable. -/
def knownOutcome (selected : Value) : Option String :=
  match selected with
  | .str s => some (if s ∈ outcomeNames then s else "OTHER")
  | value => if value.hashable then some "OTHER" else none

/-- `finish`: the capture that is queued. -/
def finish (outcome tradeId eventSeq : Value) (c : Capture) : Capture :=
  if c.finished then c
  else
    let c := { c with finished := true, frozen := true }
    let selected := if ¬ tradeId.isNone ∨ ¬ c.receipt.tradeId.isNone then .str "BUY"
      else (outcome.orElse (c.field "decision" "outcome")).orElse (.str "OTHER")
    match knownOutcome selected with
    | none => c
    | some known =>
      let c := c.setField "decision" "outcome" (.str known)
      let copied (value old : Value) : Option Value := if value.isNone then some old else safeAlone value
      match copied tradeId c.receipt.tradeId, copied eventSeq c.receipt.eventSeq with
      | some tradeId, some eventSeq => { c with receipt := { c.receipt with tradeId := tradeId, eventSeq := eventSeq } }
      | _, _ => c

end Capture

/-- A call that writes into the capture. -/
inductive Hook
  | mark (wallUtc : String) (monotonicNs : ℤ) (name : String) (values : Dict String Value)
  | setSection (name : String) (mapping : Value)
  | addCounter (name : String) (amount : Value)
  | duration (name : String) (seconds : Value)
  | finish (outcome tradeId eventSeq : Value)

/-- The capture after a call. -/
def Capture.after (dt : Datetimes) (c : Capture) : Hook → Capture
  | .mark wallUtc monotonicNs name values => c.mark dt wallUtc monotonicNs name values
  | .setSection name mapping => c.setSection name mapping
  | .addCounter name amount => c.addCounter name amount
  | .duration name seconds => c.duration name seconds
  | .finish outcome tradeId eventSeq => c.finish outcome tradeId eventSeq

end Aibot.Telemetry
