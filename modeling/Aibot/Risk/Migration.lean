/-
The migration of the stored paper ledger, of any schema and with whatever the file has in any of its
fields: `_normalize_position`, `migrate_ledger_document` and `ensure_ledger_migrated`. The typed ledger
of `Risk.Ledger` is the document it leaves.
-/
import Aibot.Lib.Double
import Aibot.Lib.Sweep
import Aibot.Store.Codec

namespace Aibot.Risk.Stored

open Aibot.Store

/-- A row or the ledger itself, as it is stored. -/
abbrev Fields := Dict String Json

/-! ## Conversions -/

/-- What Python makes of texts, and of values that are no text. `Json.other` is here a float that is
no finite number. -/
structure Casts where
  /-- `int(text)`, none where it raises. -/
  int : String → Option Int
  /-- `float(text)`, none where it raises. -/
  float : String → Option Json
  /-- `str(x)` of a value that is no text. -/
  str : Json → String

/-- The float nearest to a number, infinite where it is out of range. -/
def nearestFloat (q : ℚ) : Json := ((Double.round q).map fun x => .float x.val).getD .other

/-- `float(n)` of a number; none where it is too large. -/
def floatOf (q : ℚ) : Option Json := (Double.round q).map fun x => .float x.val

/-- `m / n` of two integers. -/
def trueDiv (m n : Int) : Option Json := floatOf (m / n)

namespace Casts

variable (py : Casts)

/-- `int(x)`, of a float toward zero. -/
def toInt : Json → Option Int
  | .bool b => some b.toInt
  | .int n => some n
  | .float q => some (if 0 ≤ q then q.floor else q.ceil)
  | .str s => py.int s
  | .null | .arr _ | .obj _ | .other => none

/-- `float(x)`. -/
def toFloat : Json → Option Json
  | .bool b => some (.float b.toInt)
  | .int n => floatOf n
  | .float q => some (.float q)
  | .str s => py.float s
  | .other => some .other
  | .null | .arr _ | .obj _ => none

/-- `str(x)`. -/
def text : Json → String
  | .str s => s
  | x => py.str x

/-- `int(x or y)`. -/
def intOr (x y : Json) : Option Int := py.toInt (x.orElse y)

end Casts

/-- `d.get(key, default)`. -/
def getOr (d : Fields) (key : String) (default : Json) : Json := (d.get? key).getD default

/-- A `str(uuid4())`, which is no empty text. -/
abbrev UuidText := { text : String // text ≠ "" }

/-- The places at which a migration draws a `uuid4`. -/
inductive Draw
  /-- The round that the BUY at this place of the list opens. -/
  | round (index : Nat)
  /-- The position of a row without an open round. -/
  | loose (index : Nat)
  | event (index : Nat)
  /-- The position of this mint. -/
  | position (mint : String)
  deriving DecidableEq

/-- The fresh ids and the clock readings of one migration: of each position, and of the document. -/
structure Fresh where
  uuid : Draw → UuidText
  openedAt : String → String
  now : String

section Migration

variable (py : Casts)

/-! ## Positions -/

/-- `_legacy_break_even_required_value`, of the amount that is given or the position's own. -/
def legacyBreakEvenRequiredValue (position : Fields) (tokenAmountRaw : Option Int) : Option Int := do
  let amount ← py.toInt ((tokenAmountRaw.map .int).getD (getOr position "token_amount_raw" (.int 0)))
  let entryAmount ← py.intOr (getOr position "entry_token_amount_raw" (.int amount)) (.int amount)
  let entryCost ← py.intOr
    (getOr position "entry_cost_lamports" (getOr position "remaining_cost_lamports" (.int 0))) (.int 0)
  if amount ≤ 0 ∨ entryAmount ≤ 0 ∨ entryCost ≤ 0 then some 0
  else some ((entryCost * amount + entryAmount - 1).fdiv entryAmount)

/-- The default of `break_even_price` in `_normalize_position`. -/
def normalizedBreakEvenPrice (position : Fields) (amount cost : Int) : Option Json := do
  let entryAmount ← py.intOr (getOr position "entry_token_amount_raw" (.int amount)) (.int amount)
  if 0 < entryAmount then
    let entryCost ← py.intOr (getOr position "entry_cost_lamports" (.int cost)) (.int cost)
    trueDiv entryCost entryAmount
  else some (.float 0)

/-- The fields `_normalize_position` writes, each with its value, none where that raises. -/
def normalizedItems (position : Fields) (mint positionId openedAt : String) (roundIndex : Nat)
    (amount cost : Int) : List (String × Option Json) :=
  let int (key : String) (default fallback : Json) : Option Json :=
    (py.intOr (getOr position key default) fallback).map .int
  let float (key : String) (default fallback : Json) : Option Json :=
    py.toFloat ((getOr position key default).orElse fallback)
  let text (key : String) (fallback : String) : Option Json :=
    some (.str (py.text ((position.field key).orElse (.str fallback))))
  let takeProfitDone := position.field "take_profit_done"
  [("position_id", some (.str positionId)),
    ("round_index", int "round_index" (.int roundIndex) (.int roundIndex)),
    ("mint", some (.str mint)),
    ("signal_detected_at", text "signal_detected_at" openedAt),
    ("entry_quote_at", text "entry_quote_at" openedAt),
    ("entry_cost_lamports", int "entry_cost_lamports" (.int cost) (.int cost)),
    ("entry_token_amount_raw", int "entry_token_amount_raw" (.int amount) (.int amount)),
    ("entry_price_impact_pct", float "entry_price_impact_pct" (.int 0) (.int 0)),
    ("expected_slippage_bps", int "expected_slippage_bps" (.int 100) (.int 100)),
    ("whale_reference_price", float "whale_reference_price" (.int 0) (.int 0)),
    ("copy_price_gap_pct", float "copy_price_gap_pct" (.int 0) (.int 0)),
    ("entry_latency_ms", int "entry_latency_ms" (.int 0) (.int 0)),
    ("analysis_completed_at", text "analysis_completed_at" openedAt),
    ("peak_exit_value_lamports",
      int "peak_exit_value_lamports" (getOr position "current_value_lamports" (.int 0)) (.int 0)),
    ("last_quote_success_at", text "last_quote_success_at" openedAt),
    ("consecutive_quote_failures", int "consecutive_quote_failures" (.int 0) (.int 0)),
    ("risk_state", text "risk_state" "NORMAL"),
    ("route_type", text "route_type" "A"),
    ("dex_momentum_score", float "dex_momentum_score" (.int 0) (.int 0)),
    ("take_profit_done", some (.bool takeProfitDone.truthy)),
    ("second_take_profit_done", some (.bool (position.field "second_take_profit_done").truthy)),
    ("stop_loss_ratio", py.toFloat (getOr position "stop_loss_ratio"
      (if takeProfitDone.truthy then nearestFloat 1 else nearestFloat (85 / 100)))),
    ("break_even_floor_active", some (.bool (getOr position "break_even_floor_active" takeProfitDone).truthy)),
    ("break_even_price", (normalizedBreakEvenPrice py position amount cost).bind fun price =>
      py.toFloat ((getOr position "break_even_price" price).orElse (.float 0))),
    ("break_even_required_proceeds_lamports",
      (legacyBreakEvenRequiredValue py position (some amount)).bind fun required =>
        int "break_even_required_proceeds_lamports" (.int required) (.int 0)),
    ("cumulative_proceeds_lamports", int "cumulative_proceeds_lamports" (.int 0) (.int 0)),
    ("post_tp_peak_exit_value_lamports", int "post_tp_peak_exit_value_lamports" (.int 0) (.int 0)),
    ("post_tp_trailing_stop_ratio",
      float "post_tp_trailing_stop_ratio" (nearestFloat (1 / 2)) (nearestFloat (1 / 2))),
    ("strategy_version", text "strategy_version" "baseline_v1"),
    ("observation_id", some (position.field "observation_id")),
    ("version", int "version" (.int 1) (.int 1))]

/-- `_normalize_position`; `clock` is what `utc_now()` reads. -/
def normalizePosition (position : Fields) (mint positionId clock : String) (roundIndex : Nat) :
    Option Fields := do
  let openedAt := py.text
    (((position.field "opened_at").orElse (position.field "signal_detected_at")).orElse (.str clock))
  let amount ← py.intOr (getOr position "token_amount_raw" (.int 0)) (.int 0)
  let cost ← py.intOr (getOr position "remaining_cost_lamports" (.int 0)) (.int 0)
  let items ← (normalizedItems py position mint positionId openedAt roundIndex amount cost).mapM
    fun item => item.2.map (Prod.mk item.1)
  some (position.update items)

/-! ## The second schema -/

/-- The default of `break_even_price` of a position in the second schema. -/
def filledBreakEvenPrice (position : Fields) : Option Json := do
  let entryAmount ← py.intOr
    (getOr position "entry_token_amount_raw" (getOr position "token_amount_raw" (.int 0))) (.int 0)
  let entryCost ← py.intOr
    (getOr position "entry_cost_lamports" (getOr position "remaining_cost_lamports" (.int 0))) (.int 0)
  if 0 < entryAmount then trueDiv entryCost entryAmount else some (.float 0)

/-- The fields that a position of the second schema may lack, in order. -/
def positionDefaults : List (String × (Fields → Option Json)) :=
  [("route_type", fun _ => some (.str "A")),
    ("dex_momentum_score", fun _ => some (.float 0)),
    ("strategy_version", fun _ => some (.str "baseline_v1")),
    ("observation_id", fun _ => some .null),
    ("break_even_price", filledBreakEvenPrice py),
    ("break_even_required_proceeds_lamports",
      fun position => (legacyBreakEvenRequiredValue py position none).map .int),
    ("cumulative_proceeds_lamports", fun _ => some (.int 0)),
    ("post_tp_peak_exit_value_lamports", fun _ => some (.int 0)),
    ("post_tp_trailing_stop_ratio", fun _ => some (.float (1 / 2)))]

/-- The fields that an event of the second schema may lack. -/
def eventDefaults (event : Fields) : List (String × (Fields → Option Json)) :=
  let type := event.field "type"
  (if type.isStr "BUY" then
    [("route_type", fun _ => some (.str "A")), ("dex_momentum_score", fun _ => some (.float 0))] else []) ++
  (if type.isStr "BUY" || type.isStr "SELL" then
    [("strategy_version", fun _ => some (.str "baseline_v1")), ("observation_id", fun _ => some .null)] else [])

/-- The value may be looked up in a set. -/
def hashable : Json → Bool
  | .arr _ | .obj _ => false
  | _ => true

/-- A rewriting of objects, on a value that may be no object. -/
def onObject (f : Fields → Option (Bool × Fields)) (x : Json) : Option (Bool × Json) :=
  match x.fields? with
  | none => some (false, x)
  | some d => (f d).map fun y => (y.1, .ofFields y.2)

/-- The second schema's loop body for a position. -/
def fillPosition (position : Fields) : Option (Bool × Fields) := Dict.fill (positionDefaults py) position

/-- The second schema's loop body for an event: `event.get("type") in {"BUY", "SELL"}` raises for a
type that has no hash. -/
def fillEvent (event : Fields) : Option (Bool × Fields) :=
  if hashable (event.field "type") then Dict.fill (eventDefaults event) event else none

/-- `for position in document.get("positions", {}).values()`. -/
def fillPositions (document : Fields) : Option (Bool × Fields) :=
  match document.get? "positions" with
  | none => some (false, document)
  | some x => do
    let positions ← x.fields?
    let y ← positions.sweep fun _ position => onObject (fillPosition py) position
    some (y.1, document.set "positions" (.ofFields y.2))

/-- `for event in document.get("events", [])`. The keys of an object and the characters of a text are
no objects. -/
def fillEvents (document : Fields) : Option (Bool × Fields) :=
  match document.get? "events" with
  | none | some (.obj _) | some (.str _) => some (false, document)
  | some (.arr items) =>
    (sweep (onObject fillEvent) items).map fun y => (y.1, document.set "events" (.arr y.2))
  | some _ => none

/-- `migrate_ledger_document` of a document in the second schema. -/
def fillLedger (now : String) (document : Fields) : Option (Bool × Fields) := do
  let x ← fillPositions py document
  let y ← fillEvents x.2
  if x.1 || y.1 then some (true, y.2.set "updated_at" (.str now)) else some (false, y.2)

/-! ## The first schema -/

/-- What the pass over the events carries: the open round and the number of rounds of each mint, and
the next number. -/
structure Pass where
  openRounds : Dict String UuidText
  roundCounts : Dict String Nat
  sequence : Int

def Pass.start : Pass := ⟨Dict.empty, Dict.empty, 1⟩

/-- `str(event.get("mint", ""))`. -/
def eventMint (event : Fields) : String := py.text (getOr event "mint" (.str ""))

/-- `str(event.get("type", ""))`. -/
def eventType (event : Fields) : String := py.text (getOr event "type" (.str ""))

/-- `pnl / released_cost * 100 if released_cost > 0 else 0.0`. -/
def realizedRoiPercent (pnl releasedCost : Int) : Option Json :=
  if 0 < releasedCost then (Double.round (pnl / releasedCost)).map fun x => nearestFloat (x.val * 100)
  else some (.float 0)

/-- `document.setdefault(key, value)` for several keys. -/
def withDefaults (items : List (String × Json)) (d : Fields) : Fields := (Dict.setDefaults items d).2

/-- What a SELL of the first schema lacks. -/
def sellDefaults (event : Fields) : Option (List (String × Json)) := do
  let proceeds ← py.intOr (getOr event "proceeds_lamports" (.int 0)) (.int 0)
  let pnl ← py.intOr (getOr event "realized_pnl_lamports" (.int 0)) (.int 0)
  let roi ← realizedRoiPercent pnl (proceeds - pnl)
  some [("trigger_roi_percent", .null), ("realized_roi_percent", roi), ("quote_age_ms", .null)]

/-- The pass once it has seen the mint and the type of the event at a place of the list. -/
def Pass.enter (fresh : Fresh) (index : Nat) (mint type : String) (pass : Pass) : Pass :=
  if type = "BUY" then
    { pass with
      roundCounts := pass.roundCounts.set mint ((pass.roundCounts.get? mint).getD 0 + 1)
      openRounds := pass.openRounds.set mint (fresh.uuid (.round index)) }
  else pass

/-- `str(event.get("position_id") or open_rounds.get(mint) or uuid4())`. -/
def Pass.positionId (fresh : Fresh) (index : Nat) (mint : String) (event : Fields) (pass : Pass) : String :=
  if (event.field "position_id").truthy then py.text (event.field "position_id")
  else ((pass.openRounds.get? mint).getD (fresh.uuid (.loose index))).1

/-- The identities that the event at a place of the list is given. -/
def identityDefaults (fresh : Fresh) (index : Nat) (event : Fields) (pass : Pass) : List (String × Json) :=
  [("position_id", .str (pass.positionId py fresh index (eventMint py event) event)),
    ("event_id", .str (fresh.uuid (.event index)).1),
    ("event_seq", .int pass.sequence)]

/-- The strategy that a BUY and a SELL are given. -/
def strategyDefaults (event : Fields) : List (String × Json) :=
  if eventType py event = "BUY" ∨ eventType py event = "SELL" then
    [("strategy_version", .str "baseline_v1"), ("observation_id", .null)]
  else []

/-- One turn of the pass, at an event. -/
def legacyEvent (fresh : Fresh) (index : Nat) (event : Fields) (pass : Pass) : Option (Fields × Pass) := do
  let type := eventType py event
  let pass := pass.enter fresh index (eventMint py event) type
  let event := withDefaults (strategyDefaults py event) event
  let event := withDefaults (identityDefaults py fresh index event pass) event
  let eventSeq ← py.toInt (event.field "event_seq")
  let pass := { pass with sequence := max (pass.sequence + 1) (eventSeq + 1) }
  if type = "SELL" then
    let items ← sellDefaults py event
    some (withDefaults items event, pass)
  else some (event, pass)

/-- The pass over the events. -/
def legacyEvents (fresh : Fresh) : Nat → List Json → Pass → Option (List Json × Pass)
  | _, [], pass => some ([], pass)
  | index, x :: items, pass =>
    match x.fields? with
    | none => (legacyEvents fresh (index + 1) items pass).map fun y => (x :: y.1, y.2)
    | some event => do
      let y ← legacyEvent py fresh index event pass
      let z ← legacyEvents fresh (index + 1) items y.2
      some (.ofFields y.1 :: z.1, z.2)

/-- `for event in document["events"]`. -/
def legacyEventsOf (fresh : Fresh) : Json → Option (Json × Pass)
  | .arr items => (legacyEvents py fresh 0 items .start).map fun x => (.arr x.1, x.2)
  | .obj fields => some (.obj fields, .start)
  | .str s => some (.str s, .start)
  | _ => none

/-- The loop body for a position of the first schema. -/
def legacyPosition (fresh : Fresh) (pass : Pass) (mint : String) (position : Fields) : Option (Bool × Fields) :=
  let positionId :=
    if (position.field "position_id").truthy then py.text (position.field "position_id")
    else ((pass.openRounds.get? mint).getD (fresh.uuid (.position mint))).1
  (normalizePosition py position mint positionId (fresh.openedAt mint)
    (max 1 ((pass.roundCounts.get? mint).getD 0))).map (Prod.mk true)

/-- The fields the first schema may lack. -/
def legacyDefaults : List (String × Json) :=
  [("cash_lamports", .int 10000000000), ("positions", .obj []), ("events", .arr [])]

/-- `migrate_ledger_document` of a document in the first schema. -/
def migrateLegacy (fresh : Fresh) (document : Fields) : Option Fields := do
  let document := withDefaults legacyDefaults document
  let x ← legacyEventsOf py fresh (document.field "events")
  let positions ← (document.field "positions").fields?
  let y ← positions.sweep fun mint position => onObject (legacyPosition py fresh x.2 mint) position
  some (document.update
    [("events", x.1), ("positions", .ofFields y.2), ("next_event_seq", .int x.2.sequence),
      ("schema_version", .int 2), ("updated_at", .str fresh.now)])

/-! ## The migration -/

/-- `int(document.get("schema_version", 1) or 1)`. -/
def schemaVersion (document : Fields) : Option Int :=
  py.intOr (getOr document "schema_version" (.int 1)) (.int 1)

/-- `migrate_ledger_document`: whether it changed the document, and the document after it. -/
def migrateLedgerDocument (fresh : Fresh) (document : Fields) : Option (Bool × Fields) := do
  let version ← schemaVersion py document
  if 2 ≤ version then fillLedger py fresh.now document
  else (migrateLegacy py fresh document).map (Prod.mk true)

/-- `ensure_ledger_migrated`, on the document it reads. -/
def ensureLedgerMigrated (fresh : Fresh) (document : Fields) : Except (StoreError Unit) (Bool × Fields) :=
  migrateJson (fun d => orRaise () (migrateLedgerDocument py fresh d)) document

end Migration

end Aibot.Risk.Stored
