/-
The records of the N3 sidecar (`n3_shadow.py`): entries, sales and completed trades as files under hashed
names, what the observer reads of them, and the record that a BUY makes with its snapshot.
-/
import Aibot.Lib.Canonical
import Aibot.Lib.Directory
import Aibot.Lib.Double
import Aibot.Lib.Durable
import Aibot.Lib.Object
import Aibot.Store.Codec
import Mathlib.Data.String.Basic

namespace Aibot.N3

open Store (JsonDocument)

/-! ## Numbers and times -/

/-- The threshold of a rule, as a float. -/
def low : ℚ := rounded (4165494775772094 / 10 ^ 15)

def high : ℚ := rounded (4808962464332581 / 10 ^ 15)

def threshold : ℚ := rounded (1497460412979126 / 10 ^ 15)

/-- A number that is not negative, and no truth value. -/
def duration : Json → Option ℚ
  | .int n => if 0 ≤ n then some n else none
  | .float q => if 0 ≤ q then some q else none
  | _ => none

/-- `classify`. -/
def classify (inputs : JsonDocument) : Option Bool := do
  let preflight ← duration (inputs.field "quote_preflight_duration_sec")
  let analysis ← duration (inputs.field "analysis_duration_sec")
  return (preflight ≤ low || high < preflight) && threshold < analysis

/-- A truth value, or null. -/
def triState (x : Option Bool) : Json := (x.map Json.bool).getD .null

def isFalse : Json → Bool
  | .bool b => !b
  | _ => false

/-- `p / q` of integers. -/
def ratio (p q : ℤ) : Except String Double :=
  if q = 0 then .error "division by zero"
  else orRaise "integer division result too large for a float" (Double.round (p / q))

/-! ## Events of the ledger -/

/-- The fields of a BUY event that the observer reads. -/
structure Buy where
  positionId : String
  eventId : String
  mint : String
  routeType : Json
  strategyVersion : Json
  signalDetectedAt : Json
  analysisCompletedAt : Json
  entryQuoteAt : Json
  costLamports : ℤ
  tokenAmountRaw : ℤ

/-- The fields of a SELL event that the observer reads. -/
structure Sell where
  positionId : String
  eventId : String
  tokenAmountRaw : ℤ
  proceedsLamports : ℤ
  realizedPnlLamports : ℤ
  deriving DecidableEq

inductive EventBody
  | buy (buy : Buy)
  | sell (sell : Sell)
  /-- Another event; its position is not read. -/
  | other

structure ControlEvent where
  eventSeq : ℤ
  at_ : String
  body : EventBody

/-- The ledger of the Control. -/
structure ControlLedger where
  events : List ControlEvent
  nextEventSeq : ℤ

/-! ## Records -/

/-- The start marker, as `load_manifest` leaves it. -/
structure Manifest where
  cohortId : String
  /-- `epoch(start_utc)`. -/
  start : Double
  startEventSeq : ℤ
  build : Json

/-- `_entry_record`, less its constants. -/
structure Entry where
  cohortId : String
  positionId : String
  buyEventId : String
  buyEventSeq : ℤ
  mint : String
  family : String
  strategyVersion : Json
  signalTimestamp : Json
  entryCostLamports : ℤ
  entryTokenAmountRaw : ℤ
  entryPrice : Double
  snapshot : JsonDocument

/-- `snapshot.get("would_skip")`. -/
def Entry.wouldSkip (entry : Entry) : Json := entry.snapshot.field "would_skip"

/-- A record of a SELL event. -/
structure SellRecord where
  eventSeq : ℤ
  at_ : String
  sell : Sell
  deriving DecidableEq

/-- A completed entry. -/
structure Trade where
  entry : Entry
  realizedPnlLamports : ℤ
  normalizedReturn : Double
  shadowDeltaActualLamports : Option ℤ
  normalizedDelta : Option Double
  closedAt : String
  sellEventCount : ℕ

structure Closure where
  endEventSeq : ℤ
  endUtc : String
  activeKstDays : ℕ
  deriving DecidableEq

/-- The documents of two entries are equal. -/
def Entry.same (x y : Entry) : Bool :=
  x.cohortId = y.cohortId && x.positionId = y.positionId && x.buyEventId = y.buyEventId &&
    x.buyEventSeq = y.buyEventSeq && x.mint = y.mint && x.family = y.family &&
    x.strategyVersion.equal y.strategyVersion && x.signalTimestamp.equal y.signalTimestamp &&
    x.entryCostLamports = y.entryCostLamports && x.entryTokenAmountRaw = y.entryTokenAmountRaw &&
    x.entryPrice = y.entryPrice && (Json.ofFields x.snapshot).equal (.ofFields y.snapshot)

def Trade.same (x y : Trade) : Bool :=
  x.entry.same y.entry && x.realizedPnlLamports = y.realizedPnlLamports &&
    x.normalizedReturn = y.normalizedReturn && x.shadowDeltaActualLamports = y.shadowDeltaActualLamports &&
    x.normalizedDelta = y.normalizedDelta && x.closedAt = y.closedAt && x.sellEventCount = y.sellEventCount

theorem Entry.same_refl (x : Entry) : x.same x = true := by simp [Entry.same, Json.equal_refl]

theorem Trade.same_refl (x : Trade) : x.same x = true := by simp [Trade.same, Entry.same_refl]

/-- `observer_state.json`, less what no step reads. -/
structure ObserverState where
  cohortId : String
  cursor : ℤ
  closed : Bool
  admittedCount : ℕ
  completedCount : ℕ
  openCount : ℤ
  sellRecordCount : ℕ
  missingSnapshotCount : ℕ
  missingFieldCounts : List (String × ℕ)
  missingSnapshots : Bool

/-- `final_report.json`. -/
structure FinalReport where
  cohortId : String
  closure : Closure
  censoredPositionIds : List String
  report : Json

/-- The files of the sidecar that the observer writes. -/
@[ext] structure Sidecar where
  entries : Directory String Entry
  sells : Directory String SellRecord
  completed : Directory String Trade
  closure : Option Closure
  state : Option ObserverState
  report : Option FinalReport

def Sidecar.empty : Sidecar := ⟨.empty, .empty, .empty, none, none, none⟩

/-- What the observer takes from its platform. -/
structure Machine where
  /-- The file name of an identity: `sha256` in hex. -/
  fileName : String → String
  /-- `epoch` of a text. -/
  epoch : String → Option Double
  /-- The KST day of a text, none where it raises. -/
  kstDay : String → Option String
  /-- `evaluate_closed_cohort` with the contract. -/
  evaluate : List Trade → Except String Json

def Machine.epochOf (m : Machine) : Json → Option Double
  | .str s => m.epoch s
  | _ => none

/-- `kst_day`. -/
def Machine.kstDayOf (m : Machine) : Json → Except String String
  | .str s => orRaise "invalid timestamp" (m.kstDay s)
  | _ => .error "invalid timestamp"

/-! ## Reading -/

section Read

variable (m : Machine)

def entryLimit : ℕ := 408

def sellLimit : ℕ := 1632

/-- The identity of a sale: `str(event_seq)`. -/
def sellIdentity (record : SellRecord) : String := toString record.eventSeq

/-- `read_records`: all files, each under the name of its identity. -/
def readRecords {α : Type} (identity : α → String) (limit : ℕ) (d : Directory String α) : Except String (List α) := do
  let records ← (d.files.take limit).mapM fun p =>
    if m.fileName (identity p.2) = p.1 then .ok p.2 else .error "N3 record filename/identity mismatch"
  if limit < d.files.length then .error "N3 record limit exceeded" else return records

def readEntries (s : Sidecar) : Except String (List Entry) := readRecords m Entry.positionId entryLimit s.entries

def readSells (s : Sidecar) : Except String (List SellRecord) := readRecords m sellIdentity sellLimit s.sells

/-- The sales of a position, in the order of their numbers. -/
def legsOf (sells : List SellRecord) (positionId : String) : List SellRecord :=
  (sells.filter fun record => record.sell.positionId = positionId).mergeSort fun x y => x.eventSeq ≤ y.eventSeq

def soldAmount (legs : List SellRecord) : ℤ := (legs.map (·.sell.tokenAmountRaw)).sum

/-- The trade of an entry whose legs sell all of it; none where they do not yet. -/
def tradeOf (sells : List SellRecord) (entry : Entry) : Except String (Option Trade) :=
  let legs := legsOf sells entry.positionId
  if soldAmount legs > entry.entryTokenAmountRaw then .error "N3 SELL exceeds entry amount"
  else if soldAmount legs ≠ entry.entryTokenAmountRaw then .ok none
  else
    let pnl := (legs.map (·.sell.realizedPnlLamports)).sum
    let proceeds := (legs.map (·.sell.proceedsLamports)).sum
    if proceeds - entry.entryCostLamports ≠ pnl then .error "N3 realized cost invariant failed"
    else do
      let normalized ← ratio pnl entry.entryCostLamports
      let delta ← if entry.wouldSkip.isTrue then (ratio (-pnl) entry.entryCostLamports).map some
        else if isFalse entry.wouldSkip then .ok (Double.round 0) else .ok none
      let last ← orRaise "list index out of range" legs.getLast?
      return some ⟨entry, pnl, normalized,
        if entry.wouldSkip.isTrue then some (-pnl) else if isFalse entry.wouldSkip then some 0 else none,
        delta, last.at_, legs.length⟩

/-- A number is not after the end. -/
def upTo (endSeq : Option ℤ) (seq : ℤ) : Bool := endSeq.all (seq ≤ ·)

/-- `completed_trades`. -/
def completedTrades (s : Sidecar) (endSeq : Option ℤ) : Except String (List Trade) := do
  let entries ← readEntries m s
  let sells ← readSells m s
  let trades ← (entries.filter fun entry => upTo endSeq entry.buyEventSeq).mapM
    (tradeOf (sells.filter fun record => upTo endSeq record.eventSeq))
  return trades.filterMap id

end Read

/-! ## The record of an entry -/

section Admission

variable (m : Machine) (manifest : Manifest)

/-- `eligible`. -/
def eligible (seq : ℤ) (buy : Buy) : Bool :=
  (m.epochOf buy.signalDetectedAt).any fun stamp => manifest.start.val ≤ stamp.val && manifest.startEventSeq ≤ seq

/-- `_entry_record`. -/
def entryRecord (seq : ℤ) (buy : Buy) (snapshot : JsonDocument) : Except String Entry :=
  if buy.costLamports ≤ 0 ∨ buy.tokenAmountRaw ≤ 0 then .error "invalid N3 BUY amounts"
  else do
    let price ← ratio buy.costLamports buy.tokenAmountRaw
    return ⟨manifest.cohortId, buy.positionId, buy.eventId, seq, buy.mint,
      if buy.routeType.isStr "A" then "SMART_MONEY" else if buy.routeType.isStr "B" then "MOMENTUM" else "UNKNOWN",
      buy.strategyVersion, buy.signalDetectedAt, buy.costLamports, buy.tokenAmountRaw, price, snapshot⟩

/-- The snapshot of an entry whose recorder left none. -/
def missingSnapshot : JsonDocument :=
  Dict.ofList
    [("would_skip", .null),
      ("raw_inputs", .obj [("analysis_duration_sec", .null), ("quote_preflight_duration_sec", .null)]),
      ("missing_fields", .arr [.str "decision_snapshot"]),
      ("missing_reason", .str "recorder_snapshot_unavailable")]

def ruleHash : String := "b219661c31c132e1b2f11901664981482a9e42dc847ab300f590072eb3271165"

/-- A difference of times. -/
def elapsed (later earlier : Double) : Json := .float (rounded (later.val - earlier.val))

/-- `"raw_inputs"` and `"would_skip"` of `prepare_entry_snapshot`. -/
def prepared (signal analysis preflight decision : Option Double) : JsonDocument × Option Bool :=
  match signal, analysis, preflight, decision with
  | some signal, some analysis, some preflight, some decision =>
    if signal.val ≤ analysis.val ∧ analysis.val ≤ preflight.val ∧ preflight.val ≤ decision.val then
      let inputs : JsonDocument := Dict.ofList [("analysis_duration_sec", elapsed analysis signal),
        ("quote_preflight_duration_sec", elapsed preflight analysis)]
      (inputs, classify inputs)
    else (Dict.ofList [("analysis_duration_sec", .null), ("quote_preflight_duration_sec", .null)], none)
  | _, _, _, _ => (Dict.ofList [("analysis_duration_sec", .null), ("quote_preflight_duration_sec", .null)], none)

/-- A new snapshot is that of the position and the rule. -/
def checkCaptured (buy : Buy) (snapshot : JsonDocument) : Except String Unit := do
  let inputs : JsonDocument ← match snapshot.get? "raw_inputs" with
    | none => .ok Dict.empty
    | some inputs => orRaise "'get' of no object" inputs.fields?
  if (snapshot.field "cohort_id").isStr manifest.cohortId && (snapshot.field "rule_hash").isStr ruleHash &&
      (snapshot.field "build").equal manifest.build && (snapshot.field "position_id").isStr buy.positionId &&
      (snapshot.field "signal_timestamp").equal buy.signalDetectedAt &&
      (snapshot.field "would_skip").equal (triState (classify inputs)) then return ()
  else .error "N3 snapshot identity/classification mismatch"

/-- A classified snapshot has the times of the event. -/
def checkTimes (at_ : String) (buy : Buy) (snapshot : JsonDocument) : Except String Unit :=
  if (snapshot.field "would_skip").isNull then .ok ()
  else do
    let signal ← orRaise "signal_timestamp" (snapshot.get? "signal_timestamp")
    let analysis ← orRaise "analysis_end_timestamp" (snapshot.get? "analysis_end_timestamp")
    let preflight ← orRaise "preflight_end_timestamp" (snapshot.get? "preflight_end_timestamp")
    let decision ← orRaise "entry_decision_timestamp" (snapshot.get? "entry_decision_timestamp")
    let inputs ← orRaise "raw_inputs" (snapshot.get? "raw_inputs")
    let again := prepared (m.epochOf signal) (m.epochOf analysis) (m.epochOf preflight) (m.epochOf decision)
    if (Json.ofFields again.1).equal inputs && (triState again.2).equal (snapshot.field "would_skip") &&
        analysis.equal buy.analysisCompletedAt && preflight.equal buy.entryQuoteAt then do
      let decided ← orRaise "'>' of no number" (m.epochOf decision)
      let bought ← orRaise "'>' of no number" (m.epoch at_)
      if bought.val < decided.val then .error "N3 decision-time provenance mismatch" else return ()
    else .error "N3 decision-time provenance mismatch"

end Admission

end Aibot.N3
