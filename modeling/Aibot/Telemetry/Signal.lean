/-
What the recorders of an epoch write: the capture that a signal begins and `finish` hands over, the
outcome that a completed position hands over, and the documents that the workers make of them.
-/
import Aibot.Telemetry.Frozen
import Aibot.Telemetry.Stream
import Aibot.Lib.Dumps

namespace Aibot.Telemetry

open Store (JsonDocument)

/-! ## The epoch -/

/-- The text of a uuid or a hash. -/
structure IsIdentifier (s : String) : Prop where
  nonempty : s ≠ ""
  length : s.length ≤ 64
  chars : s.toList.all isFileChar = true

/-- The marker of an epoch, as `create_epoch` writes it. -/
structure Epoch where
  telemetryEpochId : String
  buildSha : String
  configFingerprint : String
  startEventSeq : ℤ
  /-- The instant of `start_utc`. -/
  start : ℤ
  named : IsIdentifier telemetryEpochId
  built : IsIdentifier buildSha
  configured : IsIdentifier configFingerprint

/-- What `require_epoch` and `register_session` check of a recorder process. -/
structure Recorder.Bound (r : Recorder) (e : Epoch) : Prop where
  epoch : r.epochId = .str e.telemetryEpochId
  build : r.get "git_sha" = .str e.buildSha
  config : r.get "config_fingerprint" = .str e.configFingerprint
  session : ∃ s : String, s ≠ "" ∧ r.get "session_id" = .str s

/-- The instant of an aware time; none where it has none, or where it raises. -/
def instantOf (dt : Datetimes) (text : String) : Option ℤ :=
  match dt.fromisoformat (replaceZ text) with
  | some (.aware instant) => some instant
  | _ => none

/-! ## Signals -/

/-- The arguments of `begin_signal`. -/
structure Signal where
  mint : String
  routeType : String
  signalDetectedAt : String
  sourceWallet : Option String
  sourceSignature : Option String
  signalId : Option String

/-- The strategy of a route. -/
def strategyFamily (routeType : String) : String := if routeType = "A" then "whale_route_a" else "dex_momentum_b"

/-- `sha256` of a text, none where there is no text or an empty one. -/
def hashOf (pf : Platform) (text : Option String) : Option String :=
  (text.filter fun s => s ≠ "").map pf.keyHash

/-- A text, or null. -/
def textOrNull (text : Option String) : Json := (text.map Json.str).getD .null

/-- `begin_signal`: the identity of the capture; none where it makes none. -/
def beginSignal (pf : Platform) (dt : Datetimes) (e : Epoch) (signal : Signal) : Option Identity :=
  if signal.mint = "" ∨ signal.mint.length > maxString ∨ ¬ (signal.routeType = "A" ∨ signal.routeType = "B") then none
  else if [signal.sourceWallet, signal.sourceSignature, signal.signalId].any fun text =>
      text.any fun s => s.length > maxString then none
  else if signal.signalDetectedAt.length > 80 then none
  else do
    let instant ← instantOf dt signal.signalDetectedAt
    let stamp ← dt.utcText instant
    if instant < e.start then none
    else do
      let family := strategyFamily signal.routeType
      let wallet := hashOf pf signal.sourceWallet
      let signature := hashOf pf signal.sourceSignature
      let signalId ← pf.digest (Dict.ofList
        [("upstream_signal_id", textOrNull signal.signalId), ("mint", .str signal.mint),
          ("route_type", .str signal.routeType), ("strategy_family", .str family), ("signal_detected_at", .str stamp),
          ("source_wallet_hash", textOrNull wallet), ("source_signature_hash", textOrNull signature)])
      some ⟨signalId, signal.mint, signal.routeType, family, stamp, wallet, signature⟩

/-- What a hook says of a purchase. -/
structure Purchase where
  positionId : String
  eventSeq : ℤ
  identified : IsIdentifier positionId

/-- The value is absent, or that of the purchase. -/
def Purchase.Says (purchase : Option Purchase) (of : Purchase → Value) (value : Value) : Prop :=
  value = .none ∨ ∃ p, purchase = some p ∧ value = of p

/-- The hooks of one analysis name the position that it bought, and the number of its BUY event. -/
def Hook.Tells (purchase : Option Purchase) : Hook → Prop
  | .mark _ _ name values => name = "paper_buy_created_at" →
    Purchase.Says purchase (fun p => .str p.positionId) ((values.get? "trade_id").getD .none) ∧
      Purchase.Says purchase (fun p => .int p.eventSeq) ((values.get? "event_seq").getD .none)
  | .finish _ tradeId eventSeq => Purchase.Says purchase (fun p => .str p.positionId) tradeId ∧
      Purchase.Says purchase (fun p => .int p.eventSeq) eventSeq
  | .setSection _ _ | .addCounter _ _ | .duration _ _ => True

/-- The outcome that `finish` selects. -/
def Capture.selected (outcome tradeId : Value) (c : Capture) : Value :=
  if ¬ tradeId.isNone ∨ ¬ c.receipt.tradeId.isNone then .str "BUY"
  else (outcome.orElse (c.field "decision" "outcome")).orElse (.str "OTHER")

/-- A value that `finish` copies into the receipt raises nothing. -/
def isCopied (value : Value) : Bool := value.isNone || (safeAlone value).isSome

/-- The capture that `finish` puts into the queues; none where it raises before, or was called before. -/
def Capture.handOver (outcome tradeId eventSeq : Value) (c : Capture) : Option Capture :=
  if ¬ c.finished ∧ (knownOutcome (c.selected outcome tradeId)).isSome ∧ isCopied tradeId ∧ isCopied eventSeq then
    some (c.finish outcome tradeId eventSeq)
  else none

/-- A capture that the analysis of a signal of the epoch handed over. -/
def Finished (pf : Platform) (dt : Datetimes) (e : Epoch) (c : Capture) : Prop :=
  ∃ purchase signal identity hooks outcome tradeId eventSeq, beginSignal pf dt e signal = some identity ∧
    (∀ hook ∈ hooks, hook.Tells purchase) ∧ (Hook.finish outcome tradeId eventSeq).Tells purchase ∧
    ((Capture.start identity).run dt hooks).handOver outcome tradeId eventSeq = some c

/-! ## Completed positions -/

/-- The fields of a position that its outcome has. -/
structure Position where
  positionId : String
  mint : String
  routeType : String
  signalDetectedAt : String
  entryCostLamports : ℤ
  cumulativeProceedsLamports : ℤ

def sellFields : List String :=
  ["event_seq", "event_id", "at", "reason", "token_amount_raw", "proceeds_lamports", "realized_pnl_lamports"]

/-- What the scan of the events has found. -/
structure LegScan where
  buy : Option Value
  /-- The newest first. -/
  legs : List Value
  count : ℕ

/-- The scan of the events of a position, from the newest one back to its BUY. -/
def scanLegs (tradeId : String) : List Value → LegScan → LegScan
  | [], scan => scan
  | event :: events, scan =>
    if ¬ (event.get "position_id").isStr tradeId then scanLegs tradeId events scan
    else if (event.get "type").isStr "BUY" then { scan with buy := some event }
    else if (event.get "type").isStr "SELL" then
      scanLegs tradeId events ⟨scan.buy,
        if scan.legs.length < 64 then scan.legs ++ [.ofItems (sellFields.map fun key => (key, event.get key))]
        else scan.legs,
        scan.count + 1⟩
    else scanLegs tradeId events scan

/-- `value.get(key)` of a value that may be missing. -/
def getOrNone (value : Option Value) (key : String) : Value := (value.map (·.get key)).getD .none

/-- `_completed_telemetry`. -/
def completedTelemetry (events : List Value) (position : Position) : Value :=
  let scan := scanLegs position.positionId (events.reverse.take 2048) ⟨none, [], 0⟩
  let route := if position.routeType = "" then "A" else position.routeType
  .ofItems [("trade_id", .str position.positionId), ("mint", .str position.mint), ("route_type", .str route),
    ("strategy_family", .str (strategyFamily route)), ("signal_detected_at", .str position.signalDetectedAt),
    ("buy_event_seq", getOrNone scan.buy "event_seq"), ("buy_event_id", getOrNone scan.buy "event_id"),
    ("event_seq", getOrNone scan.legs.head? "event_seq"), ("completed_at", getOrNone scan.legs.head? "at"),
    ("exit_reason", getOrNone scan.legs.head? "reason"), ("entry_cost_lamports", .int position.entryCostLamports),
    ("cumulative_proceeds_lamports", .int position.cumulativeProceedsLamports),
    ("realized_pnl_lamports", .int (position.cumulativeProceedsLamports - position.entryCostLamports)),
    ("sell_legs", .list scan.legs.reverse), ("sell_legs_truncated", .bool (scan.count > 64 || scan.buy.isNone)),
    ("sell_legs_complete", .bool (scan.count ≤ 64 && scan.buy.isSome))]

/-- A position that was closed, with the events of its ledger then. -/
structure Trade where
  events : List Value
  position : Position
  identified : IsIdentifier position.positionId
  minted : position.mint ≠ ""
  routed : position.routeType = "A" ∨ position.routeType = "B"
  /-- `_next_event` numbers and names every event. -/
  numbered : ∀ event ∈ events, (event.get "position_id").isStr position.positionId = true →
    (∃ n, event.get "event_seq" = .int n) ∧ ∃ id, IsIdentifier id ∧ event.get "event_id" = .str id

def outcomeIdentityFields : List String :=
  ["trade_id", "mint", "route_type", "strategy_family", "signal_detected_at", "buy_event_seq", "buy_event_id",
    "event_seq"]

def outcomeValueFields : List String :=
  ["completed_at", "exit_reason", "entry_cost_lamports", "cumulative_proceeds_lamports", "realized_pnl_lamports",
    "sell_legs_truncated", "sell_legs_complete"]

/-- `_safe` of a scalar, none of a container. -/
def safeScalar (value : Value) : Option Value :=
  match value with
  | .dict _ | .list _ | .tuple _ => some .none
  | value => safeAlone value

/-- A sell leg of an outcome. -/
def safeLeg (leg : Value) : Option Value :=
  (sellFields.mapM fun key => (safeScalar (leg.get key)).map fun value => (key, value)).map Value.ofItems

def isDict : Value → Bool
  | .dict _ => true
  | _ => false

/-- The number of a BUY event is one of the epoch. -/
def inEpoch (e : Epoch) : Value → Bool
  | .int n => e.startEventSeq ≤ n
  | .bool b => e.startEventSeq ≤ b.toInt
  | _ => false

/-- The sell legs of a mapping. -/
def sellLegs (mapping : Value) : List Value :=
  match mapping.get "sell_legs" with
  | .list legs => legs
  | _ => []

/-- `submit_outcome`: the row that is queued; none where none is. -/
def submitOutcome (dt : Datetimes) (e : Epoch) (mapping : Value) : Option (Dict String Value) := do
  let items ← (outcomeIdentityFields ++ outcomeValueFields).mapM fun key =>
    (safeScalar (mapping.get key)).map fun value => (key, value)
  let value := Value.ofItems items
  match value.get "trade_id", value.get "mint", value.get "signal_detected_at" with
  | .str tradeId, .str _, .str text =>
    if tradeId = "" then none
    else do
      let stamp ← instantOf dt text
      if stamp < e.start ∨ ¬ inEpoch e (value.get "buy_event_seq") then none
      else do
        let copied ← (((sellLegs mapping).take maxItems).filter isDict).mapM safeLeg
        return ((Dict.ofList items).set "sell_legs" (.list copied)).set "sell_legs_truncated"
          (.bool ((value.get "sell_legs_truncated").truthy || maxItems < (sellLegs mapping).length))
  | _, _, _ => none

/-- `_outcome_row`; none where it raises. -/
def outcomeRow (r : Recorder) (row : Dict String Value) : Option Value := do
  let envelope ← r.envelope .outcome
  let item (key : String) : String × Value := (key, (row.get? key).getD .none)
  return .ofItems (envelope ++ [("identity", .ofItems (outcomeIdentityFields.map item ++ [("signal_id", .none)])),
    ("outcome", .ofItems ((outcomeValueFields ++ ["sell_legs"]).map item))])

/-! ## The workers -/

/-- The number of the BUY event in the identity. -/
def RowKind.seqField : RowKind → String
  | predictor | receipt => "event_seq"
  | outcome => "buy_event_seq"

/-- `_write_stream`: the document of `_persist_stream`; none where the row is left out. -/
def writeStream (dt : Datetimes) (e : Epoch) (kind : RowKind) (row : Option Value) : Option JsonDocument := do
  let document ← row.bind fun row => row.json.fields?
  let identity ← identityOf document
  match identity.field "signal_detected_at", identity.field kind.seqField with
  | .str text, seq => do
    let stamp ← instantOf dt text
    if stamp < e.start then none
    else
      match seq with
      | .null => some document
      | .int n => if n < e.startEventSeq then none else some document
      | _ => none
  | _, _ => none

/-- What the recorders of an epoch are handed in a run: captures of distinct signals, of which no two bought
one position, and positions that were each closed once. A capture is told the number of the BUY event of its
position, as `record_paper_buy` tells it. -/
structure World (pf : Platform) (dt : Datetimes) where
  epoch : Epoch
  captures : Set Capture
  trades : Set Trade
  finished : ∀ c ∈ captures, Finished pf dt epoch c
  distinct : ∀ c ∈ captures, ∀ c' ∈ captures, c.identity.signalId = c'.identity.signalId → c = c'
  bought : ∀ c ∈ captures, ∀ c' ∈ captures, c.receipt.tradeId = c'.receipt.tradeId →
    c.receipt.tradeId.isNone = false → c = c'
  closed : ∀ t ∈ trades, ∀ t' ∈ trades, t.position.positionId = t'.position.positionId → t = t'
  told : ∀ c ∈ captures, ∀ t ∈ trades, c.receipt.tradeId = .str t.position.positionId → ∀ event ∈ t.events,
    (event.get "position_id").isStr t.position.positionId = true → (event.get "type").isStr "BUY" = true →
    c.receipt.eventSeq = .none ∨ event.get "event_seq" = c.receipt.eventSeq

/-- A document that a recorder of the epoch persists. -/
inductive Handed {pf : Platform} {dt : Datetimes} (w : World pf dt) : RowKind → JsonDocument → Prop
  | predictor {r : Recorder} {c : Capture} {document : JsonDocument} : r.Bound w.epoch → c ∈ w.captures →
    writeStream dt w.epoch .predictor (c.row dt r) = some document → Handed w .predictor document
  | receipt {r : Recorder} {c : Capture} {document : JsonDocument} : r.Bound w.epoch → c ∈ w.captures →
    c.receipt.tradeId.truthy = true →
    writeStream dt w.epoch .receipt (c.receiptRow r) = some document → Handed w .receipt document
  | outcome {r : Recorder} {t : Trade} {document : JsonDocument} : r.Bound w.epoch → t ∈ w.trades →
    writeStream dt w.epoch .outcome ((submitOutcome dt w.epoch (completedTelemetry t.events t.position)).bind
      (outcomeRow r)) = some document → Handed w .outcome document

/-- The position has the mint, the route and the signal time of the capture, in a text that `begin_signal` takes. -/
structure Carries (dt : Datetimes) (c : Capture) (t : Trade) : Prop where
  mint : t.position.mint = c.identity.mint
  route : t.position.routeType = c.identity.routeType
  length : t.position.signalDetectedAt.length ≤ maxString
  signal : (instantOf dt t.position.signalDetectedAt).bind dt.utcText = some c.identity.signalDetectedAt

end Aibot.Telemetry
