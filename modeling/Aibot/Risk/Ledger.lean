/-
The paper ledger: its positions, its event list, and the constants and field helpers of
`risk_manager.py`. Field names are the JSON keys. Lamport amounts are unbounded integers, clock
readings are microseconds since the epoch, and a `uuid4` string is a token compared for equality
only.
-/
import Aibot.Lib.Dict
import Aibot.Store.Document

namespace Aibot.Risk

open Aibot.Store

/-! ## Constants -/

def initialPaperLamports : Int := 10000000000
def takeProfitRatio : ℚ := 130 / 100
def secondTakeProfitRatio : ℚ := 2
def stopLossRatio : ℚ := 85 / 100
def routeBStopLossRatio : ℚ := 90 / 100
def breakEvenStopRatio : ℚ := 1
def takeProfitSellPercent : Int := 80
def quoteFailureWarningCount : Nat := 3
/-- `DEGRADED_QUOTE_GAP_SECONDS`, in microseconds. -/
def degradedQuoteGap : Int := 10000000
/-- `MAX_ENTRY_PRICE_IMPACT_PCT` of the executor. -/
def maxEntryPriceImpactPct : ℚ := 3 / 2
/-- The rejections and skips keep this many events. -/
def eventLimit : Nat := 2000

/-! ## Field types -/

abbrev Mint := String
abbrev ObservationId := String

/-- A `str(uuid4())`. -/
structure Uuid where
  token : Nat
  deriving DecidableEq, Repr

/-- A timestamp text: one `datetime.fromisoformat` reads, or any other text. -/
inductive IsoTime
  | instant (micros : Int)
  | unreadable (text : String)
  deriving DecidableEq, Repr

/-- `parse_time`. -/
def parseTime : IsoTime → Option Int
  | .instant micros => some micros
  | .unreadable _ => none

inductive RouteType
  | A
  | B
  deriving DecidableEq, Repr

inductive RiskState
  | normal
  | exitPending
  | degraded
  | noRoute
  deriving DecidableEq, Repr

/-- The exit reasons the repository uses, and any other text. -/
inductive ExitReason
  | stopLoss15
  | routeBStopLoss10
  | tpBreakEven
  | postTpTrailingStop50
  | takeProfit30Sell80
  | routeBTakeProfit30
  | takeProfit50
  | takeProfit100
  | liveStopLoss15
  | liveTakeProfit50
  | liveTakeProfit100
  | manualClose
  | other (text : String)
  deriving DecidableEq, Repr

/-- The reasons that end the first take-profit phase in `record_paper_sell`. -/
def ExitReason.isFirstTakeProfit : ExitReason → Bool
  | .takeProfit50 | .liveTakeProfit50 | .routeBTakeProfit30 | .takeProfit30Sell80 => true
  | _ => false

def ExitReason.isSecondTakeProfit : ExitReason → Bool
  | .takeProfit100 | .liveTakeProfit100 => true
  | _ => false

/-- What `record_paper_buy` raises. -/
inductive LedgerError
  | value (message : String)
  | runtime (message : String)
  /-- The entry filter's `RuntimeError`; its text prints the impact with four decimals. -/
  | entryPriceImpact (impact : ℚ)
  deriving DecidableEq, Repr

/-! ## Positions, events, the ledger -/

structure Position where
  mint : Mint
  positionId : Uuid
  roundIndex : Nat
  sourceSignature : Option String
  tokenAmountRaw : Int
  remainingCostLamports : Int
  entryCostLamports : Int
  entryTokenAmountRaw : Int
  cumulativeProceedsLamports : Int
  currentValueLamports : Option Int
  peakExitValueLamports : Int
  postTpPeakExitValueLamports : Int
  lastQuoteSuccessAt : IsoTime
  consecutiveQuoteFailures : Nat
  riskState : RiskState
  pendingExitId : Option Uuid
  pendingExitReason : Option ExitReason
  takeProfitDone : Bool
  secondTakeProfitDone : Bool
  stopLossRatio : ℚ
  breakEvenFloorActive : Bool
  breakEvenPrice : ℚ
  breakEvenRequiredProceedsLamports : Int
  routeType : RouteType
  strategyVersion : String
  observationId : Option ObservationId
  version : Nat

/-- The BUY event. -/
structure BuyRecord where
  mint : Mint
  positionId : Uuid
  roundIndex : Nat
  costLamports : Int
  tokenAmountRaw : Int
  sourceSignature : Option String
  routeType : RouteType
  strategyVersion : String
  observationId : Option ObservationId
  deriving DecidableEq, Repr

/-- The SELL event. -/
structure SellRecord where
  reason : ExitReason
  mint : Mint
  positionId : Uuid
  roundIndex : Nat
  tokenAmountRaw : Int
  proceedsLamports : Int
  realizedPnlLamports : Int
  realizedRoiPercent : ℚ
  strategyVersion : String
  observationId : Option ObservationId
  deriving DecidableEq, Repr

/-- One item of an executor's lifecycle tuple, as `lifecycle_event` builds it. -/
structure LifecycleItem where
  status : String
  at_ : IsoTime
  deriving DecidableEq, Repr

inductive EventBody
  | buy (record : BuyRecord)
  | sell (record : SellRecord)
  | signalRejected (mint : Mint) (signature : String) (safetyScore : Int) (reason : String)
  | skippedByRpcError (mint : Mint) (signature : String) (reason : String)
  | transactionLifecycle (mint : Mint) (positionId : Uuid) (item : LifecycleItem)
  deriving DecidableEq, Repr

structure Event where
  eventSeq : Nat
  at_ : IsoTime
  body : EventBody
  deriving DecidableEq, Repr

structure Ledger where
  version : Int
  nextEventSeq : Nat
  cashLamports : Int
  positions : Dict Mint Position
  events : List Event

/-- `empty_ledger`. -/
def emptyLedger : Ledger :=
  { version := 0, nextEventSeq := 1, cashLamports := initialPaperLamports,
    positions := Dict.empty, events := [] }

instance : VersionedDocument Ledger where
  version ledger := some ledger.version
  setVersion v ledger := { ledger with version := v }
  version_setVersion _ _ := rfl

/-! ## Reading and writing events -/

def EventBody.buy? : EventBody → Option BuyRecord
  | .buy record => some record
  | _ => none

def EventBody.sell? : EventBody → Option SellRecord
  | .sell record => some record
  | _ => none

/-- The SELL records of a list of events, oldest first. -/
def sells (events : List Event) : List SellRecord := events.filterMap fun e => e.body.sell?

/-- The BUY records of a list of events, oldest first. -/
def buys (events : List Event) : List BuyRecord := events.filterMap fun e => e.body.buy?

/-- `ledger["events"].append(_next_event(ledger, …))`. -/
def Ledger.appendEvent (ledger : Ledger) (at_ : IsoTime) (body : EventBody) : Ledger :=
  { ledger with
    nextEventSeq := ledger.nextEventSeq + 1
    events := ledger.events ++ [⟨ledger.nextEventSeq, at_, body⟩] }

/-- `ledger["events"] = ledger["events"][-2_000:]`. -/
def Ledger.trimEvents (ledger : Ledger) : Ledger :=
  { ledger with events := ledger.events.drop (ledger.events.length - eventLimit) }

/-- `ledger["positions"][mint] = position`. -/
def Ledger.setPosition (ledger : Ledger) (mint : Mint) (position : Position) : Ledger :=
  { ledger with positions := ledger.positions.set mint position }

/-- `del ledger["positions"][mint]`. -/
def Ledger.deletePosition (ledger : Ledger) (mint : Mint) : Ledger :=
  { ledger with positions := ledger.positions.erase mint }

/-- `ledger["positions"].get(mint)`. -/
def Ledger.position? (ledger : Ledger) (mint : Mint) : Option Position := ledger.positions.get? mint

/-- The open position of `mint` when it is the one with this `position_id`. -/
def Ledger.positionWithId? (ledger : Ledger) (mint : Mint) (positionId : Uuid) : Option Position :=
  (ledger.position? mint).filter fun position => position.positionId = positionId

theorem positionWithId?_eq_some {ledger : Ledger} {mint : Mint} {positionId : Uuid} {p : Position} :
    ledger.positionWithId? mint positionId = some p ↔
      ledger.position? mint = some p ∧ p.positionId = positionId := by
  unfold Ledger.positionWithId?
  simp [Option.filter_eq_some_iff]

@[simp] theorem position?_setPosition (ledger : Ledger) (mint mint' : Mint) (p : Position) :
    (ledger.setPosition mint p).position? mint' =
      if mint' = mint then some p else ledger.position? mint' :=
  Dict.get?_set ..

@[simp] theorem position?_deletePosition (ledger : Ledger) (mint mint' : Mint) :
    (ledger.deletePosition mint).position? mint' =
      if mint' = mint then none else ledger.position? mint' :=
  Dict.get?_erase ..

@[simp] theorem position?_appendEvent (ledger : Ledger) (at_ : IsoTime) (body : EventBody)
    (mint : Mint) : (ledger.appendEvent at_ body).position? mint = ledger.position? mint := rfl

@[simp] theorem position?_trimEvents (ledger : Ledger) (mint : Mint) :
    ledger.trimEvents.position? mint = ledger.position? mint := by
  simp only [Ledger.position?, Ledger.trimEvents]

end Aibot.Risk
