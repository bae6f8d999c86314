/-
The ledger operations of `risk_manager.py`: each mutator as the source writes it, and one
operation as a caller sees it, through `update_json`.
-/
import Aibot.Risk.Ledger

namespace Aibot.Risk

open Aibot.Store

/-! ## Buying -/

/-- The arguments of `record_paper_buy` that the ledger keeps. -/
structure BuyRequest where
  mint : Mint
  costLamports : Int
  tokenAmountRaw : Int
  sourceSignature : Option String
  entryQuoteAt : Option IsoTime
  entryPriceImpactPct : ℚ
  routeType : String
  dexMomentumScore : ℚ
  strategyVersion : String
  observationId : Option ObservationId
  maxStrategyOpenPositions : Option Int

/-- `normalized_route_metadata`, its route. -/
def normalizedRouteMetadata (routeType : String) (dexMomentumScore : ℚ) :
    Except LedgerError RouteType :=
  let route : Option RouteType :=
    if routeType = "A" ∨ routeType = "a" then some .A
    else if routeType = "B" ∨ routeType = "b" then some .B
    else none
  match route with
  | none => .error (.value "route_type must be A or B")
  | some route =>
    if 0 ≤ dexMomentumScore ∧ dexMomentumScore ≤ 100 then .ok route
    else .error (.value "dex_momentum_score must be between 0 and 100")

/-- `str(strategy_version or "baseline_v1")`. -/
def orBaseline (strategyVersion : String) : String :=
  if strategyVersion = "" then "baseline_v1" else strategyVersion

/-- The open positions of a strategy version. -/
def openCount (ledger : Ledger) (strategyVersion : String) : Nat :=
  (ledger.positions.values.filter fun position =>
    orBaseline position.strategyVersion = orBaseline strategyVersion).length

/-- A BUY of this mint is already recorded under this (non-empty) signature. -/
def buyRecorded (ledger : Ledger) (mint : Mint) (sourceSignature : Option String) : Bool :=
  sourceSignature.any fun signature => signature ≠ "" ∧
    (buys ledger.events).any fun record =>
      record.sourceSignature = some signature ∧ record.mint = mint

/-- One more than the largest round of the mint's BUY events. -/
def nextRoundIndex (ledger : Ledger) (mint : Mint) : Nat :=
  (((buys ledger.events).filter fun record => record.mint = mint).map
    BuyRecord.roundIndex).foldr max 0 + 1

/-- The position `record_paper_buy` stores. -/
def BuyRequest.position (r : BuyRequest) (route : RouteType) (positionId : Uuid) (roundIndex : Nat)
    (openedAt : IsoTime) : Position :=
  { mint := r.mint
    positionId := positionId
    roundIndex := roundIndex
    sourceSignature := r.sourceSignature
    tokenAmountRaw := r.tokenAmountRaw
    remainingCostLamports := r.costLamports
    entryCostLamports := r.costLamports
    entryTokenAmountRaw := r.tokenAmountRaw
    cumulativeProceedsLamports := 0
    currentValueLamports := none
    peakExitValueLamports := r.costLamports
    postTpPeakExitValueLamports := 0
    lastQuoteSuccessAt := r.entryQuoteAt.getD openedAt
    consecutiveQuoteFailures := 0
    riskState := .normal
    pendingExitId := none
    pendingExitReason := none
    takeProfitDone := false
    secondTakeProfitDone := false
    stopLossRatio := if route = .B then routeBStopLossRatio else stopLossRatio
    breakEvenFloorActive := false
    breakEvenPrice := r.costLamports / r.tokenAmountRaw
    breakEvenRequiredProceedsLamports := r.costLamports
    routeType := route
    strategyVersion := orBaseline r.strategyVersion
    observationId := r.observationId
    version := 1 }

/-- The BUY event `record_paper_buy` appends. -/
def BuyRequest.record (r : BuyRequest) (route : RouteType) (positionId : Uuid) (roundIndex : Nat) :
    BuyRecord :=
  { mint := r.mint
    positionId := positionId
    roundIndex := roundIndex
    costLamports := r.costLamports
    tokenAmountRaw := r.tokenAmountRaw
    sourceSignature := r.sourceSignature
    routeType := route
    strategyVersion := orBaseline r.strategyVersion
    observationId := r.observationId }

/-- The ledger after an accepted buy. -/
def BuyRequest.enter (r : BuyRequest) (route : RouteType) (positionId : Uuid) (now : Int)
    (ledger : Ledger) : Ledger :=
  let roundIndex := nextRoundIndex ledger r.mint
  let openedAt := IsoTime.instant now
  (({ ledger with cashLamports := ledger.cashLamports - r.costLamports } : Ledger).setPosition r.mint
      (r.position route positionId roundIndex openedAt)).appendEvent openedAt
    (.buy (r.record route positionId roundIndex))

/-- `record_paper_buy`: the `mutate` closure. -/
def recordPaperBuyMutate (r : BuyRequest) (route : RouteType) (positionId : Uuid) (now : Int)
    (ledger : Ledger) : Except LedgerError (Uuid × Ledger) :=
  if r.maxStrategyOpenPositions.any (· ≤ 0) then
    .error (.value "max strategy open positions must be positive")
  else if r.maxStrategyOpenPositions.any (· ≤ (openCount ledger r.strategyVersion : Int)) then
    .error (.runtime "paper experiment position capacity reached")
  else if (ledger.position? r.mint).isSome then
    .error (.runtime ("paper position already exists for " ++ r.mint))
  else if buyRecorded ledger r.mint r.sourceSignature then
    .error (.runtime ("paper buy already recorded for " ++ r.sourceSignature.getD ""))
  else if ledger.cashLamports < r.costLamports then
    .error (.runtime "paper account has insufficient virtual SOL")
  else .ok (positionId, r.enter route positionId now ledger)

/-- The checks `record_paper_buy` makes before it opens the ledger. -/
def BuyRequest.check (r : BuyRequest) : Except LedgerError RouteType :=
  if r.costLamports ≤ 0 ∨ r.tokenAmountRaw ≤ 0 then
    .error (.value "paper buy amounts must be positive")
  else if r.entryPriceImpactPct < 0 ∨ maxEntryPriceImpactPct < r.entryPriceImpactPct then
    .error (.entryPriceImpact r.entryPriceImpactPct)
  else normalizedRouteMetadata r.routeType r.dexMomentumScore

/-! ## Rejections and skips -/

/-- `record_paper_rejection`. -/
def recordPaperRejection (mint : Mint) (score : Int) (reasons : List String) (signature : String)
    (now : Int) (ledger : Ledger) : Ledger :=
  if ledger.events.any fun e => match e.body with
      | .signalRejected m s _ _ => s = signature ∧ m = mint
      | _ => false then ledger
  else (ledger.appendEvent (.instant now)
    (.signalRejected mint signature score ("; ".intercalate reasons))).trimEvents

/-- `record_rpc_skip`. -/
def recordRpcSkip (mint : Mint) (signature reason : String) (now : Int) (ledger : Ledger) : Ledger :=
  if ledger.events.any fun e => match e.body with
      | .skippedByRpcError m s _ => s = signature ∧ m = mint
      | _ => false then ledger
  else (ledger.appendEvent (.instant now)
    (.skippedByRpcError mint signature (reason.take 500).toString)).trimEvents

/-! ## The exit claim -/

/-- The position once an exit is claimed. -/
def Position.claimed (position : Position) (exitId : Uuid) (reason : ExitReason) : Position :=
  { position with
    riskState := .exitPending
    pendingExitId := some exitId
    pendingExitReason := some reason
    version := position.version + 1 }

/-- `claim_position_exit`. -/
def claimPositionExit (mint : Mint) (positionId : Uuid) (reason : ExitReason) (exitId : Uuid)
    (ledger : Ledger) : Option (Uuid × Int) × Ledger :=
  match ledger.positionWithId? mint positionId with
  | none => (none, ledger)
  | some position =>
    if position.riskState = .exitPending then (none, ledger)
    else (some (exitId, position.tokenAmountRaw),
      ledger.setPosition mint (position.claimed exitId reason))

/-- The position once its claim is given back. -/
def Position.released (position : Position) (degraded : Bool) : Position :=
  { position with
    riskState := if degraded then .degraded else .normal
    pendingExitId := none
    pendingExitReason := none
    version := position.version + 1 }

/-- `release_exit_claim`. -/
def releaseExitClaim (mint : Mint) (positionId exitId : Uuid) (degraded : Bool) (ledger : Ledger) :
    Ledger :=
  match ledger.positionWithId? mint positionId with
  | none => ledger
  | some position =>
    if position.pendingExitId = some exitId then
      ledger.setPosition mint (position.released degraded)
    else ledger

/-! ## Selling -/

/-- The arguments of `record_paper_sell` that the ledger keeps. An absent and an empty
`position_id` or `exit_id` are not checked. -/
structure SellRequest where
  mint : Mint
  tokenAmountRaw : Int
  proceedsLamports : Int
  reason : ExitReason
  positionId : Option Uuid
  exitId : Option Uuid

/-- What `record_paper_sell` reports: whether it sold, and the experiment a closing sale ends. -/
structure SellResult where
  recorded : Bool
  closedExperiment : Option (ObservationId × Uuid)

/-- The cost basis a sale of `sold` tokens releases. -/
def Position.costReleased (position : Position) (sold : Int) : Int :=
  (position.remainingCostLamports * sold).fdiv position.tokenAmountRaw

/-- The position after `sold` of its tokens went for `proceeds`, before the take-profit flags. -/
def Position.sold (position : Position) (sold proceeds : Int) : Position :=
  { position with
    tokenAmountRaw := position.tokenAmountRaw - sold
    remainingCostLamports := position.remainingCostLamports - position.costReleased sold
    cumulativeProceedsLamports := position.cumulativeProceedsLamports + proceeds
    pendingExitId := none
    pendingExitReason := none
    riskState := .normal
    version := position.version + 1 }

/-- The take-profit flags `record_paper_sell` sets on the position it has just sold from. -/
def Position.markTakeProfit (position : Position) (reason : ExitReason) : Position :=
  if reason.isFirstTakeProfit then
    let requiredProceeds := max 0 (position.entryCostLamports - position.cumulativeProceedsLamports)
    { position with
      takeProfitDone := true
      breakEvenFloorActive := false
      breakEvenRequiredProceedsLamports := requiredProceeds
      breakEvenPrice :=
        if 0 < position.tokenAmountRaw then requiredProceeds / position.tokenAmountRaw else 0
      postTpPeakExitValueLamports := 0 }
  else if reason.isSecondTakeProfit then { position with secondTakeProfitDone := true }
  else position

/-- The SELL event of a sale from `position`, the position as it was before the sale. -/
def SellRequest.record (r : SellRequest) (position : Position) (sold : Int) : SellRecord :=
  let costReleased := position.costReleased sold
  let realizedPnl := r.proceedsLamports - costReleased
  { reason := r.reason
    mint := r.mint
    positionId := position.positionId
    roundIndex := position.roundIndex
    tokenAmountRaw := sold
    proceedsLamports := r.proceedsLamports
    realizedPnlLamports := realizedPnl
    realizedRoiPercent := if 0 < costReleased then realizedPnl / costReleased * 100 else 0
    strategyVersion := orBaseline position.strategyVersion
    observationId := position.observationId }

/-- The ledger after a sale of `sold` tokens from `position`. -/
def SellRequest.settle (r : SellRequest) (position : Position) (sold : Int) (now : Int)
    (ledger : Ledger) : Ledger :=
  let position' := (position.sold sold r.proceedsLamports).markTakeProfit r.reason
  let ledger' := (({ ledger with
      cashLamports := ledger.cashLamports + r.proceedsLamports } : Ledger).setPosition r.mint
    position').appendEvent (.instant now) (.sell (r.record position sold))
  if position'.tokenAmountRaw ≤ 0 then ledger'.deletePosition r.mint else ledger'

/-- The sale is of this position and under its pending claim, as far as the request says. -/
def SellRequest.matches (r : SellRequest) (position : Position) : Bool :=
  r.positionId.all (· = position.positionId) ∧ r.exitId.all (position.pendingExitId = some ·)

/-- `record_paper_sell`. -/
def recordPaperSell (r : SellRequest) (now : Int) (ledger : Ledger) : SellResult × Ledger :=
  match (ledger.position? r.mint).filter r.matches with
  | none => (⟨false, none⟩, ledger)
  | some position =>
    let sold := min r.tokenAmountRaw position.tokenAmountRaw
    if sold ≤ 0 then (⟨false, none⟩, ledger)
    else
      (⟨true, if position.tokenAmountRaw - sold ≤ 0 then
          (position.observationId.filter (· ≠ "")).map (·, position.positionId) else none⟩,
        r.settle position sold now ledger)

/-! ## Marks, lifecycle, floor, quote failures -/

/-- The position after a successful quote of its tokens. -/
def Position.marked (position : Position) (currentValueLamports now : Int) : Position :=
  { position with
    currentValueLamports := some currentValueLamports
    peakExitValueLamports := max position.peakExitValueLamports currentValueLamports
    postTpPeakExitValueLamports :=
      if position.takeProfitDone then
        max position.postTpPeakExitValueLamports currentValueLamports
      else position.postTpPeakExitValueLamports
    lastQuoteSuccessAt := .instant now
    consecutiveQuoteFailures := 0
    riskState := if position.riskState ≠ .exitPending then .normal else position.riskState
    version := position.version + 1 }

/-- `record_position_mark`. -/
def recordPositionMark (mint : Mint) (positionId : Uuid) (currentValueLamports now : Int)
    (ledger : Ledger) : Ledger :=
  match ledger.positionWithId? mint positionId with
  | none => ledger
  | some position =>
    if currentValueLamports < 0 then ledger
    else ledger.setPosition mint (position.marked currentValueLamports now)

/-- `record_live_transaction_lifecycle`, for a non-empty lifecycle. -/
def recordLiveTransactionLifecycle (mint : Mint) (positionId : Uuid) (lifecycle : List LifecycleItem)
    (ledger : Ledger) : Ledger :=
  match ledger.positionWithId? mint positionId with
  | none => ledger
  | some position =>
    (lifecycle.foldl (fun ledger item =>
        ledger.appendEvent item.at_ (.transactionLifecycle mint positionId item)) ledger).setPosition
      mint { position with version := position.version + 1 }

/-- `ensure_break_even_floor`. -/
def ensureBreakEvenFloor (mint : Mint) (positionId : Uuid) (ledger : Ledger) : Bool × Ledger :=
  match ledger.positionWithId? mint positionId with
  | none => (false, ledger)
  | some position =>
    if ¬ position.takeProfitDone then (false, ledger)
    else if position.breakEvenFloorActive ∧ breakEvenStopRatio ≤ position.stopLossRatio then
      (false, ledger)
    else (true, ledger.setPosition mint
      { position with
        stopLossRatio := breakEvenStopRatio
        breakEvenFloorActive := true
        version := position.version + 1 })

/-- `"no executable route" in str(error).lower()`. -/
def mentionsNoRoute (error : String) : Bool :=
  decide ("no executable route".toList <:+: error.toList.map Char.toLower)

/-- The time since the last successful quote; the degraded gap where that time is unreadable. -/
def Position.quoteGap (position : Position) (now : Int) : Int :=
  match parseTime position.lastQuoteSuccessAt with
  | some lastSuccess => now - lastSuccess
  | none => degradedQuoteGap

/-- One more failed quote is the third in a row, or comes after a gap of ten seconds. -/
def Position.degradesAt (position : Position) (now : Int) : Bool :=
  quoteFailureWarningCount ≤ position.consecutiveQuoteFailures + 1 ∨
    degradedQuoteGap ≤ position.quoteGap now

/-- The position after a failed quote. -/
def Position.quoteFailed (position : Position) (error : String) (now : Int) : Position :=
  { position with
    consecutiveQuoteFailures := position.consecutiveQuoteFailures + 1
    riskState :=
      if position.degradesAt now then (if mentionsNoRoute error then .noRoute else .degraded)
      else position.riskState
    version := position.version + 1 }

/-- `record_quote_failure`. -/
def recordQuoteFailure (mint : Mint) (positionId : Uuid) (error : String) (now : Int)
    (ledger : Ledger) : Option (Nat × RiskState) × Ledger :=
  match ledger.positionWithId? mint positionId with
  | none => (none, ledger)
  | some position =>
    let position' := position.quoteFailed error now
    (some (position'.consecutiveQuoteFailures, position'.riskState), ledger.setPosition mint position')

/-! ## One operation through `update_json` -/

/-- A call of one of the ledger operations, with the fresh ids and the clock reading it draws. -/
inductive Op
  | buy (request : BuyRequest) (positionId : Uuid) (now : Int)
  | rejection (mint : Mint) (score : Int) (reasons : List String) (signature : String) (now : Int)
  | rpcSkip (mint : Mint) (signature reason : String) (now : Int)
  | claim (mint : Mint) (positionId : Uuid) (reason : ExitReason) (exitId : Uuid)
  | release (mint : Mint) (positionId exitId : Uuid) (degraded : Bool)
  | sell (request : SellRequest) (now : Int)
  | mark (mint : Mint) (positionId : Uuid) (currentValueLamports now : Int)
  | lifecycle (mint : Mint) (positionId : Uuid) (items : List LifecycleItem)
  | breakEvenFloor (mint : Mint) (positionId : Uuid)
  | quoteFailure (mint : Mint) (positionId : Uuid) (error : String) (now : Int)

/-- The calls that are no step of an exit: what other processes do to the ledger meanwhile. -/
def Op.offExit : Op → Bool
  | .buy .. | .rejection .. | .rpcSkip .. | .lifecycle .. | .breakEvenFloor .. => true
  | _ => false

/-- What a call returns. -/
inductive Ret
  | done
  | bought (positionId : Uuid)
  | claimed (claim : Option (Uuid × Int))
  | sold (result : SellResult)
  | armed (armed : Bool)
  | failures (result : Option (Nat × RiskState))
  | raised (error : LedgerError)

/-- The mutator a call hands to `update_json`. -/
def Op.mutate : Op → Ledger → Except LedgerError (Ret × Ledger)
  | .buy r positionId now, ledger =>
    match r.check with
    | .error e => .error e
    | .ok route => (recordPaperBuyMutate r route positionId now ledger).map fun x => (.bought x.1, x.2)
  | .rejection mint score reasons signature now, ledger =>
    .ok (.done, recordPaperRejection mint score reasons signature now ledger)
  | .rpcSkip mint signature reason now, ledger =>
    .ok (.done, recordRpcSkip mint signature reason now ledger)
  | .claim mint positionId reason exitId, ledger =>
    let x := claimPositionExit mint positionId reason exitId ledger
    .ok (.claimed x.1, x.2)
  | .release mint positionId exitId degraded, ledger =>
    .ok (.done, releaseExitClaim mint positionId exitId degraded ledger)
  | .sell r now, ledger =>
    let x := recordPaperSell r now ledger
    .ok (.sold x.1, x.2)
  | .mark mint positionId value now, ledger =>
    .ok (.done, recordPositionMark mint positionId value now ledger)
  | .lifecycle mint positionId items, ledger =>
    .ok (.done, recordLiveTransactionLifecycle mint positionId items ledger)
  | .breakEvenFloor mint positionId, ledger =>
    let x := ensureBreakEvenFloor mint positionId ledger
    .ok (.armed x.1, x.2)
  | .quoteFailure mint positionId error now, ledger =>
    let x := recordQuoteFailure mint positionId error now ledger
    .ok (.failures x.1, x.2)

/-- The call writes the ledger at all: an empty lifecycle returns at once. -/
def Op.writes : Op → Bool
  | .lifecycle _ _ items => ¬ items.isEmpty
  | _ => true

/-- A call on the ledger it finds: what it returns, and the ledger it leaves. -/
def Op.run (op : Op) (ledger : Ledger) : Ret × Ledger :=
  if op.writes then
    match updateJson op.mutate none ledger with
    | .ok x => x
    | .error (.mutator e) => (.raised e, ledger)
    | .error _ => (.done, ledger)
  else (.done, ledger)

end Aibot.Risk
