/-
The shadow ledger `shadow_trades.json`: completed executable observations as trades, recorded one by
one by the sampler and filled in from the rows at a start.
-/
import Aibot.Observation.Ops

namespace Aibot.Observation

open Aibot.Risk

@[irreducible] def maxCompletedShadowTrades : Nat := 10000

/-- `SHADOW_HORIZONS`, in order. -/
def shadowHorizons : List Interval := [.m1, .m3, .m5, .m15, .m30, .m60]

/-- The intervals that `completed_shadow_trade` requires; it names them on its own, and does not ask
`required_observation_intervals`. -/
def TrackingProfile.shadowIntervals : TrackingProfile → List Interval
  | .legacy15m => [.m1, .m5, .m15]
  | .researchV1_60m => shadowHorizons

/-! ## Strategy results -/

inductive StrategyStatus
  | closed
  | noRoute
  deriving DecidableEq, Repr

structure StrategyResult where
  status : StrategyStatus
  exitInterval : Option Interval
  exitReason : Option String
  returnPercent : Option ℚ
  deriving DecidableEq, Repr

/-- The return of the last sample of an interval. -/
def returnAt (samples : List Sample) (i : Interval) : Option ℚ :=
  ((samples.filter fun sample => sample.interval = i).getLast?).bind Sample.returnPercent

/-- `fixed_hold_*`: held to one horizon. -/
def fixedHold (samples : List Sample) (i : Interval) : StrategyResult :=
  ⟨if (returnAt samples i).isSome then .closed else .noRoute, some i, none, returnAt samples i⟩

/-- `sampled_route_exit`: the first horizon beyond a threshold, else the last with a return. -/
def sampledRouteExit (stopPercent takeProfitPercent : ℚ) (samples : List Sample) :
    List Interval → Option (Interval × ℚ) → StrategyResult
  | [], none => ⟨.noRoute, none, some "NO_VALID_SAMPLE", none⟩
  | [], some (i, value) => ⟨.closed, some i, some "SAMPLED_TIME_EXIT", some value⟩
  | i :: rest, lastValid =>
    match returnAt samples i with
    | none => sampledRouteExit stopPercent takeProfitPercent samples rest lastValid
    | some value =>
      if value ≤ stopPercent then ⟨.closed, some i, some "SAMPLED_STOP_LOSS", some value⟩
      else if takeProfitPercent ≤ value then ⟨.closed, some i, some "SAMPLED_TAKE_PROFIT", some value⟩
      else sampledRouteExit stopPercent takeProfitPercent samples rest (some (i, value))

/-- `_strategy_results`: one result a fixed hold, and the sampled exit of the route. -/
def strategyResults (row : Row) : List StrategyResult × StrategyResult :=
  (shadowHorizons.map (fixedHold row.samples),
    match row.routeType with
    | .A => sampledRouteExit (-15) 50 row.samples shadowHorizons none
    | .B => sampledRouteExit (-10) 30 row.samples shadowHorizons none)

/-! ## Trades -/

/-- A shadow trade; `trade_status` is always CLOSED. -/
structure ShadowTrade where
  shadowTradeId : ObservationId
  observationId : ObservationId
  mint : Mint
  routeType : RouteType
  safetyScore : Option Int
  entryCostLamports : Int
  tokenAmountRaw : Int
  strategyVariants : List String
  decisionStatus : DecisionStatus
  decisionReasons : List String
  quoteStatus : String
  analysisCompletedAt : Option String
  entryQuoteAt : Option String
  startedAtEpoch : Int
  candidateV2Eligible : Bool
  candidateV2FilterReasons : List String
  paperExperimentStatus : PaperStatus
  paperExperimentPositionId : Option Uuid
  researchDecision : ResearchDecision
  mfePercent : Option ℚ
  maePercent : Option ℚ
  trackingProfile : TrackingProfile
  samples : List Sample
  strategyResults : List StrategyResult × StrategyResult
  closedAt : Int

/-- A row of which a trade is made: complete, executable and with every required sample. -/
def Row.tradable (row : Row) : Prop :=
  row.status = .complete ∧ row.quoteStatus = "EXECUTABLE" ∧
    (∀ i ∈ row.trackingProfile.shadowIntervals, i ∈ row.completedIntervals) ∧
    strip row.observationId ≠ ""

instance (row : Row) : Decidable row.tradable := inferInstanceAs (Decidable (_ ∧ _ ∧ _ ∧ _))

/-- `completed_shadow_trade`. -/
def completedShadowTrade (row : Row) (now : Int) : Option ShadowTrade :=
  if row.tradable then
    some
      { shadowTradeId := strip row.observationId
        observationId := row.observationId
        mint := row.mint
        routeType := row.routeType
        safetyScore := row.safetyScore
        entryCostLamports := row.entryCostLamports
        tokenAmountRaw := row.tokenAmountRaw
        strategyVariants := row.strategyVariants
        decisionStatus := row.decisionStatus
        decisionReasons := row.decisionReasons
        quoteStatus := row.quoteStatus
        analysisCompletedAt := row.analysisCompletedAt
        entryQuoteAt := row.entryQuoteAt
        startedAtEpoch := row.startedAtEpoch
        candidateV2Eligible := row.candidateV2Eligible
        candidateV2FilterReasons := row.candidateV2FilterReasons
        paperExperimentStatus := row.paperExperimentStatus
        paperExperimentPositionId := row.paperExperimentPositionId
        researchDecision := row.researchDecision
        mfePercent := row.mfePercent
        maePercent := row.maePercent
        trackingProfile := row.trackingProfile
        samples := row.samples
        strategyResults := Observation.strategyResults row
        closedAt := now }
  else none

/-! ## The ledger -/

/-- The ledger; `aged` is history: the trades that its size cap dropped. -/
structure ShadowLedger where
  trades : List ShadowTrade
  aged : List ShadowTrade

/-- Every trade there ever was. -/
def ShadowLedger.all (s : ShadowLedger) : List ShadowTrade := s.aged ++ s.trades

/-- The ledger holds a trade of the observation, or held one until its size cap dropped it. -/
def ShadowLedger.Delivered (s : ShadowLedger) (id : ObservationId) : Prop :=
  ∃ trade ∈ s.all, trade.observationId = id

instance (s : ShadowLedger) (id : ObservationId) : Decidable (s.Delivered id) :=
  inferInstanceAs (Decidable (∃ trade ∈ s.all, _))

/-- `trades[-MAX_COMPLETED_SHADOW_TRADES:]` after more trades. -/
def ShadowLedger.extend (s : ShadowLedger) (added : List ShadowTrade) : ShadowLedger :=
  let trades := s.trades ++ added
  let old := trades.length - maxCompletedShadowTrades
  ⟨trades.drop old, s.aged ++ trades.take old⟩

/-- The ids in the ledger. -/
def ShadowLedger.ids (s : ShadowLedger) : List ObservationId := s.trades.map ShadowTrade.shadowTradeId

/-- The mutator of `record_completed_shadow_trade`. -/
def recordCompletedShadowTrade (trade : ShadowTrade) (s : ShadowLedger) : Bool × ShadowLedger :=
  if trade.shadowTradeId ∈ s.ids then (false, s) else (true, s.extend [trade])

/-- The trades a backfill finds missing; the ids it has read can be out of date. -/
def backfillCandidates (rows : List Row) (existingIds : List ObservationId) (now : Int) : List ShadowTrade :=
  (rows.filter fun row => strip row.observationId ∉ existingIds).filterMap (completedShadowTrade · now)

/-- The mutator of `backfill_completed_shadow_trades`. -/
def backfillCompletedShadowTrades (candidates : List ShadowTrade) (s : ShadowLedger) : Nat × ShadowLedger :=
  let added := candidates.filter fun trade => trade.shadowTradeId ∉ s.ids
  if added.isEmpty then (0, s) else (added.length, s.extend added)

/-! ## What is recorded -/

/-- The two modules require the same intervals. -/
theorem shadowIntervals_eq (profile : TrackingProfile) :
    profile.shadowIntervals = profile.requiredIntervals := by
  cases profile <;> rfl

theorem completedShadowTrade_isSome {row : Row} (now : Int) (h : row.tradable) :
    (completedShadowTrade row now).isSome = true := by
  unfold completedShadowTrade
  rw [if_pos h]
  rfl

theorem completedShadowTrade_some {row : Row} {now : Int} {trade : ShadowTrade}
    (h : completedShadowTrade row now = some trade) :
    row.tradable ∧ trade.observationId = row.observationId ∧
      trade.shadowTradeId = strip row.observationId := by
  unfold completedShadowTrade at h
  split_ifs at h with ht
  obtain rfl := Option.some.inj h
  exact ⟨ht, rfl, rfl⟩

/-- No trade is lost by the cap. -/
theorem extend_all (s : ShadowLedger) (added : List ShadowTrade) : (s.extend added).all = s.all ++ added := by
  unfold ShadowLedger.extend ShadowLedger.all
  dsimp only
  rw [List.append_assoc, List.take_append_drop, List.append_assoc]

theorem delivered_extend {s : ShadowLedger} {added : List ShadowTrade} {id : ObservationId}
    (h : s.Delivered id) : (s.extend added).Delivered id := by
  obtain ⟨trade, htrade, hid⟩ := h
  exact ⟨trade, by rw [extend_all]; exact List.mem_append_left _ htrade, hid⟩

end Aibot.Observation
