/-
`observation_analysis.py`: the outcomes of the newest rows, first rows of their tokens, divided by time,
and the shadow strategies compared on them. Every row of the input is counted in one place, and every
strategy is judged on one cohort with one division, where the analysis does not raise.
-/
import Aibot.Observation.ShadowStored
import Aibot.Research.Discovery

namespace Aibot.Research.Comparison

open Observation.Stored.Shadow (strip)
open Wallet (lastN)
open Discovery (holdoutCount)

/-! ## Settings -/

/-- A host that also reads times of any zone: some time or none, where the text is no ISO time, and nothing
where `timestamp()` raises, as for a local time of the first day of the calendar. -/
structure Reader extends Host where
  isoEpoch : String → Option (Option Double)
  text_str : ∀ s, text (.str s) = s

def researchHorizons : List String := ["1m", "3m", "5m", "15m", "30m", "60m"]

def shadowStrategyNames : List String :=
  ["fixed_hold_1m", "fixed_hold_3m", "fixed_hold_5m", "fixed_hold_15m", "fixed_hold_30m", "fixed_hold_60m",
    "sampled_route_exit"]

/-- What `build_observation_analysis` accepts besides the rows. -/
structure Settings where
  outcomeInterval : String
  interval_mem : outcomeInterval ∈ researchHorizons
  holdoutFraction : Double
  fraction_pos : 0 < holdoutFraction.val
  fraction_lt_one : holdoutFraction.val < 1
  minimumOutcomeCoverage : Double
  coverage_pos : 0 < minimumOutcomeCoverage.val
  coverage_le_one : minimumOutcomeCoverage.val ≤ 1
  maxRows : Nat
  one_le_maxRows : 1 ≤ maxRows
  maxRows_le : maxRows ≤ 10000
  minimumSamples : Nat
  one_le_minimum : 1 ≤ minimumSamples
  minimum_le : minimumSamples ≤ maxRows

/-! ## Rows -/

section Rows

variable (py : Reader)

/-- `_started_at_epoch`; none where it raises. -/
def startedAtEpoch (row : Value) : Option (Option Double) :=
  match (signedNumber py.toTexts (row.get "started_at_epoch")).filter fun epoch => 0 ≤ epoch.val with
  | some epoch => some (some epoch)
  | none =>
    match row.get "started_at" with
    | .str raw =>
      if strip raw = "" then some none
      else (py.isoEpoch raw).map fun epoch => epoch.filter fun epoch => 0 ≤ epoch.val
    | _ => some none

/-- `_interval_return`. -/
def intervalReturn (row : Value) (interval : String) : Option Double :=
  match row.get "samples" with
  | .list samples =>
    match samples.find? fun sample => isDict sample && decide (py.text (sample.get "interval") = interval) with
    | some sample => if sample.truthy then signedNumber py.toTexts (sample.get "return_percent") else none
    | none => none
  | _ => none

/-- The token of a row, or its id. -/
def groupOf (row : Value) : String :=
  strip (py.text ((row.get "mint").orElse ((row.get "observation_id").orElse (.str ""))))

/-- A row of the cohort, with its time and its place among the rows. -/
structure Entry where
  startedAt : Double
  index : Nat
  row : Value
  outcome : Option Double

/-- By time, then by place. -/
def Entry.sortKey (entry : Entry) : ℚ ×ₗ ℕ := toLex (entry.startedAt.val, entry.index)

/-- The cohort so far, and the rows that were counted. -/
structure Reading where
  cohort : List Entry
  invalidRows : Nat
  missingOutcomes : Nat
  missingTimestamps : Nat

/-- One row with its place; none where it raises. -/
def readRow (interval : String) (reading : Reading) (item : Value × Nat) : Option Reading :=
  if ¬ isDict item.1 then some { reading with invalidRows := reading.invalidRows + 1 }
  else
    (startedAtEpoch py item.1).map fun started =>
      match started with
      | none => { reading with missingTimestamps := reading.missingTimestamps + 1 }
      | some startedAt =>
        let outcome := intervalReturn py item.1 interval
        { reading with
          missingOutcomes := reading.missingOutcomes + if outcome.isNone then 1 else 0
          cohort := reading.cohort ++ [⟨startedAt, item.2, item.1, outcome⟩] }

/-- The first entries of their tokens so far, and the ones that were counted. -/
structure Distinct where
  eligible : List Entry
  seenMints : List String
  invalidRows : Nat
  duplicateMintRows : Nat

def Distinct.take (d : Distinct) (entry : Entry) : Distinct :=
  let group := groupOf py entry.row
  if group = "" then { d with invalidRows := d.invalidRows + 1 }
  else if group ∈ d.seenMints then { d with duplicateMintRows := d.duplicateMintRows + 1 }
  else { d with eligible := d.eligible ++ [entry], seenMints := group :: d.seenMints }

/-! ## Conditions -/

/-- `_normalized_choice`. -/
def normalizedChoice (value : Value) (allowed : List String) : String :=
  let normalized := py.upper (strip (py.text (value.orElse (.str ""))))
  if normalized ∈ allowed then normalized else "UNKNOWN"

/-- The loop of `_bucket`, with the text of the last cut before. -/
def bucketFrom (value : Double) : Option String → List (ℚ × String) → Option String
  | lower, [] => lower.map fun lower => lower ++ "_or_more"
  | lower, (upper, text) :: cuts =>
    if value.val < rounded upper then some (lower.elim ("below_" ++ text) fun lower => lower ++ "_to_below_" ++ text)
    else bucketFrom value (some text) cuts

/-- The numbers that conditions are on: where they are, and their cuts, with the texts of these. -/
def numericSpecs : List (String × List String × List (ℚ × String)) :=
  [("safety_score", ["safety_score"], [(55, "55"), (70, "70"), (90, "90")]),
    ("developer_supply_percent", ["safety_metrics", "developer_supply_percent"], [(5, "5"), (10, "10")]),
    ("lp_locked_percent", ["safety_metrics", "lp_locked_percent"], [(40, "40"), (80, "80")]),
    ("liquidity_usd", ["safety_metrics", "liquidity_usd"], [(7500, "7500"), (10000, "10000")]),
    ("dex_momentum_score", ["dex_momentum_score"], [(90, "90"), (100, "100")]),
    ("volume_m5_usd", ["momentum_metrics", "volume_m5_usd"], [(10000, "10000"), (15000, "15000")]),
    ("net_buys_m5", ["momentum_metrics", "net_buys_m5"], [(10, "10"), (15, "15")]),
    ("buy_sell_ratio_m5", ["momentum_metrics", "buy_sell_ratio_m5"], [(3 / 2, "1.5"), (9 / 5, "1.8")]),
    ("pair_age_seconds", ["momentum_metrics", "pair_age_seconds"], [(900, "900")]),
    ("unknown_whale_count", ["momentum_metrics", "unknown_whale_count"], [(3, "3")]),
    ("source_buy_sol", ["discovery_metadata", "whale_paid_lamports"], [(1, "1"), (3 / 2, "1.5"), (5, "5")]),
    ("entry_price_impact_pct", ["entry_price_impact_pct"], [(1, "1"), (7 / 2, "3.5")]),
    ("exit_price_impact_pct", ["exit_price_impact_pct"], [(1, "1"), (7 / 2, "3.5")])]

/-- The number of a condition; the paid lamports count in SOL. -/
def conditionNumber (row : Value) (dimension : String) (path : List String) : Option Double :=
  let number := signedNumber py.toTexts (nestedValue row path)
  if dimension = "source_buy_sol" then number.bind fun lamports => Double.round (lamports.val / 1000000000) else number

/-- `text[:120]`. -/
def clip (text : String) : String := String.ofList (text.toList.take 120)

/-- The first reasons of a decision. -/
def decisionReasons (row : Value) : List (String × String) :=
  match row.get "decision_reasons" with
  | .list reasons => ((reasons.take 20).filter fun reason => strip (py.text reason) ≠ "").map fun reason =>
      ("decision_reason", clip (py.upper (strip (py.text reason))))
  | _ => []

/-- `_condition_keys`. -/
def conditionKeys (row : Value) : List (String × String) :=
  [("route", normalizedChoice py (row.get "route_type") ["A", "B"]),
    ("entry_decision", normalizedChoice py (row.get "decision_status")
      ["APPROVED", "REJECTED", "UNAVAILABLE", "FAILED"]),
    ("candidate_decision", match row.get "candidate_v2_eligible" with
      | .bool true => "ELIGIBLE"
      | .bool false => "NOT_ELIGIBLE"
      | _ => "UNKNOWN"),
    ("paper_decision", normalizedChoice py (row.get "paper_experiment_status")
      ["ELIGIBLE", "OPENED", "SKIPPED_CAPACITY", "FAILED", "CLOSED", "OBSERVATION_ONLY", "NOT_ELIGIBLE"])] ++
  decisionReasons py row ++
  numericSpecs.filterMap fun spec =>
    (conditionNumber py row spec.1 spec.2.1).bind fun value =>
      (bucketFrom value none spec.2.2).map fun bucket => (spec.1, bucket)

end Rows

/-! ## The analysis -/

section Analysis

variable {F : Type} (fl : Arithmetic F) (py : Reader) (settings : Settings)

/-- One side of a comparison: the metrics of its outcomes, and how many of the rows have one. -/
structure Side (F : Type) where
  performance : Performance F
  cohortCount : Nat
  validOutcomeCount : Nat
  sufficientSamples : Bool
  coverageSufficient : Bool

/-- The metrics of some outcomes; none where `fsum` raises. -/
def sideOf (outcomes : List (Option Double)) : Option (Side F) :=
  let valid := outcomes.filterMap id
  (performanceMetrics fl (valid.map fl.ofDouble)).map fun performance =>
    { performance := performance
      cohortCount := outcomes.length
      validOutcomeCount := valid.length
      sufficientSamples := settings.minimumSamples ≤ valid.length
      coverageSufficient := decide (0 < outcomes.length) &&
        fl.le (fl.ofDouble settings.minimumOutcomeCoverage)
          (fl.div (fl.ofNat valid.length) (fl.ofNat outcomes.length)) }

/-- `_comparison`. -/
structure Compared (F : Type) where
  validationStatus : String
  train : Side F
  holdout : Side F
  meanRoiDeltaPercent : Option F
  meanDirectionConsistent : Option Bool

def comparison (trainReturns holdoutReturns : List (Option Double)) : Option (Compared F) := do
  let train ← sideOf fl settings trainReturns
  let holdout ← sideOf fl settings holdoutReturns
  let zero := fl.ofNat 0
  return {
    validationStatus :=
      if train.coverageSufficient && holdout.coverageSufficient then
        if train.sufficientSamples && holdout.sufficientSamples then "SUFFICIENT_SAMPLES" else "INSUFFICIENT_SAMPLES"
      else "INSUFFICIENT_OUTCOME_COVERAGE"
    train := train
    holdout := holdout
    meanRoiDeltaPercent := train.performance.expectancyPercent.bind fun trainMean =>
      holdout.performance.expectancyPercent.bind fun holdoutMean => roundedFinite fl (fl.sub holdoutMean trainMean)
    meanDirectionConsistent := train.performance.expectancyPercent.bind fun trainMean =>
      holdout.performance.expectancyPercent.map fun holdoutMean =>
        fl.le zero trainMean == fl.le zero holdoutMean }

/-- The outcomes of the rows that meet a condition. -/
def outcomesOf (entries : List Entry) (key : String × String) : List (Option Double) :=
  entries.flatMap fun entry => ((conditionKeys py entry.row).filter (· = key)).map fun _ => entry.outcome

/-- The conditions that a row meets, in order. -/
def allKeys (entries : List Entry) : List (String × String) :=
  (entries.flatMap fun entry => conditionKeys py entry.row).dedup.mergeSort fun key key' =>
    toLex key ≤ toLex key'

structure Excluded where
  outsideLatestWindow : Nat
  invalidRow : Nat
  missingOrNonfiniteOutcome : Nat
  missingOrInvalidTimestamp : Nat
  duplicateMintObservation : Nat
  deriving DecidableEq

/-- The analysis, without the candidates that are chosen from its conditions. -/
structure Analysis (F : Type) where
  inputRowCount : Nat
  boundedRowCount : Nat
  eligible : List Entry
  eligibleOutcomeCount : Nat
  excluded : Excluded
  train : List Entry
  holdout : List Entry
  overall : Compared F
  conditions : List ((String × String) × Compared F)

/-- The rows that are read, and the ones of them that are judged; none where it raises. -/
def cohortOf (rows : List Value) : Option (Reading × Distinct) :=
  ((lastN settings.maxRows rows).zipIdx.foldlM (readRow py settings.outcomeInterval) ⟨[], 0, 0, 0⟩).map fun reading =>
    (reading, (Cut.sort Entry.sortKey reading.cohort).foldl (Distinct.take py) ⟨[], [], 0, 0⟩)

/-- Where the entries are divided. -/
def splitIndex (eligible : List Entry) : Nat :=
  eligible.length - if 2 ≤ eligible.length then holdoutCount eligible.length settings.holdoutFraction else 0

/-- `build_observation_analysis`; none where it raises. -/
def buildObservationAnalysis (rows : List Value) : Option (Analysis F) := do
  let (reading, distinct) ← cohortOf py settings rows
  let train := distinct.eligible.take (splitIndex settings distinct.eligible)
  let holdout := distinct.eligible.drop (splitIndex settings distinct.eligible)
  let overall ← comparison fl settings (train.map Entry.outcome) (holdout.map Entry.outcome)
  let conditions ← (allKeys py distinct.eligible).mapM fun key =>
    (comparison fl settings (outcomesOf py train key) (outcomesOf py holdout key)).map fun compared => (key, compared)
  return {
    inputRowCount := rows.length
    boundedRowCount := (lastN settings.maxRows rows).length
    eligible := distinct.eligible
    eligibleOutcomeCount := (distinct.eligible.filter fun entry => entry.outcome.isSome).length
    excluded := {
      outsideLatestWindow := rows.length - (lastN settings.maxRows rows).length
      invalidRow := reading.invalidRows + distinct.invalidRows
      missingOrNonfiniteOutcome := reading.missingOutcomes
      missingOrInvalidTimestamp := reading.missingTimestamps
      duplicateMintObservation := distinct.duplicateMintRows }
    train := train
    holdout := holdout
    overall := overall
    conditions := conditions }

end Analysis

/-! ## Strategies -/

section Strategies

variable {F : Type} (fl : Arithmetic F) (py : Reader)

/-- What a row has for a strategy. -/
def strategyResult (row : Value) (strategyName : String) : Value :=
  if isDict (row.get "strategy_results") then (row.get "strategy_results").get strategyName else .none

/-- `row[key] = value`, of a copy. -/
def withField (row : Value) (key : String) (value : Value) : Value :=
  match row with
  | .dict items =>
    if items.any fun p => p.1 = .str key then
      .dict (items.map fun p => if p.1 = .str key then (p.1, value) else p)
    else .dict (items ++ [(.str key, value)])
  | row => row

/-- `str((result or {}).get("status", "MISSING_OUTCOME"))`; none where the result has no `get`. -/
def missingStatus (result : Value) : Option String :=
  match result with
  | .dict items => some (((items.find? fun p => p.1 = .str "status").map fun p => py.text p.2).getD "MISSING_OUTCOME")
  | result => if result.truthy then none else some "MISSING_OUTCOME"

/-- The row with the outcome of a strategy as its only sample; none where it raises. -/
def adapt (strategyName : String) (row : Value) : Option Value :=
  if ¬ isDict row then some row
  else
    let returnPercent := (strategyResult row strategyName).get "return_percent"
    let error := if returnPercent.isNone then (missingStatus py (strategyResult row strategyName)).map Value.str
      else some .none
    error.map fun error => withField row "samples" (.list [.ofItems
      [("interval", .str "15m"), ("return_percent", returnPercent), ("error", error)]])

/-- The settings of the comparison: an interval of 15 minutes, a fifth to hold out, four fifths of the
outcomes, 5000 rows. The two fractions are the floats nearest to them. -/
def shadowSettings (minimumSamples : { n : Nat // 1 ≤ n ∧ n ≤ 5000 }) : Settings where
  outcomeInterval := "15m"
  interval_mem := by decide
  holdoutFraction := ⟨7205759403792794 / 2 ^ 55, 7205759403792794, -55, by norm_num, by norm_num, by norm_num,
    by norm_num⟩
  fraction_pos := by norm_num
  fraction_lt_one := by norm_num
  minimumOutcomeCoverage :=
    ⟨7205759403792794 / 2 ^ 53, 7205759403792794, -53, by norm_num, by norm_num, by norm_num, by norm_num⟩
  coverage_pos := by norm_num
  coverage_le_one := by norm_num
  maxRows := 5000
  one_le_maxRows := by norm_num
  maxRows_le := by norm_num
  minimumSamples := minimumSamples
  one_le_minimum := minimumSamples.2.1
  minimum_le := minimumSamples.2.2

/-- `build_shadow_strategy_comparisons`; none where it raises. -/
def buildShadowStrategyComparisons (minimumSamples : { n : Nat // 1 ≤ n ∧ n ≤ 5000 }) (rows : List Value) :
    Option (List (String × Analysis F)) :=
  shadowStrategyNames.mapM fun strategyName => do
    let adapted ← rows.mapM (adapt py strategyName)
    let analysis ← buildObservationAnalysis fl py (shadowSettings minimumSamples) adapted
    return (strategyName, analysis)

end Strategies

end Aibot.Research.Comparison
