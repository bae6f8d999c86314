/-
`future_validation.build_future_validation`: the rows of an archive without its conflicts, the signals
after the boundary of a hypothesis that meet its conditions, and what their outcomes say of it.
-/
import Aibot.Research.Features
import Aibot.Research.Evaluation

namespace Aibot.Research

open Observation (strip)
open Observation.Stored (Conversions texts)
open Store (JsonDocument)

/-! ## Hypotheses -/

/-- What an evaluation reads of a hypothesis. -/
structure Hypothesis where
  hypothesisId : String
  family : String
  requiredFeatures : List String
  conditionDefinition : List Condition
  validationStart : Value
  /-- The fields that the result repeats. -/
  document : JsonDocument

/-- A registry that `validate_registry` accepts, as far as an evaluation depends on it: no two hypotheses
have one id. -/
structure Registry where
  hypotheses : List Hypothesis
  distinct : (hypotheses.map Hypothesis.hypothesisId).Nodup

def horizons : List String := ["5m", "15m", "30m", "60m"]

/-! ## Signals -/

section Signals

variable (py : Host)

/-- `str(row.get(key) or "").strip()`. -/
def strippedText (row : Value) (key : String) : String := strip (py.text ((row.get key).orElse (.str "")))

/-- `_timestamp_value`. -/
def timestampValue (value : Value) : Option Double :=
  match signedNumber py.toTexts value with
  | some number => if 0 ≤ number.val then some number else none
  | none =>
    match value with
    | .str s => if strip s = "" then none else (py.epoch s).filter fun epoch => 0 ≤ epoch.val
    | _ => none

/-- `_signal_timestamp`. -/
def signalTimestamp (row : Value) : Option Double :=
  ["signal_detected_at", "started_at_epoch", "started_at"].findSome? fun key => timestampValue py (row.get key)

/-- `_signal_family`. -/
def signalFamily (row : Value) : Option String :=
  let signalType := py.upper (strippedText py row "signal_type")
  let routeType := py.upper (strippedText py row "route_type")
  if (featuresByFamily signalType).isSome then some signalType
  else if routeType = "A" then some "SMART_MONEY"
  else if routeType = "B" then some "MOMENTUM"
  else none

/-- `_signal_identity_digest`. -/
def signalIdentityDigest (row : Value) : String :=
  py.identityDigest (.ofItems (["observation_id", "mint", "source_signature", "source_wallet", "signal_type",
    "route_type", "signal_detected_at", "started_at_epoch", "started_at"].map fun key => (key, row.get key)))

/-- `_event_identity`. -/
def eventIdentity (row : Value) : String :=
  let observationId := strippedText py row "observation_id"
  if observationId = "" then signalIdentityDigest py row else observationId

/-! ## The outcomes of a row -/

/-- The outcomes so far, and the intervals that were seen, and seen again. -/
structure Outcomes where
  result : Dict String (Option Double)
  seen : List String
  conflicts : List String

/-- One sample. -/
def Outcomes.read (outcomes : Outcomes) (sample : Value) : Outcomes :=
  if ¬ isDict sample then outcomes
  else
    let interval := py.text ((sample.get "interval").orElse (.str ""))
    if (outcomes.result.get? interval).isNone then outcomes
    else if interval ∈ outcomes.seen then
      { outcomes with
        conflicts := interval :: outcomes.conflicts
        result := outcomes.result.set interval none }
    else
      { outcomes with
        seen := interval :: outcomes.seen
        result := outcomes.result.set interval (signedNumber py.toTexts (sample.get "return_percent")) }

/-- `_outcome_map`, the outcomes. -/
def outcomeMap (row : Value) : Dict String (Option Double) :=
  let blank : Dict String (Option Double) := Dict.ofList (horizons.map fun horizon => (horizon, none))
  match row.get "samples" with
  | .list samples =>
    let outcomes := samples.foldl (Outcomes.read py) ⟨blank, [], []⟩
    outcomes.conflicts.foldl (fun result interval => result.set interval none) outcomes.result
  | _ => blank

/-! ## Events -/

/-- A row with what the evaluation adds to it. -/
structure ScoredEvent where
  row : Value
  identity : String
  family : String
  timestamp : Double
  mint : String
  outcomes : Dict String (Option Double)
  trackable : Bool

/-- The rows by identity, in the order of their first row, and the identities that were seen with two
contents. -/
structure Deduplicated where
  byId : Dict String (String × Value)
  conflicts : List String

def Deduplicated.read (d : Deduplicated) (row : Value) : Deduplicated :=
  if ¬ isDict row then d
  else
    let identity := eventIdentity py row
    if identity = "" then d
    else
      match d.byId.get? identity with
      | none => { d with byId := d.byId.set identity (py.digest row, row) }
      | some prior => if prior.1 = py.digest row then d else { d with conflicts := identity :: d.conflicts }

/-- `_deduplicated_events`, the rows. -/
def deduplicatedEvents (rows : List Value) : List Value :=
  let d := rows.foldl (Deduplicated.read py) ⟨Dict.empty, []⟩
  (d.byId.entries.filter fun entry => entry.1 ∉ d.conflicts).map fun entry => entry.2.2

/-- The event of a row, none where the row is malformed. -/
def scoredEvent (row : Value) : Option ScoredEvent :=
  match signalFamily py row, signalTimestamp py row, strippedText py row "mint" with
  | some family, some timestamp, mint =>
    if mint = "" then none
    else some
      { row := row
        identity := eventIdentity py row
        family := family
        timestamp := timestamp
        mint := mint
        outcomes := outcomeMap py row
        trackable := py.upper (py.text ((row.get "quote_status").orElse (.str ""))) = "EXECUTABLE" }
  | _, _, _ => none

/-- The order of events: by time, and then by identity. -/
def ScoredEvent.le (e e' : ScoredEvent) : Bool :=
  e.timestamp.val < e'.timestamp.val ∨ e.timestamp.val = e'.timestamp.val ∧ e.identity ≤ e'.identity

/-- The events of an evaluation, in order. -/
def scoredEvents (rows : List Value) : List ScoredEvent :=
  ((deduplicatedEvents py rows).filterMap (scoredEvent py)).mergeSort ScoredEvent.le

/-- `_first_signal_per_mint`. -/
def firstSignalPerMint (events : List ScoredEvent) : List ScoredEvent :=
  ((events.mergeSort ScoredEvent.le).foldl (fun (selected : Dict String ScoredEvent) event =>
    if (selected.get? event.mint).isSome then selected else selected.set event.mint event) Dict.empty).values

/-- The boundary of each hypothesis, by id. -/
def validationBoundaries (hypotheses : List Hypothesis) : Dict String ℚ :=
  Dict.ofList (hypotheses.map fun hypothesis =>
    (hypothesis.hypothesisId, ((timestampValue py hypothesis.validationStart).map Double.val).getD 0))

end Signals

/-! ## Metrics -/

section Metrics

variable {F : Type} (fl : Arithmetic F) (py : Host)

/-- A float that is none where it is not finite, with four decimals. -/
def roundedFinite (value : F) : Option F := if (fl.toDouble value).isSome then some (fl.round value) else none

def jsonOf (value : Option F) : Json := (value.map fl.json).getD .null

/-- `_stable_mean`, none of no values or where it is not finite; the outer none where `fsum` raises. -/
def stableMean (values : List F) : Option (Option F) :=
  match values with
  | [] => some none
  | value :: rest =>
    let scale := fl.maxOf (fl.abs value) (rest.map fl.abs)
    if fl.eq scale (fl.ofNat 0) then some (some (fl.ofNat 0))
    else (fl.fsum ((value :: rest).map fun x => fl.div x scale)).map fun total =>
      let result := fl.div (fl.mul scale total) (fl.ofNat (rest.length + 1))
      if (fl.toDouble result).isSome then some result else none

/-- `_quantile(ordered, 0.50)`. -/
def medianOf (ordered : List F) : Option F :=
  let half := fl.div (fl.ofNat 1) (fl.ofNat 2)
  match ordered[(ordered.length - 1) / 2]?, ordered[ordered.length / 2]? with
  | some lower, some upper =>
    if ordered.length % 2 = 1 then some lower
    else
      let zero := fl.ofNat 0
      let value := if fl.eq lower zero ∨ fl.eq upper zero ∨ fl.lt zero lower = fl.lt zero upper then
          fl.add lower (fl.mul (fl.sub upper lower) half)
        else fl.add (fl.mul lower (fl.sub (fl.ofNat 1) half)) (fl.mul upper half)
      if (fl.toDouble value).isSome then some value else none
  | _, _ => none

/-- What `_metrics` takes from `performance_metrics`. -/
structure Performance (F : Type) where
  expectancyPercent : Option F
  profitFactor : Option F
  medianRoiPercent : Option F
  winRatePercent : Option F
  averageWinPercent : Option F
  averageLossPercent : Option F

/-- `performance_metrics`; none where it raises. -/
def performanceMetrics (values : List F) : Option (Performance F) := do
  let zero := fl.ofNat 0
  let ordered := values.mergeSort fl.le
  let winningReturns := ordered.filter (fl.lt zero ·)
  let losingReturns := ordered.filter (fl.lt · zero)
  let grossProfit ← fl.fsum winningReturns
  let grossLoss ← (fl.fsum losingReturns).map fl.abs
  let mean ← stableMean fl ordered
  let averageWin ← stableMean fl winningReturns
  let averageLoss ← stableMean fl losingReturns
  return { expectancyPercent := mean.bind (roundedFinite fl)
           profitFactor := if fl.lt zero grossLoss then roundedFinite fl (fl.div grossProfit grossLoss) else none
           medianRoiPercent := (medianOf fl ordered).bind (roundedFinite fl)
           winRatePercent := if ordered = [] then none else
             some (fl.round (fl.mul (fl.div (fl.ofNat winningReturns.length) (fl.ofNat ordered.length)) (fl.ofNat 100)))
           averageWinPercent := averageWin.bind (roundedFinite fl)
           averageLossPercent := averageLoss.bind (roundedFinite fl) }

/-- The outcomes of the trackable events, by period; none where a time has no date. -/
def groupedOutcomes (period : Double → Option String) (horizon : String) :
    List ScoredEvent → Dict String (List F) → Option (Dict String (List F))
  | [], grouped => some grouped
  | event :: events, grouped =>
    match (event.outcomes.get? horizon).join with
    | some outcome =>
      if event.trackable then
        (period event.timestamp).bind fun key =>
          groupedOutcomes period horizon events
            (grouped.set key ((grouped.get? key).getD [] ++ [fl.ofDouble outcome]))
      else groupedOutcomes period horizon events grouped
    | none => groupedOutcomes period horizon events grouped

/-- `_period_metrics`: the period, the number of its outcomes and their mean; none where it raises. -/
def periodMetrics (period : Double → Option String) (horizon : String) (events : List ScoredEvent) :
    Option (List (String × Nat × F)) := do
  let grouped ← groupedOutcomes fl period horizon events Dict.empty
  (grouped.entries.mergeSort fun x y => x.1 ≤ y.1).mapM fun entry =>
    (fl.fsum entry.2).map fun total => (entry.1, entry.2.length, fl.round (fl.div total (fl.ofNat entry.2.length)))

def periodJson (item : String × Nat × F) : Json :=
  .obj [("period", .str item.1), ("sampled_count", .int item.2.1), ("expectancy_percent", fl.json item.2.2)]

/-- The largest fall of the running total below its peak. -/
def maxDrawdown (values : List F) : F :=
  let zero := fl.ofNat 0
  (values.foldl (fun (state : F × F × F) value =>
    let cumulative := fl.add state.1 value
    let peak := fl.max state.2.1 cumulative
    (cumulative, peak, fl.max state.2.2 (fl.sub peak cumulative))) (zero, zero, zero)).2.2

/-- The values without the first that is the largest. -/
def topRemoved : List F → List F
  | [] => []
  | value :: rest => (value :: rest).eraseP fun x => fl.eq x (fl.maxOf value rest)

/-- The days between the first and the last event, at least one; none of no events. -/
def elapsedDays : List ScoredEvent → Option F
  | [] => none
  | event :: events =>
    let time := fl.ofDouble event.timestamp
    let times := events.map fun event => fl.ofDouble event.timestamp
    some (fl.max (fl.ofNat 1) (fl.div (fl.sub (fl.maxOf time times) (fl.minOf time times)) (fl.ofNat 86400)))

/-- `_metrics`; none where it raises. -/
def metrics (events : List ScoredEvent) (horizon : String) : Option JsonDocument := do
  let zero := fl.ofNat 0
  let hundred := fl.ofNat 100
  let trackable := events.filter ScoredEvent.trackable
  let values := trackable.filterMap fun event => (event.outcomes.get? horizon).join.map fl.ofDouble
  let performance ← performanceMetrics fl values
  let wins := values.filter (fl.lt zero ·)
  let losses := values.filter (fl.lt · zero)
  let removed := topRemoved fl values
  let positiveTotal ← fl.fsum wins
  let daySplit ← periodMetrics fl py.day horizon events
  let weekSplit ← periodMetrics fl py.week horizon events
  let removedMean ← if removed = [] then some none
    else (fl.fsum removed).map fun total => some (fl.round (fl.div total (fl.ofNat removed.length)))
  return Dict.ofList
    [("eligible_signal_count", .int events.length),
      ("trackable_count", .int trackable.length),
      ("completed_outcome_count", .int values.length),
      ("unique_mint_count", .int (events.map ScoredEvent.mint).dedup.length),
      ("coverage_percent", if trackable = [] then .null else
        fl.json (fl.round (fl.mul (fl.div (fl.ofNat values.length) (fl.ofNat trackable.length)) hundred))),
      ("expectancy_percent", jsonOf fl performance.expectancyPercent),
      ("profit_factor", jsonOf fl performance.profitFactor),
      ("profit_factor_above_one", .bool (match performance.profitFactor with
        | some factor => fl.lt (fl.ofNat 1) factor
        | none => !values.isEmpty && !wins.isEmpty && losses.isEmpty)),
      ("median_return_percent", jsonOf fl performance.medianRoiPercent),
      ("win_rate_percent", jsonOf fl performance.winRatePercent),
      ("average_win_percent", jsonOf fl performance.averageWinPercent),
      ("average_loss_percent", jsonOf fl performance.averageLossPercent),
      ("max_loss_percent", jsonOf fl (losses.head?.map fun loss => fl.round (fl.minOf loss losses.tail))),
      ("drawdown_proxy_percent", if values = [] then .null else fl.json (fl.round (maxDrawdown fl values))),
      ("largest_winner_contribution_percent", if fl.lt zero positiveTotal then
          jsonOf fl (wins.head?.map fun win =>
            fl.round (fl.mul (fl.div (fl.maxOf win wins.tail) positiveTotal) hundred)) else .null),
      ("top_winner_removed_expectancy_percent", jsonOf fl removedMean),
      ("positive_utc_day_count", .int (daySplit.filter fun item => fl.lt zero item.2.2).length),
      ("completed_utc_day_count", .int daySplit.length),
      ("utc_day_split", .arr (daySplit.map (periodJson fl))),
      ("utc_week_split", .arr (weekSplit.map (periodJson fl))),
      ("signal_density_per_day", jsonOf fl ((elapsedDays fl events).map fun days =>
        fl.round (fl.div (fl.ofNat events.length) days)))]

/-! ## Results -/

/-- `_hypothesis_matches`: whether the event meets the conditions, and whether it lacks a feature; none
where it raises. -/
def hypothesisMatches (hypothesis : Hypothesis) (event : ScoredEvent) : Option (Bool × Bool) :=
  (features fl py event.row event.family).bind fun features =>
    if hypothesis.requiredFeatures.any fun feature => (features.get? feature).isNone then some (false, true)
    else (allMatch fl py event.family features hypothesis.conditionDefinition).map fun holds => (holds, false)

/-- `select`: the events that match, and the number of those that lack a feature. -/
def select (hypothesis : Hypothesis) : List ScoredEvent → Option (List ScoredEvent × Nat)
  | [] => some ([], 0)
  | event :: source => do
    let (matched, missing) ← hypothesisMatches fl py hypothesis event
    let (selected, count) ← select hypothesis source
    return (if matched then event :: selected else selected, if missing then count + 1 else count)

/-- The events a hypothesis is judged by. -/
def futureFamilyEvents (hypothesis : Hypothesis) (boundary : ℚ) (events : List ScoredEvent) : List ScoredEvent :=
  events.filter fun event => event.family = hypothesis.family ∧ boundary < event.timestamp.val

/-- The result of a hypothesis on the events after its boundary; none where it raises. -/
def judge (conv : Conversions) (hypothesis : Hypothesis) (future : List ScoredEvent) : Option JsonDocument := do
  let (eventRows, missing) ← select fl py hypothesis future
  let (uniqueRows, _) ← select fl py hypothesis (firstSignalPerMint future)
  let views ← horizons.mapM fun horizon => do
    let eventLevel ← metrics fl py eventRows horizon
    let firstSignal ← metrics fl py uniqueRows horizon
    return (horizon, Json.obj [("event_level", .ofFields eventLevel), ("first_signal_per_mint", .ofFields firstSignal)])
  let primary ← metrics fl py uniqueRows primaryHorizon
  let reasons ← fastFalsificationReasons conv primary
  let status := FutureStatus.ofReasons reasons
  return Dict.ofList
    [("hypothesis_id", .str hypothesis.hypothesisId),
      ("family", .str hypothesis.family),
      ("registry_status", hypothesis.document.field "status"),
      ("future_status", .str status.name),
      ("registry_status_after_evaluation", .str status.registryStatus),
      ("falsification_reasons", texts reasons),
      ("missing_required_feature_count", .int missing),
      ("discovery_data_end", hypothesis.document.field "discovery_data_end"),
      ("validation_start", hypothesis.document.field "validation_start"),
      ("discovery_manifest_digest", hypothesis.document.field "discovery_manifest_digest"),
      ("horizons", .obj views)]

/-- What `build_future_validation` computes for one hypothesis. -/
def hypothesisResult (conv : Conversions) (boundaries : Dict String ℚ) (events : List ScoredEvent)
    (hypothesis : Hypothesis) : Option JsonDocument :=
  judge fl py conv hypothesis
    (futureFamilyEvents hypothesis ((boundaries.get? hypothesis.hypothesisId).getD 0) events)

/-- `build_future_validation`, the results in the order of the hypotheses; none where it raises. -/
def buildFutureValidation (conv : Conversions) (rows : List Value) (registry : Registry) :
    Option (List JsonDocument) :=
  registry.hypotheses.mapM
    (hypothesisResult fl py conv (validationBoundaries py registry.hypotheses) (scoredEvents py rows))

end Metrics

end Aibot.Research
