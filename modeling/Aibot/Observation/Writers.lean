/-
The writers of the stored observation ledger: the rows they build and change by hand, key by key, as
`update_json` and `migrate_json` run them. A writer that raises leaves the file as it was.
-/
import Aibot.Lib.FirstMatch
import Aibot.Observation.Row
import Aibot.Observation.Stored

namespace Aibot.Observation.Stored

/-! ## Retention -/

/-- The status is one of `TERMINAL_OBSERVATION_STATUSES`, as it is spelled. -/
def terminalStatus (row : Fields) : Bool :=
  (row.field "status").isStr "COMPLETE" || (row.field "status").isStr "EXPIRED_UNSAMPLED"

def opened (row : Fields) : Bool := (row.field "paper_experiment_status").isStr "OPENED"

/-- A status that `in` cannot look up in a set. -/
def unhashable (x : Json) : Bool := x.isArr || x.isObj

/-- The archive marker. -/
def archived (row : Fields) : Bool :=
  (match row.field "archive_schema_version" with
    | .bool b => b
    | .int n => n = 1
    | .float q => q = 1
    | _ => false) && (row.field "archived_at").truthy

/-- `expire_observation_backlog`. -/
def expireObservationBacklog (now : String) (rows : List Fields) : Except LedgerError (List Fields) :=
  if rows.any fun row => unhashable (row.field "status") then .error .typeError
  else
    let expirable (row : Fields) : Bool := !terminalStatus row && !opened row
    .ok (mapFirst expirable
      (fun row => row.update [("status", .str "EXPIRED_UNSAMPLED"),
        ("expiration_reason", .str "ACTIVE_OBSERVATION_LIMIT"), ("completed_at", .str now)])
      ((rows.filter expirable).length - maxActiveObservations) rows)

/-- `archive_and_retain_observations`. -/
def archiveAndRetainObservations (rows : List Fields) : Except LedgerError (List Fields) :=
  if rows.any fun row => unhashable (row.field "status") then .error .typeError
  else
    let completed (row : Fields) : Bool := terminalStatus row && !opened row
    let active := rows.filter fun row => !completed row
    .ok (dropFirst completed archived
      ((rows.filter completed).length - (maxObservations - active.length)) rows)

/-! ## The frame of a writer -/

section

variable (py : Conversions)

/-- What a mutator does to the rows: it returns without a change, or saves rows; some mutators write
the schema version again. -/
inductive Saved
  | same
  | touched (rows : List Fields)
  | stamped (rows : List Fields)

/-- The document with the rows that a mutator saves. -/
def Saved.document (now : String) (document : Document) : Saved → Document
  | .same => document
  | .touched rows =>
    document.update [("observations", .arr (rows.map .ofFields)), ("updated_at", .str now)]
  | .stamped rows =>
    document.update [("observations", .arr (rows.map .ofFields)),
      ("schema_version", .int observationSchemaVersion), ("updated_at", .str now)]

/-- `int(document.get("version", 0) or 0)`. -/
def documentVersion (document : Document) : Except LedgerError Int :=
  orRaise .typeError (py.toInt ((document.field "version").orElse (.int 0)))

/-- `update_json` with a mutator that migrates the document first. -/
def updateJson (now : String) (mutate : List Fields → Except LedgerError Saved) (document : Document) :
    Except LedgerError Document := do
  let version ← documentVersion py document
  let x ← migrateObservationDocument py now document
  let saved ← mutate (rowsOf x.2)
  .ok ((saved.document now x.2).set "version" (.int (version + 1)))

/-- `migrate_json`, which writes only what has changed. -/
def migrateJson (migrator : Document → Except LedgerError (Bool × Document)) (document : Document) :
    Except LedgerError Document := do
  let x ← migrator document
  if x.1 then
    let version ← documentVersion py x.2
    .ok (x.2.set "version" (.int (version + 1)))
  else .ok document

/-! ## Rows -/

/-- The row of an observation: the first with its id. -/
def findRow (rows : List Fields) (observationId : String) : Option Fields :=
  rows.find? fun row => (row.field "observation_id").isStr observationId

/-- Change the row of an observation in place. -/
def modifyRow (rows : List Fields) (observationId : String) (f : Fields → Fields) : List Fields :=
  modifyFirst (fun row => (row.field "observation_id").isStr observationId) f rows

/-- The retention, and the rows saved. -/
def retained (rows : List Fields) : Except LedgerError Saved := do
  let rows ← archiveAndRetainObservations rows
  .ok (.touched rows)

/-- The expiry, the retention, and the rows saved. -/
def expired (now : String) (rows : List Fields) : Except LedgerError (List Fields) := do
  let rows ← expireObservationBacklog now rows
  archiveAndRetainObservations rows

/-- `tuple(existing.get("strategy_variants") or variants)` raises. -/
def noTuple (x : Json) : Bool :=
  match x with
  | .arr _ | .obj _ | .str _ => false
  | x => x.truthy

/-! ## Parts of a row -/

/-- `strategy_variants`. -/
def strategyVariants (routeType : String) (score : ℚ) : List String :=
  let route := upper routeType
  let variants := ["baseline_v1", "route_" ++ String.ofList (route.toList.map Char.toLower) ++ "_baseline"]
  if route ≠ "B" then variants
  else variants ++
    [if score < candidateV2MinScore then "route_b_score_below_90"
      else if score < candidateV2MaxScore then "candidate_v2_score_90_to_below_100"
      else "route_b_score_100_or_more"]

/-- `_bounded_metadata`. -/
def boundedMetadata (values : Option Fields) : Json :=
  let source := (values.map Dict.entries).getD []
  .ofFields (Dict.ofList ((source.take 30).map fun p =>
    (clip 80 p.1,
      match p.2 with
      | .bool _ | .null => p.2
      | .int n => .float n
      | .float q => .float q
      | x => .str (clip 200 (py.text x)))))

/-- `_normalized_momentum_metrics`. -/
def normalizedMomentumMetrics : Option Fields → Json
  | none => .null
  | some metrics =>
    let finite (key : String) : String × Json := (key, number (py.finiteOrNone (metrics.field key)))
    let integer (key : String) : String × Json :=
      (key, ((py.finiteOrNone (metrics.field key)).map fun x =>
        Json.int (if 0 ≤ x then x.floor else x.ceil)).getD .null)
    .ofFields (Dict.ofList [finite "volume_m5_usd", integer "buys_m5", integer "sells_m5",
      integer "net_buys_m5", finite "buy_sell_ratio_m5", finite "liquidity_usd", finite "pair_age_seconds",
      integer "unknown_whale_count"])

/-- `normalized_safety_metrics`. -/
def normalizedSafetyMetrics (metrics : Option Fields) : Json :=
  let source := metrics.getD Dict.empty
  let finiteNumber (name : String) (minimum maximum : Option ℚ) : String × Json :=
    (name, number (if (source.field name).isStr "" then none else
      (py.toFloat (source.field name)).filter fun x => minimum.all (· ≤ x) && maximum.all (x ≤ ·)))
  let strictBool (name : String) : String × Json := (name, .bool (source.field name).isTrue)
  let limitedStrings (name : String) : String × Json :=
    (name, texts (((source.field name).items.take 20).map fun x => clip 200 (py.text x)))
  .ofFields (Dict.ofList [finiteNumber "developer_supply_percent" (some 0) (some 100),
    strictBool "developer_below_ten_percent", strictBool "mint_authority_renounced", strictBool "lp_locked",
    finiteNumber "lp_locked_percent" (some 0) (some 100), finiteNumber "liquidity_usd" (some 0) none,
    strictBool "liquidity_above_minimum", limitedStrings "reasons", limitedStrings "sources"])

/-- `[str(reason)[:200] for reason in decision_reasons[:20]]`. -/
def boundedReasons (reasons : List String) : Json := texts ((reasons.take 20).map (clip 200))

/-- `f"{source_signature}:{source_wallet}:{mint}"`. -/
def observationKey (sourceSignature sourceWallet mint : String) : String :=
  sourceSignature ++ ":" ++ sourceWallet ++ ":" ++ mint

/-! ## Discovery -/

structure DiscoveryRequest where
  mint : String
  routeType : String
  sourceWallet : String
  sourceSignature : String
  tokenAmountRaw : Int
  tokenDecimals : Int
  signalDetectedAt : String
  dexMomentumScore : ℚ
  momentumMetrics : Option Fields
  discoveryMetadata : Option Fields

def DiscoveryRequest.observationId (r : DiscoveryRequest) : String :=
  observationKey r.sourceSignature r.sourceWallet r.mint

/-- The row of a new candidate. -/
def DiscoveryRequest.payload (r : DiscoveryRequest) (now : ℚ) : List (String × Json) :=
  [("observation_id", .str r.observationId),
    ("mint", .str r.mint),
    ("route_type", .str (upper r.routeType)),
    ("signal_type", .str (signalTypeForRoute (.str r.routeType))),
    ("research_decision", .str "SHADOW"),
    ("source_wallet", .str r.sourceWallet),
    ("source_signature", .str r.sourceSignature),
    ("safety_score", .null),
    ("entry_cost_lamports", .int 0),
    ("token_amount_raw", .int (max 0 r.tokenAmountRaw)),
    ("token_decimals", .int (max 0 r.tokenDecimals)),
    ("entry_price_impact_pct", .null),
    ("exit_price_impact_pct", .null),
    ("expected_slippage_bps", .null),
    ("dex_momentum_score", .float r.dexMomentumScore),
    ("strategy_version", .str "broad_observation_v1"),
    ("strategy_variants", texts (strategyVariants r.routeType r.dexMomentumScore)),
    ("safety_metrics", .obj []),
    ("momentum_metrics", normalizedMomentumMetrics py r.momentumMetrics),
    ("candidate_v2_eligible", .bool false),
    ("candidate_v2_filter_reasons", texts ["DECISION_PENDING"]),
    ("candidate_v2_early_failure", .null),
    ("candidate_v2_paper_status", .str "NOT_EVALUATED"),
    ("candidate_v2_position_id", .null),
    ("paper_experiment_status", .str "NOT_EVALUATED"),
    ("paper_experiment_position_id", .null),
    ("decision_status", .str "DISCOVERED"),
    ("decision_reasons", .arr []),
    ("quote_status", .str "NOT_REQUESTED"),
    ("discovery_metadata", boundedMetadata py r.discoveryMetadata),
    ("signal_detected_at", .str r.signalDetectedAt),
    ("analysis_completed_at", .null),
    ("entry_quote_at", .null),
    ("entry_latency_ms", .null),
    ("started_at_epoch", .float now),
    ("started_at", .str (py.isoformat now)),
    ("samples", .arr []),
    ("sample_attempts", .obj []),
    ("mfe_percent", .null),
    ("mae_percent", .null),
    ("excursion_basis", .str "scheduled_jupiter_executable_quotes"),
    ("tracking_profile", .str "research_v1_60m"),
    ("status", .str "DISCOVERED")]

/-- The mutator of `record_candidate_discovery`. -/
def recordCandidateDiscovery (r : DiscoveryRequest) (now : ℚ) (rows : List Fields) :
    Except LedgerError Saved :=
  match findRow rows r.observationId with
  | some existing => if noTuple (existing.field "strategy_variants") then .error .typeError else .ok .same
  | none => do
    let rows ← expired (py.isoformat now) (rows ++ [Dict.ofList (r.payload py now)])
    .ok (.stamped rows)

/-! ## Decision -/

structure DecisionRequest where
  mint : String
  routeType : String
  sourceWallet : String
  sourceSignature : String
  safetyScore : Int
  entryCostLamports : Int
  tokenAmountRaw : Int
  tokenDecimals : Int
  entryPriceImpactPct : ℚ
  exitPriceImpactPct : Option ℚ
  expectedSlippageBps : Int
  dexMomentumScore : ℚ
  signalDetectedAt : String
  analysisCompletedAt : String
  entryQuoteAt : String
  entryLatencyMs : Int
  copyPriceGapPct : Option ℚ
  momentumMetrics : Option Fields
  safetyMetrics : Option Fields
  decisionStatus : String
  decisionReasons : List String
  quoteStatus : String

def DecisionRequest.observationId (r : DecisionRequest) : String :=
  observationKey r.sourceSignature r.sourceWallet r.mint

def DecisionRequest.approved (r : DecisionRequest) : Bool := upper r.decisionStatus = "APPROVED"

/-- An eligible row of the mint keeps later ones out for a day; the start of a row it looks at must be
a number. -/
def seenWithinCooldown (mint : String) (now : ℚ) : List Fields → Except LedgerError Bool
  | [] => .ok false
  | row :: rows =>
    if (row.field "mint").isStr mint && (row.field "candidate_v2_eligible").isTrue then do
      let startedAt ← orRaise .typeError (py.toFloat ((row.field "started_at_epoch").orElse (.int 0)))
      if now - startedAt < 86400 then .ok true else seenWithinCooldown mint now rows
    else seenWithinCooldown mint now rows

/-- The candidate is eligible, and the reasons it is not. -/
def DecisionRequest.candidate (r : DecisionRequest) (now : ℚ) (rows : List Fields) :
    Except LedgerError (Bool × List String) := do
  let inRange := candidateV2MinScore ≤ r.dexMomentumScore ∧ r.dexMomentumScore < candidateV2MaxScore
  let eligible := r.routeType = "B" ∧ r.approved ∧ inRange
  let reasons := (if r.approved then [] else ["ENTRY_DECISION_REJECTED"]) ++
    (if r.routeType = "B" then [] else ["ROUTE_NOT_B"]) ++
    (if inRange then [] else ["MOMENTUM_OUTSIDE_90_TO_BELOW_100"])
  if eligible then
    let seen ← seenWithinCooldown py r.mint now rows
    .ok (if seen then (false, reasons ++ ["MINT_SEEN_WITHIN_24H"]) else (true, reasons))
  else .ok (false, reasons)

/-- The fields of a decision; an existing row gives its discovery metadata and its start. -/
def DecisionRequest.payload (r : DecisionRequest) (now : ℚ) (candidate : Bool × List String)
    (existing : Option Fields) : List (String × Json) :=
  [("observation_id", .str r.observationId),
    ("mint", .str r.mint),
    ("route_type", .str r.routeType),
    ("signal_type", .str (signalTypeForRoute (.str r.routeType))),
    ("research_decision", .str (if r.approved then "SHADOW" else "REJECTED")),
    ("source_wallet", .str r.sourceWallet),
    ("source_signature", .str r.sourceSignature),
    ("safety_score", .int r.safetyScore),
    ("entry_cost_lamports", .int r.entryCostLamports),
    ("token_amount_raw", .int r.tokenAmountRaw),
    ("token_decimals", .int r.tokenDecimals),
    ("entry_price_impact_pct", .float r.entryPriceImpactPct),
    ("exit_price_impact_pct", number r.exitPriceImpactPct),
    ("expected_slippage_bps", .int r.expectedSlippageBps),
    ("dex_momentum_score", .float r.dexMomentumScore),
    ("strategy_version", .str "baseline_v1+candidate_v2"),
    ("strategy_variants", texts (strategyVariants r.routeType r.dexMomentumScore)),
    ("safety_metrics", normalizedSafetyMetrics py r.safetyMetrics),
    ("momentum_metrics",
      normalizedMomentumMetrics py (if r.routeType = "B" then r.momentumMetrics else none)),
    ("candidate_v2_eligible", .bool candidate.1),
    ("candidate_v2_filter_reasons", texts candidate.2),
    ("candidate_v2_early_failure", .null),
    ("candidate_v2_paper_status", .str (if candidate.1 then "ELIGIBLE" else "NOT_ELIGIBLE")),
    ("candidate_v2_position_id", .null),
    ("paper_experiment_status", .str (if r.approved then "ELIGIBLE" else "NOT_ELIGIBLE")),
    ("paper_experiment_position_id", .null),
    ("signal_detected_at", .str r.signalDetectedAt),
    ("analysis_completed_at", .str r.analysisCompletedAt),
    ("entry_quote_at", .str r.entryQuoteAt),
    ("entry_latency_ms", .int r.entryLatencyMs),
    ("copy_price_gap_pct", number r.copyPriceGapPct),
    ("started_at_epoch", (existing.bind (·.get? "started_at_epoch")).getD (.float now)),
    ("started_at", (existing.bind (·.get? "started_at")).getD (.str (py.isoformat now))),
    ("samples", .arr []),
    ("sample_attempts", .obj []),
    ("mfe_percent", .null),
    ("mae_percent", .null),
    ("excursion_basis", .str "scheduled_jupiter_executable_quotes"),
    ("tracking_profile", .str "research_v1_60m"),
    ("status", .str "PENDING"),
    ("decision_status", .str (upper r.decisionStatus)),
    ("decision_reasons", boundedReasons r.decisionReasons),
    ("quote_status", .str (clip 80 (upper r.quoteStatus))),
    ("discovery_metadata", (existing.bind (·.get? "discovery_metadata")).getD (.obj []))]

/-- The mutator of `record_observation_decision`. -/
def recordObservationDecision (r : DecisionRequest) (now : ℚ) (rows : List Fields) :
    Except LedgerError Saved :=
  let existing := findRow rows r.observationId
  match existing.filter fun row => (row.field "quote_status").isStr "EXECUTABLE" with
  | some row => if noTuple (row.field "strategy_variants") then .error .typeError else .ok .same
  | none =>
    if upper r.decisionStatus ≠ "APPROVED" ∧ upper r.decisionStatus ≠ "REJECTED" then
      .error .unsupportedDecisionStatus
    else do
      let candidate ← r.candidate py now rows
      let payload := r.payload py now candidate existing
      let saved := match existing with
        | some _ => modifyRow rows r.observationId fun row => row.update payload
        | none => rows ++ [Dict.ofList payload]
      let rows ← expired (py.isoformat now) saved
      .ok (.stamped rows)

/-! ## The end of a candidate, and its paper experiment -/

structure FinalizeRequest where
  observationId : String
  decisionStatus : String
  decisionReasons : List String
  quoteStatus : String
  safetyScore : Option Int
  safetyMetrics : Option Fields
  analysisCompletedAt : Option String

/-- The fields of a candidate that got no quote. -/
def FinalizeRequest.payload (r : FinalizeRequest) (now : ℚ) : List (String × Json) :=
  [("decision_status", .str (upper r.decisionStatus)),
    ("research_decision", .str "REJECTED"),
    ("decision_reasons", boundedReasons r.decisionReasons),
    ("quote_status", .str (clip 80 (upper r.quoteStatus))),
    ("paper_experiment_status", .str "NOT_ELIGIBLE"),
    ("candidate_v2_paper_status", .str "NOT_ELIGIBLE"),
    ("safety_score", (r.safetyScore.map Json.int).getD .null),
    ("safety_metrics", normalizedSafetyMetrics py r.safetyMetrics),
    ("analysis_completed_at", textOrNull r.analysisCompletedAt),
    ("status", .str "COMPLETE"),
    ("completed_at", .str (py.isoformat now))]

/-- The mutator of `finalize_candidate_without_quote`. -/
def finalizeCandidateWithoutQuote (r : FinalizeRequest) (now : ℚ) (rows : List Fields) :
    Except LedgerError Saved :=
  match findRow rows r.observationId with
  | none => .ok .same
  | some _ => retained (modifyRow rows r.observationId fun row => row.update (r.payload py now))

/-- The row of a paper experiment with a new status. -/
def marked (status : String) (positionId : Option String) (row : Fields) : Fields :=
  let row := row.update ([("paper_experiment_status", .str status),
      ("paper_experiment_position_id", textOrNull positionId)] ++
    if (row.field "candidate_v2_eligible").isTrue then
      [("candidate_v2_paper_status", .str status), ("candidate_v2_position_id", textOrNull positionId)]
    else [])
  row.set "research_decision" (.str (if status = "OPENED" ∨ status = "CLOSED" then "ENTERED"
    else canonicalResearchDecision row))

/-- The mutator of `mark_paper_experiment_status`. -/
def markPaperExperimentStatus (observationId status : String) (positionId : Option String)
    (rows : List Fields) : Except LedgerError Saved :=
  match findRow rows observationId with
  | none => .ok .same
  | some _ => retained (modifyRow rows observationId (marked (upper status) positionId))

/-! ## Samples -/

/-- The mutator of `record_sample_attempt`. -/
def recordSampleAttempt (observationId interval error : String) (now : ℚ) (rows : List Fields) :
    Except LedgerError Saved :=
  match findRow rows observationId with
  | none => .ok .same
  | some row =>
    if hasSample row interval then .ok .same
    else do
      let attempts := ((row.field "sample_attempts").fields?).getD Dict.empty
      let count ← orRaise .typeError (py.toInt ((attempts.field interval).orElse (.int 0)))
      .ok (.touched (modifyRow rows observationId fun row => row.update
        [("sample_attempts", .ofFields (attempts.set interval (.int (count + 1)))),
          ("sample_last_error", .str (clip 500 error)),
          ("sample_last_attempt_at", .str (py.isoformat now))]))

structure SampleResult where
  observationId : String
  interval : String
  proceedsLamports : Option Int
  error : Option String
  sampledAtEpoch : Option ℚ
  quoteLatencyMs : Option ℚ

/-- `TERMINAL_OBSERVATION_STATUSES`, in any case. -/
def terminal (row : Fields) : Bool :=
  upperIs (row.field "status") "COMPLETE" || upperIs (row.field "status") "EXPIRED_UNSAMPLED"

/-- `return_percent` of a result. -/
def SampleResult.returnPercent (result : SampleResult) (entryCost : Int) : Option ℚ :=
  result.proceedsLamports.bind fun proceeds =>
    if 0 < entryCost then some (round4 (((proceeds : ℚ) / entryCost - 1) * 100)) else none

/-- The sample a result makes. -/
def SampleResult.sample (result : SampleResult) (now startedAt : ℚ) (entryCost : Int) : Fields :=
  let delay := ((observationIntervals.lookup result.interval).getD 0 : ℚ)
  let sampledAt := result.sampledAtEpoch.getD now
  Dict.ofList [("interval", .str result.interval),
    ("proceeds_lamports", (result.proceedsLamports.map Json.int).getD .null),
    ("return_percent", number (result.returnPercent entryCost)),
    ("error", textOrNull ((result.error.filter (· ≠ "")).map (clip 500))),
    ("sampled_at", .str (py.isoformat sampledAt)),
    ("target_at_epoch", .float (startedAt + delay)),
    ("sampled_at_epoch", .float sampledAt),
    ("sample_lag_seconds", .float (round4 (max 0 (sampledAt - (startedAt + delay))))),
    ("quote_latency_ms", number ((result.quoteLatencyMs.filter (0 ≤ ·)).map round4))]

/-- The returns of the samples that have one. -/
def observedReturns : List Fields → Except LedgerError (List ℚ)
  | [] => .ok []
  | sample :: samples =>
    if (sample.field "return_percent").isNull then observedReturns samples
    else do
      let x ← orRaise .typeError (py.toFloat (sample.field "return_percent"))
      let xs ← observedReturns samples
      .ok (x :: xs)

/-- `max([0.0, *returns])`, null without a return. -/
def excursion (extreme : ℚ → ℚ → ℚ) : List ℚ → Json
  | [] => .null
  | x :: xs => .float ((x :: xs).foldl extreme 0)

/-- The row that has every sample it requires is complete. -/
def completed (now : ℚ) (row : Fields) : Fields :=
  if fullySampled row then
    let row := row.set "status" (.str "COMPLETE")
    if (row.field "completed_at").truthy then row else row.set "completed_at" (.str (py.isoformat now))
  else row

/-- The row with one more sample. -/
def sampled (result : SampleResult) (now : ℚ) (row : Fields) : Except LedgerError Fields := do
  let entryCost ← orRaise .typeError (py.toInt ((row.field "entry_cost_lamports").orElse (.int 0)))
  let startedAt ← orRaise .typeError (py.toFloat ((row.field "started_at_epoch").orElse (.int 0)))
  let sample := result.sample py now startedAt entryCost
  let samples := (row.field "samples").items ++ [.ofFields sample]
  let returns ← observedReturns py (samples.filterMap Json.fields?)
  let earlyFailure := (result.returnPercent entryCost).map fun x =>
    Json.bool (x ≤ candidateV2EarlyFailurePercent)
  let mfe := excursion max returns
  let mae := excursion min returns
  .ok (completed py now (row.update ([("samples", .arr samples)] ++
    (if result.interval = "1m" ∧ (row.field "candidate_v2_eligible").isTrue then
      [("candidate_v2_early_failure", earlyFailure.getD .null)] else []) ++
    [("mfe_percent", mfe), ("mae_percent", mae), ("max_return_percent", mfe), ("min_return_percent", mae)])))

/-- `_apply_sample_to_document`: none where the sample does not apply. -/
def applySampleToDocument (result : SampleResult) (now : ℚ) (rows : List Fields) :
    Except LedgerError (Option (List Fields)) :=
  match findRow rows result.observationId with
  | none => .ok none
  | some row =>
    if terminal row || hasSample row result.interval then .ok none
    else do
      let row ← sampled py result now row
      .ok (some (modifyRow rows result.observationId fun _ => row))

/-- The samples of a batch one after the other: whether one applies, and the rows after them. -/
def applySamples (now : ℚ) : List SampleResult → List Fields → Except LedgerError (Bool × List Fields)
  | [], rows => .ok (false, rows)
  | result :: results, rows => do
    match ← applySampleToDocument py result now rows with
    | none => applySamples now results rows
    | some rows =>
      let x ← applySamples now results rows
      .ok (true, x.2)

/-- The mutator of `record_sample_batch`. -/
def recordSampleBatch (results : List SampleResult) (now : ℚ) (rows : List Fields) :
    Except LedgerError Saved := do
  let x ← applySamples py now results rows
  if x.1 then
    let rows ← expired (py.isoformat now) x.2
    .ok (.touched rows)
  else .ok .same

/-! ## Reconciliation and archive markers -/

/-- An old discovery that nothing has touched since. -/
def interrupted (now grace : ℚ) (row : Fields) : Bool :=
  upperIs (row.field "status") "DISCOVERED" && upperIs (row.field "decision_status") "DISCOVERED" &&
    upperIs (row.field "quote_status") "NOT_REQUESTED" &&
    (row.field "tracking_profile").isStr "research_v1_60m" &&
    (row.field "analysis_completed_at").isNull && (row.field "entry_quote_at").isNull &&
    ((row.field "decision_reasons").isArr && (row.field "decision_reasons").items.isEmpty) &&
    ((row.field "samples").isArr && (row.field "samples").items.isEmpty) &&
    ((row.field "sample_attempts").isNull ||
      (row.field "sample_attempts").isObj && !(row.field "sample_attempts").truthy) &&
    (row.field "paper_experiment_position_id").isNull && (row.field "candidate_v2_position_id").isNull &&
    (!(row.field "paper_experiment_status").truthy ||
      upperIs (row.field "paper_experiment_status") "NOT_EVALUATED") &&
    (py.finiteOrNone (row.field "started_at_epoch")).any fun startedAt => grace ≤ now - startedAt

/-- The fields of an interrupted discovery. -/
def reconciledPayload (now : ℚ) : List (String × Json) :=
  [("status", .str "COMPLETE"),
    ("decision_status", .str "INTERRUPTED"),
    ("decision_reasons", texts [discoveryProcessingInterrupted]),
    ("quote_status", .str "PROCESSING_FAILED"),
    ("research_decision", .str "SHADOW"),
    ("paper_experiment_status", .str "NOT_ELIGIBLE"),
    ("candidate_v2_paper_status", .str "NOT_ELIGIBLE"),
    ("reconciled_at", .str (py.isoformat now)),
    ("reconciliation_reason", .str discoveryProcessingInterrupted),
    ("completed_at", .str (py.isoformat now))]

/-- The migrator of `reconcile_interrupted_discoveries`. -/
def reconcileInterruptedDiscoveries (now grace : ℚ) (document : Document) :
    Except LedgerError (Bool × Document) := do
  let x ← migrateObservationDocument py (py.isoformat now) document
  let hit := interrupted py now (max 60 grace)
  let rows := rowsOf x.2
  if rows.any hit then
    .ok (true, (Saved.touched (rows.map fun row => if hit row then row.update (reconciledPayload py now)
      else row)).document (py.isoformat now) x.2)
  else .ok x

/-- `str(row.get("observation_id") or "")`. -/
def idText (row : Fields) : String :=
  if (row.field "observation_id").truthy then py.text (row.field "observation_id") else ""

/-- The markers of the snapshots that have one, by id. -/
def archiveMarkers (snapshots : List Fields) : Dict String String :=
  Dict.ofList ((snapshots.filter fun row => archived row && idText py row ≠ "").map fun row =>
    (idText py row, py.text (row.field "archived_at")))

/-- The row with the archive marker of its id, if there is one. -/
def withMarker (markers : Dict String String) (row : Fields) : Fields :=
  match (markers.get? (idText py row)).filter (· ≠ "") with
  | some archivedAt => row.update [("archive_schema_version", .int 1), ("archived_at", .str archivedAt)]
  | none => row

/-- The mutator of `_persist_archive_markers`. -/
def persistArchiveMarkers (markers : Dict String String) (rows : List Fields) : Except LedgerError Saved :=
  retained (rows.map (withMarker py markers))

/-! ## One operation -/

/-- A call of one of the writers, with the clock reading it takes. -/
inductive LedgerOp
  /-- `ensure_observations_migrated`. -/
  | startup (now : ℚ)
  | discovery (request : DiscoveryRequest) (now : ℚ)
  | decision (request : DecisionRequest) (now : ℚ)
  | finalize (request : FinalizeRequest) (now : ℚ)
  | mark (observationId status : String) (positionId : Option String) (now : ℚ)
  | sampleAttempt (observationId interval error : String) (now : ℚ)
  | sampleBatch (results : List SampleResult) (now : ℚ)
  | reconcile (now grace : ℚ)
  | markers (snapshots : List Fields) (now : ℚ)

/-- What a call checks before it opens the file. -/
def LedgerOp.refused : LedgerOp → Option LedgerError
  | .decision r _ =>
    if r.entryCostLamports ≤ 0 ∨ r.tokenAmountRaw ≤ 0 then some .quoteAmountsNotPositive else none
  | .finalize r _ =>
    if upper r.decisionStatus ∈ ["REJECTED", "UNAVAILABLE", "FAILED"] then none
    else some .unsupportedCandidateStatus
  | .mark _ status _ _ =>
    if upper status ∈ ["ELIGIBLE", "OPENED", "CLOSED", "SKIPPED_CAPACITY", "FAILED"] then none
    else some .unsupportedPaperStatus
  | .sampleAttempt _ interval _ _ =>
    if interval ∈ observationIntervals.map Prod.fst then none else some .unsupportedInterval
  | .sampleBatch results _ =>
    if observationSampleBatchSize < results.length then some .batchTooLarge
    else if results.all fun result => result.interval ∈ observationIntervals.map Prod.fst then none
    else some .unsupportedInterval
  | _ => none

/-- What a call writes to the document it finds, unless it raises. -/
def LedgerOp.write (document : Document) : LedgerOp → Except LedgerError Document
  | .startup now => migrateJson py (migrateObservationDocument py (py.isoformat now)) document
  | .discovery r now => updateJson py (py.isoformat now) (recordCandidateDiscovery py r now) document
  | .decision r now => updateJson py (py.isoformat now) (recordObservationDecision py r now) document
  | .finalize r now => updateJson py (py.isoformat now) (finalizeCandidateWithoutQuote py r now) document
  | .mark id status positionId now =>
    updateJson py (py.isoformat now) (markPaperExperimentStatus id status positionId) document
  | .sampleAttempt id interval error now =>
    updateJson py (py.isoformat now) (recordSampleAttempt py id interval error now) document
  | .sampleBatch results now =>
    if results.isEmpty then .ok document
    else updateJson py (py.isoformat now) (recordSampleBatch py results now) document
  | .reconcile now grace => migrateJson py (reconcileInterruptedDiscoveries py now grace) document
  | .markers snapshots now =>
    let markers := archiveMarkers py snapshots
    if markers.entries.isEmpty then .ok document
    else updateJson py (py.isoformat now) (persistArchiveMarkers py markers) document

/-- The document after a call; one that raises leaves it. -/
def LedgerOp.step (document : Document) (op : LedgerOp) : Option Document :=
  match op.refused with
  | some _ => some document
  | none => some ((op.write py document).toOption.getD document)

end

end Aibot.Observation.Stored
