/-
The mutators of the observation ledger, as `update_json` runs them: each maps the rows it finds to
what it returns and the rows it saves.
-/
import Aibot.Observation.Retention

namespace Aibot.Observation

open Aibot.Risk

/-! ## Discovery and decision -/

/-- `strategy_variants`. -/
def strategyVariants (routeType : RouteType) (score : ℚ) : List String :=
  match routeType with
  | .A => ["baseline_v1", "route_a_baseline"]
  | .B => ["baseline_v1", "route_b_baseline",
      if score < candidateV2MinScore then "route_b_score_below_90"
      else if score < candidateV2MaxScore then "candidate_v2_score_90_to_below_100"
      else "route_b_score_100_or_more"]

/-- What the writers of an observation return. -/
structure ObservationDecision where
  created : Bool
  observationId : ObservationId
  candidateV2Eligible : Bool
  strategyVariants : List String

/-- A `ValueError` of a writer, raised before it saves. -/
inductive ObservationError
  | unsupportedDecisionStatus
  | quoteAmountsNotPositive
  | unsupportedPaperStatus
  | batchTooLarge
  deriving DecidableEq, Repr

/-- The key under which a signal is observed. -/
def observationKey (sourceSignature sourceWallet : String) (mint : Mint) : ObservationId :=
  s!"{sourceSignature}:{sourceWallet}:{mint}"

structure DiscoveryRequest where
  mint : Mint
  routeType : RouteType
  sourceWallet : String
  sourceSignature : String
  tokenAmountRaw : Int
  dexMomentumScore : ℚ

def DiscoveryRequest.observationId (r : DiscoveryRequest) : ObservationId :=
  observationKey r.sourceSignature r.sourceWallet r.mint

/-- The row of a new candidate. -/
def DiscoveryRequest.row (r : DiscoveryRequest) (now : Int) : Row where
  observationId := r.observationId
  mint := r.mint
  routeType := r.routeType
  researchDecision := .shadow
  safetyScore := none
  entryCostLamports := 0
  tokenAmountRaw := max 0 r.tokenAmountRaw
  strategyVariants := strategyVariants r.routeType r.dexMomentumScore
  candidateV2Eligible := false
  candidateV2FilterReasons := ["DECISION_PENDING"]
  candidateV2EarlyFailure := none
  candidateV2PaperStatus := .notEvaluated
  candidateV2PositionId := none
  paperExperimentStatus := .notEvaluated
  paperExperimentPositionId := none
  decisionStatus := .discovered
  decisionReasons := []
  quoteStatus := "NOT_REQUESTED"
  analysisCompletedAt := none
  entryQuoteAt := none
  startedAtEpoch := now
  samples := []
  sampleAttempts := Dict.empty
  mfePercent := none
  maePercent := none
  trackingProfile := .researchV1_60m
  status := .discovered
  completedAt := none
  archivedAt := none

/-- `record_candidate_discovery`. -/
def recordCandidateDiscovery (r : DiscoveryRequest) (now : Int) (rows : List Row) :
    ObservationDecision × Write :=
  let variants := strategyVariants r.routeType r.dexMomentumScore
  match findRow rows r.observationId with
  | some existing =>
    (⟨false, r.observationId, existing.candidateV2Eligible,
      if existing.strategyVariants.isEmpty then variants else existing.strategyVariants⟩, .keep rows)
  | none =>
    (⟨true, r.observationId, false, variants⟩,
      .retain (expireObservationBacklog now (rows ++ [r.row now])))

structure DecisionRequest where
  mint : Mint
  routeType : RouteType
  sourceWallet : String
  sourceSignature : String
  safetyScore : Int
  entryCostLamports : Int
  tokenAmountRaw : Int
  dexMomentumScore : ℚ
  analysisCompletedAt : String
  entryQuoteAt : String
  decisionStatus : DecisionStatus
  decisionReasons : List String
  quoteStatus : String

def DecisionRequest.observationId (r : DecisionRequest) : ObservationId :=
  observationKey r.sourceSignature r.sourceWallet r.mint

/-- The arguments with which a decision is recorded at all. -/
def DecisionRequest.valid (r : DecisionRequest) : Prop :=
  0 < r.entryCostLamports ∧ 0 < r.tokenAmountRaw ∧
    (r.decisionStatus = .approved ∨ r.decisionStatus = .rejected)

instance (r : DecisionRequest) : Decidable r.valid := inferInstanceAs (Decidable (_ ∧ _ ∧ _))

/-- `[str(reason)[:200] for reason in decision_reasons[:20]]`. -/
def boundedReasons (reasons : List String) : List String :=
  (reasons.take 20).map fun reason => String.ofList (reason.toList.take 200)

/-- `str(quote_status).upper()[:80]`. -/
def normalizedQuoteStatus (quoteStatus : String) : String :=
  String.ofList ((quoteStatus.toList.map Char.toUpper).take 80)

/-- An eligible row of the mint keeps later ones out for a day. -/
def seenWithinCooldown (rows : List Row) (mint : Mint) (now : Int) : Bool :=
  rows.any fun row => row.mint = mint && row.candidateV2Eligible &&
    now - row.startedAtEpoch < candidateV2MintCooldown

/-- The candidate is eligible, and the reasons it is not. -/
def DecisionRequest.candidate (r : DecisionRequest) (now : Int) (rows : List Row) : Bool × List String :=
  let inRange := candidateV2MinScore ≤ r.dexMomentumScore ∧ r.dexMomentumScore < candidateV2MaxScore
  let eligible := r.routeType = .B ∧ r.decisionStatus = .approved ∧ inRange
  let reasons := (if r.decisionStatus ≠ .approved then ["ENTRY_DECISION_REJECTED"] else []) ++
    (if r.routeType ≠ .B then ["ROUTE_NOT_B"] else []) ++
    (if ¬ inRange then ["MOMENTUM_OUTSIDE_90_TO_BELOW_100"] else [])
  if eligible ∧ seenWithinCooldown rows r.mint now then (false, reasons ++ ["MINT_SEEN_WITHIN_24H"])
  else (decide eligible, reasons)

/-- The row of a decision: a new one, or the existing one with its start, its completion time and
its archive marker kept. -/
def DecisionRequest.row (r : DecisionRequest) (now : Int) (candidate : Bool × List String)
    (existing : Option Row) : Row where
  observationId := r.observationId
  mint := r.mint
  routeType := r.routeType
  researchDecision := if r.decisionStatus = .approved then .shadow else .rejected
  safetyScore := some r.safetyScore
  entryCostLamports := r.entryCostLamports
  tokenAmountRaw := r.tokenAmountRaw
  strategyVariants := strategyVariants r.routeType r.dexMomentumScore
  candidateV2Eligible := candidate.1
  candidateV2FilterReasons := candidate.2
  candidateV2EarlyFailure := none
  candidateV2PaperStatus := if candidate.1 then .eligible else .notEligible
  candidateV2PositionId := none
  paperExperimentStatus := if r.decisionStatus = .approved then .eligible else .notEligible
  paperExperimentPositionId := none
  decisionStatus := r.decisionStatus
  decisionReasons := boundedReasons r.decisionReasons
  quoteStatus := normalizedQuoteStatus r.quoteStatus
  analysisCompletedAt := some r.analysisCompletedAt
  entryQuoteAt := some r.entryQuoteAt
  startedAtEpoch := (existing.map Row.startedAtEpoch).getD now
  samples := []
  sampleAttempts := Dict.empty
  mfePercent := none
  maePercent := none
  trackingProfile := .researchV1_60m
  status := .pending
  completedAt := existing.bind Row.completedAt
  archivedAt := existing.bind Row.archivedAt

/-- `record_observation_decision`. -/
def recordObservationDecision (r : DecisionRequest) (now : Int) (rows : List Row) :
    Except ObservationError (ObservationDecision × Write) :=
  if r.entryCostLamports ≤ 0 ∨ r.tokenAmountRaw ≤ 0 then .error .quoteAmountsNotPositive
  else
    let existing := findRow rows r.observationId
    match existing.filter fun row => row.quoteStatus = "EXECUTABLE" with
    | some row => .ok (⟨false, r.observationId, row.candidateV2Eligible,
        if row.strategyVariants.isEmpty then ["baseline_v1"] else row.strategyVariants⟩, .keep rows)
    | none =>
      if r.decisionStatus ≠ .approved ∧ r.decisionStatus ≠ .rejected then
        .error .unsupportedDecisionStatus
      else
        let candidate := r.candidate now rows
        let saved := match existing with
          | some row => modifyRow rows r.observationId fun _ => r.row now candidate (some row)
          | none => rows ++ [r.row now candidate none]
        .ok (⟨true, r.observationId, candidate.1, strategyVariants r.routeType r.dexMomentumScore⟩,
          .retain (expireObservationBacklog now saved))

/-! ## The end of a candidate, and its paper experiment -/

structure FinalizeRequest where
  observationId : ObservationId
  decisionStatus : DecisionStatus
  decisionReasons : List String
  quoteStatus : String
  safetyScore : Option Int
  analysisCompletedAt : Option String

/-- The decision statuses a candidate ends with. -/
def FinalizeRequest.valid (r : FinalizeRequest) : Prop :=
  r.decisionStatus = .rejected ∨ r.decisionStatus = .unavailable ∨ r.decisionStatus = .failed

instance (r : FinalizeRequest) : Decidable r.valid := inferInstanceAs (Decidable (_ ∨ _ ∨ _))

/-- The row of a candidate that got no quote. -/
def FinalizeRequest.row (r : FinalizeRequest) (now : Int) (row : Row) : Row :=
  { row with
    decisionStatus := r.decisionStatus
    researchDecision := .rejected
    decisionReasons := boundedReasons r.decisionReasons
    quoteStatus := normalizedQuoteStatus r.quoteStatus
    paperExperimentStatus := .notEligible
    candidateV2PaperStatus := .notEligible
    safetyScore := r.safetyScore
    analysisCompletedAt := r.analysisCompletedAt
    status := .complete
    completedAt := some now }

/-- `finalize_candidate_without_quote`. -/
def finalizeCandidateWithoutQuote (r : FinalizeRequest) (now : Int) (rows : List Row) :
    Except ObservationError (Bool × Write) :=
  if r.valid then
    match findRow rows r.observationId with
    | none => .ok (false, .keep rows)
    | some _ => .ok (true, .retain (modifyRow rows r.observationId (r.row now)))
  else .error .unsupportedDecisionStatus

/-- The statuses a paper experiment can be given. -/
def PaperStatus.markable : PaperStatus → Bool
  | .eligible | .opened | .closed | .skippedCapacity | .failed => true
  | _ => false

/-- The row of a paper experiment with a new status. -/
def Row.marked (row : Row) (status : PaperStatus) (positionId : Option Uuid) : Row :=
  let marked :=
    { row with
      paperExperimentStatus := status
      paperExperimentPositionId := positionId
      candidateV2PaperStatus := if row.candidateV2Eligible then status else row.candidateV2PaperStatus
      candidateV2PositionId := if row.candidateV2Eligible then positionId else row.candidateV2PositionId }
  { marked with
    researchDecision := if status = .opened ∨ status = .closed then .entered
      else canonicalResearchDecision marked }

/-- `mark_paper_experiment_status`. -/
def markPaperExperimentStatus (observationId : ObservationId) (status : PaperStatus)
    (positionId : Option Uuid) (rows : List Row) : Except ObservationError (Bool × Write) :=
  if status.markable then
    match findRow rows observationId with
    | none => .ok (false, .keep rows)
    | some _ =>
      .ok (true, .retain (modifyRow rows observationId fun row => row.marked status positionId))
  else .error .unsupportedPaperStatus

/-! ## Samples -/

/-- The row with one more failed attempt. -/
def Row.attempted (row : Row) (interval : Interval) : Row :=
  { row with
    sampleAttempts := row.sampleAttempts.set interval ((row.sampleAttempts.get? interval).getD 0 + 1) }

/-- `record_sample_attempt`: the number of failed attempts, 0 where none is counted. -/
def recordSampleAttempt (observationId : ObservationId) (interval : Interval) (rows : List Row) :
    Nat × Write :=
  match findRow rows observationId with
  | none => (0, .keep rows)
  | some row =>
    if interval ∈ row.completedIntervals then (0, .keep rows)
    else (((row.attempted interval).sampleAttempts.get? interval).getD 0,
      .keep (modifyRow rows observationId fun row => row.attempted interval))

structure SampleResult where
  observationId : ObservationId
  interval : Interval
  proceedsLamports : Option Int
  error : Option String
  sampledAtEpoch : Option Int
  deriving DecidableEq, Repr

/-- The sample a result makes on a row. -/
def SampleResult.sample (result : SampleResult) (now : Int) (row : Row) : Sample :=
  let target := row.startedAtEpoch + result.interval.delay
  let sampledAt := result.sampledAtEpoch.getD now
  { interval := result.interval
    proceedsLamports := result.proceedsLamports
    returnPercent := result.proceedsLamports.bind fun proceeds =>
      if 0 < row.entryCostLamports then
        some (round4 (((proceeds : ℚ) / row.entryCostLamports - 1) * 100))
      else none
    error := result.error.bind fun error =>
      if error.isEmpty then none else some (String.ofList (error.toList.take 500))
    targetAtEpoch := target
    sampledAtEpoch := sampledAt
    sampleLag := max 0 (sampledAt - target) }

/-- The returns of the samples that have one. -/
def observedReturns (samples : List Sample) : List ℚ := samples.filterMap Sample.returnPercent

/-- `max([0.0, *returns])`, none without a return. -/
def excursion (extreme : ℚ → ℚ → ℚ) (samples : List Sample) : Option ℚ :=
  match observedReturns samples with
  | [] => none
  | returns => some (returns.foldl extreme 0)

/-- The row with one more sample; it completes with the last required horizon. -/
def Row.sampled (row : Row) (sample : Sample) (now : Int) : Row :=
  let samples := row.samples ++ [sample]
  let done := row.trackingProfile.requiredIntervals.all (· ∈ samples.map Sample.interval)
  { row with
    samples := samples
    candidateV2EarlyFailure :=
      if sample.interval = .m1 ∧ row.candidateV2Eligible then
        sample.returnPercent.map fun x => decide (x ≤ candidateV2EarlyFailurePercent)
      else row.candidateV2EarlyFailure
    mfePercent := excursion max samples
    maePercent := excursion min samples
    status := if done then .complete else row.status
    completedAt := if done then some (row.completedAt.getD now) else row.completedAt }

/-- `_apply_sample_to_document`: none where the sample does not apply. -/
def applySampleToDocument (result : SampleResult) (now : Int) (rows : List Row) : Option (List Row) :=
  match findRow rows result.observationId with
  | none => none
  | some row =>
    if row.terminal ∨ result.interval ∈ row.completedIntervals then none
    else some (modifyRow rows result.observationId fun row => row.sampled (result.sample now row) now)

structure AppliedSample where
  result : SampleResult
  mint : Mint
  routeType : RouteType
  completedSnapshot : Option Row

/-- The samples of a batch that apply, one after the other, and the rows after them. -/
def applySamples (now : Int) : List SampleResult → List Row → List SampleResult × List Row
  | [], rows => ([], rows)
  | result :: results, rows =>
    match applySampleToDocument result now rows with
    | none => applySamples now results rows
    | some rows' =>
      let x := applySamples now results rows'
      (result :: x.1, x.2)

/-- An applied sample with what its row is when the batch is saved. -/
def appliedSample (rows : List Row) (result : SampleResult) : Option AppliedSample :=
  (findRow rows result.observationId).map fun row =>
    { result := result
      mint := row.mint
      routeType := row.routeType
      completedSnapshot := if row.status = .complete then some row else none }

/-- The mutator of `record_sample_batch`. -/
def recordSampleBatchMutate (results : List SampleResult) (now : Int) (rows : List Row) :
    List AppliedSample × Write :=
  let x := applySamples now results rows
  if x.1.isEmpty then ([], .keep rows)
  else
    let expired := expireObservationBacklog now x.2
    (x.1.filterMap (appliedSample expired), .retain expired)

/-- `record_sample_batch`, up to the side effects. -/
def recordSampleBatch (results : List SampleResult) (now : Int) (rows : List Row) :
    Except ObservationError (List AppliedSample × Write) :=
  if results.isEmpty then .ok ([], .keep rows)
  else if observationSampleBatchSize < results.length then .error .batchTooLarge
  else .ok (recordSampleBatchMutate results now rows)

/-! ## Reconciliation and archive markers -/

/-- An old discovery that nothing has touched since. -/
def Row.interrupted (row : Row) (now grace : Int) : Bool :=
  row.status = .discovered && row.decisionStatus = .discovered && row.quoteStatus = "NOT_REQUESTED" &&
    row.trackingProfile = .researchV1_60m && row.analysisCompletedAt.isNone && row.entryQuoteAt.isNone &&
    row.decisionReasons.isEmpty && row.samples.isEmpty && row.sampleAttempts.entries.isEmpty &&
    row.paperExperimentPositionId.isNone && row.candidateV2PositionId.isNone &&
    row.paperExperimentStatus = .notEvaluated && grace ≤ now - row.startedAtEpoch

/-- The row of an interrupted discovery. -/
def Row.reconciled (row : Row) (now : Int) : Row :=
  { row with
    status := .complete
    decisionStatus := .interrupted
    decisionReasons := [discoveryProcessingInterrupted]
    quoteStatus := "PROCESSING_FAILED"
    researchDecision := .shadow
    paperExperimentStatus := .notEligible
    candidateV2PaperStatus := .notEligible
    completedAt := some now }

/-- `reconcile_interrupted_discoveries`; the grace is a minute at least. -/
def reconcileInterruptedDiscoveries (now grace : Int) (rows : List Row) : Nat × Write :=
  let hit (row : Row) : Bool := row.interrupted now (max 60000000 grace)
  ((rows.filter hit).length, .keep (rows.map fun row => if hit row then row.reconciled now else row))

/-- The row with the archive marker of its id, if there is one. -/
def Row.withMarker (markers : Dict ObservationId Int) (row : Row) : Row :=
  match markers.get? row.observationId with
  | some archivedAt => { row with archivedAt := some archivedAt }
  | none => row

/-- `_persist_archive_markers`, of the snapshots that have a marker. -/
def persistArchiveMarkers (snapshots : List Row) (rows : List Row) : Write :=
  let markers := Dict.ofList (snapshots.filterMap fun row => row.archivedAt.map (row.observationId, ·))
  if markers.entries.isEmpty then .keep rows else .retain (rows.map (Row.withMarker markers))

/-! ## One operation -/

/-- A call of one of the writers, with the clock reading it takes. -/
inductive ObservationOp
  | discovery (request : DiscoveryRequest) (now : Int)
  | decision (request : DecisionRequest) (now : Int)
  | finalize (request : FinalizeRequest) (now : Int)
  | mark (observationId : ObservationId) (status : PaperStatus) (positionId : Option Uuid)
  | sampleAttempt (observationId : ObservationId) (interval : Interval)
  | sampleBatch (results : List SampleResult) (now : Int)
  | reconcile (now grace : Int)

/-- What a call writes; one that raises writes nothing. -/
def ObservationOp.write (rows : List Row) : ObservationOp → Write
  | .discovery r now => (recordCandidateDiscovery r now rows).2
  | .decision r now => ((recordObservationDecision r now rows).map Prod.snd).toOption.getD (.keep rows)
  | .finalize r now => ((finalizeCandidateWithoutQuote r now rows).map Prod.snd).toOption.getD (.keep rows)
  | .mark id status positionId =>
    ((markPaperExperimentStatus id status positionId rows).map Prod.snd).toOption.getD (.keep rows)
  | .sampleAttempt id interval => (recordSampleAttempt id interval rows).2
  | .sampleBatch results now =>
    ((recordSampleBatch results now rows).map Prod.snd).toOption.getD (.keep rows)
  | .reconcile now grace => (reconcileInterruptedDiscoveries now grace rows).2

/-! ## A sample decision -/

/-- An approved executable decision. -/
def sampleDecision : DecisionRequest where
  mint := "mint"
  routeType := .A
  sourceWallet := "wallet"
  sourceSignature := "signature"
  safetyScore := 80
  entryCostLamports := 1000
  tokenAmountRaw := 1000
  dexMomentumScore := 0
  analysisCompletedAt := "2026-01-01T00:00:00+00:00"
  entryQuoteAt := "2026-01-01T00:00:01+00:00"
  decisionStatus := .approved
  decisionReasons := []
  quoteStatus := "EXECUTABLE"

end Aibot.Observation
