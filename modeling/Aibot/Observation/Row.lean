/-
The observation ledger `signal_observations.json`: its rows in the current schema, and the constants
and field helpers of `observation_tracker.py`. Field names are the JSON keys. Clock readings are
microseconds since the epoch; a timestamp text a row keeps is the reading it was made from.
-/
import Aibot.Lib.FirstMatch
import Aibot.Risk.Ledger

namespace Aibot.Observation

open Aibot.Risk

/-! ## Constants -/

@[irreducible] def maxObservations : Nat := 1000
@[irreducible] def maxActiveObservations : Nat := 200
def observationSampleBatchSize : Nat := 20
def maxSampleAttempts : Nat := 3
/-- `MAX_HORIZON_SAMPLE_LAG_SECONDS`, in microseconds. -/
def maxHorizonSampleLag : Int := 60000000
def archiveDrainBatchSize : Nat := 100
def candidateV2MinScore : ℚ := 90
def candidateV2MaxScore : ℚ := 100
/-- `CANDIDATE_V2_MINT_COOLDOWN_SECONDS`, in microseconds. -/
def candidateV2MintCooldown : Int := 86400000000
def candidateV2EarlyFailurePercent : ℚ := -10
def discoveryProcessingInterrupted : String := "DISCOVERY_PROCESSING_INTERRUPTED"

/-! ## Field types -/

/-- A horizon of `OBSERVATION_INTERVALS`. -/
inductive Interval
  | m1
  | m3
  | m5
  | m15
  | m30
  | m60
  deriving DecidableEq, Repr

def Interval.seconds : Interval → Int
  | .m1 => 60
  | .m3 => 180
  | .m5 => 300
  | .m15 => 900
  | .m30 => 1800
  | .m60 => 3600

/-- The delay of a horizon, in microseconds. -/
def Interval.delay (i : Interval) : Int := i.seconds * 1000000

/-- `OBSERVATION_INTERVALS`, in order. -/
def observationIntervals : List Interval := [.m1, .m3, .m5, .m15, .m30, .m60]

inductive Status
  | discovered
  | pending
  | complete
  | expiredUnsampled
  deriving DecidableEq, Repr

/-- `TERMINAL_OBSERVATION_STATUSES`. -/
def Status.terminal : Status → Bool
  | .complete | .expiredUnsampled => true
  | _ => false

inductive DecisionStatus
  | discovered
  | approved
  | rejected
  | unavailable
  | failed
  | interrupted
  deriving DecidableEq, Repr

/-- The values of `paper_experiment_status` and of `candidate_v2_paper_status`. -/
inductive PaperStatus
  | notEvaluated
  | legacyObservation
  | eligible
  | notEligible
  | opened
  | closed
  | skippedCapacity
  | failed
  deriving DecidableEq, Repr

inductive ResearchDecision
  | shadow
  | rejected
  | entered
  deriving DecidableEq, Repr

inductive TrackingProfile
  | legacy15m
  | researchV1_60m
  deriving DecidableEq, Repr

/-- `required_observation_intervals`. -/
def TrackingProfile.requiredIntervals : TrackingProfile → List Interval
  | .legacy15m => [.m1, .m5, .m15]
  | .researchV1_60m => observationIntervals

/-! ## Rows -/

structure Sample where
  interval : Interval
  proceedsLamports : Option Int
  returnPercent : Option ℚ
  error : Option String
  targetAtEpoch : Int
  sampledAtEpoch : Int
  sampleLag : Int
  deriving DecidableEq, Repr

structure Row where
  observationId : ObservationId
  mint : Mint
  routeType : RouteType
  researchDecision : ResearchDecision
  safetyScore : Option Int
  entryCostLamports : Int
  tokenAmountRaw : Int
  strategyVariants : List String
  candidateV2Eligible : Bool
  candidateV2FilterReasons : List String
  candidateV2EarlyFailure : Option Bool
  candidateV2PaperStatus : PaperStatus
  candidateV2PositionId : Option Uuid
  paperExperimentStatus : PaperStatus
  paperExperimentPositionId : Option Uuid
  decisionStatus : DecisionStatus
  decisionReasons : List String
  quoteStatus : String
  analysisCompletedAt : Option String
  entryQuoteAt : Option String
  startedAtEpoch : Int
  samples : List Sample
  sampleAttempts : Dict Interval Nat
  mfePercent : Option ℚ
  maePercent : Option ℚ
  trackingProfile : TrackingProfile
  status : Status
  completedAt : Option Int
  /-- `archived_at`, which is written together with `archive_schema_version` 1. -/
  archivedAt : Option Int

namespace Row

/-- The status is a terminal one. -/
def terminal (row : Row) : Bool := row.status.terminal

/-- The row carries the archive marker. -/
def archived (row : Row) : Bool := row.archivedAt.isSome

/-- What a research record says of a row. -/
def content (row : Row) : Status × DecisionStatus × List Sample :=
  (row.status, row.decisionStatus, row.samples)

/-- The intervals a row has samples of. -/
def completedIntervals (row : Row) : List Interval := row.samples.map Sample.interval

end Row

/-- `signal_type_for_route`, of the two routes there are. -/
def signalTypeForRoute : RouteType → String
  | .A => "SMART_MONEY"
  | .B => "MOMENTUM"

/-- `canonical_research_decision`. -/
def canonicalResearchDecision (row : Row) : ResearchDecision :=
  match row.paperExperimentStatus, row.decisionStatus with
  | .opened, _ | .closed, _ => .entered
  | _, .rejected | _, .unavailable | _, .failed => .rejected
  | _, _ => .shadow

/-- `round(x, 4)`: to the nearest, a tie to the even digit. -/
def round4 (x : ℚ) : ℚ :=
  let scaled := x * 10000
  let down := scaled.floor
  let rest := scaled - down
  let digits := if rest < 1 / 2 then down else if 1 / 2 < rest then down + 1
    else if down % 2 = 0 then down else down + 1
  digits / 10000

/-- `str.strip`. -/
def strip (s : String) : String :=
  String.ofList ((s.toList.dropWhile Char.isWhitespace).reverse.dropWhile Char.isWhitespace).reverse

/-- The row of an observation: the first with its id. -/
def findRow (rows : List Row) (observationId : ObservationId) : Option Row :=
  rows.find? fun row => row.observationId = observationId

/-- Change the row of an observation in place. -/
def modifyRow (rows : List Row) (observationId : ObservationId) (f : Row → Row) : List Row :=
  modifyFirst (fun row => row.observationId = observationId) f rows

end Aibot.Observation
