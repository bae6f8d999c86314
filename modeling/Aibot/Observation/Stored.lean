/-
The stored observation ledger as the JSON document it is, of any schema: the migration that every
writer runs first, and the snapshot that is read without the lock. A row is here whatever object the
file has; `Observation.Row` is a row in the current schema.
-/
import Aibot.Lib.Object
import Mathlib.Data.String.Basic

namespace Aibot.Observation.Stored

/-! ## Conversions -/

/-- What Python makes of texts, of values that are no text, and of clock readings. -/
structure Conversions where
  /-- `int(text)`, none where it raises. -/
  int : String → Option Int
  /-- `float(text)`, none where it raises or is not finite. -/
  float : String → Option ℚ
  /-- `str(x)` of a value that is no text. -/
  str : Json → String
  /-- `datetime.fromtimestamp(epoch, timezone.utc).isoformat()`. -/
  isoformat : ℚ → String

namespace Conversions

variable (py : Conversions)

/-- `int(x)`, of a float toward zero. -/
def toInt : Json → Option Int
  | .bool b => some b.toInt
  | .int n => some n
  | .float q => some (if 0 ≤ q then q.floor else q.ceil)
  | .str s => py.int s
  | _ => none

/-- `float(x)`. -/
def toFloat : Json → Option ℚ
  | .bool b => some b.toInt
  | .int n => some n
  | .float q => some q
  | .str s => py.float s
  | _ => none

/-- `str(x)`. -/
def text : Json → String
  | .str s => s
  | x => py.str x

/-- `_finite_or_none`. -/
def finiteOrNone : Json → Option ℚ
  | .bool _ | .null | .str "" => none
  | x => py.toFloat x

end Conversions

/-- A number, or null. -/
def number (x : Option ℚ) : Json := (x.map .float).getD .null

/-- A text, or null. -/
def textOrNull (x : Option String) : Json := (x.map .str).getD .null

/-- A list of texts. -/
def texts (xs : List String) : Json := .arr (xs.map .str)

/-- `str.upper`, on the letters whose upper case is ASCII. -/
def upperLetters (c : Char) : List Char :=
  match c with
  | 'ı' => ['I']
  | 'ſ' => ['S']
  | 'ß' => ['S', 'S']
  | 'ﬀ' => ['F', 'F']
  | 'ﬁ' => ['F', 'I']
  | 'ﬂ' => ['F', 'L']
  | 'ﬃ' => ['F', 'F', 'I']
  | 'ﬄ' => ['F', 'F', 'L']
  | 'ﬅ' | 'ﬆ' => ['S', 'T']
  | c => [c.toUpper]

def upper (s : String) : String := String.ofList (s.toList.flatMap upperLetters)

/-- `s[:n]`. -/
def clip (n : Nat) (s : String) : String := String.ofList (s.toList.take n)

/-- `str(x).upper() == name`, for a name that no value but a text is printed as. -/
def upperIs (x : Json) (name : String) : Bool :=
  match x with
  | .str s => upper s = name
  | _ => false

/-! ## Errors -/

/-- What a reader or a writer of the ledger raises. -/
inductive LedgerError
  | newerSchema
  | malformedLedger
  | malformedRow
  | malformedSamples
  | malformedSampleAttempts
  | malformedSafetyMetrics
  | malformedDecisionReasons
  | malformedDiscoveryMetadata
  | requiresStartupMigration
  | quoteAmountsNotPositive
  | unsupportedDecisionStatus
  | unsupportedCandidateStatus
  | unsupportedPaperStatus
  | unsupportedInterval
  | batchTooLarge
  /-- A conversion or a comparison that Python refuses. -/
  | typeError
  deriving DecidableEq, Repr

/-- The text of the exception. -/
def LedgerError.message : LedgerError → String
  | .newerSchema => "signal observation schema is newer than this service"
  | .malformedLedger => "signal observation ledger is malformed"
  | .malformedRow => "signal observation row is malformed"
  | .malformedSamples => "signal observation samples are malformed"
  | .malformedSampleAttempts => "signal observation sample attempts are malformed"
  | .malformedSafetyMetrics => "signal observation safety metrics are malformed"
  | .malformedDecisionReasons => "signal observation decision reasons are malformed"
  | .malformedDiscoveryMetadata => "signal observation discovery metadata is malformed"
  | .requiresStartupMigration => "signal observation ledger requires startup migration"
  | .quoteAmountsNotPositive => "observation quote amounts must be positive"
  | .unsupportedDecisionStatus => "unsupported observation decision status"
  | .unsupportedCandidateStatus => "unsupported candidate decision status"
  | .unsupportedPaperStatus => "unsupported paper experiment status"
  | .unsupportedInterval => "unsupported observation interval"
  | .batchTooLarge => "observation sample batch exceeds bounded size"
  | .typeError => ""

/-! ## Documents -/

/-- A row as it is stored. -/
abbrev Fields := Dict String Json

/-- The ledger as it is stored. -/
abbrev Document := Dict String Json

def observationSchemaVersion : Int := 5

/-- `OBSERVATION_INTERVALS`: the labels, with the seconds after the start. -/
def observationIntervals : List (String × Int) :=
  [("1m", 60), ("3m", 180), ("5m", 300), ("15m", 900), ("30m", 1800), ("60m", 3600)]

/-- `empty_observations`. -/
def emptyObservations (now : String) : Document :=
  Dict.ofList [("schema_version", .int observationSchemaVersion), ("observations", .arr []),
    ("updated_at", .str now), ("version", .int 0)]

/-- The rows of a document, which are objects after a migration. -/
def rowsOf (document : Document) : List Fields := (document.field "observations").items.filterMap Json.fields?

/-- `required_observation_intervals`. -/
def requiredObservationIntervals (row : Fields) : List String :=
  if (row.field "tracking_profile").isStr "legacy_15m" then ["1m", "5m", "15m"]
  else observationIntervals.map Prod.fst

/-- The samples of a row that are objects. -/
def samplesOf (row : Fields) : List Fields := (row.field "samples").items.filterMap Json.fields?

/-- A required interval has a sample; only a text can be its label. -/
def hasSample (row : Fields) (interval : String) : Bool :=
  (samplesOf row).any fun sample => (sample.field "interval").isStr interval

/-- `required_observation_intervals(row) <= completed_intervals`. -/
def fullySampled (row : Fields) : Bool := (requiredObservationIntervals row).all (hasSample row)

/-- `signal_type_for_route`. -/
def signalTypeForRoute (routeType : Json) : String :=
  if upperIs routeType "A" then "SMART_MONEY" else if upperIs routeType "B" then "MOMENTUM" else "UNKNOWN"

/-- `canonical_research_decision`. -/
def canonicalResearchDecision (row : Fields) : String :=
  let paperStatus := row.field "paper_experiment_status"
  let decisionStatus := row.field "decision_status"
  if upperIs paperStatus "OPENED" || upperIs paperStatus "CLOSED" then "ENTERED"
  else if upperIs decisionStatus "REJECTED" || upperIs decisionStatus "UNAVAILABLE" ||
      upperIs decisionStatus "FAILED" then "REJECTED"
  else "SHADOW"

/-! ## Migration -/

section Migration

variable (py : Conversions)

/-- The fields that the current schema adds to a row. -/
def defaults (legacySchema : Bool) (row : Fields) : List (String × Json) :=
  let legacyMfe := py.finiteOrNone (row.field "max_return_percent")
  let legacyMae := py.finiteOrNone (row.field "min_return_percent")
  [("strategy_version", .str "baseline_v1"),
    ("strategy_variants", texts ["baseline_v1"]),
    ("safety_metrics", .obj []),
    ("paper_experiment_status", .str "LEGACY_OBSERVATION"),
    ("paper_experiment_position_id", .null),
    ("candidate_v2_paper_status", .str "LEGACY_OBSERVATION"),
    ("candidate_v2_position_id", .null),
    ("sample_attempts", .obj []),
    ("samples", .arr []),
    ("decision_status", .str "APPROVED"),
    ("decision_reasons", .arr []),
    ("quote_status", .str "EXECUTABLE"),
    ("discovery_metadata", .obj []),
    ("signal_type", .str (signalTypeForRoute (row.field "route_type"))),
    ("research_decision", .str (canonicalResearchDecision row)),
    ("mfe_percent", number (legacyMfe.map (max 0))),
    ("mae_percent", number (legacyMae.map (min 0))),
    ("excursion_basis", .str "scheduled_jupiter_executable_quotes"),
    ("tracking_profile", .str (if legacySchema && upperIs (row.field "status") "COMPLETE" then "legacy_15m"
      else "research_v1_60m"))]

/-- The fields whose type is checked, in order, with the error of a wrong one. -/
def typedFields : List (String × (Json → Bool) × LedgerError) :=
  [("samples", Json.isArr, .malformedSamples),
    ("sample_attempts", Json.isObj, .malformedSampleAttempts),
    ("safety_metrics", Json.isObj, .malformedSafetyMetrics),
    ("decision_reasons", Json.isArr, .malformedDecisionReasons),
    ("discovery_metadata", Json.isObj, .malformedDiscoveryMetadata)]

/-- The error of the first field with a wrong type. -/
def wrongType (row : Fields) : Option LedgerError :=
  typedFields.findSome? fun t => if t.2.1 (row.field t.1) then none else some t.2.2

/-- A waiting row that has every sample it waits for. -/
def finished (row : Fields) : Bool := upperIs (row.field "status") "PENDING" && fullySampled row

/-- A finished row is complete since its last sample. -/
def completeRow (now : String) (row : Fields) : Fields :=
  let sampledAt := (samplesOf row).filterMap fun sample =>
    if (sample.field "sampled_at").truthy then some (py.text (sample.field "sampled_at")) else none
  let row := row.set "status" (.str "COMPLETE")
  if (row.field "completed_at").truthy then row
  else row.set "completed_at" (.str (sampledAt.max?.getD now))

/-- One row of the migration, and whether it changes. -/
def migrateRow (legacySchema : Bool) (now : String) (row : Fields) : Except LedgerError (Bool × Fields) :=
  let x := Dict.setDefaults (defaults py legacySchema row) row
  match wrongType x.2 with
  | some e => .error e
  | none => .ok (if finished x.2 then (true, completeRow py now x.2) else x)

def migrateRows (legacySchema : Bool) (now : String) : List Json → Except LedgerError (Bool × List Json)
  | [] => .ok (false, [])
  | item :: items => do
    let row ← orRaise .malformedRow item.fields?
    let x ← migrateRow py legacySchema now row
    let rest ← migrateRows legacySchema now items
    .ok (x.1 || rest.1, .ofFields x.2 :: rest.2)

/-- `int(document.get("schema_version", 1) or 1)`. -/
def schemaVersion (document : Document) : Option Int :=
  py.toInt ((document.field "schema_version").orElse (.int 1))

/-- `migrate_observation_document`: whether it changes the document, and the document after it. -/
def migrateObservationDocument (now : String) (document : Document) :
    Except LedgerError (Bool × Document) := do
  let version ← orRaise .typeError (schemaVersion py document)
  if observationSchemaVersion < version then .error .newerSchema
  else match (document.get? "observations").getD (.arr []) with
    | .arr items =>
      let x ← migrateRows py (version < observationSchemaVersion) now items
      let migrated := document.set "observations" (.arr x.2)
      if version ≠ observationSchemaVersion || x.1 then
        .ok (true, migrated.update
          [("schema_version", .int observationSchemaVersion), ("updated_at", .str now)])
      else .ok (false, migrated)
    | _ => .error .malformedLedger

/-- `read_observations_snapshot`, of a file that may be missing. -/
def readObservationsSnapshot (now : String) (file : Option Document) : Except LedgerError Document := do
  let x ← migrateObservationDocument py now (file.getD (emptyObservations now))
  if x.1 then .error .requiresStartupMigration else .ok x.2

end Migration

end Aibot.Observation.Stored
