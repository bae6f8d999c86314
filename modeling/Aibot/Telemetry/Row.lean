/-
The rows that the worker makes of a finished capture: the predictors as they stood at the decision, and
the receipt of a purchase.
-/
import Aibot.Telemetry.Capture

namespace Aibot.Telemetry

/-! ## The recorder -/

/-- `_provenance` and `_epoch` of a recorder process. The configuration is the projected one. -/
structure Recorder where
  epochId : Value
  provenance : Dict String Value
  safeConfig : Value

def provenanceFields : List String :=
  ["git_sha", "source_digest", "source_scope", "config_fingerprint", "config_scope", "platform", "os",
    "python_version", "runtime", "process_id", "session_id", "process_start_timestamp",
    "process_start_semantics", "telemetry_schema_version", "missing_reason"]

/-- The kinds of rows. -/
inductive RowKind
  | predictor
  | receipt
  | outcome
  deriving DecidableEq, Repr

namespace RowKind

/-- `SCHEMAS`. -/
def schema : RowKind → ℤ
  | predictor => 2
  | receipt => 1
  | outcome => 1

def schemaField : RowKind → String
  | predictor => "predictor_schema_version"
  | receipt => "receipt_schema_version"
  | outcome => "outcome_schema_version"

end RowKind

namespace Recorder

variable (r : Recorder)

/-- `_provenance.get(key)`. -/
def get (key : String) : Value := (r.provenance.get? key).getD .none

/-- `_envelope`. -/
def envelope (kind : RowKind) : Option (List (String × Value)) := do
  let provenance ← provenanceFields.mapM fun key => return (key, ← projectAlone .scalar (r.get key))
  return [("schema_version", .int kind.schema), (kind.schemaField, .int kind.schema),
    ("telemetry_epoch_id", r.epochId), ("build_sha", r.get "git_sha"), ("session_id", r.get "session_id"),
    ("provenance", .ofItems (provenance ++ [("safe_config", r.safeConfig)]))]

end Recorder

/-! ## Predictors -/

namespace Capture

variable (dt : Datetimes) (c : Capture)

/-- `_identity`; it raises where a text is not kept. -/
def identityItems : Option (List (String × Value)) := do
  let id := c.identity
  let signalId ← safeAlone (.str id.signalId)
  let mint ← safeAlone (.str id.mint)
  let routeType ← safeAlone (.str id.routeType)
  let strategyFamily ← safeAlone (.str id.strategyFamily)
  let signalDetectedAt ← safeAlone (.str id.signalDetectedAt)
  let sourceWalletHash ← safeAlone (.ofText id.sourceWalletHash)
  let sourceSignatureHash ← safeAlone (.ofText id.sourceSignatureHash)
  if signalId.isNone ∨ mint.isNone ∨ ¬ (routeType.isStr "A" ∨ routeType.isStr "B") then none
  else some [("signal_id", signalId), ("mint", mint), ("route_type", routeType), ("strategy_family", strategyFamily),
    ("signal_detected_at", signalDetectedAt), ("source_wallet_hash", sourceWalletHash),
    ("source_signature_hash", sourceSignatureHash)]

/-- `_timestamp`. -/
def stampValue : Option Stamp → Option Value
  | none => some .none
  | some stamp => do
    let wallUtc ← safeAlone (.str stamp.wallUtc)
    let monotonicNs ← safeAlone ((stamp.monotonicNs.map Value.int).getD .none)
    let semantics ← safeAlone (.ofText stamp.semantics)
    return .ofItems [("wall_utc", wallUtc), ("monotonic_ns", monotonicNs), ("semantics", semantics)]

/-- `capture.sections.get(name)`. -/
def sectionValue (name : String) : Value :=
  ((c.sections.get? name).map fun fields => .ofItems fields.entries).getD .none

/-- `isinstance(value.get("snapshot_at_epoch"), (int, float)) and value["snapshot_at_epoch"] <= boundary`. -/
def notLater (boundary : Double) (snapshot : Value) : Bool :=
  match snapshot.get "snapshot_at_epoch" with
  | .bool b => (b.toInt : ℚ) ≤ boundary.val
  | .int n => (n : ℚ) ≤ boundary.val
  | .float (.finite x) => x ≤ boundary
  | .float (.infinite negative) => negative
  | _ => false

/-- The time of the signal; none where it raises. -/
def boundary : Option Double := (dt.fromisoformat c.identity.signalDetectedAt).bind dt.timestamp

/-- The lists of the trajectory, without what is later than the signal. -/
def boundTrajectory (item : Key × Value) : Option (Key × Value) :=
  match item with
  | (.str key, .list snapshots) =>
    if key = "history" ∨ key = "pre_signal_snapshots" then
      (c.boundary dt).map fun boundary => (.str key, .list (snapshots.filter (notLater boundary)))
    else some item
  | item => some item

/-- A section of the row. -/
def rowSection (name : String) : Option Value := do
  let projected ← projectAlone (sectionShape name) (c.sectionValue name)
  if name = "wallet_performance" then return .ofItems noWalletPerformance
  else if name = "trajectory" then
    match projected with
    | .dict items => return .dict (← items.mapM (c.boundTrajectory dt))
    | _ => none
  else return projected

/-- `"predictors"` of the row. -/
def predictors : Option Value := do
  let timestamps ← (timestampNames ++ ["signal_detected_at"]).mapM fun name =>
    return (name, ← stampValue (c.stampOf name))
  let sections ← ((sectionFields.map Prod.fst).filter (· ≠ "decision")).mapM fun name =>
    return (name, ← c.rowSection dt name)
  let counters ← counterNames.mapM fun name =>
    return (name, ← projectAlone .scalar ((c.counters.get? name).getD .none))
  let durations ← durationNames.mapM fun name =>
    return (name, ← projectAlone .scalar ((c.durations.get? name).getD .none))
  return .ofItems [("timestamps", .ofItems timestamps),
    ("timestamp_missing_reason", .str "null means not reached or unavailable in existing flow"),
    ("sections", .ofItems sections), ("counters", .ofItems counters), ("durations", .ofItems durations)]

/-- The decision of the row: its fields, with the outcome. -/
def rowDecision : Option (List (Key × Value) × String) :=
  match projectAlone (sectionShape "decision") (c.sectionValue "decision") with
  | some (.dict items) => do
    let outcome ← knownOutcome ((Value.dict items).get "outcome")
    some ((items.filter fun p => p.1 ≠ .str "outcome") ++ [(.str "outcome", .str outcome)], outcome)
  | _ => none

/-- `collection_limits` of the row. -/
def collectionLimits : Value :=
  .ofItems [("mapping_or_list_items", .int maxItems), ("string_characters", .int maxString),
    ("nested_depth", .int maxDepth), ("capture_nodes", .int maxCaptureNodes),
    ("capture_string_characters", .int maxCaptureCharacters),
    ("capture_budget_exhausted", .bool (c.safeBudget.nodes ≤ 0 || c.safeBudget.characters ≤ 0)),
    ("semantics", .str "bounded prefix only; raw lists may be truncated; count fields preserve upstream counts")]

/-- `_row`; none where it raises. -/
def row (r : Recorder) : Option Value := do
  let predictors ← c.predictors dt
  let (decision, outcome) ← c.rowDecision
  let envelope ← r.envelope .predictor
  let identity ← c.identityItems
  return .ofItems (envelope ++ [("identity", .ofItems (identity ++ [("trade_id", .none), ("event_seq", .none)])),
    ("decision", .dict decision), ("decision_outcome", .str outcome), ("predictors", predictors),
    ("collection_limits", c.collectionLimits)])

/-- `_receipt_row`; none where it raises. -/
def receiptRow (r : Recorder) : Option Value := do
  let envelope ← r.envelope .receipt
  let identity ← c.identityItems
  let created ← stampValue c.receipt.paperBuyCreatedAt
  return .ofItems (envelope ++ [
    ("identity", .ofItems (identity ++ [("trade_id", c.receipt.tradeId), ("event_seq", c.receipt.eventSeq)])),
    ("execution_receipt", .ofItems [("trade_id", c.receipt.tradeId), ("event_seq", c.receipt.eventSeq),
      ("paper_buy_created_at", created),
      ("semantics", .str "post-decision execution identity; never entry predictor")])])

end Capture

end Aibot.Telemetry
