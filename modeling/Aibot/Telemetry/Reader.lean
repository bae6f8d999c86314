/-
The reader of the streams (`entry_telemetry_join.py`): the checks of a record and of its index entry,
`iter_stream` as it runs beside the writers, and `join_streams`.
-/
import Aibot.Lib.Join
import Aibot.Retention.Plan
import Aibot.Telemetry.Signal

namespace Aibot.Telemetry

open Store (JsonDocument Codec)

/-- Go on where the condition holds, raise the message where it does not. -/
def demand (condition : Bool) (message : String) : Except String Unit :=
  if condition then .ok () else .error message

/-- The value is a text that is not empty. -/
def isText : Json → Bool
  | .str s => s ≠ ""
  | _ => false

/-! ## Records -/

section Check

variable (pf : Platform)

/-- The hash of a document is the one it has. -/
def hashMatches (document : JsonDocument) : Bool :=
  (pf.digest (document.erase "content_hash")).any fun hash => (document.field "content_hash").isStr hash

/-- What `_validate` asks of the identity of a stream. -/
def validateIdentity (kind : RowKind) (document : JsonDocument) : Except String Unit :=
  match kind with
  | .predictor => demand (isText (nested document "identity" "signal_id") &&
      (document.get? "execution_receipt").isNone && (document.get? "outcome").isNone)
    "invalid predictor stream separation"
  | .receipt => demand (isText (nested document "identity" "signal_id") &&
      isText (nested document "identity" "trade_id")) "BUY receipt join identity missing"
  | .outcome => demand (isText (nested document "identity" "trade_id")) "completed outcome trade_id missing"

/-- `_validate`. -/
def validate (kind : RowKind) (document : JsonDocument) : Except String Unit := do
  demand (hashMatches pf document) "telemetry content hash mismatch"
  demand ((document.field "schema_version").eqInt kind.schema && (document.field kind.schemaField).eqInt kind.schema)
    "telemetry stream schema mismatch"
  demand (isText (nested document "identity" "mint")) "telemetry identity missing"
  demand (["telemetry_epoch_id", "build_sha", "session_id"].all fun key => isText (document.field key))
    "telemetry provenance missing"
  demand (isText (nested document "provenance" "config_fingerprint")) "telemetry config fingerprint missing"
  validateIdentity kind document

/-- What an index entry says of a record. -/
def expectedIndex (kind : RowKind) (path : String) (document : JsonDocument) : JsonDocument :=
  Dict.ofList
    [("index_schema_version", .int 1),
      ("telemetry_epoch_id", document.field "telemetry_epoch_id"),
      ("stream", .str kind.stream),
      ("identity", document.field "identity"),
      ("record_relative_path", .str path),
      ("record_content_hash", document.field "content_hash")]

/-- `_check_identity_index`, of the index entry under the hash of the record's key. -/
def checkIdentityIndex (kind : RowKind) (entry : Option (List Json.Token)) (path : String)
    (document : JsonDocument) : Except String Unit := do
  let tokens ← orRaise "No such file or directory" entry
  demand (pf.fileBytes tokens ≤ maxIndexBytes) "telemetry identity index byte bound exceeded"
  let index : JsonDocument ← orRaise "telemetry identity index must be an object" (Codec.load tokens)
  demand (hashMatches pf index) "telemetry identity index hash mismatch"
  demand ((Json.ofFields (index.erase "content_hash")).equal (.ofFields (expectedIndex kind path document)))
    "telemetry identity index linkage mismatch"

/-! ## `iter_stream` -/

/-- A decimal digit. -/
def digitOf (c : Char) : Option ℕ := if '0' ≤ c ∧ c ≤ '9' then some (c.toNat - '0'.toNat) else none

/-- `datetime.strptime(name, "%Y-%m-%d").date().isoformat() == name`. -/
def isDay (name : String) : Bool :=
  match name.toList with
  | [y₁, y₂, y₃, y₄, '-', m₁, m₂, '-', d₁, d₂] =>
    match [y₁, y₂, y₃, y₄, m₁, m₂, d₁, d₂].mapM digitOf with
    | some [y₁, y₂, y₃, y₄, m₁, m₂, d₁, d₂] =>
      let year := ((y₁ * 10 + y₂) * 10 + y₃) * 10 + y₄
      let month := m₁ * 10 + m₂
      let day := d₁ * 10 + d₂
      1 ≤ year && 1 ≤ month && month ≤ 12 && 1 ≤ day && day ≤ Retention.daysIn year month
    | _ => false
  | _ => false

/-- The name of the partition of a path. -/
def partitionOf (path : String) : String := String.ofList (path.toList.takeWhile (· ≠ '/'))

/-- The record under a path, up to the look at its index entry. -/
def readRecord (kind : RowKind) (epochId path : String) (tokens : List Json.Token) : Except String JsonDocument := do
  demand (isDay (partitionOf path)) "invalid telemetry date partition"
  demand (pf.fileBytes tokens ≤ maxRowBytes) "telemetry row byte bound exceeded"
  let document : JsonDocument ← orRaise "telemetry row must be an object" (Codec.load tokens)
  validate pf kind document
  demand ((document.field "telemetry_epoch_id").isStr epochId) "telemetry epoch directory mismatch"
  return document

end Check

/-- Where `iter_stream` stands: between two records, or between a record and its index entry. -/
inductive ReadPhase
  | scanning
  | checking (path : String) (document : JsonDocument)
  | raised (message : String)

/-- A reader of one stream, with the paths it has yielded and what it has yielded, the last one first. -/
structure Reader where
  kind : RowKind
  paths : List String
  yielded : List JsonDocument
  phase : ReadPhase

def Reader.start (kind : RowKind) : Reader := ⟨kind, [], [], .scanning⟩

/-- What a reader does next: it opens a record that the directory lists, or looks at the index. The directory
of the index may not be there yet. -/
inductive ReadEvent
  | opens (path : String)
  | checks (metadata : Bool)

def Reader.yields (reader : Reader) (path : String) (document : JsonDocument) : Reader :=
  { reader with paths := path :: reader.paths, yielded := document :: reader.yielded, phase := .scanning }

/-- One step of a reader over the files of its stream. -/
def stepReader (pf : Platform) (epochId : String) (d : StreamDir) (reader : Reader) : ReadEvent → Option Reader
  | .opens path =>
    match reader.phase, d.records path with
    | .scanning, some tokens =>
      if path ∈ reader.paths then none
      else
        match readRecord pf reader.kind epochId path tokens with
        | .ok document => some { reader with phase := .checking path document }
        | .error message => some { reader with phase := .raised message }
    | _, _ => none
  | .checks metadata =>
    match reader.phase with
    | .checking path document =>
      let entry := (keyOf reader.kind document).bind fun key => d.index (pf.keyHash key)
      if ¬ metadata then (if entry.isNone then some (reader.yields path document) else none)
      else
        match checkIdentityIndex pf reader.kind entry path document with
        | .ok _ => some (reader.yields path document)
        | .error message => some { reader with phase := .raised message }
    | _ => none

/-- The streams with the readers of them. -/
structure Watched where
  streams : Streams
  readers : ℕ → Option Reader

def Watched.start : Watched := ⟨.start, fun _ => none⟩

inductive WatchedAct
  | writes (act : PersistAct)
  | enters (i : ℕ) (kind : RowKind)
  | reads (i : ℕ) (event : ReadEvent)

def Watched.step (pf : Platform) (epochId : String) (s : Watched) : WatchedAct → Option Watched
  | .writes act => (s.streams.step pf act).map fun streams => { s with streams := streams }
  | .enters i kind =>
    match s.readers i with
    | none => some { s with readers := Function.update s.readers i (some (.start kind)) }
    | some _ => none
  | .reads i event =>
    (s.readers i).bind fun reader => (stepReader pf epochId (s.streams.dirs reader.kind) reader event).map fun reader =>
      { s with readers := Function.update s.readers i (some reader) }

/-! ## `join_streams` -/

section Join

/-- `_utc`. -/
def utcOf (dt : Datetimes) (stamp : Json) : Except String String :=
  match stamp with
  | .str text => do
    let instant ← orRaise "invalid signal timestamp" (instantOf dt text)
    orRaise "date value out of range" (dt.utcText instant)
  | _ => .error "invalid signal timestamp"

/-- The values of a key in two identities that both have it. -/
def sourceAgrees (left right : JsonDocument) (key : String) : Bool :=
  match ((identityOf left).getD .empty).get? key, ((identityOf right).getD .empty).get? key with
  | some x, some y => x.equal y
  | _, _ => true

/-- `_consistent`. -/
def consistent (dt : Datetimes) (left right : JsonDocument) : Except String Unit := do
  demand (["telemetry_epoch_id", "build_sha"].all fun key => (left.field key).equal (right.field key))
    "offline join epoch/build conflict"
  demand ((nested left "provenance" "config_fingerprint").equal (nested right "provenance" "config_fingerprint"))
    "offline join config fingerprint conflict"
  demand (["mint", "route_type", "strategy_family"].all fun key =>
      (nested left "identity" key).equal (nested right "identity" key)) "offline join identity conflict"
  demand (["source_wallet_hash", "source_signature_hash"].all (sourceAgrees left right))
    "offline join source identity conflict"
  let leftUtc ← utcOf dt (nested left "identity" "signal_detected_at")
  let rightUtc ← utcOf dt (nested right "identity" "signal_detected_at")
  demand (leftUtc = rightUtc) "offline join signal timestamp conflict"

/-- An epoch with an identity of one of its records. -/
abbrev JoinKey := String × String

def textOf : Json → String
  | .str s => s
  | _ => ""

/-- The identity of a record in a join, of texts as `_validate` leaves them. -/
def joinKey (kind : RowKind) (document : JsonDocument) : JoinKey :=
  (textOf (document.field "telemetry_epoch_id"), textOf (nested document "identity" kind.keyField))

/-- `_index`. -/
def indexRows (pf : Platform) (kind : RowKind) (rows : List JsonDocument) :
    Except String (Dict JoinKey JsonDocument) :=
  rows.foldlM (fun result row => do
    validate pf kind row
    demand (result.get? (joinKey kind row)).isNone "duplicate telemetry join identity"
    return result.set (joinKey kind row) row) .empty

inductive JoinStatus
  | completed
  | buyReceipt
  | missingReceipt
  | predictorOnly
  deriving DecidableEq, Repr

structure JoinRow where
  predictor : JsonDocument
  receipt : Option JsonDocument
  outcome : Option JsonDocument
  joinStatus : JoinStatus

/-- The variables of the loop over the predictors. -/
structure Joining where
  seenTrades : List JoinKey
  usedReceipts : List JoinKey
  usedOutcomes : List JoinKey
  rows : List JoinRow

/-- The key of the outcome of a receipt. -/
def tradeKey (key : JoinKey) (receipt : JsonDocument) : JoinKey :=
  (key.1, textOf (nested receipt "identity" "trade_id"))

def joinStatus (decision : Json) (receipt outcome : Option JsonDocument) : JoinStatus :=
  if outcome.isSome then .completed
  else if receipt.isSome then .buyReceipt
  else if decision.isStr "BUY" then .missingReceipt
  else .predictorOnly

/-- One predictor of the loop. -/
def joinPredictor (dt : Datetimes) (buys closed : Dict JoinKey JsonDocument) (j : Joining)
    (entry : JoinKey × JsonDocument) : Except String Joining := do
  let (key, predictor) := entry
  let decision := nested predictor "decision" "outcome"
  match buys.get? key with
  | none => return { j with rows := j.rows ++ [⟨predictor, none, none, joinStatus decision none none⟩] }
  | some receipt =>
    demand (decision.isStr "BUY") "non-BUY predictor has execution receipt"
    consistent dt predictor receipt
    let trade := tradeKey key receipt
    demand (trade ∉ j.seenTrades) "trade_id maps to multiple signals"
    let outcome := closed.get? trade
    let j : Joining := ⟨j.seenTrades ++ [trade], j.usedReceipts ++ [key], j.usedOutcomes,
      j.rows ++ [⟨predictor, receipt, outcome, joinStatus decision receipt outcome⟩]⟩
    match outcome with
    | none => return j
    | some outcome =>
      consistent dt receipt outcome
      let receiptSeq := nested receipt "identity" "event_seq"
      demand (receiptSeq.isNull || receiptSeq.equal (nested outcome "identity" "buy_event_seq"))
        "offline join BUY event_seq conflict"
      return { j with usedOutcomes := j.usedOutcomes ++ [trade] }

structure JoinResult where
  rows : List JoinRow
  orphanReceipts : List JsonDocument
  orphanOutcomes : List JsonDocument

/-- `join_streams`. -/
def joinStreams (pf : Platform) (dt : Datetimes) (predictors receipts outcomes : List JsonDocument) :
    Except String JoinResult := do
  let pred ← indexRows pf .predictor predictors
  let buys ← indexRows pf .receipt receipts
  let closed ← indexRows pf .outcome outcomes
  let j ← pred.entries.foldlM (joinPredictor dt buys closed) ⟨[], [], [], []⟩
  return ⟨j.rows, buys.orphans j.usedReceipts, closed.orphans j.usedOutcomes⟩

end Join

end Aibot.Telemetry
