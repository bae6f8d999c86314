/-
`_persist_stream` as its processes run it: one immutable file for each row, and before it an index entry
that reserves its identity over all days, both written under the lock of the stream. A step that writes
a file replaces it atomically; any step may raise, and any call may die with its process.
-/
import Aibot.Lib.Canonical
import Aibot.Lib.Object
import Aibot.Lib.Run
import Aibot.Store.Codec
import Aibot.Telemetry.Row

namespace Aibot.Telemetry

open Store (JsonDocument Codec)

/-! ## Bytes -/

def maxRowBytes : ℕ := 64 * 1024

/-- The bound under which an index entry is read. -/
def maxIndexBytes : ℕ := 4096

/-- The bytes of a character in a JSON text. -/
def charBytes (c : Char) : ℕ :=
  if c = '"' ∨ c = '\\' ∨ c = '\n' ∨ c = '\r' ∨ c = '\t' ∨ c.toNat = 8 ∨ c.toNat = 12 then 2
  else if c.toNat < 32 then 6
  else c.utf8Size

/-- What the recorder takes from its platform. -/
structure Platform where
  /-- `sha256` of a canonical text, in hex. -/
  sha256 : List Json.Token → String
  /-- `sha256` of a key, in hex. -/
  keyHash : String → String
  /-- The KST day of a time with its `Z` replaced, none where it raises. -/
  day : String → Option String
  /-- The length of `repr` of a float. -/
  floatBytes : ℚ → ℕ
  /-- The newline at the end of a file. -/
  newlineBytes : ℕ

namespace Platform

variable (pf : Platform)

def tokenBytes : Json.Token → ℕ
  | .null => 4
  | .bool b => if b then 4 else 5
  | .int n => (toString n).length
  | .float q => pf.floatBytes q
  | .str s => 2 + (s.toList.map charBytes).sum
  | .openArr | .closeArr | .openObj | .closeObj | .comma | .colon => 1

/-- The size of the file with a text. -/
def fileBytes (tokens : List Json.Token) : ℕ := Json.length pf.tokenBytes tokens + pf.newlineBytes

/-- `_digest`; none where it raises. -/
def digest (document : JsonDocument) : Option String := (Json.canonical (.ofFields document)).map pf.sha256

end Platform

/-- A document with its hash. -/
def sealed (document : JsonDocument) (hash : String) : JsonDocument := document.set "content_hash" (.str hash)

/-- The text that `atomic_write_json` writes. -/
def fileOf (document : JsonDocument) : List Json.Token := (Codec.dump document).1

/-- `_read_sealed`; none where it raises. -/
def readSealed (pf : Platform) (bound : ℕ) (tokens : List Json.Token) : Option JsonDocument :=
  if pf.fileBytes tokens > bound then none
  else
    (Codec.load tokens).bind fun value : JsonDocument =>
      let body := value.erase "content_hash"
      (pf.digest body).bind fun hash => if (value.field "content_hash").equal (.str hash) then some body else none

/-! ## Identities -/

namespace RowKind

/-- The stream of the rows. -/
def stream : RowKind → String
  | predictor => "predictors"
  | receipt => "receipts"
  | outcome => "outcomes"

/-- The identity field that names the file. -/
def keyField : RowKind → String
  | predictor | receipt => "signal_id"
  | outcome => "trade_id"

end RowKind

/-- `document["identity"]`. -/
def identityOf (document : JsonDocument) : Option JsonDocument := (document.field "identity").fields?

/-- The key of a row; none where it is no text. -/
def keyOf (kind : RowKind) (document : JsonDocument) : Option String :=
  (identityOf document).bind fun identity =>
    match identity.field kind.keyField with
    | .str key => some key
    | _ => none

/-- The characters of a file name. -/
def isFileChar (c : Char) : Bool := c.isAlphanum || c = '-' || c = '_'

/-- The key is one that a file name has. -/
def safeKey (key : String) : Bool := key ≠ "" && key.length ≤ 128 && key.toList.all isFileChar

/-- `{day}/{key}.json`. -/
def relativePath (day key : String) : String := day ++ "/" ++ key ++ ".json"

/-- `_record_path`, under the directory of the stream; none where it raises. -/
def recordPath (pf : Platform) (kind : RowKind) (document : JsonDocument) : Option String := do
  let identity ← identityOf document
  let key ← keyOf kind document
  if ¬ safeKey key then none
  else
    match identity.field "signal_detected_at" with
    | .str text => (pf.day (replaceZ text)).map fun day => relativePath day key
    | _ => none

/-- The reservation of an identity. -/
def reservation (kind : RowKind) (document : JsonDocument) (path hash : String) : JsonDocument :=
  Dict.ofList
    [("index_schema_version", .int 1),
      ("telemetry_epoch_id", document.field "telemetry_epoch_id"),
      ("stream", .str kind.stream),
      ("identity", document.field "identity"),
      ("record_relative_path", .str path),
      ("record_content_hash", .str hash)]

/-- The fields in which an index entry is the reservation of the row. -/
def reservationFields : List String :=
  ["index_schema_version", "telemetry_epoch_id", "stream", "identity", "record_relative_path"]

def sameReservation (index reserved : JsonDocument) : Bool :=
  reservationFields.all fun key => (index.field key).equal (reserved.field key)

/-- `document.get(name, {}).get(key)`. -/
def nested (document : JsonDocument) (name key : String) : Json :=
  match document.get? name with
  | some (.obj fields) => (Dict.ofList fields).field key
  | _ => .null

/-- The rows are the same up to what may differ between two recordings. -/
def sameRow (old new : JsonDocument) : Bool :=
  (old.field "identity").equal (new.field "identity") &&
    (nested old "execution_receipt" "trade_id").equal (nested new "execution_receipt" "trade_id") &&
    (nested old "execution_receipt" "event_seq").equal (nested new "execution_receipt" "event_seq") &&
    ((old.get? "outcome").getD (.obj [])).equal ((new.get? "outcome").getD (.obj [])) &&
    (nested old "decision" "outcome").equal (nested new "decision" "outcome")

/-! ## Calls -/

/-- The files of one stream. Records lie under their path, index entries under the hash of the key. -/
structure StreamDir where
  index : String → Option (List Json.Token)
  records : String → Option (List Json.Token)
  owner : Option Nat

/-- A call that exits or dies leaves its lock. -/
def StreamDir.unlock (d : StreamDir) (c : Nat) : StreamDir :=
  { d with owner := if d.owner = some c then none else d.owner }

structure PersistCall where
  kind : RowKind
  document : JsonDocument
  unsealed : document.get? "content_hash" = none

/-- What a call computes before the lock. -/
structure Prepared where
  hash : String
  path : String
  key : String

inductive PersistOutcome
  | written
  | duplicate
  | conflict
  | tooLarge
  /-- It raised, or timed out on the lock. -/
  | failed
  deriving DecidableEq, Repr

inductive PersistPhase
  | waiting (p : Prepared)
  /-- Looking for the index entry. -/
  | indexing (p : Prepared)
  /-- Looking for the record, with the index entry that is there. -/
  | recording (p : Prepared) (index : Option JsonDocument)
  /-- Writing an index entry; then the record, unless it is there. -/
  | reserving (p : Prepared) (reserved : JsonDocument) (recorded : Bool)
  | storing (p : Prepared)
  | leaving (outcome : PersistOutcome)
  | ended (outcome : PersistOutcome)
  | crashed

inductive PersistEvent
  | acquire
  | timeout
  | proceed
  | release
  | raises
  | crash

section Persist

variable (pf : Platform)

/-- The call up to the lock. -/
def PersistCall.enter (call : PersistCall) : PersistPhase :=
  match pf.digest call.document with
  | none => .ended .failed
  | some hash =>
    match Json.canonical (.ofFields (sealed call.document hash)) with
    | none => .ended .failed
    | some tokens =>
      if pf.fileBytes tokens > maxRowBytes then .ended .tooLarge
      else
        match recordPath pf call.kind call.document, keyOf call.kind call.document with
        | some path, some key => .waiting ⟨hash, path, key⟩
        | _, _ => .ended .failed

/-- One step of the call `c` on the files of its stream. -/
def stepPersist (c : Nat) (call : PersistCall) (d : StreamDir) :
    PersistPhase → PersistEvent → Option (StreamDir × PersistPhase)
  | .waiting p, .acquire => if d.owner = none then some ({ d with owner := some c }, .indexing p) else none
  | .waiting _, .timeout => some (d, .ended .failed)
  | .indexing p, .proceed =>
    match d.index (pf.keyHash p.key) with
    | none => some (d, .recording p none)
    | some tokens =>
      match readSealed pf maxIndexBytes tokens with
      | none => some (d, .leaving .conflict)
      | some index =>
        if ¬ sameReservation index (reservation call.kind call.document p.path p.hash) then some (d, .leaving .conflict)
        else if d.records p.path = none ∧ ¬ (index.field "record_content_hash").equal (.str p.hash) then
          some (d, .leaving .conflict)
        else some (d, .recording p (some index))
  | .recording p index, .proceed =>
    match d.records p.path, index with
    | some tokens, index =>
      match (readSealed pf maxRowBytes tokens).bind fun old => (pf.digest old).map fun hash => (old, hash) with
      | none => some (d, .leaving .conflict)
      | some (old, hash) =>
        if index.any fun index => ¬ (index.field "record_content_hash").equal (.str hash) then
          some (d, .leaving .conflict)
        else if ¬ sameRow old call.document then some (d, .leaving .conflict)
        else if index.isNone then some (d, .reserving p (reservation call.kind call.document p.path hash) true)
        else some (d, .leaving .duplicate)
    | none, none => some (d, .reserving p (reservation call.kind call.document p.path p.hash) false)
    | none, some _ => some (d, .storing p)
  | .reserving p reserved recorded, .proceed =>
    match pf.digest reserved with
    | none => some (d, .leaving .failed)
    | some hash =>
      some ({ d with index := Function.update d.index (pf.keyHash p.key) (some (fileOf (sealed reserved hash))) },
        if recorded then .leaving .duplicate else .storing p)
  | .storing p, .proceed =>
    some ({ d with records := Function.update d.records p.path (some (fileOf (sealed call.document p.hash))) },
      .leaving .written)
  | .leaving outcome, .release => some (d.unlock c, .ended outcome)
  | .waiting _, .raises => some (d, .ended .failed)
  | .indexing _, .raises | .recording _ _, .raises | .reserving _ _ _, .raises | .storing _, .raises =>
    some (d, .leaving .failed)
  | .leaving _, .raises => some (d.unlock c, .ended .failed)
  | .ended _, .crash | .crashed, .crash => none
  | _, .crash => some (d.unlock c, .crashed)
  | _, _ => none

/-! ## The streams -/

structure Streams where
  dirs : RowKind → StreamDir
  calls : Nat → Option (PersistCall × PersistPhase)

def Streams.start : Streams := ⟨fun _ => ⟨fun _ => none, fun _ => none, none⟩, fun _ => none⟩

inductive PersistAct
  | begins (c : Nat) (call : PersistCall)
  | happens (c : Nat) (event : PersistEvent)

def Streams.step (s : Streams) : PersistAct → Option Streams
  | .begins c call =>
    match s.calls c with
    | none => some { s with calls := Function.update s.calls c (some (call, call.enter pf)) }
    | some _ => none
  | .happens c event =>
    match s.calls c with
    | none => none
    | some (call, phase) =>
      (stepPersist pf c call (s.dirs call.kind) phase event).map fun x =>
        ⟨Function.update s.dirs call.kind x.1, Function.update s.calls c (some (call, x.2))⟩

end Persist

end Aibot.Telemetry
