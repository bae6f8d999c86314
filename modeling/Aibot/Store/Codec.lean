/-
The documents of the store as JSON objects: `json.dump`, `json.loads`, and the `version` field.
-/
import Aibot.Lib.Json
import Aibot.Store.Protocol

namespace Aibot.Store

/-- A JSON object, with its keys in order. -/
abbrev JsonDocument := Dict String Json

/-- `int(x or 0)`. -/
def intOrZero : Json → Option Int
  | .null | .str "" | .arr [] | .obj [] => some 0
  | .bool b => some (if b then 1 else 0)
  | .int n => some n
  | .float q => some (q.num.tdiv q.den)
  | .str s => s.toInt?
  | .arr _ | .obj _ | .other => none

instance : VersionedDocument JsonDocument where
  version document := intOrZero ((document.get? "version").getD (.int 0))
  setVersion v document := document.set "version" (.int v)
  version_setVersion v document := by rw [Dict.get?_set_self]; rfl

/-- What `json.loads` makes of a file; only an object is a document. -/
def loadDocument (tokens : List Json.Token) : Option JsonDocument :=
  match Json.parse tokens with
  | some (.obj fields) => some (Dict.ofList fields)
  | _ => none

instance : Codec JsonDocument Json.Token where
  dump document := Json.print (.obj document.entries)
  load := loadDocument
  load_dump document h := by
    unfold loadDocument
    rw [Json.parse_print h]
    exact congrArg some (Dict.ofList_entries document)

end Aibot.Store
