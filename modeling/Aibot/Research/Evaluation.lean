/-
An evaluation as the hypothesis registry takes it over: the reasons against a hypothesis and its status,
recomputed from the metrics of the report, and the registry with these statuses.
-/
import Aibot.Lib.Canonical
import Aibot.Observation.Stored
import Aibot.Store.Codec

namespace Aibot.Research

open Observation.Stored (Conversions texts)
open Store (JsonDocument VersionedDocument)

/-! ## The status of a hypothesis -/

def minTotalSampled : Int := 50
def minFutureUniqueMints : Int := 15
def minTrackableCoveragePercent : ℚ := 80
def minPositiveUtcDays : Int := 2
def primaryHorizon : String := "60m"

inductive FutureStatus
  | insufficient
  | negative
  | promising
  deriving DecidableEq, Repr

namespace FutureStatus

def name : FutureStatus → String
  | insufficient => "FUTURE_INSUFFICIENT"
  | negative => "FUTURE_NEGATIVE"
  | promising => "FUTURE_PROMISING"

/-- `FUTURE_TO_REGISTRY_STATUS`. -/
def registryStatus : FutureStatus → String
  | insufficient => "FUTURE_VALIDATING"
  | negative => "FUTURE_FAILED"
  | promising => "FUTURE_PROMISING"

/-- `_future_status`. -/
def ofReasons (reasons : List String) : FutureStatus :=
  if reasons.any (["SAMPLE_TOO_SMALL", "INSUFFICIENT_UNIQUE_MINTS", "INSUFFICIENT_COVERAGE",
      "INSUFFICIENT_CHRONOLOGICAL_COVERAGE"].contains ·) then insufficient
  else if reasons.isEmpty then promising
  else negative

end FutureStatus

section Metrics

variable (py : Conversions) (metrics : JsonDocument)

/-- `int(metrics.get(key, 0) or 0)`. -/
def count (key : String) : Option Int := py.toInt ((metrics.field key).orElse (.int 0))

/-- A comparison with a number; it raises for a value that is none. -/
def compares (below : ℚ → Bool) : Json → Option Bool
  | .bool b => some (below b.toInt)
  | .int n => some (below n)
  | .float q => some (below q)
  | _ => none

/-- `x is None or below(x)`. -/
def missingOr (key : String) (below : ℚ → Bool) : Option Bool :=
  if (metrics.field key).isNull then some true else compares below (metrics.field key)

/-- `x is not None and below(x)`. -/
def presentAnd (key : String) (below : ℚ → Bool) : Option Bool :=
  if (metrics.field key).isNull then some false else compares below (metrics.field key)

/-- `fast_falsification_reasons`; none where it raises. -/
def fastFalsificationReasons : Option (List String) := do
  let sampled ← count py metrics "completed_outcome_count"
  let mints ← count py metrics "unique_mint_count"
  let uncovered ← missingOr metrics "coverage_percent" fun x => x < minTrackableCoveragePercent
  let days ← count py metrics "completed_utc_day_count"
  let negative ← presentAnd metrics "expectancy_percent" fun x => x ≤ 0
  let negativeMedian ← presentAnd metrics "median_return_percent" fun x => x < 0
  -- what is read only of a sample that is there
  let extreme ← if sampled > 1 then missingOr metrics "top_winner_removed_expectancy_percent" fun x => x ≤ 0
    else some false
  let positiveDays ← if sampled ≠ 0 then count py metrics "positive_utc_day_count" else some minPositiveUtcDays
  return [("SAMPLE_TOO_SMALL", decide (sampled < minTotalSampled)),
    ("INSUFFICIENT_UNIQUE_MINTS", decide (mints < minFutureUniqueMints)),
    ("INSUFFICIENT_COVERAGE", uncovered),
    ("INSUFFICIENT_CHRONOLOGICAL_COVERAGE", decide (days < 2)),
    ("ONE_MINT_DEPENDENCY", decide (sampled ≠ 0 ∧ mints ≤ 1)),
    ("NEGATIVE_EXPECTANCY", negative),
    ("PROFIT_FACTOR_NOT_ABOVE_ONE", decide (sampled ≠ 0) && !(metrics.field "profit_factor_above_one").isTrue),
    ("NEGATIVE_MEDIAN", negativeMedian),
    ("EXTREME_WINNER_DEPENDENCY", extreme),
    ("ONLY_ONE_OR_ZERO_POSITIVE_DAY", decide (positiveDays < minPositiveUtcDays))].filterMap
      fun reason => if reason.2 then some reason.1 else none

end Metrics

/-! ## The rows of a report -/

section Report

variable (py : Conversions)

/-- `str(item.get(key) or "")`. -/
def textOf (item : JsonDocument) (key : String) : String := py.text ((item.field key).orElse (.str ""))

/-- The hypothesis of a row of the report and its status; none where a check of the row fails. -/
def evaluatedRow (item : Json) : Option (String × String) := do
  let item ← item.fields?
  let horizons ← (item.field "horizons").fields?
  let primaryViews ← (horizons.field primaryHorizon).fields?
  let primaryMetrics ← (primaryViews.field "first_signal_per_mint").fields?
  let reasons ← fastFalsificationReasons py primaryMetrics
  let expected := FutureStatus.ofReasons reasons
  let hypothesisId := textOf py item "hypothesis_id"
  let status := textOf py item "registry_status_after_evaluation"
  guard (hypothesisId ≠ "" ∧ (item.field "falsification_reasons").equal (texts reasons) ∧
    textOf py item "future_status" = expected.name ∧ expected.registryStatus = status)
  return (hypothesisId, status)

/-- The statuses of the rows, by hypothesis; none where a hypothesis has two rows. -/
def evaluatedStatuses : List Json → Dict String String → Option (Dict String String)
  | [], statuses => some statuses
  | item :: items, statuses => do
    let (hypothesisId, status) ← evaluatedRow py item
    if (statuses.get? hypothesisId).isSome then none
    else evaluatedStatuses items (statuses.set hypothesisId status)

/-- `_evaluation_run_id`; none where it raises. -/
def evaluationRunId (sha256 : List Json.Token → String) (report : JsonDocument) : Option String :=
  (Json.canonical (.ofFields (Dict.ofList
    [("generated_at", report.field "generated_at"),
      ("registry_source_version", report.field "registry_source_version"),
      ("registry_mode", report.field "registry_mode"),
      ("discovery_boundary", report.field "discovery_boundary"),
      ("input_summary", report.field "input_summary"),
      ("hypotheses", report.field "hypotheses")]))).map sha256

end Report

/-! ## The registry -/

/-- What an evaluator takes from its platform, and what `validate_registry` accepts. -/
structure Evaluator where
  py : Conversions
  /-- `sha256` of a canonical text, in hex. -/
  sha256 : List Json.Token → String
  /-- `validate_registry` does not raise. -/
  valid : JsonDocument → Bool

/-- The list of hypotheses; none where there is no list. -/
def hypothesesOf (registry : JsonDocument) : Option (List Json) :=
  match registry.get? "hypotheses" with
  | some (.arr items) => some items
  | _ => none

/-- `item[key]` of a dictionary. -/
def itemField (key : String) (item : Json) : Option Json := item.fields?.bind fun item => item.get? key

/-- `item["status"] = statuses[str(item["hypothesis_id"])]`. -/
def withStatus (py : Conversions) (statuses : Dict String String) (item : Json) : Option Json := do
  let item ← item.fields?
  let hypothesisId ← item.get? "hypothesis_id"
  let status ← statuses.get? (py.text hypothesisId)
  return .ofFields (item.set "status" (.str status))

namespace Evaluator

variable (ev : Evaluator)

/-- `registry_with_evaluation_statuses`; none where it raises. -/
def registryWithEvaluationStatuses (registry report : JsonDocument) : Option JsonDocument := do
  guard (ev.valid registry)
  let sourceVersion ← VersionedDocument.version registry
  guard ((report.field "registry_source_version").eqInt sourceVersion)
  guard ((report.field "registry_mode").equal (registry.field "registry_mode") ∧
    (report.field "discovery_boundary").equal (registry.field "discovery_boundary"))
  let runId := textOf ev.py report "evaluation_run_id"
  guard (runId.length = 64 ∧ evaluationRunId ev.sha256 report = some runId)
  let rows ← hypothesesOf report
  let statuses ← evaluatedStatuses ev.py rows Dict.empty
  let hypotheses ← hypothesesOf registry
  let ids ← hypotheses.mapM fun item => (itemField "hypothesis_id" item).map ev.py.text
  guard ((∀ id ∈ statuses.entries.map Prod.fst, id ∈ ids) ∧ ∀ id ∈ ids, id ∈ statuses.entries.map Prod.fst)
  let updated ← hypotheses.mapM (withStatus ev.py statuses)
  let registry := registry.update
    [("hypotheses", .arr updated),
      ("last_evaluated_at", report.field "generated_at"),
      ("last_evaluation_run_id", .str runId),
      ("last_evaluation_source_version", .int sourceVersion)]
  guard (ev.valid registry)
  return registry

/-- The fingerprint of each hypothesis, as a dictionary; none where it raises. -/
def fingerprints (registry : JsonDocument) : Option Json := do
  let hypotheses ← hypothesesOf registry
  let pairs ← hypotheses.mapM fun item => do
    let id ← itemField "hypothesis_id" item
    let fingerprint ← itemField "definition_fingerprint" item
    return (ev.py.text id, Json.str (ev.py.text fingerprint))
  return .ofFields (Dict.ofList pairs)

end Evaluator

/-! ## Agreement -/

section Agrees

variable (py : Conversions)

/-- The id and the status of a hypothesis in the registry. -/
def registryPair (item : Json) : String × Json :=
  let item := item.fields?.getD Dict.empty
  (py.text (item.field "hypothesis_id"), item.field "status")

/-- The id and the status of a hypothesis in the report. -/
def reportPair (item : Json) : String × Json :=
  let item := item.fields?.getD Dict.empty
  (textOf py item "hypothesis_id", .str (textOf py item "registry_status_after_evaluation"))

/-- The run and the statuses of the registry are those of the report. -/
structure Agrees (registry report : JsonDocument) : Prop where
  run : registry.field "last_evaluation_run_id" = .str (textOf py report "evaluation_run_id")
  statuses : ∀ p, p ∈ (registry.field "hypotheses").items.map (registryPair py) ↔
    p ∈ (report.field "hypotheses").items.map (reportPair py)

/-! ### What the registry takes over -/

variable {py}

theorem evaluatedRow_pair {item : Json} {p : String × String} (h : evaluatedRow py item = some p) :
    reportPair py item = (p.1, .str p.2) := by
  simp only [evaluatedRow, bind, Option.bind_eq_some_iff, Option.guard_eq_some', pure] at h
  obtain ⟨fields, hfields, -, -, -, -, -, -, -, -, -, -, h⟩ := h
  obtain rfl := Option.some.inj h
  unfold reportPair
  rw [hfields]
  rfl

/-- The statuses are those of the rows, and those that were there. -/
theorem get?_evaluatedStatuses : ∀ {items : List Json} {statuses result : Dict String String},
    evaluatedStatuses py items statuses = some result → ∀ id status,
      result.get? id = some status ↔ statuses.get? id = some status ∨ (id, .str status) ∈ items.map (reportPair py)
  | [], statuses, result, h, id, status => by
    obtain rfl := Option.some.inj h
    simp
  | item :: items, statuses, result, h, id, status => by
    rw [evaluatedStatuses] at h
    obtain ⟨⟨id', status'⟩, hrow, h⟩ := Option.bind_eq_some_iff.1 h
    dsimp only at h
    split_ifs at h with hnew
    rw [Bool.not_eq_true, Option.isSome_eq_false_iff, Option.isNone_iff_eq_none] at hnew
    rw [get?_evaluatedStatuses h id status, List.map_cons, List.mem_cons, evaluatedRow_pair hrow, ← or_assoc]
    refine or_congr_left ?_
    by_cases hid : id = id'
    · subst hid
      rw [Dict.get?_set_self, hnew]
      simp [eq_comm]
    · rw [Dict.get?_set_of_ne _ _ hid]
      simp [hid]

theorem withStatus_pair {statuses : Dict String String} {item item' : Json}
    (h : withStatus py statuses item = some item') : ∃ status,
      statuses.get? (registryPair py item').1 = some status ∧ (registryPair py item').2 = .str status ∧
      (itemField "hypothesis_id" item).map py.text = some (registryPair py item').1 := by
  simp only [withStatus, bind, Option.bind_eq_some_iff, pure] at h
  obtain ⟨fields, hfields, id, hid, status, hstatus, h⟩ := h
  obtain rfl := Option.some.inj h
  have hpair : registryPair py (.ofFields (fields.set "status" (.str status))) = (py.text id, .str status) := by
    unfold registryPair
    rw [Json.fields?_ofFields, Option.getD_some]
    dsimp only
    rw [Dict.field_set_of_ne _ _ (by decide), Dict.field_set_self, Dict.field_of_get? hid]
  rw [hpair]
  refine ⟨status, hstatus, rfl, ?_⟩
  unfold itemField
  rw [hfields, Option.bind_some, hid]
  rfl

theorem hypothesesOf_items {document : JsonDocument} {items : List Json} (h : hypothesesOf document = some items) :
    (document.field "hypotheses").items = items := by
  unfold hypothesesOf at h
  split at h
  · rename_i hget
    obtain rfl := Option.some.inj h
    rw [Dict.field_of_get? hget]
    rfl
  · cases h

/-- Neither document is read at another key. -/
theorem Agrees.set {registry report : JsonDocument} (h : Agrees py registry report) {key key' : String}
    (hkey : key ∉ ["last_evaluation_run_id", "hypotheses"]) (hkey' : key' ∉ ["evaluation_run_id", "hypotheses"])
    (x y : Json) : Agrees py (registry.set key x) (report.set key' y) := by
  simp only [List.mem_cons, List.not_mem_nil, or_false, not_or] at hkey hkey'
  constructor
  · unfold textOf
    rw [Dict.field_set_of_ne _ _ (Ne.symm hkey.1), Dict.field_set_of_ne _ _ (Ne.symm hkey'.1)]
    exact h.run
  · rw [Dict.field_set_of_ne _ _ (Ne.symm hkey.2), Dict.field_set_of_ne _ _ (Ne.symm hkey'.2)]
    exact h.statuses

/-- The registry with the statuses of a report agrees with it. -/
theorem agrees_of_evaluation {ev : Evaluator} {registry report updated : JsonDocument}
    (h : ev.registryWithEvaluationStatuses registry report = some updated) : Agrees ev.py updated report := by
  simp only [Evaluator.registryWithEvaluationStatuses, bind, Option.bind_eq_some_iff, Option.guard_eq_some',
    pure] at h
  obtain ⟨-, -, source, -, -, -, -, -, -, -, rows, hrows, statuses, hstatuses, hypotheses, -, ids, hids, -,
    ⟨hknown, -⟩, items, hitems, -, -, h⟩ := h
  obtain rfl := Option.some.inj h
  have hget := get?_evaluatedStatuses hstatuses
  simp only [Dict.get?_empty, reduceCtorEq, false_or] at hget
  constructor
  · exact Dict.field_update_of_mem _ (by simp) (by simp)
  · rintro ⟨id, x⟩
    rw [Dict.field_update_of_mem _ (x := .arr items) (by simp) (by simp), hypothesesOf_items hrows]
    constructor
    · intro hmem
      obtain ⟨item', hitem', hpair⟩ := List.mem_map.1 hmem
      obtain ⟨item, -, hitem⟩ := exists_of_mem_results hitems hitem'
      obtain ⟨status, hstatus, hx, -⟩ := withStatus_pair hitem
      rw [hpair] at hstatus hx
      obtain rfl : x = .str status := hx
      exact (hget id status).1 hstatus
    · intro hmem
      obtain ⟨row, hrow, hpair⟩ := List.mem_map.1 hmem
      obtain ⟨status, rfl⟩ : ∃ status, x = .str status := ⟨_, (congrArg Prod.snd hpair).symm⟩
      have hstatus := (hget id status).2 hmem
      have hid : id ∈ ids := hknown id (List.mem_map.2 ⟨(id, status), Dict.get?_eq_some.1 hstatus, rfl⟩)
      obtain ⟨item, hitem, hkey⟩ := exists_of_mem_results hids hid
      obtain ⟨item', hitem', hwith⟩ := exists_of_mem_mapM hitems hitem
      obtain ⟨status', hstatus', hx, hkey'⟩ := withStatus_pair hwith
      obtain rfl : id = (registryPair ev.py item').1 := Option.some.inj (hkey.symm.trans hkey')
      obtain rfl : status = status' := Option.some.inj (hstatus.symm.trans hstatus')
      exact List.mem_map.2 ⟨item', hitem', Prod.ext rfl hx⟩

end Agrees

end Aibot.Research
