/-
The documents of the current schema, and that the migration makes any document one and leaves those
alone.
-/
import Aibot.Observation.Stored

namespace Aibot.Observation.Stored

/-! ## Rows of the current schema -/

/-- The fields that the current schema has added to a row. -/
def defaultKeys : List String :=
  ["strategy_version", "strategy_variants", "safety_metrics", "paper_experiment_status",
    "paper_experiment_position_id", "candidate_v2_paper_status", "candidate_v2_position_id",
    "sample_attempts", "samples", "decision_status", "decision_reasons", "quote_status",
    "discovery_metadata", "signal_type", "research_decision", "mfe_percent", "mae_percent",
    "excursion_basis", "tracking_profile"]

/-- A row that has every field, each of its type. -/
structure TypedRow (row : Fields) : Prop where
  keys : ∀ key ∈ defaultKeys, (row.get? key).isSome = true
  typed : ∀ t ∈ typedFields, t.2.1 (row.field t.1) = true

/-- A row that the migration has nothing to do with: it does not wait for samples that are all there. -/
structure CurrentRow (row : Fields) : Prop extends TypedRow row where
  unfinished : finished row = false

theorem wrongType_eq_none {row : Fields} :
    wrongType row = none ↔ ∀ t ∈ typedFields, t.2.1 (row.field t.1) = true := by
  unfold wrongType
  rw [List.findSome?_eq_none_iff]
  refine forall₂_congr fun t _ => ?_
  split_ifs with h
  · simp [h]
  · simp [h]

/-- A value that may be set at a key. -/
def fits (p : String × Json) : Prop := ∀ t ∈ typedFields, t.1 = p.1 → t.2.1 p.2 = true

/-! ## Unfinished rows -/

theorem finished_of_status {row : Fields} {s : String} (h : row.field "status" = .str s)
    (hs : upper s ≠ "PENDING") : finished row = false := by
  unfold finished
  rw [h]
  have hne : upperIs (.str s) "PENDING" = false := decide_eq_false hs
  rw [hne, Bool.false_and]

theorem finished_of_not_fullySampled {row : Fields} (h : fullySampled row = false) :
    finished row = false := by
  unfold finished
  rw [h, Bool.and_false]

/-- A row without a sample has not all it requires. -/
theorem fullySampled_nil {row : Fields} (h : row.field "samples" = .arr []) : fullySampled row = false := by
  have hnone : ∀ interval, hasSample row interval = false := by
    intro interval
    unfold hasSample samplesOf
    rw [h]
    rfl
  unfold fullySampled requiredObservationIntervals
  split_ifs
  · simp [hnone]
  · simp [hnone, observationIntervals]

theorem fullySampled_congr {row row' : Fields} (hsamples : row'.field "samples" = row.field "samples")
    (hprofile : row'.field "tracking_profile" = row.field "tracking_profile") :
    fullySampled row' = fullySampled row := by
  unfold fullySampled requiredObservationIntervals
  have hsample : hasSample row' = hasSample row := by
    funext interval
    unfold hasSample samplesOf
    rw [hsamples]
  rw [hprofile, hsample]

/-! ## Changes of a row -/

theorem TypedRow.update {row : Fields} (h : TypedRow row) {items : List (String × Json)}
    (hfits : ∀ p ∈ items, fits p) : TypedRow (row.update items) where
  keys := fun key hkey => Dict.isSome_get?_update items (h.keys key hkey)
  typed := by
    intro t ht
    rcases Dict.field_update_or items row t.1 with ⟨x, hmem, hx⟩ | hx
    · rw [hx]
      exact hfits _ hmem t ht rfl
    · rw [hx]
      exact h.typed t ht

/-- A change that takes the row out of waiting. -/
theorem TypedRow.close {row : Fields} (h : TypedRow row) {items : List (String × Json)}
    (hfits : ∀ p ∈ items, fits p) (hn : (items.map Prod.fst).Nodup) {s : String}
    (hmem : ("status", .str s) ∈ items) (hs : upper s ≠ "PENDING") : CurrentRow (row.update items) :=
  ⟨h.update hfits, finished_of_status (Dict.field_update_of_mem row hn hmem) hs⟩

/-- A change of fields that the status of the samples does not depend on. -/
theorem CurrentRow.update_frame {row : Fields} (h : CurrentRow row) {items : List (String × Json)}
    (hfits : ∀ p ∈ items, fits p)
    (hkeys : ∀ key ∈ ["status", "samples", "tracking_profile"], key ∉ items.map Prod.fst) :
    CurrentRow (row.update items) := by
  refine ⟨h.toTypedRow.update hfits, ?_⟩
  have hstatus := Dict.field_update_of_not_mem row (hkeys "status" (by simp))
  have hsamples := Dict.field_update_of_not_mem row (hkeys "samples" (by simp))
  have hprofile := Dict.field_update_of_not_mem row (hkeys "tracking_profile" (by simp))
  unfold finished
  rw [hstatus, fullySampled_congr hsamples hprofile]
  exact h.unfinished

/-- The row is marked complete, with the time of it where it has none. -/
theorem TypedRow.setComplete {row : Fields} (h : TypedRow row) (completedAt : Json) :
    CurrentRow (if ((row.set "status" (.str "COMPLETE")).field "completed_at").truthy then
        row.set "status" (.str "COMPLETE")
      else (row.set "status" (.str "COMPLETE")).set "completed_at" completedAt) := by
  have hcomplete : upper "COMPLETE" ≠ "PENDING" := by decide
  have hclose {items : List (String × Json)} (hfits : ∀ p ∈ items, fits p) (hn : (items.map Prod.fst).Nodup)
      (hmem : ("status", .str "COMPLETE") ∈ items) : CurrentRow (row.update items) :=
    h.close hfits hn hmem hcomplete
  split_ifs
  · show CurrentRow (row.update [("status", .str "COMPLETE")])
    apply hclose <;> simp [fits, typedFields]
  · show CurrentRow (row.update [("status", .str "COMPLETE"), ("completed_at", completedAt)])
    apply hclose <;> simp [fits, typedFields]

/-- A new row. -/
theorem CurrentRow.ofList {items : List (String × Json)} (hn : (items.map Prod.fst).Nodup)
    (hkeys : ∀ key ∈ defaultKeys, key ∈ items.map Prod.fst) (hfits : ∀ p ∈ items, fits p)
    (hsamples : ("samples", .arr []) ∈ items) : CurrentRow (Dict.ofList items) where
  keys := fun key hkey => Dict.isSome_get?_ofList hn (hkeys key hkey)
  typed := by
    intro t ht
    -- every checked field is one of the defaults, so the list has an item for it
    have htkey : t.1 ∈ defaultKeys := by
      revert t
      decide
    obtain ⟨p, hp, hkey⟩ := List.mem_map.1 (hkeys t.1 htkey)
    rw [← hkey, Dict.field_of_get? (Dict.get?_ofList_of_mem hn hp)]
    exact hfits p hp t ht hkey.symm
  unfinished :=
    finished_of_not_fullySampled (fullySampled_nil (Dict.field_of_get? (Dict.get?_ofList_of_mem hn hsamples)))

/-! ## The migration of a row -/

section Migration

variable {py : Conversions} {now : String}

theorem defaults_keys (legacySchema : Bool) (row : Fields) :
    (defaults py legacySchema row).map Prod.fst = defaultKeys := rfl

/-- Every default is of the type that is checked. -/
theorem defaults_fit (legacySchema : Bool) (row : Fields) : ∀ p ∈ defaults py legacySchema row, fits p := by
  simp [defaults, fits, typedFields, texts]

theorem migrateRow_current {row : Fields} (h : CurrentRow row) (legacySchema : Bool) :
    migrateRow py legacySchema now row = .ok (false, row) := by
  unfold migrateRow
  rw [Dict.setDefaults_of_isSome (by rw [defaults_keys]; exact h.keys)]
  dsimp only
  rw [wrongType_eq_none.2 h.typed]
  simp only [h.unfinished, Bool.false_eq_true, if_false]

theorem TypedRow.complete {row : Fields} (h : TypedRow row) : CurrentRow (completeRow py now row) :=
  h.setComplete _

theorem currentRow_of_migrateRow {legacySchema : Bool} {row : Fields} {x : Bool × Fields}
    (h : migrateRow py legacySchema now row = .ok x) : CurrentRow x.2 := by
  unfold migrateRow at h
  have hkeys : ∀ key ∈ defaultKeys,
      ((Dict.setDefaults (defaults py legacySchema row) row).2.get? key).isSome = true :=
    fun key hkey => Dict.isSome_setDefaults row (by rw [defaults_keys]; exact hkey)
  dsimp only at h
  split at h
  · cases h
  · rename_i htyped
    rw [wrongType_eq_none] at htyped
    obtain rfl := Except.ok.inj h
    split_ifs with hfinished
    · exact TypedRow.complete ⟨hkeys, htyped⟩
    · exact ⟨⟨hkeys, htyped⟩, by simpa using hfinished⟩

theorem currentRows_of_migrateRows {legacySchema : Bool} : ∀ {items : List Json} {x : Bool × List Json},
    migrateRows py legacySchema now items = .ok x →
      ∃ rows : List Fields, x.2 = rows.map .ofFields ∧ ∀ row ∈ rows, CurrentRow row
  | [], x, h => by
    obtain rfl := Except.ok.inj h
    exact ⟨[], rfl, nofun⟩
  | item :: items, x, h => by
    unfold migrateRows at h
    obtain ⟨row, -, h⟩ := bind_ok h
    obtain ⟨y, hy, h⟩ := bind_ok h
    obtain ⟨rest, hrest, h⟩ := bind_ok h
    obtain rfl := Except.ok.inj h
    obtain ⟨rows, hrows, hcurrent⟩ := currentRows_of_migrateRows hrest
    refine ⟨y.2 :: rows, by rw [hrows]; rfl, ?_⟩
    exact List.forall_mem_cons.2 ⟨currentRow_of_migrateRow hy, hcurrent⟩

theorem migrateRows_current {rows : List Fields} (h : ∀ row ∈ rows, CurrentRow row) (legacySchema : Bool) :
    migrateRows py legacySchema now (rows.map .ofFields) = .ok (false, rows.map .ofFields) := by
  induction rows with
  | nil => rfl
  | cons row rows ih =>
    rw [List.forall_mem_cons] at h
    simp only [List.map_cons, migrateRows, Json.fields?_ofFields, orRaise]
    show (migrateRow py legacySchema now row >>= _) = _
    rw [migrateRow_current h.1]
    show (migrateRows py legacySchema now (rows.map .ofFields) >>= _) = _
    rw [ih h.2]
    rfl

/-! ## The migration of a document -/

variable (py) in
/-- A document that the migration has nothing to do with. -/
structure Current (document : Document) : Prop where
  version : schemaVersion py document = some observationSchemaVersion
  rows : ∃ rows : List Fields,
    document.get? "observations" = some (.arr (rows.map .ofFields)) ∧ ∀ row ∈ rows, CurrentRow row

theorem Current.rowsOf {document : Document} (h : Current py document) :
    ∀ row ∈ rowsOf document, CurrentRow row := by
  obtain ⟨rows, hrows, hcurrent⟩ := h.rows
  unfold Stored.rowsOf
  rw [Dict.field_of_get? hrows, Json.items_arr, List.filterMap_map]
  have hid : (Json.fields? ∘ Json.ofFields) = some := funext Json.fields?_ofFields
  rw [hid, List.filterMap_some]
  exact hcurrent

/-- A field that the migration does not read is set. -/
theorem Current.set {document : Document} (h : Current py document) {key : String} (x : Json)
    (hkey : key ≠ "schema_version") (hkey' : key ≠ "observations") : Current py (document.set key x) := by
  refine ⟨?_, ?_⟩
  · unfold schemaVersion
    rw [Dict.field_set_of_ne document x hkey.symm]
    exact h.version
  · rw [Dict.get?_set_of_ne document x hkey'.symm]
    exact h.rows

theorem current_of_migrate {document : Document} {x : Bool × Document}
    (h : migrateObservationDocument py now document = .ok x) : Current py x.2 := by
  unfold migrateObservationDocument at h
  obtain ⟨version, hversion, h⟩ := bind_ok h
  split_ifs at h with hnewer
  split at h
  · obtain ⟨y, hy, h⟩ := bind_ok h
    obtain ⟨rows, hrows, hcurrent⟩ := currentRows_of_migrateRows hy
    split_ifs at h with hchanged
    all_goals obtain rfl := Except.ok.inj h
    · have hn : ([("schema_version", Json.int observationSchemaVersion),
          ("updated_at", Json.str now)].map Prod.fst).Nodup := by simp
      refine ⟨?_, rows, ?_, hcurrent⟩
      · unfold schemaVersion
        rw [Dict.field_update_of_mem _ hn List.mem_cons_self]
        rfl
      · rw [Dict.get?_update_of_not_mem _ (by simp), Dict.get?_set_self, hrows]
    · -- nothing was written, so the version was the current one
      have hsame : version = observationSchemaVersion := by
        by_contra hne
        simp [hne] at hchanged
      refine ⟨?_, rows, by rw [Dict.get?_set_self, hrows], hcurrent⟩
      unfold schemaVersion
      rw [Dict.field_set_of_ne _ _ (by decide), ← hsame]
      exact orRaise_ok hversion
  · cases h

/-- The migration leaves a document of the current schema alone. -/
theorem migrate_current {document : Document} (h : Current py document) :
    migrateObservationDocument py now document = .ok (false, document) := by
  obtain ⟨rows, hrows, hcurrent⟩ := h.rows
  unfold migrateObservationDocument
  rw [h.version, hrows]
  simp only [orRaise, Option.getD_some]
  show (migrateRows py _ now (rows.map .ofFields) >>= _) = _
  rw [migrateRows_current hcurrent]
  have hset : document.set "observations" (.arr (rows.map .ofFields)) = document := Dict.set_of_get? hrows
  show Except.ok (false, document.set "observations" (.arr (rows.map .ofFields))) = _
  rw [hset]

/-- What the migration leaves of any document, it leaves alone. -/
theorem migrate_idempotent {document : Document} {x : Bool × Document}
    (h : migrateObservationDocument py now document = .ok x) (now' : String) :
    migrateObservationDocument py now' x.2 = .ok (false, x.2) :=
  migrate_current (current_of_migrate h)

theorem current_empty (now : String) : Current py (emptyObservations now) := by
  have hn : ([("schema_version", Json.int observationSchemaVersion), ("observations", .arr []),
      ("updated_at", .str now), ("version", .int 0)].map Prod.fst).Nodup := by simp
  have hversion : (emptyObservations now).field "schema_version" = .int observationSchemaVersion :=
    Dict.field_of_get? (Dict.get?_ofList_of_mem hn List.mem_cons_self)
  refine ⟨?_, [], ?_, nofun⟩
  · unfold schemaVersion
    rw [hversion]
    rfl
  · exact Dict.get?_ofList_of_mem hn (by simp)

end Migration

end Aibot.Observation.Stored
