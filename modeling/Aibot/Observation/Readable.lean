/-
Every document that the writers leave is one of the current schema, so the migration changes nothing of
it and the snapshot that is read without the lock never asks for a migration.
-/
import Aibot.Lib.Run
import Aibot.Observation.Migrated
import Aibot.Observation.Writers

namespace Aibot.Observation.Stored

/-! ## The rows of a write -/

/-- Rows of the current schema. -/
def CurrentRows (rows : List Fields) : Prop := ∀ row ∈ rows, CurrentRow row

/-- What a mutator saves is of the current schema. -/
def Saved.Current : Saved → Prop
  | .same => True
  | .touched rows | .stamped rows => CurrentRows rows

section Rows

variable {rows : List Fields}

theorem CurrentRows.append (h : CurrentRows rows) {row : Fields} (hrow : CurrentRow row) :
    CurrentRows (rows ++ [row]) :=
  List.forall_mem_append.2 ⟨h, List.forall_mem_singleton.2 hrow⟩

theorem findRow_some {observationId : String} {row : Fields} (h : findRow rows observationId = some row) :
    row ∈ rows :=
  List.mem_of_find?_eq_some h

theorem CurrentRows.modifyRow (h : CurrentRows rows) (observationId : String) {f : Fields → Fields}
    (hf : ∀ row, findRow rows observationId = some row → CurrentRow (f row)) :
    CurrentRows (modifyRow rows observationId f) := by
  intro row hrow
  rcases mem_modifyFirst hrow with hmem | ⟨old, hold, rfl⟩
  · exact h row hmem
  · exact hf old hold

theorem CurrentRows.expire (h : CurrentRows rows) {now : String} {rows' : List Fields}
    (hrows : expireObservationBacklog now rows = .ok rows') : CurrentRows rows' := by
  unfold expireObservationBacklog at hrows
  split_ifs at hrows
  obtain rfl := Except.ok.inj hrows
  intro row hrow
  rcases mem_mapFirst hrow with hmem | ⟨old, hold, -, rfl⟩
  · exact h row hmem
  · have hexpired : upper "EXPIRED_UNSAMPLED" ≠ "PENDING" := by decide
    exact (h old hold).close (by simp [fits, typedFields]) (by simp) List.mem_cons_self hexpired

theorem CurrentRows.retain (h : CurrentRows rows) {rows' : List Fields}
    (hrows : archiveAndRetainObservations rows = .ok rows') : CurrentRows rows' := by
  unfold archiveAndRetainObservations at hrows
  split_ifs at hrows
  obtain rfl := Except.ok.inj hrows
  exact fun row hrow => h row ((dropFirst_sublist _ rows).subset hrow)

theorem CurrentRows.expired (h : CurrentRows rows) {now : String} {rows' : List Fields}
    (hrows : expired now rows = .ok rows') : CurrentRows rows' := by
  obtain ⟨middle, hmiddle, hrows⟩ := bind_ok hrows
  exact (h.expire hmiddle).retain hrows

theorem CurrentRows.retained (h : CurrentRows rows) {saved : Saved} (hsaved : retained rows = .ok saved) :
    saved.Current := by
  obtain ⟨rows', hrows, hsaved⟩ := bind_ok hsaved
  obtain rfl := Except.ok.inj hsaved
  exact h.retain hrows

end Rows

/-! ## The mutators -/

section Mutators

variable {py : Conversions} {rows : List Fields} {saved : Saved} {now : ℚ}

theorem isObj_boundedMetadata (values : Option Fields) : (boundedMetadata py values).isObj = true := rfl

theorem isObj_normalizedSafetyMetrics (metrics : Option Fields) :
    (normalizedSafetyMetrics py metrics).isObj = true := rfl

theorem isArr_boundedReasons (reasons : List String) : (boundedReasons reasons).isArr = true := rfl

theorem discovered_current (r : DiscoveryRequest) (now : ℚ) :
    CurrentRow (Dict.ofList (r.payload py now)) := by
  apply CurrentRow.ofList
  · simp [DiscoveryRequest.payload]
  · simp [DiscoveryRequest.payload, defaultKeys]
  · simp [DiscoveryRequest.payload, fits, typedFields, isObj_boundedMetadata]
  · simp [DiscoveryRequest.payload]

theorem recordCandidateDiscovery_current (h : CurrentRows rows) {r : DiscoveryRequest}
    (hsaved : recordCandidateDiscovery py r now rows = .ok saved) : saved.Current := by
  unfold recordCandidateDiscovery at hsaved
  split at hsaved
  · split_ifs at hsaved
    obtain rfl := Except.ok.inj hsaved
    trivial
  · obtain ⟨rows', hrows, hsaved⟩ := bind_ok hsaved
    obtain rfl := Except.ok.inj hsaved
    exact (h.append (discovered_current r now)).expired hrows

section Decided

variable (r : DecisionRequest) (candidate : Bool × List String)

/-- The discovery metadata of a decision are those of the existing row, which are an object. -/
theorem decided_fits {existing : Option Fields} (h : ∀ row, existing = some row → CurrentRow row) :
    ∀ p ∈ r.payload py now candidate existing, fits p := by
  have hmetadata : ((existing.bind (·.get? "discovery_metadata")).getD (.obj [])).isObj = true := by
    cases existing with
    | none => rfl
    | some row =>
      have htyped := (h row rfl).typed ("discovery_metadata", Json.isObj, .malformedDiscoveryMetadata)
        (by simp [typedFields])
      unfold Dict.field at htyped
      cases hget : row.get? "discovery_metadata" with
      | none =>
        simp only [Option.bind_some, hget]
        rfl
      | some x =>
        rw [hget] at htyped
        simp only [Option.bind_some, hget]
        exact htyped
  simp [DecisionRequest.payload, fits, typedFields, isObj_normalizedSafetyMetrics, isArr_boundedReasons,
    hmetadata]

theorem decided_nodup (existing : Option Fields) :
    ((r.payload py now candidate existing).map Prod.fst).Nodup := by
  simp [DecisionRequest.payload]

theorem decided_samples (existing : Option Fields) :
    ("samples", Json.arr []) ∈ r.payload py now candidate existing := by
  simp [DecisionRequest.payload]

end Decided

theorem recordObservationDecision_current (h : CurrentRows rows) {r : DecisionRequest}
    (hsaved : recordObservationDecision py r now rows = .ok saved) : saved.Current := by
  unfold recordObservationDecision at hsaved
  dsimp only at hsaved
  split at hsaved
  · split_ifs at hsaved
    obtain rfl := Except.ok.inj hsaved
    trivial
  · split_ifs at hsaved
    obtain ⟨candidate, -, hsaved⟩ := bind_ok hsaved
    obtain ⟨rows', hrows, hsaved⟩ := bind_ok hsaved
    obtain rfl := Except.ok.inj hsaved
    refine CurrentRows.expired ?_ hrows
    cases hfind : findRow rows r.observationId with
    | none =>
      refine h.append (CurrentRow.ofList (decided_nodup r candidate none) ?_ ?_
        (decided_samples r candidate none))
      · simp [DecisionRequest.payload, defaultKeys]
      · exact decided_fits r candidate fun _ h => absurd h (Option.some_ne_none _).symm
    | some existing =>
      refine h.modifyRow _ fun row hrow => ?_
      have hexisting : ∀ old, some existing = some old → CurrentRow old := by
        intro old heq
        obtain rfl := Option.some.inj heq
        exact h existing (findRow_some hfind)
      refine ⟨(h row (findRow_some hrow)).toTypedRow.update (decided_fits r candidate hexisting), ?_⟩
      -- the row waits again, and has no sample
      exact finished_of_not_fullySampled (fullySampled_nil
        (Dict.field_update_of_mem _ (decided_nodup r candidate _) (decided_samples r candidate _)))

theorem finalizeCandidateWithoutQuote_current (h : CurrentRows rows) {r : FinalizeRequest}
    (hsaved : finalizeCandidateWithoutQuote py r now rows = .ok saved) : saved.Current := by
  unfold finalizeCandidateWithoutQuote at hsaved
  split at hsaved
  · obtain rfl := Except.ok.inj hsaved
    trivial
  · refine CurrentRows.retained (h.modifyRow _ fun row hrow => ?_) hsaved
    have hcomplete : upper "COMPLETE" ≠ "PENDING" := by decide
    refine (h row (findRow_some hrow)).close ?_ ?_ ?_ hcomplete
    · simp [FinalizeRequest.payload, fits, typedFields, isObj_normalizedSafetyMetrics, isArr_boundedReasons]
    · simp [FinalizeRequest.payload]
    · simp [FinalizeRequest.payload]

theorem marked_current {row : Fields} (h : CurrentRow row) (status : String) (positionId : Option String) :
    CurrentRow (marked status positionId row) := by
  unfold marked
  dsimp only
  have hset : ∀ (row : Fields) (x : Json), CurrentRow row → CurrentRow (row.set "research_decision" x) := by
    intro row x hrow
    have hupdate : CurrentRow (row.update [("research_decision", x)]) :=
      hrow.update_frame (by simp [fits, typedFields]) (by simp)
    exact hupdate
  apply hset
  split_ifs
  · exact h.update_frame (by simp [fits, typedFields]) (by simp)
  · exact h.update_frame (by simp [fits, typedFields]) (by simp)

theorem markPaperExperimentStatus_current (h : CurrentRows rows) {observationId status : String}
    {positionId : Option String}
    (hsaved : markPaperExperimentStatus observationId status positionId rows = .ok saved) :
    saved.Current := by
  unfold markPaperExperimentStatus at hsaved
  split at hsaved
  · obtain rfl := Except.ok.inj hsaved
    trivial
  · exact CurrentRows.retained
      (h.modifyRow _ fun row hrow => marked_current (h row (findRow_some hrow)) _ _) hsaved

theorem recordSampleAttempt_current (h : CurrentRows rows) {observationId interval error : String}
    (hsaved : recordSampleAttempt py observationId interval error now rows = .ok saved) :
    saved.Current := by
  unfold recordSampleAttempt at hsaved
  split at hsaved
  · obtain rfl := Except.ok.inj hsaved
    trivial
  · split_ifs at hsaved
    · obtain rfl := Except.ok.inj hsaved
      trivial
    · obtain ⟨count, -, hsaved⟩ := bind_ok hsaved
      obtain rfl := Except.ok.inj hsaved
      refine h.modifyRow _ fun row hrow => ?_
      refine (h row (findRow_some hrow)).update_frame ?_ (by simp)
      simp [fits, typedFields]

/-! ## Samples -/

/-- A typed row is complete after its last sample, and waits for another before it. -/
theorem completed_current {row : Fields} (h : TypedRow row) : CurrentRow (completed py now row) := by
  unfold completed
  split_ifs with hsampled
  · exact h.setComplete _
  · exact ⟨h, finished_of_not_fullySampled (by simpa using hsampled)⟩

theorem sampled_current {row row' : Fields} (h : CurrentRow row) {result : SampleResult}
    (hrow : sampled py result now row = .ok row') : CurrentRow row' := by
  unfold sampled at hrow
  obtain ⟨entryCost, -, hrow⟩ := bind_ok hrow
  obtain ⟨startedAt, -, hrow⟩ := bind_ok hrow
  obtain ⟨returns, -, hrow⟩ := bind_ok hrow
  obtain rfl := Except.ok.inj hrow
  apply completed_current
  apply h.toTypedRow.update
  split_ifs
  · simp [fits, typedFields]
  · simp [fits, typedFields]

theorem applySampleToDocument_current (h : CurrentRows rows) {result : SampleResult} {rows' : List Fields}
    (hrows : applySampleToDocument py result now rows = .ok (some rows')) : CurrentRows rows' := by
  unfold applySampleToDocument at hrows
  split at hrows
  · cases hrows
  · rename_i old hold
    split_ifs at hrows
    · cases hrows
    · obtain ⟨row, hrow, hrows⟩ := bind_ok hrows
      obtain rfl := Option.some.inj (Except.ok.inj hrows)
      exact h.modifyRow _ fun _ _ => sampled_current (h old (findRow_some hold)) hrow

theorem applySamples_current : ∀ {results : List SampleResult} {rows : List Fields} {x : Bool × List Fields},
    CurrentRows rows → applySamples py now results rows = .ok x → CurrentRows x.2
  | [], rows, x, h, hx => by
    obtain rfl := Except.ok.inj hx
    exact h
  | result :: results, rows, x, h, hx => by
    unfold applySamples at hx
    obtain ⟨applied, happlied, hx⟩ := bind_ok hx
    cases applied with
    | none => exact applySamples_current h hx
    | some rows' =>
      obtain ⟨y, hy, hx⟩ := bind_ok hx
      have hrest := applySamples_current (applySampleToDocument_current h happlied) hy
      obtain rfl := Except.ok.inj hx
      exact hrest

theorem recordSampleBatch_current (h : CurrentRows rows) {results : List SampleResult}
    (hsaved : recordSampleBatch py results now rows = .ok saved) : saved.Current := by
  unfold recordSampleBatch at hsaved
  obtain ⟨x, hx, hsaved⟩ := bind_ok hsaved
  split_ifs at hsaved
  · obtain ⟨rows', hrows, hsaved⟩ := bind_ok hsaved
    obtain rfl := Except.ok.inj hsaved
    exact (applySamples_current h hx).expired hrows
  · obtain rfl := Except.ok.inj hsaved
    trivial

/-! ## Reconciliation and archive markers -/

theorem reconciled_current {row : Fields} (h : CurrentRow row) :
    CurrentRow (row.update (reconciledPayload py now)) := by
  have hcomplete : upper "COMPLETE" ≠ "PENDING" := by decide
  refine h.close ?_ ?_ List.mem_cons_self hcomplete
  · simp [reconciledPayload, fits, typedFields, texts]
  · simp [reconciledPayload]

theorem withMarker_current {row : Fields} (h : CurrentRow row) (markers : Dict String String) :
    CurrentRow (withMarker py markers row) := by
  unfold withMarker
  split
  · exact h.update_frame (by simp [fits, typedFields]) (by simp)
  · exact h

theorem persistArchiveMarkers_current (h : CurrentRows rows) {markers : Dict String String}
    (hsaved : persistArchiveMarkers py markers rows = .ok saved) : saved.Current := by
  refine CurrentRows.retained (fun row hrow => ?_) hsaved
  obtain ⟨old, hold, rfl⟩ := List.mem_map.1 hrow
  exact withMarker_current (h old hold) markers

end Mutators

/-! ## The writers -/

section Writers

variable {py : Conversions} {document document' : Document}

/-- A document of the current schema with the rows that a mutator saves. -/
theorem savedDocument_current {saved : Saved} (h : saved.Current) (hd : Current py document)
    (now : String) : Current py (saved.document now document) := by
  have hstamp : ∀ {d : Document}, Current py d → Current py (d.set "updated_at" (.str now)) :=
    fun hd => hd.set _ (by decide) (by decide)
  cases saved with
  | same => exact hd
  | touched rows =>
    have hset : Current py (document.set "observations" (.arr (rows.map .ofFields))) := by
      refine ⟨?_, rows, Dict.get?_set_self .., h⟩
      unfold schemaVersion
      rw [Dict.field_set_of_ne _ _ (by decide)]
      exact hd.version
    exact hstamp hset
  | stamped rows =>
    have hset : Current py ((document.set "observations" (.arr (rows.map .ofFields))).set
        "schema_version" (.int observationSchemaVersion)) := by
      refine ⟨?_, rows, ?_, h⟩
      · unfold schemaVersion
        rw [Dict.field_set_self]
        rfl
      · rw [Dict.get?_set_of_ne _ _ (by decide), Dict.get?_set_self]
    exact hstamp hset

/-- Whatever document a writer finds, what it saves is of the current schema. -/
theorem updateJson_current {now : String} {mutate : List Fields → Except LedgerError Saved}
    (hmutate : ∀ {rows saved}, CurrentRows rows → mutate rows = .ok saved → saved.Current)
    (h : updateJson py now mutate document = .ok document') : Current py document' := by
  unfold updateJson at h
  obtain ⟨version, -, h⟩ := bind_ok h
  obtain ⟨x, hx, h⟩ := bind_ok h
  obtain ⟨saved, hsaved, h⟩ := bind_ok h
  obtain rfl := Except.ok.inj h
  have hcurrent := current_of_migrate hx
  exact (savedDocument_current (hmutate hcurrent.rowsOf hsaved) hcurrent now).set _ (by decide) (by decide)

theorem migrateJson_current {migrator : Document → Except LedgerError (Bool × Document)}
    (hmigrator : ∀ {x}, migrator document = .ok x → Current py x.2)
    (hd : Current py document) (h : migrateJson py migrator document = .ok document') :
    Current py document' := by
  unfold migrateJson at h
  obtain ⟨x, hx, h⟩ := bind_ok h
  split_ifs at h
  · obtain ⟨version, -, h⟩ := bind_ok h
    obtain rfl := Except.ok.inj h
    exact (hmigrator hx).set _ (by decide) (by decide)
  · obtain rfl := Except.ok.inj h
    exact hd

theorem reconcileInterruptedDiscoveries_current {now grace : ℚ} {x : Bool × Document}
    (h : reconcileInterruptedDiscoveries py now grace document = .ok x) : Current py x.2 := by
  unfold reconcileInterruptedDiscoveries at h
  obtain ⟨y, hy, h⟩ := bind_ok h
  have hcurrent := current_of_migrate hy
  dsimp only at h
  split_ifs at h
  all_goals obtain rfl := Except.ok.inj h
  · dsimp only
    refine savedDocument_current ?_ hcurrent _
    intro row hrow
    obtain ⟨old, hold, rfl⟩ := List.mem_map.1 hrow
    split_ifs
    · exact reconciled_current (hcurrent.rowsOf old hold)
    · exact hcurrent.rowsOf old hold
  · exact hcurrent

theorem LedgerOp.write_current {op : LedgerOp} (hd : Current py document)
    (h : op.write py document = .ok document') : Current py document' := by
  cases op with
  | startup => exact migrateJson_current current_of_migrate hd h
  | discovery =>
    exact updateJson_current (fun hrows hsaved => recordCandidateDiscovery_current hrows hsaved) h
  | decision =>
    exact updateJson_current (fun hrows hsaved => recordObservationDecision_current hrows hsaved) h
  | finalize =>
    exact updateJson_current (fun hrows hsaved => finalizeCandidateWithoutQuote_current hrows hsaved) h
  | mark =>
    exact updateJson_current (fun hrows hsaved => markPaperExperimentStatus_current hrows hsaved) h
  | sampleAttempt =>
    exact updateJson_current (fun hrows hsaved => recordSampleAttempt_current hrows hsaved) h
  | sampleBatch =>
    simp only [LedgerOp.write] at h
    split_ifs at h
    · obtain rfl := Except.ok.inj h
      exact hd
    · exact updateJson_current (fun hrows hsaved => recordSampleBatch_current hrows hsaved) h
  | reconcile => exact migrateJson_current reconcileInterruptedDiscoveries_current hd h
  | markers =>
    simp only [LedgerOp.write] at h
    split_ifs at h
    · obtain rfl := Except.ok.inj h
      exact hd
    · exact updateJson_current (fun hrows hsaved => persistArchiveMarkers_current hrows hsaved) h

theorem LedgerOp.step_current {op : LedgerOp} (hd : Current py document)
    (h : op.step py document = some document') : Current py document' := by
  unfold LedgerOp.step at h
  split at h
  · obtain rfl := Option.some.inj h
    exact hd
  · obtain rfl := Option.some.inj h
    cases hwrite : op.write py document with
    | error e => exact hd
    | ok written => exact op.write_current hd hwrite

end Writers

/-! ## The snapshot -/

/-- A document that a run starts from: the empty one, or one that the migration has seen. -/
inductive Start (py : Conversions) : Document → Prop
  | empty (now : String) : Start py (emptyObservations now)
  | migrated {document : Document} {now : String} {x : Bool × Document} :
      migrateObservationDocument py now document = .ok x → Start py x.2

theorem Start.current {py : Conversions} {document : Document} (h : Start py document) :
    Current py document := by
  cases h with
  | empty now => exact current_empty now
  | migrated hx => exact current_of_migrate hx

theorem current_run {py : Conversions} {start document : Document} {ops : List LedgerOp}
    (hstart : Start py start) (h : Run (LedgerOp.step py) Run.anyStep start ops document) :
    Current py document :=
  h.invariant (fun _ _ _ hd _ hstep => LedgerOp.step_current hd hstep) hstart.current

/-- Every document that calls of the writers, in any order, leave of the empty one or of a migrated one is
left alone by the migration, and so the snapshot that is read without the lock is the document. -/
theorem snapshot_readable {py : Conversions} {start document : Document} {ops : List LedgerOp}
    (hstart : Start py start) (h : Run (LedgerOp.step py) Run.anyStep start ops document) (now : String) :
    migrateObservationDocument py now document = .ok (false, document) ∧
      readObservationsSnapshot py now (some document) = .ok document := by
  have hmigrate : migrateObservationDocument py now document = .ok (false, document) :=
    migrate_current (current_run hstart h)
  refine ⟨hmigrate, ?_⟩
  unfold readObservationsSnapshot
  rw [Option.getD_some, hmigrate]
  rfl

/-- Numbers without a fraction, and one text for every reading of the clock. -/
def plainConversions : Conversions where
  int := String.toInt?
  float := fun s => s.toInt?.map Int.cast
  str := fun _ => "object"
  isoformat := fun _ => "2026-01-01T00:00:00+00:00"

/-- A document without a schema version, with a row that lacks only the mark of its completion. -/
def legacyDocument : Document :=
  Dict.ofList [("version", .int 7), ("observations", .arr
    [.obj [("observation_id", .str "waiting"), ("status", .str "pending"),
      ("samples", .arr (observationIntervals.map fun p => .obj [("interval", .str p.1)]))]])]

/-- An eligible decision, its first sample, and the archive marker of the row that was there. -/
def decidedOps : List LedgerOp :=
  [.decision ⟨"mint", "B", "wallet", "signature", 80, 1000, 1000, 6, 0, none, 50, 95, "", "", "", 12, none,
      none, none, "approved", [], "executable"⟩ 1,
    .sampleBatch [⟨"signature:wallet:mint", "1m", some 900, none, none, some 3⟩] 61,
    .markers [Dict.ofList [("observation_id", .str "waiting"), ("archive_schema_version", .int 1),
      ("archived_at", .str "2026-01-01")]] 62]

theorem snapshot_readable_decided : ∃ x document,
    migrateObservationDocument plainConversions "now" legacyDocument = .ok x ∧ x.1 = true ∧
      Run (LedgerOp.step plainConversions) Run.anyStep x.2 decidedOps document ∧
      (rowsOf document).length = 2 ∧
      readObservationsSnapshot plainConversions "now" (some document) = .ok document := by
  have h : ((migrateObservationDocument plainConversions "now" legacyDocument).toOption.any fun x =>
      x.1 && (exec (guarded (LedgerOp.step plainConversions) Run.anyStep) x.2 decidedOps).any fun document =>
        decide ((rowsOf document).length = 2)) = true := by decide +kernel
  obtain ⟨x, hx, h⟩ := (Option.any_eq_true _ _).1 h
  rw [Bool.and_eq_true] at h
  obtain ⟨hchanged, h⟩ := h
  have hmigrated : migrateObservationDocument plainConversions "now" legacyDocument = .ok x := by
    cases hm : migrateObservationDocument plainConversions "now" legacyDocument with
    | error e => rw [hm] at hx; cases hx
    | ok y => rw [hm] at hx; rw [Option.some.inj hx]
  obtain ⟨document, hrun, hlen⟩ := Run.exists_of_any h
  have hread := snapshot_readable (.migrated hmigrated) hrun "now"
  exact ⟨x, document, hmigrated, hchanged, hrun, hlen, hread.2⟩

end Aibot.Observation.Stored
