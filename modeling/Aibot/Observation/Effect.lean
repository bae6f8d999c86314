/-
What one call of an observation writer does to each row, said once: `Edit` lists every way a row is
changed in place, `Fresh` the rows that are added, and `write_effect` shows the lists are complete.
The invariants of the ledger are proved by cases on them.
-/
import Aibot.Observation.Ops

namespace Aibot.Observation

open Aibot.Risk

/-! ## Samples on one row -/

/-- Samples that apply, one after the other. -/
inductive Sampled : Row → Row → Prop
  | refl (row : Row) : Sampled row row
  | step {row row' : Row} {result : SampleResult} {now : Int} : result.observationId = row.observationId →
      row.terminal = false → result.interval ∉ row.completedIntervals →
      Sampled (row.sampled (result.sample now row) now) row' → Sampled row row'

theorem Sampled.trans {a b c : Row} (h : Sampled a b) (h' : Sampled b c) : Sampled a c := by
  induction h with
  | refl _ => exact h'
  | step hid ht hi _ ih => exact .step hid ht hi (ih h')

theorem Sampled.keeps {a b : Row} (h : Sampled a b) :
    b.observationId = a.observationId ∧ b.archivedAt = a.archivedAt ∧ b.quoteStatus = a.quoteStatus ∧
      b.paperExperimentStatus = a.paperExperimentStatus ∧ b.decisionStatus = a.decisionStatus ∧
      a.samples <+: b.samples := by
  induction h with
  | refl _ => exact ⟨rfl, rfl, rfl, rfl, rfl, List.prefix_rfl⟩
  | step _ _ _ _ ih =>
    obtain ⟨hid, ha, hq, hp, hd, hs⟩ := ih
    exact ⟨hid, ha, hq, hp, hd, (List.prefix_append _ _).trans hs⟩

/-- A terminal row takes no sample. -/
theorem Sampled.of_terminal {a b : Row} (h : Sampled a b) (ht : a.terminal = true) : b = a := by
  cases h with
  | refl _ => rfl
  | step _ hf => rw [ht] at hf; cases hf

/-! ## Edits -/

/-- The ways a call changes a row in place. -/
inductive Edit (rows : List Row) : ObservationOp → Row → Row → Prop
  | same {op : ObservationOp} {row : Row} : Edit rows op row row
  | decided {r : DecisionRequest} {now : Int} {row : Row} : row.observationId = r.observationId →
      row.quoteStatus ≠ "EXECUTABLE" → r.valid →
      Edit rows (.decision r now) row (r.row now (r.candidate now rows) (some row))
  | finalized {r : FinalizeRequest} {now : Int} {row : Row} : row.observationId = r.observationId →
      r.valid → Edit rows (.finalize r now) row (r.row now row)
  | marked {id : ObservationId} {status : PaperStatus} {positionId : Option Uuid} {row : Row} :
      row.observationId = id → Edit rows (.mark id status positionId) row (row.marked status positionId)
  | attempted {id : ObservationId} {interval : Interval} {row : Row} : row.observationId = id →
      Edit rows (.sampleAttempt id interval) row (row.attempted interval)
  | sampled {results : List SampleResult} {now : Int} {row row' : Row} : Sampled row row' →
      Edit rows (.sampleBatch results now) row row'
  | reconciled {now grace : Int} {row : Row} : row.interrupted now (max 60000000 grace) = true →
      Edit rows (.reconcile now grace) row (row.reconciled now)

/-- The rows a call adds. -/
inductive Fresh (rows : List Row) : ObservationOp → Row → Prop
  | discovered {r : DiscoveryRequest} {now : Int} : findRow rows r.observationId = none →
      Fresh rows (.discovery r now) (r.row now)
  | decided {r : DecisionRequest} {now : Int} : findRow rows r.observationId = none →
      r.valid → Fresh rows (.decision r now) (r.row now (r.candidate now rows) none)

theorem Edit.observationId {rows : List Row} {op : ObservationOp} {row row' : Row}
    (h : Edit rows op row row') : row'.observationId = row.observationId := by
  cases h with
  | decided hid => exact hid.symm
  | sampled hs => exact hs.keeps.1
  | same | finalized | marked | attempted | reconciled => rfl

/-- No call takes the archive marker from a row, or gives it one. -/
theorem Edit.archivedAt {rows : List Row} {op : ObservationOp} {row row' : Row}
    (h : Edit rows op row row') : row'.archivedAt = row.archivedAt := by
  cases h with
  | sampled hs => exact hs.keeps.2.1
  | same | decided | finalized | marked | attempted | reconciled => rfl

theorem Fresh.notFound {rows : List Row} {op : ObservationOp} {row : Row} (h : Fresh rows op row) :
    findRow rows row.observationId = none ∧ row.archivedAt = none := by
  cases h with
  | discovered hf => exact ⟨hf, rfl⟩
  | decided hf => exact ⟨hf, rfl⟩

/-! ## What a call writes -/

/-- No two rows have one id. -/
def UniqueIds (rows : List Row) : Prop := (rows.map Row.observationId).Nodup

/-- A change that keeps the id of every row. -/
theorem map_ids {rows : List Row} {g : Row → Row}
    (hg : ∀ row ∈ rows, (g row).observationId = row.observationId) :
    (rows.map g).map Row.observationId = rows.map Row.observationId := by
  rw [List.map_map]
  exact List.map_congr_left hg

theorem UniqueIds.map {rows : List Row} (hu : UniqueIds rows) {g : Row → Row}
    (hg : ∀ row ∈ rows, (g row).observationId = row.observationId) : UniqueIds (rows.map g) := by
  unfold UniqueIds
  rw [map_ids hg]
  exact hu

theorem findRow_none {rows : List Row} {id : ObservationId} :
    findRow rows id = none ↔ id ∉ rows.map Row.observationId := by
  unfold findRow
  simp [List.find?_eq_none]

theorem findRow_some {rows : List Row} {id : ObservationId} {row : Row} (h : findRow rows id = some row) :
    row ∈ rows ∧ row.observationId = id :=
  ⟨List.mem_of_find?_eq_some h, by simpa using List.find?_some h⟩

theorem findRow_mem {rows : List Row} (hu : UniqueIds rows) {row : Row} (h : row ∈ rows) :
    findRow rows row.observationId = some row := by
  cases hf : findRow rows row.observationId with
  | none => exact absurd (List.mem_map.2 ⟨row, h, rfl⟩) (findRow_none.1 hf)
  | some row' =>
    obtain ⟨hmem, hid⟩ := findRow_some hf
    rw [List.inj_on_of_nodup_map hu hmem h hid]

/-- The rows of a write before the retention, for a call that changes rows in place and adds some. -/
structure Effect (rows : List Row) (op : ObservationOp) (touched : List Row) : Prop where
  intro ::
  spec : ∃ (g : Row → Row) (added : List Row), (∀ row ∈ rows, Edit rows op row (g row)) ∧
    (∀ row ∈ added, Fresh rows op row) ∧ added.length ≤ 1 ∧
    (touched = rows.map g ++ added ∨ ∃ now, touched = expireObservationBacklog now (rows.map g ++ added))

theorem Effect.same {rows : List Row} {op : ObservationOp} : Effect rows op rows :=
  ⟨id, [], fun _ _ => .same, by simp, by simp, .inl (by simp)⟩

/-- One row, found by its id, is changed. -/
theorem modifyRow_eq_map {rows : List Row} (hu : UniqueIds rows) (id : ObservationId) (f : Row → Row) :
    modifyRow rows id f = rows.map fun row => if row.observationId = id then f row else row := by
  unfold modifyRow
  rw [modifyFirst_eq_map Row.observationId (fun x y hx hy => ?_) hu]
  · simp
  · have hx : x.observationId = id := by simpa using hx
    have hy : y.observationId = id := by simpa using hy
    rw [hx, hy]

theorem effect_modify {rows : List Row} (hu : UniqueIds rows) {op : ObservationOp} (id : ObservationId)
    {f : Row → Row} (hf : ∀ row ∈ rows, row.observationId = id → Edit rows op row (f row)) :
    Effect rows op (modifyRow rows id f) := by
  refine ⟨fun row => if row.observationId = id then f row else row, [], fun row hrow => ?_, by simp,
    by simp, .inl ?_⟩
  · show Edit rows op row (if row.observationId = id then f row else row)
    split_ifs with hid
    · exact hf row hrow hid
    · exact .same
  · rw [modifyRow_eq_map hu]; simp

theorem Effect.expire {rows touched : List Row} {op : ObservationOp} (now : Int)
    (h : ∃ (g : Row → Row) (added : List Row), (∀ row ∈ rows, Edit rows op row (g row)) ∧
      (∀ row ∈ added, Fresh rows op row) ∧ added.length ≤ 1 ∧ touched = rows.map g ++ added) :
    Effect rows op (expireObservationBacklog now touched) := by
  obtain ⟨g, added, hg, hadded, hlen, rfl⟩ := h
  exact ⟨g, added, hg, hadded, hlen, .inr ⟨now, rfl⟩⟩

/-- One row is added, then the backlog expires. -/
theorem Effect.appended {rows : List Row} {op : ObservationOp} {row : Row} (now : Int)
    (h : Fresh rows op row) : Effect rows op (expireObservationBacklog now (rows ++ [row])) := by
  refine .expire now ⟨id, [row], fun _ _ => .same, fun x hx => ?_, by simp, by simp⟩
  rw [List.mem_singleton.1 hx]
  exact h

/-- One row is changed, then the backlog expires. -/
theorem Effect.modified {rows : List Row} (hu : UniqueIds rows) {op : ObservationOp} (now : Int)
    (id : ObservationId) {f : Row → Row}
    (hf : ∀ row ∈ rows, row.observationId = id → Edit rows op row (f row)) :
    Effect rows op (expireObservationBacklog now (modifyRow rows id f)) := by
  refine .expire now ⟨fun row => if row.observationId = id then f row else row, [], fun row hrow => ?_,
    by simp, by simp, ?_⟩
  · show Edit rows op row (if row.observationId = id then f row else row)
    split_ifs with hid
    · exact hf row hrow hid
    · exact .same
  · rw [modifyRow_eq_map hu]; simp

/-- The samples of a batch, row by row. -/
theorem applySamples_rows (now : Int) : ∀ (results : List SampleResult) {rows : List Row},
    UniqueIds rows → ∃ g : Row → Row, (∀ row ∈ rows, Sampled row (g row)) ∧
      (applySamples now results rows).2 = rows.map g
  | [], rows, _ => ⟨id, fun row _ => .refl row, by simp [applySamples]⟩
  | result :: results, rows, hu => by
    unfold applySamples
    cases happ : applySampleToDocument result now rows with
    | none => exact applySamples_rows now results hu
    | some rows' =>
      unfold applySampleToDocument at happ
      split at happ
      · cases happ
      · rename_i row hrow
        split_ifs at happ with hskip
        obtain ⟨hmem, hid⟩ := findRow_some hrow
        obtain ⟨ht, hi⟩ := not_or.1 hskip
        rw [modifyRow_eq_map hu] at happ
        obtain rfl := Option.some.inj happ
        -- the row that takes the sample is the only one of its id
        have hone : ∀ x ∈ rows, Sampled x
            (if x.observationId = result.observationId then x.sampled (result.sample now x) now else x) := by
          intro x hx
          split_ifs with hxid
          · obtain rfl : x = row := List.inj_on_of_nodup_map hu hx hmem (hxid.trans hid.symm)
            exact .step hid.symm (by simpa using ht) hi (.refl _)
          · exact .refl x
        have hu' := hu.map fun x hx => (hone x hx).keeps.1
        obtain ⟨g, hg, heq⟩ := applySamples_rows now results hu'
        refine ⟨fun x => g (if x.observationId = result.observationId then
          x.sampled (result.sample now x) now else x), fun x hx => ?_, ?_⟩
        · exact (hone x hx).trans (hg _ (List.mem_map.2 ⟨x, hx, rfl⟩))
        · show (applySamples now results _).2 = _
          rw [heq, List.map_map]; rfl

/-- A decision is recorded once: a row with an executable quote keeps what it says. -/
theorem decision_effect {rows : List Row} (hu : UniqueIds rows) (r : DecisionRequest) (now : Int) :
    Effect rows (.decision r now) ((ObservationOp.decision r now).write rows).touched := by
  simp only [ObservationOp.write, recordObservationDecision]
  split_ifs with hpos hstatus
  · exact .same
  · cases hf : (findRow rows r.observationId).filter fun row => row.quoteStatus = "EXECUTABLE" with
    | some row => exact .same
    | none => exact .same
  · have hvalid : r.valid := by
      obtain ⟨hcost, hamount⟩ := not_or.1 hpos
      refine ⟨by omega, by omega, ?_⟩
      by_contra hne
      exact hstatus (not_or.1 hne)
    cases hf : findRow rows r.observationId with
    | none =>
      show Effect rows _ (Write.retain _).touched
      rw [Write.touched_retain]
      exact .appended now (.decided hf hvalid)
    | some existing =>
      by_cases hq : existing.quoteStatus = "EXECUTABLE"
      · simp only [Option.filter_some, hq, decide_true, if_true]
        exact .same
      · simp only [Option.filter_some, hq, decide_false, Bool.false_eq_true, if_false]
        show Effect rows _ (Write.retain _).touched
        rw [Write.touched_retain]
        refine .modified hu now _ fun row hrow hid => ?_
        rw [← hid, findRow_mem hu hrow] at hf
        obtain rfl := Option.some.inj hf
        exact .decided hid hq hvalid

/-- A batch changes rows only by the samples that apply. -/
theorem sampleBatch_effect {rows : List Row} (hu : UniqueIds rows) (results : List SampleResult)
    (now : Int) : Effect rows (.sampleBatch results now)
      ((ObservationOp.sampleBatch results now).write rows).touched := by
  simp only [ObservationOp.write, recordSampleBatch]
  split_ifs
  · exact .same
  · exact .same
  · simp only [recordSampleBatchMutate]
    split_ifs
    · exact .same
    · obtain ⟨g, hg, heq⟩ := applySamples_rows now results hu
      show Effect rows _ (Write.retain _).touched
      rw [Write.touched_retain]
      exact .expire now ⟨g, [], fun row hrow => .sampled (hg row hrow), by simp, by simp, by simpa using heq⟩

theorem write_effect {rows : List Row} (hu : UniqueIds rows) (op : ObservationOp) :
    Effect rows op (op.write rows).touched := by
  cases op with
  | discovery r now =>
    simp only [ObservationOp.write, recordCandidateDiscovery]
    split
    · exact .same
    · rename_i hf
      rw [Write.touched_retain]
      exact .appended now (.discovered hf)
  | decision r now => exact decision_effect hu r now
  | finalize r now =>
    simp only [ObservationOp.write, finalizeCandidateWithoutQuote]
    split_ifs with hvalid
    · split
      · exact .same
      · exact effect_modify hu _ fun row _ hid => .finalized hid hvalid
    · exact .same
  | mark id status positionId =>
    simp only [ObservationOp.write, markPaperExperimentStatus]
    split_ifs
    · split
      · exact .same
      · exact effect_modify hu _ fun row _ hid => .marked hid
    · exact .same
  | sampleAttempt id interval =>
    simp only [ObservationOp.write, recordSampleAttempt]
    split
    · exact .same
    · split_ifs
      · exact .same
      · exact effect_modify hu _ fun row _ hid => .attempted hid
  | sampleBatch results now => exact sampleBatch_effect hu results now
  | reconcile now grace =>
    refine ⟨fun row => if row.interrupted now (max 60000000 grace) then row.reconciled now else row, [],
      fun row _ => ?_, by simp, by simp, .inl ?_⟩
    · show Edit rows _ row (if _ then _ else row)
      split_ifs with hint
      · exact .reconciled hint
      · exact .same
    · simp [ObservationOp.write, reconcileInterruptedDiscoveries, Write.touched]

/-! ## Markers -/

/-- A marker changes neither the id of a row nor what it says. -/
theorem withMarker_keeps (markers : Dict ObservationId Int) (row : Row) :
    (row.withMarker markers).observationId = row.observationId ∧
      (row.withMarker markers).content = row.content := by
  unfold Row.withMarker
  split <;> exact ⟨rfl, rfl⟩

theorem map_withMarker (markers : Dict ObservationId Int) (rows : List Row) :
    (rows.map (Row.withMarker markers)).map Row.observationId = rows.map Row.observationId :=
  map_ids fun row _ => (withMarker_keeps markers row).1

/-- A row that gets its marker, or not: it says the same. -/
theorem withMarker_row (markers : Dict ObservationId Int) (row : Row) :
    ∃ archivedAt, row.withMarker markers = { row with archivedAt := archivedAt } := by
  unfold Row.withMarker
  split
  · exact ⟨_, rfl⟩
  · exact ⟨row.archivedAt, rfl⟩

/-- The rows before the retention, when markers are persisted. -/
theorem persist_map (snapshots rows : List Row) : ∃ markers : Dict ObservationId Int,
    (persistArchiveMarkers snapshots rows).touched = rows.map (Row.withMarker markers) := by
  unfold persistArchiveMarkers
  dsimp only
  split_ifs
  · refine ⟨Dict.empty, ?_⟩
    exact (List.map_id'' (fun _ => rfl) rows).symm
  · exact ⟨_, rfl⟩

/-- The persistence of markers leaves the ids of the rows before the retention. -/
theorem map_persist (snapshots rows : List Row) :
    (persistArchiveMarkers snapshots rows).touched.map Row.observationId = rows.map Row.observationId := by
  obtain ⟨markers, h⟩ := persist_map snapshots rows
  rw [h, map_withMarker]

/-! ## Row by row -/

/-- A row at the end of a write: as it was edited, or given up by the expiry. -/
inductive Aged : Row → Row → Prop
  | same {row : Row} : Aged row row
  | expired {row : Row} {now : Int} : row.expirable = true → Aged row (row.expire now)

theorem Aged.keeps {a b : Row} (h : Aged a b) :
    b.observationId = a.observationId ∧ b.archivedAt = a.archivedAt ∧ b.samples = a.samples := by
  cases h <;> exact ⟨rfl, rfl, rfl⟩

/-- A terminal row is not given up. -/
theorem Aged.of_terminal {a b : Row} (h : Aged a b) (ht : a.terminal = true) : b = a := by
  cases h with
  | same => rfl
  | expired he =>
    unfold Row.expirable at he
    rw [ht] at he; cases he

theorem Effect.backward {rows touched : List Row} {op : ObservationOp} (h : Effect rows op touched)
    {row'' : Row} (hmem : row'' ∈ touched) :
    (∃ row ∈ rows, ∃ row', Edit rows op row row' ∧ Aged row' row'') ∨
      ∃ row', Fresh rows op row' ∧ Aged row' row'' := by
  obtain ⟨g, added, hg, hadded, -, htouched⟩ := h.spec
  have hsource : ∀ row' ∈ rows.map g ++ added, Aged row' row'' →
      (∃ row ∈ rows, ∃ row', Edit rows op row row' ∧ Aged row' row'') ∨
        ∃ row', Fresh rows op row' ∧ Aged row' row'' := by
    intro row' hrow' haged
    rcases List.mem_append.1 hrow' with hrow' | hrow'
    · obtain ⟨row, hrow, rfl⟩ := List.mem_map.1 hrow'
      exact .inl ⟨row, hrow, _, hg row hrow, haged⟩
    · exact .inr ⟨row', hadded row' hrow', haged⟩
  rcases htouched with rfl | ⟨now, rfl⟩
  · exact hsource row'' hmem .same
  · rcases mem_expire hmem with hmem | ⟨row', hmem', hexp, rfl⟩
    · exact hsource row'' hmem .same
    · exact hsource row' hmem' (.expired hexp)

theorem Effect.forward {rows touched : List Row} {op : ObservationOp} (h : Effect rows op touched)
    {row : Row} (hmem : row ∈ rows) :
    ∃ row' row'', Edit rows op row row' ∧ Aged row' row'' ∧ row'' ∈ touched := by
  obtain ⟨g, added, hg, -, -, htouched⟩ := h.spec
  have hg' : g row ∈ rows.map g ++ added := List.mem_append_left _ (List.mem_map.2 ⟨row, hmem, rfl⟩)
  rcases htouched with rfl | ⟨now, rfl⟩
  · exact ⟨g row, g row, hg row hmem, .same, hg'⟩
  · rcases expire_mem now hg' with hin | ⟨hexp, hin⟩
    · exact ⟨g row, g row, hg row hmem, .same, hin⟩
    · exact ⟨g row, (g row).expire now, hg row hmem, .expired hexp, hin⟩

/-- A call never gives two rows one id. -/
theorem Effect.unique {rows touched : List Row} {op : ObservationOp} (h : Effect rows op touched)
    (hu : UniqueIds rows) : UniqueIds touched := by
  obtain ⟨g, added, hg, hadded, hlen, htouched⟩ := h.spec
  have hids := map_ids fun row hrow => (hg row hrow).observationId
  have hmid : UniqueIds (rows.map g ++ added) := by
    unfold UniqueIds
    rw [List.map_append, hids, List.nodup_append]
    refine ⟨hu, ?_, fun a ha b hb hab => ?_⟩
    · rcases added with _ | ⟨x, _ | ⟨y, rest⟩⟩
      · simp
      · simp
      · simp at hlen
    · obtain ⟨row, hrow, rfl⟩ := List.mem_map.1 hb
      exact findRow_none.1 (hadded row hrow).notFound.1 (hab ▸ ha)
  rcases htouched with rfl | ⟨now, rfl⟩
  · exact hmid
  · unfold UniqueIds at hmid ⊢
    rw [map_expire Row.observationId now (fun _ => rfl)]; exact hmid

theorem UniqueIds.write {rows : List Row} (hu : UniqueIds rows) (op : ObservationOp) :
    UniqueIds (op.write rows).rows :=
  ((write_effect hu op).unique hu).sublist ((Write.rows_sublist _).map _)

theorem UniqueIds.markers {rows : List Row} (hu : UniqueIds rows) (snapshots : List Row) :
    UniqueIds (persistArchiveMarkers snapshots rows).rows := by
  refine List.Nodup.sublist ((Write.rows_sublist _).map _) ?_
  rw [map_persist]
  exact hu

/-! ## The row of one observation -/

/-- The row of an observation after a call is its row before, edited, or one that the call adds. -/
theorem find_write {rows : List Row} (hu : UniqueIds rows) {op : ObservationOp} {id : ObservationId}
    {row'' : Row} (h : findRow (op.write rows).rows id = some row'') :
    (∃ row, findRow rows id = some row ∧ ∃ row', Edit rows op row row' ∧ Aged row' row'') ∨
      ∃ row', Fresh rows op row' ∧ row'.observationId = id ∧ Aged row' row'' := by
  obtain ⟨hmem, rfl⟩ := findRow_some h
  rcases (write_effect hu op).backward ((Write.rows_sublist _).subset hmem) with
    ⟨row, hrow, row', hedit, haged⟩ | ⟨row', hnew, haged⟩
  · refine .inl ⟨row, ?_, row', hedit, haged⟩
    rw [haged.keeps.1, hedit.observationId]
    exact findRow_mem hu hrow
  · exact .inr ⟨row', hnew, haged.keeps.1.symm, haged⟩

/-- The row of an observation is saved after a call, edited, or retention drops it. -/
theorem write_find {rows : List Row} (hu : UniqueIds rows) (op : ObservationOp) {id : ObservationId}
    {row : Row} (h : findRow rows id = some row) :
    ∃ row' row'', Edit rows op row row' ∧ Aged row' row'' ∧
      (findRow (op.write rows).rows id = some row'' ∨ row'' ∈ (op.write rows).evicted) := by
  obtain ⟨hmem, rfl⟩ := findRow_some h
  obtain ⟨row', row'', hedit, haged, hmem''⟩ := (write_effect hu op).forward hmem
  refine ⟨row', row'', hedit, haged, (Write.saved_or_evicted hmem'').imp_left fun hsaved => ?_⟩
  have hu' : UniqueIds (op.write rows).rows :=
    ((write_effect hu op).unique hu).sublist ((Write.rows_sublist _).map _)
  rw [← hedit.observationId, ← haged.keeps.1]
  exact findRow_mem hu' hsaved

end Aibot.Observation
